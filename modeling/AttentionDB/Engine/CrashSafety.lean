import AttentionDB.Engine.GenerationSteps
import AttentionDB.Engine.LastSave

/-!
# Crash safety

Over any number of processes on one directory, with crashes at any point, a get
returns the bytes of a put of its key. No range that a checkpoint may refer to
is used for other data: it holds the blob it was acknowledged for or nothing,
and the segments of earlier processes are not written again.
-/

namespace AttentionDB

open GuardedRuns ByteMap BlobStore Checkpoint

set_option autoImplicit false

/-- Every get that returned `kOk` returned the blob of a put of its key that
came before it, in this process or in an earlier one. -/
def GetsIssued : List Call → Prop
  | [] => True
  | .get key _ reply :: earlier =>
      (reply.status = .kOk → Issued earlier key reply.bytes) ∧ GetsIssued earlier
  | .put _ _ _ _ :: earlier => GetsIssued earlier
  | .del _ _ :: earlier => GetsIssued earlier

/-- What no process does to the data of earlier ones, and of its own. -/
structure Generations.NeverReused (s : Generations) : Prop where
  ranges : ∀ ack ∈ s.ledger, WrittenOrBlank (s.filesNow (.canonical ack.loc.segmentId)) ack
  segments : ∀ p t2, s.running = some p → p.engine.t2Store = some t2 → ∀ ack ∈ s.old,
    (∀ b ∈ t2.store.pendingBlocks, (t2.store.blocks b).segmentId ≠ ack.loc.segmentId) ∧
      ∀ seg, t2.store.currentSegment = some seg → seg.id ≠ ack.loc.segmentId

section Runs

variable {xxh32 : List UInt8 → UInt32} {s after : Generations} {label : GenerationLabel}

theorem gets_issued_step (inv : GenerationInv xxh32 WrittenOrBlank s) (issued : GetsIssued s.log)
    (allowed : Reliable xxh32 s label) (moved : (generationMachine xxh32).exec s label = some after) :
    GetsIssued after.log := by
  rcases allowed with ⟨io, _⟩
  cases generation_cases moved with
  | get key bufLen getIo p reply engine isRunning ran =>
      refine ⟨fun ok => ?_, issued⟩
      exact Engine.get_issued io (inv.safe p isRunning) (Engine.get_cases ran) ok
  | crashed point p found => cases found <;> exact issued
  | closed calls closeIo p checkpoint found => cases found <;> exact issued
  | opened | put | evicted | del | flushed | beganSave | saved => exact issued

theorem GenerationInv.never_reused (inv : GenerationInv xxh32 WrittenOrBlank s) : s.NeverReused := by
  constructor
  · intro ack member
    cases isRunning : s.running with
    | none =>
        rw [Generations.ledger, isRunning] at member
        rw [Generations.filesNow, isRunning]
        exact (inv.survives ack member).content
    | some p =>
        rw [ledger_running isRunning] at member
        rw [Generations.filesNow, isRunning]
        dsimp only
        cases isStore : p.engine.t2Store with
        | none =>
            rw [Engine.acked, isStore, List.nil_append] at member
            exact (inv.survives ack member).content
        | some t2 =>
            rw [Engine.acked_of_store isStore] at member
            have alive := (inv.safe p isRunning).t2 t2 isStore
            rcases List.mem_append.1 member with present | earlier
            · exact alive.onFile ack present
            · exact (alive.old ack earlier).content
  · intro p t2 isRunning isStore ack member
    have settled := ((inv.safe p isRunning).t2 t2 isStore).old ack member
    exact ⟨settled.apart, settled.inactive⟩

/-- In every run over any number of processes, each of which may crash at any
point, gets return what was put and nothing that a checkpoint may refer to is
used for other data. -/
theorem crash_safety (reached : ReachWithin (generationMachine xxh32) (Reliable xxh32) s) :
    GetsIssued s.log ∧ s.NeverReused := by
  have inv := reached.invariant (fun s => GenerationInv xxh32 WrittenOrBlank s ∧ GetsIssued s.log)
    (fun _ initial => ⟨generation_start initial, by cases initial; trivial⟩)
    fun _ _ _ inv allowed moved =>
      ⟨generation_step written_or_blank_behind_header (fun _ _ => Or.inl) (fun _ _ => rfl) inv.1
        allowed moved, gets_issued_step inv.1 inv.2 allowed moved⟩
  exact ⟨inv.2, inv.1.never_reused⟩

end Runs

/-! ## A blob that outlives a crash -/

def tieredOpen (ids : List Nat) : GenerationLabel :=
  .openEngine tieredConfig
    { allocBacking := fun _ => 4096, store := { listing := some (ids.map foundSegment) } }

def tieredPutCalls : List GenerationLabel :=
  [.put probeKey [7] { entryType := .kSystemPrompt, recomputeCost := 100 } {}, .evict {}, .evict {}]

def saveCalls (count : Nat) : List SaveCall := [.loadDirty] ++ imageCalls count ++ [.clearDirty]

def crashLabels : List GenerationLabel :=
  [tieredOpen []] ++ tieredPutCalls ++ [.get probeKey 1 {}, .beginSave] ++
    (saveCalls 1).map .saveCall ++
    [.crash (.inClose [.pop, .write .complete, .release] 0 fun _ => {}), tieredOpen [0],
      .get probeKey 1 {}]

/-- The hash of the 94 bytes of the one record in the checkpoint. -/
def tieredHash : List UInt8 → UInt32 := fun _ => 0x92956423

def crashRun : Generations := last (generationMachine tieredHash) {} crashLabels

def quietSteps (steps : List FlushStep) : Bool :=
  steps.all fun step => match step with
    | .write result => result = .complete
    | _ => true

def quietWrite (io : T2WriteIo) : Bool := io.before = [] && io.segment.opened && io.naps = []

def quietRead (io : T2ReadIo) : Bool :=
  io.beforePending = [] && io.beforeLookup = [] && io.beforeDisk = []

def singleClass (a : SlabAllocator) : Bool :=
  match a.classes with
  | [sc] => decide (0 < sc.base) && decide (sc.base + sc.slotSize * sc.numSlots ≤ 2 ^ 64)
  | _ => false

theorem single_class_checked {a : SlabAllocator} (checked : singleClass a = true) : a.Backed := by
  rcases a with ⟨classes, totalBytes⟩
  unfold singleClass at checked
  split at checked
  · rename_i sc isClass
    simp only [Bool.and_eq_true, decide_eq_true_eq] at checked
    cases isClass
    exact single_class_backed sc checked.1 checked.2
  · contradiction

section Checks

variable (xxh32 : List UInt8 → UInt32)

def quietLabel (s : Generations) : GenerationLabel → Bool
  | .openEngine config io =>
      io.store.listing = some (s.ids.map foundSegment) &&
        (s.recovered xxh32 config io).all fun p => p.engine.t1Allocator.all singleClass
  | .put _ _ _ io => quietWrite io.t2
  | .evict io => quietWrite io.t2
  | .get _ _ io => quietRead io.first && quietRead io.second
  | .flush step => quietSteps [step]
  | .close _ io => quietSteps io.steps
  | .crash point => match point with
    | .between => true
    | .inWrite _ _ _ => false
    | .inClose steps _ _ => quietSteps steps
  | .del _ | .beginSave | .saveCall _ => true

def bufferedStore (s : Generations) : Bool :=
  s.running.all fun p => p.engine.t2Store.all fun t2 =>
    decide (t2.store.nextSegmentId < 2 ^ 32) && decide (blockCapacity t2.store.config < 2 ^ 31) &&
      t2.handed.all fun length => decide (entryDiskSize length ≤ blockCapacity t2.store.config)

def reliableCheck (s : Generations) (label : GenerationLabel) : Bool :=
  quietLabel xxh32 s label && ((generationMachine xxh32).exec s label).all bufferedStore

theorem quiet_steps_succeed {steps : List FlushStep} (checked : quietSteps steps = true) :
    FlushSucceeds steps := by
  intro result member
  have here := List.all_eq_true.1 checked _ member
  simpa using here

theorem quiet_write_checked {io : T2WriteIo} (checked : quietWrite io = true) : io.Succeeds := by
  simp only [quietWrite, Bool.and_eq_true, decide_eq_true_eq] at checked
  rcases checked with ⟨⟨before, opened⟩, naps⟩
  refine ⟨by rw [before]; exact no_flush_succeeds, opened, fun nap member => ?_⟩
  rw [naps] at member
  cases member

theorem quiet_read_checked {io : T2ReadIo} (checked : quietRead io = true) : io.Succeeds := by
  simp only [quietRead, Bool.and_eq_true, decide_eq_true_eq] at checked
  rcases checked with ⟨⟨pending, lookup⟩, disk⟩
  exact ⟨by rw [pending]; exact no_flush_succeeds, by rw [lookup]; exact no_flush_succeeds,
    by rw [disk]; exact no_flush_succeeds⟩

theorem reliable_check_sound (s : Generations) (label : GenerationLabel)
    (checked : reliableCheck xxh32 s label = true) : Reliable xxh32 s label := by
  rw [reliableCheck, Bool.and_eq_true] at checked
  rcases checked with ⟨quiet, buffered⟩
  constructor
  · cases label with
    | openEngine config io =>
        simp only [quietLabel, Bool.and_eq_true, decide_eq_true_eq] at quiet
        rcases quiet with ⟨listing, allocator⟩
        refine ⟨⟨_, s.ids, listing, found_segments s.ids, List.Perm.refl _⟩,
          fun p a ran isAllocator => ?_⟩
        rw [ran, Option.all_some, isAllocator, Option.all_some] at allocator
        exact single_class_checked allocator
    | put key blob opts io => exact quiet_write_checked quiet
    | evict io => exact quiet_write_checked quiet
    | get key bufLen io =>
        simp only [quietLabel, Bool.and_eq_true] at quiet
        exact ⟨quiet_read_checked quiet.1, quiet_read_checked quiet.2⟩
    | flush step => exact quiet_steps_succeed quiet
    | close calls io => exact quiet_steps_succeed quiet
    | crash point =>
        intro p _
        cases point with
        | between => trivial
        | inWrite request io last => cases quiet
        | inClose steps count headers => exact quiet_steps_succeed quiet
    | del | beginSave | saveCall => trivial
  · intro after p moved isRunning t2 isStore
    rw [moved] at buffered
    simp only [Option.all_some, bufferedStore, isRunning, isStore, Bool.and_eq_true,
      decide_eq_true_eq, List.all_eq_true] at buffered
    exact ⟨buffered.1.1, buffered.1.2, buffered.2⟩

end Checks

/-- The blob is read before the crash and after it. -/
theorem crash_safety_reopened :
    crashRun.log.take 2 = [.get probeKey 1 { status := .kOk, bytes := [7] },
      .get probeKey 1 { status := .kOk, bytes := [7] }] ∧
    GetsIssued crashRun.log ∧ crashRun.NeverReused := by
  have reached : ReachWithin (generationMachine tieredHash) (Reliable tieredHash) crashRun :=
    ReachWithin.to_last (fun _ => True) (reliableCheck tieredHash)
      (fun s label _ => reliable_check_sound tieredHash s label)
      (fun _ _ _ _ _ _ => trivial) (.start rfl) trivial crashLabels (by decide +kernel)
  exact ⟨by decide +kernel, crash_safety reached⟩

end AttentionDB
