import AttentionDB.Storage.PlacedWrites

/-!
# Walks that meet every placed blob

While a compaction goes on, its segment gets no further blob and its file keeps
those it has. So a walk that begins after the last block of the segment was
written meets all its blobs, in whatever order the steps of the writers, the
flush thread and the GC thread come.
-/

namespace AttentionDB

open GuardedRuns BlobStore Rows

set_option autoImplicit false

/-- The callback was called once for every blob placed in the segment. -/
def GcRemoval.LosesNoBlob (removal : GcRemoval) : Prop :=
  ∀ request ∈ removal.placed, removal.calls.count request = removal.placed.count request

/-- Every `pwrite` of the step transfers all its bytes. -/
def pwritesSucceed (gc : GcSystem) : GcLabel → Prop
  | .store (.writeBegin _ _ io) _ => io.header = .complete
  | .store (.writeResume _ io) _ => io.header = .complete
  | .store (.writeDirect _ io result) _ => io.header = .complete ∧ result = .complete
  | .store (.flush (.write result)) _ =>
      ∀ b ∈ gc.system.flush.block, StoreSystem.blockWritten gc.store b result = true
  | _ => True

def GcPc.candidate : GcPc → Option Nat
  | .idle candidates => candidates.head?
  | _ => none

/-- The rest of the condition on a step: appends go to the end of the active
segment, no block of a removed segment is written, a compaction begins when no
blob of the segment waits in a block, and its reads succeed. -/
def walksWhole (gc : GcSystem) : GcLabel → Prop
  | .store (.writeBegin _ request _) _ => AppendsCleanly gc.store request ∧
      (request.data.length ≤ 2 ^ 32 - 1 - kEntryHeaderSize → RequestOk request)
  | .store (.flush (.write _)) _ => ∀ b ∈ gc.system.flush.block,
      ∃ seg ∈ gc.store.segments, seg.id = (gc.store.blocks b).segmentId
  | .gc .lookup => ∀ segmentId ∈ gc.gc.candidate,
      ∀ ack ∈ gc.system.unwritten, ack.loc.segmentId ≠ segmentId
  | .gc (.readHeader readOk) => readOk = true
  | .gc (.readEntry readOk) => readOk = true
  | _ => True

/-- No two segments have one id, and the counter of ids has not wrapped. -/
structure IdsFresh (s : BlobStore) : Prop where
  distinct : (s.segments.map (·.id)).Nodup
  room : s.nextSegmentId < 2 ^ 32

def gcGuard (gc : GcSystem) (label : GcLabel) : Prop :=
  pwritesSucceed gc label ∧ IdsFresh gc.store ∧ walksWhole gc label

/-! ## What the threads know -/

structure WritersInv (s : BlobStore) (writers : Nat → WriterPc) : Prop where
  handed : ∀ t request, writers t = .waiting request → Handed s
  single : ∀ t u first second, writers t = .waiting first → writers u = .waiting second → t = u
  waiting : ∀ t request, writers t = .waiting request →
    RequestOk request ∧ entryDiskSize request.data.length ≤ blockCapacity s.config
  direct : ∀ t request, writers t = .direct request → RequestOk request

/-- The walk of a sealed segment whose blobs are all in its file. -/
structure WalkInv (gc : GcSystem) (scan : GcScan) : Prop where
  sealed : ∃ k, Sealed gc.store k scan
  written : ∀ ack ∈ gc.system.unwritten, ack.loc.segmentId ≠ scan.segmentId

/-- The callback was called for all blobs of the segment but those to come. -/
def Walked (gc : GcSystem) (scan : GcScan) (todo : List PlacedBlob) : Prop :=
  ∃ done, placedIn gc.placed scan.segmentId = done ++ todo ∧
    scan.calls = done.map (·.request) ∧
    Row PlacedBlob.offset PlacedBlob.size scan.offset scan.writeOffset todo

def GcPcOk (gc : GcSystem) : GcPc → Prop
  | .idle _ => True
  | .header scan _ => WalkInv gc scan ∧
      (placedIn gc.placed scan.segmentId ≠ [] → ∃ todo, Walked gc scan todo)
  | .entry scan paddedSize _ => WalkInv gc scan ∧
      (placedIn gc.placed scan.segmentId ≠ [] →
        ∃ p todo, Walked gc scan (p :: todo) ∧ paddedSize = p.size)
  | .removing scan _ => WalkInv gc scan ∧
      (placedIn gc.placed scan.segmentId ≠ [] →
        scan.calls = (placedIn gc.placed scan.segmentId).map (·.request))

structure GcLive (gc : GcSystem) : Prop where
  placed : PlacedInv gc.store gc.system.flush gc.system.unwritten gc.placed
  writers : WritersInv gc.store gc.system.writers
  pc : GcPcOk gc gc.gc

/-- Ids that a step has made ambiguous end what is known, but no removal
happened before. -/
structure GcInv (gc : GcSystem) : Prop where
  live : (gc.store.segments.map (·.id)).Nodup → GcLive gc
  removals : ∀ removal ∈ gc.removals, removal.LosesNoBlob

/-! ## Other threads and the walk -/

section Walk

variable {gc after : GcSystem} {scan : GcScan} {new : List PlacedBlob} {pc : GcPc}

/-- What a step of another thread leaves to the walk. -/
structure LeavesWalk (gc after : GcSystem) (new : List PlacedBlob) : Prop where
  placed : after.placed = gc.placed ++ new
  unwritten : ∀ ack ∈ after.system.unwritten, ack ∈ gc.system.unwritten ∨ ∃ p ∈ new, p.ack = ack
  seals : ∀ k scan, Sealed gc.store k scan →
    Sealed after.store k scan ∧ ∀ p ∈ new, p.segmentId ≠ scan.segmentId

theorem LeavesWalk.walk_inv (leaves : LeavesWalk gc after new) (walk : WalkInv gc scan) :
    WalkInv after scan ∧ placedIn after.placed scan.segmentId = placedIn gc.placed scan.segmentId := by
  rcases walk.sealed with ⟨k, sealed⟩
  rcases leaves.seals k scan sealed with ⟨kept, others⟩
  refine ⟨⟨⟨k, kept⟩, ?_⟩, ?_⟩
  · intro ack member
    rcases leaves.unwritten ack member with old | ⟨p, isNew, same⟩
    · exact walk.written ack old
    · rw [← same]
      exact others p isNew
  · rw [leaves.placed, placedIn, List.filter_append]
    have none : new.filter (·.segmentId = scan.segmentId) = [] := placed_in_eq_nil others
    rw [none, List.append_nil]
    rfl

theorem LeavesWalk.pc_ok (leaves : LeavesWalk gc after new) (ok : GcPcOk gc pc) : GcPcOk after pc := by
  cases pc with
  | idle candidates => trivial
  | header scan rest =>
      rcases leaves.walk_inv ok.1 with ⟨walk, same⟩
      refine ⟨walk, ?_⟩
      unfold Walked
      rw [same]
      exact ok.2
  | entry scan paddedSize rest =>
      rcases leaves.walk_inv ok.1 with ⟨walk, same⟩
      refine ⟨walk, ?_⟩
      unfold Walked
      rw [same]
      exact ok.2
  | removing scan rest =>
      rcases leaves.walk_inv ok.1 with ⟨walk, same⟩
      refine ⟨walk, ?_⟩
      rw [same]
      exact ok.2

end Walk

/-! ## Steps of the GC thread -/

section Gc

variable {gc after : GcSystem} {scan : GcScan} {segmentId : Nat}

theorem gc_find_sealed {s : BlobStore} (found : s.gcFind segmentId = some scan) :
    (∃ k, Sealed s k scan) ∧ scan.segmentId = segmentId ∧ scan.offset = kSegmentHeaderSize ∧
      scan.calls = [] := by
  unfold gcFind at found
  split at found
  · contradiction
  · rename_i seg k search
    have listed := List.mem_zipIdx_iff_getElem?.1 (List.mem_of_find?_eq_some search)
    have fits := List.find?_some search
    simp only [ne_eq, decide_not, Bool.and_eq_true, decide_eq_true_eq, Bool.not_eq_eq_eq_not,
      Bool.not_true, decide_eq_false_iff_not] at fits
    rw [Option.map_eq_some_iff] at found
    rcases found with ⟨path, fd, rfl⟩
    exact ⟨⟨k, ⟨seg, listed, fits.1, fd, rfl⟩, fits.2⟩, rfl, rfl, rfl⟩

/-- The blobs of the walk's segment are in the file that the walk reads. -/
theorem GcLive.in_file (live : GcLive gc) (walk : WalkInv gc scan) {p : PlacedBlob}
    (member : p ∈ placedIn gc.placed scan.segmentId) :
    RequestOk p.request ∧ FileHolds (gc.store.files scan.path) p.offset p.request := by
  rcases placed_in_iff.1 member with ⟨known, inSegment⟩
  rcases walk.sealed with ⟨k, sealed⟩
  rcases sealed.found with ⟨seg, found, id, fd, _⟩
  have listed := List.mem_of_getElem? found
  have nonempty : placedIn gc.placed seg.id ≠ [] := by
    rw [id]
    exact List.ne_nil_of_mem member
  have row := live.placed.rows.rows seg listed nonempty
  have path : scan.path = .canonical p.segmentId := by
    rw [inSegment, ← id]
    exact Option.some.inj (fd.symm.trans row.fd)
  have written : p.ack ∉ gc.system.unwritten := fun waits => walk.written p.ack waits inSegment
  refine ⟨live.placed.rows.requests p known, ?_⟩
  rw [path]
  exact live.placed.stored p known written ⟨seg, listed, id.trans inSegment.symm⟩

/-- A walk begins with all blobs of the segment ahead of it. -/
theorem GcLive.walk_begins (live : GcLive gc) (found : gc.store.gcFind segmentId = some scan)
    (written : ∀ ack ∈ gc.system.unwritten, ack.loc.segmentId ≠ segmentId) :
    WalkInv gc scan ∧
      (placedIn gc.placed scan.segmentId ≠ [] →
        Walked gc scan (placedIn gc.placed scan.segmentId)) := by
  rcases gc_find_sealed found with ⟨sealed, isId, start, none⟩
  constructor
  · refine ⟨sealed, ?_⟩
    rw [isId]
    exact written
  · intro nonempty
    rcases sealed with ⟨k, sealed⟩
    rcases sealed.found with ⟨seg, listed, id, _, offset⟩
    rw [← id] at nonempty
    have row := (live.placed.rows.rows seg (List.mem_of_getElem? listed) nonempty).row
    refine ⟨[], rfl, none, ?_⟩
    rw [start, ← offset, ← id]
    exact row

/-- A read of a header meets the next blob, or the walk has met all of them. -/
theorem GcLive.walk_header (live : GcLive gc) {todo : List PlacedBlob} (walk : WalkInv gc scan)
    (walked : Walked gc scan todo) :
    (scan.offset < scan.writeOffset → ∃ p rest, todo = p :: rest ∧
      gc.store.gcReadHeader scan true = some p.size) ∧
    (¬scan.offset < scan.writeOffset →
      scan.calls = (placedIn gc.placed scan.segmentId).map (·.request)) := by
  rcases walked with ⟨done, blobs, calls, row⟩
  constructor
  · intro before
    rcases row.next before with ⟨p, rest, isCons⟩
    subst isCons
    refine ⟨p, rest, rfl, ?_⟩
    have member : p ∈ placedIn gc.placed scan.segmentId := by simp [blobs]
    rcases live.in_file walk member with ⟨ok, holds⟩
    rw [row.head.1] at holds
    exact gc_reads_header ok holds
  · intro reached
    have stop : scan.offset = scan.writeOffset := by
      have order := row.start_le_stop
      omega
    rw [← stop] at row
    have finished : todo = [] := by
      apply row.nothing
      intro p member
      have inSegment : p ∈ placedIn gc.placed scan.segmentId := by simp [blobs, member]
      exact live.placed.rows.positive (placed_in_iff.1 inSegment).1
    rw [blobs, finished, List.append_nil]
    exact calls

/-- The callback gets the blob, and the walk goes on behind it. -/
theorem GcLive.walk_entry (live : GcLive gc) {p : PlacedBlob} {todo : List PlacedBlob}
    (walk : WalkInv gc scan) (walked : Walked gc scan (p :: todo)) :
    gc.store.gcReadEntry scan p.size true = some p.request ∧
      Walked gc { scan with offset := scan.offset + p.size, calls := scan.calls ++ [p.request] } todo := by
  rcases walked with ⟨done, blobs, calls, row⟩
  rcases row.head with ⟨position, rest⟩
  constructor
  · have member : p ∈ placedIn gc.placed scan.segmentId := by simp [blobs]
    rcases live.in_file walk member with ⟨ok, holds⟩
    rw [position] at holds
    exact gc_reads_entry ok holds
  · refine ⟨done ++ [p], ?_, ?_, rest⟩
    · simp [blobs]
    · simp [calls]

/-- With the same store and history, the walk only depends on its segment. -/
theorem WalkInv.moved {other : GcScan} (walk : WalkInv gc scan) (id : other.segmentId = scan.segmentId)
    (path : other.path = scan.path) (offset : other.writeOffset = scan.writeOffset) :
    WalkInv gc other := by
  constructor
  · rcases walk.sealed with ⟨k, sealed⟩
    refine ⟨k, ?_, sealed.notActive⟩
    rw [id, path, offset]
    exact sealed.found
  · rw [id]
    exact walk.written

end Gc

/-! ## Writers -/

section Writers

variable {s after : BlobStore} {writers : Nat → WriterPc} {t : Nat} {request : WriteRequest}
  {io : SegmentIo} {outcome : WriteOutcome}

theorem Handed.keep (handed : Handed s) (active : after.activeBlock = s.activeBlock)
    (roles : ∀ b, otherRoles after b = otherRoles s b) : Handed after := by
  intro b isActive
  rw [roles]
  exact handed b (active.symm.trans isActive)

theorem WritersInv.keep (inv : WritersInv s writers) (config : after.config = s.config)
    (active : after.activeBlock = s.activeBlock) (roles : ∀ b, otherRoles after b = otherRoles s b) :
    WritersInv after writers := by
  refine { inv with handed := ?_, waiting := ?_ }
  · intro u request waits
    exact (inv.handed u request waits).keep active roles
  · rw [config]
    exact inv.waiting

/-- A writer that does not wait afterwards. -/
theorem WritersInv.set_awake (inv : WritersInv s writers) {pc : WriterPc}
    (awake : ∀ request, pc ≠ .waiting request) (direct : ∀ request, pc = .direct request → RequestOk request) :
    WritersInv s (Function.update writers t pc) := by
  have old : ∀ u other, Function.update writers t pc u = .waiting other → writers u = .waiting other := by
    intro u other waits
    by_cases same : u = t
    · subst same
      rw [Function.update_self] at waits
      exact absurd waits (awake other)
    · rwa [Function.update_of_ne same] at waits
  constructor
  · intro u other waits
    exact inv.handed u other (old u other waits)
  · intro u v first second left right
    exact inv.single u v first second (old u first left) (old v second right)
  · intro u other waits
    exact inv.waiting u other (old u other waits)
  · intro u other goes
    by_cases same : u = t
    · subst same
      rw [Function.update_self] at goes
      exact direct other goes
    · rw [Function.update_of_ne same] at goes
      exact inv.direct u other goes

/-- A section in which no other writer waits. -/
theorem WritersInv.after_section (inv : WritersInv s writers)
    (others : ∀ u, u ≠ t → ∀ other, writers u ≠ .waiting other)
    (waits : outcome = .waiting →
      Handed after ∧ RequestOk request ∧ entryDiskSize request.data.length ≤ blockCapacity after.config)
    (goes : outcome = .direct → RequestOk request) :
    WritersInv after (Function.update writers t (StoreSystem.pcAfter request outcome)) := by
  have only : ∀ u other,
      Function.update writers t (StoreSystem.pcAfter request outcome) u = .waiting other →
        u = t ∧ outcome = .waiting ∧ other = request := by
    intro u other pc
    by_cases same : u = t
    · subst same
      rw [Function.update_self] at pc
      cases outcome with
      | waiting => exact ⟨rfl, rfl, (WriterPc.waiting.inj pc).symm⟩
      | stored | failed | direct => contradiction
    · rw [Function.update_of_ne same] at pc
      exact absurd pc (others u same other)
  constructor
  · intro u other pc
    exact (waits (only u other pc).2.1).1
  · intro u v first second left right
    rw [(only u first left).1, (only v second right).1]
  · intro u other pc
    rcases only u other pc with ⟨_, slept, rfl⟩
    exact (waits slept).2
  · intro u other pc
    by_cases same : u = t
    · subst same
      rw [Function.update_self] at pc
      cases outcome with
      | direct =>
          cases pc
          exact goes rfl
      | stored | failed | waiting => contradiction
    · rw [Function.update_of_ne same] at pc
      exact inv.direct u other pc

/-- A section that leaves the store alone, or uses the active block. -/
theorem enter_uses (cases : EnterCases s request io outcome after) :
    (outcome = .waiting ∨ outcome = .direct → request.data.length ≤ 2 ^ 32 - 1 - kEntryHeaderSize) ∧
      ((after = s ∧ outcome ≠ .waiting) ∨ ∃ b, s.activeBlock = some b ∧
        entryDiskSize request.data.length ≤ (s.blocks b).capacity) := by
  cases cases with
  | refused status bad => exact ⟨by simp, .inl ⟨rfl, by simp⟩⟩
  | goesDirect b isActive long short => exact ⟨fun _ => short, .inl ⟨rfl, by simp⟩⟩
  | rotates b isActive fits full short rest => exact ⟨fun _ => short, .inr ⟨b, isActive, fits⟩⟩
  | appends b i isActive room short current =>
      exact ⟨fun _ => short, .inr ⟨b, isActive, by omega⟩⟩

theorem WritersInv.enter (inv : WritersInv s writers)
    (capacity : ∀ b, (s.blocks b).capacity = blockCapacity s.config) (clean : AppendsCleanly s request)
    (ok : request.data.length ≤ 2 ^ 32 - 1 - kEntryHeaderSize → RequestOk request)
    (cases : EnterCases s request io outcome after) (handed : outcome = .waiting → Handed after) :
    WritersInv after (Function.update writers t (StoreSystem.pcAfter request outcome)) := by
  have config := (enter_monotone cases).2
  rcases enter_uses cases with ⟨short, ⟨rfl, awake⟩ | ⟨b, isActive, fits⟩⟩
  · apply inv.set_awake
    · intro other pc
      cases outcome with
      | waiting => exact awake rfl
      | stored | failed | direct => contradiction
    · intro other pc
      cases outcome with
      | direct =>
          cases pc
          exact ok (short (.inr rfl))
      | stored | failed | waiting => contradiction
  · -- the active block is in no other role, so no writer sleeps
    apply inv.after_section
    · intro u _ other waits
      exact inv.handed u other waits b isActive (clean b isActive fits).1
    · intro slept
      rw [capacity b] at fits
      exact ⟨handed slept, ok (short (.inl slept)), by rw [config]; exact fits⟩
    · intro goes
      exact ok (short (.inr goes))

end Writers

/-! ## Steps of the other threads -/

section Store

variable {gc : GcSystem} {after : StoreSystem} {t : Nat} {request : WriteRequest} {io : SegmentIo}
  {outcome : WriteOutcome} {store : BlobStore}

@[simp] theorem after_section_unwritten (system : StoreSystem) :
    (system.afterSection t request (outcome, store)).unwritten =
      StoreSystem.recorded system.unwritten request outcome store := by
  cases outcome <;> rfl

/-- The history of requests after a section, for the label of that section. -/
theorem newly_placed_section (system : StoreSystem) {label : StoreLabel}
    (isRequest : system.requestOf label = some request) :
    system.newlyPlaced label (system.afterSection t request (outcome, store)) =
      placedBy request store.activeBlock outcome := by
  cases outcome <;>
    simp [StoreSystem.newlyPlaced, StoreSystem.recorded, placedBy, isRequest]

theorem newly_placed_direct (system : StoreSystem) {label : StoreLabel}
    (isRequest : system.requestOf label = some request) :
    system.newlyPlaced label (system.afterDirect t request (outcome, store)) =
      placedBy request none outcome := by
  cases outcome <;>
    simp [StoreSystem.newlyPlaced, StoreSystem.afterDirect, StoreSystem.setWriter, placedBy, isRequest]

theorem newly_placed_nothing (system : StoreSystem) (label : StoreLabel) (same : after.acked = system.acked) :
    system.newlyPlaced label after = [] := by
  simp [StoreSystem.newlyPlaced, same]

theorem recorded_unwritten (unwritten : List Ack) :
    ∀ ack ∈ StoreSystem.recorded unwritten request outcome store,
    ack ∈ unwritten ∨ ∃ p ∈ placedBy request store.activeBlock outcome, p.ack = ack := by
  intro ack member
  cases outcome with
  | stored loc =>
      rcases List.mem_cons.1 member with rfl | old
      · exact .inr ⟨_, List.mem_singleton_self _, rfl⟩
      · exact .inl old
  | failed | waiting | direct => exact .inl member

/-- What is known after a step of a writer, a reader or the flush thread. -/
structure StoreStepped (gc : GcSystem) (after : StoreSystem) (new : List PlacedBlob) : Prop where
  placed : PlacedInv after.store after.flush after.unwritten (gc.placed ++ new)
  writers : WritersInv after.store after.writers
  leaves : LeavesWalk gc { gc with system := after, placed := gc.placed ++ new } new

theorem section_stepped
    (placed : PlacedInv store gc.system.flush (StoreSystem.recorded gc.system.unwritten request outcome store)
      (gc.placed ++ placedBy request store.activeBlock outcome))
    (writers : WritersInv store
      (Function.update gc.system.writers t (StoreSystem.pcAfter request outcome)))
    (seals : ∀ k scan, Sealed gc.store k scan → Sealed store k scan ∧
      ∀ p ∈ placedBy request store.activeBlock outcome, p.segmentId ≠ scan.segmentId) :
    StoreStepped gc (gc.system.afterSection t request (outcome, store))
      (placedBy request store.activeBlock outcome) := by
  constructor
  · simpa using placed
  · simpa using writers
  · refine { placed := rfl, unwritten := ?_, seals := ?_ }
    · intro ack member
      rw [after_section_unwritten] at member
      exact recorded_unwritten gc.system.unwritten ack member
    · intro k scan sealed
      simpa [GcSystem.store] using seals k scan sealed

theorem unwritten_after_sublist (system : StoreSystem) (step : FlushStep) :
    ∀ ack ∈ system.unwrittenAfter step, ack ∈ system.unwritten := by
  intro ack member
  unfold StoreSystem.unwrittenAfter at member
  split at member
  · split at member
    · split at member
      · exact (List.mem_filter.1 member).1
      · exact member
    · exact member
  · exact member

theorem PlacedInv.flush_step {system : StoreSystem} {placed : List PlacedBlob}
    (inv : PlacedInv system.store system.flush system.unwritten placed) {step : FlushStep} {pc : FlushPc}
    (succeeds : ∀ result b, step = .write result → system.flush = .writing b →
      StoreSystem.blockWritten system.store b result = true ∧
        ((system.store.blocks b).pos ≠ 0 → ∀ path, (system.store.blocks b).segmentFd = some path →
          path = .canonical (system.store.blocks b).segmentId))
    (ran : system.store.flushStep system.flush step = some (pc, store)) :
    PlacedInv store pc (system.unwrittenAfter step) placed := by
  unfold StoreSystem.unwrittenAfter
  unfold flushStep at ran
  split at ran
  · rename_i idle
    rw [idle] at inv
    exact inv.flush_pop ran
  · rename_i b result writing
    rw [writing] at inv
    obtain ⟨complete, own⟩ := succeeds result b rfl writing
    simp only [writing, complete, if_true]
    cases ran
    exact inv.flush_write complete own
  · rename_i b written
    rw [written] at inv
    cases ran
    exact inv.flush_release
  · contradiction

/-- A step of a reader changes nothing that the others know. -/
theorem GcLive.reader_stepped (live : GcLive gc) (label : StoreLabel)
    (sameStore : after.store = gc.system.store) (flush : after.flush = gc.system.flush)
    (writers : after.writers = gc.system.writers) (acked : after.acked = gc.system.acked)
    (unwritten : after.unwritten = gc.system.unwritten) :
    StoreStepped gc after (gc.system.newlyPlaced label after) := by
  rw [newly_placed_nothing gc.system label acked]
  constructor
  · rw [sameStore, flush, unwritten, List.append_nil]
    exact live.placed
  · rw [sameStore, writers]
    exact live.writers
  · refine { placed := rfl, unwritten := ?_, seals := ?_ }
    · intro ack member
      rw [unwritten] at member
      exact .inl member
    · intro k scan sealed
      have same : (GcSystem.store { gc with system := after, placed := gc.placed ++ [] }) = gc.store :=
        sameStore
      rw [same]
      exact ⟨sealed, by simp⟩

theorem GcLive.store_step (live : GcLive gc) {label : StoreLabel} {fd : Nat}
    (allowed : gcGuard gc (.store label fd))
    (moved : gc.system.exec label = some after) (distinct : (after.store.segments.map (·.id)).Nodup) :
    StoreStepped gc after (gc.system.newlyPlaced label after) := by
  rcases allowed with ⟨succeeds, fresh, walks⟩
  cases label with
  | writeBegin t request io =>
      rcases walks with ⟨clean, ok⟩
      rcases StoreSystem.write_begin_step moved with ⟨outcome, store, idle, entered, rfl⟩
      rw [StoreSystem.after_section_store] at distinct
      have cases := enter_cases entered
      have capacity : ∀ b, (gc.store.blocks b).capacity = blockCapacity gc.store.config :=
        fun b => (live.placed.rows.spans b).capacity
      rcases live.placed.enter clean ok fresh.room cases distinct with ⟨placed, handed⟩
      have writers := live.writers.enter (t := t) capacity clean ok cases handed
      rw [newly_placed_section gc.system rfl]
      apply section_stepped placed writers
      intro k scan sealed
      exact sealed.enter fresh.distinct clean cases distinct _
  | writeResume t io =>
      rcases StoreSystem.write_resume_step moved with ⟨request, outcome, store, waiting, resumed, rfl⟩
      rw [StoreSystem.after_section_store] at distinct
      have cases := acquire_cases resumed
      have asleep := live.writers.handed t request waiting
      rcases live.writers.waiting t request waiting with ⟨ok, fits⟩
      rcases live.placed.acquire asleep ok fits fresh.room cases distinct with ⟨placed, handed⟩
      have isRequest : gc.system.requestOf (.writeResume t io) = some request := by
        simp [StoreSystem.requestOf, waiting]
      rw [newly_placed_section gc.system isRequest]
      apply section_stepped placed
      · apply live.writers.after_section
        · intro u other pending waits
          exact other (live.writers.single u t pending request waits waiting)
        · intro slept
          have config := acquire_config cases
          exact ⟨handed slept, ok, by rw [config]; exact fits⟩
        · intro goes
          exact ok
      · intro k scan sealed
        exact sealed.acquire cases distinct _
  | writeDirect t io result =>
      rcases StoreSystem.write_direct_step moved with ⟨request, outcome, store, direct, written, rfl⟩
      rw [StoreSystem.after_direct_store] at distinct
      have ok := live.writers.direct t request direct
      have placed := live.placed.write_direct ok fresh.room written distinct
      have isRequest : gc.system.requestOf (.writeDirect t io result) = some request := by
        simp [StoreSystem.requestOf, direct]
      rw [newly_placed_direct gc.system isRequest]
      rcases write_direct_frame written with ⟨_, active, queue, free, flushing⟩
      have config := (write_direct_monotone written).2
      have roles : ∀ b, otherRoles store b = otherRoles gc.store b := by
        intro b
        rw [otherRoles, queue, flushing, free]
        rfl
      constructor
      · simpa using placed
      · rw [StoreSystem.after_direct_store, StoreSystem.after_direct_writers]
        exact (live.writers.keep config active roles).set_awake (by simp) (by simp)
      · refine { placed := rfl, unwritten := ?_, seals := ?_ }
        · intro ack member
          rw [StoreSystem.after_direct_unwritten] at member
          exact .inl member
        · intro k scan sealed
          simpa [GcSystem.store] using sealed.write_direct written distinct none
  | flush step =>
      rcases StoreSystem.flush_thread_step moved with ⟨pc, store, ran, rfl⟩
      have nothing : gc.system.newlyPlaced (.flush step)
          { gc.system with flush := pc, store, unwritten := gc.system.unwrittenAfter step } = [] :=
        newly_placed_nothing gc.system _ rfl
      rw [nothing]
      rcases flush_step_frame ran with ⟨_, config, segments, activeSegment, activeBlock⟩
      have roles := flush_step_roles live.placed.flushing ran
      constructor
      · rw [List.append_nil]
        refine live.placed.flush_step ?_ ran
        rintro result b rfl writing
        have isBlock : b ∈ gc.system.flush.block := by
          rw [writing]
          rfl
        refine ⟨succeeds b isBlock, ?_⟩
        intro nonempty path fd
        exact (live.placed.rows.spans b).own_file (walks b isBlock) fd nonempty
      · exact live.writers.keep config activeBlock roles
      · refine { placed := rfl, unwritten := ?_, seals := ?_ }
        · intro ack member
          exact .inl (unwritten_after_sublist gc.system step ack member)
        · intro k scan sealed
          exact ⟨sealed.congr segments activeSegment, by simp⟩
  | readBegin r loc bufLen | readPending r | readLookup r | readDisk r readOk =>
      rcases StoreSystem.reader_step rfl moved with ⟨reader, pc, rfl⟩
      exact live.reader_stepped _ rfl rfl rfl rfl rfl

end Store

/-! ## A number that is used again -/

section Numbers

variable {s : BlobStore} {flush : FlushPc} {unwritten : List Ack} {placed : List PlacedBlob}

/-- A block that has a file keeps it. -/
theorem PlacedInv.with_descriptors (inv : PlacedInv s flush unwritten placed) {blocks : Nat → WriteBlock}
    (kept : ∀ b, ∃ descriptor, blocks b = { s.blocks b with segmentFd := descriptor } ∧
      ∀ path, (s.blocks b).segmentFd = some path → descriptor = some path) :
    PlacedInv { s with blocks } flush unwritten placed := by
  have span : ∀ b, BlockSpan { s with blocks } (blocks b) := by
    intro b
    obtain ⟨descriptor, block, held⟩ := kept b
    have span := inv.rows.spans b
    rw [block]
    refine { span with capacity := span.capacity, created := span.created, named := ?_ }
    intro reset seg member id
    obtain ⟨named, bound⟩ := span.named reset seg member id
    exact ⟨held _ named, bound⟩
  refine { inv with rows := { inv.rows with spans := span, blocks := ?_ }, roles := inv.roles, buffered := ?_ }
  · intro b p member
    obtain ⟨descriptor, block, _⟩ := kept b
    change BufferHolds (blocks b) p ∨ Avoids (blocks b) p
    rw [block]
    rcases inv.rows.blocks b p member with inside | clear
    · exact .inl (inside.with_fd _)
    · exact .inr clear
  · intro p member waits
    obtain ⟨c, block, keeps, holds⟩ := inv.buffered p member waits
    obtain ⟨descriptor, same, _⟩ := kept c
    refine ⟨c, block, keeps, ?_⟩
    change BufferHolds (blocks c) p
    rw [same]
    exact holds.with_fd _

/-- Nobody who knows something of the run uses the number of a closed file. -/
theorem GcLive.numbered {gc : GcSystem} (live : GcLive gc) (fd : Nat) (path : SegmentPath) :
    GcLive (gc.numbered fd path) := by
  have leaves : LeavesWalk gc (gc.numbered fd path) [] :=
    { placed := (List.append_nil _).symm
      unwritten := fun _ member => .inl member
      seals := fun _ _ sealed => ⟨sealed.congr rfl rfl, by simp⟩ }
  refine
    { placed := live.placed.with_descriptors ?_
      writers := live.writers.keep rfl rfl fun _ => rfl
      pc := leaves.pc_ok live.pc }
  intro b
  obtain ⟨descriptor, block, same | ⟨none, _⟩⟩ := numbered_block gc fd path b
  · exact ⟨descriptor, block, fun _ held => same.trans held⟩
  · refine ⟨descriptor, block, fun _ held => ?_⟩
    rw [none] at held
    contradiction

end Numbers

end AttentionDB
