import AttentionDB.Storage.Close
import AttentionDB.Storage.GcSafety

/-!
# Sequence numbers in a directory

One writer calls a store over a directory, closes it, and opens the next store
over the same files. Each header carries the value that `write_sequence_` had
when it was made. The counter is a field of the store and starts from 0 with
each one, so the numbers follow the order of the writes within the life of one
store, and start over in the next.
-/

namespace AttentionDB

open ByteMap GuardedRuns BlobStore

set_option autoImplicit false

/-! ## The sequence in a header -/

def sequenceAt (image : Image) (offset : Nat) : Nat := decodeLe (slice image (offset + 16) 8)

theorem header_sequence (header : BlobEntryHeader) :
    (header.encode.drop 16).take 8 = encodeLe 8 header.sequence := by
  have before : (encodeLe 4 30 ++ encodeLe 4 header.blobSize ++ encodeLe 4 header.paddedSize ++
      encodeLe 4 header.checksum).length = 16 := by simp
  have parts : header.encode =
      (encodeLe 4 30 ++ encodeLe 4 header.blobSize ++ encodeLe 4 header.paddedSize ++
        encodeLe 4 header.checksum) ++ (encodeLe 8 header.sequence ++ header.key.bytes) := by
    simp only [BlobEntryHeader.encode, List.append_assoc]
  rw [parts, List.drop_left' before, List.take_left' (encode_le_length 8 _)]

theorem lay_entry_sequence (image : Image) (offset : Nat) (header : BlobEntryHeader) (blob : List UInt8)
    (diskSize : Nat) : sequenceAt (layEntry image offset header blob diskSize) offset =
      header.sequence % 2 ^ 64 := by
  have width : 256 ^ 8 = 2 ^ 64 := by norm_num
  unfold sequenceAt layEntry
  rw [slice_patch_disjoint _ _ _ _ _ (by unfold kEntryHeaderSize; omega),
    slice_patch_disjoint _ _ _ _ _ (by unfold kEntryHeaderSize; omega),
    slice_patch_within _ _ _ _ _ (by simp), header_sequence, decode_encode_le, width]

namespace BlobStore

/-- The sequence in the header of an entry that was just placed: in its block,
or in the file of the active segment. -/
def sequenceOf (s : BlobStore) (ack : Ack) : Nat :=
  match ack.block with
  | some b => sequenceAt (s.blocks b).buf (ack.loc.offset - (s.blocks b).segmentOffset)
  | none =>
      match s.currentSegment.bind (·.fd) with
      | none => 0
      | some path => sequenceAt (s.files path).data ack.loc.offset

end BlobStore

/-! ## Stores over one directory -/

/-- A successful write: the life of the store it was made in, its key, and the
sequence in its header. -/
structure LoggedWrite where
  generation : Nat
  key : StorageKey
  sequence : Nat
  deriving DecidableEq, Repr

/-- The files, the store over them unless it is closed, how many stores there
were, and the successful writes in their order. -/
structure DirectoryRun where
  files : Files
  opened : Option StoreSystem := none
  generation : Nat := 0
  log : List LoggedWrite := []

inductive StoreCall where
  | write (request : WriteRequest) (io : SegmentIo)
  | resume (io : SegmentIo)
  | direct (io : SegmentIo) (result : IoResult)
  | flush (step : FlushStep)

def StoreCall.label : StoreCall → StoreLabel
  | .write request io => .writeBegin 0 request io
  | .resume io => .writeResume 0 io
  | .direct io result => .writeDirect 0 io result
  | .flush step => .flush step

inductive DirectoryLabel where
  | openStore (config : NvmeStoreConfig) (io : OpenIo)
  | call (call : StoreCall)
  | closeStore (io : CloseIo)

namespace DirectoryRun

def logged (generation : Nat) (store : BlobStore) (p : PlacedBlob) : LoggedWrite :=
  { generation, key := p.request.key, sequence := store.sequenceOf p.ack }

def exec (run : DirectoryRun) : DirectoryLabel → Option DirectoryRun
  | .openStore config io =>
      match run.opened with
      | some _ => none
      | none =>
          let result := BlobStore.openStore config run.files io
          some { run with
            files := result.2.files
            opened := if result.1 = .kOk then some { store := result.2 } else none
            generation := run.generation + 1 }
  | .call call =>
      match run.opened with
      | none => none
      | some system =>
          (system.exec call.label).map fun after =>
            { run with
              opened := some after
              log := run.log ++
                (system.newlyPlaced call.label after).map (logged run.generation after.store) }
  | .closeStore io =>
      match run.opened with
      | none => none
      | some system =>
          match system.writers 0 with
          | .idle =>
              (system.store.close system.flush io).map fun store =>
                { run with files := store.files, opened := none }
          | _ => none

end DirectoryRun

/-- Nothing is known of the files that were there first. -/
def directoryMachine : Machine DirectoryRun DirectoryLabel where
  start run := ∃ files, run = { files }
  exec := DirectoryRun.exec

/-- A call that places an entry is made while the counter is above the sequences
that earlier stores have left in the directory, and has not wrapped. Nothing is
asked of the sequences of the present store. -/
def aheadOfEarlierStores (run : DirectoryRun) : DirectoryLabel → Prop
  | .call call => ∀ system after, run.opened = some system → system.exec call.label = some after →
      system.newlyPlaced call.label after ≠ [] →
        system.store.writeSequence < 2 ^ 64 ∧
          ∀ entry ∈ run.log, entry.generation ≠ run.generation →
            entry.sequence < system.store.writeSequence
  | _ => True

/-! ## What a call logs -/

section Calls

variable {s after store : BlobStore} {system : StoreSystem} {request : WriteRequest} {io : SegmentIo}
  {outcome : WriteOutcome}

/-- One write that took the value of the counter, or none. -/
inductive LogsNext (counter : Nat) (after : BlobStore) : List PlacedBlob → Prop where
  | none (grows : counter ≤ after.writeSequence) : LogsNext counter after []
  | one (p : PlacedBlob) (sequence : after.sequenceOf p.ack = counter % 2 ^ 64)
      (taken : after.writeSequence = counter + 1) : LogsNext counter after [p]

theorem LogsNext.counter_le {counter : Nat} {new : List PlacedBlob} (logs : LogsNext counter after new) :
    counter ≤ after.writeSequence := by
  cases logs with
  | none grows => exact grows
  | one p sequence taken => omega

theorem LogsNext.sequence_lt {counter : Nat} {new : List PlacedBlob} {p : PlacedBlob}
    (logs : LogsNext counter after new) (member : p ∈ new) :
    after.sequenceOf p.ack < after.writeSequence := by
  cases logs with
  | none grows => contradiction
  | one q sequence taken =>
      rw [List.mem_singleton.1 member, sequence, taken]
      exact Nat.lt_succ_of_le (Nat.mod_le _ _)

@[simp] theorem create_sequence (s : BlobStore) (io : SegmentIo) :
    (s.createNewSegment io).writeSequence = s.writeSequence := by
  unfold createNewSegment
  split <;> rfl

@[simp] theorem next_block_sequence (s : BlobStore) (b : Nat) (rest : List Nat) (io : SegmentIo) :
    (s.withNextBlock b rest io).writeSequence = s.writeSequence := by
  unfold withNextBlock
  rcases segment_for_block_cases { s with freePool := rest, activeBlock := some b } b io with
    created | ⟨stays, _⟩
  · rw [created, create_sequence]
  · rw [stays]

theorem segment_for_entry_sequence (s : BlobStore) (diskSize : Nat) (io : SegmentIo) :
    (s.segmentForEntry diskSize io).writeSequence = s.writeSequence := by
  rcases segment_for_entry_cases s io diskSize with created | ⟨stays, _⟩
  · rw [created, create_sequence]
  · rw [stays]

/-- The header of an append has the counter, whatever was in the block. -/
theorem appended_sequence (s : BlobStore) (b i : Nat) (request : WriteRequest) :
    (s.appended b i request).sequenceOf (newAck s b request) = s.writeSequence % 2 ^ 64 := by
  have cursor : (newAck s b request).loc.offset - (s.blocks b).segmentOffset = (s.blocks b).pos :=
    Nat.add_sub_cancel_left _ _
  have start : ((s.appended b i request).blocks b).segmentOffset = (s.blocks b).segmentOffset := by
    rw [appended_block]
    rfl
  have image : ((s.appended b i request).blocks b).buf = layEntry (s.blocks b).buf (s.blocks b).pos
      (s.entryHeader request) request.data (entryDiskSize request.data.length) := by
    rw [appended_block]
    rfl
  have inBlock : (s.appended b i request).sequenceOf (newAck s b request) =
      sequenceAt ((s.appended b i request).blocks b).buf
        ((newAck s b request).loc.offset - ((s.appended b i request).blocks b).segmentOffset) := rfl
  rw [inBlock, image, start, cursor]
  exact lay_entry_sequence _ _ _ _ _

theorem acquire_logs (cases : AcquireCases s request io outcome after) :
    LogsNext s.writeSequence after (placedBy request after.activeBlock outcome) := by
  cases cases with
  | sleeps empty running => exact .none (Nat.le_refl _)
  | stopped empty halted => exact .none (Nat.le_refl _)
  | noSegment b rest free missing => exact .none (by simp)
  | appends b rest seg i free current found usable =>
      have sequence := appended_sequence ((s.withNextBlock b rest io).resetBlock b seg) b i request
      have counter : ((s.withNextBlock b rest io).resetBlock b seg).writeSequence = s.writeSequence :=
        next_block_sequence s b rest io
      have active : (((s.withNextBlock b rest io).resetBlock b seg).appended b i request).activeBlock =
          some b := by simp
      have location : newAck ((s.withNextBlock b rest io).resetBlock b seg) b request =
          { loc := blockLocation ((s.blocks b).reset seg.id seg.writeOffset seg.fd) request.data.length
            data := request.data
            block := some b } := by
        simp [newAck]
      rw [location, counter] at sequence
      simp only [placedBy, active]
      exact .one _ sequence (congrArg (· + 1) counter)

theorem enter_logs (cases : EnterCases s request io outcome after) :
    LogsNext s.writeSequence after (placedBy request after.activeBlock outcome) := by
  cases cases with
  | refused status bad => exact .none (Nat.le_refl _)
  | goesDirect b isActive long short => exact .none (Nat.le_refl _)
  | rotates b isActive fits full short rest =>
      have same : (s.queued b).writeSequence = s.writeSequence := rfl
      rw [← same]
      exact acquire_logs rest
  | appends b i isActive room short current =>
      have active : (s.appended b i request).activeBlock = some b := isActive
      simp only [placedBy, active]
      exact .one _ (appended_sequence s b i request) rfl

/-- The file that a direct write has written has the counter in its header. -/
theorem direct_logs {result : IoResult} (short : request.data.length < 2 ^ 32)
    (run : s.writeDirect request io result = some (outcome, after)) :
    LogsNext s.writeSequence after (placedBy request none outcome) := by
  have fits := entry_fits request.data.length short
  rcases write_direct_files run with ⟨i, seg, base, baseIs, current, found, files, failed | stored⟩
  · rcases failed with ⟨rfl, afterIs⟩
    have counter : base.writeSequence = s.writeSequence := by
      rw [baseIs]
      exact segment_for_entry_sequence s _ io
    refine .none ?_
    rw [afterIs, ← counter]
    exact Nat.le_succ _
  · rcases stored with ⟨success, rfl, afterIs⟩
    have counter : base.writeSequence = s.writeSequence := by
      rw [baseIs]
      exact segment_for_entry_sequence s _ io
    have opened : ∃ path, seg.fd = some path := by
      cases fd : seg.fd with
      | some path => exact ⟨path, rfl⟩
      | none =>
          rw [fd] at success
          cases result <;> exact absurd (by decide : (-1 : Int) < 0) success
    rcases opened with ⟨path, fd⟩
    have segment : after.currentSegment = some (seg.advance (entryDiskSize request.data.length)) := by
      rw [afterIs]
      simp only [currentSegment, current, Option.bind_some, List.getElem?_modify, if_true, found,
        Option.map_eq_map, Option.map_some]
    have file : (after.files path).data = patch (base.files path).data seg.writeOffset
        (slice (layEntry (fun _ => 0) 0 (base.entryHeader request) request.data
          (entryDiskSize request.data.length)) 0 (entryDiskSize request.data.length)) := by
      rw [files, sync_write_success fd success]
      rfl
    have copied := slice_patch_copy (base.files path).data
      (layEntry (fun _ => 0) 0 (base.entryHeader request) request.data (entryDiskSize request.data.length))
      seg.writeOffset 0 (entryDiskSize request.data.length) 16 8
      (by unfold kEntryHeaderSize at fits; omega)
    have laid := lay_entry_sequence (fun _ => 0) 0 (base.entryHeader request) request.data
      (entryDiskSize request.data.length)
    refine .one _ ?_ ?_
    · simp only [sequenceOf, segment, Option.bind_some, advance_fd, fd, file]
      rw [← counter]
      exact (congrArg decodeLe copied).trans laid
    · rw [afterIs, ← counter]

theorem flush_step_sequence {pc pcAfter : FlushPc} {step : FlushStep}
    (run : s.flushStep pc step = some (pcAfter, after)) : after.writeSequence = s.writeSequence := by
  unfold flushStep flushPop at run
  split at run
  · split at run
    · contradiction
    · split at run <;> cases run <;> rfl
  · cases run
    rfl
  · cases run
    rfl
  · contradiction

def DirectShort (system : StoreSystem) : Prop :=
  ∀ request, system.writers 0 = .direct request → request.data.length < 2 ^ 32

theorem call_logs {system after : StoreSystem} {call : StoreCall} (short : DirectShort system)
    (moved : system.exec call.label = some after) :
    LogsNext system.store.writeSequence after.store (system.newlyPlaced call.label after) ∧
      DirectShort after := by
  cases call with
  | write request io =>
      rcases StoreSystem.write_begin_step moved with ⟨outcome, store, _, entered, rfl⟩
      have cases := enter_cases entered
      constructor
      · rw [StoreSystem.after_section_store]
        have isRequest : system.requestOf (StoreCall.write request io).label = some request := rfl
        rw [newly_placed_section system isRequest]
        exact enter_logs cases
      · intro other goes
        rw [StoreSystem.after_section_writers, Function.update_self] at goes
        cases outcome with
        | direct =>
            cases goes
            have bound := (enter_uses cases).1 (.inr rfl)
            unfold kEntryHeaderSize at bound
            omega
        | stored | failed | waiting => contradiction
  | resume io =>
      rcases StoreSystem.write_resume_step moved with ⟨request, outcome, store, waiting, resumed, rfl⟩
      have cases := acquire_cases resumed
      constructor
      · have isRequest : system.requestOf (StoreCall.resume io).label = some request := by
          simp [StoreCall.label, StoreSystem.requestOf, waiting]
        rw [StoreSystem.after_section_store, newly_placed_section system isRequest]
        exact acquire_logs cases
      · intro other goes
        rw [StoreSystem.after_section_writers, Function.update_self] at goes
        cases outcome with
        | direct => cases cases
        | stored | failed | waiting => contradiction
  | direct io result =>
      rcases StoreSystem.write_direct_step moved with ⟨request, outcome, store, direct, written, rfl⟩
      constructor
      · have isRequest : system.requestOf (StoreCall.direct io result).label = some request := by
          simp [StoreCall.label, StoreSystem.requestOf, direct]
        rw [StoreSystem.after_direct_store, newly_placed_direct system isRequest]
        exact direct_logs (short request direct) written
      · intro other goes
        rw [StoreSystem.after_direct_writers, Function.update_self] at goes
        contradiction
  | flush step =>
      rcases StoreSystem.flush_thread_step moved with ⟨pc, store, ran, rfl⟩
      have nothing : system.newlyPlaced (StoreCall.flush step).label
          { system with flush := pc, store, unwritten := system.unwrittenAfter step } = [] :=
        newly_placed_nothing system _ rfl
      refine ⟨?_, short⟩
      rw [nothing]
      exact .none (Nat.le_of_eq (flush_step_sequence ran).symm)

end Calls

/-! ## Runs -/

/-- The sequences that the present store has given out are below its counter. -/
structure SequenceInv (run : DirectoryRun) : Prop where
  known : ∀ entry ∈ run.log, entry.generation ≤ run.generation
  below : ∀ system, run.opened = some system → ∀ entry ∈ run.log, entry.generation = run.generation →
    entry.sequence < system.store.writeSequence
  short : ∀ system, run.opened = some system → DirectShort system

section Steps

variable {run after : DirectoryRun} {config : NvmeStoreConfig} {call : StoreCall}

/-- Opening starts the next store, if `open` succeeds. -/
theorem open_step {io : OpenIo} (moved : directoryMachine.exec run (.openStore config io) = some after) :
    ∃ files opened, after = { run with files, opened, generation := run.generation + 1 } ∧
      ∀ system, opened = some system → (openStore config run.files io).1 = .kOk ∧
        system = { store := (openStore config run.files io).2 } := by
  simp only [directoryMachine, DirectoryRun.exec] at moved
  split at moved
  · contradiction
  · cases moved
    refine ⟨_, _, rfl, ?_⟩
    intro system isOpen
    split at isOpen
    · rename_i ok
      cases isOpen
      exact ⟨ok, rfl⟩
    · contradiction

theorem close_step {io : CloseIo} (moved : directoryMachine.exec run (.closeStore io) = some after) :
    ∃ files, after = { run with files, opened := none } := by
  simp only [directoryMachine, DirectoryRun.exec] at moved
  split at moved
  · contradiction
  · split at moved
    · rw [Option.map_eq_some_iff] at moved
      rcases moved with ⟨store, closed, rfl⟩
      exact ⟨store.files, rfl⟩
    · contradiction

/-- A call appends to the log what it has placed. -/
theorem call_step (moved : directoryMachine.exec run (.call call) = some after) :
    ∃ system systemAfter, run.opened = some system ∧ system.exec call.label = some systemAfter ∧
      after = { run with
        opened := some systemAfter
        log := run.log ++ (system.newlyPlaced call.label systemAfter).map
          (DirectoryRun.logged run.generation systemAfter.store) } := by
  simp only [directoryMachine, DirectoryRun.exec] at moved
  split at moved
  · contradiction
  · rename_i system isOpen
    rw [Option.map_eq_some_iff] at moved
    rcases moved with ⟨systemAfter, called, rfl⟩
    exact ⟨system, systemAfter, isOpen, called, rfl⟩

theorem SequenceInv.step {label : DirectoryLabel} (inv : SequenceInv run)
    (moved : directoryMachine.exec run label = some after) : SequenceInv after := by
  cases label with
  | openStore config io =>
      rcases open_step moved with ⟨files, opened, rfl, fresh⟩
      refine
        { known := fun entry member => Nat.le_succ_of_le (inv.known entry member)
          below := ?_
          short := ?_ }
      · -- nothing was logged in the new store yet
        intro system _ entry member same
        have older := inv.known entry member
        simp only at same
        omega
      · intro system isOpen request goes
        rw [(fresh system isOpen).2] at goes
        contradiction
  | closeStore io =>
      rcases close_step moved with ⟨files, rfl⟩
      exact { known := inv.known, below := by simp, short := by simp }
  | call call =>
      rcases call_step moved with ⟨system, systemAfter, isOpen, called, rfl⟩
      rcases call_logs (inv.short system isOpen) called with ⟨logs, short⟩
      have below := inv.below system isOpen
      refine { known := ?_, below := ?_, short := ?_ }
      · intro entry member
        rcases List.mem_append.1 member with old | isNew
        · exact inv.known entry old
        · rcases List.mem_map.1 isNew with ⟨p, _, rfl⟩
          exact Nat.le_refl _
      · intro other same entry member generation
        cases same
        rcases List.mem_append.1 member with old | isNew
        · exact Nat.lt_of_lt_of_le (below entry old generation) logs.counter_le
        · rcases List.mem_map.1 isNew with ⟨p, placed, rfl⟩
          exact logs.sequence_lt placed
      · intro other same
        cases same
        exact short

theorem reach_sequence_inv {guard : DirectoryRun → DirectoryLabel → Prop}
    (reached : ReachWithin directoryMachine guard run) : SequenceInv run := by
  apply reached.invariant SequenceInv
  · intro start initial
    rcases initial with ⟨files, rfl⟩
    constructor <;> simp
  · intro before label after inv _ moved
    exact inv.step moved

/-- `earlier` was written before `later` and has the smaller sequence. -/
def DirectoryRun.Ordered (run : DirectoryRun) : Prop :=
  run.log.Pairwise fun earlier later => earlier.sequence < later.sequence

/-- The order goes on across a call that places an entry exactly if the counter
is above the sequences of the earlier stores. -/
theorem placing_call_order_iff {system systemAfter : StoreSystem} (inv : SequenceInv run)
    (ordered : run.Ordered) (isOpen : run.opened = some system)
    (called : system.exec call.label = some systemAfter)
    (places : system.newlyPlaced call.label systemAfter ≠ [])
    (counter : system.store.writeSequence < 2 ^ 64)
    (moved : directoryMachine.exec run (.call call) = some after) :
    after.Ordered ↔ ∀ entry ∈ run.log, entry.generation ≠ run.generation →
      entry.sequence < system.store.writeSequence := by
  rcases call_step moved with ⟨system', systemAfter', isOpen', called', rfl⟩
  cases isOpen.symm.trans isOpen'
  cases called.symm.trans called'
  have logs := (call_logs (inv.short system isOpen) called).1
  have below := inv.below system isOpen
  unfold DirectoryRun.Ordered
  generalize system.newlyPlaced call.label systemAfter = new at logs places
  cases logs with
  | none grows => contradiction
  | one p sequence taken =>
      have fresh : (DirectoryRun.logged run.generation systemAfter.store p).sequence =
          system.store.writeSequence :=
        sequence.trans (Nat.mod_eq_of_lt counter)
      rw [List.map_singleton, List.pairwise_append]
      constructor
      · intro kept entry member _
        have less := kept.2.2 entry member _ (List.mem_singleton_self _)
        rwa [fresh] at less
      · intro ahead
        refine ⟨ordered, List.pairwise_singleton _ _, ?_⟩
        intro entry member newest isNew
        rw [List.mem_singleton.1 isNew, fresh]
        by_cases same : entry.generation = run.generation
        · exact below entry member same
        · exact ahead entry member same

theorem ordered_step {label : DirectoryLabel} (inv : SequenceInv run) (ordered : run.Ordered)
    (allowed : aheadOfEarlierStores run label)
    (moved : directoryMachine.exec run label = some after) : after.Ordered := by
  cases label with
  | call call =>
      rcases call_step moved with ⟨system, systemAfter, isOpen, called, afterIs⟩
      by_cases places : system.newlyPlaced call.label systemAfter = []
      · have same : after.log = run.log := by
          rw [afterIs, places]
          exact List.append_nil _
        unfold DirectoryRun.Ordered
        rw [same]
        exact ordered
      · rcases allowed system systemAfter isOpen called places with ⟨counter, ahead⟩
        exact (placing_call_order_iff inv ordered isOpen called places counter moved).2 ahead
  | openStore config io =>
      rcases open_step moved with ⟨files, opened, rfl, _⟩
      exact ordered
  | closeStore io =>
      rcases close_step moved with ⟨files, rfl⟩
      exact ordered

theorem reach_ordered (reached : ReachWithin directoryMachine aheadOfEarlierStores run) : run.Ordered := by
  have both : SequenceInv run ∧ run.Ordered := by
    apply reached.invariant fun run => SequenceInv run ∧ run.Ordered
    · intro start initial
      have within : ReachWithin directoryMachine aheadOfEarlierStores start := .start initial
      refine ⟨reach_sequence_inv within, ?_⟩
      rcases initial with ⟨files, rfl⟩
      exact List.Pairwise.nil
    · intro before label after inv allowed moved
      exact ⟨inv.1.step moved, ordered_step inv.1 inv.2 allowed moved⟩
  exact both.2

end Steps

/-- While each entry is placed with a counter above the sequences of the earlier
stores, the sequences in the headers grow in the order of the writes, so that the
last write of a key has the largest one. -/
theorem sequences_ordered {run : DirectoryRun}
    (reached : ReachWithin directoryMachine aheadOfEarlierStores run) :
    (run.log.Pairwise fun earlier later => earlier.sequence < later.sequence) ∧
      ∀ front newest rest, run.log = front ++ newest :: rest →
        (∀ entry ∈ rest, entry.key ≠ newest.key) →
          ∀ entry ∈ run.log, entry.key = newest.key → entry.sequence ≤ newest.sequence := by
  have ordered : run.log.Pairwise fun earlier later => earlier.sequence < later.sequence :=
    reach_ordered reached
  refine ⟨ordered, ?_⟩
  intro front newest rest split last entry member same
  rw [split] at ordered member
  rcases List.mem_append.1 member with earlier | later
  · have less := (List.pairwise_append.1 ordered).2.2 entry earlier newest List.mem_cons_self
    exact Nat.le_of_lt less
  · rcases List.mem_cons.1 later with rfl | behind
    · exact Nat.le_refl _
    · exact absurd same (last entry behind)

/-! ## A store over the files of an earlier one -/

theorem scan_sequence (listing : List ScanEntry) (s : BlobStore) :
    (listing.foldl scanSegment s).writeSequence = s.writeSequence := by
  induction listing generalizing s with
  | nil => rfl
  | cons entry listing ih =>
      rw [List.foldl_cons, ih]
      unfold scanSegment
      simp only
      split <;> rfl

/-- `open` restores nothing of the counter. -/
theorem opened_sequence {config : NvmeStoreConfig} {files : Files} {io : OpenIo}
    (ok : (openStore config files io).1 = .kOk) :
    (openStore config files io).2.writeSequence = 0 := by
  rcases open_store_cases ok with ⟨listing, seg, b, rest, _, _, _, opened⟩
  rw [opened]
  change (withSegments config files listing io.segment).writeSequence = 0
  rw [withSegments, create_sequence, scan_sequence]
  rfl

/-- Whatever the files hold, an entry that the first call of a new store places
after earlier writes breaks the order. -/
theorem reopened_write_repeats {run reopened after : DirectoryRun} {config : NvmeStoreConfig}
    {io : OpenIo} {call : StoreCall} (reached : Reach directoryMachine run) (ordered : run.Ordered)
    (earlier : run.log ≠ [])
    (opens : directoryMachine.exec run (.openStore config io) = some reopened)
    (moved : directoryMachine.exec reopened (.call call) = some after)
    (places : after.log ≠ run.log) : ¬after.Ordered := by
  have inv := reach_sequence_inv reached
  have reopenedInv := inv.step opens
  rcases open_step opens with ⟨files, opened, rfl, fresh⟩
  rcases call_step moved with ⟨system, systemAfter, isOpen, called, afterIs⟩
  have counter : system.store.writeSequence = 0 := by
    rcases fresh system isOpen with ⟨ok, rfl⟩
    exact opened_sequence ok
  have placed : system.newlyPlaced call.label systemAfter ≠ [] := by
    intro nothing
    apply places
    rw [afterIs, nothing]
    exact List.append_nil _
  intro kept
  have ahead := (placing_call_order_iff reopenedInv ordered isOpen called placed (by omega) moved).1 kept
  rcases List.exists_mem_of_ne_nil _ earlier with ⟨entry, member⟩
  have older := inv.known entry member
  have less := ahead entry member (by simp only; omega)
  omega

/-! ## Two writes of a key -/

def freshDirectory : DirectoryRun := { files := fun _ => File.empty }

theorem fresh_directory_started : directoryMachine.start freshDirectory :=
  ⟨fun _ => File.empty, rfl⟩

def twoWriteRun : DirectoryRun :=
  last directoryMachine freshDirectory
    [.openStore twoBlockConfig {}, .call (.write (smallRequest 1) {}),
      .call (.write (smallRequest 2) {})]

def firstStoreOnly (run : DirectoryRun) : DirectoryLabel → Bool
  | .call _ => run.log.all (·.generation = run.generation) &&
      run.opened.all (decide <| ·.store.writeSequence < 2 ^ 64)
  | _ => true

theorem first_store_ahead {run : DirectoryRun} {label : DirectoryLabel}
    (checked : firstStoreOnly run label = true) : aheadOfEarlierStores run label := by
  cases label with
  | openStore config io => trivial
  | closeStore io => trivial
  | call call =>
      intro system after isOpen _ _
      simp only [firstStoreOnly, isOpen, Bool.and_eq_true, List.all_eq_true, decide_eq_true_eq,
        Option.all_some] at checked
      refine ⟨checked.2, ?_⟩
      intro entry member other
      exact absurd (checked.1 entry member) other

theorem sequences_ordered_two_writes :
    twoWriteRun.log = [⟨1, probeKey, 0⟩, ⟨1, probeKey, 1⟩] ∧
      (twoWriteRun.log.Pairwise fun earlier later => earlier.sequence < later.sequence) ∧
        ∀ front newest rest, twoWriteRun.log = front ++ newest :: rest →
          (∀ entry ∈ rest, entry.key ≠ newest.key) →
            ∀ entry ∈ twoWriteRun.log, entry.key = newest.key → entry.sequence ≤ newest.sequence := by
  have started : ReachWithin directoryMachine aheadOfEarlierStores freshDirectory :=
    .start fresh_directory_started
  have reached : ReachWithin directoryMachine aheadOfEarlierStores twoWriteRun := by
    apply started.to_last (fun _ => True) firstStoreOnly
    · intro run label _ checked
      exact first_store_ahead checked
    · intro _ _ _ _ _ _
      trivial
    · trivial
    · decide +kernel
  exact ⟨by decide +kernel, sequences_ordered reached⟩

def orderlyClose : CloseIo := { steps := [.pop, .write .complete, .release] }

def reopening : OpenIo :=
  { listing := some [{ path := .canonical 0 }] }

def restartedRun : DirectoryRun :=
  last directoryMachine freshDirectory
    [.openStore twoBlockConfig {}, .call (.write (smallRequest 1) {}), .closeStore orderlyClose,
      .openStore twoBlockConfig reopening, .call (.write (smallRequest 2) {})]

/-- The second version of a key has the sequence of the first one. -/
theorem restarted_sequence_repeats :
    Reach directoryMachine restartedRun ∧
      restartedRun.log = [⟨1, probeKey, 0⟩, ⟨2, probeKey, 0⟩] ∧
        ¬restartedRun.log.Pairwise fun earlier later => earlier.sequence < later.sequence := by
  have started : Reach directoryMachine freshDirectory := .start fresh_directory_started
  have log : restartedRun.log = [⟨1, probeKey, 0⟩, ⟨2, probeKey, 0⟩] := by decide +kernel
  refine ⟨started.to_last _ (by decide +kernel), log, ?_⟩
  rw [log]
  decide

end AttentionDB
