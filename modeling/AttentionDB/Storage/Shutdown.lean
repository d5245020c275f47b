import AttentionDB.Storage.Close
import AttentionDB.Storage.Lifetime

/-!
# What a life of a store leaves on disk

Wherever a life ends, every acknowledged entry is in its file or its range is
still zero. After `close` every one is in its file: the active block joins the
queue, the flush thread stops at an empty queue only, and the headers that are
written last end before the first entry.
-/

namespace AttentionDB

open ByteMap BlobStore

set_option autoImplicit false

namespace BlobStore

section Endings

variable {content : File → Ack → Prop} {s after : BlobStore} {flush pc : FlushPc} {asleep : Bool}
  {acked old : List Ack} {ack : Ack}

def segmentIds (s : BlobStore) : List Nat := s.segments.map (·.id)

/-- What is on disk when a life ends at any point. -/
theorem Lifetime.survives (life : Lifetime content s flush asleep acked old)
    (kept : ∀ ack ∈ acked, content (s.fileOf ack.loc.segmentId) ack) (member : ack ∈ acked ++ old) :
    Survives content s.files s.segmentIds ack := by
  have listed : (∃ seg ∈ s.segments, seg.id = ack.loc.segmentId) →
      ack.loc.segmentId ∈ s.segmentIds := by
    rintro ⟨seg, inList, id⟩
    exact List.mem_map.2 ⟨seg, inList, id⟩
  rcases List.mem_append.1 member with present | earlier
  · exact
      { shape := ⟨s.config, life.store.shapes ack present⟩
        floor := life.floor ack present
        listed := listed (life.acked_listed present)
        content := kept ack present }
  · have settled := life.old ack earlier
    exact
      { shape := settled.shape
        floor := settled.floor
        listed := listed settled.listed
        content := settled.content }

theorem Lifetime.ids_small (life : Lifetime content s flush asleep acked old)
    (bound : s.nextSegmentId < 2 ^ 32) : ∀ id ∈ s.segmentIds, id < 2 ^ 32 := by
  intro id member
  rcases List.mem_map.1 member with ⟨seg, inList, rfl⟩
  rcases life.store.ids seg inList with below | last <;> omega

/-! ## The drain -/

/-- `close` stops the flush thread by this flag. -/
def halted (s : BlobStore) : BlobStore := { s with flushRunning := false }

theorem halted_step (step : FlushStep) :
    s.halted.flushStep flush step =
      (s.flushStep flush step).map fun result => (result.1, result.2.halted) := by
  cases flush with
  | idle =>
      cases step with
      | pop =>
          have queue : s.halted.flushQueue = s.flushQueue := rfl
          unfold flushStep flushPop
          dsimp only
          rw [queue]
          cases s.flushQueue with
          | nil => rfl
          | cons b rest =>
              dsimp only
              by_cases unused : (s.blocks b).pos = 0
              · have unusedHere : (s.halted.blocks b).pos = 0 := unused
                rw [if_pos unused, if_pos unusedHere]
                rfl
              · have usedHere : (s.halted.blocks b).pos ≠ 0 := unused
                rw [if_neg unused, if_neg usedHere]
                rfl
      | write | release => rfl
  | writing b => cases step <;> rfl
  | written b => cases step <;> rfl

/-- The active block has left, or it holds nothing. -/
def Retired (s : BlobStore) (asleep : Bool) : Prop :=
  asleep = false → ∀ b, s.activeBlock = some b → (s.blocks b).pos = 0

theorem Lifetime.retire (life : Lifetime content s flush false acked old) :
    ∃ asleep, Lifetime content s.retireActive flush asleep acked old ∧
      s.retireActive.Retired asleep := by
  unfold retireActive
  cases isActive : s.activeBlock with
  | none => exact ⟨false, life, fun _ b isBlock => by rw [isActive] at isBlock; cases isBlock⟩
  | some b =>
      dsimp only
      split_ifs with used
      · refine ⟨true, ?_, fun bad => by cases bad⟩
        have queued := life.queued isActive
        have fewer : ∀ c ∈ ({ s with flushQueue := s.flushQueue ++ [b], activeBlock := none } :
            BlobStore).pendingBlocks, c ∈ (s.queued b).pendingBlocks := by
          intro c member
          simp only [pendingBlocks, Option.toList_none, List.nil_append, List.mem_append] at member
          simp only [pendingBlocks, BlobStore.queued, List.mem_append]
          rcases member with flushing | waiting
          · exact .inl (.inr flushing)
          · exact .inr waiting
        refine queued.moved ?_ rfl rfl rfl rfl fewer
        rcases queued.store.frontier with ⟨seg, frontier, _⟩
        exact
          { running := queued.store.running
            capacity := queued.store.capacity
            smallBlocks := queued.store.smallBlocks
            roles := queued.store.roles
            flushing := queued.store.flushing
            ids := queued.store.ids
            paths := queued.store.paths
            shapes := queued.store.shapes
            known := queued.store.known
            blocks := fun c member => (queued.store.blocks c (fewer c member)).same rfl
            placed := fun ack member => (queued.store.placed ack member).imp id
              fun stored => stored.imp fun path disk => disk.same rfl rfl
            written := fun c same ack member inside =>
              (queued.store.written c same ack member inside).imp fun path disk => disk.same rfl rfl
            frontier := ⟨seg, ⟨frontier.current, frontier.fd, frontier.entries,
              fun c member => frontier.blocks c (fewer c member)⟩, fun bad => by cases bad⟩ }
      · refine ⟨false, life, fun _ c isBlock => ?_⟩
        rw [isActive] at isBlock
        cases isBlock
        omega

def flushSteps (s : BlobStore) (pc : FlushPc) : List FlushStep → Option (FlushPc × BlobStore)
  | [] => some (pc, s)
  | step :: steps =>
      match s.flushStep pc step with
      | none => none
      | some (pc, s) => s.flushSteps pc steps

theorem drain_flush_steps {steps : List FlushStep} (ran : s.drain flush steps = some after) :
    s.flushSteps flush steps = some (.idle, after) ∧ after.flushQueue = [] := by
  induction steps generalizing s flush with
  | nil =>
      unfold drain at ran
      split_ifs at ran with ended
      cases ran
      rw [flushSteps, ended.1]
      exact ⟨rfl, ended.2⟩
  | cons step steps ih =>
      unfold drain at ran
      unfold flushSteps
      cases moved : s.flushStep flush step with
      | none =>
          rw [moved] at ran
          cases ran
      | some result =>
          rw [moved] at ran
          exact ih ran

/-- Flush steps keep the active block and what it holds. -/
theorem flush_step_active {step : FlushStep} (ran : s.flushStep flush step = some (pc, after)) :
    after.activeBlock = s.activeBlock ∧ after.blocks = s.blocks ∧ after.segments = s.segments ∧
      after.nextSegmentId = s.nextSegmentId := by
  unfold flushStep at ran
  split at ran
  · unfold flushPop at ran
    split at ran
    · contradiction
    · split at ran <;> cases ran <;> exact ⟨rfl, rfl, rfl, rfl⟩
  · cases ran
    exact ⟨rfl, rfl, rfl, rfl⟩
  · cases ran
    exact ⟨rfl, rfl, rfl, rfl⟩
  · contradiction

theorem Lifetime.halted_steps (life : Lifetime content s flush asleep acked old)
    (retired : s.Retired asleep) {steps : List FlushStep}
    (succeeds : ∀ result, .write result ∈ steps → result = .complete)
    (ran : s.halted.flushSteps flush steps = some (pc, after)) :
    ∃ last, after = last.halted ∧ Lifetime content last pc asleep acked old ∧ last.Retired asleep ∧
      last.segments = s.segments ∧ last.nextSegmentId = s.nextSegmentId := by
  induction steps generalizing s flush with
  | nil =>
      cases ran
      exact ⟨s, rfl, life, retired, rfl, rfl⟩
  | cons step steps ih =>
      unfold flushSteps at ran
      rw [halted_step] at ran
      cases moved : s.flushStep flush step with
      | none =>
          rw [moved] at ran
          cases ran
      | some result =>
          rcases result with ⟨middle, store⟩
          rw [moved] at ran
          have kept := life.flush_step (fun result same => succeeds result (by simp [same])) moved
          rcases flush_step_active moved with ⟨active, blocks, segments, next⟩
          have stillRetired : store.Retired asleep := by
            intro awake b isActive
            rw [blocks]
            exact retired awake b (active ▸ isActive)
          rcases ih kept stillRetired (fun result member => succeeds result (by simp [member])) ran
            with ⟨last, isLast, lastLife, lastRetired, sameSegments, sameNext⟩
          exact ⟨last, isLast, lastLife, lastRetired, sameSegments.trans segments, sameNext.trans next⟩

/-- With an empty queue and nothing in the active block all entries are on disk. -/
theorem Lifetime.drained (life : Lifetime content s .idle asleep acked old)
    (retired : s.Retired asleep) (empty : s.flushQueue = []) (member : ack ∈ acked) :
    Written (s.fileOf ack.loc.segmentId) ack := by
  rcases life.store.placed ack member with ⟨b, holder, inside⟩ | ⟨path, disk⟩
  · have positive := (life.store.shapes ack member).positive
    have start := inside.start
    have stop := inside.stop
    unfold kEntryHeaderSize at positive
    simp only [holders, empty, FlushPc.block, Option.toList_none, List.append_nil] at holder
    cases asleep with
    | true => simp at holder
    | false =>
        have isActive : s.activeBlock = some b := by simpa using holder
        have nothing := retired rfl b isActive
        omega
  · exact life.written_of_disk disk

/-! ## The headers -/

/-- Entries lie behind the header of their file. -/
theorem Written.header {file : File} (written : Written file ack)
    (floor : kSegmentHeaderSize ≤ ack.loc.offset) {bytes : List UInt8}
    (short : bytes.length ≤ kSegmentHeaderSize) : Written (file.pwrite 0 bytes) ack where
  size := Nat.le_trans written.size (Nat.le_max_left _ _)
  entry := by
    have kept : EntryAt (patch file.data 0 bytes) ack.loc.offset ack.data :=
      written.entry.patch_apart (.inr (by omega))
    exact kept

theorem Blank.header {file : File} (blank : Blank file ack)
    (floor : kSegmentHeaderSize ≤ ack.loc.offset) {bytes : List UInt8}
    (short : bytes.length ≤ kSegmentHeaderSize) : Blank (file.pwrite 0 bytes) ack := by
  intro i inside
  have outside := patch_outside file.data 0 bytes (ack.loc.offset + i) (by omega)
  exact outside.trans (blank i inside)

theorem WrittenOrBlank.header {file : File} (kept : WrittenOrBlank file ack)
    (floor : kSegmentHeaderSize ≤ ack.loc.offset) {bytes : List UInt8}
    (short : bytes.length ≤ kSegmentHeaderSize) : WrittenOrBlank (file.pwrite 0 bytes) ack :=
  kept.imp (fun written => written.header floor short) fun blank => blank.header floor short

/-- What holds behind the header of a file is kept by writing a header. -/
def BehindHeader (content : File → Ack → Prop) : Prop :=
  ∀ (file : File) (ack : Ack) (bytes : List UInt8), kSegmentHeaderSize ≤ ack.loc.offset →
    bytes.length ≤ kSegmentHeaderSize → content file ack → content (file.pwrite 0 bytes) ack

theorem written_behind_header : BehindHeader Written :=
  fun _ _ _ floor short written => written.header floor short

theorem written_or_blank_behind_header : BehindHeader WrittenOrBlank :=
  fun _ _ _ floor short kept => WrittenOrBlank.header kept floor short

theorem Survives.segment_header (behind : BehindHeader content) {files : Files} {ids : List Nat}
    (survives : Survives content files ids ack) (seg : SegmentInfo) (io : SegmentIo) :
    Survives content (writeSegmentHeader files seg io) ids ack := by
  have kept : ∀ (bytes : List UInt8) (path : SegmentPath), bytes.length ≤ kSegmentHeaderSize →
      content (Function.update files path ((files path).pwrite 0 bytes)
        (.canonical ack.loc.segmentId)) ack := by
    intro bytes path short
    by_cases same : SegmentPath.canonical ack.loc.segmentId = path
    · subst same
      rw [Function.update_self]
      exact behind _ _ _ survives.floor short survives.content
    · rw [Function.update_of_ne same]
      exact survives.content
  refine { survives with content := ?_ }
  unfold writeSegmentHeader syncWrite
  cases io.header with
  | complete =>
      cases seg.fd with
      | none => exact survives.content
      | some path => exact kept _ path (by rw [segment_header_length])
  | failed transferred =>
      cases seg.fd with
      | none => exact survives.content
      | some path =>
          apply kept _ path
          rw [List.length_take, segment_header_length]
          exact Nat.min_le_right _ _

theorem Survives.segment_headers (behind : BehindHeader content) {ids : List Nat}
    (headers : Nat → SegmentIo) (segments : List (SegmentInfo × Nat)) {files : Files}
    (survives : Survives content files ids ack) :
    Survives content
      (segments.foldl (fun files pair => writeSegmentHeader files pair.1 (headers pair.2)) files) ids
      ack := by
  induction segments generalizing files with
  | nil => exact survives
  | cons pair segments ih => exact ih (survives.segment_header behind pair.1 (headers pair.2))

end Endings

/-! ## Closing -/

/-- A `close` that is cut off: the flush thread has done some of its steps and,
if it had come to its end, some headers are written. -/
def closeCut (s : BlobStore) (pc : FlushPc) (steps : List FlushStep) (count : Nat)
    (headers : Nat → SegmentIo) : Option BlobStore :=
  match s.retireActive.halted.flushSteps pc steps with
  | none => none
  | some (pc, s) =>
      if count = 0 ∨ (pc = .idle ∧ s.flushQueue = []) then
        some { s with
          files := (s.segments.zipIdx.take count).foldl
            (fun files pair => writeSegmentHeader files pair.1 (headers pair.2)) s.files }
      else none

section Closing

variable {content : File → Ack → Prop} {s after : BlobStore} {flush : FlushPc}
  {acked old : List Ack} {ack : Ack}

theorem retire_segments (s : BlobStore) :
    s.retireActive.segments = s.segments ∧ s.retireActive.nextSegmentId = s.nextSegmentId := by
  unfold retireActive
  cases s.activeBlock with
  | none => exact ⟨rfl, rfl⟩
  | some b =>
      dsimp only
      split_ifs <;> exact ⟨rfl, rfl⟩

/-- A closed store has all its entries on disk. -/
theorem Lifetime.closed (life : Lifetime content s flush false acked old)
    (behind : BehindHeader content) (whole : ∀ file ack, Written file ack → content file ack)
    {io : CloseIo} (succeeds : ∀ result, .write result ∈ io.steps → result = .complete)
    (ran : s.close flush io = some after) :
    after.segmentIds = s.segmentIds ∧
      ∀ ack ∈ acked ++ old, Survives content after.files after.segmentIds ack := by
  unfold close at ran
  rw [Option.map_eq_some_iff] at ran
  rcases ran with ⟨drained, ran, rfl⟩
  rcases drain_flush_steps ran with ⟨stepped, empty⟩
  rcases life.retire with ⟨asleep, retiredLife, retired⟩
  rcases retiredLife.halted_steps retired succeeds stepped with
    ⟨last, rfl, lastLife, lastRetired, segments, _⟩
  have ids : (closeSegments last.halted io.headers).segmentIds = last.segmentIds := by
    simp [segmentIds, closeSegments, halted, Function.comp_def]
  refine ⟨?_, fun ack member => ?_⟩
  · rw [ids, segmentIds, segments, (retire_segments s).1]
    rfl
  · rw [ids]
    have survives := lastLife.survives
      (fun ack member => whole _ _ (lastLife.drained lastRetired empty member)) member
    exact survives.segment_headers behind io.headers _

theorem Lifetime.close_cut (life : Lifetime WrittenOrBlank s flush false acked old)
    {steps : List FlushStep} {count : Nat} {headers : Nat → SegmentIo}
    (succeeds : ∀ result, .write result ∈ steps → result = .complete)
    (ran : s.closeCut flush steps count headers = some after) :
    after.segmentIds = s.segmentIds ∧
      ∀ ack ∈ acked ++ old, Survives WrittenOrBlank after.files after.segmentIds ack := by
  unfold closeCut at ran
  split at ran
  · contradiction
  · rename_i pc stopped stepped
    split_ifs at ran
    cases ran
    rcases life.retire with ⟨asleep, retiredLife, retired⟩
    rcases retiredLife.halted_steps retired succeeds stepped with
      ⟨last, rfl, lastLife, _, segments, _⟩
    refine ⟨?_, fun ack member => ?_⟩
    · have ids : last.segmentIds = s.segmentIds := by
        rw [segmentIds, segments, (retire_segments s).1]
        rfl
      exact ids
    · have survives := lastLife.survives lastLife.onFile member
      exact survives.segment_headers written_or_blank_behind_header headers _

end Closing

end BlobStore

end AttentionDB
