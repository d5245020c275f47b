import AttentionDB.Checkpoint.Save

/-!
# Saving and loading

A `save` replaces the checkpoint file in one step or not at all, and what it
puts there is read back as the index that was saved.
-/

namespace AttentionDB.Checkpoint

set_option autoImplicit false

section Hash

variable (xxh32 : List UInt8 → UInt32)

theorem early_start (before : SaveRun) (fresh : before.pc = .entered) (closed : before.out = {}) :
    Early xxh32 before before := by
  refine ⟨⟨rfl, rfl, rfl⟩, ?_⟩
  rw [fresh]
  exact closed

/-! ## A save that succeeds -/

theorem write_fine {out : OutStream} {bytes : List UInt8} (good : out.good = true) :
    (out.write bytes true).good = true := by
  simp [OutStream.write, good]

/-- A call that succeeds lets no `save` fail. -/
theorem fine_step {run after : SaveRun} {call : SaveCall} (fine : call.fails = false)
    (sound : ¬ Doomed run) (moved : run.step xxh32 call = some after) : ¬ Doomed after := by
  simp only [Doomed, not_or, Bool.not_eq_false] at sound ⊢
  rcases sound with ⟨good, _, _⟩
  have loop : ∀ header fed rest, SavePc.loop xxh32 header fed rest ≠ .returned .kIOError ∧
      SavePc.loop xxh32 header fed rest ≠ .threw := by
    intro header fed rest
    cases rest <;> exact ⟨by simp [SavePc.loop], by simp [SavePc.loop]⟩
  unfold SaveRun.step at moved
  -- the eleven calls that a point of `save` allows, each one succeeding
  cases pc : run.pc <;> cases call <;>
    simp only [pc, reduceCtorEq, Option.some.injEq] at moved
  case' opening.openStream | placeholder.writePlaceholder | creatingState.createState |
      writingKey.write | writingEntry.write | seeking.seekp | rewriting.write | flushing.flush |
      replacing.rename =>
    simp only [SaveCall.fails, Bool.not_eq_false'] at fine
    subst fine
  all_goals subst moved
  case entered.loadDirty =>
    refine ⟨good, ?_⟩
    dsimp only
    split_ifs <;> exact ⟨by simp, by simp⟩
  case opening.openStream => exact ⟨rfl, by simp, by simp⟩
  case placeholder.writePlaceholder => exact ⟨write_fine good, by simp, by simp⟩
  case creatingState.createState => exact ⟨good, (loop _ _ _).1, (loop _ _ _).2⟩
  case writingKey.write => exact ⟨write_fine good, by simp, by simp⟩
  case writingEntry.write header fed record rest =>
    have still : (run.out.write (entryCodec.encode record.2) true).good = true := write_fine good
    refine ⟨still, ?_⟩
    dsimp only
    rw [if_pos still]
    exact loop _ _ _
  case seeking.seekp => simp [OutStream.seekp, good]
  case rewriting.write => exact ⟨write_fine good, by simp, by simp⟩
  case flushing.flush => simp [OutStream.flush, good]
  case replacing.rename => exact ⟨good, by simp, by simp⟩
  case clearing.clearDirty => exact ⟨good, by simp, by simp⟩

theorem fine_run {run after : SaveRun} {calls : List SaveCall}
    (fine : ∀ call ∈ calls, call.fails = false) (sound : ¬ Doomed run)
    (ran : run.steps xxh32 calls = some after) : ¬ Doomed after := by
  induction calls generalizing run with
  | nil =>
      cases ran
      exact sound
  | cons call calls ih =>
      unfold SaveRun.steps at ran
      cases moved : run.step xxh32 call with
      | none =>
          rw [moved] at ran
          cases ran
      | some next =>
          rw [moved] at ran
          have still := fine_step xxh32 (fine call (by simp)) sound moved
          exact ih (fun call member => fine call (by simp [member])) still ran

/-- A `save` under a set flag whose calls all succeed replaces the file. -/
theorem fine_saved {entries : List Record} {file : Option (List UInt8)} {calls : List SaveCall}
    {after : SaveRun} (fine : ∀ call ∈ calls, call.fails = false)
    (ran : SaveRun.steps xxh32 { entries, file, dirty := true } calls = some after) {status : Status}
    (finished : after.pc = .returned status) :
    ∃ now, after.file = some (checkpointImage xxh32 now entries) := by
  have early := early_start xxh32 { entries, file, dirty := true } rfl rfl
  have sound : ¬ Doomed { entries, file, dirty := true } := by simp [Doomed]
  rcases early_run xxh32 early ran with ⟨_, ⟨_, here⟩, _⟩ | ⟨_, _, _, replaced⟩
  · rw [finished] at here
    rcases here with failed | ⟨_, _, clean, _⟩
    · rw [failed] at finished
      exact absurd (.inr (.inl finished)) (fine_run xxh32 fine sound ran)
    · cases clean
  · exact replaced.file

/-! ## A save between two of its calls -/

/-- A `save` that is not over and began with the file and the flag as they are
now: others may have set the flag since. -/
structure InSave (run : SaveRun) : Prop where
  running : ∀ status, run.pc ≠ .returned status
  stage : Early xxh32 { entries := run.entries, file := run.file, dirty := run.dirty } run ∨
    run.pc = .clearing ∧ ∃ now, run.file = some (checkpointImage xxh32 now run.entries)

theorem in_save_start (entries : List Record) (file : Option (List UInt8)) (dirty : Bool) :
    InSave xxh32 { entries, file, dirty } where
  running status same := by cases same
  stage := .inl (early_start xxh32 _ rfl rfl)

theorem InSave.flagged {run : SaveRun} (inSave : InSave xxh32 run) (dirty : Bool) :
    InSave xxh32 { run with dirty } := by
  refine ⟨inSave.running, ?_⟩
  rcases inSave.stage with ⟨kept, here⟩ | clearing
  · refine .inl ⟨⟨rfl, rfl, rfl⟩, ?_⟩
    cases pc : run.pc with
    | returned status => exact absurd pc (inSave.running status)
    | _ =>
        rw [pc] at here
        exact here
  · exact .inr clearing

/-- What a call of `save` leaves: the file and the flag as they were, or the
image of the snapshot. -/
inductive SaveMoved (run after : SaveRun) : Prop where
  | kept (file : after.file = run.file) (dirty : after.dirty = run.dirty)
      (stage : InSave xxh32 after ∨ ∃ status, after.pc = .returned status)
  | renamed (now : UInt64) (file : after.file = some (checkpointImage xxh32 now run.entries))
      (dirty : after.dirty = run.dirty) (stage : InSave xxh32 after)
  | cleared (now : UInt64) (file : after.file = some (checkpointImage xxh32 now run.entries))
      (dirty : after.dirty = false) (finished : after.pc = .returned .kOk)

theorem save_step_entries {run after : SaveRun} {call : SaveCall}
    (moved : run.step xxh32 call = some after) : after.entries = run.entries := by
  unfold SaveRun.step at moved
  cases pc : run.pc <;> cases call <;>
    simp only [pc, reduceCtorEq, Option.some.injEq] at moved <;> subst moved
  case replacing.rename => split_ifs <;> rfl
  all_goals rfl

theorem in_save_step {run after : SaveRun} {call : SaveCall} (inSave : InSave xxh32 run)
    (moved : run.step xxh32 call = some after) :
    after.entries = run.entries ∧ SaveMoved xxh32 run after := by
  have entries := save_step_entries xxh32 moved
  refine ⟨entries, ?_⟩
  have kept : after.file = run.file → after.dirty = run.dirty →
      (InSave xxh32 after ∨ ∃ status, after.pc = .returned status) → SaveMoved xxh32 run after :=
    fun file dirty stage => .kept file dirty stage
  have replaced : ∀ now, after.file = some (checkpointImage xxh32 now run.entries) →
      (after.pc = .clearing ∧ after.dirty = run.dirty ∨ after.pc = .returned .kOk ∧ after.dirty = false) →
      SaveMoved xxh32 run after := by
    intro now file ending
    rcases ending with ⟨clearing, dirty⟩ | ⟨finished, dirty⟩
    · apply SaveMoved.renamed now file dirty
      refine ⟨fun status same => ?_, .inr ⟨clearing, now, ?_⟩⟩
      · rw [clearing] at same
        cases same
      · rw [entries]
        exact file
    · exact .cleared now file dirty finished
  rcases inSave.stage with early | ⟨clearing, now, file⟩
  · rcases early_step xxh32 early moved with ⟨_, ⟨untouched, here⟩, _⟩ | ⟨_, _, ⟨now, file⟩, ending⟩
    · apply kept untouched.file untouched.dirty
      by_cases finished : ∃ status, after.pc = .returned status
      · exact .inr finished
      · refine .inl ⟨fun status same => finished ⟨status, same⟩, .inl ⟨⟨rfl, rfl, rfl⟩, ?_⟩⟩
        rw [untouched.entries, untouched.dirty]
        exact here
    · exact replaced now file ending
  · have before : Replaced xxh32 { entries := run.entries, file := run.file, dirty := run.dirty }
        run := ⟨⟨now, file⟩, .inl ⟨clearing, rfl⟩⟩
    rcases (replaced_step xxh32 before moved).2 with ⟨⟨later, fileAfter⟩, ending⟩
    exact replaced later fileAfter ending

/-! ## Loading an image -/

/-- What `load` makes of the image of a snapshot. -/
theorem load_image (now : UInt64) (entries : List Record) (index : ConcurrentHashMap)
    (capped : entries.length ≤ 100000000) :
    load xxh32 (some (checkpointImage xxh32 now entries)) {} index =
      (.kOk, index.bulkLoad (sortEntries entries)) := by
  have valid := checkpoint_image_valid xxh32 now entries capped
  rcases load_cases xxh32 (checkpointImage xxh32 now entries) index with ⟨_, loaded⟩ | ⟨invalid, _⟩
  · rw [loaded, image_entries_eq xxh32 now entries (by omega)]
  · exact absurd valid invalid

/-- Whatever `load` makes of an image, it finds no entry that was not saved. -/
theorem load_image_found {now : UInt64} {entries : List Record} {key : StorageKey}
    {entry : IndexEntry}
    (found : (load xxh32 (some (checkpointImage xxh32 now entries)) {} ∅).2.find key = some entry) :
    (key, entry) ∈ entries := by
  rcases load_cases xxh32 (checkpointImage xxh32 now entries) ∅ with ⟨valid, loaded⟩ | ⟨_, loaded⟩
  · rw [loaded] at found
    dsimp only at found
    rw [ConcurrentHashMap.find_bulk_load, ConcurrentHashMap.find_empty, Option.none_or,
      Option.map_eq_some_iff] at found
    rcases found with ⟨record, isRecord, rfl⟩
    have named : record.1 = key := by simpa using List.find?_some isRecord
    have member := List.mem_of_find?_eq_some isRecord
    have length : (checkpointImage xxh32 now entries).length = 64 + 94 * entries.length := by
      rw [checkpointImage, List.length_append, headerCodec.encode_length, checkpoint_body_length]
      rfl
    have room := valid.body
    have enough : imageCount (checkpointImage xxh32 now entries) ≤ (sortEntries entries).length := by
      rw [sort_entries_length]
      omega
    rw [imageEntries, image_drop_header, checkpointBody, recordCodec.decode_row_take _ _ enough]
      at member
    rw [← named]
    exact (sort_entries_perm entries).mem_iff.1 (List.mem_of_mem_take member)
  · rw [loaded] at found
    cases found

/-- A `save` of any snapshot over any checkpoint file, stopped anywhere. If a
call fails, or the rename is not reached, the file and the flag are as before
and a return is `kIOError`; the one other return is that of an empty snapshot
of a clean index, for which `save` calls nothing. With the rename the file is a
whole image. -/
theorem save_replaces_atomically (entries : List Record) (file : Option (List UInt8)) (dirty : Bool)
    (calls : List SaveCall) (after : SaveRun)
    (ran : SaveRun.steps xxh32 { entries, file, dirty } calls = some after) :
    ((∃ call ∈ calls, call.fails = true) →
      after.file = file ∧ after.dirty = dirty ∧
        ∀ status, after.pc = .returned status → status = .kIOError) ∧
    (.rename true ∉ calls →
      after.file = file ∧ after.dirty = dirty ∧
        ∀ status, after.pc = .returned status →
          status = .kIOError ∨ status = .kOk ∧ entries = [] ∧ dirty = false) ∧
    (.rename true ∈ calls →
      ∃ now, after.file = some (checkpointImage xxh32 now entries) ∧
        (entries.length ≤ 100000000 → ∀ index,
          load xxh32 after.file {} index = (.kOk, index.bulkLoad (sortEntries entries)))) := by
  have early := early_start xxh32 { entries, file, dirty } rfl rfl
  rcases early_run xxh32 early ran with ⟨absent, ⟨kept, here⟩, doomed⟩ | ⟨present, _, fine, replaced⟩
  · refine ⟨fun failing => ⟨kept.file, kept.dirty, ?_⟩, fun _ => ⟨kept.file, kept.dirty, ?_⟩,
      fun present => absurd present absent⟩
    · intro status returned
      rw [returned] at here
      rcases here with failed | ⟨ok, _, _, closed⟩
      · exact failed
      · rcases doomed (.inr failing) with bad | failed | threw
        · rw [closed] at bad
          cases bad
        · rw [returned] at failed
          cases failed
          rfl
        · rw [returned] at threw
          cases threw
    · intro status returned
      rw [returned] at here
      rcases here with failed | ⟨ok, nothing, clean, _⟩
      · exact .inl failed
      · exact .inr ⟨ok, nothing, clean⟩
  · refine ⟨?_, fun absent => absurd present absent, fun _ => ?_⟩
    · rintro ⟨call, member, fails⟩
      rw [fine call member] at fails
      cases fails
    · rcases replaced.file with ⟨now, image⟩
      refine ⟨now, image, fun capped index => ?_⟩
      rw [image]
      exact load_image xxh32 now entries index capped

/-- What a `save` that returned `kOk` has put into the file. -/
theorem saved_image (entries : List Record) (file : Option (List UInt8)) (dirty : Bool)
    (calls : List SaveCall) (after : SaveRun)
    (ran : SaveRun.steps xxh32 { entries, file, dirty } calls = some after)
    (ok : after.pc = .returned .kOk) (worth : entries ≠ [] ∨ dirty = true) :
    ∃ now, after.file = some (checkpointImage xxh32 now entries) := by
  have early := early_start xxh32 { entries, file, dirty } rfl rfl
  rcases early_run xxh32 early ran with ⟨_, ⟨_, here⟩, _⟩ | ⟨_, _, _, replaced⟩
  · rw [ok] at here
    rcases here with failed | ⟨_, nothing, clean, _⟩
    · cases failed
    · rcases worth with some | marked
      · exact absurd nothing some
      · rw [marked] at clean
        cases clean
  · exact replaced.file

/-- Loading what `save` has written gives the saved map back, and neither the
records in the file nor its checksum depend on the order in which the snapshot
enumerated the map. -/
theorem checkpoint_round_trip (index : ConcurrentHashMap) (capped : index.size ≤ 100000000)
    (file : Option (List UInt8)) (dirty : Bool) (worth : index.size ≠ 0 ∨ dirty = true)
    (entries : List Record) (enumerated : entries.Perm index.snapshot) (calls : List SaveCall)
    (after : SaveRun) (ran : SaveRun.steps xxh32 { entries, file, dirty } calls = some after)
    (ok : after.pc = .returned .kOk) :
    (load xxh32 after.file {} ∅).1 = .kOk ∧
    (∀ key, (load xxh32 after.file {} ∅).2.find key = index.find key) ∧
    ∀ (other : List Record) (otherCalls : List SaveCall) (otherAfter : SaveRun),
      other.Perm index.snapshot →
      SaveRun.steps xxh32 { entries := other, file, dirty } otherCalls = some otherAfter →
      otherAfter.pc = .returned .kOk →
      ∃ bytes otherBytes, after.file = some bytes ∧ otherAfter.file = some otherBytes ∧
        bytes.drop headerCodec.width = otherBytes.drop headerCodec.width ∧
        (imageHeader bytes).checksum = (imageHeader otherBytes).checksum := by
  have count : ∀ {list : List Record}, list.Perm index.snapshot → list.length = index.size := by
    intro list perm
    rw [perm.length_eq]
    exact List.length_map _
  have written : ∀ {list : List Record}, list.Perm index.snapshot → list ≠ [] ∨ dirty = true := by
    intro list perm
    refine worth.imp (fun some nothing => some ?_) id
    rw [← count perm, nothing]
    rfl
  rcases saved_image xxh32 entries file dirty calls after ran ok (written enumerated) with
    ⟨now, image⟩
  have short : entries.length ≤ 100000000 := by
    rw [count enumerated]
    exact capped
  refine ⟨?_, fun key => ?_, ?_⟩
  · rw [image, load_image xxh32 now entries ∅ short]
  · rw [image, load_image xxh32 now entries ∅ short]
    exact index.find_bulk_load_snapshot key ((sort_entries_perm entries).trans enumerated)
  · intro other otherCalls otherAfter perm otherRan otherOk
    rcases saved_image xxh32 other file dirty otherCalls otherAfter otherRan otherOk (written perm)
      with ⟨otherNow, otherImage⟩
    have distinct : (entries.map Prod.fst).Nodup :=
      (enumerated.map Prod.fst).nodup_iff.2 index.snapshot_keys_nodup
    have sorted := sort_entries_canonical entries other (enumerated.trans perm.symm) distinct
    have body : checkpointBody entries = checkpointBody other := by
      rw [checkpointBody, sorted, checkpointBody]
    refine ⟨_, _, image, otherImage, ?_, ?_⟩
    · rw [image_drop_header, image_drop_header, body]
    · rw [image_header_eq, image_header_eq, finalHeader, finalHeader, body]

end Hash

/-! ## Two entries, in either order -/

def pairCalls : List SaveCall :=
  [.loadDirty, .openStream true, .writePlaceholder 7 true, .createState true, .write true,
    .write true, .write true, .write true, .seekp true, .write true, .flush true, .rename true,
    .clearDirty]

/-- The stream fails at the first header. Only the check after the first record
sees it. -/
def failingCalls : List SaveCall :=
  [.loadDirty, .openStream true, .writePlaceholder 7 false, .createState true, .write true,
    .write true]

def firstRecord : Record := (⟨1, 0, 0, 0, 0⟩, { IndexEntry.zero with length := 10, recomputeCost := 1 })

def secondRecord : Record := (⟨2, 0, 0, 0, 0⟩, { IndexEntry.zero with length := 20, recomputeCost := 2 })

def pairIndex : ConcurrentHashMap :=
  ConcurrentHashMap.upsert (ConcurrentHashMap.upsert ∅ firstRecord.1 firstRecord.2) secondRecord.1
    secondRecord.2

/-- The hash of the 188 bytes of the two records. -/
def pairHash : List UInt8 → UInt32 := fun _ => 0x7044f030

def pairSave (entries : List Record) (calls : List SaveCall) : SaveRun :=
  (SaveRun.steps pairHash { entries, file := some [1, 2, 3], dirty := true } calls).getD
    { entries, file := none, dirty := true }

/-- A failed save leaves the file that was there, which a whole one replaces. -/
theorem save_replaces_atomically_failing :
    let failed := pairSave [secondRecord, firstRecord] failingCalls
    failed.pc = .returned .kIOError ∧ failed.file = some [1, 2, 3] ∧ failed.dirty = true ∧
      ∃ now, (pairSave [secondRecord, firstRecord] pairCalls).file =
        some (checkpointImage pairHash now [secondRecord, firstRecord]) := by
  intro failed
  have kept := (save_replaces_atomically pairHash [secondRecord, firstRecord] (some [1, 2, 3]) true
    failingCalls failed (by decide +kernel)).1 ⟨.writePlaceholder 7 false, by decide, rfl⟩
  have replaced := (save_replaces_atomically pairHash [secondRecord, firstRecord] (some [1, 2, 3])
    true pairCalls (pairSave [secondRecord, firstRecord] pairCalls) (by decide +kernel)).2.2 (by decide)
  rcases replaced with ⟨now, image, _⟩
  exact ⟨by decide +kernel, kept.1, kept.2.1, now, image⟩

theorem checkpoint_round_trip_two_orders :
    let saved := pairSave [secondRecord, firstRecord] pairCalls
    let other := pairSave [firstRecord, secondRecord] pairCalls
    (load pairHash saved.file {} ∅).1 = .kOk ∧
      (load pairHash saved.file {} ∅).2.find firstRecord.1 = some firstRecord.2 ∧
      (load pairHash saved.file {} ∅).2.find secondRecord.1 = some secondRecord.2 ∧
      ∃ bytes otherBytes, saved.file = some bytes ∧ other.file = some otherBytes ∧
        bytes.drop headerCodec.width = otherBytes.drop headerCodec.width ∧
        (imageHeader bytes).checksum = (imageHeader otherBytes).checksum := by
  intro saved other
  have listed : pairIndex.snapshot = [secondRecord, firstRecord] := by decide +kernel
  have loaded := checkpoint_round_trip pairHash pairIndex (by decide +kernel) (some [1, 2, 3]) true
    (.inr rfl) [secondRecord, firstRecord] (.of_eq listed.symm) pairCalls saved (by decide +kernel)
    (by decide +kernel)
  have swapped : [firstRecord, secondRecord].Perm pairIndex.snapshot := by
    rw [listed]
    exact .swap _ _ _
  refine ⟨loaded.1, loaded.2.1 firstRecord.1, loaded.2.1 secondRecord.1, ?_⟩
  exact loaded.2.2 [firstRecord, secondRecord] pairCalls other swapped (by decide +kernel)
    (by decide +kernel)

end AttentionDB.Checkpoint
