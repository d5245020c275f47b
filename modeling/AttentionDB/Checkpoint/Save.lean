import AttentionDB.Checkpoint.Load

/-!
# What `save` leaves behind

Every state of a `save` is described by its next call: up to the rename the
checkpoint file and the dirty flag are as they were, and as long as the stream
is good it holds what was written so far. From the rename on the file is the
image of the snapshot.
-/

namespace AttentionDB.Checkpoint

set_option autoImplicit false

/-! ## Sorting -/

theorem sort_entries_perm (entries : List Record) : (sortEntries entries).Perm entries :=
  List.perm_insertionSort _ _

theorem sort_entries_length (entries : List Record) :
    (sortEntries entries).length = entries.length :=
  (sort_entries_perm entries).length_eq

theorem key_bytes_injective : Function.Injective StorageKey.bytes := by
  intro left right same
  rw [← key_codec_bytes, ← key_codec_bytes] at same
  exact keyCodec.encode_injective same

/-- The order of the entries is that of the file only, whichever order they
were enumerated in. -/
theorem sort_entries_canonical (first second : List Record) (perm : first.Perm second)
    (distinct : (first.map Prod.fst).Nodup) : sortEntries first = sortEntries second := by
  let before := fun left right : Record => left.1.bytes ≤ right.1.bytes
  have total : Std.Total before := ⟨fun left right => List.le_total _ _⟩
  have transitive : IsTrans Record before := ⟨fun _ _ _ => List.le_trans⟩
  have sorted : ∀ entries, (sortEntries entries).Pairwise before := fun entries =>
    List.pairwise_insertionSort before entries
  apply List.Perm.eq_of_pairwise _ (sorted first) (sorted second)
    ((sort_entries_perm first).trans (perm.trans (sort_entries_perm second).symm))
  intro left right leftMember rightMember below above
  have key : left.1 = right.1 := key_bytes_injective (List.le_antisymm below above)
  rw [(sort_entries_perm first).mem_iff] at leftMember
  rw [(sort_entries_perm second).mem_iff, ← perm.mem_iff] at rightMember
  exact List.inj_on_of_nodup_map distinct leftMember rightMember key

section Hash

variable (xxh32 : List UInt8 → UInt32)

/-! ## The image of a snapshot -/

def checkpointBody (entries : List Record) : List UInt8 :=
  recordCodec.encodeRow (sortEntries entries)

def finalHeader (entries : List Record) (now : UInt64) : CheckpointFileHeader :=
  { placeholderHeader entries now with checksum := xxh32 (checkpointBody entries) }

def checkpointImage (now : UInt64) (entries : List Record) : List UInt8 :=
  headerCodec.encode (finalHeader xxh32 entries now) ++ checkpointBody entries

theorem checkpoint_body_length (entries : List Record) :
    (checkpointBody entries).length = 94 * entries.length := by
  rw [checkpointBody, recordCodec.encode_row_length, sort_entries_length, record_width]

theorem image_header_eq (now : UInt64) (entries : List Record) :
    imageHeader (checkpointImage xxh32 now entries) = finalHeader xxh32 entries now := by
  rw [imageHeader, checkpointImage, List.take_left' (headerCodec.encode_length _),
    headerCodec.decode_encode]

theorem image_drop_header (now : UInt64) (entries : List Record) :
    (checkpointImage xxh32 now entries).drop headerCodec.width = checkpointBody entries := by
  rw [checkpointImage, List.drop_left' (headerCodec.encode_length _)]

theorem image_count_eq (now : UInt64) (entries : List Record) (fits : entries.length < 2 ^ 64) :
    imageCount (checkpointImage xxh32 now entries) = entries.length := by
  rw [imageCount, image_header_eq]
  exact UInt64.toNat_ofNat_of_lt' fits

theorem image_body_eq (now : UInt64) (entries : List Record) (fits : entries.length < 2 ^ 64) :
    imageBody (checkpointImage xxh32 now entries) = checkpointBody entries := by
  rw [imageBody, image_drop_header, image_count_eq xxh32 now entries fits, record_width,
    ← checkpoint_body_length, List.take_length]

theorem image_entries_eq (now : UInt64) (entries : List Record) (fits : entries.length < 2 ^ 64) :
    imageEntries (checkpointImage xxh32 now entries) = sortEntries entries := by
  have decoded := recordCodec.decode_encode_row (sortEntries entries) []
  rw [sort_entries_length, List.append_nil] at decoded
  rw [imageEntries, image_drop_header, image_count_eq xxh32 now entries fits]
  exact decoded

theorem checkpoint_image_valid (now : UInt64) (entries : List Record)
    (capped : entries.length ≤ 100000000) :
    ValidImage xxh32 (checkpointImage xxh32 now entries) := by
  have fits : entries.length < 2 ^ 64 := by omega
  have count := image_count_eq xxh32 now entries fits
  have length : (checkpointImage xxh32 now entries).length = 64 + 94 * entries.length := by
    rw [checkpointImage, List.length_append, headerCodec.encode_length, checkpoint_body_length,
      header_width]
  exact {
    header := by omega
    magic := by rw [image_header_eq]; rfl
    version := by rw [image_header_eq]; rfl
    count := by omega
    body := by omega
    checksum := by rw [image_body_eq xxh32 now entries fits, image_header_eq]; rfl }

/-! ## The stream -/

theorem write_good {out : OutStream} {bytes : List UInt8} {ok : Bool}
    (good : (out.write bytes ok).good = true) : out.good = true ∧ ok = true := by
  unfold OutStream.write at good
  split_ifs at good with both
  simpa using both

def Holds (out : OutStream) (content : List UInt8) : Prop :=
  out.good = true → out.content = content ∧ out.pos = content.length

theorem Holds.write {out : OutStream} {content : List UInt8} (holds : Holds out content)
    (bytes : List UInt8) (ok : Bool) : Holds (out.write bytes ok) (content ++ bytes) := by
  intro good
  rcases write_good good with ⟨before, rfl⟩
  rcases holds before with ⟨content, pos⟩
  unfold OutStream.write
  rw [before, Bool.true_and, if_pos rfl]
  simp [content, pos]

def Rewound (out : OutStream) (content : List UInt8) : Prop :=
  out.good = true → out.content = content ∧ out.pos = 0

theorem Holds.seekp {out : OutStream} {content : List UInt8} (holds : Holds out content) (ok : Bool) :
    Rewound (out.seekp ok) content := by
  intro good
  unfold OutStream.seekp at good ⊢
  split_ifs at good ⊢ with both
  have before : out.good = true := by
    rw [Bool.and_eq_true] at both
    exact both.1
  exact ⟨(holds before).1, rfl⟩

/-- Writing over a prefix of the same length. -/
theorem Rewound.write {out : OutStream} {first second rest : List UInt8}
    (rewound : Rewound out (first ++ rest)) (length : first.length = second.length) (ok : Bool)
    (good : (out.write second ok).good = true) :
    (out.write second ok).content = second ++ rest := by
  rcases write_good good with ⟨before, rfl⟩
  rcases rewound before with ⟨content, pos⟩
  unfold OutStream.write
  rw [before, Bool.true_and, if_pos rfl]
  simp [content, pos, ← length]

/-! ## What each call does -/

structure Untouched (before run : SaveRun) : Prop where
  entries : run.entries = before.entries
  file : run.file = before.file
  dirty : run.dirty = before.dirty

/-- A `save` that has not renamed: where it stands, and what its stream holds. -/
def Early (before run : SaveRun) : Prop :=
  Untouched before run ∧
  match run.pc with
  | .entered | .opening | .placeholder => run.out = {}
  | .creatingState header =>
      ∃ now, header = placeholderHeader before.entries now ∧
        Holds run.out (headerCodec.encode header)
  | .writingKey header fed record rest =>
      ∃ now done, header = placeholderHeader before.entries now ∧
        sortEntries before.entries = done ++ record :: rest ∧ fed = recordCodec.encodeRow done ∧
        Holds run.out (headerCodec.encode header ++ fed)
  | .writingEntry header fed record rest =>
      ∃ now done, header = placeholderHeader before.entries now ∧
        sortEntries before.entries = done ++ record :: rest ∧ fed = recordCodec.encodeRow done ∧
        Holds run.out (headerCodec.encode header ++ fed ++ keyCodec.encode record.1)
  | .seeking header =>
      ∃ now, header = finalHeader xxh32 before.entries now ∧
        Holds run.out
          (headerCodec.encode (placeholderHeader before.entries now) ++ checkpointBody before.entries)
  | .rewriting header =>
      ∃ now, header = finalHeader xxh32 before.entries now ∧
        Rewound run.out
          (headerCodec.encode (placeholderHeader before.entries now) ++ checkpointBody before.entries)
  | .flushing => ∃ now, run.out.good = true → run.out.content = checkpointImage xxh32 now before.entries
  | .replacing =>
      run.out.good = true ∧ ∃ now, run.out.content = checkpointImage xxh32 now before.entries
  | .clearing => False
  | .returned status =>
      status = .kIOError ∨
        status = .kOk ∧ before.entries = [] ∧ before.dirty = false ∧ run.out = {}
  | .threw => True

structure Replaced (before run : SaveRun) : Prop where
  file : ∃ now, run.file = some (checkpointImage xxh32 now before.entries)
  ending : run.pc = .clearing ∧ run.dirty = before.dirty ∨ run.pc = .returned .kOk ∧ run.dirty = false

def Doomed (run : SaveRun) : Prop :=
  run.out.good = false ∨ run.pc = .returned .kIOError ∨ run.pc = .threw

theorem write_doomed {out : OutStream} {bytes : List UInt8} {ok : Bool}
    (cause : ok = false ∨ out.good = false) : (out.write bytes ok).good = false := by
  cases written : (out.write bytes ok).good with
  | false => rfl
  | true =>
      rcases write_good written with ⟨good, rfl⟩
      rcases cause with failed | bad
      · cases failed
      · rw [good] at bad
        cases bad

theorem seekp_doomed {out : OutStream} {ok : Bool} (cause : ok = false ∨ out.good = false) :
    (out.seekp ok).good = false := by
  unfold OutStream.seekp
  rcases cause with rfl | bad
  · simp
  · simp [bad]

/-- The head of the loop, with `done` behind it. -/
theorem early_loop {before run : SaveRun} {header : CheckpointFileHeader} {now : UInt64}
    {done rest : List Record} (kept : Untouched before run)
    (placed : header = placeholderHeader before.entries now)
    (split : sortEntries before.entries = done ++ rest)
    (holds : Holds run.out (headerCodec.encode header ++ recordCodec.encodeRow done))
    (here : run.pc = .loop xxh32 header (recordCodec.encodeRow done) rest) :
    Early xxh32 before run := by
  refine ⟨kept, ?_⟩
  rw [here]
  cases rest with
  | nil =>
      rw [List.append_nil] at split
      refine ⟨now, ?_, ?_⟩
      · rw [finalHeader, checkpointBody, split, placed]
      · rw [checkpointBody, split, ← placed]
        exact holds
  | cons record rest => exact ⟨now, done, placed, split, rfl, holds⟩

/-- What makes a call on the stream end with a failed stream. -/
theorem stream_cause {run : SaveRun} (call : SaveCall) (ok : Bool) (fails : call.fails = !ok)
    (waiting : run.pc ≠ .returned .kIOError) (caught : run.pc ≠ .threw)
    (cause : call.fails = true ∨ Doomed run) : ok = false ∨ run.out.good = false := by
  rcases cause with failed | bad | returned | threw
  · rw [fails] at failed
    exact .inl (by simpa using failed)
  · exact .inr bad
  · exact absurd returned waiting
  · exact absurd threw caught

/-- Before the rename a call either keeps `save` there, and a failure is never
forgotten, or it is the rename itself, with nothing failed so far. -/
theorem early_step {before run after : SaveRun} {call : SaveCall} (early : Early xxh32 before run)
    (moved : run.step xxh32 call = some after) :
    (call ≠ .rename true ∧ Early xxh32 before after ∧
        (call.fails = true ∨ Doomed run → Doomed after)) ∨
      (call = .rename true ∧ ¬ Doomed run ∧ Replaced xxh32 before after) := by
  rcases early with ⟨kept, here⟩
  have untouched : ∀ out pc, Untouched before { run with out, pc } :=
    fun _ _ => ⟨kept.entries, kept.file, kept.dirty⟩
  unfold SaveRun.step at moved
  cases pc : run.pc with
  | entered =>
      rw [pc] at here moved
      cases call with
      | loadDirty =>
          cases moved
          have alive : ¬ (SaveCall.fails .loadDirty = true ∨ Doomed run) := by
            simp [SaveCall.fails, Doomed, pc, show run.out = {} from here]
          refine .inl ⟨by simp, ⟨untouched _ _, ?_⟩, fun cause => absurd cause alive⟩
          dsimp only
          split_ifs with nothing
          · rw [kept.entries, kept.dirty] at nothing
            exact .inr ⟨rfl, nothing.1, nothing.2, here⟩
          · exact here
      | _ => cases moved
  | opening =>
      rw [pc] at here moved
      cases call with
      | openStream ok =>
          cases moved
          cases ok with
          | true =>
              refine .inl ⟨by simp, ⟨untouched _ _, rfl⟩, fun cause => ?_⟩
              have : run.out = {} := here
              simp [SaveCall.fails, Doomed, pc, this] at cause
          | false => exact .inl ⟨by simp, ⟨untouched _ _, .inl rfl⟩, fun _ => .inr (.inl rfl)⟩
      | _ => cases moved
  | placeholder =>
      rw [pc] at here moved
      cases call with
      | writePlaceholder now ok =>
          cases moved
          have empty : Holds run.out [] := by
            intro _
            rw [show run.out = {} from here]
            exact ⟨rfl, rfl⟩
          have written := empty.write (headerCodec.encode (placeholderHeader run.entries now)) ok
          rw [List.nil_append] at written
          refine .inl ⟨by simp, ⟨untouched _ _, now, ?_, written⟩, fun cause => .inl ?_⟩
          · rw [kept.entries]
          · exact write_doomed (stream_cause _ ok rfl (by simp [pc]) (by simp [pc]) cause)
      | _ => cases moved
  | creatingState header =>
      rw [pc] at here moved
      cases call with
      | createState ok =>
          cases moved
          rcases here with ⟨now, placed, holds⟩
          cases ok with
          | false => exact .inl ⟨by simp, ⟨untouched _ _, .inl rfl⟩, fun _ => .inr (.inl rfl)⟩
          | true =>
              refine .inl ⟨by simp, ?_, fun cause => .inl ?_⟩
              · refine early_loop xxh32 (untouched _ _) placed (List.nil_append _).symm ?_ ?_
                · exact (List.append_nil (headerCodec.encode header)).symm ▸ holds
                · rw [← kept.entries]
                  rfl
              · rcases stream_cause _ true rfl (by simp [pc]) (by simp [pc]) cause with failed | bad
                · cases failed
                · exact bad
      | _ => cases moved
  | writingKey header fed record rest =>
      rw [pc] at here moved
      cases call with
      | write ok =>
          cases moved
          rcases here with ⟨now, done, placed, split, hashed, holds⟩
          refine .inl ⟨by simp, ⟨untouched _ _, now, done, placed, split, hashed, holds.write _ ok⟩,
            fun cause => .inl ?_⟩
          exact write_doomed (stream_cause _ ok rfl (by simp [pc]) (by simp [pc]) cause)
      | _ => cases moved
  | writingEntry header fed record rest =>
      rw [pc] at here moved
      cases call with
      | write ok =>
          cases moved
          rcases here with ⟨now, done, placed, split, hashed, holds⟩
          have written := holds.write (entryCodec.encode record.2) ok
          have row : recordCodec.encodeRow (done ++ [record]) =
              fed ++ keyCodec.encode record.1 ++ entryCodec.encode record.2 := by
            rw [hashed, List.append_assoc]
            simp only [FixedCodec.encodeRow, List.flatMap_append, List.flatMap_cons,
              List.flatMap_nil, List.append_nil]
            rfl
          cases good : (run.out.write (entryCodec.encode record.2) ok).good with
          | false =>
              refine .inl ⟨by simp, ?_, fun _ => .inl good⟩
              exact ⟨untouched _ _, .inl rfl⟩
          | true =>
              refine .inl ⟨by simp, ?_, fun cause => ?_⟩
              · have divided : sortEntries before.entries = (done ++ [record]) ++ rest := by
                  rw [split, List.append_assoc, List.singleton_append]
                refine early_loop xxh32 (untouched _ _) placed divided ?_ ?_
                · rw [row, ← List.append_assoc, ← List.append_assoc]
                  exact written
                · rw [row]
                  rfl
              · rcases write_good good with ⟨whole, rfl⟩
                rcases stream_cause _ true rfl (by simp [pc]) (by simp [pc]) cause with failed | bad
                · cases failed
                · rw [whole] at bad
                  cases bad
      | _ => cases moved
  | seeking header =>
      rw [pc] at here moved
      cases call with
      | seekp ok =>
          cases moved
          rcases here with ⟨now, placed, holds⟩
          refine .inl ⟨by simp, ⟨untouched _ _, now, placed, holds.seekp ok⟩, fun cause => .inl ?_⟩
          exact seekp_doomed (stream_cause _ ok rfl (by simp [pc]) (by simp [pc]) cause)
      | _ => cases moved
  | rewriting header =>
      rw [pc] at here moved
      cases call with
      | write ok =>
          cases moved
          rcases here with ⟨now, placed, rewound⟩
          refine .inl ⟨by simp, ⟨untouched _ _, now, fun good => ?_⟩, fun cause => .inl ?_⟩
          · have length : (headerCodec.encode (placeholderHeader before.entries now)).length =
                (headerCodec.encode header).length := by
              rw [headerCodec.encode_length, headerCodec.encode_length]
            rw [checkpointImage, ← placed]
            exact rewound.write length ok good
          · exact write_doomed (stream_cause _ ok rfl (by simp [pc]) (by simp [pc]) cause)
      | _ => cases moved
  | flushing =>
      rw [pc] at here moved
      cases call with
      | flush ok =>
          cases moved
          rcases here with ⟨now, image⟩
          cases good : (run.out.flush ok).good with
          | false =>
              refine .inl ⟨by simp, ?_, fun _ => .inl good⟩
              exact ⟨untouched _ _, .inl rfl⟩
          | true =>
              have both : run.out.good = true ∧ ok = true := by simpa [OutStream.flush] using good
              refine .inl ⟨by simp, ?_, fun cause => ?_⟩
              · exact ⟨untouched _ _, good, now, image both.1⟩
              · rcases stream_cause _ ok rfl (by simp [pc]) (by simp [pc]) cause with failed | bad
                · rw [both.2] at failed
                  cases failed
                · rw [both.1] at bad
                  cases bad
      | _ => cases moved
  | replacing =>
      rw [pc] at here moved
      cases call with
      | rename ok =>
          cases moved
          rcases here with ⟨good, now, image⟩
          cases ok with
          | false => exact .inl ⟨by simp, ⟨⟨kept.entries, kept.file, kept.dirty⟩, trivial⟩,
              fun _ => .inr (.inr rfl)⟩
          | true =>
              refine .inr ⟨rfl, ?_, ⟨now, ?_⟩, .inl ⟨rfl, kept.dirty⟩⟩
              · intro doomed
                rcases stream_cause (.rename true) true rfl (by simp [pc]) (by simp [pc]) (.inr doomed)
                  with failed | bad
                · cases failed
                · rw [good] at bad
                  cases bad
              · exact congrArg some image
      | _ => cases moved
  | clearing =>
      rw [pc] at here
      exact here.elim
  | returned status =>
      rw [pc] at moved
      cases moved
  | threw =>
      rw [pc] at moved
      cases moved

theorem replaced_step {before run after : SaveRun} {call : SaveCall}
    (replaced : Replaced xxh32 before run) (moved : run.step xxh32 call = some after) :
    call.fails = false ∧ Replaced xxh32 before after := by
  rcases replaced with ⟨file, ⟨pc, dirty⟩ | ⟨pc, dirty⟩⟩
  · unfold SaveRun.step at moved
    rw [pc] at moved
    cases call with
    | clearDirty =>
        cases moved
        exact ⟨rfl, file, .inr ⟨rfl, rfl⟩⟩
    | _ => cases moved
  · unfold SaveRun.step at moved
    rw [pc] at moved
    cases moved

/-! ## Whole runs -/

theorem replaced_run {before run after : SaveRun} {calls : List SaveCall}
    (replaced : Replaced xxh32 before run) (ran : run.steps xxh32 calls = some after) :
    (∀ call ∈ calls, call.fails = false) ∧ Replaced xxh32 before after := by
  induction calls generalizing run with
  | nil =>
      cases ran
      exact ⟨by simp, replaced⟩
  | cons call calls ih =>
      unfold SaveRun.steps at ran
      cases moved : run.step xxh32 call with
      | none =>
          rw [moved] at ran
          cases ran
      | some next =>
          rw [moved] at ran
          rcases replaced_step xxh32 replaced moved with ⟨fine, kept⟩
          rcases ih kept ran with ⟨later, last⟩
          exact ⟨by simpa [fine] using later, last⟩

theorem early_run {before run after : SaveRun} {calls : List SaveCall}
    (early : Early xxh32 before run) (ran : run.steps xxh32 calls = some after) :
    (.rename true ∉ calls ∧ Early xxh32 before after ∧
        (Doomed run ∨ (∃ call ∈ calls, call.fails = true) → Doomed after)) ∨
      (.rename true ∈ calls ∧ ¬ Doomed run ∧ (∀ call ∈ calls, call.fails = false) ∧
        Replaced xxh32 before after) := by
  induction calls generalizing run with
  | nil =>
      cases ran
      exact .inl ⟨by simp, early, by simp⟩
  | cons call calls ih =>
      unfold SaveRun.steps at ran
      cases moved : run.step xxh32 call with
      | none =>
          rw [moved] at ran
          cases ran
      | some next =>
          rw [moved] at ran
          rcases early_step xxh32 early moved with ⟨other, kept, doomed⟩ | ⟨rfl, sound, replaced⟩
          · rcases ih kept ran with ⟨absent, last, later⟩ | ⟨present, sound, fine, replaced⟩
            · refine .inl ⟨by simpa [Ne.symm other] using absent, last, ?_⟩
              rintro (bad | ⟨failing, member, fails⟩)
              · exact later (.inl (doomed (.inr bad)))
              · rcases List.mem_cons.1 member with rfl | member
                · exact later (.inl (doomed (.inl fails)))
                · exact later (.inr ⟨failing, member, fails⟩)
            · refine .inr ⟨List.mem_cons_of_mem _ present, fun bad => sound (doomed (.inr bad)), ?_,
                replaced⟩
              intro failing member
              rcases List.mem_cons.1 member with rfl | member
              · cases fails : failing.fails with
                | false => rfl
                | true => exact absurd (doomed (.inl fails)) sound
              · exact fine failing member
          · rcases replaced_run xxh32 replaced ran with ⟨fine, last⟩
            refine .inr ⟨by simp, sound, ?_, last⟩
            intro failing member
            rcases List.mem_cons.1 member with rfl | member
            · rfl
            · exact fine failing member

end Hash

end AttentionDB.Checkpoint
