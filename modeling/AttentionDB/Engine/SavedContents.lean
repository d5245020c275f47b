import AttentionDB.Engine.CacheRefinement
import AttentionDB.Engine.CleanRestart
import AttentionDB.Lib.SavedMap

/-!
# An engine on a directory that had others

An engine that was opened on a checkpoint has entries of earlier processes. It
shows a map: every entry describes one put, that put's blob is where the entry
says, and the entries outside T1 are the ones that a checkpoint brings back.
Every call does to the map what a call of a map does, and the rounds of the
eviction only move values down or drop them.
-/

namespace AttentionDB

open GuardedRuns ByteMap BlobStore LossyMaps

set_option autoImplicit false

/-! ## Reading entries of earlier processes -/

namespace BlobStore

variable {s : BlobStore} {ack : Ack}

/-- Every entry is in its file, unless ranges may be `lost` that were never written. -/
def Readable (content : File → Ack → Prop) (lost : Prop) : Prop :=
  ∀ file ack, content file ack → Written file ack ∨ lost ∧ Blank file ack

/-- A range that was never written is a miss, at the second attempt. -/
theorem read_disk_blank_answer (blank : Blank (s.fileOf ack.loc.segmentId) ack)
    (bufLen attempt : Nat) (readOk : Bool) :
    s.readDisk (.canonical ack.loc.segmentId) ack.loc bufLen attempt readOk =
      if attempt = 0 then none else some { status := .kNotFound } := by
  -- a size in the header would be answered with a large enough buffer
  have answered := fun room reply => @read_disk_blank s ack room attempt readOk reply blank
  unfold readDisk at answered ⊢
  dsimp only at answered ⊢
  generalize blobSizeAt (patch (fun _ => 0) 0 _) 0 = size at answered ⊢
  by_cases short : (if readOk = true then
      toInt32 ((s.files (.canonical ack.loc.segmentId)).pread ack.loc.offset ack.loc.diskSize).length
    else -1) < toInt32 ack.loc.diskSize
  · rw [if_pos short]
  · simp only [if_neg short] at answered ⊢
    have zero : size = 0 := by
      by_contra positive
      have nonzero : ¬(size = 0 ∨ size < size) := by omega
      exact answered size _ (if_neg nonzero) rfl
    simp [zero]

end BlobStore

namespace T2

variable {content : File → Ack → Prop} {old : List Ack} {asleep : Bool} {t2 after : T2} {ack : Ack}
  {bufLen : Nat}

/-- What a read may answer about a blob that was acknowledged: the blob, or a
miss where the blob is empty or its range of the file was never written. -/
def AnswersFor (lost : Prop) (data : List UInt8) (bufLen : Nat) (reply : ReadReply) : Prop :=
  reply = replyFor data bufLen ∨ (data = [] ∨ lost) ∧ reply = { status := .kNotFound }

theorem read_attempt_old_answers {lost : Prop} {attempt : Nat} {io : T2ReadIo}
    {result : Option ReadReply} (alive : Alive content old asleep t2) (member : ack ∈ old)
    (readable : Readable content lost)
    (succeeds : io.Succeeds) (readOk : io.readOk = true)
    (ran : t2.readAttempt ack.loc bufLen attempt io = some (result, after)) :
    result = some (replyFor ack.data bufLen) ∨
      (ack.data = [] ∨ lost) ∧ result = if attempt = 0 then none else some { status := .kNotFound } := by
  have disk := read_attempt_old alive member succeeds ran
  have still := read_attempt_alive alive succeeds ran
  have settled := still.old ack member
  rw [disk, readOk]
  rcases readable _ _ settled.content with written | ⟨holds, blank⟩
  · have onDisk := settled.on_disk still.named written
    rcases settled.shape with ⟨config, shape⟩
    by_cases empty : ack.data = []
    · exact .inr ⟨.inl empty, onDisk.read_disk_empty shape empty bufLen attempt⟩
    · exact .inl (onDisk.read_disk shape empty bufLen attempt)
  · exact .inr ⟨.inr holds, read_disk_blank_answer blank bufLen attempt true⟩

theorem read_old_reply {lost : Prop} {first second : T2ReadIo} {reply : ReadReply}
    (alive : Alive content old asleep t2) (member : ack ∈ old)
    (readable : Readable content lost)
    (succeeds : first.Succeeds ∧ second.Succeeds)
    (readOk : first.readOk = true ∧ second.readOk = true)
    (ran : t2.read ack.loc bufLen first second = some (reply, after)) :
    AnswersFor lost ack.data bufLen reply := by
  simp only [read] at ran
  split at ran
  · contradiction
  · rename_i tried
    cases ran
    rcases read_attempt_old_answers alive member readable succeeds.1 readOk.1 tried with
      whole | ⟨_, missed⟩
    · exact .inl (Option.some.inj whole)
    · cases missed
  · rename_i middle tried
    have between := read_attempt_alive alive succeeds.1 tried
    split at ran
    · contradiction
    · rename_i again
      cases ran
      rcases read_attempt_old_answers between member readable succeeds.2 readOk.2 again with
        whole | ⟨gone, missed⟩
      · exact .inl (Option.some.inj whole)
      · exact .inr ⟨gone, Option.some.inj missed⟩
    · rename_i again
      rcases read_attempt_old_answers between member readable succeeds.2 readOk.2 again with
        whole | ⟨_, missed⟩
      · cases whole
      · cases missed

end T2

/-! ## What an engine shows -/

abbrev Contents := StorageKey → Option (Held PutRecord)

/-- What may go wrong in a run: writes of the blob store that are refused, and
processes that crash. No process asks for a higher cost than the one here. -/
structure Regime where
  minRecomputeCost : UInt32
  refusals : Prop
  crashes : Prop

/-- Expensive blobs are durable while no write is refused, and only a crash
makes a blob unreadable, for the processes after it. -/
def Regime.policy (regime : Regime) : CachePolicy (Held PutRecord) GetAnswer where
  durable held := ¬regime.refusals ∧ regime.minRecomputeCost ≤ held.value.opts.recomputeCost
  answers
    | none, answer => answer.reply = { status := .kNotFound }
    | some held, answer =>
        T2.AnswersFor (regime.crashes ∧ held.fresh = false) held.value.blob answer.bufLen answer.reply

/-- The entry of a put. `open` drops the T1 entries of a checkpoint. -/
structure Shows (entry : IndexEntry) (held : Held PutRecord) : Prop where
  describes : Describes entry held.value
  settled : held.settled = decide (entry.tier ≠ kT1Dram)

def Promised (contents : Contents) (key : StorageKey) (blob : List UInt8) : Prop :=
  ∃ held, contents key = some held ∧ held.value.blob = blob

/-- A blob that was stored in this process is in a slot or in the present ledger. -/
def Present (contents : Contents) (e : Engine) (key : StorageKey) (entry : IndexEntry) : Prop :=
  ∀ held, contents key = some held → held.fresh = true →
    Stands e.memory e.acked entry held.value.blob

/-- The index has the keys of the map, and the blobs are where the entries say. -/
structure Mirrors (content : File → Ack → Prop) (old : List Ack) (contents : Contents) (e : Engine) :
    Prop where
  safe : SafeInv content old (Promised contents) e
  present : Indexed (Present contents e) e.index
  shown : Related Shows e.index.find contents

namespace ConcurrentHashMap

variable (index : ConcurrentHashMap) (key : StorageKey) (entry : IndexEntry)

theorem find_upsert_update :
    (index.upsert key entry).find = Function.update index.find key (some entry) := by
  funext other
  rw [find_upsert, Function.update_apply]

theorem find_erase_update : (index.erase key).find = Function.update index.find key none := by
  funext other
  rw [find_erase, Function.update_apply]

theorem find_update_fn_update (change : IndexEntry → IndexEntry) : (index.updateFn key change).find =
    Function.update index.find key ((index.find key).map change) := by
  funext other
  rw [find_update_fn, Function.update_apply]

end ConcurrentHashMap

section Shown

variable {content : File → Ack → Prop} {old : List Ack} {contents : Contents} {e : Engine}
  {key : StorageKey}

theorem Mirrors.shown_some (mirrors : Mirrors content old contents e) {entry : IndexEntry}
    (found : e.index.find key = some entry) :
    ∃ held, contents key = some held ∧ Shows entry held := by
  rcases mirrors.shown key with ⟨absent, _⟩ | ⟨known, held, isKnown, isHeld, shows⟩
  · rw [found] at absent
    contradiction
  · rw [found] at isKnown
    cases isKnown
    exact ⟨held, isHeld, shows⟩

theorem Mirrors.shown_none (mirrors : Mirrors content old contents e)
    (absent : e.index.find key = none) : contents key = none := by
  rcases mirrors.shown key with ⟨_, missing⟩ | ⟨known, _, isKnown, _⟩
  · exact missing
  · rw [absent] at isKnown
    contradiction

end Shown

namespace Engine

variable {content : File → Ack → Prop} {old : List Ack} {regime : Regime} {contents : Contents}
  {e after : Engine} {key : StorageKey}

/-- Only what is said of the keys of the index matters. -/
theorem safe_narrow {issued more : StorageKey → List UInt8 → Prop}
    (inv : SafeInv content old issued e)
    (kept : ∀ key entry blob, e.index.find key = some entry → issued key blob → more key blob) :
    SafeInv content old more e where
  t1 := inv.t1
  t2 := inv.t2
  held := inv.held.imp fun key entry found ⟨blob, put, stands⟩ =>
    ⟨blob, kept key entry blob found put, stands⟩

theorem promised_other {held : Option (Held PutRecord)} {other : StorageKey} {blob : List UInt8}
    (different : other ≠ key) (promised : Promised contents other blob) :
    Promised (Function.update contents key held) other blob := by
  rcases promised with ⟨there, isThere, same⟩
  exact ⟨there, (Function.update_of_ne different _ _).trans isThere, same⟩

theorem shown_touch (shown : Related Shows e.index.find contents) (key : StorageKey) (now : Nat) :
    Related Shows (e.index.updateFn key (·.touch now)).find contents := by
  rw [ConcurrentHashMap.find_update_fn_update]
  refine shown.change key fun entry held shows => ⟨?_, shows.settled⟩
  exact
    { length := shows.describes.length
      checksum := shows.describes.checksum
      recomputeCost := shows.describes.recomputeCost }

theorem present_acked_later (later : Later e after) : ∀ ack ∈ e.acked, ack ∈ after.acked := by
  intro ack member
  have kept : ack ∈ after.acked ++ [] := acked_later later ack (List.mem_append_left [] member)
  rwa [List.append_nil] at kept

/-- The entries that a call leaves alone stay where they are. -/
theorem present_later (mirrors : Mirrors content old contents e) (later : Later e after)
    (memory : after.memory = e.memory) : Indexed (Present contents after) e.index :=
  mirrors.present.imp fun key entry _ present held isHeld fresh => by
    rw [memory]
    exact (present held isHeld fresh).grow (present_acked_later later)

/-- A change of the map at one key is not seen at the others. -/
theorem present_other {held : Option (Held PutRecord)} {other : StorageKey} {entry : IndexEntry}
    (different : other ≠ key) (present : Present contents e other entry) :
    Present (Function.update contents key held) e other entry := by
  intro there isThere
  rw [Function.update_of_ne different] at isThere
  exact present there isThere

theorem present_erase {index : ConcurrentHashMap} (present : Indexed (Present contents e) index)
    (key : StorageKey) : Indexed (Present (Function.update contents key none) e) (index.erase key) := by
  intro other entry found
  rw [ConcurrentHashMap.find_erase] at found
  split_ifs at found with same
  exact present_other same (present other entry found)

theorem present_upsert {index : ConcurrentHashMap} {entry : IndexEntry} {held : Held PutRecord}
    (present : Indexed (Present contents e) index)
    (stands : held.fresh = true → Stands e.memory e.acked entry held.value.blob) :
    Indexed (Present (Function.update contents key (some held)) e) (index.upsert key entry) := by
  intro other known found
  rw [ConcurrentHashMap.find_upsert] at found
  split_ifs at found with same
  · subst same
    cases found
    intro there isThere fresh
    rw [Function.update_self] at isThere
    cases isThere
    exact stands fresh
  · exact present_other same (present other known found)

theorem present_touch {index : ConcurrentHashMap} (present : Indexed (Present contents e) index)
    (key : StorageKey) (now : Nat) :
    Indexed (Present contents e) (index.updateFn key (·.touch now)) :=
  present.touch (fun _ _ now before held isHeld fresh => (before held isHeld fresh).touch now) key now

/-! ## The calls -/

/-- The victims are those that are not settled. -/
theorem mirrors_in_slot (mirrors : Mirrors content old contents e) {entry : IndexEntry}
    (found : e.index.find key = some entry) (inT1 : entry.tier = kT1Dram) :
    ∃ held, contents key = some held ∧ held.settled = false ∧ Describes entry held.value := by
  rcases mirrors.shown_some found with ⟨held, isHeld, shows⟩
  have unsettled : held.settled = false := by simpa [inT1] using shows.settled
  exact ⟨held, isHeld, unsettled, shows.describes⟩

/-- A key that is erased is erased from the map. -/
theorem mirrors_erased (mirrors : Mirrors content old contents e)
    (safe : SafeInv content old (Promised contents) after) (later : Later e after)
    (index : after.index = e.index.erase key) (memory : after.memory = e.memory) :
    Mirrors content old (Function.update contents key none) after := by
  refine { safe := safe_narrow safe ?_, present := ?_, shown := ?_ }
  · intro other entry blob found promised
    rw [index, ConcurrentHashMap.find_erase] at found
    split_ifs at found with same
    exact promised_other same promised
  · rw [index]
    exact present_erase (present_later mirrors later memory) key
  · rw [index, ConcurrentHashMap.find_erase_update]
    exact mirrors.shown.erase key

/-- A victim that the blob store took keeps its blob. -/
theorem mirrors_demoted {t2 t2After : T2} {io : EvictIo} {entry : IndexEntry} {loc : BlobLocation}
    {held : Held PutRecord} (mirrors : Mirrors content old contents e)
    (safe : SafeInv content old (Promised contents) after) (later : Later e after)
    (index : after.index = e.index.upsert key (demotedEntry entry loc))
    (memory : after.memory = e.memory) (isAfter : after.t2Store = some t2After)
    (succeeds : io.t2.Succeeds) (buffered : T2.Buffered t2After)
    (found : e.index.find key = some entry) (inT1 : entry.tier = kT1Dram)
    (isHeld : contents key = some held) (describes : Describes entry held.value)
    (isStore : e.t2Store = some t2)
    (ran : t2.write (e.victimRequest key entry) io.t2 = some ((.kOk, loc), t2After)) :
    Mirrors content old (Function.update contents key (some { held with settled := true })) after := by
  refine { safe := safe_narrow safe ?_, present := ?_, shown := ?_ }
  · intro other left blob _ promised
    by_cases same : other = key
    · subst same
      rcases promised with ⟨there, isThere, data⟩
      rw [isHeld] at isThere
      cases isThere
      exact ⟨_, Function.update_self _ _ _, data⟩
    · exact promised_other same promised
  · rw [index]
    refine present_upsert (present_later mirrors later memory) fun fresh => .inFile ?_
    have alive := T2.write_alive (mirrors.safe.t2 t2 isStore) succeeds ran buffered
    have copied : Recorded t2After.acked (demotedEntry entry loc)
        (slice e.memory entry.address.toNat entry.length.toNat) :=
      Recorded.written (T2.write_written ran).1 alive.valid buffered (by simp [victimRequest])
    rw [(mirrors.present key entry found held isHeld fresh).in_slot inT1] at copied
    rw [acked_of_store isAfter]
    exact copied
  · have moved : Shows (demotedEntry entry loc) { held with settled := true } :=
      { describes :=
          { length := describes.length
            checksum := describes.checksum
            recomputeCost := describes.recomputeCost }
        settled := rfl }
    rw [index, ConcurrentHashMap.find_upsert_update]
    exact mirrors.shown.update moved

/-- A round of the eviction moves its victim down or drops it. -/
theorem mirrors_evict_round {io : EvictIo} (mirrors : Mirrors content old contents e)
    (succeeds : io.t2.Succeeds) (bound : AllBuffered after) (enabled : e.t2Store ≠ none)
    (cost : e.config.admission.minRecomputeCost ≤ regime.minRecomputeCost)
    (accepted : ¬regime.refusals → NoneRefused after) (round : EvictRound e io after) :
    ∃ left, Settles regime.policy contents left ∧ Mirrors content old left after := by
  have safe := evict_round_safe succeeds bound mirrors.safe round
  have later := evict_round_later round
  cases round with
  | skipped =>
      have present : Indexed (Present contents _) e.index := present_later mirrors later rfl
      exact ⟨contents, .refl _ _, safe, present, mirrors.shown⟩
  | dropped t1Eviction victim entry found inT1 cold =>
      rcases mirrors_in_slot mirrors found inT1 with ⟨held, isHeld, unsettled, describes⟩
      refine ⟨_, .lost isHeld unsettled ?_, mirrors_erased mirrors safe later rfl rfl⟩
      rintro ⟨_, expensive⟩
      rcases cold with disabled | cheap
      · exact enabled disabled
      · rw [describes.recomputeCost] at cheap
        exact absurd cheap (UInt32.not_lt.2 (UInt32.le_trans cost expensive))
  | refused t1Eviction victim entry found inT1 t2 t2After status loc isStore ran bad =>
      rcases mirrors_in_slot mirrors found inT1 with ⟨held, isHeld, unsettled, _⟩
      refine ⟨_, .lost isHeld unsettled ?_, mirrors_erased mirrors safe later rfl rfl⟩
      rintro ⟨noRefusals, _⟩
      rcases accepted noRefusals with ⟨_, ⟨⟩, none⟩
      exact bad (not_refused ran none)
  | demoted t1Eviction t2Eviction victim entry found inT1 t2 t2After loc isStore ran =>
      rcases mirrors_in_slot mirrors found inT1 with ⟨held, isHeld, unsettled, describes⟩
      exact ⟨_, .moved isHeld unsettled, mirrors_demoted mirrors safe later rfl rfl rfl succeeds
        (bound t2After rfl) found inT1 isHeld describes isStore ran⟩

theorem put_upsert_stored {blob : List UInt8} {opts : PutOpts} {io : PutIo}
    (ran : e.putUpsert key blob opts io = some (.kOk, after)) : Stored e key blob opts io after := by
  unfold putUpsert at ran
  dsimp only at ran
  split_ifs at ran with denied long
  · cases ran
  · cases ran
  · have accepted : Accepted e blob opts := ⟨not_not.1 denied, by omega⟩
    split at ran
    · rename_i handle ptr allocator allocation
      cases ran
      rw [allocateT1, Option.bind_eq_some_iff] at allocation
      rcases allocation with ⟨a, isAllocator, allocated⟩
      exact .inT1 _ a allocator handle ptr accepted isAllocator allocated
    · rename_i full
      split at ran
      · cases ran
      · rename_i t2 isStore
        split at ran
        · contradiction
        · rename_i status loc t2After written
          split_ifs at ran with ok
          · subst ok
            cases ran
            exact .inT2 _ t2 t2After loc accepted full isStore written
          · cases ran
            contradiction

/-- The entry of a blob that was just stored, and the others. -/
theorem stored_entry {blob : List UInt8} {opts : PutOpts} {io : PutIo}
    (mirrors : Mirrors content old contents e) (succeeds : io.t2.Succeeds) (bound : AllBuffered after)
    (stored : Stored e key blob opts io after) :
    Indexed (Present contents after) e.index ∧
      ∃ entry, after.index = e.index.upsert key entry ∧ Describes entry { blob, opts } ∧
        Stands after.memory after.acked entry blob := by
  cases stored with
  | inT1 admission a allocator handle ptr accepted isAllocator allocated =>
      have start : T1Inv e.index (some a) := isAllocator ▸ mirrors.safe.t1
      have layout := start.layout a rfl
      have spec := SlabAllocator.allocate_spec layout (start.frees a rfl) allocated
      rcases spec.slot with ⟨slotSize, isSlot, _⟩
      have address : (t1Entry blob opts io ptr).address.toNat = ptr := slot_address_to_nat layout isSlot
      refine ⟨?_, _, rfl, t1_entry_describes blob opts io ptr, ?_⟩
      · exact mirrors.present.imp fun other entry found present held isHeld fresh =>
          (present held isHeld fresh).patch start spec found
      · refine .inSlot rfl (blob_length_to_nat accepted.2) ?_
        rw [address]
        exact slice_patch_same e.memory ptr blob
  | inT2 admission t2 t2After loc accepted full isStore ran =>
      have alive := T2.write_alive (mirrors.safe.t2 t2 isStore) succeeds ran (bound t2After rfl)
      have recorded : Recorded t2After.acked (t2Entry blob opts io loc) blob :=
        Recorded.written (T2.write_written ran).1 alive.valid (bound t2After rfl)
          (blob_length_to_nat accepted.2)
      refine ⟨present_later mirrors ?_ rfl, _, rfl, t2_entry_describes blob opts io loc,
        .inFile recorded⟩
      exact later_new_store rfl rfl isStore rfl (T2.write_written ran).1.later

theorem mirrors_put {blob : List UInt8} {opts : PutOpts} {io : PutIo} {status : Status}
    (mirrors : Mirrors content old contents e) (succeeds : io.t2.Succeeds) (bound : AllBuffered after)
    (ran : e.putUpsert key blob opts io = some (status, after)) :
    status ≠ .kOk ∧ Mirrors content old contents after ∨
      status = .kOk ∧ ∃ settled, Mirrors content old
        (Function.update contents key (some { value := { blob, opts }, settled })) after := by
  -- the put is cut before its evictions, so nothing is asked of them
  have cases : PutCases e key blob opts { io with evictions := fun _ => {} } status after :=
    put_upsert_cases ran
  have quiet : PutSucceeds { io with evictions := fun _ => {} } :=
    ⟨succeeds, fun _ => quiet_write_succeeds⟩
  by_cases ok : status = .kOk
  · subst ok
    right
    have others : SafeInv content old (fun other blob => other ≠ key → Promised contents other blob)
        after :=
      put_safe quiet bound mirrors.safe (fun _ _ promised _ => promised)
        (fun _ different => absurd rfl different) cases
    rcases stored_entry mirrors succeeds bound (put_upsert_stored ran) with
      ⟨present, entry, placed, describes, stands⟩
    refine ⟨rfl, decide (entry.tier ≠ kT1Dram), ⟨others.t1, others.t2, ?_⟩, ?_, ?_⟩
    · intro other found look
      by_cases same : other = key
      · subst same
        rw [placed, ConcurrentHashMap.find_upsert_self] at look
        cases look
        exact ⟨blob, ⟨_, Function.update_self _ _ _, rfl⟩,
          stands.grow fun ack member => List.mem_append_left _ member⟩
      · rcases others.held other found look with ⟨old, promised, standing⟩
        exact ⟨old, promised_other same (promised same), standing⟩
    · rw [placed]
      exact present_upsert present fun _ => stands
    · rw [placed, ConcurrentHashMap.find_upsert_update]
      exact mirrors.shown.update { describes, settled := rfl }
  · left
    refine ⟨ok, ?_, ?_, ?_⟩
    · exact put_safe quiet bound mirrors.safe (fun _ _ promised => promised)
        (fun stored => absurd stored ok) cases
    · rw [put_upsert_index ran ok]
      refine present_later mirrors (put_later cases) ?_
      cases cases with
      | rejected | refused => rfl
      | storedT1 | storedT2 => exact absurd rfl ok
    · rw [put_upsert_index ran ok]
      exact mirrors.shown

theorem mirrors_get {bufLen : Nat} {io : GetIo} {reply : ReadReply}
    (mirrors : Mirrors content old contents e) (succeeds : io.first.Succeeds ∧ io.second.Succeeds)
    (cases : GetCases e key bufLen io reply after) : Mirrors content old contents after := by
  have safe := get_keeps succeeds mirrors.safe cases
  have later := get_later cases
  have touched := shown_touch mirrors.shown key io.touchedAt
  cases cases with
  | missed => exact mirrors
  | fromT1 | fromT2 | nowhere =>
      exact ⟨safe, present_touch (present_later mirrors later rfl) key io.touchedAt, touched⟩

theorem mirrors_answer {bufLen : Nat} {io : GetIo} {reply : ReadReply}
    (mirrors : Mirrors content old contents e)
    (readable : Readable content regime.crashes)
    (succeeds : io.first.Succeeds ∧ io.second.Succeeds)
    (readOk : io.first.readOk = true ∧ io.second.readOk = true) (enabled : e.t2Store ≠ none)
    (got : e.get key bufLen io = some (reply, after)) :
    regime.policy.answers (contents key) { bufLen, reply } := by
  cases found : e.index.find key with
  | none =>
      rw [mirrors.shown_none found]
      unfold get at got
      rw [found] at got
      cases got
      rfl
  | some entry =>
      rcases mirrors.safe.held key entry found with ⟨blob, ⟨held, isHeld, rfl⟩, stands⟩
      rw [isHeld]
      cases stands with
      | inSlot inT1 length bytes =>
          rcases mirrors.safe.t1.valid key entry found inT1 with ⟨a, isAllocator, _⟩
          have here : entry.tier = kT1Dram ∧ e.t1Allocator.isSome = true :=
            ⟨inT1, by rw [isAllocator]; rfl⟩
          left
          change reply = replyFor held.value.blob bufLen
          unfold get at got
          rw [found] at got
          dsimp only at got
          rw [if_pos here] at got
          unfold replyFor
          split at got
          · rename_i short
            cases got
            rw [if_pos (by omega)]
          · rename_i fits
            cases got
            rw [if_neg (by omega), length, bytes]
      | inFile recorded =>
          rcases Option.ne_none_iff_exists'.1 enabled with ⟨t2, isStore⟩
          rcases get_t2 found recorded.inT2 isStore got with ⟨t2After, ran⟩
          have alive := mirrors.safe.t2 t2 isStore
          -- a blob of the present ledger is found in its block or in its file
          have fromPresent : ∀ ack ∈ t2.acked, ack.loc = entryLocation entry →
              ack.data = held.value.blob → regime.policy.answers (some held) { bufLen, reply } := by
            intro ack member location data
            rw [← location] at ran
            have answered := T2.read_answers alive.valid succeeds.1 succeeds.2 readOk.1 readOk.2 member
              ran
            rw [data] at answered
            split at answered
            · exact .inl answered
            · rename_i gone
              push Not at gone
              exact .inr ⟨.inl gone.1, answered⟩
          have notInT1 : entry.tier ≠ kT1Dram := by
            rw [recorded.inT2]
            decide
          by_cases fresh : held.fresh = true
          · have present := mirrors.present key entry found held isHeld fresh
            rcases (present.recorded notInT1).acked with ⟨ack, member, location, data⟩
            rw [acked_of_store isStore] at member
            exact fromPresent ack member location data
          · rcases recorded.acked with ⟨ack, member, location, data⟩
            rw [acked_of_store isStore] at member
            rcases List.mem_append.1 member with present | earlier
            · exact fromPresent ack present location data
            · rw [← location] at ran
              change T2.AnswersFor (regime.crashes ∧ held.fresh = false) held.value.blob bufLen reply
              rw [← data]
              refine T2.read_old_reply alive earlier ?_ succeeds readOk ran
              intro file ack holds
              rcases readable file ack holds with written | ⟨crashes, blank⟩
              · exact .inl written
              · exact .inr ⟨⟨crashes, by simpa using fresh⟩, blank⟩

theorem mirrors_del {status : Status} (mirrors : Mirrors content old contents e)
    (cases : DelCases e key status after) :
    status = .kNotFound ∧ contents key = none ∧ Mirrors content old contents after ∨
      status = .kOk ∧ contents key ≠ none ∧
        Mirrors content old (Function.update contents key none) after := by
  rcases del_keys cases with ⟨rfl, absent, rfl⟩ | ⟨rfl, present, erased⟩
  · exact .inl ⟨rfl, mirrors.shown_none absent, mirrors⟩
  · rcases Option.ne_none_iff_exists'.1 present with ⟨entry, found⟩
    rcases mirrors.shown_some found with ⟨held, isHeld, _⟩
    have memory : after.memory = e.memory := by cases cases <;> rfl
    exact .inr ⟨rfl, by rw [isHeld]; exact Option.some_ne_none _,
      mirrors_erased mirrors (del_keeps mirrors.safe cases) (del_later cases) erased memory⟩

theorem mirrors_flush {t2 t2After : T2} {steps : List FlushStep}
    (mirrors : Mirrors content old contents e) (isStore : e.t2Store = some t2)
    (succeeds : FlushSucceeds steps) (ran : t2.flushRun steps = some t2After) :
    Mirrors content old contents { e with t2Store := some t2After } := by
  have later : Later e { e with t2Store := some t2After } :=
    later_new_store rfl rfl isStore rfl (T2.flush_run_later ran)
  have present := present_later mirrors later rfl
  exact ⟨flush_keeps mirrors.safe isStore succeeds ran, present, mirrors.shown⟩

end Engine

end AttentionDB
