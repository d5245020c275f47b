import AttentionDB.Engine.Coherence
import AttentionDB.Engine.Lives

/-!
# Entries that outlive a process

An index entry stands for a blob that was once put under its key: in T1 its
slot has the bytes, in T2 the blob store acknowledged the blob under the
location that `get` rebuilds, in this life of the store or in an earlier one.
Every call keeps this, whatever the index was loaded from.
-/

namespace AttentionDB

open ByteMap BlobStore SlabAllocator

set_option autoImplicit false

/-! ## A property of every entry -/

def Indexed (holds : StorageKey → IndexEntry → Prop) (index : ConcurrentHashMap) : Prop :=
  ∀ key entry, index.find key = some entry → holds key entry

section Index

variable {holds weaker : StorageKey → IndexEntry → Prop} {index : ConcurrentHashMap}

theorem Indexed.imp (indexed : Indexed holds index)
    (implied : ∀ key entry, index.find key = some entry → holds key entry → weaker key entry) :
    Indexed weaker index :=
  fun key entry found => implied key entry found (indexed key entry found)

theorem Indexed.erase (indexed : Indexed holds index) (key : StorageKey) :
    Indexed holds (index.erase key) := by
  intro other entry found
  rw [ConcurrentHashMap.find_erase] at found
  split_ifs at found
  exact indexed other entry found

theorem Indexed.upsert (indexed : Indexed holds index) {key : StorageKey} {entry : IndexEntry}
    (new : holds key entry) : Indexed holds (index.upsert key entry) := by
  intro other found look
  rw [ConcurrentHashMap.find_upsert] at look
  split_ifs at look with same
  · cases look
    exact same ▸ new
  · exact indexed other found look

theorem Indexed.touch (indexed : Indexed holds index)
    (touched : ∀ key entry now, holds key entry → holds key (entry.touch now)) (key : StorageKey)
    (now : Nat) : Indexed holds (index.updateFn key (·.touch now)) := by
  intro other found look
  rw [ConcurrentHashMap.find_update_fn] at look
  split_ifs at look with same
  · rw [Option.map_eq_some_iff] at look
    rcases look with ⟨old, isOld, rfl⟩
    exact touched other old now (same ▸ indexed key old isOld)
  · exact indexed other found look

end Index

/-! ## What an entry stands for -/

/-- The ledger has the blob under the location that `get` rebuilds. -/
structure Recorded (ledger : List Ack) (entry : IndexEntry) (blob : List UInt8) : Prop where
  inT2 : entry.tier = kT2Nvme
  length : entry.length.toNat = blob.length
  acked : ∃ ack ∈ ledger, ack.loc = Engine.entryLocation entry ∧ ack.data = blob

inductive Stands (memory : Image) (ledger : List Ack) (entry : IndexEntry) (blob : List UInt8) :
    Prop where
  | inSlot (inT1 : entry.tier = kT1Dram) (length : entry.length.toNat = blob.length)
      (bytes : slice memory entry.address.toNat blob.length = blob)
  | inFile (recorded : Recorded ledger entry blob)

def Engine.acked (e : Engine) : List Ack :=
  match e.t2Store with
  | none => []
  | some t2 => t2.acked

structure SafeInv (content : File → Ack → Prop) (old : List Ack)
    (issued : StorageKey → List UInt8 → Prop) (e : Engine) : Prop where
  t1 : e.T1Sound
  t2 : ∀ t2, e.t2Store = some t2 → t2.Alive content old false
  held : Indexed (fun key entry => ∃ blob, issued key blob ∧
    Stands e.memory (e.acked ++ old) entry blob) e.index

section Entries

variable {memory : Image} {ledger wider : List Ack} {entry : IndexEntry} {blob : List UInt8}

theorem Recorded.grow (recorded : Recorded ledger entry blob) (grown : ∀ ack ∈ ledger, ack ∈ wider) :
    Recorded wider entry blob := by
  rcases recorded.acked with ⟨ack, member, location, data⟩
  exact ⟨recorded.inT2, recorded.length, ack, grown ack member, location, data⟩

theorem Stands.grow (stands : Stands memory ledger entry blob) (grown : ∀ ack ∈ ledger, ack ∈ wider) :
    Stands memory wider entry blob := by
  cases stands with
  | inSlot inT1 length bytes => exact .inSlot inT1 length bytes
  | inFile recorded => exact .inFile (recorded.grow grown)

theorem Stands.touch (stands : Stands memory ledger entry blob) (now : Nat) :
    Stands memory ledger (entry.touch now) blob := by
  cases stands with
  | inSlot inT1 length bytes => exact .inSlot inT1 length bytes
  | inFile recorded => exact .inFile ⟨recorded.inT2, recorded.length, recorded.acked⟩

/-- An entry outside T1 is in the ledger. -/
theorem Stands.recorded (stands : Stands memory ledger entry blob) (notInT1 : entry.tier ≠ kT1Dram) :
    Recorded ledger entry blob := by
  cases stands with
  | inSlot inT1 => exact absurd inT1 notInT1
  | inFile recorded => exact recorded

theorem Stands.in_slot (stands : Stands memory ledger entry blob) (inT1 : entry.tier = kT1Dram) :
    slice memory entry.address.toNat entry.length.toNat = blob := by
  cases stands with
  | inSlot _ length bytes =>
      rw [length]
      exact bytes
  | inFile recorded =>
      have inT2 := recorded.inT2
      rw [inT1] at inT2
      contradiction

/-- A put writes into a slot that was free, and no entry has its bytes there. -/
theorem Stands.patch {index : ConcurrentHashMap} {key : StorageKey} {a allocator : SlabAllocator}
    {ptr : Nat} {old : List UInt8} (inv : T1Inv index (some a))
    (allocated : Allocated a blob.length ptr allocator) (found : index.find key = some entry)
    (stands : Stands memory ledger entry old) :
    Stands (ByteMap.patch memory ptr blob) ledger entry old := by
  cases stands with
  | inFile recorded => exact .inFile recorded
  | inSlot inT1 length bytes =>
      -- the slots are where they are whichever blob store is below
      have holds : Holds memory none entry old := .inSlot inT1 length bytes
      cases holds.patch inv allocated found with
      | inSlot inT1 length bytes => exact .inSlot inT1 length bytes
      | inStore _ _ t2 isStore => cases isStore

/-- A blob that a write just acknowledged. -/
theorem Recorded.written {t2 t2After : T2} {request : WriteRequest} {loc : BlobLocation}
    (written : T2.Written t2 request .kOk loc t2After) (sound : t2After.Sound)
    (buffered : T2.Buffered t2After) (length : entry.length.toNat = request.data.length) :
    Recorded t2After.acked
      { entry with
        tier := kT2Nvme
        address := UInt64.ofNat loc.offset
        segmentId := UInt32.ofNat loc.segmentId } request.data := by
  rcases written.stored rfl with ⟨ack, member, rfl, data⟩
  exact ⟨rfl, length, ack, member,
    entry_location_of_ack sound buffered member (by rw [data]; exact length), data⟩

end Entries

/-! ## The calls -/

namespace Engine

variable {content : File → Ack → Prop} {old : List Ack} {e after : Engine}
  {issued more : StorageKey → List UInt8 → Prop}

theorem acked_of_store {t2 : T2} (isStore : e.t2Store = some t2) : e.acked = t2.acked := by
  rw [acked, isStore]

theorem acked_later (later : Later e after) : ∀ ack ∈ e.acked ++ old, ack ∈ after.acked ++ old := by
  intro ack member
  rcases List.mem_append.1 member with present | earlier
  · cases isStore : e.t2Store with
    | none =>
        rw [acked, isStore] at present
        cases present
    | some t2 =>
        have enabled := later.t2Enabled
        rw [isStore] at enabled
        rcases Option.isSome_iff_exists.1 enabled with ⟨t2After, isAfter⟩
        rcases later.t2 t2After isAfter with ⟨same, isSame, moved⟩
        rw [isStore] at isSame
        cases isSame
        rw [acked_of_store isStore] at present
        rw [acked_of_store isAfter]
        exact List.mem_append_left _ (moved.acked ack present)
  · exact List.mem_append_right _ earlier

/-- The entries that a call leaves alone stand for what they stood for. -/
theorem held_later (inv : SafeInv content old issued e) (later : Later e after)
    (memory : after.memory = e.memory) :
    Indexed (fun key entry => ∃ blob, issued key blob ∧
      Stands after.memory (after.acked ++ old) entry blob) e.index := by
  intro key entry found
  rcases inv.held key entry found with ⟨blob, put, stands⟩
  rw [memory]
  exact ⟨blob, put, stands.grow (acked_later later)⟩

theorem held_touch {ledger : List Ack} {memory : Image} {index : ConcurrentHashMap}
    (held : Indexed (fun key entry => ∃ blob, issued key blob ∧ Stands memory ledger entry blob) index)
    (key : StorageKey) (now : Nat) :
    Indexed (fun key entry => ∃ blob, issued key blob ∧ Stands memory ledger entry blob)
      (index.updateFn key (·.touch now)) :=
  held.touch (fun _ _ now ⟨blob, put, stands⟩ => ⟨blob, put, stands.touch now⟩) key now

theorem safe_more (inv : SafeInv content old issued e)
    (grown : ∀ key blob, issued key blob → more key blob) : SafeInv content old more e where
  t1 := inv.t1
  t2 := inv.t2
  held := inv.held.imp fun key _ _ ⟨blob, put, stands⟩ => ⟨blob, grown key blob put, stands⟩

theorem evict_round_safe {io : EvictIo} (succeeds : io.t2.Succeeds) (bound : AllBuffered after)
    (inv : SafeInv content old issued e) (round : EvictRound e io after) :
    SafeInv content old issued after := by
  have t1 := evict_round_t1 inv.t1 round
  have later := evict_round_later round
  cases round with
  | skipped => exact { t1, t2 := inv.t2, held := inv.held }
  | dropped t1Eviction victim entry found inT1 cold =>
      exact { t1, t2 := inv.t2, held := inv.held.erase victim }
  | refused t1Eviction victim entry found inT1 t2 t2After status loc isStore ran bad =>
      refine { t1, t2 := ?_, held := ?_ }
      · intro store isAfter
        cases isAfter
        exact T2.write_alive (inv.t2 t2 isStore) succeeds ran (bound t2After rfl)
      · exact (held_later inv later rfl).erase victim
  | demoted t1Eviction t2Eviction victim entry found inT1 t2 t2After loc isStore ran =>
      have alive := T2.write_alive (inv.t2 t2 isStore) succeeds ran (bound t2After rfl)
      refine { t1, t2 := ?_, held := ?_ }
      · intro store isAfter
        cases isAfter
        exact alive
      · rcases inv.held victim entry found with ⟨blob, put, stands⟩
        have copied : Recorded t2After.acked (demotedEntry entry loc)
            (slice e.memory entry.address.toNat entry.length.toNat) :=
          Recorded.written (T2.write_written ran).1 alive.valid (bound t2After rfl) (by simp)
        rw [stands.in_slot inT1] at copied
        apply (held_later inv later rfl).upsert
        exact ⟨blob, put, .inFile (copied.grow fun ack member => List.mem_append_left _ member)⟩

theorem evict_run_safe {io : Nat → EvictIo} (succeeds : ∀ i, (io i).t2.Succeeds)
    (bound : AllBuffered after) (run : EvictRun io e after) (inv : SafeInv content old issued e) :
    SafeInv content old issued after :=
  run.keeps_under AllBuffered (SafeInv content old issued)
    (fun _ _ later bound => all_buffered_earlier later bound)
    (fun _ i _ bound inv round => evict_round_safe (succeeds i) bound inv round) bound inv

theorem put_safe {key : StorageKey} {blob : List UInt8} {opts : PutOpts} {io : PutIo}
    {status : Status} (succeeds : PutSucceeds io) (bound : AllBuffered after)
    (inv : SafeInv content old issued e) (grown : ∀ key blob, issued key blob → more key blob)
    (put : status = .kOk → more key blob) (cases : PutCases e key blob opts io status after) :
    SafeInv content old more after := by
  have inv := safe_more inv grown
  cases cases with
  | rejected status admission bad => exact { t1 := inv.t1, t2 := inv.t2, held := inv.held }
  | refused status admission t2 t2After loc isStore ran bad =>
      have later : Later e { e with admission, t2Store := some t2After } :=
        later_new_store rfl rfl isStore rfl (T2.write_written ran).1.later
      have held := held_later inv later rfl
      refine { t1 := inv.t1, t2 := ?_, held }
      intro store isAfter
      cases isAfter
      exact T2.write_alive (inv.t2 t2 isStore) succeeds.1 ran (bound t2After rfl)
  | storedT1 admission t1Eviction a allocator handle ptr accepted isAllocator allocated run =>
      apply evict_run_safe succeeds.2 bound run
      have start : T1Inv e.index (some a) := isAllocator ▸ inv.t1
      have layout := start.layout a rfl
      have spec := allocate_spec layout (start.frees a rfl) allocated
      rcases spec.slot with ⟨slotSize, isSlot, _⟩
      have address := slot_address_to_nat layout isSlot
      have length := blob_length_to_nat accepted.2
      refine
        { t1 := start.publish spec key address (Nat.le_of_eq length)
          t2 := inv.t2
          held := ?_ }
      apply Indexed.upsert
      · exact inv.held.imp fun other was found ⟨before, earlier, stands⟩ =>
          ⟨before, earlier, stands.patch start spec found⟩
      · refine ⟨blob, put rfl, .inSlot rfl length ?_⟩
        have here : (t1Entry blob opts io ptr).address.toNat = ptr := address
        rw [here]
        exact slice_patch_same e.memory ptr blob
  | storedT2 admission t2Eviction t2 t2After loc accepted full isStore ran run =>
      apply evict_run_safe succeeds.2 bound run
      have boundHere := all_buffered_earlier (evict_run_later run) bound t2After rfl
      have alive := T2.write_alive (inv.t2 t2 isStore) succeeds.1 ran boundHere
      have notInT1 : (t2Entry blob opts io loc).tier ≠ kT1Dram := by
        intro same
        cases same
      have later : Later e { e with admission, t2Eviction, t2Store := some t2After } :=
        later_new_store rfl rfl isStore rfl (T2.write_written ran).1.later
      refine { t1 := inv.t1.shrink (t1_subset_upsert _ notInT1), t2 := ?_, held := ?_ }
      · intro store isAfter
        cases isAfter
        exact alive
      · have recorded : Recorded t2After.acked (t2Entry blob opts io loc) blob :=
          Recorded.written (T2.write_written ran).1 alive.valid boundHere
            (blob_length_to_nat accepted.2)
        have before := held_later inv later rfl
        exact before.upsert ⟨blob, put rfl,
          .inFile (recorded.grow fun ack member => List.mem_append_left _ member)⟩

theorem get_keeps {key : StorageKey} {bufLen : Nat} {io : GetIo} {reply : ReadReply}
    (succeeds : io.first.Succeeds ∧ io.second.Succeeds) (inv : SafeInv content old issued e)
    (cases : GetCases e key bufLen io reply after) : SafeInv content old issued after := by
  have t1 := get_t1 inv.t1 cases
  have later := get_later cases
  cases cases with
  | missed => exact inv
  | nowhere | fromT1 => exact { t1, t2 := inv.t2, held := held_touch inv.held key io.touchedAt }
  | fromT2 reply entry t2Eviction t2 t2After found inT2 isStore ran =>
      refine { t1, t2 := ?_, held := held_touch (held_later inv later rfl) key io.touchedAt }
      intro store isAfter
      cases isAfter
      exact T2.read_alive (inv.t2 t2 isStore) succeeds.1 succeeds.2 ran

/-- A get that returns `kOk` has the bytes of a put of its key. -/
theorem get_issued {key : StorageKey} {bufLen : Nat} {io : GetIo} {reply : ReadReply}
    (succeeds : io.first.Succeeds ∧ io.second.Succeeds) (inv : SafeInv WrittenOrBlank old issued e)
    (cases : GetCases e key bufLen io reply after) (ok : reply.status = .kOk) :
    issued key reply.bytes := by
  cases cases with
  | missed reply bad | nowhere reply bad => exact absurd ok bad
  | fromT1 entry t1Eviction found inT1 =>
      rcases inv.held key entry found with ⟨blob, put, stands⟩
      rw [stands.in_slot inT1]
      exact put
  | fromT2 reply entry t2Eviction t2 t2After found inT2 isStore ran =>
      rcases inv.held key entry found with ⟨blob, put, stands⟩
      have notInT1 : entry.tier ≠ kT1Dram := by
        rw [inT2]
        decide
      rcases (stands.recorded notInT1).acked with ⟨ack, member, location, data⟩
      rw [acked_of_store isStore] at member
      have alive := inv.t2 t2 isStore
      have right : reply.bytes = ack.data := by
        rcases List.mem_append.1 member with present | earlier
        · exact (T2.read_sound alive.valid succeeds.1 succeeds.2 ran).2 ok ack present location
        · rw [← location] at ran
          exact T2.read_old alive earlier succeeds.1 succeeds.2 ran ok
      rw [right, data]
      exact put

theorem del_keeps {key : StorageKey} {status : Status} (inv : SafeInv content old issued e)
    (cases : DelCases e key status after) : SafeInv content old issued after := by
  have t1 := del_t1 inv.t1 cases
  have later := del_later cases
  cases cases with
  | missed => exact inv
  | fromT1 | fromNowhere => exact { t1, t2 := inv.t2, held := inv.held.erase key }
  | fromT2 entry t1Eviction t2Eviction t2 found inT2 isStore =>
      refine { t1, t2 := ?_, held := (held_later inv later rfl).erase key }
      intro store isAfter
      cases isAfter
      exact T2.mark_dead_alive (inv.t2 t2 isStore) _

theorem flush_keeps {t2 t2After : T2} {steps : List FlushStep} (inv : SafeInv content old issued e)
    (isStore : e.t2Store = some t2) (succeeds : FlushSucceeds steps)
    (ran : t2.flushRun steps = some t2After) :
    SafeInv content old issued { e with t2Store := some t2After } := by
  have later : Later e { e with t2Store := some t2After } :=
    later_new_store rfl rfl isStore rfl (T2.flush_run_later ran)
  have held := held_later inv later rfl
  refine { t1 := inv.t1, t2 := ?_, held }
  intro store isAfter
  cases isAfter
  exact T2.flush_run_alive (inv.t2 t2 isStore) succeeds ran

end Engine

end AttentionDB
