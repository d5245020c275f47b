import AttentionDB.Engine.Retention
import AttentionDB.Engine.T1Slots

/-!
# A get returns the latest put

The simulation between the engine and the map of latest puts. Every index entry
stands for the latest blob of its key: a T1 entry because the bytes of its slot
are that blob, a T2 entry because the blob store acknowledged the blob under the
location that `get` rebuilds. A put writes into a slot that was free, so it
changes no other entry's bytes; demotion copies the bytes of a slot into the
blob store before the slot is released.
-/

namespace AttentionDB

open GuardedRuns ByteMap BlobStore SlabAllocator

set_option autoImplicit false

/-- Every get of the log that returned `kOk` returned the blob of the latest
put at that time. -/
def GetsCoherent : List Call → Prop
  | [] => True
  | .get key _ reply :: earlier =>
      (reply.status = .kOk → ∃ record, latest earlier key = some record ∧ reply.bytes = record.blob) ∧
        GetsCoherent earlier
  | .put _ _ _ _ :: earlier => GetsCoherent earlier
  | .del _ _ :: earlier => GetsCoherent earlier

/-- What an entry of the index stands for. -/
inductive Holds (memory : Image) (t2Store : Option T2) (entry : IndexEntry) (blob : List UInt8) :
    Prop where
  | inSlot (inT1 : entry.tier = kT1Dram) (length : entry.length.toNat = blob.length)
      (bytes : slice memory entry.address.toNat blob.length = blob)
  | inStore (inT2 : entry.tier = kT2Nvme) (length : entry.length.toNat = blob.length) (t2 : T2)
      (isStore : t2Store = some t2) (ack : Ack) (member : ack ∈ t2.acked)
      (location : ack.loc = Engine.entryLocation entry) (data : ack.data = blob)

structure CoherentInv (e : Engine) (view : StorageKey → Option PutRecord) : Prop where
  t1 : e.T1Sound
  t2 : ∀ t2, e.t2Store = some t2 → t2.Sound
  held : ∀ key entry, e.index.find key = some entry →
    ∃ record, view key = some record ∧ Holds e.memory e.t2Store entry record.blob

section Entries

variable {memory : Image} {t2Store : Option T2} {entry : IndexEntry} {blob : List UInt8}

theorem Holds.touch (holds : Holds memory t2Store entry blob) (now : Nat) :
    Holds memory t2Store (entry.touch now) blob := by
  cases holds with
  | inSlot inT1 length bytes => exact .inSlot inT1 length bytes
  | inStore inT2 length t2 isStore ack member location data =>
      exact .inStore inT2 length t2 isStore ack member location data

/-- The blob store keeps what it acknowledged. -/
theorem Holds.later {t2 t2After : T2} (holds : Holds memory (some t2) entry blob)
    (later : T2.Later t2 t2After) : Holds memory (some t2After) entry blob := by
  cases holds with
  | inSlot inT1 length bytes => exact .inSlot inT1 length bytes
  | inStore inT2 length _ isStore ack member location data =>
      cases isStore
      exact .inStore inT2 length t2After rfl ack (later.acked ack member) location data

/-- The location that `get` rebuilds from the entry is the one that the write
returned. -/
theorem entry_location_of_ack {t2 : T2} (sound : t2.Sound) (buffered : T2.Buffered t2) {ack : Ack}
    (member : ack ∈ t2.acked) (length : entry.length.toNat = ack.data.length) :
    ack.loc = Engine.entryLocation
      { entry with
        tier := kT2Nvme
        address := UInt64.ofNat ack.loc.offset
        segmentId := UInt32.ofNat ack.loc.segmentId } := by
  have shape := StoreInv.shapes sound ack member
  have segment : ack.loc.segmentId < 2 ^ 32 := by
    cases found : t2.store.segmentFd ack.loc.segmentId with
    | none => exact absurd found (StoreInv.known sound ack member)
    | some path =>
        rcases segment_fd_member found with ⟨seg, inList, id, _⟩
        have next := buffered.segments
        rcases StoreInv.ids sound seg inList with below | last <;> omega
  have offset : ack.loc.offset < 2 ^ 64 := by
    have limit := shape.limit
    have small := buffered.small
    have positive := shape.positive
    have segmentSize : t2.store.config.segmentSize.toNat < 2 ^ 64 := UInt64.toNat_lt _
    unfold extentLimit kSegmentHeaderSize at limit
    unfold kEntryHeaderSize at positive
    omega
  have diskSize : entryDiskSize entry.length.toNat % 2 ^ 32 = ack.loc.diskSize := by
    rw [length, ← shape.diskSize]
    have small := shape.small
    exact Nat.mod_eq_of_lt (by omega)
  have segmentIs : (UInt32.ofNat ack.loc.segmentId).toNat = ack.loc.segmentId := by
    rw [UInt32.toNat_ofNat']
    exact Nat.mod_eq_of_lt segment
  have offsetIs : (UInt64.ofNat ack.loc.offset).toNat = ack.loc.offset := by
    rw [UInt64.toNat_ofNat']
    exact Nat.mod_eq_of_lt offset
  have lengthIs : ack.loc.length = entry.length.toNat := shape.length.trans length.symm
  simp only [Engine.entryLocation, segmentIs, offsetIs, diskSize]
  rw [← lengthIs]

/-- A blob that a write just acknowledged. -/
theorem Holds.written {t2 t2After : T2} {request : WriteRequest} {loc : BlobLocation}
    (written : T2.Written t2 request .kOk loc t2After) (sound : t2After.Sound)
    (buffered : T2.Buffered t2After) (length : entry.length.toNat = request.data.length) :
    Holds memory (some t2After)
      { entry with
        tier := kT2Nvme
        address := UInt64.ofNat loc.offset
        segmentId := UInt32.ofNat loc.segmentId } request.data := by
  rcases written.stored rfl with ⟨ack, member, rfl, data⟩
  refine .inStore rfl length t2After rfl ack member ?_ data
  exact entry_location_of_ack sound buffered member (by rw [data]; exact length)

end Entries

section Changes

variable {e : Engine} {view viewAfter : StorageKey → Option PutRecord} {key : StorageKey}
  {memory : Image} {t2Store : Option T2}

/-- A put writes into a slot that was free, and no entry has its bytes there. -/
theorem Holds.patch {index : ConcurrentHashMap} {a allocator : SlabAllocator} {entry : IndexEntry}
    {ptr : Nat} {blob old : List UInt8} (inv : T1Inv index (some a))
    (allocated : Allocated a blob.length ptr allocator) (found : index.find key = some entry)
    (holds : Holds memory t2Store entry old) :
    Holds (ByteMap.patch memory ptr blob) t2Store entry old := by
  cases holds with
  | inStore inT2 length t2 isStore ack member location data =>
      exact .inStore inT2 length t2 isStore ack member location data
  | inSlot inT1 length bytes =>
      refine .inSlot inT1 length ?_
      rcases inv.valid key entry found inT1 with ⟨_, ⟨⟩, taken, slotSize, isSlot, fits⟩
      rcases allocated.slot with ⟨newSize, newSlot, room, _⟩
      have different : entry.address.toNat ≠ ptr := by
        intro same
        rw [same] at taken
        exact taken allocated.wasFree
      have apart := slots_apart (inv.layout a rfl) isSlot newSlot different
      rw [slice_patch_disjoint _ _ _ _ _ (by omega)]
      exact bytes

/-- A key is dropped, and the blob store may have moved on. -/
theorem CoherentInv.held_erase (inv : CoherentInv e view)
    (later : ∀ entry blob, Holds e.memory e.t2Store entry blob → Holds e.memory t2Store entry blob)
    (key : StorageKey) (others : ∀ other, other ≠ key → viewAfter other = view other) :
    ∀ other entry, (e.index.erase key).find other = some entry →
      ∃ record, viewAfter other = some record ∧ Holds e.memory t2Store entry record.blob := by
  intro other entry look
  rw [ConcurrentHashMap.find_erase] at look
  split at look
  · contradiction
  · rename_i different
    rcases inv.held other entry look with ⟨record, isRecord, holds⟩
    exact ⟨record, (others other different).trans isRecord, later entry _ holds⟩

/-- A key gets an entry that holds its latest blob. -/
theorem CoherentInv.held_upsert (inv : CoherentInv e view) {entry : IndexEntry} {record : PutRecord}
    (later : ∀ other old blob, e.index.find other = some old →
      Holds e.memory e.t2Store old blob → Holds memory t2Store old blob)
    (isRecord : viewAfter key = some record) (holds : Holds memory t2Store entry record.blob)
    (others : ∀ other, other ≠ key → viewAfter other = view other) :
    ∀ other found, (e.index.upsert key entry).find other = some found →
      ∃ record, viewAfter other = some record ∧ Holds memory t2Store found record.blob := by
  intro other found look
  rw [ConcurrentHashMap.find_upsert] at look
  split at look
  · rename_i same
    cases look
    exact ⟨record, same ▸ isRecord, holds⟩
  · rename_i different
    rcases inv.held other found look with ⟨known, isKnown, was⟩
    exact ⟨known, (others other different).trans isKnown, later other found _ look was⟩

theorem CoherentInv.held_touch (inv : CoherentInv e view)
    (later : ∀ entry blob, Holds e.memory e.t2Store entry blob → Holds e.memory t2Store entry blob)
    (key : StorageKey) (now : Nat) :
    ∀ other found, (e.index.updateFn key (·.touch now)).find other = some found →
      ∃ record, view other = some record ∧ Holds e.memory t2Store found record.blob := by
  intro other found look
  rw [ConcurrentHashMap.find_update_fn] at look
  split at look
  · rename_i same
    rw [Option.map_eq_some_iff] at look
    rcases look with ⟨old, isOld, rfl⟩
    rcases inv.held key old isOld with ⟨record, isRecord, holds⟩
    exact ⟨record, same ▸ isRecord, (later old _ holds).touch now⟩
  · rcases inv.held other found look with ⟨record, isRecord, holds⟩
    exact ⟨record, isRecord, later found _ holds⟩

theorem Holds.moved_on {t2 t2After : T2} (isStore : e.t2Store = some t2)
    (later : T2.Later t2 t2After) (entry : IndexEntry) (blob : List UInt8)
    (holds : Holds e.memory e.t2Store entry blob) : Holds e.memory (some t2After) entry blob := by
  rw [isStore] at holds
  exact holds.later later

end Changes

/-! ## The calls -/

namespace Engine

variable {e after : Engine} {view : StorageKey → Option PutRecord}

def AllBuffered (e : Engine) : Prop := ∀ t2, e.t2Store = some t2 → T2.Buffered t2

theorem all_buffered_earlier (later : Later e after) (bound : AllBuffered after) : AllBuffered e := by
  intro t2 isStore
  have enabled := later.t2Enabled
  rw [isStore] at enabled
  rcases Option.isSome_iff_exists.1 enabled with ⟨t2After, isAfter⟩
  rcases later.t2 t2After isAfter with ⟨same, isSame, moved⟩
  rw [isStore] at isSame
  cases isSame
  exact (bound t2After isAfter).earlier moved

theorem evict_round_coherent {io : EvictIo} (succeeds : io.t2.Succeeds) (bound : AllBuffered after)
    (inv : CoherentInv e view) (round : EvictRound e io after) : CoherentInv after view := by
  have t1 := evict_round_t1 inv.t1 round
  cases round with
  | skipped => exact { t1 := inv.t1, t2 := inv.t2, held := inv.held }
  | dropped t1Eviction victim entry found inT1 cold =>
      exact
        { t1
          t2 := inv.t2
          held := inv.held_erase (fun _ _ holds => holds) victim fun _ _ => rfl }
  | refused t1Eviction victim entry found inT1 t2 t2After status loc isStore ran bad =>
      have later := (T2.write_written ran).1.later
      refine { t1, t2 := ?_, held := ?_ }
      · rintro _ ⟨⟩
        exact T2.write_sound (inv.t2 t2 isStore) succeeds ran (bound t2After rfl)
      · exact inv.held_erase (Holds.moved_on isStore later) victim fun _ _ => rfl
  | demoted t1Eviction t2Eviction victim entry found inT1 t2 t2After loc isStore ran =>
      have written := (T2.write_written ran).1
      have sound := T2.write_sound (inv.t2 t2 isStore) succeeds ran (bound t2After rfl)
      refine { t1, t2 := ?_, held := ?_ }
      · rintro _ ⟨⟩
        exact sound
      · rcases inv.held victim entry found with ⟨record, isRecord, holds⟩
        cases holds with
        | inStore inT2 =>
            rw [inT1] at inT2
            contradiction
        | inSlot _ length bytes =>
            have data : slice e.memory entry.address.toNat entry.length.toNat = record.blob := by
              rw [length]
              exact bytes
            have copied : Holds e.memory (some t2After) (demotedEntry entry loc)
                (slice e.memory entry.address.toNat entry.length.toNat) :=
              Holds.written written sound (bound t2After rfl) (by simp)
            rw [data] at copied
            exact inv.held_upsert
              (fun _ old blob _ was => Holds.moved_on isStore written.later old blob was)
              isRecord copied fun _ _ => rfl

theorem evict_run_coherent {io : Nat → EvictIo} (succeeds : ∀ i, (io i).t2.Succeeds)
    (bound : AllBuffered after) (run : EvictRun io e after) (inv : CoherentInv e view) :
    CoherentInv after view :=
  run.keeps_under AllBuffered (fun e => CoherentInv e view)
    (fun _ _ later bound => all_buffered_earlier later bound)
    (fun _ i _ bound inv round => evict_round_coherent (succeeds i) bound inv round) bound inv

def PutSucceeds (io : PutIo) : Prop := io.t2.Succeeds ∧ ∀ i, (io.evictions i).t2.Succeeds

theorem quiet_put_succeeds : PutSucceeds {} :=
  ⟨quiet_write_succeeds, fun _ => quiet_write_succeeds⟩

theorem put_coherent {key : StorageKey} {blob : List UInt8} {opts : PutOpts} {io : PutIo}
    {status : Status} {log : List Call} (succeeds : PutSucceeds io) (bound : AllBuffered after)
    (inv : CoherentInv e (latest log)) (cases : PutCases e key blob opts io status after) :
    CoherentInv after (latest (.put key blob opts status :: log)) := by
  cases cases with
  | rejected status admission bad =>
      have same : latest (.put key blob opts status :: log) = latest log :=
        funext fun _ => latest_put_bad bad
      rw [same]
      exact { t1 := inv.t1, t2 := inv.t2, held := inv.held }
  | refused status admission t2 t2After loc isStore ran bad =>
      have same : latest (.put key blob opts status :: log) = latest log :=
        funext fun _ => latest_put_bad bad
      rw [same]
      refine { t1 := inv.t1, t2 := ?_, held := ?_ }
      · rintro _ ⟨⟩
        exact T2.write_sound (inv.t2 t2 isStore) succeeds.1 ran (bound t2After rfl)
      · intro other entry found
        rcases inv.held other entry found with ⟨record, isRecord, holds⟩
        exact ⟨record, isRecord,
          Holds.moved_on isStore (T2.write_written ran).1.later entry _ holds⟩
  | storedT1 admission t1Eviction a allocator handle ptr accepted isAllocator allocated run =>
      apply evict_run_coherent succeeds.2 bound run
      have start : T1Inv e.index (some a) := isAllocator ▸ inv.t1
      have layout := start.layout a rfl
      have spec := allocate_spec layout (start.frees a rfl) allocated
      rcases spec.slot with ⟨slotSize, isSlot, _⟩
      have address := slot_address_to_nat layout isSlot
      have length := blob_length_to_nat accepted.2
      refine
        { t1 := start.publish spec key address (Nat.le_of_eq length)
          t2 := inv.t2
          held := ?_ }
      apply inv.held_upsert _ (latest_put_self log key blob opts) _
        fun _ different => latest_put_other different
      · intro other old was found holds
        exact holds.patch start spec found
      · refine .inSlot rfl length ?_
        have here : (t1Entry blob opts io ptr).address.toNat = ptr := address
        rw [here]
        exact slice_patch_same e.memory ptr blob
  | storedT2 admission t2Eviction t2 t2After loc accepted full isStore ran run =>
      apply evict_run_coherent succeeds.2 bound run
      have written := (T2.write_written ran).1
      have boundHere := all_buffered_earlier (evict_run_later run) bound t2After rfl
      have sound := T2.write_sound (inv.t2 t2 isStore) succeeds.1 ran boundHere
      have notInT1 : (t2Entry blob opts io loc).tier ≠ kT1Dram := by
        intro same
        cases same
      refine { t1 := inv.t1.shrink (t1_subset_upsert _ notInT1), t2 := ?_, held := ?_ }
      · rintro _ ⟨⟩
        exact sound
      · have holds : Holds e.memory (some t2After) (t2Entry blob opts io loc) blob :=
          Holds.written written sound boundHere (blob_length_to_nat accepted.2)
        exact inv.held_upsert
          (fun _ old was _ before => Holds.moved_on isStore written.later old was before)
          (latest_put_self log key blob opts) holds fun _ different => latest_put_other different

theorem get_coherent {key : StorageKey} {bufLen : Nat} {io : GetIo} {reply : ReadReply}
    (succeeds : io.first.Succeeds ∧ io.second.Succeeds) (inv : CoherentInv e view)
    (cases : GetCases e key bufLen io reply after) : CoherentInv after view ∧
      (reply.status = .kOk → ∃ record, view key = some record ∧ reply.bytes = record.blob) := by
  have t1 := get_t1 inv.t1 cases
  have stays : ∀ entry blob, Holds e.memory e.t2Store entry blob →
      Holds e.memory e.t2Store entry blob := fun _ _ holds => holds
  cases cases with
  | missed reply bad => exact ⟨inv, fun ok => absurd ok bad⟩
  | nowhere reply bad =>
      exact ⟨{ t1, t2 := inv.t2, held := inv.held_touch stays key io.touchedAt },
        fun ok => absurd ok bad⟩
  | fromT1 entry t1Eviction found inT1 =>
      refine ⟨{ t1, t2 := inv.t2, held := inv.held_touch stays key io.touchedAt }, ?_⟩
      intro _
      rcases inv.held key entry found with ⟨record, isRecord, holds⟩
      refine ⟨record, isRecord, ?_⟩
      cases holds with
      | inStore inT2 =>
          rw [inT1] at inT2
          contradiction
      | inSlot _ length bytes =>
          rw [length]
          exact bytes
  | fromT2 reply entry t2Eviction t2 t2After found inT2 isStore ran =>
      rcases T2.read_sound (inv.t2 t2 isStore) succeeds.1 succeeds.2 ran with ⟨sound, truthful⟩
      have later := T2.read_later ran
      constructor
      · refine
          { t1
            t2 := ?_
            held := inv.held_touch (Holds.moved_on isStore later) key io.touchedAt }
        rintro _ ⟨⟩
        exact sound
      · intro ok
        rcases inv.held key entry found with ⟨record, isRecord, holds⟩
        refine ⟨record, isRecord, ?_⟩
        cases holds with
        | inSlot inT1 =>
            rw [inT1] at inT2
            contradiction
        | inStore _ length other isOther ack member location data =>
            rw [isStore] at isOther
            cases isOther
            rw [← data]
            exact truthful ok ack member location

theorem del_coherent {key : StorageKey} {status : Status} {log : List Call}
    (inv : CoherentInv e (latest log)) (cases : DelCases e key status after) :
    CoherentInv after (latest (.del key status :: log)) := by
  have t1 := del_t1 inv.t1 cases
  have others : ∀ other, other ≠ key →
      latest (.del key .kOk :: log) other = latest log other :=
    fun _ different => latest_del_other different
  cases cases with
  | missed absent =>
      have same : latest (.del key .kNotFound :: log) = latest log := by
        funext other
        simp [latest]
      rw [same]
      exact inv
  | fromT1 | fromNowhere =>
      exact { t1, t2 := inv.t2, held := inv.held_erase (fun _ _ holds => holds) key others }
  | fromT2 entry t1Eviction t2Eviction t2 found inT2 isStore =>
      refine { t1, t2 := ?_, held := ?_ }
      · rintro _ ⟨⟩
        exact T2.mark_dead_sound (inv.t2 t2 isStore) _
      · exact inv.held_erase (Holds.moved_on isStore (T2.mark_dead_later t2 _)) key others

end Engine

/-! ## Runs -/

def ioSucceedsGuard (_ : Session) : SessionLabel → Prop
  | .put _ _ _ io => Engine.PutSucceeds io
  | .get _ _ io => io.first.Succeeds ∧ io.second.Succeeds
  | .del _ => True
  | .flush step => FlushSucceeds [step]

section Runs

variable {session after : Session} {label : SessionLabel}

theorem session_coherent (bound : after.engine.AllBuffered)
    (inv : CoherentInv session.engine (latest session.log) ∧ GetsCoherent session.log)
    (allowed : ioSucceedsGuard session label) (cases : SessionCases session label after) :
    CoherentInv after.engine (latest after.log) ∧ GetsCoherent after.log := by
  cases cases with
  | put key blob opts io status engine cases =>
      exact ⟨Engine.put_coherent allowed bound inv.1 cases, inv.2⟩
  | get key bufLen io reply engine cases =>
      rcases Engine.get_coherent allowed inv.1 cases with ⟨kept, truthful⟩
      exact ⟨kept, truthful, inv.2⟩
  | del key status engine cases => exact ⟨Engine.del_coherent inv.1 cases, inv.2⟩
  | flush step t2 t2After isStore ran =>
      refine ⟨{ t1 := inv.1.t1, t2 := ?_, held := ?_ }, inv.2⟩
      · rintro _ ⟨⟩
        exact T2.flush_run_inv (inv.1.t2 t2 isStore) allowed ran
      · intro key entry found
        rcases inv.1.held key entry found with ⟨record, isRecord, holds⟩
        exact ⟨record, isRecord, Holds.moved_on isStore (T2.flush_run_later ran) entry _ holds⟩

theorem session_start_coherent (initial : (sessionMachine emptyCheckpoint).start session)
    (bound : session.engine.AllBuffered) :
    CoherentInv session.engine (latest session.log) ∧ GetsCoherent session.log := by
  have t1 := session_start_t1 initial
  rcases initial with ⟨config, io, empty, opening, _, noLog⟩
  have opened := Engine.open_engine_opened opening
  refine ⟨{ t1, t2 := ?_, held := ?_ }, by rw [noLog]; trivial⟩
  · intro t2 isStore
    have buffered := bound t2 isStore
    rcases opened.t2 t2 isStore with ⟨store, rfl, ok⟩
    have status : (openStore config.nvmeStore io.files io.store).1 = .kOk := by rw [ok]
    have configIs := open_store_config status
    have segments := buffered.segments
    have small := buffered.small
    have isOpened := StoreInv.opened status
    rw [ok] at configIs isOpened
    simp only at segments small configIs
    rw [configIs] at small
    exact isOpened small segments
  · intro key entry found
    have index := opened.index
    rw [empty] at index
    rw [index] at found
    contradiction

theorem reach_coherent (reached : ReachWithin (sessionMachine emptyCheckpoint) ioSucceedsGuard session)
    (buffered : session.engine.AllBuffered) :
    CoherentInv session.engine (latest session.log) ∧ GetsCoherent session.log := by
  have inv := reached.invariant_under (fun session => session.engine.AllBuffered)
    (fun session => session.engine.AllBuffered →
      CoherentInv session.engine (latest session.log) ∧ GetsCoherent session.log)
  refine inv ?_ ?_ ?_ buffered buffered
  · intro before label after moved bound
    exact Engine.all_buffered_earlier (session_later (session_cases moved)) bound
  · intro start initial bound
    exact session_start_coherent initial bound
  · intro before label after bound inv allowed moved _
    have cases := session_cases moved
    exact session_coherent bound (inv (Engine.all_buffered_earlier (session_later cases) bound))
      allowed cases

/-- In every sequential run from an empty engine, with the flush thread at any
point and all I/O succeeding, every get that returns `kOk` returns the blob of
the latest put. -/
theorem gets_coherent (reached : ReachWithin (sessionMachine emptyCheckpoint) ioSucceedsGuard session)
    (buffered : session.engine.AllBuffered) : GetsCoherent session.log :=
  (reach_coherent reached buffered).2

end Runs

def demotedSession : Session :=
  next (sessionMachine emptyCheckpoint)
    (next (sessionMachine emptyCheckpoint) tieredStart tieredPut) (.get probeKey 16 {})

theorem gets_coherent_demoted :
    demotedSession.log = [.get probeKey 16 { status := .kOk, bytes := [7] },
      .put probeKey [7] { entryType := .kSystemPrompt, recomputeCost := 100 } .kOk] ∧
    GetsCoherent demotedSession.log := by
  have noFlush : FlushSucceeds [] := by
    intro result member
    contradiction
  have noWrite : T2WriteIo.Succeeds {} :=
    { before := noFlush
      segment := rfl
      naps := by
        intro nap member
        contradiction }
  have noRead : T2ReadIo.Succeeds {} :=
    { beforePending := noFlush, beforeLookup := noFlush, beforeDisk := noFlush }
  have putAllowed : ioSucceedsGuard tieredStart tieredPut := ⟨noWrite, fun _ => noWrite⟩
  have first := ReachWithin.to_next tieredPut (.start tiered_started) putAllowed (by decide)
  have getAllowed : ioSucceedsGuard (next (sessionMachine emptyCheckpoint) tieredStart tieredPut)
      (.get probeKey 16 {}) := ⟨noRead, noRead⟩
  have second := ReachWithin.to_next (.get probeKey 16 {}) first getAllowed (by decide)
  have counted : demotedSession.engine.t2Store.map (fun t2 =>
      (t2.store.nextSegmentId, t2.handed, blockCapacity t2.store.config)) =
        some (1, [1], 1048576) := by decide
  refine ⟨by decide +kernel, gets_coherent second ?_⟩
  intro t2 isStore
  have here : demotedSession.engine.t2Store = some t2 := isStore
  rw [here] at counted
  simp only [Option.map_some, Option.some.injEq, Prod.mk.injEq] at counted
  rcases counted with ⟨segments, handed, capacity⟩
  refine { segments := by omega, small := by omega, fits := ?_ }
  rw [handed, capacity]
  decide

end AttentionDB
