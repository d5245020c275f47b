import AttentionDB.Engine.CallPhases

/-!
# Concurrent calls take effect one at a time

A put takes effect when it publishes its entry, a get when it looks its entry
up, a delete when it erases the entry. What a get reads later is still the blob
of that entry: nothing is overwritten in a segment, and a slot is overwritten
only after it was freed. So the calls of any number of threads are linearizable
as long as no slot is freed and no write sleeps.
-/

namespace AttentionDB

open GuardedRuns ByteMap BlobStore SlabAllocator LossyMaps Linearizability Relation

set_option autoImplicit false

/-! ## The steps of the map -/

abbrev MapState := AtomicState Nat ClientOp ClientAnswer BlobMap

def Advances (s after : EngineSystem) (a : MapState) (t : Nat) : Prop :=
  ∃ next, ReflTransGen (AtomicStep blobObject) a next ∧
    next.history = a.history ++ EngineLabel.events s after (.step t {}) ∧
    CallsMatch after next.phases next.contents

section Advancing

variable {s after : EngineSystem} {a : MapState} {t : Nat} {place : Nat} {op : ClientOp}
  {answer : ClientAnswer} {before left : BlobMap}

theorem events_none (goes : s.returned after t = none) :
    EngineLabel.events s after (.step t {}) = [] := by
  simp only [EngineLabel.events, goes]

theorem events_some (returns : s.returned after t = some answer) :
    EngineLabel.events s after (.step t {}) = [.returned t answer] := by
  simp only [EngineLabel.events, returns]

theorem advances_quiet (goes : s.returned after t = none) {phase : Phase ClientOp BlobMap}
    (here : a.phases t = phase)
    (calling : CallsMatch after (Function.update a.phases t phase) a.contents) :
    Advances s after a t := by
  refine ⟨a, .refl, ?_, ?_⟩
  · rw [events_none goes, List.append_nil]
  · rwa [← here, Function.update_eq_self] at calling

theorem advances_settle (goes : s.returned after t = none) (here : a.phases t = .waiting place op)
    (possible : BlobStep a.contents op answer left)
    (calling : CallsMatch after (Function.update a.phases t (.settled place op a.contents left)) left) :
    Advances s after a t := by
  refine ⟨_, .single (.settle t here possible), ?_, calling⟩
  rw [events_none goes, List.append_nil]

theorem advances_respond (returns : s.returned after t = some answer)
    (here : a.phases t = .settled place op before left) (right : BlobStep before op answer left)
    (calling : CallsMatch after (Function.update a.phases t .idle) a.contents) :
    Advances s after a t := by
  refine ⟨_, .single (.respond t answer here right), ?_, calling⟩
  rw [events_some returns]

/-- The call takes effect in its last step. -/
theorem advances_at_once (returns : s.returned after t = some answer)
    (here : a.phases t = .waiting place op) (right : BlobStep a.contents op answer left)
    (calling : CallsMatch after (Function.update a.phases t .idle) left) : Advances s after a t := by
  have settled : AtomicStep blobObject a
      { a with
        phases := Function.update a.phases t (.settled place op a.contents left)
        contents := left } := .settle t here right
  refine ⟨_, (ReflTransGen.single settled).tail (.respond t answer (Function.update_self _ _ _) right),
    ?_, ?_⟩
  · rw [events_some returns]
  · rw [Function.update_idem]
    exact calling

end Advancing

/-! ## The steps of a put -/

section Calls

variable {s after : EngineSystem} {a : MapState} {t : Nat} {io : StepIo} {place : Nat}
  {put : PutCall} {key : StorageKey} {bufLen : Nat} {del : Update}

theorem returned_finish {engine : Engine} {update : Update} {isPut : Bool} {status : Status}
    (notFind : ∀ key bufLen, s.threads t ≠ .getFind key bufLen)
    (notTouch : ∀ key fromT1 reply, s.threads t ≠ .getTouch key fromT1 reply) :
    s.returned (s.finish t engine update isPut status) t = some (.status status) := by
  unfold EngineSystem.returned
  rw [finish_thread]
  dsimp only
  split
  · rename_i key bufLen here
    exact absurd here (notFind key bufLen)
  · rename_i key fromT1 reply here
    exact absurd here (notTouch key fromT1 reply)
  · rfl

theorem returned_none {engine : Engine} {pc : ThreadPc} (running : pc ≠ .idle) :
    s.returned (s.move t engine pc) t = none := by
  unfold EngineSystem.returned
  rw [move_thread]
  split
  · contradiction
  · rfl

/-- A step between the invocation of a call, its effect and its return. -/
theorem quiet_move (calling : CallsMatch s a.phases a.contents) {engine : Engine} {pc : ThreadPc}
    {phase : Phase ClientOp BlobMap} (isPhase : a.phases t = phase) (core : SameCore s.engine engine)
    (t2Store : engine.t2Store = s.engine.t2Store) (running : pc ≠ .idle) (nothing : pc.span = none)
    (own : InCall engine pc phase) : Advances s (s.move t engine pc) a t :=
  advances_quiet (returned_none running) isPhase (calling.stay core t2Store nothing own)

theorem finished_put (calling : CallsMatch s a.phases a.contents) {engine : Engine}
    (isPhase : a.phases t = .waiting place (.put put.update.key put.blob)) {status : Status}
    (bad : status ≠ .kOk) (notFind : ∀ key bufLen, s.threads t ≠ .getFind key bufLen)
    (notTouch : ∀ key fromT1 reply, s.threads t ≠ .getTouch key fromT1 reply)
    (index : engine.index = s.engine.index) (t1Allocator : engine.t1Allocator = s.engine.t1Allocator)
    (memory : engine.memory = s.engine.memory) (acked : ∀ ack ∈ s.engine.acked, ack ∈ engine.acked)
    (store : ∀ t2, engine.t2Store = some t2 → t2.Sound) :
    Advances s (s.finish t engine put.update true status) a t :=
  advances_at_once (returned_finish notFind notTouch) isPhase (.turnedAway _ _ status bad)
    (calling.calm rfl index t1Allocator memory acked store rfl .idle)

theorem admission_advances (calling : CallsMatch s a.phases a.contents)
    (here : s.threads t = .putBegun put)
    (isPhase : a.phases t = .waiting place (.put put.update.key put.blob)) :
    Advances s (s.stepAdmission t put) a t := by
  have notFind : ∀ key bufLen, s.threads t ≠ .getFind key bufLen := by simp [here]
  have notTouch : ∀ key fromT1 reply, s.threads t ≠ .getTouch key fromT1 reply := by simp [here]
  unfold EngineSystem.stepAdmission
  dsimp only
  split_ifs with denied long
  · exact finished_put calling isPhase (by decide) notFind notTouch rfl rfl rfl
      (fun _ member => member) calling.store
  · exact finished_put calling isPhase (by decide) notFind notTouch rfl rfl rfl
      (fun _ member => member) calling.store
  · exact quiet_move calling isPhase ⟨rfl, rfl, rfl, rfl⟩ rfl (by simp) rfl
      (.allocate place put (by omega))

theorem allocate_advances (calling : CallsMatch s a.phases a.contents)
    (here : s.threads t = .allocate put)
    (isPhase : a.phases t = .waiting place (.put put.update.key put.blob))
    (short : put.blob.length < 2 ^ 32) : Advances s (s.stepAllocate t put) a t := by
  unfold EngineSystem.stepAllocate
  split
  · rename_i handle ptr allocator allocation
    rw [Engine.allocateT1, Option.bind_eq_some_iff] at allocation
    obtain ⟨old, isOld, allocated⟩ := allocation
    have spec := allocate_spec (calling.slots old isOld).1 (calling.slots old isOld).2 allocated
    have keeps := preserves_allocated isOld spec
    refine advances_quiet (returned_none (by simp)) isPhase ?_
    refine calling.advance rfl keeps (fun _ _ _ _ _ => trivial) calling.store ?_ ?_
      (.copy place put ptr short (allocated_reserved spec)) ?_
    · rintro _ ⟨⟩
      exact ⟨spec.layout, spec.frees⟩
    · exact held_keep calling.held keeps fun _ _ _ _ => trivial
    · exact calling.apart.copy rfl rfl (calling.free_not_carried isOld spec.wasFree)
        fun key entry => calling.free_not_indexed isOld spec.wasFree
  · split
    · exact quiet_move calling isPhase (.refl _) rfl (by simp) rfl (.write place put short)
    · exact finished_put calling isPhase (by decide) (by simp [here]) (by simp [here]) rfl rfl rfl
        (fun _ member => member) calling.store

theorem copy_advances (calling : CallsMatch s a.phases a.contents) {ptr : Nat}
    (here : s.threads t = .copy put ptr)
    (isPhase : a.phases t = .waiting place (.put put.update.key put.blob))
    (short : put.blob.length < 2 ^ 32) (reserved : Reserved s.engine ptr put.blob.length) :
    Advances s (s.stepCopy t put ptr) a t := by
  obtain ⟨spans, addresses⟩ := calling.apart t put ptr here
  have keeps := preserves_copied reserved fun allocator isAllocator =>
    (calling.slots allocator isAllocator).1
  have own : Occupied { s.engine with memory := patch s.engine.memory ptr put.blob } ptr put.blob :=
    ⟨⟨reserved.room, reserved.taken⟩, slice_patch_same _ _ _⟩
  have goes : s.returned (s.stepCopy t put ptr) t = none := by
    simp [EngineSystem.returned, EngineSystem.stepCopy, EngineSystem.record, EngineSystem.move]
  refine advances_quiet goes isPhase ?_
  refine calling.advance rfl keeps ?_ calling.store calling.slots ?_
    (.insertT1 place put ptr short own) ?_
  · rintro u p length different carried rfl
    exact spans u length different carried
  · exact held_keep calling.held keeps addresses
  · refine calling.apart.advance rfl (by simp) ?_ ?_
    · rintro p length ⟨⟩
      exact .inl ⟨put.blob.length, by rw [here]; rfl⟩
    · intro key entry found inT1
      exact .inl ⟨entry, found, inT1, rfl⟩

theorem returned_publish {entry : IndexEntry} {origin : Option Update} :
    s.returned (s.stepPublish t put entry origin) t = none := by
  simp [EngineSystem.returned, EngineSystem.stepPublish, EngineSystem.record, EngineSystem.move]

/-- The entry that a put publishes leads to its blob. -/
theorem publish_advances (calling : CallsMatch s a.phases a.contents) {entry : IndexEntry}
    {origin : Option Update}
    (isPhase : a.phases t = .waiting place (.put put.update.key put.blob))
    (kept : Kept s.engine entry put.blob)
    (inHand : entry.tier = kT1Dram → ∃ whole, (s.threads t).span = some (entry.address.toNat, whole)) :
    Advances s (s.stepPublish t put entry origin) a t := by
  refine advances_settle returned_publish isPhase (.stored _ _) ?_
  refine calling.published rfl rfl rfl rfl rfl ?_ ?_ (.evict place put a.contents)
  · intro key found isFound inT1
    change (s.engine.index.upsert _ _).find key = some found at isFound
    rw [ConcurrentHashMap.find_upsert] at isFound
    split_ifs at isFound
    · cases isFound
      exact .inr (inHand inT1)
    · exact .inl ⟨found, isFound, inT1, rfl⟩
  · change Related (Kept s.engine) (s.engine.index.upsert _ _).find _
    rw [ConcurrentHashMap.find_upsert_update]
    exact calling.held.update kept

theorem publish_t1_advances (calling : CallsMatch s a.phases a.contents) {ptr : Nat}
    (here : s.threads t = .publishT1 put ptr)
    (isPhase : a.phases t = .waiting place (.put put.update.key put.blob))
    (short : put.blob.length < 2 ^ 32) (occupied : Occupied s.engine ptr put.blob) :
    Advances s (s.stepPublish t put (Engine.t1Entry put.blob put.opts put.times ptr) none) a t := by
  obtain ⟨allocator, slotSize, isAllocator, isSlot, fits⟩ := occupied.reserved.room
  have address : (Engine.t1Entry put.blob put.opts put.times ptr).address.toNat = ptr :=
    Engine.slot_address_to_nat (calling.slots allocator isAllocator).1 isSlot
  refine publish_advances calling isPhase ?_ ?_
  · refine .inSlot rfl (Engine.blob_length_to_nat short) ?_
    rw [address]
    exact occupied
  · intro _
    rw [address, here]
    exact ⟨_, rfl⟩

theorem publish_t2_advances (calling : CallsMatch s a.phases a.contents) {loc : BlobLocation}
    (bound : s.engine.AllBuffered)
    (isPhase : a.phases t = .waiting place (.put put.update.key put.blob))
    (short : put.blob.length < 2 ^ 32)
    (acked : ∃ ack ∈ s.engine.acked, ack.loc = loc ∧ ack.data = put.blob) :
    Advances s (s.stepPublish t put (Engine.t2Entry put.blob put.opts put.times loc)
      (some put.update)) a t := by
  refine publish_advances calling isPhase (.inFile ?_) fun inT1 => by cases inT1
  obtain ⟨ack, member, rfl, data⟩ := acked
  refine ⟨rfl, Engine.blob_length_to_nat short, ack, member, ?_, data⟩
  cases isStore : s.engine.t2Store with
  | none =>
      rw [Engine.acked, isStore] at member
      cases member
  | some t2 =>
      rw [Engine.acked_of_store isStore] at member
      have length : (Engine.t2Entry put.blob put.opts put.times ack.loc).length.toNat =
          ack.data.length := by
        rw [data]
        exact Engine.blob_length_to_nat short
      have location := entry_location_of_ack (calling.store t2 isStore) (bound t2 isStore) member length
      exact location

theorem write_advances (calling : CallsMatch s a.phases a.contents) (here : s.threads t = .write put)
    (isPhase : a.phases t = .waiting place (.put put.update.key put.blob))
    (short : put.blob.length < 2 ^ 32) (succeeds : io.write.Succeeds)
    (bound : after.engine.AllBuffered) (ran : s.stepWrite t put io = some after) :
    Advances s after a t := by
  unfold EngineSystem.stepWrite at ran
  split at ran
  · contradiction
  · rename_i t2 isStore
    split at ran
    · contradiction
    · rename_i status loc t2After written
      have later := (T2.write_written written).1
      have acked : ∀ ack ∈ s.engine.acked, ack ∈ t2After.acked := by
        rw [Engine.acked_of_store isStore]
        exact later.later.acked
      have store : after.engine.t2Store = some t2After →
          ∀ store, some t2After = some store → store.Sound := by
        rintro isAfter _ ⟨⟩
        exact T2.write_sound (calling.store t2 isStore) succeeds written (bound t2After isAfter)
      dsimp only at ran
      split_ifs at ran with ok
      · subst ok
        cases ran
        refine advances_quiet (returned_none (by simp)) isPhase ?_
        exact calling.calm rfl rfl rfl rfl acked (store rfl) rfl
          (.insertT2 place put loc short (later.stored rfl))
      · cases ran
        exact finished_put calling isPhase ok (by simp [here]) (by simp [here]) rfl rfl rfl acked
          (store rfl)

/-- A put below the watermark returns. -/
theorem evict_advances (calling : CallsMatch s a.phases a.contents) {before : BlobMap}
    (here : s.threads t = .evict put .check)
    (isPhase : a.phases t = .settled place (.put put.update.key put.blob) before
      (Function.update before put.update.key (some put.blob))) :
    Advances s (s.finish t s.engine put.update true .kOk) a t := by
  refine advances_respond (returned_finish (by simp [here]) (by simp [here])) isPhase (.stored _ _) ?_
  exact calling.calm rfl rfl rfl rfl (fun _ member => member) calling.store rfl .idle

/-! ## The steps of a get -/

theorem kept_t2 {entry : IndexEntry} {blob : List UInt8} (kept : Kept s.engine entry blob)
    (notServed : ¬(entry.tier = kT1Dram ∧ s.engine.t1Allocator.isSome = true)) :
    Recorded s.engine.acked entry blob ∧ s.engine.t2Store.isSome = true := by
  cases kept with
  | inSlot inT1 _ occupied =>
      obtain ⟨allocator, _, isAllocator, _⟩ := occupied.reserved.room
      exact absurd ⟨inT1, by rw [isAllocator]; rfl⟩ notServed
  | inFile recorded =>
      refine ⟨recorded, ?_⟩
      obtain ⟨ack, member, _⟩ := recorded.acked
      cases isStore : s.engine.t2Store with
      | none =>
          rw [Engine.acked, isStore] at member
          cases member
      | some t2 => rfl

/-- What a get finds decides its answer, whatever it still has to read. -/
theorem get_find_advances (calling : CallsMatch s a.phases a.contents)
    (here : s.threads t = .getFind key bufLen)
    (isPhase : a.phases t = .waiting place (.get key bufLen)) :
    Advances s (s.stepGetFind t key bufLen) a t := by
  unfold EngineSystem.stepGetFind
  rcases calling.held key with ⟨missing, absent⟩ | ⟨entry, blob, found, isBlob, kept⟩
  · rw [missing]
    have returns : s.returned (s.move t s.engine .idle) t =
        some (.reply { status := .kNotFound }) := by
      simp [EngineSystem.returned, here, missing]
    refine advances_at_once returns isPhase (.answered _ _ _ ?_)
      (calling.stay (.refl _) rfl rfl .idle)
    rw [absent]
    rfl
  · rw [found]
    dsimp only
    have possible : BlobStep a.contents (.get key bufLen) (.reply (replyFor blob bufLen))
        a.contents := by
      refine .answered _ _ _ ?_
      rw [isBlob]
      exact .inl rfl
    split_ifs with served small stored
    · have returns : s.returned (s.move t s.engine .idle) t =
          some (.reply { status := .kBufferTooSmall }) := by
        simp [EngineSystem.returned, here, found]
      refine advances_at_once returns isPhase (.answered _ _ _ ?_)
        (calling.stay (.refl _) rfl rfl .idle)
      rw [isBlob]
      left
      rw [(kept.in_slot served.1).1] at small
      unfold replyFor
      rw [if_pos small]
    · obtain ⟨length, occupied⟩ := kept.in_slot served.1
      refine advances_settle (returned_none (by simp)) isPhase possible ?_
      refine calling.moved rfl rfl rfl rfl (fun _ member => member) calling.store (by simp) ?_
        (.getCopy place key bufLen entry blob a.contents isBlob (by omega) length occupied)
      rintro ptr size ⟨⟩
      exact .inr ⟨key, entry, found, served.1, rfl⟩
    · refine advances_settle (returned_none (by simp)) isPhase possible ?_
      exact calling.stay (.refl _) rfl rfl
        (.getRead place key bufLen entry blob a.contents isBlob (kept_t2 kept served).1)
    · obtain ⟨recorded, enabled⟩ := kept_t2 kept served
      exact absurd ⟨recorded.inT2, enabled⟩ stored

theorem get_read_advances (calling : CallsMatch s a.phases a.contents) {entry : IndexEntry}
    {blob : List UInt8} {before : BlobMap}
    (isPhase : a.phases t = .settled place (.get key bufLen) before before)
    (was : before key = some blob) (recorded : Recorded s.engine.acked entry blob)
    (succeeds : io.Succeeds) (ran : s.stepGetRead t key entry bufLen io = some after) :
    Advances s after a t := by
  unfold EngineSystem.stepGetRead at ran
  split at ran
  · contradiction
  · rename_i t2 isStore
    split at ran
    · contradiction
    · rename_i reply t2After read
      obtain ⟨ack, member, location, data⟩ := recorded.acked
      rw [Engine.acked_of_store isStore] at member
      have right : BlobAnswers (before key) bufLen reply := by
        have sought := read
        rw [← location] at sought
        have answered := T2.read_answers (calling.store t2 isStore) succeeds.reads.1 succeeds.reads.2
          succeeds.readOk.1 succeeds.readOk.2 member sought
        rw [was]
        rw [data] at answered
        split_ifs at answered with whole
        · exact .inl answered
        · push Not at whole
          exact .inr ⟨whole.1, answered⟩
      have acked : ∀ ack ∈ s.engine.acked, ack ∈ t2After.acked := by
        rw [Engine.acked_of_store isStore, T2.read_acked read]
        exact fun _ member => member
      have store : ∀ store, some t2After = some store → store.Sound := by
        rintro _ ⟨⟩
        exact (T2.read_sound (calling.store t2 isStore) succeeds.reads.1 succeeds.reads.2 read).1
      dsimp only at ran
      split_ifs at ran with ok
      · cases ran
        exact advances_quiet (returned_none (by simp)) isPhase
          (calling.calm rfl rfl rfl rfl acked store rfl
            (.getAccessT2 place key bufLen entry reply before right))
      · cases ran
        exact advances_quiet (returned_none (by simp)) isPhase
          (calling.calm rfl rfl rfl rfl acked store rfl
            (.getTouch place key bufLen false reply before right))

/-- A get returns what it decided on; the access time is not seen. -/
theorem get_touch_advances (calling : CallsMatch s a.phases a.contents) {fromT1 : Bool}
    {reply : ReadReply} {before : BlobMap} (here : s.threads t = .getTouch key fromT1 reply)
    (isPhase : a.phases t = .settled place (.get key bufLen) before before)
    (right : BlobAnswers (before key) bufLen reply) :
    Advances s (s.stepGetTouch t key fromT1 reply io) a t := by
  have returns : s.returned (s.stepGetTouch t key fromT1 reply io) t = some (.reply reply) := by
    simp [EngineSystem.returned, EngineSystem.stepGetTouch, EngineSystem.record, EngineSystem.move,
      here]
  refine advances_respond returns isPhase (.answered _ _ _ right) ?_
  refine calling.published rfl rfl rfl rfl rfl ?_ ?_ .idle
  · intro other entry found inT1
    obtain ⟨old, was, wasT1, address, _⟩ := t1_subset_touch s.engine.index key io.now other entry found
      inT1
    exact .inl ⟨old, was, wasT1, address⟩
  · change Related (Kept s.engine) (s.engine.index.updateFn key (·.touch io.now)).find _
    rw [ConcurrentHashMap.find_update_fn_update]
    exact calling.held.change key fun entry blob kept => kept.touch io.now

/-! ## The steps of a delete -/

theorem del_find_advances (calling : CallsMatch s a.phases a.contents)
    (here : s.threads t = .delFind del) (isPhase : a.phases t = .waiting place (.del del.key))
    (outside : s.engine.t1Allocator ≠ none → ∀ entry, s.engine.index.find del.key = some entry →
      entry.tier ≠ kT1Dram) : Advances s (s.stepDelFind t del) a t := by
  unfold EngineSystem.stepDelFind
  rcases calling.held del.key with ⟨missing, absent⟩ | ⟨entry, blob, found, isBlob, kept⟩
  · rw [missing]
    refine advances_at_once (returned_finish (by simp [here]) (by simp [here])) isPhase
      (.absent _ absent) ?_
    exact calling.calm rfl rfl rfl rfl (fun _ member => member) calling.store rfl .idle
  · rw [found]
    dsimp only
    split_ifs with served stored
    · have enabled : s.engine.t1Allocator ≠ none := Option.isSome_iff_ne_none.1 served.2
      exact absurd served.1 (outside enabled entry found)
    · exact quiet_move calling isPhase (.refl _) rfl (by simp) rfl (.delMark place del entry)
    · exact quiet_move calling isPhase (.refl _) rfl (by simp) rfl (.delErase place del)

theorem del_mark_advances (calling : CallsMatch s a.phases a.contents) {entry : IndexEntry}
    (isPhase : a.phases t = .waiting place (.del del.key)) :
    Advances s (s.move t { s.engine with
      t2Store := s.engine.t2Store.map (·.markDead (Engine.entryLocation entry)) } (.delErase del))
      a t := by
  refine advances_quiet (returned_none (by simp)) isPhase ?_
  refine calling.calm rfl rfl rfl rfl ?_ ?_ rfl (.delErase place del)
  · intro ack member
    cases isStore : s.engine.t2Store with
    | none =>
        rw [Engine.acked, isStore] at member
        cases member
    | some t2 =>
        rw [Engine.acked_of_store isStore] at member
        exact (T2.mark_dead_later t2 (Engine.entryLocation entry)).acked ack member
  · intro marked isMarked
    change s.engine.t2Store.map _ = some marked at isMarked
    rw [Option.map_eq_some_iff] at isMarked
    obtain ⟨t2, isStore, rfl⟩ := isMarked
    exact T2.mark_dead_sound (calling.store t2 isStore) _

theorem del_erase_advances (calling : CallsMatch s a.phases a.contents)
    (isPhase : a.phases t = .waiting place (.del del.key)) :
    Advances s (s.stepDelErase t del) a t := by
  have goes : s.returned (s.stepDelErase t del) t = none := by
    simp [EngineSystem.returned, EngineSystem.stepDelErase, EngineSystem.record, EngineSystem.move]
  refine advances_settle goes isPhase (.removed _) ?_
  refine calling.published rfl rfl rfl rfl rfl ?_ ?_ (.delRemoveT1 place del a.contents)
  · intro key entry found inT1
    obtain ⟨old, was, wasT1, address, _⟩ := t1_subset_erase s.engine.index del.key key entry found inT1
    exact .inl ⟨old, was, wasT1, address⟩
  · change Related (Kept s.engine) (s.engine.index.erase _).find _
    rw [ConcurrentHashMap.find_erase_update]
    exact calling.held.erase del.key

/-! ## Every step of a thread -/

theorem step_advances (calling : CallsMatch s a.phases a.contents) (succeeds : io.Succeeds)
    (keepsSlots : s.engine.t1Allocator ≠ none → ReleasesNothing s t)
    (bound : s.engine.AllBuffered) (boundAfter : after.engine.AllBuffered)
    (ran : s.stepThread t io (s.threads t) = some after) : Advances s after a t := by
  have call := calling.calls t
  generalize here : s.threads t = pc at call ran
  generalize isPhase : a.phases t = phase at call
  cases call with
  | idle => cases ran
  | putBegun place put =>
      cases ran
      exact admission_advances calling here isPhase
  | allocate place put short =>
      cases ran
      exact allocate_advances calling here isPhase short
  | copy place put ptr short reserved =>
      cases ran
      exact copy_advances calling here isPhase short reserved
  | insertT1 place put ptr short occupied =>
      cases ran
      refine advances_quiet (returned_none (by simp)) isPhase ?_
      have own : Occupied (EngineSystem.onInsertT1 s.engine put io.now) ptr put.blob :=
        ⟨⟨occupied.reserved.room, occupied.reserved.taken⟩, occupied.bytes⟩
      refine calling.moved rfl rfl rfl rfl (fun _ member => member) calling.store (by simp) ?_
        (.publishT1 place put ptr short own)
      rintro p length ⟨⟩
      exact .inl ⟨put.blob.length, by rw [here]; rfl⟩
  | publishT1 place put ptr short occupied =>
      cases ran
      exact publish_t1_advances calling here isPhase short occupied
  | write place put short =>
      exact write_advances calling here isPhase short succeeds.write boundAfter ran
  | insertT2 place put loc short acked =>
      cases ran
      exact quiet_move calling isPhase ⟨rfl, rfl, rfl, rfl⟩ rfl (by simp) rfl
        (.publishT2 place put loc short acked)
  | publishT2 place put loc short acked =>
      cases ran
      exact publish_t2_advances calling bound isPhase short acked
  | evict place put before =>
      have below : s.engine.overWatermark = false := by
        by_cases enabled : s.engine.t1Allocator = none
        · unfold Engine.overWatermark
          rw [enabled]
        · exact (keepsSlots enabled).evicts put here
      simp only [EngineSystem.stepThread, EngineSystem.stepEvict, below] at ran
      cases ran
      exact evict_advances calling here isPhase
  | getFind place key bufLen =>
      cases ran
      exact get_find_advances calling here isPhase
  | getCopy place key bufLen entry blob before was fits length occupied =>
      cases ran
      rw [length, occupied.bytes]
      exact quiet_move calling isPhase (.refl _) rfl (by simp) rfl
        (.getAccessT1 place key bufLen entry blob before was fits)
  | getAccessT1 place key bufLen entry blob before was fits =>
      cases ran
      have right : BlobAnswers (before key) bufLen { status := .kOk, bytes := blob } := by
        rw [was]
        left
        unfold replyFor
        rw [if_neg (by omega)]
      exact quiet_move calling isPhase ⟨rfl, rfl, rfl, rfl⟩ rfl (by simp) rfl
        (.getTouch place key bufLen true _ before right)
  | getRead place key bufLen entry blob before was recorded =>
      exact get_read_advances calling isPhase was recorded succeeds ran
  | getAccessT2 place key bufLen entry reply before right =>
      cases ran
      exact quiet_move calling isPhase ⟨rfl, rfl, rfl, rfl⟩ rfl (by simp) rfl
        (.getTouch place key bufLen false reply before right)
  | getTouch place key bufLen fromT1 reply before right =>
      cases ran
      exact get_touch_advances calling here isPhase right
  | delFind place del =>
      cases ran
      exact del_find_advances calling here isPhase fun enabled entry =>
        (keepsSlots enabled).deletes del entry here
  | delMark place del entry =>
      cases ran
      exact del_mark_advances calling isPhase
  | delErase place del =>
      cases ran
      exact del_erase_advances calling isPhase
  | delRemoveT1 place del before =>
      cases ran
      exact quiet_move calling isPhase ⟨rfl, rfl, rfl, rfl⟩ rfl (by simp) rfl
        (.delRemoveT2 place del before)
  | delRemoveT2 place del before =>
      cases ran
      refine advances_respond (returned_finish (by simp [here]) (by simp [here])) isPhase
        (.removed _) ?_
      exact calling.calm rfl rfl rfl rfl (fun _ member => member) calling.store rfl .idle

end Calls

/-! ## The system and the map -/

structure Simulates (c : ClientSystem) (a : MapState) : Prop where
  history : a.history = c.calls
  calling : CallsMatch c.system a.phases a.contents

section Systems

variable {c next : ClientSystem} {a : MapState} {t : Nat}

theorem idle_phase (calling : CallsMatch c.system a.phases a.contents)
    (here : c.system.threads t = .idle) : a.phases t = .idle := by
  have call := calling.calls t
  rw [here] at call
  generalize isPhase : a.phases t = phase at call
  cases call
  rfl

theorem begin_simulated (simulates : Simulates c a) {pc : Nat → ThreadPc} {puts : Nat → List Update}
    {op : ClientOp} {after : EngineSystem} (nothing : ∀ begun, (pc begun).span = none)
    (own : ∀ begun place, InCall c.system.engine (pc begun) (.waiting place op))
    (ran : c.system.begin t pc puts = some after) :
    ∃ b, ReflTransGen (AtomicStep blobObject) a b ∧
      Simulates { system := after, calls := c.calls ++ [.invoked t op] } b := by
  unfold EngineSystem.begin at ran
  split at ran
  · rename_i here
    cases ran
    have calling := simulates.calling
    refine ⟨_, .single (.invoke t op (idle_phase calling here)), ?_, ?_⟩
    · rw [simulates.history]
    · exact calling.calm rfl rfl rfl rfl (fun _ member => member) calling.store (nothing _) (own _ _)
  · contradiction

/-- The flush thread moves bytes that every reader finds before and after. -/
theorem flush_simulated (simulates : Simulates c a) {t2 t2After : T2} {step : FlushStep}
    (isStore : c.system.engine.t2Store = some t2) (succeeds : FlushSucceeds [step])
    (ran : t2.flushRun [step] = some t2After) :
    Simulates
      { c with system := { c.system with engine := { c.system.engine with t2Store := some t2After } } }
      a := by
  have calling := simulates.calling
  have keeps : Preserves (fun _ => True) c.system.engine
      { c.system.engine with t2Store := some t2After } := by
    refine preserves_same rfl rfl ?_
    rw [Engine.acked_of_store isStore]
    exact (T2.flush_run_later ran).acked
  refine ⟨simulates.history, ?_, calling.slots, ?_, ?_, calling.apart⟩
  · rintro _ ⟨⟩
    exact T2.flush_run_inv (calling.store t2 isStore) succeeds ran
  · exact held_keep calling.held keeps fun _ _ _ _ => trivial
  · intro u
    exact (calling.calls u).keep keeps fun _ _ _ => trivial

theorem contains_agrees_with_map (calling : CallsMatch c.system a.phases a.contents)
    (key : StorageKey) : c.system.engine.index.contains key = (a.contents key).isSome := by
  rw [ConcurrentHashMap.contains]
  rcases calling.held key with ⟨missing, absent⟩ | ⟨entry, blob, found, isBlob, _⟩
  · rw [missing, absent]
    rfl
  · rw [found, isBlob]
    rfl

theorem contains_simulated (simulates : Simulates c a) (here : c.system.threads t = .idle)
    (key : StorageKey) :
    ∃ b, ReflTransGen (AtomicStep blobObject) a b ∧
      Simulates
        { c with
          calls := c.calls ++ [.invoked t (.contains key),
            .returned t (.found (c.system.engine.index.contains key))] } b := by
  have calling := simulates.calling
  have idle := idle_phase calling here
  have right : BlobStep a.contents (.contains key)
      (.found (c.system.engine.index.contains key)) a.contents := by
    rw [contains_agrees_with_map calling]
    exact .contained key
  have invoked : AtomicStep blobObject a
      { a with
        history := a.history ++ [.invoked t (.contains key)]
        phases := Function.update a.phases t (.waiting a.history.length (.contains key)) } :=
    .invoke t (.contains key) idle
  refine ⟨_, ((ReflTransGen.single invoked).tail
    (.settle t (Function.update_self _ _ _) right)).tail
      (.respond t _ (Function.update_self _ _ _) right), ?_, ?_⟩
  · rw [simulates.history, List.append_assoc]
    rfl
  · change CallsMatch c.system _ a.contents
    simp only [Function.update_idem]
    rw [← idle, Function.update_eq_self]
    exact calling

theorem client_simulated (simulates : Simulates c a) {label : ClientLabel}
    (boundAfter : next.system.engine.AllBuffered) (allowed : keepsSlotsGuard c label)
    (moved : clientMachine.exec c label = some next) :
    ∃ b, ReflTransGen (AtomicStep blobObject) a b ∧ Simulates next b := by
  have bound := Engine.all_buffered_earlier (client_later moved) boundAfter
  cases label with
  | engine label =>
      simp only [clientMachine, ClientSystem.exec, Option.map_eq_some_iff] at moved
      obtain ⟨after, ran, rfl⟩ := moved
      cases label with
      | put t key blob opts createdAt lastAccess =>
          simp only [EngineSystem.exec] at ran
          refine begin_simulated simulates (fun _ => rfl) ?_ ran
          intro begun place
          exact .putBegun place { update := { key, begun }, blob, opts, createdAt, lastAccess }
      | get t key bufLen =>
          simp only [EngineSystem.exec] at ran
          exact begin_simulated simulates (fun _ => rfl) (fun _ place => .getFind place key bufLen) ran
      | del t key =>
          simp only [EngineSystem.exec] at ran
          refine begin_simulated simulates (fun _ => rfl) ?_ ran
          intro begun place
          exact .delFind place { key, begun }
      | step t io =>
          obtain ⟨b, steps, history, calling⟩ :=
            step_advances simulates.calling allowed.1 allowed.2 bound boundAfter ran
          rw [simulates.history] at history
          exact ⟨b, steps, history, calling⟩
      | flush step =>
          simp only [EngineSystem.exec] at ran
          split at ran
          · contradiction
          · rename_i t2 isStore
            rw [Option.map_eq_some_iff] at ran
            obtain ⟨t2After, flushed, rfl⟩ := ran
            refine ⟨a, .refl, ?_⟩
            have flushes := flush_simulated simulates isStore allowed flushed
            simpa only [EngineLabel.events, List.append_nil] using flushes
  | contains t key =>
      simp only [clientMachine, ClientSystem.exec] at moved
      split at moved
      · rename_i here
        cases moved
        exact contains_simulated simulates here key
      · contradiction

theorem start_simulated (initial : clientMachine.start c) (bound : c.system.engine.AllBuffered) :
    Simulates c (.start blobObject) := by
  obtain ⟨config, io, empty, opening, backed, isStart⟩ := initial
  have started : (sessionMachine emptyCheckpoint).start { engine := c.system.engine } :=
    ⟨config, io, empty, opening, backed, rfl⟩
  have coherent := (session_start_coherent started bound).1
  have index := (Engine.open_engine_opened opening).index
  rw [empty] at index
  rw [isStart]
  refine ⟨rfl, coherent.t2, ?_, ?_, fun _ => .idle, ?_⟩
  · intro allocator isAllocator
    exact ⟨coherent.t1.layout allocator isAllocator, coherent.t1.frees allocator isAllocator⟩
  · intro key
    left
    refine ⟨?_, rfl⟩
    change c.system.engine.index.find key = none
    rw [index]
    rfl
  · intro t put ptr copying
    cases copying

/-- In every run of any number of threads in which all I/O succeeds, no write
sleeps and no slot is freed, the calls are linearizable: they answer as if each
had happened at one moment between its invocation and its return. -/
theorem concurrent_calls_linearizable (reached : ReachWithin clientMachine keepsSlotsGuard c)
    (buffered : c.system.engine.AllBuffered) : Linearizable blobObject c.calls := by
  apply reach_linearizable ClientSystem.calls Simulates
    (fun c => c.system.engine.AllBuffered) _ _ _ _ reached buffered
  · intro concrete a simulates
    exact simulates.history
  · intro before label after moved bound
    exact Engine.all_buffered_earlier (client_later moved) bound
  · intro start initial bound
    exact start_simulated initial bound
  · intro before label after a bound simulates allowed moved
    exact client_simulated simulates bound allowed moved

end Systems

/-! ## A put, a get and a delete of one key at the same time -/

def nvmeConfig : Config where
  dramCache := { enabled := false }
  nvmeStore := singleBlockConfig

def nvmeEngine : Engine := { tieredEngine with config := nvmeConfig, t1Allocator := none }

def nvmeStart : ClientSystem := { system := { engine := nvmeEngine } }

theorem nvme_started : clientMachine.start nvmeStart := by
  refine ⟨nvmeConfig, slabOpenIo, rfl, rfl, ?_, rfl⟩
  rintro a ⟨⟩

def turn (t : Nat) : ClientLabel := .engine (.step t {})

def overlappingLabels : List ClientLabel :=
  [.engine (.put 0 probeKey [7] { entryType := .kSystemPrompt } 0 0), turn 0, turn 0, turn 0, turn 0,
    .engine (.get 1 probeKey 16), turn 0, turn 1, .engine (.del 2 probeKey), turn 2, turn 2, turn 2,
    .contains 3 probeKey, turn 1, turn 1, turn 0, turn 2, turn 1, turn 2]

def overlappingRun : ClientSystem := last clientMachine nvmeStart overlappingLabels

/-- A step without flush steps inside it whose reads succeed, or the begin of a call. -/
def calmLabel (_ : ClientSystem) : ClientLabel → Bool
  | .engine (.put ..) | .engine (.get ..) | .engine (.del ..) | .contains .. => true
  | .engine (.step _ io) =>
      io.write.before.isEmpty && io.write.segment.opened && io.write.naps.isEmpty &&
        io.first.beforePending.isEmpty && io.first.beforeLookup.isEmpty &&
        io.first.beforeDisk.isEmpty && io.first.readOk && io.second.beforePending.isEmpty &&
        io.second.beforeLookup.isEmpty && io.second.beforeDisk.isEmpty && io.second.readOk
  | .engine (.flush _) => false

/-- Without T1 such a step is allowed in every state. -/
theorem calm_label_allowed {c : ClientSystem} {label : ClientLabel}
    (noT1 : c.system.engine.t1Allocator = none) (calm : calmLabel c label = true) :
    keepsSlotsGuard c label := by
  have none_before : ∀ {steps : List FlushStep}, steps.isEmpty = true → FlushSucceeds steps := by
    intro steps empty
    rw [List.isEmpty_iff.1 empty]
    exact no_flush_succeeds
  cases label with
  | contains t key => trivial
  | engine label =>
      cases label with
      | put | get | del => trivial
      | flush step => cases calm
      | step t io =>
          simp only [calmLabel, Bool.and_eq_true] at calm
          obtain ⟨⟨⟨⟨⟨⟨⟨⟨⟨⟨before, opened⟩, naps⟩, pending⟩, lookup⟩, disk⟩, readOk⟩, pendingAgain⟩,
            lookupAgain⟩, diskAgain⟩, readOkAgain⟩ := calm
          refine ⟨⟨⟨none_before before, opened, ?_⟩, List.isEmpty_iff.1 naps, ⟨?_, ?_⟩, readOk,
            readOkAgain⟩, ?_⟩
          · intro nap member
            rw [List.isEmpty_iff.1 naps] at member
            cases member
          · exact ⟨none_before pending, none_before lookup, none_before disk⟩
          · exact ⟨none_before pendingAgain, none_before lookupAgain, none_before diskAgain⟩
          · intro enabled
            exact absurd noT1 enabled

/-- The delete overtakes the read of the get, which still returns the blob. -/
theorem concurrent_calls_linearizable_overtaken :
    overlappingRun.calls = [.invoked 0 (.put probeKey [7]), .invoked 1 (.get probeKey 16),
        .invoked 2 (.del probeKey), .invoked 3 (.contains probeKey), .returned 3 (.found false),
        .returned 0 (.status .kOk), .returned 1 (.reply { status := .kOk, bytes := [7] }),
        .returned 2 (.status .kOk)] ∧
      Linearizable blobObject overlappingRun.calls := by
  have reached : ReachWithin clientMachine keepsSlotsGuard overlappingRun := by
    apply ReachWithin.to_last (fun c => c.system.engine.t1Allocator = none) calmLabel
    · intro c label noT1 calm
      exact calm_label_allowed noT1 calm
    · intro c label after noT1 _ moved
      have same := (client_later moved).t1
      rw [noT1] at same
      exact Option.isNone_iff_eq_none.1 (Option.isSome_eq_false_iff.1 same)
    · exact .start nvme_started
    · rfl
    · decide +kernel
  have counted : overlappingRun.system.engine.t2Store.map (fun t2 =>
      (t2.store.nextSegmentId, t2.handed, blockCapacity t2.store.config)) =
        some (1, [1], 1048576) := by decide +kernel
  refine ⟨by decide +kernel, concurrent_calls_linearizable reached ?_⟩
  intro t2 isStore
  rw [isStore] at counted
  simp only [Option.map_some, Option.some.injEq, Prod.mk.injEq] at counted
  obtain ⟨segments, handed, capacity⟩ := counted
  refine { segments := by omega, small := by omega, fits := ?_ }
  rw [handed, capacity]
  decide

end AttentionDB
