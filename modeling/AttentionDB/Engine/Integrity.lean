import AttentionDB.Engine.Session

/-!
# What a T2 reply is checked against

A T2 `get` takes the length and the bytes of its reply from the entry header
that it finds, in a pending block or in the file. The length and the checksum
in the index are not looked at, so a reply agrees with them exactly when the
header and the bytes behind it do.
-/

namespace AttentionDB

open ByteMap BlobStore

set_option autoImplicit false

namespace BlobStore

/-- The entry header that the search of the pending blocks finds: a buffer and
a position in it. -/
def shownPending (s : BlobStore) (loc : BlobLocation) : Option (Image × Nat) :=
  (s.findInPendingBlocks loc).map fun b =>
    ((s.blocks b).buf, loc.offset - (s.blocks b).segmentOffset)

/-- The entry header that the read of the file finds, if it got enough bytes
and there is an entry. -/
def shownOnDisk (s : BlobStore) (path : SegmentPath) (loc : BlobLocation) (readOk : Bool) :
    Option (Image × Nat) :=
  let bytes := (s.files path).pread loc.offset loc.diskSize
  let ret := if readOk then toInt32 bytes.length else -1
  let image := patch (fun _ => 0) 0 bytes
  if ret < toInt32 loc.diskSize ∨ blobSizeAt image 0 = 0 then none else some (image, 0)

end BlobStore

/-- How an attempt to read ends: at an entry header, at no segment, or in front
of a file that holds no entry there, from which the first attempt tries again. -/
inductive Look where
  | entry (image : Image) (offset : Nat)
  | nowhere
  | again (t2 : T2)

namespace T2

def look (t2 : T2) (loc : BlobLocation) (io : T2ReadIo) : Look :=
  match t2.flushRun io.beforePending with
  | none => .nowhere
  | some t2 =>
      match t2.store.shownPending loc with
      | some (image, offset) => .entry image offset
      | none =>
          match t2.flushRun io.beforeLookup with
          | none => .nowhere
          | some t2 =>
              match t2.store.segmentFd loc.segmentId with
              | none => .nowhere
              | some path =>
                  match t2.flushRun io.beforeDisk with
                  | none => .nowhere
                  | some t2 =>
                      match t2.store.shownOnDisk path loc io.readOk with
                      | some (image, offset) => .entry image offset
                      | none => .again t2

/-- The entry header at which a read of two attempts ends. -/
def shown (t2 : T2) (loc : BlobLocation) (first second : T2ReadIo) : Option (Image × Nat) :=
  match t2.look loc first with
  | .entry image offset => some (image, offset)
  | .nowhere => none
  | .again t2 =>
      match t2.look loc second with
      | .entry image offset => some (image, offset)
      | _ => none

end T2

/-- A reply that is `kOk` exactly when there is a header whose blob fits the
buffer, and then has its bytes. -/
structure Answers (shown : Option (Image × Nat)) (bufLen : Nat) (reply : ReadReply) : Prop where
  found : ∀ image offset, shown = some (image, offset) → blobSizeAt image offset ≤ bufLen →
    reply.status = .kOk ∧ reply.bytes = blobAt image offset (blobSizeAt image offset)
  only : reply.status = .kOk → ∃ image offset, shown = some (image, offset) ∧
    blobSizeAt image offset ≤ bufLen

theorem Answers.nothing {bufLen : Nat} {reply : ReadReply} (bad : reply.status ≠ .kOk) :
    Answers none bufLen reply where
  found _ _ same := by cases same
  only ok := absurd ok bad

theorem Answers.too_small {image : Image} {offset bufLen : Nat}
    (short : bufLen < blobSizeAt image offset) :
    Answers (some (image, offset)) bufLen { status := .kBufferTooSmall } where
  found _ _ same fits := by
    cases same
    omega
  only ok := by cases ok

theorem Answers.whole {image : Image} {offset bufLen : Nat}
    (fits : ¬ bufLen < blobSizeAt image offset) :
    Answers (some (image, offset)) bufLen
      { status := .kOk, bytes := blobAt image offset (blobSizeAt image offset) } where
  found _ _ same _ := by
    cases same
    exact ⟨rfl, rfl⟩
  only _ := ⟨image, offset, rfl, Nat.le_of_not_lt fits⟩

namespace BlobStore

variable (s : BlobStore) (loc : BlobLocation) (bufLen attempt : Nat)

theorem read_pending_shown :
    match s.readPending loc bufLen with
    | some reply => ∃ place, s.shownPending loc = some place ∧ Answers (some place) bufLen reply
    | none => s.shownPending loc = none := by
  unfold readPending shownPending
  cases found : s.findInPendingBlocks loc with
  | none => rfl
  | some b =>
      dsimp only [Option.map_some]
      split_ifs with short
      · exact ⟨_, rfl, .too_small short⟩
      · exact ⟨_, rfl, .whole short⟩

theorem read_disk_shown (path : SegmentPath) (readOk : Bool) :
    match s.readDisk path loc bufLen attempt readOk with
    | some reply =>
        Answers (s.shownOnDisk path loc readOk) bufLen reply ∧
          (s.shownOnDisk path loc readOk = none → attempt ≠ 0)
    | none => attempt = 0 ∧ s.shownOnDisk path loc readOk = none := by
  unfold readDisk shownOnDisk
  dsimp only
  generalize (if readOk = true then
    toInt32 ((s.files path).pread loc.offset loc.diskSize).length else -1) = ret
  generalize patch (fun _ => 0) 0 ((s.files path).pread loc.offset loc.diskSize) = image
  by_cases missing : ret < toInt32 loc.diskSize
  · have nothing : ret < toInt32 loc.diskSize ∨ blobSizeAt image 0 = 0 := .inl missing
    rw [if_pos missing, if_pos nothing]
    by_cases first : attempt = 0
    · rw [if_pos first]
      exact ⟨first, rfl⟩
    · rw [if_neg first]
      exact ⟨.nothing (by simp), fun _ => first⟩
  · rw [if_neg missing]
    by_cases empty : blobSizeAt image 0 = 0
    · have nothing : ret < toInt32 loc.diskSize ∨ blobSizeAt image 0 = 0 := .inr empty
      have unfit : blobSizeAt image 0 = 0 ∨ bufLen < blobSizeAt image 0 := .inl empty
      have roomy : ¬ bufLen < blobSizeAt image 0 := by omega
      rw [if_pos nothing, if_pos unfit]
      by_cases first : attempt = 0
      · have again : blobSizeAt image 0 = 0 ∧ attempt = 0 := ⟨empty, first⟩
        rw [if_pos again]
        exact ⟨first, rfl⟩
      · have last : ¬ (blobSizeAt image 0 = 0 ∧ attempt = 0) := fun both => first both.2
        rw [if_neg last, if_neg roomy]
        exact ⟨.nothing (by simp), fun _ => first⟩
    · have there : ¬ (ret < toInt32 loc.diskSize ∨ blobSizeAt image 0 = 0) := by
        simp [missing, empty]
      have settled : ¬ (blobSizeAt image 0 = 0 ∧ attempt = 0) := fun both => empty both.1
      rw [if_neg there]
      by_cases short : bufLen < blobSizeAt image 0
      · have unfit : blobSizeAt image 0 = 0 ∨ bufLen < blobSizeAt image 0 := .inr short
        rw [if_pos unfit, if_neg settled, if_pos short]
        exact ⟨.too_small short, fun none => by cases none⟩
      · have fits : ¬ (blobSizeAt image 0 = 0 ∨ bufLen < blobSizeAt image 0) := by
          simp [empty, short]
        rw [if_neg fits]
        exact ⟨.whole short, fun none => by cases none⟩

end BlobStore

namespace T2

variable {t2 after : T2} {loc : BlobLocation} {bufLen attempt : Nat}

/-- What one attempt returns, by how its look ends. -/
inductive Attempted (t2 : T2) (loc : BlobLocation) (bufLen attempt : Nat) (io : T2ReadIo)
    (after : T2) : Option ReadReply → Prop where
  | entry (image : Image) (offset : Nat) (reply : ReadReply)
      (ends : t2.look loc io = .entry image offset)
      (answers : Answers (some (image, offset)) bufLen reply) :
      Attempted t2 loc bufLen attempt io after (some reply)
  | nowhere (reply : ReadReply) (ends : t2.look loc io = .nowhere) (bad : reply.status ≠ .kOk) :
      Attempted t2 loc bufLen attempt io after (some reply)
  | last (reply : ReadReply) (ends : t2.look loc io = .again after) (second : attempt ≠ 0)
      (bad : reply.status ≠ .kOk) : Attempted t2 loc bufLen attempt io after (some reply)
  | again (ends : t2.look loc io = .again after) : Attempted t2 loc bufLen attempt io after none

theorem read_attempt_cases {io : T2ReadIo} {result : Option ReadReply}
    (ran : t2.readAttempt loc bufLen attempt io = some (result, after)) :
    Attempted t2 loc bufLen attempt io after result := by
  have ends : t2.look loc io = t2.look loc io := rfl
  conv at ends => rhs; unfold look
  unfold readAttempt at ran
  cases flushed : t2.flushRun io.beforePending with
  | none =>
      rw [flushed] at ran
      cases ran
  | some looking =>
      rw [flushed] at ran ends
      dsimp only at ran ends
      have pending := read_pending_shown looking.store loc bufLen
      cases found : looking.store.readPending loc bufLen with
      | some reply =>
          rw [found] at ran pending
          cases ran
          rcases pending with ⟨⟨image, offset⟩, shown, answers⟩
          rw [shown] at ends
          exact .entry image offset reply ends answers
      | none =>
          rw [found] at ran pending
          dsimp only at ran pending
          rw [pending] at ends
          dsimp only at ends
          cases flushedAgain : looking.flushRun io.beforeLookup with
          | none =>
              rw [flushedAgain] at ran
              cases ran
          | some seeking =>
              rw [flushedAgain] at ran ends
              dsimp only at ran ends
              cases fd : seeking.store.segmentFd loc.segmentId with
              | none =>
                  rw [fd] at ran ends
                  cases ran
                  exact .nowhere _ ends (by simp)
              | some path =>
                  rw [fd] at ran ends
                  dsimp only at ran ends
                  cases flushedLast : seeking.flushRun io.beforeDisk with
                  | none =>
                      rw [flushedLast] at ran
                      cases ran
                  | some reading =>
                      rw [flushedLast] at ran ends
                      dsimp only at ran ends
                      rw [Option.some.injEq, Prod.mk.injEq] at ran
                      rcases ran with ⟨same, rfl⟩
                      have disk := read_disk_shown reading.store loc bufLen attempt path io.readOk
                      rw [same] at disk
                      cases shown : reading.store.shownOnDisk path loc io.readOk with
                      | none =>
                          rw [shown] at disk ends
                          cases result with
                          | none => exact .again ends
                          | some reply =>
                              refine .last reply ends (disk.2 rfl) fun ok => ?_
                              rcases disk.1.only ok with ⟨_, _, there, _⟩
                              cases there
                      | some place =>
                          rw [shown] at disk ends
                          cases result with
                          | none => cases disk.2
                          | some reply => exact .entry place.1 place.2 reply ends disk.1

/-- A read answers from the header at which it ends. -/
theorem read_shown {first second : T2ReadIo} {reply : ReadReply}
    (ran : t2.read loc bufLen first second = some (reply, after)) :
    Answers (t2.shown loc first second) bufLen reply := by
  unfold read at ran
  unfold shown
  cases tried : t2.readAttempt loc bufLen 0 first with
  | none =>
      rw [tried] at ran
      cases ran
  | some result =>
      rcases result with ⟨result, middle⟩
      rw [tried] at ran
      cases read_attempt_cases tried with
      | entry image offset reply ends answers =>
          cases ran
          rw [ends]
          exact answers
      | nowhere reply ends bad =>
          cases ran
          rw [ends]
          exact .nothing bad
      | last reply ends second bad => exact absurd rfl second
      | again ends =>
          rw [ends]
          dsimp only at ran ⊢
          cases triedAgain : middle.readAttempt loc bufLen 1 second with
          | none =>
              rw [triedAgain] at ran
              cases ran
          | some result =>
              rcases result with ⟨result, final⟩
              rw [triedAgain] at ran
              cases read_attempt_cases triedAgain with
              | entry image offset reply ends answers =>
                  cases ran
                  rw [ends]
                  exact answers
              | nowhere reply ends bad =>
                  cases ran
                  rw [ends]
                  exact .nothing bad
              | last reply ends _ bad =>
                  cases ran
                  rw [ends]
                  exact .nothing bad
              | again ends =>
                  cases ran
                  rw [ends]
                  exact .nothing (by simp)

end T2

/-! ## Length and checksum of a reply -/

namespace Engine

def Checked (entry : IndexEntry) (reply : ReadReply) : Prop :=
  reply.status = .kOk →
    reply.bytes.length = entry.length.toNat ∧ computeCrc32 reply.bytes = entry.checksum

/-- The header and the bytes behind it agree with the entry in the index. -/
def Intact (entry : IndexEntry) (image : Image) (offset : Nat) : Prop :=
  blobSizeAt image offset = entry.length.toNat ∧
    computeCrc32 (blobAt image offset entry.length.toNat) = entry.checksum

/-- What a T2 `get` returns agrees with the index exactly when the header that
its read ends at does, or is too large for the buffer. -/
theorem t2_get_checked_iff (e : Engine) (key : StorageKey) (bufLen : Nat) (io : GetIo)
    (entry : IndexEntry) (t2 : T2) (found : e.index.find key = some entry)
    (inT2 : entry.tier = kT2Nvme) (isStore : e.t2Store = some t2) (reply : ReadReply)
    (after : Engine) (got : e.get key bufLen io = some (reply, after)) :
    Checked entry reply ↔
      ∀ image offset, t2.shown (entryLocation entry) io.first io.second = some (image, offset) →
        blobSizeAt image offset ≤ bufLen → Intact entry image offset := by
  rcases get_t2 found inT2 isStore got with ⟨t2After, ran⟩
  have answers := T2.read_shown ran
  constructor
  · intro checked image offset shown fits
    rcases answers.found image offset shown fits with ⟨ok, bytes⟩
    rcases checked ok with ⟨length, checksum⟩
    rw [bytes] at length checksum
    have size : blobSizeAt image offset = entry.length.toNat := by
      simpa [blobAt] using length
    rw [size] at checksum
    exact ⟨size, checksum⟩
  · intro intact ok
    rcases answers.only ok with ⟨image, offset, shown, fits⟩
    rcases answers.found image offset shown fits with ⟨_, bytes⟩
    rcases intact image offset shown fits with ⟨size, checksum⟩
    rw [bytes, size]
    exact ⟨by simp [blobAt], checksum⟩

end Engine

/-! ## A segment file with a flipped byte -/

def threeByteHeader : BlobEntryHeader where
  blobSize := 3
  paddedSize := 4096
  checksum := (computeCrc32 [1, 2, 3]).toNat
  sequence := 0
  key := probeKey

def oneEntryFile (blob : List UInt8) : File :=
  (File.empty.pwrite 0
    (SegmentHeader.encode { segmentId := 0, createdAt := 0, entryCount := 0, liveCount := 0 })).pwrite
    4096 (slice (layEntry (fun _ => 0) 0 threeByteHeader blob 4096) 0 4096)

def threeByteEntry : IndexEntry :=
  { IndexEntry.zero with
    tier := kT2Nvme, address := 4096, length := 3, checksum := computeCrc32 [1, 2, 3] }

def reopenedIo (blob : List UInt8) : Engine.OpenIo :=
  { slabOpenIo with
    files := fun path => if path = .canonical 0 then oneEntryFile blob else File.empty
    store := { listing := some [{ path := .canonical 0 }] }
    checkpoint := some [(probeKey, threeByteEntry)] }

def reopenedEngine (blob : List UInt8) : Engine :=
  (Engine.openEngine tieredConfig (reopenedIo blob)).getD tieredEngine

/-- A byte of the blob was flipped on disk; `get` returns it as it is. -/
theorem damaged_blob_returned :
    (Engine.openEngine tieredConfig (reopenedIo [1, 2, 4])).isSome = true ∧
    ((reopenedEngine [1, 2, 4]).index.find probeKey).map (·.tier) = some kT2Nvme ∧
    ((reopenedEngine [1, 2, 4]).get probeKey 3 {}).map Prod.fst =
      some { status := .kOk, bytes := [1, 2, 4] } ∧
    ((reopenedEngine [1, 2, 4]).index.find probeKey).map (·.checksum) ≠
      some (computeCrc32 [1, 2, 4]) := by
  decide +kernel

/-- On the file as it was written the reply agrees with the index. -/
theorem t2_get_checked_iff_undamaged :
    ∃ reply after, (reopenedEngine [1, 2, 3]).get probeKey 3 {} = some (reply, after) ∧
      reply.status = .kOk ∧ Engine.Checked threeByteEntry reply := by
  have ran : ((reopenedEngine [1, 2, 3]).get probeKey 3 {}).map Prod.fst =
      some { status := .kOk, bytes := [1, 2, 3] } := by
    decide +kernel
  have found : (reopenedEngine [1, 2, 3]).index.find probeKey = some threeByteEntry := by
    decide +kernel
  rcases Option.map_eq_some_iff.1 ran with ⟨⟨reply, after⟩, got, rfl⟩
  cases isStore : (reopenedEngine [1, 2, 3]).t2Store with
  | none =>
      have some : (reopenedEngine [1, 2, 3]).t2Store.isSome = true := by decide +kernel
      rw [isStore] at some
      cases some
  | some t2 =>
      refine ⟨_, after, got, rfl, (Engine.t2_get_checked_iff _ probeKey 3 {} threeByteEntry t2 found
        rfl isStore _ after got).2 ?_⟩
      have ends : (((reopenedEngine [1, 2, 3]).t2Store.bind fun t2 =>
          t2.shown (Engine.entryLocation threeByteEntry) {} {}).map fun place =>
            (blobSizeAt place.1 place.2, blobAt place.1 place.2 3)) = some (3, [1, 2, 3]) := by
        decide +kernel
      rw [isStore, Option.bind_some] at ends
      intro image offset shown _
      change t2.shown (Engine.entryLocation threeByteEntry) {} {} = _ at shown
      rw [shown, Option.map_some, Option.some.injEq, Prod.mk.injEq] at ends
      exact ⟨ends.1, congrArg computeCrc32 ends.2⟩

end AttentionDB
