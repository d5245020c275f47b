import AttentionDB.Storage.SegmentScan
import AttentionDB.Lib.Loops
import Mathlib.Data.UInt

/-!
# The transfer loops of the I/O engines

`sync_read` and `sync_write` call the system until everything was transferred,
an error came that is not an interrupt, or, for a read, the file ended. How the
system answers each call is up to it, within what `pread` and `pwrite` promise.
However it splits the transfer, the parts make up one run of bytes, and the
outcome is one of those that the store is modelled with.
-/

namespace AttentionDB

open ByteMap Loops

set_option autoImplicit false

/-! ## System calls -/

/-- What a call returns: a count, or -1 and an `errno`. -/
inductive CallAnswer where
  | count (n : Nat)
  | error (errno : Nat)
  deriving DecidableEq, Repr

def kEintr : Nat := 4

/-- The answers of a system: to each call, by its number, its offset and the
bytes it asks for. Each is an answer that the call may give, and the
interrupts end at some call. -/
structure SystemCalls (Allowed : Int64 → Nat → CallAnswer → Prop) where
  answer : Nat → Int64 → Nat → CallAnswer
  allowed : ∀ call offset count, 0 < count → Allowed offset count (answer call offset count)
  interruptsEnd : ∃ bound, ∀ call offset count, bound ≤ call →
    answer call offset count ≠ .error kEintr

/-- `pread` gives bytes of the file, and none only at its end. It takes no
negative offset. -/
def ReadAnswer (file : File) (offset : Int64) (count : Nat) : CallAnswer → Prop
  | .count n =>
      0 ≤ offset.toInt ∧ n ≤ count ∧ n ≤ file.size - offset.toInt.toNat ∧
        (n = 0 → file.size ≤ offset.toInt.toNat)
  | .error errno => 0 < errno

def WriteAnswer (offset : Int64) (count : Nat) : CallAnswer → Prop
  | .count n => 0 ≤ offset.toInt ∧ 0 < n ∧ n ≤ count
  | .error errno => 0 < errno

/-! ## The loops -/

/-- A loop between two calls: `total`, the buffer or the file that it fills, and
the answers so far. -/
structure Transfer (Memory : Type) where
  memory : Memory
  total : Nat := 0
  answers : List CallAnswer := []

namespace Transfer

variable {Memory : Type}

def answered (t : Transfer Memory) (answer : CallAnswer) : Transfer Memory :=
  { t with answers := t.answers ++ [answer] }

def advanced (t : Transfer Memory) (n : Nat) (memory : Memory) : Transfer Memory :=
  { t with total := t.total + n, memory }

end Transfer

section Bodies

variable (callOffset : Nat → Int64) (answer : Nat → Int64 → Nat → CallAnswer)

def readBody (file : File) (len : Nat) (t : Transfer Image) :
    (Int × Transfer Image) ⊕ Transfer Image :=
  if t.total < len then
    let offset := callOffset t.total
    let n := answer t.answers.length offset (len - t.total)
    let t := t.answered n
    match n with
    | .error errno => if errno = kEintr then .inr t else .inl (-(errno : Int), t)
    | .count n =>
        if n = 0 then .inl (toInt32 t.total, t)
        else .inr (t.advanced n (patch t.memory t.total (slice file.data offset.toInt.toNat n)))
  else .inl (toInt32 t.total, t)

/-- One round of `sync_write`; there is no branch for a count of 0. -/
def writeBody (buf : Image) (len : Nat) (t : Transfer File) : (Int × Transfer File) ⊕ Transfer File :=
  if t.total < len then
    let offset := callOffset t.total
    let n := answer t.answers.length offset (len - t.total)
    let t := t.answered n
    match n with
    | .error errno => if errno = kEintr then .inr t else .inl (-(errno : Int), t)
    | .count n => .inr (t.advanced n (t.memory.pwrite offset.toInt.toNat (slice buf t.total n)))
  else .inl (toInt32 t.total, t)

end Bodies

def sizeOffset (offset : Int64) (total : Nat) : Int64 := (offset.toUInt64 + UInt64.ofNat total).toInt64

def signedOffset (offset : Int64) (total : Nat) : Int64 := offset + (UInt64.ofNat total).toInt64

namespace PosixEngine

def syncRead (answer : Nat → Int64 → Nat → CallAnswer) (file : File) (buf : Image) (len : Nat)
    (offset : Int64) (fuel : Nat) : Option (Int × Transfer Image) :=
  run (readBody (sizeOffset offset) answer file len) fuel { memory := buf }

def syncWrite (answer : Nat → Int64 → Nat → CallAnswer) (file : File) (buf : Image) (len : Nat)
    (offset : Int64) (fuel : Nat) : Option (Int × Transfer File) :=
  run (writeBody (sizeOffset offset) answer buf len) fuel { memory := file }

end PosixEngine

namespace UringEngine

/-- The offset of a call: the builds for Linux and for other systems differ in
the conversion. -/
def callOffset (onLinux : Bool) : Int64 → Nat → Int64 := if onLinux then sizeOffset else signedOffset

def syncRead (onLinux : Bool) (answer : Nat → Int64 → Nat → CallAnswer) (file : File) (buf : Image)
    (len : Nat) (offset : Int64) (fuel : Nat) : Option (Int × Transfer Image) :=
  run (readBody (callOffset onLinux offset) answer file len) fuel { memory := buf }

def syncWrite (onLinux : Bool) (answer : Nat → Int64 → Nat → CallAnswer) (file : File) (buf : Image)
    (len : Nat) (offset : Int64) (fuel : Nat) : Option (Int × Transfer File) :=
  run (writeBody (callOffset onLinux offset) answer buf len) fuel { memory := file }

end UringEngine

/-! ## Outcomes -/

def NoError (answers : List CallAnswer) : Prop :=
  ∀ answer ∈ answers, ∀ errno, answer = .error errno → errno = kEintr

/-- The call that was answered last is the first with an error other than an interrupt. -/
def FirstError (answers : List CallAnswer) (errno : Nat) : Prop :=
  ∃ before, answers = before ++ [.error errno] ∧ NoError before ∧ errno ≠ kEintr

/-- The negated `errno` of the first error; or a count of bytes that were copied
from the file, short only at its end. -/
def ReadOutcome (file : File) (offset : Int64) (len : Nat) (buf : Image)
    (outcome : Int × Transfer Image) : Prop :=
  (∃ errno : Nat, FirstError outcome.2.answers errno ∧ outcome.1 = -(errno : Int)) ∨
    (NoError outcome.2.answers ∧ ∃ n : Nat, n ≤ len ∧ outcome.1 = n ∧
      slice outcome.2.memory 0 n = slice file.data offset.toInt.toNat n ∧
      (∀ i, n ≤ i → outcome.2.memory i = buf i) ∧
      (n < len → file.size ≤ offset.toInt.toNat + n))

/-- The negated `errno` of the first error; or the whole length, with the bytes
in the file and every other byte of it as before. -/
def WriteOutcome (file : File) (offset : Int64) (len : Nat) (buf : Image)
    (outcome : Int × Transfer File) : Prop :=
  (∃ errno : Nat, FirstError outcome.2.answers errno ∧ outcome.1 = -(errno : Int)) ∨
    (NoError outcome.2.answers ∧ outcome.1 = len ∧
      slice outcome.2.memory.data offset.toInt.toNat len = slice buf 0 len ∧
      ∀ i, i < offset.toInt.toNat ∨ offset.toInt.toNat + len ≤ i →
        outcome.2.memory.data i = file.data i)

/-! ## Offsets -/

theorem offsets_agree (offset : Int64) (total : Nat) :
    signedOffset offset total = sizeOffset offset total := rfl

/-- An offset that a call can use has not wrapped. -/
theorem size_offset_value {offset : Int64} {total : Nat} (small : total < 2 ^ 31)
    (start : 0 ≤ (sizeOffset offset total).toInt) :
    (sizeOffset offset total).toInt = offset.toInt + total := by
  have sum : (sizeOffset offset total).toInt =
      (offset.toInt + (UInt64.ofNat total).toInt64.toInt).bmod (2 ^ 64) := by
    rw [← offsets_agree]
    exact Int64.toInt_add _ _
  have word : (UInt64.ofNat total).toInt64.toInt = total := by
    have same : (UInt64.ofNat total).toInt64 = Int64.ofNat total := rfl
    rw [same, Int64.toInt_ofNat_of_lt (by omega)]
  have low := Int64.le_toInt offset
  have high := Int64.toInt_lt offset
  rw [sum, word, Int.bmod_def] at start ⊢
  split at start <;> omega

theorem size_offset_position {offset : Int64} {total : Nat} (small : total < 2 ^ 31)
    (start : 0 ≤ (sizeOffset offset total).toInt) (front : total = 0 ∨ 0 ≤ offset.toInt) :
    0 ≤ offset.toInt ∧ (sizeOffset offset total).toInt.toNat = offset.toInt.toNat + total := by
  have value := size_offset_value small start
  rcases front with zero | nonneg
  · subst zero
    omega
  · omega

/-! ## Answers -/

theorem no_error_interrupted {answers : List CallAnswer} (clean : NoError answers) :
    NoError (answers ++ [.error kEintr]) := by
  intro answer member errno isError
  rcases List.mem_append.1 member with old | last
  · exact clean answer old errno isError
  · cases (List.mem_singleton.1 last).symm.trans isError
    rfl

theorem no_error_counted {answers : List CallAnswer} (clean : NoError answers) (n : Nat) :
    NoError (answers ++ [.count n]) := by
  intro answer member errno isError
  rcases List.mem_append.1 member with old | last
  · exact clean answer old errno isError
  · cases (List.mem_singleton.1 last).symm.trans isError

/-- What is left of a transfer, with the interrupts that may still come. -/
def remaining {Memory : Type} (len bound : Nat) (t : Transfer Memory) : Nat :=
  (len - t.total) + (bound - t.answers.length)

section Remaining

variable {Memory : Type} {t : Transfer Memory} {len bound : Nat}

/-- An interrupt uses up one of those that may still come. -/
theorem interrupt_lowers (heard : bound ≤ t.answers.length → CallAnswer.error kEintr ≠ .error kEintr) :
    remaining len bound (t.answered (.error kEintr)) < remaining len bound t := by
  have early : t.answers.length < bound := by
    by_contra late
    exact heard (Nat.le_of_not_lt late) rfl
  simp only [remaining, Transfer.answered, List.length_append, List.length_singleton]
  omega

theorem count_lowers {n : Nat} (positive : 0 < n) (fits : n ≤ len - t.total) (memory : Memory) :
    remaining len bound ((t.answered (.count n)).advanced n memory) < remaining len bound t := by
  simp only [remaining, Transfer.answered, Transfer.advanced, List.length_append,
    List.length_singleton]
  omega

end Remaining

/-! ## Reading -/

section Reading

variable {file : File} {offset : Int64} {len : Nat} {buf : Image} {t : Transfer Image}

structure Received (file : File) (offset : Int64) (len : Nat) (buf : Image) (t : Transfer Image) :
    Prop where
  within : t.total ≤ len
  available : t.total ≤ file.size - offset.toInt.toNat
  memory : t.memory = patch buf 0 (slice file.data offset.toInt.toNat t.total)
  started : t.total = 0 ∨ 0 ≤ offset.toInt

theorem Received.advanced (received : Received file offset len buf t) (short : len < 2 ^ 31) {n : Nat}
    (start : 0 ≤ (sizeOffset offset t.total).toInt) (fits : n ≤ len - t.total)
    (available : n ≤ file.size - (sizeOffset offset t.total).toInt.toNat) :
    Received file offset len buf (t.advanced n (patch t.memory t.total
      (slice file.data (sizeOffset offset t.total).toInt.toNat n))) := by
  have within := received.within
  have before := received.available
  rcases size_offset_position (by omega) start received.started with ⟨nonneg, position⟩
  refine { within := ?_, available := ?_, memory := ?_, started := .inr nonneg }
  · change t.total + n ≤ len
    omega
  · change t.total + n ≤ file.size - offset.toInt.toNat
    omega
  · have next := patch_append buf 0 (slice file.data offset.toInt.toNat t.total)
      (slice file.data (offset.toInt.toNat + t.total) n)
    rw [slice_length, Nat.zero_add, ← received.memory, ← slice_append] at next
    rw [position]
    exact next

def ReadEnds (file : File) (offset : Int64) (len : Nat) (buf : Image)
    (outcome : Int × Transfer Image) : Prop :=
  Received file offset len buf outcome.2 ∧
    ((∃ errno : Nat, 0 < errno ∧ FirstError outcome.2.answers errno ∧ outcome.1 = -(errno : Int)) ∨
      (NoError outcome.2.answers ∧ outcome.1 = outcome.2.total ∧
        (outcome.2.total < len → file.size ≤ offset.toInt.toNat + outcome.2.total)))

theorem read_round (calls : SystemCalls (ReadAnswer file)) (short : len < 2 ^ 31) {bound : Nat}
    (quiet : ∀ call offset count, bound ≤ call → calls.answer call offset count ≠ .error kEintr)
    (t : Transfer Image) (inv : Received file offset len buf t ∧ NoError t.answers) :
    (readBody (sizeOffset offset) calls.answer file len t).elim (ReadEnds file offset len buf)
      fun next => (Received file offset len buf next ∧ NoError next.answers) ∧
        remaining len bound next < remaining len bound t := by
  rcases inv with ⟨received, clean⟩
  have within := received.within
  unfold readBody
  by_cases more : t.total < len
  · rw [if_pos more]
    dsimp only
    have allowed := calls.allowed t.answers.length (sizeOffset offset t.total) (len - t.total) (by omega)
    have heard := quiet t.answers.length (sizeOffset offset t.total) (len - t.total)
    generalize calls.answer t.answers.length (sizeOffset offset t.total) (len - t.total) = answer
      at allowed heard ⊢
    have same : Received file offset len buf (t.answered answer) :=
      { within, available := received.available, memory := received.memory, started := received.started }
    cases answer with
    | error errno =>
        by_cases interrupted : errno = kEintr
        · subst interrupted
          simp only [if_true, Sum.elim_inr]
          exact ⟨⟨same, no_error_interrupted clean⟩, interrupt_lowers heard⟩
        · simp only [interrupted, if_false, Sum.elim_inl]
          exact ⟨same, .inl ⟨errno, allowed, ⟨t.answers, rfl, clean, interrupted⟩, rfl⟩⟩
    | count n =>
        rcases allowed with ⟨start, fits, available, atEnd⟩
        by_cases zero : n = 0
        · simp only [zero, if_true, Sum.elim_inl]
          have position := (size_offset_position (by omega) start received.started).2
          refine ⟨zero ▸ same, .inr ⟨no_error_counted clean 0, ?_, ?_⟩⟩
          · exact BlobStore.to_int32_small t.total (by omega)
          · intro _
            have size := atEnd zero
            rw [position] at size
            exact size
        · simp only [zero, if_false, Sum.elim_inr]
          exact ⟨⟨same.advanced short start fits available, no_error_counted clean n⟩,
            count_lowers (Nat.pos_of_ne_zero zero) fits _⟩
  · rw [if_neg more]
    refine ⟨received, .inr ⟨clean, BlobStore.to_int32_small t.total (by omega), ?_⟩⟩
    intro less
    exact absurd less more

theorem sync_read_returns (calls : SystemCalls (ReadAnswer file)) (offset : Int64) (short : len < 2 ^ 31)
    (buf : Image) :
    Returns (PosixEngine.syncRead calls.answer file buf len offset) (ReadEnds file offset len buf) := by
  rcases calls.interruptsEnd with ⟨bound, quiet⟩
  apply returns_of_round (fun t => Received file offset len buf t ∧ NoError t.answers)
    (remaining len bound) (read_round calls short quiet)
  refine ⟨?_, ?_⟩
  · exact
      { within := Nat.zero_le _
        available := Nat.zero_le _
        memory := (patch_nil buf 0).symm
        started := .inl rfl }
  · intro answer member
    contradiction

theorem ReadEnds.outcome {outcome : Int × Transfer Image} (ends : ReadEnds file offset len buf outcome) :
    ReadOutcome file offset len buf outcome := by
  rcases ends with ⟨received, ⟨errno, _, first, value⟩ | ⟨clean, value, atEnd⟩⟩
  · exact .inl ⟨errno, first, value⟩
  · refine .inr ⟨clean, outcome.2.total, received.within, value, ?_, ?_, atEnd⟩
    · have copied := slice_patch_same buf 0 (slice file.data offset.toInt.toNat outcome.2.total)
      rwa [slice_length, ← received.memory] at copied
    · intro i beyond
      rw [received.memory]
      exact patch_outside _ _ _ _ (.inr (by rw [slice_length]; omega))

end Reading

/-! ## Writing -/

section Writing

variable {file : File} {offset : Int64} {len : Nat} {buf : Image} {t : Transfer File}

/-- The first `total` bytes were written to the file; without any, no call has
touched it. -/
structure Sent (file : File) (offset : Int64) (len : Nat) (buf : Image) (t : Transfer File) : Prop where
  within : t.total ≤ len
  memory : t.memory =
    if t.total = 0 then file else file.pwrite offset.toInt.toNat (slice buf 0 t.total)
  started : t.total = 0 ∨ 0 ≤ offset.toInt

theorem pwrite_append (file : File) (start : Nat) (front back : List UInt8) :
    (file.pwrite start front).pwrite (start + front.length) back = file.pwrite start (front ++ back) := by
  simp only [File.pwrite, patch_append, List.length_append]
  congr 1
  omega

theorem Sent.advanced (sent : Sent file offset len buf t) (short : len < 2 ^ 31) {n : Nat}
    (positive : 0 < n) (fits : n ≤ len - t.total) (start : 0 ≤ (sizeOffset offset t.total).toInt) :
    Sent file offset len buf (t.advanced n
      (t.memory.pwrite (sizeOffset offset t.total).toInt.toNat (slice buf t.total n))) := by
  have within := sent.within
  rcases size_offset_position (by omega) start sent.started with ⟨nonneg, position⟩
  refine { within := ?_, memory := ?_, started := .inr nonneg }
  · change t.total + n ≤ len
    omega
  · change t.memory.pwrite (sizeOffset offset t.total).toInt.toNat (slice buf t.total n) =
      if t.total + n = 0 then file else file.pwrite offset.toInt.toNat (slice buf 0 (t.total + n))
    rw [if_neg (by omega), sent.memory, position]
    by_cases first : t.total = 0
    · simp [first]
    · have next := pwrite_append file offset.toInt.toNat (slice buf 0 t.total) (slice buf t.total n)
      rw [slice_length] at next
      rw [if_neg first, next, slice_append, Nat.zero_add]

def WriteEnds (file : File) (offset : Int64) (len : Nat) (buf : Image)
    (outcome : Int × Transfer File) : Prop :=
  Sent file offset len buf outcome.2 ∧
    ((∃ errno : Nat, 0 < errno ∧ FirstError outcome.2.answers errno ∧ outcome.1 = -(errno : Int)) ∨
      (NoError outcome.2.answers ∧ outcome.1 = len ∧ outcome.2.total = len))

theorem write_round (calls : SystemCalls WriteAnswer) (short : len < 2 ^ 31) {bound : Nat}
    (quiet : ∀ call offset count, bound ≤ call → calls.answer call offset count ≠ .error kEintr)
    (t : Transfer File) (inv : Sent file offset len buf t ∧ NoError t.answers) :
    (writeBody (sizeOffset offset) calls.answer buf len t).elim (WriteEnds file offset len buf)
      fun next => (Sent file offset len buf next ∧ NoError next.answers) ∧
        remaining len bound next < remaining len bound t := by
  rcases inv with ⟨sent, clean⟩
  have within := sent.within
  unfold writeBody
  by_cases more : t.total < len
  · rw [if_pos more]
    dsimp only
    have allowed := calls.allowed t.answers.length (sizeOffset offset t.total) (len - t.total) (by omega)
    have heard := quiet t.answers.length (sizeOffset offset t.total) (len - t.total)
    generalize calls.answer t.answers.length (sizeOffset offset t.total) (len - t.total) = answer
      at allowed heard ⊢
    have same : Sent file offset len buf (t.answered answer) :=
      { within, memory := sent.memory, started := sent.started }
    cases answer with
    | error errno =>
        by_cases interrupted : errno = kEintr
        · subst interrupted
          simp only [if_true, Sum.elim_inr]
          exact ⟨⟨same, no_error_interrupted clean⟩, interrupt_lowers heard⟩
        · simp only [interrupted, if_false, Sum.elim_inl]
          exact ⟨same, .inl ⟨errno, allowed, ⟨t.answers, rfl, clean, interrupted⟩, rfl⟩⟩
    | count n =>
        rcases allowed with ⟨start, positive, fits⟩
        simp only [Sum.elim_inr]
        exact ⟨⟨same.advanced short positive fits start, no_error_counted clean n⟩,
          count_lowers positive fits _⟩
  · rw [if_neg more]
    have whole : t.total = len := by omega
    refine ⟨sent, .inr ⟨clean, ?_, whole⟩⟩
    rw [← whole]
    exact BlobStore.to_int32_small t.total (by omega)

theorem sync_write_returns (calls : SystemCalls WriteAnswer) (offset : Int64) (short : len < 2 ^ 31)
    (file : File) (buf : Image) :
    Returns (PosixEngine.syncWrite calls.answer file buf len offset) (WriteEnds file offset len buf) := by
  rcases calls.interruptsEnd with ⟨bound, quiet⟩
  apply returns_of_round (fun t => Sent file offset len buf t ∧ NoError t.answers)
    (remaining len bound) (write_round calls short quiet)
  refine ⟨{ within := Nat.zero_le _, memory := rfl, started := .inl rfl }, ?_⟩
  intro answer member
  contradiction

theorem WriteEnds.outcome {outcome : Int × Transfer File} (ends : WriteEnds file offset len buf outcome) :
    WriteOutcome file offset len buf outcome := by
  rcases ends with ⟨sent, ⟨errno, _, first, value⟩ | ⟨clean, value, whole⟩⟩
  · exact .inl ⟨errno, first, value⟩
  · have data : outcome.2.memory.data = patch file.data offset.toInt.toNat (slice buf 0 len) := by
      rw [sent.memory, whole]
      split_ifs with empty
      · rw [empty]
        exact (patch_nil file.data _).symm
      · rfl
    refine .inr ⟨clean, value, ?_, ?_⟩
    · have written := slice_patch_same file.data offset.toInt.toNat (slice buf 0 len)
      rwa [slice_length, ← data] at written
    · intro i outside
      rw [data]
      exact patch_outside _ _ _ _ (by rw [slice_length]; exact outside)

end Writing

/-! ## The engines -/

theorem uring_offset (onLinux : Bool) : UringEngine.callOffset onLinux = sizeOffset := by
  cases onLinux with
  | true => rfl
  | false => rfl

/-- Every way of the system to split, interrupt or break off a transfer: the loops
end with an outcome as described, in either engine. -/
theorem transfers_assemble (file : File) (reads : SystemCalls (ReadAnswer file))
    (writes : SystemCalls WriteAnswer) (offset : Int64) (buf : Image) (len : Nat)
    (short : len < 2 ^ 31) :
    Returns (PosixEngine.syncRead reads.answer file buf len offset) (ReadOutcome file offset len buf) ∧
      Returns (PosixEngine.syncWrite writes.answer file buf len offset)
        (WriteOutcome file offset len buf) ∧
      ∀ onLinux,
        UringEngine.syncRead onLinux reads.answer file buf len offset =
          PosixEngine.syncRead reads.answer file buf len offset ∧
        UringEngine.syncWrite onLinux writes.answer file buf len offset =
          PosixEngine.syncWrite writes.answer file buf len offset := by
  refine ⟨?_, ?_, ?_⟩
  · exact (sync_read_returns reads offset short buf).weaken fun _ ends => ends.outcome
  · exact (sync_write_returns writes offset short file buf).weaken fun _ ends => ends.outcome
  · intro onLinux
    unfold UringEngine.syncRead UringEngine.syncWrite
    rw [uring_offset]
    exact ⟨rfl, rfl⟩

/-! ## A system that transfers single bytes -/

def singleByte (call : Nat) (offset : Int64) (size : Nat) : CallAnswer :=
  if call = 0 then .error kEintr
  else if offset.toInt < 0 then .error 22
  else if size ≤ offset.toInt.toNat then .count 0
  else .count 1

theorem single_byte_quiet (call : Nat) (offset : Int64) (size : Nat) (later : 1 ≤ call) :
    singleByte call offset size ≠ .error kEintr := by
  unfold singleByte kEintr
  rw [if_neg (by omega)]
  split_ifs <;> decide

def byteReads (file : File) : SystemCalls (ReadAnswer file) where
  answer call offset _ := singleByte call offset file.size
  allowed call offset count positive := by
    unfold singleByte
    split_ifs with _ negative ended
    · exact (by decide : 0 < kEintr)
    · exact (by decide : 0 < 22)
    · exact ⟨by omega, by omega, by omega, fun _ => ended⟩
    · exact ⟨by omega, by omega, by omega, by omega⟩
  interruptsEnd := ⟨1, fun call offset _ later => single_byte_quiet call offset _ later⟩

def byteWrites : SystemCalls WriteAnswer where
  answer call offset _ := singleByte call offset (offset.toInt.toNat + 1)
  allowed call offset count positive := by
    unfold singleByte
    split_ifs with _ negative ended
    · exact (by decide : 0 < kEintr)
    · exact (by decide : 0 < 22)
    · omega
    · exact ⟨by omega, by omega, by omega⟩
  interruptsEnd := ⟨1, fun call offset _ later => single_byte_quiet call offset _ later⟩

def threeBytes : File := { size := 3, data := patch (fun _ => 0) 0 [7, 8, 9] }

/-- Four bytes are asked for at the second byte of a file of three. -/
theorem transfers_assemble_bytewise :
    (PosixEngine.syncRead (byteReads threeBytes).answer threeBytes (fun _ => 0) 4 1 5).map
        (fun outcome => (outcome.1, slice outcome.2.memory 0 4)) = some (2, [8, 9, 0, 0]) ∧
      Returns (PosixEngine.syncRead (byteReads threeBytes).answer threeBytes (fun _ => 0) 4 1)
        (ReadOutcome threeBytes 1 4 fun _ => 0) ∧
      Returns (PosixEngine.syncWrite byteWrites.answer threeBytes (fun _ => 0) 4 1)
        (WriteOutcome threeBytes 1 4 fun _ => 0) ∧
      ∀ onLinux,
        UringEngine.syncRead onLinux (byteReads threeBytes).answer threeBytes (fun _ => 0) 4 1 =
          PosixEngine.syncRead (byteReads threeBytes).answer threeBytes (fun _ => 0) 4 1 ∧
        UringEngine.syncWrite onLinux byteWrites.answer threeBytes (fun _ => 0) 4 1 =
          PosixEngine.syncWrite byteWrites.answer threeBytes (fun _ => 0) 4 1 :=
  ⟨by decide +kernel,
    transfers_assemble threeBytes (byteReads threeBytes) byteWrites 1 (fun _ => 0) 4 (by decide)⟩

/-! ## The outcomes that the store is modelled with -/

section Store

variable {file : File} {offset : Int64} {len : Nat} {buf : Image}

/-- One of the outcomes of `File.syncRead`, in what it returns and in what it
leaves in the buffer. -/
def ModelledRead (file : File) (offset : Int64) (len : Nat) (buf : Image)
    (outcome : Int × Transfer Image) : Prop :=
  ∃ result, outcome.1 = (file.syncRead offset.toInt.toNat len result).1 ∧
    outcome.2.memory = patch buf 0 (file.syncRead offset.toInt.toNat len result).2

/-- One of the outcomes of `syncWrite`: the sign of what it returns, the contents
of the file, and its size once a byte was written. -/
def ModelledWrite (files : Files) (path : SegmentPath) (offset : Int64) (bytes : List UInt8)
    (outcome : Int × Transfer File) : Prop :=
  ∃ result,
    (outcome.1 < 0 ↔ (syncWrite files (some path) bytes offset.toInt.toNat result).1 < 0) ∧
    outcome.2.memory.data =
      ((syncWrite files (some path) bytes offset.toInt.toNat result).2 path).data ∧
    (outcome.2.total ≠ 0 → outcome.2.memory =
      (syncWrite files (some path) bytes offset.toInt.toNat result).2 path)

theorem ReadEnds.modelled {outcome : Int × Transfer Image} (short : len < 2 ^ 31)
    (ends : ReadEnds file offset len buf outcome) : ModelledRead file offset len buf outcome := by
  rcases ends with ⟨received, ⟨errno, _, _, value⟩ | ⟨_, value, atEnd⟩⟩
  · have available := received.available
    have within := received.within
    refine ⟨.failed outcome.2.total errno, value, ?_⟩
    have part := slice_drop_take file.data offset.toInt.toNat
      (min len (file.size - offset.toInt.toNat)) 0 outcome.2.total (by omega)
    rw [received.memory]
    simpa [File.syncRead, File.pread] using congrArg (patch buf 0) part.symm
  · have available := received.available
    have within := received.within
    have whole : min len (file.size - offset.toInt.toNat) = outcome.2.total := by
      by_cases early : outcome.2.total < len
      · have size := atEnd early
        omega
      · omega
    refine ⟨.complete, ?_, ?_⟩
    · simp only [File.syncRead, File.pread, slice_length, whole]
      rw [value, BlobStore.to_int32_small _ (by omega)]
    · simp only [File.syncRead, File.pread, whole]
      exact received.memory

/-- Every outcome of the read loop is one that the store is modelled with. -/
theorem sync_read_refines (calls : SystemCalls (ReadAnswer file)) (short : len < 2 ^ 31) :
    Returns (PosixEngine.syncRead calls.answer file buf len offset)
      (ModelledRead file offset len buf) :=
  (sync_read_returns calls offset short buf).weaken fun _ ends => ends.modelled short

theorem WriteEnds.modelled {files : Files} {path : SegmentPath} {outcome : Int × Transfer File}
    (short : len < 2 ^ 31) (ends : WriteEnds (files path) offset len buf outcome) :
    ModelledWrite files path offset (slice buf 0 len) outcome := by
  rcases ends with ⟨sent, ends⟩
  have within := sent.within
  have part : (slice buf 0 len).take outcome.2.total = slice buf 0 outcome.2.total := by
    simpa using slice_drop_take buf 0 len 0 outcome.2.total (by omega)
  have data : outcome.2.memory.data =
      patch (files path).data offset.toInt.toNat (slice buf 0 outcome.2.total) := by
    rw [sent.memory]
    split_ifs with empty
    · rw [empty]
      exact (patch_nil _ _).symm
    · rfl
  have whole : outcome.2.total ≠ 0 → outcome.2.memory =
      (files path).pwrite offset.toInt.toNat (slice buf 0 outcome.2.total) := by
    intro some
    rw [sent.memory, if_neg some]
  rcases ends with ⟨errno, positive, _, value⟩ | ⟨_, value, all⟩
  · refine ⟨.failed outcome.2.total, ?_, ?_, ?_⟩
    · simp only [syncWrite, value]
      omega
    · simp only [syncWrite, Function.update_self, part]
      exact data
    · simp only [syncWrite, Function.update_self, part]
      exact whole
  · rw [all] at data whole
    refine ⟨.complete, ?_, ?_, ?_⟩
    · simp only [syncWrite, slice_length, BlobStore.to_int32_small _ short, value]
    · simp only [syncWrite, Function.update_self]
      exact data
    · simp only [syncWrite, Function.update_self, all]
      exact whole

/-- Every outcome of the write loop is one that the store is modelled with. -/
theorem sync_write_refines (calls : SystemCalls WriteAnswer) (short : len < 2 ^ 31) (files : Files)
    (path : SegmentPath) :
    Returns (PosixEngine.syncWrite calls.answer (files path) buf len offset)
      (ModelledWrite files path offset (slice buf 0 len)) :=
  (sync_write_returns calls offset short (files path) buf).weaken fun _ ends => ends.modelled short

end Store

end AttentionDB
