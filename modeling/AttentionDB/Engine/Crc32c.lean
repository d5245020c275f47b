import AttentionDB.Engine.Crc32
import AttentionDB.Lib.ReflectedCrc

/-!
# The checksum as a cyclic redundancy check

The reference takes the data one bit at a time, with the reflected Castagnoli
polynomial, and the 256 entries of the engine's table are eight of its steps
each. So the checksum is the standard one, and it tells apart any two blobs of
one length that differ within four bytes in a row.
-/

namespace AttentionDB

open ReflectedCrc

set_option autoImplicit false

/-! ## The reference -/

def castagnoli : UInt32 := 0x82F63B78

def crc32cBit (crc : UInt32) : UInt32 :=
  if crc &&& 1 = 1 then (crc >>> 1) ^^^ castagnoli else crc >>> 1

def crc32cByte (crc : UInt32) (byte : UInt8) : UInt32 :=
  crc32cBit^[8] (crc ^^^ UInt32.ofNat byte.toNat)

def crc32c (data : List UInt8) : UInt32 := data.foldl crc32cByte 0xFFFFFFFF ^^^ 0xFFFFFFFF

/-- The check value, for the nine digits in ASCII. -/
example : crc32c [49, 50, 51, 52, 53, 54, 55, 56, 57] = 0xE3069283 := by decide +kernel

/-! ## The reference as a register -/

theorem low_bit_iff (crc : UInt32) : crc &&& 1 = 1 ↔ crc.toBitVec.getLsbD 0 = true := by
  have masked : (crc &&& 1).toBitVec = (BitVec.ofBool (crc.toBitVec.getLsbD 0)).setWidth 32 := by
    rw [UInt32.toBitVec_and]
    exact BitVec.and_one_eq_setWidth_ofBool_getLsbD
  rw [← UInt32.toBitVec_inj, masked]
  cases crc.toBitVec.getLsbD 0 <;> decide

theorem bit_is_move (crc : UInt32) :
    (crc32cBit crc).toBitVec = move castagnoli.toBitVec crc.toBitVec := by
  unfold crc32cBit move
  rw [apply_ite UInt32.toBitVec, UInt32.toBitVec_xor]
  simp only [low_bit_iff]
  rfl

theorem bits_are_moves (count : Nat) (crc : UInt32) :
    (crc32cBit^[count] crc).toBitVec = (move castagnoli.toBitVec)^[count] crc.toBitVec := by
  induction count with
  | zero => rfl
  | succ count ih => rw [Function.iterate_succ_apply', Function.iterate_succ_apply', bit_is_move, ih]

theorem byte_word (byte : UInt8) : (UInt32.ofNat byte.toNat).toBitVec = byte.toBitVec.setWidth 32 := by
  apply BitVec.eq_of_toNat_eq
  simp

theorem byte_is_absorbed (crc : UInt32) (byte : UInt8) :
    (crc32cByte crc byte).toBitVec = absorb castagnoli.toBitVec crc.toBitVec byte.toBitVec := by
  rw [crc32cByte, bits_are_moves, UInt32.toBitVec_xor, byte_word]
  rfl

theorem reference_run (data : List UInt8) (crc : UInt32) :
    (data.foldl crc32cByte crc).toBitVec =
      (data.map UInt8.toBitVec).foldl (absorb castagnoli.toBitVec) crc.toBitVec := by
  induction data generalizing crc with
  | nil => rfl
  | cons byte data ih => rw [List.foldl_cons, ih, byte_is_absorbed]; rfl

/-! ## The table -/

/-- Every entry of the table is eight steps from its index. -/
theorem table_entries : ∀ i < 256, kCrc32Table.getD i 0 = crc32cBit^[8] (UInt32.ofNat i) := by
  decide +kernel

theorem table_entry (index : UInt32) :
    kCrc32Table.getD (index &&& 0xFF).toNat 0 = crc32cBit^[8] (index &&& 0xFF) := by
  have bound : (index &&& 0xFF).toNat < 256 := by
    rw [UInt32.toNat_and]
    exact Nat.lt_of_le_of_lt Nat.and_le_right (by decide)
  rw [table_entries _ bound, UInt32.ofNat_toNat]

/-- The loop body of `compute_crc32` takes one byte as the reference does. -/
theorem step_is_reference (crc : UInt32) (byte : UInt8) : crc32Step crc byte = crc32cByte crc byte := by
  apply UInt32.toBitVec_inj.1
  rw [byte_is_absorbed, absorb_table, crc32Step, table_entry, UInt32.toBitVec_xor, bits_are_moves,
    UInt32.toBitVec_and, UInt32.toBitVec_xor, byte_word]
  rfl

theorem table_run (data : List UInt8) (crc : UInt32) :
    data.foldl crc32Step crc = data.foldl crc32cByte crc := by
  induction data generalizing crc with
  | nil => rfl
  | cons byte data ih => rw [List.foldl_cons, List.foldl_cons, step_is_reference, ih]

/-- The checksum of the engine is the CRC32C of the bytes. -/
theorem checksum_is_crc32c (data : List UInt8) : computeCrc32 data = crc32c data := by
  unfold computeCrc32 crc32c
  rw [table_run]

/-! ## Errors within four bytes -/

/-- What the window of differences leaves of two lists. -/
theorem window_split {left right : List UInt8} {start : Nat}
    (window : ∀ i, i < start ∨ start + 4 ≤ i → left[i]? = right[i]?) :
    left.take start = right.take start ∧ left.drop (start + 4) = right.drop (start + 4) := by
  constructor
  · apply List.ext_getElem?
    intro i
    by_cases before : i < start
    · rw [List.getElem?_take_of_lt before, List.getElem?_take_of_lt before]
      exact window i (.inl before)
    · rw [List.getElem?_take_eq_none (by omega), List.getElem?_take_eq_none (by omega)]
  · apply List.ext_getElem?
    intro i
    rw [List.getElem?_drop, List.getElem?_drop]
    exact window _ (.inr (by omega))

theorem window_parts (data : List UInt8) (start : Nat) :
    data.take start ++ (data.drop start).take 4 ++ data.drop (start + 4) = data := by
  rw [List.append_assoc, ← List.drop_drop, List.take_append_drop, List.take_append_drop]

/-- Two blobs of one length that differ only within four bytes in a row have
different checksums. -/
theorem checksum_detects_window (left right : List UInt8) (sameLength : left.length = right.length)
    (differ : left ≠ right) (start : Nat)
    (window : ∀ i, i < start ∨ start + 4 ≤ i → left[i]? = right[i]?) :
    computeCrc32 left ≠ computeCrc32 right := by
  intro same
  apply differ
  rcases window_split window with ⟨before, after⟩
  have top : castagnoli.toBitVec.msb = true := by decide
  have registers : left.foldl crc32cByte 0xFFFFFFFF = right.foldl crc32cByte 0xFFFFFFFF := by
    rw [← table_run, ← table_run]
    exact (UInt32.xor_left_inj _).1 same
  have run := congrArg UInt32.toBitVec registers
  rw [reference_run, reference_run, ← window_parts left start, ← window_parts right start, before,
    after] at run
  simp only [List.map_append] at run
  have inside := window_detected castagnoli.toBitVec top _ _ _ _ _ (by simp [sameLength]) (by simp; omega) run
  have middle := List.map_injective_iff.2 (fun _ _ => UInt8.toBitVec_inj.1) inside
  rw [← window_parts left start, ← window_parts right start, before, after, middle]

/-- A bit that flips within a run of zeros. -/
theorem checksum_detects_flipped_bit : computeCrc32 [0, 0, 1, 0, 0, 0] ≠ computeCrc32 [0, 0, 0, 0, 0, 0] :=
  checksum_detects_window _ _ rfl (by decide) 2 (by
    intro i outside
    match i with
    | 0 | 1 => rfl
    | 2 | 3 | 4 | 5 => omega
    | i + 6 => rfl)

end AttentionDB
