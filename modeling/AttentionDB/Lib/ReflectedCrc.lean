import Mathlib.Data.BitVec
import Mathlib.Logic.Function.Iterate
import Mathlib.Tactic.Linarith

/-!
# Reflected cyclic redundancy checks

A reflected check moves its register one place down for each bit and adds a
polynomial when a one falls out. The move is linear over exclusive or, and it
loses nothing when the polynomial has its top bit. So eight moves can be looked
up in a table by the low byte, and a run of bytes that fits the register acts on
it as the one number that the bytes make up.
-/

namespace ReflectedCrc

set_option autoImplicit false

variable {width : Nat}

def move (poly register : BitVec width) : BitVec width :=
  if register.getLsbD 0 then (register >>> 1) ^^^ poly else register >>> 1

variable (poly : BitVec width)

theorem move_xor (left right : BitVec width) :
    move poly (left ^^^ right) = move poly left ^^^ move poly right := by
  simp only [move, BitVec.getLsbD_xor, BitVec.ushiftRight_xor_distrib]
  cases left.getLsbD 0 <;> cases right.getLsbD 0
  · simp
  · simp [BitVec.xor_assoc]
  · simp only [Bool.xor_false, if_true, Bool.false_eq_true, if_false]
    rw [BitVec.xor_assoc, BitVec.xor_comm (right >>> 1), ← BitVec.xor_assoc]
  · simp only [Bool.xor_true, Bool.not_true, Bool.false_eq_true, if_false, if_true]
    rw [BitVec.xor_assoc, ← BitVec.xor_assoc poly, BitVec.xor_comm poly (right >>> 1),
      BitVec.xor_assoc (right >>> 1), BitVec.xor_self, BitVec.xor_zero]

theorem move_even {register : BitVec width} (even : register.getLsbD 0 = false) :
    move poly register = register >>> 1 := by
  simp [move, even]

/-- Only zero moves to zero, since the top bit shows whether a one fell out. -/
theorem move_eq_zero (top : poly.msb = true) {register : BitVec width}
    (vanishes : move poly register = 0) : register = 0 := by
  have wide : 0 < width := by
    by_contra empty
    have zero : width = 0 := by omega
    subst zero
    simp [BitVec.of_length_zero] at top
  have topBit : poly.getLsbD (width - 1) = true := by
    rw [← BitVec.msb_eq_getLsbD_last]
    exact top
  cases low : register.getLsbD 0 with
  | true =>
      have bit := congrArg (BitVec.getLsbD · (width - 1)) vanishes
      have outside : register.getLsbD (1 + (width - 1)) = false :=
        BitVec.getLsbD_of_ge _ _ (by omega)
      simp only [move, low, if_true, BitVec.getLsbD_xor, BitVec.getLsbD_ushiftRight, outside,
        topBit] at bit
      simp at bit
  | false =>
      rw [move_even poly low] at vanishes
      apply BitVec.eq_of_getLsbD_eq
      intro i bound
      cases i with
      | zero => simpa using low
      | succ i =>
          have bit := congrArg (BitVec.getLsbD · i) vanishes
          simp only [BitVec.getLsbD_ushiftRight] at bit
          rw [Nat.add_comm i 1]
          simpa using bit

theorem move_injective (top : poly.msb = true) : Function.Injective (move poly) := by
  intro left right same
  have difference : move poly (left ^^^ right) = 0 := by
    rw [move_xor, same]
    exact BitVec.xor_self
  exact BitVec.xor_eq_zero_iff.1 (move_eq_zero poly top difference)

theorem moves_xor (count : Nat) (left right : BitVec width) :
    (move poly)^[count] (left ^^^ right) = (move poly)^[count] left ^^^ (move poly)^[count] right := by
  induction count generalizing left right with
  | zero => rfl
  | succ count ih => rw [Function.iterate_succ_apply, move_xor, ih]; rfl

/-- Clear low bits fall out without the polynomial. -/
theorem moves_clear (count : Nat) (register : BitVec width)
    (clear : ∀ i, i < count → register.getLsbD i = false) :
    (move poly)^[count] register = register >>> count := by
  induction count with
  | zero => simp
  | succ count ih =>
      have before := ih fun i bound => clear i (by omega)
      have even : (register >>> count).getLsbD 0 = false := by
        rw [BitVec.getLsbD_ushiftRight]
        exact clear count (by omega)
      rw [Function.iterate_succ_apply', before, move_even poly even, ← BitVec.shiftRight_add]

/-! ## Bytes -/

/-- The next byte of the data, its low bit first. -/
def absorb (register : BitVec width) (byte : BitVec 8) : BitVec width :=
  (move poly)^[8] (register ^^^ byte.setWidth width)

def byteMask (width : Nat) : BitVec width := BitVec.ofNat width 255

theorem byte_mask_bit (i : Nat) : (byteMask width).getLsbD i = (decide (i < width) && decide (i < 8)) := by
  have mask : Nat.testBit 255 i = decide (i < 8) := by
    rw [show 255 = 2 ^ 8 - 1 from rfl, Nat.testBit_two_pow_sub_one]
  rw [byteMask, BitVec.getLsbD_ofNat, mask]

/-- What lies above the low byte moves down by eight places. -/
theorem moves_high (register : BitVec width) :
    (move poly)^[8] (register &&& ~~~byteMask width) = register >>> 8 := by
  have clear : ∀ i, i < 8 → (register &&& ~~~byteMask width).getLsbD i = false := by
    intro i bound
    rw [BitVec.getLsbD_and, BitVec.getLsbD_not, byte_mask_bit]
    by_cases inside : i < width <;> simp [inside, bound]
  rw [moves_clear poly 8 _ clear]
  apply BitVec.eq_of_getLsbD_eq
  intro i bound
  rw [BitVec.getLsbD_ushiftRight, BitVec.getLsbD_ushiftRight, BitVec.getLsbD_and, BitVec.getLsbD_not,
    byte_mask_bit]
  by_cases inside : 8 + i < width
  · simp [inside]
  · rw [BitVec.getLsbD_of_ge register (8 + i) (by omega)]
    rfl

theorem split_byte (register : BitVec width) :
    register = (register &&& byteMask width) ^^^ (register &&& ~~~byteMask width) := by
  apply BitVec.eq_of_getLsbD_eq
  intro i bound
  rw [BitVec.getLsbD_xor, BitVec.getLsbD_and, BitVec.getLsbD_and, BitVec.getLsbD_not]
  cases register.getLsbD i <;> cases (byteMask width).getLsbD i <;> simp [bound]

theorem byte_shift (byte : BitVec 8) : byte.setWidth width >>> 8 = BitVec.ofNat width 0 := by
  apply BitVec.eq_of_getLsbD_eq
  intro i bound
  rw [BitVec.getLsbD_ushiftRight, BitVec.getLsbD_setWidth, BitVec.getLsbD_of_ge byte _ (by omega)]
  simp

/-- A byte by the table: the entry of the low byte, and the rest moved down. -/
theorem absorb_table (register : BitVec width) (byte : BitVec 8) :
    absorb poly register byte =
      (move poly)^[8] ((register ^^^ byte.setWidth width) &&& byteMask width) ^^^ (register >>> 8) := by
  unfold absorb
  calc (move poly)^[8] (register ^^^ byte.setWidth width)
      = (move poly)^[8] ((register ^^^ byte.setWidth width) &&& byteMask width) ^^^
          (move poly)^[8] ((register ^^^ byte.setWidth width) &&& ~~~byteMask width) := by
        rw [← moves_xor, ← split_byte]
    _ = (move poly)^[8] ((register ^^^ byte.setWidth width) &&& byteMask width) ^^^ (register >>> 8) := by
        rw [moves_high, BitVec.ushiftRight_xor_distrib, byte_shift, BitVec.xor_zero]

theorem moves_injective (top : poly.msb = true) (count : Nat) : Function.Injective (move poly)^[count] :=
  (move_injective poly top).iterate count

theorem absorb_injective (top : poly.msb = true) (byte : BitVec 8) :
    Function.Injective (absorb poly · byte) := by
  intro left right same
  exact (BitVec.xor_left_inj _).1 (moves_injective poly top 8 same)

theorem run_injective (top : poly.msb = true) (bytes : List (BitVec 8)) :
    Function.Injective (bytes.foldl (absorb poly)) := by
  induction bytes with
  | nil => exact Function.injective_id
  | cons byte bytes ih =>
      intro left right same
      exact absorb_injective poly top byte (ih same)

/-! ## Runs of bytes -/

/-- The number that a run of bytes makes up, the first byte lowest. -/
def pack : List (BitVec 8) → BitVec width
  | [] => 0
  | byte :: rest => byte.setWidth width ^^^ (pack rest <<< 8)

theorem pack_low (byte : BitVec 8) (rest : List (BitVec 8)) (wide : 8 ≤ width) :
    (pack (byte :: rest) : BitVec width).setWidth 8 = byte := by
  apply BitVec.eq_of_getLsbD_eq
  intro i bound
  rw [BitVec.getLsbD_setWidth, pack, BitVec.getLsbD_xor, BitVec.getLsbD_setWidth,
    BitVec.getLsbD_shiftLeft]
  have inside : i < width := by omega
  simp [bound, inside]

theorem pack_bit_outside (bytes : List (BitVec 8)) (i : Nat) (outside : 8 * bytes.length ≤ i) :
    (pack bytes : BitVec width).getLsbD i = false := by
  induction bytes generalizing i with
  | nil => simp [pack]
  | cons byte rest ih =>
      rw [List.length_cons] at outside
      rw [pack, BitVec.getLsbD_xor, BitVec.getLsbD_setWidth, BitVec.getLsbD_of_ge byte i (by omega),
        BitVec.getLsbD_shiftLeft, ih (i - 8) (by omega)]
      simp

/-- Moving a run up a byte loses nothing while it fits the register. -/
theorem pack_shift (bytes : List (BitVec 8)) (fits : 8 * bytes.length + 8 ≤ width) :
    ((pack bytes : BitVec width) <<< 8) >>> 8 = pack bytes := by
  apply BitVec.eq_of_getLsbD_eq
  intro i bound
  rw [BitVec.getLsbD_ushiftRight, BitVec.getLsbD_shiftLeft]
  by_cases inside : 8 + i < width
  · simp [inside]
  · rw [pack_bit_outside bytes i (by omega)]
    simp [inside]

theorem pack_high (byte : BitVec 8) (rest : List (BitVec 8)) (fits : 8 * rest.length + 8 ≤ width) :
    (pack (byte :: rest) : BitVec width) >>> 8 = pack rest := by
  rw [pack, BitVec.ushiftRight_xor_distrib, byte_shift, BitVec.zero_xor, pack_shift rest fits]

theorem pack_injective (left right : List (BitVec 8)) (same : left.length = right.length)
    (fits : 8 * left.length ≤ width) (packed : (pack left : BitVec width) = pack right) :
    left = right := by
  induction left generalizing right with
  | nil => exact (List.length_eq_zero_iff.1 same.symm).symm
  | cons byte rest ih =>
      cases right with
      | nil => contradiction
      | cons other others =>
          simp only [List.length_cons] at same fits
          have wide : 8 ≤ width := by omega
          have low : byte = other := by
            rw [← pack_low byte rest wide, packed, pack_low other others wide]
          have high : (pack rest : BitVec width) = pack others := by
            rw [← pack_high byte rest (by omega), packed, pack_high other others (by omega)]
          rw [low, ih others (by omega) (by omega) high]

/-- A run that fits the register is absorbed as one number. -/
theorem run_pack (bytes : List (BitVec 8)) (register : BitVec width)
    (fits : 8 * bytes.length ≤ width) :
    bytes.foldl (absorb poly) register =
      (move poly)^[8 * bytes.length] (register ^^^ pack bytes) := by
  induction bytes generalizing register with
  | nil => simp [pack]
  | cons byte rest ih =>
      rw [List.length_cons] at fits
      have clear : ∀ i, i < 8 → ((pack rest : BitVec width) <<< 8).getLsbD i = false := by
        intro i bound
        simp [BitVec.getLsbD_shiftLeft, bound]
      -- the rest enters eight places up, and is in place after the first byte
      have later : (move poly)^[8] ((pack rest : BitVec width) <<< 8) = pack rest := by
        rw [moves_clear poly 8 _ clear, pack_shift rest (by omega)]
      have count : 8 * (rest.length + 1) = 8 * rest.length + 8 := by omega
      rw [List.foldl_cons, ih _ (by omega), absorb, List.length_cons, count, Function.iterate_add_apply]
      apply congrArg
      rw [pack, ← BitVec.xor_assoc, moves_xor poly 8 _ (pack rest <<< 8), later]

theorem run_pack_injective (top : poly.msb = true) (register : BitVec width)
    (left right : List (BitVec 8)) (same : left.length = right.length)
    (fits : 8 * left.length ≤ width)
    (checked : left.foldl (absorb poly) register = right.foldl (absorb poly) register) :
    left = right := by
  rw [run_pack poly left register fits, run_pack poly right register (same ▸ fits), same] at checked
  have packed := (BitVec.xor_right_inj _).1 (moves_injective poly top _ checked)
  exact pack_injective left right same fits packed

/-- Two runs with one window of differences that fits the register. -/
theorem window_detected (top : poly.msb = true) (register : BitVec width)
    (front left right back : List (BitVec 8)) (same : left.length = right.length)
    (fits : 8 * left.length ≤ width)
    (checked : (front ++ left ++ back).foldl (absorb poly) register =
      (front ++ right ++ back).foldl (absorb poly) register) : left = right := by
  simp only [List.foldl_append] at checked
  exact run_pack_injective poly top _ left right same fits (run_injective poly top back checked)

end ReflectedCrc
