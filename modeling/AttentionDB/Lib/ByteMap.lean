import Mathlib.Data.List.GetD
import Mathlib.Data.Nat.Basic
import Mathlib.Tactic.Ring

/-!
# Byte maps

A memory, a buffer or the contents of a file is a total map from positions to
bytes. `slice` reads a run of bytes and `patch` overwrites one. The lemmas say
what a read sees of an earlier write: all of it, a part of it, or nothing.
-/

namespace ByteMap

set_option autoImplicit false

abbrev Image := Nat → UInt8

def slice (image : Image) (start count : Nat) : List UInt8 :=
  (List.range count).map fun i => image (start + i)

def patch (image : Image) (start : Nat) (bytes : List UInt8) : Image := fun i =>
  if start ≤ i then bytes.getD (i - start) (image i) else image i

@[simp] theorem slice_length (image : Image) (start count : Nat) :
    (slice image start count).length = count := by
  simp [slice]

@[simp] theorem slice_zero (image : Image) (start : Nat) : slice image start 0 = [] := rfl

theorem slice_congr {left right : Image} {first second count : Nat}
    (same : ∀ i, i < count → left (first + i) = right (second + i)) :
    slice left first count = slice right second count := by
  simp only [slice, List.map_inj_left, List.mem_range]
  exact same

theorem slice_append (image : Image) (start front back : Nat) :
    slice image start (front + back) = slice image start front ++ slice image (start + front) back := by
  simp [slice, List.range_add, Nat.add_assoc]

/-- A slice of a slice. -/
theorem slice_drop_take (image : Image) (start count skip keep : Nat)
    (fits : skip + keep ≤ count) :
    ((slice image start count).drop skip).take keep = slice image (start + skip) keep := by
  apply List.ext_getElem
  · simp
    omega
  · intro i left right
    simp [slice, Nat.add_assoc]

theorem patch_outside (image : Image) (start : Nat) (bytes : List UInt8) (i : Nat)
    (outside : i < start ∨ start + bytes.length ≤ i) : patch image start bytes i = image i := by
  unfold patch
  split_ifs with after
  · rw [List.getD_eq_default _ _ (by omega)]
  · rfl

theorem patch_inside (image : Image) (start : Nat) (bytes : List UInt8) (i : Nat)
    (bound : i < bytes.length) : patch image start bytes (start + i) = bytes[i] := by
  simp only [patch, Nat.le_add_right, if_true, Nat.add_sub_cancel_left]
  exact List.getD_eq_getElem _ _ bound

theorem patch_nil (image : Image) (start : Nat) : patch image start [] = image := by
  funext i
  exact patch_outside _ _ _ _ (by simp; omega)

/-- Writing a run after another one. -/
theorem patch_append (image : Image) (start : Nat) (front back : List UInt8) :
    patch (patch image start front) (start + front.length) back = patch image start (front ++ back) := by
  funext i
  by_cases inFront : i < start + front.length
  · rw [patch_outside _ _ _ _ (.inl inFront)]
    unfold patch
    split_ifs with after
    · rw [List.getD_append _ _ _ _ (by omega)]
    · rfl
  · have beyond := patch_outside image start front i (.inr (by omega))
    have left : patch (patch image start front) (start + front.length) back i =
        back.getD (i - (start + front.length)) (image i) := by
      rw [patch, if_pos (by omega), beyond]
    have right : patch image start (front ++ back) i = (front ++ back).getD (i - start) (image i) := by
      rw [patch, if_pos (by omega)]
    rw [left, right, List.getD_append_right _ _ _ _ (by omega), Nat.sub_sub]
/-- Reading back a part of what was written. -/
theorem slice_patch_within (image : Image) (start : Nat) (bytes : List UInt8) (skip count : Nat)
    (fits : skip + count ≤ bytes.length) :
    slice (patch image start bytes) (start + skip) count = (bytes.drop skip).take count := by
  apply List.ext_getElem
  · simp
    omega
  · intro i left right
    have bound : skip + i < bytes.length := by
      simp only [slice_length] at left
      omega
    have written := patch_inside image start bytes (skip + i) bound
    simp [slice, Nat.add_assoc, written]

theorem slice_patch_same (image : Image) (start : Nat) (bytes : List UInt8) :
    slice (patch image start bytes) start bytes.length = bytes := by
  simpa using slice_patch_within image start bytes 0 bytes.length (by omega)

/-- A write elsewhere is not seen. -/
theorem slice_patch_disjoint (image : Image) (start : Nat) (bytes : List UInt8) (other count : Nat)
    (apart : other + count ≤ start ∨ start + bytes.length ≤ other) :
    slice (patch image start bytes) other count = slice image other count := by
  apply slice_congr
  intro i bound
  exact patch_outside image start bytes (other + i) (by omega)

/-- Copying a run of bytes from one map to another moves every slice inside it. -/
theorem slice_patch_copy (target source : Image) (dest origin total skip count : Nat)
    (fits : skip + count ≤ total) :
    slice (patch target dest (slice source origin total)) (dest + skip) count =
      slice source (origin + skip) count := by
  rw [slice_patch_within _ _ _ _ _ (by simpa using fits), slice_drop_take _ _ _ _ _ fits]

/-- Copying moves every byte of the run. -/
theorem patch_slice_at (target source : Image) (dest origin total skip i : Nat)
    (bound : skip + i < total) :
    patch target dest (slice source origin total) (dest + skip + i) = source (origin + skip + i) := by
  have inside : skip + i < (slice source origin total).length := by
    rw [slice_length]
    exact bound
  have written := patch_inside target dest (slice source origin total) (skip + i) inside
  simp only [Nat.add_assoc] at written ⊢
  rw [written]
  simp [slice]

/-! ## Little-endian numbers -/

def encodeLe : Nat → Nat → List UInt8
  | 0, _ => []
  | width + 1, value => UInt8.ofNat value :: encodeLe width (value / 256)

def decodeLe : List UInt8 → Nat
  | [] => 0
  | byte :: rest => byte.toNat + 256 * decodeLe rest

@[simp] theorem encode_le_length (width value : Nat) : (encodeLe width value).length = width := by
  induction width generalizing value with
  | zero => rfl
  | succ width ih => simp [encodeLe, ih]

theorem decode_encode_le (width value : Nat) :
    decodeLe (encodeLe width value) = value % 256 ^ width := by
  induction width generalizing value with
  | zero => simp [encodeLe, decodeLe, Nat.mod_one]
  | succ width ih =>
      have byte : (UInt8.ofNat value).toNat = value % 256 := by simp
      rw [encodeLe, decodeLe, ih, byte, Nat.pow_succ, Nat.mul_comm (256 ^ width) 256, Nat.mod_mul]

end ByteMap
