import AttentionDB.Lib.ByteMap
import Mathlib.Data.BitVec
import Mathlib.Data.Vector.Basic

/-!
# Codecs of a fixed width

A packed record is stored as the bytes of its fields in a row. A codec carries
the two proofs that every use of it needs: the encoding has the width of the
codec, and encoding and decoding undo each other. A record's codec is put
together from those of its fields.
-/

namespace ByteMap

set_option autoImplicit false

theorem encode_decode_le (bytes : List UInt8) : encodeLe bytes.length (decodeLe bytes) = bytes := by
  induction bytes with
  | nil => rfl
  | cons byte rest ih =>
      have bound := byte.toNat_lt
      have low : UInt8.ofNat (byte.toNat + 256 * decodeLe rest) = byte := by
        apply UInt8.toNat_inj.1
        rw [UInt8.toNat_ofNat']
        omega
      have high : (byte.toNat + 256 * decodeLe rest) / 256 = decodeLe rest := by omega
      simp only [List.length_cons, encodeLe, decodeLe, low, high, ih]

theorem decode_le_lt (bytes : List UInt8) : decodeLe bytes < 256 ^ bytes.length := by
  induction bytes with
  | nil => simp [decodeLe]
  | cons byte rest ih =>
      have bound := byte.toNat_lt
      rw [decodeLe, List.length_cons, Nat.pow_succ]
      omega

end ByteMap

open ByteMap

set_option autoImplicit false

structure FixedCodec (Value : Type) where
  width : Nat
  encode : Value → List UInt8
  decode : List UInt8 → Value
  encode_length : ∀ value, (encode value).length = width
  decode_encode : ∀ value, decode (encode value) = value
  encode_decode : ∀ bytes, bytes.length = width → encode (decode bytes) = bytes

namespace FixedCodec

variable {Value Left Right : Type}

def number (width bits : Nat) (whole : 2 ^ bits = 256 ^ width) : FixedCodec (BitVec bits) where
  width := width
  encode value := encodeLe width value.toNat
  decode bytes := BitVec.ofNat bits (decodeLe bytes)
  encode_length _ := encode_le_length _ _
  decode_encode value := by
    apply BitVec.eq_of_toNat_eq
    rw [decode_encode_le, BitVec.toNat_ofNat, ← whole, Nat.mod_mod, Nat.mod_eq_of_lt value.isLt]
  encode_decode bytes length := by
    have fits : decodeLe bytes < 2 ^ bits := by
      rw [whole, ← length]
      exact decode_le_lt bytes
    subst length
    rw [BitVec.toNat_ofNat, Nat.mod_eq_of_lt fits]
    exact encode_decode_le bytes

def bytes (width : Nat) : FixedCodec (Vector UInt8 width) where
  width := width
  encode value := value.toList
  decode bytes := Vector.ofFn fun i => bytes.getD i 0
  encode_length value := by simp
  decode_encode value := by
    apply Vector.ext
    intro i bound
    simp
  encode_decode bytes length := by
    apply List.ext_getElem
    · simp [length]
    · intro i left right
      simp [right]

def xmap (codec : FixedCodec Value) {Other : Type} (into : Value → Other) (back : Other → Value)
    (there : ∀ value, back (into value) = value) (andBack : ∀ other, into (back other) = other) :
    FixedCodec Other where
  width := codec.width
  encode other := codec.encode (back other)
  decode bytes := into (codec.decode bytes)
  encode_length _ := codec.encode_length _
  decode_encode other := by rw [codec.decode_encode, andBack]
  encode_decode bytes length := by rw [there, codec.encode_decode bytes length]

def pair (left : FixedCodec Left) (right : FixedCodec Right) : FixedCodec (Left × Right) where
  width := left.width + right.width
  encode value := left.encode value.1 ++ right.encode value.2
  decode bytes := (left.decode (bytes.take left.width), right.decode (bytes.drop left.width))
  encode_length value := by simp [left.encode_length, right.encode_length]
  decode_encode value := by
    have length := left.encode_length value.1
    rw [← length, List.take_left, List.drop_left, left.decode_encode, right.decode_encode]
  encode_decode bytes length := by
    rw [left.encode_decode _ (by simp [length]), right.encode_decode _ (by simp [length]),
      List.take_append_drop]

def u8 : FixedCodec UInt8 :=
  (number 1 8 rfl).xmap UInt8.ofBitVec UInt8.toBitVec (fun _ => rfl) fun _ => rfl

def u16 : FixedCodec UInt16 :=
  (number 2 16 rfl).xmap UInt16.ofBitVec UInt16.toBitVec (fun _ => rfl) fun _ => rfl

def u32 : FixedCodec UInt32 :=
  (number 4 32 rfl).xmap UInt32.ofBitVec UInt32.toBitVec (fun _ => rfl) fun _ => rfl

def u64 : FixedCodec UInt64 :=
  (number 8 64 rfl).xmap UInt64.ofBitVec UInt64.toBitVec (fun _ => rfl) fun _ => rfl

theorem encode_injective (codec : FixedCodec Value) : Function.Injective codec.encode := by
  intro left right same
  rw [← codec.decode_encode left, same, codec.decode_encode]

/-! ## Rows of records -/

variable (codec : FixedCodec Value)

def encodeRow (values : List Value) : List UInt8 := values.flatMap codec.encode

/-- The first `count` records of the bytes. -/
def decodeRow : Nat → List UInt8 → List Value
  | 0, _ => []
  | count + 1, bytes => codec.decode (bytes.take codec.width) :: decodeRow count (bytes.drop codec.width)

theorem encode_row_length (values : List Value) :
    (codec.encodeRow values).length = codec.width * values.length := by
  induction values with
  | nil => rfl
  | cons value values ih =>
      have whole : codec.encodeRow (value :: values) = codec.encode value ++ codec.encodeRow values := rfl
      rw [whole, List.length_append, ih, codec.encode_length, List.length_cons, Nat.mul_succ,
        Nat.add_comm]

theorem decode_row_length (count : Nat) (bytes : List UInt8) :
    (codec.decodeRow count bytes).length = count := by
  induction count generalizing bytes with
  | zero => rfl
  | succ count ih => simp [decodeRow, ih]

/-- Whatever follows the row. -/
theorem decode_encode_row (values : List Value) (rest : List UInt8) :
    codec.decodeRow values.length (codec.encodeRow values ++ rest) = values := by
  induction values with
  | nil => rfl
  | cons value values ih =>
      have length := codec.encode_length value
      have whole : codec.encodeRow (value :: values) ++ rest =
          codec.encode value ++ (codec.encodeRow values ++ rest) := by
        simp [encodeRow]
      rw [whole, List.length_cons, decodeRow, ← length, List.take_left, List.drop_left,
        codec.decode_encode, ih]

/-- Fewer records than there are. -/
theorem decode_row_take (values : List Value) (count : Nat) (enough : count ≤ values.length) :
    codec.decodeRow count (codec.encodeRow values) = values.take count := by
  have parts : codec.encodeRow values =
      codec.encodeRow (values.take count) ++ codec.encodeRow (values.drop count) := by
    rw [encodeRow, encodeRow, encodeRow, ← List.flatMap_append, List.take_append_drop]
  have length : (values.take count).length = count := by
    rw [List.length_take]
    exact Nat.min_eq_left enough
  have decoded := codec.decode_encode_row (values.take count) (codec.encodeRow (values.drop count))
  rw [length, ← parts] at decoded
  exact decoded

theorem encode_decode_row (count : Nat) (bytes : List UInt8)
    (enough : codec.width * count ≤ bytes.length) :
    codec.encodeRow (codec.decodeRow count bytes) = bytes.take (codec.width * count) := by
  induction count generalizing bytes with
  | zero => rfl
  | succ count ih =>
      rw [Nat.mul_succ] at enough ⊢
      have first : (bytes.take codec.width).length = codec.width := by
        rw [List.length_take]
        omega
      have rest := ih (bytes.drop codec.width) (by rw [List.length_drop]; omega)
      have whole : codec.encodeRow (codec.decodeRow (count + 1) bytes) =
          codec.encode (codec.decode (bytes.take codec.width)) ++
            codec.encodeRow (codec.decodeRow count (bytes.drop codec.width)) := rfl
      rw [whole, codec.encode_decode _ first, rest, Nat.add_comm, List.take_add]

end FixedCodec
