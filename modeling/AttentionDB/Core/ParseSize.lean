import Mathlib.Data.UInt
import Mathlib.Tactic.Linarith

/-!
# Sizes in a configuration

`ParseSize` reads digits into a `size_t` and multiplies by the factor of a
suffix. An overflow of the number is taken for one only if the wrapped number
is less than the one before, so a longer number may pass with its remainder
modulo 2^64.
-/

namespace AttentionDB

set_option autoImplicit false

def kSizeMax : UInt64 := 0xFFFFFFFFFFFFFFFF

/-- The loop of `ParseSize`: the number, and what follows the digits. There is
no number where `next` is less than `val`. -/
def parseDigits (val : UInt64) : List Char → Option (UInt64 × List Char)
  | [] => some (val, [])
  | c :: rest =>
      if '0' ≤ c ∧ c ≤ '9' then
        let next := val * 10 + UInt64.ofNat (c.toNat - '0'.toNat)
        if next < val then none else parseDigits next rest
      else some (val, c :: rest)

def sizeMultiplier (suffix : String) : UInt64 :=
  if suffix = "KB" ∨ suffix = "kb" then 1024
  else if suffix = "MB" ∨ suffix = "mb" then 1024 * 1024
  else if suffix = "GB" ∨ suffix = "gb" then 1024 * 1024 * 1024
  else if suffix = "TB" ∨ suffix = "tb" then 1024 * 1024 * 1024 * 1024
  else 1

def parseSize (s : String) : UInt64 :=
  match parseDigits 0 s.toList with
  | none => kSizeMax
  | some (val, rest) =>
      let multiplier := sizeMultiplier (String.ofList rest)
      if kSizeMax / multiplier < val then kSizeMax else val * multiplier

/-! ## What a string denotes -/

def decimal (digits : List Char) : Nat := Nat.ofDigitChars 10 digits 0

def sizeSuffixes : List (String × Nat) :=
  [("", 1), ("KB", 2 ^ 10), ("kb", 2 ^ 10), ("MB", 2 ^ 20), ("mb", 2 ^ 20), ("GB", 2 ^ 30),
    ("gb", 2 ^ 30), ("TB", 2 ^ 40), ("tb", 2 ^ 40)]

def RemainderDrops (start : Nat) (digits : List Char) : Prop :=
  ∃ front c back, digits = front ++ c :: back ∧
    Nat.ofDigitChars 10 (front ++ [c]) start % 2 ^ 64 < Nat.ofDigitChars 10 front start % 2 ^ 64

/-! ## The digits -/

section Digits

variable {c : Char} {digits rest : List Char} {start : Nat}

theorem digit_iff : ('0' ≤ c ∧ c ≤ '9') ↔ c.isDigit = true := by
  simp only [Char.isDigit, Bool.and_eq_true, decide_eq_true_eq]
  exact Iff.rfl

theorem remainder_drops_cons : RemainderDrops start (c :: digits) ↔
    (10 * start + (c.toNat - '0'.toNat)) % 2 ^ 64 < start % 2 ^ 64 ∨
      RemainderDrops (10 * start + (c.toNat - '0'.toNat)) digits := by
  constructor
  · rintro ⟨front, d, back, split, less⟩
    cases front with
    | nil =>
        cases split
        exact .inl (by simpa [Nat.ofDigitChars_cons] using less)
    | cons e front =>
        cases split
        rw [List.cons_append, Nat.ofDigitChars_cons, Nat.ofDigitChars_cons] at less
        exact .inr ⟨front, d, back, rfl, less⟩
  · rintro (first | ⟨front, d, back, rfl, less⟩)
    · exact ⟨[], c, digits, rfl, by simpa [Nat.ofDigitChars_cons] using first⟩
    · refine ⟨c :: front, d, back, rfl, ?_⟩
      rwa [List.cons_append, Nat.ofDigitChars_cons, Nat.ofDigitChars_cons]

/-- The loop goes on with the remainder of the number, up to a drop. -/
theorem parse_digits_run (start : Nat) (allDigits : ∀ c ∈ digits, c.isDigit = true)
    (stops : ∀ c ∈ rest.head?, c.isDigit = false) :
    (RemainderDrops start digits ∧ parseDigits (UInt64.ofNat start) (digits ++ rest) = none) ∨
      (¬RemainderDrops start digits ∧ parseDigits (UInt64.ofNat start) (digits ++ rest) =
        some (UInt64.ofNat (Nat.ofDigitChars 10 digits start), rest)) := by
  induction digits generalizing start with
  | nil =>
      refine .inr ⟨?_, ?_⟩
      · rintro ⟨front, c, back, split, _⟩
        simp at split
      · rw [List.nil_append, Nat.ofDigitChars_nil]
        cases rest with
        | nil => rfl
        | cons c rest =>
            have letter := stops c rfl
            rw [parseDigits, if_neg]
            rw [digit_iff, letter]
            decide
  | cons c digits ih =>
      have digit := digit_iff.2 (allDigits c List.mem_cons_self)
      have others : ∀ d ∈ digits, d.isDigit = true := fun d member =>
        allDigits d (List.mem_cons_of_mem _ member)
      have next : UInt64.ofNat start * 10 + UInt64.ofNat (c.toNat - '0'.toNat) =
          UInt64.ofNat (10 * start + (c.toNat - '0'.toNat)) := by
        rw [UInt64.ofNat_add, UInt64.ofNat_mul, UInt64.mul_comm]
        rfl
      rw [List.cons_append, parseDigits, if_pos digit, Nat.ofDigitChars_cons, remainder_drops_cons]
      simp only [next, UInt64.lt_iff_toNat_lt, UInt64.toNat_ofNat']
      by_cases drops : (10 * start + (c.toNat - '0'.toNat)) % 2 ^ 64 < start % 2 ^ 64
      · rw [if_pos drops]
        exact .inl ⟨.inl drops, rfl⟩
      · rw [if_neg drops]
        simp only [drops, false_or]
        exact ih _ others

theorem of_digit_chars_ge (digits : List Char) (start : Nat) :
    start ≤ Nat.ofDigitChars 10 digits start := by
  induction digits generalizing start with
  | nil => simp
  | cons c digits ih =>
      rw [Nat.ofDigitChars_cons]
      have longer := ih (10 * start + (c.toNat - '0'.toNat))
      omega

/-- A number of 64 bits has no prefix that wraps. -/
theorem small_number_keeps (small : Nat.ofDigitChars 10 digits start < 2 ^ 64) :
    ¬RemainderDrops start digits := by
  rintro ⟨front, c, back, rfl, less⟩
  have whole : Nat.ofDigitChars 10 (front ++ c :: back) start =
      Nat.ofDigitChars 10 back (Nat.ofDigitChars 10 (front ++ [c]) start) := by
    rw [← Nat.ofDigitChars_append, List.append_assoc]
    rfl
  have longer := of_digit_chars_ge back (Nat.ofDigitChars 10 (front ++ [c]) start)
  have one : Nat.ofDigitChars 10 front start ≤ Nat.ofDigitChars 10 (front ++ [c]) start := by
    rw [Nat.ofDigitChars_append]
    exact of_digit_chars_ge [c] _
  rw [Nat.mod_eq_of_lt (by omega), Nat.mod_eq_of_lt (by omega)] at less
  omega

end Digits

/-! ## The suffix -/

theorem suffix_spec : ∀ pair ∈ sizeSuffixes,
    (∀ c ∈ pair.1.toList.head?, c.isDigit = false) ∧ 0 < pair.2 ∧
      (sizeMultiplier pair.1).toNat = pair.2 := by
  have checked : (sizeSuffixes.all fun pair => pair.1.toList.head?.all (!·.isDigit) &&
      decide (0 < pair.2) && decide ((sizeMultiplier pair.1).toNat = pair.2)) = true := by
    decide +kernel
  intro pair member
  have one := List.all_eq_true.1 checked pair member
  simp only [Bool.and_eq_true, decide_eq_true_eq] at one
  rcases one with ⟨⟨stops, positive⟩, multiplier⟩
  refine ⟨?_, positive, multiplier⟩
  intro c isHead
  rw [Option.mem_def] at isHead
  simpa [isHead] using stops

/-- The division tells whether the product fits. -/
theorem scaled_saturates (val multiplier : UInt64) (positive : 0 < multiplier.toNat) :
    (if kSizeMax / multiplier < val then kSizeMax else val * multiplier).toNat =
      min (val.toNat * multiplier.toNat) (2 ^ 64 - 1) := by
  have limit : kSizeMax.toNat = 2 ^ 64 - 1 := rfl
  have exceeds : kSizeMax / multiplier < val ↔ 2 ^ 64 - 1 < val.toNat * multiplier.toNat := by
    rw [UInt64.lt_iff_toNat_lt, UInt64.toNat_div, limit, Nat.div_lt_iff_lt_mul positive]
  split_ifs with larger
  · rw [exceeds] at larger
    rw [limit, Nat.min_eq_right (by omega)]
  · rw [exceeds] at larger
    rw [UInt64.toNat_mul, Nat.mod_eq_of_lt (by omega), Nat.min_eq_left (by omega)]

/-! ## The size -/

section Size

variable {digits : List Char} {suffix : String} {factor : Nat}

theorem parse_size_cases (allDigits : ∀ c ∈ digits, c.isDigit = true)
    (known : (suffix, factor) ∈ sizeSuffixes) :
    (RemainderDrops 0 digits ∧ (parseSize (String.ofList digits ++ suffix)).toNat = 2 ^ 64 - 1) ∨
      (¬RemainderDrops 0 digits ∧ (parseSize (String.ofList digits ++ suffix)).toNat =
        min (decimal digits % 2 ^ 64 * factor) (2 ^ 64 - 1)) := by
  rcases suffix_spec _ known with ⟨stops, positive, multiplier⟩
  have characters : (String.ofList digits ++ suffix).toList = digits ++ suffix.toList := by simp
  unfold parseSize
  rw [characters]
  rcases parse_digits_run 0 allDigits stops with ⟨drops, parsed⟩ | ⟨keeps, parsed⟩
  · refine .inl ⟨drops, ?_⟩
    change parseDigits 0 _ = none at parsed
    rw [parsed]
    rfl
  · refine .inr ⟨keeps, ?_⟩
    change parseDigits 0 _ = _ at parsed
    rw [parsed]
    simp only [String.ofList_toList]
    rw [scaled_saturates _ _ (by rw [multiplier]; exact positive), multiplier, UInt64.toNat_ofNat']
    rfl

/-- The size is the saturated product exactly if the number has 64 bits, or the
overflow shows: in a remainder that drops at some digit, or in the last step. -/
theorem parse_size_saturates_iff (allDigits : ∀ c ∈ digits, c.isDigit = true)
    (known : (suffix, factor) ∈ sizeSuffixes) :
    (parseSize (String.ofList digits ++ suffix)).toNat = min (decimal digits * factor) (2 ^ 64 - 1) ↔
      decimal digits < 2 ^ 64 ∨ RemainderDrops 0 digits ∨
        2 ^ 64 - 1 ≤ decimal digits % 2 ^ 64 * factor := by
  have positive : 0 < factor := (suffix_spec _ known).2.1
  have large : 2 ^ 64 ≤ decimal digits → min (decimal digits * factor) (2 ^ 64 - 1) = 2 ^ 64 - 1 := by
    intro wraps
    have product := Nat.le_mul_of_pos_right (decimal digits) positive
    exact Nat.min_eq_right (by omega)
  rcases parse_size_cases allDigits known with ⟨drops, size⟩ | ⟨keeps, size⟩
  · have wraps : 2 ^ 64 ≤ decimal digits := by
      by_contra small
      exact small_number_keeps (Nat.lt_of_not_le small) drops
    rw [size, large wraps]
    exact ⟨fun _ => .inr (.inl drops), fun _ => rfl⟩
  · rw [size]
    by_cases small : decimal digits < 2 ^ 64
    · rw [Nat.mod_eq_of_lt small]
      exact ⟨fun _ => .inl small, fun _ => rfl⟩
    · rw [large (Nat.le_of_not_lt small), min_eq_right_iff]
      simp only [small, keeps, false_or]

end Size

theorem parse_size_saturates_iff_kilobytes :
    let digits := ['6', '4']
    (parseSize (String.ofList digits ++ "KB")).toNat = min (decimal digits * 2 ^ 10) (2 ^ 64 - 1) ↔
      decimal digits < 2 ^ 64 ∨ RemainderDrops 0 digits ∨
        2 ^ 64 - 1 ≤ decimal digits % 2 ^ 64 * 2 ^ 10 := by
  intro digits
  have allDigits : digits.all Char.isDigit = true := by decide
  exact parse_size_saturates_iff (List.all_eq_true.1 allDigits) (by decide)

/-- The remainder of the number is larger than what the first nineteen digits denote. -/
theorem wrapped_size_accepted :
    (parseSize "30000000000000000000").toNat = 11553255926290448384 ∧
      (parseSize "30000000000000000000").toNat ≠
        min (decimal "30000000000000000000".toList * 1) (2 ^ 64 - 1) := by
  decide +kernel

end AttentionDB
