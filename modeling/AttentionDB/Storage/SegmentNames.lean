import AttentionDB.Core.ParseSize
import AttentionDB.Storage.Lifetime
import Mathlib.Data.List.TakeWhile
import Mathlib.Logic.Equiv.List

/-!
# The names of the segment files

`segment_path` prints the id of a segment into the name of its file, and the
scan of `open` parses the ids back from the names in the base paths. It takes
more names than are ever printed: `std::stoul` skips blanks and a sign, stops at
the first other character, and its number is cut to 32 bits.
-/

namespace AttentionDB

open BlobStore

set_option autoImplicit false

abbrev FileName := List Char

def segmentPrefix : FileName := ['s', 'e', 'g', 'm', 'e', 'n', 't', '_']

def segmentExtension : FileName := ['.', 's', 'e', 'g']

/-- `segment_path` behind the base path: `"segment_%04u.seg"`. -/
def segmentName (id : Nat) : FileName :=
  let digits := Nat.toDigits 10 id
  segmentPrefix ++ (List.replicate (4 - digits.length) '0' ++ digits) ++ segmentExtension

/-- `path::stem` and `path::extension`: the name is cut before its last dot,
unless that is its first character. -/
def splitExtension (name : FileName) : FileName × FileName :=
  match name.reverse.dropWhile (· ≠ '.') with
  | [] | [_] => (name, [])
  | _ :: stem =>
      if name = ['.', '.'] then (name, [])
      else (stem.reverse, '.' :: (name.reverse.takeWhile (· ≠ '.')).reverse)

def isBlank (c : Char) : Bool :=
  c = ' ' || c = '\t' || c = '\n' || c = '\r' || c.toNat = 11 || c.toNat = 12

/-- The digits at the start, as an `unsigned long`; `none` where `stoul` throws. -/
def unsignedLong (negative : Bool) (text : FileName) : Option Nat :=
  let digits := text.takeWhile Char.isDigit
  if digits = [] ∨ 2 ^ 64 ≤ decimal digits then none
  else some (if negative then (2 ^ 64 - decimal digits) % 2 ^ 64 else decimal digits)

def stoul (text : FileName) : Option Nat :=
  match text.dropWhile isBlank with
  | '-' :: rest => unsignedLong true rest
  | '+' :: rest => unsignedLong false rest
  | rest => unsignedLong false rest

/-- The id that the scan of `open` reads from a name, if it takes the name. -/
def scannedId (name : FileName) : Option Nat :=
  let (stem, extension) := splitExtension name
  if extension = segmentExtension ∧ 8 < stem.length ∧ stem.take 8 = segmentPrefix then
    (stoul (stem.drop 8)).map (· % 2 ^ 32)
  else none

/-- A file of a base path that the scan takes. New segments go to the first base
path, so only there a name is one that `segment_path` prints. -/
def segmentPathOf (base : Nat) (name : FileName) : Option SegmentPath :=
  (scannedId name).map fun id =>
    if base = 0 ∧ name = segmentName id then .canonical id
    else .other (Encodable.encode (base, name.map Char.toNat)) id

/-- A directory entry, and what the system does when the scan gets to it. -/
structure DirectoryFile where
  name : FileName
  opened : Bool := true
  headerRead : Bool := true
  statOk : Bool := true

def scanFile (base : Nat) (file : DirectoryFile) : Option ScanEntry :=
  (segmentPathOf base file.name).map fun path =>
    { path, opened := file.opened, headerRead := file.headerRead, statOk := file.statOk }

/-- The loop of `open` over the base paths, each a directory of its own. -/
def scanListing (dirs : List (List DirectoryFile)) : List ScanEntry :=
  dirs.zipIdx.flatMap fun (dir, base) => dir.filterMap (scanFile base)

/-! ## What is printed is parsed back -/

section Names

variable {id other : Nat} {name : FileName}

theorem split_segment_name (digits : FileName) :
    splitExtension (segmentPrefix ++ digits ++ segmentExtension) =
      (segmentPrefix ++ digits, segmentExtension) := by
  have reversed : (segmentPrefix ++ digits ++ segmentExtension).reverse =
      ['g', 'e', 's', '.'] ++ (segmentPrefix ++ digits).reverse := by
    rw [List.reverse_append]
    rfl
  obtain ⟨last, front, stem⟩ : ∃ last front, (segmentPrefix ++ digits).reverse = last :: front :=
    List.exists_cons_of_ne_nil (by simp [segmentPrefix])
  have notDots : segmentPrefix ++ digits ++ segmentExtension ≠ ['.', '.'] := by
    simp [segmentPrefix]
  have back : (last :: front).reverse = segmentPrefix ++ digits := by
    rw [← stem, List.reverse_reverse]
  unfold splitExtension
  rw [reversed, stem]
  simp only [List.cons_append, List.nil_append, List.dropWhile, List.takeWhile]
  simp only [ne_eq, Char.reduceEq, not_false_eq_true, decide_true, decide_false, not_true_eq_false,
    if_neg notDots, back]
  rfl

/-- Leading zeros do not change a number. -/
theorem decimal_zeros (count : Nat) (digits : List Char) :
    decimal (List.replicate count '0' ++ digits) = decimal digits := by
  rw [decimal, Nat.ofDigitChars_append, Nat.ofDigitChars_replicate_zero, Nat.mul_zero, decimal]

theorem digit_code {c : Char} (digit : c.isDigit = true) : 48 ≤ c.toNat ∧ c.toNat ≤ 57 := by
  have range := digit_iff.2 digit
  exact ⟨range.1, range.2⟩

theorem stoul_digits (digits : FileName) (nonempty : digits ≠ [])
    (all : ∀ c ∈ digits, c.isDigit = true) (small : decimal digits < 2 ^ 64) :
    stoul digits = some (decimal digits) := by
  obtain ⟨first, rest, rfl⟩ := List.exists_cons_of_ne_nil nonempty
  have code := digit_code (all first List.mem_cons_self)
  have apart : ∀ c : Char, (c.toNat < 48 ∨ 57 < c.toNat) → first ≠ c := by
    rintro c outside rfl
    omega
  have notBlank : isBlank first = false := by
    simp only [isBlank, Bool.or_eq_false_iff, decide_eq_false_iff_not]
    refine ⟨⟨⟨⟨⟨apart ' ' (by decide), apart '\t' (by decide)⟩, apart '\n' (by decide)⟩,
      apart '\r' (by decide)⟩, by omega⟩, by omega⟩
  have taken : (first :: rest).takeWhile Char.isDigit = first :: rest :=
    List.takeWhile_eq_self_iff.2 all
  unfold stoul
  rw [List.dropWhile_cons_of_neg (by simp [notBlank])]
  split
  · rename_i same
    exact absurd (List.cons.inj same).1 (apart '-' (by decide))
  · rename_i same
    exact absurd (List.cons.inj same).1 (apart '+' (by decide))
  · rw [unsignedLong, taken, if_neg]
    · rfl
    · push Not
      exact ⟨nonempty, small⟩

/-- What `segment_path` prints for an id, the scan reads as this id. -/
theorem scanned_segment_name (small : id < 2 ^ 32) : scannedId (segmentName id) = some id := by
  have digits : ∀ c ∈ List.replicate (4 - (Nat.toDigits 10 id).length) '0' ++ Nat.toDigits 10 id,
      c.isDigit = true := by
    intro c member
    rcases List.mem_append.1 member with zero | digit
    · rw [List.eq_of_mem_replicate zero]
      rfl
    · exact Nat.isDigit_of_mem_toDigits (by decide) (by decide) digit
  have value : decimal (List.replicate (4 - (Nat.toDigits 10 id).length) '0' ++
      Nat.toDigits 10 id) = id := by
    rw [decimal_zeros, decimal, Nat.ofDigitChars_ten_toDigits]
  have positive : 0 < (Nat.toDigits 10 id).length := Nat.length_toDigits_pos
  have parsed := stoul_digits _ (by simp [Nat.toDigits_ne_nil]) digits (by rw [value]; omega)
  have eight : segmentPrefix.length = 8 := rfl
  unfold scannedId segmentName
  dsimp only
  rw [split_segment_name]
  dsimp only
  rw [if_pos, List.drop_left' eight, parsed, value, Option.map_some, Nat.mod_eq_of_lt small]
  refine ⟨rfl, ?_, List.take_left' eight⟩
  simp only [List.length_append, eight]
  omega

end Names

/-! ## The files that the scan takes -/

section Paths

variable {base otherBase id : Nat} {name otherName : FileName} {path : SegmentPath}

/-- The file that a new segment with this id would get. -/
theorem segment_path_canonical (small : id < 2 ^ 32) :
    segmentPathOf base name = some (.canonical id) ↔ base = 0 ∧ name = segmentName id := by
  constructor
  · intro taken
    obtain ⟨parsed, scanned, isPath⟩ := Option.map_eq_some_iff.1 taken
    split_ifs at isPath with printed
    cases isPath
    exact printed
  · rintro ⟨rfl, rfl⟩
    rw [segmentPathOf, scanned_segment_name small, Option.map_some, if_pos ⟨rfl, rfl⟩]

theorem segment_path_injective (taken : segmentPathOf base name = some path)
    (takenOther : segmentPathOf otherBase otherName = some path) :
    base = otherBase ∧ name = otherName := by
  obtain ⟨id, _, isPath⟩ := Option.map_eq_some_iff.1 taken
  obtain ⟨otherId, _, same⟩ := Option.map_eq_some_iff.1 takenOther
  rw [← isPath] at same
  by_cases printed : base = 0 ∧ name = segmentName id
  · by_cases printedOther : otherBase = 0 ∧ otherName = segmentName otherId
    · rw [if_pos printed, if_pos printedOther, SegmentPath.canonical.injEq] at same
      rw [printed.1, printed.2, printedOther.1, printedOther.2, same]
      exact ⟨rfl, rfl⟩
    · rw [if_pos printed, if_neg printedOther] at same
      contradiction
  · by_cases printedOther : otherBase = 0 ∧ otherName = segmentName otherId
    · rw [if_neg printed, if_pos printedOther] at same
      contradiction
    · rw [if_neg printed, if_neg printedOther, SegmentPath.other.injEq] at same
      have pair := Encodable.encode_injective same.1
      rw [Prod.mk.injEq] at pair
      have codes : Function.Injective Char.toNat := fun _ _ => Char.toNat_inj.1
      exact ⟨pair.1.symm, (List.map_injective_iff.2 codes pair.2).symm⟩

/-- What the scan gets from the directories. -/
theorem mem_scan_listing {dirs : List (List DirectoryFile)} {entry : ScanEntry} :
    entry ∈ scanListing dirs ↔
      ∃ base dir file, dirs[base]? = some dir ∧ file ∈ dir ∧ scanFile base file = some entry := by
  simp only [scanListing, List.mem_flatMap, List.mem_filterMap, Prod.exists,
    List.mk_mem_zipIdx_iff_getElem?]
  constructor
  · rintro ⟨dir, base, listed, file, member, scanned⟩
    exact ⟨base, dir, file, listed, member, scanned⟩
  · rintro ⟨base, dir, file, listed, member, scanned⟩
    exact ⟨dir, base, listed, file, member, scanned⟩

theorem scan_file_path {file : DirectoryFile} {entry : ScanEntry}
    (scanned : scanFile base file = some entry) : segmentPathOf base file.name = some entry.path := by
  obtain ⟨path, taken, rfl⟩ := Option.map_eq_some_iff.1 scanned
  exact taken

/-- A directory lists no name twice, so the scan finds no path twice. -/
theorem scan_paths_nodup {dirs : List (List DirectoryFile)}
    (distinct : ∀ dir ∈ dirs, (dir.map (·.name)).Nodup) :
    ((scanListing dirs).map (·.path)).Nodup := by
  have paths : ∀ (dir : List DirectoryFile) (base : Nat), (dir.filterMap (scanFile base)).map (·.path) =
      (dir.map (·.name)).filterMap (segmentPathOf base) := by
    intro dir base
    rw [List.map_filterMap, List.filterMap_map]
    congr 1
    funext file
    simp only [scanFile, Option.map_map, Function.comp_apply, Function.comp_def, Option.map_id']
  unfold scanListing
  rw [List.map_flatMap, List.nodup_flatMap]
  constructor
  · rintro ⟨dir, base⟩ member
    have listed := List.mk_mem_zipIdx_iff_getElem?.1 member
    dsimp only
    rw [paths]
    apply (distinct dir (List.mem_of_getElem? listed)).filterMap
    intro name otherName path taken takenOther
    exact (segment_path_injective taken takenOther).2
  · have positions : dirs.zipIdx.Pairwise fun first second => first.2 ≠ second.2 := by
      have nodup : (dirs.zipIdx.map Prod.snd).Nodup := by
        rw [List.zipIdx_map_snd]
        exact List.nodup_range'
      exact List.pairwise_map.1 nodup
    apply positions.imp
    rintro ⟨dir, base⟩ ⟨otherDir, otherBase⟩ apart path inFirst inSecond
    dsimp only at inFirst inSecond apart
    rw [paths, List.mem_filterMap] at inFirst inSecond
    obtain ⟨name, _, taken⟩ := inFirst
    obtain ⟨otherName, _, takenOther⟩ := inSecond
    exact apart (segment_path_injective taken takenOther).1

end Paths

end AttentionDB
