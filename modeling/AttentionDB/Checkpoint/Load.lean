import AttentionDB.Checkpoint.Checkpoint

/-!
# What `load` accepts

`load` accepts exactly the files that hold a whole image with a matching
checksum. It touches the index in its last step only, so any other file leaves
the index as it was.
-/

namespace AttentionDB.Checkpoint

set_option autoImplicit false

/-! ## Reading -/

theorem read_enough (bytes : List UInt8) (count : Nat) (enough : count ≤ bytes.length) :
    InStream.read { ahead := bytes } count = (bytes.take count, { ahead := bytes.drop count }) := by
  have got : (bytes.take count).length = count := by
    rw [List.length_take]
    omega
  simp only [InStream.read, if_true, got, Nat.sub_self, List.replicate_zero, List.append_nil,
    decide_true]

/-- The record at the head of a row, in the two reads of `load`. -/
theorem decode_row_succ (count : Nat) (bytes : List UInt8) :
    recordCodec.decodeRow (count + 1) bytes =
      (keyCodec.decode (bytes.take keyCodec.width),
        entryCodec.decode ((bytes.drop keyCodec.width).take entryCodec.width)) ::
      recordCodec.decodeRow count ((bytes.drop keyCodec.width).drop entryCodec.width) := by
  have key : (bytes.take recordCodec.width).take keyCodec.width = bytes.take keyCodec.width := by
    rw [List.take_take]
    rfl
  have entry : (bytes.take recordCodec.width).drop keyCodec.width =
      (bytes.drop keyCodec.width).take entryCodec.width := by
    rw [List.drop_take]
    rfl
  have later : bytes.drop recordCodec.width =
      (bytes.drop keyCodec.width).drop entryCodec.width := by
    rw [List.drop_drop]
    rfl
  rw [← key, ← entry, ← later]
  rfl

/-- With enough bytes ahead the loop reads the whole row, and the hash is fed
exactly the bytes of the row. -/
theorem load_entries_enough (count : Nat) (bytes fed : List UInt8) (entries : List Record)
    (enough : recordCodec.width * count ≤ bytes.length) :
    loadEntries count { ahead := bytes } fed entries =
      some (fed ++ bytes.take (recordCodec.width * count),
        entries ++ recordCodec.decodeRow count bytes) := by
  induction count generalizing bytes fed entries with
  | zero => simp [loadEntries, FixedCodec.decodeRow]
  | succ count ih =>
      have widths : recordCodec.width = keyCodec.width + entryCodec.width := rfl
      rw [Nat.mul_succ, widths] at enough
      have keyLength : (bytes.take keyCodec.width).length = keyCodec.width := by
        rw [List.length_take]
        omega
      have entryLength :
          ((bytes.drop keyCodec.width).take entryCodec.width).length = entryCodec.width := by
        rw [List.length_take, List.length_drop]
        omega
      have rest := ih ((bytes.drop keyCodec.width).drop entryCodec.width)
        (fed ++ bytes.take keyCodec.width ++ (bytes.drop keyCodec.width).take entryCodec.width)
        (entries ++ [(keyCodec.decode (bytes.take keyCodec.width),
          entryCodec.decode ((bytes.drop keyCodec.width).take entryCodec.width))])
        (by rw [List.length_drop, List.length_drop, widths]; omega)
      have whole : bytes.take (recordCodec.width * (count + 1)) =
          bytes.take keyCodec.width ++ (bytes.drop keyCodec.width).take entryCodec.width ++
            ((bytes.drop keyCodec.width).drop entryCodec.width).take (recordCodec.width * count) := by
        have length : recordCodec.width * (count + 1) =
            keyCodec.width + (entryCodec.width + recordCodec.width * count) := by
          rw [Nat.mul_succ, widths]
          omega
        rw [length, List.take_add, List.take_add, List.append_assoc]
      rw [loadEntries, read_enough bytes _ (by omega)]
      dsimp only
      rw [read_enough _ _ (by rw [List.length_drop]; omega)]
      dsimp only
      rw [if_pos rfl, keyCodec.encode_decode _ keyLength, entryCodec.encode_decode _ entryLength,
        rest, decode_row_succ, whole]
      simp only [List.append_assoc, List.cons_append, List.nil_append]

/-! ## The images that are accepted -/

def imageHeader (bytes : List UInt8) : CheckpointFileHeader :=
  headerCodec.decode (bytes.take headerCodec.width)

def imageCount (bytes : List UInt8) : Nat := (imageHeader bytes).entryCount.toNat

def imageBody (bytes : List UInt8) : List UInt8 :=
  (bytes.drop headerCodec.width).take (recordCodec.width * imageCount bytes)

def imageEntries (bytes : List UInt8) : List Record :=
  recordCodec.decodeRow (imageCount bytes) (bytes.drop headerCodec.width)

section Hash

variable (xxh32 : List UInt8 → UInt32)

structure ValidImage (bytes : List UInt8) : Prop where
  header : 64 ≤ bytes.length
  magic : (imageHeader bytes).magic = kCheckpointMagic
  version : (imageHeader bytes).version = kCheckpointVersion
  count : imageCount bytes ≤ 100000000
  body : 64 + 94 * imageCount bytes ≤ bytes.length
  checksum : xxh32 (imageBody bytes) = (imageHeader bytes).checksum

theorem image_entries_length (bytes : List UInt8) :
    (imageEntries bytes).length = imageCount bytes :=
  recordCodec.decode_row_length _ _

/-- The entries are the records whose bytes make up the body. -/
theorem image_entries_body {bytes : List UInt8} (valid : ValidImage xxh32 bytes) :
    recordCodec.encodeRow (imageEntries bytes) = imageBody bytes := by
  have enough := valid.body
  apply recordCodec.encode_decode_row
  rw [List.length_drop, record_width, header_width]
  omega

/-- The size check below the cap on the count: nothing wraps around. -/
theorem expected_size (header : CheckpointFileHeader) (capped : ¬ kMaxEntries < header.entryCount) :
    (headerCodec.width + header.entryCount.toNat * (keyCodec.width + entryCodec.width) % 2 ^ 64) %
      2 ^ 64 = 64 + 94 * header.entryCount.toNat := by
  rw [UInt64.lt_iff_toNat_lt] at capped
  have cap : kMaxEntries.toNat = 100000000 := rfl
  have widths : keyCodec.width + entryCodec.width = 94 := rfl
  have header : headerCodec.width = 64 := rfl
  rw [widths, header]
  omega

/-- A file that is shorter than the header is rejected by the size check, if
not before: the zeros that stand for the missing bytes do not help it. -/
theorem load_short (bytes : List UInt8) (index : ConcurrentHashMap) (short : bytes.length < 64) :
    load xxh32 (some bytes) {} index = (.kCorruption, index) := by
  unfold load
  dsimp only
  rw [if_pos rfl]
  split_ifs with _ above fits created
  · rfl
  · rfl
  · rfl
  · rw [expected_size _ above] at fits
    omega
  · exact absurd rfl created

/-- How `load` ends on a file of any contents, when the system lets it read. -/
theorem load_cases (bytes : List UInt8) (index : ConcurrentHashMap) :
    (ValidImage xxh32 bytes ∧
      load xxh32 (some bytes) {} index = (.kOk, index.bulkLoad (imageEntries bytes))) ∨
    (¬ ValidImage xxh32 bytes ∧ load xxh32 (some bytes) {} index = (.kCorruption, index)) := by
  by_cases short : bytes.length < 64
  · refine .inr ⟨fun valid => ?_, load_short xxh32 bytes index short⟩
    have := valid.header
    omega
  · have header := read_enough bytes headerCodec.width (by rw [header_width]; omega)
    have decoded : headerCodec.decode (bytes.take headerCodec.width) = imageHeader bytes := rfl
    unfold load
    dsimp only
    rw [if_pos rfl, header]
    dsimp only
    rw [decoded, if_pos rfl]
    split_ifs with named above fits
    · refine .inr ⟨fun valid => ?_, rfl⟩
      rcases named with magic | version
      · exact magic valid.magic
      · exact version valid.version
    · refine .inr ⟨fun valid => ?_, rfl⟩
      have count := valid.count
      rw [UInt64.lt_iff_toNat_lt] at above
      exact absurd above (Nat.not_lt.2 count)
    · refine .inr ⟨fun valid => ?_, rfl⟩
      have body := valid.body
      rw [expected_size _ above] at fits
      unfold imageCount at body
      omega
    · rw [expected_size _ above] at fits
      have enough : recordCodec.width * (imageHeader bytes).entryCount.toNat ≤
          (bytes.drop headerCodec.width).length := by
        rw [List.length_drop, record_width, header_width]
        omega
      have read := load_entries_enough _ _ [] [] enough
      rw [List.nil_append, List.nil_append] at read
      rw [read]
      dsimp only
      split_ifs with mismatch
      · exact .inr ⟨fun valid => mismatch valid.checksum, rfl⟩
      · refine .inl ⟨?_, rfl⟩
        rw [not_or, not_not, not_not] at named
        exact {
          header := by omega
          magic := named.1
          version := named.2
          count := by
            rw [UInt64.lt_iff_toNat_lt] at above
            exact Nat.le_of_not_lt above
          body := by
            unfold imageCount
            omega
          checksum := not_not.1 mismatch }

theorem load_missing (io : LoadIo) (index : ConcurrentHashMap) :
    load xxh32 none io index = (.kNotFound, index) := rfl

/-- What a system failure adds: another status, and no change. -/
theorem load_system (bytes : List UInt8) (io : LoadIo) (index : ConcurrentHashMap) :
    (io.opened = true ∧ io.stateCreated = true ∧
      load xxh32 (some bytes) io index = load xxh32 (some bytes) {} index) ∨
    ((io.opened = false ∨ io.stateCreated = false) ∧
      (load xxh32 (some bytes) io index).1 ≠ .kOk ∧ (load xxh32 (some bytes) io index).2 = index) := by
  rcases io with ⟨opened, stateCreated⟩
  cases opened with
  | false => exact .inr ⟨.inl rfl, by simp [load], rfl⟩
  | true =>
      cases stateCreated with
      | true => exact .inl ⟨rfl, rfl, rfl⟩
      | false =>
          refine .inr ⟨.inr rfl, ?_⟩
          unfold load
          dsimp only
          rw [if_pos rfl]
          split_ifs with _ _ _ created
          · exact ⟨by simp, rfl⟩
          · exact ⟨by simp, rfl⟩
          · exact ⟨by simp, rfl⟩
          · exact created.elim
          · exact ⟨by simp, rfl⟩

/-- `load` is all or nothing: it accepts exactly the whole images, from which
every entry enters the index unless its key is there already, and whatever else
it meets leaves the index as it was. -/
theorem load_all_or_nothing (file : Option (List UInt8)) (io : LoadIo) (index : ConcurrentHashMap) :
    ((load xxh32 file io index).1 = .kOk ↔
      io.opened = true ∧ io.stateCreated = true ∧ ∃ bytes, file = some bytes ∧ ValidImage xxh32 bytes) ∧
    (∀ bytes, file = some bytes → (load xxh32 file io index).1 = .kOk →
      (load xxh32 file io index).2 = index.bulkLoad (imageEntries bytes) ∧
        recordCodec.encodeRow (imageEntries bytes) = imageBody bytes ∧
        (imageEntries bytes).length = imageCount bytes ∧
        ∀ key, (load xxh32 file io index).2.find key =
          (index.find key).or (((imageEntries bytes).find? fun pair => pair.1 = key).map Prod.snd)) ∧
    ((load xxh32 file io index).1 ≠ .kOk → (load xxh32 file io index).2 = index) := by
  cases file with
  | none => simp [load_missing]
  | some bytes =>
      rcases load_system xxh32 bytes io index with ⟨opened, created, same⟩ | ⟨failed, status, kept⟩
      · rw [same]
        rcases load_cases xxh32 bytes index with ⟨valid, loaded⟩ | ⟨invalid, rejected⟩
        · rw [loaded]
          refine ⟨⟨fun _ => ⟨opened, created, bytes, rfl, valid⟩, fun _ => rfl⟩, ?_, by simp⟩
          intro other named _
          cases named
          exact ⟨rfl, image_entries_body xxh32 valid, image_entries_length bytes,
            fun key => index.find_bulk_load key _⟩
        · rw [rejected]
          refine ⟨⟨by simp, ?_⟩, by simp, fun _ => rfl⟩
          rintro ⟨_, _, other, named, valid⟩
          cases named
          exact absurd valid invalid
      · refine ⟨⟨fun ok => absurd ok status, ?_⟩, fun _ _ ok => absurd ok status, fun _ => kept⟩
        rintro ⟨opened, created, _⟩
        rcases failed with notOpened | notCreated
        · rw [opened] at notOpened
          cases notOpened
        · rw [created] at notCreated
          cases notCreated

end Hash

end AttentionDB.Checkpoint
