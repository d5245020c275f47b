import AttentionDB.Index.ConcurrentHashMap
import AttentionDB.Lib.FixedCodec
import AttentionDB.Storage.Segment
import Mathlib.Data.List.Sort

/-!
# The checkpoint file

A checkpoint is a 64-byte header and one packed record for each index entry,
in the order of the raw key bytes. `save` is cut where it calls the system, so
that a run may stop between any two calls; a stream that has failed stays
failed. `load` reads one file from its start. The hash is whatever function of
the bytes fed to it.
-/

namespace AttentionDB

open ByteMap

set_option autoImplicit false

def kCheckpointMagic : UInt32 := 0x41444249

def kCheckpointVersion : UInt32 := 1

def kMaxEntries : UInt64 := 100000000

structure CheckpointFileHeader where
  magic : UInt32
  version : UInt32
  entryCount : UInt64
  timestamp : UInt64
  checksum : UInt32
  reserved : Vector UInt8 36
  deriving DecidableEq, Repr

namespace Checkpoint

abbrev Record := StorageKey × IndexEntry

/-! ## The packed structures -/

/-- The two timestamps take six bytes each. -/
def timeCodec : FixedCodec (BitVec 48) := FixedCodec.number 6 48 rfl

def entryCodec : FixedCodec IndexEntry :=
  (FixedCodec.u8.pair <| FixedCodec.u64.pair <| FixedCodec.u32.pair <| FixedCodec.u32.pair <|
    FixedCodec.u16.pair <| FixedCodec.u32.pair <| timeCodec.pair <| FixedCodec.u16.pair <|
    FixedCodec.u8.pair <| FixedCodec.u32.pair <| timeCodec.pair <| FixedCodec.u32.pair
    (FixedCodec.bytes 18)).xmap
    (fun (tier, address, length, segmentId, flags, recomputeCost, lastAccess, accessCount,
        slruSegment, numTokens, createdAt, checksum, reserved) =>
      { tier, address, length, segmentId, flags, recomputeCost, lastAccess, accessCount,
        slruSegment, numTokens, createdAt, checksum, reserved })
    (fun entry =>
      (entry.tier, entry.address, entry.length, entry.segmentId, entry.flags, entry.recomputeCost,
        entry.lastAccess, entry.accessCount, entry.slruSegment, entry.numTokens, entry.createdAt,
        entry.checksum, entry.reserved))
    (fun _ => rfl) fun _ => rfl

def headerCodec : FixedCodec CheckpointFileHeader :=
  (FixedCodec.u32.pair <| FixedCodec.u32.pair <| FixedCodec.u64.pair <| FixedCodec.u64.pair <|
    FixedCodec.u32.pair (FixedCodec.bytes 36)).xmap
    (fun (magic, version, entryCount, timestamp, checksum, reserved) =>
      { magic, version, entryCount, timestamp, checksum, reserved })
    (fun header =>
      (header.magic, header.version, header.entryCount, header.timestamp, header.checksum,
        header.reserved))
    (fun _ => rfl) fun _ => rfl

def recordCodec : FixedCodec Record := keyCodec.pair entryCodec

theorem header_width : headerCodec.width = 64 := rfl

theorem record_width : recordCodec.width = 94 := rfl

/-! ## Saving -/

/-- `std::sort` by `memcmp` of the raw keys. -/
def sortEntries (entries : List Record) : List Record :=
  entries.insertionSort fun left right => left.1.bytes ≤ right.1.bytes

def placeholderHeader (entries : List Record) (now : UInt64) : CheckpointFileHeader where
  magic := kCheckpointMagic
  version := kCheckpointVersion
  entryCount := UInt64.ofNat entries.length
  timestamp := now
  checksum := 0
  reserved := Vector.replicate 36 0

/-- The `ofstream` on the temporary file. What a failed call leaves there is
never read. -/
structure OutStream where
  content : List UInt8 := []
  pos : Nat := 0
  good : Bool := true
  deriving DecidableEq, Repr

namespace OutStream

def write (out : OutStream) (bytes : List UInt8) (ok : Bool) : OutStream :=
  if out.good && ok then
    { out with
      content := out.content.take out.pos ++ bytes ++ out.content.drop (out.pos + bytes.length)
      pos := out.pos + bytes.length }
  else { out with good := false }

def seekp (out : OutStream) (ok : Bool) : OutStream :=
  if out.good && ok then { out with pos := 0 } else { out with good := false }

def flush (out : OutStream) (ok : Bool) : OutStream := { out with good := out.good && ok }

end OutStream

/-- The next call of `save`. Inside the loop `fed` is what the hash has seen. -/
inductive SavePc where
  | entered
  | opening
  | placeholder
  | creatingState (header : CheckpointFileHeader)
  | writingKey (header : CheckpointFileHeader) (fed : List UInt8) (record : Record)
      (rest : List Record)
  | writingEntry (header : CheckpointFileHeader) (fed : List UInt8) (record : Record)
      (rest : List Record)
  | seeking (header : CheckpointFileHeader)
  | rewriting (header : CheckpointFileHeader)
  | flushing
  | replacing
  | clearing
  | returned (status : Status)
  | threw
  deriving DecidableEq, Repr

inductive SaveCall where
  | loadDirty
  | openStream (ok : Bool)
  | writePlaceholder (now : UInt64) (ok : Bool)
  | createState (ok : Bool)
  | write (ok : Bool)
  | seekp (ok : Bool)
  | flush (ok : Bool)
  | rename (ok : Bool)
  | clearDirty
  deriving DecidableEq, Repr

def SaveCall.fails : SaveCall → Bool
  | .loadDirty | .clearDirty => false
  | .openStream ok | .writePlaceholder _ ok | .createState ok | .write ok | .seekp ok | .flush ok
  | .rename ok => !ok

/-- One `save` after `snapshot` gave `entries`: the checkpoint file, if there is
one, the dirty flag and the stream. -/
structure SaveRun where
  entries : List Record
  file : Option (List UInt8)
  dirty : Bool
  out : OutStream := {}
  pc : SavePc := .entered
  deriving DecidableEq, Repr

section Hash

variable (xxh32 : List UInt8 → UInt32)

def SavePc.loop (header : CheckpointFileHeader) (fed : List UInt8) : List Record → SavePc
  | [] => .seeking { header with checksum := xxh32 fed }
  | record :: rest => .writingKey header fed record rest

def SaveRun.step (run : SaveRun) (call : SaveCall) : Option SaveRun :=
  match run.pc, call with
  | .entered, .loadDirty =>
      some { run with
        pc := if run.entries = [] ∧ run.dirty = false then .returned .kOk else .opening }
  | .opening, .openStream ok =>
      some { run with out := {}, pc := if ok then .placeholder else .returned .kIOError }
  | .placeholder, .writePlaceholder now ok =>
      let header := placeholderHeader run.entries now
      some { run with out := run.out.write (headerCodec.encode header) ok, pc := .creatingState header }
  | .creatingState header, .createState ok =>
      some { run with
        pc := if ok then .loop xxh32 header [] (sortEntries run.entries) else .returned .kIOError }
  | .writingKey header fed record rest, .write ok =>
      some { run with
        out := run.out.write (keyCodec.encode record.1) ok
        pc := .writingEntry header fed record rest }
  | .writingEntry header fed record rest, .write ok =>
      let out := run.out.write (entryCodec.encode record.2) ok
      let fed := fed ++ keyCodec.encode record.1 ++ entryCodec.encode record.2
      some { run with
        out
        pc := if out.good then .loop xxh32 header fed rest else .returned .kIOError }
  | .seeking header, .seekp ok => some { run with out := run.out.seekp ok, pc := .rewriting header }
  | .rewriting header, .write ok =>
      some { run with out := run.out.write (headerCodec.encode header) ok, pc := .flushing }
  | .flushing, .flush ok =>
      let out := run.out.flush ok
      some { run with out, pc := if out.good then .replacing else .returned .kIOError }
  | .replacing, .rename ok =>
      some (if ok then { run with file := some run.out.content, pc := .clearing }
        else { run with pc := .threw })
  | .clearing, .clearDirty => some { run with dirty := false, pc := .returned .kOk }
  | _, _ => none

def SaveRun.steps (run : SaveRun) : List SaveCall → Option SaveRun
  | [] => some run
  | call :: calls =>
      match run.step xxh32 call with
      | none => none
      | some run => run.steps calls

/-! ## Loading -/

/-- An `ifstream`: the bytes ahead, and whether no read has failed. -/
structure InStream where
  ahead : List UInt8
  good : Bool := true

/-- A read into an object of zeros. At the end of the file it gets what there
is, and the stream fails. -/
def InStream.read (input : InStream) (count : Nat) : List UInt8 × InStream :=
  if input.good then
    let got := input.ahead.take count
    (got ++ List.replicate (count - got.length) 0,
      { ahead := input.ahead.drop count, good := decide (got.length = count) })
  else (List.replicate count 0, input)

/-- The loop of `load`: the bytes fed to the hash and the entries read. -/
def loadEntries : Nat → InStream → List UInt8 → List Record → Option (List UInt8 × List Record)
  | 0, _, fed, entries => some (fed, entries)
  | count + 1, input, fed, entries =>
      let (keyBytes, input) := input.read keyCodec.width
      let (entryBytes, input) := input.read entryCodec.width
      let key := keyCodec.decode keyBytes
      let entry := entryCodec.decode entryBytes
      if input.good then
        loadEntries count input (fed ++ keyCodec.encode key ++ entryCodec.encode entry)
          (entries ++ [(key, entry)])
      else none

structure LoadIo where
  opened : Bool := true
  stateCreated : Bool := true

def load (file : Option (List UInt8)) (io : LoadIo) (index : ConcurrentHashMap) :
    Status × ConcurrentHashMap :=
  match file with
  | none => (.kNotFound, index)
  | some bytes =>
      if io.opened then
        let (headerBytes, input) := InStream.read { ahead := bytes } headerCodec.width
        let header := headerCodec.decode headerBytes
        if header.magic ≠ kCheckpointMagic ∨ header.version ≠ kCheckpointVersion then
          (.kCorruption, index)
        else if kMaxEntries < header.entryCount then (.kCorruption, index)
        else
          let expectedBody := header.entryCount.toNat * (keyCodec.width + entryCodec.width) % 2 ^ 64
          if bytes.length < (headerCodec.width + expectedBody) % 2 ^ 64 then (.kCorruption, index)
          else if io.stateCreated then
            match loadEntries header.entryCount.toNat input [] [] with
            | none => (.kCorruption, index)
            | some (fed, entries) =>
                if xxh32 fed ≠ header.checksum then (.kCorruption, index)
                else (.kOk, index.bulkLoad entries)
          else (.kIOError, index)
      else (.kIOError, index)

end Hash

end Checkpoint

end AttentionDB
