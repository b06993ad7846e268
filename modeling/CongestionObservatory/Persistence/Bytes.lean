import CongestionObservatory.Lib.LittleEndian
import CongestionObservatory.Lib.Decoder
import CongestionObservatory.Core.Limits
import CongestionObservatory.Model.Generation

/-!
# `CongestionObservatory.Persistence.Bytes`: the byte writer and the byte reader

`ByteWriter` and `ByteReader` (`persistence/snapshot.cpp`) turn fields into bytes and back. The
integers are little endian, a text is its length and its bytes. A writer function is modelled by
the bytes it appends. The reader notes its first failure and goes on with zeros and empty texts,
and its callers look at `ok` when they are done.
-/

set_option autoImplicit false

namespace CongestionObservatory

open Lib

namespace ByteWriter

/-- `ByteWriter::u8`. -/
def u8 (value : UInt8) : Text := [value]

/-- `ByteWriter::u16`. -/
def u16 (value : UInt16) : Text := LittleEndian.encode 2 value.toNat

/-- `ByteWriter::u32`. -/
def u32 (value : UInt32) : Text := LittleEndian.encode 4 value.toNat

/-- `ByteWriter::u64`. -/
def u64 (value : UInt64) : Text := LittleEndian.encode 8 value.toNat

/-- `ByteWriter::i64`. -/
def i64 (value : Int64) : Text := u64 value.toUInt64

/-- `u8(value ? 1 : 0)`. -/
def flag (value : Bool) : Text := u8 (if value then 1 else 0)

/-- The number of elements that precedes them, as `static_cast<std::uint32_t>(size)`. -/
def size (length : Nat) : Text := u32 (UInt32.ofNat length)

/-- `ByteWriter::text`. -/
def text (value : Text) : Text := size value.length ++ value

/-- `ByteWriter::digest_id`. -/
def digestId {Tag : Type} (id : DigestId Tag) : Text := u64 id.word0 ++ u64 id.word1

/-- A list: the number of its elements, then the elements. -/
def list {α : Type} (write : α → Text) (elements : List α) : Text :=
  size elements.length ++ elements.flatMap write

end ByteWriter

/-- `ByteReader`: what reads a value of `α`. -/
abbrev ByteReader (α : Type) := Decoder Text Error α

namespace ByteReader

/-- `ByteReader::fail`. -/
def fail (what : String) : ByteReader Unit := Decoder.note (ascii what)

/-- `ByteReader::remaining`. -/
def remaining : ByteReader Nat := fun c => .ok (c.rest.length, c)

/-- `ByteReader::u8`. -/
def u8 : ByteReader UInt8 := fun c =>
  match c.rest with
  | [] => (do fail "truncated snapshot: byte"; pure 0 : ByteReader UInt8) c
  | byte :: rest => .ok (byte, { c with rest := rest })

/-- The loop of the wider integers: each byte is shifted to its place. -/
def unsigned : Nat → ByteReader Nat
  | 0 => pure 0
  | width + 1 => do
    let byte ← u8
    let high ← unsigned width
    pure (byte.toNat + 256 * high)

/-- `ByteReader::u16`. -/
def u16 : ByteReader UInt16 := UInt16.ofNat <$> unsigned 2

/-- `ByteReader::u32`. -/
def u32 : ByteReader UInt32 := UInt32.ofNat <$> unsigned 4

/-- `ByteReader::u64`. -/
def u64 : ByteReader UInt64 := UInt64.ofNat <$> unsigned 8

/-- `ByteReader::i64`. -/
def i64 : ByteReader Int64 := UInt64.toInt64 <$> u64

/-- `ByteReader::boolean`. -/
def boolean : ByteReader Bool := (· != 0) <$> u8

/-- The next bytes of a text whose length was checked. -/
def take (length : Nat) : ByteReader Text := fun c =>
  .ok (c.rest.take length, { c with rest := c.rest.drop length })

/-- `ByteReader::text`. -/
def text (limits : Limits) : ByteReader Text := do
  let length ← u32
  if ← Decoder.ok then
    if length.toNat > limits.maxDocumentBytes ∨ length.toNat > (← remaining) then
      fail "snapshot text field exceeds the configured bound"
      pure []
    else take length.toNat
  else pure []

/-- `ByteReader::digest_id`, as the identity `from_digest` makes of it. -/
def digestId {Tag : Type} : ByteReader (DigestId Tag) := DigestId.mk <$> u64 <*> u64

/-- `ByteReader::count`: a number that is checked against its bound. -/
def count (bound : Nat) (what : String) : ByteReader Nat := do
  let value ← u32
  if ← Decoder.ok then
    if value.toNat > bound then
      fail what
      pure 0
    else pure value.toNat
  else pure 0

/-- The loop that fills a vector with `n` elements. -/
def times {α : Type} (n : Nat) (read : ByteReader α) : ByteReader (List α) :=
  Decoder.loop (fun elements => do
    let element ← read
    pure (elements ++ [element])) n []

/-- A counted list: the number within its bound, then the elements. -/
def list {α : Type} (bound : Nat) (what : String) (read : ByteReader α) : ByteReader (List α) := do
  let n ← count bound what
  times n read

/-- An enumeration that is stored as a byte. -/
def enum8 {E : Type} [ScopedEnum E UInt8] : ByteReader E := ofUnderlying <$> u8

/-- A text that is parsed. The error of the parser ends the reading. -/
def parsed {α : Type} (limits : Limits) (parse : Text → Result α) : ByteReader α := do
  let value ← text limits
  match parse value with
  | .error e => throw e
  | .ok a => pure a

end ByteReader

/-- `write_generation`. -/
def writeGeneration (generation : GenerationVector) : Text :=
  ByteWriter.u64 generation.epoch ++ ByteWriter.u64 generation.generation
    ++ ByteWriter.u64 generation.revision

/-- `read_generation`. -/
def readGeneration : ByteReader GenerationVector :=
  GenerationVector.mk <$> ByteReader.u64 <*> ByteReader.u64 <*> ByteReader.u64

/-- `write_subject`. -/
def writeSubject (subject : EvidenceSubject) : Text :=
  ByteWriter.u8 subject.kind.toUInt8 ++ ByteWriter.text subject.str

/-- `read_subject`. Of the kind only whether it is `none` is looked at. -/
def readSubject (limits : Limits) : ByteReader EvidenceSubject := do
  let kind ← ByteReader.u8
  let text ← ByteReader.text limits
  if ← Decoder.ok then
    if kind = SubjectKind.none.toUInt8 then pure .none
    else match parseSubject text with
    | .error _ =>
      ByteReader.fail "snapshot contains an unparsable subject"
      pure .none
    | .ok subject => pure subject
  else pure .none

end CongestionObservatory
