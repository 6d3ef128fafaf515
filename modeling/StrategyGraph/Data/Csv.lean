import StrategyGraph.Text.Blank

/-!
# Tables of separated values

A table is a sequence of records, each a sequence of fields. Commas separate
fields and line ends of either kind end records. A field that starts with a
quote runs to the closing quote, with a quote inside written twice; an unclosed
one runs to the end of the table. Empty lines are no records.

The reader takes one byte at a time and knows for every record where it took up
reading: right behind the byte that ended the record before. Texts are decoded
record by record, so that a fault in a record does not hide faults before it.
-/

namespace StrategyGraph
namespace Csv

/-- A byte of a table. -/
abbrev Byte := UInt8

/-- A place in a table. -/
structure Location where
  /-- Line, the first being one. -/
  line : Nat
  /-- Number of bytes before the place. -/
  byte : Nat
  deriving DecidableEq, Repr

/-- A record of a table. -/
structure Record where
  /-- Where the reader took up reading. -/
  location : Location
  fields : List (List Byte)

/-- What the reader is in the middle of. -/
inductive Phase where
  /-- Before the first byte of a record. -/
  | recordStart
  /-- Before the first byte of a field, behind a comma. -/
  | fieldStart
  /-- In a field, outside quotes. -/
  | plain
  /-- In a field, between quotes. -/
  | quoted
  /-- Behind a quote that closes a field, unless another one follows. -/
  | quoteSeen
  deriving DecidableEq, Repr

/-- What has been read: the current field, the fields before it in the same
record and the records before, each with the latest first. -/
structure Progress where
  phase : Phase
  /-- Behind the last byte taken. -/
  here : Location
  /-- Where the current record was taken up. -/
  taken : Location
  field : List Byte
  fields : List (List Byte)
  records : List Record

/-- The quote. -/
def quote : Byte := 0x22

/-- The comma. -/
def comma : Byte := 0x2c

/-- The byte that counts lines. -/
def lineFeed : Byte := 0x0a

/-- Whether a byte ends a line. -/
def isLineEnd (byte : Byte) : Bool :=
  byte = lineFeed || byte = 0x0d

namespace Location

/-- The start of a table. -/
def start : Location := ⟨1, 0⟩

/-- The place behind a byte. -/
def behind (location : Location) (byte : Byte) : Location where
  line := if byte = lineFeed then location.line + 1 else location.line
  byte := location.byte + 1

end Location

namespace Progress

/-- Nothing has been read but what precedes a place. -/
def startAt (here : Location) : Progress where
  phase := .recordStart
  here := here
  taken := .start
  field := []
  fields := []
  records := []

/-- Add a byte to the field. -/
def push (progress : Progress) (phase : Phase) (byte : Byte) : Progress :=
  { progress with phase, field := byte :: progress.field }

/-- End the field. -/
def endField (progress : Progress) : Progress :=
  { progress with
    phase := .fieldStart
    field := []
    fields := progress.field.reverse :: progress.fields }

/-- End the field and the record. The next record is taken up here. -/
def endRecord (progress : Progress) : Progress where
  phase := .recordStart
  here := progress.here
  taken := progress.here
  field := []
  fields := []
  records :=
    ⟨progress.taken, (progress.field.reverse :: progress.fields).reverse⟩ ::
      progress.records

/-- Take a byte outside quotes. -/
def takePlain (progress : Progress) (byte : Byte) : Progress :=
  if byte = comma then progress.endField
  else if isLineEnd byte then progress.endRecord
  else progress.push .plain byte

/-- Take a byte at the start of a field. -/
def takeFirst (progress : Progress) (byte : Byte) : Progress :=
  if byte = quote then { progress with phase := .quoted }
  else progress.takePlain byte

/-- Take a byte in the current phase. -/
def takeIn (progress : Progress) (byte : Byte) : Progress :=
  match progress.phase with
  | .recordStart =>
      if isLineEnd byte then progress else progress.takeFirst byte
  | .fieldStart => progress.takeFirst byte
  | .plain => progress.takePlain byte
  | .quoted =>
      if byte = quote then { progress with phase := .quoteSeen }
      else progress.push .quoted byte
  | .quoteSeen =>
      if byte = quote then progress.push .quoted byte
      else progress.takePlain byte

/-- Take the next byte. -/
def take (progress : Progress) (byte : Byte) : Progress :=
  { progress with here := progress.here.behind byte }.takeIn byte

/-- Records of a table that ends here. -/
def finish (progress : Progress) : List Record :=
  match progress.phase with
  | .recordStart => progress.records.reverse
  | _ => progress.endRecord.records.reverse

end Progress

/-- The mark that may open a text in UTF-8. -/
def mark : List Byte := [0xef, 0xbb, 0xbf]

/-- Records of a table. A mark at its start belongs to no record. -/
def records (bytes : List Byte) : List Record :=
  if mark.isPrefixOf bytes then
    ((bytes.drop mark.length).foldl Progress.take
      (.startAt { Location.start with byte := mark.length })).finish
  else (bytes.foldl Progress.take (.startAt .start)).finish

/-- Characters of a field without the blanks around them, if it is in UTF-8. -/
def decodeField (field : List Byte) : Option (List Char) :=
  (String.fromUTF8? (ByteArray.mk field.toArray)).map fun text =>
    Blank.trim text.toList

/-- Characters of several fields, if all are in UTF-8. -/
def decode (fields : List (List Byte)) : Option (List (List Char)) :=
  fields.mapM decodeField

end Csv
end StrategyGraph
