import CodeMetrics.Text.Lines
import CodeMetrics.Text.Quoted
import CodeMetrics.Text.Utf8

/-!
# Text encodings

The bytes of a file are read as text in one of four encodings. Line ends become line feeds.
-/

namespace CodeMetrics

/-- The encodings. -/
inductive Encoding where
  | utf8
  /-- UTF-8 with a byte order mark, which is dropped. -/
  | utf8Signed
  | latin1
  | ascii
deriving DecidableEq, Repr

/-- Bytes that are not text in an encoding. -/
structure DecodeError where
  codec : String
  start : Nat
  width : Nat
  /-- The byte at the start. -/
  byte : UInt8
  reason : String
deriving DecidableEq, Repr

/-- The wording of a decoding error. -/
def DecodeError.message (error : DecodeError) : String :=
  "'" ++ error.codec ++ "' codec can't decode " ++
    (if error.width = 1 then
      "byte 0x" ++ String.ofList (Text.hexDigits 2 error.byte.toNat) ++ s!" in position {error.start}"
    else s!"bytes in position {error.start}-{error.start + error.width - 1}") ++
    ": " ++ error.reason

namespace Encoding

/-- The names of an encoding, in lower case and with underscores between their parts. -/
def names : Encoding → List String
  | .utf8 => ["utf_8", "utf8", "utf", "u8", "utf8_ucs2", "utf8_ucs4", "cp65001"]
  | .utf8Signed => ["utf_8_sig"]
  | .latin1 =>
      ["latin_1", "latin1", "latin", "l1", "iso_8859_1", "iso8859_1", "iso8859", "8859", "cp819",
        "ibm819", "csisolatin1", "iso_8859_1_1987", "iso_ir_100"]
  | .ascii =>
      ["ascii", "us_ascii", "us", "646", "iso646_us", "iso_646.irv_1991", "iso_ir_6", "cp367",
        "ibm367", "csascii", "ansi_x3.4_1968", "ansi_x3_4_1968", "ansi_x3.4_1986"]

/-- The parts of a name, in lower case: its runs of letters, digits and points. -/
def nameParts : List Char → List (List Char)
  | [] => [[]]
  | character :: rest =>
      if character.isAlphanum || character == '.' then
        match nameParts rest with
        | [] => [[character.toLower]]
        | part :: parts => (character.toLower :: part) :: parts
      else [] :: nameParts rest

/-- A name in lower case, with one underscore for whatever stands between its parts. -/
def plainName (name : String) : String :=
  String.intercalate "_"
    (((nameParts name.toList).filter fun part => !part.isEmpty).map String.ofList)

/-- The encoding with the given name. A null character would end the name. -/
def ofName? (name : String) : Option Encoding :=
  if '\x00' ∈ name.toList then none
  else [utf8, utf8Signed, latin1, ascii].find? fun encoding => plainName name ∈ encoding.names

/-- The byte order mark. -/
def byteOrderMark : List UInt8 := [0xef, 0xbb, 0xbf]

/-- Read UTF-8. -/
def decodeUtf8 (bytes : List UInt8) : Except DecodeError (List Char) :=
  match Text.decodeUtf8 bytes with
  | .ok characters => .ok characters
  | .error fault =>
      .error ⟨"utf-8", fault.offset, fault.width, (bytes[fault.offset]?).getD 0, fault.reason.message⟩

/-- Read ASCII from the given offset. -/
def decodeAscii (offset : Nat) : List UInt8 → Except DecodeError (List Char)
  | [] => .ok []
  | byte :: bytes => do
      if byte < 0x80 then
        let rest ← decodeAscii (offset + 1) bytes
        return Char.ofNat byte.toNat :: rest
      else .error ⟨"ascii", offset, 1, byte, "ordinal not in range(128)"⟩

/-- Read bytes in an encoding. The beginning of a byte order mark alone is an empty text. -/
def decode (bytes : List UInt8) : Encoding → Except DecodeError (List Char)
  | .utf8 => decodeUtf8 bytes
  | .utf8Signed =>
      if bytes.isPrefixOf byteOrderMark then .ok []
      else if byteOrderMark.isPrefixOf bytes then decodeUtf8 (bytes.drop 3)
      else decodeUtf8 bytes
  | .latin1 => .ok (bytes.map fun byte => Char.ofNat byte.toNat)
  | .ascii => decodeAscii 0 bytes

/-- Read the text of a file. -/
def decodeText (encoding : Encoding) (bytes : List UInt8) : Except DecodeError String := do
  let characters ← encoding.decode bytes
  return String.ofList (Text.unifyLineEnds characters)

end Encoding

end CodeMetrics
