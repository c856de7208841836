/-!
# Reading UTF-8

Bytes are cut into pieces: a character in its only valid encoding, or a fault. A fault takes the
longest run of bytes that begins some encoding but completes none, and one byte if there is no such
run. Strict reading stops at the first fault; lenient reading puts one replacement character for each.
-/

namespace CodeMetrics

namespace Text

/-- Why bytes do not encode a character. -/
inductive Utf8Fault where
  | invalidStart
  | invalidContinuation
  | unexpectedEnd
deriving DecidableEq, Repr

/-- The wording of a fault. -/
def Utf8Fault.message : Utf8Fault → String
  | .invalidStart => "invalid start byte"
  | .invalidContinuation => "invalid continuation byte"
  | .unexpectedEnd => "unexpected end of data"

/-- A stretch of bytes that is one character, or that is at fault; both with their width. -/
inductive Utf8Piece where
  | character (value : Char) (width : Nat)
  | fault (reason : Utf8Fault) (width : Nat)
deriving DecidableEq, Repr

/-- The number of bytes of a piece. -/
def Utf8Piece.width : Utf8Piece → Nat
  | .character _ width => width
  | .fault _ width => width

/-- The bytes `80` to `bf`. -/
def isContinuation (byte : UInt8) : Bool :=
  0x80 ≤ byte && byte ≤ 0xbf

/-- The second bytes that keep the encoding shortest, outside the surrogates and in range. -/
def isSecond (lead second : UInt8) : Bool :=
  isContinuation second &&
    (lead != 0xe0 || 0xa0 ≤ second) && (lead != 0xed || second ≤ 0x9f) &&
    (lead != 0xf0 || 0x90 ≤ second) && (lead != 0xf4 || second ≤ 0x8f)

/-- The length that a lead byte announces. -/
def announcedLength (lead : UInt8) : Option Nat :=
  if lead ≤ 0x7f then some 1
  else if lead < 0xc2 then none
  else if lead < 0xe0 then some 2
  else if lead < 0xf0 then some 3
  else if lead < 0xf5 then some 4
  else none

/-- The low six bits of a continuation byte. -/
def payload (byte : UInt8) : Nat := byte.toNat % 0x40

/-- The piece at the start of the bytes `lead :: rest`. -/
def firstPiece (lead : UInt8) (rest : List UInt8) : Utf8Piece :=
  match announcedLength lead with
  | none => .fault .invalidStart 1
  | some 1 => .character (Char.ofNat lead.toNat) 1
  | some 2 =>
      match rest with
      | [] => .fault .unexpectedEnd 1
      | second :: _ =>
          if isSecond lead second then
            .character (Char.ofNat (lead.toNat % 0x20 * 0x40 + payload second)) 2
          else .fault .invalidContinuation 1
  | some 3 =>
      match rest with
      | [] => .fault .unexpectedEnd 1
      | second :: afterSecond =>
          if !isSecond lead second then .fault .invalidContinuation 1
          else
            match afterSecond with
            | [] => .fault .unexpectedEnd 2
            | third :: _ =>
                if isContinuation third then
                  .character
                    (Char.ofNat
                      ((lead.toNat % 0x10 * 0x40 + payload second) * 0x40 + payload third)) 3
                else .fault .invalidContinuation 2
  | some _ =>
      match rest with
      | [] => .fault .unexpectedEnd 1
      | second :: afterSecond =>
          if !isSecond lead second then .fault .invalidContinuation 1
          else
            match afterSecond with
            | [] => .fault .unexpectedEnd 2
            | third :: afterThird =>
                if !isContinuation third then .fault .invalidContinuation 2
                else
                  match afterThird with
                  | [] => .fault .unexpectedEnd 3
                  | fourth :: _ =>
                      if isContinuation fourth then
                        .character
                          (Char.ofNat
                            (((lead.toNat % 0x08 * 0x40 + payload second) * 0x40 + payload third) *
                              0x40 + payload fourth)) 4
                      else .fault .invalidContinuation 3

/-- The pieces of a byte string, in order. -/
def utf8Pieces : List UInt8 → List Utf8Piece
  | [] => []
  | lead :: rest =>
      let piece := firstPiece lead rest
      piece :: utf8Pieces (rest.drop (piece.width - 1))
termination_by bytes => bytes.length
decreasing_by
  simp only [List.length_drop, List.length_cons]
  omega

/-- Where strict reading stops: the offset and width of the first fault, and its reason. -/
structure Utf8Error where
  offset : Nat
  width : Nat
  reason : Utf8Fault
deriving DecidableEq, Repr

/-- The characters of a list of pieces that begins at `offset`, or the first fault in it. -/
def strictChars (offset : Nat) : List Utf8Piece → Except Utf8Error (List Char)
  | [] => .ok []
  | .character value width :: pieces => do
      let characters ← strictChars (offset + width) pieces
      return value :: characters
  | .fault reason width :: _ => .error ⟨offset, width, reason⟩

/-- Strict reading. -/
def decodeUtf8 (bytes : List UInt8) : Except Utf8Error (List Char) :=
  strictChars 0 (utf8Pieces bytes)

/-- What lenient reading shows for a piece. -/
def Utf8Piece.shown : Utf8Piece → Char
  | .character value _ => value
  | .fault _ _ => '\ufffd'

/-- Lenient reading: one replacement character for each fault. -/
def decodeUtf8Lenient (bytes : List UInt8) : String :=
  String.ofList ((utf8Pieces bytes).map Utf8Piece.shown)

end Text

end CodeMetrics
