import CodeMetrics.Text.Utf8
import Mathlib.Data.List.Basic

/-!
# Reading what was written in UTF-8

Bytes begin with a character exactly if they begin with its encoding. So strict reading accepts the
encodings of texts and nothing else, and both ways of reading give an encoded text back. Lenient
reading of an encoded text that more bytes follow is the text and a reading of those bytes.
-/

namespace CodeMetrics

namespace Text

/-! ## Classes of bytes -/

theorem payload_lt (byte : UInt8) : payload byte < 0x40 := Nat.mod_lt _ (by decide)

theorem isContinuation_iff {byte : UInt8} :
    isContinuation byte ↔ byte.toNat = payload byte + 0x80 := by
  simp only [isContinuation, Bool.and_eq_true, decide_eq_true_eq, UInt8.le_iff_toNat_le,
    UInt8.reduceToNat, payload]
  omega

theorem isSecond_iff {lead second : UInt8} :
    isSecond lead second ↔
      isContinuation second ∧
        (lead.toNat = 0xe0 → 0x20 ≤ payload second) ∧ (lead.toNat = 0xed → payload second < 0x20) ∧
        (lead.toNat = 0xf0 → 0x10 ≤ payload second) ∧
        (lead.toNat = 0xf4 → payload second < 0x10) := by
  simp only [isSecond, Bool.and_eq_true, isContinuation_iff, Bool.or_eq_true, bne_iff_ne, ne_eq,
    decide_eq_true_eq, UInt8.le_iff_toNat_le, ← UInt8.toNat_inj, UInt8.reduceToNat]
  omega

theorem announcedLength_eq_some_iff {lead : UInt8} {length : Nat} :
    announcedLength lead = some length ↔
      length = 1 ∧ lead.toNat < 0x80 ∨ length = 2 ∧ 0xc2 ≤ lead.toNat ∧ lead.toNat < 0xe0 ∨
        length = 3 ∧ 0xe0 ≤ lead.toNat ∧ lead.toNat < 0xf0 ∨
        length = 4 ∧ 0xf0 ≤ lead.toNat ∧ lead.toNat < 0xf5 := by
  simp only [announcedLength, UInt8.le_iff_toNat_le, UInt8.lt_iff_toNat_lt, UInt8.reduceToNat]
  split_ifs <;> simp only [Option.some.injEq, false_iff] <;> omega

/-- The byte of a small number. -/
theorem ofNat_eq_byte_iff {number : Nat} {byte : UInt8} (small : number < 0x100) :
    UInt8.ofNat number = byte ↔ byte.toNat = number := by
  rw [← UInt8.toNat_inj, UInt8.toNat_ofNat_of_lt' small, eq_comm]

theorem continuation_eq_iff {number : Nat} {byte : UInt8} :
    UInt8.ofNat (number % 0x40 + 0x80) = byte ↔
      isContinuation byte ∧ payload byte = number % 0x40 := by
  rw [ofNat_eq_byte_iff (by omega), isContinuation_iff, payload]
  omega

/-! ## The encoding of a character -/

/-- A character is numbered outside the surrogates. -/
theorem toNat_scalar (value : Char) :
    value.toNat < 0xd800 ∨ 0xdfff < value.toNat ∧ value.toNat < 0x110000 := value.valid

theorem ofNat_eq_iff {number : Nat} {value : Char}
    (scalar : number < 0xd800 ∨ 0xdfff < number ∧ number < 0x110000) :
    Char.ofNat number = value ↔ value.toNat = number := by
  constructor
  · rintro rfl
    rw [Char.ofNat, dif_pos scalar]
    rfl
  · rintro rfl
    exact Char.ofNat_toNat value

theorem encodeChar_eq (value : Char) :
    String.utf8EncodeChar value =
      if value.toNat ≤ 0x7f then [UInt8.ofNat value.toNat]
      else if value.toNat ≤ 0x7ff then
        [UInt8.ofNat (value.toNat / 0x40 % 0x20 + 0xc0), UInt8.ofNat (value.toNat % 0x40 + 0x80)]
      else if value.toNat ≤ 0xffff then
        [UInt8.ofNat (value.toNat / 0x1000 % 0x10 + 0xe0),
          UInt8.ofNat (value.toNat / 0x40 % 0x40 + 0x80), UInt8.ofNat (value.toNat % 0x40 + 0x80)]
      else
        [UInt8.ofNat (value.toNat / 0x40000 % 0x08 + 0xf0),
          UInt8.ofNat (value.toNat / 0x1000 % 0x40 + 0x80),
          UInt8.ofNat (value.toNat / 0x40 % 0x40 + 0x80),
          UInt8.ofNat (value.toNat % 0x40 + 0x80)] :=
  rfl

theorem encodeChar_one {value : Char} {lead : UInt8} :
    String.utf8EncodeChar value = [lead] ↔ lead.toNat < 0x80 ∧ value.toNat = lead.toNat := by
  rw [encodeChar_eq]
  split_ifs
  · simp only [List.cons.injEq, and_true]
    rw [ofNat_eq_byte_iff (by omega)]
    omega
  · exact iff_of_false (by simp) (by omega)
  · exact iff_of_false (by simp) (by omega)
  · exact iff_of_false (by simp) (by omega)

theorem encodeChar_two {value : Char} {lead second : UInt8} :
    String.utf8EncodeChar value = [lead, second] ↔
      (0xc2 ≤ lead.toNat ∧ lead.toNat < 0xe0) ∧ isSecond lead second ∧
        value.toNat = lead.toNat % 0x20 * 0x40 + payload second := by
  have bound := payload_lt second
  rw [encodeChar_eq, isSecond_iff]
  split_ifs
  · exact iff_of_false (by simp) (by omega)
  · simp only [List.cons.injEq, and_true, continuation_eq_iff]
    rw [ofNat_eq_byte_iff (by omega)]
    constructor
    · rintro ⟨first, continues, low⟩
      refine ⟨?_, ⟨continues, ?_⟩, ?_⟩ <;> omega
    · rintro ⟨range, ⟨continues, -⟩, number⟩
      refine ⟨?_, continues, ?_⟩ <;> omega
  · exact iff_of_false (by simp) (by omega)
  · exact iff_of_false (by simp) (by omega)

/-- The second byte is the one that keeps overlong forms and surrogates out. -/
theorem encodeChar_three {value : Char} {lead second third : UInt8} :
    String.utf8EncodeChar value = [lead, second, third] ↔
      (0xe0 ≤ lead.toNat ∧ lead.toNat < 0xf0) ∧ isSecond lead second ∧ isContinuation third ∧
        value.toNat = (lead.toNat % 0x10 * 0x40 + payload second) * 0x40 + payload third := by
  have bound := payload_lt second
  have boundThird := payload_lt third
  have scalar := toNat_scalar value
  rw [encodeChar_eq, isSecond_iff]
  split_ifs
  · exact iff_of_false (by simp) (by omega)
  · exact iff_of_false (by simp) (by omega)
  · simp only [List.cons.injEq, and_true, continuation_eq_iff]
    rw [ofNat_eq_byte_iff (by omega)]
    constructor
    · rintro ⟨first, ⟨continues, middle⟩, ends, low⟩
      refine ⟨?_, ⟨continues, ?_⟩, ends, ?_⟩ <;> omega
    · rintro ⟨range, ⟨continues, shortest⟩, ends, number⟩
      refine ⟨?_, ⟨continues, ?_⟩, ends, ?_⟩ <;> omega
  · exact iff_of_false (by simp) (by omega)

theorem encodeChar_four {value : Char} {lead second third fourth : UInt8} :
    String.utf8EncodeChar value = [lead, second, third, fourth] ↔
      (0xf0 ≤ lead.toNat ∧ lead.toNat < 0xf5) ∧ isSecond lead second ∧ isContinuation third ∧
        isContinuation fourth ∧
        value.toNat = ((lead.toNat % 0x08 * 0x40 + payload second) * 0x40 + payload third) * 0x40 +
          payload fourth := by
  have bound := payload_lt second
  have boundThird := payload_lt third
  have boundFourth := payload_lt fourth
  have scalar := toNat_scalar value
  rw [encodeChar_eq, isSecond_iff]
  split_ifs
  · exact iff_of_false (by simp) (by omega)
  · exact iff_of_false (by simp) (by omega)
  · exact iff_of_false (by simp) (by omega)
  · simp only [List.cons.injEq, and_true, continuation_eq_iff]
    rw [ofNat_eq_byte_iff (by omega)]
    constructor
    · rintro ⟨first, ⟨continues, high⟩, ⟨third, middle⟩, ends, low⟩
      refine ⟨?_, ⟨continues, ?_⟩, third, ends, ?_⟩ <;> omega
    · rintro ⟨range, ⟨continues, shortest⟩, third, ends, number⟩
      refine ⟨?_, ⟨continues, ?_⟩, ⟨third, ?_⟩, ends, ?_⟩ <;> omega

/-! ## The first piece -/

/-- A character is read only where its encoding stands. -/
theorem encodeChar_of_firstPiece {lead : UInt8} {rest : List UInt8} {value : Char} {width : Nat} :
    firstPiece lead rest = .character value width →
      ∃ tail after, rest = tail ++ after ∧ String.utf8EncodeChar value = lead :: tail ∧
        width = tail.length + 1 := by
  fun_cases firstPiece lead rest
  case case2 announced =>
    rintro ⟨⟩
    have range := announcedLength_eq_some_iff.mp announced
    refine ⟨[], rest, rfl, encodeChar_one.mpr ⟨by omega, (ofNat_eq_iff ?_).mp rfl⟩, rfl⟩
    omega
  case case4 announced second after accepted =>
    rintro ⟨⟩
    have range := announcedLength_eq_some_iff.mp announced
    have bound := payload_lt second
    refine ⟨[second], after, rfl,
      encodeChar_two.mpr ⟨by omega, accepted, (ofNat_eq_iff ?_).mp rfl⟩, rfl⟩
    omega
  case case9 announced second refused third after continued =>
    rintro ⟨⟩
    have range := announcedLength_eq_some_iff.mp announced
    have accepted : isSecond lead second := by simpa using refused
    obtain ⟨-, shortest⟩ := isSecond_iff.mp accepted
    have bound := payload_lt second
    have boundThird := payload_lt third
    refine ⟨[second, third], after, rfl,
      encodeChar_three.mpr ⟨by omega, accepted, continued, (ofNat_eq_iff ?_).mp rfl⟩, rfl⟩
    omega
  case case16 length one two three announced second refused third unread fourth after ends =>
    rintro ⟨⟩
    obtain known | known | known | ⟨-, range⟩ := announcedLength_eq_some_iff.mp announced
    · exact (one known.1).elim
    · exact (two known.1).elim
    · exact (three known.1).elim
    have accepted : isSecond lead second := by simpa using refused
    have continued : isContinuation third := by simpa using unread
    obtain ⟨-, shortest⟩ := isSecond_iff.mp accepted
    have bound := payload_lt second
    have boundThird := payload_lt third
    have boundFourth := payload_lt fourth
    refine ⟨[second, third, fourth], after, rfl,
      encodeChar_four.mpr ⟨by omega, accepted, continued, ends, (ofNat_eq_iff ?_).mp rfl⟩, rfl⟩
    omega
  all_goals exact fun read => Utf8Piece.noConfusion read

/-- Where the encoding of a character stands, the character is read. -/
theorem firstPiece_of_encodeChar {lead : UInt8} {tail : List UInt8} {value : Char}
    (encodes : String.utf8EncodeChar value = lead :: tail) (after : List UInt8) :
    firstPiece lead (tail ++ after) = .character value (tail.length + 1) := by
  have width : tail.length + 1 ≤ 4 := by
    rw [← List.length_cons, ← encodes, String.length_utf8EncodeChar]
    exact value.utf8Size_le_four
  match tail, width with
  | [], _ =>
      obtain ⟨range, number⟩ := encodeChar_one.mp encodes
      have announced : announcedLength lead = some 1 := announcedLength_eq_some_iff.mpr (by omega)
      simp [firstPiece, announced, ← number]
  | [second], _ =>
      obtain ⟨range, accepted, number⟩ := encodeChar_two.mp encodes
      have announced : announcedLength lead = some 2 := announcedLength_eq_some_iff.mpr (by omega)
      simp [firstPiece, announced, accepted, ← number]
  | [second, third], _ =>
      obtain ⟨range, accepted, continued, number⟩ := encodeChar_three.mp encodes
      have announced : announcedLength lead = some 3 := announcedLength_eq_some_iff.mpr (by omega)
      simp [firstPiece, announced, accepted, continued, ← number]
  | [second, third, fourth], _ =>
      obtain ⟨range, accepted, continued, ends, number⟩ := encodeChar_four.mp encodes
      have announced : announcedLength lead = some 4 := announcedLength_eq_some_iff.mpr (by omega)
      simp [firstPiece, announced, accepted, continued, ends, ← number]
  | _ :: _ :: _ :: _ :: _, width =>
      simp only [List.length_cons] at width
      omega

/-! ## Texts -/

/-- The bytes of a text. -/
def encoded (characters : List Char) : List UInt8 := characters.flatMap String.utf8EncodeChar

@[simp] theorem encoded_nil : encoded [] = [] := rfl

@[simp] theorem encoded_cons (value : Char) (characters : List Char) :
    encoded (value :: characters) = String.utf8EncodeChar value ++ encoded characters :=
  List.flatMap_cons

@[simp] theorem encoded_append (left right : List Char) :
    encoded (left ++ right) = encoded left ++ encoded right :=
  List.flatMap_append

theorem toList_loop (bytes : ByteArray) (start : Nat) (done : List UInt8) :
    ByteArray.toList.loop bytes start done = done.reverse ++ bytes.data.toList.drop start := by
  fun_induction ByteArray.toList.loop bytes start done with
  | case1 start done inside induction =>
      have bound : start < bytes.data.toList.length := inside
      have entry : bytes.get! start = bytes.data[start] := getElem!_pos bytes.data start inside
      rw [induction, List.drop_eq_getElem_cons bound, entry]
      simp
  | case2 start done outside =>
      rw [List.drop_eq_nil_of_le (Nat.le_of_not_lt outside), List.append_nil]

theorem toList_toUTF8 (text : String) : text.toUTF8.toList = encoded text.toList := by
  have bytes : text.toByteArray = (encoded text.toList).toByteArray :=
    String.utf8Encode_toList.symm
  rw [String.toUTF8_eq_toByteArray, ByteArray.toList, toList_loop, bytes,
    List.toList_data_toByteArray]
  rfl

theorem utf8Pieces_encodeChar (value : Char) (bytes : List UInt8) :
    utf8Pieces (String.utf8EncodeChar value ++ bytes) =
      .character value value.utf8Size :: utf8Pieces bytes := by
  obtain ⟨lead, tail, encodes⟩ :=
    List.exists_cons_of_ne_nil (String.utf8EncodeChar_ne_nil (c := value))
  have width : value.utf8Size = tail.length + 1 := by
    rw [← String.length_utf8EncodeChar, encodes, List.length_cons]
  rw [encodes, List.cons_append, utf8Pieces]
  simp only [firstPiece_of_encodeChar encodes, Utf8Piece.width, width, Nat.add_sub_cancel,
    List.drop_left]

theorem utf8Pieces_encoded (characters : List Char) (bytes : List UInt8) :
    utf8Pieces (encoded characters ++ bytes) =
      characters.map (fun value => .character value value.utf8Size) ++ utf8Pieces bytes := by
  induction characters with
  | nil => rfl
  | cons value characters induction =>
      rw [encoded_cons, List.append_assoc, utf8Pieces_encodeChar, induction, List.map_cons,
        List.cons_append]

/-! ## Lenient reading -/

theorem decodeUtf8Lenient_append (characters : List Char) (bytes : List UInt8) :
    decodeUtf8Lenient (encoded characters ++ bytes) =
      String.ofList characters ++ decodeUtf8Lenient bytes := by
  have shown : (characters.map fun value => Utf8Piece.character value value.utf8Size).map
      Utf8Piece.shown = characters := by
    rw [List.map_map]
    exact List.map_id characters
  rw [decodeUtf8Lenient, utf8Pieces_encoded, List.map_append, shown, String.ofList_append]
  rfl

theorem decodeUtf8Lenient_encoded (characters : List Char) :
    decodeUtf8Lenient (encoded characters) = String.ofList characters := by
  have alone := decodeUtf8Lenient_append characters []
  rw [List.append_nil] at alone
  rw [alone, decodeUtf8Lenient, utf8Pieces]
  exact String.append_empty

/-! ## Strict reading -/

theorem strictChars_characters (offset : Nat) (characters : List Char) :
    strictChars offset (characters.map fun value => .character value value.utf8Size) =
      .ok characters := by
  induction characters generalizing offset with
  | nil => rfl
  | cons value characters induction =>
      rw [List.map_cons, strictChars, induction]
      rfl

theorem strictChars_character_eq_ok_iff {offset width : Nat} {value : Char}
    {pieces : List Utf8Piece} {characters : List Char} :
    strictChars offset (.character value width :: pieces) = .ok characters ↔
      ∃ others, strictChars (offset + width) pieces = .ok others ∧
        characters = value :: others := by
  rw [strictChars]
  cases strictChars (offset + width) pieces with
  | error failure => simp [bind, Except.bind]
  | ok others => simp [bind, Except.bind, pure, Except.pure, eq_comm]

theorem eq_encoded_of_strictChars {bytes : List UInt8} {offset : Nat} {characters : List Char}
    (read : strictChars offset (utf8Pieces bytes) = .ok characters) :
    bytes = encoded characters := by
  fun_induction utf8Pieces bytes generalizing offset characters with
  | case1 =>
      obtain rfl : [] = characters := Except.ok.inj read
      rfl
  | case2 lead rest piece =>
      rename_i induction
      cases isPiece : piece with
      | fault reason width => simp [isPiece, strictChars] at read
      | character value width =>
          obtain ⟨tail, after, rfl, encodes, rfl⟩ := encodeChar_of_firstPiece isPiece
          have behind : (tail ++ after).drop (piece.width - 1) = after := by
            rw [isPiece, Utf8Piece.width, Nat.add_sub_cancel, List.drop_left]
          rw [behind] at induction read
          rw [isPiece] at read
          obtain ⟨others, later, rfl⟩ := strictChars_character_eq_ok_iff.mp read
          rw [encoded_cons, encodes, List.cons_append, ← induction later]

/-- Strict reading accepts the encodings of texts and nothing else. -/
theorem decodeUtf8_eq_ok_iff {bytes : List UInt8} {characters : List Char} :
    decodeUtf8 bytes = .ok characters ↔ bytes = encoded characters := by
  constructor
  · exact eq_encoded_of_strictChars
  · rintro rfl
    have pieces := utf8Pieces_encoded characters []
    rw [List.append_nil, utf8Pieces, List.append_nil] at pieces
    rw [decodeUtf8, pieces, strictChars_characters]

end Text

end CodeMetrics
