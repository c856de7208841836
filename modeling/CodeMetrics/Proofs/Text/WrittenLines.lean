import CodeMetrics.Text.Lines
import CodeMetrics.Text.Quoted

/-!
# Text on one line

Quoted text is printable throughout, whatever stands between the quotes, and so are numbers. No
character that ends a line is printable. So what is written with them stays on its line, and lines
that are ended one by one are the lines of the whole text.
-/

namespace CodeMetrics

namespace Text

/-! ## Printable characters -/

theorem isPrintable_of_isDigit {character : Char} (digit : character.isDigit) :
    isPrintable character := by
  rw [Char.isDigit_iff_toNat] at digit
  have upper : character.toNat < 0x7f := Nat.lt_of_le_of_lt digit.2 (by decide)
  rw [isPrintable_of_ascii character upper]
  exact decide_eq_true (Nat.le_trans (by decide) digit.1)

/-- A character that ends a line is not printable. -/
theorem not_isPrintable_of_lineBreak {character : Char} (isBreak : character ∈ lineBreaks) :
    ¬ isPrintable character := by
  have all : lineBreaks.all fun character => !isPrintable character := by decide +kernel
  simpa using List.all_eq_true.mp all character isBreak

/-! ## Numbers and quotes -/

theorem isPrintable_of_mem_hexDigits {character : Char} {width number : Nat}
    (member : character ∈ hexDigits width number) : isPrintable character := by
  have digit : ∀ value : Fin 16, isPrintable (Nat.digitChar value) := by decide +kernel
  induction width generalizing number with
  | zero => simp [hexDigits] at member
  | succ width induction =>
      rw [hexDigits, List.mem_append, List.mem_singleton] at member
      rcases member with earlier | rfl
      · exact induction earlier
      · exact digit ⟨number % 16, Nat.mod_lt number (by decide)⟩

theorem isPrintable_of_mem_numericEscape {character : Char} {code : Nat}
    (member : character ∈ numericEscape code) : isPrintable character := by
  have escaped {letter : Char} {width : Nat} (printable : isPrintable letter)
      (listed : character ∈ '\\' :: letter :: hexDigits width code) : isPrintable character := by
    simp only [List.mem_cons] at listed
    rcases listed with rfl | rfl | digit
    · decide
    · exact printable
    · exact isPrintable_of_mem_hexDigits digit
  rw [numericEscape] at member
  split at member
  · exact escaped (by decide) member
  · split at member
    · exact escaped (by decide) member
    · exact escaped (by decide) member

theorem isPrintable_delimiterFor (characters : List Char) :
    isPrintable (delimiterFor characters) := by
  rw [delimiterFor]
  split <;> decide

theorem isPrintable_of_mem_quotedChar {delimiter character shown : Char}
    (printable : isPrintable delimiter) (member : shown ∈ quotedChar delimiter character) :
    isPrintable shown := by
  have escaped {letter : Char} (letterPrintable : isPrintable letter)
      (listed : shown ∈ ['\\', letter]) : isPrintable shown := by
    simp only [List.mem_cons, List.not_mem_nil, or_false] at listed
    rcases listed with rfl | rfl
    · decide
    · exact letterPrintable
  rw [quotedChar] at member
  split at member
  · rename_i special
    refine escaped ?_ member
    rcases special with rfl | rfl
    · exact printable
    · decide
  · repeat' split at member
    · exact escaped (by decide) member
    · exact escaped (by decide) member
    · exact escaped (by decide) member
    · rename_i asItself
      rwa [List.mem_singleton.mp member]
    · exact isPrintable_of_mem_numericEscape member

/-- Quoted text is printable, whatever the text. -/
theorem isPrintable_of_mem_quote {character : Char} {text : String}
    (member : character ∈ (quote text).toList) : isPrintable character := by
  have delimiter := isPrintable_delimiterFor text.toList
  rw [quote, String.toList_ofList] at member
  simp only [quotedChars, List.mem_cons, List.mem_append, List.mem_flatMap, List.not_mem_nil,
    or_false] at member
  rcases member with rfl | ⟨original, -, shown⟩ | rfl
  · exact delimiter
  · exact isPrintable_of_mem_quotedChar delimiter shown
  · exact delimiter

theorem isPrintable_of_mem_toString {character : Char} {number : Int}
    (member : character ∈ (toString number).toList) : isPrintable character := by
  have digits {value : Nat} (listed : character ∈ value.repr.toList) : isPrintable character := by
    rw [Nat.toList_repr] at listed
    exact isPrintable_of_isDigit (Nat.isDigit_of_mem_toDigits (by decide) (by decide) listed)
  cases number with
  | ofNat value => exact digits member
  | negSucc value =>
      have signed : toString (Int.negSucc value) = "-" ++ (value + 1).repr := rfl
      rw [signed, String.toList_append, List.mem_append] at member
      rcases member with sign | listed
      · obtain rfl : character = '-' := by simpa using sign
        decide
      · exact digits listed

/-! ## Lines one after the other -/

theorem splitLines_append_lineFeed {line : List Char}
    (unbroken : ∀ character ∈ line, character ∉ lineBreaks) (rest : List Char) :
    splitLines (line ++ '\n' :: rest) = line :: splitLines rest := by
  induction line with
  | nil => rw [List.nil_append, splitLines, if_pos (by decide)]; simp
  | cons character line induction =>
      rw [List.forall_mem_cons] at unbroken
      have notReturn : character ≠ '\r' := by
        rintro rfl
        exact unbroken.1 (by decide)
      rw [List.cons_append, splitLines, if_neg unbroken.1, induction unbroken.2]
      intro rest isReturn
      exact absurd isReturn notReturn

/-- Lines without breaks, each ended by a line feed, are the lines of the text that they make up. -/
theorem splitLines_flatMap_lineFeed {lines : List (List Char)}
    (unbroken : ∀ line ∈ lines, ∀ character ∈ line, character ∉ lineBreaks) :
    splitLines (lines.flatMap (· ++ ['\n'])) = lines := by
  induction lines with
  | nil => rfl
  | cons line lines induction =>
      rw [List.forall_mem_cons] at unbroken
      rw [List.flatMap_cons, List.append_assoc, List.singleton_append,
        splitLines_append_lineFeed unbroken.1, induction unbroken.2]

theorem intercalate_concat_nil (separator : Char) (lines : List (List Char)) :
    [separator].intercalate (lines ++ [[]]) = lines.flatMap (· ++ [separator]) := by
  induction lines with
  | nil => simp
  | cons line lines induction =>
      rw [List.flatMap_cons, ← induction, List.cons_append]
      cases lines <;> simp

/-- Lines without line feeds, each ended by one, are found again between the line feeds. -/
theorem splitOn_flatMap_lineFeed {lines : List (List Char)}
    (unbroken : ∀ line ∈ lines, '\n' ∉ line) :
    (lines.flatMap (· ++ ['\n'])).splitOn '\n' = lines ++ [[]] := by
  rw [← intercalate_concat_nil]
  refine List.splitOn_intercalate '\n' ?_ (by simp)
  intro line member
  rcases List.mem_append.mp member with earlier | last
  · exact unbroken line earlier
  · simp [List.mem_singleton.mp last]

theorem count_flatMap_lineFeed {lines : List (List Char)}
    (unbroken : ∀ line ∈ lines, '\n' ∉ line) :
    (lines.flatMap (· ++ ['\n'])).count '\n' = lines.length := by
  induction lines with
  | nil => rfl
  | cons line lines induction =>
      rw [List.forall_mem_cons] at unbroken
      rw [List.flatMap_cons, List.count_append, List.count_append,
        List.count_eq_zero_of_not_mem unbroken.1, induction unbroken.2, List.length_cons]
      simp [Nat.add_comm]

end Text

end CodeMetrics
