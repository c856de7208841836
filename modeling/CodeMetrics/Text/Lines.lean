/-!
# Lines of text

Text is cut at every line boundary, a carriage return and line feed together being one. A boundary at
the very end opens no further line.
-/

namespace CodeMetrics

namespace Text

/-- The characters that end a line. -/
def lineBreaks : List Char :=
  ['\n', '\r', '\x0b', '\x0c', '\x1c', '\x1d', '\x1e', '\x85', '\u2028', '\u2029']

/-- The lines of a text, without their ends. -/
def splitLines : List Char → List (List Char)
  | [] => []
  | '\r' :: '\n' :: rest => [] :: splitLines rest
  | character :: rest =>
      if character ∈ lineBreaks then [] :: splitLines rest
      else
        match splitLines rest with
        | [] => [[character]]
        | line :: lines => (character :: line) :: lines

/-- Every carriage return, with the line feed after it if there is one, becomes a line feed. -/
def unifyLineEnds : List Char → List Char
  | [] => []
  | '\r' :: '\n' :: rest => '\n' :: unifyLineEnds rest
  | '\r' :: rest => '\n' :: unifyLineEnds rest
  | character :: rest => character :: unifyLineEnds rest

/-- One more than the number of line feeds. -/
def lineCount (text : String) : Nat :=
  text.toList.count '\n' + 1

/-- The word occurs somewhere in the line. -/
def occursIn (word : List Char) : List Char → Bool
  | [] => word.isEmpty
  | line@(_ :: rest) => word.isPrefixOf line || occursIn word rest

end Text

end CodeMetrics
