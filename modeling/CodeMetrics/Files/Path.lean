/-!
# Paths

A path is cut at slashes; empty steps and single dots are dropped. With a slash in front it starts
at the root, without one at the working directory. A double dot leads one directory up, and from the
root to the root. Two slashes in front are a root of their own in the text of a path, though they
lead to the same place as one.
-/

namespace CodeMetrics

namespace Path

/-! ## Steps -/

/-- Cut a text at a character. -/
def cut (mark : Char) : List Char → List (List Char)
  | [] => [[]]
  | character :: rest =>
      if character = mark then [] :: cut mark rest
      else
        match cut mark rest with
        | [] => [[character]]
        | step :: steps => (character :: step) :: steps

/-- The steps of a path. -/
def steps (path : String) : List String :=
  ((cut '/' path.toList).map String.ofList).filter fun step => step != "" && step != "."

/-- The slashes that a path begins with: one for any number of them but two. -/
def root (path : String) : String :=
  match path.toList with
  | '/' :: '/' :: '/' :: _ => "/"
  | '/' :: '/' :: _ => "//"
  | '/' :: _ => "/"
  | _ => ""

/-- The path with only its steps. One without any is a single dot. -/
def written (path : String) : String :=
  let text := root path ++ String.intercalate "/" (steps path)
  if text.isEmpty then "." else text

/-- The last step of a path. -/
def name (path : String) : String := (steps path).getLast?.getD ""

/-- The part of a name from its last dot on, if that dot is neither its first nor its last
character. -/
def suffixOf (name : String) : String :=
  let reversed := name.toList.reverse
  let ending := reversed.takeWhile (· != '.')
  let before := (reversed.dropWhile (· != '.')).drop 1
  if ending.isEmpty || before.isEmpty then "" else String.ofList ('.' :: ending.reverse)

/-- The suffix of a path. -/
def suffix (path : String) : String := suffixOf (name path)

/-! ## Names -/

/-- The most bytes that a name has. -/
def longestName : Nat := 255

/-- The most bytes that a path has. -/
def longest : Nat := 4095

/-- A name that a file or a directory can have. -/
def IsName (name : String) : Prop :=
  name ∉ ["", ".", ".."] ∧ '/' ∉ name.toList ∧ '\x00' ∉ name.toList ∧
    name.utf8ByteSize ≤ longestName

instance (name : String) : Decidable (IsName name) :=
  inferInstanceAs (Decidable (_ ∧ _ ∧ _ ∧ _))

/-! ## Places -/

/-- The steps with each double dot and the step before it taken out. -/
def resolveFrom (done : List String) : List String → List String
  | [] => done
  | ".." :: steps => resolveFrom done.dropLast steps
  | step :: steps => resolveFrom (done ++ [step]) steps

/-- The place that a path starts at, by the names that lead to it from the root. -/
def start (working : List String) (path : String) : List String :=
  if path.toList.head? = some '/' then [] else working

/-- The place that a path is about, whether or not anything stands there. -/
def place (working : List String) (path : String) : List String :=
  resolveFrom (start working path) (steps path)

/-- The path to a place from the root. -/
def absolute (place : List String) : String := "/" ++ String.intercalate "/" place

/-- The path from the root, without double dots. A null character ends the text of a path, so a path
cannot hold one. -/
def resolve? (working : List String) (path : String) : Option String :=
  if '\x00' ∈ path.toList then none else some (absolute (place working path))

end Path

end CodeMetrics
