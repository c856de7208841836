import CodeMetrics.Files.Path

/-!
# Trees of files

What a file system holds, and the directory that paths start at. The tree has files and directories
only: symbolic links, devices and the like, and what may not be read or searched, are left out.
-/

namespace CodeMetrics

/-- What stands at a place. -/
inductive Entry where
  | file (content : List UInt8)
  | directory
deriving DecidableEq

/-- What stands at the given names from the root; at no names, the root. -/
def entryAt? (entries : List (List String × Entry)) (place : List String) : Option Entry :=
  if place.isEmpty then some .directory else entries.lookup place

/-- Files and directories, each under the names that lead to it from the root. -/
structure FileTree where
  entries : List (List String × Entry)
  /-- The place of the working directory. -/
  working : List String
  named : ∀ item ∈ entries, ∀ name ∈ item.1, Path.IsName name
  /-- Everything stands in a directory. -/
  held : ∀ item ∈ entries, entryAt? entries item.1.dropLast = some .directory
  works : entryAt? entries working = some .directory

/-- Why a path leads nowhere. -/
inductive Absence where
  | missing
  /-- The path, or a name on the way, has more bytes than it may have. -/
  | tooLong
deriving DecidableEq, Repr

namespace FileTree

/-- What stands at the given names from the root. -/
def lookup? (files : FileTree) (place : List String) : Option Entry := entryAt? files.entries place

/-- Follow the steps from a place that is a directory. Every step but the last must lead to a
directory. -/
def follow (files : FileTree) (place : List String) : List String → Except Absence Entry
  | [] => .ok .directory
  | ".." :: steps => files.follow place.dropLast steps
  | step :: steps =>
      if Path.longestName < step.utf8ByteSize then .error .tooLong
      else
        match files.lookup? (place ++ [step]) with
        | none => .error .missing
        | some (.file content) => if steps.isEmpty then .ok (.file content) else .error .missing
        | some .directory => files.follow (place ++ [step]) steps

/-- What a path leads to. -/
def find (files : FileTree) (path : String) : Except Absence Entry :=
  if Path.longest < (Path.written path).utf8ByteSize then .error .tooLong
  else files.follow (Path.start files.working path) (Path.steps path)

end FileTree

end CodeMetrics
