import CodeMetrics.Files.FileTree
import CodeMetrics.Proofs.Frontend.SourcePath

/-!
# Places in a tree of files

What a path leads to stands at the place that the path is about, which is told by the text of the
path alone. The walk may fail where the text does not show it: at a missing directory that the next
step would have left again. A path with a null character leads nowhere, since no name holds one.
-/

namespace CodeMetrics

/-! ## Steps -/

namespace Path

theorem resolveFrom_cons (done steps : List String) {step : String} (named : step ≠ "..") :
    resolveFrom done (step :: steps) = resolveFrom (done ++ [step]) steps := by
  rw [resolveFrom]
  exact named

theorem mem_steps_iff {path step : String} :
    step ∈ steps path ↔ step.toList ∈ cut '/' path.toList ∧ ¬ Blank step.toList := by
  constructor
  · intro listed
    obtain ⟨isPiece, isStep⟩ := List.mem_filter.mp listed
    obtain ⟨piece, isCut, rfl⟩ := List.mem_map.mp isPiece
    rw [String.toList_ofList]
    exact ⟨isCut, step_iff.mp isStep⟩
  · rintro ⟨isCut, isStep⟩
    refine List.mem_filter.mpr ⟨List.mem_map.mpr ⟨step.toList, isCut, String.ofList_toList⟩, ?_⟩
    simpa using step_iff.mpr isStep

theorem exists_piece_of_mem {mark character : Char} {text : List Char}
    (listed : character ∈ text) (other : character ≠ mark) :
    ∃ piece ∈ cut mark text, character ∈ piece := by
  fun_induction cut mark text with
  | case1 => exact absurd listed List.not_mem_nil
  | case2 text induction =>
      obtain ⟨piece, isPiece, inPiece⟩ := induction ((List.mem_cons.mp listed).resolve_left other)
      exact ⟨piece, List.mem_cons_of_mem _ isPiece, inPiece⟩
  | case3 first text _ pieces induction =>
      rw [pieces] at induction
      rcases List.mem_cons.mp listed with rfl | later
      · exact ⟨[character], List.mem_cons_self, List.mem_cons_self⟩
      · obtain ⟨piece, isPiece, -⟩ := induction later
        exact absurd isPiece List.not_mem_nil
  | case4 first text _ piece rest pieces induction =>
      rw [pieces] at induction
      rcases List.mem_cons.mp listed with rfl | later
      · exact ⟨character :: piece, List.mem_cons_self, List.mem_cons_self⟩
      · obtain ⟨other, isPiece, inPiece⟩ := induction later
        rcases List.mem_cons.mp isPiece with rfl | isRest
        · exact ⟨first :: other, List.mem_cons_self, List.mem_cons_of_mem _ inPiece⟩
        · exact ⟨other, List.mem_cons_of_mem _ isRest, inPiece⟩

/-- Whatever stands in a path, slashes and dots aside, stands in one of its steps. -/
theorem exists_step_of_mem {path : String} {character : Char} (listed : character ∈ path.toList)
    (notSlash : character ≠ '/') (notDot : character ≠ '.') :
    ∃ step ∈ steps path, character ∈ step.toList := by
  obtain ⟨piece, isPiece, inPiece⟩ := exists_piece_of_mem listed notSlash
  refine ⟨String.ofList piece, mem_steps_iff.mpr ⟨?_, ?_⟩, ?_⟩ <;> rw [String.toList_ofList]
  · exact isPiece
  · rintro (rfl | rfl)
    · exact List.not_mem_nil inPiece
    · exact notDot (List.mem_singleton.mp inPiece)
  · exact inPiece

/-- The path or one of its steps has more bytes than it may have. -/
def TooLong (path : String) : Prop :=
  longest < (written path).utf8ByteSize ∨ ∃ step ∈ steps path, longestName < step.utf8ByteSize

end Path

/-! ## Entries -/

namespace FileTree

variable {files : FileTree} {place steps : List String} {entry : Entry}

theorem mem_entries_of_lookup? {name : String} (found : files.lookup? (place ++ [name]) = some entry) :
    (place ++ [name], entry) ∈ files.entries := by
  have isEntry : files.entries.lookup (place ++ [name]) = some entry := by
    simpa [lookup?, entryAt?] using found
  obtain ⟨before, after, split, -⟩ := List.lookup_eq_some_iff.mp isEntry
  simp [split]

theorem isName_of_lookup? {name : String} (found : files.lookup? (place ++ [name]) = some entry) :
    Path.IsName name :=
  files.named _ (mem_entries_of_lookup? found) name (by simp)

/-- One directory up from a directory there is a directory. -/
theorem lookup?_dropLast (isDirectory : files.lookup? place = some .directory) :
    files.lookup? place.dropLast = some .directory := by
  rcases List.eq_nil_or_concat place with rfl | ⟨parent, name, rfl⟩
  · exact isDirectory
  · rw [List.concat_eq_append] at isDirectory ⊢
    exact files.held _ (mem_entries_of_lookup? isDirectory)

theorem lookup?_start (files : FileTree) (path : String) :
    files.lookup? (Path.start files.working path) = some .directory := by
  rw [Path.start]
  split
  · rfl
  · exact files.works

/-! ## Walks -/

theorem lookup?_resolveFrom_of_follow (start : files.lookup? place = some .directory)
    (found : files.follow place steps = .ok entry) :
    files.lookup? (Path.resolveFrom place steps) = some entry := by
  fun_induction files.follow place steps with
  | case1 place =>
      obtain rfl := Except.ok.inj found
      exact start
  | case2 place steps induction => exact induction (lookup?_dropLast start) found
  | case3 => cases found
  | case4 => cases found
  | case5 place step steps named _ content isFile last =>
      obtain rfl := Except.ok.inj found
      obtain rfl := List.isEmpty_iff.mp last
      rw [Path.resolveFrom_cons _ _ named, Path.resolveFrom, isFile]
  | case6 => cases found
  | case7 place step steps named _ isDirectory induction =>
      rw [Path.resolveFrom_cons _ _ named]
      exact induction isDirectory found

/-- Every step of a walk to something is a name or leads up. -/
theorem isName_of_follow (found : files.follow place steps = .ok entry) {step : String}
    (listed : step ∈ steps) : step = ".." ∨ Path.IsName step := by
  fun_induction files.follow place steps with
  | case1 => exact absurd listed List.not_mem_nil
  | case2 place steps induction =>
      rcases List.mem_cons.mp listed with rfl | later
      · exact .inl rfl
      · exact induction found later
  | case3 => cases found
  | case4 => cases found
  | case5 place first steps _ _ content isFile last =>
      obtain rfl := List.isEmpty_iff.mp last
      obtain rfl := List.mem_singleton.mp listed
      exact .inr (isName_of_lookup? isFile)
  | case6 => cases found
  | case7 place first steps _ _ isDirectory induction =>
      rcases List.mem_cons.mp listed with rfl | later
      · exact .inr (isName_of_lookup? isDirectory)
      · exact induction found later

theorem exists_long_step_of_follow (tooLong : files.follow place steps = .error .tooLong) :
    ∃ step ∈ steps, Path.longestName < step.utf8ByteSize := by
  fun_induction files.follow place steps with
  | case1 => cases tooLong
  | case2 place steps induction =>
      obtain ⟨step, listed, long⟩ := induction tooLong
      exact ⟨step, List.mem_cons_of_mem _ listed, long⟩
  | case3 place step steps _ long => exact ⟨step, List.mem_cons_self, long⟩
  | case4 => cases tooLong
  | case5 => cases tooLong
  | case6 => cases tooLong
  | case7 place first steps _ _ _ induction =>
      obtain ⟨step, listed, long⟩ := induction tooLong
      exact ⟨step, List.mem_cons_of_mem _ listed, long⟩

/-! ## Paths -/

variable {path : String}

/-- What a path leads to stands at the place that it is about. -/
theorem lookup?_place_of_find (found : files.find path = .ok entry) :
    files.lookup? (Path.place files.working path) = some entry := by
  rw [find] at found
  split at found
  · cases found
  · exact lookup?_resolveFrom_of_follow (files.lookup?_start path) found

/-- A path with a null character leads nowhere. -/
theorem find_ne_ok_of_null (null : '\x00' ∈ path.toList) : files.find path ≠ .ok entry := by
  intro found
  rw [find] at found
  split at found
  · cases found
  · obtain ⟨step, listed, inStep⟩ := Path.exists_step_of_mem null (by decide) (by decide)
    rcases isName_of_follow found listed with rfl | ⟨-, -, noNull, -⟩
    · exact absurd inStep (by decide)
    · exact noNull inStep

theorem tooLong_of_find (tooLong : files.find path = .error .tooLong) : Path.TooLong path := by
  rw [find] at tooLong
  split at tooLong
  · rename_i long
    exact .inl long
  · exact .inr (exists_long_step_of_follow tooLong)

end FileTree

end CodeMetrics
