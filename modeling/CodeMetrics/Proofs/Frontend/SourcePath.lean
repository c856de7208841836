import CodeMetrics.Frontend.Parser
import Mathlib.Data.List.Basic

/-!
# Paths of source files

A path shows the language of its file if the last component that names anything has one of the
suffixes of the language, in any case of the letters.
-/

namespace CodeMetrics

namespace Path

/-! ## Components -/

theorem cut_eq_splitOn (mark : Char) (text : List Char) : cut mark text = text.splitOn mark := by
  induction text with
  | nil => rfl
  | cons character text induction =>
      rw [cut, List.splitOn_cons_eq_if_modifyHead, ← induction]
      by_cases isMark : character = mark
      · rw [if_pos isMark, if_pos (beq_iff_eq.mpr isMark)]
      · rw [if_neg isMark, if_neg (mt beq_iff_eq.mp isMark)]
        cases pieces : cut mark text with
        | nil => exact absurd (induction ▸ pieces) (List.splitOn_ne_nil mark text)
        | cons piece pieces => rfl

theorem notMem_of_mem_cut {mark : Char} {text piece : List Char} (listed : piece ∈ cut mark text) :
    mark ∉ piece := by
  fun_induction cut mark text generalizing piece with
  | case1 =>
      obtain rfl := List.mem_singleton.mp listed
      exact List.not_mem_nil
  | case2 text induction =>
      rcases List.mem_cons.mp listed with rfl | later
      · exact List.not_mem_nil
      · exact induction later
  | case3 character text other pieces induction =>
      obtain rfl := List.mem_singleton.mp listed
      exact mt List.mem_singleton.mp (Ne.symm other)
  | case4 character text other first rest pieces induction =>
      rw [pieces] at induction
      rcases List.mem_cons.mp listed with rfl | later
      · exact List.not_mem_cons_of_ne_of_not_mem (Ne.symm other) (induction List.mem_cons_self)
      · exact induction (List.mem_cons_of_mem first later)

/-- What stands between the slashes of a path. -/
structure Components (path : String) (components : List (List Char)) : Prop where
  joined : path.toList = ['/'].intercalate components
  nonempty : components ≠ []
  closed : ∀ component ∈ components, '/' ∉ component

theorem components_iff {path : String} {components : List (List Char)} :
    Components path components ↔ cut '/' path.toList = components := by
  constructor
  · rintro ⟨joined, nonempty, closed⟩
    rw [cut_eq_splitOn, joined, List.splitOn_intercalate '/' closed nonempty]
  · rintro rfl
    refine ⟨?_, ?_, fun _ listed => notMem_of_mem_cut listed⟩
    · rw [cut_eq_splitOn, List.intercalate_splitOn]
    · rw [cut_eq_splitOn]
      exact List.splitOn_ne_nil _ _

/-! ## The name -/

/-- A component that names nothing. -/
def Blank (component : List Char) : Prop := component = [] ∨ component = ['.']

theorem step_iff {component : List Char} :
    (String.ofList component != "" && String.ofList component != ".") = true ↔
      ¬ Blank component := by
  have empty : String.ofList component = "" ↔ component = [] := by
    rw [← String.toList_inj]; simp
  have dot : String.ofList component = "." ↔ component = ['.'] := by
    rw [← String.toList_inj]; simp
  simp [Blank, empty, dot]

/-- The name of a path is its last component that is not blank. -/
theorem name_eq_iff {path : String} {component : List Char} (named : ¬ Blank component) :
    name path = String.ofList component ↔
      ∃ before after, Components path (before ++ component :: after) ∧
        ∀ other ∈ after, Blank other := by
  rw [name, steps, List.filter_map, List.getLast?_map, List.getLast?_filter]
  constructor
  · intro isName
    cases found : List.find? _ (cut '/' path.toList).reverse with
    | none =>
        rw [found] at isName
        have empty : [] = component := by simpa [← String.toList_inj] using isName
        exact absurd (.inl empty.symm) named
    | some piece =>
        rw [found] at isName
        obtain rfl : piece = component := by simpa [← String.toList_inj] using isName
        obtain ⟨-, after, before, reversed, passed⟩ := List.find?_eq_some_iff_append.mp found
        refine ⟨before.reverse, after.reverse, components_iff.mpr ?_, fun other listed => ?_⟩
        · simpa using List.reverse_eq_append_iff.mp reversed
        · have skipped := passed other (List.mem_reverse.mp listed)
          exact not_not.mp fun isStep => by simp [step_iff.mpr isStep] at skipped
  · rintro ⟨before, after, components, blank⟩
    have found : List.find? ((fun step => step != "" && step != ".") ∘ String.ofList)
        (before ++ component :: after).reverse = some component := by
      refine List.find?_eq_some_iff_append.mpr
        ⟨step_iff.mpr named, after.reverse, before.reverse, by simp, fun other listed => ?_⟩
      have isBlank := blank other (List.mem_reverse.mp listed)
      exact Bool.not_eq_true' _ ▸ Bool.eq_false_iff.mpr fun isStep => step_iff.mp isStep isBlank
    rw [components_iff.mp components, found]
    rfl

/-! ## The suffix -/

theorem suffixOf_eq_or (name : String) :
    suffixOf name = "" ∨ ∃ stem ending, name.toList = stem ++ '.' :: ending ∧ stem ≠ [] ∧
      suffixOf name = String.ofList ('.' :: ending) := by
  have parts := List.takeWhile_append_dropWhile (p := (· != '.')) (l := name.toList.reverse)
  cases rest : name.toList.reverse.dropWhile (· != '.') with
  | nil => exact .inl (by simp [suffixOf, rest])
  | cons dot before =>
      have isDot : dot = '.' := by
        have stopped := List.head?_dropWhile_not (· != '.') name.toList.reverse
        simpa [rest] using stopped
      subst isDot
      rw [rest] at parts
      have split := List.reverse_eq_append_iff.mp parts.symm
      by_cases ending : name.toList.reverse.takeWhile (· != '.') = []
      · exact .inl (by simp [suffixOf, ending])
      · by_cases stem : before = []
        · exact .inl (by simp [suffixOf, rest, stem])
        · refine .inr ⟨before.reverse, _, by simpa using split, by simpa using stem, ?_⟩
          simp [suffixOf, rest, ending, stem]

theorem suffixOf_append {stem ending : List Char} (named : stem ≠ []) (nonempty : ending ≠ [])
    (last : '.' ∉ ending) :
    suffixOf (String.ofList (stem ++ '.' :: ending)) = String.ofList ('.' :: ending) := by
  have passed : ∀ character ∈ ending.reverse, (character != '.') = true := by
    intro character listed
    refine bne_iff_ne.mpr ?_
    rintro rfl
    exact last (List.mem_reverse.mp listed)
  have reversed : (stem ++ '.' :: ending).reverse = ending.reverse ++ '.' :: stem.reverse := by simp
  rw [suffixOf, String.toList_ofList, reversed, List.takeWhile_append_of_pos passed,
    List.dropWhile_append_of_pos passed]
  simp [named, nonempty]

theorem not_blank {stem ending : List Char} (named : stem ≠ []) :
    ¬ Blank (stem ++ '.' :: ending) := by
  rintro (empty | dot)
  · simp at empty
  · obtain ⟨first, stem, rfl⟩ := List.exists_cons_of_ne_nil named
    simp at dot

theorem toList_toLower (text : String) : text.toLower.toList = text.toList.map Char.toLower :=
  String.toList_map

theorem toLower_suffix_iff (ending : List Char) :
    (String.ofList ('.' :: ending)).toLower ∈ [".cs", ".csx"] ↔
      (String.ofList ending).toLower ∈ ["cs", "csx"] := by
  have dot : '.'.toLower = '.' := by decide
  simp [← String.toList_inj, toList_toLower, dot]

theorem dot_notMem_of_toLower {ending : List Char}
    (known : (String.ofList ending).toLower ∈ ["cs", "csx"]) : '.' ∉ ending := by
  intro listed
  have dot : '.' ∈ (String.ofList ending).toLower.toList := by
    rw [toList_toLower, String.toList_ofList]
    exact List.mem_map_of_mem listed
  simp only [List.mem_cons, List.not_mem_nil, or_false] at known
  rcases known with isEnding | isEnding <;> simp [isEnding] at dot

/-- The path of a source file: its last component that is not blank has a stem and, after the last
dot, one of the endings of source files. -/
def IsSource (path : String) : Prop :=
  ∃ before stem ending after,
    Components path (before ++ (stem ++ '.' :: ending) :: after) ∧
    (∀ component ∈ after, Blank component) ∧
    stem ≠ [] ∧ (String.ofList ending).toLower ∈ ["cs", "csx"]

theorem suffix_iff {path : String} :
    (suffix path).toLower ∈ [".cs", ".csx"] ↔ IsSource path := by
  constructor
  · intro known
    rcases suffixOf_eq_or (name path) with none | ⟨stem, ending, split, named, isSuffix⟩
    · rw [suffix, none] at known
      exact absurd known (by decide +kernel)
    · have isName : name path = String.ofList (stem ++ '.' :: ending) := by
        rw [← split, String.ofList_toList]
      obtain ⟨before, after, components, blank⟩ := (name_eq_iff (not_blank named)).mp isName
      refine ⟨before, stem, ending, after, components, blank, named, ?_⟩
      rw [suffix, isSuffix] at known
      exact (toLower_suffix_iff ending).mp known
  · rintro ⟨before, stem, ending, after, components, blank, named, known⟩
    have isName := (name_eq_iff (not_blank named)).mpr ⟨before, after, components, blank⟩
    rw [suffix, isName, suffixOf_append named]
    · exact (toLower_suffix_iff ending).mpr known
    · rintro rfl
      exact absurd known (by decide +kernel)
    · exact dot_notMem_of_toLower known

theorem IsSource.ne_empty {path : String} (source : IsSource path) : path ≠ "" := by
  rintro rfl
  exact absurd (suffix_iff.mpr source) (by decide +kernel)

end Path

/-- The language is told by the path exactly if it is the path of a source file. -/
theorem detectLanguage?_eq_some_iff {path language : String} :
    detectLanguage? path = some language ↔ Path.IsSource path ∧ language = grammarLanguage := by
  rw [detectLanguage?, ← Path.suffix_iff]
  split <;> simp_all [eq_comm]

end CodeMetrics
