import CodeMetrics.Proofs.Metrics.Isolation
import CodeMetrics.Proofs.Tree.Drafts

/-!
# Reports and thresholds

An evaluation has one entry for each declaration that can be located, in document order, with the
result of the walk from that declaration. The thresholds do not enter before the scores are compared
with them. So other thresholds give the same entries, and higher ones give fewer findings.
-/

namespace CodeMetrics

/-! ## Entries -/

namespace Thresholds

/-- The threshold that declarations of a category are measured against. -/
def forCategory (thresholds : Thresholds) : Category → Nat
  | .accessor => thresholds.property
  | _ => thresholds.general

theorem forCategory_le {low high : Thresholds} (general : low.general ≤ high.general)
    (property : low.property ≤ high.property) (category : Category) :
    low.forCategory category ≤ high.forCategory category := by
  cases category with
  | accessor => exact property
  | _ => exact general

end Thresholds

/-- The threshold that a registration selects is that of its category. -/
theorem Kind.threshold_eq {kind : Kind} {registration : Registration}
    (registered : kind.registration? = some registration) (thresholds : Thresholds) :
    registration.threshold thresholds = thresholds.forCategory registration.category := by
  unfold registration? at registered
  split at registered
  case h_7 => simp at registered
  all_goals
    obtain rfl := Option.some.inj registered
    rfl

/-- The node that a report on the given node points at: what the locator of a registered kind finds. -/
def Forest.location? (forest : Forest) (node : Vertex) : Option Vertex :=
  match node.kind.registration? with
  | none => none
  | some registration =>
      match registration.locate forest node with
      | .ok location => location
      | .error _ => none

/-- The node is a declaration to report on. -/
def Forest.isLocated (forest : Forest) (node : Vertex) : Bool := (forest.location? node).isSome

/-- The same declaration, measured against other thresholds. -/
def Declaration.under (thresholds : Thresholds) (declaration : Declaration) : Declaration :=
  { declaration with threshold := thresholds.forCategory declaration.category }

/-- The declaration is what is reported on the node: it is of the category of its kind, points at the
located node, has the result of the walk from the node itself, and is measured against the threshold of
its category. -/
structure Forest.Entry (forest : Forest) (thresholds : Thresholds) (node : Vertex)
    (declaration : Declaration) : Prop where
  category : node.kind.registration?.map Registration.category = some declaration.category
  located : ∃ location, forest.location? node = some location ∧
    declaration.location = location.span ∧ declaration.name = location.text.getD ""
  walk : cognitiveScore forest node none = .ok ⟨declaration.score, declaration.increments⟩
  threshold : declaration.threshold = thresholds.forCategory declaration.category

namespace Forest

variable {forest : Forest} {low high thresholds : Thresholds} {node : Vertex}
  {declaration : Declaration}

/-- A node has at most one entry. -/
theorem rightUnique_entry (forest : Forest) (thresholds : Thresholds) :
    Relator.RightUnique (forest.Entry thresholds) := by
  rintro node first second entry other
  obtain ⟨location, found, place, name⟩ := entry.located
  obtain ⟨otherLocation, otherFound, otherPlace, otherName⟩ := other.located
  obtain rfl : location = otherLocation := Option.some.inj (found.symm.trans otherFound)
  have category := Option.some.inj (entry.category.symm.trans other.category)
  have walk := Except.ok.inj (entry.walk.symm.trans other.walk)
  obtain ⟨score, increments⟩ := CognitiveScore.mk.inj walk
  have threshold : first.threshold = second.threshold := by
    rw [entry.threshold, other.threshold, category]
  cases first
  cases second
  simp_all only

/-- Other thresholds change nothing but the threshold of an entry. -/
theorem Entry.under (entry : forest.Entry low node declaration) (high : Thresholds) :
    forest.Entry high node (declaration.under high) where
  category := entry.category
  located := entry.located
  walk := entry.walk
  threshold := rfl

theorem Entry.under_eq (entry : forest.Entry thresholds node declaration) :
    declaration.under thresholds = declaration := by
  rw [Declaration.under, ← entry.threshold]

/-- The report on one node is its entry, and there is none exactly if nothing is located. -/
theorem entry_of_measure {report : Option Declaration}
    (measured : Gauge.measure ⟨thresholds, .none⟩ forest node = .ok report) :
    List.Forall₂ (forest.Entry thresholds)
      ([node].filter forest.isLocated) report.toList := by
  cases registered : node.kind.registration? with
  | none =>
      have nowhere : forest.location? node = none := by simp only [location?, registered]
      obtain rfl : none = report := by
        simpa only [Gauge.measure, registered, Except.ok.injEq] using measured
      simp [isLocated, nowhere]
  | some registration =>
      cases located : registration.locate forest node with
      | error orphan => simp [Gauge.measure, registered, located] at measured
      | ok location =>
          have found : forest.location? node = location := by
            simp only [location?, registered, located]
          cases location with
          | none =>
              obtain rfl : none = report := by
                simpa only [Gauge.measure, registered, located, Except.ok.injEq] using measured
              simp [isLocated, found]
          | some location =>
              have scored : (RuleChanges.none.table forest).score node none = _ :=
                cognitiveScore_eq forest node none
              simp only [Gauge.measure, registered, located, scored] at measured
              obtain rfl := Except.ok.inj measured
              have isLocated : forest.isLocated node := by
                rw [Forest.isLocated, found, Option.isSome_some]
              rw [List.filter_cons_of_pos isLocated]
              refine .cons ⟨?_, ⟨location, found, rfl, rfl⟩, scored, ?_⟩ .nil
              · rw [registered, Option.map_some]
              · exact Kind.threshold_eq registered thresholds

/-- The reports on a list of nodes are the entries of those that can be located. -/
theorem entries_of_measureAll {nodes : List Vertex} {declarations : List Declaration}
    (measured : Gauge.measureAll ⟨thresholds, .none⟩ forest nodes = .ok declarations) :
    List.Forall₂ (forest.Entry thresholds) (nodes.filter forest.isLocated) declarations := by
  induction nodes generalizing declarations with
  | nil =>
      obtain rfl : [] = declarations := Except.ok.inj measured
      exact .nil
  | cons node nodes induction =>
      obtain ⟨report, reports, first, rest, rfl⟩ := Gauge.measureAll_cons_eq_ok.mp measured
      rw [← List.singleton_append, List.filter_append]
      exact List.rel_append (entry_of_measure first) (induction rest)

end Forest

/-! ## Findings -/

namespace Declaration

/-- What exceeds the higher threshold exceeds the lower one. -/
theorem exceeds_under {low high : Thresholds} (general : low.general ≤ high.general)
    (property : low.property ≤ high.property) {declaration : Declaration}
    (above : (declaration.under high).exceeds) : (declaration.under low).exceeds := by
  have threshold := Thresholds.forCategory_le general property declaration.category
  have higher : (high.forCategory declaration.category : Int) < declaration.score :=
    of_decide_eq_true above
  apply decide_eq_true
  show (low.forCategory declaration.category : Int) < declaration.score
  omega

/-- Measured against higher thresholds, no other declarations exceed theirs. -/
theorem sublist_filter_exceeds {low high : Thresholds} (general : low.general ≤ high.general)
    (property : low.property ≤ high.property) {declarations : List Declaration}
    (measured : ∀ declaration ∈ declarations, declaration.under low = declaration) :
    (((declarations.map (under high)).filter exceeds).map (under low)).Sublist
      (declarations.filter exceeds) := by
  have back : ((declarations.map (under high)).filter exceeds).map (under low) =
      declarations.filter (exceeds ∘ under high) := by
    rw [List.filter_map, List.map_map]
    conv_rhs => rw [← List.map_id (declarations.filter _)]
    apply List.map_congr_left
    intro declaration listed
    exact measured declaration (List.mem_of_mem_filter listed)
  have front : declarations.filter exceeds = declarations.filter (exceeds ∘ under low) := by
    apply List.filter_congr
    intro declaration listed
    rw [Function.comp_apply, measured declaration listed]
  rw [back, front]
  exact List.monotone_filter_right declarations fun _ => exceeds_under general property

end Declaration

namespace Gauge

/-- The evaluation of a document gives the entries of the nodes that can be located. -/
theorem exists_evaluate {document : Document} (analysed : document.language = analysedLanguage)
    (built : document.forest.Built) (thresholds : Thresholds) :
    ∃ declarations, evaluate ⟨thresholds, .none⟩ document = .ok declarations ∧
      List.Forall₂ (document.forest.Entry thresholds)
        (document.root.preorder.filter document.forest.isLocated) declarations := by
  obtain ⟨declarations, measured, -⟩ := exists_measureAll built thresholds document.root.walk
  refine ⟨declarations, ?_, ?_⟩
  · rw [evaluate, if_pos analysed, measured]
  · rw [← Node.walk_eq_preorder]
    exact Forest.entries_of_measureAll measured

theorem findings_of_evaluate {gauge : Gauge} {document : Document} {declarations : List Declaration}
    (evaluated : gauge.evaluate document = .ok declarations) :
    gauge.findings document = .ok (declarations.filter Declaration.exceeds) := by
  rw [findings, evaluated]
  rfl

/-- The evaluation of a document of the analysed language, under any thresholds, has an entry for each
declaration that can be located, in pre-order and with the result of the walk from it. The findings are
the entries with a score above their threshold. Other thresholds change nothing but the thresholds of
the entries, and under higher ones there are, thresholds apart, no findings that are not there under the
lower ones, in the same order. -/
theorem evaluation_complete_and_findings_antitone {document : Document}
    (analysed : document.language = analysedLanguage) (built : document.forest.Built) :
    (∀ thresholds, ∃ declarations,
      evaluate ⟨thresholds, .none⟩ document = .ok declarations ∧
      List.Forall₂ (document.forest.Entry thresholds)
        (document.root.preorder.filter document.forest.isLocated) declarations ∧
      findings ⟨thresholds, .none⟩ document =
        .ok (declarations.filter fun declaration => declaration.threshold < declaration.score)) ∧
    ∀ low high : Thresholds, low.general ≤ high.general → low.property ≤ high.property →
      ∃ declarations found fewer,
        evaluate ⟨low, .none⟩ document = .ok declarations ∧
        evaluate ⟨high, .none⟩ document = .ok (declarations.map (Declaration.under high)) ∧
        findings ⟨low, .none⟩ document = .ok found ∧
        findings ⟨high, .none⟩ document = .ok fewer ∧
        (fewer.map (Declaration.under low)).Sublist found := by
  constructor
  · intro thresholds
    obtain ⟨declarations, evaluated, entries⟩ := exists_evaluate analysed built thresholds
    exact ⟨declarations, evaluated, entries, findings_of_evaluate evaluated⟩
  · intro low high general property
    obtain ⟨declarations, evaluated, entries⟩ := exists_evaluate analysed built low
    obtain ⟨others, evaluatedHigh, otherEntries⟩ := exists_evaluate analysed built high
    obtain rfl : others = declarations.map (Declaration.under high) := by
      apply List.right_unique_forall₂' (document.forest.rightUnique_entry high) otherEntries
      rw [List.forall₂_map_right_iff]
      exact entries.imp fun _ _ entry => entry.under high
    have measured : ∀ declaration ∈ declarations, declaration.under low = declaration :=
      forall_mem_of_forall₂ entries (fun _ _ entry _ => entry.under_eq) fun _ _ => trivial
    exact ⟨declarations, _, _, evaluated, evaluatedHigh, findings_of_evaluate evaluated,
      findings_of_evaluate evaluatedHigh,
      Declaration.sublist_filter_exceeds general property measured⟩

/-- A method with an if, and in the if two accessors, one of them with an if of its own. -/
def nestedAccessors : Draft :=
  .inner
    [.leaf 0 .identifier "Walk" (some "name") "",
      .inner
        [.inner
            [.leaf 0 .token "get" (some "name") "",
              .inner [.leaf 0 .token "if" none ""] 0 .ifStatement none ""]
            0 .accessorDeclaration none "",
          .inner [.leaf 0 .token "add" (some "name") ""] 0 .accessorDeclaration none ""]
        0 .ifStatement none ""]
    0 .methodDeclaration none ""

theorem evaluation_complete_and_findings_antitone_nestedAccessors :
    nestedAccessors.document.language = analysedLanguage ∧ nestedAccessors.document.forest.Built ∧
      ∃ declarations found fewer,
        evaluate ⟨⟨2, 0⟩, .none⟩ nestedAccessors.document = .ok declarations ∧
        declarations.map (fun entry => (entry.name, entry.score, entry.threshold)) =
          [("Walk", 3, 2), ("get", 1, 0)] ∧
        findings ⟨⟨2, 0⟩, .none⟩ nestedAccessors.document = .ok found ∧
        findings ⟨⟨3, 0⟩, .none⟩ nestedAccessors.document = .ok fewer ∧
        fewer.map Declaration.name = ["get"] ∧
        (fewer.map (Declaration.under ⟨2, 0⟩)).Sublist found := by
  have built : nestedAccessors.document.forest.Built := nestedAccessors.isTree_document.1.built
  obtain ⟨declarations, found, fewer, evaluated, -, isFound, isFewer, sublist⟩ :=
    (evaluation_complete_and_findings_antitone rfl built).2 ⟨2, 0⟩ ⟨3, 0⟩ (by decide) (by decide)
  have entries : (evaluate ⟨⟨2, 0⟩, .none⟩ nestedAccessors.document).toOption.map
      (List.map fun entry => (entry.name, entry.score, entry.threshold)) =
        some [("Walk", 3, 2), ("get", 1, 0)] := by decide +kernel
  have names : (findings ⟨⟨3, 0⟩, .none⟩ nestedAccessors.document).toOption.map
      (List.map Declaration.name) = some ["get"] := by decide +kernel
  rw [evaluated] at entries
  rw [isFewer] at names
  exact ⟨rfl, built, declarations, found, fewer, evaluated, Option.some.inj entries, isFound, isFewer,
    Option.some.inj names, sublist⟩

end Gauge

end CodeMetrics
