import SnippetAudit.Proofs.Syntax.Damage
import SnippetAudit.Proofs.Syntax.Position
import SnippetAudit.Proofs.Syntax.Preorder

/-!
# The order of the problems

The problems of a tree are those of its nodes, in the order of the walk. An error node and a missing node are always
reported. Any other damage is reported once at a place: the walk keeps the places that have been reported, and these
are the places of the problems found so far, so what it tells of a node depends on the problems before it and on
nothing else. In a nested tree over a text the places come in the order of the text, for the walk meets the nodes in
the order of their first octets.

## What this module delivers

- `ownProblems`, `tell`: the problems of a node, given the problems before it;
- `problemsAt_eq_tell`: they are those that the walk finds there;
- `Report`, `treeReports`: the nodes of a tree with their addresses and problems;
- `pairwise_apart_problemsOf`: no two problems of damage inside a node stand at one place;
- `pairwise_notBehind`: the places of the problems come in the order of the text;
- `problems_in_preorder`: which problems a tree has, and their order.
-/

set_option autoImplicit false

namespace SnippetAudit.Syntax

open Text

variable {source : Octets} {reported : List Position} {n root : Node}

/-! ## One node -/

/-- The problems that a node has wherever it stands: one if it is an error node, and one if it is missing. -/
def ownProblems (source : Octets) (n : Node) : List Problem :=
  (if n.kind = errorKind then [⟨.unexpected (snippet (n.text source)), positionAt source n.start⟩] else []) ++
    (if n.isMissing then [⟨.missing n.kind, positionAt source n.start⟩] else [])

/-- The problems of a node behind the problems `earlier`: its own, and damage inside it if none of them and none of
the earlier ones stands at its place. -/
def tell (source : Octets) (earlier : List Problem) (n : Node) : List Problem :=
  ownProblems source n ++
    (if n.hasError = true ∧ n.kind ≠ errorKind ∧
        ∀ p ∈ earlier ++ ownProblems source n, p.position ≠ positionAt source n.start then
      [⟨.inside n.kind, positionAt source n.start⟩] else [])

theorem mem_ownProblems {p : Problem} (h : p ∈ ownProblems source n) :
    p.position = positionAt source n.start ∧ ∀ kind, p.damage ≠ .inside kind := by
  rw [ownProblems, List.mem_append] at h
  rcases h with h | h
  all_goals
    split at h
    · rw [List.mem_singleton.1 h]
      exact ⟨rfl, fun kind heq => by cases heq⟩
    · exact absurd h List.not_mem_nil

theorem forall_ownProblems_iff (hkind : n.kind ≠ errorKind) :
    (∀ p ∈ ownProblems source n, p.position ≠ positionAt source n.start) ↔ n.isMissing = false := by
  simp [ownProblems, hkind]

/-- The walk adds damage inside a node to its own problems. -/
theorem problemsAt_eq (source : Octets) (reported : List Position) (n : Node) :
    problemsAt source reported n = ownProblems source n ++
      (if n.hasError && n.kind != errorKind &&
          !(n.isMissing || reported.contains (positionAt source n.start)) then
        [⟨.inside n.kind, positionAt source n.start⟩] else []) :=
  rfl

/-- The walk tells of a node what the problems before it leave to tell, where the reported places are theirs. -/
theorem problemsAt_eq_tell {earlier : List Problem}
    (hreported : ∀ place, place ∈ reported ↔ ∃ p ∈ earlier, p.position = place) (n : Node) :
    problemsAt source reported n = tell source earlier n := by
  have hplace : positionAt source n.start ∉ reported ↔ ∀ p ∈ earlier, p.position ≠ positionAt source n.start := by
    simp [hreported]
  have hinside : ((n.hasError && n.kind != errorKind &&
        !(n.isMissing || reported.contains (positionAt source n.start))) = true) ↔
      (n.hasError = true ∧ n.kind ≠ errorKind ∧
        ∀ p ∈ earlier ++ ownProblems source n, p.position ≠ positionAt source n.start) := by
    rw [List.forall_mem_append, ← hplace]
    by_cases hkind : n.kind = errorKind
    · simp [hkind]
    · rw [forall_ownProblems_iff hkind]
      simp [hkind, and_comm]
  rw [problemsAt_eq, tell]
  simp only [hinside]

/-- Damage inside a node is reported at a place that has not been reported. -/
theorem not_mem_reported {p : Problem} {kind : String} (h : p ∈ problemsAt source reported n)
    (hp : p.damage = .inside kind) : p.position ∉ reported := by
  rw [problemsAt_eq, List.mem_append] at h
  rcases h with hown | hinside
  · exact absurd hp ((mem_ownProblems hown).2 kind)
  · split at hinside
    · next hnew =>
      rw [List.mem_singleton.1 hinside]
      simp only [Bool.and_eq_true, Bool.not_eq_true', Bool.or_eq_false_iff] at hnew
      simpa using hnew.2.2
    · exact absurd hinside List.not_mem_nil

/-- At most one of the problems tells of damage inside a node, or they stand at different places. -/
def Problem.Apart (p q : Problem) : Prop :=
  ∀ kind kind', p.damage = .inside kind → q.damage = .inside kind' → p.position ≠ q.position

theorem pairwise_apart_problemsAt (source : Octets) (reported : List Position) (n : Node) :
    (problemsAt source reported n).Pairwise Problem.Apart := by
  simp only [problemsAt]
  split <;> split <;> split <;> simp [Problem.Apart]

/-! ## The walk -/

/-- No two problems tell of damage inside a node at one place, and none does at a place reported before. -/
theorem pairwise_apart_problemsOf (source : Octets) (ns : List Node) : ∀ reported : List Position,
    (problemsOf source reported ns).Pairwise Problem.Apart ∧
      ∀ p ∈ problemsOf source reported ns, ∀ kind, p.damage = .inside kind → p.position ∉ reported := by
  induction ns with
  | nil => exact fun _ => ⟨List.Pairwise.nil, fun p hp => absurd hp List.not_mem_nil⟩
  | cons n rest ih =>
    intro reported
    obtain ⟨hpairwise, hnew⟩ := ih ((problemsAt source reported n).map (·.position) ++ reported)
    constructor
    · refine List.pairwise_append.2 ⟨pairwise_apart_problemsAt source reported n, hpairwise, ?_⟩
      intro p hp q hq kind kind' _ hinside heq
      exact hnew q hq kind' hinside (heq ▸ List.mem_append_left _ (List.mem_map_of_mem hp))
    · intro p hp kind hinside
      rcases List.mem_append.1 hp with hfound | hlater
      · exact not_mem_reported hfound hinside
      · exact fun hreported => hnew p hlater kind hinside (List.mem_append_right _ hreported)

/-- A node of a tree with its address and its problems. -/
structure Report where
  address : List Nat
  node : Node
  problems : List Problem

/-- The reports of nodes in their order, where `reported` are the places reported before. -/
def reports (source : Octets) (reported : List Position) : List (List Nat × Node) → List Report
  | [] => []
  | (address, n) :: rest =>
    ⟨address, n, problemsAt source reported n⟩ ::
      reports source ((problemsAt source reported n).map (·.position) ++ reported) rest

theorem map_reports (source : Octets) (places : List (List Nat × Node)) : ∀ reported : List Position,
    (reports source reported places).map (fun r => (r.address, r.node)) = places := by
  induction places with
  | nil => exact fun _ => rfl
  | cons place rest ih =>
    intro reported
    rw [reports, List.map_cons, ih]

theorem flatMap_reports (source : Octets) (places : List (List Nat × Node)) : ∀ reported : List Position,
    (reports source reported places).flatMap (·.problems) = problemsOf source reported (places.map Prod.snd) := by
  induction places with
  | nil => exact fun _ => rfl
  | cons place rest ih =>
    intro reported
    rw [reports, List.flatMap_cons, ih]
    rfl

/-- A report tells what the problems before it leave to tell. -/
theorem problems_eq_tell (source : Octets) (places : List (List Nat × Node)) :
    ∀ {reported : List Position} {before : List Problem},
      (∀ place, place ∈ reported ↔ ∃ p ∈ before, p.position = place) →
      ∀ earlier r later, reports source reported places = earlier ++ r :: later →
        r.problems = tell source (before ++ earlier.flatMap (·.problems)) r.node := by
  induction places with
  | nil => exact fun _ earlier r later hsplit => absurd hsplit.symm (by simp [reports])
  | cons place rest ih =>
    intro reported before hreported earlier r later hsplit
    rw [reports] at hsplit
    cases earlier with
    | nil =>
      obtain ⟨rfl, -⟩ := List.cons_eq_cons.1 hsplit
      rw [List.flatMap_nil, List.append_nil]
      exact problemsAt_eq_tell hreported place.2
    | cons first earlier =>
      obtain ⟨rfl, hrest⟩ := List.cons_eq_cons.1 hsplit
      -- the places reported behind the first node are those of its problems and of the problems before it
      have hnext : ∀ p, p ∈ (problemsAt source reported place.2).map (·.position) ++ reported ↔
          ∃ q ∈ before ++ problemsAt source reported place.2, q.position = p := by
        intro p
        simp only [List.mem_append, List.mem_map, hreported, or_and_right, exists_or]
        exact or_comm
      rw [ih hnext earlier r later hrest, List.flatMap_cons, List.append_assoc]

/-- The problems of a report stand at the place of its node. -/
theorem position_of_mem_reports (source : Octets) (places : List (List Nat × Node)) :
    ∀ {reported : List Position}, ∀ r ∈ reports source reported places, ∀ p ∈ r.problems,
      p.position = positionAt source r.node.start := by
  induction places with
  | nil => exact fun r hr => absurd hr List.not_mem_nil
  | cons place rest ih =>
    intro reported r hr
    rcases List.mem_cons.1 hr with rfl | hlater
    · exact fun p hp => (mem_problemsAt hp).2
    · exact ih r hlater

/-! ## Whole trees -/

/-- The reports of all nodes of a tree. -/
def treeReports (source : Octets) (root : Node) : List Report := reports source [] root.placed

theorem map_treeReports (source : Octets) (root : Node) :
    (treeReports source root).map (fun r => (r.address, r.node)) = root.placed :=
  map_reports source root.placed []

theorem flatMap_treeReports (source : Octets) (root : Node) :
    (treeReports source root).flatMap (·.problems) = findProblems source root := by
  rw [treeReports, flatMap_reports, Node.map_snd_placed, findProblems]

theorem mem_treeReports_iff {address : List Nat} :
    (∃ r ∈ treeReports source root, r.address = address ∧ r.node = n) ↔ root.at? address = some n := by
  rw [← Node.mem_placed_iff, ← map_treeReports source, List.mem_map]
  simp only [Prod.mk.injEq]

theorem pairwise_address_treeReports (source : Octets) (root : Node) :
    (treeReports source root).Pairwise fun r later => r.address < later.address := by
  have horder := Node.pairwise_placed root
  rw [← map_treeReports source, List.pairwise_map] at horder
  exact horder

/-- The places of the problems of a nested tree over a text come in the order of the text. -/
theorem pairwise_notBehind {t : Text} (hnested : root.Nested)
    (hstart : ∀ n : Node, n.Occurs root → StartsCharacter t n.start) :
    (findProblems (encode t) root).Pairwise fun p q => p.position.NotBehind q.position := by
  have horder := Node.pairwise_start_preorder hnested
  rw [← Node.map_snd_placed, List.pairwise_map, ← map_treeReports (encode t), List.pairwise_map] at horder
  have hposition : ∀ r ∈ treeReports (encode t) root, ∀ p ∈ r.problems,
      p.position = positionAt (encode t) r.node.start := position_of_mem_reports (encode t) root.placed
  have hoccurs : ∀ r ∈ treeReports (encode t) root, StartsCharacter t r.node.start := by
    intro r hr
    refine hstart r.node ((Node.mem_preorder_iff r.node root).1 ?_)
    rw [← Node.map_snd_placed, ← map_treeReports (encode t), List.map_map]
    exact List.mem_map_of_mem hr
  rw [← flatMap_treeReports, List.pairwise_flatMap]
  constructor
  · refine fun r hr => List.pairwise_of_forall_mem_list fun p hp q hq => ?_
    rw [hposition r hr p hp, hposition r hr q hq]
    exact .refl _
  · refine horder.imp_of_mem fun {r later} hr hlater hle p hp q hq => ?_
    rw [hposition r hr p hp, hposition later hlater q hq]
    exact notBehind_of_le (hoccurs r hr) (hoccurs later hlater) hle

/-- The problems of a tree are those of the nodes at its addresses, each once and in the order of the addresses. Of
each node is told, behind the problems of the nodes before it, that it is an error node, that it is missing, and that
damage lies inside it, the last one if it is no error node and no problem stands at its place yet. So no two problems
of damage inside a node stand at one place. In a nested tree over a text the places come in the order of the text. -/
theorem problems_in_preorder (source : Octets) (root : Node) :
    (∃ told : List Report,
        (told.Pairwise fun r later => r.address < later.address) ∧
          (∀ (address : List Nat) (n : Node),
            (∃ r ∈ told, r.address = address ∧ r.node = n) ↔ root.at? address = some n) ∧
          told.flatMap (·.problems) = findProblems source root ∧
          ∀ (earlier later : List Report) (r : Report), told = earlier ++ r :: later →
            r.problems = tell source (earlier.flatMap (·.problems)) r.node) ∧
      (findProblems source root).Pairwise Problem.Apart ∧
      ∀ t : Text, source = encode t → root.Nested →
        (∀ n : Node, n.Occurs root → StartsCharacter t n.start) →
        (findProblems source root).Pairwise fun p q => p.position.NotBehind q.position := by
  refine ⟨⟨treeReports source root, pairwise_address_treeReports source root,
    fun address n => mem_treeReports_iff, flatMap_treeReports source root, ?_⟩,
    (pairwise_apart_problemsOf source root.preorder []).1, ?_⟩
  · intro earlier later r hsplit
    -- in front of the first node nothing is reported
    have hnone : ∀ place, place ∈ ([] : List Position) ↔ ∃ p ∈ ([] : List Problem), p.position = place := by simp
    have htold := problems_eq_tell source root.placed hnone earlier r later hsplit
    rwa [List.nil_append] at htold
  · rintro t rfl hnested hstart
    exact pairwise_notBehind hnested hstart

/-! ## Damage in a source of two lines -/

/-- A source of two lines whose first character has two octets. -/
def twoLines : Text := ['é', ' ', ')', '\n', 'y']

/-- A tree over `twoLines`: an error node in a statement that starts where the root does, and a missing node at the
end. -/
def twoLinesTree : Node :=
  ⟨"program", true, false, true, 0, 6, none,
    [⟨"statement", true, false, true, 0, 4, none,
      [⟨"identifier", true, false, false, 0, 2, none, []⟩, ⟨errorKind, true, false, true, 3, 4, none, []⟩]⟩,
      ⟨"identifier", true, true, true, 6, 6, none, []⟩]⟩

/-- Damage in the statement is not told, since the root has been reported at its place. The columns count
characters. -/
theorem problems_in_preorder_twoLines :
    twoLinesTree.Nested ∧ (∀ n : Node, n.Occurs twoLinesTree → StartsCharacter twoLines n.start) ∧
      findProblems (encode twoLines) twoLinesTree =
        [⟨.inside "program", ⟨1, 1⟩⟩, ⟨.unexpected [')'], ⟨1, 3⟩⟩, ⟨.missing "identifier", ⟨2, 2⟩⟩] ∧
      (findProblems (encode twoLines) twoLinesTree).Pairwise fun p q => p.position.NotBehind q.position := by
  have hspans : ∀ n ∈ twoLinesTree.preorder,
      (∀ child ∈ n.children, n.start ≤ child.start ∧ child.start ≤ child.stop ∧ child.stop ≤ n.stop) ∧
        n.children.Pairwise fun child next => child.stop ≤ next.start := by
    decide +kernel
  have hnested : twoLinesTree.Nested := fun n hn => hspans n ((Node.mem_preorder_iff n twoLinesTree).2 hn)
  have hoffsets : ∀ n ∈ twoLinesTree.preorder,
      ∃ width ∈ List.range 6, n.start = (encode (twoLines.take width)).length := by
    decide +kernel
  have hstart (n : Node) (hn : n.Occurs twoLinesTree) : StartsCharacter twoLines n.start := by
    obtain ⟨width, -, hwidth⟩ := hoffsets n ((Node.mem_preorder_iff n twoLinesTree).2 hn)
    exact ⟨twoLines.take width, twoLines.drop width, (List.take_append_drop width twoLines).symm, hwidth⟩
  exact ⟨hnested, hstart, by decide +kernel,
    (problems_in_preorder (encode twoLines) twoLinesTree).2.2 twoLines rfl hnested hstart⟩

end SnippetAudit.Syntax
