import SnippetAudit.Proofs.Syntax.Tree
import SnippetAudit.Syntax.Problem

/-!
# Damage and problems

A node is damaged when it is an error node, when it is missing, or when damage is marked in it. The problems
of a tree tell of damage and of nothing else: every problem stands at the place of a damaged node, and at
the place of every damaged node stands a problem. A node may be passed over because its place has been
reported before. The invariant of the walk is that every place in the list of reported places is that of a
problem found already, so what is passed over is covered.

## What this module delivers

- `Node.Damaged`: damaged nodes;
- `exists_damaged_of_mem_problemsOf`: problems stand at damaged nodes;
- `covered_of_damaged`: damaged nodes are covered by problems;
- `findProblems_eq_nil_iff`, `exists_problem_of_damaged`: both, for a whole tree.
-/

set_option autoImplicit false

namespace SnippetAudit.Syntax

/-- The node holds what the grammar cannot read, was put in where syntax is missing, or is marked as
holding damage. -/
def Node.Damaged (n : Node) : Prop := n.kind = errorKind ∨ n.isMissing = true ∨ n.hasError = true

/-! ## One node -/

/-- The problems of a node stand at its place, and only a damaged node has any. -/
theorem mem_problemsAt {source : Octets} {reported : List Position} {n : Node} {p : Problem}
    (h : p ∈ problemsAt source reported n) :
    n.Damaged ∧ p.position = positionAt source n.start := by
  simp only [problemsAt, List.mem_append] at h
  rcases h with (h | h) | h
  · split at h
    · next hkind =>
      obtain rfl := List.mem_singleton.1 h
      exact ⟨Or.inl hkind, rfl⟩
    · exact absurd h List.not_mem_nil
  · split at h
    · next hmissing =>
      obtain rfl := List.mem_singleton.1 h
      exact ⟨Or.inr (Or.inl hmissing), rfl⟩
    · exact absurd h List.not_mem_nil
  · split at h
    · next hinside =>
      obtain rfl := List.mem_singleton.1 h
      simp only [Bool.and_eq_true] at hinside
      exact ⟨Or.inr (Or.inr hinside.1.1), rfl⟩
    · exact absurd h List.not_mem_nil

/-- A damaged node has a problem, unless its place has been reported before. -/
theorem problemsAt_ne_nil {source : Octets} {reported : List Position} {n : Node} (hn : n.Damaged)
    (hplace : positionAt source n.start ∉ reported) : problemsAt source reported n ≠ [] := by
  intro h
  simp only [problemsAt, List.append_eq_nil_iff, ite_eq_right_iff, List.cons_ne_nil, imp_false] at h
  obtain ⟨⟨hkind, hmissing⟩, hinside⟩ := h
  rcases hn with hn | hn | hn
  · exact hkind hn
  · exact hmissing hn
  · simp [hn, hkind, hmissing, hplace] at hinside

/-! ## The walk -/

/-- A problem stands at the place of a damaged node. -/
theorem exists_damaged_of_mem_problemsOf (source : Octets) {p : Problem} (ns : List Node) :
    ∀ {reported}, p ∈ problemsOf source reported ns →
      ∃ n ∈ ns, n.Damaged ∧ p.position = positionAt source n.start := by
  induction ns with
  | nil => intro reported h; exact absurd h List.not_mem_nil
  | cons n rest ih =>
    intro reported h
    rcases List.mem_append.1 h with hfound | hlater
    · exact ⟨n, List.mem_cons_self, mem_problemsAt hfound⟩
    · obtain ⟨m, hm, hdamaged⟩ := ih hlater
      exact ⟨m, List.mem_cons_of_mem n hm, hdamaged⟩

/-- The place of a damaged node has been reported before the walk or is that of a problem found in it. -/
theorem covered_of_damaged (source : Octets) {n : Node} (hn : n.Damaged) (ns : List Node) :
    ∀ {reported}, n ∈ ns → positionAt source n.start ∈ reported ∨
      ∃ p ∈ problemsOf source reported ns, p.position = positionAt source n.start := by
  induction ns with
  | nil => intro reported h; exact absurd h List.not_mem_nil
  | cons m rest ih =>
    intro reported h
    rcases List.mem_cons.1 h with rfl | hrest
    · by_cases hplace : positionAt source n.start ∈ reported
      · exact Or.inl hplace
      · obtain ⟨p, hp⟩ := List.exists_mem_of_ne_nil _ (problemsAt_ne_nil hn hplace)
        exact Or.inr ⟨p, List.mem_append_left _ hp, (mem_problemsAt hp).2⟩
    · -- what counts as reported behind `m` was reported before or is the place of a problem of `m`
      rcases ih hrest with hplace | ⟨p, hp, hposition⟩
      · rcases List.mem_append.1 hplace with hfound | hbefore
        · obtain ⟨p, hp, hposition⟩ := List.mem_map.1 hfound
          exact Or.inr ⟨p, List.mem_append_left _ hp, hposition⟩
        · exact Or.inl hbefore
      · exact Or.inr ⟨p, List.mem_append_right _ hp, hposition⟩

/-! ## Whole trees -/

/-- At the place of every damaged node of a tree stands a problem. -/
theorem exists_problem_of_damaged (source : Octets) {root n : Node} (hroot : n.Occurs root)
    (hn : n.Damaged) : ∃ p ∈ findProblems source root, p.position = positionAt source n.start := by
  have hmem := (Node.mem_preorder_iff n root).2 hroot
  rcases covered_of_damaged source hn root.preorder hmem with hplace | hp
  · exact absurd hplace List.not_mem_nil
  · exact hp

/-- A tree has no problems exactly when none of its nodes is damaged. -/
theorem findProblems_eq_nil_iff (source : Octets) (root : Node) :
    findProblems source root = [] ↔ ∀ n : Node, n.Occurs root → ¬ n.Damaged := by
  constructor
  · intro h n hroot hn
    obtain ⟨p, hp, -⟩ := exists_problem_of_damaged source hroot hn
    rw [h] at hp
    exact absurd hp List.not_mem_nil
  · intro h
    refine List.eq_nil_iff_forall_not_mem.2 fun p hp => ?_
    obtain ⟨n, hn, hdamaged, -⟩ := exists_damaged_of_mem_problemsOf source root.preorder hp
    exact h n ((Node.mem_preorder_iff n root).1 hn) hdamaged

end SnippetAudit.Syntax
