import SnippetAudit.Proofs.Syntax.Tree

/-!
# The order of the nodes of a tree

The address of a node tells which child to go to at each step from the root. The walk visits each address of a
tree once, in the order of the addresses: an address stands before those that go on from it, and of two that
part, the one that goes to the earlier child stands first. Where children lie inside their parents and follow
one another, the nodes come in the order of their first octets.

## What this module delivers

- `Node.at?`: the node at an address;
- `Node.placed`: the nodes of a tree with their addresses;
- `map_snd_placed`, `mem_placed_iff`, `pairwise_placed`: they are what the walk visits, every address of the
  tree, each once and in order;
- `Node.Nested`: trees whose spans are nested;
- `pairwise_start_preorder`: the walk visits the nodes of such a tree in the order of their first octets.
-/

set_option autoImplicit false

namespace SnippetAudit.Syntax

namespace Node

/-! ## Addresses -/

/-- The node at an address: the numbers of the children to go to, from the root on. -/
def at? : Node → List Nat → Option Node
  | n, [] => some n
  | n, i :: rest =>
    match n.children[i]? with
    | some child => child.at? rest
    | none => none

mutual

/-- The nodes of a tree in the order of the walk, with their addresses. -/
def placed : Node → List (List Nat × Node)
  | ⟨kind, isNamed, isMissing, hasError, start, stop, field, children⟩ =>
    ([], ⟨kind, isNamed, isMissing, hasError, start, stop, field, children⟩) :: placedFrom 0 children

/-- The nodes of the trees of children, the first of which has the number `i`. -/
def placedFrom (i : Nat) : List Node → List (List Nat × Node)
  | [] => []
  | child :: rest => (placed child).map (fun place => (i :: place.1, place.2)) ++ placedFrom (i + 1) rest

end

theorem placed_eq (n : Node) : n.placed = ([], n) :: placedFrom 0 n.children := by
  cases n; rfl

/-- The walk visits the nodes that have addresses. -/
theorem map_snd_placed (n : Node) : n.placed.map Prod.snd = n.preorder := by
  induction n using induct with
  | step n ih =>
    have hfrom (ns : List Node) (hns : ∀ child ∈ ns, child.placed.map Prod.snd = child.preorder) :
        ∀ i, (placedFrom i ns).map Prod.snd = ns.flatMap preorder := by
      induction ns with
      | nil => exact fun _ => rfl
      | cons child rest ihrest =>
        intro i
        rw [List.forall_mem_cons] at hns
        rw [placedFrom, List.map_append, List.map_map, ihrest hns.2, List.flatMap_cons, ← hns.1]
        rfl
    rw [placed_eq, preorder_eq, List.map_cons, hfrom n.children ih]

theorem mem_placedFrom_iff {ns : List Node} {m : Node}
    (hns : ∀ child ∈ ns, ∀ address : List Nat, (address, m) ∈ child.placed ↔ child.at? address = some m) :
    ∀ (i : Nat) (address : List Nat), (address, m) ∈ placedFrom i ns ↔
      ∃ (j : Nat) (rest : List Nat) (child : Node), address = (i + j) :: rest ∧ ns[j]? = some child ∧
        child.at? rest = some m := by
  induction ns with
  | nil => simp [placedFrom]
  | cons first others ih =>
    rw [List.forall_mem_cons] at hns
    intro i address
    rw [placedFrom, List.mem_append, ih hns.2, List.mem_map]
    constructor
    · rintro (⟨⟨rest, n⟩, hplace, heq⟩ | ⟨j, rest, child, rfl, hchild, hat⟩)
      · cases heq
        exact ⟨0, rest, first, rfl, rfl, (hns.1 rest).1 hplace⟩
      · exact ⟨j + 1, rest, child, by rw [Nat.add_right_comm, Nat.add_assoc], hchild, hat⟩
    · rintro ⟨j, rest, child, rfl, hchild, hat⟩
      cases j with
      | zero =>
        cases hchild
        exact Or.inl ⟨(rest, m), (hns.1 rest).2 hat, rfl⟩
      | succ j => exact Or.inr ⟨j, rest, child, by rw [Nat.add_right_comm, Nat.add_assoc], hchild, hat⟩

/-- A node is placed at an address exactly when it is there. -/
theorem mem_placed_iff (n m : Node) (address : List Nat) :
    (address, m) ∈ n.placed ↔ n.at? address = some m := by
  induction n using induct generalizing address with
  | step n ih =>
    rw [placed_eq, List.mem_cons, mem_placedFrom_iff ih]
    cases address with
    | nil => simp [at?, eq_comm]
    | cons i rest =>
      rw [at?]
      constructor
      · rintro (hroot | ⟨j, more, child, haddress, hchild, hat⟩)
        · cases hroot
        · rw [Nat.zero_add] at haddress
          cases haddress
          simp only [hchild, hat]
      · intro hat
        cases hchild : n.children[i]? with
        | none => simp [hchild] at hat
        | some child =>
          simp only [hchild] at hat
          exact Or.inr ⟨i, rest, child, by rw [Nat.zero_add], hchild, hat⟩

theorem pairwise_placedFrom {ns : List Node}
    (hns : ∀ child ∈ ns, child.placed.Pairwise fun place later => place.1 < later.1) :
    ∀ i, (placedFrom i ns).Pairwise (fun place later => place.1 < later.1) ∧
      ∀ place ∈ placedFrom i ns, ∃ (j : Nat) (rest : List Nat), place.1 = (i + j) :: rest := by
  induction ns with
  | nil => simp [placedFrom]
  | cons first others ih =>
    rw [List.forall_mem_cons] at hns
    intro i
    obtain ⟨hpairwise, hnumber⟩ := ih hns.2 (i + 1)
    constructor
    · rw [placedFrom, List.pairwise_append, List.pairwise_map]
      refine ⟨hns.1.imp fun h => List.cons_lt_cons_iff.2 (Or.inr ⟨rfl, h⟩), hpairwise, ?_⟩
      intro place hplace later hlater
      obtain ⟨inner, -, rfl⟩ := List.mem_map.1 hplace
      obtain ⟨j, rest, hlater⟩ := hnumber later hlater
      rw [hlater]
      exact List.cons_lt_cons_iff.2 (Or.inl (by omega))
    · intro place hplace
      rw [placedFrom, List.mem_append] at hplace
      rcases hplace with hfirst | hothers
      · obtain ⟨inner, -, rfl⟩ := List.mem_map.1 hfirst
        exact ⟨0, inner.1, rfl⟩
      · obtain ⟨j, rest, h⟩ := hnumber place hothers
        exact ⟨j + 1, rest, by rw [h, Nat.add_right_comm, Nat.add_assoc]⟩

/-- The addresses come in order, and none comes twice. -/
theorem pairwise_placed (n : Node) : n.placed.Pairwise fun place later => place.1 < later.1 := by
  induction n using induct with
  | step n ih =>
    obtain ⟨hpairwise, hnumber⟩ := pairwise_placedFrom ih 0
    rw [placed_eq, List.pairwise_cons]
    refine ⟨fun later hlater => ?_, hpairwise⟩
    obtain ⟨j, rest, h⟩ := hnumber later hlater
    rw [h]
    exact List.nil_lt_cons _ _

/-! ## Spans -/

/-- The children of every node lie inside it, and each of them ends before the next one starts. -/
def Nested (root : Node) : Prop :=
  ∀ n : Node, n.Occurs root →
    (∀ child ∈ n.children, n.start ≤ child.start ∧ child.start ≤ child.stop ∧ child.stop ≤ n.stop) ∧
      n.children.Pairwise fun child next => child.stop ≤ next.start

theorem Nested.of_mem {n child : Node} (h : n.Nested) (hchild : child ∈ n.children) : child.Nested :=
  fun m hm => h m (.inside hchild hm)

/-- The nodes of a nested tree start inside its root. -/
theorem Nested.start_bounds {n m : Node} (h : n.Nested) (hspan : n.start ≤ n.stop) (hm : m.Occurs n) :
    n.start ≤ m.start ∧ m.start ≤ n.stop := by
  induction hm with
  | root => exact ⟨Nat.le_refl _, hspan⟩
  | @inside parent child hchild _ ih =>
    obtain ⟨hstart, hspan, hstop⟩ := (h parent .root).1 child hchild
    obtain ⟨hlow, hhigh⟩ := ih (h.of_mem hchild) hspan
    exact ⟨Nat.le_trans hstart hlow, Nat.le_trans hhigh hstop⟩

/-- The walk visits the nodes of a nested tree in the order of their first octets. -/
theorem pairwise_start_preorder {n : Node} (h : n.Nested) :
    n.preorder.Pairwise fun m later => m.start ≤ later.start := by
  induction n using induct with
  | step n ih =>
    obtain ⟨hinside, hfollow⟩ := h n .root
    have hbounds (child : Node) (hchild : child ∈ n.children) (m : Node) (hm : m ∈ child.preorder) :
        child.start ≤ m.start ∧ m.start ≤ child.stop :=
      (h.of_mem hchild).start_bounds (hinside child hchild).2.1 ((mem_preorder_iff m child).1 hm)
    rw [preorder_eq, List.pairwise_cons, List.pairwise_flatMap]
    refine ⟨fun m hm => ?_, fun child hchild => ih child hchild (h.of_mem hchild), ?_⟩
    · obtain ⟨child, hchild, hm⟩ := List.mem_flatMap.1 hm
      exact Nat.le_trans (hinside child hchild).1 (hbounds child hchild m hm).1
    · refine hfollow.imp_of_mem fun {child next} hchild hnext hstop m hm later hlater => ?_
      calc
        m.start ≤ child.stop := (hbounds child hchild m hm).2
        _ ≤ next.start := hstop
        _ ≤ later.start := (hbounds next hnext later hlater).1

end Node

end SnippetAudit.Syntax
