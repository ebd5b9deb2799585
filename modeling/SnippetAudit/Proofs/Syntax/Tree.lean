import SnippetAudit.Syntax.Node

/-!
# The nodes of a tree

The nodes of a tree are its root and the nodes of the trees of its children. The walk visits these and no
others. A property of trees is shown from the trees of the children up; where a property of a node rests on
nodes further down, from all nodes below it.

## What this module delivers

- `Node.Occurs`: the nodes of a tree;
- `mem_preorder_iff`: the walk visits the nodes of the tree and no others;
- `Node.induct`, `Node.inductBelow`: induction over a tree.
-/

set_option autoImplicit false

namespace SnippetAudit.Syntax

namespace Node

/-- The node is the root of a tree or stands somewhere below it. -/
inductive Occurs (n : Node) : Node → Prop
  | root : Occurs n n
  | inside {parent child : Node} : child ∈ parent.children → Occurs n child → Occurs n parent

theorem Occurs.trans {m n root : Node} (h : m.Occurs n) (h' : n.Occurs root) : m.Occurs root := by
  induction h' with
  | root => exact h
  | inside hchild _ ih => exact .inside hchild ih

/-! ## The walk -/

theorem mem_preorderOf_iff (n : Node) (pending : List Node) :
    n ∈ preorderOf pending ↔ ∃ root ∈ pending, n.Occurs root := by
  fun_induction preorderOf pending with
  | case1 => simp
  | case2 first pending ih =>
    rw [List.mem_cons, ih]
    constructor
    · rintro (rfl | ⟨root, hroot, hn⟩)
      · exact ⟨n, List.mem_cons_self, .root⟩
      · rcases List.mem_append.1 hroot with hchild | hpending
        · exact ⟨first, List.mem_cons_self, .inside hchild hn⟩
        · exact ⟨root, List.mem_cons_of_mem first hpending, hn⟩
    · rintro ⟨root, hroot, hn⟩
      rcases List.mem_cons.1 hroot with rfl | hpending
      · cases hn with
        | root => exact Or.inl rfl
        | inside hchild hn => exact Or.inr ⟨_, List.mem_append_left _ hchild, hn⟩
      · exact Or.inr ⟨root, List.mem_append_right _ hpending, hn⟩

/-- The walk visits the nodes of the tree and no others. -/
theorem mem_preorder_iff (n root : Node) : n ∈ root.preorder ↔ n.Occurs root := by
  rw [preorder, mem_preorderOf_iff]
  constructor
  · rintro ⟨r, hr, hn⟩
    rw [List.mem_singleton.1 hr] at hn
    exact hn
  · intro hn
    exact ⟨root, List.mem_singleton_self root, hn⟩

/-! ## Induction -/

theorem count_lt_of_mem {child n : Node} (h : child ∈ n.children) : child.count < n.count := by
  obtain ⟨before, behind, hchildren⟩ := List.append_of_mem h
  rw [count_eq n, hchildren, countAll_append, countAll]
  omega

/-- What holds of a node if it holds of its children, holds of every node. -/
@[elab_as_elim]
theorem induct {motive : Node → Prop} (step : ∀ n : Node, (∀ child ∈ n.children, motive child) → motive n)
    (n : Node) : motive n :=
  step n fun child _ => induct step child
termination_by n.count
decreasing_by exact count_lt_of_mem ‹_›

/-- What holds of a node if it holds of all nodes below it, holds of every node. -/
@[elab_as_elim]
theorem inductBelow {motive : Node → Prop}
    (step : ∀ n : Node, (∀ child ∈ n.children, ∀ m : Node, m.Occurs child → motive m) → motive n) (n : Node) :
    motive n := by
  have hall : ∀ m : Node, m.Occurs n → motive m := by
    induction n using induct with
    | step n ih =>
      intro m hm
      cases hm with
      | root => exact step n ih
      | inside hchild hm => exact ih _ hchild m hm
  exact hall n .root

end Node

end SnippetAudit.Syntax
