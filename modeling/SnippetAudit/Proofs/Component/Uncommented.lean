import Mathlib.Data.List.Find
import SnippetAudit.Component.Literal
import SnippetAudit.Proofs.Syntax.Tree

/-!
# Trees without comments

A tree without comments has the nodes that are no comments and do not stand below one. Each of them keeps
its type, its span and with it its text. Whatever passes over comments among the children of a node finds
the same children; whatever looks for a field finds the same child, since a comment stands in no field.

## What this module delivers

- `withoutComments`: the tree without the comments below its root;
- `CommentsInNoField`: comments are found by no field;
- `parts_withoutComments`, `namedChildren_withoutComments`, `childByField?_withoutComments`: the views of a
  node in the tree without comments.
-/

set_option autoImplicit false

namespace SnippetAudit.Component

open Syntax

mutual

/-- The tree without the comments below its root, and without what stands below these. -/
def withoutComments : Node → Node
  | ⟨kind, isNamed, isMissing, hasError, start, stop, field, children⟩ =>
    ⟨kind, isNamed, isMissing, hasError, start, stop, field, keptOf children⟩

/-- The trees that are no comments, each without the comments in it. -/
def keptOf : List Node → List Node
  | [] => []
  | n :: rest => if isComment n then keptOf rest else withoutComments n :: keptOf rest

end

/-- Comments stand beside what a node is made of, in no field of it. -/
def CommentsInNoField (root : Node) : Prop :=
  ∀ n : Node, n.Occurs root → isComment n = true → n.field = none

theorem CommentsInNoField.child {n child : Node} (h : CommentsInNoField n) (hchild : child ∈ n.children) :
    CommentsInNoField child :=
  fun m hm => h m (.inside hchild hm)

theorem CommentsInNoField.of_occurs {n root : Node} (h : CommentsInNoField root) (hn : n.Occurs root) :
    CommentsInNoField n := by
  induction hn with
  | root => exact h
  | inside hchild _ ih => exact ih (h.child hchild)

instance decidableCommentsInNoField : DecidablePred CommentsInNoField := fun root =>
  decidable_of_iff (∀ n ∈ root.preorder, isComment n = true → n.field = none)
    (forall_congr' fun n => by rw [Node.mem_preorder_iff])

/-! ## What a node keeps -/

section Kept

variable (n : Node)

@[simp] theorem kind_withoutComments : (withoutComments n).kind = n.kind := by cases n; rfl

@[simp] theorem isNamed_withoutComments : (withoutComments n).isNamed = n.isNamed := by cases n; rfl

@[simp] theorem field_withoutComments : (withoutComments n).field = n.field := by cases n; rfl

@[simp] theorem isComment_withoutComments : isComment (withoutComments n) = isComment n := by cases n; rfl

@[simp] theorem text_withoutComments (source : Octets) : (withoutComments n).text source = n.text source := by
  cases n; rfl

end Kept

theorem keptOf_eq (ns : List Node) :
    keptOf ns = (ns.filter fun n => !isComment n).map withoutComments := by
  induction ns with
  | nil => rfl
  | cons n rest ih =>
    rw [keptOf, ih]
    cases hn : isComment n <;> simp [hn]

theorem children_withoutComments (n : Node) :
    (withoutComments n).children = (n.children.filter fun child => !isComment child).map withoutComments := by
  rw [← keptOf_eq]
  cases n; rfl

/-! ## The views of a node -/

/-- The children that have names are those that were parts before. -/
theorem namedChildren_withoutComments (n : Node) :
    (withoutComments n).namedChildren = (parts n).map withoutComments := by
  rw [Node.namedChildren, children_withoutComments, List.filter_map, parts, Node.namedChildren,
    List.filter_filter, List.filter_filter]
  congr 2
  funext child
  rw [Bool.and_comm]
  simp

theorem parts_withoutComments (n : Node) : parts (withoutComments n) = (parts n).map withoutComments := by
  rw [parts, namedChildren_withoutComments, List.filter_map]
  congr 1
  refine List.filter_eq_self.2 fun child hchild => ?_
  simpa using (List.mem_filter.1 hchild).2

/-- The child in a field is the same one. -/
theorem childByField?_withoutComments {n : Node} (hfields : CommentsInNoField n) (name : String) :
    (withoutComments n).childByField? name = (n.childByField? name).map withoutComments := by
  rw [Node.childByField?, children_withoutComments, List.find?_map, List.find?_filter, Node.childByField?]
  congr 1
  refine List.find?_congr fun child hchild => Bool.eq_iff_iff.2 ?_
  cases hcomment : isComment child with
  | false => simp
  | true => simp [hfields child (.inside hchild .root) hcomment]

/-- The children of some types, comments not being among these, are the same ones. -/
theorem filter_kind_withoutComments {p : String → Bool} (hcomment : p "comment" = false) (n : Node) :
    ((withoutComments n).namedChildren.filter fun child => p child.kind) =
      (n.namedChildren.filter fun child => p child.kind).map withoutComments := by
  rw [namedChildren_withoutComments, List.filter_map, parts, List.filter_filter]
  congr 2
  funext child
  by_cases hkind : child.kind = "comment"
  · simp [hkind, hcomment]
  · simp [isComment, hkind]

end SnippetAudit.Component
