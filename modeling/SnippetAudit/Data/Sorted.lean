/-!
# Sorting

A list is sorted by putting each element in front of the first one that does not come before it, so
elements of equal rank keep their order.

## What this module delivers

- `insertBy`, `sortBy`: sorting by a strict order;
- `sortStrings`: strings by their characters;
- `textBefore`: lists of strings by their first difference;
- `sortBy_perm`: sorting only rearranges.
-/

set_option autoImplicit false

namespace SnippetAudit.Sorted

variable {α : Type}

/-- Puts an element in front of the first one that does not come before it. -/
def insertBy (before : α → α → Bool) (x : α) : List α → List α
  | [] => [x]
  | y :: rest => if before y x then y :: insertBy before x rest else x :: y :: rest

/-- The elements in order; those of equal rank keep their order. -/
def sortBy (before : α → α → Bool) : List α → List α
  | [] => []
  | x :: rest => insertBy before x (sortBy before rest)

/-- Strings in the order of their characters. -/
def sortStrings (ss : List String) : List String := sortBy (fun a b => decide (a < b)) ss

/-- The first list comes first: it is smaller at the first difference, or ends first. -/
def textBefore : List String → List String → Bool
  | [], others => !others.isEmpty
  | _ :: _, [] => false
  | s :: rest, other :: others =>
    if s < other then true else if other < s then false else textBefore rest others

theorem insertBy_perm (before : α → α → Bool) (x : α) (l : List α) :
    (insertBy before x l).Perm (x :: l) := by
  induction l with
  | nil => simp [insertBy]
  | cons y rest ih =>
    unfold insertBy
    split
    · exact (ih.cons y).trans (List.Perm.swap x y rest)
    · exact List.Perm.refl _

/-- Sorting only rearranges. -/
theorem sortBy_perm (before : α → α → Bool) (l : List α) : (sortBy before l).Perm l := by
  induction l with
  | nil => simp [sortBy]
  | cons x rest ih => exact (insertBy_perm before x _).trans (ih.cons x)

theorem mem_sortBy_iff (before : α → α → Bool) (x : α) (l : List α) : x ∈ sortBy before l ↔ x ∈ l :=
  (sortBy_perm before l).mem_iff

end SnippetAudit.Sorted
