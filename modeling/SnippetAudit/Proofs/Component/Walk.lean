import SnippetAudit.Component.Walk
import SnippetAudit.Proofs.Syntax.Tree

/-!
# The usages of a tree

The usages of a tree are the usage of its root, if it is one, and those of the trees of its children in turn.
Every node of an empty source has an empty text, whatever tree the parser gives for it. A component has a
tag that is not empty, so nothing is used in an empty snippet.

## What this module delivers

- `walk_eq`, `walk_eq_nil_iff`: the usages of a tree from those of its nodes;
- `usageAt?_nil`: no node of an empty source is a usage;
- `findUsages_nil`: there are no usages in an empty snippet.
-/

set_option autoImplicit false

namespace SnippetAudit.Component

open Syntax

theorem walk_eq (rules : WalkRules) (source : Octets) (n : Node) :
    walk rules source n = (usageAt? rules source n).toList ++ n.children.flatMap (walk rules source) := by
  have hbelow : (n.children.flatMap Node.preorder).filterMap (usageAt? rules source) =
      n.children.flatMap (walk rules source) := List.filterMap_flatMap
  rw [walk, Node.preorder_eq, List.filterMap_cons, hbelow]
  cases usageAt? rules source n <;> rfl

theorem walk_eq_nil_iff {rules : WalkRules} {source : Octets} {n : Node} :
    walk rules source n = [] ↔ ∀ m : Node, m.Occurs n → usageAt? rules source m = none := by
  simp only [walk, List.filterMap_eq_nil_iff, Node.mem_preorder_iff]

/-! ## Empty snippets -/

theorem text_nil (n : Node) : n.text [] = [] := by
  simp [Node.text, Node.octets, Octets.decodeLossy, Octets.decodeLossyFrom]

theorem isComponentTag_empty (rules : WalkRules) : isComponentTag rules "" = false := by
  simp [isComponentTag]

theorem elementTag?_nil {n : Node} {tag : Text} (h : elementTag? n [] = some tag) : tag = [] := by
  obtain ⟨name, -, rfl⟩ := Option.map_eq_some_iff.1 h
  simp [text_nil, Text.trim, Text.trimStart, Text.trimEnd, Text.dropEndWhile, afterLast]

theorem argumentTag?_nil {n : Node} {tag : String} (h : argumentTag? [] n = some tag) : tag = "" := by
  unfold argumentTag? at h
  split at h
  · rw [text_nil] at h
    exact (Option.some.inj h).symm
  · split at h
    · rw [quotedText, text_nil] at h
      exact (Option.some.inj h).symm
    · exact absurd h (by simp)

theorem markupUsage?_nil (rules : WalkRules) (n : Node) : markupUsage? rules [] n = none := by
  unfold markupUsage?
  cases htag : elementTag? n [] with
  | none => rfl
  | some tag =>
    obtain rfl := elementTag?_nil htag
    simp [isComponentTag_empty]

theorem factoryUsage?_nil (rules : WalkRules) (n : Node) : factoryUsage? rules [] n = none := by
  unfold factoryUsage?
  split
  · rfl
  · dsimp only
    split
    · next first rest _ =>
      split
      · rfl
      · cases htag : argumentTag? [] first with
        | none => rfl
        | some tag =>
          obtain rfl := argumentTag?_nil htag
          simp [isComponentTag_empty]
    · rfl

/-- No node of an empty source has the tag of a component. -/
theorem usageAt?_nil (rules : WalkRules) (n : Node) : usageAt? rules [] n = none := by
  rw [usageAt?, markupUsage?_nil, factoryUsage?_nil]
  simp

/-- There are no usages in an empty snippet. -/
theorem findUsages_nil (env : Judge.Environment) (rules : WalkRules) :
    (findUsages env rules []).usages = [] := by
  have hsource : parseable [] = [] := rfl
  rw [findUsages, hsource]
  exact walk_eq_nil_iff.2 fun n _ => usageAt?_nil rules n

end SnippetAudit.Component
