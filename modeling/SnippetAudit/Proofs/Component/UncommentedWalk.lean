import SnippetAudit.Proofs.Component.AttributeNode
import SnippetAudit.Proofs.Component.Walk
import SnippetAudit.Proofs.Data.Pieces

/-!
# Usages without comments

Taking the comments out of a tree leaves every node its tag, its text and the nodes of its attributes. A
usage may still change, and in one way only: the value of an attribute that counts becomes a literal, because
a comment stood beside it in parentheses. The usages of a tree can also become fewer, where a comment held
one; a comment of the grammar has no children and holds none. So the usages stay the same exactly when
comments make no difference at any node, which is shown from the children up: no child's tree has more
usages without comments, so the lists can only be the same piece by piece.

## What this module delivers

- `usageAt?_withoutComments_iff`: when a node is the same usage without comments;
- `length_walk_withoutComments_le`: no usages are added;
- `Indifferent`, `indifferent_of_literals`: comments make no difference at a node;
- `walk_withoutComments_iff`: when a tree has the same usages without comments.
-/

set_option autoImplicit false

namespace SnippetAudit.Component

open Syntax

variable {rules : WalkRules} {source : Octets} {n : Node}

/-! ## One node -/

theorem argumentTag?_withoutComments (first : Node) :
    argumentTag? source (withoutComments first) = argumentTag? source first := by
  simp only [argumentTag?, kind_withoutComments, text_withoutComments, quotedText_withoutComments]

theorem memberNodes_withoutComments (object : Node) :
    memberNodes (withoutComments object) = (memberNodes object).map withoutComments := by
  rw [memberNodes, kind_withoutComments, filter_kind_withoutComments (by decide), memberNodes]
  split <;> rfl

section Fields

variable (hfields : CommentsInNoField n)

include hfields

theorem elementTag?_withoutComments : elementTag? (withoutComments n) source = elementTag? n source := by
  rw [elementTag?, childByField?_withoutComments hfields, Option.map_map, elementTag?]
  congr 1
  funext name
  simp

theorem isFactoryCall_withoutComments :
    isFactoryCall rules source (withoutComments n) = isFactoryCall rules source n := by
  rw [isFactoryCall, childByField?_withoutComments hfields, isFactoryCall]
  cases hcallee : n.childByField? "function" with
  | none => rfl
  | some callee =>
    have hchild : callee ∈ n.children := List.mem_of_find?_eq_some hcallee
    dsimp only [Option.map_some]
    rw [kind_withoutComments, childByField?_withoutComments (hfields.child hchild)]
    cases callee.childByField? "property" <;> simp

theorem callArguments_withoutComments :
    callArguments (withoutComments n) = (callArguments n).map withoutComments := by
  rw [callArguments, childByField?_withoutComments hfields, callArguments]
  cases n.childByField? "arguments" with
  | none => rfl
  | some arguments => exact parts_withoutComments arguments

/-- A node uses the same tag. -/
theorem usedTag?_withoutComments : usedTag? rules source (withoutComments n) = usedTag? rules source n := by
  rw [usedTag?, kind_withoutComments, elementTag?_withoutComments hfields, isFactoryCall_withoutComments hfields,
    callArguments_withoutComments hfields, usedTag?]
  cases callArguments n with
  | nil => rfl
  | cons first rest => simp only [List.map_cons, List.length_map, argumentTag?_withoutComments]

/-- The same nodes may give attributes. -/
theorem attributeNodes_withoutComments :
    attributeNodes (withoutComments n) = (attributeNodes n).map withoutComments := by
  rw [attributeNodes, kind_withoutComments, callArguments_withoutComments hfields, attributeNodes,
    filter_kind_withoutComments (p := (· == "jsx_attribute")) (by decide)]
  split
  · rfl
  · rcases callArguments n with - | ⟨first, - | ⟨second, rest⟩⟩
    · rfl
    · rfl
    · exact memberNodes_withoutComments second

end Fields

/-- The attributes of the usage at a node are what the nodes that count give. -/
theorem usageAt?_eq_counted (rules : WalkRules) (source : Octets) (n : Node) :
    usageAt? rules source n = (usedTag? rules source n).map fun tag =>
      ⟨tag, (countedNodes rules source n).map fun pair => (pair.1, valueOf rules source pair.2), n.text source⟩ := by
  have hattributes := ofPairs_filterMap_attributeOf? rules source (n := n) id fun _ _ => rfl
  simp only [id] at hattributes
  rw [usageAt?_eq, ← hattributes]

theorem usageAt?_withoutComments (hfields : CommentsInNoField n) :
    usageAt? rules source (withoutComments n) = (usedTag? rules source n).map fun tag =>
      ⟨tag, (countedNodes rules source n).map fun pair => (pair.1, valueOf rules source (withoutComments pair.2)),
        n.text source⟩ := by
  rw [usageAt?_eq, usedTag?_withoutComments hfields, attributeNodes_withoutComments hfields, text_withoutComments,
    List.filterMap_map, ← ofPairs_filterMap_attributeOf? rules source withoutComments fun a ha => ?_]
  · rfl
  · rw [attributeOf?_withoutComments (hfields.of_occurs (occurs_of_mem_attributeNodes ha)), Option.map_map]
    rfl

/-- A comment crowds a literal in the value that a node gives. -/
def HidesValue (source : Octets) (a : Node) : Prop :=
  ∃ inner, decodedPart? a = some inner ∧ HidesLiteral source inner

theorem valueOf_withoutComments_iff {a : Node} (hfields : CommentsInNoField a)
    (hgiven : (attributeOf? rules source a).isSome = true) :
    valueOf rules source (withoutComments a) = valueOf rules source a ↔ ¬ HidesValue source a := by
  obtain ⟨⟨name, v⟩, hgiven⟩ := Option.isSome_iff_exists.1 hgiven
  rw [valueOf, valueOf, attributeOf?_withoutComments hfields, hgiven, HidesValue]
  cases hinner : decodedPart? a with
  | none => simp
  | some inner =>
    rw [attributeOf?_of_decoded hgiven hinner]
    simpa using decode_withoutComments_iff (hfields.of_occurs (occurs_of_decodedPart? hinner))

/-- A node is the same usage without comments unless one of them crowds the value of an attribute. -/
theorem usageAt?_withoutComments_iff (hfields : CommentsInNoField n) :
    usageAt? rules source (withoutComments n) = usageAt? rules source n ↔
      ((usageAt? rules source n).isSome = true →
        ∀ pair ∈ countedNodes rules source n, ¬ HidesValue source pair.2) := by
  have hvalue : ∀ pair ∈ countedNodes rules source n,
      (valueOf rules source (withoutComments pair.2) = valueOf rules source pair.2 ↔ ¬ HidesValue source pair.2) := by
    rintro ⟨name, a⟩ hpair
    obtain ⟨ha, hgiven⟩ := of_mem_countedNodes hpair
    exact valueOf_withoutComments_iff (hfields.of_occurs (occurs_of_mem_attributeNodes ha)) hgiven
  rw [usageAt?_withoutComments hfields, usageAt?_eq_counted]
  cases usedTag? rules source n with
  | none => simp
  | some tag =>
    simp only [Option.map_some, Option.isSome_some, true_implies, Option.some.injEq, Usage.mk.injEq, true_and, and_true,
      List.map_inj_left, Prod.mk.injEq]
    exact forall₂_congr hvalue

/-! ## Whole trees -/

/-- The usages in the tree of a child once comments are taken away. -/
def walkKept (rules : WalkRules) (source : Octets) (child : Node) : List Usage :=
  if isComment child then [] else walk rules source (withoutComments child)

theorem walk_withoutComments (rules : WalkRules) (source : Octets) (n : Node) :
    walk rules source (withoutComments n) =
      (usageAt? rules source (withoutComments n)).toList ++ n.children.flatMap (walkKept rules source) := by
  rw [walk_eq, children_withoutComments, List.flatMap_map]
  congr 1
  induction n.children with
  | nil => rfl
  | cons child rest ih =>
    rw [List.flatMap_cons, walkKept]
    split
    · next hcomment => rw [List.filter_cons_of_neg (by simp [hcomment]), ih, List.nil_append]
    · next hkept => rw [List.filter_cons_of_pos (by simp [hkept]), List.flatMap_cons, ih]

theorem length_usageAt?_withoutComments (hfields : CommentsInNoField n) :
    (usageAt? rules source (withoutComments n)).toList.length = (usageAt? rules source n).toList.length := by
  rw [usageAt?_withoutComments hfields, usageAt?_eq_counted]
  cases usedTag? rules source n <;> rfl

theorem length_walkKept_le {child : Node}
    (h : (walk rules source (withoutComments child)).length ≤ (walk rules source child).length) :
    (walkKept rules source child).length ≤ (walk rules source child).length := by
  rw [walkKept]
  split
  · exact Nat.zero_le _
  · exact h

/-- Taking comments away may lose usages and adds none. -/
theorem length_walk_withoutComments_le (hfields : CommentsInNoField n) :
    (walk rules source (withoutComments n)).length ≤ (walk rules source n).length := by
  induction n using Node.induct with
  | step n ih =>
    rw [walk_withoutComments, walk_eq rules source n, List.length_append, List.length_append,
      length_usageAt?_withoutComments hfields]
    exact Nat.add_le_add_left (length_flatMap_le fun child hchild =>
      length_walkKept_le (ih child hchild (hfields.child hchild))) _

/-- The usages stay the same if the root and the tree of every child stay the same usages. -/
theorem walk_withoutComments_eq_iff (hfields : CommentsInNoField n) :
    walk rules source (withoutComments n) = walk rules source n ↔
      usageAt? rules source (withoutComments n) = usageAt? rules source n ∧
        ∀ child ∈ n.children, walkKept rules source child = walk rules source child := by
  have hle : ∀ child ∈ n.children, (walkKept rules source child).length ≤ (walk rules source child).length :=
    fun child hchild => length_walkKept_le (length_walk_withoutComments_le (hfields.child hchild))
  rw [walk_withoutComments, walk_eq rules source n, ← flatMap_eq_flatMap_iff hle]
  constructor
  · intro h
    obtain ⟨husage, hbelow⟩ := List.append_inj h (length_usageAt?_withoutComments hfields)
    have hhead := congrArg List.head? husage
    rw [Option.head?_toList, Option.head?_toList] at hhead
    exact ⟨hhead, hbelow⟩
  · rintro ⟨husage, hbelow⟩
    rw [husage, hbelow]

/-- Comments make no difference at a node: none of those directly below it holds a usage, and none crowds the
value of an attribute that counts for the usage at the node. -/
structure Indifferent (rules : WalkRules) (source : Octets) (n : Node) : Prop where
  unused : ∀ child ∈ n.children, isComment child = true → walk rules source child = []
  uncrowded : (usageAt? rules source n).isSome = true →
    ∀ pair ∈ countedNodes rules source n, ¬ HidesValue source pair.2

theorem indifferent_of_walk_eq_nil (h : walk rules source n = []) : Indifferent rules source n where
  unused child hchild _ :=
    walk_eq_nil_iff.2 fun m hm => walk_eq_nil_iff.1 h m (.inside hchild hm)
  uncrowded husage := by
    rw [walk_eq_nil_iff.1 h n .root] at husage
    exact absurd husage Bool.noConfusion

/-- Comments without children hold no usage, and what is a literal is crowded by none. -/
theorem indifferent_of_literals
    (hleaf : ∀ child ∈ n.children, isComment child = true → child.children.isEmpty = true)
    (hliteral : ∀ pair ∈ countedNodes rules source n, ∀ inner ∈ decodedPart? pair.2,
      (literal? source inner).isSome = true) : Indifferent rules source n where
  unused child hchild hcomment := by
    have hkind : child.kind = "comment" := by simpa [isComment] using hcomment
    have husage : usageAt? rules source child = none := by simp [usageAt?, hkind, elementKinds]
    rw [walk_eq, husage, List.isEmpty_iff.1 (hleaf child hchild hcomment)]
    rfl
  uncrowded _ pair hpair := by
    rintro ⟨inner, hinner, hcrowded, -⟩
    have hsome := hliteral pair hpair inner hinner
    rw [literal?_of_crowded hcrowded] at hsome
    exact absurd hsome Bool.noConfusion

/-- The usages of a tree are the same without comments exactly when these make no difference at any node. -/
theorem walk_withoutComments_iff (rules : WalkRules) (source : Octets) (root : Node)
    (hfields : CommentsInNoField root) :
    walk rules source (withoutComments root) = walk rules source root ↔
      ∀ n : Node, n.Occurs root → Indifferent rules source n := by
  induction root using Node.induct with
  | step root ih =>
    rw [walk_withoutComments_eq_iff hfields, usageAt?_withoutComments_iff hfields]
    constructor
    · rintro ⟨huncrowded, hbelow⟩ n hn
      cases hn with
      | root =>
        refine ⟨fun child hchild hcomment => ?_, huncrowded⟩
        rw [← hbelow child hchild, walkKept, if_pos hcomment]
      | @inside _ child hchild hn =>
        have hkept := hbelow child hchild
        rw [walkKept] at hkept
        split at hkept
        · -- a comment that holds no usage holds none anywhere below it
          exact indifferent_of_walk_eq_nil
            (walk_eq_nil_iff.2 fun m hm => walk_eq_nil_iff.1 hkept.symm m (hm.trans hn))
        · exact (ih child hchild (hfields.child hchild)).1 hkept n hn
    · intro h
      have hroot := h root .root
      refine ⟨hroot.uncrowded, fun child hchild => ?_⟩
      rw [walkKept]
      split
      · next hcomment => exact (hroot.unused child hchild hcomment).symm
      · exact (ih child hchild (hfields.child hchild)).2 fun n hn => h n (.inside hchild hn)

/-! ## Two elements -/

/-- A named node in no field. -/
def namedNode (kind : String) (start stop : Nat) (children : List Node) : Node :=
  ⟨kind, true, false, false, start, stop, none, children⟩

/-- An element with one attribute, whose value is in braces that close at the given place. -/
def bracesElement (close : Nat) (held : List Node) : Node :=
  namedNode "jsx_self_closing_element" 0 (close + 4)
    [⟨"identifier", true, false, false, 1, 2, some "name", []⟩,
      namedNode "jsx_attribute" 3 (close + 1)
        [namedNode "property_identifier" 3 4 [], namedNode "jsx_expression" 5 (close + 1) held]]

/-- The source of an element with comments beside a list and among its items. -/
def listSource : Octets := Text.encode "<A x=\x7b/* c */ [1, /* d */ 2]\x7d />".toList

/-- The tree of `listSource`. -/
def listElement : Node :=
  bracesElement 28
    [namedNode "comment" 6 13 [],
      namedNode "array" 14 28
        [namedNode "number" 15 16 [], namedNode "comment" 18 25 [], namedNode "number" 26 27 []]]

/-- The list is a literal with its comments, so they make no difference. -/
theorem walk_withoutComments_list :
    CommentsInNoField listElement ∧ (listElement.preorder.filter isComment).length = 2 ∧
      (walk defaultRules listSource listElement).map (·.attributes.names) = [["x"]] ∧
      walk defaultRules listSource (withoutComments listElement) = walk defaultRules listSource listElement := by
  have hfields : CommentsInNoField listElement := by decide +kernel
  have hnodes : ∀ n ∈ listElement.preorder,
      (∀ child ∈ n.children, isComment child = true → child.children.isEmpty = true) ∧
        ∀ pair ∈ countedNodes defaultRules listSource n, ∀ inner ∈ decodedPart? pair.2,
          (literal? listSource inner).isSome = true := by
    decide +kernel
  refine ⟨hfields, by decide +kernel, by decide +kernel,
    (walk_withoutComments_iff defaultRules listSource listElement hfields).2 fun n hn => ?_⟩
  obtain ⟨hleaf, hliteral⟩ := hnodes n ((Node.mem_preorder_iff n listElement).2 hn)
  exact indifferent_of_literals hleaf hliteral

/-- The source of an element with a comment beside a string in parentheses. -/
def crowdedSource : Octets := Text.encode "<A x=\x7b(/* c */ \"y\")\x7d />".toList

/-- The tree of `crowdedSource`. -/
def crowdedElement : Node :=
  bracesElement 19
    [namedNode "parenthesized_expression" 6 19 [namedNode "comment" 7 14 [], namedNode "string" 15 18 []]]

/-- The string is an expression with the comment beside it and a literal without. -/
theorem walk_crowdedElement_ne :
    walk defaultRules crowdedSource (withoutComments crowdedElement) ≠
      walk defaultRules crowdedSource crowdedElement := by
  intro h
  have hexpressions := congrArg (List.map fun u => u.expressions.names) h
  exact absurd hexpressions (by decide +kernel)

end SnippetAudit.Component
