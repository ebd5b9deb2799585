import SnippetAudit.Proofs.Component.AttributeNode
import SnippetAudit.Proofs.Component.NamedValue
import SnippetAudit.Proofs.Component.Walk
import SnippetAudit.Proofs.Syntax.Preorder

/-!
# The order of the usages

The usages of a tree come from nodes at different places, one from each, and in the order of these places: a
usage stands before those in its attributes, in its arguments and in its children. A node that is no usage, such
as an element of plain markup, hides none below it. Where the spans of a tree are nested, usages come in the
order in which they start.

## What this module delivers

- `isComponentTag_of_usageAt?`: the tags of usages;
- `usagePlaces`: the nodes that are usages, with their addresses;
- `map_usageAt?_usagePlaces`, `mem_usagePlaces_iff`: they give the usages of the tree, one each;
- `walk_in_preorder`: which usages a walk collects, and their order.
-/

set_option autoImplicit false

namespace SnippetAudit.Component

open Syntax

variable {rules : WalkRules} {source : Octets} {n root : Node}

/-! ## One node -/

/-- The tag of a usage may be a component's. -/
theorem isComponentTag_of_usageAt? {u : Usage} (h : usageAt? rules source n = some u) :
    isComponentTag rules u.tag = true := by
  rw [usageAt?_eq] at h
  obtain ⟨tag, htag, rfl⟩ := Option.map_eq_some_iff.1 h
  rw [usedTag?] at htag
  split at htag
  · exact (Option.filter_eq_some_iff.1 htag).2
  · split at htag
    · split at htag
      · cases htag
      · split at htag
        · cases htag
        · exact (Option.filter_eq_some_iff.1 htag).2
    · cases htag

/-- A node is a usage by one of two rules. -/
theorem isSome_usageAt?_iff : (usageAt? rules source n).isSome = true ↔
    n.kind ∈ elementKinds ∧ (markupUsage? rules source n).isSome = true ∨
      n.kind = "call_expression" ∧ (factoryUsage? rules source n).isSome = true := by
  have hkinds : "call_expression" ∉ elementKinds := by decide
  rw [usageAt?]
  by_cases helement : n.kind ∈ elementKinds
  · have hcall : n.kind ≠ "call_expression" := fun h => hkinds (h ▸ helement)
    simp [helement, hcall]
  · by_cases hcall : n.kind = "call_expression" <;> simp [helement, hcall, hkinds]

/-! ## Places -/

/-- The nodes of a tree that are usages, in the order of the walk, with their addresses. -/
def usagePlaces (rules : WalkRules) (source : Octets) (root : Node) : List (List Nat × Node) :=
  root.placed.filter fun place => (usageAt? rules source place.2).isSome

theorem map_filter_isSome {α β : Type} (f : α → Option β) (l : List α) :
    (l.filter fun a => (f a).isSome).map f = (l.filterMap f).map some := by
  induction l with
  | nil => rfl
  | cons a rest ih => cases h : f a <;> simp [h, ih]

/-- Each place gives one usage of the tree. -/
theorem map_usageAt?_usagePlaces (rules : WalkRules) (source : Octets) (root : Node) :
    (usagePlaces rules source root).map (fun place => usageAt? rules source place.2) =
      (walk rules source root).map some := by
  rw [usagePlaces, map_filter_isSome, walk, ← Node.map_snd_placed, List.filterMap_map]
  rfl

/-- Every node that is a usage has a place. -/
theorem mem_usagePlaces_iff {address : List Nat} : (address, n) ∈ usagePlaces rules source root ↔
    root.at? address = some n ∧ (usageAt? rules source n).isSome = true := by
  rw [usagePlaces, List.mem_filter, Node.mem_placed_iff]

/-- The usages that are collected from pending trees are those of each of them in turn. -/
theorem filterMap_preorderOf (rules : WalkRules) (source : Octets) (pending : List Node) :
    (Node.preorderOf pending).filterMap (usageAt? rules source) = pending.flatMap (walk rules source) := by
  induction pending with
  | nil => simp [Node.preorderOf]
  | cons n rest ih =>
    rw [← List.singleton_append, Node.preorderOf_append, List.filterMap_append, ih]
    rfl

/-! ## Whole trees -/

/-- The walk, whatever trees are pending, collects the usages of each of them, and of a tree the usage of the
root and those of its children. These are the nodes that are usages by the rule for elements or by the rule for
calls, at whatever address of the tree, each once and in the order of the addresses, and of nested spans in the
order in which they start. No tag is empty or that of plain markup. -/
theorem walk_in_preorder (rules : WalkRules) (source : Octets) (root : Node) :
    (∀ pending : List Node,
        (Node.preorderOf pending).filterMap (usageAt? rules source) = pending.flatMap (walk rules source)) ∧
      walk rules source root = (usageAt? rules source root).toList ++ root.children.flatMap (walk rules source) ∧
      (∃ places : List (List Nat × Node),
        places.map (fun place => usageAt? rules source place.2) = (walk rules source root).map some ∧
          (places.Pairwise fun place later => place.1 < later.1) ∧
          (∀ (address : List Nat) (n : Node), (address, n) ∈ places ↔ root.at? address = some n ∧
            (n.kind ∈ elementKinds ∧ (markupUsage? rules source n).isSome = true ∨
              n.kind = "call_expression" ∧ (factoryUsage? rules source n).isSome = true)) ∧
          (root.Nested → places.Pairwise fun place later => place.2.start ≤ later.2.start)) ∧
      ∀ u ∈ walk rules source root, u.tag ≠ "" ∧ u.tag ∉ rules.ignored := by
  refine ⟨filterMap_preorderOf rules source, walk_eq rules source root,
    ⟨usagePlaces rules source root, map_usageAt?_usagePlaces rules source root, ?_, fun address n => ?_,
      fun hnested => ?_⟩, fun u hu => ?_⟩
  · exact (Node.pairwise_placed root).filter _
  · rw [mem_usagePlaces_iff, isSome_usageAt?_iff]
  · have hstart := Node.pairwise_start_preorder hnested
    rw [← Node.map_snd_placed, List.pairwise_map] at hstart
    exact hstart.filter _
  · obtain ⟨n, -, husage⟩ := List.mem_filterMap.1 hu
    simpa [isComponentTag] using isComponentTag_of_usageAt? husage

/-! ## An element in an attribute -/

/-- An element of plain markup with an element in its attribute and a call behind it. -/
def layeredSource : Octets := Text.encode "<p a=\x7b<B/>\x7d>\x7br.make(C)\x7d</p>".toList

/-- The tree of `layeredSource`. -/
def layeredTree : Node :=
  fieldNode "jsx_element" 0 27 none
    [fieldNode "jsx_opening_element" 0 12 none
      [fieldNode "identifier" 1 2 "name" [],
        fieldNode "jsx_attribute" 3 11 none
          [fieldNode "property_identifier" 3 4 none [],
            fieldNode "jsx_expression" 5 11 none
              [fieldNode "jsx_self_closing_element" 6 10 none [fieldNode "identifier" 7 8 "name" []]]]],
      fieldNode "jsx_expression" 12 23 none
        [fieldNode "call_expression" 13 22 none
          [fieldNode "member_expression" 13 19 "function"
            [fieldNode "identifier" 13 14 "object" [], fieldNode "property_identifier" 15 19 "property" []],
            fieldNode "arguments" 19 22 "arguments" [fieldNode "identifier" 20 21 none []]]],
      fieldNode "jsx_closing_element" 23 27 none []]

/-- The plain element is passed over; the element in its attribute comes before the call behind it. -/
theorem walk_in_preorder_layered :
    layeredTree.Nested ∧ (walk ⟨["p"], ["make"], []⟩ layeredSource layeredTree).map (·.tag) = ["B", "C"] ∧
      ∃ places : List (List Nat × Node), places.length = 2 ∧
        places.Pairwise fun place later => place.1 < later.1 ∧ place.2.start ≤ later.2.start := by
  have hnodes : ∀ n ∈ layeredTree.preorder,
      (∀ child ∈ n.children, n.start ≤ child.start ∧ child.start ≤ child.stop ∧ child.stop ≤ n.stop) ∧
        n.children.Pairwise fun child next => child.stop ≤ next.start := by
    decide +kernel
  have hnested : layeredTree.Nested := fun n hn => hnodes n ((Node.mem_preorder_iff n layeredTree).2 hn)
  have htags : (walk ⟨["p"], ["make"], []⟩ layeredSource layeredTree).map (·.tag) = ["B", "C"] := by decide +kernel
  obtain ⟨-, -, ⟨places, husages, haddresses, -, hstarts⟩, -⟩ :=
    walk_in_preorder ⟨["p"], ["make"], []⟩ layeredSource layeredTree
  refine ⟨hnested, htags, places, ?_, haddresses.and (hstarts hnested)⟩
  have hlength := congrArg List.length husages
  rw [List.length_map, List.length_map] at hlength
  rw [hlength, ← List.length_map (·.tag), htags]
  rfl

end SnippetAudit.Component
