import Mathlib.Data.List.Basic
import SnippetAudit.Component.Walk
import SnippetAudit.Proofs.Component.CrowdedLiteral
import SnippetAudit.Proofs.Data.Members

/-!
# The nodes that give attributes

The attributes of a usage are read from nodes: the attributes of an element, or the members of the object
that a call is given. Of several nodes for one name the last counts. What a node gives depends on comments
through one node alone, the one that is decoded for its value; an attribute that is a string, or whose
braces hold several things, has no such node.

## What this module delivers

- `attributeNodes`, `attributeOf?`: the nodes, and what each gives;
- `usedTag?`, `usageAt?_eq`: a usage is a tag with the attributes that the nodes give;
- `countedNodes`, `valueOf`, `ofPairs_filterMap_attributeOf?`: the nodes that count, and the attributes by them;
- `decodedPart?`: the node that is decoded;
- `attributeOf?_of_decoded`, `attributeOf?_withoutComments`: what a node gives, with comments and without.
-/

set_option autoImplicit false

namespace SnippetAudit.Component

open Syntax

variable {rules : WalkRules} {source : Octets} {n a : Node}

/-- The types of the object members that give attributes. -/
def memberKinds : List String := ["pair", "shorthand_property_identifier", "method_definition"]

/-- The name and the value that an attribute of an element or a member of an object gives. -/
def attributeOf? (rules : WalkRules) (source : Octets) (a : Node) : Option (String × Value) :=
  if a.kind = "jsx_attribute" then attribute? rules source a else memberAttribute? source a

/-- The arguments of a call. -/
def callArguments (call : Node) : List Node := ((call.childByField? "arguments").map parts).getD []

theorem occurs_of_mem_callArguments (h : a ∈ callArguments n) : a.Occurs n := by
  rw [callArguments] at h
  cases harguments : n.childByField? "arguments" with
  | none =>
    rw [harguments] at h
    exact absurd h List.not_mem_nil
  | some arguments =>
    rw [harguments] at h
    exact .inside (List.mem_of_find?_eq_some harguments) (.inside (mem_children_of_mem_parts h) .root)

/-- The members of an object that may give attributes. -/
def memberNodes (n : Node) : List Node :=
  if n.kind = "object" then n.namedChildren.filter fun member => memberKinds.contains member.kind else []

/-- The nodes that may give attributes to a usage: attributes of an element, members of the object that is
the second argument of a call. -/
def attributeNodes (n : Node) : List Node :=
  if elementKinds.contains n.kind then n.namedChildren.filter (·.kind == "jsx_attribute")
  else match callArguments n with
    | _ :: second :: _ => memberNodes second
    | _ => []

/-- The tag of the component that a node uses. -/
def usedTag? (rules : WalkRules) (source : Octets) (n : Node) : Option String :=
  if elementKinds.contains n.kind then ((elementTag? n source).map String.ofList).filter (isComponentTag rules)
  else if n.kind = "call_expression" ∧ isFactoryCall rules source n = true then
    match callArguments n with
    | [] => none
    | first :: rest =>
      if 1 < rest.length then none else (argumentTag? source first).filter (isComponentTag rules)
  else none

theorem elementAttributes_eq (element : Node) :
    elementAttributes rules source element =
      Members.ofPairs ((element.namedChildren.filter (·.kind == "jsx_attribute")).filterMap
        (attributeOf? rules source)) := by
  refine congrArg Members.ofPairs (List.filterMap_congr fun a ha => ?_)
  have hkind : a.kind = "jsx_attribute" := by simpa using (List.mem_filter.1 ha).2
  rw [attributeOf?, if_pos hkind]

theorem memberAttribute?_of_kind (hkind : a.kind ∉ memberKinds) : memberAttribute? source a = none := by
  simp only [memberKinds, List.mem_cons, List.not_mem_nil, or_false, not_or] at hkind
  rw [memberAttribute?, if_neg hkind.1, if_neg hkind.2.1, if_neg hkind.2.2]

theorem argumentAttributes_eq (n : Node) :
    argumentAttributes source (some n) =
      Members.ofPairs ((memberNodes n).filterMap (attributeOf? rules source)) := by
  rw [argumentAttributes, memberNodes]
  split
  · rw [List.filterMap_filter, objectAttributes]
    refine congrArg Members.ofPairs (List.filterMap_congr fun a _ => ?_)
    split
    · next hkind =>
      have hmember : a.kind ≠ "jsx_attribute" := fun h => absurd (h ▸ hkind) (by decide)
      rw [attributeOf?, if_neg hmember]
    · next hkind => exact memberAttribute?_of_kind fun h => hkind (List.contains_iff_mem.2 h)
  · rfl

/-- The attributes that the arguments of a call give. -/
theorem argumentAttributes_head? (rest : List Node) (first : Node) :
    argumentAttributes source rest.head? =
      Members.ofPairs ((match first :: rest with
        | _ :: second :: _ => memberNodes second
        | _ => []).filterMap (attributeOf? rules source)) := by
  cases rest with
  | nil => rfl
  | cons second others => exact argumentAttributes_eq second

theorem bind_ite_eq_map_filter {α β : Type} (p : α → Bool) (f : α → β) (x : Option α) :
    (x.bind fun a => if p a = true then some (f a) else none) = (x.filter p).map f := by
  cases x with
  | none => rfl
  | some a => cases h : p a <;> simp [Option.filter, h]

/-! ## Usages -/

theorem markupUsage?_eq (element : Node) :
    markupUsage? rules source element =
      (((elementTag? element source).map String.ofList).filter (isComponentTag rules)).map fun tag =>
        ⟨tag, elementAttributes rules source element, element.text source⟩ := by
  rw [markupUsage?, ← bind_ite_eq_map_filter]
  cases elementTag? element source <;> rfl

theorem factoryUsage?_eq {call : Node} (hcall : isFactoryCall rules source call = true) :
    factoryUsage? rules source call =
      (match callArguments call with
        | [] => none
        | first :: rest =>
          if 1 < rest.length then none else (argumentTag? source first).filter (isComponentTag rules)).map fun tag =>
        ⟨tag, Members.ofPairs ((match callArguments call with
          | _ :: second :: _ => memberNodes second
          | _ => []).filterMap (attributeOf? rules source)), call.text source⟩ := by
  rw [factoryUsage?, hcall, if_neg (by decide), ← callArguments]
  match callArguments call with
  | [] => rfl
  | first :: rest =>
    dsimp only
    rw [← argumentAttributes_head?]
    split
    · rfl
    · exact bind_ite_eq_map_filter _ _ _

/-- A node is a usage if it uses a tag, with the attributes that its nodes give. -/
theorem usageAt?_eq (rules : WalkRules) (source : Octets) (n : Node) :
    usageAt? rules source n = (usedTag? rules source n).map fun tag =>
      ⟨tag, Members.ofPairs ((attributeNodes n).filterMap (attributeOf? rules source)), n.text source⟩ := by
  rw [usageAt?, usedTag?, attributeNodes]
  by_cases helement : elementKinds.contains n.kind = true
  · rw [if_pos helement, if_pos helement, if_pos helement, markupUsage?_eq, elementAttributes_eq]
  · rw [if_neg helement, if_neg helement, if_neg helement]
    by_cases hkind : n.kind = "call_expression"
    · rw [if_pos hkind]
      by_cases hcall : isFactoryCall rules source n = true
      · rw [if_pos ⟨hkind, hcall⟩, factoryUsage?_eq hcall]
      · rw [if_neg fun h => hcall h.2, factoryUsage?, if_pos (by simpa using hcall), Option.map_none]
    · rw [if_neg hkind, if_neg fun h => hkind h.1, Option.map_none]

theorem occurs_of_mem_attributeNodes (ha : a ∈ attributeNodes n) : a.Occurs n := by
  rw [attributeNodes] at ha
  split at ha
  · exact .inside (List.mem_filter.1 (List.mem_filter.1 ha).1).1 .root
  · split at ha
    · next first second rest harguments =>
      have hsecond : second ∈ callArguments n := by simp [harguments]
      rw [memberNodes] at ha
      split at ha
      · have hmember : a ∈ second.children := (List.mem_filter.1 (List.mem_filter.1 ha).1).1
        exact (Node.Occurs.inside hmember .root).trans (occurs_of_mem_callArguments hsecond)
      · exact absurd ha List.not_mem_nil
    · exact absurd ha List.not_mem_nil

/-! ## The nodes that count -/

/-- The node that gives the value of each attribute: of several nodes for one name the last. -/
def countedNodes (rules : WalkRules) (source : Octets) (n : Node) : Members Node :=
  Members.ofPairs ((attributeNodes n).filterMap fun a =>
    (attributeOf? rules source a).map fun given => (given.1, a))

/-- The value that a node gives. -/
def valueOf (rules : WalkRules) (source : Octets) (a : Node) : Value :=
  ((attributeOf? rules source a).map Prod.snd).getD .null

theorem of_mem_countedNodes {name : String} (h : (name, a) ∈ countedNodes rules source n) :
    a ∈ attributeNodes n ∧ (attributeOf? rules source a).isSome = true := by
  obtain ⟨node, hnode, hattribute⟩ := List.mem_filterMap.1 (Members.mem_ofPairs h)
  obtain ⟨given, hgiven, hpair⟩ := Option.map_eq_some_iff.1 hattribute
  obtain ⟨-, rfl⟩ := Prod.mk.inj hpair
  exact ⟨hnode, by rw [hgiven]; rfl⟩

/-- Where nodes are replaced and give the same names, each attribute has the value that is given in place
of the node that counts. -/
theorem ofPairs_filterMap_attributeOf? (rules : WalkRules) (source : Octets) {n : Node} (replace : Node → Node)
    (hname : ∀ a ∈ attributeNodes n,
      (attributeOf? rules source (replace a)).map Prod.fst = (attributeOf? rules source a).map Prod.fst) :
    Members.ofPairs ((attributeNodes n).filterMap fun a => attributeOf? rules source (replace a)) =
      (countedNodes rules source n).map fun pair => (pair.1, valueOf rules source (replace pair.2)) := by
  rw [countedNodes, ← Members.ofPairs_map fun a => valueOf rules source (replace a), List.map_filterMap]
  refine congrArg Members.ofPairs (List.filterMap_congr fun a ha => ?_)
  rw [Option.map_map]
  have hsame := hname a ha
  cases hgiven : attributeOf? rules source a with
  | none =>
    rw [hgiven] at hsame
    exact Option.map_eq_none_iff.1 hsame
  | some given =>
    rw [hgiven] at hsame
    obtain ⟨replaced, hreplaced, hfst⟩ := Option.map_eq_some_iff.1 hsame
    rw [hreplaced, Option.map_some]
    refine congrArg some (Prod.ext hfst ?_)
    rw [Function.comp_apply, valueOf, hreplaced]
    rfl

/-! ## What is decoded -/

/-- The only thing that an attribute's braces hold. -/
def bracedPart? (value : Node) : Option Node :=
  if value.kind = "jsx_expression" then
    match parts value with
    | [inner] => some inner
    | _ => none
  else none

/-- The node that is decoded for the value that a node gives. -/
def decodedPart? (a : Node) : Option Node :=
  if a.kind = "jsx_attribute" then (parts a).tail.getLast?.bind bracedPart?
  else if a.kind = "pair" then a.childByField? "value"
  else none

theorem bracedPart?_eq_some_iff {value inner : Node} :
    bracedPart? value = some inner ↔ value.kind = "jsx_expression" ∧ parts value = [inner] := by
  rw [bracedPart?]
  split
  · next hkind =>
    split
    · next only hparts => simp [hkind, hparts]
    · next hseveral => simpa [hkind] using hseveral inner
  · next hkind => simp [hkind]

theorem occurs_of_decodedPart? {inner : Node} (h : decodedPart? a = some inner) : inner.Occurs a := by
  rw [decodedPart?] at h
  split at h
  · obtain ⟨value, hvalue, hbraced⟩ := Option.bind_eq_some_iff.1 h
    have hchild : value ∈ parts a := List.mem_of_mem_tail (List.mem_of_getLast? hvalue)
    have hinner : inner ∈ parts value := by simp [(bracedPart?_eq_some_iff.1 hbraced).2]
    exact .inside (mem_children_of_mem_parts hchild) (.inside (mem_children_of_mem_parts hinner) .root)
  · split at h
    · exact .inside (List.mem_of_find?_eq_some h) .root
    · exact absurd h (by simp)

theorem attributeValue_of_braced {name : String} {value inner : Node} (h : bracedPart? value = some inner) :
    attributeValue rules source name value = decode inner source := by
  obtain ⟨hkind, hparts⟩ := bracedPart?_eq_some_iff.1 h
  rw [attributeValue, if_neg (by simp [hkind]), if_pos hkind, hparts]

theorem bracedPart?_withoutComments (value : Node) :
    bracedPart? (withoutComments value) = (bracedPart? value).map withoutComments := by
  rw [bracedPart?, bracedPart?, kind_withoutComments, parts_withoutComments]
  split
  · match parts value with
    | [] => rfl
    | [inner] => rfl
    | _ :: _ :: _ => rfl
  · rfl

theorem attributeValue_withoutComments (name : String) (value : Node) :
    attributeValue rules source name (withoutComments value) =
      (bracedPart? value).elim (attributeValue rules source name value) fun inner =>
        decode (withoutComments inner) source := by
  cases hbraced : bracedPart? value with
  | some inner =>
    refine attributeValue_of_braced ?_
    rw [bracedPart?_withoutComments, hbraced]
    rfl
  | none =>
    dsimp only [Option.elim_none]
    rw [attributeValue, attributeValue, kind_withoutComments, text_withoutComments, quotedText_withoutComments,
      parts_withoutComments]
    split
    · rfl
    · split
      · next hkind =>
        match hparts : parts value with
        | [] => rfl
        | [inner] => exact absurd (bracedPart?_eq_some_iff.2 ⟨hkind, hparts⟩) (by simp [hbraced])
        | _ :: _ :: _ => rfl
      · rfl

/-- The first part of an attribute is its name, the last of the others its value. -/
theorem attribute?_eq (a : Node) :
    attribute? rules source a = (parts a).head?.map fun first =>
      (String.ofList (first.text source),
        (parts a).tail.getLast?.elim (.bool true)
          (attributeValue rules source (String.ofList (first.text source)))) := by
  rw [attribute?]
  match parts a with
  | [] => rfl
  | first :: rest =>
    dsimp only [List.head?_cons, List.tail_cons, Option.map_some]
    cases rest.getLast? <;> rfl

theorem attribute?_withoutComments (a : Node) :
    attribute? rules source (withoutComments a) = (attribute? rules source a).map fun given =>
      (given.1, ((parts a).tail.getLast?.bind bracedPart?).elim given.2 fun inner =>
        decode (withoutComments inner) source) := by
  rw [attribute?_eq, attribute?_eq, parts_withoutComments, ← List.map_tail, List.getLast?_map, List.head?_map]
  cases (parts a).head? with
  | none => rfl
  | some first =>
    cases (parts a).tail.getLast? with
    | none => simp
    | some value => simp [attributeValue_withoutComments]

theorem memberAttribute?_withoutComments (hfields : CommentsInNoField a) :
    memberAttribute? source (withoutComments a) = (memberAttribute? source a).map fun given =>
      (given.1, (if a.kind = "pair" then a.childByField? "value" else none).elim given.2 fun inner =>
        decode (withoutComments inner) source) := by
  simp only [memberAttribute?, kind_withoutComments, childByField?_withoutComments hfields, text_withoutComments]
  by_cases hpair : a.kind = "pair"
  · simp only [if_pos hpair]
    cases a.childByField? "key" with
    | none => rfl
    | some key =>
      dsimp only [Option.map_some, Option.bind_some]
      rw [keyOf?_withoutComments]
      cases keyOf? key source with
      | none => rfl
      | some name => cases a.childByField? "value" <;> rfl
  · simp only [if_neg hpair]
    split
    · rfl
    · split
      · cases a.childByField? "name" with
        | none => rfl
        | some name => simp
      · rfl

theorem attributeOf?_of_decoded {name : String} {v : Value} {inner : Node}
    (ha : attributeOf? rules source a = some (name, v)) (hinner : decodedPart? a = some inner) :
    v = decode inner source := by
  rw [decodedPart?] at hinner
  rw [attributeOf?] at ha
  split at hinner
  · next hkind =>
    rw [if_pos hkind, attribute?_eq] at ha
    obtain ⟨value, hvalue, hbraced⟩ := Option.bind_eq_some_iff.1 hinner
    obtain ⟨first, -, hpair⟩ := Option.map_eq_some_iff.1 ha
    rw [hvalue] at hpair
    exact (Prod.mk.inj hpair).2.symm.trans (attributeValue_of_braced hbraced)
  · next hkind =>
    rw [if_neg hkind] at ha
    split at hinner
    · next hpair =>
      rw [memberAttribute?, if_pos hpair, hinner] at ha
      obtain ⟨key, -, hpair⟩ := Option.bind_eq_some_iff.1 ha
      exact ((Prod.mk.inj (Option.some.inj hpair)).2).symm
    · exact absurd hinner (by simp)

theorem attributeOf?_withoutComments (hfields : CommentsInNoField a) :
    attributeOf? rules source (withoutComments a) = (attributeOf? rules source a).map fun given =>
      (given.1, (decodedPart? a).elim given.2 fun inner => decode (withoutComments inner) source) := by
  rw [attributeOf?, kind_withoutComments, attributeOf?, decodedPart?]
  split
  · exact attribute?_withoutComments a
  · exact memberAttribute?_withoutComments hfields

end SnippetAudit.Component
