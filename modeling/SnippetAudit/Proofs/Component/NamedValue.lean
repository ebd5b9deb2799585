import SnippetAudit.Component.Factory

/-!
# Nodes that give a name a value

An attribute of an element starts with the name and ends in the value, with anything that does not count in
between. A value in braces is decoded if it is alone there, comments apart. A member of an object has its name
and its value in fields, and the value is decoded as it stands.

## What this module delivers

- `fieldNode`: a node with a name in the grammar;
- `IsAttribute`, `IsBraced`, `IsMember`: the nodes, with the name and the node of the value;
- `attribute?_of_isAttribute`, `attribute?_of_isBraced`, `memberAttribute?_of_isMember`: what they give.
-/

set_option autoImplicit false

namespace SnippetAudit.Component

open Syntax

/-- A named node. -/
def fieldNode (kind : String) (start stop : Nat) (field : Option String) (children : List Node) : Node :=
  ⟨kind, true, false, false, start, stop, field, children⟩

/-- The node is an attribute of an element, with the name in front and `value` at the end. -/
structure IsAttribute (source : Octets) (name : String) (value a : Node) : Prop where
  parts : ∃ first rest, parts a = first :: rest ∧ String.ofList (first.text source) = name ∧
    rest.getLast? = some value

/-- The node is an attribute of an element, with `inner` alone between the braces of its value. -/
structure IsBraced (source : Octets) (name : String) (inner a : Node) : Prop where
  braces : ∃ value, IsAttribute source name value a ∧ value.kind = "jsx_expression" ∧ parts value = [inner]

/-- The node is a member of an object, with a key for the name and `value` behind it. -/
structure IsMember (source : Octets) (name : String) (value a : Node) : Prop where
  kind : a.kind = "pair"
  key : (a.childByField? "key").bind (keyOf? · source) = some name
  value : a.childByField? "value" = some value

variable {source : Octets} {name : String} {a inner value : Node}

theorem attribute?_of_isAttribute (rules : WalkRules) (h : IsAttribute source name value a) :
    attribute? rules source a = some (name, attributeValue rules source name value) := by
  obtain ⟨first, rest, hparts, rfl, hlast⟩ := h.parts
  simp only [attribute?, hparts, hlast]

/-- What is alone in braces is decoded. -/
theorem attribute?_of_isBraced (rules : WalkRules) (h : IsBraced source name inner a) :
    attribute? rules source a = some (name, decode inner source) := by
  obtain ⟨value, hattribute, hkind, hparts⟩ := h.braces
  have hstring : value.kind ≠ "string" := by
    rw [hkind]
    decide
  rw [attribute?_of_isAttribute rules hattribute, attributeValue, if_neg hstring, if_pos hkind, hparts]

/-- The value of a member is decoded. -/
theorem memberAttribute?_of_isMember (h : IsMember source name value a) :
    memberAttribute? source a = some (name, decode value source) := by
  simp only [memberAttribute?, h.kind, if_true, h.key, h.value, Option.bind_eq_bind, Option.bind_some]

end SnippetAudit.Component
