import SnippetAudit.Data.Value

/-!
# Component usages

A usage is one place where a component is used: its tag, its attributes in the order in which they were
first given, and its source text.

## What this module delivers

- `Usage`;
- `WalkRules`: which tags are plain markup, which calls create components, and which attributes are
  numbers by contract;
- `defaultRules`: the rules for components of no particular package.
-/

set_option autoImplicit false

namespace SnippetAudit.Component

/-- One place where a component is used. -/
structure Usage where
  tag : String
  attributes : Members Value
  span : Text

namespace Usage

/-- The attributes whose value is an expression. -/
def expressions (u : Usage) : Members Value := u.attributes.filter (·.2.isExpr)

/-- The source of an attribute whose value is an expression. -/
def expression? (u : Usage) (name : String) : Option String :=
  match u.attributes.get? name with
  | some (.expr source) => some source
  | _ => none

end Usage

/-- What a walk takes for a component. -/
structure WalkRules where
  /-- Tags of plain markup, matched exactly; they are never components. -/
  ignored : List String := []
  /-- The names of members that create a component when called. -/
  factories : List String := []
  /-- Attributes whose string literals are numbers. -/
  numeric : List String := []
  deriving Repr, DecidableEq

/-- The elements of plain markup. -/
def plainElements : List String :=
  ["div", "span", "p", "a", "img",
    "h1", "h2", "h3", "h4", "h5", "h6",
    "ul", "ol", "li",
    "table", "tr", "td", "th", "thead", "tbody",
    "form", "input", "button", "select", "option", "textarea",
    "nav", "header", "footer", "main", "section", "article", "aside",
    "br", "hr", "strong", "em", "code", "pre"]

/-- The member that creates a component when called. -/
def componentFactories : List String := ["createComponent"]

/-- Attributes that are numbers by contract. -/
def numericAttributes : List String :=
  ["badgeValue", "columns", "flex", "lineClamp", "max", "maxLength", "min", "minLength",
    "rows", "step", "tabIndex"]

/-- The rules for components whose calls are created by the given members. -/
def rulesWith (factories : List String) : WalkRules := ⟨plainElements, factories, numericAttributes⟩

/-- The rules for components of no particular package. -/
def defaultRules : WalkRules := rulesWith componentFactories

end SnippetAudit.Component
