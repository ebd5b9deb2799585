/-!
# Grammars

Sources are parsed by one of four grammars.

## What this module delivers

- `Grammar`, its names and `Grammar.ofName`;
- `Grammar.label`: how outcomes name the language.
-/

set_option autoImplicit false

namespace SnippetAudit.Syntax

/-- A grammar that sources can be parsed by. -/
inductive Grammar where
  | javascript
  | typescript
  | tsx
  | rust
  deriving Repr, DecidableEq, Inhabited

/-- No grammar has this name. -/
structure UnsupportedGrammar where
  name : String
  deriving Repr, DecidableEq

namespace Grammar

/-- The name of a grammar. -/
def name : Grammar → String
  | .javascript => "javascript"
  | .typescript => "typescript"
  | .tsx => "tsx"
  | .rust => "rust"

/-- All grammars. -/
def all : List Grammar := [.javascript, .typescript, .tsx, .rust]

/-- How outcomes name the language. -/
def label : Grammar → String
  | .javascript => "JavaScript"
  | .typescript => "TypeScript"
  | .tsx => "TSX"
  | .rust => "Rust"

/-- The grammars of scripts. -/
def scripts : List Grammar := [.javascript, .typescript, .tsx]

/-- The grammar of a name. -/
def ofName (name : String) : Except UnsupportedGrammar Grammar :=
  match all.find? fun g => g.name == name with
  | some g => .ok g
  | none => .error ⟨name⟩

theorem ofName_name (g : Grammar) : ofName g.name = .ok g := by
  cases g <;> rfl

end Grammar

/-- The wording of the error, with all grammars there are. -/
def UnsupportedGrammar.message (e : UnsupportedGrammar) : String :=
  "Language '" ++ e.name ++ "' is not supported. Supported grammars: " ++
    ", ".intercalate (Grammar.all.map Grammar.name) ++ "."

end SnippetAudit.Syntax
