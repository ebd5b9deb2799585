import SnippetAudit.Data.Members

/-!
# Extraction options and presets

Extraction options tell which passes clean a snippet. Presets are options with a name.

## What this module delivers

- `Options`: eight switches, one for each pass;
- `presets`, `preset`: the named options, and looking one up;
- `Options.ofFields`: options from the names of the switches that are on.
-/

set_option autoImplicit false

namespace SnippetAudit.Extraction

/-- Which passes clean a snippet, in the order in which they run. -/
structure Options where
  trimWhitespace : Bool := false
  removeMarkdownFences : Bool := false
  removeHtmlComments : Bool := false
  removeCComments : Bool := false
  removeGraphqlComments : Bool := false
  removeGraphqlDirectives : Bool := false
  removeGraphqlFragments : Bool := false
  removeGraphqlVariables : Bool := false
  deriving Repr, DecidableEq

namespace Options

/-- Each switch with its name. -/
def fields (o : Options) : List (String × Bool) :=
  [("trim_whitespace", o.trimWhitespace),
    ("remove_markdown_fences", o.removeMarkdownFences),
    ("remove_html_comments", o.removeHtmlComments),
    ("remove_c_comments", o.removeCComments),
    ("remove_graphql_comments", o.removeGraphqlComments),
    ("remove_graphql_directives", o.removeGraphqlDirectives),
    ("remove_graphql_fragments", o.removeGraphqlFragments),
    ("remove_graphql_variables", o.removeGraphqlVariables)]

/-- The options in which exactly the switches of the given names are on. -/
def ofFields (on : List String) : Options where
  trimWhitespace := on.contains "trim_whitespace"
  removeMarkdownFences := on.contains "remove_markdown_fences"
  removeHtmlComments := on.contains "remove_html_comments"
  removeCComments := on.contains "remove_c_comments"
  removeGraphqlComments := on.contains "remove_graphql_comments"
  removeGraphqlDirectives := on.contains "remove_graphql_directives"
  removeGraphqlFragments := on.contains "remove_graphql_fragments"
  removeGraphqlVariables := on.contains "remove_graphql_variables"

end Options

/-- Nothing is cleaned. -/
def untouched : Options where

/-- Outer blanks go. -/
def trimmed : Options where
  trimWhitespace := true

/-- Outer blanks and the fence go; the checkers of whole languages know their comments themselves. -/
def fenced : Options where
  trimWhitespace := true
  removeMarkdownFences := true

/-- An operation ready for parsing. -/
def graphqlClean : Options where
  trimWhitespace := true
  removeMarkdownFences := true
  removeGraphqlComments := true

/-- An operation normalised for comparing shapes. -/
def graphqlStrict : Options where
  trimWhitespace := true
  removeMarkdownFences := true
  removeGraphqlComments := true
  removeGraphqlDirectives := true
  removeGraphqlFragments := true
  removeGraphqlVariables := true

/-- A markup snippet. -/
def markup : Options where
  trimWhitespace := true
  removeMarkdownFences := true
  removeHtmlComments := true

/-- A script without its comments. -/
def script : Options where
  trimWhitespace := true
  removeMarkdownFences := true
  removeCComments := true

/-- The named options, in the order of their names. -/
def presets : Members Options :=
  [("fenced", fenced), ("graphql", trimmed), ("graphql_clean", graphqlClean),
    ("graphql_strict", graphqlStrict), ("javascript", script), ("none", untouched),
    ("typescript", markup)]

/-- No preset has this name. -/
structure UnknownPreset where
  name : String
  deriving Repr, DecidableEq

/-- The wording of the error, with all names there are. -/
def UnknownPreset.message (e : UnknownPreset) : String :=
  "Unknown extraction preset '" ++ e.name ++ "'. Available presets: " ++
    ", ".intercalate presets.names

/-- The options of a preset. -/
def preset (name : String) : Except UnknownPreset Options :=
  match presets.get? name with
  | some options => .ok options
  | none => .error ⟨name⟩

end SnippetAudit.Extraction
