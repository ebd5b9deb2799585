import SnippetAudit.Component.Factory
import SnippetAudit.Judge.Environment

/-!
# Finding component usages

A walk visits every node of a syntax tree before its children and collects the usages of elements and of
factory calls in that order.

## What this module delivers

- `usageAt?`: the usage of one node;
- `walk`: all usages of a tree;
- `parseable`: a snippet in the form in which it is parsed;
- `findUsages`: all usages of a snippet, and whether its syntax is damaged.
-/

set_option autoImplicit false

namespace SnippetAudit.Component

open Syntax

/-- The usage of one node, if it is one. -/
def usageAt? (rules : WalkRules) (source : Octets) (n : Node) : Option Usage :=
  if elementKinds.contains n.kind then markupUsage? rules source n
  else if n.kind = "call_expression" then factoryUsage? rules source n
  else none

/-- All usages of a tree in the order of its nodes. -/
def walk (rules : WalkRules) (source : Octets) (root : Node) : List Usage :=
  root.preorder.filterMap (usageAt? rules source)

/-- Markup on its own may have several roots, so it is put into a fragment. -/
def parseable (code : Text) : Text :=
  if (Text.trimStart code).head? = some '<' then
    "<>\n".toList ++ code ++ "\n</>".toList
  else code

/-- The usages found in a snippet. -/
structure Found where
  usages : List Usage
  /-- The parser had to pass over damage. -/
  hadErrors : Bool

/-- The usages of a snippet. -/
def findUsages (env : Judge.Environment) (rules : WalkRules) (code : Text) : Found :=
  let source := parseable code
  let root := env.parse .tsx source
  ⟨walk rules (Text.encode source) root, root.hasError⟩

end SnippetAudit.Component
