import SnippetAudit.Data.Value
import SnippetAudit.Syntax.Grammar
import SnippetAudit.Syntax.Node

/-!
# Given syntax trees

Sources are parsed elsewhere, and their trees are handed over as a data document: a list of entries, each with
a grammar, a source and its tree. A node is a list of its type, its marks, its span, its field and its
children.

## What this module delivers

- `Node.ofDocument`: the node that a value describes;
- `GivenTree`, `GivenTree.ofDocument`: the entries of a document;
- `treeOf`: the tree of a source among the given ones.
-/

set_option autoImplicit false

namespace SnippetAudit.Syntax

/-- A node with the given marks: `n` for one with a name, `m` for a missing one, `e` for a damaged one. -/
def Node.ofParts (kind marks : String) (start stop : Int) (field : Value) (children : List Node) : Node where
  kind
  isNamed := marks.contains 'n'
  isMissing := marks.contains 'm'
  hasError := marks.contains 'e'
  start := start.toNat
  stop := stop.toNat
  field := field.string?
  children

mutual

/-- The node that a value describes; a value that describes none is an empty node. -/
def Node.ofDocument : Value → Node
  | .list [.str kind, .str marks, .int start, .int stop, field, .list children] =>
    .ofParts kind marks start stop field (nodesOfDocuments children)
  | _ => default

/-- The nodes that values describe. -/
def nodesOfDocuments : List Value → List Node
  | [] => []
  | v :: rest => Node.ofDocument v :: nodesOfDocuments rest

end

/-- A source with the document of its tree. -/
structure GivenTree where
  grammar : Grammar
  source : Text
  tree : Value

/-- The entry that a value describes. -/
def GivenTree.ofEntry? (entry : Value) : Option GivenTree :=
  match entry.member? "grammar", entry.member? "text", entry.member? "tree" with
  | some (.str grammar), some (.str source), some tree =>
    (Grammar.ofName grammar).toOption.map fun grammar => ⟨grammar, source.toList, tree⟩
  | _, _, _ => none

/-- The entries of a document. -/
def GivenTree.ofDocument (document : Value) : List GivenTree :=
  (document.items?.getD []).filterMap GivenTree.ofEntry?

/-- The tree of a source among the given ones. A source without a tree has a damaged empty one. -/
def treeOf (given : List GivenTree) (grammar : Grammar) (source : Text) : Node :=
  match given.find? fun g => g.grammar == grammar && g.source == source with
  | some g => Node.ofDocument g.tree
  | none => .ofParts "ERROR" "ne" 0 0 .null []

end SnippetAudit.Syntax
