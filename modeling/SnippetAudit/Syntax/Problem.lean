import SnippetAudit.Syntax.Node

/-!
# Syntax problems

The damage marked in a syntax tree is reported in the order of the tree. An error node is an unexpected
token, a missing node is missing syntax, and any other node with damage in it is reported only where
nothing has been reported at the same place before.

## What this module delivers

- `Problem`, its wording;
- `snippet`: a text on one line, cut to eighty characters;
- `problemsAt`: the problems of one node, given the places reported before;
- `findProblems`: all problems of a tree.
-/

set_option autoImplicit false

namespace SnippetAudit.Syntax

/-- What is wrong at a place. -/
inductive Damage where
  /-- An error node, with the start of its text. -/
  | unexpected (token : Text)
  /-- A missing node, with its type. -/
  | missing (kind : String)
  /-- Damage inside a node of some type. -/
  | inside (kind : String)
  deriving Repr, DecidableEq

/-- Something wrong at a place. -/
structure Problem where
  damage : Damage
  position : Position
  deriving Repr, DecidableEq

/-- The wording of each kind of damage. -/
def Damage.message : Damage → String
  | .unexpected token => "Syntax error: unexpected token '" ++ String.ofList token ++ "'"
  | .missing kind => "Missing expected syntax: " ++ kind
  | .inside kind => "Parse error in " ++ kind

/-- The wording of a problem with its place. -/
def Problem.text (p : Problem) : String :=
  "Line " ++ toString p.position.line ++ ", Column " ++ toString p.position.column ++ ": " ++
    p.damage.message

/-- The greatest length of a quoted piece of source. -/
def maxSnippet : Nat := 80

/-- A text on one line with single spaces; a long one is cut and ends in three dots. -/
def snippet (t : Text) : Text :=
  let line := [' '].intercalate (Text.splitOnBlanks t)
  if maxSnippet < line.length then line.take (maxSnippet - 3) ++ "...".toList else line

/-- The type of nodes that hold what the grammar cannot read. -/
def errorKind : String := "ERROR"

/-- The problems of one node, where `reported` are the places reported before. -/
def problemsAt (source : Octets) (reported : List Position) (n : Node) : List Problem :=
  let place := positionAt source n.start
  let unexpected : List Problem :=
    if n.kind = errorKind then [⟨.unexpected (snippet (n.text source)), place⟩] else []
  let missing : List Problem := if n.isMissing then [⟨.missing n.kind, place⟩] else []
  let known := n.isMissing || reported.contains place
  let inside : List Problem :=
    if n.hasError && n.kind != errorKind && !known then [⟨.inside n.kind, place⟩] else []
  unexpected ++ missing ++ inside

/-- The problems of nodes in their order, where `reported` are the places reported before. -/
def problemsOf (source : Octets) (reported : List Position) : List Node → List Problem
  | [] => []
  | n :: rest =>
    let found := problemsAt source reported n
    found ++ problemsOf source (found.map (·.position) ++ reported) rest

/-- All problems of a tree in the order of its nodes. -/
def findProblems (source : Octets) (root : Node) : List Problem :=
  problemsOf source [] root.preorder

end SnippetAudit.Syntax
