import SnippetAudit.Text.Basic

/-!
# Paths

A path leads from a directory to a file or a directory: each of its steps goes to an entry of a directory by
its name, or up. Slashes stand between the steps; a slash in front makes a path absolute.

## What this module delivers

- `Name`: the names that entries of a directory can have;
- `Path`, `Path.ofString`, `Path.text`: paths, read and written;
- `Path.join`: a path continued by another one.
-/

set_option autoImplicit false

namespace SnippetAudit.Files

/-- A text is a name: it is not empty, holds no slash, and stands for no directory by itself. -/
def isName (t : Text) : Bool :=
  !t.isEmpty && !t.contains '/' && t != ['.'] && t != ['.', '.']

/-- The name of an entry in a directory. -/
structure Name where
  text : Text
  isName_text : isName text = true
  deriving DecidableEq, Repr

/-- A step of a path. -/
inductive Step where
  | up
  | enter (name : Name)
  deriving DecidableEq, Repr

/-- The step that a piece between slashes stands for; an empty piece and a dot stand for none. -/
def Step.ofPiece? (piece : Text) : Option Step :=
  if piece = ['.', '.'] then some .up
  else if h : isName piece = true then some (.enter ⟨piece, h⟩)
  else none

/-- The text of a step. -/
def Step.text : Step → Text
  | .up => ['.', '.']
  | .enter name => name.text

/-- A path: what stands in front of it if it is absolute, and its steps. -/
structure Path where
  root : Text := []
  steps : List Step
  deriving DecidableEq, Repr

namespace Path

/-- The pieces of a text between slashes. -/
def pieces : Text → List Text
  | [] => [[]]
  | c :: rest =>
    if c = '/' then [] :: pieces rest
    else
      match pieces rest with
      | [] => [[c]]
      | piece :: more => (c :: piece) :: more

/-- What stands in front of an absolute path: one slash, or two where there are exactly two. -/
def rootOf (t : Text) : Text :=
  match (t.takeWhile (· == '/')).length with
  | 0 => []
  -- exactly two slashes have a meaning of their own, more of them are one
  | 2 => ['/', '/']
  | _ => ['/']

/-- The path that a text stands for. -/
def ofText (t : Text) : Path := ⟨rootOf t, (pieces t).filterMap Step.ofPiece?⟩

/-- The path that a string stands for. -/
def ofString (s : String) : Path := ofText s.toList

/-- The path is absolute. -/
def isAbsolute (p : Path) : Bool := !p.root.isEmpty

/-- The text of a path; a path without steps is a dot. -/
def text (p : Path) : Text :=
  match p.root ++ ['/'].intercalate (p.steps.map Step.text) with
  | [] => ['.']
  | t => t

/-- The path that goes on as another one; an absolute one starts anew. -/
def join (p next : Path) : Path :=
  if next.isAbsolute then next else ⟨p.root, p.steps ++ next.steps⟩

end Path

end SnippetAudit.Files
