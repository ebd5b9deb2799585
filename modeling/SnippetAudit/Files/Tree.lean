import SnippetAudit.Files.Path
import SnippetAudit.Text.Utf8

/-!
# File trees

A file tree is a directory with named entries, which are files or directories again. Paths are followed from
the directory at the root; there is nothing above it. A name may have any length: that a file system limits it,
and what an access by a longer name ends in, is left out.

## What this module delivers

- `Entry`: files and directories;
- `Entry.at?`, `Entry.put`, `Entry.remove`: reading and changing a tree by names;
- `AccessError`: why a path does not lead to what is asked for;
- `Entry.find`, `Entry.read`, `Entry.write`: following paths.
-/

set_option autoImplicit false

namespace SnippetAudit.Files

/-- A file with its octets, or a directory with its entries. -/
inductive Entry where
  | file (content : Octets)
  | directory (entries : List (Name × Entry))

namespace Entry

/-- A directory without entries. -/
def empty : Entry := .directory []

/-- The entries of a directory. -/
def entries : Entry → List (Name × Entry)
  | .directory entries => entries
  | .file _ => []

/-- Gives a name in a directory an entry: in place if the name is there, else at the end. -/
def putName (name : Name) (entry : Entry) : List (Name × Entry) → List (Name × Entry)
  | [] => [(name, entry)]
  | (other, old) :: rest =>
    if other = name then (name, entry) :: rest else (other, old) :: putName name entry rest

/-- What lies under some names. -/
def at? : Entry → List Name → Option Entry
  | entry, [] => some entry
  | entry, name :: rest =>
    match entry.entries.lookup name with
    | some next => next.at? rest
    | none => none

/-- Puts an entry under some names; directories that are missing on the way are made. -/
def put (new : Entry) : List Name → Entry → Entry
  | [], _ => new
  | name :: rest, old =>
    .directory (putName name (put new rest ((old.entries.lookup name).getD empty)) old.entries)

/-- Removes what lies under some names. -/
def remove : List Name → Entry → Entry
  | _, .file content => .file content
  | [], old => old
  | [name], .directory entries => .directory (entries.filter fun (other, _) => other != name)
  | name :: next :: rest, .directory entries =>
    match entries.lookup name with
    | some inner => .directory (putName name (remove (next :: rest) inner) entries)
    | none => .directory entries

end Entry

/-- Why a path does not lead to what is asked for. -/
inductive AccessError where
  | notFound
  | notDirectory
  | isDirectory
  deriving DecidableEq, Repr

/-- The wording of the errors, with the path. -/
def AccessError.message (path : Path) (e : AccessError) : String :=
  let reason := match e with
    | .notFound => "[Errno 2] No such file or directory"
    | .notDirectory => "[Errno 20] Not a directory"
    | .isDirectory => "[Errno 21] Is a directory"
  reason ++ ": " ++ String.ofList (Text.quote path.text)

namespace Entry

/-- The names that steps lead to from `here`. All but the last one must lead to directories; what the last
one leads to need not be there. -/
def resolve (root : Entry) (here : List Name) : List Step → Except AccessError (List Name)
  | [] => .ok here
  | step :: rest =>
    match root.at? here with
    | none => .error .notFound
    | some (.file _) => .error .notDirectory
    | some (.directory _) =>
      match step with
      | .enter name => root.resolve (here ++ [name]) rest
      -- above the root there is nothing
      | .up => if here.isEmpty then .error .notFound else root.resolve here.dropLast rest

/-- The names that a path leads to. -/
def follow (root : Entry) (path : Path) : Except AccessError (List Name) :=
  if path.isAbsolute then .error .notFound else root.resolve [] path.steps

/-- What a path leads to. -/
def find (root : Entry) (path : Path) : Except AccessError Entry :=
  match root.follow path with
  | .error e => .error e
  | .ok names =>
    match root.at? names with
    | some entry => .ok entry
    | none => .error .notFound

/-- The octets of the file that a path leads to. -/
def read (root : Entry) (path : Path) : Except AccessError Octets :=
  match root.find path with
  | .ok (.file content) => .ok content
  | .ok (.directory _) => .error .isDirectory
  | .error e => .error e

/-- Writes a file; its directory must be there. -/
def write (root : Entry) (path : Path) (content : Octets) : Except AccessError Entry :=
  match root.follow path with
  | .error e => .error e
  | .ok names =>
    match root.at? names with
    | some (.directory _) => .error .isDirectory
    | _ => .ok (put (.file content) names root)

end Entry

end SnippetAudit.Files
