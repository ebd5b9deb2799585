import SnippetAudit.CommandLine.Response
import SnippetAudit.Syntax.Given

/-!
# The program

The program reads the files that its command line asks for, answers, and writes what there is to write. Syntax
trees of scripts, Rust code and markup come from the file that the environment names; GraphQL operations need
none.

## What this module delivers

- `main`: the program.
-/

set_option autoImplicit false

namespace SnippetAudit.CommandLine

open Files

/-- The environment variable that names the file of syntax trees. -/
def treesVariable : String := "SNIPPET_AUDIT_TREES"

/-- What an error of reading or writing means. -/
def accessErrorOf : IO.Error → AccessError
  | .inappropriateType .. => .notDirectory
  | .illegalOperation .. => .isDirectory
  | _ => .notFound

/-- Reads a file. -/
def fetchFile (path : Path) : IO (Except AccessError Octets) := do
  try
    return .ok (← IO.FS.readBinFile (String.ofList path.text)).toList
  catch e => return .error (accessErrorOf e)

/-- Reads the names in a directory. -/
def fetchNames (directory : Path) : IO (List Name) := do
  try
    let entries ← (← IO.FS.realPath (String.ofList directory.text)).readDir
    return entries.toList.filterMap fun entry =>
      let t := entry.fileName.toList
      if h : isName t = true then some ⟨t, h⟩ else none
  catch _ => return []

/-- The files that arguments may ask for. -/
def pathsFor (a : Arguments) : List Path :=
  Path.ofText a.input :: (a.contracts?.map Path.ofText).toList ++
    Packing.all.map (Catalogue.documentPath (Path.ofText a.schemaDirectory) a.schema)

/-- Reads the files that arguments may ask for. -/
def fetch (a : Arguments) : IO Access := do
  let directory := Path.ofText a.schemaDirectory
  let contents ← (pathsFor a).mapM fun path => return (path, ← fetchFile path)
  let names ← fetchNames directory
  return {
    read := fun path => (contents.lookup path).getD (.error .notFound)
    names := fun path => if path = directory then names else [] }

/-- Reads the syntax trees that are given. -/
def fetchTrees : IO (List Syntax.GivenTree) := do
  match ← IO.getEnv treesVariable with
  | none => return []
  | some path =>
    match ← fetchFile (Path.ofString path) with
    | .ok octets =>
      match octets.decode.toOption.bind fun t => (Json.read t).toOption with
      | some document => return Syntax.GivenTree.ofDocument document
      | none => return []
    | .error _ => return []

/-- Does what an answer asks for. -/
def perform (r : Response) : IO UInt32 := do
  match r.written? with
  | some (path, octets) =>
    IO.FS.writeBinFile (String.ofList path.text) (ByteArray.mk octets.toArray)
  | none => pure ()
  IO.print r.printed
  return UInt32.ofNat r.exit

/-- Answers a command line. -/
def runProgram (line : List Text) : IO UInt32 := do
  match readArguments line with
  | .error e =>
    IO.eprintln (usage ++ "snippet-audit: error: " ++ e.message)
    return 2
  | .ok none => perform { exit := 0, printed := usage }
  | .ok (some a) =>
    let trees ← fetchTrees
    match respond { parse := Syntax.treeOf trees } (← fetch a) a with
    | .ok r => perform r
    | .error e =>
      IO.eprintln e.message
      return 1

end SnippetAudit.CommandLine

/-- The program. -/
def main (arguments : List String) : IO UInt32 :=
  SnippetAudit.CommandLine.runProgram (arguments.map String.toList)
