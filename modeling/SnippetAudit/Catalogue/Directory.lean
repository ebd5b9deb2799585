import SnippetAudit.Catalogue.Basic
import SnippetAudit.Data.Distinct
import SnippetAudit.Data.Sorted
import SnippetAudit.Files.Access

/-!
# Catalogues in directories

A directory is a catalogue of the schemas whose names, with one of two suffixes, are names of its entries. One
suffix marks a document as it is, the other one a packed document; a document as it is goes first. Files are
read whenever a document is loaded.

## What this module delivers

- `Packing`: the two forms of documents, with their suffixes;
- `readDocument`: the document in the octets of a file;
- `Catalogue.ofDirectory`: the catalogue of a directory.
-/

set_option autoImplicit false

namespace SnippetAudit

open Files

/-- The form in which a file holds a document. -/
inductive Packing where
  | plain
  | packed
  deriving DecidableEq, Repr

namespace Packing

/-- The forms, in the order in which files are looked for. -/
def all : List Packing := [.plain, .packed]

/-- What is added to the name of a schema. -/
def suffix : Packing → Text
  | .plain => "_schema.json".toList
  | .packed => "_schema.json.gz".toList

/-- The octets of a document in a file. -/
def unpack : Packing → Octets → Except LoadError Octets
  | .plain, octets => .ok octets
  | .packed, octets => (Gzip.unpack octets).mapError .unpackable

end Packing

/-- The JSON value in the octets of a text. -/
def readJson (octets : Octets) : Except LoadError Value :=
  match octets.decode with
  | .error e => .error (.unreadable e)
  | .ok t => (Json.read (Text.universalNewlines t)).mapError .malformed

/-- The document in the octets of a file. -/
def readDocument (packing : Packing) (octets : Octets) : Except LoadError (Members Value) :=
  match packing.unpack octets with
  | .error e => .error e
  | .ok octets =>
    match readJson octets with
    | .error e => .error e
    | .ok v => describing v

namespace Catalogue

/-- The names of schemas that the name of an entry stands for. -/
def schemaNames (name : Name) : List String :=
  Packing.all.filterMap fun packing =>
    if packing.suffix.isSuffixOf name.text then
      some (String.ofList (name.text.take (name.text.length - packing.suffix.length)))
    else none

/-- The names of schemas in a directory, each once and in order. -/
def listedIn (files : Access) (directory : Path) : List String :=
  Sorted.sortStrings (distinctNames ((files.names directory).flatMap schemaNames))

/-- The place of a document in a directory. -/
def documentPath (directory : Path) (name : String) (packing : Packing) : Path :=
  directory.join (Path.ofText (name.toList ++ packing.suffix))

/-- The file that holds the document of a name: its form and its octets. -/
def documentFile? (files : Access) (directory : Path) (name : String) :
    Option (Packing × Octets) :=
  Packing.all.findSome? fun packing =>
    match files.read (documentPath directory name packing) with
    | .ok octets => some (packing, octets)
    | .error _ => none

/-- The catalogue of a directory. -/
def ofDirectory (files : Access) (directory : Path) : Catalogue where
  supported := listedIn files directory
  load name :=
    match documentFile? files directory name with
    | some (packing, octets) => readDocument packing octets
    | none => .error (.unsupported name)

end Catalogue

end SnippetAudit
