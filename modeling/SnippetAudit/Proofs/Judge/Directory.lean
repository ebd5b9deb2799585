import SnippetAudit.Proofs.Catalogue.Directory
import SnippetAudit.Proofs.Judge.Operation

/-!
# Judging by the documents in a directory

A request asks a catalogue for the names that it lists and for the document of a listed name, and for nothing
else. A listed name is made from the name of an entry and holds no slash, so that its document is a file directly
in the directory, whatever names are asked for.

## What this module delivers

- `JudgedAlike`: catalogues that no request tells apart;
- `judgedAlike_of_listed`: the listed documents decide;
- `exists_child_of_load`: the files that documents are loaded from;
- `judged_by_children`: what stands directly in a directory decides.
-/

set_option autoImplicit false

namespace SnippetAudit.Judge

open GraphQL Files

/-! ## The documents that a request asks for -/

/-- No request tells the catalogues apart, whatever breaks down. -/
structure JudgedAlike (c c' : Catalogue) : Prop where
  payload : ∀ (code schemaName : Value) (preset? : Option String) (breakdown : Breakdowns),
    judgePayload c code schemaName preset? breakdown = judgePayload c' code schemaName preset? breakdown
  operation : ∀ (code schemaName : Value) (breakdown : Breakdowns),
    judgeOperation c code schemaName breakdown = judgeOperation c' code schemaName breakdown

variable {c c' : Catalogue}

theorem schemaOf_of_load_eq {name : String} (h : c.load name = c'.load name) : schemaOf c name = schemaOf c' name := by
  rw [schemaOf, schemaOf, Catalogue.schema, Catalogue.schema, h]

/-- A request is settled by the names that are listed and by what judging makes of its text under them. -/
theorem judgeRequest_of_supported_eq (hsupported : c.supported = c'.supported)
    {judge judge' : Text → String → Except Mishap Outcome}
    (hjudge : ∀ name ∈ c.supported, ∀ t : Text, judge t name = judge' t name) (code schemaName : Value) :
    judgeRequest c code schemaName judge = judgeRequest c' code schemaName judge' := by
  unfold judgeRequest unlisted
  rw [← hsupported]
  cases nonEmptyText "code" code with
  | error issue => rfl
  | ok t =>
    cases nonEmptyText "schema_name" schemaName with
    | error issue => rfl
    | ok name =>
      dsimp only
      split
      · next hlisted => rw [hjudge name (List.contains_iff_mem.1 hlisted)]
      · rfl

/-- Catalogues that list the same names and have the same documents for them are not told apart: other documents
are never loaded. -/
theorem judgedAlike_of_listed (hsupported : c.supported = c'.supported)
    (hload : ∀ name ∈ c.supported, c.load name = c'.load name) : JudgedAlike c c' where
  payload code schemaName preset? breakdown := by
    refine judgeRequest_of_supported_eq hsupported (fun name hname payload => ?_) code schemaName
    cases operationsOf breakdown preset? payload with
    | error m => rfl
    | ok operations =>
      cases operations with
      | nil => rfl
      | cons operation rest => simp only [judgeOperations, schemaOf_of_load_eq (hload name hname)]
  operation code schemaName breakdown := by
    refine judgeRequest_of_supported_eq hsupported (fun name hname source => ?_) code schemaName
    rw [schemaOf_of_load_eq (hload name hname)]

/-! ## What stands in a directory -/

theorem judgedAlike_of_agreesIn {files files' : Access} {directory : Path}
    (h : Catalogue.AgreesIn files files' directory) :
    JudgedAlike (.ofDirectory files directory) (.ofDirectory files' directory) :=
  judgedAlike_of_listed h.supported_eq fun _ hname => h.load_eq (Catalogue.slash_not_mem_of_supported hname)

/-- A document that is loaded by a name without slashes is held by a file directly in the directory. -/
theorem exists_child_of_load {root : Entry} {directory : Path} {name : String} (hslash : '/' ∉ name.toList)
    {document : Members Value}
    (h : (Catalogue.ofDirectory root.access directory).load name = .ok document) :
    ∃ (child : Name) (packing : Packing) (octets : Octets), child.text = name.toList ++ packing.suffix ∧
      root.child? directory child = some (.file octets) ∧ readDocument packing octets = .ok document := by
  rw [Catalogue.ofDirectory] at h
  dsimp only at h
  split at h
  · next packing octets hfile =>
    obtain ⟨child, hchild, hstands⟩ := Catalogue.exists_child_of_documentFile? hslash hfile
    exact ⟨child, packing, octets, hchild, hstands, h⟩
  · cases h

/-- Whatever name is asked for, a request is judged by what stands directly in the directory. The documents of
listed names are held by files in it, and those of other names are never loaded. What else a tree holds, outside
of the directory or in the directories in it, changes no outcome, nor does anything else that paths lead to. -/
theorem judged_by_children (root : Entry) (directory : Path) :
    (∀ name ∈ (Catalogue.ofDirectory root.access directory).supported, ∀ document : Members Value,
        (Catalogue.ofDirectory root.access directory).load name = .ok document →
          ∃ (child : Name) (packing : Packing) (octets : Octets), child.text = name.toList ++ packing.suffix ∧
            root.child? directory child = some (.file octets) ∧ readDocument packing octets = .ok document) ∧
      (∀ c : Catalogue, (Catalogue.ofDirectory root.access directory).supported = c.supported →
        (∀ name ∈ c.supported, (Catalogue.ofDirectory root.access directory).load name = c.load name) →
          JudgedAlike (.ofDirectory root.access directory) c) ∧
      (∀ root' : Entry, (∀ child : Name, root.child? directory child = root'.child? directory child) →
        JudgedAlike (.ofDirectory root.access directory) (.ofDirectory root'.access directory)) ∧
      ∀ files : Access, Catalogue.AgreesIn root.access files directory →
        JudgedAlike (.ofDirectory root.access directory) (.ofDirectory files directory) := by
  refine ⟨fun name hname document hload => ?_, fun c hsupported hload => ?_, fun root' hchildren => ?_,
    fun files hagrees => judgedAlike_of_agreesIn hagrees⟩
  · exact exists_child_of_load (Catalogue.slash_not_mem_of_supported hname) hload
  · exact judgedAlike_of_listed hsupported fun name hname => hload name (hsupported ▸ hname)
  · exact judgedAlike_of_agreesIn (Catalogue.agreesIn_of_child? hchildren)

/-! ## A document outside of the directory -/

def nameOf (s : String) (h : isName s.toList = true := by decide) : Name := ⟨s.toList, h⟩

def dataName : Name := nameOf "data"

def adminName : Name := nameOf "admin_schema.json"

/-- The directory of the documents in the trees below. -/
def dataPath : Path := .ofString "data"

/-- A document without anything in it. -/
def blankFile : Entry := .file (Text.encode "\x7b\"__schema\":\x7b\x7d\x7d".toList)

/-- A document in the directory, one in a directory in it, and one beside it. -/
def litteredTree : Entry :=
  .directory [(dataName, .directory [(adminName, blankFile),
    (nameOf "old", .directory [(nameOf "shop_schema.json", blankFile)])]), (nameOf "spare_schema.json", blankFile)]

/-- The document in the directory alone. -/
def tidyTree : Entry :=
  .directory [(dataName, .directory [(nameOf "old", .directory []), (adminName, blankFile)])]

/-- The other documents can be loaded by names with slashes, but no request loads them. -/
theorem judged_by_children_littered :
    (∀ child : Name, litteredTree.child? dataPath child = tidyTree.child? dataPath child) ∧
      ((Catalogue.ofDirectory litteredTree.access dataPath).load "../spare").isOk = true ∧
      ((Catalogue.ofDirectory litteredTree.access dataPath).load "old/shop").isOk = true ∧
      JudgedAlike (.ofDirectory litteredTree.access dataPath) (.ofDirectory tidyTree.access dataPath) ∧
      judgePayload (.ofDirectory litteredTree.access dataPath) (.str "\x7b shop \x7d") (.str "../spare") =
        .failed "Unsupported schema name: ../spare. Supported schemas: admin." := by
  have hchildren (child : Name) : litteredTree.child? dataPath child = tidyTree.child? dataPath child := by
    have hfind : litteredTree.find dataPath = .ok (.directory [(adminName, blankFile),
      (nameOf "old", .directory [(nameOf "shop_schema.json", blankFile)])]) := rfl
    have hfind' : tidyTree.find dataPath = .ok (.directory [(nameOf "old", .directory []),
      (adminName, blankFile)]) := rfl
    simp only [Entry.child?, hfind, hfind', Entry.entries, List.lookup_cons, List.lookup_nil]
    cases hadmin : child == adminName with
    | true =>
      rw [eq_of_beq hadmin]
      rfl
    | false => cases child == nameOf "old" <;> rfl
  refine ⟨hchildren, by decide +kernel, by decide +kernel,
    (judged_by_children litteredTree dataPath).2.2.1 tidyTree hchildren, by decide +kernel⟩

end SnippetAudit.Judge
