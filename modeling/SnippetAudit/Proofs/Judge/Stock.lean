import Mathlib
import SnippetAudit.Proofs.Data.Members
import SnippetAudit.Proofs.Judge.Directory

/-!
# A directory in place of documents

Documents can be given by name or kept in a directory, one file for each, plain or packed. A directory in which
nothing else is named for a document makes the same catalogue as the documents: it lists the same names and
loads the same documents, also where a name has a suffix in it, and where a second file, packed, stands beside a
plain one.

## What this module delivers

- `Packing.Holds`: the octets that hold a document in a form;
- `Stocks`: directories that hold given documents;
- `Stocks.supported_eq`, `Stocks.load_eq`: their catalogues list and load the same;
- `judged_as_stocked`: no request tells them apart.
-/

set_option autoImplicit false

namespace SnippetAudit

open Files

/-- The octets hold a document in a form: unpacked, they are a JSON text of it. -/
def Packing.Holds (packing : Packing) (octets : Octets) (document : Value) : Prop :=
  ∃ plain : Octets, packing.unpack octets = .ok plain ∧ readJson plain = .ok document

theorem Packing.Holds.readDocument_eq {packing : Packing} {octets : Octets} {document : Value}
    (h : packing.Holds octets document) : readDocument packing octets = describing document := by
  obtain ⟨plain, hunpack, hread⟩ := h
  rw [readDocument, hunpack]
  dsimp only
  rw [hread]

namespace Catalogue

/-- A directory holds a document under a name: in a plain file, or in a packed one and no plain file stands
beside it. What a packed file beside a plain one holds does not matter. -/
inductive Shelves (root : Entry) (directory : Path) (name : String) (document : Value) : Prop
  | plain {child : Name} {octets : Octets} :
      child.text = name.toList ++ Packing.plain.suffix → root.child? directory child = some (.file octets) →
        Packing.plain.Holds octets document → Shelves root directory name document
  | packed {child : Name} {octets : Octets} :
      child.text = name.toList ++ Packing.packed.suffix → root.child? directory child = some (.file octets) →
        Packing.packed.Holds octets document →
        (∀ (twin : Name) (content : Octets), twin.text = name.toList ++ Packing.plain.suffix →
          root.child? directory twin ≠ some (.file content)) →
        Shelves root directory name document

/-- A directory holds documents: each under its name, and nothing in the directory is named for any other. -/
structure Stocks (root : Entry) (directory : Path) (documents : Members Value) : Prop where
  nodup : documents.names.Nodup
  shelves : ∀ (name : String) (document : Value), documents.get? name = some document →
    Shelves root directory name document
  known : ∀ (child : Name) (packing : Packing) (name : String), child.text = name.toList ++ packing.suffix →
    (root.child? directory child).isSome = true → name ∈ documents.names

variable {root : Entry} {directory : Path} {name : String} {documents : Members Value} {document : Value}

/-- Of a document that a directory holds, an entry is there. -/
theorem Shelves.mem_supported (h : Shelves root directory name document) :
    name ∈ (ofDirectory root.access directory).supported := by
  rw [mem_supported_iff_child?]
  cases h with
  | plain hchild hfile _ => exact ⟨_, .plain, hchild, by rw [hfile]; rfl⟩
  | packed hchild hfile _ _ => exact ⟨_, .packed, hchild, by rw [hfile]; rfl⟩

/-- A document that a directory holds is loaded as it was given. -/
theorem Shelves.load_eq (h : Shelves root directory name document) :
    (ofDirectory root.access directory).load name = describing document := by
  cases h with
  | plain hchild hfile hholds =>
    have hread := (read_documentPath_iff hchild).2 hfile
    simp only [ofDirectory, documentFile?_of_plain hread, hholds.readDocument_eq]
  | packed hchild hfile hholds halone =>
    have hread := (read_documentPath_iff hchild).2 hfile
    have hplain (content : Octets) :
        root.access.read (documentPath directory name .plain) ≠ .ok content := by
      obtain ⟨twin, htwin⟩ := exists_child_of_slash_not_mem (slash_not_mem_of_child hchild) .plain
      rw [Ne, read_documentPath_iff htwin]
      exact halone twin content htwin
    simp only [ofDirectory, documentFile?_of_packed hplain hread, hholds.readDocument_eq]

theorem Stocks.supported_eq (h : Stocks root directory documents) :
    (ofDirectory root.access directory).supported = (ofDocuments documents).supported := by
  apply supported_eq_sortStrings h.nodup
  intro name
  constructor
  · intro hname
    obtain ⟨child, packing, hchild, hsome⟩ := mem_supported_iff_child?.1 hname
    exact h.known child packing name hchild hsome
  · intro hname
    obtain ⟨document, hdocument⟩ := Members.exists_get?_of_mem_names hname
    exact (h.shelves name document hdocument).mem_supported

/-- Where a directory holds documents, every name without slashes loads the same from both. -/
theorem Stocks.load_eq (h : Stocks root directory documents) (hslash : '/' ∉ name.toList) :
    (ofDirectory root.access directory).load name = (ofDocuments documents).load name := by
  cases hdocument : documents.get? name with
  | some document =>
    rw [(h.shelves name document hdocument).load_eq]
    simp only [ofDocuments, hdocument]
  | none =>
    have hmissing : documentFile? root.access directory name = none := by
      rw [← Option.not_isSome_iff_eq_none, documentFile?_isSome_iff]
      rintro ⟨packing, octets, hread⟩
      obtain ⟨child, hchild⟩ := exists_child_of_slash_not_mem hslash packing
      rw [read_documentPath_iff hchild] at hread
      have hname := h.known child packing name hchild (by rw [hread]; rfl)
      obtain ⟨document, hget⟩ := Members.exists_get?_of_mem_names hname
      rw [hdocument] at hget
      cases hget
    simp only [ofDirectory, hmissing, ofDocuments, hdocument]

end Catalogue

namespace Judge

open Catalogue Files

/-- A directory that holds documents is as good as the documents: it lists the same names, every name without
slashes loads the same or is missing in both, and every request has the same outcome. -/
theorem judged_as_stocked {root : Entry} {directory : Path} {documents : Members Value}
    (h : Stocks root directory documents) :
    (ofDirectory root.access directory).supported = (ofDocuments documents).supported ∧
      (∀ name : String, '/' ∉ name.toList →
        (ofDirectory root.access directory).load name = (ofDocuments documents).load name) ∧
      JudgedAlike (ofDirectory root.access directory) (ofDocuments documents) := by
  refine ⟨h.supported_eq, fun name hslash => h.load_eq hslash, ?_⟩
  exact judgedAlike_of_listed h.supported_eq fun name hname => h.load_eq (slash_not_mem_of_supported hname)

/-! ## A directory with two documents -/

/-- A schema with a type and no fields. -/
def barrenDocument : Value :=
  .object [("__schema", .object [("queryType", .object [("name", .str "Q")]),
    ("types", .list [.object [("kind", .str "OBJECT"), ("name", .str "Q"), ("fields", .list [])]])])]

def barrenText : Text :=
  ("\x7b\"__schema\":\x7b\"queryType\":\x7b\"name\":\"Q\"\x7d," ++
    "\"types\":[\x7b\"kind\":\"OBJECT\",\"name\":\"Q\",\"fields\":[]\x7d]\x7d\x7d").toList

/-- A schema without anything in it, inside of the answer to a request. -/
def wrappedDocument : Value := .object [("data", .object [("__schema", .object [])])]

def wrappedText : Text := "\x7b\"data\":\x7b\"__schema\":\x7b\x7d\x7d\x7d".toList

/-- The second name has a suffix in it. -/
def twoDocuments : Members Value := [("admin", barrenDocument), ("old_schema.json", wrappedDocument)]

/-- The first document is there as it is, with another one packed beside it; the second one is packed. -/
def stockedTree : Entry :=
  .directory [(dataName, .directory [(nameOf "notes.txt", .file []),
    (nameOf "admin_schema.json.gz", .file (Gzip.pack (Text.encode wrappedText))),
    (nameOf "old_schema.json_schema.json.gz", .file (Gzip.pack (Text.encode wrappedText))),
    (adminName, .file (Text.encode barrenText))])]

theorem holds_barrenText : Packing.plain.Holds (Text.encode barrenText) barrenDocument :=
  ⟨_, rfl, by cbv⟩

theorem holds_wrappedText : Packing.packed.Holds (Gzip.pack (Text.encode wrappedText)) wrappedDocument := by
  have hoption : (Gzip.unpack (Gzip.pack (Text.encode wrappedText))).toOption = some (Text.encode wrappedText) := by
    decide +kernel
  have hread : readJson (Text.encode wrappedText) = .ok wrappedDocument := by cbv
  refine ⟨Text.encode wrappedText, ?_, hread⟩
  rw [Packing.unpack]
  cases hunpack : Gzip.unpack (Gzip.pack (Text.encode wrappedText)) with
  | error e =>
    rw [hunpack] at hoption
    cases hoption
  | ok octets =>
    rw [hunpack] at hoption
    rw [Option.some.inj hoption]
    rfl

theorem stocks_twoDocuments : Stocks stockedTree dataPath twoDocuments where
  nodup := by decide
  shelves name document h := by
    rcases List.mem_cons.1 (Members.mem_of_get?_eq_some h) with hadmin | hold
    · cases hadmin
      have hchild : adminName.text = "admin".toList ++ Packing.plain.suffix := by decide
      exact .plain hchild rfl holds_barrenText
    · cases List.mem_singleton.1 hold
      have hchild : (nameOf "old_schema.json_schema.json.gz").text =
          "old_schema.json".toList ++ Packing.packed.suffix := by decide
      refine .packed hchild rfl holds_wrappedText fun twin content htwin hfile => ?_
      have hname : twin = nameOf "old_schema.json_schema.json" := by
        cases twin
        exact (Name.mk.injEq _ _ _ _).mpr htwin
      rw [hname] at hfile
      cases hfile
  known child packing name hchild hsome := by
    have hsupported : (ofDirectory stockedTree.access dataPath).supported = twoDocuments.names := by decide +kernel
    rw [← hsupported, mem_supported_iff_child?]
    exact ⟨child, packing, hchild, hsome⟩

/-- The first document is used as it is, and the second one is unwrapped and unpacked. -/
theorem judged_as_stocked_two :
    Stocks stockedTree dataPath twoDocuments ∧
      (ofDirectory stockedTree.access dataPath).supported = ["admin", "old_schema.json"] ∧
      (ofDirectory stockedTree.access dataPath).load "old_schema.json" = .ok [("__schema", .object [])] ∧
      (judgePayload (ofDirectory stockedTree.access dataPath) (.str "\x7b __typename \x7d") (.str "admin")).verdict =
        .success := by
  obtain ⟨hsupported, hload, hjudged⟩ := judged_as_stocked stocks_twoDocuments
  refine ⟨stocks_twoDocuments, hsupported, ?_, ?_⟩
  · rw [hload "old_schema.json" (by decide)]
    rfl
  · rw [hjudged.payload]
    decide +kernel

end Judge

end SnippetAudit
