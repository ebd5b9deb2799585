import SnippetAudit.Judge.Operation
import SnippetAudit.Proofs.Catalogue.Directory

/-!
# What is listed and what can be loaded

A directory lists a schema by any entry that is named for its document, and loads it from a file so named. What
can be loaded is always listed. What is listed can be loaded, too, unless only directories are named for the
document; a request for such a schema goes past the check of its name and breaks down behind it. Names of any
length are names of entries here, so that no access fails because a name is too long.

## What this module delivers

- `Loadable`: a document is there, whether or not it can be read;
- `OnlyDirectories`: directories are named for a document, and no file is;
- `loadable_iff_child?`: what can be loaded, in terms of what stands in the directory;
- `listed_iff_loadable_iff`: listed and loadable are the same outside of that case;
- `directory_listed`: a directory that is listed and cannot be loaded.
-/

set_option autoImplicit false

namespace SnippetAudit.Catalogue

open Files

/-- The catalogue has a document of the name. What is in it may still be no document. -/
def Loadable (c : Catalogue) (name : String) : Prop := c.load name ≠ .error (.unsupported name)

/-- Something is named for the document of a schema, but no file is. -/
def OnlyDirectories (root : Entry) (directory : Path) (name : String) : Prop :=
  (∃ (child : Name) (packing : Packing), child.text = name.toList ++ packing.suffix ∧
      root.child? directory child = some .directory) ∧
    ∀ (child : Name) (packing : Packing) (octets : Octets), child.text = name.toList ++ packing.suffix →
      root.child? directory child ≠ some (.file octets)

variable {root : Entry} {directory : Path} {name : String}

/-- A document can be loaded when a file in the directory is named for it. -/
theorem loadable_iff_child? (hslash : '/' ∉ name.toList) : Loadable (ofDirectory root.access directory) name ↔
    ∃ (child : Name) (packing : Packing) (octets : Octets), child.text = name.toList ++ packing.suffix ∧
      root.child? directory child = some (.file octets) := by
  rw [Loadable, load_ne_unsupported_iff, documentFile?_isSome_iff]
  constructor
  · rintro ⟨packing, octets, hread⟩
    obtain ⟨child, hchild⟩ := exists_child_of_slash_not_mem hslash packing
    exact ⟨child, packing, octets, hchild, (read_documentPath_iff hchild).1 hread⟩
  · rintro ⟨child, packing, octets, hchild, hfile⟩
    exact ⟨packing, octets, (read_documentPath_iff hchild).2 hfile⟩

/-- In a directory, a schema is listed exactly when its document can be loaded, unless directories are named for
the document and no file is. -/
theorem listed_iff_loadable_iff (root : Entry) (directory : Path) {name : String} (hslash : '/' ∉ name.toList) :
    (name ∈ (ofDirectory root.access directory).supported ↔ Loadable (ofDirectory root.access directory) name) ↔
      ¬ OnlyDirectories root directory name := by
  rw [mem_supported_iff_child?, loadable_iff_child? hslash]
  constructor
  · rintro hiff ⟨⟨child, packing, hchild, hdirectory⟩, hnone⟩
    obtain ⟨found, form, octets, hfound, hfile⟩ := hiff.1 ⟨child, packing, hchild, by rw [hdirectory]; rfl⟩
    exact hnone found form octets hfound hfile
  · intro honly
    constructor
    · rintro ⟨child, packing, hchild, hsome⟩
      obtain ⟨kind, hkind⟩ := Option.isSome_iff_exists.1 hsome
      cases kind with
      | file octets => exact ⟨child, packing, octets, hchild, hkind⟩
      | directory =>
        -- a file stands beside the directory, in the other form
        refine Classical.byContradiction fun hnone => honly ⟨⟨child, packing, hchild, hkind⟩, ?_⟩
        exact fun found form octets hfound hfile => hnone ⟨found, form, octets, hfound, hfile⟩
    · rintro ⟨child, packing, octets, hchild, hfile⟩
      exact ⟨child, packing, hchild, by rw [hfile]; rfl⟩

/-! ## A directory in the place of a document -/

/-- The directory that the paths start from. -/
def here : Path := ⟨[], []⟩

def adminEntry (packing : Packing) : Name := ⟨"admin".toList ++ packing.suffix, by cases packing <;> decide⟩

/-- A file was written below the name of a document. -/
def coveredTree : Entry := Entry.put (.file []) [adminEntry .plain, ⟨"notes".toList, by decide⟩] .empty

/-- The document was written beside it, too, in the packed form. -/
def twinTree : Entry := Entry.put (.file (Gzip.pack (Text.encode "\x7b\x7d".toList))) [adminEntry .packed] coveredTree

/-- A file beside the directory makes the document loadable. -/
theorem listed_iff_loadable_iff_twin :
    '/' ∉ "admin".toList ∧ ¬ OnlyDirectories twinTree here "admin" ∧
      "admin" ∈ (ofDirectory twinTree.access here).supported ∧ Loadable (ofDirectory twinTree.access here) "admin" := by
  have hslash : '/' ∉ "admin".toList := by decide
  have honly : ¬ OnlyDirectories twinTree here "admin" := by
    rintro ⟨-, hnone⟩
    exact hnone (adminEntry .packed) .packed _ rfl rfl
  have hlisted : "admin" ∈ (ofDirectory twinTree.access here).supported := by decide +kernel
  exact ⟨hslash, honly, hlisted, ((listed_iff_loadable_iff twinTree here hslash).2 honly).1 hlisted⟩

/-- A directory alone is listed and cannot be loaded; requests for it fail behind the check of the name. -/
theorem directory_listed :
    "admin" ∈ (ofDirectory coveredTree.access here).supported ∧
      ¬ Loadable (ofDirectory coveredTree.access here) "admin" ∧
      Judge.judgePayload (ofDirectory coveredTree.access here) (.str "\x7b shop \x7d") (.str "admin") =
        Judge.afterMishap (.load (.unsupported "admin")) := by
  refine ⟨by decide +kernel, fun h => h rfl, ?_⟩
  decide +kernel

end SnippetAudit.Catalogue
