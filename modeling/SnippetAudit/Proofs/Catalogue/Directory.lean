import SnippetAudit.Catalogue.Directory
import SnippetAudit.Proofs.Data.Sorted
import SnippetAudit.Proofs.Files.Child

/-!
# What a directory shows of its documents

A catalogue of a directory lists the names for which an entry is named, with either suffix, and loads a
document from the first file that is so named. Both look at what stands directly in the directory, as long as
no slash is in the name; the list needs any entry, loading needs a file.

## What this module delivers

- `mem_supported_iff`, `mem_supported_iff_child?`: the names that are listed;
- `read_documentPath_iff`: the places that can be read;
- `documentFile?_isSome_iff`, `exists_child_of_documentFile?`: the files that documents are loaded from;
- `load_ne_unsupported_iff`: a document is missing unless it has a file;
- `AgreesIn`: files that are the same directly in a directory, which make the same catalogue.
-/

set_option autoImplicit false

namespace SnippetAudit.Catalogue

open Files

variable {files files' : Access} {directory : Path} {name : String}

/-! ## Names of entries -/

/-- A name without slashes and a suffix make the name of an entry. -/
theorem isName_append_suffix (h : '/' ∉ name.toList) (packing : Packing) :
    isName (name.toList ++ packing.suffix) = true := by
  have hsuffix : '/' ∉ packing.suffix := by cases packing <;> decide
  have hslash : '/' ∉ name.toList ++ packing.suffix := by
    rw [List.mem_append, not_or]
    exact ⟨h, hsuffix⟩
  have hlength : 2 < (name.toList ++ packing.suffix).length := by
    have hsuffix : 2 < packing.suffix.length := by cases packing <;> decide
    rw [List.length_append]
    omega
  have hne {t : Text} (ht : t.length ≤ 2) : name.toList ++ packing.suffix ≠ t := by
    rintro rfl
    exact absurd hlength (Nat.not_lt.2 ht)
  simp only [isName, Bool.and_eq_true, Bool.not_eq_true', List.contains_eq_mem, decide_eq_false_iff_not,
    List.isEmpty_eq_false_iff, bne_iff_ne]
  exact ⟨⟨⟨hne (by decide), hslash⟩, hne (by decide)⟩, hne (by decide)⟩

theorem exists_child_of_slash_not_mem (h : '/' ∉ name.toList) (packing : Packing) :
    ∃ child : Name, child.text = name.toList ++ packing.suffix :=
  ⟨⟨name.toList ++ packing.suffix, isName_append_suffix h packing⟩, rfl⟩

theorem slash_not_mem_of_child {child : Name} {packing : Packing}
    (h : child.text = name.toList ++ packing.suffix) : '/' ∉ name.toList := by
  intro hslash
  have hchild := child.slash_not_mem
  rw [h, List.mem_append, not_or] at hchild
  exact hchild.1 hslash

/-- An entry stands for a schema whose name and a suffix are its name. -/
theorem mem_schemaNames_iff {child : Name} :
    name ∈ schemaNames child ↔ ∃ packing : Packing, child.text = name.toList ++ packing.suffix := by
  have hall (packing : Packing) : packing ∈ Packing.all := by cases packing <;> decide
  rw [schemaNames, List.mem_filterMap]
  constructor
  · rintro ⟨packing, -, hname⟩
    split at hname
    · next hsuffix =>
      obtain ⟨stem, hstem⟩ := List.isSuffixOf_iff_suffix.1 hsuffix
      refine ⟨packing, ?_⟩
      have htake := Option.some.inj hname
      rw [← hstem, List.length_append, Nat.add_sub_cancel, List.take_left] at htake
      rw [← htake, String.toList_ofList, hstem]
    · cases hname
  · rintro ⟨packing, hchild⟩
    refine ⟨packing, hall packing, ?_⟩
    rw [if_pos (List.isSuffixOf_iff_suffix.2 ⟨name.toList, hchild.symm⟩), hchild, List.length_append,
      Nat.add_sub_cancel, List.take_left, String.ofList_toList]

/-! ## Listing -/

/-- A name is listed when an entry is named for it. -/
theorem mem_supported_iff : name ∈ (ofDirectory files directory).supported ↔
    ∃ child ∈ files.names directory, ∃ packing : Packing, child.text = name.toList ++ packing.suffix := by
  rw [ofDirectory, listedIn, Sorted.sortStrings, Sorted.mem_sortBy_iff, distinctNames, mem_namesBeyond_iff]
  simp [List.mem_flatMap, mem_schemaNames_iff]

/-- A name is listed when anything in the directory is named for it. -/
theorem mem_supported_iff_child? {root : Entry} : name ∈ (ofDirectory root.access directory).supported ↔
    ∃ (child : Name) (packing : Packing), child.text = name.toList ++ packing.suffix ∧
      (root.child? directory child).isSome = true := by
  rw [mem_supported_iff]
  constructor
  · rintro ⟨child, hmem, packing, hchild⟩
    exact ⟨child, packing, hchild, (Entry.names_iff_child? root directory child).1 hmem⟩
  · rintro ⟨child, packing, hchild, hsome⟩
    exact ⟨child, (Entry.names_iff_child? root directory child).2 hsome, packing, hchild⟩

/-- The names that are listed decide the list. -/
theorem supported_eq_sortStrings {names : List String} (hnodup : names.Nodup)
    (h : ∀ name, name ∈ (ofDirectory files directory).supported ↔ name ∈ names) :
    (ofDirectory files directory).supported = Sorted.sortStrings names := by
  have hmem (name : String) : name ∈ distinctNames ((files.names directory).flatMap schemaNames) ↔ name ∈ names := by
    rw [← h name, ofDirectory, listedIn, Sorted.sortStrings, Sorted.mem_sortBy_iff]
  exact Sorted.sortStrings_eq_of_perm
    ((List.perm_ext_iff_of_nodup (nodup_namesBeyond [] _) hnodup).2 hmem)

theorem slash_not_mem_of_supported (h : name ∈ (ofDirectory files directory).supported) : '/' ∉ name.toList := by
  obtain ⟨child, -, packing, hchild⟩ := mem_supported_iff.1 h
  exact slash_not_mem_of_child hchild

/-! ## Loading -/

/-- The place of a document is that of the entry which is named for it. -/
theorem documentPath_eq_child {child : Name} {packing : Packing}
    (h : child.text = name.toList ++ packing.suffix) : documentPath directory name packing = directory.child child := by
  rw [documentPath, ← h, Path.join_ofText_text]

/-- The place of a document can be read when a file of the name stands in the directory. -/
theorem read_documentPath_iff {root : Entry} {child : Name} {packing : Packing} {octets : Octets}
    (h : child.text = name.toList ++ packing.suffix) :
    root.access.read (documentPath directory name packing) = .ok octets ↔
      root.child? directory child = some (.file octets) := by
  rw [documentPath_eq_child h]
  exact Entry.read_child_eq_ok_iff root directory child octets

/-- A document has a file when one of its places can be read. -/
theorem documentFile?_isSome_iff : (documentFile? files directory name).isSome = true ↔
    ∃ (packing : Packing) (octets : Octets), files.read (documentPath directory name packing) = .ok octets := by
  rw [documentFile?, List.findSome?_isSome_iff]
  constructor
  · rintro ⟨packing, -, hfound⟩
    cases hread : files.read (documentPath directory name packing) with
    | error e =>
      rw [hread] at hfound
      cases hfound
    | ok octets => exact ⟨packing, octets, hread⟩
  · rintro ⟨packing, octets, hread⟩
    refine ⟨packing, by cases packing <;> decide, ?_⟩
    rw [hread]
    rfl

/-- A document as it is goes first. -/
theorem documentFile?_of_plain {octets : Octets}
    (h : files.read (documentPath directory name .plain) = .ok octets) :
    documentFile? files directory name = some (.plain, octets) := by
  rw [documentFile?, Packing.all, List.findSome?_cons, h]

theorem documentFile?_of_packed {octets : Octets}
    (hplain : ∀ twin : Octets, files.read (documentPath directory name .plain) ≠ .ok twin)
    (h : files.read (documentPath directory name .packed) = .ok octets) :
    documentFile? files directory name = some (.packed, octets) := by
  rw [documentFile?, Packing.all, List.findSome?_cons, List.findSome?_cons, h]
  cases hread : files.read (documentPath directory name .plain) with
  | error e => rfl
  | ok twin => exact absurd hread (hplain twin)

/-- A document is loaded from a file whose place can be read. -/
theorem read_of_documentFile? {packing : Packing} {octets : Octets}
    (h : documentFile? files directory name = some (packing, octets)) :
    files.read (documentPath directory name packing) = .ok octets := by
  obtain ⟨found, -, hfound⟩ := List.exists_of_findSome?_eq_some h
  cases hread : files.read (documentPath directory name found) with
  | error e =>
    rw [hread] at hfound
    cases hfound
  | ok content =>
    rw [hread] at hfound
    cases hfound
    exact hread

/-- A document whose name holds no slash is loaded from a file directly in the directory. -/
theorem exists_child_of_documentFile? {root : Entry} (hslash : '/' ∉ name.toList) {packing : Packing}
    {octets : Octets} (h : documentFile? root.access directory name = some (packing, octets)) :
    ∃ child : Name, child.text = name.toList ++ packing.suffix ∧ root.child? directory child = some (.file octets) := by
  obtain ⟨child, hchild⟩ := exists_child_of_slash_not_mem hslash packing
  exact ⟨child, hchild, (read_documentPath_iff hchild).1 (read_of_documentFile? h)⟩

theorem unpack_ne_unsupported (packing : Packing) (octets : Octets) (missing : String) :
    packing.unpack octets ≠ .error (.unsupported missing) := by
  intro h
  cases packing with
  | plain => cases h
  | packed =>
    rw [Packing.unpack] at h
    cases hunpacked : Gzip.unpack octets <;> rw [hunpacked] at h <;> cases h

theorem readJson_ne_unsupported (octets : Octets) (missing : String) :
    readJson octets ≠ .error (.unsupported missing) := by
  intro h
  unfold readJson at h
  split at h
  · cases h
  · next t _ => cases hread : Json.read (Text.universalNewlines t) <;> rw [hread] at h <;> cases h

theorem refusalOf_ne_unsupported (v : Value) (contains : String → Bool) (missing : String) :
    refusalOf v contains ≠ .unsupported missing := by
  unfold refusalOf
  split
  · exact LoadError.noConfusion
  · split
    · split <;> exact LoadError.noConfusion
    · exact LoadError.noConfusion

theorem describing_ne_unsupported (v : Value) (missing : String) :
    describing v ≠ .error (.unsupported missing) := by
  intro h
  cases v with
  | object document =>
    rw [describing] at h
    cases hunwrap : GraphQL.unwrap document <;> rw [hunwrap] at h <;> cases h
  | list | str => exact refusalOf_ne_unsupported _ _ missing (Except.error.inj h)
  | _ => cases h

/-- What a file holds may be no document, but it is not missing. -/
theorem readDocument_ne_unsupported (packing : Packing) (octets : Octets) (missing : String) :
    readDocument packing octets ≠ .error (.unsupported missing) := by
  intro h
  unfold readDocument at h
  split at h
  · next hunpack =>
    cases h
    exact unpack_ne_unsupported packing octets missing hunpack
  · split at h
    · next hread =>
      cases h
      exact readJson_ne_unsupported _ missing hread
    · exact describing_ne_unsupported _ missing h

/-- A document is missing unless it has a file. -/
theorem load_ne_unsupported_iff : (ofDirectory files directory).load name ≠ .error (.unsupported name) ↔
    (documentFile? files directory name).isSome = true := by
  rw [ofDirectory]
  dsimp only
  cases documentFile? files directory name with
  | none => simp
  | some file => simp [readDocument_ne_unsupported]

/-! ## Catalogues that cannot be told apart -/

/-- Directly in a directory the same files can be read and the same names are listed. -/
structure AgreesIn (files files' : Access) (directory : Path) : Prop where
  names_iff : ∀ child : Name, child ∈ files.names directory ↔ child ∈ files'.names directory
  read_iff : ∀ (child : Name) (octets : Octets),
    files.read (directory.child child) = .ok octets ↔ files'.read (directory.child child) = .ok octets

/-- Trees in which the same stands directly in a directory. -/
theorem agreesIn_of_child? {root root' : Entry}
    (h : ∀ child : Name, root.child? directory child = root'.child? directory child) :
    AgreesIn root.access root'.access directory where
  names_iff child := by rw [Entry.names_iff_child?, Entry.names_iff_child?, h child]
  read_iff child octets := by rw [Entry.read_child_eq_ok_iff, Entry.read_child_eq_ok_iff, h child]

theorem AgreesIn.supported_eq (h : AgreesIn files files' directory) :
    (ofDirectory files directory).supported = (ofDirectory files' directory).supported := by
  have hnodup := nodup_namesBeyond [] ((files'.names directory).flatMap schemaNames)
  apply supported_eq_sortStrings hnodup
  intro name
  rw [mem_supported_iff, mem_namesBeyond_iff]
  simp [List.mem_flatMap, mem_schemaNames_iff, h.names_iff]

theorem AgreesIn.load_eq (h : AgreesIn files files' directory) (hslash : '/' ∉ name.toList) :
    (ofDirectory files directory).load name = (ofDirectory files' directory).load name := by
  have hfile : documentFile? files directory name = documentFile? files' directory name := by
    rw [documentFile?, documentFile?]
    congr 1
    funext packing
    obtain ⟨child, hchild⟩ := exists_child_of_slash_not_mem hslash packing
    rw [documentPath_eq_child hchild]
    cases hread : files.read (directory.child child) with
    | ok octets => rw [(h.read_iff child octets).1 hread]
    | error e =>
      cases hread' : files'.read (directory.child child) with
      | error e' => rfl
      | ok octets =>
        rw [(h.read_iff child octets).2 hread'] at hread
        cases hread
  simp only [ofDirectory, hfile]

end SnippetAudit.Catalogue
