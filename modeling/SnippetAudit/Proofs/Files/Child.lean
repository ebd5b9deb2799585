import SnippetAudit.Files.Access

/-!
# What stands directly in a directory

Under each name a directory has a file, another directory, or nothing. Whoever lists a directory and reads the
files in it learns this and nothing else of a file tree: neither what lies outside of the directory nor what
lies in the directories in it.

## What this module delivers

- `Path.child`: the path to what has a name in a directory;
- `Child`, `Entry.child?`: what stands directly in a directory;
- `names_iff_child?`, `read_child_eq_ok_iff`: listing a directory and reading its files;
- `ofText_text`: the path that a name stands for.
-/

set_option autoImplicit false

namespace SnippetAudit.Files

/-! ## Names as paths -/

theorem Path.pieces_of_not_mem {t : Text} (h : '/' ∉ t) : pieces t = [t] := by
  induction t with
  | nil => rfl
  | cons c rest ih =>
    rw [List.mem_cons, not_or] at h
    rw [pieces, if_neg (Ne.symm h.1), ih h.2]

theorem Path.rootOf_of_not_mem {t : Text} (h : '/' ∉ t) : rootOf t = [] := by
  cases t with
  | nil => rfl
  | cons c rest =>
    have hc : (c == '/') = false := beq_eq_false_iff_ne.2 fun hc => h (hc ▸ List.mem_cons_self)
    rw [rootOf, List.takeWhile_cons, hc]
    rfl

theorem Name.slash_not_mem (name : Name) : '/' ∉ name.text := by
  have h := name.isName_text
  simp only [isName, Bool.and_eq_true, Bool.not_eq_true', List.contains_eq_mem, decide_eq_false_iff_not] at h
  exact h.1.1.2

/-- A name stands for the step to it. -/
theorem Path.ofText_text (name : Name) : ofText name.text = ⟨[], [.enter name]⟩ := by
  have hup : name.text ≠ ['.', '.'] := by
    have h := name.isName_text
    simp only [isName, Bool.and_eq_true, bne_iff_ne] at h
    exact h.2
  have hstep : Step.ofPiece? name.text = some (.enter name) := by
    rw [Step.ofPiece?, if_neg hup, dif_pos name.isName_text]
  rw [ofText, rootOf_of_not_mem name.slash_not_mem, pieces_of_not_mem name.slash_not_mem]
  simp [hstep]

/-- The path to what has a name in the directory that a path leads to. -/
def Path.child (p : Path) (name : Name) : Path := ⟨p.root, p.steps ++ [.enter name]⟩

theorem Path.join_ofText_text (p : Path) (name : Name) : p.join (ofText name.text) = p.child name := by
  rw [ofText_text]
  rfl

/-! ## Following a path further -/

namespace Entry

theorem at?_append (root : Entry) (names more : List Name) :
    root.at? (names ++ more) = (root.at? names).bind fun entry => entry.at? more := by
  induction names generalizing root with
  | nil => simp [at?]
  | cons name rest ih =>
    simp only [List.cons_append, at?]
    cases root.entries.lookup name with
    | none => rfl
    | some next => exact ih next

/-- Steps that go on behind others start from where those lead to. -/
theorem resolve_append (root : Entry) (here : List Name) (steps more : List Step) :
    root.resolve here (steps ++ more) =
      match root.resolve here steps with
      | .error e => .error e
      | .ok names => root.resolve names more := by
  induction steps generalizing here with
  | nil => rfl
  | cons step rest ih =>
    simp only [List.cons_append, resolve]
    cases root.at? here with
    | none => rfl
    | some entry =>
      cases entry with
      | file content => rfl
      | directory entries =>
        cases step with
        | enter name => exact ih (here ++ [name])
        | up =>
          dsimp only
          split
          · rfl
          · exact ih here.dropLast

theorem follow_child (root : Entry) (path : Path) (name : Name) :
    root.follow (path.child name) =
      match root.follow path with
      | .error e => .error e
      | .ok names => root.resolve names [.enter name] := by
  unfold follow
  have habsolute : (path.child name).isAbsolute = path.isAbsolute := rfl
  rw [habsolute]
  split
  · rfl
  · exact resolve_append root [] path.steps [.enter name]

/-- A name leads to what has the name in the directory, if there are a directory and such a name. -/
theorem find_child (root : Entry) (path : Path) (name : Name) :
    root.find (path.child name) =
      match root.find path with
      | .error e => .error e
      | .ok (.file _) => .error .notDirectory
      | .ok (.directory entries) =>
        match entries.lookup name with
        | some entry => .ok entry
        | none => .error .notFound := by
  unfold find
  rw [follow_child]
  cases root.follow path with
  | error e => rfl
  | ok names =>
    dsimp only
    rw [resolve]
    cases hat : root.at? names with
    | none => rfl
    | some entry =>
      cases entry with
      | file content => rfl
      | directory entries =>
        have hname : root.at? (names ++ [name]) = entries.lookup name := by
          rw [at?_append, hat, Option.bind_some]
          simp only [at?, Entry.entries]
          cases entries.lookup name <;> rfl
        cases hlook : entries.lookup name <;> simp only [resolve, hname, hlook]

end Entry

/-! ## Children -/

/-- What has a name in a directory: a file with its octets, or a directory, whatever is in it. -/
inductive Child where
  | file (content : Octets)
  | directory
  deriving DecidableEq, Repr

namespace Entry

/-- The entry as it shows from the directory that it is in. -/
def asChild : Entry → Child
  | .file content => .file content
  | .directory _ => .directory

/-- What has a name in the directory that a path leads to. -/
def child? (root : Entry) (path : Path) (name : Name) : Option Child :=
  match root.find path with
  | .error _ => none
  | .ok entry => (entry.entries.lookup name).map asChild

/-- The names in a directory are those under which something stands there. -/
theorem names_iff_child? (root : Entry) (path : Path) (name : Name) :
    name ∈ root.access.names path ↔ (root.child? path name).isSome = true := by
  simp only [access, names, child?]
  cases root.find path with
  | error e => simp
  | ok entry => simp [List.lookup_isSome_iff]

/-- A file can be read by its name in a directory exactly when it stands there. -/
theorem read_child_eq_ok_iff (root : Entry) (path : Path) (name : Name) (octets : Octets) :
    root.access.read (path.child name) = .ok octets ↔ root.child? path name = some (.file octets) := by
  simp only [access, read, child?, find_child]
  cases root.find path with
  | error e => simp
  | ok entry =>
    cases entry with
    | file content => simp [entries]
    | directory entries =>
      simp only [Entry.entries]
      cases entries.lookup name with
      | none => simp
      | some child => cases child <;> simp [asChild]

end Entry

end SnippetAudit.Files
