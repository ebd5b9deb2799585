import SnippetAudit.Proofs.Schema.MissingMember
import SnippetAudit.Proofs.Schema.Place
import SnippetAudit.Schema.Structural

/-!
# From failures to violations

A contract tells what its effective document has against attributes, failure by failure. Failures by the
rules of allowed and of required members that stand at the attributes as a whole are told in other words:
the undeclared and the missing attributes are computed anew, from the document as a whole. A missing
attribute is always found again. An attribute that a subschema in the document does not allow need not be
undeclared in the document as a whole, and then the failure is passed over and nothing is told.

A name that is undeclared or missing is told once. As long as none has been told, none is held back.

## What this module delivers

- `PassedOver`: the failures that are not told;
- `exists_told`, `violationsFrom_append_of_parts`: the violations of failures in a row, and of those in attributes;
- `violationsFrom_congr`: which violations are told depends on the names of the attributes alone;
- `violationsFrom_eq_nil_iff`, `violations_eq_nil_iff`: no violations, exactly when all failures are passed
  over;
- `NothingNamed`, `nothingNamed_of_concernsValue`: where all violations concern values, no failure names an
  undeclared or a missing attribute.
-/

set_option autoImplicit false

namespace SnippetAudit.Schema.StructuralSchema

/-- The failure tells of members that are not allowed, and no attribute is undeclared. -/
def PassedOver (s : StructuralSchema) (attributes : Members Value) (f : Failure) : Prop :=
  f.path = [] ∧ f.rule = .additionalProperties ∧ s.undeclaredNames attributes = []

variable {s : StructuralSchema} {attributes : Members Value}

/-! ## Violations -/

/-- What a failure adds to the violations does not depend on the failures behind it. -/
theorem exists_told (s : StructuralSchema) (attributes : Members Value) (reported : List Value) (f : Failure) :
    ∃ told reported', ∀ rest, s.violationsFrom attributes reported (f :: rest) =
      told ++ s.violationsFrom attributes reported' rest := by
  obtain ⟨path, rule, message⟩ := f
  cases path with
  | nil =>
    cases rule with
    | additionalProperties => exact ⟨_, _, fun _ => rfl⟩
    | required names => exact ⟨_, _, fun _ => rfl⟩
    | brokenDown cause => exact ⟨[_], _, fun _ => rfl⟩
    | other => exact ⟨[_], _, fun _ => rfl⟩
  | cons step steps => exact ⟨[_], _, fun _ => rfl⟩

/-- Failures in the attributes are told as they are. -/
theorem violationsFrom_of_parts {fs : List Failure} (hfs : ∀ f ∈ fs, f.isWhole = false) (reported : List Value) :
    s.violationsFrom attributes reported fs = fs.map Violation.ofFailure := by
  induction fs with
  | nil => rfl
  | cons f rest ih =>
    rw [List.forall_mem_cons] at hfs
    obtain ⟨path, rule, message⟩ := f
    cases path with
    | nil => exact absurd hfs.1 Bool.noConfusion
    | cons step steps => exact congrArg (_ :: ·) (ih hfs.2)

/-- Failures in the attributes that stand behind others are told behind them. -/
theorem violationsFrom_append_of_parts (fs : List Failure) {parts : List Failure}
    (hparts : ∀ f ∈ parts, f.isWhole = false) (reported : List Value) :
    s.violationsFrom attributes reported (fs ++ parts) =
      s.violationsFrom attributes reported fs ++ parts.map Violation.ofFailure := by
  induction fs generalizing reported with
  | nil => exact violationsFrom_of_parts hparts reported
  | cons f rest ih =>
    obtain ⟨told, reported', htold⟩ := exists_told s attributes reported f
    rw [List.cons_append, htold, htold, ih, List.append_assoc]

/-- Which violations failures are told as depends on the names of the attributes alone. -/
theorem violationsFrom_congr {attributes' : Members Value}
    (hundeclared : s.undeclaredNames attributes = s.undeclaredNames attributes')
    (hhas : Members.has attributes = Members.has attributes') (fs : List Failure) :
    ∀ reported, s.violationsFrom attributes reported fs = s.violationsFrom attributes' reported fs := by
  have hmissing (names : List Value) : missingNames names attributes = missingNames names attributes' := by
    simp only [missingNames, hasMember, hhas]
  induction fs with
  | nil => exact fun _ => rfl
  | cons f rest ih =>
    intro reported
    rw [violationsFrom.eq_def, violationsFrom.eq_def s attributes']
    simp only [hundeclared, hmissing, ih]

/-- As long as no name is known, the first one is told. -/
theorem valuesBeyond_nil_ne_nil {names : List Value} (h : names ≠ []) : valuesBeyond [] names ≠ [] := by
  obtain ⟨name, rest, rfl⟩ := List.exists_cons_of_ne_nil h
  simp [valuesBeyond]

theorem missingNames_ne_nil {names : List Value}
    (h : ∃ name ∈ names, hasMember attributes name = false) : missingNames names attributes ≠ [] := by
  obtain ⟨name, hname, hmissing⟩ := h
  exact List.ne_nil_of_mem (List.mem_filter.2 ⟨hname, by rw [hmissing]; rfl⟩)

theorem violationsFrom_cons_of_passedOver {f : Failure} (hf : s.PassedOver attributes f)
    (reported : List Value) (rest : List Failure) :
    s.violationsFrom attributes reported (f :: rest) = s.violationsFrom attributes reported rest := by
  obtain ⟨path, rule, message⟩ := f
  obtain ⟨rfl, rfl, hnone⟩ := hf
  simp [violationsFrom, hnone, valuesBeyond]

/-- The first failure that is not passed over is told. -/
theorem violationsFrom_cons_ne_nil {f : Failure} (hf : f.Grounded (.object attributes))
    (htold : ¬ s.PassedOver attributes f) (rest : List Failure) :
    s.violationsFrom attributes [] (f :: rest) ≠ [] := by
  unfold violationsFrom
  split
  · next hpath hrule =>
    have hundeclared : (s.undeclaredNames attributes).map Value.str ≠ [] := fun hnone =>
      htold ⟨hpath, hrule, List.map_eq_nil_iff.1 hnone⟩
    intro hnil
    rw [List.append_eq_nil_iff, List.map_eq_nil_iff] at hnil
    exact valuesBeyond_nil_ne_nil hundeclared hnil.1
  · next names hpath hrule =>
    -- the failure is grounded, so the name that it misses is found missing again
    obtain ⟨members, hmembers, hmissing⟩ := hf hpath names hrule
    obtain rfl := Value.object.inj hmembers
    intro hnil
    rw [List.append_eq_nil_iff, List.map_eq_nil_iff] at hnil
    exact valuesBeyond_nil_ne_nil (missingNames_ne_nil hmissing) hnil.1
  · exact List.cons_ne_nil _ _

/-- Grounded failures are told of by no violation exactly when all of them are passed over. -/
theorem violationsFrom_eq_nil_iff {fs : List Failure} (hfs : ∀ f ∈ fs, f.Grounded (.object attributes)) :
    s.violationsFrom attributes [] fs = [] ↔ ∀ f ∈ fs, s.PassedOver attributes f := by
  induction fs with
  | nil => simp [violationsFrom]
  | cons f rest ih =>
    rw [List.forall_mem_cons] at hfs ⊢
    -- a failure that is passed over adds no reported name, so the rest is told from an empty list again
    by_cases hf : s.PassedOver attributes f
    · rw [violationsFrom_cons_of_passedOver hf, ih hfs.2, and_iff_right hf]
    · constructor
      · intro hnil
        exact absurd hnil (violationsFrom_cons_ne_nil hfs.1 hf rest)
      · intro hall
        exact absurd hall.1 hf

theorem mem_failures_iff (f : Failure) :
    f ∈ s.failures attributes ↔ f ∈ Schema.failures (.object s.effective) (.object attributes) :=
  Sorted.mem_sortBy_iff _ f _

/-- There are no violations exactly when all failures are passed over. -/
theorem violations_eq_nil_iff : s.violations attributes = [] ↔
    ∀ f ∈ Schema.failures (.object s.effective) (.object attributes), s.PassedOver attributes f := by
  rw [violations, violationsFrom_eq_nil_iff]
  · simp only [mem_failures_iff]
  · intro f hf
    exact failures_grounded _ _ f ((mem_failures_iff f).1 hf)

/-! ## Violations that concern values -/

theorem concernsValue_undeclared (name : String) : (Violation.undeclared name).concernsValue = false := by
  simp [Violation.concernsValue, Violation.undeclared]

theorem concernsValue_missing (name : String) : (Violation.missing name).concernsValue = false := by
  simp [Violation.concernsValue, Violation.missing]

theorem names_eq_nil_of_concernsValue {tell : String → Violation}
    (htell : ∀ name, (tell name).concernsValue = false) {names : List Value}
    (h : ∀ v ∈ (valuesBeyond [] names).map (tell ∘ nameText), v.concernsValue = true) : names = [] := by
  by_cases hnames : names = []
  · exact hnames
  · obtain ⟨name, hname⟩ := List.exists_mem_of_ne_nil _ (valuesBeyond_nil_ne_nil hnames)
    have htold := h (tell (nameText name)) (List.mem_map_of_mem hname)
    rw [htell] at htold
    exact absurd htold Bool.false_ne_true

/-- The failure stands elsewhere, or no attribute that it tells of is undeclared or missing. -/
def NothingNamed (s : StructuralSchema) (attributes : Members Value) (f : Failure) : Prop :=
  f.path = [] → (f.rule = .additionalProperties → s.undeclaredNames attributes = []) ∧
    ∀ names, f.rule = .required names → missingNames names attributes = []

/-- Where all violations concern values, the first failure names nothing and so holds back nothing of what
the others tell. -/
theorem nothingNamed_cons {f : Failure} {rest : List Failure}
    (h : ∀ v ∈ s.violationsFrom attributes [] (f :: rest), v.concernsValue = true) :
    s.NothingNamed attributes f ∧
      ∀ v ∈ s.violationsFrom attributes [] rest, v.concernsValue = true := by
  unfold violationsFrom at h
  split at h
  · next hpath hrule =>
    rw [List.forall_mem_append] at h
    have hnone := names_eq_nil_of_concernsValue concernsValue_undeclared h.1
    -- no name is told, so none is held back from the other failures
    constructor
    · intro _
      refine ⟨fun _ => List.map_eq_nil_iff.1 hnone, fun names hnames => ?_⟩
      rw [hrule] at hnames
      exact absurd hnames (by simp)
    · rw [hnone] at h
      exact h.2
  · next required hpath hrule =>
    rw [List.forall_mem_append] at h
    have hnone := names_eq_nil_of_concernsValue concernsValue_missing h.1
    constructor
    · intro _
      refine ⟨fun hclosed => ?_, fun names hnames => ?_⟩
      · rw [hrule] at hclosed
        exact absurd hclosed (by simp)
      · rw [hrule] at hnames
        obtain rfl := Rule.required.inj hnames
        exact hnone
    · rw [hnone] at h
      exact h.2
  · next hclosed hrequired =>
    rw [List.forall_mem_cons] at h
    refine ⟨fun hpath => ⟨fun hrule => ?_, fun names hrule => ?_⟩, h.2⟩
    · exact (hclosed hpath hrule).elim
    · exact (hrequired names hpath hrule).elim

/-- Where all violations concern values, none of the failures behind them names an undeclared or a missing
attribute. -/
theorem nothingNamed_of_concernsValue {fs : List Failure}
    (h : ∀ v ∈ s.violationsFrom attributes [] fs, v.concernsValue = true) :
    ∀ f ∈ fs, s.NothingNamed attributes f := by
  induction fs with
  | nil => intro f hf; exact absurd hf List.not_mem_nil
  | cons first rest ih =>
    obtain ⟨hfirst, hrest⟩ := nothingNamed_cons h
    rw [List.forall_mem_cons]
    exact ⟨hfirst, ih hrest⟩

end SnippetAudit.Schema.StructuralSchema
