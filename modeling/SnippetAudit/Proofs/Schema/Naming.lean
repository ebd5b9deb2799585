import SnippetAudit.Proofs.Data.Distinct
import SnippetAudit.Proofs.Data.Equality
import SnippetAudit.Proofs.Data.Sorted
import SnippetAudit.Proofs.Schema.Closing
import SnippetAudit.Proofs.Schema.Wording

/-!
# The names of undeclared and missing attributes

One failure stands for all undeclared attributes at once, and each failure by a rule of required members goes
through all members of the rule again. Failures of both kinds may come from any subschema that is applied to the
attributes as a whole, so what has been told is kept and not told again. Undeclared attributes are there and missing
ones are not, so neither kind holds the other back. In strict mode every undeclared attribute makes the closing
keyword fail; so each is named exactly once, and so is each required attribute that is missing.

## What this module delivers

- `Failure.Closes`, `Failure.Requires`, `violationsFrom_cases`: what one failure adds to the violations;
- `filter_undeclared`: the violations for undeclared attributes;
- `TellsMissing`, `exists_tellsMissing`: the violations for missing attributes;
- `NamesTold`, `judge_namesTold`: where attributes can be judged, strict judging names exactly the undeclared and the
  missing attributes.
-/

set_option autoImplicit false

namespace SnippetAudit.Schema

/-- The failure is one of the value itself by the rule of allowed members. -/
def Failure.Closes (f : Failure) : Prop := f.path = [] ∧ f.rule = .additionalProperties

/-- The failure is one of the value itself by a rule of required members. -/
def Failure.Requires (names : List Value) (f : Failure) : Prop := f.path = [] ∧ f.rule = .required names

/-- The violation is told for an undeclared attribute. -/
def Violation.isUndeclared (v : Violation) : Bool := v.message == undeclaredMessage

/-- The violation is told for a missing attribute. -/
def Violation.isMissing (v : Violation) : Bool := v.message == missingMessage

namespace StructuralSchema

variable {s : StructuralSchema} {document attributes : Members Value}

/-! ## One failure -/

/-- The undeclared names that have not been reported. -/
def undeclaredBeyond (s : StructuralSchema) (attributes : Members Value) (reported : List Value) : List Value :=
  valuesBeyond reported ((s.undeclaredNames attributes).map .str)

/-- The names that a rule misses and that have not been reported. -/
def missingBeyond (attributes : Members Value) (reported required : List Value) : List Value :=
  valuesBeyond reported (missingNames required attributes)

/-- A failure adds undeclared names, missing names, or itself. -/
theorem violationsFrom_cases (s : StructuralSchema) (attributes : Members Value) (reported : List Value) (f : Failure)
    (rest : List Failure) :
    (f.Closes ∧ s.violationsFrom attributes reported (f :: rest) =
        (s.undeclaredBeyond attributes reported).map (Violation.undeclared ∘ nameText) ++
          s.violationsFrom attributes (s.undeclaredBeyond attributes reported ++ reported) rest) ∨
      (∃ required, f.Requires required ∧ s.violationsFrom attributes reported (f :: rest) =
        (missingBeyond attributes reported required).map (Violation.missing ∘ nameText) ++
          s.violationsFrom attributes (missingBeyond attributes reported required ++ reported) rest) ∨
      ((¬ f.Closes ∧ ∀ required, ¬ f.Requires required) ∧ s.violationsFrom attributes reported (f :: rest) =
        Violation.ofFailure f :: s.violationsFrom attributes reported rest) := by
  rw [violationsFrom]
  split
  · next hpath hrule => exact Or.inl ⟨⟨hpath, hrule⟩, rfl⟩
  · next required hpath hrule => exact Or.inr (Or.inl ⟨required, ⟨hpath, hrule⟩, rfl⟩)
  · next hcloses hrequires =>
    exact Or.inr (Or.inr ⟨⟨fun h => hcloses h.1 h.2, fun required h => hrequires required h.1 h.2⟩, rfl⟩)

/-! ## Undeclared attributes -/

@[simp]
theorem isUndeclared_undeclared (name : String) : (Violation.undeclared name).isUndeclared = true := beq_self_eq_true _

@[simp]
theorem isUndeclared_missing (name : String) : (Violation.missing name).isUndeclared = false := by
  simp [Violation.isUndeclared, Violation.missing, Violation.missingMessage, Violation.undeclaredMessage]

@[simp]
theorem isMissing_undeclared (name : String) : (Violation.undeclared name).isMissing = false := by
  simp [Violation.isMissing, Violation.undeclared, Violation.missingMessage, Violation.undeclaredMessage]

@[simp]
theorem isMissing_missing (name : String) : (Violation.missing name).isMissing = true := beq_self_eq_true _

theorem isUndeclared_ofFailure {f : Failure} (hf : IsOrdinary f.message) :
    (Violation.ofFailure f).isUndeclared = false :=
  beq_eq_false_iff_ne.2 hf.1

theorem isMissing_ofFailure {f : Failure} (hf : IsOrdinary f.message) : (Violation.ofFailure f).isMissing = false :=
  beq_eq_false_iff_ne.2 hf.2

theorem hasMember_of_isAmong {name : Value} {reported : List Value}
    (h : IsAmong name (s.undeclaredBeyond attributes reported)) : hasMember attributes name = true := by
  obtain ⟨other, hother, heq⟩ := h
  obtain ⟨undeclared, hundeclared, rfl⟩ := List.mem_map.1 (mem_valuesBeyond hother).1
  rw [hasMember, str_looselyEqual_iff.1 heq, Option.any_some, Members.has_eq_true_iff]
  exact (mem_undeclaredNames_iff.1 hundeclared).1

theorem hasMember_of_mem_missingBeyond {name : Value} {reported required : List Value}
    (h : name ∈ missingBeyond attributes reported required) :
    name ∈ required ∧ hasMember attributes name = false := by
  obtain ⟨hmem, hmissing⟩ := List.mem_filter.1 (mem_valuesBeyond h).1
  exact ⟨hmem, by simpa using hmissing⟩

/-- A missing name is not equal to one that is there. -/
theorem not_isAmong_missingBeyond {name : String} (hname : name ∈ attributes.names) (reported required : List Value) :
    ¬ IsAmong (.str name) (missingBeyond attributes reported required) := by
  rintro ⟨other, hother, heq⟩
  have hmissing := (hasMember_of_mem_missingBeyond hother).2
  rw [hasMember, looselyEqual_str_iff.1 heq, Option.any_some, (Members.has_eq_true_iff attributes name).2 hname]
    at hmissing
  exact absurd hmissing (by simp)

/-- What is reported as missing holds back no undeclared name. -/
theorem undeclaredBeyond_missing (s : StructuralSchema) (attributes : Members Value) (reported required : List Value) :
    s.undeclaredBeyond attributes (missingBeyond attributes reported required ++ reported) =
      s.undeclaredBeyond attributes reported := by
  refine valuesBeyond_congr fun v hv => ?_
  obtain ⟨name, hname, rfl⟩ := List.mem_map.1 hv
  rw [isAmong_append, or_iff_right]
  exact not_isAmong_missingBeyond (mem_undeclaredNames_iff.1 hname).1 _ _

/-- Once all undeclared names have been reported, none is told. -/
theorem filter_undeclared_eq_nil {fs : List Failure} (hordinary : ∀ f ∈ fs, IsOrdinary f.message) {reported : List Value}
    (hreported : ∀ name ∈ s.undeclaredNames attributes, IsAmong (.str name) reported) :
    (s.violationsFrom attributes reported fs).filter Violation.isUndeclared = [] := by
  induction fs generalizing reported with
  | nil => rfl
  | cons f rest ih =>
    rw [List.forall_mem_cons] at hordinary
    have hgrown (more : List Value) : ∀ name ∈ s.undeclaredNames attributes, IsAmong (.str name) (more ++ reported) :=
      fun name hname => isAmong_append.2 (Or.inr (hreported name hname))
    rcases violationsFrom_cases s attributes reported f rest with ⟨-, htold⟩ | ⟨required, -, htold⟩ | ⟨-, htold⟩
    · have hnone : s.undeclaredBeyond attributes reported = [] :=
        valuesBeyond_eq_nil (List.forall_mem_map.2 hreported)
      rw [htold, List.filter_append, ih hordinary.2 (hgrown _), hnone]
      rfl
    · rw [htold, List.filter_append, ih hordinary.2 (hgrown _)]
      simp [List.filter_eq_nil_iff]
    · rw [htold, List.filter_cons, isUndeclared_ofFailure hordinary.1]
      exact ih hordinary.2 hreported

/-- The first failure of the closing rule tells all undeclared names. -/
theorem filter_undeclared {fs : List Failure} (hordinary : ∀ f ∈ fs, IsOrdinary f.message) (hcloses : ∃ f ∈ fs, f.Closes)
    (reported : List Value) : (s.violationsFrom attributes reported fs).filter Violation.isUndeclared =
      (s.undeclaredBeyond attributes reported).map (Violation.undeclared ∘ nameText) := by
  induction fs generalizing reported with
  | nil =>
    obtain ⟨f, hf, -⟩ := hcloses
    exact absurd hf List.not_mem_nil
  | cons f rest ih =>
    rw [List.forall_mem_cons] at hordinary
    have hlater (hf : ¬ f.Closes) : ∃ g ∈ rest, g.Closes := by
      obtain ⟨g, hg, hgcloses⟩ := hcloses
      rcases List.mem_cons.1 hg with rfl | hrest
      · exact absurd hgcloses hf
      · exact ⟨g, hrest, hgcloses⟩
    rcases violationsFrom_cases s attributes reported f rest with
      ⟨-, htold⟩ | ⟨required, hrequires, htold⟩ | ⟨hneither, htold⟩
    · -- all are told or were told before, so the failures behind tell none
      have hall : ∀ name ∈ s.undeclaredNames attributes,
          IsAmong (.str name) (s.undeclaredBeyond attributes reported ++ reported) :=
        fun name hname => exists_of_str_mem (List.mem_map_of_mem hname) reported
      rw [htold, List.filter_append, filter_undeclared_eq_nil hordinary.2 hall, List.append_nil]
      simp [List.filter_eq_self]
    · have hcloses : ¬ f.Closes := by
        rintro ⟨-, hrule⟩
        rw [hrequires.2] at hrule
        exact absurd hrule (by simp)
      rw [htold, List.filter_append, ih hordinary.2 (hlater hcloses), undeclaredBeyond_missing]
      simp [List.filter_eq_nil_iff]
    · rw [htold, List.filter_cons, isUndeclared_ofFailure hordinary.1]
      exact ih hordinary.2 (hlater hneither.1) reported

/-! ## Missing attributes -/

/-- The names are those that are told as missing: they are missing, none is equal to another one or to one reported
before, and every missing name that a failure requires is among them, unless it was reported. -/
structure TellsMissing (s : StructuralSchema) (attributes : Members Value) (reported : List Value) (fs : List Failure)
    (names : List Value) : Prop where
  told : (s.violationsFrom attributes reported fs).filter Violation.isMissing =
    names.map (Violation.missing ∘ nameText)
  pairwise : names.Pairwise fun name other => name.looselyEqual other = false
  missing : ∀ name ∈ names, hasMember attributes name = false ∧ ¬ IsAmong name reported
  complete : ∀ f ∈ fs, ∀ required, f.Requires required → ∀ name : String, .str name ∈ required →
    name ∉ attributes.names → IsAmong (.str name) (names ++ reported)

section Step

variable {reported names : List Value} {f : Failure} {rest : List Failure}

theorem TellsMissing.of_closes (hcloses : f.Closes)
    (htold : s.violationsFrom attributes reported (f :: rest) =
      (s.undeclaredBeyond attributes reported).map (Violation.undeclared ∘ nameText) ++
        s.violationsFrom attributes (s.undeclaredBeyond attributes reported ++ reported) rest)
    (h : s.TellsMissing attributes (s.undeclaredBeyond attributes reported ++ reported) rest names) :
    s.TellsMissing attributes reported (f :: rest) names where
  told := by
    rw [htold, List.filter_append, h.told]
    simp [List.filter_eq_nil_iff]
  pairwise := h.pairwise
  missing name hname := (h.missing name hname).imp_right fun hnew hamong => hnew (isAmong_append.2 (Or.inr hamong))
  complete g hg required hrequires name hname habsent := by
    rcases List.mem_cons.1 hg with rfl | hrest
    · exact absurd (hcloses.2.symm.trans hrequires.2) (by simp)
    · have hamong := h.complete g hrest required hrequires name hname habsent
      rw [isAmong_append, isAmong_append] at hamong
      rcases hamong with hnames | hundeclared | hreported
      · exact isAmong_append.2 (Or.inl hnames)
      · -- what is reported as undeclared is there
        have hmember := hasMember_of_isAmong hundeclared
        rw [hasMember_of_not_mem habsent] at hmember
        exact absurd hmember (by simp)
      · exact isAmong_append.2 (Or.inr hreported)

theorem TellsMissing.of_requires {required : List Value} (hrequires : f.Requires required)
    (htold : s.violationsFrom attributes reported (f :: rest) =
      (missingBeyond attributes reported required).map (Violation.missing ∘ nameText) ++
        s.violationsFrom attributes (missingBeyond attributes reported required ++ reported) rest)
    (h : s.TellsMissing attributes (missingBeyond attributes reported required ++ reported) rest names) :
    s.TellsMissing attributes reported (f :: rest) (missingBeyond attributes reported required ++ names) where
  told := by
    rw [htold, List.filter_append, h.told, List.map_append]
    simp [List.filter_eq_self]
  pairwise := by
    rw [List.pairwise_append]
    refine ⟨pairwise_valuesBeyond _ _, h.pairwise, fun name hname other hother => ?_⟩
    -- what the failures behind tell is not among what this one has reported
    rw [Bool.eq_false_iff]
    exact fun heq => (h.missing other hother).2 (isAmong_append.2 (Or.inl ⟨name, hname, heq⟩))
  missing := by
    rw [List.forall_mem_append]
    refine ⟨fun name hname => ⟨(hasMember_of_mem_missingBeyond hname).2, (mem_valuesBeyond hname).2⟩, ?_⟩
    exact fun name hname => (h.missing name hname).imp_right fun hnew hamong => hnew (isAmong_append.2 (Or.inr hamong))
  complete g hg required' hrequires' name hname habsent := by
    rcases List.mem_cons.1 hg with rfl | hrest
    · obtain rfl := Rule.required.inj (hrequires'.2.symm.trans hrequires.2)
      have hmissing : .str name ∈ missingNames required' attributes :=
        List.mem_filter.2 ⟨hname, by rw [hasMember_of_not_mem habsent]; rfl⟩
      have hamong := exists_of_str_mem hmissing reported
      rw [isAmong_append] at hamong
      rw [isAmong_append, isAmong_append]
      exact hamong.imp_left Or.inl
    · have hamong := h.complete g hrest required' hrequires' name hname habsent
      rw [isAmong_append, isAmong_append] at hamong
      rw [isAmong_append, isAmong_append]
      rcases hamong with hnames | hfirst | hreported
      · exact Or.inl (Or.inr hnames)
      · exact Or.inl (Or.inl hfirst)
      · exact Or.inr hreported

theorem TellsMissing.of_neither (hf : IsOrdinary f.message) (hneither : ∀ required, ¬ f.Requires required)
    (htold : s.violationsFrom attributes reported (f :: rest) =
      Violation.ofFailure f :: s.violationsFrom attributes reported rest)
    (h : s.TellsMissing attributes reported rest names) : s.TellsMissing attributes reported (f :: rest) names where
  told := by
    rw [htold, List.filter_cons, isMissing_ofFailure hf]
    exact h.told
  pairwise := h.pairwise
  missing := h.missing
  complete g hg required hrequires name hname habsent := by
    rcases List.mem_cons.1 hg with rfl | hrest
    · exact absurd hrequires (hneither required)
    · exact h.complete g hrest required hrequires name hname habsent

end Step

theorem exists_tellsMissing {fs : List Failure} (hordinary : ∀ f ∈ fs, IsOrdinary f.message) (reported : List Value) :
    ∃ names : List Value, s.TellsMissing attributes reported fs names := by
  induction fs generalizing reported with
  | nil => exact ⟨[], rfl, List.Pairwise.nil, by simp, by simp⟩
  | cons f rest ih =>
    rw [List.forall_mem_cons] at hordinary
    rcases violationsFrom_cases s attributes reported f rest with
      ⟨hcloses, htold⟩ | ⟨required, hrequires, htold⟩ | ⟨hneither, htold⟩
    · obtain ⟨names, hnames⟩ := ih hordinary.2 (s.undeclaredBeyond attributes reported ++ reported)
      exact ⟨names, hnames.of_closes hcloses htold⟩
    · obtain ⟨names, hnames⟩ := ih hordinary.2 (missingBeyond attributes reported required ++ reported)
      exact ⟨_, hnames.of_requires hrequires htold⟩
    · obtain ⟨names, hnames⟩ := ih hordinary.2 reported
      exact ⟨names, hnames.of_neither hordinary.1 hneither.2 htold⟩

/-! ## Strict judging -/

/-- Violations name the undeclared attributes in order and each once, and missing attributes each once, with every
attribute among them that the document requires at its top. -/
structure NamesTold (document attributes : Members Value) (told : List Violation) : Prop where
  undeclared : ∃ names : List String, told.filter Violation.isUndeclared = names.map Violation.undeclared ∧
    names.Pairwise (· < ·) ∧ ∀ name, name ∈ names ↔ name ∈ attributes.names ∧ ¬ Declares document name
  missing : ∃ names : List Value, told.filter Violation.isMissing = names.map (Violation.missing ∘ nameText) ∧
    names.Pairwise (fun name other => name.looselyEqual other = false) ∧
    (∀ name ∈ names, hasMember attributes name = false) ∧
    ∀ name : String, .str name ∈ requiredOf document → name ∉ attributes.names →
      ∃ other ∈ names, other.string? = some name

/-- Where attributes can be judged, all messages are ordinary. -/
theorem isOrdinary_of_judged (hjudged : s.breakdown? attributes = none) :
    ∀ f ∈ s.failures attributes, IsOrdinary f.message := by
  intro f hf
  rw [mem_failures_iff] at hf
  exact failuresWithin_ordinary _ _ _ _ _ f hf (firstBreakdown?_eq_none_iff.1 hjudged f hf)

theorem filter_violations_undeclared (hopen : hasOwnClosing document = false) (hpatterns : PatternsApart document)
    (hjudged : breakdown? ⟨document, true⟩ attributes = none) :
    (violations ⟨document, true⟩ attributes).filter Violation.isUndeclared =
      (undeclaredBeyond ⟨document, true⟩ attributes []).map (Violation.undeclared ∘ nameText) := by
  have hordinary := isOrdinary_of_judged hjudged
  -- only where something is undeclared is the closing rule sure to fail
  by_cases hnone : undeclaredNames ⟨document, true⟩ attributes = []
  · rw [violations, filter_undeclared_eq_nil hordinary (by simp [hnone]), undeclaredBeyond, hnone]
    rfl
  · exact filter_undeclared hordinary (exists_failure_of_undeclared hopen hpatterns hjudged hnone) []

/-- The undeclared names, each once, are in order. -/
theorem pairwise_distinctNames_undeclaredNames (s : StructuralSchema) (attributes : Members Value) :
    (distinctNames (s.undeclaredNames attributes)).Pairwise (· < ·) := by
  have hsorted := (Sorted.pairwise_sortBy Sorted.isRank_lt _).sublist
    (namesBeyond_sublist [] (s.undeclaredNames attributes))
  refine (hsorted.and (nodup_namesBeyond [] _)).imp fun {a b} h => ?_
  obtain ⟨hle, hne⟩ := h
  rw [decide_eq_false_iff_not] at hle
  grind

/-- In strict mode, where the document has no schema of its own for undeclared attributes, what judging attributes tells
names exactly the undeclared attributes, and the missing ones, whatever subschemas say about the attributes as a
whole. -/
theorem judge_namesTold (hopen : hasOwnClosing document = false) (hpatterns : PatternsApart document)
    {told : List Violation} (htold : judge ⟨document, true⟩ attributes = .ok told) :
    NamesTold document attributes told := by
  obtain ⟨hjudged, rfl⟩ := judge_eq_ok_iff.1 htold
  refine ⟨⟨distinctNames (undeclaredNames ⟨document, true⟩ attributes), ?_,
    pairwise_distinctNames_undeclaredNames _ _, fun name => ?_⟩, ?_⟩
  · have hnames := valuesBeyond_map_str [] (undeclaredNames ⟨document, true⟩ attributes)
    rw [filter_violations_undeclared hopen hpatterns hjudged, undeclaredBeyond]
    rw [List.map_nil] at hnames
    rw [hnames, List.map_map]
    rfl
  · rw [distinctNames, mem_namesBeyond_iff, and_iff_left List.not_mem_nil, mem_undeclaredNames_iff]
  · obtain ⟨names, hnames⟩ := exists_tellsMissing (isOrdinary_of_judged hjudged) []
    refine ⟨names, hnames.told, hnames.pairwise, fun name hname => (hnames.missing name hname).1, ?_⟩
    intro name hrequired habsent
    obtain ⟨arg, harg, hname⟩ : ∃ arg, document.get? "required" = some arg ∧ .str name ∈ itemsOf arg := by
      rw [requiredOf] at hrequired
      cases harg : document.get? "required" with
      | none =>
        rw [harg] at hrequired
        exact absurd hrequired List.not_mem_nil
      | some arg =>
        rw [harg] at hrequired
        exact ⟨arg, rfl, hrequired⟩
    obtain ⟨f, hf, hrequires⟩ := exists_failure_of_missing ⟨document, true⟩ harg hname habsent
    obtain ⟨other, hother, heq⟩ := hnames.complete f hf _ hrequires name hname habsent
    rw [List.append_nil] at hother
    exact ⟨other, hother, looselyEqual_str_iff.1 heq⟩

/-- A document that requires a title and an icon, with subschemas that require the title and a size and that allow no
members. -/
def layeredDocument : Members Value :=
  [("properties", .object [("title", .object []), ("icon", .object [])]),
    ("patternProperties", .object [("^data-", .object [])]),
    ("required", .list [.str "title", .str "icon"]),
    ("allOf", .list
      [.object [("required", .list [.str "title", .str "size"])], .object [("$ref", .str "#/$defs/none")]]),
    ("$defs", .object [("none", .object [("additionalProperties", .bool false)])])]

/-- Two undeclared attributes, one declared by its name and one by an expression. -/
def layeredAttributes : Members Value :=
  [("tone", .int 1), ("icon", .null), ("data-id", .int 2), ("dense", .bool true)]

/-- The subschemas fail at the attributes as a whole as well, and each name is told once. -/
theorem judge_namesTold_layered :
    hasOwnClosing layeredDocument = false ∧ PatternsApart layeredDocument ∧
      judge ⟨layeredDocument, true⟩ layeredAttributes =
        .ok [.missing "title", .missing "size", .undeclared "dense", .undeclared "tone"] ∧
      NamesTold layeredDocument layeredAttributes
        [.missing "title", .missing "size", .undeclared "dense", .undeclared "tone"] := by
  have hopen : hasOwnClosing layeredDocument = false := rfl
  have hpatterns : PatternsApart layeredDocument := @patternsApart_of_single layeredDocument "^data-" rfl
  have htold : judge ⟨layeredDocument, true⟩ layeredAttributes =
      .ok [.missing "title", .missing "size", .undeclared "dense", .undeclared "tone"] := by
    decide
  exact ⟨hopen, hpatterns, htold, judge_namesTold hopen hpatterns htold⟩

end StructuralSchema

end SnippetAudit.Schema
