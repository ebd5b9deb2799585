import SnippetAudit.Proofs.Schema.Violation

/-!
# Closed contracts

In strict mode a contract closes the object of attributes, unless its document has a schema for attributes
that it does not declare. An undeclared attribute, and a required attribute that is missing, is then always
told by a violation that does not concern a value: the closing keyword and the required members stand at the
top of the effective document, every top keyword runs, and reporting a name once loses no name. So where attributes
can be judged and all violations concern values, the attributes are declared and the required ones are there.

The validator joins the expressions for attribute names into one before it looks for additional attributes,
while a contract tries each on its own. Expressions that count their groups may match more when joined. So
it is asked of a document that the validator takes every undeclared attribute for an additional one, which
is so where joining makes no expression match more.

## What this module delivers

- `Admits`: attributes that are declared, with the required ones among them;
- `PatternsApart`: expressions that match no more attributes when joined; `patternsApart_iff` tells what that
  is for, and `patternsApart_of_nil` and `patternsApart_of_single` where it holds;
- `topScope`, `failures_object`: the keywords at the top of a document;
- `exists_failure_of_undeclared`, `exists_failure_of_missing`: the failures of attributes that are not
  admitted;
- `admits_of_concernsValue`: where attributes can be judged and all violations concern values, they are admitted.
-/

set_option autoImplicit false

namespace SnippetAudit.Schema

/-- The names of the attributes that a document declares by name. -/
def propertiesOf (document : Members Value) : List String :=
  (membersOf ((document.get? "properties").getD .null)).names

/-- The expressions for attribute names in a document. -/
def patternsOf (document : Members Value) : List String :=
  (membersOf ((document.get? "patternProperties").getD .null)).names

/-- The names that a document requires. -/
def requiredOf (document : Members Value) : List Value :=
  itemsOf ((document.get? "required").getD .null)

/-- The document declares an attribute, by its name or by an expression for names. -/
def Declares (document : Members Value) (name : String) : Prop :=
  name ∈ propertiesOf document ∨ ∃ expression ∈ patternsOf document, isFound expression name = true

/-- Every attribute is declared by the document, and every name that the document requires is an
attribute. -/
structure Admits (document attributes : Members Value) : Prop where
  declared : ∀ name ∈ attributes.names, Declares document name
  required : ∀ name, .str name ∈ requiredOf document → name ∈ attributes.names

/-- Where the joined expressions of the document are found in a name that is not declared, one of the
expressions is found in it. -/
def PatternsApart (document : Members Value) : Prop :=
  ∀ name ∉ propertiesOf document, joinedPatterns document ≠ "" →
    isFound (joinedPatterns document) name = true →
      ∃ expression ∈ patternsOf document, isFound expression name = true

theorem patternsApart_of_nil {document : Members Value} (h : patternsOf document = []) :
    PatternsApart document := by
  intro name _ hjoined
  exact absurd (by rw [joinedPatterns, ← patternsOf, h]; rfl) hjoined

/-- A single expression is not changed by joining. -/
theorem patternsApart_of_single {document : Members Value} {expression : String}
    (h : patternsOf document = [expression]) : PatternsApart document := by
  have hjoined : joinedPatterns document = expression := by
    rw [joinedPatterns, ← patternsOf, h]
    rfl
  intro name _ _ hfound
  rw [hjoined] at hfound
  exact ⟨expression, by rw [h]; exact List.mem_cons_self, hfound⟩

/-! ## The top keywords of a document -/

/-- The scope of the keywords at the top of a document. -/
def topScope (document : Members Value) (v : Value) : Scope where
  root := .object document
  siblings := document
  manner := documentManner
  budget := budgetFor (.object document) v - 1
  judge := failuresWithin (.object document) documentManner (budgetFor (.object document) v - 1)

/-- The keywords at the top of a document judge the value, each on its own. -/
theorem failures_object (document : Members Value) (v : Value) :
    failures (.object document) v = document.flatMap (keywordFailures (topScope document v) v) := by
  -- the budget of a whole document is never zero, so its keywords do run
  have hbudget : budgetFor (.object document) v = (budgetFor (.object document) v - 1) + 1 := by
    have hpos : 0 < budgetFor (.object document) v := Nat.mul_pos (Nat.succ_pos _) (Nat.succ_pos _)
    omega
  rw [failures, hbudget, failuresWithin]
  rfl

/-- A failure of a keyword that stands at the top of a document is one of the whole document. -/
theorem mem_failures_of_keyword {document : Members Value} {name : String} {keyword : Keyword}
    {arg v : Value} {f : Failure} (hkeyword : keywords.get? name = some keyword)
    (harg : document.get? name = some arg)
    (hf : ∀ scope : Scope, scope.siblings = document → f ∈ keyword scope arg v) :
    f ∈ failures (.object document) v := by
  rw [failures_object, List.mem_flatMap]
  refine ⟨(name, arg), Members.mem_of_get?_eq_some harg, ?_⟩
  rw [keywordFailures, hkeyword]
  exact hf (topScope document v) rfl

namespace StructuralSchema

variable {document attributes : Members Value}

/-! ## The effective document -/

theorem effective_of_open (h : hasOwnClosing document = false) :
    effective ⟨document, true⟩ = document.put "additionalProperties" (.bool false) := by
  simp [effective, h]

theorem get?_effective (s : StructuralSchema) {name : String} (hname : name ≠ "additionalProperties") :
    s.effective.get? name = s.document.get? name := by
  rw [effective]
  split
  · exact Members.get?_put_of_ne hname _ _
  · rfl

theorem additionalNames_effective (s : StructuralSchema) :
    additionalNames s.effective attributes = additionalNames s.document attributes := by
  simp only [additionalNames, joinedPatterns]
  rw [s.get?_effective (by decide), s.get?_effective (by decide)]

/-! ## Undeclared and additional attributes -/

theorem isDeclared_eq_true_iff {s : StructuralSchema} {name : String} :
    s.isDeclared name = true ↔ Declares s.document name := by
  rw [isDeclared, Bool.or_eq_true, Members.has_eq_true_iff, List.any_eq_true]
  rfl

theorem mem_undeclaredNames_iff {s : StructuralSchema} {name : String} :
    name ∈ s.undeclaredNames attributes ↔ name ∈ attributes.names ∧ ¬ Declares s.document name := by
  rw [undeclaredNames, Sorted.sortStrings, Sorted.mem_sortBy_iff, List.mem_filter, Bool.not_eq_true',
    Bool.eq_false_iff, ne_eq, isDeclared_eq_true_iff]

theorem mem_additionalNames_iff {name : String} :
    name ∈ additionalNames document attributes ↔ name ∈ attributes.names ∧
      name ∉ propertiesOf document ∧
        (joinedPatterns document ≠ "" → ¬ isFound (joinedPatterns document) name = true) := by
  rw [additionalNames, List.mem_filter, Bool.and_eq_true, Bool.not_eq_true', Bool.not_eq_true',
    Bool.eq_false_iff, ne_eq, Members.has_eq_true_iff, Bool.eq_false_iff, ne_eq, Bool.and_eq_true,
    bne_iff_ne, not_and]
  rfl

/-- Expressions match no more attributes when joined exactly when the validator takes every undeclared
attribute for an additional one. -/
theorem patternsApart_iff : PatternsApart document ↔
    ∀ attributes : Members Value, ∀ name ∈ undeclaredNames ⟨document, true⟩ attributes,
      name ∈ additionalNames document attributes := by
  constructor
  · intro h attributes name hname
    obtain ⟨hattribute, hundeclared⟩ := mem_undeclaredNames_iff.1 hname
    have hproperties : name ∉ propertiesOf document := fun hmem => hundeclared (Or.inl hmem)
    refine mem_additionalNames_iff.2 ⟨hattribute, hproperties, ?_⟩
    intro hjoined hfound
    exact hundeclared (Or.inr (h name hproperties hjoined hfound))
  · intro h name hproperties hjoined hfound
    by_cases hsome : ∃ expression ∈ patternsOf document, isFound expression name = true
    · exact hsome
    · -- the name as an only attribute would be undeclared and yet not be taken for additional
      have hundeclared : ¬ Declares document name := by
        rintro (hmem | hmatch)
        · exact hproperties hmem
        · exact hsome hmatch
      have hadditional := h [(name, .null)] name
        (mem_undeclaredNames_iff.2 ⟨List.mem_cons_self, hundeclared⟩)
      exact absurd hfound ((mem_additionalNames_iff.1 hadditional).2.2 hjoined)

/-! ## Failures of attributes that are not admitted -/

/-- Where attributes can be judged, expressions for names can be searched for as one wherever that is asked for. -/
theorem unreadableJoin?_eq_none {s : StructuralSchema} (hjudged : s.breakdown? attributes = none) {arg : Value}
    (harg : s.effective.get? "additionalProperties" = some arg) :
    unreadableJoin? s.effective attributes = none := by
  cases hjoin : unreadableJoin? s.effective attributes with
  | none => rfl
  | some cause =>
    have hkeyword : keywords.get? "additionalProperties" = some additionalProperties := rfl
    have hbroken : .broken cause ∈ Schema.failures (.object s.effective) (.object attributes) := by
      refine mem_failures_of_keyword hkeyword harg fun scope hsiblings => ?_
      simp only [additionalProperties, hsiblings, hjoin, List.mem_singleton]
    exact absurd (firstBreakdown?_eq_none_iff.1 hjudged _ hbroken) (by simp)

/-- An undeclared attribute makes the closing keyword fail, where attributes can be judged. -/
theorem exists_failure_of_undeclared (hopen : hasOwnClosing document = false)
    (hpatterns : PatternsApart document) (hjudged : breakdown? ⟨document, true⟩ attributes = none)
    (h : undeclaredNames ⟨document, true⟩ attributes ≠ []) :
    ∃ f ∈ failures ⟨document, true⟩ attributes, f.path = [] ∧ f.rule = .additionalProperties := by
  obtain ⟨name, hname⟩ := List.exists_mem_of_ne_nil _ h
  have hextra := patternsApart_iff.1 hpatterns attributes name hname
  -- the validator judges by the effective document, which declares the same attributes
  rw [← additionalNames_effective ⟨document, true⟩] at hextra
  have hclosed : (effective ⟨document, true⟩).get? "additionalProperties" = some (.bool false) := by
    rw [effective_of_open hopen, Members.get?_put_self]
  let extras := additionalNames (effective ⟨document, true⟩) attributes
  let f : Failure := ⟨[], .additionalProperties,
    additionalMessage (effective ⟨document, true⟩) (Sorted.sortStrings extras)⟩
  refine ⟨f, ?_, rfl, rfl⟩
  rw [mem_failures_iff]
  have hkeyword : keywords.get? "additionalProperties" = some additionalProperties := rfl
  refine mem_failures_of_keyword hkeyword hclosed ?_
  intro scope hsiblings
  have hextras : extras.isEmpty = false := by
    rw [List.isEmpty_eq_false_iff]
    exact List.ne_nil_of_mem hextra
  simp only [additionalProperties, hsiblings, unreadableJoin?_eq_none hjudged hclosed, judgeExtras]
  rw [if_neg (by rw [hextras]; exact Bool.false_ne_true)]
  exact List.mem_singleton_self f

theorem hasMember_of_not_mem {name : String} (h : name ∉ attributes.names) :
    hasMember attributes (.str name) = false := by
  rw [Bool.eq_false_iff]
  intro hmember
  exact h ((Members.has_eq_true_iff attributes name).1 hmember)

/-- A missing attribute makes the keyword of required members fail. -/
theorem exists_failure_of_missing (s : StructuralSchema) {arg : Value} {name : String}
    (hrequired : s.document.get? "required" = some arg) (hname : .str name ∈ itemsOf arg)
    (hmissing : name ∉ attributes.names) :
    ∃ f ∈ s.failures attributes, f.path = [] ∧ f.rule = .required (itemsOf arg) := by
  refine ⟨⟨[], .required (itemsOf arg), shown (.str name) ++ " is a required property"⟩, ?_, rfl, rfl⟩
  rw [mem_failures_iff]
  rw [← s.get?_effective (by decide)] at hrequired
  have hkeyword : keywords.get? "required" = some Schema.required := rfl
  refine mem_failures_of_keyword hkeyword hrequired ?_
  intro scope _
  exact List.mem_map.2 ⟨.str name, List.mem_filter.2 ⟨hname, by rw [hasMember_of_not_mem hmissing]; rfl⟩, rfl⟩

/-! ## Admitted attributes -/

theorem declares_of_concernsValue (hopen : hasOwnClosing document = false)
    (hpatterns : PatternsApart document) (hjudged : breakdown? ⟨document, true⟩ attributes = none)
    (h : ∀ v ∈ violations ⟨document, true⟩ attributes, v.concernsValue = true) {name : String}
    (hname : name ∈ attributes.names) : Declares document name := by
  by_cases hdeclared : Declares document name
  · exact hdeclared
  · have hmem : name ∈ undeclaredNames ⟨document, true⟩ attributes :=
      mem_undeclaredNames_iff.2 ⟨hname, hdeclared⟩
    obtain ⟨f, hf, hpath, hrule⟩ :=
      exists_failure_of_undeclared hopen hpatterns hjudged (List.ne_nil_of_mem hmem)
    have hnone := (nothingNamed_of_concernsValue h f hf hpath).1 hrule
    exact absurd hnone (List.ne_nil_of_mem hmem)

theorem mem_names_of_concernsValue (s : StructuralSchema)
    (h : ∀ v ∈ s.violations attributes, v.concernsValue = true) {name : String}
    (hname : .str name ∈ requiredOf s.document) : name ∈ attributes.names := by
  rw [requiredOf] at hname
  cases harg : s.document.get? "required" with
  | none => rw [harg] at hname; exact absurd hname List.not_mem_nil
  | some arg =>
    rw [harg] at hname
    by_cases hmember : name ∈ attributes.names
    · exact hmember
    · obtain ⟨f, hf, hpath, hrule⟩ := exists_failure_of_missing s harg hname hmember
      have hnone := (nothingNamed_of_concernsValue h f hf hpath).2 _ hrule
      have hmissing : ∃ name ∈ itemsOf arg, hasMember attributes name = false :=
        ⟨.str name, hname, hasMember_of_not_mem hmember⟩
      exact absurd hnone (missingNames_ne_nil hmissing)

/-- Where attributes can be judged and all violations concern values, the attributes are admitted. -/
theorem admits_of_concernsValue (hopen : hasOwnClosing document = false)
    (hpatterns : PatternsApart document) (hjudged : breakdown? ⟨document, true⟩ attributes = none)
    (h : ∀ v ∈ violations ⟨document, true⟩ attributes, v.concernsValue = true) :
    Admits document attributes where
  declared _ hname := declares_of_concernsValue hopen hpatterns hjudged h hname
  required _ hname := mem_names_of_concernsValue ⟨document, true⟩ h hname

end StructuralSchema

end SnippetAudit.Schema
