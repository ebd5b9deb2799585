import Mathlib.Data.List.Forall2
import Mathlib.Data.List.TakeWhile
import SnippetAudit.Judge.Batch
import SnippetAudit.Proofs.Component.Finding
import SnippetAudit.Proofs.Component.NamedValue
import SnippetAudit.Proofs.Component.Walk
import SnippetAudit.Proofs.Data.Distinct

/-!
# Every usage is accounted for

Each usage of a snippet is told on its own: that its tag is unknown, or what its judge has against it. Objections to
the value of an attribute that is an expression become notes, one for each such attribute; all others go into one
problem line, in their order. The explanation of the snippet puts the problem lines together in the order of the
usages, with the notes behind them. Only problem lines decide the verdict.

## What this module delivers

- `ConstrainsExpression`, `unverifiable?_eq_some_iff`: the objections that become notes;
- `Splits`, `Told`: what is told of one usage;
- `Fails`, `Told.fails_iff`: the usages that fail;
- `told_inspect`: what is found about a usage is told of it;
- `AccountsForAll`, `attemptMarkup_accountsForAll`: the account of a snippet in terms of its usages.
-/

set_option autoImplicit false

namespace SnippetAudit.Judge

open Component Contract Metrics Schema

variable {resolver : Resolver} {u : Usage}

/-! ## Objections -/

/-- The objection is to the value of an attribute that is an expression, and not to its being there or not. -/
inductive ConstrainsExpression (u : Usage) (name : String) : Objection → Prop where
  | violation {v : Violation} (hconcerns : v.concerns = some name) (hexpr : (u.expression? name).isSome = true)
      (hundeclared : v.message ≠ Violation.undeclaredMessage) (hmissing : v.message ≠ Violation.missingMessage) :
      ConstrainsExpression u name (.violation v)
  | remark {r : Remark} (hconcerns : r.concerns = some name) (hexpr : (u.expression? name).isSome = true)
      (hundeclared : r.message ≠ some Violation.undeclaredMessage)
      (hmissing : r.message ≠ some Violation.missingMessage) : ConstrainsExpression u name (.remark r)

theorem unverifiable?_eq_some_iff {o : Objection} {name : String} :
    unverifiable? u o = some name ↔ ConstrainsExpression u name o := by
  rw [unverifiable?, Option.filter_eq_some_iff]
  constructor
  · rintro ⟨hconcerns, hexpr⟩
    cases o with
    | violation v =>
      obtain ⟨hvalue, hname⟩ : v.concernsValue = true ∧ v.concerns = some name := by
        simpa [Objection.concernsValueOf?] using hconcerns
      rw [Violation.concernsValue, Bool.and_eq_true, bne_iff_ne, bne_iff_ne] at hvalue
      exact .violation hname hexpr hvalue.1 hvalue.2
    | remark r =>
      obtain ⟨hvalue, hname⟩ : ¬ (r.message = some Violation.undeclaredMessage ∨
          r.message = some Violation.missingMessage) ∧ r.concerns = some name := by
        simpa [Objection.concernsValueOf?, Remark.concernsValueOf?] using hconcerns
      rw [not_or] at hvalue
      exact .remark hname hexpr hvalue.1 hvalue.2
  · rintro (⟨hname, hexpr, hundeclared, hmissing⟩ | ⟨hname, hexpr, hundeclared, hmissing⟩)
    · refine ⟨?_, hexpr⟩
      simp [Objection.concernsValueOf?, Violation.concernsValue, hname, hundeclared, hmissing]
    · refine ⟨?_, hexpr⟩
      simp [Objection.concernsValueOf?, Remark.concernsValueOf?, hname, hundeclared, hmissing]

/-- Objections fall into those that count against the usage, and the attributes whose expressions the others
concern, both in their order. -/
inductive Splits (u : Usage) : List Objection → List Objection → List String → Prop where
  | nil : Splits u [] [] []
  | note {o : Objection} {objections real : List Objection} {name : String} {names : List String}
      (ho : ConstrainsExpression u name o) (hrest : Splits u objections real names) :
      Splits u (o :: objections) real (name :: names)
  | real {o : Objection} {objections real : List Objection} {names : List String}
      (ho : ∀ name, ¬ ConstrainsExpression u name o) (hrest : Splits u objections real names) :
      Splits u (o :: objections) (o :: real) names

theorem splits (u : Usage) (objections : List Objection) :
    Splits u objections (objections.filter fun o => !isUnverifiable u o) (objections.filterMap (unverifiable? u)) := by
  induction objections with
  | nil => exact .nil
  | cons o rest ih =>
    rw [List.filter_cons, List.filterMap_cons, isUnverifiable]
    cases hnote : unverifiable? u o with
    | none =>
      refine .real (fun name hname => ?_) ih
      rw [unverifiable?_eq_some_iff.2 hname] at hnote
      exact absurd hnote (by simp)
    | some name => exact .note (unverifiable?_eq_some_iff.1 hnote) ih

theorem Splits.mem_real_iff {objections real : List Objection} {names : List String}
    (h : Splits u objections real names) (o : Objection) :
    o ∈ real ↔ o ∈ objections ∧ ∀ name, ¬ ConstrainsExpression u name o := by
  induction h with
  | nil => simp
  | @note first _ _ name _ hfirst _ ih =>
    rw [ih, List.mem_cons]
    constructor
    · exact fun h => ⟨Or.inr h.1, h.2⟩
    · rintro ⟨rfl | hrest, hreal⟩
      · exact absurd hfirst (hreal name)
      · exact ⟨hrest, hreal⟩
  | @real first _ _ _ hfirst _ ih =>
    rw [List.mem_cons, List.mem_cons, ih]
    constructor
    · rintro (rfl | h)
      · exact ⟨Or.inl rfl, hfirst⟩
      · exact ⟨Or.inr h.1, h.2⟩
    · rintro ⟨rfl | hrest, hreal⟩
      · exact Or.inl rfl
      · exact Or.inr ⟨hrest, hreal⟩

/-! ## One usage -/

/-- What is told of a usage: its problem line, if it has one, and its notes. -/
inductive Told (resolver : Resolver) (u : Usage) : Option String → List String → Prop where
  | unknown (hjudge : resolver.judgeOf? u.tag = none) : Told resolver u (some ("Unknown component: " ++ u.tag)) []
  | passes {judge : AttributeJudge} {objections : List Objection} {names noted : List String}
      (hjudge : resolver.judgeOf? u.tag = some judge) (hobjections : judge.objections u.attributes = .ok objections)
      (hsplits : Splits u objections [] names) (hnoted : ListsOnce names noted) :
      Told resolver u none (noted.map (noteOn u))
  | fails {judge : AttributeJudge} {objections real : List Objection} {names noted : List String}
      (hjudge : resolver.judgeOf? u.tag = some judge) (hobjections : judge.objections u.attributes = .ok objections)
      (hsplits : Splits u objections real names) (hreal : real ≠ []) (hnoted : ListsOnce names noted) :
      Told resolver u (some (u.tag ++ " validation failed: " ++ "; ".intercalate (real.map Objection.text)))
        (noted.map (noteOn u))

/-- The tag of the usage leads to no judge, or its judge has something against it that is not the value of an
expression. -/
def Fails (resolver : Resolver) (u : Usage) : Prop :=
  resolver.judgeOf? u.tag = none ∨ ∃ judge objections, resolver.judgeOf? u.tag = some judge ∧
    judge.objections u.attributes = .ok objections ∧ ∃ o ∈ objections, ∀ name, ¬ ConstrainsExpression u name o

/-- A usage fails exactly when a problem is told of it. -/
theorem Told.fails_iff {problem : Option String} {notes : List String} (h : Told resolver u problem notes) :
    Fails resolver u ↔ problem ≠ none := by
  cases h with
  | unknown hjudge => exact iff_of_true (Or.inl hjudge) (by simp)
  | passes hjudge hobjections hsplits hnoted =>
    refine iff_of_false ?_ (by simp)
    rintro (hnone | ⟨judge, objections, hjudge', hobjections', o, ho, hreal⟩)
    · rw [hjudge] at hnone
      exact absurd hnone (by simp)
    · obtain rfl := Option.some.inj (hjudge.symm.trans hjudge')
      obtain rfl := Except.ok.inj (hobjections.symm.trans hobjections')
      exact absurd ((hsplits.mem_real_iff o).2 ⟨ho, hreal⟩) List.not_mem_nil
  | fails hjudge hobjections hsplits hreal hnoted =>
    obtain ⟨o, ho⟩ := List.exists_mem_of_ne_nil _ hreal
    obtain ⟨hmem, hcounts⟩ := (hsplits.mem_real_iff o).1 ho
    exact iff_of_true (Or.inr ⟨_, _, hjudge, hobjections, o, hmem, hcounts⟩) (by simp)

/-- The judge of the usage, if it has one, does not break down. -/
def JudgedSmoothly (resolver : Resolver) (u : Usage) : Prop :=
  ∀ judge, resolver.judgeOf? u.tag = some judge → ∃ objections, judge.objections u.attributes = .ok objections

/-- What is found about a usage is told of it. -/
theorem told_inspect (hsmooth : JudgedSmoothly resolver u) :
    Told resolver u (inspect resolver u).problem? (inspect resolver u).notes ∧
      (inspect resolver u).breakdown? = none ∧
      (inspect resolver u).isUnknown = (resolver.judgeOf? u.tag).isNone := by
  unfold inspect
  cases hjudge : resolver.judgeOf? u.tag with
  | none => exact ⟨.unknown hjudge, rfl, rfl⟩
  | some judge =>
    obtain ⟨objections, hobjections⟩ := hsmooth judge hjudge
    have hsplits := splits u objections
    have hnoted := listsOnce_distinctNames (objections.filterMap (unverifiable? u))
    simp only [checkUsage, hobjections]
    refine ⟨?_, rfl, rfl⟩
    rw [Finding.problem?, Finding.notes, problemOf?, notesOf]
    split
    · next hnone => exact .passes hjudge hobjections (hnone ▸ hsplits) hnoted
    · next hreal => exact .fails hjudge hobjections hsplits hreal hnoted

/-! ## All usages -/

/-- The account tells of every usage in order: the problem lines are joined behind each other, and the notes behind
them; without problem lines the tags are listed, each once, in the order of their first usages. -/
structure AccountsForAll (resolver : Resolver) (usages : List Usage) (a : Account) : Prop where
  told : ∃ told : List (Option String × List String),
    List.Forall₂ (fun u t => Told resolver u t.1 t.2) usages told ∧
      (told.filterMap Prod.fst ≠ [] → a.outcome = .failed ("Validation errors: " ++
        "; ".intercalate (told.filterMap Prod.fst) ++ noteSuffix (told.flatMap Prod.snd))) ∧
      (told.filterMap Prod.fst = [] → ∃ tags, ListsOnce (usages.map Usage.tag) tags ∧
        a.outcome = .success ("All components validated successfully. Found components: " ++
          ", ".intercalate tags ++ "." ++ noteSuffix (told.flatMap Prod.snd)))
  verdict : a.outcome.verdict = .failed ↔ ∃ u ∈ usages, Fails resolver u
  unknown : (accountEvents resolver.accountName a).count (.unknownComponent (resolver.packageName?.getD "explicit")) =
    usages.countP fun u => (resolver.judgeOf? u.tag).isNone

theorem outcomeOf_failed_iff (usages : List Usage) (findings : List Finding) :
    (outcomeOf usages findings).verdict = .failed ↔ ∃ f ∈ findings, f.problem? ≠ none := by
  have hnone : (∃ f ∈ findings, f.problem? ≠ none) ↔ findings.filterMap Finding.problem? ≠ [] := by
    simp [List.filterMap_eq_nil_iff]
  rw [hnone, outcomeOf]
  cases findings.filterMap Finding.problem? with
  | nil => simp [Outcome.success]
  | cons problem more => simp [Outcome.failed]

/-- Where no judge breaks down, the account is made of all findings. -/
theorem accountOf_smooth {usages : List Usage} (hsmooth : ∀ u ∈ usages, JudgedSmoothly resolver u) :
    accountOf usages (usages.map (inspect resolver)) =
      ⟨outcomeOf usages (usages.map (inspect resolver)), usages.countP fun u => (resolver.judgeOf? u.tag).isNone⟩ := by
  -- findings count up to the first breakdown, and there is none
  have hnone : ∀ f ∈ usages.map (inspect resolver), f.breakdown? = none :=
    List.forall_mem_map.2 fun u hu => (told_inspect (hsmooth u hu)).2.1
  have htake : ((usages.map (inspect resolver)).takeWhile fun f => f.breakdown?.isNone) =
      usages.map (inspect resolver) :=
    List.takeWhile_eq_self_iff.2 fun f hf => by rw [hnone f hf, Option.isNone_none]
  have hunknown : (usages.map (inspect resolver)).countP (fun f => f.isUnknown) =
      usages.countP fun u => (resolver.judgeOf? u.tag).isNone := by
    rw [List.countP_map]
    refine List.countP_congr fun u hu => ?_
    rw [Function.comp_apply, (told_inspect (hsmooth u hu)).2.2]
  rw [accountOf, htake, List.findSome?_eq_none_iff.2 hnone, hunknown]

/-- The account of usages whose judges do not break down tells of all of them. -/
theorem accountOf_accountsForAll {usages : List Usage} (hsmooth : ∀ u ∈ usages, JudgedSmoothly resolver u) :
    AccountsForAll resolver usages (accountOf usages (usages.map (inspect resolver))) := by
  have htold : List.Forall₂ (fun u t => Told resolver u t.1 t.2) usages
      (usages.map fun u => ((inspect resolver u).problem?, (inspect resolver u).notes)) :=
    List.forall₂_map_right_iff.2 (List.forall₂_same.2 fun u hu => (told_inspect (hsmooth u hu)).1)
  have hproblems :
      (usages.map fun u => ((inspect resolver u).problem?, (inspect resolver u).notes)).filterMap Prod.fst =
        (usages.map (inspect resolver)).filterMap Finding.problem? := by
    rw [List.filterMap_map, List.filterMap_map]
    rfl
  have hnotes : (usages.map fun u => ((inspect resolver u).problem?, (inspect resolver u).notes)).flatMap Prod.snd =
      (usages.map (inspect resolver)).flatMap Finding.notes := by
    rw [List.flatMap_map, List.flatMap_map]
  rw [accountOf_smooth hsmooth]
  refine ⟨⟨_, htold, ?_, ?_⟩, ?_, ?_⟩
  · rw [hproblems, hnotes, outcomeOf]
    intro hsome
    cases hlines : (usages.map (inspect resolver)).filterMap Finding.problem? with
    | nil => exact absurd hlines hsome
    | cons line more => rfl
  · rw [hproblems, hnotes, outcomeOf]
    intro hnone
    rw [hnone]
    exact ⟨tagsOf usages, listsOnce_distinctNames _, rfl⟩
  · rw [outcomeOf_failed_iff]
    simp only [List.mem_map, exists_exists_and_eq_and]
    exact exists_congr fun u => and_congr_right fun hu => ((told_inspect (hsmooth u hu)).1.fails_iff).symm
  · exact List.count_replicate_self

/-! ## Snippets -/

/-- The snippet is walked without a breakdown, and these are its usages. -/
structure Walked (env : Environment) (resolver : Resolver) (code : Text) (usages : List Usage) : Prop where
  smooth : markupBreakdown? env code = none
  usages : (findUsages env resolver.walkRules (Extraction.extract Extraction.markup code)).usages = usages

/-- The account of a snippet in which something is used, and whose judges do not break down, tells of every usage. -/
theorem attemptMarkup_accountsForAll {env : Environment} {code : Text} {usages : List Usage}
    (hwalked : Walked env resolver code usages) (hused : usages ≠ [])
    (hsmooth : ∀ u ∈ usages, JudgedSmoothly resolver u) :
    AccountsForAll resolver usages (attemptMarkup env resolver code) := by
  obtain ⟨first, rest, rfl⟩ := List.exists_cons_of_ne_nil hused
  -- nothing is used in an empty text, whatever the parser gives for it
  have hcleaned : (Extraction.extract Extraction.markup code).isEmpty = false := by
    rw [List.isEmpty_eq_false_iff]
    intro hnil
    have husages := hwalked.usages
    rw [hnil, findUsages_nil] at husages
    exact absurd husages (by simp)
  rw [attemptMarkup, hwalked.smooth]
  simp only [judgeMarkup, hcleaned, Bool.false_eq_true, if_false, hwalked.usages]
  exact accountOf_accountsForAll hsmooth

/-! ## Chips -/

/-- A component without a contract and two chips whose tone is an expression; the first one is dense besides. -/
def chipSnippet : Text := "<Gone/><Chip tone=\x7bmood\x7d dense/><Chip tone=\x7bmood\x7d/>".toList

/-- The attribute for the tone. -/
def toneAttribute (start : Nat) : Syntax.Node :=
  fieldNode "jsx_attribute" start (start + 11) none
    [fieldNode "property_identifier" start (start + 4) none [],
      fieldNode "jsx_expression" (start + 5) (start + 11) none
        [fieldNode "identifier" (start + 6) (start + 10) none []]]

/-- A parser that gives the three elements. -/
def chipEnvironment : Environment where
  parse _ _ :=
    fieldNode "program" 0 57 none
      [fieldNode "jsx_self_closing_element" 3 10 none [fieldNode "identifier" 4 8 "name" []],
        fieldNode "jsx_self_closing_element" 10 35 none
          [fieldNode "identifier" 11 15 "name" [], toneAttribute 16,
            fieldNode "jsx_attribute" 28 33 none [fieldNode "property_identifier" 28 33 none []]],
        fieldNode "jsx_self_closing_element" 35 54 none [fieldNode "identifier" 36 40 "name" [], toneAttribute 41]]

/-- A judge that remarks twice on the tone, and once on what it does not know, without naming it. -/
def chipJudge : CustomJudge := fun attributes =>
  let onTone : List Remark := [⟨"tone is loud", some "tone", none⟩, ⟨"tone is long", some "tone", some "too long"⟩]
  .ok (if attributes.has "dense" then { text := "one attribute too many" } :: onTone else onTone)

/-- The judge as the only contract. -/
def chipResolver : Resolver := .explicit [("Chip", .custom chipJudge)]

/-- The usages of the snippet. -/
def chipUsages : List Usage :=
  (findUsages chipEnvironment chipResolver.walkRules (Extraction.extract Extraction.markup chipSnippet)).usages

/-- The unknown component and the dense chip have a problem each, and either chip has one note. -/
theorem attemptMarkup_accountsForAll_chips :
    Walked chipEnvironment chipResolver chipSnippet chipUsages ∧ chipUsages ≠ [] ∧
      (∀ u ∈ chipUsages, JudgedSmoothly chipResolver u) ∧
      AccountsForAll chipResolver chipUsages (attemptMarkup chipEnvironment chipResolver chipSnippet) ∧
      attemptMarkup chipEnvironment chipResolver chipSnippet =
        ⟨.failed ("Validation errors: Unknown component: Gone; Chip validation failed: one attribute too many " ++
          "Notes: Chip: attribute 'tone' is present but unverifiable (expression mood); " ++
          "Chip: attribute 'tone' is present but unverifiable (expression mood)"), 1⟩ := by
  have hwalked : Walked chipEnvironment chipResolver chipSnippet chipUsages := ⟨by decide +kernel, rfl⟩
  have hused : chipUsages ≠ [] := List.ne_nil_of_length_pos (by decide +kernel)
  have hsmooth : ∀ u ∈ chipUsages, JudgedSmoothly chipResolver u := by
    intro u _ judge hjudge
    obtain ⟨-, rfl⟩ := Prod.mk.inj (List.mem_singleton.1 (Members.mem_of_get?_eq_some hjudge))
    exact ⟨_, rfl⟩
  exact ⟨hwalked, hused, hsmooth, attemptMarkup_accountsForAll hwalked hused hsmooth, by decide +kernel⟩

end SnippetAudit.Judge
