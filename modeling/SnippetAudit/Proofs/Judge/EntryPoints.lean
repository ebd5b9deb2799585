import SnippetAudit.Proofs.Judge.Component
import SnippetAudit.Proofs.Judge.Pool
import SnippetAudit.Proofs.Judge.Script

/-!
# Markup judged alone and in a batch

A snippet of markup is judged on its own, or as the only snippet of a batch. Judging it on its own begins with
the shape of the request and sets up the resolver afterwards; a batch sets up its judge first and takes its
snippets as they are. Without a resolver both ways fail, and under a resolver they come to the same account.
The shape of the code is what remains: an empty snippet is refused where it stands alone, and passes in a batch.

## What this module delivers

- `Setup.request`: a snippet of a batch as a request of its own;
- `judgeComponents_of_resolver`, `failed_judgeComponents`: what a request comes to with a resolver and without;
- `outcomes_of_resolver`, `outcomes_of_error`: the same for a batch of one snippet;
- `Unread`: where the two ways part;
- `entry_points_agree_iff`: they come to the same verdict everywhere else.
-/

set_option autoImplicit false

namespace SnippetAudit.Judge

open Component Contract

/-- The name of a package, as it is submitted. -/
def submittedName : Option String → Value
  | none => .null
  | some name => .str name

/-- A snippet of a batch, submitted on its own. -/
def Setup.request (s : Setup) (code : String) : ComponentRequest where
  code := .str code
  schemas := s.contracts
  packageName := submittedName s.packageName

variable {env : Environment} {s : Setup} {code : String} {r : Resolver}

/-! ## What a resolver needs -/

/-- No package goes by the empty name. -/
theorem ofPackageName_empty_ne_ok : Resolver.ofPackageName "" ≠ .ok r := by
  have hnone : packages.find? (fun p => p.name == "") = none := by decide
  rw [Resolver.ofPackageName, packageOf]
  simp [hnone]

/-- A resolver comes from contracts or from a package with a name, never from both. -/
theorem given_of_build {contracts : Option (Members Submitted)} {package : Option String}
    (h : Resolver.build contracts package = .ok r) :
    contracts.isNone ≠ package.isNone ∧ package ≠ some "" := by
  cases contracts with
  | none =>
    cases package with
    | none => cases h
    | some name =>
      refine ⟨by simp, ?_⟩
      rintro ⟨⟩
      exact ofPackageName_empty_ne_ok h
  | some byTag =>
    cases package with
    | none => exact ⟨by simp, by simp⟩
    | some name => cases h

theorem exists_build_of_resolverOf {c : ContractsField} {package : Option String}
    (h : resolverOf c package = .ok r) :
    ∃ contracts, c.byTag? = .ok contracts ∧ Resolver.build contracts package = .ok r := by
  rw [resolverOf] at h
  cases hread : c.byTag? with
  | error type =>
    rw [hread] at h
    cases h
  | ok contracts =>
    rw [hread] at h
    exact ⟨contracts, rfl, h⟩

/-! ## A snippet on its own -/

theorem nonEmptyText_str {field : String} (hcode : code ≠ "") : nonEmptyText field (.str code) = .ok code :=
  (nonEmptyText_eq_ok_iff field (.str code) code).2 ⟨rfl, hcode⟩

theorem optionalName_submittedName {field : String} {package : Option String} (h : package ≠ some "") :
    optionalName field (submittedName package) = .ok package := by
  cases package with
  | none => rfl
  | some name =>
    have hname : name ≠ "" := fun he => h (congrArg some he)
    rw [submittedName, optionalName, nonEmptyText_str hname]
    · rfl
    · simp

theorem eq_of_optionalName {field : String} {package name : Option String}
    (h : optionalName field (submittedName package) = .ok name) : name = package := by
  by_cases hempty : package = some ""
  · subst hempty
    exact absurd h (by simp [submittedName, optionalName, nonEmptyText, Except.map])
  · rw [optionalName_submittedName hempty] at h
    exact (Except.ok.inj h).symm

theorem read_eq_ok_iff {c : ContractsField} {contracts : Option (Members Submitted)} :
    c.read = .ok contracts ↔ c.byTag? = .ok contracts := by
  rw [ContractsField.read]
  cases c.byTag? with
  | error e =>
    constructor
    · intro h
      cases h
    · intro h
      cases h
  | ok given =>
    constructor
    · intro h
      cases h
      rfl
    · intro h
      cases h
      rfl

/-- Under a resolver, a snippet that is not empty is judged as it is in a batch. -/
theorem judgeComponents_of_resolver (hresolver : resolverOf s.contracts s.packageName = .ok r)
    (hcode : code ≠ "") : judgeComponents env (s.request code) = attemptMarkup env r code.toList := by
  obtain ⟨contracts, hread, hbuild⟩ := exists_build_of_resolverOf hresolver
  obtain ⟨hone, hname⟩ := given_of_build hbuild
  have hone : (contracts.isNone == s.packageName.isNone) = false := beq_eq_false_iff_ne.2 hone
  simp [judgeComponents, Setup.request, nonEmptyText_str hcode, read_eq_ok_iff.2 hread,
    optionalName_submittedName hname, hone, hbuild]

theorem withoutResolver_verdict (e : ResolverError) : (withoutResolver e).verdict = .failed := by
  cases e <;> rfl

/-- Without a resolver the request fails, whatever the snippet is. -/
theorem failed_judgeComponents {e : ResolverError} (hresolver : resolverOf s.contracts s.packageName = .error e)
    (code : String) : (judgeComponents env (s.request code)).outcome.verdict = .failed := by
  rw [judgeComponents]
  split
  · next contracts name _ hread hname =>
    split
    · rfl
    · split
      · next resolver hbuild =>
        -- the fields fit, so a batch would have set up its judge with them
        have hname : name = s.packageName := eq_of_optionalName hname
        have hread : s.contracts.byTag? = .ok contracts := read_eq_ok_iff.1 hread
        have hbuilt : resolverOf s.contracts s.packageName = .ok resolver := by
          rw [resolverOf, hread, ← hname]
          exact hbuild
        rw [hresolver] at hbuilt
        cases hbuilt
      · next e' _ => exact withoutResolver_verdict e'
  · rfl

/-! ## The only snippet of a batch -/

/-- The outcome of a snippet that a batch holds alone, if the judge of the batch does not break down itself. -/
theorem outcomes_of_resolver (hresolver : resolverOf s.contracts s.packageName = .ok r)
    (hown : env.breakdown .markupJudge code.toList = none) :
    (judgeBatch env .components s [.str code]).batch.outcomes = [(attemptMarkup env r code.toList).outcome] := by
  have hjudge : judgeFor env .components s = .ok (fragileJudge env .markupJudge (accountMarkup env r)) := by
    rw [judgeFor, hresolver]
    rfl
  have hguarded : guarded (fragileJudge env .markupJudge (accountMarkup env r)) (.str code) =
      attemptMarkup env r code.toList := by
    simp [guarded, fragileJudge, Value.string?, hown, accountMarkup]
  rw [judgeBatch_of_judge (List.cons_ne_nil _ _) hjudge]
  simp [Batch.ofOutcomes, hguarded]

theorem outcomes_of_error {e : ResolverError} (hresolver : resolverOf s.contracts s.packageName = .error e) :
    (judgeBatch env .components s [.str code]).batch.outcomes = [withoutJudge e] := by
  have hjudge : judgeFor env .components s = .error e := by
    rw [judgeFor, hresolver]
    rfl
  rw [judgeBatch_of_error (List.cons_ne_nil _ _) hjudge]
  rfl

/-- Nothing is left of an empty snippet, so that it passes unless getting at its code breaks down. -/
theorem attemptMarkup_nil_verdict (env : Environment) (r : Resolver) :
    (attemptMarkup env r []).outcome.verdict =
      if env.breakdown .markupExtraction [] = none then .success else .failed := by
  have hcleaned : Extraction.extract Extraction.markup [] = [] := by decide
  rw [attemptMarkup, markupBreakdown?]
  cases env.breakdown .markupExtraction [] with
  | none => simp [hcleaned, judgeMarkup, nothingFound, Outcome.success]
  | some message => simp [Outcome.failed]

/-! ## Both ways -/

/-- The snippet is empty, and a batch has a judge for it that comes to an end. -/
def Unread (env : Environment) (s : Setup) (code : String) : Prop :=
  code = "" ∧ (∃ r, resolverOf s.contracts s.packageName = .ok r) ∧ env.breakdown .markupExtraction [] = none

/-- The two ways of judging a snippet of markup agree, whatever the snippet, the contracts and the package are,
unless the snippet is empty and a batch has a judge for it. Every run of the batch delivers one and the same
outcome, and its verdict is that of the snippet on its own, exactly where this is not the case. -/
theorem entry_points_agree_iff (env : Environment) (s : Setup) (maxWorkers : Int) (code : String)
    (hown : env.breakdown .markupJudge code.toList = none) :
    ∃ o : Outcome,
      (∃ record, Delivers env .components s maxWorkers [.str code] (.ok record)) ∧
      (∀ result, Delivers env .components s maxWorkers [.str code] result →
        ∃ record, result = .ok record ∧ record.batch.outcomes = [o]) ∧
      (o.verdict = (judgeComponents env (s.request code)).outcome.verdict ↔ ¬ Unread env s code) := by
  have hdelivers {o : Outcome} (ho : (judgeBatch env .components s [.str code]).batch.outcomes = [o]) :
      ∀ result, Delivers env .components s maxWorkers [.str code] result →
        ∃ record, result = .ok record ∧ record.batch.outcomes = [o] := by
    intro result hresult
    obtain ⟨events, -, rfl⟩ := eq_of_delivers hresult
    exact ⟨_, rfl, ho⟩
  have hexists := exists_delivers env .components s maxWorkers [.str code]
  cases hresolver : resolverOf s.contracts s.packageName with
  | error e =>
    refine ⟨withoutJudge e, hexists, hdelivers (outcomes_of_error hresolver), ?_⟩
    have hread : ¬ Unread env s code := by
      rintro ⟨-, ⟨r, hr⟩, -⟩
      rw [hresolver] at hr
      cases hr
    rw [withoutJudge_verdict, failed_judgeComponents hresolver]
    exact iff_of_true rfl hread
  | ok r =>
    refine ⟨_, hexists, hdelivers (outcomes_of_resolver hresolver hown), ?_⟩
    by_cases hcode : code = ""
    · subst hcode
      have hrefused : (judgeComponents env (s.request "")).outcome.verdict = .failed := rfl
      have hunread : Unread env s "" ↔ env.breakdown .markupExtraction [] = none :=
        ⟨fun h => h.2.2, fun h => ⟨rfl, ⟨r, hresolver⟩, h⟩⟩
      rw [hrefused, hunread, String.toList_empty, attemptMarkup_nil_verdict]
      split
      · next hnone => simp [hnone]
      · next hsome => simp [hsome]
    · rw [judgeComponents_of_resolver hresolver hcode]
      exact iff_of_true rfl fun h => hcode h.1

/-- A card with its contract passes in both ways. -/
theorem entry_points_agree_card :
    cardEnvironment.breakdown .markupJudge (String.ofList cardSnippet).toList = none ∧
      ¬ Unread cardEnvironment { contracts := .contracts cardContracts } (String.ofList cardSnippet) ∧
      ∃ o : Outcome,
        (∀ result, Delivers cardEnvironment .components { contracts := .contracts cardContracts } 4
            [.str (String.ofList cardSnippet)] result →
          ∃ record, result = .ok record ∧ record.batch.outcomes = [o]) ∧
        o.verdict = (judgeComponents cardEnvironment
          (Setup.request { contracts := .contracts cardContracts } (String.ofList cardSnippet))).outcome.verdict := by
  have hread : ¬ Unread cardEnvironment { contracts := .contracts cardContracts } (String.ofList cardSnippet) :=
    fun h => absurd h.1 (by decide)
  obtain ⟨o, -, hdelivers, hagree⟩ := entry_points_agree_iff cardEnvironment
    { contracts := .contracts cardContracts } 4 (String.ofList cardSnippet) rfl
  exact ⟨rfl, hread, o, hdelivers, hagree.2 hread⟩

/-- With a built-in package, the empty snippet is refused on its own and passes in a batch. -/
theorem entry_points_differ :
    (judgeComponents cardEnvironment
        (Setup.request { packageName := some "@shopify/app-bridge-ui-types" } "")).outcome =
      .failed "Invalid input: code: String should have at least 1 character" ∧
    (∃ record, Delivers cardEnvironment .components { packageName := some "@shopify/app-bridge-ui-types" } 4
      [.str ""] (.ok record)) ∧
    ∀ record, Delivers cardEnvironment .components { packageName := some "@shopify/app-bridge-ui-types" } 4
        [.str ""] (.ok record) →
      record.batch.outcomes = [.success "No components found to validate."] := by
  have hbatch : (judgeBatch cardEnvironment .components { packageName := some "@shopify/app-bridge-ui-types" }
      [.str ""]).batch.outcomes = [.success "No components found to validate."] := by
    decide
  refine ⟨by decide, exists_delivers _ _ _ _ _, fun record hrecord => ?_⟩
  rw [batch_eq_of_delivers hrecord]
  exact hbatch

end SnippetAudit.Judge
