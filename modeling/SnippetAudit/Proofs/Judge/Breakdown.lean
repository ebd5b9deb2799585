import SnippetAudit.Proofs.Judge.Explanation
import SnippetAudit.Proofs.Judge.Script

/-!
# What breaks down fails

Judging a snippet goes through several hands: the judge of its kind, the extraction of its code, a parser,
and the contracts that a caller may submit. Wherever one of them breaks down on a snippet, the snippet fails.

## What this module delivers

- `stepsOf`: the steps of judging a snippet, each with the text on which it may break down;
- `BreaksDown`: some step, or a contract, breaks down on a snippet;
- `failed_of_breaksDown`: the snippet fails then.
-/

set_option autoImplicit false

namespace SnippetAudit.Judge

open Component Contract

/-! ## Where judging may break down -/

/-- The parsing of what is left of a snippet, if anything is left. -/
def parsingOf (stage : Stage) (cleaned : Text) : List (Stage × Text) :=
  if cleaned.isEmpty then [] else [(stage, cleaned)]

/-- The steps of getting at a script and parsing it. -/
def scriptSteps (extraction : Stage) (t : Text) : List (Stage × Text) :=
  (extraction, t) :: parsingOf .parse (Extraction.extract Extraction.fenced t)

/-- The steps of judging a snippet, each with the text on which it may break down. -/
def stepsOf (kind : CodeKind) (extracted : Bool) (t : Text) : List (Stage × Text) :=
  match kind with
  | .javascript => (.javascriptJudge, t) :: scriptSteps .scriptExtraction t
  | .typescript => (.typescriptJudge, t) :: scriptSteps .scriptExtraction t
  | .rust => (.rustJudge, t) :: scriptSteps .rustExtraction t
  | .graphql =>
    (.operationJudge, t) ::
      if extracted then [(.operationParse, t)]
      else (.payloadExtraction, t) :: (Markdown.findOperations t).map fun o => (.operationParse, o)
  | .components =>
    [(.markupJudge, t), (.markupExtraction, t)] ++
      parsingOf .markupParse (Extraction.extract Extraction.markup t)

/-- Judging a snippet breaks down somewhere: at one of its steps, or at a contract of its components. -/
inductive BreaksDown (env : Environment) (kind : CodeKind) (s : Setup) (t : Text) : Prop where
  | step (stage : Stage) (part : Text) (hstep : (stage, part) ∈ stepsOf kind s.extracted t)
      (h : (env.breakdown stage part).isSome = true)
  | contract (r : Resolver) (u : Usage) (hkind : kind = .components)
      (hresolver : resolverOf s.contracts s.packageName = .ok r)
      (hcode : Extraction.extract Extraction.markup t ≠ [])
      (hu : u ∈ (findUsages env r.walkRules (Extraction.extract Extraction.markup t)).usages)
      (h : (inspect r u).breakdown?.isSome = true)

theorem mem_parsingOf_iff {stage stage' : Stage} {cleaned part : Text} :
    (stage', part) ∈ parsingOf stage cleaned ↔ cleaned ≠ [] ∧ stage' = stage ∧ part = cleaned := by
  unfold parsingOf
  cases cleaned <;> simp

/-! ## The guard -/

/-- A snippet fails unless its judge comes to something else. -/
theorem failed_guarded {env : Environment} {own : Stage} {judge : Value → Account} {t : String}
    (h : env.breakdown own t.toList = none → (judge (.str t)).outcome.verdict = .failed) :
    (guarded (fragileJudge env own judge) (.str t)).outcome.verdict = .failed := by
  simp only [guarded, fragileJudge, Value.string?, Option.bind_some]
  cases hown : env.breakdown own t.toList with
  | some message => rfl
  | none => exact h hown

/-- A snippet fails on which the judge itself breaks down, or one of its later steps if that is enough. -/
theorem failed_guarded_of_step {env : Environment} {own stage : Stage} {part : Text}
    {judge : Value → Account} {t : String} {later : List (Stage × Text)}
    (hstep : (stage, part) ∈ (own, t.toList) :: later) (h : (env.breakdown stage part).isSome = true)
    (hlater : (stage, part) ∈ later → (judge (.str t)).outcome.verdict = .failed) :
    (guarded (fragileJudge env own judge) (.str t)).outcome.verdict = .failed := by
  refine failed_guarded fun hown => ?_
  obtain hfirst | hmem := List.mem_cons.1 hstep
  · obtain ⟨rfl, rfl⟩ := Prod.mk.inj hfirst
    rw [hown] at h
    exact absurd h Bool.false_ne_true
  · exact hlater hmem

/-! ## Scripts -/

theorem eq_of_nonEmptyText_str {field t u : String} (h : nonEmptyText field (.str t) = .ok u) : t = u :=
  Value.str.inj ((nonEmptyText_eq_ok_iff field (.str t) u).1 h).1

theorem failed_judgeSource {env : Environment} {extraction stage : Stage} {part : Text}
    (g : Syntax.Grammar) {t : String} (hstep : (stage, part) ∈ scriptSteps extraction t.toList)
    (h : (env.breakdown stage part).isSome = true) :
    (judgeSource env extraction g (.str t)).verdict = .failed := by
  unfold judgeSource
  cases hread : nonEmptyText "code" (.str t) with
  | error issue => rfl
  | ok u =>
    obtain rfl := eq_of_nonEmptyText_str hread
    obtain ⟨message, hmessage⟩ := Option.isSome_iff_exists.1 h
    simp only [Environment.attempt]
    cases hextraction : env.breakdown extraction t.toList with
    | some other => rfl
    | none =>
      obtain hfirst | hparse := List.mem_cons.1 hstep
      · obtain ⟨rfl, rfl⟩ := Prod.mk.inj hfirst
        rw [hextraction] at hmessage
        cases hmessage
      · obtain ⟨hcode, rfl, rfl⟩ := mem_parsingOf_iff.1 hparse
        simp [hcode, judgeSyntax, Environment.attempt, hmessage, parseFailure, Outcome.failed]

theorem failed_judgeScript {env : Environment} {stage : Stage} {part : Text} {g : Syntax.Grammar}
    (hg : g ∈ Syntax.Grammar.scripts) {t : String}
    (hstep : (stage, part) ∈ scriptSteps .scriptExtraction t.toList)
    (h : (env.breakdown stage part).isSome = true) :
    (judgeScript env g.name (.str t)).verdict = .failed := by
  rw [judgeScript_name hg]
  exact failed_judgeSource g hstep h

/-! ## Operations -/

/-- A request fails if judging breaks down whenever it comes to that. -/
theorem failed_judgeRequest {c : Catalogue} {t : String} {schemaName : Value}
    {judge : Text → String → Except Mishap Outcome}
    (hjudge : ∀ name o, judge t.toList name ≠ .ok o) :
    (judgeRequest c (.str t) schemaName judge).verdict = .failed := by
  unfold judgeRequest
  split
  · next source name hread _ =>
    obtain rfl := eq_of_nonEmptyText_str hread
    split
    · cases houtcome : judge t.toList name with
      | ok o => exact absurd houtcome (hjudge name o)
      | error m => rfl
    · rfl
  · rfl

theorem judgeSource?_ne_ok {breakdown : Breakdowns} {source : Text}
    (h : (breakdown .operationParse source).isSome = true) (s : GraphQL.Schema) (schemaName : String)
    (o : Outcome) : judgeSource? breakdown s schemaName source ≠ .ok o := by
  obtain ⟨message, hmessage⟩ := Option.isSome_iff_exists.1 h
  simp [judgeSource?, hmessage]

theorem judgeOperations_ne_ok {breakdown : Breakdowns} {operations : List Text} {source : Text}
    (hmem : source ∈ operations) (h : (breakdown .operationParse source).isSome = true) (c : Catalogue)
    (schemaName : String) (o : Outcome) : judgeOperations breakdown c schemaName operations ≠ .ok o := by
  intro hok
  obtain ⟨s, outcomes, -, houtcomes, -⟩ :=
    exists_outcomes_of_judgeOperations (List.ne_nil_of_mem hmem) hok
  have hresult : judgeSource? breakdown s schemaName source ∈ outcomes.map Except.ok := by
    rw [← mapM_eq_ok_iff.1 houtcomes]
    exact List.mem_map_of_mem hmem
  obtain ⟨outcome, -, houtcome⟩ := List.mem_map.1 hresult
  exact judgeSource?_ne_ok h s schemaName outcome houtcome.symm

theorem failed_judgeByRequest {env : Environment} {s : Setup} {t : String} {stage : Stage} {part : Text}
    (hstep : (stage, part) ∈ if s.extracted then [(Stage.operationParse, t.toList)]
      else (.payloadExtraction, t.toList) ::
        (Markdown.findOperations t.toList).map fun o => (.operationParse, o))
    (h : (env.breakdown stage part).isSome = true) :
    (judgeByRequest env s (.str t)).verdict = .failed := by
  unfold judgeByRequest
  split
  · next hextracted =>
    rw [if_pos hextracted, List.mem_singleton] at hstep
    obtain ⟨rfl, rfl⟩ := Prod.mk.inj hstep
    refine failed_judgeRequest fun name o => ?_
    cases schemaOf s.catalogue name with
    | error m => simp
    | ok schema => exact judgeSource?_ne_ok h schema name o
  · next hextracted =>
    rw [if_neg hextracted] at hstep
    refine failed_judgeRequest fun name o => ?_
    obtain hfirst | hparse := List.mem_cons.1 hstep
    · obtain ⟨rfl, rfl⟩ := Prod.mk.inj hfirst
      obtain ⟨message, hmessage⟩ := Option.isSome_iff_exists.1 h
      simp [operationsOf, hmessage]
    · obtain ⟨source, hsource, heq⟩ := List.mem_map.1 hparse
      obtain ⟨rfl, rfl⟩ := Prod.mk.inj heq
      cases hextraction : env.breakdown .payloadExtraction t.toList with
      | some message => simp [operationsOf, hextraction]
      | none =>
        simp only [operationsOf, hextraction]
        exact judgeOperations_ne_ok hsource h s.catalogue name o

/-! ## Markup -/

theorem failed_attemptMarkup {env : Environment} {r : Resolver} {t : Text} {stage : Stage} {part : Text}
    (hstep : (stage, part) ∈ (.markupExtraction, t) ::
      parsingOf .markupParse (Extraction.extract Extraction.markup t))
    (h : (env.breakdown stage part).isSome = true) :
    (attemptMarkup env r t).outcome.verdict = .failed := by
  have hbreakdown : (markupBreakdown? env t).isSome = true := by
    unfold markupBreakdown?
    cases hextraction : env.breakdown .markupExtraction t with
    | some message => rfl
    | none =>
      obtain hfirst | hparse := List.mem_cons.1 hstep
      · obtain ⟨rfl, rfl⟩ := Prod.mk.inj hfirst
        rw [hextraction] at h
        exact absurd h Bool.false_ne_true
      · obtain ⟨hcode, rfl, rfl⟩ := mem_parsingOf_iff.1 hparse
        simpa [hcode] using h
  obtain ⟨message, hmessage⟩ := Option.isSome_iff_exists.1 hbreakdown
  simp [attemptMarkup, hmessage, Outcome.failed]

theorem failed_accountOf {usages : List Usage} {findings : List Finding} {f : Finding}
    (hf : f ∈ findings) (h : f.breakdown?.isSome = true) :
    (accountOf usages findings).outcome.verdict = .failed := by
  have hfound : (findings.findSome? Finding.breakdown?).isSome = true :=
    List.findSome?_isSome_iff.2 ⟨f, hf, h⟩
  obtain ⟨message, hmessage⟩ := Option.isSome_iff_exists.1 hfound
  simp [accountOf, hmessage, Outcome.failed]

/-- A contract that breaks down on one of the usages of a snippet lets the snippet fail. -/
theorem failed_judgeMarkup {env : Environment} {r : Resolver} {t : Text} {u : Usage}
    (hcode : Extraction.extract Extraction.markup t ≠ [])
    (hu : u ∈ (findUsages env r.walkRules (Extraction.extract Extraction.markup t)).usages)
    (h : (inspect r u).breakdown?.isSome = true) : (judgeMarkup env r t).outcome.verdict = .failed := by
  unfold judgeMarkup
  simp only [List.isEmpty_eq_false_iff.2 hcode, Bool.false_eq_true, if_false]
  split
  · next hnone =>
    rw [hnone] at hu
    exact absurd hu List.not_mem_nil
  · exact failed_accountOf (List.mem_map_of_mem hu) h

/-! ## All kinds -/

/-- A snippet on which judging breaks down somewhere fails. -/
theorem failed_of_breaksDown {env : Environment} {kind : CodeKind} {s : Setup} {judge : SnippetJudge}
    (hjudge : judgeFor env kind s = .ok judge) {t : String} (h : BreaksDown env kind s t.toList) :
    (guarded judge (.str t)).outcome.verdict = .failed := by
  cases h with
  | step stage part hstep h =>
    cases kind with
    | javascript =>
      cases hjudge
      exact failed_guarded_of_step hstep h fun hlater =>
        failed_judgeScript (g := .javascript) (by decide) hlater h
    | typescript =>
      cases hjudge
      exact failed_guarded_of_step hstep h fun hlater =>
        failed_judgeScript (g := .typescript) (by decide) hlater h
    | rust =>
      cases hjudge
      exact failed_guarded_of_step hstep h fun hlater => failed_judgeSource .rust hlater h
    | graphql =>
      cases hjudge
      exact failed_guarded_of_step hstep h fun hlater => failed_judgeByRequest hlater h
    | components =>
      obtain ⟨r, -, rfl⟩ := exists_resolver_of_judgeFor hjudge
      exact failed_guarded_of_step hstep h fun hlater => failed_attemptMarkup hlater h
  | contract r u hkind hresolver hcode hu h =>
    subst hkind
    obtain ⟨r', hr', rfl⟩ := exists_resolver_of_judgeFor hjudge
    obtain rfl : r = r' := Except.ok.inj (hresolver.symm.trans hr')
    refine failed_guarded fun _ => ?_
    rw [accountMarkup, attemptMarkup]
    split
    · rfl
    · exact failed_judgeMarkup hcode hu h

end SnippetAudit.Judge
