import SnippetAudit.Judge.Batch

/-!
# Every outcome is explained

An outcome cannot be made without an explanation. The judges of all kinds keep to that: whatever a snippet
looks like, whatever breaks down on the way, the explanation of its outcome is not empty.

## What this module delivers

- `mapM_eq_ok_iff`, `exists_error_of_mapM`: checking all entries of a list;
- `Outcome.Explained`: the explanation is not empty;
- `explained_judgeSource`, `explained_judgeRequest`, `explained_attemptMarkup`: what the judges say;
- `explained_of_judgeFor`, `explained_guarded`: so says every judge of a batch, broken down or not.
-/

set_option autoImplicit false

namespace SnippetAudit

section Checked

variable {α β ε : Type} {f : α → Except ε β}

/-- All entries of a list check exactly when each does, and give their results in order. -/
theorem mapM_eq_ok_iff {xs : List α} {ys : List β} :
    xs.mapM f = .ok ys ↔ xs.map f = ys.map .ok := by
  induction xs generalizing ys with
  | nil => cases ys <;> simp [pure, Except.pure]
  | cons x xs ih =>
    rw [List.mapM_cons, List.map_cons]
    cases hx : f x with
    | error e => cases ys <;> simp [bind, Except.bind]
    | ok y =>
      cases hxs : xs.mapM f with
      | error e => cases ys <;> simp [bind, Except.bind, ← ih, hxs]
      | ok zs => cases ys <;> simp [bind, Except.bind, pure, Except.pure, ← ih, hxs]

/-- Where a list of entries does not check, some entry does not. -/
theorem exists_error_of_mapM {xs : List α} {e : ε} (h : xs.mapM f = .error e) :
    ∃ x ∈ xs, f x = .error e := by
  induction xs with
  | nil => cases h
  | cons x xs ih =>
    rw [List.mapM_cons] at h
    cases hx : f x with
    | error e' =>
      rw [hx] at h
      cases h
      exact ⟨x, List.mem_cons_self, hx⟩
    | ok y =>
      cases hxs : xs.mapM f with
      | error e' =>
        rw [hx, hxs] at h
        cases h
        obtain ⟨z, hz, hfz⟩ := ih hxs
        exact ⟨z, List.mem_cons_of_mem x hz, hfz⟩
      | ok zs =>
        rw [hx, hxs] at h
        cases h

theorem exists_of_mem_of_mapM {xs : List α} {ys : List β} (h : xs.mapM f = .ok ys) {y : β} (hy : y ∈ ys) :
    ∃ x ∈ xs, f x = .ok y := by
  have hmem : Except.ok y ∈ xs.map f := by
    rw [mapM_eq_ok_iff.1 h]
    exact List.mem_map_of_mem hy
  exact List.mem_map.1 hmem

end Checked

/-- The outcome comes with an explanation. -/
def Outcome.Explained (o : Outcome) : Prop := o.detail ≠ ""

namespace Outcome

@[simp] theorem explained_success (detail : String) : (success detail).Explained ↔ detail ≠ "" := Iff.rfl

@[simp] theorem explained_failed (detail : String) : (failed detail).Explained ↔ detail ≠ "" := Iff.rfl

@[simp] theorem explained_skipped (detail : String) : (skipped detail).Explained ↔ detail ≠ "" := Iff.rfl

/-- Exactly the outcomes with an explanation can be made. -/
theorem make_eq_ok_iff {verdict : Verdict} {detail : String} {o : Outcome} :
    make verdict detail = .ok o ↔ o = ⟨verdict, detail⟩ ∧ o.Explained := by
  unfold make
  split
  · next hempty =>
    refine iff_of_false (by simp) ?_
    rintro ⟨rfl, hexplained⟩
    exact hexplained hempty
  · next hne =>
    rw [Except.ok.injEq, eq_comm]
    exact ⟨fun h => ⟨h, h ▸ hne⟩, And.left⟩

end Outcome

namespace Judge

open Outcome Contract

theorem explained_describeIssues (issues : List Issue) : (failed (describeIssues issues)).Explained := by
  unfold describeIssues
  simp

/-! ## Scripts -/

theorem explained_judgeSyntax (env : Environment) (g : Syntax.Grammar) (label : String) (source : Text) :
    (judgeSyntax env g label source).Explained := by
  unfold judgeSyntax judgeTree parseFailure
  repeat' split
  all_goals simp

theorem explained_judgeSource (env : Environment) (stage : Stage) (g : Syntax.Grammar) (code : Value) :
    (judgeSource env stage g code).Explained := by
  unfold judgeSource
  split
  · exact explained_describeIssues _
  · split
    · simp
    · split
      · simp
      · exact explained_judgeSyntax env g g.label _

theorem explained_judgeScript (env : Environment) (name : String) (code : Value) :
    (judgeScript env name code).Explained := by
  unfold judgeScript
  split
  · exact explained_judgeSource env .scriptExtraction _ code
  · simp

/-! ## Operations -/

theorem explained_judgeSource? {breakdown : Breakdowns} {s : GraphQL.Schema} {schemaName : String}
    {source : Text} {o : Outcome} (h : judgeSource? breakdown s schemaName source = .ok o) :
    o.Explained := by
  unfold judgeSource? at h
  split at h
  · cases h
  · cases h
    simp [syntaxFailure]
  · split at h
    · cases h
    · cases h
      unfold judgeDocument
      split <;> simp

theorem explained_mergeOperations {outcomes : List Outcome} {o : Outcome}
    (houtcomes : ∀ outcome ∈ outcomes, outcome.Explained) (h : mergeOperations outcomes = .ok o) :
    o.Explained := by
  unfold mergeOperations at h
  split at h
  · cases h
    exact houtcomes o (List.mem_singleton_self o)
  · cases hmerge : Outcome.merge "Operation" outcomes with
    | error e =>
      rw [hmerge] at h
      cases h
    | ok merged =>
      rw [hmerge] at h
      cases h
      exact (make_eq_ok_iff.1 hmerge).2

/-- Operations that come to an outcome together come to an outcome each, under one schema. -/
theorem exists_outcomes_of_judgeOperations {breakdown : Breakdowns} {c : Catalogue} {schemaName : String}
    {operations : List Text} {o : Outcome} (hne : operations ≠ [])
    (h : judgeOperations breakdown c schemaName operations = .ok o) :
    ∃ s outcomes, schemaOf c schemaName = .ok s ∧
      operations.mapM (judgeSource? breakdown s schemaName) = .ok outcomes ∧
        mergeOperations outcomes = .ok o := by
  unfold judgeOperations at h
  split at h
  · exact absurd rfl hne
  · split at h
    · cases h
    · next s hs =>
      split at h
      · cases h
      · next outcomes houtcomes => exact ⟨s, outcomes, hs, houtcomes, h⟩

theorem explained_judgeOperations {breakdown : Breakdowns} {c : Catalogue} {schemaName : String}
    {operations : List Text} {o : Outcome}
    (h : judgeOperations breakdown c schemaName operations = .ok o) : o.Explained := by
  by_cases hne : operations = []
  case pos =>
    subst hne
    cases h
    simp [nothingToParse]
  case neg =>
    obtain ⟨s, outcomes, -, houtcomes, hmerge⟩ := exists_outcomes_of_judgeOperations hne h
    refine explained_mergeOperations (fun outcome hmem => ?_) hmerge
    obtain ⟨source, -, hsource⟩ := exists_of_mem_of_mapM houtcomes hmem
    exact explained_judgeSource? hsource

/-- A request is answered with an explanation if those outcomes have one that judging comes to. -/
theorem explained_judgeRequest {c : Catalogue} {code schemaName : Value}
    {judge : Text → String → Except Mishap Outcome}
    (hjudge : ∀ source name o, judge source name = .ok o → o.Explained) :
    (judgeRequest c code schemaName judge).Explained := by
  unfold judgeRequest
  split
  · split
    · split
      · next houtcome => exact hjudge _ _ _ houtcome
      · simp [afterMishap]
    · simp [unlisted]
  · exact explained_describeIssues _

theorem explained_judgeOperation (c : Catalogue) (code schemaName : Value) (breakdown : Breakdowns) :
    (judgeOperation c code schemaName breakdown).Explained := by
  refine explained_judgeRequest fun source name o h => ?_
  split at h
  · cases h
  · exact explained_judgeSource? h

theorem explained_judgePayload (c : Catalogue) (code schemaName : Value) (preset? : Option String)
    (breakdown : Breakdowns) : (judgePayload c code schemaName preset? breakdown).Explained := by
  refine explained_judgeRequest fun payload name o h => ?_
  split at h
  · cases h
  · exact explained_judgeOperations h

/-! ## Markup -/

theorem explained_judgeMarkup (env : Environment) (r : Resolver) (code : Text) :
    (judgeMarkup env r code).outcome.Explained := by
  unfold judgeMarkup accountOf outcomeOf nothingFound
  dsimp only
  repeat' split
  all_goals simp

theorem explained_attemptMarkup (env : Environment) (r : Resolver) (code : Text) :
    (attemptMarkup env r code).outcome.Explained := by
  unfold attemptMarkup
  split
  · simp
  · exact explained_judgeMarkup env r code

/-! ## Batches -/

theorem explained_brokenDown (message : String) : (brokenDown message).Explained := by
  simp [brokenDown]

theorem explained_fragileJudge {env : Environment} {stage : Stage} {judge : Value → Account} {code : Value}
    {a : Account} (hjudge : ∀ v : Value, (judge v).outcome.Explained)
    (h : fragileJudge env stage judge code = .ok a) : a.outcome.Explained := by
  unfold fragileJudge at h
  split at h
  · cases h
  · cases h
    exact hjudge code

/-- Components are judged under a resolver. -/
theorem exists_resolver_of_judgeFor {env : Environment} {s : Setup} {judge : SnippetJudge}
    (hjudge : judgeFor env .components s = .ok judge) :
    ∃ r, resolverOf s.contracts s.packageName = .ok r ∧
      judge = fragileJudge env .markupJudge (accountMarkup env r) := by
  rw [judgeFor] at hjudge
  cases hresolver : resolverOf s.contracts s.packageName with
  | error e =>
    rw [hresolver] at hjudge
    cases hjudge
  | ok r =>
    rw [hresolver] at hjudge
    cases hjudge
    exact ⟨r, rfl, rfl⟩

/-- The judge of every kind explains its outcomes. -/
theorem explained_of_judgeFor {env : Environment} {kind : CodeKind} {s : Setup} {judge : SnippetJudge}
    (hjudge : judgeFor env kind s = .ok judge) {code : Value} {a : Account} (h : judge code = .ok a) :
    a.outcome.Explained := by
  cases kind with
  | javascript =>
    cases hjudge
    exact explained_fragileJudge (explained_judgeScript env "javascript") h
  | typescript =>
    cases hjudge
    exact explained_fragileJudge (explained_judgeScript env "typescript") h
  | rust =>
    cases hjudge
    exact explained_fragileJudge (explained_judgeSource env .rustExtraction .rust) h
  | graphql =>
    cases hjudge
    refine explained_fragileJudge (fun v => ?_) h
    unfold uncounted judgeByRequest
    split
    · exact explained_judgeOperation s.catalogue v s.schemaName env.breakdown
    · exact explained_judgePayload s.catalogue v s.schemaName none env.breakdown
  | components =>
    obtain ⟨r, -, rfl⟩ := exists_resolver_of_judgeFor hjudge
    refine explained_fragileJudge (fun v => ?_) h
    unfold accountMarkup
    split
    · exact explained_attemptMarkup env r _
    · simp

/-- So does the guard around it. -/
theorem explained_guarded {env : Environment} {kind : CodeKind} {s : Setup} {judge : SnippetJudge}
    (hjudge : judgeFor env kind s = .ok judge) (code : Value) : (guarded judge code).outcome.Explained := by
  unfold guarded
  split
  · next h => exact explained_of_judgeFor hjudge h
  · exact explained_brokenDown _

theorem unsupportedPackage_message_ne_empty (e : UnsupportedPackage) : e.message ≠ "" := by
  unfold UnsupportedPackage.message
  -- the names of the packages do not matter, and computing them takes long
  generalize ", ".intercalate (packages.map Package.name) = names
  simp

/-- Where no judge can be set up, the explanation says why. -/
theorem explained_withoutJudge (e : ResolverError) : (withoutJudge e).Explained := by
  cases e with
  | unsupportedPackage e => exact unsupportedPackage_message_ne_empty e
  | _ => exact explained_brokenDown _

end Judge

end SnippetAudit
