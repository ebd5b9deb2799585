import SnippetAudit.Proofs.Judge.Operation

/-!
# A batch skips only when there is nothing to judge

A snippet that is found in markdown either passes or fails: every judge decides on whatever it is given, and
what breaks down fails. An operation in particular goes to the parser as it was found, and is not searched for
operations once more. So the only outcome that skips is the one that stands for a batch without snippets.

## What this module delivers

- `Outcome.Decided`: outcomes that pass or fail;
- `decided_judgeOperation`, `decided_attemptMarkup`, `decided_judgeScript`: single snippets are decided;
- `decided_guarded`: so are all snippets of markdown, whatever happens to their judges;
- `SkipsAptly`: what a batch holds for the snippets that were found;
- `skips_iff_nothing_found`: a batch of snippets from markdown skips exactly when it has none.
-/

set_option autoImplicit false

namespace SnippetAudit

/-- The outcome passes or fails. -/
def Outcome.Decided (o : Outcome) : Prop := o.verdict = .success ∨ o.verdict = .failed

namespace Outcome

@[simp] theorem decided_success (detail : String) : (success detail).Decided := Or.inl rfl

@[simp] theorem decided_failed (detail : String) : (failed detail).Decided := Or.inr rfl

theorem Decided.verdict_ne {o : Outcome} (h : o.Decided) : o.verdict ≠ .skipped := by
  rcases h with h | h <;> rw [h] <;> decide

end Outcome

/-- A batch with outcomes is valid when all of them pass. -/
theorem Batch.valid_ofOutcomes_iff {outcomes : List Outcome} (h : outcomes ≠ []) :
    (Batch.ofOutcomes outcomes).valid = true ↔ ∀ o ∈ outcomes, o.verdict = .success := by
  simp [Batch.ofOutcomes, h]

namespace Judge

open Outcome Contract Markdown

/-! ## Scripts -/

theorem decided_judgeSyntax (env : Environment) (g : Syntax.Grammar) (label : String) (source : Text) :
    (judgeSyntax env g label source).Decided := by
  unfold judgeSyntax judgeTree parseFailure
  repeat' split
  all_goals simp

theorem decided_judgeSource (env : Environment) (stage : Stage) (g : Syntax.Grammar) (code : Value) :
    (judgeSource env stage g code).Decided := by
  unfold judgeSource
  split
  · simp
  · split
    · simp
    · split
      · simp
      · exact decided_judgeSyntax env g g.label _

theorem decided_judgeScript (env : Environment) (name : String) (code : Value) :
    (judgeScript env name code).Decided := by
  unfold judgeScript
  split
  · exact decided_judgeSource env .scriptExtraction _ code
  · simp

/-! ## Operations -/

theorem decided_judgeSource? {breakdown : Breakdowns} {s : GraphQL.Schema} {schemaName : String}
    {source : Text} {o : Outcome} (h : judgeSource? breakdown s schemaName source = .ok o) : o.Decided := by
  unfold judgeSource? at h
  split at h
  · cases h
  · cases h
    exact decided_failed _
  · split at h
    · cases h
    · cases h
      unfold judgeDocument
      split <;> simp

/-- An operation is decided, also one of which nothing but comments is left: the parser refuses that. -/
theorem decided_judgeOperation (c : Catalogue) (code schemaName : Value) (breakdown : Breakdowns) :
    (judgeOperation c code schemaName breakdown).Decided := by
  unfold judgeOperation judgeRequest
  split
  · split
    · split
      · next houtcome =>
        dsimp only at houtcome
        split at houtcome
        · cases houtcome
        · exact decided_judgeSource? houtcome
      · exact decided_failed _
    · exact decided_failed _
  · exact decided_failed _

/-! ## Markup -/

theorem decided_attemptMarkup (env : Environment) (r : Resolver) (code : Text) :
    (attemptMarkup env r code).outcome.Decided := by
  unfold attemptMarkup judgeMarkup accountOf outcomeOf nothingFound
  dsimp only
  repeat' split
  all_goals simp

/-! ## Batches -/

theorem decided_fragileJudge {env : Environment} {stage : Stage} {judge : Value → Account}
    (hjudge : ∀ v : Value, (judge v).outcome.Decided) (code : Value) :
    (guarded (fragileJudge env stage judge) code).outcome.Decided := by
  unfold guarded fragileJudge
  split
  · next haccount =>
    split at haccount
    · cases haccount
    · cases haccount
      exact hjudge code
  · exact decided_failed _

/-- A snippet that was found in markdown is decided, whatever happens to its judge. -/
theorem decided_guarded {env : Environment} {kind : CodeKind} {s : Setup} {judge : SnippetJudge}
    (hextracted : s.extracted = true) (hjudge : judgeFor env kind s = .ok judge) (code : Value) :
    (guarded judge code).outcome.Decided := by
  cases kind with
  | javascript =>
    cases hjudge
    exact decided_fragileJudge (decided_judgeScript env "javascript") code
  | typescript =>
    cases hjudge
    exact decided_fragileJudge (decided_judgeScript env "typescript") code
  | rust =>
    cases hjudge
    exact decided_fragileJudge (decided_judgeSource env .rustExtraction .rust) code
  | graphql =>
    cases hjudge
    refine decided_fragileJudge (fun v => ?_) code
    rw [uncounted, judgeByRequest, if_pos hextracted]
    exact decided_judgeOperation s.catalogue v s.schemaName env.breakdown
  | components =>
    obtain ⟨r, -, rfl⟩ := exists_resolver_of_judgeFor hjudge
    refine decided_fragileJudge (fun v => ?_) code
    unfold accountMarkup
    split
    · exact decided_attemptMarkup env r _
    · exact decided_failed _

/-- What a batch holds for the snippets that were found in a text. -/
structure SkipsAptly (found : List Text) (b : Batch) : Prop where
  /-- An outcome skips exactly when there are no snippets. -/
  skipped_iff : (∃ o ∈ b.outcomes, o.verdict = .skipped) ↔ found = []
  /-- It is the only one then, and the batch is not valid. -/
  skipped_alone : found = [] → (∃ o : Outcome, b.outcomes = [o] ∧ o.verdict = .skipped) ∧ b.valid = false
  /-- Each snippet has an outcome. -/
  one_each : found ≠ [] → b.outcomes.length = found.length
  /-- The snippet passes or fails. -/
  decided : found ≠ [] → ∀ o ∈ b.outcomes, o.verdict = .success ∨ o.verdict = .failed
  /-- The batch is valid when all snippets pass. -/
  valid_iff : found ≠ [] → (b.valid = true ↔ ∀ o ∈ b.outcomes, o.verdict = .success)

/-- Decided outcomes, one for each snippet, make such a batch. -/
theorem skipsAptly_of_decided {found : List Text} {outcomes : List Outcome} (hfound : found ≠ [])
    (hlength : outcomes.length = found.length) (hdecided : ∀ o ∈ outcomes, o.Decided) :
    SkipsAptly found (.ofOutcomes outcomes) where
  skipped_iff := by
    refine iff_of_false ?_ hfound
    rintro ⟨o, ho, hskipped⟩
    exact (hdecided o ho).verdict_ne hskipped
  skipped_alone hnone := absurd hnone hfound
  one_each _ := hlength
  decided _ := hdecided
  valid_iff _ := by
    apply Batch.valid_ofOutcomes_iff
    rintro rfl
    exact hfound (List.eq_nil_of_length_eq_zero hlength.symm)

theorem skipsAptly_emptyRecord (kind : CodeKind) : SkipsAptly [] (emptyRecord kind).batch where
  skipped_iff := iff_of_true ⟨nothingToJudge kind, List.mem_singleton_self _, rfl⟩ rfl
  skipped_alone _ := ⟨⟨nothingToJudge kind, rfl, rfl⟩, rfl⟩
  one_each hne := absurd rfl hne
  decided hne := absurd rfl hne
  valid_iff hne := absurd rfl hne

theorem skipsAptly_judgeMarkdown (env : Environment) (kind : CodeKind) (s : Setup) (t : Text) :
    SkipsAptly (findBlocks kind t) (judgeMarkdown env kind s t).batch := by
  rw [judgeMarkdown]
  by_cases hfound : findBlocks kind t = []
  case pos =>
    have hnone : snippetsIn kind t = [] := List.map_eq_nil_iff.2 hfound
    rw [hnone, hfound]
    exact skipsAptly_emptyRecord kind
  case neg =>
    have hne : snippetsIn kind t ≠ [] := mt List.map_eq_nil_iff.1 hfound
    have hlength : (snippetsIn kind t).length = (findBlocks kind t).length := List.length_map _
    cases hjudge : judgeFor env kind { s with extracted := true } with
    | error e =>
      rw [judgeBatch_of_error hne hjudge]
      refine skipsAptly_of_decided hfound (by rw [List.length_map, hlength]) fun o ho => ?_
      obtain ⟨_, _, rfl⟩ := List.mem_map.1 ho
      exact Or.inr (withoutJudge_verdict e)
    | ok judge =>
      rw [judgeBatch_of_judge hne hjudge]
      refine skipsAptly_of_decided hfound (by rw [List.length_map, hlength]) fun o ho => ?_
      obtain ⟨code, _, rfl⟩ := List.mem_map.1 ho
      exact decided_guarded rfl hjudge code

/-- Judging the snippets of a markdown text on a pool comes to a batch, whatever the kind, the setup and the
environment are. Whatever the schedule, the batch skips exactly when there are no snippets, and with nothing
else in it; otherwise it holds for each snippet an outcome that passes or fails, and it is valid when all
pass. -/
theorem skips_iff_nothing_found (env : Environment) (kind : CodeKind) (s : Setup) (maxWorkers : Int) (t : Text) :
    (∃ (schedule : List Nat) (record : Record),
      judgeMarkdownOnPool env kind s maxWorkers t schedule = some (.ok record)) ∧
    ∀ (schedule : List Nat) (result : Except String Record),
      judgeMarkdownOnPool env kind s maxWorkers t schedule = some result →
        ∃ record : Record, result = .ok record ∧ SkipsAptly (findBlocks kind t) record.batch := by
  constructor
  · obtain ⟨record, schedule, hrecord⟩ :=
      exists_delivers env kind { s with extracted := true } maxWorkers (snippetsIn kind t)
    exact ⟨schedule, record, hrecord⟩
  · intro schedule result hresult
    obtain ⟨events, -, rfl⟩ := eq_of_delivers ⟨schedule, hresult⟩
    exact ⟨_, rfl, skipsAptly_judgeMarkdown env kind s t⟩

/-- The payload with two operations has an outcome for each; as Rust code it has nothing to judge. -/
theorem skips_iff_nothing_found_shop :
    (∃ record : Record,
      judgeMarkdownOnPool calmEnvironment .graphql shopSetup 8 shopPayload.toList shopSchedule =
          some (.ok record) ∧
        record.batch.outcomes.length = 2 ∧ ∀ o ∈ record.batch.outcomes, o.verdict ≠ .skipped) ∧
      ∃ record : Record,
        judgeMarkdownOnPool calmEnvironment .rust shopSetup 8 shopPayload.toList [] = some (.ok record) ∧
          (∃ o : Outcome, record.batch.outcomes = [o] ∧ o.verdict = .skipped) ∧ record.batch.valid = false := by
  have hover : (judgeMarkdownOnPool calmEnvironment .graphql shopSetup 8 shopPayload.toList
      shopSchedule).isSome = true := by
    decide +kernel
  have htwo : (findBlocks .graphql shopPayload.toList).length = 2 := by decide +kernel
  have hnone : findBlocks .rust shopPayload.toList = [] := by decide +kernel
  have hrust : judgeMarkdownOnPool calmEnvironment .rust shopSetup 8 shopPayload.toList [] =
      some (.ok (emptyRecord .rust)) := by
    simp [judgeMarkdownOnPool, judgeOnPool, snippetsIn, hnone]
  obtain ⟨result, hresult⟩ := Option.isSome_iff_exists.1 hover
  obtain ⟨record, rfl, hrecord⟩ :=
    (skips_iff_nothing_found calmEnvironment .graphql shopSetup 8 shopPayload.toList).2 shopSchedule result hresult
  obtain ⟨empty, hempty, hskips⟩ :=
    (skips_iff_nothing_found calmEnvironment .rust shopSetup 8 shopPayload.toList).2 [] _ hrust
  have hfound : findBlocks .graphql shopPayload.toList ≠ [] := by
    rw [← List.length_pos_iff, htwo]
    exact Nat.two_pos
  refine ⟨⟨record, hresult, (hrecord.one_each hfound).trans htwo, fun o ho => ?_⟩, empty, ?_,
    hskips.skipped_alone hnone⟩
  · exact Outcome.Decided.verdict_ne (hrecord.decided hfound o ho)
  · rw [hrust, hempty]

end Judge

end SnippetAudit
