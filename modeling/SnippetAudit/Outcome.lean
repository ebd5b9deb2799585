/-!
# Outcomes

Judging one snippet gives an outcome: a verdict and an explanation that is never empty. Several outcomes
of one snippet are merged into a single one whose explanation numbers them.

## What this module delivers

- `Verdict` and `Outcome`;
- `Outcome.make`: an outcome from any verdict and explanation, refused when the explanation is empty;
- `overallVerdict`: failure wins over success, and success over nothing judged;
- `Outcome.merge`: several outcomes as one.
-/

set_option autoImplicit false

namespace SnippetAudit

/-- What judging a snippet came to. -/
inductive Verdict where
  | success
  | failed
  /-- There was nothing to judge. -/
  | skipped
  deriving Repr, DecidableEq, Inhabited

namespace Verdict

/-- The name of a verdict. -/
def name : Verdict → String
  | .success => "success"
  | .failed => "failed"
  | .skipped => "skipped"

/-- The name of a verdict in capitals. -/
def label : Verdict → String
  | .success => "SUCCESS"
  | .failed => "FAILED"
  | .skipped => "SKIPPED"

/-- All verdicts. -/
def all : List Verdict := [.success, .failed, .skipped]

/-- The verdict of a name. -/
def ofName? (name : String) : Option Verdict := all.find? fun v => v.name == name

@[simp] theorem ofName?_name (v : Verdict) : ofName? v.name = some v := by
  cases v <;> decide

end Verdict

/-- A verdict with its explanation. -/
structure Outcome where
  verdict : Verdict
  detail : String
  deriving Repr, DecidableEq, Inhabited

/-- Why no outcome can be made. -/
inductive OutcomeError where
  | emptyDetail
  | unknownVerdict (name : String)
  deriving Repr, DecidableEq

/-- The wording of the refusals. -/
def OutcomeError.message : OutcomeError → String
  | .emptyDetail => "ValidationOutcome.detail must not be empty"
  | .unknownVerdict name => "'" ++ name ++ "' is not a valid Verdict"

namespace Outcome

/-- A success with its explanation. -/
def success (detail : String) : Outcome := ⟨.success, detail⟩

/-- A failure with its explanation. -/
def failed (detail : String) : Outcome := ⟨.failed, detail⟩

/-- Nothing to judge, with its explanation. -/
def skipped (detail : String) : Outcome := ⟨.skipped, detail⟩

/-- The outcome with a verdict and an explanation, which must not be empty. -/
def make (verdict : Verdict) (detail : String) : Except OutcomeError Outcome :=
  if detail = "" then .error .emptyDetail else .ok ⟨verdict, detail⟩

/-- The outcome with the verdict of a given name. -/
def ofNames (verdict detail : String) : Except OutcomeError Outcome :=
  match Verdict.ofName? verdict with
  | some v => make v detail
  | none => .error (.unknownVerdict verdict)

end Outcome

/-- Failure if anything failed, else success if anything succeeded, else nothing judged. -/
def overallVerdict (outcomes : List Outcome) : Verdict :=
  if outcomes.any fun o => o.verdict == .failed then .failed
  else if outcomes.any fun o => o.verdict == .success then .success
  else .skipped

@[simp] theorem overallVerdict_singleton (o : Outcome) : overallVerdict [o] = o.verdict := by
  cases h : o.verdict <;> simp [overallVerdict, h]

theorem overallVerdict_eq_failed_iff {outcomes : List Outcome} :
    overallVerdict outcomes = .failed ↔ ∃ o ∈ outcomes, o.verdict = .failed := by
  unfold overallVerdict
  split
  · next h => simpa using h
  · next h =>
    refine iff_of_false ?_ (by simpa using h)
    split <;> simp

namespace Outcome

/-- The explanations of outcomes, each with its number, counted from `first`, and its verdict. -/
def numberedDetails (label : String) (first : Nat) : List Outcome → List String
  | [] => []
  | o :: rest =>
    (label ++ " " ++ toString first ++ ": [" ++ o.verdict.label ++ "] " ++ o.detail) ::
      numberedDetails label (first + 1) rest

/-- Several outcomes as one with the overall verdict; no outcome at all leaves nothing to explain. -/
def merge (label : String) (outcomes : List Outcome) : Except OutcomeError Outcome :=
  make (overallVerdict outcomes) ("; ".intercalate (numberedDetails label 1 outcomes))

/-- The numbers alone make an explanation. -/
theorem merge_of_ne_nil (label : String) {outcomes : List Outcome} (h : outcomes ≠ []) :
    merge label outcomes =
      .ok ⟨overallVerdict outcomes, "; ".intercalate (numberedDetails label 1 outcomes)⟩ := by
  have hdetail : "; ".intercalate (numberedDetails label 1 outcomes) ≠ "" := by
    cases outcomes with
    | nil => exact absurd rfl h
    | cons o rest => cases rest <;> simp [numberedDetails, String.intercalate_cons_cons]
  rw [merge, make, if_neg hdetail]

end Outcome

end SnippetAudit
