import SnippetAudit.Data.Sorted
import SnippetAudit.Schema.Reference

/-!
# Failures of a schema

Where a value does not meet a schema, a failure tells the place in the value, the rule that failed, and
why in words. Where a value cannot be judged, judging breaks down. That is told by a failure of its own
rule, at the point where judging came to a stop. Whoever asks for all failures is told of the breakdown
instead, and what stands behind it does not count.

## What this module delivers

- `PathStep`, `Failure`;
- `Failure.under`: a failure of a part, seen from the whole;
- `Breakdown`: why judging breaks down;
- `Failure.broken`, `firstBreakdown?`: where judging broke down;
- `sortByPath`: failures in the order of their places.
-/

set_option autoImplicit false

namespace SnippetAudit.Schema

/-- A step into a value: to a member or to an item. -/
inductive PathStep where
  | member (name : String)
  | item (index : Nat)
  deriving Repr, DecidableEq

/-- A step in words. -/
def PathStep.text : PathStep → String
  | .member name => name
  | .item index => toString index

/-- Why a value cannot be judged. -/
inductive Breakdown where
  /-- A reference that is to be judged by leads nowhere. -/
  | lostReference (lost : Lost)
  /-- A reference leads nowhere, and it is asked what judging by it has looked at. -/
  | lostInside (lost : Lost)
  /-- A reference leads to a value that is no schema, for the given reason. -/
  | refusedTarget (reason : String)
  /-- Judging comes back to where it started. -/
  | endless
  /-- Expressions for names cannot be searched for as one. -/
  | unreadable (expressions : String)
  /-- A whole number is beyond all floating-point numbers. -/
  | tooLarge
  /-- A quotient is not a number. -/
  | noQuotient
  /-- A multiple is asked for among infinite numbers. -/
  | infinite
  deriving Repr, DecidableEq

/-- The wording of a breakdown. -/
def Breakdown.message : Breakdown → String
  | .lostReference lost => lost.text
  | .lostInside lost => lost.words
  | .refusedTarget reason => reason
  | .endless => "maximum recursion depth exceeded"
  | .unreadable expressions => "no expression: " ++ Text.quoteString expressions
  | .tooLarge => "int too large to convert to float"
  | .noQuotient => "cannot convert float NaN to integer"
  | .infinite => "cannot convert Infinity to integer ratio"

/-- The rule that failed, as far as it matters to others. -/
inductive Rule where
  /-- An object holds members that are not allowed. -/
  | additionalProperties
  /-- An object lacks one of these members. -/
  | required (names : List Value)
  /-- Judging broke down. -/
  | brokenDown (cause : Breakdown)
  | other
  deriving Repr

/-- A place where a value does not meet a schema. -/
structure Failure where
  path : List PathStep
  rule : Rule
  message : String
  deriving Repr

namespace Failure

/-- A failure of the value itself by no rule that matters to others. -/
def here (message : String) : Failure := ⟨[], .other, message⟩

/-- A failure of a part, seen from the whole. -/
def under (step : PathStep) (f : Failure) : Failure := { f with path := step :: f.path }

/-- The steps to the place in words. -/
def pathTexts (f : Failure) : List String := f.path.map PathStep.text

/-- Judging broke down. -/
def broken (cause : Breakdown) : Failure := ⟨[], .brokenDown cause, cause.message⟩

/-- Why judging broke down, if the failure tells of that. -/
def breakdown? (f : Failure) : Option Breakdown :=
  match f.rule with
  | .brokenDown cause => some cause
  | _ => none

@[simp]
theorem breakdown?_broken (cause : Breakdown) : (broken cause).breakdown? = some cause := rfl

@[simp]
theorem breakdown?_here (message : String) : (here message).breakdown? = none := rfl

@[simp]
theorem breakdown?_under (step : PathStep) (f : Failure) : (f.under step).breakdown? = f.breakdown? := rfl

end Failure

/-- Why judging broke down, by the first failure that tells of that. -/
def firstBreakdown? (fs : List Failure) : Option Breakdown := fs.findSome? Failure.breakdown?

theorem firstBreakdown?_eq_none_iff {fs : List Failure} :
    firstBreakdown? fs = none ↔ ∀ f ∈ fs, f.breakdown? = none :=
  List.findSome?_eq_none_iff

/-- Failures in the order of their places, compared step by step as words; those of one place keep
their order. -/
def sortByPath (fs : List Failure) : List Failure :=
  Sorted.sortBy (fun f g => Sorted.textBefore f.pathTexts g.pathTexts) fs

end SnippetAudit.Schema
