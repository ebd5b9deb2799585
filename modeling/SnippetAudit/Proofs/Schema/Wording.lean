import SnippetAudit.Proofs.Schema.Origin

/-!
# Messages about values

An undeclared and a missing attribute are told apart from bad values by the message alone. So no message that
judging a value gives may be one of these two. A keyword has such messages of its own only, and hands on those of
subschemas. By induction on the budget the messages of all subschemas are as they should be.

## What this module delivers

- `Keyword.KeepsOrdinary`, `keepsOrdinary_of_mem_keywords`: the step from subschemas to a keyword;
- `failuresWithin_ordinary`: every message about a value is ordinary, but for those about breakdowns;
- `concernsValue_of_isOrdinary`: a violation with such a message concerns a value.
-/

set_option autoImplicit false

namespace SnippetAudit.Schema

/-! ## Failures -/

/-- The messages of all failures that tell of no breakdown are ordinary. -/
def AllOrdinary (fs : List Failure) : Prop := ∀ f ∈ fs, f.breakdown? = none → IsOrdinary f.message

/-! ## Keywords -/

/-- What is used of judging by subschemas: its messages are ordinary. -/
def Scope.Ordinary (scope : Scope) : Prop := ∀ schema v, AllOrdinary (scope.judge schema v)

/-- The messages of the keyword are ordinary when those of subschemas are. -/
def Keyword.KeepsOrdinary (keyword : Keyword) : Prop :=
  ∀ scope : Scope, scope.Ordinary → ∀ arg v, AllOrdinary (keyword scope arg v)

/-- Every keyword keeps messages ordinary. -/
theorem keepsOrdinary_of_mem_keywords : ∀ pair ∈ keywords, Keyword.KeepsOrdinary pair.2 := by
  intro pair hpair scope hscope arg v f hf
  cases arises_of_mem_keywords pair hpair scope arg v f hf with
  | here hmessage => exact fun _ => hmessage.isOrdinary
  | missing _ _ _ hmessage => exact fun _ => hmessage.isOrdinary
  | closed hmessage => exact fun _ => hmessage.isOrdinary
  | whole _ hjudged => exact hscope _ _ f hjudged
  | dependent _ hjudged => exact hscope _ _ f hjudged
  | name _ hjudged => exact hscope _ _ f hjudged
  | flag _ hjudged => exact hscope _ _ f hjudged
  | part _ hjudged =>
    -- the message of a part is handed on as it is
    have hmessage := hscope _ _ _ hjudged
    exact hmessage
  | stuck => exact fun hnone => absurd hnone (by simp)
  | lost => exact fun hnone => absurd hnone (by simp)
  | inside => exact fun hnone => absurd hnone (by simp)

/-! ## Whole schemas -/

/-- Every message about a value is ordinary, whatever the schema and the budget. -/
theorem failuresWithin_ordinary (root : Value) (manner : Manner) (budget : Nat) :
    ∀ schema v, AllOrdinary (failuresWithin root manner budget schema v) := by
  induction budget with
  | zero => exact fun _ _ => List.forall_mem_singleton.2 fun hnone => absurd hnone (by simp)
  | succ budget ih =>
    intro schema v f hf
    rcases failuresWithin_cases hf with ⟨message, hmessage, rfl⟩ | ⟨_, _, arg, _, -, -, hkeyword, hf⟩
    · exact fun _ => hmessage.isOrdinary
    · refine keepsOrdinary_of_mem_keywords _ hkeyword _ ?_ arg v f hf
      exact ih

/-- A failure with an ordinary message is told as a violation that concerns a value. -/
theorem concernsValue_of_isOrdinary {f : Failure} (hf : IsOrdinary f.message) :
    (Violation.ofFailure f).concernsValue = true := by
  rw [Violation.concernsValue, Bool.and_eq_true, bne_iff_ne, bne_iff_ne]
  exact hf

end SnippetAudit.Schema
