import SnippetAudit.Proofs.Schema.Origin
import SnippetAudit.Schema.MetaSchema

/-!
# Missing members are missing

A failure of the value itself by the rule of required members names a member that the value does not have.
The keyword `required` is not the only way to such a failure: it may come up through a subschema that is
applied to the same value, at any depth. Each keyword keeps the property as long as judging by subschemas
has it, so by induction on the budget every judgement has it.

## What this module delivers

- `Failure.Grounded`, `Scope.Grounded`, `Keyword.KeepsGround`: the property for failures, for judging by
  subschemas, and for keywords;
- `keepsGround_of_mem_keywords`: every keyword keeps it;
- `failuresWithin_grounded`, `failures_grounded`: every failure of a value has it.
-/

set_option autoImplicit false

namespace SnippetAudit.Schema

/-- If the failure is one of the value itself by the rule of required members, a required member is missing
from the value. -/
def Failure.Grounded (v : Value) (f : Failure) : Prop :=
  f.path = [] → ∀ names, f.rule = .required names →
    ∃ members, v = .object members ∧ ∃ name ∈ names, hasMember members name = false

/-- What judging by subschemas must promise: its failures are grounded, and those of a subschema that is true or
false in whatever value. -/
structure Scope.Grounded (scope : Scope) : Prop where
  judge : ∀ schema v, ∀ f ∈ scope.judge schema v, f.Grounded v
  bool : ∀ b part, ∀ f ∈ scope.judge (.bool b) part, ∀ v, f.Grounded v

/-- The failures of the keyword are grounded when those of subschemas are. -/
def Keyword.KeepsGround (keyword : Keyword) : Prop :=
  ∀ scope : Scope, scope.Grounded → ∀ arg v, ∀ f ∈ keyword scope arg v, f.Grounded v

/-! ## Failures by other rules -/

theorem Failure.grounded_here (message : String) (v : Value) : (Failure.here message).Grounded v :=
  fun _ _ hnames => absurd hnames Rule.noConfusion

theorem Failure.grounded_of_broken (cause : Breakdown) (v : Value) : (Failure.broken cause).Grounded v :=
  fun _ _ hnames => absurd hnames Rule.noConfusion

/-! ## Keywords -/

/-- Every keyword keeps failures grounded. -/
theorem keepsGround_of_mem_keywords : ∀ pair ∈ keywords, Keyword.KeepsGround pair.2 := by
  intro pair hpair scope hscope arg v f hf
  cases arises_of_mem_keywords pair hpair scope arg v f hf with
  | here => exact Failure.grounded_here _ v
  | missing hv hname hmissing =>
    intro _ names hnames
    obtain rfl := Rule.required.inj hnames
    exact ⟨_, hv, _, hname, hmissing⟩
  | closed => exact fun _ names hnames => absurd hnames (by simp)
  | stuck => exact Failure.grounded_of_broken _ v
  | lost => exact Failure.grounded_of_broken _ v
  | inside => exact Failure.grounded_of_broken _ v
  | whole hschema hjudged => exact hscope.judge _ v f hjudged
  | dependent _ hjudged => exact hscope.judge _ v f hjudged
  | name _ hjudged =>
    -- the name of a member is a string and has no members that could be missing
    intro hpath names hnames
    obtain ⟨members, hmembers, -⟩ := hscope.judge arg _ f hjudged hpath names hnames
    exact absurd hmembers (by simp)
  | flag _ hjudged => exact hscope.bool _ _ f hjudged v
  | part =>
    -- a step leads to the part, so the place is not that of the value
    exact fun hpath => absurd hpath (List.cons_ne_nil _ _)

/-! ## Whole schemas -/

theorem failuresWithin_bool (root : Value) (manner : Manner) (budget : Nat) (b : Bool) (part : Value) :
    ∀ f ∈ failuresWithin root manner budget (.bool b) part, ∀ v, f.Grounded v := by
  intro f hf v
  cases budget with
  | zero =>
    obtain rfl := List.mem_singleton.1 hf
    exact Failure.grounded_of_broken _ v
  | succ budget =>
    cases b with
    | true => exact absurd hf List.not_mem_nil
    | false =>
      obtain rfl := List.mem_singleton.1 hf
      exact Failure.grounded_here _ v

/-- Every failure of a value under a schema is grounded in the value, whatever the budget. -/
theorem failuresWithin_grounded (root : Value) (manner : Manner) (budget : Nat) :
    ∀ schema v, ∀ f ∈ failuresWithin root manner budget schema v, f.Grounded v := by
  induction budget with
  | zero =>
    intro schema v f hf
    obtain rfl := List.mem_singleton.1 hf
    exact Failure.grounded_of_broken _ v
  | succ budget ih =>
    intro schema v f hf
    rcases failuresWithin_cases hf with ⟨message, -, rfl⟩ | ⟨_, _, arg, _, -, -, hkeyword, hf⟩
    · exact Failure.grounded_here _ v
    · refine keepsGround_of_mem_keywords _ hkeyword _ ⟨ih, ?_⟩ arg v f hf
      exact failuresWithin_bool root manner budget

/-- Every failure of a value under a whole document is grounded in the value. -/
theorem failures_grounded (root v : Value) : ∀ f ∈ failures root v, f.Grounded v :=
  failuresWithin_grounded root documentManner (budgetFor root v) root v

end SnippetAudit.Schema
