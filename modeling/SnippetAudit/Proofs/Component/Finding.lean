import SnippetAudit.Component.Finding

/-!
# Usages that pass

A usage passes when its tag leads to a judge and all that the judge has against the attributes concerns the
values of expressions. What concerns no value can never be turned into a note, so under a schema a usage
that passes has violations alone that concern values.

## What this module delivers

- `Passes`: usages that pass;
- `inspect_iff`: nothing is found about a usage exactly when it passes;
- `concernsValue_of_objections`: the violations of a usage that passes concern values.
-/

set_option autoImplicit false

namespace SnippetAudit.Component

open Contract

/-- The tag of the usage leads to a judge, and whatever the judge has against the attributes concerns the
value of an attribute that is an expression. -/
def Passes (resolver : Resolver) (u : Usage) : Prop :=
  ∃ judge objections, resolver.judgeOf? u.tag = some judge ∧
    judge.objections u.attributes = .ok objections ∧ ∀ o ∈ objections, isUnverifiable u o = true

theorem problemOf?_eq_none_iff (u : Usage) (objections : List Objection) :
    problemOf? u objections = none ↔ ∀ o ∈ objections, isUnverifiable u o = true := by
  have hfilter : (objections.filter fun o => !isUnverifiable u o) = [] ↔
      ∀ o ∈ objections, isUnverifiable u o = true := by
    simp [List.filter_eq_nil_iff]
  rw [← hfilter, problemOf?]
  cases objections.filter fun o => !isUnverifiable u o with
  | nil => simp
  | cons first more => simp

/-- A finding is neither a problem nor a breakdown exactly when the usage passes. -/
theorem inspect_iff (resolver : Resolver) (u : Usage) :
    ((inspect resolver u).breakdown? = none ∧ (inspect resolver u).problem? = none) ↔
      Passes resolver u := by
  unfold inspect Passes
  cases hjudge : resolver.judgeOf? u.tag with
  | none => simp [Finding.problem?]
  | some judge =>
    simp only [checkUsage, Option.some.injEq, exists_and_left, exists_eq_left']
    cases hobjections : judge.objections u.attributes with
    | error message => simp [Finding.breakdown?]
    | ok objections => simp [Finding.breakdown?, Finding.problem?, problemOf?_eq_none_iff]

/-- A usage that passes under a schema can be judged and has violations alone that concern values. -/
theorem concernsValue_of_objections {s : Schema.StructuralSchema} {u : Usage}
    {objections : List Objection}
    (hobjections : (AttributeJudge.schema s).objections u.attributes = .ok objections)
    (h : ∀ o ∈ objections, isUnverifiable u o = true) :
    s.breakdown? u.attributes = none ∧ ∀ v ∈ s.violations u.attributes, v.concernsValue = true := by
  obtain ⟨hjudged, rfl⟩ := AttributeJudge.objections_schema_eq_ok_iff.1 hobjections
  refine ⟨hjudged, fun v hv => ?_⟩
  -- a violation that concerns no value is a problem and not a note
  have hnote := h (.violation v) (List.mem_map_of_mem hv)
  by_cases hvalue : v.concernsValue = true
  · exact hvalue
  · simp [isUnverifiable, unverifiable?, Objection.concernsValueOf?, hvalue] at hnote

end SnippetAudit.Component
