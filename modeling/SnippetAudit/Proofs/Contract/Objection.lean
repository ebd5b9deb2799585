import SnippetAudit.Contract.Resolver
import SnippetAudit.Proofs.Schema.Violation

/-!
# When nothing is held against attributes

A judge by a schema has nothing against attributes exactly when they meet the effective document of the
schema, or when all of their failures are passed over. The second happens where a subschema that is applied
to the attributes as a whole closes them against an attribute that the document declares elsewhere.

## What this module delivers

- `Overlooked`: attributes that fail by failures alone that are passed over;
- `objections_eq_nil_iff`: when a judge has nothing against attributes;
- `no_failure_dropped_iff`: nothing is held against attributes exactly when they meet the effective document,
  except where they are overlooked.
-/

set_option autoImplicit false

namespace SnippetAudit.Schema.StructuralSchema

/-- The attributes do not meet the effective document, and all of their failures are passed over. -/
def Overlooked (s : StructuralSchema) (attributes : Members Value) : Prop :=
  Schema.failures (.object s.effective) (.object attributes) ≠ [] ∧
    ∀ f ∈ Schema.failures (.object s.effective) (.object attributes), s.PassedOver attributes f

variable {s : StructuralSchema} {attributes : Members Value}

/-- Failures that are passed over do not tell of a breakdown. -/
theorem breakdown?_eq_none
    (h : ∀ f ∈ Schema.failures (.object s.effective) (.object attributes), s.PassedOver attributes f) :
    s.breakdown? attributes = none := by
  rw [breakdown?, firstBreakdown?_eq_none_iff]
  intro f hf
  rw [Failure.breakdown?, (h f hf).2.1]

end SnippetAudit.Schema.StructuralSchema

namespace SnippetAudit.Contract

open Schema

/-- A judge by a schema has nothing against attributes exactly when all failures are passed over. -/
theorem objections_eq_nil_iff (s : StructuralSchema) (attributes : Members Value) :
    (AttributeJudge.schema s).objections attributes = .ok [] ↔
      ∀ f ∈ Schema.failures (.object s.effective) (.object attributes), s.PassedOver attributes f := by
  rw [← StructuralSchema.violations_eq_nil_iff, AttributeJudge.objections_schema_eq_ok_iff, List.map_eq_nil_iff]
  constructor
  · exact And.right
  · intro h
    exact ⟨StructuralSchema.breakdown?_eq_none (StructuralSchema.violations_eq_nil_iff.1 h), h⟩

/-- That nothing is held against attributes exactly when they meet the effective document is true of all
attributes that are not overlooked, and of no others. -/
theorem no_failure_dropped_iff (s : StructuralSchema) (attributes : Members Value) :
    ((AttributeJudge.schema s).objections attributes = .ok [] ↔
        Schema.failures (.object s.effective) (.object attributes) = []) ↔
      ¬ s.Overlooked attributes := by
  rw [objections_eq_nil_iff]
  constructor
  · rintro h ⟨hfails, hpassed⟩
    exact hfails (h.1 hpassed)
  · intro h
    constructor
    · intro hpassed
      by_cases hmeets : Schema.failures (.object s.effective) (.object attributes) = []
      · exact hmeets
      · exact absurd ⟨hmeets, hpassed⟩ h
    · intro hmeets f hf
      rw [hmeets] at hf
      exact absurd hf List.not_mem_nil

/-- A document that declares an attribute, with a subschema that allows no members and declares none. -/
def closedBySubschema : Members Value :=
  [("properties", .object [("a", .object [])]),
    ("allOf", .list [.object [("additionalProperties", .bool false)]])]

/-- The document is accepted as a contract, and the declared attribute does not meet it, but nothing is held
against it. -/
theorem failure_dropped :
    StructuralSchema.ofDocument (.object closedBySubschema) true = .ok ⟨closedBySubschema, true⟩ ∧
      (AttributeJudge.schema ⟨closedBySubschema, true⟩).objections [("a", .str "x")] = .ok [] ∧
      Schema.failures (.object (StructuralSchema.effective ⟨closedBySubschema, true⟩))
        (.object [("a", .str "x")]) ≠ [] := by
  have haccepted : checkDocument? (.object closedBySubschema) = none := by decide
  have hjudged : StructuralSchema.breakdown? ⟨closedBySubschema, true⟩ [("a", .str "x")] = none := by
    decide
  have htold : StructuralSchema.violations ⟨closedBySubschema, true⟩ [("a", .str "x")] = [] := by
    decide
  refine ⟨?_, ?_, ?_⟩
  · rw [StructuralSchema.ofDocument, haccepted]
  · rw [AttributeJudge.objections_schema_eq_ok_iff, htold]
    exact ⟨hjudged, rfl⟩
  · exact List.ne_nil_of_length_pos (by decide)

end SnippetAudit.Contract
