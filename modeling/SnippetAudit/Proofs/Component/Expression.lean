import SnippetAudit.Component.Finding
import SnippetAudit.Proofs.Component.Alike
import SnippetAudit.Proofs.Schema.Place
import SnippetAudit.Proofs.Schema.Reference
import SnippetAudit.Proofs.Schema.Wording

/-!
# The source of an expression decides nothing

The value of an attribute that is an expression cannot be verified, so nothing that its source brings about may
come into the problem line of a usage. A failure that an expression accounts for is told as a note. Leaving such
failures out goes together with sorting the failures and with telling names once. So the violations that are left
of two usages are the same if the usages differ in the sources of expressions alone.

Whether usages can be judged at all is the same for both if judging a string comes to an end under the subschemas for
the attributes whose sources differ. Otherwise the source may decide whether judging comes upon a lost reference, or
goes round in a circle.

## What this module delivers

- `isVisible`: failures that no expression accounts for;
- `isProblem`: violations that belong to the problem line;
- `filter_violationsFrom`: failures that an expression accounts for neither add to it nor hold anything back;
- `breakdown?_eq_of_unfolds`: usages that are alike break down alike;
- `problem_of_alike`: usages that are alike have the same problem line.
-/

set_option autoImplicit false

namespace SnippetAudit.Component

open Contract Schema

variable {u u' : Usage}

/-! ## Visible failures -/

/-- The failure does not start with an attribute whose value is an expression. -/
def isVisible (u : Usage) : Failure → Bool := isOutside fun name => (u.expression? name).isSome

theorem Usage.Alike.isVisible_eq (h : u.Alike u') : isVisible u = isVisible u' := by
  rw [isVisible, isVisible, funext h.isSome_expression?]

/-- Only expressions have sources that differ. -/
theorem Usage.Alike.isSome_of_ne (h : u.Alike u') {name : String} (hdiffer : u.expression? name ≠ u'.expression? name) :
    (u.expression? name).isSome = true := by
  have hsame := h.isSome_expression? name
  cases hsource : u.expression? name with
  | some source => rfl
  | none =>
    rw [hsource] at hsame hdiffer
    exact absurd (Option.isNone_iff_eq_none.1 (by rw [← Option.not_isSome, ← hsame]; rfl)).symm hdiffer

/-! ## Violations -/

/-- The violation belongs to the problem line of a usage, and is not told as a note. -/
def isProblem (u : Usage) (v : Violation) : Bool := !isUnverifiable u (.violation v)

theorem Usage.Alike.isUnverifiable_eq (h : u.Alike u') : isUnverifiable u = isUnverifiable u' := by
  have hexpressions : (fun name => (u.expression? name).isSome) = fun name => (u'.expression? name).isSome :=
    funext h.isSome_expression?
  funext o
  rw [isUnverifiable, isUnverifiable, unverifiable?, unverifiable?, hexpressions]

/-- A failure that an expression accounts for is told as a note. -/
theorem isProblem_ofFailure {f : Failure} (hhidden : isVisible u f = false) (hf : IsOrdinary f.message) :
    isProblem u (.ofFailure f) = false := by
  rw [isVisible, isOutside.eq_def] at hhidden
  split at hhidden
  · next name rest hpath =>
    have hconcerns : (Violation.ofFailure f).concerns = some name := by
      rw [Violation.ofFailure, Failure.pathTexts, hpath]
      rfl
    have hexpr : (u.expression? name).isSome = true := by simpa using hhidden
    simp [isProblem, isUnverifiable, unverifiable?, Objection.concernsValueOf?, concernsValue_of_isOrdinary hf,
      hconcerns, hexpr]
  · exact absurd hhidden Bool.noConfusion

theorem path_ne_nil_of_hidden {f : Failure} (hhidden : isVisible u f = false) : f.path ≠ [] := by
  intro hpath
  rw [isVisible, isOutside, hpath] at hhidden
  exact Bool.noConfusion hhidden

/-- Failures that an expression accounts for add nothing to the problem line, and hold nothing back from it. -/
theorem filter_violationsFrom (s : StructuralSchema) (attributes : Members Value) {fs : List Failure}
    (hordinary : ∀ f ∈ fs, isVisible u f = false → IsOrdinary f.message) :
    ∀ reported, (s.violationsFrom attributes reported fs).filter (isProblem u) =
      (s.violationsFrom attributes reported (fs.filter (isVisible u))).filter (isProblem u) := by
  induction fs with
  | nil => exact fun _ => rfl
  | cons f rest ih =>
    intro reported
    rw [List.forall_mem_cons] at hordinary
    have ih := ih hordinary.2
    cases hvisible : isVisible u f with
    | true =>
      rw [List.filter_cons, if_pos hvisible, StructuralSchema.violationsFrom.eq_def,
        StructuralSchema.violationsFrom.eq_def s attributes reported (f :: _)]
      dsimp only
      split
      · rw [List.filter_append, List.filter_append, ih]
      · rw [List.filter_append, List.filter_append, ih]
      · rw [List.filter_cons, List.filter_cons, ih]
    | false =>
      have hpath := path_ne_nil_of_hidden hvisible
      have hnote := isProblem_ofFailure hvisible (hordinary.1 hvisible)
      rw [List.filter_cons, hvisible, if_neg Bool.false_ne_true, ← ih, StructuralSchema.violationsFrom.eq_def]
      dsimp only
      split
      · next hnil _ => exact absurd hnil hpath
      · next hnil _ => exact absurd hnil hpath
      · rw [List.filter_cons, hnote, if_neg Bool.false_ne_true]

/-- Usages that are alike have the same names of attributes. -/
theorem violationsFrom_eq (halike : u.Alike u') (s : StructuralSchema) (fs : List Failure) (reported : List Value) :
    s.violationsFrom u.attributes reported fs = s.violationsFrom u'.attributes reported fs := by
  refine StructuralSchema.violationsFrom_congr ?_ ?_ fs reported
  · rw [StructuralSchema.undeclaredNames, StructuralSchema.undeclaredNames, halike.attributes.names_eq]
  · funext name
    rw [Members.has, Members.has, halike.attributes.names_eq]

/-- What is left of the violations without notes comes from the visible failures, where attributes can be judged. -/
theorem filter_violations {s : StructuralSchema} {attributes : Members Value}
    (hjudged : s.breakdown? attributes = none) :
    (s.violations attributes).filter (isProblem u) =
      (s.violationsFrom attributes [] (sortByPath
        ((Schema.failures (.object s.effective) (.object attributes)).filter (isVisible u)))).filter (isProblem u) := by
  rw [StructuralSchema.violations, filter_violationsFrom, StructuralSchema.failures, filter_sortByPath]
  intro f hf _
  rw [StructuralSchema.mem_failures_iff] at hf
  exact failuresWithin_ordinary _ _ _ _ _ f hf (firstBreakdown?_eq_none_iff.1 hjudged f hf)

/-! ## The problem line -/

/-- The problem line of violations, in terms of those that are no notes. -/
theorem problemOf?_eq {violations violations' : List Violation} (halike : u.Alike u')
    (h : violations.filter (isProblem u) = violations'.filter (isProblem u')) :
    problemOf? u (violations.map .violation) = problemOf? u' (violations'.map .violation) := by
  have hreal : (violations.map Objection.violation).filter (fun o => !isUnverifiable u o) =
      (violations'.map Objection.violation).filter fun o => !isUnverifiable u' o := by
    rw [List.filter_map, List.filter_map]
    exact congrArg (List.map Objection.violation) h
  rw [problemOf?, problemOf?, hreal, halike.tag]

/-- A usage is judged where its attributes can be. -/
theorem checkUsage_eq_judged {s : StructuralSchema} {problem : Option String} {notes : List String}
    (h : checkUsage (.schema s) u = .judged problem notes) : s.breakdown? u.attributes = none ∧
      problemOf? u ((s.violations u.attributes).map .violation) = problem := by
  rw [checkUsage, AttributeJudge.objections, StructuralSchema.judge] at h
  cases hcause : s.breakdown? u.attributes with
  | some cause => rw [hcause] at h; cases h
  | none =>
    rw [hcause] at h
    exact ⟨rfl, (Finding.judged.inj h).1⟩

theorem breakdown?_checkUsage (s : StructuralSchema) (u : Usage) :
    (checkUsage (.schema s) u).breakdown? = (s.breakdown? u.attributes).map Breakdown.message := by
  rw [checkUsage, AttributeJudge.objections, StructuralSchema.judge]
  cases s.breakdown? u.attributes <;> rfl

theorem exists_judged_of_breakdown? {judge : AttributeJudge} (h : (checkUsage judge u).breakdown? = none) :
    ∃ problem notes, checkUsage judge u = .judged problem notes := by
  rw [checkUsage] at h ⊢
  cases hobjections : judge.objections u.attributes with
  | ok objections => exact ⟨_, _, rfl⟩
  | error message => rw [hobjections] at h; cases h

/-! ## Breakdowns -/

/-- The subschemas that a document has for attributes are parts of it. -/
theorem inside_of_hasFor {document : Members Value} {name : String} {schema : Value} (h : HasFor document name schema) :
    Value.Inside schema (.object document) := by
  rcases h with ⟨arg, harg, hschema⟩ | ⟨arg, expression, harg, hschema, -⟩ | hschema
  · exact (inside_of_mem_membersOf hschema).trans (inside_of_mem harg)
  · exact (inside_of_mem_membersOf hschema).trans (inside_of_mem harg)
  · exact inside_of_mem hschema

/-- Below the top of a document there is still more budget than the document has parts. -/
theorem size_lt_budget (root v : Value) : root.size < budgetFor root v - 1 := by
  have hpos : 0 < root.size := by cases root <;> simp [Value.size]
  have htwice : (root.size + 1) * 2 ≤ (root.size + 1) * (v.depth + 2) := Nat.mul_le_mul_left _ (by omega)
  rw [budgetFor]
  omega

theorem string?_of_expression? {name source : String} (h : u.expression? name = some source) {part : Value}
    (hget : u.attributes.get? name = some part) : part.string? = some source := by
  rw [Usage.expression?, hget] at h
  split at h
  · next other hother =>
    obtain rfl := Option.some.inj hother
    exact h
  · cases h

/-- Leaving failures out that tell of no breakdown does not change what is come upon first. -/
theorem firstBreakdown?_filter {p : Failure → Bool} {fs : List Failure}
    (h : ∀ f ∈ fs, p f = false → f.breakdown? = none) : firstBreakdown? (fs.filter p) = firstBreakdown? fs := by
  induction fs with
  | nil => rfl
  | cons f rest ih =>
    rw [List.forall_mem_cons] at h
    rw [List.filter_cons, firstBreakdown?.eq_def (f :: rest), List.findSome?_cons]
    split
    · rw [firstBreakdown?, List.findSome?_cons, ← firstBreakdown?, ih h.2]
      rfl
    · next hp =>
      rw [h.1 (by simpa using hp), ih h.2]
      rfl

/-- Failures that start with an expression tell of no breakdown, where judging a string comes to an end under the
subschemas for the attribute. -/
theorem breakdown?_eq_none_of_unfolds {document : Members Value} (hplain : IsPlain document)
    (hnodup : u.attributes.names.Nodup) {name : String} (hsome : (u.expression? name).isSome = true)
    (hunfolds : ∀ schema, HasFor document name schema → Unfolds (.object document) documentManner schema)
    {f : Failure} {steps : List PathStep} (hpath : f.path = .member name :: steps)
    (hf : f ∈ failures (.object document) (.object u.attributes)) : f.breakdown? = none := by
  obtain ⟨schema, part, g, hschema, hget, hg, rfl⟩ := comesFrom_of_mem_failures hplain hnodup hpath hf
  obtain ⟨source, hsource⟩ := Option.isSome_iff_exists.1 hsome
  rw [Failure.breakdown?_under]
  exact (hunfolds schema hschema).breakdown?_eq_none (inside_of_hasFor hschema) (string?_of_expression? hsource hget)
    (size_lt_budget _ _) g hg

/-- Usages that are alike break down alike, where judging a string comes to an end under the subschemas for the
attributes whose sources differ. -/
theorem breakdown?_eq_of_unfolds {s : StructuralSchema} (hplain : IsPlain s.effective) (halike : u.Alike u')
    (hnodup : u.attributes.names.Nodup)
    (hallowed : ∀ name, u.expression? name ≠ u'.expression? name → ¬ Forbids s.effective name)
    (hunfolds : ∀ name, u.expression? name ≠ u'.expression? name → ∀ schema, HasFor s.effective name schema →
      Unfolds (.object s.effective) documentManner schema) :
    s.breakdown? u.attributes = s.breakdown? u'.attributes := by
  let hidden (name : String) : Bool := u.expression? name != u'.expression? name
  have hagree : Agree hidden _ _ :=
    agree_failures hplain halike hnodup (fun name hdiffer => bne_iff_ne.2 hdiffer) hallowed
  -- what is left out is about an attribute whose source differs, in both usages
  have hout (w : Usage) (hnodup : w.attributes.names.Nodup)
      (hsome : ∀ name, hidden name = true → (w.expression? name).isSome = true) :
      ∀ f ∈ failures (.object s.effective) (.object w.attributes), isOutside hidden f = false →
        f.breakdown? = none := by
    intro f hf hhidden
    rw [isOutside.eq_def] at hhidden
    split at hhidden
    · next name steps hpath =>
      rw [Bool.not_eq_false'] at hhidden
      exact breakdown?_eq_none_of_unfolds hplain hnodup (hsome name hhidden) (hunfolds name (bne_iff_ne.1 hhidden))
        hpath hf
    · exact absurd hhidden Bool.noConfusion
  have hfirst := hout u hnodup fun name hdiffer => halike.isSome_of_ne (bne_iff_ne.1 hdiffer)
  have hsecond := hout u' (halike.attributes.names_eq ▸ hnodup) fun name hdiffer =>
    halike.symm.isSome_of_ne (bne_iff_ne.1 hdiffer).symm
  rw [StructuralSchema.breakdown?, StructuralSchema.breakdown?, ← firstBreakdown?_filter hfirst,
    ← firstBreakdown?_filter hsecond, hagree]

/-! ## Usages that are alike -/

/-- Usages that differ in the sources of expressions alone have the same problem line, or none both, under every
contract whose document has keywords for members alone, where both can be judged. What the subschemas have does not
matter, as long as no attribute whose source differs has the subschema `false`. Where judging a string comes to an end
under the subschemas for these attributes, both usages can be judged or neither. -/
theorem problem_of_alike (s : StructuralSchema) (hplain : IsPlain s.document) (u u' : Usage) (halike : u.Alike u')
    (hnodup : u.attributes.names.Nodup)
    (hallowed : ∀ name, u.expression? name ≠ u'.expression? name → ¬ Forbids s.document name) :
    (∀ problem notes problem' notes', checkUsage (.schema s) u = .judged problem notes →
      checkUsage (.schema s) u' = .judged problem' notes' → problem = problem') ∧
    ((∀ name, u.expression? name ≠ u'.expression? name → ∀ schema, HasFor s.effective name schema →
        Unfolds (.object s.effective) documentManner schema) →
      (checkUsage (.schema s) u).breakdown? = (checkUsage (.schema s) u').breakdown?) := by
  have hallowed (name : String) (hdiffer : u.expression? name ≠ u'.expression? name) : ¬ Forbids s.effective name :=
    fun h => hallowed name hdiffer (forbids_of_effective h)
  constructor
  · intro problem notes problem' notes' hfirst hsecond
    obtain ⟨hjudged, rfl⟩ := checkUsage_eq_judged hfirst
    obtain ⟨hjudged', rfl⟩ := checkUsage_eq_judged hsecond
    have hagree : (failures (.object s.effective) (.object u.attributes)).filter (isVisible u) = _ :=
      agree_failures (isPlain_effective hplain) halike hnodup (fun _ => halike.isSome_of_ne) hallowed
    have hproblem : isProblem u = isProblem u' := by
      funext v
      rw [isProblem, isProblem, halike.isUnverifiable_eq]
    refine problemOf?_eq halike ?_
    calc (s.violations u.attributes).filter (isProblem u)
      _ = _ := filter_violations hjudged
      _ = _ := by rw [hagree, hproblem, violationsFrom_eq halike, ← isVisible, halike.isVisible_eq]
      _ = (s.violations u'.attributes).filter (isProblem u') := (filter_violations hjudged').symm
  · intro hunfolds
    rw [breakdown?_checkUsage, breakdown?_checkUsage,
      breakdown?_eq_of_unfolds (isPlain_effective hplain) halike hnodup hallowed hunfolds]

/-- A document with a required tone out of two and a size that is judged like the tone. -/
def toneDocument : Members Value :=
  [("type", .str "object"),
    ("properties", .object
      [("tone", .object [("enum", .list [.str "calm", .str "loud"])]),
        ("size", .object [("$ref", .str "#/properties/tone")])]),
    ("required", .list [.str "tone", .str "label"])]

/-- A usage with a tone and a size that are expressions, and an attribute that is not declared. -/
def toneUsage (tone size : String) : Usage :=
  ⟨"Chip", [("tone", .expr tone), ("size", .expr size), ("dense", .bool true)], []⟩

theorem toneUsage_alike (tone size tone' size' : String) :
    (toneUsage tone size).Alike (toneUsage tone' size') :=
  ⟨rfl, .source _ _ _ (.source _ _ _ (.same _ _ .nil))⟩

theorem toneDocument_isPlain : IsPlain toneDocument := by
  intro pair hpair
  simp only [toneDocument, List.mem_cons, List.not_mem_nil, or_false] at hpair
  rcases hpair with rfl | rfl | rfl
  · exact Or.inl rfl
  · exact Or.inr (by decide)
  · exact Or.inr (by decide)

theorem not_forbids_toneDocument (name : String) : ¬ Forbids toneDocument name := by
  simp [Forbids, toneDocument, membersOf, Value.members?]

/-- The subschemas of the document for attributes, and the closing of strict mode. -/
theorem hasFor_toneDocument {name : String} {schema : Value}
    (h : HasFor (StructuralSchema.effective ⟨toneDocument, true⟩) name schema) :
    schema ∈ [.object [("enum", .list [.str "calm", .str "loud"])], .object [("$ref", .str "#/properties/tone")],
      .bool false] := by
  have heffective : StructuralSchema.effective ⟨toneDocument, true⟩ =
      toneDocument ++ [("additionalProperties", .bool false)] := rfl
  rw [heffective] at h
  rcases h with ⟨arg, harg, hschema⟩ | ⟨arg, expression, harg, -⟩ | hschema
  · obtain rfl : arg = _ := by simpa [toneDocument] using harg
    rcases (by simpa [membersOf, Value.members?] using hschema) with ⟨-, rfl⟩ | ⟨-, rfl⟩
    · exact List.mem_cons_self
    · exact List.mem_cons_of_mem _ List.mem_cons_self
  · simp [toneDocument] at harg
  · obtain rfl : schema = .bool false := by simpa [toneDocument] using hschema
    simp

/-- The reference leads from the size to the tone and ends there. -/
theorem unfolds_toneDocument (name : String) (schema : Value)
    (h : HasFor (StructuralSchema.effective ⟨toneDocument, true⟩) name schema) :
    Unfolds (.object (StructuralSchema.effective ⟨toneDocument, true⟩)) documentManner schema := by
  have hall : ∀ schema ∈ [.object [("enum", .list [.str "calm", .str "loud"])],
      .object [("$ref", .str "#/properties/tone")], .bool false],
      unfoldsWithin (.object (StructuralSchema.effective ⟨toneDocument, true⟩)) documentManner 2 schema = true := by
    decide
  exact unfolds_of_unfoldsWithin (hall schema (hasFor_toneDocument h))

/-- The first usage meets the enumeration with both sources and the second with none, and the problem line of
both tells of the missing label and the undeclared attribute. -/
theorem problem_of_alike_tone :
    IsPlain toneDocument ∧ (toneUsage "calm" "loud").Alike (toneUsage "mood" "f(x)") ∧
      (toneUsage "calm" "loud").attributes.names.Nodup ∧
      (∀ name, (toneUsage "calm" "loud").expression? name ≠ (toneUsage "mood" "f(x)").expression? name →
        ¬ Forbids toneDocument name) ∧
      (∀ name, (toneUsage "calm" "loud").expression? name ≠ (toneUsage "mood" "f(x)").expression? name →
        ∀ schema, HasFor (StructuralSchema.effective ⟨toneDocument, true⟩) name schema →
          Unfolds (.object (StructuralSchema.effective ⟨toneDocument, true⟩)) documentManner schema) ∧
      ∃ problem notes notes',
        checkUsage (.schema ⟨toneDocument, true⟩) (toneUsage "calm" "loud") = .judged problem notes ∧
          checkUsage (.schema ⟨toneDocument, true⟩) (toneUsage "mood" "f(x)") = .judged problem notes' ∧
          problem = some ("Chip validation failed: Property 'label': required attribute is missing; " ++
            "Property 'dense': attribute is not declared by the schema") ∧ notes ≠ notes' := by
  have halike := toneUsage_alike "calm" "loud" "mood" "f(x)"
  have hnodup : (toneUsage "calm" "loud").attributes.names.Nodup := by decide
  obtain ⟨hsame, hbreakdown⟩ := problem_of_alike ⟨toneDocument, true⟩ toneDocument_isPlain (toneUsage "calm" "loud")
    (toneUsage "mood" "f(x)") halike hnodup fun name _ => not_forbids_toneDocument name
  have hfirst : checkUsage (.schema ⟨toneDocument, true⟩) (toneUsage "calm" "loud") =
      .judged (some ("Chip validation failed: Property 'label': required attribute is missing; " ++
        "Property 'dense': attribute is not declared by the schema")) [] := by
    decide
  have hnotes : (checkUsage (.schema ⟨toneDocument, true⟩) (toneUsage "mood" "f(x)")).notes ≠ [] := by
    decide
  rw [hfirst] at hbreakdown
  obtain ⟨problem', notes', hsecond⟩ :=
    exists_judged_of_breakdown? (hbreakdown fun name _ => unfolds_toneDocument name).symm
  have hproblem := hsame _ _ _ _ hfirst hsecond
  rw [hsecond] at hnotes
  refine ⟨toneDocument_isPlain, halike, hnodup, fun name _ => not_forbids_toneDocument name,
    fun name _ => unfolds_toneDocument name, _, _, notes', hfirst, ?_, rfl, fun heq => hnotes heq.symm⟩
  rw [hsecond, hproblem]

/-! ## Sources that decide something -/

/-- A document with a reference behind a condition. -/
def referringDocument (target : String) : Members Value :=
  [("properties", .object
    [("a", .object [("if", .object [("const", .str "x")]), ("then", .object [("$ref", .str target)])])])]

/-- The reference leads nowhere. -/
def lostDocument : Members Value := referringDocument "#/$defs/gone"

/-- The reference leads back. -/
def circularDocument : Members Value := referringDocument "#/properties/a"

/-- A document that forbids an attribute by a subschema. -/
def forbiddingDocument : Members Value := [("properties", .object [("a", .bool false)])]

/-- A usage whose only attribute is an expression. -/
def expressionUsage (source : String) : Usage := ⟨"Chip", [("a", .expr source)], []⟩

/-- The three documents are accepted as contracts. Under the first two, a source that meets the condition breaks the
judgement down, and any other passes. Under the third one the problem line shows the source. -/
theorem problem_of_source :
    (expressionUsage "x").Alike (expressionUsage "y") ∧
      (∀ document ∈ [lostDocument, circularDocument],
        StructuralSchema.ofValue (.object document) = .ok ⟨document, true⟩ ∧ IsPlain document ∧
          checkUsage (.schema ⟨document, true⟩) (expressionUsage "y") = .judged none [] ∧
          (checkUsage (.schema ⟨document, true⟩) (expressionUsage "x")).breakdown?.isSome = true) ∧
      (StructuralSchema.ofValue (.object forbiddingDocument) = .ok ⟨forbiddingDocument, true⟩ ∧
        IsPlain forbiddingDocument ∧
        ∀ source ∈ ["x", "y"], checkUsage (.schema ⟨forbiddingDocument, true⟩) (expressionUsage source) =
          .judged (some ("Chip validation failed: Property 'root': False schema does not allow " ++
            "ExpressionValue('" ++ source ++ "')")) []) := by
  have haccepted : ∀ document ∈ [lostDocument, circularDocument, forbiddingDocument],
      checkDocument? (.object document) = none := by
    decide
  have hof (document : Members Value) (hdocument : document ∈ [lostDocument, circularDocument, forbiddingDocument]) :
      StructuralSchema.ofValue (.object document) = .ok ⟨document, true⟩ := by
    rw [StructuralSchema.ofValue, StructuralSchema.ofDocument, haccepted document hdocument]
  have hplain (arg : Value) : IsPlain [("properties", arg)] :=
    fun pair hpair => Or.inr (List.mem_singleton.1 hpair ▸ by simp [memberKeywords])
  refine ⟨⟨rfl, .source _ _ _ .nil⟩, ?_, hof _ (by simp), hplain _, by decide⟩
  refine List.forall_mem_cons.2 ⟨⟨hof _ (by simp), hplain _, by decide, by decide +kernel⟩, ?_⟩
  exact List.forall_mem_singleton.2 ⟨hof _ (by simp), hplain _, by decide, by decide +kernel⟩

end SnippetAudit.Component
