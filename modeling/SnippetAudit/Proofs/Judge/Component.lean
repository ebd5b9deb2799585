import SnippetAudit.Judge.Component
import SnippetAudit.Proofs.Component.Finding
import SnippetAudit.Proofs.Component.Walk
import SnippetAudit.Proofs.Contract.Resolution

/-!
# Markup passes only with admitted attributes

A snippet of markup passes exactly when every usage in it passes. Under documents that strict mode closes,
and under a built-in package, it follows that every usage has a document, that the document declares all
attributes of the usage, and that all attributes which the document requires are there.

## What this module delivers

- `accountOf_success_iff`, `judgeMarkup_success_iff`: a snippet passes exactly when its usages pass;
- `no_false_pass`: what a snippet uses when it passes under documents or a package.
-/

set_option autoImplicit false

namespace SnippetAudit.Judge

open Component Contract Schema

theorem outcomeOf_success_iff (usages : List Usage) (findings : List Finding) :
    (outcomeOf usages findings).verdict = .success ↔ ∀ f ∈ findings, f.problem? = none := by
  rw [← List.filterMap_eq_nil_iff, outcomeOf]
  cases findings.filterMap Finding.problem? with
  | nil => simp [Outcome.success]
  | cons problem more => simp [Outcome.failed]

theorem accountOf_success_iff (usages : List Usage) (findings : List Finding) :
    (accountOf usages findings).outcome.verdict = .success ↔
      ∀ f ∈ findings, f.breakdown? = none ∧ f.problem? = none := by
  rw [accountOf]
  cases hbreakdown : findings.findSome? Finding.breakdown? with
  | some message =>
    constructor
    · intro hsuccess
      exact absurd hsuccess (by simp [Outcome.failed])
    · intro h
      have hnone := List.findSome?_eq_none_iff.2 fun f hf => (h f hf).1
      rw [hnone] at hbreakdown
      exact absurd hbreakdown (by simp)
  | none =>
    have hfound := List.findSome?_eq_none_iff.1 hbreakdown
    rw [outcomeOf_success_iff]
    constructor
    · intro h f hf
      exact ⟨hfound f hf, h f hf⟩
    · intro h f hf
      exact (h f hf).2

/-- A snippet passes exactly when all usages in it pass. -/
theorem judgeMarkup_success_iff (env : Environment) (resolver : Resolver) (code : Text) :
    (judgeMarkup env resolver code).outcome.verdict = .success ↔
      ∀ u ∈ (findUsages env resolver.walkRules (Extraction.extract Extraction.markup code)).usages,
        Passes resolver u := by
  unfold judgeMarkup
  dsimp only
  split
  · next hcleaned =>
    -- nothing is parsed here, and nothing would be found
    rw [List.isEmpty_iff.1 hcleaned, findUsages_nil]
    simp [nothingFound, Outcome.success]
  · split
    · next husages => simp [husages, nothingFound, Outcome.success]
    · next usages husages _ =>
      rw [accountOf_success_iff]
      simp only [List.forall_mem_map, inspect_iff]

/-- A snippet that passes under contracts that are documents for strict mode to close, or under a built-in
package, uses components that have a document, with attributes that the document declares and with all that
it requires. -/
theorem no_false_pass (env : Environment) {contracts : Option (Members Submitted)}
    {package : Option String} {resolver : Resolver} {code : Text}
    (hbuild : Resolver.build contracts package = .ok resolver)
    (hopen : ∀ byTag, contracts = some byTag → ∀ pair ∈ byTag, pair.2.IsOpenDocument)
    (hpass : (judgeMarkup env resolver code).outcome.verdict = .success) :
    ∀ u ∈ (findUsages env resolver.walkRules (Extraction.extract Extraction.markup code)).usages,
      ∃ document, documentOf? contracts package u.tag = some document ∧
        resolver.judgeOf? u.tag = some (.schema ⟨document, true⟩) ∧
        Admits document u.attributes := by
  intro u hu
  obtain ⟨judge, objections, hjudge, hobjections, hnotes⟩ :=
    (judgeMarkup_success_iff env resolver code).1 hpass u hu
  obtain ⟨document, hdocument, rfl, hclosing, hpatterns⟩ :=
    document_of_judgeOf? hbuild hopen hjudge
  obtain ⟨hjudged, hvalues⟩ := concernsValue_of_objections hobjections hnotes
  exact ⟨document, hdocument, hjudge,
    StructuralSchema.admits_of_concernsValue hclosing hpatterns hjudged hvalues⟩

/-! ## A card -/

/-- The document of a card: a required tone out of two, and any attributes for data. -/
def cardDocument : Members Value :=
  [("properties", .object [("tone", .object [("enum", .list [.str "calm", .str "loud"])])]),
    ("patternProperties", .object [("^data-", .object [])]),
    ("required", .list [.str "tone"])]

/-- The document as the only contract. -/
def cardContracts : Members Submitted := [("Card", .document (.object cardDocument))]

/-- The resolver of the contract. -/
def cardResolver : Resolver := .explicit [("Card", .schema ⟨cardDocument, true⟩)]

/-- A card whose tone is an expression. -/
def cardSnippet : Text := "<Card tone={mood} data-id=\"7\"/>".toList

/-- A named node without children. -/
def leaf (kind : String) (start stop : Nat) : Syntax.Node :=
  ⟨kind, true, false, false, start, stop, none, []⟩

/-- The element of the card, with its name and its two attributes. -/
def cardElement : Syntax.Node :=
  ⟨"jsx_self_closing_element", true, false, false, 3, 34, none,
    [⟨"identifier", true, false, false, 4, 8, some "name", []⟩,
      ⟨"jsx_attribute", true, false, false, 9, 20, none,
        [leaf "property_identifier" 9 13,
          ⟨"jsx_expression", true, false, false, 14, 20, none, [leaf "identifier" 15 19]⟩]⟩,
      ⟨"jsx_attribute", true, false, false, 21, 32, none,
        [leaf "property_identifier" 21 28, leaf "string" 29 32]⟩]⟩

/-- A parser that gives the element of the card. -/
def cardEnvironment : Environment := { parse := fun _ _ => cardElement }

theorem cardContracts_build : Resolver.build (some cardContracts) none = .ok cardResolver := by
  have haccepted : checkDocument? (.object cardDocument) = none := by decide
  simp only [Resolver.build, Resolver.ofContracts, cardContracts, submittedJudges, Submitted.judge,
    StructuralSchema.ofValue, StructuralSchema.ofDocument, haccepted]
  rfl

theorem cardContracts_open : ∀ byTag, some cardContracts = some byTag →
    ∀ pair ∈ byTag, pair.2.IsOpenDocument := by
  intro byTag hbyTag pair hpair
  obtain rfl := Option.some.inj hbyTag
  obtain rfl := List.mem_singleton.1 hpair
  exact ⟨rfl, patternsApart_of_single rfl⟩

/-- The tone is there though its value cannot be verified, and the attribute for data is declared by the
expression for names. -/
theorem no_false_pass_card :
    Resolver.build (some cardContracts) none = .ok cardResolver ∧
      (∀ byTag, some cardContracts = some byTag → ∀ pair ∈ byTag, pair.2.IsOpenDocument) ∧
      (judgeMarkup cardEnvironment cardResolver cardSnippet).outcome.verdict = .success ∧
      ∃ u ∈ (findUsages cardEnvironment cardResolver.walkRules
          (Extraction.extract Extraction.markup cardSnippet)).usages,
        u.attributes.names = ["tone", "data-id"] ∧
          ∃ document, documentOf? (some cardContracts) none u.tag = some document ∧
            cardResolver.judgeOf? u.tag = some (.schema ⟨document, true⟩) ∧
            Admits document u.attributes := by
  have hpass : (judgeMarkup cardEnvironment cardResolver cardSnippet).outcome.verdict = .success := by
    decide +kernel
  have hused : ((findUsages cardEnvironment cardResolver.walkRules
      (Extraction.extract Extraction.markup cardSnippet)).usages.map fun u => u.attributes.names) =
        [["tone", "data-id"]] := by
    decide +kernel
  have hmem : ["tone", "data-id"] ∈ (findUsages cardEnvironment cardResolver.walkRules
      (Extraction.extract Extraction.markup cardSnippet)).usages.map fun u => u.attributes.names := by
    rw [hused]
    exact List.mem_cons_self
  obtain ⟨u, hu, hnames⟩ := List.mem_map.1 hmem
  exact ⟨cardContracts_build, cardContracts_open, hpass, u, hu, hnames,
    no_false_pass cardEnvironment cardContracts_build cardContracts_open hpass u hu⟩

end SnippetAudit.Judge
