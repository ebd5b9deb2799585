import SnippetAudit.Contract.Resolver
import SnippetAudit.Proofs.Schema.Closing

/-!
# The documents that tags lead to

A resolver leads from a tag to the strict contract of the document that was given for the tag, or of the
document that the package has for it, and to nothing else. The documents of the built-in packages leave it
to strict mode to close them.

## What this module delivers

- `documentOf?`: the document of a tag among what is given;
- `Submitted.IsOpenDocument`: documents that strict mode closes;
- `get?_submittedJudges`: the judge of a tag is that of the contract submitted for it;
- `packages_open`: the documents of the built-in packages are closed by strict mode;
- `document_of_judgeOf?`: the judge of a tag is the strict contract of its document.
-/

set_option autoImplicit false

namespace SnippetAudit.Contract

open Schema StructuralSchema

/-- The document that is given for a tag, or that the package has for it. -/
def documentOf? (contracts : Option (Members Submitted)) (package : Option String) (tag : String) :
    Option (Members Value) :=
  match contracts, package with
  | some byTag, none =>
    match byTag.get? tag with
    | some (.document v) => v.members?
    | _ => none
  | none, some name =>
    match packageOf name with
    | .ok p => p.contractOf? tag
    | .error _ => none
  | _, _ => none

/-- The contract is a document without a schema of its own for attributes that it does not declare, and its
expressions for attribute names match nothing more when joined. -/
def Submitted.IsOpenDocument : Submitted → Prop
  | .document v => hasOwnClosing (membersOf v) = false ∧ PatternsApart (membersOf v)
  | .custom _ => False

/-- The judge of a tag is that of the contract submitted for it. -/
theorem get?_submittedJudges {tag : String} {judge : AttributeJudge} (byTag : Members Submitted) :
    ∀ {judges}, submittedJudges byTag = .ok judges → judges.get? tag = some judge →
      ∃ submitted, byTag.get? tag = some submitted ∧ submitted.judge = .ok judge := by
  induction byTag with
  | nil =>
    intro judges hbuild hget
    obtain rfl := Except.ok.inj hbuild
    exact absurd hget (by simp [Members.get?])
  | cons pair rest ih =>
    obtain ⟨first, submitted⟩ := pair
    intro judges hbuild hget
    rw [submittedJudges] at hbuild
    cases hjudge : submitted.judge with
    | error e => rw [hjudge] at hbuild; exact absurd hbuild (by simp)
    | ok firstJudge =>
      cases hrest : submittedJudges rest with
      | error e => rw [hjudge, hrest] at hbuild; exact absurd hbuild (by simp [Except.map])
      | ok restJudges =>
        rw [hjudge, hrest] at hbuild
        obtain rfl := Except.ok.inj hbuild
        -- the first contract decides for its own tag and is passed over for all others
        by_cases htag : tag = first
        · subst htag
          simp only [Members.get?, List.lookup_cons_self, Option.some.injEq] at hget ⊢
          exact ⟨submitted, rfl, by rw [hjudge, hget]⟩
        · have hne : (tag == first) = false := by simpa using htag
          simp only [Members.get?, List.lookup_cons, hne] at hget ⊢
          exact ih hrest hget

/-- The judge of a submitted document is its strict contract. -/
theorem judge_document_eq_ok {v : Value} {judge : AttributeJudge}
    (h : (Submitted.document v).judge = .ok judge) :
    ∃ document, v = .object document ∧ judge = .schema ⟨document, true⟩ := by
  cases v with
  | object document =>
    simp only [Submitted.judge, ofValue, ofDocument] at h
    cases hcheck : checkDocument? (.object document) with
    | some reason => rw [hcheck] at h; exact absurd h (by simp [Except.map])
    | none =>
      rw [hcheck] at h
      exact ⟨document, rfl, (Except.ok.inj h).symm⟩
  | _ => cases h

/-! ## Packages -/

/-- No document of a built-in package closes itself or has expressions for attribute names. -/
theorem packages_open : ∀ p ∈ packages, ∀ pair ∈ p.contracts,
    hasOwnClosing pair.2 = false ∧ patternsOf pair.2 = [] := by
  decide

theorem packageOf_mem {name : String} {p : Package} (h : packageOf name = .ok p) : p ∈ packages := by
  unfold packageOf at h
  split at h
  · next found hfound =>
    obtain rfl := Except.ok.inj h
    exact List.mem_of_find?_eq_some hfound
  · exact absurd h (by simp)

theorem exists_mem_contracts_of_contractOf? {p : Package} {tag : String} {document : Members Value}
    (h : p.contractOf? tag = some document) : ∃ name, (name, document) ∈ p.contracts := by
  unfold Package.contractOf? at h
  split at h
  · obtain ⟨type, -, hdocument⟩ := Option.bind_eq_some_iff.1 h
    exact ⟨_, Members.mem_of_get?_eq_some hdocument⟩
  · rcases Option.or_eq_some_iff.1 h with hprops | ⟨-, hplain⟩
    · exact ⟨_, Members.mem_of_get?_eq_some hprops⟩
    · exact ⟨_, Members.mem_of_get?_eq_some hplain⟩

/-! ## Resolvers -/

/-- A resolver that comes from documents or from a package leads from a tag to the strict contract of the
tag's document, and strict mode closes it. -/
theorem document_of_judgeOf? {contracts : Option (Members Submitted)} {package : Option String}
    {resolver : Resolver} (hbuild : Resolver.build contracts package = .ok resolver)
    (hopen : ∀ byTag, contracts = some byTag → ∀ pair ∈ byTag, pair.2.IsOpenDocument) {tag : String}
    {judge : AttributeJudge} (hjudge : resolver.judgeOf? tag = some judge) :
    ∃ document, documentOf? contracts package tag = some document ∧
      judge = .schema ⟨document, true⟩ ∧ hasOwnClosing document = false ∧ PatternsApart document := by
  unfold Resolver.build at hbuild
  split at hbuild
  · next byTag =>
    unfold Resolver.ofContracts at hbuild
    split at hbuild
    · next judges hjudges =>
      obtain rfl := Except.ok.inj hbuild
      obtain ⟨submitted, hsubmitted, hmade⟩ := get?_submittedJudges byTag hjudges hjudge
      have hdocument := hopen byTag rfl _ (Members.mem_of_get?_eq_some hsubmitted)
      cases submitted with
      | custom judge => exact hdocument.elim
      | document v =>
        obtain ⟨document, rfl, rfl⟩ := judge_document_eq_ok hmade
        refine ⟨document, ?_, rfl, hdocument⟩
        simp only [documentOf?, hsubmitted, Value.members?]
    · exact absurd hbuild (by simp)
  · next name =>
    unfold Resolver.ofPackageName at hbuild
    split at hbuild
    · next p hp =>
      obtain rfl := Except.ok.inj hbuild
      -- a package wraps what it finds for the tag in a strict contract
      obtain ⟨document, hdocument, rfl⟩ := Option.map_eq_some_iff.1 hjudge
      obtain ⟨contractName, hmem⟩ := exists_mem_contracts_of_contractOf? hdocument
      obtain ⟨hclosing, hpatterns⟩ := packages_open p (packageOf_mem hp) _ hmem
      refine ⟨document, ?_, rfl, hclosing, patternsApart_of_nil hpatterns⟩
      simp only [documentOf?, hp, hdocument]
    · exact absurd hbuild (by simp)
  · exact absurd hbuild (by simp)

end SnippetAudit.Contract
