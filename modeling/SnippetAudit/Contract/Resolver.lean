import SnippetAudit.Contract.Package
import SnippetAudit.Schema.Structural

/-!
# From tags to contracts

A resolver leads from a tag to what judges its attributes. It comes from contracts that are given tag by
tag, or from a built-in package, and exactly one of the two must be asked for. A contract is a schema
document or a judge of the caller's own, which may break down.

## What this module delivers

- `Remark`, `CustomJudge`: what a caller's own judge has against attributes;
- `Objection`, `AttributeJudge`, `AttributeJudge.objections`: what judges attributes, and what it has
  against them;
- `Submitted`: a contract as it is submitted;
- `Resolver`, `Resolver.judgeOf?`: from tags to judges;
- `Resolver.ofContracts`, `Resolver.ofPackageName`, `Resolver.build`: the ways to a resolver, and
  `ResolverError`, the reasons why there is none.
-/

set_option autoImplicit false

namespace SnippetAudit.Contract

open Schema

/-- A remark of a caller's own judge: its words, with the attribute that it concerns and a message if it has these. -/
structure Remark where
  text : String
  concerns : Option String := none
  message : Option String := none
  deriving Repr, DecidableEq

/-- Plain words are remarks that have nothing else. -/
instance : Coe (List String) (List Remark) where
  coe texts := texts.map fun text => { text }

/-- The attribute by whose value a remark came about. A remark with the message for an attribute that is not declared
or missing concerns no value, and one without a message does. -/
def Remark.concernsValueOf? (r : Remark) : Option String :=
  if r.message = some Violation.undeclaredMessage ∨ r.message = some Violation.missingMessage then none
  else r.concerns

/-- What is held against attributes. -/
inductive Objection where
  | violation (v : Violation)
  | remark (r : Remark)
  deriving Repr, DecidableEq

namespace Objection

/-- An objection in words. -/
def text : Objection → String
  | .violation v => v.text
  | .remark r => r.text

/-- The attribute by whose value the objection came about. -/
def concernsValueOf? : Objection → Option String
  | .violation v => if v.concernsValue then v.concerns else none
  | .remark r => r.concernsValueOf?

end Objection

/-- A judge of the caller's own: its remarks on attributes, or the message with which it breaks down. -/
abbrev CustomJudge := Members Value → Except String (List Remark)

/-- What judges the attributes of a component. -/
inductive AttributeJudge where
  | schema (s : StructuralSchema)
  | custom (judge : CustomJudge)

/-- What a judge holds against attributes, or the message with which it breaks down. -/
def AttributeJudge.objections (judge : AttributeJudge) (attributes : Members Value) :
    Except String (List Objection) :=
  match judge with
  | .schema s =>
    match s.judge attributes with
    | .ok violations => .ok (violations.map .violation)
    | .error cause => .error cause.message
  | .custom judge => (judge attributes).map fun remarks => remarks.map .remark

/-- A schema holds its violations against attributes, where they can be judged. -/
theorem AttributeJudge.objections_schema_eq_ok_iff {s : StructuralSchema} {attributes : Members Value}
    {objections : List Objection} : (AttributeJudge.schema s).objections attributes = .ok objections ↔
      s.breakdown? attributes = none ∧ (s.violations attributes).map .violation = objections := by
  rw [AttributeJudge.objections, StructuralSchema.judge]
  cases s.breakdown? attributes <;> simp

/-- A contract as it is submitted: a value that should be a schema document, or a judge. -/
inductive Submitted where
  | document (v : Value)
  | custom (judge : CustomJudge)

/-- The judge of a submitted contract. -/
def Submitted.judge : Submitted → Except SchemaRefusal AttributeJudge
  | .document v => (StructuralSchema.ofValue v).map .schema
  | .custom judge => .ok (.custom judge)

/-- The judges of submitted contracts; the first that is refused decides. -/
def submittedJudges : Members Submitted → Except SchemaRefusal (Members AttributeJudge)
  | [] => .ok []
  | (tag, submitted) :: rest =>
    match submitted.judge with
    | .error e => .error e
    | .ok judge => (submittedJudges rest).map fun judges => (tag, judge) :: judges

/-- The ways in which tags lead to contracts. -/
inductive Strategy where
  /-- Each tag has its contract. -/
  | explicit
  /-- A tag has a type, and the type a contract. -/
  | tagMapping
  /-- The tag is part of the contract's name. -/
  | conventionalNaming
  deriving Repr, DecidableEq

/-- The name of a strategy. -/
def Strategy.name : Strategy → String
  | .explicit => "explicit"
  | .tagMapping => "tag_mapping"
  | .conventionalNaming => "conventional_naming"

/-- Leads from tags to judges. -/
inductive Resolver where
  | explicit (judges : Members AttributeJudge)
  | package (p : Package)

namespace Resolver

/-- The way in which a resolver goes. -/
def strategy : Resolver → Strategy
  | .explicit _ => .explicit
  | .package p => if p.mapsTags then .tagMapping else .conventionalNaming

/-- What judges the attributes of a tag. -/
def judgeOf? : Resolver → String → Option AttributeJudge
  | .explicit judges, tag => judges.get? tag
  | .package p, tag => (p.contractOf? tag).map fun document => .schema ⟨document, true⟩

/-- What a walk takes for a component. -/
def walkRules : Resolver → Component.WalkRules
  | .explicit _ => Component.defaultRules
  | .package p => Component.rulesWith p.factories

/-- The name of the package. -/
def packageName? : Resolver → Option String
  | .explicit _ => none
  | .package p => some p.name

/-- The name under which unknown components are counted. -/
def accountName (r : Resolver) : String := r.packageName?.getD "explicit"

end Resolver

/-- Why there is no resolver. -/
inductive ResolverError where
  /-- Contracts and a package are given, or neither. -/
  | notExactlyOne
  /-- What is given for the contracts is a value of another type than a mapping. -/
  | notMapping (type : String)
  | unsupportedPackage (e : UnsupportedPackage)
  | refusedContract (e : SchemaRefusal)
  deriving Repr, DecidableEq

/-- The wording of the errors. -/
def ResolverError.message : ResolverError → String
  | .notExactlyOne => "exactly one of 'schemas' or 'package_name' must be provided"
  | .notMapping type => "'" ++ type ++ "' object has no attribute 'items'"
  | .unsupportedPackage e => e.message
  | .refusedContract e => e.message

namespace Resolver

/-- The resolver of contracts that are given tag by tag. -/
def ofContracts (contracts : Members Submitted) : Except ResolverError Resolver :=
  match submittedJudges contracts with
  | .ok judges => .ok (.explicit judges)
  | .error e => .error (.refusedContract e)

/-- The resolver of a package given by name. -/
def ofPackageName (name : String) : Except ResolverError Resolver :=
  match packageOf name with
  | .ok p => .ok (.package p)
  | .error e => .error (.unsupportedPackage e)

/-- The resolver of the contracts or of the package, whichever is given. -/
def build : Option (Members Submitted) → Option String → Except ResolverError Resolver
  | some contracts, none => ofContracts contracts
  | none, some name => ofPackageName name
  | _, _ => .error .notExactlyOne

end Resolver

end SnippetAudit.Contract
