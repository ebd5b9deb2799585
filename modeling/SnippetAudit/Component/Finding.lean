import SnippetAudit.Component.Usage
import SnippetAudit.Contract.Resolver
import SnippetAudit.Data.Distinct

/-!
# Findings about usages

A usage whose tag leads to no contract is an unknown component. Any other is judged by its contract: the
objections make up one problem line, except those that come from the value of an attribute that is an
expression. Such a value cannot be verified, so they leave a note and no problem.

## What this module delivers

- `Finding`: what is found about a usage;
- `unverifiable?`, `isUnverifiable`: the objections that leave a note;
- `problemOf?`, `notesOf`: the problem line and the notes of objections;
- `checkUsage`: a usage against a judge;
- `inspect`: a usage against a resolver.
-/

set_option autoImplicit false

namespace SnippetAudit.Component

open Contract

/-- What is found about a usage. -/
inductive Finding where
  /-- No contract belongs to the tag. -/
  | unknownTag (tag : String)
  /-- The usage was judged. -/
  | judged (problem : Option String) (notes : List String)
  /-- The judge broke down with a message. -/
  | brokenDown (message : String)
  deriving Repr, DecidableEq

namespace Finding

/-- The problem line of a finding. -/
def problem? : Finding → Option String
  | .unknownTag tag => some ("Unknown component: " ++ tag)
  | .judged problem _ => problem
  | .brokenDown _ => none

/-- The notes of a finding. -/
def notes : Finding → List String
  | .judged _ notes => notes
  | _ => []

/-- The message with which the judge broke down. -/
def breakdown? : Finding → Option String
  | .brokenDown message => some message
  | _ => none

/-- The tag is unknown. -/
def isUnknown : Finding → Bool
  | .unknownTag _ => true
  | _ => false

end Finding

/-- The attribute whose value is an expression and has been objected to. -/
def unverifiable? (u : Usage) (o : Objection) : Option String :=
  o.concernsValueOf?.filter fun name => (u.expression? name).isSome

/-- The objection comes from the value of an attribute that is an expression. -/
def isUnverifiable (u : Usage) (o : Objection) : Bool := (unverifiable? u o).isSome

/-- The problem line of objections, if a usage has a problem. -/
def problemOf? (u : Usage) (objections : List Objection) : Option String :=
  match objections.filter fun o => !isUnverifiable u o with
  | [] => none
  | real => some (u.tag ++ " validation failed: " ++ "; ".intercalate (real.map Objection.text))

/-- The note on an attribute whose value is an expression. -/
def noteOn (u : Usage) (name : String) : String :=
  u.tag ++ ": attribute '" ++ name ++ "' is present but unverifiable (expression " ++
    (u.expression? name).getD "" ++ ")"

/-- The notes of objections, one for each attribute. -/
def notesOf (u : Usage) (objections : List Objection) : List String :=
  (distinctNames (objections.filterMap (unverifiable? u))).map (noteOn u)

/-- What a judge finds about a usage. -/
def checkUsage (judge : AttributeJudge) (u : Usage) : Finding :=
  match judge.objections u.attributes with
  | .ok objections => .judged (problemOf? u objections) (notesOf u objections)
  | .error message => .brokenDown message

/-- What is found about a usage by the judge that its tag leads to. -/
def inspect (resolver : Resolver) (u : Usage) : Finding :=
  match resolver.judgeOf? u.tag with
  | some judge => checkUsage judge u
  | none => .unknownTag u.tag

end SnippetAudit.Component
