import SnippetAudit.GraphQL.Reference
import SnippetAudit.GraphQL.Suggestion

/-!
# Rules on fields

A field must be one that its type has. It must have selections exactly if its type has fields.

## What this module delivers

- `selectionFaults`: selections that are missing or in vain;
- `unknownField`: a field that its type does not have, with a hint.
-/

set_option autoImplicit false

namespace SnippetAudit.GraphQL.Rules

/-- Selections that are missing, or that stand on a field without subfields. -/
def selectionFaults (s : Schema) (site? : Option FieldSite) (name : String) (hasSelections : Bool) :
    List String :=
  match site? with
  | none => []
  | some site =>
    let type := site.field.type
    if s.typeMeets type.base TypeBody.isLeaf then
      if hasSelections then
        ["Field '" ++ name ++ "' must not have a selection since type '" ++ type.text ++
          "' has no subfields."]
      else []
    else if hasSelections then []
    else
      ["Field '" ++ name ++ "' of type '" ++ type.text ++
        "' must have a selection of subfields. Did you mean '" ++ name ++ " \x7b ... \x7d'?"]

/-- The type has a field by itself. -/
def hasField (s : Schema) (field type : String) : Bool :=
  s.typeMeets type fun body => body.fields.any fun f => f.name == field

/-- The types that have a field, each as often as an object type that `parent` stands for is or
implements it. -/
def typesWithField (s : Schema) (parent field : String) : List String :=
  ((s.possibleTypes parent).filter (hasField s field)).flatMap fun type =>
    type :: (((s.body? type).map TypeBody.interfaces).getD []).filter (hasField s field)

/-- The first type is suggested before the second: it is more common, or it is an interface that the
second implements, or its name comes first. -/
def suggestedBefore (s : Schema) (uses : List String) (a b : String) : Bool :=
  if uses.count a ≠ uses.count b then uses.count a > uses.count b
  else if s.typeMeets a TypeBody.isInterface && s.isSubType a b then true
  else if s.typeMeets b TypeBody.isInterface && s.isSubType b a then false
  else naturalBefore a b

/-- The types to put a condition on for a field, where a type stands for several. -/
def suggestedTypes (s : Schema) (parent field : String) : List String :=
  if s.typeMeets parent TypeBody.isAbstract then
    let uses := typesWithField s parent field
    Sorted.sortBy (suggestedBefore s uses) uses.eraseDups
  else []

/-- The fields of a type that are near a name. -/
def suggestedFields (s : Schema) (parent field : String) : List String :=
  suggestions field ((((s.body? parent).map TypeBody.fields).getD []).map Field.name)

/-- A field that its type does not have. -/
def unknownField (s : Schema) (parent : Option String) (name : String) : List String :=
  match parent with
  | none => []
  | some parent =>
    match s.field? parent name with
    | some _ => []
    | none =>
      let byType := didYouMean "to use an inline fragment on " (suggestedTypes s parent name)
      let hint := if byType = "" then didYouMean "" (suggestedFields s parent name) else byType
      ["Cannot query field '" ++ name ++ "' on type '" ++ parent ++ "'." ++ hint]

end SnippetAudit.GraphQL.Rules
