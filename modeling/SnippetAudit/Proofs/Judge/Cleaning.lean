import SnippetAudit.Proofs.GraphQL.Cleaning
import SnippetAudit.Proofs.Judge.Operation
import SnippetAudit.Proofs.Markdown.Rendering

/-!
# A payload that is one operation

A text without fences is one operation, which is cleaned before it is judged as a payload, and judged as it is
when it is known to be an operation. Both ways judge the same document, as long as the lines that go lie
between tokens and nothing is read of a comment line. Comment lines are found without reading the tokens,
so that a line inside a block may be taken for one, and so may what stands behind a lone carriage return.

## What this module delivers

- `judgeSource?_of_parse`: the outcome of a text is settled by its document;
- `findOperations_of_parse`: a text without fences is one operation;
- `judgePayload_eq_judgeOperation`: both ways agree.
-/

set_option autoImplicit false

namespace SnippetAudit.Judge

open Text Extraction GraphQL Markdown

/-- Texts with the same document have the same outcome. -/
theorem judgeSource?_of_parse {schema : Schema} {name : String} {t u : Text} {d : Document}
    (ht : parse t = .ok d) (hu : parse u = .ok d) :
    judgeSource? .never schema name t = judgeSource? .never schema name u := by
  simp only [judgeSource?, Breakdowns.never, ht, hu]

/-- A text without fences that can be parsed is one operation, and something is left of it. -/
theorem findOperations_of_parse {t : Text} {d : Document} (hfence : ¬ fence <:+: t)
    (hcleaned : parse (extract graphqlClean t) = .ok d) : findOperations t = [extract graphqlClean t] := by
  have hcandidates : operationCandidates t = [t] := by
    simp [operationCandidates, fencedBlocks_of_no_fence hfence]
  have hne : extract graphqlClean t ≠ [] := by
    intro hnil
    rw [hnil] at hcleaned
    cases hcleaned
  simp [findOperations, hcandidates, hne]

/-- A request is settled by what judging makes of its text. -/
theorem judgeRequest_congr {c : Catalogue} {code : String} {judge judge' : Text → String → Except Mishap Outcome}
    (h : ∀ name, judge code.toList name = judge' code.toList name) (schemaName : Value) :
    judgeRequest c (.str code) schemaName judge = judgeRequest c (.str code) schemaName judge' := by
  rw [judgeRequest, judgeRequest]
  cases hcode : nonEmptyText "code" (.str code) with
  | error issue => rfl
  | ok text =>
    obtain ⟨hsame, -⟩ := (nonEmptyText_eq_ok_iff "code" (.str code) text).1 hcode
    obtain rfl : code = text := Value.str.inj hsame
    cases nonEmptyText "schema_name" schemaName with
    | error issue => rfl
    | ok name => simp only [h name]

/-- One operation is judged by itself. -/
theorem judgeOperations_singleton (breakdown : Breakdowns) (c : Catalogue) (name : String) (operation : Text) :
    judgeOperations breakdown c name [operation] = judgeUnder breakdown c name operation := by
  rw [judgeOperations_of_ne_nil (List.cons_ne_nil operation []), judgeUnder]
  cases schemaOf c name with
  | error m => rfl
  | ok schema =>
    cases hjudged : judgeSource? breakdown schema name operation with
    | error m => simp [hjudged, bind, Except.bind]
    | ok outcome => simp [hjudged, bind, Except.bind, mergeOperations, pure, Except.pure]

/-- A text without fences that can be parsed is judged in the same way as a payload and as an operation, under
every schema, if no line that goes is part of a token, nothing is read of a comment line behind a lone carriage return,
and none stands inside of a token in front of a line end of two characters, where both would be taken for one. -/
theorem judgePayload_eq_judgeOperation {c : Catalogue} {code : String} {schemaName : Value} {d : Document}
    (hparse : parse code.toList = .ok d) (hfence : ¬ fence <:+: code.toList)
    (hreturn : ∀ s ∈ sources code.toList, ¬ crlf <:+: unixNewlines s)
    (hclosed : ClosedComments (unixNewlines code.toList)) (hdetached : Detached (unixNewlines code.toList)) :
    judgePayload c (.str code) schemaName = judgeOperation c (.str code) schemaName := by
  have hcleaned := parse_extract hparse hfence hreturn hclosed hdetached
  have hoperations : operationsOf .never none code.toList = .ok [extract graphqlClean code.toList] := by
    rw [← findOperations_of_parse hfence hcleaned]
    rfl
  apply judgeRequest_congr
  intro name
  have hjudged : judgeUnder .never c name (extract graphqlClean code.toList) = judgeUnder .never c name code.toList := by
    rw [judgeUnder, judgeUnder]
    cases schemaOf c name with
    | error m => rfl
    | ok schema => exact judgeSource?_of_parse hcleaned hparse
  simp only [hoperations, judgeOperations_singleton, hjudged]
  rfl

/-- An operation with a description over several lines, a comment line, a comment behind a field, an empty line,
and three kinds of line ends, two of them behind each other. -/
def describedOperation : String :=
  "# all shops\r\r\n\"\"\"\r\nThe shop\r\n  and its #name\r\n\"\"\"\r\nquery Shop\r\x7b\n  # one field\n\n  shop # \x60\x60\n\x7d\n"

/-- The comment lines and the empty line go, and the description stays with its lines. -/
theorem judgePayload_eq_judgeOperation_described :
    (parse describedOperation.toList).isOk = true ∧ ¬ fence <:+: describedOperation.toList ∧
      (∀ s ∈ sources describedOperation.toList, ¬ crlf <:+: unixNewlines s) ∧
      ClosedComments (unixNewlines describedOperation.toList) ∧ Detached (unixNewlines describedOperation.toList) ∧
      extract graphqlClean describedOperation.toList =
        "\"\"\"\nThe shop\n  and its #name\n\"\"\"\nquery Shop\r\x7b\n  shop # \x60\x60\n\x7d".toList ∧
      judgePayload shopSetup.catalogue (.str describedOperation) (.str defaultSchema) =
        judgeOperation shopSetup.catalogue (.str describedOperation) (.str defaultSchema) := by
  obtain ⟨hparse, hfence, hreturn, hclosed, hdetached, hextract⟩ :
      (parse describedOperation.toList).isOk = true ∧ ¬ fence <:+: describedOperation.toList ∧
        (∀ s ∈ sources describedOperation.toList, ¬ crlf <:+: unixNewlines s) ∧
        ClosedComments (unixNewlines describedOperation.toList) ∧ Detached (unixNewlines describedOperation.toList) ∧
        extract graphqlClean describedOperation.toList =
          "\"\"\"\nThe shop\n  and its #name\n\"\"\"\nquery Shop\r\x7b\n  shop # \x60\x60\n\x7d".toList := by
    simp only [← afterFirst?_isSome_iff]
    decide +kernel
  refine ⟨hparse, hfence, hreturn, hclosed, hdetached, hextract, ?_⟩
  cases hdocument : parse describedOperation.toList with
  | error e =>
    rw [hdocument] at hparse
    cases hparse
  | ok d => exact judgePayload_eq_judgeOperation hdocument hfence hreturn hclosed hdetached

/-- A comment that a lone carriage return ends is taken to go on to the end of the line, and a line of a
description is taken for a comment. -/
theorem judgePayload_ne_judgeOperation :
    (judgePayload shopSetup.catalogue (.str "# c\r\x7b shop \x7d") (.str defaultSchema) = nothingToParse ∧
        (judgeOperation shopSetup.catalogue (.str "# c\r\x7b shop \x7d") (.str defaultSchema)).verdict = .success) ∧
      (judgePayload shopSetup.catalogue (.str "\"\"\"\n# c \"\"\"\nquery \x7b shop \x7d") (.str defaultSchema)).verdict =
          .failed ∧
        (judgeOperation shopSetup.catalogue (.str "\"\"\"\n# c \"\"\"\nquery \x7b shop \x7d")
          (.str defaultSchema)).verdict = .success := by
  decide +kernel

end SnippetAudit.Judge
