import SnippetAudit.Batch
import SnippetAudit.Judge.Component
import SnippetAudit.Judge.Operation
import SnippetAudit.Judge.Script
import SnippetAudit.Markdown.CodeKind
import SnippetAudit.Metrics.Event

/-!
# Judging batches

All snippets of a batch are of one kind and are judged by one judge, each on its own: a snippet whose judge
breaks down fails, and the others do not notice. Where no judge can be set up, every snippet fails with the
same explanation and nothing is counted. A batch without snippets holds a single outcome, that nothing was
judged.

## What this module delivers

- `Setup`: what a batch is judged with;
- `SnippetJudge`, `judgeFor`: the judge of a kind;
- `guarded`: the account of a snippet, whatever happens;
- `Record`, `judgeBatch`: a batch with the events that were counted;
- `snippetsIn`, `judgeMarkdown`: the snippets in a markdown text, and their batch.
-/

set_option autoImplicit false

namespace SnippetAudit.Judge

open Contract Metrics

/-! ## Judges -/

/-- What a batch is judged with. -/
structure Setup where
  /-- The name of the schema for operations. -/
  schemaName : Value := .str defaultSchema
  catalogue : Catalogue := .empty
  /-- The contracts of components by their tags. -/
  contracts : ContractsField := .data .null
  /-- The package with the contracts of components. -/
  packageName : Option String := none
  /-- The snippets were found in markdown, so that an operation is one as it stands. -/
  extracted : Bool := false

/-- The name under which components without a contract are counted. -/
def Setup.accountName (s : Setup) : String := s.packageName.getD "explicit"

/-- Judges a snippet, or breaks down with a message. -/
abbrev SnippetJudge := Value → Except String Account

/-- A judge that breaks down on the texts on which its stage does. -/
def fragileJudge (env : Environment) (stage : Stage) (judge : Value → Account) : SnippetJudge :=
  fun code =>
    match code.string?.bind fun s => env.breakdown stage s.toList with
    | some message => .error message
    | none => .ok (judge code)

/-- The account of an outcome where nothing is counted. -/
def uncounted (judge : Value → Outcome) (code : Value) : Account := ⟨judge code, 0⟩

/-- The outcome of an operation. -/
def judgeByRequest (env : Environment) (s : Setup) (code : Value) : Outcome :=
  if s.extracted then judgeOperation s.catalogue code s.schemaName env.breakdown
  else judgePayload s.catalogue code s.schemaName none env.breakdown

/-- The account of markup. A snippet that is no text fails like one that cannot be parsed. -/
def accountMarkup (env : Environment) (r : Resolver) : Value → Account
  | .str code => attemptMarkup env r code.toList
  | v =>
    ⟨.failed ("Failed to parse code block: '" ++ v.typeName ++ "' object has no attribute 'replace'"), 0⟩

/-- The judge of a kind of snippets. -/
def judgeFor (env : Environment) (kind : CodeKind) (s : Setup) : Except ResolverError SnippetJudge :=
  match kind with
  | .javascript => .ok (fragileJudge env .javascriptJudge (uncounted (judgeScript env "javascript")))
  | .typescript => .ok (fragileJudge env .typescriptJudge (uncounted (judgeScript env "typescript")))
  | .rust => .ok (fragileJudge env .rustJudge (uncounted (judgeRust env)))
  | .graphql => .ok (fragileJudge env .operationJudge (uncounted (judgeByRequest env s)))
  | .components =>
    (resolverOf s.contracts s.packageName).map fun r => fragileJudge env .markupJudge (accountMarkup env r)

/-- The outcome of a snippet on which its judge breaks down. -/
def brokenDown (message : String) : Outcome := .failed ("Validation failed: " ++ message)

/-- The account of a snippet, whatever happens to its judge. -/
def guarded (judge : SnippetJudge) (code : Value) : Account :=
  match judge code with
  | .ok account => account
  | .error message => ⟨brokenDown message, 0⟩

/-! ## Batches -/

/-- The outcome of every snippet for which no judge can be set up. -/
def withoutJudge : ResolverError → Outcome
  | .unsupportedPackage e => .failed e.message
  | e => brokenDown e.message

@[simp] theorem withoutJudge_verdict (e : ResolverError) : (withoutJudge e).verdict = .failed := by
  cases e <;> rfl

/-- The outcome of a batch without snippets. -/
def nothingToJudge (kind : CodeKind) : Outcome :=
  .skipped ("No " ++ kind.name ++ " code blocks found to validate.")

/-- What is counted while a snippet is judged. -/
def accountEvents (package : String) (a : Account) : List Event :=
  List.replicate a.unknown (.unknownComponent package)

theorem count_accountEvents {package : String} {e : Event} (h : e ≠ .unknownComponent package)
    (a : Account) : (accountEvents package a).count e = 0 :=
  List.count_eq_zero.2 fun hmem => h (List.eq_of_mem_replicate hmem)

/-- What is counted for a snippet of a batch. -/
def snippetEvents (kind : CodeKind) (package : String) (a : Account) : List Event :=
  accountEvents package a ++ [.timed kind.name, .ofOutcome kind.name a.outcome]

/-- A batch with the events that were counted. -/
structure Record where
  batch : Batch
  events : List Event

/-- The record of a batch without snippets. -/
def emptyRecord (kind : CodeKind) : Record :=
  ⟨.ofOutcomes [nothingToJudge kind], [.ofOutcome kind.name (nothingToJudge kind)]⟩

/-- The record of snippets for which no judge can be set up. -/
def judgelessRecord (e : ResolverError) (snippets : List Value) : Record :=
  ⟨.ofOutcomes (snippets.map fun _ => withoutJudge e), []⟩

/-- The batch of some snippets of a kind. -/
def judgeBatch (env : Environment) (kind : CodeKind) (s : Setup) (snippets : List Value) : Record :=
  if snippets.isEmpty then emptyRecord kind
  else
    match judgeFor env kind s with
    | .error e => judgelessRecord e snippets
    | .ok judge =>
      let accounts := snippets.map (guarded judge)
      ⟨.ofOutcomes (accounts.map Account.outcome),
        accounts.flatMap (snippetEvents kind s.accountName)⟩

/-- The snippets of a kind in a markdown text, as they are submitted. -/
def snippetsIn (kind : CodeKind) (t : Text) : List Value :=
  (Markdown.findBlocks kind t).map fun block => .str (String.ofList block)

/-- The batch of the snippets of a kind in a markdown text. -/
def judgeMarkdown (env : Environment) (kind : CodeKind) (s : Setup) (t : Text) : Record :=
  judgeBatch env kind { s with extracted := true } (snippetsIn kind t)

end SnippetAudit.Judge
