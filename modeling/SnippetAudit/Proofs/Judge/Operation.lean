import SnippetAudit.Proofs.Judge.Pool
import SnippetAudit.Proofs.Judge.Script

/-!
# A payload and its operations

GraphQL in markdown can be judged in two ways: as one payload, or as a batch of the operations that are
found in it. The payload loads its schema once and goes through the operations until one breaks down; the
batch loads it for each operation and goes through all. Both come to the same verdict, and where nothing
breaks down the outcome of the payload is made from the outcomes of the batch.

## What this module delivers

- `settled`: the outcome of judging that may break down;
- `judgePayload_of_supported`, `outcomes_judgeMarkdown`: the outcomes of a payload and of its operations;
- `verdict_judgeOperations`: the verdict of operations that are judged together;
- `payload_agrees_with_operations`: both ways agree.
-/

set_option autoImplicit false

namespace SnippetAudit.Judge

open GraphQL Markdown

/-! ## One request -/

/-- The outcome of judging: a mishap fails. -/
def settled : Except Mishap Outcome → Outcome
  | .ok outcome => outcome
  | .error m => afterMishap m

/-- What a source comes to under the schema of a name, which is loaded for it. -/
def judgeUnder (breakdown : Breakdowns) (c : Catalogue) (name : String) (source : Text) :
    Except Mishap Outcome :=
  match schemaOf c name with
  | .error m => .error m
  | .ok schema => judgeSource? breakdown schema name source

variable {breakdown : Breakdowns} {c : Catalogue} {name : String}

/-- A request of the right shape for a listed schema is settled by judging its text. -/
theorem judgeRequest_of_supported {judge : Text → String → Except Mishap Outcome} {t : String}
    (ht : t ≠ "") (hname : name ≠ "") (hsupported : name ∈ c.supported) :
    judgeRequest c (.str t) (.str name) judge = settled (judge t.toList name) := by
  have hcode := (nonEmptyText_eq_ok_iff "code" (.str t) t).2 ⟨rfl, ht⟩
  have hschema := (nonEmptyText_eq_ok_iff "schema_name" (.str name) name).2 ⟨rfl, hname⟩
  have hlisted : c.supported.contains name = true := List.contains_iff_mem.2 hsupported
  simp only [judgeRequest, hcode, hschema, hlisted, if_true]
  cases judge t.toList name <;> rfl

theorem judgeOperation_of_supported {operation : Text} (hoperation : operation ≠ []) (hname : name ≠ "")
    (hsupported : name ∈ c.supported) :
    judgeOperation c (.str (String.ofList operation)) (.str name) breakdown =
      settled (judgeUnder breakdown c name operation) := by
  have ht : String.ofList operation ≠ "" := mt String.ofList_eq_empty_iff.1 hoperation
  rw [judgeOperation, judgeRequest_of_supported ht hname hsupported, String.toList_ofList]
  rfl

theorem judgePayload_of_supported {payload : String} (hpayload : payload ≠ "") (hname : name ≠ "")
    (hsupported : name ∈ c.supported) (hfound : breakdown .payloadExtraction payload.toList = none) :
    judgePayload c (.str payload) (.str name) none breakdown =
      settled (judgeOperations breakdown c name (findOperations payload.toList)) := by
  rw [judgePayload, judgeRequest_of_supported hpayload hname hsupported]
  simp only [operationsOf, hfound]

/-! ## The operations of a payload -/

theorem ne_nil_of_mem_findOperations {t operation : Text} (h : operation ∈ findOperations t) :
    operation ≠ [] := by
  have hkept := (List.mem_filter.1 h).2
  simpa using hkept

/-- The outcomes of the operations in a text, each judged for itself. -/
theorem outcomes_judgeMarkdown {env : Environment} {s : Setup} {t : Text}
    (hjudge : ∀ operation : Text, env.breakdown .operationJudge operation = none)
    (hschema : s.schemaName = .str name) (hname : name ≠ "") (hsupported : name ∈ s.catalogue.supported)
    (hfound : findOperations t ≠ []) :
    (judgeMarkdown env .graphql s t).batch.outcomes =
      (findOperations t).map fun operation =>
        settled (judgeUnder env.breakdown s.catalogue name operation) := by
  have hsnippets : snippetsIn .graphql t ≠ [] := by simpa [snippetsIn, findBlocks] using hfound
  rw [judgeMarkdown, judgeBatch_of_judge hsnippets rfl]
  simp only [Batch.ofOutcomes, snippetsIn, findBlocks, List.map_map]
  refine List.map_congr_left fun operation hmem => ?_
  have hne := ne_nil_of_mem_findOperations hmem
  simp only [Function.comp_apply, guarded, fragileJudge, Value.string?, Option.bind_some, hjudge, uncounted,
    judgeByRequest, if_true, hschema]
  exact judgeOperation_of_supported hne hname hsupported

/-! ## Judging operations together -/

theorem judgeOperations_of_ne_nil {operations : List Text} (h : operations ≠ []) :
    judgeOperations breakdown c name operations =
      match schemaOf c name with
      | .error m => .error m
      | .ok schema =>
        match operations.mapM (judgeSource? breakdown schema name) with
        | .error m => .error m
        | .ok outcomes => mergeOperations outcomes := by
  cases operations with
  | nil => exact absurd rfl h
  | cons operation rest => rfl

theorem mergeOperations_of_ne_nil {outcomes : List Outcome} (h : outcomes ≠ []) :
    ∃ o, mergeOperations outcomes = .ok o ∧ o.verdict = overallVerdict outcomes := by
  unfold mergeOperations
  split
  · next o => exact ⟨o, rfl, (overallVerdict_singleton o).symm⟩
  · rw [Outcome.merge_of_ne_nil "Operation" h]
    exact ⟨_, rfl, rfl⟩

/-- Where all operations come to an outcome, their outcomes one by one are those. -/
theorem map_settled_of_mapM {schema : Schema} {operations : List Text} {outcomes : List Outcome}
    (h : operations.mapM (judgeSource? breakdown schema name) = .ok outcomes) :
    (operations.map fun operation => settled (judgeSource? breakdown schema name operation)) =
      outcomes := by
  have hmap := congrArg (List.map settled) (mapM_eq_ok_iff.1 h)
  simpa [List.map_map, Function.comp_def, settled] using hmap

/-- Operations that are judged together come to the verdict of their outcomes one by one. -/
theorem verdict_judgeOperations {operations : List Text} (h : operations ≠ []) :
    (settled (judgeOperations breakdown c name operations)).verdict =
      overallVerdict (operations.map fun operation => settled (judgeUnder breakdown c name operation)) := by
  rw [judgeOperations_of_ne_nil h]
  unfold judgeUnder
  cases schemaOf c name with
  | error m =>
    -- every operation fails for want of the schema
    obtain ⟨operation, hmem⟩ := List.exists_mem_of_ne_nil operations h
    exact (overallVerdict_eq_failed_iff.2
      ⟨afterMishap m, List.mem_map.2 ⟨operation, hmem, rfl⟩, rfl⟩).symm
  | ok schema =>
    cases houtcomes : operations.mapM (judgeSource? breakdown schema name) with
    | error m =>
      -- an operation that breaks down fails among the others, too
      obtain ⟨operation, hmem, hbreaks⟩ := exists_error_of_mapM houtcomes
      have hfailed : afterMishap m ∈ operations.map fun operation =>
          settled (judgeSource? breakdown schema name operation) :=
        List.mem_map.2 ⟨operation, hmem, by rw [hbreaks, settled]⟩
      simp only [houtcomes]
      exact (overallVerdict_eq_failed_iff.2 ⟨afterMishap m, hfailed, rfl⟩).symm
    | ok outcomes =>
      have heach := map_settled_of_mapM houtcomes
      have hne : outcomes ≠ [] := by
        rw [← heach]
        exact mt List.map_eq_nil_iff.1 h
      obtain ⟨o, hmerge, hverdict⟩ := mergeOperations_of_ne_nil hne
      simp only [houtcomes, hmerge, heach]
      exact hverdict

/-! ## Both ways -/

/-- A payload comes to the overall verdict of its operations, however they are scheduled, unless the search
for them or the judge of single operations breaks down for reasons of its own. Where the schema can be loaded
and every operation comes to an outcome, the payload is skipped if it has no operation, has the outcome of
its only operation, or has the outcomes of several operations as one. -/
theorem payload_agrees_with_operations (env : Environment) (s : Setup) (maxWorkers : Int)
    (payload name : String) (schedule : List Nat) (record : Record) (hpayload : payload ≠ "")
    (hname : name ≠ "") (hschema : s.schemaName = .str name) (hsupported : name ∈ s.catalogue.supported)
    (hjudge : ∀ operation : Text, env.breakdown .operationJudge operation = none)
    (hextraction : env.breakdown .payloadExtraction payload.toList = none)
    (hrecord : judgeMarkdownOnPool env .graphql s maxWorkers payload.toList schedule =
      some (.ok record)) :
    overallVerdict record.batch.outcomes =
        (judgePayload s.catalogue (.str payload) s.schemaName none env.breakdown).verdict ∧
      ∀ schema : Schema, schemaOf s.catalogue name = .ok schema →
        (∀ operation ∈ findOperations payload.toList,
          ∃ o : Outcome, judgeSource? env.breakdown schema name operation = .ok o) →
        match findOperations payload.toList with
        | [] => (judgePayload s.catalogue (.str payload) s.schemaName none env.breakdown).verdict = .skipped
        | [_] => record.batch.outcomes =
            [judgePayload s.catalogue (.str payload) s.schemaName none env.breakdown]
        | _ => Outcome.merge "Operation" record.batch.outcomes =
            .ok (judgePayload s.catalogue (.str payload) s.schemaName none env.breakdown) := by
  have hbatch : record.batch = (judgeMarkdown env .graphql s payload.toList).batch :=
    batch_eq_of_delivers ⟨schedule, hrecord⟩
  rw [hbatch, hschema, judgePayload_of_supported hpayload hname hsupported hextraction]
  cases hfound : findOperations payload.toList with
  | nil =>
    have hnone : snippetsIn .graphql payload.toList = [] := by simp [snippetsIn, findBlocks, hfound]
    refine ⟨?_, fun _ _ _ => rfl⟩
    rw [judgeMarkdown, hnone]
    rfl
  | cons first rest =>
    have hne : findOperations payload.toList ≠ [] := by simp [hfound]
    rw [outcomes_judgeMarkdown hjudge hschema hname hsupported hne, hfound]
    refine ⟨(verdict_judgeOperations (List.cons_ne_nil first rest)).symm, fun schema hload hall => ?_⟩
    cases houtcomes : (first :: rest).mapM (judgeSource? env.breakdown schema name) with
    | error m =>
      obtain ⟨operation, hmem, hbreaks⟩ := exists_error_of_mapM houtcomes
      obtain ⟨o, ho⟩ := hall operation hmem
      rw [hbreaks] at ho
      cases ho
    | ok outcomes =>
      have heach : ((first :: rest).map fun operation =>
          settled (judgeUnder env.breakdown s.catalogue name operation)) = outcomes := by
        simpa only [judgeUnder, hload] using map_settled_of_mapM houtcomes
      have hwhole : judgeOperations env.breakdown s.catalogue name (first :: rest) =
          mergeOperations outcomes := by
        simp only [judgeOperations_of_ne_nil (List.cons_ne_nil first rest), hload, houtcomes]
      rw [heach, hwhole]
      subst heach
      cases rest with
      | nil => rfl
      | cons second more =>
        have hmerge := Outcome.merge_of_ne_nil "Operation" (List.cons_ne_nil
          (settled (judgeUnder env.breakdown s.catalogue name first))
          ((second :: more).map fun operation =>
            settled (judgeUnder env.breakdown s.catalogue name operation)))
        simp only [List.map_cons, mergeOperations] at hmerge ⊢
        rw [hmerge]
        rfl

/-! ## A payload with two operations -/

/-- A schema with a single field. -/
def shopDocument : Value :=
  .object [("__schema", .object [("queryType", .object [("name", .str "Query")]),
    ("types", .list
      [.object [("kind", .str "OBJECT"), ("name", .str "Query"), ("interfaces", .list []),
        ("fields", .list [.object [("name", .str "shop"), ("args", .list []),
          ("type", .object [("kind", .str "SCALAR"), ("name", .str "String")])]])],
        .object [("kind", .str "SCALAR"), ("name", .str "String")]]),
    ("directives", .list [])])]

/-- The schema under the name that is asked for by default. -/
def shopSetup : Setup where
  catalogue := .ofDocuments [(defaultSchema, shopDocument)]

/-- Two fenced operations, the second one misspelled. -/
def shopPayload : String :=
  "\x60\x60\x60graphql\n\x7b shop \x7d\n\x60\x60\x60\n" ++
    "\x60\x60\x60graphql\nqeury \x7b shop \x7d\n\x60\x60\x60\n"

/-- An environment in which nothing breaks down. -/
def calmEnvironment : Environment where
  parse _ _ := ⟨"program", true, false, false, 0, 0, none, []⟩

/-- The first operation is taken up first and comes to its end last. -/
def shopSchedule : List Nat := [0, 1, 1, 1, 0, 0, 1, 0]

/-- The misspelled operation decides; the payload has both outcomes as one. -/
theorem payload_agrees_with_operations_shop :
    ∃ record : Record,
      judgeMarkdownOnPool calmEnvironment .graphql shopSetup 8 shopPayload.toList shopSchedule =
          some (.ok record) ∧
        record.batch.outcomes.map Outcome.verdict = [.success, .failed] ∧
        (judgePayload shopSetup.catalogue (.str shopPayload) shopSetup.schemaName none
          calmEnvironment.breakdown).verdict = .failed ∧
        Outcome.merge "Operation" record.batch.outcomes =
          .ok (judgePayload shopSetup.catalogue (.str shopPayload) shopSetup.schemaName none
            calmEnvironment.breakdown) := by
  have hover : (judgeMarkdownOnPool calmEnvironment .graphql shopSetup 8 shopPayload.toList
      shopSchedule).isSome = true := by
    decide +kernel
  have hfound : findOperations shopPayload.toList =
      ["\x7b shop \x7d".toList, "qeury \x7b shop \x7d".toList] := by
    decide +kernel
  have houtcomes : ((schemaOf shopSetup.catalogue defaultSchema).toOption.any fun schema =>
      (findOperations shopPayload.toList).all fun operation =>
        (judgeSource? calmEnvironment.breakdown schema defaultSchema operation).isOk) = true := by
    decide +kernel
  have hverdicts : (judgeMarkdown calmEnvironment .graphql shopSetup shopPayload.toList).batch.outcomes.map
      Outcome.verdict = [.success, .failed] := by
    decide +kernel
  have hfailed : overallVerdict (judgeMarkdown calmEnvironment .graphql shopSetup
      shopPayload.toList).batch.outcomes = .failed := by
    decide +kernel
  obtain ⟨result, hresult⟩ := Option.isSome_iff_exists.1 hover
  obtain ⟨events, -, rfl⟩ := eq_of_delivers ⟨shopSchedule, hresult⟩
  obtain ⟨hverdict, hmerge⟩ := payload_agrees_with_operations calmEnvironment shopSetup 8 shopPayload
    defaultSchema shopSchedule _ (by decide +kernel) (by decide +kernel) rfl (by decide +kernel)
    (fun _ => rfl) rfl hresult
  refine ⟨_, hresult, hverdicts, ?_, ?_⟩
  · exact hverdict.symm.trans hfailed
  · cases hload : schemaOf shopSetup.catalogue defaultSchema with
    | error m =>
      rw [hload] at houtcomes
      cases houtcomes
    | ok schema =>
      have hall : ∀ operation ∈ findOperations shopPayload.toList, ∃ o : Outcome,
          judgeSource? calmEnvironment.breakdown schema defaultSchema operation = .ok o := by
        intro operation hmem
        rw [hload] at houtcomes
        simp only [Except.toOption, Option.any_some, List.all_eq_true] at houtcomes
        have hok := houtcomes operation hmem
        cases hjudged : judgeSource? calmEnvironment.breakdown schema defaultSchema operation with
        | error m =>
          rw [hjudged] at hok
          cases hok
        | ok o => exact ⟨o, rfl⟩
      have hboth := hmerge schema hload hall
      rw [hfound] at hboth
      exact hboth

end SnippetAudit.Judge
