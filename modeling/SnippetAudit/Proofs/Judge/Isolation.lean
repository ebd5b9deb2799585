import SnippetAudit.Proofs.Judge.Breakdown
import SnippetAudit.Proofs.Judge.Pool

/-!
# Snippets are judged apart

What a pool of workers makes of a batch does not depend on the order in which the runs come to their ends,
nor does the outcome of a snippet depend on the others: it is the one that the snippet has alone. No
breakdown gets out of the snippet on which it happens. Where no judge can be set up, all snippets fail
alike, unread.

## What this module delivers

- `count_timed`: judging a snippet is timed once;
- `JudgedApart`: what a record of some snippets holds;
- `judged_apart`: every schedule comes to an end and delivers such a record.
-/

set_option autoImplicit false

namespace SnippetAudit.Judge

open Contract Metrics

variable {env : Environment} {kind : CodeKind} {s : Setup} {maxWorkers : Int} {snippets : List Value}
  {judge : SnippetJudge}

/-- What is counted for a snippet holds one timing, whatever its account. -/
theorem count_timed_snippetEvents (kind : CodeKind) (package : String) (a : Account) :
    (snippetEvents kind package a).count (.timed kind.name) = 1 := by
  have hunknown : (accountEvents package a).count (.timed kind.name) = 0 :=
    count_accountEvents Event.noConfusion a
  simp [snippetEvents, hunknown, Event.ofOutcome]

/-- Every snippet is timed once, also one on which its judge breaks down. -/
theorem count_timed (hne : snippets ≠ []) (hjudge : judgeFor env kind s = .ok judge) :
    (judgeBatch env kind s snippets).events.count (.timed kind.name) = snippets.length := by
  rw [judgeBatch_of_judge hne hjudge, List.count_flatMap]
  simp [Function.comp_def, count_timed_snippetEvents, List.map_const']

/-- The outcomes of a batch, one for each snippet. -/
theorem outcomes_judgeBatch (hne : snippets ≠ []) (hjudge : judgeFor env kind s = .ok judge) :
    (judgeBatch env kind s snippets).batch.outcomes =
      snippets.map fun code => (guarded judge code).outcome := by
  rw [judgeBatch_of_judge hne hjudge, Batch.ofOutcomes]

/-- What a record of some snippets holds that were judged apart. -/
structure JudgedApart (env : Environment) (kind : CodeKind) (s : Setup) (maxWorkers : Int)
    (snippets : List Value) (record : Record) : Prop where
  /-- There is one outcome for each snippet. -/
  one_each : record.batch.outcomes.length = snippets.length
  /-- All outcomes are explained. -/
  explained : ∀ o ∈ record.batch.outcomes, o.Explained
  /-- The outcome at the place of a snippet is the one that the snippet has alone. -/
  alone : ∀ (i : Nat) (code : Value), snippets[i]? = some code →
    ∃ o : Outcome, record.batch.outcomes[i]? = some o ∧
      ∀ own : Except String Record, Delivers env kind s maxWorkers [code] own →
        ∃ r : Record, own = .ok r ∧ r.batch.outcomes = [o]
  /-- A snippet fails on which judging breaks down somewhere. -/
  failed : ∀ (i : Nat) (t : String), snippets[i]? = some (.str t) → BreaksDown env kind s t.toList →
    ∃ o : Outcome, record.batch.outcomes[i]? = some o ∧ o.verdict = .failed
  /-- Every snippet was timed once. -/
  timed : record.events.count (.timed kind.name) = snippets.length

/-- Whatever the schedule, snippets for which there is a judge are judged apart. -/
theorem judgedApart_of_delivers (hne : snippets ≠ []) (hjudge : judgeFor env kind s = .ok judge)
    {result : Except String Record} (h : Delivers env kind s maxWorkers snippets result) :
    ∃ record : Record, result = .ok record ∧ JudgedApart env kind s maxWorkers snippets record := by
  obtain ⟨events, hevents, rfl⟩ := eq_of_delivers h
  have houtcomes := outcomes_judgeBatch hne hjudge
  refine ⟨_, rfl, ?one_each, ?explained, ?alone, ?failed, ?timed⟩
  case one_each =>
    rw [houtcomes, List.length_map]
  case explained =>
    intro o ho
    rw [houtcomes] at ho
    obtain ⟨code, -, rfl⟩ := List.mem_map.1 ho
    exact explained_guarded hjudge code
  case alone =>
    intro i code hcode
    refine ⟨(guarded judge code).outcome, ?_, fun own hown => ?_⟩
    · rw [houtcomes, List.getElem?_map, hcode, Option.map_some]
    · obtain ⟨ownEvents, -, rfl⟩ := eq_of_delivers hown
      exact ⟨_, rfl, outcomes_judgeBatch (List.cons_ne_nil code []) hjudge⟩
  case failed =>
    intro i t ht hbreaks
    refine ⟨(guarded judge (.str t)).outcome, ?_, failed_of_breaksDown hjudge hbreaks⟩
    rw [houtcomes, List.getElem?_map, ht, Option.map_some]
  case timed =>
    rw [hevents.count_eq]
    exact count_timed hne hjudge

/-- The outcomes of two lists of snippets are those of both lists at once. -/
theorem outcomes_append {others : List Value} (hne : snippets ≠ []) (hothers : others ≠ [])
    (hjudge : judgeFor env kind s = .ok judge) :
    (judgeBatch env kind s (snippets ++ others)).batch.outcomes =
      (judgeBatch env kind s snippets).batch.outcomes ++
        (judgeBatch env kind s others).batch.outcomes := by
  have hboth : snippets ++ others ≠ [] := List.append_ne_nil_of_left_ne_nil hne others
  rw [outcomes_judgeBatch hboth hjudge, outcomes_judgeBatch hne hjudge,
    outcomes_judgeBatch hothers hjudge, List.map_append]

/-- Why there is no judge does not depend on the environment. -/
theorem judgeFor_eq_error {e : ResolverError} (hjudge : judgeFor env kind s = .error e)
    (env' : Environment) : judgeFor env' kind s = .error e := by
  cases kind with
  | components =>
    rw [judgeFor] at hjudge ⊢
    cases hresolver : resolverOf s.contracts s.packageName with
    | error e' =>
      rw [hresolver] at hjudge
      exact hjudge
    | ok r =>
      rw [hresolver] at hjudge
      cases hjudge
  | _ => cases hjudge

/-- Without a judge the outcomes are settled by the number of snippets, whatever they are and whatever
judging them would come to. -/
theorem judgeOnPool_of_error {e : ResolverError} (hne : snippets ≠ [])
    (hjudge : judgeFor env kind s = .error e) (env' : Environment) (snippets' : List Value)
    (hlength : snippets'.length = snippets.length) (schedule : List Nat) :
    judgeOnPool env' kind s maxWorkers snippets' schedule =
      some (.ok ⟨.ofOutcomes (List.replicate snippets.length (withoutJudge e)), []⟩) := by
  have hsome : snippets'.isEmpty = false := by
    rw [List.isEmpty_eq_false_iff, ← List.length_pos_iff, hlength]
    exact List.length_pos_iff.2 hne
  simp [judgeOnPool, hsome, judgeFor_eq_error hjudge env', judgelessRecord, List.map_const', hlength]

/-- Snippets are judged apart. Where there is a judge for them, every schedule that a pool can follow is
bounded and can be followed to the end; whatever is delivered then is a record of snippets judged apart,
whose outcomes go on with those of any further snippets. Where there is none, every schedule delivers one
and the same failure for each snippet; nothing is counted, and neither the snippets nor the environment
matter. -/
theorem judged_apart (env : Environment) (kind : CodeKind) (s : Setup) (maxWorkers : Int)
    (snippets : List Value) (hne : snippets ≠ []) :
    (∀ judge : SnippetJudge, judgeFor env kind s = .ok judge →
      (∀ (schedule : List Nat) (p : Pool),
        (batchPool kind s judge snippets).play? (poolSize maxWorkers snippets.length) schedule = some p →
          schedule.length ≤ (batchPool kind s judge snippets).remaining ∧
            ∃ (more : List Nat) (result : Except String Record),
              judgeOnPool env kind s maxWorkers snippets (schedule ++ more) = some result) ∧
      ∀ result : Except String Record, Delivers env kind s maxWorkers snippets result →
        ∃ record : Record, result = .ok record ∧ JudgedApart env kind s maxWorkers snippets record ∧
          ∀ (others : List Value) (rest whole : Record), others ≠ [] →
            Delivers env kind s maxWorkers others (.ok rest) →
            Delivers env kind s maxWorkers (snippets ++ others) (.ok whole) →
              whole.batch.outcomes = record.batch.outcomes ++ rest.batch.outcomes) ∧
    ∀ e : ResolverError, judgeFor env kind s = .error e →
      ((withoutJudge e).verdict = .failed ∧ (withoutJudge e).Explained) ∧
        ∀ (env' : Environment) (snippets' : List Value), snippets'.length = snippets.length →
          ∀ schedule : List Nat, judgeOnPool env' kind s maxWorkers snippets' schedule =
            some (.ok ⟨.ofOutcomes (List.replicate snippets.length (withoutJudge e)), []⟩) := by
  refine ⟨fun judge hjudge => ⟨fun schedule p hplay => ⟨?_, exists_delivery hne hjudge hplay⟩,
    fun result hresult => ?_⟩, fun e hjudge => ?_⟩
  · have hmoves := Pool.remaining_of_play? hplay
    omega
  · obtain ⟨record, rfl, hrecord⟩ := judgedApart_of_delivers hne hjudge hresult
    refine ⟨record, rfl, hrecord, fun others rest whole hothers hrest hwhole => ?_⟩
    rw [batch_eq_of_delivers hresult, batch_eq_of_delivers hrest, batch_eq_of_delivers hwhole]
    exact outcomes_append hne hothers hjudge
  · exact ⟨⟨withoutJudge_verdict e, explained_withoutJudge e⟩, judgeOnPool_of_error hne hjudge⟩

/-! ## A crash among three snippets -/

/-- An environment in which the judge of Rust code crashes on one comment. -/
def crashingEnvironment : Environment where
  parse _ _ := ⟨"source_file", true, false, false, 0, 9, none, []⟩
  breakdown stage t :=
    if stage = .rustJudge ∧ t = "// boom".toList then some "parser crashed" else none

/-- Two functions with the comment between them. -/
def crashingSnippets : List Value := [.str "fn a() \x7b\x7d", .str "// boom", .str "fn b() \x7b\x7d"]

/-- The crash comes first, then the last snippet is taken up while the first one is still on its way. -/
def crashingSchedule : List Nat := [0, 1, 1, 1, 1, 2, 0, 2, 2, 0, 0, 2]

/-- Only the snippet in the middle is lost to the crash; with neither contracts nor a package for
components, all three are. -/
theorem judged_apart_crash :
    crashingSnippets ≠ [] ∧
      (∃ record : Record,
        judgeOnPool crashingEnvironment .rust {} 2 crashingSnippets crashingSchedule = some (.ok record) ∧
          JudgedApart crashingEnvironment .rust {} 2 crashingSnippets record ∧
          record.batch.outcomes.map Outcome.verdict = [.success, .failed, .success]) ∧
      judgeOnPool crashingEnvironment .components {} 2 crashingSnippets [] =
        some (.ok ⟨.ofOutcomes (List.replicate 3 (withoutJudge .notExactlyOne)), []⟩) := by
  have hne : crashingSnippets ≠ [] := List.cons_ne_nil _ _
  have hover : (judgeOnPool crashingEnvironment .rust {} 2 crashingSnippets crashingSchedule).isSome =
      true := by
    decide +kernel
  have hverdicts : (judgeBatch crashingEnvironment .rust {} crashingSnippets).batch.outcomes.map
      Outcome.verdict = [.success, .failed, .success] := by
    decide +kernel
  obtain ⟨result, hresult⟩ := Option.isSome_iff_exists.1 hover
  obtain ⟨record, rfl, hrecord, -⟩ :=
    ((judged_apart crashingEnvironment .rust {} 2 crashingSnippets hne).1 _ rfl).2 result
      ⟨crashingSchedule, hresult⟩
  have hcomponents :=
    ((judged_apart crashingEnvironment .components {} 2 crashingSnippets hne).2 .notExactlyOne rfl).2
      crashingEnvironment crashingSnippets rfl []
  refine ⟨hne, ⟨record, hresult, hrecord, ?_⟩, hcomponents⟩
  rw [batch_eq_of_delivers ⟨crashingSchedule, hresult⟩]
  exact hverdicts

end SnippetAudit.Judge
