import SnippetAudit.Proofs.Judge.Pool

/-!
# What the counters of outcomes tell

Every call for a batch of snippets, or for the snippets in a markdown text, counts the outcomes that it
returns by kind and verdict, in whatever order the runs end. The exception are snippets for which no judge
can be set up: all of them fail, and no failure is counted. So over a session of calls the counters fall
behind the outcomes by exactly the number of those snippets.

## What this module delivers

- `Call`, `Call.Returns`: a call, and what it may return;
- `Session`: calls one after the other, with what each returned and what is counted;
- `tally_eq_count_add_uncounted`: by how much the counters fall behind;
- `counters_tell_tally_iff`: they tell the outcomes exactly when every call had a judge or nothing to judge.
-/

set_option autoImplicit false

namespace SnippetAudit.Judge

open Contract Metrics

/-! ## Calls -/

/-- Those of some snippets for which no judge can be set up: all or none. -/
def judgeless (env : Environment) (kind : CodeKind) (s : Setup) (snippets : List Value) : List Value :=
  match judgeFor env kind s with
  | .error _ => snippets
  | .ok _ => []

/-- What a call is about: snippets, or a markdown text in which they are found. -/
inductive Submission where
  | snippets (codes : List Value)
  | markdown (t : Text)

/-- A call for a batch. -/
structure Call where
  env : Environment
  kind : CodeKind
  setup : Setup
  maxWorkers : Int
  submission : Submission

namespace Call

/-- The snippets that a call is about. -/
def snippets (c : Call) : List Value :=
  match c.submission with
  | .snippets codes => codes
  | .markdown t => snippetsIn c.kind t

/-- What the snippets of a call are judged with. -/
def judgedWith (c : Call) : Setup :=
  match c.submission with
  | .snippets _ => c.setup
  | .markdown _ => { c.setup with extracted := true }

/-- What a call comes to under a schedule. -/
def result? (c : Call) (schedule : List Nat) : Option (Except String Record) :=
  match c.submission with
  | .snippets codes => judgeOnPool c.env c.kind c.setup c.maxWorkers codes schedule
  | .markdown t => judgeMarkdownOnPool c.env c.kind c.setup c.maxWorkers t schedule

/-- The call may return this record. -/
def Returns (c : Call) (record : Record) : Prop :=
  ∃ schedule : List Nat, c.result? schedule = some (.ok record)

/-- The snippets of a call for which no judge can be set up. -/
def unjudged (c : Call) : List Value := judgeless c.env c.kind c.judgedWith c.snippets

theorem returns_iff_delivers {c : Call} {record : Record} :
    c.Returns record ↔ Delivers c.env c.kind c.judgedWith c.maxWorkers c.snippets (.ok record) := by
  unfold Returns Delivers result? judgedWith snippets
  cases c.submission <;> rfl

end Call

/-- A call with the record that it returned. -/
structure Reply where
  call : Call
  record : Record

/-- The number of outcomes with a verdict that a call for snippets of a kind returned. -/
def Reply.tally (kind verdict : String) (r : Reply) : Nat :=
  if r.call.kind.name = kind then r.record.batch.outcomes.countP fun o => o.verdict.name == verdict
  else 0

/-- The number of outcomes with a verdict that calls for snippets of a kind returned. -/
def tallyOf (kind verdict : String) (replies : List Reply) : Nat :=
  (replies.map (Reply.tally kind verdict)).sum

/-- Calls one after the other: the replies, and everything that is counted until then. -/
inductive Session : List Reply → List Event → Prop where
  | start : Session [] []
  | call {replies : List Reply} {events : List Event} (before : Session replies events) (r : Reply)
      (h : r.call.Returns r.record) : Session (replies ++ [r]) (events ++ r.record.events)

/-! ## One call -/

/-- The number of outcomes of a call that are not counted: the failures of snippets without a judge. -/
def Reply.uncounted (kind verdict : String) (r : Reply) : Nat :=
  if r.call.kind.name = kind ∧ verdict = "failed" then r.call.unjudged.length else 0

theorem count_map_ofOutcome (own : String) (outcomes : List Outcome) (kind verdict : String) :
    (outcomes.map (Event.ofOutcome own)).count (.outcome kind verdict) =
      if own = kind then outcomes.countP fun o => o.verdict.name == verdict else 0 := by
  rw [List.count, List.countP_map]
  split
  · next hkind =>
    refine List.countP_congr fun o _ => ?_
    simp [Event.ofOutcome, hkind]
  · next hkind =>
    rw [List.countP_eq_zero]
    intro o _
    simp [Event.ofOutcome, hkind]

/-- What is counted for snippets are their outcomes, apart from other events. -/
theorem count_flatMap_snippetEvents (kind : CodeKind) (package k v : String) (accounts : List Account) :
    (accounts.flatMap (snippetEvents kind package)).count (.outcome k v) =
      ((accounts.map Account.outcome).map (Event.ofOutcome kind.name)).count (.outcome k v) := by
  have hone (a : Account) : (snippetEvents kind package a).count (.outcome k v) =
      [Event.ofOutcome kind.name a.outcome].count (.outcome k v) := by
    have hunknown : (accountEvents package a).count (.outcome k v) = 0 :=
      count_accountEvents Event.noConfusion a
    simp [snippetEvents, hunknown, List.count_cons]
  induction accounts with
  | nil => rfl
  | cons a rest ih =>
    rw [List.flatMap_cons, List.count_append, ih, hone, ← List.count_append]
    rfl

/-- The outcomes of a batch are counted, apart from the failures of snippets without a judge. -/
theorem count_outcomes_judgeBatch (env : Environment) (kind : CodeKind) (s : Setup) (snippets : List Value)
    (k v : String) :
    ((judgeBatch env kind s snippets).batch.outcomes.map (Event.ofOutcome kind.name)).count (.outcome k v) =
      (judgeBatch env kind s snippets).events.count (.outcome k v) +
        if kind.name = k ∧ v = "failed" then (judgeless env kind s snippets).length else 0 := by
  by_cases hne : snippets = []
  case pos =>
    subst hne
    have hnone : judgeless env kind s [] = [] := by
      unfold judgeless
      split <;> rfl
    have hbatch : judgeBatch env kind s [] = emptyRecord kind := rfl
    simp [hnone, hbatch, emptyRecord, Batch.ofOutcomes]
  case neg =>
    cases hjudge : judgeFor env kind s with
    | error e =>
      -- nothing is counted here
      rw [judgeBatch_of_error hne hjudge, count_map_ofOutcome]
      simp only [judgelessRecord, Batch.ofOutcomes, judgeless, hjudge, List.map_const', List.count_nil,
        List.countP_replicate, withoutJudge_verdict, Verdict.name, Nat.zero_add, beq_iff_eq]
      by_cases hkind : kind.name = k
      · simp [hkind, eq_comm]
      · simp [hkind]
    | ok judge =>
      rw [judgeBatch_of_judge hne hjudge]
      have hcounted := count_flatMap_snippetEvents kind s.accountName k v (snippets.map (guarded judge))
      rw [List.flatMap_map, List.map_map] at hcounted
      simp [hcounted, Batch.ofOutcomes, judgeless, hjudge, Function.comp_def]

/-- So it is with the outcomes that a call returns. -/
theorem tally_reply {r : Reply} (h : r.call.Returns r.record) (kind verdict : String) :
    r.tally kind verdict = r.record.events.count (.outcome kind verdict) + r.uncounted kind verdict := by
  have hdelivers := Call.returns_iff_delivers.1 h
  rw [(events_perm_of_delivers hdelivers).count_eq, Reply.tally, batch_eq_of_delivers hdelivers,
    ← count_map_ofOutcome]
  exact count_outcomes_judgeBatch ..

/-! ## Sessions -/

/-- Over a session the counters fall behind the outcomes by the failures of snippets without a judge. -/
theorem tally_eq_count_add_uncounted {replies : List Reply} {events : List Event}
    (h : Session replies events) (kind verdict : String) :
    tallyOf kind verdict replies = events.count (.outcome kind verdict) +
      (replies.map (Reply.uncounted kind verdict)).sum := by
  induction h with
  | start => rfl
  | call before r hr ih =>
    have hreply := tally_reply hr kind verdict
    simp only [tallyOf] at ih
    simp only [tallyOf, List.map_append, List.map_cons, List.map_nil, List.sum_append, List.sum_cons,
      List.sum_nil, List.count_append, ih, hreply]
    omega

theorem uncounted_eq_zero_iff {replies : List Reply} :
    (∀ kind verdict : String, (replies.map (Reply.uncounted kind verdict)).sum = 0) ↔
      ∀ r ∈ replies, r.call.unjudged = [] := by
  constructor
  · intro h r hr
    have hzero := List.sum_eq_zero_iff_forall_eq_nat.1 (h r.call.kind.name "failed") _
      (List.mem_map_of_mem hr)
    simpa [Reply.uncounted] using hzero
  · intro h kind verdict
    refine List.sum_eq_zero_iff_forall_eq_nat.2 fun n hn => ?_
    obtain ⟨r, hr, rfl⟩ := List.mem_map.1 hn
    simp [Reply.uncounted, h r hr]

/-- The counters of a session tell the outcomes that its calls returned exactly when there was a judge for
all their snippets. -/
theorem counters_tell_tally_iff {replies : List Reply} {events : List Event} (h : Session replies events) :
    (∀ kind verdict : String, events.count (.outcome kind verdict) = tallyOf kind verdict replies) ↔
      ∀ r ∈ replies, r.call.unjudged = [] := by
  rw [← uncounted_eq_zero_iff]
  refine forall_congr' fun kind => forall_congr' fun verdict => ?_
  have htally := tally_eq_count_add_uncounted h kind verdict
  omega

/-- Every call returns, and its counters grow by the outcomes that it returns exactly when there is a judge
for its snippets, if it has any. So over a session all counters tell the outcomes exactly when that holds
of each call. -/
theorem outcomes_counted_iff (c : Call) (replies : List Reply) (events : List Event) :
    (∃ record : Record, c.Returns record) ∧
      (∀ record : Record, c.Returns record →
        ((∀ kind verdict : String,
          record.events.count (.outcome kind verdict) = Reply.tally kind verdict ⟨c, record⟩) ↔
            c.unjudged = [])) ∧
      (Session replies events →
        ((∀ kind verdict : String, events.count (.outcome kind verdict) = tallyOf kind verdict replies) ↔
          ∀ r ∈ replies, r.call.unjudged = [])) := by
  refine ⟨?_, fun record hreturns => ?_, counters_tell_tally_iff⟩
  · obtain ⟨record, hdelivers⟩ :=
      exists_delivers c.env c.kind c.judgedWith c.maxWorkers c.snippets
    exact ⟨record, Call.returns_iff_delivers.2 hdelivers⟩
  · have hsession : Session [⟨c, record⟩] record.events := .call .start ⟨c, record⟩ hreturns
    simpa [tallyOf] using counters_tell_tally_iff hsession

/-! ## A session of two calls -/

/-- Any tree will do where nothing is parsed. -/
def unusedTree : Syntax.Node := ⟨"program", true, false, false, 0, 0, none, []⟩

/-- A call for a piece of Rust code that is empty. -/
def emptyCodeCall : Call where
  env := { parse := fun _ _ => unusedTree }
  kind := .rust
  setup := {}
  maxWorkers := 4
  submission := .snippets [.str ""]

/-- A call for the Rust code in a text that holds none. -/
def plainTextCall : Call where
  env := { parse := fun _ _ => unusedTree }
  kind := .rust
  setup := {}
  maxWorkers := 4
  submission := .markdown "no code".toList

/-- The counters tell the failure of the first call and that the second one had nothing to judge. -/
theorem outcomes_counted_two_calls :
    ∃ (first second : Record) (events : List Event),
      Session [⟨emptyCodeCall, first⟩, ⟨plainTextCall, second⟩] events ∧
        events.count (.outcome "rust" "failed") = 1 ∧ events.count (.outcome "rust" "skipped") = 1 ∧
          events.count (.outcome "rust" "success") = 0 := by
  obtain ⟨first, hfirst⟩ := (outcomes_counted_iff emptyCodeCall [] []).1
  obtain ⟨second, hsecond⟩ := (outcomes_counted_iff plainTextCall [] []).1
  have hsession : Session [⟨emptyCodeCall, first⟩, ⟨plainTextCall, second⟩]
      ([] ++ first.events ++ second.events) :=
    .call (.call .start ⟨emptyCodeCall, first⟩ hfirst) ⟨plainTextCall, second⟩ hsecond
  have hjudges : ∀ r ∈ [Reply.mk emptyCodeCall first, ⟨plainTextCall, second⟩], r.call.unjudged = [] := by
    intro r hr
    simp only [List.mem_cons, List.not_mem_nil, or_false] at hr
    rcases hr with rfl | rfl <;> rfl
  have htells := ((outcomes_counted_iff emptyCodeCall _ _).2.2 hsession).2 hjudges "rust"
  refine ⟨first, second, _, hsession, ?_, ?_, ?_⟩
  all_goals
    rw [htells]
    simp only [tallyOf, Reply.tally, List.map_cons, List.map_nil,
      batch_eq_of_delivers (Call.returns_iff_delivers.1 hfirst),
      batch_eq_of_delivers (Call.returns_iff_delivers.1 hsecond)]
    decide +kernel

/-! ## A failure that is not counted -/

/-- A call for components of a package that there is not. -/
def unsupportedCall : Call where
  env := { parse := fun _ _ => unusedTree }
  kind := .components
  setup := { packageName := some "@acme/widgets" }
  maxWorkers := 8
  submission := .snippets [.str "<A />"]

/-- The call returns one failure and counts none. -/
theorem failure_uncounted :
    ∃ record : Record, unsupportedCall.Returns record ∧
      Reply.tally "components" "failed" ⟨unsupportedCall, record⟩ = 1 ∧
        record.events.count (.outcome "components" "failed") = 0 := by
  have hjudge : judgeFor unsupportedCall.env .components unsupportedCall.setup =
      .error (.unsupportedPackage ⟨"@acme/widgets"⟩) := by
    rfl
  refine ⟨judgelessRecord (.unsupportedPackage ⟨"@acme/widgets"⟩) [.str "<A />"], ⟨[], ?_⟩, ?_, rfl⟩
  · change judgeOnPool unsupportedCall.env .components unsupportedCall.setup 8 [.str "<A />"] [] = _
    simp [judgeOnPool, hjudge]
  · simp [Reply.tally, unsupportedCall, CodeKind.name, judgelessRecord, Batch.ofOutcomes, Verdict.name]

end SnippetAudit.Judge
