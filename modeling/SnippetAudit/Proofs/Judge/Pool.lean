import Mathlib.Algebra.GroupWithZero.Nat
import SnippetAudit.Judge.Pool
import SnippetAudit.Proofs.Judge.Explanation

/-!
# Every schedule delivers the same

A move changes one job of a pool. It leaves alone how the runs end, and what is counted moves from the
events that are still to come to those that are counted. So whatever the schedule, a pool that is over
delivers the outcomes of the runs in the order of submission and has counted the events of all runs, in some
order. A pool with a worker gets there: as long as it is not over some job can move, and each move brings
the end one nearer.

## What this module delivers

- `step?_eq_some_iff`: what a move is;
- `play?_append`, `exists_completion`: every schedule that can be followed can be followed to the end;
- `record?_of_play?`: what a pool delivers;
- `Delivers`, `eq_of_delivers`: judging a batch on a pool comes to what judging one snippet after the other
  comes to, and counts the same;
- `exists_delivery`, `exists_delivers`: judging on a pool comes to an end.
-/

set_option autoImplicit false

namespace SnippetAudit.Judge

open Metrics

namespace Job

/-- The events that a job still has to count. -/
def pending : Job → List Event
  | .waiting run => run.events
  | .running run => run.events
  | .finished _ => []

/-- The number of moves that a job still has to make. -/
def remaining : Job → Nat
  | .waiting run => run.events.length + 2
  | .running run => run.events.length + 1
  | .finished _ => 0

/-- A move keeps the ending, counts the first of the pending events and brings the end one nearer. -/
theorem next?_spec {job next : Job} {events : List Event} (h : job.next? = some (next, events)) :
    next.ending = job.ending ∧ job.pending = events ++ next.pending ∧
      job.remaining = next.remaining + 1 := by
  match job, h with
  | .waiting run, h =>
    cases h
    exact ⟨rfl, rfl, rfl⟩
  | .running ⟨event :: rest, ending⟩, h =>
    cases h
    exact ⟨rfl, rfl, rfl⟩
  | .running ⟨[], ending⟩, h =>
    cases h
    exact ⟨rfl, rfl, rfl⟩

/-- A job can move as long as it waits or is running. -/
theorem exists_next?_iff {job : Job} :
    (∃ next events, job.next? = some (next, events)) ↔ job.isWaiting = true ∨ job.isRunning = true := by
  match job with
  | .waiting run => exact iff_of_true ⟨.running run, [], rfl⟩ (.inl rfl)
  | .running ⟨event :: rest, ending⟩ =>
    exact iff_of_true ⟨.running ⟨rest, ending⟩, [event], rfl⟩ (.inr rfl)
  | .running ⟨[], ending⟩ => exact iff_of_true ⟨.finished ending, [], rfl⟩ (.inr rfl)
  | .finished ending => simp [next?, isWaiting, isRunning]

theorem isWaiting_eq_false_of_isRunning {job : Job} (h : job.isRunning = true) : job.isWaiting = false := by
  cases job with
  | running run => rfl
  | waiting run => exact absurd h Bool.false_ne_true
  | finished ending => rfl

end Job

namespace Pool

variable {workers : Nat} {p q : Pool}

/-! ## One move -/

/-- How the runs end, in the order of submission. -/
def endings (p : Pool) : List (Except String Outcome) := p.jobs.map Job.ending

/-- The events that are still to be counted. -/
def pending (p : Pool) : List Event := p.jobs.flatMap Job.pending

/-- The number of moves that are left. -/
def remaining (p : Pool) : Nat := (p.jobs.map Job.remaining).sum

/-- A move replaces one job. A job is only taken up by a free worker and when no job before it waits. -/
theorem step?_eq_some_iff {i : Nat} :
    p.step? workers i = some q ↔
      ∃ before job after next events, p.jobs = before ++ job :: after ∧ before.length = i ∧
        (job.isWaiting = true → p.busy < workers ∧ ∀ b ∈ before, b.isWaiting = false) ∧
        job.next? = some (next, events) ∧ q = ⟨before ++ next :: after, p.counted ++ events⟩ := by
  constructor
  · intro h
    unfold step? at h
    split at h
    · exact absurd h (by simp)
    · next job hjob =>
      obtain ⟨hlt, hget⟩ := List.getElem?_eq_some_iff.1 hjob
      split at h
      · exact absurd h (by simp)
      · next hmay =>
        obtain ⟨⟨next, events⟩, hnext, hq⟩ := Option.map_eq_some_iff.1 h
        refine ⟨p.jobs.take i, job, p.jobs.drop (i + 1), next, events, ?_, ?_, ?_, hnext, ?_⟩
        · rw [← hget, List.getElem_cons_drop, List.take_append_drop]
        · exact List.length_take_of_le (Nat.le_of_lt hlt)
        · intro hwaiting
          simpa [hwaiting, canTakeUp] using hmay
        · simpa [List.set_eq_take_append_cons_drop, hlt] using hq.symm
  · rintro ⟨before, job, after, next, events, hjobs, rfl, hmay, hnext, rfl⟩
    have htake : p.jobs.take before.length = before := by simp [hjobs]
    have hcan : (job.isWaiting && !p.canTakeUp workers before.length) = false := by
      cases hwaiting : job.isWaiting with
      | false => rfl
      | true => simpa [canTakeUp, htake] using hmay hwaiting
    simp [step?, hcan, hnext, hjobs]

theorem endings_of_step? {i : Nat} (h : p.step? workers i = some q) : q.endings = p.endings := by
  obtain ⟨before, job, after, next, events, hjobs, -, -, hnext, rfl⟩ := step?_eq_some_iff.1 h
  simp [endings, hjobs, (Job.next?_spec hnext).1]

/-- Nothing is lost and nothing is counted twice. -/
theorem ledger_of_step? {i : Nat} (h : p.step? workers i = some q) :
    (q.counted ++ q.pending).Perm (p.counted ++ p.pending) := by
  obtain ⟨before, job, after, next, events, hjobs, -, -, hnext, rfl⟩ := step?_eq_some_iff.1 h
  have hpending := (Job.next?_spec hnext).2.1
  simp only [pending, hjobs, List.flatMap_append, List.flatMap_cons, hpending, List.append_assoc]
  exact (List.perm_append_comm_assoc events _ _).append_left p.counted

theorem remaining_of_step? {i : Nat} (h : p.step? workers i = some q) :
    p.remaining = q.remaining + 1 := by
  obtain ⟨before, job, after, next, events, hjobs, -, -, hnext, rfl⟩ := step?_eq_some_iff.1 h
  have hremaining := (Job.next?_spec hnext).2.2
  simp only [remaining, hjobs, List.map_append, List.map_cons, List.sum_append, List.sum_cons]
  omega

/-- As long as the pool is not over, some job can move. -/
theorem exists_step? (hworkers : 0 < workers) (hp : p.isOver = false) :
    ∃ i next, p.step? workers i = some next := by
  by_cases hrunning : ∃ job ∈ p.jobs, job.isRunning = true
  case pos =>
    obtain ⟨job, hmem, hjob⟩ := hrunning
    obtain ⟨before, after, hjobs⟩ := List.append_of_mem hmem
    obtain ⟨next, events, hnext⟩ := Job.exists_next?_iff.2 (.inr hjob)
    refine ⟨before.length, _, step?_eq_some_iff.2
      ⟨before, job, after, next, events, hjobs, rfl, fun hwaiting => ?_, hnext, rfl⟩⟩
    rw [Job.isWaiting_eq_false_of_isRunning hjob] at hwaiting
    exact absurd hwaiting Bool.false_ne_true
  case neg =>
    -- nobody works, so the first job that waits can be taken up
    have hbusy : p.busy = 0 := List.countP_eq_zero.2 fun job hmem hjob => hrunning ⟨job, hmem, hjob⟩
    have hleft : ∃ job ∈ p.jobs, job.isWaiting = true := by
      obtain ⟨job, hmem, hjob⟩ := List.all_eq_false.1 hp
      refine ⟨job, hmem, ?_⟩
      have hidle : job.isRunning ≠ true := fun h => hrunning ⟨job, hmem, h⟩
      cases job with
      | waiting run => rfl
      | running run => exact absurd rfl hidle
      | finished ending => exact absurd rfl hjob
    obtain ⟨job, hfound⟩ := Option.isSome_iff_exists.1 (List.find?_isSome.2 hleft)
    obtain ⟨hwaiting, before, after, hjobs, hbefore⟩ := List.find?_eq_some_iff_append.1 hfound
    obtain ⟨next, events, hnext⟩ := Job.exists_next?_iff.2 (.inl hwaiting)
    refine ⟨before.length, _, step?_eq_some_iff.2
      ⟨before, job, after, next, events, hjobs, rfl, fun _ => ⟨?_, fun b hb => ?_⟩, hnext, rfl⟩⟩
    · exact hbusy ▸ hworkers
    · simpa using hbefore b hb

/-! ## Schedules -/

/-- What every move keeps, every schedule keeps. -/
theorem play?_keeps {Inv : Pool → Prop}
    (hstep : ∀ (a b : Pool) (i : Nat), a.step? workers i = some b → Inv a → Inv b) {schedule : List Nat}
    (h : p.play? workers schedule = some q) (hp : Inv p) : Inv q := by
  induction schedule generalizing p with
  | nil =>
    cases h
    exact hp
  | cons i rest ih =>
    obtain ⟨next, hnext, hrest⟩ := Option.bind_eq_some_iff.1 h
    exact ih hrest (hstep p next i hnext hp)

theorem endings_of_play? {schedule : List Nat} (h : p.play? workers schedule = some q) :
    q.endings = p.endings :=
  play?_keeps (fun _ _ _ hstep ha => (endings_of_step? hstep).trans ha) h rfl

theorem ledger_of_play? {schedule : List Nat} (h : p.play? workers schedule = some q) :
    (q.counted ++ q.pending).Perm (p.counted ++ p.pending) :=
  play?_keeps (fun _ _ _ hstep ha => (ledger_of_step? hstep).trans ha) h (.refl _)

/-- A schedule makes as many moves as it is long. -/
theorem remaining_of_play? {schedule : List Nat} (h : p.play? workers schedule = some q) :
    p.remaining = q.remaining + schedule.length := by
  induction schedule generalizing p with
  | nil =>
    cases h
    rfl
  | cons i rest ih =>
    obtain ⟨next, hnext, hrest⟩ := Option.bind_eq_some_iff.1 h
    have hfirst := remaining_of_step? hnext
    have hlater := ih hrest
    rw [List.length_cons]
    omega

theorem play?_append (first second : List Nat) :
    p.play? workers (first ++ second) =
      (p.play? workers first).bind fun next => next.play? workers second := by
  induction first generalizing p with
  | nil => rfl
  | cons i rest ih =>
    simp only [List.cons_append, play?, Option.bind_assoc]
    congr 1
    funext next
    exact ih

/-- A pool with a worker can be played until it is over. -/
theorem exists_completion (hworkers : 0 < workers) (p : Pool) :
    ∃ schedule q, p.play? workers schedule = some q ∧ q.isOver = true := by
  -- by induction on the number of moves that are left
  induction hn : p.remaining generalizing p with
  | zero =>
    cases hover : p.isOver with
    | true => exact ⟨[], p, rfl, hover⟩
    | false =>
      obtain ⟨i, next, hstep⟩ := exists_step? hworkers hover
      have hmoves := remaining_of_step? hstep
      omega
  | succ n ih =>
    cases hover : p.isOver with
    | true => exact ⟨[], p, rfl, hover⟩
    | false =>
      obtain ⟨i, next, hstep⟩ := exists_step? hworkers hover
      have hmoves := remaining_of_step? hstep
      obtain ⟨schedule, q, hplay, hq⟩ := ih next (by omega)
      refine ⟨i :: schedule, q, ?_, hq⟩
      simp [play?, hstep, hplay]

/-! ## What a pool delivers -/

theorem pending_of_isOver (hp : p.isOver = true) : p.pending = [] := by
  refine List.flatMap_eq_nil_iff.2 fun job hmem => ?_
  have hfinished : job.isFinished = true := List.all_eq_true.1 hp job hmem
  cases job with
  | finished ending => rfl
  | waiting run => exact absurd hfinished (by simp [Job.isFinished])
  | running run => exact absurd hfinished (by simp [Job.isFinished])

theorem record?_eq_some_iff {result : Except String Record} :
    p.record? = some result ↔
      p.isOver = true ∧ result = p.collect.map fun outcomes => ⟨.ofOutcomes outcomes, p.counted⟩ := by
  unfold record?
  cases p.isOver <;> simp [eq_comm]

/-- Under every schedule the outcomes are those of the runs, and the events of all runs are counted. -/
theorem record?_of_play? {runs : List Run} {schedule : List Nat} {result : Except String Record}
    (hplay : (ofRuns runs).play? workers schedule = some p) (hresult : p.record? = some result) :
    ∃ events : List Event, events.Perm (runs.flatMap Run.events) ∧
      result = (runs.mapM Run.ending).map fun outcomes => ⟨.ofOutcomes outcomes, events⟩ := by
  obtain ⟨hover, rfl⟩ := record?_eq_some_iff.1 hresult
  refine ⟨p.counted, ?_, ?_⟩
  · have hledger := ledger_of_play? hplay
    have hall : (ofRuns runs).pending = runs.flatMap Run.events := List.flatMap_map ..
    rwa [pending_of_isOver hover, List.append_nil, hall] at hledger
  · have hcollect : p.collect = runs.mapM Run.ending :=
      calc
        p.collect = p.endings.mapM id := by simp [collect, endings, List.mapM_map]
        _ = (ofRuns runs).endings.mapM id := by rw [endings_of_play? hplay]
        _ = runs.mapM Run.ending := by simp [endings, ofRuns, List.mapM_map, Function.comp_def, Job.ending]
    rw [hcollect]

end Pool

/-! ## Batches -/

/-- There is always a worker. -/
theorem poolSize_pos (maxWorkers : Int) (snippets : Nat) : 0 < poolSize maxWorkers snippets := by
  unfold poolSize
  omega

section Batch

variable {env : Environment} {kind : CodeKind} {s : Setup} {maxWorkers : Int} {snippets : List Value}
  {judge : SnippetJudge}

/-- Judging on a pool comes to this, under some schedule. -/
def Delivers (env : Environment) (kind : CodeKind) (s : Setup) (maxWorkers : Int) (snippets : List Value)
    (result : Except String Record) : Prop :=
  ∃ schedule : List Nat, judgeOnPool env kind s maxWorkers snippets schedule = some result

theorem judgeBatch_of_judge (hne : snippets ≠ []) (hjudge : judgeFor env kind s = .ok judge) :
    judgeBatch env kind s snippets =
      ⟨.ofOutcomes (snippets.map fun code => (guarded judge code).outcome),
        snippets.flatMap fun code => snippetEvents kind s.accountName (guarded judge code)⟩ := by
  have hsome := List.isEmpty_eq_false_iff.2 hne
  simp [judgeBatch, hsome, hjudge, List.flatMap_map, Function.comp_def]

theorem judgeBatch_of_error {e : Contract.ResolverError} (hne : snippets ≠ [])
    (hjudge : judgeFor env kind s = .error e) :
    judgeBatch env kind s snippets = judgelessRecord e snippets := by
  have hsome := List.isEmpty_eq_false_iff.2 hne
  simp [judgeBatch, hsome, hjudge]

/-- No run raises: every judge explains its outcomes, and the guard catches the rest. -/
theorem ending_runOf (hjudge : judgeFor env kind s = .ok judge) (package : String) (code : Value) :
    (runOf kind package judge code).ending = .ok (guarded judge code).outcome := by
  have hmake : Outcome.make (guarded judge code).outcome.verdict (guarded judge code).outcome.detail =
      .ok (guarded judge code).outcome :=
    Outcome.make_eq_ok_iff.2 ⟨rfl, explained_guarded hjudge code⟩
  simp only [runOf, hmake]
  rfl

/-- Judging on a pool comes to what judging one snippet after the other comes to, and counts the same. -/
theorem eq_of_delivers {result : Except String Record}
    (h : Delivers env kind s maxWorkers snippets result) :
    ∃ events : List Event, events.Perm (judgeBatch env kind s snippets).events ∧
      result = .ok ⟨(judgeBatch env kind s snippets).batch, events⟩ := by
  obtain ⟨schedule, hresult⟩ := h
  unfold judgeOnPool at hresult
  split at hresult
  · next hempty =>
    cases hresult
    have hbatch : judgeBatch env kind s snippets = emptyRecord kind := by simp [judgeBatch, hempty]
    rw [hbatch]
    exact ⟨_, .refl _, rfl⟩
  · next hsome =>
    have hne : snippets ≠ [] := by simpa using hsome
    split at hresult
    · next e hjudge =>
      cases hresult
      rw [judgeBatch_of_error hne hjudge]
      exact ⟨_, .refl _, rfl⟩
    · next judge hjudge =>
      obtain ⟨p, hplay, hrecord⟩ := Option.bind_eq_some_iff.1 hresult
      obtain ⟨events, hevents, rfl⟩ := Pool.record?_of_play? hplay hrecord
      have hendings : (snippets.map (runOf kind s.accountName judge)).mapM Run.ending =
          .ok (snippets.map fun code => (guarded judge code).outcome) := by
        rw [mapM_eq_ok_iff, List.map_map, List.map_map]
        exact List.map_congr_left fun code _ => ending_runOf hjudge s.accountName code
      rw [judgeBatch_of_judge hne hjudge, hendings]
      refine ⟨events, ?_, rfl⟩
      rwa [List.flatMap_map] at hevents

theorem batch_eq_of_delivers {record : Record}
    (h : Delivers env kind s maxWorkers snippets (.ok record)) :
    record.batch = (judgeBatch env kind s snippets).batch := by
  obtain ⟨events, -, heq⟩ := eq_of_delivers h
  rw [Except.ok.inj heq]

theorem events_perm_of_delivers {record : Record}
    (h : Delivers env kind s maxWorkers snippets (.ok record)) :
    record.events.Perm (judgeBatch env kind s snippets).events := by
  obtain ⟨events, hevents, heq⟩ := eq_of_delivers h
  rw [Except.ok.inj heq]
  exact hevents

/-- A schedule that the pool can follow can be followed until something is delivered. -/
theorem exists_delivery (hne : snippets ≠ []) (hjudge : judgeFor env kind s = .ok judge)
    {schedule : List Nat} {p : Pool}
    (hplay : (batchPool kind s judge snippets).play? (poolSize maxWorkers snippets.length) schedule =
      some p) :
    ∃ more result, judgeOnPool env kind s maxWorkers snippets (schedule ++ more) = some result := by
  obtain ⟨more, q, hmore, hover⟩ :=
    Pool.exists_completion (poolSize_pos maxWorkers snippets.length) p
  have hsome := List.isEmpty_eq_false_iff.2 hne
  refine ⟨more, q.collect.map fun outcomes => ⟨.ofOutcomes outcomes, q.counted⟩, ?_⟩
  simp [judgeOnPool, hsome, hjudge, Pool.play?_append, hplay, hmore, Pool.record?, hover]

/-- Judging on a pool always comes to a record. -/
theorem exists_delivers (env : Environment) (kind : CodeKind) (s : Setup) (maxWorkers : Int)
    (snippets : List Value) :
    ∃ record : Record, Delivers env kind s maxWorkers snippets (.ok record) := by
  have hresult : ∃ result, Delivers env kind s maxWorkers snippets result := by
    by_cases hne : snippets = []
    · exact ⟨.ok (emptyRecord kind), [], by simp [judgeOnPool, hne]⟩
    · have hsome := List.isEmpty_eq_false_iff.2 hne
      cases hjudge : judgeFor env kind s with
      | error e => exact ⟨.ok (judgelessRecord e snippets), [], by simp [judgeOnPool, hsome, hjudge]⟩
      | ok judge =>
        have hplay : (batchPool kind s judge snippets).play? (poolSize maxWorkers snippets.length) [] =
            some (batchPool kind s judge snippets) := rfl
        obtain ⟨more, result, hresult⟩ := exists_delivery hne hjudge hplay
        exact ⟨result, more, hresult⟩
  obtain ⟨result, hdelivers⟩ := hresult
  obtain ⟨events, -, rfl⟩ := eq_of_delivers hdelivers
  exact ⟨_, hdelivers⟩

end Batch

end SnippetAudit.Judge
