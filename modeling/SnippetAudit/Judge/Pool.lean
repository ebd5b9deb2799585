import SnippetAudit.Judge.Batch

/-!
# Judging on a pool of workers

The snippets of a batch are judged side by side. A snippet that waits is taken up as soon as a worker is
free, first come, first served; what its judging counts is counted bit by bit, while others count theirs.
Which of the running snippets comes next is left open: a schedule says it, move by move. When all runs are
over, their outcomes are collected in the order in which the snippets were submitted.

## What this module delivers

- `Run`, `runOf`: what judging a snippet counts and how it ends;
- `Job`, `Pool`: the snippets on their way, and what is counted so far;
- `Pool.step?`, `Pool.play?`: one move, and a schedule of moves;
- `poolSize`: the number of workers;
- `judgeOnPool`: the batch of some snippets under a schedule;
- `judgeMarkdownOnPool`: likewise, for the snippets in a markdown text.
-/

set_option autoImplicit false

namespace SnippetAudit.Judge

open Metrics

/-! ## Runs -/

/-- What judging a snippet counts, in order, and how it ends: with an outcome, or by raising a message. -/
structure Run where
  events : List Event
  ending : Except String Outcome

/-- The run of a snippet under a judge. An outcome without an explanation would be refused when it is made. -/
def runOf (kind : CodeKind) (package : String) (judge : SnippetJudge) (code : Value) : Run :=
  let account := guarded judge code
  ⟨snippetEvents kind package account,
    (Outcome.make account.outcome.verdict account.outcome.detail).mapError OutcomeError.message⟩

/-- A snippet on its way through the pool. -/
inductive Job where
  | waiting (run : Run)
  /-- Taken up by a worker; the rest of the run is left. -/
  | running (run : Run)
  | finished (ending : Except String Outcome)

namespace Job

/-- The job is not taken up yet. -/
def isWaiting : Job → Bool
  | .waiting _ => true
  | _ => false

/-- A worker is at the job. -/
def isRunning : Job → Bool
  | .running _ => true
  | _ => false

/-- The job is over. -/
def isFinished : Job → Bool
  | .finished _ => true
  | _ => false

/-- How the run of a job ends. -/
def ending : Job → Except String Outcome
  | .waiting run => run.ending
  | .running run => run.ending
  | .finished ending => ending

/-- The next move of a job, with what it counts: it is taken up, counts an event, or comes to its end. -/
def next? : Job → Option (Job × List Event)
  | .waiting run => some (.running run, [])
  | .running ⟨event :: events, ending⟩ => some (.running ⟨events, ending⟩, [event])
  | .running ⟨[], ending⟩ => some (.finished ending, [])
  | .finished _ => none

end Job

/-! ## The pool -/

/-- The snippets of a batch on their way, in the order of submission, and what is counted so far. -/
structure Pool where
  jobs : List Job
  counted : List Event := []

namespace Pool

/-- All runs wait. -/
def ofRuns (runs : List Run) : Pool := ⟨runs.map .waiting, []⟩

/-- The number of workers that are at a job. -/
def busy (p : Pool) : Nat := p.jobs.countP Job.isRunning

/-- Whether a job that waits can be taken up: a worker is free, and no job before it waits. -/
def canTakeUp (workers : Nat) (p : Pool) (i : Nat) : Bool :=
  decide (p.busy < workers) && (p.jobs.take i).all fun job => !job.isWaiting

/-- The pool after the next move of a job, if the job can make one. -/
def step? (workers : Nat) (p : Pool) (i : Nat) : Option Pool :=
  match p.jobs[i]? with
  | none => none
  | some job =>
    if job.isWaiting && !p.canTakeUp workers i then none
    else job.next?.map fun (next, events) => ⟨p.jobs.set i next, p.counted ++ events⟩

/-- The pool after a schedule: which job makes the next move, time and again. -/
def play? (workers : Nat) (p : Pool) : List Nat → Option Pool
  | [] => some p
  | i :: schedule => (p.step? workers i).bind fun next => next.play? workers schedule

/-- All jobs are over. -/
def isOver (p : Pool) : Bool := p.jobs.all Job.isFinished

/-- The outcomes in the order of submission; the first run that ended by raising decides. -/
def collect (p : Pool) : Except String (List Outcome) := p.jobs.mapM Job.ending

end Pool

/-! ## Batches -/

/-- The number of workers for some snippets: no more than there are snippets, but at least one. -/
def poolSize (maxWorkers : Int) (snippets : Nat) : Nat := (max 1 (min maxWorkers snippets)).toNat

/-- The pool of some snippets before anything happens. -/
def batchPool (kind : CodeKind) (s : Setup) (judge : SnippetJudge) (snippets : List Value) : Pool :=
  .ofRuns (snippets.map (runOf kind s.accountName judge))

/-- What a pool that is over delivers. -/
def Pool.record? (p : Pool) : Option (Except String Record) :=
  if p.isOver then some (p.collect.map fun outcomes => ⟨.ofOutcomes outcomes, p.counted⟩) else none

/-- What judging some snippets on a pool comes to under a schedule, or what it raises; there is nothing yet
unless the pool can follow the schedule and all runs are over then. -/
def judgeOnPool (env : Environment) (kind : CodeKind) (s : Setup) (maxWorkers : Int)
    (snippets : List Value) (schedule : List Nat) : Option (Except String Record) :=
  if snippets.isEmpty then some (.ok (emptyRecord kind))
  else
    match judgeFor env kind s with
    | .error e => some (.ok (judgelessRecord e snippets))
    | .ok judge =>
      ((batchPool kind s judge snippets).play? (poolSize maxWorkers snippets.length) schedule).bind
        Pool.record?

/-- What judging the snippets in a markdown text on a pool comes to under a schedule. -/
def judgeMarkdownOnPool (env : Environment) (kind : CodeKind) (s : Setup) (maxWorkers : Int) (t : Text)
    (schedule : List Nat) : Option (Except String Record) :=
  judgeOnPool env kind { s with extracted := true } maxWorkers (snippetsIn kind t) schedule

end SnippetAudit.Judge
