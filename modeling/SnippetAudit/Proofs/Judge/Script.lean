import SnippetAudit.Judge.Script
import SnippetAudit.Proofs.Syntax.Damage

/-!
# Scripts pass exactly when undamaged

A snippet of a script or of Rust code passes exactly when it is a text, something is left of it without its
fence, and the syntax tree of what is left has no damaged node. The steps that take it out of its fence and
parse it must come to an end on it; where one of them breaks down, the snippet fails.

## What this module delivers

- `Undamaged`: what a snippet must be to pass;
- `judgeSource_success_iff`: it passes exactly then, for every grammar;
- `damage_reported_exactly`: damage is reported where it is, nothing else is reported, and it alone decides
  whether a snippet with code in it passes.
-/

set_option autoImplicit false

namespace SnippetAudit.Judge

open Syntax

/-- The snippet is a text that is not empty, something is left of it without its fence, and the tree of what
is left has no damaged node; the step that takes it out of its fence and the parser do not break down. -/
def Undamaged (env : Environment) (stage : Stage) (g : Grammar) (code : Value) : Prop :=
  ∃ s : String, code = .str s ∧ s ≠ "" ∧ env.breakdown stage s.toList = none ∧
    Extraction.extract Extraction.fenced s.toList ≠ [] ∧
    env.breakdown .parse (Extraction.extract Extraction.fenced s.toList) = none ∧
    ∀ n : Node, n.Occurs (env.parse g (Extraction.extract Extraction.fenced s.toList)) → ¬ n.Damaged

theorem judgeTree_success_iff (label : String) (source : Text) (root : Node) :
    (judgeTree label source root).verdict = .success ↔ ∀ n : Node, n.Occurs root → ¬ n.Damaged := by
  rw [← findProblems_eq_nil_iff (Text.encode source) root, judgeTree]
  split
  · next h => simp [h, Outcome.success]
  · next h =>
    constructor
    · intro hverdict
      exact absurd hverdict (by simp [Outcome.failed])
    · intro hnil
      exact (h hnil).elim

theorem judgeSyntax_success_iff (env : Environment) (g : Grammar) (label : String) (source : Text) :
    (judgeSyntax env g label source).verdict = .success ↔
      env.breakdown .parse source = none ∧ ∀ n : Node, n.Occurs (env.parse g source) → ¬ n.Damaged := by
  rw [judgeSyntax, Environment.attempt]
  cases env.breakdown .parse source with
  | some message => simp [parseFailure, Outcome.failed]
  | none => simp [judgeTree_success_iff]

theorem nonEmptyText_eq_ok_iff (field : String) (code : Value) (s : String) :
    nonEmptyText field code = .ok s ↔ code = .str s ∧ s ≠ "" := by
  cases code with
  | str other =>
    simp only [nonEmptyText, Value.str.injEq]
    split
    · next h => simp [h]
    · next h =>
      rw [Except.ok.injEq]
      constructor
      · rintro rfl
        exact ⟨rfl, h⟩
      · exact And.left
  | _ => simp [nonEmptyText]

/-- A snippet passes under a grammar exactly when it is undamaged. -/
theorem judgeSource_success_iff (env : Environment) (stage : Stage) (g : Grammar) (code : Value) :
    (judgeSource env stage g code).verdict = .success ↔ Undamaged env stage g code := by
  unfold judgeSource
  cases hread : nonEmptyText "code" code with
  | error issue =>
    have hno : ¬ Undamaged env stage g code := by
      rintro ⟨s, hs, hne, -⟩
      rw [(nonEmptyText_eq_ok_iff "code" code s).2 ⟨hs, hne⟩] at hread
      exact absurd hread (by simp)
    simp [Outcome.failed, hno]
  | ok s =>
    obtain ⟨rfl, hne⟩ := (nonEmptyText_eq_ok_iff "code" code s).1 hread
    have hundamaged : Undamaged env stage g (.str s) ↔ env.breakdown stage s.toList = none ∧
        Extraction.extract Extraction.fenced s.toList ≠ [] ∧
        env.breakdown .parse (Extraction.extract Extraction.fenced s.toList) = none ∧
        ∀ n : Node, n.Occurs (env.parse g (Extraction.extract Extraction.fenced s.toList)) →
          ¬ n.Damaged := by
      constructor
      · rintro ⟨s', hs', -, hrest⟩
        obtain rfl := Value.str.inj hs'
        exact hrest
      · intro hrest
        exact ⟨s, rfl, hne, hrest⟩
    rw [hundamaged]
    simp only [Environment.attempt]
    cases env.breakdown stage s.toList with
    | some message => simp [Outcome.failed]
    | none =>
      by_cases hcleaned : Extraction.extract Extraction.fenced s.toList = []
      · simp [hcleaned, Outcome.failed]
      · simp [hcleaned, judgeSyntax_success_iff]

/-- The grammar of a script is found by its name. -/
theorem judgeScript_name {g : Grammar} (hg : g ∈ Grammar.scripts) (env : Environment) (code : Value) :
    judgeScript env g.name code = judgeSource env .scriptExtraction g code := by
  simp only [Grammar.scripts, List.mem_cons, List.not_mem_nil, or_false] at hg
  rcases hg with rfl | rfl | rfl <;> rfl

/-- Damage is neither missed nor made up. A tree has no problems exactly when none of its nodes is damaged,
and a problem stands at the place of every damaged node. So a script under any grammar for scripts, and a
piece of Rust code, passes exactly when it is undamaged. -/
theorem damage_reported_exactly (source : Octets) (root : Node) (env : Environment) (code : Value) :
    (findProblems source root = [] ↔ ∀ n : Node, n.Occurs root → ¬ n.Damaged) ∧
      (∀ n : Node, n.Occurs root → n.Damaged →
        ∃ p ∈ findProblems source root, p.position = positionAt source n.start) ∧
      (∀ g ∈ Grammar.scripts, (judgeScript env g.name code).verdict = .success ↔
        Undamaged env .scriptExtraction g code) ∧
      ((judgeRust env code).verdict = .success ↔ Undamaged env .rustExtraction .rust code) := by
  refine ⟨findProblems_eq_nil_iff source root, ?_, ?_, ?_⟩
  · intro n hroot hn
    exact exists_problem_of_damaged source hroot hn
  · intro g hg
    rw [judgeScript_name hg]
    exact judgeSource_success_iff env .scriptExtraction g code
  · exact judgeSource_success_iff env .rustExtraction .rust code

/-- A statement in which damage is marked. -/
def brokenStatement : Node := ⟨"expression_statement", true, false, true, 1, 4, none, []⟩

/-- A program with a broken statement at its own place. -/
def brokenProgram : Node := ⟨"program", true, false, true, 1, 4, none, [brokenStatement]⟩

/-- The statement is covered by the problem of the program, which stands at the same place, and a script
with this tree does not pass. -/
theorem damage_reported_exactly_at_shared_place :
    (brokenStatement.Occurs brokenProgram ∧ brokenStatement.Damaged ∧ .tsx ∈ Grammar.scripts) ∧
      (∃ p ∈ findProblems (Text.encode "\né(".toList) brokenProgram,
        p.position = positionAt (Text.encode "\né(".toList) brokenStatement.start) ∧
      (judgeScript { parse := fun _ _ => brokenProgram } "tsx" (.str "\né(")).verdict ≠ .success := by
  have hoccurs : brokenStatement.Occurs brokenProgram := .inside List.mem_cons_self .root
  have hdamaged : brokenStatement.Damaged := Or.inr (Or.inr rfl)
  have htsx : .tsx ∈ Grammar.scripts := by decide
  obtain ⟨-, hreported, hscript, -⟩ := damage_reported_exactly (Text.encode "\né(".toList)
    brokenProgram { parse := fun _ _ => brokenProgram } (.str "\né(")
  refine ⟨⟨hoccurs, hdamaged, htsx⟩, hreported brokenStatement hoccurs hdamaged, fun hsuccess => ?_⟩
  obtain ⟨s, -, -, -, -, -, hundamaged⟩ := (hscript .tsx htsx).1 hsuccess
  exact hundamaged brokenStatement hoccurs hdamaged

end SnippetAudit.Judge
