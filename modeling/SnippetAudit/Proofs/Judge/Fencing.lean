import SnippetAudit.Proofs.Extraction.Fencing
import SnippetAudit.Proofs.Judge.Script

/-!
# A fence makes no difference

A script or a piece of Rust code is judged by what is extracted from it. That is the same whether or not a fence
has been put around the code, so the outcome is the same as well, with the places of all problems in it: they
are places in what is extracted.

## What this module delivers

- `judgeSource_congr`: snippets from which the same is extracted have the same outcome;
- `judged_alike_in_fence`: a snippet in a fence has the outcome of the snippet on its own.
-/

set_option autoImplicit false

namespace SnippetAudit.Judge

open Syntax Extraction

/-- Snippets from which the same is extracted have the same outcome. -/
theorem judgeSource_congr {env : Environment} {stage : Stage} {code code' : Text} (hne : code ≠ [])
    (hne' : code' ≠ []) (hbreakdown : env.breakdown stage code = env.breakdown stage code')
    (hextract : extract fenced code = extract fenced code') (g : Grammar) :
    judgeSource env stage g (.str (String.ofList code)) = judgeSource env stage g (.str (String.ofList code')) := by
  have hread {t : Text} (ht : t ≠ []) :
      nonEmptyText "code" (.str (String.ofList t)) = .ok (String.ofList t) :=
    (nonEmptyText_eq_ok_iff _ _ _).2 ⟨rfl, mt String.ofList_eq_empty_iff.1 ht⟩
  simp only [judgeSource, hread hne, hread hne', String.toList_ofList, Environment.attempt, hbreakdown, hextract]

/-- What is extracted from a snippet in a fence with a language tag is what is extracted from the snippet. If the
snippet is not empty, it is judged in its fence as it is on its own, under every grammar, unless getting at the
code breaks down on one of the two alone. -/
theorem judged_alike_in_fence (tag body : Text) (htag : ∀ c ∈ tag, isTagChar c = true) :
    extract fenced (inFence tag body) = extract fenced body ∧
      ∀ env : Environment, body ≠ [] →
        (env.breakdown .scriptExtraction (inFence tag body) = env.breakdown .scriptExtraction body →
          ∀ grammar : String, judgeScript env grammar (.str (String.ofList (inFence tag body))) =
            judgeScript env grammar (.str (String.ofList body))) ∧
        (env.breakdown .rustExtraction (inFence tag body) = env.breakdown .rustExtraction body →
          judgeRust env (.str (String.ofList (inFence tag body))) = judgeRust env (.str (String.ofList body))) := by
  have hextract := extract_inFence htag body
  have hfence : inFence tag body ≠ [] := List.cons_ne_nil _ _
  refine ⟨hextract, fun env hbody => ⟨fun hbreakdown grammar => ?_, fun hbreakdown => ?_⟩⟩
  · rw [judgeScript, judgeScript]
    split
    · next g _ => exact judgeSource_congr hfence hbody hbreakdown hextract g
    · rfl
  · exact judgeSource_congr hfence hbody hbreakdown hextract .rust

/-- A statement in a fence of its own, with a carriage return at the end. -/
def fencedStatement : Text := "\x60\x60\x60\né(\n\x60\x60\x60\r".toList

/-- A parser that cannot read the bracket. -/
def openBracketEnvironment : Environment where
  parse _ _ := ⟨"program", true, false, true, 0, 3, none, [⟨errorKind, true, false, true, 2, 3, none, []⟩]⟩

/-- Both fences go, and the bracket is reported at its place in the statement. -/
theorem judged_alike_in_fence_statement :
    (∀ c ∈ "c++".toList, isTagChar c = true) ∧ fencedStatement ≠ [] ∧
      extract fenced (inFence "c++".toList fencedStatement) = "é(".toList ∧
      judgeScript openBracketEnvironment "tsx" (.str (String.ofList (inFence "c++".toList fencedStatement))) =
        .failed ("TSX syntax errors: Line 1, Column 1: Parse error in program; " ++
          "Line 1, Column 2: Syntax error: unexpected token '('") := by
  have htag : ∀ c ∈ "c++".toList, isTagChar c = true := List.all_eq_true.1 (by decide +kernel)
  have hne : fencedStatement ≠ [] := by decide
  have hraw : extract fenced fencedStatement = "é(".toList := by decide +kernel
  have houtcome : judgeScript openBracketEnvironment "tsx" (.str (String.ofList fencedStatement)) =
      .failed ("TSX syntax errors: Line 1, Column 1: Parse error in program; " ++
        "Line 1, Column 2: Syntax error: unexpected token '('") := by
    decide +kernel
  obtain ⟨hextract, hjudged⟩ := judged_alike_in_fence "c++".toList fencedStatement htag
  exact ⟨htag, hne, hextract.trans hraw,
    ((hjudged openBracketEnvironment hne).1 rfl "tsx").trans houtcome⟩

end SnippetAudit.Judge
