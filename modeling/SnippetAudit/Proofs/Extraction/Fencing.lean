import SnippetAudit.Proofs.Extraction.NormalForm
import SnippetAudit.Proofs.Extraction.Termination
import SnippetAudit.Proofs.Text.Lines
import SnippetAudit.Proofs.Text.Trimming

/-!
# Taking a text out of its fence

A text is put into a fence whatever it is: it may be fenced itself, end in backticks, or be blank. The first
round takes away exactly the fence that was put around it, and trims what is left. The text on its own is
trimmed first in its own first round. So both ways meet at the trimmed text, up to a carriage return at the end
that the line feed in front of the closing backticks takes with it.

## What this module delivers

- `inFence`: a text in a fence;
- `stripFences_inFence`: exactly the fence goes;
- `round_inFence`, `round_trim`: the rounds in which the two ways meet;
- `extract_inFence`: what is extracted from a text in a fence is what is extracted from the text.
-/

set_option autoImplicit false

namespace SnippetAudit.Extraction

open Text

/-- A text in a fence with a language tag. -/
def inFence (tag body : Text) : Text := fence ++ tag ++ '\n' :: (body ++ '\n' :: fence)

variable {tag : Text}

/-! ## The fence -/

/-- Behind the opening backticks, the tag goes with the rest of its line. -/
theorem dropTagLine_append (htag : ∀ c ∈ tag, isTagChar c = true) (t : Text) :
    dropTagLine (tag ++ '\n' :: t) = t := by
  have hstop : StopsAt isTagChar ('\n' :: t) := stopsAt_cons (by decide +kernel) t
  rw [dropTagLine, takeWhile_append_of_stopsAt htag hstop, dropWhile_append_of_stopsAt htag hstop]
  cases tag with
  | nil => rfl
  | cons c rest => rfl

theorem dropOpeningFence_append (htag : ∀ c ∈ tag, isTagChar c = true) (t : Text) :
    dropOpeningFence (fence ++ tag ++ '\n' :: t) = t := by
  rw [List.append_assoc, dropOpeningFence, if_pos ((isPrefixOf_iff_exists fence _).2 ⟨_, rfl⟩), List.drop_left,
    dropTagLine_append htag]

theorem dropClosingFence_append (t : Text) : dropClosingFence (t ++ '\n' :: fence) = t := by
  have hreverse : (t ++ '\n' :: fence).reverse = '\x60' :: '\x60' :: '\x60' :: '\n' :: t.reverse := by
    simp [fence]
  simp [dropClosingFence, hreverse, isSpaceTab]

/-- Exactly the fence goes, whatever the text in it is. -/
theorem stripFences_inFence (htag : ∀ c ∈ tag, isTagChar c = true) (body : Text) :
    stripFences (inFence tag body) = body := by
  rw [stripFences, inFence, dropOpeningFence_append htag, dropClosingFence_append]

/-- A fence starts and ends with backticks. -/
theorem trim_inFence (tag body : Text) : Text.trim (inFence tag body) = inFence tag body := by
  refine (Pass.run_eq_self_iff .trim _).2 ⟨?_, ?_⟩
  · intro c hc
    obtain rfl := Option.some.inj hc
    decide
  · intro c hc
    have hconcat : inFence tag body = (fence ++ tag ++ '\n' :: (body ++ ['\n', '\x60', '\x60'])) ++ ['\x60'] := by
      simp [inFence, fence]
    rw [hconcat, List.getLast?_concat] at hc
    obtain rfl := Option.some.inj hc
    decide

/-- Putting a text into a fence changes its line ends at most at its end. -/
theorem unixNewlines_inFence (htag : ∀ c ∈ tag, isTagChar c = true) (body : Text) :
    ∃ b w, unixNewlines body = b ++ w ∧ (∀ c ∈ w, c = '\r') ∧
      unixNewlines (inFence tag body) = inFence tag b := by
  obtain ⟨b, w, hbody, hw, hclosing⟩ := unixNewlines_append_lineFeed body fence
  refine ⟨b, w, hbody, hw, ?_⟩
  have hfirst : '\r' ∉ fence ++ tag ++ ['\n'] := by
    intro hmem
    rcases List.mem_append.1 hmem with hmem | hmem
    · rcases List.mem_append.1 hmem with hfence | htag'
      · exact absurd hfence (by decide)
      · exact absurd (htag '\r' htag') (by decide +kernel)
    · exact absurd hmem (by decide)
  have hsplit (t : Text) : inFence tag t = fence ++ tag ++ ['\n'] ++ (t ++ '\n' :: fence) := by simp [inFence]
  rw [hsplit, hsplit, unixNewlines_append (by simp), unixNewlines_of_not_mem hfirst, hclosing]
  rfl

/-! ## Rounds -/

theorem round_fenced (t : Text) : round (passes fenced) t = Text.trim (stripFences (Text.trim t)) := rfl

theorem round_inFence (htag : ∀ c ∈ tag, isTagChar c = true) (body : Text) :
    round (passes fenced) (inFence tag body) = Text.trim body := by
  rw [round_fenced, trim_inFence, stripFences_inFence htag]

theorem round_trim (t : Text) : round (passes fenced) (Text.trim t) = round (passes fenced) t := by
  rw [round_fenced, round_fenced, trim_trim]

/-- What is extracted from a text in a fence is what is extracted from the text. -/
theorem extract_inFence (htag : ∀ c ∈ tag, isTagChar c = true) (body : Text) :
    extract fenced (inFence tag body) = extract fenced body := by
  obtain ⟨b, w, hbody, hw, hfence⟩ := unixNewlines_inFence htag body
  have hblank : ∀ c ∈ w, isBlank c = true := by
    intro c hc
    rw [hw c hc]
    decide
  have htrim : Text.trim b = Text.trim (unixNewlines body) := by rw [hbody, trim_append hblank]
  rw [extract_eq_iff, hfence, ← exists_loop_round_iff, round_inFence htag, htrim, ← exists_loop_round_iff,
    round_trim, exists_loop_round_iff, ← extract_eq_iff]

end SnippetAudit.Extraction
