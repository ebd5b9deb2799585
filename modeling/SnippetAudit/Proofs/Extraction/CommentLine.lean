import SnippetAudit.Proofs.Extraction.Collapse
import SnippetAudit.Proofs.Extraction.NormalForm

/-!
# Removing comment lines

Where a text has a line that starts with a hash sign, removing such lines removes the blank ones as well, so that
the other lines are left, each as it is. Once it is free of comment lines, a text stays so when its end is cut
off.

## What this module delivers

- `isDropped`, `keptLines`: the lines that go and the lines that stay;
- `CommentFree`: a text without comment lines;
- `stripHashComments_of_not_commentFree`: what removing comment lines leaves where there are some;
- `stripHashComments_eq_filter_lines`: removing them as a filter of lines;
- `CommentFree.of_append`: nothing becomes a comment line at the end.
-/

set_option autoImplicit false

namespace SnippetAudit.Extraction

open Text

/-- The line goes together with the comment lines: it is one of them or blank. -/
def isDropped (line : Text) : Bool := isHashComment line || line.all isSpaceTab

/-- The lines that stay where comment lines go. -/
def keptLines (t : Text) : List Text := (lines t).filter fun line => !isDropped line

/-- Spaces and tabs, a hash sign, and anything behind it. -/
def IsCommentLine (line : Text) : Prop := ∃ s rest, line = s ++ '#' :: rest ∧ ∀ c ∈ s, isSpaceTab c = true

/-- Spaces and tabs, or nothing at all. -/
def IsBlankLine (line : Text) : Prop := ∀ c ∈ line, isSpaceTab c = true

theorem isHashComment_iff_isCommentLine (line : Text) : isHashComment line = true ↔ IsCommentLine line :=
  isHashComment_iff line

instance : DecidablePred IsCommentLine := fun line => decidable_of_iff _ (isHashComment_iff_isCommentLine line)

instance : DecidablePred IsBlankLine := fun line =>
  inferInstanceAs (Decidable (∀ c ∈ line, isSpaceTab c = true))

theorem not_isDropped_eq (line : Text) :
    (!isDropped line) = decide (¬ IsCommentLine line ∧ ¬ IsBlankLine line) := by
  rw [Bool.eq_iff_iff, decide_eq_true_iff, isDropped, Bool.not_eq_true', Bool.or_eq_false_iff,
    ← isHashComment_iff_isCommentLine, IsBlankLine, ← List.all_eq_true, Bool.not_eq_true, Bool.not_eq_true]

/-- Where comment lines are cleared, the lines that stay are the visible ones. -/
theorem visibleLines_mapLines_clearComment (t : Text) : visibleLines (mapLines clearComment t) = keptLines t := by
  rw [visibleLines, lines_mapLines clearComment_sublist]
  refine filter_map_clearing rfl (fun line => ?_) _
  rw [clearComment, isDropped, isVisible]
  cases isHashComment line with
  | true => exact Or.inr ⟨rfl, rfl⟩
  | false => exact Or.inl ⟨rfl, rfl⟩

/-! ## Texts without comment lines -/

/-- No line of the text starts with a hash sign. -/
def CommentFree (t : Text) : Prop := ∀ line ∈ lines t, isHashComment line = false

instance (t : Text) : Decidable (CommentFree t) :=
  inferInstanceAs (Decidable (∀ line ∈ lines t, isHashComment line = false))

theorem commentFree_iff (t : Text) : CommentFree t ↔ ¬ ∃ line ∈ lines t, IsCommentLine line := by
  simp only [CommentFree, ← isHashComment_iff_isCommentLine, not_exists, not_and, Bool.not_eq_true]

theorem stripHashComments_of_commentFree {t : Text} (h : CommentFree t) : stripHashComments t = t := by
  rw [← Pass.run, Pass.run_eq_self_iff]
  intro line hline hcomment
  rw [← isHashComment_iff, h line hline] at hcomment
  cases hcomment

/-- Where there is a comment line, the lines that stay are left. -/
theorem stripHashComments_of_not_commentFree {t : Text} (h : ¬ CommentFree t) :
    stripHashComments t = unlines (keptLines t) := by
  have hchanged : mapLines clearComment t ≠ t := by
    intro heq
    apply h
    intro line hline
    have hsame := (mapLines_eq_self_iff clearComment_sublist t).1 heq line hline
    rw [clearComment_eq_self_iff, ← isHashComment_iff] at hsame
    exact Bool.eq_false_iff.2 hsame
  rw [stripHashComments, tidy, if_neg hchanged, collapse_zero, visibleLines_mapLines_clearComment]

/-- What is left are these lines, without the line feed at their end. -/
theorem exists_stripHashComments {t : Text} (h : ¬ CommentFree t) :
    ∃ w, terminated (keptLines t) = stripHashComments t ++ w ∧ ∀ c ∈ w, c = '\n' := by
  rw [stripHashComments_of_not_commentFree h]
  by_cases hnone : keptLines t = []
  · exact ⟨[], by rw [hnone]; rfl, by simp⟩
  · exact ⟨['\n'], terminated_eq_unlines_append hnone, by simp⟩

/-- Removing comments is a filter of lines. A line ends at a line feed and nowhere else. -/
theorem stripHashComments_eq_filter_lines (t : Text) :
    (unlines (lines t) = t ∧ ∀ line ∈ lines t, '\n' ∉ line) ∧
      stripHashComments t =
        if ∃ line ∈ lines t, IsCommentLine line then
          unlines ((lines t).filter fun line => ¬ IsCommentLine line ∧ ¬ IsBlankLine line)
        else t := by
  refine ⟨⟨unlines_lines t, fun _ => not_mem_of_mem_lines⟩, ?_⟩
  split
  · next hsome =>
    have hfree : ¬ CommentFree t := mt (commentFree_iff t).1 (not_not_intro hsome)
    rw [stripHashComments_of_not_commentFree hfree, keptLines]
    congr 1
    exact List.filter_congr fun line _ => not_isDropped_eq line
  · next hnone => exact stripHashComments_of_commentFree ((commentFree_iff t).2 hnone)

/-- A carriage return ends no line, so that the comment goes on behind it. -/
example : stripHashComments "a\n \t\n # b\rc\n\nd ".toList = "a\nd ".toList := by decide

theorem isHashComment_cons (c : Char) (rest : Text) :
    isHashComment (c :: rest) = if isSpaceTab c then isHashComment rest else c == '#' := by
  rw [isHashComment, List.dropWhile_cons]
  split
  · rfl
  · rfl

theorem isHashComment_append {s : Text} (hs : ∀ c ∈ s, isSpaceTab c = true) (t : Text) :
    isHashComment (s ++ t) = isHashComment t := by
  induction s with
  | nil => rfl
  | cons c more ih =>
    rw [List.forall_mem_cons] at hs
    rw [List.cons_append, isHashComment_cons, if_pos hs.1, ih hs.2]

theorem isHashComment_append_right {t : Text} (h : isHashComment t = true) (w : Text) :
    isHashComment (t ++ w) = true := by
  obtain ⟨s, text, rfl, hs⟩ := (isHashComment_iff t).1 h
  rw [List.append_assoc, isHashComment_append hs]
  rfl

theorem not_mem_of_mem_keptLines {t line : Text} (h : line ∈ keptLines t) : '\n' ∉ line :=
  not_mem_of_mem_lines (List.mem_filter.1 h).1

theorem commentFree_terminated_keptLines (t : Text) : CommentFree (terminated (keptLines t)) := by
  rw [CommentFree, lines_terminated fun _ => not_mem_of_mem_keptLines, List.forall_mem_append,
    List.forall_mem_singleton]
  refine ⟨fun line hline => ?_, rfl⟩
  have hstays := (List.mem_filter.1 hline).2
  rw [Bool.not_eq_true', isDropped, Bool.or_eq_false_iff] at hstays
  exact hstays.1

/-- Cutting the end off adds no comment line. -/
theorem CommentFree.of_append {t w : Text} (h : CommentFree (t ++ w)) : CommentFree t := by
  obtain ⟨front, last, first, more, -, ht, -, hwhole⟩ := exists_lines_append t w
  rw [CommentFree, hwhole, List.forall_mem_append, List.forall_mem_cons] at h
  rw [CommentFree, ht, List.forall_mem_append, List.forall_mem_singleton]
  refine ⟨h.1, ?_⟩
  cases hlast : isHashComment last with
  | false => rfl
  | true =>
    have hlonger := h.2.1
    rw [isHashComment_append_right hlast] at hlonger
    cases hlonger

end SnippetAudit.Extraction
