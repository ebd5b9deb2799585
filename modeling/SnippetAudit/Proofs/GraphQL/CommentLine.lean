import SnippetAudit.Proofs.Extraction.CommentLine
import SnippetAudit.Proofs.GraphQL.Reading
import SnippetAudit.Proofs.Text.Trimming

/-!
# Comment lines of documents

A line that starts with a hash sign is taken for a comment up to its line feed. In a document, the comment may end
before that, at a carriage return. So such a line may go if everything behind its hash sign is ignored, up to the line
feed. Where a carriage return stands in front of the hash sign, the line is no comment line, but may become one when
the blanks at the start of the text are cut off.

## What this module delivers

- `IsClosed`, `ClosedComments`: comment lines of which nothing is read;
- `skipIgnored_of_isDropped`: lines that go are ignored where a line starts;
- `CommentFree.of_blank_append`: without blanks at its start, a text has no comment lines that it had not with them.
-/

set_option autoImplicit false

namespace SnippetAudit.Extraction

open Text GraphQL

/-! ## Closed lines -/

/-- Apart from blanks, the line starts with a hash sign. -/
def startsWithHash (line : Text) : Bool := (trimStart line).head? == some '#'

/-- In front of the first hash sign of the line stands no carriage return, and everything from there on is ignored. -/
def IsClosed (line : Text) : Prop :=
  '\r' ∉ line.takeWhile (· != '#') ∧ skipIgnored (line.dropWhile (· != '#')) = []

instance (line : Text) : Decidable (IsClosed line) := inferInstanceAs (Decidable (_ ∧ _))

/-- Each line that starts with a hash sign, apart from blanks, is closed. -/
def ClosedComments (t : Text) : Prop := ∀ line ∈ lines t, startsWithHash line = true → IsClosed line

instance (t : Text) : Decidable (ClosedComments t) :=
  inferInstanceAs (Decidable (∀ line ∈ lines t, startsWithHash line = true → IsClosed line))

theorem isClosed_iff {s comment : Text} (hs : '#' ∉ s) :
    IsClosed (s ++ '#' :: comment) ↔ '\r' ∉ s ∧ skipIgnored ('#' :: comment) = [] := by
  have hpass : ∀ c ∈ s, (c != '#') = true := fun c hc => bne_iff_ne.2 fun heq => hs (heq ▸ hc)
  rw [IsClosed, List.takeWhile_append_of_pos hpass, List.dropWhile_append_of_pos hpass,
    List.takeWhile_cons_of_neg (by simp), List.dropWhile_cons_of_neg (by simp), List.append_nil]

theorem sign_not_mem_of_isBlank {s : Text} (hs : ∀ c ∈ s, isBlank c = true) : '#' ∉ s :=
  fun hmem => absurd (hs '#' hmem) (by decide)

theorem startsWithHash_iff (line : Text) :
    startsWithHash line = true ↔ ∃ s comment, line = s ++ '#' :: comment ∧ ∀ c ∈ s, isBlank c = true := by
  constructor
  · intro h
    obtain ⟨comment, hcomment⟩ := List.head?_eq_some_iff.1 (beq_iff_eq.1 h)
    obtain ⟨s, hs, hblank⟩ := exists_trimStart line
    exact ⟨s, comment, hcomment ▸ hs, hblank⟩
  · rintro ⟨s, comment, rfl, hs⟩
    rw [startsWithHash, trimStart, List.dropWhile_append_of_pos hs]
    rfl

theorem startsWithHash_of_isHashComment {line : Text} (h : isHashComment line = true) : startsWithHash line = true := by
  obtain ⟨s, comment, rfl, hs⟩ := (isHashComment_iff line).1 h
  exact (startsWithHash_iff _).2 ⟨s, comment, rfl, fun c hc => isBlank_of_isSpaceTab (hs c hc)⟩

/-! ## Lines that go -/

theorem skipIgnored_indent {s : Text} (hs : ∀ c ∈ s, isSpaceTab c = true) (t : Text) :
    skipIgnored (s ++ t) = skipIgnored t := by
  induction s with
  | nil => rfl
  | cons c more ih =>
    rw [List.forall_mem_cons] at hs
    have hc : behindIgnored? false c = some false := by
      have hspace := hs.1
      simp only [isSpaceTab, Bool.or_eq_true, beq_iff_eq] at hspace
      rcases hspace with rfl | rfl <;> rfl
    rw [List.cons_append, skipIgnored, skipIgnoredFrom_cons, hc]
    exact ih hs.2

/-- A line that goes is ignored where a line starts. -/
theorem skipIgnored_of_isDropped {line : Text} (h : isDropped line = true)
    (hclosed : startsWithHash line = true → IsClosed line) (rest : Text) :
    skipIgnored (line ++ '\n' :: rest) = skipIgnored rest := by
  have hline : skipIgnored line = [] := by
    rcases Bool.or_eq_true_iff.1 h with hcomment | hblank
    · have hclosed := hclosed (startsWithHash_of_isHashComment hcomment)
      obtain ⟨s, comment, rfl, hs⟩ := (isHashComment_iff line).1 hcomment
      rw [isClosed_iff (sign_not_mem_of_isBlank fun c hc => isBlank_of_isSpaceTab (hs c hc))] at hclosed
      exact (skipIgnored_indent hs _).trans hclosed.2
    · have hindent := skipIgnored_indent (List.all_eq_true.1 hblank) []
      rwa [List.append_nil] at hindent
  obtain ⟨comment, hgo⟩ := exists_skipIgnoredFrom hline
  -- the line feed ends the comment, if there is one
  rw [skipIgnored, hgo]
  cases comment <;> rfl

/-! ## Parts of a text -/

theorem ClosedComments.of_append {t w : Text} (h : ClosedComments (t ++ w)) : ClosedComments t := by
  obtain ⟨front, last, first, more, -, ht, -, hwhole⟩ := exists_lines_append t w
  rw [ClosedComments, hwhole, List.forall_mem_append, List.forall_mem_cons] at h
  rw [ClosedComments, ht, List.forall_mem_append, List.forall_mem_singleton]
  refine ⟨h.1, fun hlast => ?_⟩
  obtain ⟨s, comment, rfl, hs⟩ := (startsWithHash_iff last).1 hlast
  have hsign := sign_not_mem_of_isBlank hs
  have hlonger := h.2.1
  rw [List.append_assoc, List.cons_append, startsWithHash_iff, isClosed_iff hsign] at hlonger
  obtain ⟨hreturn, hskip⟩ := hlonger ⟨s, _, rfl, hs⟩
  rw [isClosed_iff hsign]
  refine ⟨hreturn, ?_⟩
  -- what is left of a part is left of the whole
  cases hleft : skipIgnored ('#' :: comment) with
  | nil => rfl
  | cons c rest =>
    rw [← List.cons_append, skipIgnored_append_of_cons hleft] at hskip
    cases hskip

theorem ClosedComments.of_blank_append {w t : Text} (hw : ∀ c ∈ w, isBlank c = true)
    (h : ClosedComments (w ++ t)) : ClosedComments t := by
  obtain ⟨front, last, first, more, rfl, -, ht, hwhole⟩ := exists_lines_append w t
  have hlast : ∀ c ∈ last, isBlank c = true := fun c hc => hw c (List.mem_append_right _ hc)
  rw [ClosedComments, hwhole, List.forall_mem_append, List.forall_mem_cons] at h
  rw [ClosedComments, ht, List.forall_mem_cons]
  refine ⟨fun hfirst => ?_, h.2.2⟩
  obtain ⟨s, comment, rfl, hs⟩ := (startsWithHash_iff first).1 hfirst
  have hboth : ∀ c ∈ last ++ s, isBlank c = true := List.forall_mem_append.2 ⟨hlast, hs⟩
  have hlonger := h.2.1
  rw [← List.append_assoc, startsWithHash_iff, isClosed_iff (sign_not_mem_of_isBlank hboth)] at hlonger
  obtain ⟨hreturn, hskip⟩ := hlonger ⟨last ++ s, comment, rfl, hboth⟩
  exact (isClosed_iff (sign_not_mem_of_isBlank hs)).2 ⟨fun hmem => hreturn (List.mem_append_right _ hmem), hskip⟩

theorem ClosedComments.stripHashComments {t : Text} (h : ClosedComments t) :
    ClosedComments (Extraction.stripHashComments t) := by
  by_cases hfree : CommentFree t
  · rwa [stripHashComments_of_commentFree hfree]
  · obtain ⟨w, hw, -⟩ := exists_stripHashComments hfree
    have hkept : ClosedComments (terminated (keptLines t)) := by
      rw [ClosedComments, lines_terminated fun _ => not_mem_of_mem_keptLines, List.forall_mem_append,
        List.forall_mem_singleton]
      exact ⟨fun line hline => h line (List.mem_filter.1 hline).1, nofun⟩
    rw [hw] at hkept
    exact hkept.of_append

theorem isBlank_of_isSpaceTab_or {c : Char} (h : isSpaceTab c = true ∨ c = '\n' ∨ c = '\r') :
    isBlank c = true := by
  rcases h with htab | rfl | rfl
  · exact isBlank_of_isSpaceTab htab
  · decide
  · decide

/-- Cutting off spaces, tabs and line ends at the start adds no comment line. -/
theorem CommentFree.of_blank_append {w t : Text} (hw : ∀ c ∈ w, isSpaceTab c = true ∨ c = '\n' ∨ c = '\r')
    (hclosed : ClosedComments (w ++ t)) (h : CommentFree (w ++ t)) : CommentFree t := by
  obtain ⟨front, last, first, more, rfl, -, ht, hwhole⟩ := exists_lines_append w t
  have hin : last ++ first ∈ lines (terminated front ++ last ++ t) := by
    rw [hwhole]
    exact List.mem_append_right front List.mem_cons_self
  rw [CommentFree, ht, List.forall_mem_cons]
  constructor
  · cases hfirst : isHashComment first with
    | false => rfl
    | true =>
      -- the hash sign is the first one of the longer line as well, so that only spaces and tabs stand before it
      obtain ⟨s, comment, rfl, hs⟩ := (isHashComment_iff first).1 hfirst
      have hblank : ∀ c ∈ last ++ s, isBlank c = true := by
        refine List.forall_mem_append.2 ⟨fun c hc => ?_, fun c hc => isBlank_of_isSpaceTab (hs c hc)⟩
        exact isBlank_of_isSpaceTab_or (hw c (List.mem_append_right _ hc))
      have hreturn := hclosed _ hin
      rw [← List.append_assoc, startsWithHash_iff, isClosed_iff (sign_not_mem_of_isBlank hblank)] at hreturn
      have hindent : ∀ c ∈ last, isSpaceTab c = true := by
        intro c hc
        rcases hw c (List.mem_append_right _ hc) with htab | rfl | rfl
        · exact htab
        · exact absurd (List.mem_append_left _ hc) (not_mem_of_mem_lines hin)
        · exact absurd (List.mem_append_left s hc) (hreturn ⟨last ++ s, comment, rfl, hblank⟩).1
      have hlonger := h _ hin
      rw [isHashComment_append hindent, hfirst] at hlonger
      cases hlonger
  · intro line hline
    apply h
    rw [hwhole]
    exact List.mem_append_right front (List.mem_cons_of_mem _ hline)

end SnippetAudit.Extraction
