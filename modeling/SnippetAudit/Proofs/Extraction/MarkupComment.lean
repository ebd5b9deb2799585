import SnippetAudit.Proofs.Extraction.Collapse
import SnippetAudit.Proofs.Extraction.Removal
import SnippetAudit.Proofs.Text.Erasing

/-!
# Removing markup comments

A markup comment goes from its opening mark to the next closing mark. Neither mark overlaps itself. So a comment ends
where its text ends, even if that ends in dashes, and it starts where it was put, even behind something that looks
like the start of a mark. What is left is the text around the comments.

## What this module delivers

- `MarkupComment`, `commented`: comments as they are written, with other text between them;
- `erase_commented`: the comments go, and nothing else does;
- `stripHtmlComments_commented`: the other text is what is left, with its blank lines collapsed.
-/

set_option autoImplicit false

namespace SnippetAudit.Extraction

open Text

/-- The mark that opens a comment. -/
def openingMark : Text := "<!--".toList

/-- The mark that closes a comment. -/
def closingMark : Text := "-->".toList

/-- A comment as it is written. -/
structure MarkupComment where
  content : Text
  /-- The first closing mark is the one behind the content. -/
  content_open : ¬ closingMark <:+: content

/-- The text of a comment. -/
def MarkupComment.text (c : MarkupComment) : Text := openingMark ++ (c.content ++ closingMark)

theorem MarkupComment.text_ne_nil (c : MarkupComment) : c.text ≠ [] :=
  List.append_ne_nil_of_left_ne_nil (by decide) _

/-- Comments, each behind a piece of other text, and the other text behind the last one. -/
def commented : List (Text × MarkupComment) → Text → Text
  | [], last => last
  | (t, c) :: rest, last => t ++ (c.text ++ commented rest last)

/-- The other text alone. -/
def uncommented (pieces : List (Text × MarkupComment)) (last : Text) : Text := pieces.flatMap Prod.fst ++ last

theorem length_commented (pieces : List (Text × MarkupComment)) (last : Text) :
    (uncommented pieces last).length + pieces.length ≤ (commented pieces last).length := by
  induction pieces with
  | nil => exact Nat.le_refl _
  | cons piece rest ih =>
    obtain ⟨t, c⟩ := piece
    have hpos := List.length_pos_iff.2 c.text_ne_nil
    simp only [uncommented, commented, List.flatMap_cons, List.length_append, List.length_cons] at ih ⊢
    omega

/-- A comment is matched from its opening mark to the closing mark behind its content. -/
theorem htmlComment_text (before : Option Char) (c : MarkupComment) (rest : Text) :
    htmlComment before (c.text ++ rest) = c.text.length := by
  have hsplit : c.text ++ rest = openingMark ++ (c.content ++ (closingMark ++ rest)) := by
    rw [MarkupComment.text, List.append_assoc, List.append_assoc]
  have hclosing := lengthThrough?_append (by decide : Borderless closingMark) (by decide) c.content_open rest
  rw [hsplit, htmlComment, between, ← openingMark, ← closingMark,
    if_pos (List.isPrefixOf_iff_prefix.2 (List.prefix_append _ _)), List.drop_left, hclosing]
  simp only [MarkupComment.text, List.length_append]

/-- Nothing matches where no opening mark stands. -/
theorem htmlComment_eq_zero (before : Option Char) {t : Text} (h : ¬ openingMark <+: t) : htmlComment before t = 0 := by
  rw [htmlComment, between, ← openingMark, if_neg (mt List.isPrefixOf_iff_prefix.1 h)]

/-- No comment starts in other text, whatever stands behind it. -/
theorem htmlComment_eq_zero_of_append {t u v : Text} (ht : ¬ openingMark <:+: t) (hsplit : t = u ++ v) (hv : v ≠ [])
    (before : Option Char) (c : MarkupComment) (rest : Text) : htmlComment before (v ++ (c.text ++ rest)) = 0 := by
  apply htmlComment_eq_zero
  intro hprefix
  rw [MarkupComment.text, List.append_assoc] at hprefix
  have hin := prefix_of_borderless (by decide : Borderless openingMark) hv hprefix
  exact ht (hin.isInfix.trans (hsplit ▸ (List.suffix_append u v).isInfix))

/-- The comments go, one after the other, and the other text stays. -/
theorem erase_commented (last : Text) (hlast : ¬ openingMark <:+: last) (pieces : List (Text × MarkupComment))
    (hpieces : ∀ piece ∈ pieces, ¬ openingMark <:+: piece.1) :
    ∀ before, eraseFrom htmlComment before 0 (commented pieces last) = uncommented pieces last := by
  induction pieces with
  | nil =>
    intro before
    rw [commented, uncommented, List.flatMap_nil, List.nil_append, eraseFrom_eq_self_iff]
    rintro ⟨u, v, rfl, -, hmatch⟩
    refine hmatch (htmlComment_eq_zero _ fun hprefix => hlast ?_)
    exact hprefix.isInfix.trans (List.suffix_append u v).isInfix
  | cons piece rest ih =>
    obtain ⟨t, c⟩ := piece
    rw [List.forall_mem_cons] at hpieces
    intro before
    have hfront : ∀ u v, t = u ++ v → v ≠ [] →
        htmlComment (u.getLast?.or before) (v ++ (c.text ++ commented rest last)) = 0 :=
      fun u v hsplit hv => htmlComment_eq_zero_of_append hpieces.1 hsplit hv _ c _
    calc eraseFrom htmlComment before 0 (t ++ (c.text ++ commented rest last))
        = t ++ eraseFrom htmlComment (t.getLast?.or before) 0 (c.text ++ commented rest last) :=
          eraseFrom_append t hfront
      _ = t ++ eraseFrom htmlComment c.text.getLast? 0 (commented rest last) := by
          rw [eraseFrom_of_match c.text_ne_nil (htmlComment_text _ c _)]
      _ = t ++ uncommented rest last := by rw [ih hpieces.2]
      _ = uncommented ((t, c) :: rest) last := by simp [uncommented]

/-- Where comments stand in text without opening marks, exactly the comments are removed, and the blank lines that are
left are collapsed. The lines with something on them stay as they are and in their order. -/
theorem stripHtmlComments_commented (pieces : List (Text × MarkupComment)) (last : Text) (hpieces : pieces ≠ [])
    (hother : ∀ piece ∈ pieces, ¬ openingMark <:+: piece.1) (hlast : ¬ openingMark <:+: last) :
    stripHtmlComments (commented pieces last) = collapse 1 (uncommented pieces last) ∧
      visibleLines (stripHtmlComments (commented pieces last)) = visibleLines (uncommented pieces last) := by
  have hlength := length_commented pieces last
  have hpos := List.length_pos_iff.2 hpieces
  have hstrip : stripHtmlComments (commented pieces last) = collapse 1 (uncommented pieces last) := by
    rw [stripHtmlComments, erase, erase_commented last hlast pieces hother, tidy, if_neg]
    intro heq
    rw [heq] at hlength
    omega
  exact ⟨hstrip, by rw [hstrip, visibleLines_collapse]⟩

/-- A comment over two lines whose text ends in a dash. -/
def dashedComment : MarkupComment where
  content := " a <!--\n -".toList
  content_open := mt (lengthThrough?_isSome_iff _ _).2 (by decide)

/-- A comment with nothing in it. -/
def emptyComment : MarkupComment where
  content := []
  content_open := mt (lengthThrough?_isSome_iff _ _).2 (by decide)

/-- A comment behind what could start its mark, and another one directly behind it. -/
theorem stripHtmlComments_commented_dashed :
    let pieces := [("<p>\n<!-".toList, dashedComment), ([], emptyComment)]
    pieces ≠ [] ∧ (∀ piece ∈ pieces, ¬ openingMark <:+: piece.1) ∧ ¬ openingMark <:+: "\n\n\n</p>".toList ∧
      stripHtmlComments (commented pieces "\n\n\n</p>".toList) = "<p>\n<!-\n\n</p>".toList ∧
      visibleLines (stripHtmlComments (commented pieces "\n\n\n</p>".toList)) =
        ["<p>".toList, "<!-".toList, "</p>".toList] := by
  intro pieces
  have hpieces : pieces ≠ [] := List.cons_ne_nil _ _
  have hother : ∀ piece ∈ pieces, ¬ openingMark <:+: piece.1 := by
    simp only [pieces, List.forall_mem_cons, ← lengthThrough?_isSome_iff]
    exact ⟨by decide, by decide, by simp⟩
  have hlast : ¬ openingMark <:+: "\n\n\n</p>".toList := mt (lengthThrough?_isSome_iff _ _).2 (by decide)
  obtain ⟨hstrip, hvisible⟩ := stripHtmlComments_commented pieces _ hpieces hother hlast
  refine ⟨hpieces, hother, hlast, hstrip.trans (by decide), hvisible.trans (by decide)⟩

end SnippetAudit.Extraction
