import SnippetAudit.Extraction.Extract
import SnippetAudit.Proofs.GraphQL.CommentLine
import SnippetAudit.Proofs.Text.Trimming

/-!
# Cleaning an operation

Cleaning trims a text, takes it out of its fences and removes its comment lines, again and again until nothing
changes. The comment lines and the blank lines that go with them are ignored between tokens, so that cleaning
keeps the tokens of a text, as long as none of these lines is part of a token.

## What this module delivers

- `Detached`: no line that goes is part of a token, with `detached_iff` to test it;
- `Reads.filter_lines`: the lines that stay are read as all lines are;
- `ReadsClean`: what a round of cleaning preserves, with `ReadsClean.round`;
- `parse_extract`: a cleaned text is parsed as the text is.
-/

set_option autoImplicit false

namespace SnippetAudit.GraphQL

open Text Extraction

/-- Where comment lines are to go, the text in front of each line that goes is made of whole tokens. -/
def Detached (t : Text) : Prop :=
  ¬ CommentFree t → ∀ before line after, lines t = before ++ line :: after → isDropped line = true →
    (tokens (terminated before)).sights?.isSome = true

/-- The lines that go can be gone through one by one. -/
theorem detached_iff {t : Text} : Detached t ↔ CommentFree t ∨ ∀ n ∈ List.range (lines t).length,
    ((lines t)[n]?.any isDropped) = true → (tokens (terminated ((lines t).take n))).sights?.isSome = true := by
  constructor
  · intro h
    by_cases hfree : CommentFree t
    · exact Or.inl hfree
    · refine Or.inr fun n hn hdropped => ?_
      have hlt := List.mem_range.1 hn
      rw [List.getElem?_eq_getElem hlt] at hdropped
      apply h hfree _ _ ((lines t).drop (n + 1)) _ hdropped
      rw [← List.drop_eq_getElem_cons hlt, List.take_append_drop]
  · rintro (hfree | hall) hcomment before line after heq hdropped
    · exact absurd hfree hcomment
    · have hn := hall before.length
      rw [heq, List.take_left, List.getElem?_append_right (Nat.le_refl _), Nat.sub_self] at hn
      exact hn (List.mem_range.2 (by simp)) hdropped

instance (t : Text) : Decidable (Detached t) := decidable_of_iff _ detached_iff.symm

/-! ## Lines that go -/

/-- Lines that are no part of tokens may go behind other lines. -/
theorem Reads.filter_lines {done ls : List Text} {sights : List (TokenKind × String)}
    (hls : ∀ line ∈ ls, startsWithHash line = true → IsClosed line)
    (hdetached : ∀ before line after, ls = before ++ line :: after → isDropped line = true →
      ∃ taken, Reads (terminated (done ++ before)) taken)
    (h : Reads (terminated (done ++ ls)) sights) :
    Reads (terminated (done ++ ls.filter fun line => !isDropped line)) sights := by
  -- the lines that stay are moved to those that are done
  induction ls generalizing done with
  | nil => exact h
  | cons line more ih =>
    rw [List.forall_mem_cons] at hls
    cases hline : isDropped line with
    | true =>
      -- without the line, what stands in front of later lines is read as before
      obtain ⟨taken, htaken⟩ := hdetached [] line more rfl hline
      rw [List.append_nil] at htaken
      have hskip (ls' : List Text) :
          skipIgnored (terminated (line :: ls')) = skipIgnored (terminated ls') := by
        rw [terminated_cons]
        exact skipIgnored_of_isDropped hline hls.1 _
      have hgone {ls' : List Text} {sights' : List (TokenKind × String)}
          (h' : Reads (terminated (done ++ line :: ls')) sights') : Reads (terminated (done ++ ls')) sights' := by
        rw [terminated_append] at h' ⊢
        exact htaken.replace (lineStart_terminated done) (hskip ls') h'
      rw [List.filter_cons_of_neg (by simp [hline])]
      refine ih hls.2 (fun before other after heq hother => ?_) (hgone h)
      obtain ⟨taken', htaken'⟩ := hdetached (line :: before) other after (by rw [heq]; rfl) hother
      exact ⟨taken', hgone htaken'⟩
    | false =>
      rw [List.filter_cons_of_pos (by simp [hline])]
      rw [List.append_cons] at h ⊢
      refine ih hls.2 (fun before other after heq hother => ?_) h
      obtain ⟨taken, htaken⟩ := hdetached (line :: before) other after (by rw [heq]; rfl) hother
      exact ⟨taken, by rwa [List.append_cons] at htaken⟩

/-- Removing comment lines keeps the tokens. -/
theorem Reads.stripHashComments {t : Text} {sights : List (TokenKind × String)} (h : Reads t sights)
    (hclosed : ClosedComments t) (hdetached : Detached t) :
    Reads (Extraction.stripHashComments t) sights ∧ CommentFree (Extraction.stripHashComments t) := by
  by_cases hfree : CommentFree t
  · rw [stripHashComments_of_commentFree hfree]
    exact ⟨h, hfree⟩
  · have hwhole : Reads (terminated ([] ++ lines t)) sights := by
      rw [List.nil_append, terminated_lines]
      exact h.append_lineFeed
    -- with a line feed behind the last line, every line is a whole one
    have hkept : Reads (terminated (keptLines t)) sights := by
      refine Reads.filter_lines hclosed (fun before line after heq hline => ?_) hwhole
      obtain ⟨taken, htaken⟩ := Option.isSome_iff_exists.1 (hdetached hfree before line after heq hline)
      exact ⟨taken, reads_iff.2 htaken⟩
    obtain ⟨w, hw, hfeeds⟩ := exists_stripHashComments hfree
    have hfree' := commentFree_terminated_keptLines t
    rw [hw] at hkept hfree'
    refine ⟨hkept.of_append fun c hc => ?_, hfree'.of_append⟩
    rw [hfeeds c hc]
    decide

/-! ## Cutting off blanks -/

/-- A text that is cut off at its end has the lines that go where it had them, if its end is no blank. -/
theorem Detached.of_append {t w : Text} (hlast : ∀ c ∈ t.getLast?, isBlank c = false) (h : Detached (t ++ w)) :
    Detached t := by
  intro hfree before line after heq hdropped
  have hfree' : ¬ CommentFree (t ++ w) := fun h' => hfree h'.of_append
  obtain ⟨front, last, first, more, ht, hlines, -, hwhole⟩ := exists_lines_append t w
  rw [hlines] at heq
  rcases List.eq_nil_or_concat after with rfl | ⟨between, final, rfl⟩
  · -- the last line goes on in the whole text, where a comment is still one
    obtain ⟨rfl, hline⟩ := List.append_inj' heq rfl
    obtain rfl := (List.cons.inj hline).1
    rcases Bool.or_eq_true_iff.1 hdropped with hcomment | hblank
    · apply h hfree' _ _ more hwhole
      rw [isDropped, isHashComment_append_right hcomment]
      rfl
    · -- a text that ends with a blank line and with no blank is empty
      cases hend : t.getLast? with
      | none =>
        rw [List.getLast?_eq_none_iff.1 hend, eq_comm, List.append_eq_nil_iff] at ht
        rw [ht.1]
        rfl
      | some c =>
        have hc := hlast c hend
        rw [ht, List.getLast?_append] at hend
        have hcblank : isBlank c = true := by
          cases hlast' : last.getLast? with
          | none =>
            rw [hlast', Option.none_or] at hend
            rw [lineStart_terminated front c hend]
            decide
          | some d =>
            rw [hlast', Option.some_or] at hend
            obtain rfl := Option.some.inj hend
            exact isBlank_of_isSpaceTab (List.all_eq_true.1 hblank d (List.mem_of_getLast? hlast'))
        rw [hcblank] at hc
        cases hc
  · rw [List.concat_eq_append, ← List.cons_append, ← List.append_assoc] at heq
    obtain ⟨rfl, -⟩ := List.append_inj' heq rfl
    apply h hfree' before line (between ++ (last ++ first) :: more) _ hdropped
    rw [hwhole, List.append_assoc, List.cons_append]

/-- A text without the blanks at its start has the lines that go where it had them. -/
theorem Detached.of_blank_append {w t : Text} (hw : ∀ c ∈ w, isSpaceTab c = true ∨ c = '\n' ∨ c = '\r')
    (hclosed : ClosedComments (w ++ t)) (h : Detached (w ++ t)) : Detached t := by
  intro hfree before line after heq hdropped
  have hfree' : ¬ CommentFree (w ++ t) := fun h' => hfree (h'.of_blank_append hw hclosed)
  cases before with
  | nil => rfl
  | cons start others =>
    -- in the whole text, the first line has more blanks in front of it
    obtain ⟨front, last, first, more, rfl, -, ht, hwhole⟩ := exists_lines_append w t
    rw [ht] at heq
    obtain ⟨rfl, rfl⟩ := List.cons.inj heq
    have hlines : lines (terminated front ++ last ++ t) = (front ++ (last ++ first) :: others) ++ line :: after := by
      rw [hwhole, List.append_assoc]
      rfl
    have hgone : terminated (front ++ (last ++ first) :: others) =
        terminated front ++ last ++ terminated (first :: others) := by
      rw [terminated_append, terminated_cons, terminated_cons, List.append_assoc, List.append_assoc]
    have hblank : ∀ c ∈ terminated front ++ last, isBlank c = true := fun c hc => isBlank_of_isSpaceTab_or (hw c hc)
    obtain ⟨taken, htaken⟩ := Option.isSome_iff_exists.1 (h hfree' _ line after hlines hdropped)
    rw [hgone] at htaken
    rw [reads_iff.1 ((reads_iff.2 htaken).of_blank_append hblank).1]
    rfl

/-! ## Rounds -/

/-- A text in which a round of cleaning finds nothing that it could remove from inside: it is read to its end, has
no comment lines, and gets none when it is trimmed. -/
structure ReadsClean (t : Text) (sights : List (TokenKind × String)) : Prop where
  reads : Reads t sights
  commentFree : CommentFree t
  closedComments : ClosedComments t

theorem passes_graphqlClean : passes graphqlClean = [.trim, .fences, .graphqlComments, .trim] := rfl

theorem round_graphqlClean (t : Text) : Extraction.round (passes graphqlClean) t =
    Text.trim (Extraction.stripHashComments (Extraction.stripFences (Text.trim t))) := by
  rw [passes_graphqlClean, Extraction.round]
  simp only [List.foldl_cons, List.foldl_nil, Pass.run]

/-- A blank that is ignored is a space, a tab or a line end. -/
theorem isSpaceTab_or_eq_of_isIgnored {c : Char} (hblank : isBlank c = true) (hignored : isIgnored c = true) :
    isSpaceTab c = true ∨ c = '\n' ∨ c = '\r' := by
  simp only [isIgnored, endsLine, Bool.or_eq_true, beq_iff_eq] at hignored
  rcases hignored with (((rfl | rfl) | rfl) | rfl) | hends
  · exact Or.inl rfl
  · exact Or.inl rfl
  · exact absurd hblank (by decide)
  · exact absurd hblank (by decide)
  · exact Or.inr hends

theorem Reads.trim {t : Text} {sights : List (TokenKind × String)} (h : Reads t sights) :
    Reads (Text.trim t) sights := by
  obtain ⟨w, hw, hblank⟩ := exists_trimStart t
  obtain ⟨w', hw', hblank'⟩ := exists_trimEnd (trimStart t)
  rw [hw] at h
  have hstart := (h.of_blank_append hblank).1
  rw [hw'] at hstart
  exact hstart.of_append fun c hc => isTokenChar_of_isBlank (hblank' c hc)

/-- The blanks in front of what is read are spaces, tabs and line ends. -/
theorem Reads.exists_trimStart {t : Text} {sights : List (TokenKind × String)} (h : Reads t sights) :
    ∃ w, t = w ++ trimStart t ∧ ∀ c ∈ w, isSpaceTab c = true ∨ c = '\n' ∨ c = '\r' := by
  obtain ⟨w, hw, hblank⟩ := Text.exists_trimStart t
  rw [hw] at h
  refine ⟨w, hw, fun c hc => ?_⟩
  exact isSpaceTab_or_eq_of_isIgnored (hblank c hc) ((h.of_blank_append hblank).2 c hc)

theorem ClosedComments.trim {t : Text} (h : ClosedComments t) : ClosedComments (Text.trim t) := by
  obtain ⟨w, hw, hblank⟩ := exists_trimStart t
  obtain ⟨w', hw', -⟩ := exists_trimEnd (trimStart t)
  rw [hw] at h
  have hstart := h.of_blank_append hblank
  rw [hw'] at hstart
  exact hstart.of_append

theorem Detached.trim {t : Text} {sights : List (TokenKind × String)} (h : Detached t) (hreads : Reads t sights)
    (hclosed : ClosedComments t) : Detached (Text.trim t) := by
  obtain ⟨w, hw, hgap⟩ := hreads.exists_trimStart
  obtain ⟨w', hw', -⟩ := exists_trimEnd (trimStart t)
  have hlast : ∀ c ∈ (Text.trim t).getLast?, isBlank c = false := by
    rw [Text.trim, trimEnd, dropEndWhile, List.getLast?_reverse]
    exact stopsAt_dropWhile isBlank _
  rw [hw] at h hclosed
  have hstart := h.of_blank_append hgap hclosed
  rw [hw'] at hstart
  exact hstart.of_append hlast

theorem ReadsClean.trim {t : Text} {sights : List (TokenKind × String)} (h : ReadsClean t sights) :
    ReadsClean (Text.trim t) sights := by
  obtain ⟨w, hw, hgap⟩ := h.reads.exists_trimStart
  obtain ⟨w', hw', -⟩ := exists_trimEnd (trimStart t)
  have hfree := h.commentFree
  have hclosed := h.closedComments
  rw [hw] at hfree hclosed
  have hstart := hfree.of_blank_append hgap hclosed
  rw [hw'] at hstart
  exact ⟨h.reads.trim, hstart.of_append, ClosedComments.trim h.closedComments⟩

/-- No token starts with a backtick. -/
theorem not_reads_backtick {t : Text} {sights : List (TokenKind × String)} : ¬ Reads ('\x60' :: t) sights := by
  have hskip : skipIgnored ('\x60' :: t) = '\x60' :: t := rfl
  rintro (hnil | ⟨hnext, hsource, -⟩)
  · cases hskip.symm.trans hnil
  · obtain ⟨rfl, -⟩ := List.cons.inj (hskip.symm.trans hnext)
    exact absurd hsource.isTokenChar (by decide)

theorem exists_dropClosingFence (t : Text) :
    ∃ w, t = dropClosingFence t ++ w ∧ ∀ c ∈ w, isTokenChar c = false := by
  have hsplit : (t.reverse.dropWhile isSpaceTab).reverse ++ (t.reverse.takeWhile isSpaceTab).reverse = t := by
    rw [← List.reverse_append, List.takeWhile_append_dropWhile, List.reverse_reverse]
  have htabs : ∀ c ∈ (t.reverse.takeWhile isSpaceTab).reverse, isTokenChar c = false := by
    intro c hc
    exact isTokenChar_of_isBlank (isBlank_of_isSpaceTab (mem_of_mem_takeWhile _ c (List.mem_reverse.1 hc)))
  unfold dropClosingFence
  split
  · next before hfence =>
    rw [hfence] at hsplit
    have hticks : ∀ c ∈ fence ++ (t.reverse.takeWhile isSpaceTab).reverse, isTokenChar c = false := by
      refine List.forall_mem_append.2 ⟨fun c hc => ?_, htabs⟩
      obtain rfl : c = '\x60' := by simpa [fence] using hc
      decide
    split
    · refine ⟨'\n' :: (fence ++ (t.reverse.takeWhile isSpaceTab).reverse), ?_, ?_⟩
      · exact hsplit.symm.trans (by simp [fence])
      · exact List.forall_mem_cons.2 ⟨by decide, hticks⟩
    · refine ⟨fence ++ (t.reverse.takeWhile isSpaceTab).reverse, ?_, hticks⟩
      exact hsplit.symm.trans (by simp [fence])
  · exact ⟨[], (List.append_nil t).symm, by simp⟩

/-- From a text that is read, removing fences takes at most what no token ends with. -/
theorem Reads.exists_stripFences {t : Text} {sights : List (TokenKind × String)} (h : Reads t sights) :
    ∃ w, t = Extraction.stripFences t ++ w ∧ ∀ c ∈ w, isTokenChar c = false := by
  have hopening : dropOpeningFence t = t := by
    rw [dropOpeningFence_eq_self_iff]
    rintro ⟨code, rfl⟩
    exact not_reads_backtick h
  rw [Extraction.stripFences, hopening]
  exact exists_dropClosingFence t

theorem ReadsClean.stripFences {t : Text} {sights : List (TokenKind × String)} (h : ReadsClean t sights) :
    ReadsClean (Extraction.stripFences t) sights := by
  obtain ⟨w, hw, hchars⟩ := h.reads.exists_stripFences
  have hreads := h.reads
  have hfree := h.commentFree
  have hclosed := h.closedComments
  rw [hw] at hreads hfree hclosed
  exact ⟨hreads.of_append hchars, hfree.of_append, hclosed.of_append⟩

theorem ReadsClean.round {t : Text} {sights : List (TokenKind × String)} (h : ReadsClean t sights) :
    ReadsClean (Extraction.round (passes graphqlClean) t) sights := by
  have hfences := h.trim.stripFences
  rw [round_graphqlClean, stripHashComments_of_commentFree hfences.commentFree]
  exact hfences.trim

theorem ReadsClean.settle {t : Text} {sights : List (TokenKind × String)} (h : ReadsClean t sights) (fuel : Nat) :
    ReadsClean (Extraction.settle (passes graphqlClean) fuel t) sights := by
  induction fuel generalizing t with
  | zero => exact h
  | succ fuel ih =>
    rw [Extraction.settle]
    split
    · exact h
    · exact ih h.round

/-- The first round removes the comment lines. -/
theorem Reads.round {t : Text} {sights : List (TokenKind × String)} (h : Reads t sights)
    (hclosed : ClosedComments t) (hfence : ¬ fence <:+: t) (hdetached : Detached t) :
    ReadsClean (Extraction.round (passes graphqlClean) t) sights := by
  -- without fences, this round is about comment lines and blanks alone
  have hfences : Extraction.stripFences (Text.trim t) = Text.trim t := by
    have hinside : ¬ fence <:+: Text.trim t := fun h' => hfence (h'.trans (trim_isInfix t))
    rw [stripFences_eq_self_iff]
    constructor
    · rintro ⟨code, heq⟩
      exact hinside (heq ▸ (List.prefix_append fence code).isInfix)
    · rintro ⟨code, s, heq, -⟩
      exact hinside (heq ▸ List.infix_append code fence s)
  have hclosed' := ClosedComments.trim hclosed
  obtain ⟨hreads, hfree⟩ := h.trim.stripHashComments hclosed' (hdetached.trim h hclosed)
  have hclean : ReadsClean (Extraction.stripHashComments (Text.trim t)) sights :=
    ⟨hreads, hfree, hclosed'.stripHashComments⟩
  rw [round_graphqlClean, hfences]
  exact hclean.trim

/-- What is read from a text without fences is read from the cleaned text. -/
theorem Reads.extract {t : Text} {sights : List (TokenKind × String)} (h : Reads t sights) (hfence : ¬ fence <:+: t)
    (hreturn : ∀ s ∈ sources t, ¬ crlf <:+: Text.unixNewlines s) (hclosed : ClosedComments (Text.unixNewlines t))
    (hdetached : Detached (Text.unixNewlines t)) :
    Reads (Extraction.extract graphqlClean t) sights := by
  have hunix := h.unixNewlines hreturn
  have hfence' : ¬ fence <:+: Text.unixNewlines t := fun h' => hfence (infix_of_infix_unixNewlines (by decide) h')
  rw [Extraction.extract]
  cases (Text.unixNewlines t).length with
  | zero => exact hunix
  | succ fuel =>
    rw [Extraction.settle]
    split
    · exact hunix
    · exact ((hunix.round hclosed hfence' hdetached).settle fuel).reads

/-- A cleaned text is parsed as the text is. -/
theorem parse_extract {t : Text} {d : Document} (h : parse t = .ok d) (hfence : ¬ fence <:+: t)
    (hreturn : ∀ s ∈ sources t, ¬ crlf <:+: Text.unixNewlines s) (hclosed : ClosedComments (Text.unixNewlines t))
    (hdetached : Detached (Text.unixNewlines t)) :
    parse (Extraction.extract graphqlClean t) = .ok d := by
  obtain ⟨sights, hsights⟩ := Option.isSome_iff_exists.1 (isSome_sights?_of_parseTokens h)
  have hreads : Reads t sights := reads_iff.2 hsights
  exact parse_of_sights? h hsights (reads_iff.1 (hreads.extract hfence hreturn hclosed hdetached))

end SnippetAudit.GraphQL
