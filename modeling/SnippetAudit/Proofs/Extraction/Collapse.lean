import SnippetAudit.Extraction.Collapse
import SnippetAudit.Proofs.Text.Lines

/-!
# What collapsing leaves

Collapsing works on characters, and what it does is a matter of lines: blank lines are cleared, runs of empty lines
are made shorter, and the others stay as they are. Where no blank line may be left, the visible lines are all that
there is.

## What this module delivers

- `visibleLines`: the lines with something on them;
- `thin`: the lines that a limit on line feeds leaves, with `capLineFeedsFrom_terminated`;
- `visibleLines_collapse`: collapsing keeps the visible lines, whatever the limit;
- `collapse_zero`: without blank lines they are all that is left;
- `Cleared`, `cleared_collapse`: no line of spaces and tabs is left;
- `not_infix_capLineFeedsFrom`: no run of line feeds is longer than the limit;
- `collapse_clears_and_caps`: what collapsing keeps and what it leaves of the blank lines.
-/

set_option autoImplicit false

namespace SnippetAudit.Extraction

open Text

/-! ## Visible lines -/

/-- There is more on the line than spaces and tabs. -/
def isVisible (line : Text) : Bool := !line.all isSpaceTab

/-- The lines of a text with more on them than spaces and tabs. -/
def visibleLines (t : Text) : List Text := (lines t).filter isVisible

theorem ne_nil_of_isVisible {line : Text} (h : isVisible line = true) : line ≠ [] := by
  rintro rfl
  exact absurd h (by decide)

theorem visibleLines_cons_lineFeed (t : Text) : visibleLines ('\n' :: t) = visibleLines t := by
  rw [visibleLines, lines, if_pos rfl]
  rfl

theorem visibleLines_append_lineFeed (t : Text) : visibleLines (t ++ ['\n']) = visibleLines t := by
  rw [visibleLines, lines_concat_lineFeed, List.filter_append]
  exact List.append_nil _

theorem visibleLines_dropFirstLineFeed (t : Text) : visibleLines (dropFirstLineFeed t) = visibleLines t := by
  unfold dropFirstLineFeed
  split
  · exact (visibleLines_cons_lineFeed _).symm
  · rfl

/-- The last character is a line feed and goes, or it is none and the text stays. -/
theorem dropLastLineFeed_cases (t : Text) :
    t = dropLastLineFeed t ++ ['\n'] ∨ (dropLastLineFeed t = t ∧ t.getLast? ≠ some '\n') := by
  rw [dropLastLineFeed]
  cases hend : t.reverse with
  | nil =>
    rw [List.reverse_eq_nil_iff] at hend
    subst hend
    exact Or.inr ⟨rfl, by simp⟩
  | cons c rest =>
    rw [List.reverse_eq_cons_iff] at hend
    by_cases hc : c = '\n'
    · subst hc
      exact Or.inl hend
    · rw [dropFirstLineFeed.eq_2 _ fun tail heq => hc (List.cons.inj heq).1, List.reverse_cons, ← hend]
      refine Or.inr ⟨rfl, ?_⟩
      rw [hend, List.getLast?_concat]
      exact fun he => hc (Option.some.inj he)

theorem dropLastLineFeed_concat (t : Text) : dropLastLineFeed (t ++ ['\n']) = t := by
  rw [dropLastLineFeed, List.reverse_concat, dropFirstLineFeed, List.reverse_reverse]

theorem dropLastLineFeed_of_getLast? {t : Text} (h : t.getLast? ≠ some '\n') : dropLastLineFeed t = t := by
  rcases dropLastLineFeed_cases t with heq | ⟨heq, -⟩
  · rw [heq, List.getLast?_concat] at h
    exact absurd rfl h
  · exact heq

theorem visibleLines_dropLastLineFeed (t : Text) : visibleLines (dropLastLineFeed t) = visibleLines t := by
  rcases dropLastLineFeed_cases t with heq | ⟨heq, -⟩
  · conv => rhs; rw [heq]
    exact (visibleLines_append_lineFeed _).symm
  · rw [heq]

/-! ## Limiting line feeds -/

/-- The lines that are left when only a number of line feeds may follow one another, of which some have been seen.
-/
def thin (limit : Nat) : Nat → List Text → List Text
  | _, [] => []
  | seen, line :: more =>
    if line = [] then
      if seen < limit then [] :: thin limit (seen + 1) more else thin limit seen more
    else line :: thin limit 1 more

theorem capLineFeedsFrom_append_of_not_mem {line : Text} (hne : line ≠ []) (h : '\n' ∉ line) (limit seen : Nat)
    (rest : Text) : capLineFeedsFrom limit seen (line ++ rest) = line ++ capLineFeedsFrom limit 0 rest := by
  induction line generalizing seen with
  | nil => exact absurd rfl hne
  | cons c more ih =>
    rw [List.mem_cons, not_or] at h
    rw [List.cons_append, capLineFeedsFrom, if_neg fun he => h.1 he.symm]
    by_cases hmore : more = []
    · subst hmore
      rfl
    · rw [ih hmore h.2 0, List.cons_append]

/-- Limiting line feeds leaves out lines. -/
theorem capLineFeedsFrom_terminated {limit : Nat} (hlimit : 0 < limit) {ls : List Text}
    (h : ∀ line ∈ ls, '\n' ∉ line) (seen : Nat) :
    capLineFeedsFrom limit seen (terminated ls) = terminated (thin limit seen ls) := by
  induction ls generalizing seen with
  | nil => rfl
  | cons line more ih =>
    rw [List.forall_mem_cons] at h
    rw [terminated_cons, thin]
    by_cases hline : line = []
    · subst hline
      rw [List.nil_append, capLineFeedsFrom, if_pos rfl, if_pos rfl]
      split
      · rw [terminated_cons, ih h.2, List.nil_append]
      · exact ih h.2 seen
    · rw [capLineFeedsFrom_append_of_not_mem hline h.1, capLineFeedsFrom, if_pos rfl, if_pos hlimit, if_neg hline,
        terminated_cons, ih h.2]

/-- A line feed at the end is kept or cut. -/
theorem capLineFeedsFrom_append_lineFeed (limit seen : Nat) (t : Text) :
    capLineFeedsFrom limit seen (t ++ ['\n']) = capLineFeedsFrom limit seen t ∨
      capLineFeedsFrom limit seen (t ++ ['\n']) = capLineFeedsFrom limit seen t ++ ['\n'] := by
  induction t generalizing seen with
  | nil =>
    by_cases hseen : seen < limit
    · exact Or.inr (by simp [capLineFeedsFrom, hseen])
    · exact Or.inl (by simp [capLineFeedsFrom, hseen])
  | cons c rest ih =>
    rw [List.cons_append, capLineFeedsFrom, capLineFeedsFrom]
    split
    · split
      · exact (ih (seen + 1)).imp (congrArg _) (congrArg _)
      · exact ih seen
    · exact (ih 0).imp (congrArg _) (congrArg _)

theorem filter_isVisible_thin (limit : Nat) (ls : List Text) (seen : Nat) :
    (thin limit seen ls).filter isVisible = ls.filter isVisible := by
  have hempty : isVisible [] = false := rfl
  induction ls generalizing seen with
  | nil => rfl
  | cons line more ih =>
    rw [thin]
    by_cases hline : line = []
    · subst hline
      rw [if_pos rfl, List.filter_cons_of_neg (by simp [hempty])]
      split
      · rw [List.filter_cons_of_neg (by simp [hempty]), ih]
      · exact ih seen
    · rw [if_neg hline, List.filter_cons, List.filter_cons, ih]

theorem thin_sublist (limit : Nat) (ls : List Text) (seen : Nat) : (thin limit seen ls).Sublist ls := by
  induction ls generalizing seen with
  | nil => exact List.Sublist.slnil
  | cons line more ih =>
    rw [thin]
    by_cases hline : line = []
    · subst hline
      rw [if_pos rfl]
      split
      · exact (ih (seen + 1)).cons_cons []
      · exact (ih seen).cons []
    · rw [if_neg hline]
      exact (ih 1).cons_cons line

/-- With a line feed behind the last line, limiting line feeds leaves out lines of the text. -/
theorem capLineFeedsFrom_concat {limit : Nat} (hlimit : 0 < limit) (seen : Nat) (t : Text) :
    capLineFeedsFrom limit seen (t ++ ['\n']) = terminated (thin limit seen (lines t)) := by
  rw [← terminated_lines, capLineFeedsFrom_terminated hlimit fun _ => not_mem_of_mem_lines]

theorem not_mem_of_mem_thin {limit seen : Nat} {t line : Text} (h : line ∈ thin limit seen (lines t)) :
    '\n' ∉ line :=
  not_mem_of_mem_lines ((thin_sublist limit (lines t) seen).subset h)

theorem visibleLines_terminated {ls : List Text} (h : ∀ line ∈ ls, '\n' ∉ line) :
    visibleLines (terminated ls) = ls.filter isVisible := by
  rw [visibleLines, lines_terminated h, List.filter_append]
  exact List.append_nil _

/-- Where one line feed is the limit and has been seen, no empty line is left. -/
theorem thin_one_one (ls : List Text) : thin 1 1 ls = ls.filter (· ≠ []) := by
  induction ls with
  | nil => rfl
  | cons line more ih =>
    rw [thin]
    by_cases hline : line = []
    · rw [if_pos hline, if_neg (Nat.lt_irrefl 1), ih, List.filter_cons_of_neg (by simp [hline])]
    · rw [if_neg hline, ih, List.filter_cons_of_pos (by simp [hline])]

theorem visibleLines_capLineFeedsFrom {limit : Nat} (hlimit : 0 < limit) (seen : Nat) (t : Text) :
    visibleLines (capLineFeedsFrom limit seen t) = visibleLines t := by
  have hwhole : visibleLines (capLineFeedsFrom limit seen (t ++ ['\n'])) = visibleLines t := by
    rw [capLineFeedsFrom_concat hlimit, visibleLines_terminated fun _ => not_mem_of_mem_thin, filter_isVisible_thin]
    rfl
  rw [← hwhole]
  rcases capLineFeedsFrom_append_lineFeed limit seen t with heq | heq
  · rw [heq]
  · rw [heq, visibleLines_append_lineFeed]

/-! ## Collapsing -/

/-- Where lines are left alone or made empty, the lines to be found are those to be found that are left alone. -/
theorem filter_map_clearing {f : Text → Text} {p q : Text → Bool} (hnil : p [] = false)
    (hf : ∀ line, (f line = line ∧ p line = q line) ∨ (f line = [] ∧ q line = false)) (ls : List Text) :
    (ls.map f).filter p = ls.filter q := by
  induction ls with
  | nil => rfl
  | cons line more ih =>
    rw [List.map_cons, List.filter_cons, List.filter_cons, ih]
    rcases hf line with ⟨hline, hsame⟩ | ⟨hline, hgone⟩
    · rw [hline, hsame]
    · rw [hline, hnil, hgone]
      rfl

theorem clearLine_cases (line : Text) :
    (clearLine line = line ∧ isVisible line = true) ∨ (clearLine line = [] ∧ isVisible line = false) := by
  rw [clearLine, isVisible]
  cases line.all isSpaceTab with
  | true => exact Or.inr ⟨rfl, rfl⟩
  | false => exact Or.inl ⟨rfl, rfl⟩

theorem lines_clearBlankLines (t : Text) : lines (clearBlankLines t) = (lines t).map clearLine :=
  lines_mapLines clearLine_sublist t

theorem visibleLines_clearBlankLines (t : Text) : visibleLines (clearBlankLines t) = visibleLines t := by
  rw [visibleLines, lines_clearBlankLines]
  exact filter_map_clearing rfl (fun line => (clearLine_cases line).imp_left fun h => ⟨h.1, rfl⟩) _

/-- Collapsing keeps the visible lines as they are and in their order. -/
theorem visibleLines_collapse (maxBlank : Nat) (t : Text) : visibleLines (collapse maxBlank t) = visibleLines t := by
  rw [collapse, dropOuterLineFeeds, visibleLines_dropLastLineFeed, visibleLines_dropFirstLineFeed, capLineFeeds,
    visibleLines_capLineFeedsFrom (Nat.succ_pos maxBlank), visibleLines_clearBlankLines]

/-- Dropping the first line feed is what a line feed in front of the text would do. -/
theorem dropFirstLineFeed_capLineFeeds (t : Text) :
    dropFirstLineFeed (capLineFeeds 1 t) = capLineFeedsFrom 1 1 t := by
  cases t with
  | nil => rfl
  | cons c rest =>
    by_cases hc : c = '\n'
    · subst hc
      rfl
    · rw [capLineFeeds, capLineFeedsFrom, if_neg hc, capLineFeedsFrom, if_neg hc, dropFirstLineFeed.eq_2]
      intro tail heq
      exact hc (List.cons.inj heq).1

theorem of_mem_visibleLines {t line : Text} (h : line ∈ visibleLines t) : line ≠ [] ∧ '\n' ∉ line := by
  obtain ⟨hmem, hvisible⟩ := List.mem_filter.1 h
  exact ⟨ne_nil_of_isVisible hvisible, not_mem_of_mem_lines hmem⟩

theorem head?_unlines {ls : List Text} (h : ∀ line ∈ ls, line ≠ [] ∧ '\n' ∉ line) :
    (unlines ls).head? ≠ some '\n' := by
  cases ls with
  | nil => simp [unlines]
  | cons line more =>
    obtain ⟨hne, hline⟩ := h line List.mem_cons_self
    obtain ⟨c, rest, rfl⟩ := List.exists_cons_of_ne_nil hne
    have hstart : (unlines ((c :: rest) :: more)).head? = some c := by
      cases more <;> rfl
    rw [hstart]
    exact fun heq => hline (Option.some.inj heq ▸ List.mem_cons_self)

theorem getLast?_unlines {ls : List Text} (h : ∀ line ∈ ls, line ≠ [] ∧ '\n' ∉ line) :
    (unlines ls).getLast? ≠ some '\n' := by
  induction ls with
  | nil => simp [unlines]
  | cons line more ih =>
    obtain ⟨⟨-, hline⟩, hall⟩ := List.forall_mem_cons.1 h
    by_cases hmore : more = []
    · subst hmore
      exact fun hlast => hline (List.mem_of_getLast? hlast)
    · have hnext : unlines more ≠ [] := by
        obtain ⟨next, others, rfl⟩ := List.exists_cons_of_ne_nil hmore
        have hfirst := (hall next List.mem_cons_self).1
        cases others with
        | nil => exact hfirst
        | cons => exact List.append_ne_nil_of_left_ne_nil hfirst _
      rw [unlines_cons hmore, ← List.singleton_append, ← List.append_assoc, List.getLast?_append,
        List.getLast?_eq_some_getLast hnext, Option.some_or, ← List.getLast?_eq_some_getLast hnext]
      exact ih hall

/-- Where no blank line may be left, the visible lines are what is left. -/
theorem collapse_zero (t : Text) : collapse 0 t = unlines (visibleLines t) := by
  have hwhole : capLineFeedsFrom 1 1 (clearBlankLines t ++ ['\n']) = terminated (visibleLines t) := by
    have hfilter : ((lines t).map clearLine).filter (· ≠ []) = visibleLines t := by
      refine filter_map_clearing rfl (fun line => (clearLine_cases line).imp_left fun h => ⟨h.1, ?_⟩) _
      rw [h.2, decide_eq_true (ne_nil_of_isVisible h.2)]
    rw [capLineFeedsFrom_concat Nat.zero_lt_one, lines_clearBlankLines, thin_one_one, hfilter]
  rw [collapse, dropOuterLineFeeds, dropFirstLineFeed_capLineFeeds]
  rcases capLineFeedsFrom_append_lineFeed 1 1 (clearBlankLines t) with hcut | hkept
  · -- the last line ends with a line feed, if there is a line
    rw [hcut] at hwhole
    rw [hwhole]
    by_cases hnone : visibleLines t = []
    · rw [hnone]
      rfl
    · rw [terminated_eq_unlines_append hnone, dropLastLineFeed_concat]
  · rw [hkept] at hwhole
    have hlines : capLineFeedsFrom 1 1 (clearBlankLines t) = unlines (visibleLines t) := by
      rw [← dropLast_terminated, ← hwhole, List.dropLast_concat]
    rw [hlines]
    exact dropLastLineFeed_of_getLast? (getLast?_unlines fun _ => of_mem_visibleLines)

/-! ## Blank lines that are left -/

/-- The blank lines of the text are empty: no line is made of spaces and tabs. -/
def Cleared (t : Text) : Prop := ∀ line ∈ lines t, line = [] ∨ isVisible line = true

theorem cleared_cons_lineFeed_iff (t : Text) : Cleared ('\n' :: t) ↔ Cleared t := by
  rw [Cleared, lines, if_pos rfl, List.forall_mem_cons]
  exact and_iff_right (Or.inl rfl)

theorem cleared_append_lineFeed_iff (t : Text) : Cleared (t ++ ['\n']) ↔ Cleared t := by
  rw [Cleared, lines_concat_lineFeed, List.forall_mem_append, List.forall_mem_singleton]
  exact and_iff_left (Or.inl rfl)

theorem cleared_clearBlankLines (t : Text) : Cleared (clearBlankLines t) := by
  rw [Cleared, lines_clearBlankLines, List.forall_mem_map]
  intro line _
  rcases clearLine_cases line with ⟨hkept, hvisible⟩ | ⟨hcleared, -⟩
  · exact Or.inr (by rwa [hkept])
  · exact Or.inl hcleared

theorem Cleared.capLineFeedsFrom {limit : Nat} (hlimit : 0 < limit) {t : Text} (h : Cleared t) (seen : Nat) :
    Cleared (Extraction.capLineFeedsFrom limit seen t) := by
  have hwhole : Cleared (Extraction.capLineFeedsFrom limit seen (t ++ ['\n'])) := by
    rw [capLineFeedsFrom_concat hlimit, Cleared, lines_terminated fun _ => not_mem_of_mem_thin,
      List.forall_mem_append, List.forall_mem_singleton]
    exact ⟨fun line hline => h line ((thin_sublist limit (lines t) seen).subset hline), Or.inl rfl⟩
  rcases capLineFeedsFrom_append_lineFeed limit seen t with heq | heq
  · rwa [heq] at hwhole
  · rwa [heq, cleared_append_lineFeed_iff] at hwhole

theorem Cleared.dropFirstLineFeed {t : Text} (h : Cleared t) : Cleared (Extraction.dropFirstLineFeed t) := by
  unfold Extraction.dropFirstLineFeed
  split
  · exact (cleared_cons_lineFeed_iff _).1 h
  · exact h

theorem Cleared.dropLastLineFeed {t : Text} (h : Cleared t) : Cleared (Extraction.dropLastLineFeed t) := by
  rcases dropLastLineFeed_cases t with heq | ⟨heq, -⟩
  · rwa [heq, cleared_append_lineFeed_iff] at h
  · rwa [heq]

theorem cleared_collapse (maxBlank : Nat) (t : Text) : Cleared (collapse maxBlank t) :=
  ((cleared_clearBlankLines t).capLineFeedsFrom (Nat.succ_pos maxBlank) 0).dropFirstLineFeed.dropLastLineFeed

/-! ## Runs of line feeds -/

/-- A run of one character that goes around another one lies in front of it or behind it. -/
theorem replicate_infix_append_cons {c d : Char} (h : d ≠ c) {n : Nat} {a b : Text}
    (hrun : List.replicate n c <:+: a ++ d :: b) : List.replicate n c <:+: a ∨ List.replicate n c <:+: b := by
  have hnone {l : Text} (hl : ∀ x ∈ l, x = c) (hstart : l <+: d :: b) : l = [] := by
    cases l with
    | nil => rfl
    | cons x more => exact absurd ((List.cons_prefix_cons.1 hstart).1.symm.trans (hl x List.mem_cons_self)) h
  have hall : ∀ x ∈ List.replicate n c, x = c := fun x hx => (List.mem_replicate.1 hx).2
  rcases List.infix_append_iff.1 hrun with hbefore | hbehind | ⟨l, r, heq, hl, hr⟩
  · exact Or.inl hbefore
  · rcases List.infix_cons_iff.1 hbehind with hstart | hlater
    · rw [hnone hall hstart]
      exact Or.inl List.nil_infix
    · exact Or.inr hlater
  · rw [hnone (fun x hx => hall x (heq ▸ List.mem_append_right l hx)) hr, List.append_nil] at heq
    exact Or.inl (heq ▸ hl.isInfix)

/-- Put behind the line feeds that have been seen, what is kept makes no run that is longer than the limit. -/
theorem not_infix_capLineFeedsFrom {limit : Nat} (t : Text) {seen : Nat} (hseen : seen ≤ limit) :
    ¬ List.replicate (limit + 1) '\n' <:+: List.replicate seen '\n' ++ capLineFeedsFrom limit seen t := by
  induction t generalizing seen with
  | nil =>
    intro hrun
    have hlength := hrun.length_le
    rw [capLineFeedsFrom, List.append_nil, List.length_replicate, List.length_replicate] at hlength
    omega
  | cons c rest ih =>
    rw [capLineFeedsFrom]
    by_cases hc : c = '\n'
    · subst hc
      rw [if_pos rfl]
      split
      · next hmore =>
        rw [List.append_cons, ← List.replicate_succ']
        exact ih hmore
      · exact ih hseen
    · -- the run ends at another character, and a new one starts behind it
      rw [if_neg hc]
      intro hrun
      rcases replicate_infix_append_cons hc hrun with hbefore | hbehind
      · have hlength := hbefore.length_le
        rw [List.length_replicate, List.length_replicate] at hlength
        omega
      · exact ih (Nat.zero_le limit) hbehind

theorem collapse_isInfix (maxBlank : Nat) (t : Text) :
    collapse maxBlank t <:+: capLineFeeds (maxBlank + 1) (clearBlankLines t) :=
  (dropLastLineFeed_isPrefix _).isInfix.trans (dropFirstLineFeed_suffix _).isInfix

theorem not_infix_collapse (maxBlank : Nat) (t : Text) :
    ¬ List.replicate (maxBlank + 2) '\n' <:+: collapse maxBlank t := by
  intro hrun
  exact not_infix_capLineFeedsFrom _ (Nat.zero_le (maxBlank + 1)) (hrun.trans (collapse_isInfix maxBlank t))

/-- Collapsing keeps the visible lines as they are and in their order, clears the blank ones, leaves no run of line
feeds beyond the limit, and only deletes. Where no blank line may be left, a second time changes nothing, and no line
feed stands at either end. -/
theorem collapse_clears_and_caps (maxBlank : Nat) (t : Text) :
    visibleLines (collapse maxBlank t) = visibleLines t ∧
      (∀ line ∈ lines (collapse maxBlank t), line = [] ∨ isVisible line = true) ∧
      ¬ List.replicate (maxBlank + 2) '\n' <:+: collapse maxBlank t ∧
      (collapse maxBlank t).Sublist t ∧
      collapse 0 (collapse 0 t) = collapse 0 t ∧
      (collapse 0 t).head? ≠ some '\n' ∧ (collapse 0 t).getLast? ≠ some '\n' := by
  refine ⟨visibleLines_collapse maxBlank t, cleared_collapse maxBlank t, not_infix_collapse maxBlank t,
    collapse_sublist maxBlank t, ?_, ?_, ?_⟩
  · rw [collapse_zero (collapse 0 t), visibleLines_collapse, collapse_zero]
  · rw [collapse_zero]
    exact head?_unlines fun _ => of_mem_visibleLines
  · rw [collapse_zero]
    exact getLast?_unlines fun _ => of_mem_visibleLines

/-- One line feed at either end goes and a second one stays; three in a row are limited to two. -/
example : collapse 1 "\n\na \n\t \n\n b\n\n".toList = "\na \n\n b\n".toList := by decide

end SnippetAudit.Extraction
