import SnippetAudit.Text.Lines

/-!
# Texts and their lines

Taking a text apart into its lines and putting lines together are inverse to each other, as long as there is a
line and no line holds a line feed. A text whose lines all end with a line feed has an empty last line.

## What this module delivers

- `lines_append_lineFeed`, `lines_concat_lineFeed`, `unlines_append`: lines of a text that goes on behind a line
  feed;
- `lines_unlines`, `lines_mapLines`: the lines of a text that was put together from lines;
- `terminated`: lines with a line feed behind each, with `terminated_eq_unlines`, `terminated_lines` and
  `dropLast_terminated`;
- `LineStart`: the texts behind which a line starts, which are such lines;
- `exists_lines_append`: the lines of two texts that are put together;
- `unixNewlines_append`, `unixNewlines_append_lineFeed`, `infix_of_infix_unixNewlines`: parts of a text whose
  line ends change.
-/

set_option autoImplicit false

namespace SnippetAudit.Text

/-- A text without line feed is its only line. -/
theorem lines_of_not_mem {t : Text} (h : '\n' ∉ t) : lines t = [t] := by
  induction t with
  | nil => rfl
  | cons c rest ih =>
    have hc : c ≠ '\n' := fun he => h (he ▸ List.mem_cons_self)
    have hrest := ih fun hmem => h (List.mem_cons_of_mem c hmem)
    rw [lines, if_neg hc, hrest]

/-- The lines of a text are the line up to a line feed and the lines behind it. -/
theorem lines_append_lineFeed {line : Text} (h : '\n' ∉ line) (rest : Text) :
    lines (line ++ '\n' :: rest) = line :: lines rest := by
  induction line with
  | nil => rw [List.nil_append, lines, if_pos rfl]
  | cons c more ih =>
    have hc : c ≠ '\n' := fun he => h (he ▸ List.mem_cons_self)
    have hmore := ih fun hmem => h (List.mem_cons_of_mem c hmem)
    rw [List.cons_append, lines, if_neg hc, hmore]

/-- What stands in front of a text on its first line is put in front of that line. -/
theorem lines_append_of_lines {s t line : Text} {more : List Text} (hs : '\n' ∉ s) (h : lines t = line :: more) :
    lines (s ++ t) = (s ++ line) :: more := by
  induction s with
  | nil => exact h
  | cons c rest ih =>
    rw [List.mem_cons, not_or] at hs
    rw [List.cons_append, lines, if_neg fun he => hs.1 he.symm, ih hs.2, List.cons_append]

/-- No line of a text holds a line feed. -/
theorem not_mem_of_mem_lines {t line : Text} (h : line ∈ lines t) : '\n' ∉ line := by
  induction t generalizing line with
  | nil =>
    obtain rfl := List.mem_singleton.1 h
    exact List.not_mem_nil
  | cons c rest ih =>
    rw [lines] at h
    split at h
    · rcases List.mem_cons.1 h with rfl | hrest
      · exact List.not_mem_nil
      · exact ih hrest
    · next hc =>
      cases hlines : lines rest with
      | nil => exact absurd hlines (lines_ne_nil rest)
      | cons first more =>
        rw [hlines] at h
        rcases List.mem_cons.1 h with rfl | hmore
        · have hfirst : '\n' ∉ first := ih (hlines ▸ List.mem_cons_self)
          intro hmem
          rcases List.mem_cons.1 hmem with he | hin
          · exact hc he.symm
          · exact hfirst hin
        · exact ih (hlines ▸ List.mem_cons_of_mem first hmore)

theorem unlines_cons {line : Text} {more : List Text} (h : more ≠ []) :
    unlines (line :: more) = line ++ '\n' :: unlines more := by
  cases more with
  | nil => exact absurd rfl h
  | cons next rest => rfl

/-- Two lists of lines are put together with a line feed between them. -/
theorem unlines_append {first second : List Text} (hfirst : first ≠ []) (hsecond : second ≠ []) :
    unlines (first ++ second) = unlines first ++ '\n' :: unlines second := by
  induction first with
  | nil => exact absurd rfl hfirst
  | cons line more ih =>
    by_cases hmore : more = []
    · subst hmore
      exact unlines_cons hsecond
    · have hboth : more ++ second ≠ [] := fun he => hmore (List.append_eq_nil_iff.1 he).1
      rw [List.cons_append, unlines_cons hboth, ih hmore, unlines_cons hmore, List.append_assoc,
        List.cons_append]

/-- Taking apart what was put together gives the lines back. -/
theorem lines_unlines {ls : List Text} (hne : ls ≠ []) (h : ∀ line ∈ ls, '\n' ∉ line) :
    lines (unlines ls) = ls := by
  induction ls with
  | nil => exact absurd rfl hne
  | cons line more ih =>
    rw [List.forall_mem_cons] at h
    by_cases hmore : more = []
    · subst hmore
      exact lines_of_not_mem h.1
    · rw [unlines_cons hmore, lines_append_lineFeed h.1, ih hmore h.2]

/-- A change that only deletes in every line changes the lines and joins none. -/
theorem lines_mapLines {f : Text → Text} (hf : ∀ line, (f line).Sublist line) (t : Text) :
    lines (mapLines f t) = (lines t).map f := by
  apply lines_unlines
  · simpa using lines_ne_nil t
  · intro line hline
    obtain ⟨original, horiginal, rfl⟩ := List.mem_map.1 hline
    exact fun hmem => not_mem_of_mem_lines horiginal ((hf original).subset hmem)

/-! ## Lines that end with a line feed -/

/-- The text of lines that end with a line feed each. -/
def terminated (ls : List Text) : Text := ls.flatMap fun line => line ++ ['\n']

theorem terminated_cons (line : Text) (more : List Text) :
    terminated (line :: more) = line ++ '\n' :: terminated more := by
  simp [terminated]

theorem terminated_append (first second : List Text) :
    terminated (first ++ second) = terminated first ++ terminated second :=
  List.flatMap_append

/-- Behind the last line feed stands an empty line. -/
theorem terminated_eq_unlines (ls : List Text) : terminated ls = unlines (ls ++ [[]]) := by
  induction ls with
  | nil => rfl
  | cons line more ih =>
    have hne : more ++ [[]] ≠ [] := by simp
    rw [terminated_cons, ih, List.cons_append, unlines_cons hne]

theorem terminated_eq_unlines_append {ls : List Text} (h : ls ≠ []) : terminated ls = unlines ls ++ ['\n'] := by
  rw [terminated_eq_unlines, unlines_append h (by simp)]
  rfl

/-- The lines of a text with a line feed behind each make the text with a line feed behind it. -/
theorem terminated_lines (t : Text) : terminated (lines t) = t ++ ['\n'] := by
  rw [terminated_eq_unlines_append (lines_ne_nil t), unlines_lines]

theorem unlines_terminated_append {second : List Text} (h : second ≠ []) (first : List Text) :
    unlines (first ++ second) = terminated first ++ unlines second := by
  by_cases hfirst : first = []
  · subst hfirst
    rfl
  · rw [unlines_append hfirst h, terminated_eq_unlines_append hfirst, List.append_assoc, List.singleton_append]

/-- Without the last line feed the lines stand with a line feed between each two. -/
theorem dropLast_terminated (ls : List Text) : (terminated ls).dropLast = unlines ls := by
  by_cases h : ls = []
  · subst h
    rfl
  · rw [terminated_eq_unlines_append h, List.dropLast_concat]

/-! ## Line starts -/

/-- A line starts behind the text: it is empty or ends with a line feed. -/
def LineStart (t : Text) : Prop := ∀ c ∈ t.getLast?, c = '\n'

theorem lineStart_nil : LineStart [] := by
  intro c hc
  cases hc

theorem LineStart.eq_nil_or {t : Text} (h : LineStart t) : t = [] ∨ ∃ before, t = before ++ ['\n'] := by
  cases hlast : t.getLast? with
  | none => exact Or.inl (List.getLast?_eq_none_iff.1 hlast)
  | some c =>
    obtain ⟨before, rfl⟩ := List.getLast?_eq_some_iff.1 hlast
    obtain rfl := h c hlast
    exact Or.inr ⟨before, rfl⟩

theorem LineStart.of_suffix {t u : Text} (h : LineStart t) (hsuffix : u <:+ t) : LineStart u := by
  obtain ⟨before, rfl⟩ := hsuffix
  intro c hc
  apply h c
  rw [List.getLast?_append, Option.mem_def.1 hc]
  rfl

theorem LineStart.append {t u : Text} (h : LineStart u) (hu : u ≠ []) : LineStart (t ++ u) := by
  intro c hc
  apply h c
  rw [List.getLast?_append, List.getLast?_eq_some_getLast hu, Option.some_or] at hc
  rwa [List.getLast?_eq_some_getLast hu]

theorem lineStart_terminated (ls : List Text) : LineStart (terminated ls) := by
  by_cases h : ls = []
  · subst h
    exact lineStart_nil
  · rw [terminated_eq_unlines_append h]
    intro c hc
    rw [List.getLast?_concat] at hc
    exact (Option.some.inj hc).symm

/-- What ends with a line feed is made of lines that do. -/
theorem LineStart.exists_terminated {t : Text} (h : LineStart t) :
    ∃ ls, t = terminated ls ∧ ∀ line ∈ ls, '\n' ∉ line := by
  rcases h.eq_nil_or with rfl | ⟨before, rfl⟩
  · exact ⟨[], rfl, by simp⟩
  · exact ⟨lines before, (terminated_lines before).symm, fun line hline => not_mem_of_mem_lines hline⟩

theorem lines_terminated_append {ls : List Text} (h : ∀ line ∈ ls, '\n' ∉ line) (t : Text) :
    lines (terminated ls ++ t) = ls ++ lines t := by
  induction ls with
  | nil => rfl
  | cons line more ih =>
    rw [List.forall_mem_cons] at h
    rw [terminated_cons, List.append_assoc, List.cons_append, lines_append_lineFeed h.1, ih h.2, List.cons_append]

theorem lines_terminated {ls : List Text} (h : ∀ line ∈ ls, '\n' ∉ line) : lines (terminated ls) = ls ++ [[]] := by
  rw [← List.append_nil (terminated ls)]
  exact lines_terminated_append h []

/-- Behind a line feed at the end stands one more line. -/
theorem lines_concat_lineFeed (t : Text) : lines (t ++ ['\n']) = lines t ++ [[]] := by
  rw [← terminated_lines, lines_terminated fun _ => not_mem_of_mem_lines]

/-- A text is made of what stands in front of its last line and of that line. -/
theorem exists_lastLine (t : Text) : ∃ before last, t = before ++ last ∧ LineStart before ∧ '\n' ∉ last := by
  induction t with
  | nil => exact ⟨[], [], rfl, lineStart_nil, List.not_mem_nil⟩
  | cons c rest ih =>
    obtain ⟨before, last, rfl, hbefore, hlast⟩ := ih
    by_cases hc : c = '\n'
    · subst hc
      refine ⟨'\n' :: before, last, rfl, ?_, hlast⟩
      by_cases hnil : before = []
      · subst hnil
        exact fun d hd => (Option.some.inj hd).symm
      · exact hbefore.append (t := ['\n']) hnil
    · by_cases hnil : before = []
      · subst hnil
        refine ⟨[], c :: last, rfl, lineStart_nil, ?_⟩
        rw [List.mem_cons, not_or]
        exact ⟨fun he => hc he.symm, hlast⟩
      · exact ⟨c :: before, last, rfl, hbefore.append (t := [c]) hnil, hlast⟩

/-- Where two texts meet, the last line of one and the first line of the other are one line. -/
theorem exists_lines_append (s t : Text) : ∃ front last first more, s = terminated front ++ last ∧
    lines s = front ++ [last] ∧ lines t = first :: more ∧ lines (s ++ t) = front ++ (last ++ first) :: more := by
  obtain ⟨before, last, rfl, hbefore, hlast⟩ := exists_lastLine s
  obtain ⟨front, rfl, hfront⟩ := hbefore.exists_terminated
  cases ht : lines t with
  | nil => exact absurd ht (lines_ne_nil t)
  | cons first more =>
    refine ⟨front, last, first, more, rfl, ?_, rfl, ?_⟩
    · rw [lines_terminated_append hfront, lines_of_not_mem hlast]
    · rw [List.append_assoc, lines_terminated_append hfront, lines_append_of_lines hlast ht]

/-! ## Line ends -/

theorem unixNewlines_of_not_mem {t : Text} (h : '\r' ∉ t) : unixNewlines t = t := by
  induction t with
  | nil => rfl
  | cons c rest ih =>
    rw [List.mem_cons, not_or] at h
    rw [unixNewlines.eq_3 _ _ fun _ hc => absurd hc.symm h.1, ih h.2]

theorem unixNewlines_append {s : Text} (hs : ∀ c ∈ s.getLast?, c ≠ '\r') (rest : Text) :
    unixNewlines (s ++ rest) = unixNewlines s ++ unixNewlines rest := by
  induction s using unixNewlines.induct with
  | case1 => rfl
  | case2 more ih =>
    have hmore : ∀ c ∈ more.getLast?, c ≠ '\r' := by
      intro c hc
      apply hs c
      cases more with
      | nil => cases hc
      | cons d tail => exact hc
    exact congrArg ('\n' :: ·) (ih hmore)
  | case3 c more hline ih =>
    have hmore : ∀ d ∈ more.getLast?, d ≠ '\r' := by
      intro d hd
      apply hs d
      cases more with
      | nil => cases hd
      | cons e tail => exact hd
    have hline' : ∀ tail, c = '\r' → more ++ rest = '\n' :: tail → False := by
      intro tail hc htail
      cases more with
      | nil => exact hs c rfl hc
      | cons d more' =>
        obtain ⟨rfl, -⟩ := List.cons.inj htail
        exact hline more' hc rfl
    rw [List.cons_append, unixNewlines.eq_3 _ _ hline', unixNewlines.eq_3 _ _ hline, ih hmore,
      List.cons_append]

/-- In front of a line feed, a text has the line ends it has on its own, but for a carriage return at its
end. -/
theorem unixNewlines_append_lineFeed (t rest : Text) :
    ∃ b w, unixNewlines t = b ++ w ∧ (∀ c ∈ w, c = '\r') ∧
      unixNewlines (t ++ '\n' :: rest) = b ++ '\n' :: unixNewlines rest := by
  induction t using unixNewlines.induct with
  | case1 => exact ⟨[], [], rfl, by simp, rfl⟩
  | case2 more ih =>
    obtain ⟨b, w, hb, hw, hrest⟩ := ih
    exact ⟨'\n' :: b, w, congrArg ('\n' :: ·) hb, hw, congrArg ('\n' :: ·) hrest⟩
  | case3 c more hline ih =>
    obtain ⟨b, w, hb, hw, hrest⟩ := ih
    by_cases hend : c = '\r' ∧ more = []
    · obtain ⟨rfl, rfl⟩ := hend
      exact ⟨[], ['\r'], rfl, by simp, rfl⟩
    · refine ⟨c :: b, w, by rw [unixNewlines.eq_3 _ _ hline, hb, List.cons_append], hw, ?_⟩
      have hline' : ∀ tail, c = '\r' → more ++ '\n' :: rest = '\n' :: tail → False := by
        intro tail hc hmore
        cases more with
        | nil => exact hend ⟨hc, rfl⟩
        | cons d others => exact hline others hc (by rw [(List.cons.inj hmore).1])
      rw [List.cons_append, unixNewlines.eq_3 _ _ hline', hrest, List.cons_append]

/-- Line ends are all that changes at the start of a text. -/
theorem exists_of_unixNewlines_eq_cons {t u : Text} {c : Char} (h : unixNewlines t = c :: u) (hc : c ≠ '\n') :
    ∃ rest, t = c :: rest ∧ unixNewlines rest = u := by
  cases t using unixNewlines.fun_cases with
  | case1 => cases h
  | case2 rest => exact absurd (List.cons.inj h).1.symm hc
  | case3 d rest hline =>
    rw [unixNewlines.eq_3 _ _ hline] at h
    obtain ⟨rfl, hrest⟩ := List.cons.inj h
    exact ⟨rest, rfl, hrest⟩

theorem exists_of_unixNewlines_eq_append {p t tail : Text} (h : unixNewlines t = p ++ tail) (hp : '\n' ∉ p) :
    ∃ tail', t = p ++ tail' := by
  induction p generalizing t with
  | nil => exact ⟨t, rfl⟩
  | cons c more ih =>
    rw [List.mem_cons, not_or] at hp
    obtain ⟨rest, rfl, hrest⟩ := exists_of_unixNewlines_eq_cons h fun he => hp.1 he.symm
    obtain ⟨tail', rfl⟩ := ih hrest hp.2
    exact ⟨tail', rfl⟩

/-- What lies within a line lies there whichever way lines end. -/
theorem infix_of_infix_unixNewlines {s t : Text} (hs : '\n' ∉ s) (h : s <:+: unixNewlines t) : s <:+: t := by
  have hstarts {u : Text} (hu : s <+: unixNewlines u) : s <:+: u := by
    obtain ⟨tail, heq⟩ := hu
    obtain ⟨tail', rfl⟩ := exists_of_unixNewlines_eq_append heq.symm hs
    exact (List.prefix_append s tail').isInfix
  induction t using unixNewlines.induct with
  | case1 => exact h
  | case2 rest ih =>
    rw [unixNewlines] at h
    rcases List.infix_cons_iff.1 h with hprefix | hlater
    · exact hstarts (u := '\r' :: '\n' :: rest) hprefix
    · exact (ih hlater).trans (List.suffix_append ['\r', '\n'] rest).isInfix
  | case3 c rest hline ih =>
    rw [unixNewlines.eq_3 c rest hline] at h
    rcases List.infix_cons_iff.1 h with hprefix | hlater
    · rw [← unixNewlines.eq_3 c rest hline] at hprefix
      exact hstarts hprefix
    · exact (ih hlater).trans (List.suffix_cons c rest).isInfix

theorem infix_of_mem_lines {t line : Text} (h : line ∈ lines t) : line <:+: t := by
  obtain ⟨before, after, heq⟩ := List.append_of_mem h
  rw [← unlines_lines t, heq, unlines_terminated_append (List.cons_ne_nil line after)]
  have hline : line <+: unlines (line :: after) := by
    cases after with
    | nil => exact List.prefix_refl line
    | cons next more => exact List.prefix_append line _
  exact hline.isInfix.trans (List.suffix_append _ _).isInfix

end SnippetAudit.Text
