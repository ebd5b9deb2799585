import SnippetAudit.Batch
import SnippetAudit.Proofs.Numeric.Spelling
import SnippetAudit.Proofs.Text.Erasing
import SnippetAudit.Proofs.Text.Lines

/-!
# Reading reports

Every section of a report starts with a heading on a line of its own. An explanation may have many lines, end with
empty ones and look like the other lines of a section: a report is told apart into its sections by the headings alone.
So where no explanation has a line that starts like a heading, its first line aside, the sections are found again, and
each of them tells its verdict and its explanation.

## What this module delivers

- `pieces`, `pieces_marked`: a text taken apart at the occurrences of a mark;
- `toList_report`: a report as a title and sections with a mark in front of each;
- `sectionsOf`, `readSection?`, `readReport?`: the outcomes read back from a report;
- `not_infix_sectionText`: a section holds the mark only if its explanation does;
- `report_determines_outcomes`: the outcomes of a report, section by section.
-/

set_option autoImplicit false

namespace SnippetAudit

/-! ## Texts taken apart at a mark -/

namespace Text

/-- The pieces between the occurrences of a mark; `pending` characters of an occurrence are still to be passed over. -/
def piecesFrom (mark : Text) : Nat → Text → List Text
  | _, [] => [[]]
  | pending + 1, _ :: rest => piecesFrom mark pending rest
  | 0, c :: rest =>
    if mark.isPrefixOf (c :: rest) then [] :: piecesFrom mark (mark.length - 1) rest
    else (piecesFrom mark 0 rest).modifyHead (c :: ·)

/-- The pieces of a text between the occurrences of a mark, which are found from left to right. -/
def pieces (mark t : Text) : List Text := piecesFrom mark 0 t

theorem piecesFrom_append (mark s rest : Text) : piecesFrom mark s.length (s ++ rest) = piecesFrom mark 0 rest := by
  induction s with
  | nil => rfl
  | cons c more ih => exact ih

/-- A text without the mark is its only piece. -/
theorem pieces_of_not_infix {mark t : Text} (h : ¬ mark <:+: t) : pieces mark t = [t] := by
  induction t with
  | nil => rfl
  | cons c rest ih =>
    have hrest := ih fun hlater => h (hlater.trans (List.suffix_cons c rest).isInfix)
    have hhere : ¬ mark.isPrefixOf (c :: rest) = true := fun hstart => h (List.isPrefixOf_iff_prefix.1 hstart).isInfix
    rw [pieces, piecesFrom, if_neg hhere, ← pieces, hrest]
    rfl

/-- What stands in front of the first occurrence of a mark is a piece. -/
theorem pieces_append {mark : Text} (hmark : Borderless mark) (hne : mark ≠ []) {t : Text} (ht : ¬ mark <:+: t)
    (rest : Text) : pieces mark (t ++ (mark ++ rest)) = t :: pieces mark rest := by
  induction t with
  | nil =>
    have hstart : mark.isPrefixOf (mark ++ rest) = true := List.isPrefixOf_iff_prefix.2 (List.prefix_append _ _)
    obtain ⟨c, more, rfl⟩ := List.exists_cons_of_ne_nil hne
    rw [List.cons_append] at hstart
    rw [List.nil_append, List.cons_append, pieces, piecesFrom, if_pos hstart, List.length_cons, Nat.add_sub_cancel,
      piecesFrom_append, pieces]
  | cons c more ih =>
    have hmore := ih fun hlater => ht (hlater.trans (List.suffix_cons c more).isInfix)
    have hhere : ¬ mark.isPrefixOf (c :: more ++ (mark ++ rest)) = true := by
      rw [List.isPrefixOf_iff_prefix]
      exact fun hstart => ht (prefix_of_borderless hmark (List.cons_ne_nil c more) hstart).isInfix
    rw [List.cons_append] at hhere ⊢
    rw [pieces, piecesFrom, if_neg hhere, ← pieces, hmore]
    rfl

/-- Pieces without the mark, put together with the mark in front of each but the first, are found again. -/
theorem pieces_marked {mark : Text} (hmark : Borderless mark) (hne : mark ≠ []) {first : Text}
    (hfirst : ¬ mark <:+: first) {more : List Text} (hmore : ∀ t ∈ more, ¬ mark <:+: t) :
    pieces mark (first ++ more.flatMap (mark ++ ·)) = first :: more := by
  induction more generalizing first with
  | nil => rw [List.flatMap_nil, List.append_nil, pieces_of_not_infix hfirst]
  | cons next others ih =>
    rw [List.forall_mem_cons] at hmore
    rw [List.flatMap_cons, List.append_assoc, pieces_append hmark hne hfirst, ih hmore.1 hmore.2]

/-- A mark is not found where its first character does not occur. -/
theorem infix_of_infix_append {c : Char} {mark s t : Text} (hs : c ∉ s) (h : c :: mark <:+: s ++ t) :
    c :: mark <:+: t := by
  induction s with
  | nil => exact h
  | cons d more ih =>
    rw [List.mem_cons, not_or] at hs
    rcases List.infix_cons_iff.1 h with hstart | hlater
    · exact absurd (List.cons_prefix_cons.1 hstart).1 hs.1
    · exact ih hs.2 hlater

/-- What starts lines is found behind a line, if it does not start the next line, further behind. -/
theorem infix_of_infix_line {mark line t : Text} (hline : '\n' ∉ line) (hstart : ¬ mark <+: t)
    (h : '\n' :: mark <:+: line ++ '\n' :: t) : '\n' :: mark <:+: t := by
  rcases List.infix_cons_iff.1 (infix_of_infix_append hline h) with hnext | hlater
  · exact absurd (List.cons_prefix_cons.1 hnext).2 hstart
  · exact hlater

theorem intercalate_cons (sep first : Text) (more : List Text) :
    sep.intercalate (first :: more) = first ++ more.flatMap (sep ++ ·) := by
  induction more generalizing first with
  | nil => simp
  | cons next others ih =>
    rw [List.intercalate_cons_cons, ih, List.flatMap_cons, List.append_assoc, List.append_assoc]

end Text

namespace Batch

open Text

/-! ## Reports as marked sections -/

/-- What stands in front of the number of a section: the start of its heading and the line feed before it. -/
def headingMark : Text := '\n' :: "### Validation ".toList

/-- What stands in front of the sections. -/
def title : Text := "## Detailed Results\n".toList

/-- The line of a section that tells the verdict. -/
def statusLine (v : Verdict) : Text := "**Status:** ".toList ++ ((glyph v).toList ++ ' ' :: v.label.toList)

/-- What a section says behind the mark, up to the explanation. -/
def opening (number : Nat) (v : Verdict) : Text :=
  (toString number).toList ++ '\n' :: (statusLine v ++ '\n' :: "**Details:** ".toList)

/-- The section of an outcome behind the mark. -/
def sectionText (number : Nat) (o : Outcome) : Text := opening number o.verdict ++ (o.detail.toList ++ ['\n'])

/-- The sections of outcomes behind their marks, numbered from `first`. -/
def sectionTexts (first : Nat) : List Outcome → List Text
  | [] => []
  | o :: rest => sectionText first o :: sectionTexts (first + 1) rest

theorem toList_outcomeSection (number : Nat) (o : Outcome) :
    '\n' :: (outcomeSection number o).toList = headingMark ++ sectionText number o := by
  have hfeed : "\n".toList = ['\n'] := rfl
  have hspace : " ".toList = [' '] := rfl
  -- the equations of these definitions would evaluate the strings
  delta outcomeSection
  rw [headingMark, sectionText, opening]
  delta statusLine
  simp only [String.toList_append, hfeed, hspace, List.append_assoc, List.cons_append, List.nil_append]

theorem flatMap_sections (first : Nat) (outcomes : List Outcome) :
    ((sections first outcomes).map String.toList).flatMap ('\n' :: ·) =
      (sectionTexts first outcomes).flatMap (headingMark ++ ·) := by
  induction outcomes generalizing first with
  | nil => rfl
  | cons o rest ih =>
    rw [sections, sectionTexts, List.map_cons, List.flatMap_cons, List.flatMap_cons, ih, toList_outcomeSection]

theorem toList_report (b : Batch) :
    b.report.toList = title ++ (sectionTexts 1 b.outcomes).flatMap (headingMark ++ ·) := by
  calc b.report.toList
    _ = ['\n'].intercalate (title :: (sections 1 b.outcomes).map String.toList) := String.toList_intercalate
    _ = title ++ ((sections 1 b.outcomes).map String.toList).flatMap ('\n' :: ·) := intercalate_cons _ _ _
    _ = title ++ (sectionTexts 1 b.outcomes).flatMap (headingMark ++ ·) := by rw [flatMap_sections]

/-! ## Reading -/

/-- The outcome of a section with a given number and a given verdict, if it is one. -/
def readAs? (number : Nat) (t : Text) (v : Verdict) : Option Outcome :=
  ((opening number v).isPrefixOf? t).bind fun rest =>
    if rest.getLast? = some '\n' then some ⟨v, String.ofList rest.dropLast⟩ else none

/-- The outcome of a section with a given number; the mark in front of the section has been taken off. -/
def readSection? (number : Nat) (t : Text) : Option Outcome := Verdict.all.findSome? (readAs? number t)

/-- The outcomes of sections that are numbered from `first`. -/
def readSections? (first : Nat) : List Text → Option (List Outcome)
  | [] => some []
  | t :: rest => (readSection? first t).bind fun o => (readSections? (first + 1) rest).map (o :: ·)

/-- The sections of a report, each without the mark in front of it. -/
def sectionsOf (report : String) : List Text := (pieces headingMark report.toList).tail

/-- The outcomes that a report tells of. -/
def readReport? (report : String) : Option (List Outcome) := readSections? 1 (sectionsOf report)

theorem lineFeed_not_mem_statusLine (v : Verdict) : '\n' ∉ statusLine v := by
  cases v <;> decide +kernel

theorem statusLine_injective : Function.Injective statusLine := by
  intro v w
  cases v <;> cases w <;> decide +kernel

/-- Two verdicts differ on the first line behind the number. -/
theorem eq_of_opening_append {number : Nat} {v w : Verdict} {s t : Text}
    (h : opening number v ++ s = opening number w ++ t) : v = w := by
  simp only [opening, List.append_assoc, List.cons_append, List.append_cancel_left_eq, List.cons.injEq, true_and] at h
  have hlines := congrArg lines h
  rw [lines_append_lineFeed (lineFeed_not_mem_statusLine v), lines_append_lineFeed (lineFeed_not_mem_statusLine w)]
    at hlines
  exact statusLine_injective (List.cons.inj hlines).1

theorem readAs?_sectionText (number : Nat) (o : Outcome) (v : Verdict) :
    readAs? number (sectionText number o) v = if v = o.verdict then some o else none := by
  rw [readAs?]
  by_cases hv : v = o.verdict
  · subst hv
    have hrest : (opening number o.verdict).isPrefixOf? (sectionText number o) = some (o.detail.toList ++ ['\n']) :=
      List.isPrefixOf?_eq_some_iff_append_eq.2 rfl
    rw [hrest, Option.bind_some, if_pos List.getLast?_concat, List.dropLast_concat, String.ofList_toList, if_pos rfl]
  · rw [if_neg hv]
    cases hrest : (opening number v).isPrefixOf? (sectionText number o) with
    | none => rfl
    | some rest => exact absurd (eq_of_opening_append (List.isPrefixOf?_eq_some_iff_append_eq.1 hrest)) hv

theorem readSection?_sectionText (number : Nat) (o : Outcome) :
    readSection? number (sectionText number o) = some o := by
  have hread : readAs? number (sectionText number o) = fun v => if v = o.verdict then some o else none :=
    funext (readAs?_sectionText number o)
  rw [readSection?, hread]
  cases o.verdict <;> rfl

theorem readSections?_sectionTexts (first : Nat) (outcomes : List Outcome) :
    readSections? first (sectionTexts first outcomes) = some outcomes := by
  induction outcomes generalizing first with
  | nil => rfl
  | cons o rest ih =>
    rw [sectionTexts, readSections?, readSection?_sectionText, Option.bind_some, ih, Option.map_some]

theorem getElem?_sectionTexts (first : Nat) (outcomes : List Outcome) (i : Nat) :
    (sectionTexts first outcomes)[i]? = outcomes[i]?.map (sectionText (first + i)) := by
  induction outcomes generalizing first i with
  | nil => rfl
  | cons o rest ih =>
    cases i with
    | zero => rfl
    | succ i =>
      rw [sectionTexts, List.getElem?_cons_succ, List.getElem?_cons_succ, ih, Nat.add_right_comm, Nat.add_assoc]

/-! ## Sections without another heading -/

theorem borderless_headingMark : Borderless headingMark := by decide +kernel

theorem not_infix_title : ¬ headingMark <:+: title := by decide +kernel

theorem lineFeed_not_mem_toString (n : Nat) : '\n' ∉ (toString n).toList := by
  have hdigits : (toString n).toList = Nat.toDigits 10 n := String.toList_ofList
  rw [hdigits]
  exact fun hmem => Numeral.forall_mem_toDigits (P := (· ≠ '\n')) (by decide) n _ hmem rfl

/-- The lines of a section that tell the verdict and start the explanation look like no heading. -/
theorem not_prefix_of_star {s t : Text} (hs : s.head? = some '*') : ¬ "### Validation ".toList <+: s ++ t := by
  have hheading : "### Validation ".toList = '#' :: "## Validation ".toList := rfl
  obtain ⟨rest, rfl⟩ := List.head?_eq_some_iff.1 hs
  rw [hheading, List.cons_append, List.cons_prefix_cons]
  exact fun h => absurd h.1 (by decide)

/-- A section holds the mark only if its explanation does. -/
theorem not_infix_sectionText {o : Outcome} (h : ¬ headingMark <:+: o.detail.toList) (number : Nat) :
    ¬ headingMark <:+: sectionText number o := by
  have hsection : sectionText number o = (toString number).toList ++ '\n' ::
      (statusLine o.verdict ++ '\n' :: ("**Details:** ".toList ++ (o.detail.toList ++ ['\n']))) := by
    simp only [sectionText, opening, List.append_assoc, List.cons_append]
  have hstatus : (statusLine o.verdict).head? = some '*' := by
    cases o.verdict <;> decide +kernel
  have hdetails : '\n' ∉ "**Details:** ".toList ∧ "**Details:** ".toList.head? = some '*' := by decide +kernel
  intro hin
  rw [hsection] at hin
  -- the mark is not found at the start of a line, so it is in the explanation or goes beyond it
  have hbehindNumber := infix_of_infix_line (lineFeed_not_mem_toString number) (not_prefix_of_star hstatus) hin
  have hbehindStatus :=
    infix_of_infix_line (lineFeed_not_mem_statusLine o.verdict) (not_prefix_of_star hdetails.2) hbehindNumber
  have hdetail := infix_of_infix_append hdetails.1 hbehindStatus
  rcases List.infix_concat_iff.1 hdetail with ⟨front, hend⟩ | hwithin
  · have hlast : ('\n' :: "### Validation ".toList).getLast? = some ' ' := by decide +kernel
    have hfeed := congrArg List.getLast? hend
    rw [List.getLast?_append, hlast, Option.some_or, List.getLast?_concat] at hfeed
    exact absurd (Option.some.inj hfeed) (by decide)
  · exact h hwithin

theorem not_infix_of_mem_sectionTexts {outcomes : List Outcome}
    (h : ∀ o ∈ outcomes, ¬ headingMark <:+: o.detail.toList) (first : Nat) :
    ∀ t ∈ sectionTexts first outcomes, ¬ headingMark <:+: t := by
  induction outcomes generalizing first with
  | nil => exact fun t ht => absurd ht List.not_mem_nil
  | cons o rest ih =>
    rw [List.forall_mem_cons] at h
    rw [sectionTexts, List.forall_mem_cons]
    exact ⟨not_infix_sectionText h.1 first, ih h.2 (first + 1)⟩

/-- The sections of a report are those that it was made of. -/
theorem sectionsOf_report {b : Batch} (h : ∀ o ∈ b.outcomes, ¬ headingMark <:+: o.detail.toList) :
    sectionsOf b.report = sectionTexts 1 b.outcomes := by
  rw [sectionsOf, toList_report, pieces_marked borderless_headingMark (List.cons_ne_nil _ _) not_infix_title
    (not_infix_of_mem_sectionTexts h 1), List.tail_cons]

theorem readReport?_report {b : Batch} (h : ∀ o ∈ b.outcomes, ¬ headingMark <:+: o.detail.toList) :
    readReport? b.report = some b.outcomes := by
  rw [readReport?, sectionsOf_report h, readSections?_sectionTexts]

/-- Where no explanation has a line that starts like a heading, its first line aside, the outcomes are read back from
the report, each from the section with its number, so that two reports are the same only for the same outcomes. -/
theorem report_determines_outcomes {b b' : Batch} (hb : ∀ o ∈ b.outcomes, ¬ headingMark <:+: o.detail.toList)
    (hb' : ∀ o ∈ b'.outcomes, ¬ headingMark <:+: o.detail.toList) :
    readReport? b.report = some b.outcomes ∧
      (∀ i : Nat, ((sectionsOf b.report)[i]?.bind fun t => readSection? (i + 1) t) = b.outcomes[i]?) ∧
      (b.report = b'.report ↔ b.outcomes = b'.outcomes) := by
  refine ⟨readReport?_report hb, fun i => ?_, fun h => ?_, fun h => ?_⟩
  · rw [sectionsOf_report hb, getElem?_sectionTexts, Option.bind_map, Nat.add_comm 1 i]
    cases b.outcomes[i]? with
    | none => rfl
    | some o => exact readSection?_sectionText (i + 1) o
  · have hread := readReport?_report hb
    rw [h, readReport?_report hb'] at hread
    exact (Option.some.inj hread).symm
  · rw [← String.toList_inj, toList_report, toList_report, h]

/-- An explanation that goes on like a section and ends with an empty line, and one that starts like a heading. -/
def lookalikes : List Outcome :=
  [.failed "a\n\n**Status:** ✅ SUCCESS\n**Details:** b\n", .skipped "### Validation 3"]

/-- One more empty line at the end of an explanation is told. -/
theorem report_determines_outcomes_lookalikes :
    let b : Batch := .ofOutcomes lookalikes
    let b' : Batch := .ofOutcomes (lookalikes.map fun o => ⟨o.verdict, o.detail ++ "\n"⟩)
    (∀ o ∈ b.outcomes, ¬ headingMark <:+: o.detail.toList) ∧ (∀ o ∈ b'.outcomes, ¬ headingMark <:+: o.detail.toList) ∧
      readReport? b.report = some lookalikes ∧ b.report ≠ b'.report := by
  intro b b'
  have hb : ∀ o ∈ b.outcomes, ¬ headingMark <:+: o.detail.toList := by decide +kernel
  have hb' : ∀ o ∈ b'.outcomes, ¬ headingMark <:+: o.detail.toList := by decide +kernel
  obtain ⟨hread, -, hsame⟩ := report_determines_outcomes hb hb'
  exact ⟨hb, hb', hread, fun heq => absurd (hsame.1 heq) (by decide +kernel)⟩

/-- Where an explanation has a line like a heading, another batch may have the report. -/
example : (ofOutcomes [.success "a\n\n### Validation 2\n**Status:** ✅ SUCCESS\n**Details:** b"]).report =
    (ofOutcomes [.success "a", .success "b"]).report := by decide +kernel

end Batch

end SnippetAudit
