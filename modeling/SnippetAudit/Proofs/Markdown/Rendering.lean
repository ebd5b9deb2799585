import SnippetAudit.Markdown.FencedBlock
import SnippetAudit.Proofs.Extraction.Idempotence
import SnippetAudit.Proofs.Extraction.Scan
import SnippetAudit.Proofs.Text.Lines

/-!
# Writing and finding fenced blocks

A markdown document is written as prose and fenced blocks in any order. Prose has no line that starts with three
backticks. A block has an opening line with its tag, lines of which none is a bare fence, and a bare fence at
its end; lines that look like an opening line may stand in it. Reading goes line by line: prose is passed over,
an opening line opens a block, and the first bare fence closes it. So what is found in a written document is
what was written, block by block.

## What this module delivers

- `StartsFence`, `IsBareFence`: the lines that open and close blocks, with `openingTag?_eq_none_iff` and
  `isClosing_eq_true_iff`;
- `Prose`, `WrittenBlock`, `Written`: documents as they are written, and their text;
- `readBlocks_prose`, `readBlocks_block`: what reading makes of one segment;
- `findFencedBlocks_text`: the blocks found in a written document.
-/

set_option autoImplicit false

namespace SnippetAudit.Markdown

open Text Extraction

/-! ## Lines with fences -/

/-- The characters of one line. -/
def IsLine (t : Text) : Prop := '\n' ∉ t ∧ '\r' ∉ t

/-- Nothing but spaces and tabs. -/
def Spaces (t : Text) : Prop := ∀ c ∈ t, isSpaceTab c = true

/-- The line starts with three backticks, spaces and tabs apart. -/
def StartsFence (line : Text) : Prop := ∃ s rest, Spaces s ∧ line = s ++ fence ++ rest

/-- The line holds three backticks, and spaces and tabs besides. -/
def IsBareFence (line : Text) : Prop :=
  ∃ before behind, Spaces before ∧ Spaces behind ∧ line = before ++ fence ++ behind

theorem stopsAt_fence (rest : Text) : StopsAt isSpaceTab (fence ++ rest) :=
  stopsAt_cons (by decide) _

theorem dropWhile_indented_fence {s : Text} (hs : Spaces s) (rest : Text) :
    (s ++ fence ++ rest).dropWhile isSpaceTab = fence ++ rest := by
  rw [List.append_assoc]
  exact dropWhile_append_of_stopsAt hs (stopsAt_fence rest)

/-- Backticks behind the leading spaces and tabs are what starts a fence. -/
theorem isPrefixOf_dropWhile_iff (line : Text) :
    fence.isPrefixOf (line.dropWhile isSpaceTab) = true ↔ StartsFence line := by
  rw [isPrefixOf_iff_exists]
  constructor
  · rintro ⟨rest, hrest⟩
    refine ⟨line.takeWhile isSpaceTab, rest, mem_of_mem_takeWhile line, ?_⟩
    rw [List.append_assoc, ← hrest, List.takeWhile_append_dropWhile]
  · rintro ⟨s, rest, hs, rfl⟩
    exact ⟨rest, dropWhile_indented_fence hs rest⟩

theorem openingTag?_eq_none_iff (line : Text) : openingTag? line = none ↔ ¬ StartsFence line := by
  rw [← isPrefixOf_dropWhile_iff, openingTag?]
  by_cases h : fence.isPrefixOf (line.dropWhile isSpaceTab) = true
  · simp [h]
  · simp [h]

theorem isClosing_eq_true_iff (line : Text) : isClosing line = true ↔ IsBareFence line := by
  rw [isClosing, Bool.and_eq_true, isPrefixOf_dropWhile_iff, List.all_eq_true]
  constructor
  · rintro ⟨⟨s, rest, hs, rfl⟩, hrest⟩
    rw [dropWhile_indented_fence hs, List.drop_left] at hrest
    exact ⟨s, rest, hs, hrest, rfl⟩
  · rintro ⟨before, behind, hbefore, hbehind, rfl⟩
    refine ⟨⟨before, behind, hbefore, rfl⟩, ?_⟩
    rw [dropWhile_indented_fence hbefore, List.drop_left]
    exact hbehind

/-! ## Documents as they are written -/

/-- Lines that open no block. -/
structure Prose where
  lines : List Text
  isLine : ∀ line ∈ lines, IsLine line
  opens_nothing : ∀ line ∈ lines, ¬ StartsFence line

/-- A fenced block with the spelling of its fences. -/
structure WrittenBlock where
  indent : Text
  tag : Text
  /-- What stands behind the tag on the opening line. -/
  info : Text
  body : List Text
  before : Text
  behind : Text
  indent_spaces : Spaces indent
  tag_chars : ∀ c ∈ tag, isTagChar c = true
  info_isLine : IsLine info
  info_apart : ∀ c ∈ info.head?, isSpaceTab c = true
  /-- Without a tag, a word behind the backticks would be the tag. -/
  info_of_untagged : tag = [] → ∀ c ∈ info, isBlank c = true
  body_isLine : ∀ line ∈ body, IsLine line
  body_open : ∀ line ∈ body, ¬ IsBareFence line
  before_spaces : Spaces before
  behind_spaces : Spaces behind

namespace WrittenBlock

/-- The line that opens the block. -/
def opening (b : WrittenBlock) : Text := b.indent ++ fence ++ (b.tag ++ b.info)

/-- The line that closes the block. -/
def closing (b : WrittenBlock) : Text := b.before ++ fence ++ b.behind

/-- The lines of the block. -/
def lines (b : WrittenBlock) : List Text := b.opening :: (b.body ++ [b.closing])

/-- The block that is to be found: the tag in lower case, and the text of the body without the line feeds at
its end. -/
def found (b : WrittenBlock) : FencedBlock :=
  ⟨lower b.tag, dropEndWhile (· == '\n') (terminated b.body)⟩

/-- The block is asked for by its language, or as one without a language. -/
def IsWanted (languages : List Text) (untagged : Bool) (b : WrittenBlock) : Prop :=
  lower b.tag ∈ languages.map lower ∨ (untagged = true ∧ b.tag = [])

instance (languages : List Text) (untagged : Bool) : DecidablePred (IsWanted languages untagged) :=
  fun _ => inferInstanceAs (Decidable (_ ∨ _))

end WrittenBlock

/-- A part of a document. -/
inductive Segment where
  | prose (p : Prose)
  | block (b : WrittenBlock)

/-- The lines of a part. -/
def Segment.lines : Segment → List Text
  | .prose p => p.lines
  | .block b => b.lines

/-- The block that a part is, if it is one. -/
def Segment.block? : Segment → Option WrittenBlock
  | .prose _ => none
  | .block b => some b

/-- A markdown document as it is written. -/
structure Written where
  segments : List Segment
  /-- The last line ends with a line feed, as all others do. -/
  ended : Bool

namespace Written

/-- The lines of a document. -/
def lines (d : Written) : List Text := d.segments.flatMap Segment.lines

/-- The text of a document. -/
def text (d : Written) : Text := if d.ended then terminated d.lines else (terminated d.lines).dropLast

/-- The blocks of a document, in order. -/
def blocks (d : Written) : List WrittenBlock := d.segments.filterMap Segment.block?

end Written

/-! ## Reading one segment -/

/-- Lines that start no fence are passed over. -/
theorem readBlocks_prose {ls : List Text} (h : ∀ line ∈ ls, ¬ StartsFence line) (rest : List Text) :
    readBlocks none (ls ++ rest) = readBlocks none rest := by
  induction ls with
  | nil => rfl
  | cons line more ih =>
    rw [List.forall_mem_cons] at h
    have hnone : openingTag? line = none := (openingTag?_eq_none_iff line).2 h.1
    rw [List.cons_append, readBlocks, hnone]
    exact ih h.2

/-- A text without three backticks has no blocks. -/
theorem fencedBlocks_of_no_fence {t : Text} (h : ¬ fence <:+: t) : fencedBlocks t = [] := by
  have hprose : ∀ line ∈ lines (unixNewlines t), ¬ StartsFence line := by
    rintro line hline ⟨s, rest, -, rfl⟩
    have hin : fence <:+: unixNewlines t := (List.infix_append s fence rest).trans (infix_of_mem_lines hline)
    exact h (infix_of_infix_unixNewlines (by decide) hin)
  have hread := readBlocks_prose hprose []
  rwa [List.append_nil] at hread

theorem isTagChar_of_isBlank {c : Char} (h : isBlank c = true) : isTagChar c = false := by
  have hne {d : Char} (hd : isBlank d = false) : (c == d) = false := by
    rw [beq_eq_false_iff_ne]
    rintro rfl
    rw [hd] at h
    exact Bool.false_ne_true h
  rw [isTagChar, isWord_of_isBlank h, hne (d := '+') (by decide), hne (d := '#') (by decide),
    hne (d := '.') (by decide), hne (d := '-') (by decide)]
  rfl

/-- The opening line of a block tells its tag. -/
theorem openingTag?_opening (b : WrittenBlock) : openingTag? b.opening = some b.tag := by
  have hstarts : fence.isPrefixOf (fence ++ (b.tag ++ b.info)) = true :=
    (isPrefixOf_iff_exists _ _).2 ⟨b.tag ++ b.info, rfl⟩
  rw [openingTag?, WrittenBlock.opening, dropWhile_indented_fence b.indent_spaces]
  simp only [hstarts, if_true, List.drop_left, Option.some.injEq]
  by_cases htag : b.tag = []
  · have hstops : StopsAt isTagChar (b.info.dropWhile isSpaceTab) := by
      intro c hc
      have hmem : c ∈ b.info := (List.dropWhile_sublist _).subset (List.mem_of_mem_head? hc)
      exact isTagChar_of_isBlank (b.info_of_untagged htag c hmem)
    have htake := takeWhile_append_of_stopsAt (s := []) (fun _ h => absurd h List.not_mem_nil) hstops
    rw [htag, List.nil_append]
    exact htake
  · -- the tag stands directly behind the backticks, so no space is dropped in front of it
    obtain ⟨c, rest, hcons⟩ := List.exists_cons_of_ne_nil htag
    have htagChar : isTagChar c = true := b.tag_chars c (hcons ▸ List.mem_cons_self)
    have hstart : isSpaceTab c = false := by
      cases hspace : isSpaceTab c with
      | false => rfl
      | true =>
        rw [isTagChar_of_isBlank (isBlank_of_isSpaceTab hspace)] at htagChar
        exact absurd htagChar Bool.false_ne_true
    have hstops : StopsAt isTagChar b.info := fun d hd =>
      isTagChar_of_isBlank (isBlank_of_isSpaceTab (b.info_apart d hd))
    have hdrop : (b.tag ++ b.info).dropWhile isSpaceTab = b.tag ++ b.info := by
      rw [hcons, List.cons_append, List.dropWhile_cons, hstart]
      rfl
    rw [hdrop, takeWhile_append_of_stopsAt b.tag_chars hstops]

/-- Lines that are no bare fence are added to the block that is open. -/
theorem readBlocks_body {ls : List Text} (h : ∀ line ∈ ls, ¬ IsBareFence line) (tag : Text) (rest : List Text) :
    ∀ body, readBlocks (some (tag, body)) (ls ++ rest) = readBlocks (some (tag, ls.reverse ++ body)) rest := by
  induction ls with
  | nil => intro body; rfl
  | cons line more ih =>
    intro body
    rw [List.forall_mem_cons] at h
    have hopen : isClosing line = false := by
      rw [Bool.eq_false_iff, ne_eq, isClosing_eq_true_iff]
      exact h.1
    rw [List.cons_append, readBlocks, hopen, if_neg Bool.false_ne_true, ih h.2 (line :: body)]
    simp

/-- The last line feed of a body is one of those that are dropped. -/
theorem ofLines_eq_found (b : WrittenBlock) : FencedBlock.ofLines b.tag b.body = b.found := by
  have htext : dropEndWhile (· == '\n') (terminated b.body) = dropEndWhile (· == '\n') (unlines b.body) := by
    by_cases hbody : b.body = []
    · rw [hbody]
      rfl
    · rw [terminated_eq_unlines_append hbody]
      simp [dropEndWhile]
  rw [FencedBlock.ofLines, WrittenBlock.found, htext]

theorem readBlocks_block (b : WrittenBlock) (rest : List Text) :
    readBlocks none (b.lines ++ rest) = b.found :: readBlocks none rest := by
  have hcloses : isClosing b.closing = true :=
    (isClosing_eq_true_iff _).2 ⟨b.before, b.behind, b.before_spaces, b.behind_spaces, rfl⟩
  rw [WrittenBlock.lines, List.cons_append, List.append_assoc, readBlocks, openingTag?_opening,
    Option.map_some, readBlocks_body b.body_open, List.singleton_append, readBlocks, if_pos hcloses,
    List.append_nil, List.reverse_reverse, ofLines_eq_found]

theorem readBlocks_segments (segments : List Segment) {rest : List Text} (h : readBlocks none rest = []) :
    readBlocks none (segments.flatMap Segment.lines ++ rest) =
      (segments.filterMap Segment.block?).map WrittenBlock.found := by
  induction segments with
  | nil => exact h
  | cons segment more ih =>
    rw [List.flatMap_cons, List.append_assoc]
    cases segment with
    | prose p => exact (readBlocks_prose p.opens_nothing _).trans ih
    | block b => exact (readBlocks_block b _).trans (congrArg (b.found :: ·) ih)

/-! ## Reading a document -/

theorem WrittenBlock.isLine_of_mem_lines (b : WrittenBlock) : ∀ line ∈ b.lines, IsLine line := by
  have hspaces {s : Text} (hs : Spaces s) : IsLine s :=
    ⟨fun hmem => absurd (hs _ hmem) (by decide), fun hmem => absurd (hs _ hmem) (by decide)⟩
  have htag : IsLine b.tag :=
    ⟨fun hmem => absurd (b.tag_chars _ hmem) (by decide), fun hmem => absurd (b.tag_chars _ hmem) (by decide)⟩
  have hfence : IsLine fence := ⟨by decide, by decide⟩
  have happend {s t : Text} (hs : IsLine s) (ht : IsLine t) : IsLine (s ++ t) :=
    ⟨fun hmem => (List.mem_append.1 hmem).elim hs.1 ht.1, fun hmem => (List.mem_append.1 hmem).elim hs.2 ht.2⟩
  intro line hline
  rw [WrittenBlock.lines, List.mem_cons, List.mem_append, List.mem_singleton] at hline
  rcases hline with rfl | hbody | rfl
  · exact happend (happend (hspaces b.indent_spaces) hfence) (happend htag b.info_isLine)
  · exact b.body_isLine line hbody
  · exact happend (happend (hspaces b.before_spaces) hfence) (hspaces b.behind_spaces)

theorem Written.isLine_of_mem_lines (d : Written) : ∀ line ∈ d.lines, IsLine line := by
  intro line hline
  obtain ⟨segment, -, hline⟩ := List.mem_flatMap.1 hline
  cases segment with
  | prose p => exact p.isLine line hline
  | block b => exact b.isLine_of_mem_lines line hline

theorem not_mem_terminated {ls : List Text} (h : ∀ line ∈ ls, IsLine line) : '\r' ∉ terminated ls := by
  intro hmem
  obtain ⟨line, hline, hmem⟩ := List.mem_flatMap.1 hmem
  rcases List.mem_append.1 hmem with hin | hend
  · exact (h line hline).2 hin
  · exact absurd hend (by decide)

/-- The lines of a document's text are those that were written, with an empty one behind the last line feed. -/
theorem lines_text (d : Written) : lines d.text = d.lines ∨ lines d.text = d.lines ++ [[]] := by
  have hlines : ∀ line ∈ d.lines, '\n' ∉ line := fun line hline => (d.isLine_of_mem_lines line hline).1
  rw [Written.text]
  by_cases hended : d.ended = true
  · rw [if_pos hended, terminated_eq_unlines]
    refine Or.inr (lines_unlines (by simp) ?_)
    intro line hline
    rcases List.mem_append.1 hline with hin | hlast
    · exact hlines line hin
    · rw [List.mem_singleton.1 hlast]
      exact List.not_mem_nil
  · rw [if_neg hended, dropLast_terminated]
    by_cases hne : d.lines = []
    · rw [hne]
      exact Or.inr rfl
    · exact Or.inl (lines_unlines hne hlines)

theorem Written.not_mem_text (d : Written) : '\r' ∉ d.text := by
  have hnone := not_mem_terminated d.isLine_of_mem_lines
  rw [Written.text]
  split
  · exact hnone
  · exact fun hmem => hnone ((List.dropLast_sublist _).subset hmem)

/-- Reading finds the blocks that were written, and no others. -/
theorem fencedBlocks_written (d : Written) : fencedBlocks d.text = d.blocks.map WrittenBlock.found := by
  have hunix : unixNewlines d.text = d.text :=
    (unixNewlines_eq_self_iff d.text).2 fun hcrlf => d.not_mem_text (hcrlf.subset List.mem_cons_self)
  have hread : ∀ rest, rest = [] ∨ rest = [[]] → readBlocks none rest = [] := by
    rintro rest (rfl | rfl) <;> rfl
  rw [fencedBlocks, hunix]
  rcases lines_text d with hlines | hlines
  · have h := readBlocks_segments d.segments (hread [] (Or.inl rfl))
    rw [List.append_nil] at h
    rw [hlines]
    exact h
  · rw [hlines]
    exact readBlocks_segments d.segments (hread [[]] (Or.inr rfl))

/-! ## Blocks of some languages -/

theorem lower_eq_nil_iff (t : Text) : lower t = [] ↔ t = [] := by
  cases t with
  | nil => exact ⟨fun _ => rfl, fun _ => rfl⟩
  | cons c rest =>
    rw [lower, lowerAfter]
    split
    · simp
    · split
      · split <;> simp
      · simp

theorem wanted_found_iff (languages : List Text) (untagged : Bool) (b : WrittenBlock) :
    b.found.wanted (some languages) untagged = true ↔ b.IsWanted languages untagged := by
  simp only [FencedBlock.wanted, WrittenBlock.found, Bool.or_eq_true, Bool.and_eq_true, List.contains_iff_mem,
    List.isEmpty_iff, lower_eq_nil_iff, WrittenBlock.IsWanted]

/-- In a written document all blocks are found as they were written and in their order; where languages are
asked for, those of these languages, and those without one if these are asked for too. -/
theorem findFencedBlocks_text (d : Written) (untagged : Bool) :
    findFencedBlocks none untagged d.text = d.blocks.map WrittenBlock.found ∧
      ∀ languages : List Text, findFencedBlocks (some languages) untagged d.text =
        (d.blocks.filter (WrittenBlock.IsWanted languages untagged)).map WrittenBlock.found := by
  constructor
  · rw [findFencedBlocks, fencedBlocks_written]
    exact List.filter_eq_self.2 fun _ _ => rfl
  · intro languages
    rw [findFencedBlocks, fencedBlocks_written, List.filter_map]
    congr 1
    refine List.filter_congr fun b _ => ?_
    rw [Bool.eq_iff_iff, decide_eq_true_iff]
    exact wanted_found_iff languages untagged b

/-- A block without indentation and without anything but its tag on the opening line. -/
def plainBlock (tag line : Text) (htag : ∀ c ∈ tag, isTagChar c = true) (hline : IsLine line)
    (hopen : isClosing line = false) : WrittenBlock where
  indent := []
  tag := tag
  info := []
  body := [line]
  before := []
  behind := []
  indent_spaces := nofun
  tag_chars := htag
  info_isLine := ⟨List.not_mem_nil, List.not_mem_nil⟩
  info_apart := nofun
  info_of_untagged := fun _ => nofun
  body_isLine := fun l hl => List.mem_singleton.1 hl ▸ hline
  body_open := by
    intro l hl
    rw [List.mem_singleton.1 hl, ← isClosing_eq_true_iff, hopen]
    exact Bool.false_ne_true
  before_spaces := nofun
  behind_spaces := nofun

/-- A line in front of a block, which looks like an operation. -/
def openingWords : Prose where
  lines := ["query".toList]
  isLine := fun l hl => List.mem_singleton.1 hl ▸ ⟨by decide, by decide⟩
  opens_nothing := by
    intro l hl
    rw [List.mem_singleton.1 hl, ← openingTag?_eq_none_iff]
    decide

/-- A block with a line in it that could open another one. -/
def nestedBlock : WrittenBlock :=
  plainBlock "JS".toList "\x60\x60\x60py".toList (List.all_eq_true.1 (by decide)) ⟨by decide, by decide⟩ (by decide)

/-- A block without a tag. -/
def untaggedBlock : WrittenBlock := plainBlock [] "b".toList nofun ⟨by decide, by decide⟩ (by decide)

/-- A line that could open a block belongs to the block that is open, and the block without a tag is found where such
blocks are asked for. -/
theorem findFencedBlocks_text_nested :
    let d : Written := ⟨[.prose openingWords, .block nestedBlock, .block untaggedBlock], true⟩
    let nested : FencedBlock := ⟨"js".toList, "\x60\x60\x60py".toList⟩
    d.text = "query\n\x60\x60\x60JS\n\x60\x60\x60py\n\x60\x60\x60\n\x60\x60\x60\nb\n\x60\x60\x60\n".toList ∧
      findFencedBlocks none false d.text = [nested, ⟨[], ['b']⟩] ∧
      findFencedBlocks (some ["Js".toList]) false d.text = [nested] ∧
      findFencedBlocks (some ["Js".toList]) true d.text = [nested, ⟨[], ['b']⟩] := by
  intro d nested
  obtain ⟨hall, hwithout⟩ := findFencedBlocks_text d false
  obtain ⟨-, hwith⟩ := findFencedBlocks_text d true
  rw [hall, hwithout, hwith]
  decide +kernel

end SnippetAudit.Markdown
