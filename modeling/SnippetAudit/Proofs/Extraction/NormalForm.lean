import SnippetAudit.Proofs.Extraction.Deletion
import SnippetAudit.Proofs.Extraction.Removal

/-!
# Extracted texts are clean

An extracted text is one that a whole round leaves alone. As every pass only deletes, no pass of the round can
make up for what another one does: each of them, run on its own, leaves the extracted text alone. A pass
leaves a text alone exactly when the text holds nothing that the pass removes, so an extracted text is clean
under every pass that its options switch on.

## What this module delivers

- `Pass.Clean`: the text holds nothing that a pass removes;
- `Pass.run_eq_self_iff`: a pass leaves alone exactly the texts that are clean;
- `round_eq_self_iff`: a round leaves alone the texts that each of its passes leaves alone;
- `extract_clean`: extracted texts are clean under all passes that were run.
-/

set_option autoImplicit false

namespace SnippetAudit.Extraction

open Text

/-! ## Clean texts -/

/-- The text holds nothing that the pass removes. -/
def Pass.Clean : Pass → Text → Prop
  | .trim, t => (∀ c ∈ t.head?, isBlank c = false) ∧ ∀ c ∈ t.getLast?, isBlank c = false
  | .fences, t =>
    (¬ ∃ code, t = fence ++ code) ∧ ¬ ∃ code s, t = code ++ fence ++ s ∧ ∀ c ∈ s, isSpaceTab c = true
  | .htmlComments, t => ¬ ∃ a b c, t = a ++ "<!--".toList ++ b ++ "-->".toList ++ c
  | .cComments, t =>
    (¬ ∃ a b c, t = a ++ "/*".toList ++ b ++ "*/".toList ++ c) ∧
      ¬ ∃ a b, t = a ++ "//".toList ++ b ∧ BehindBlank a
  | .graphqlComments, t =>
    ∀ line ∈ lines t, ¬ ∃ s rest, line = s ++ '#' :: rest ∧ ∀ c ∈ s, isSpaceTab c = true
  | .graphqlDirectives, t =>
    ¬ ∃ a blank c b, t = a ++ blank :: '@' :: c :: b ∧ isBlank blank = true ∧ isWord c = true
  | .graphqlFragments, t =>
    (¬ ∃ a b, t = a ++ b ∧ (∀ c ∈ a.getLast?, isWord c = false) ∧ StartsFragment b) ∧
      ¬ ∃ a s name rest, t = a ++ "...".toList ++ s ++ name ++ rest ∧
        (∀ c ∈ s, isBlank c = true) ∧ Run isWord name ∧ StopsAt isWord rest ∧ name ≠ "on".toList
  | .graphqlVariables, t =>
    -- an argument that is bound to a variable holds that variable
    (¬ ∃ a s b c, t = a ++ '(' :: s ++ '$' :: b ++ ')' :: c ∧ ∀ d ∈ s, isBlank d = true) ∧
      (¬ ∃ a c b, t = a ++ '$' :: c :: b ∧ isWord c = true) ∧
      ¬ ∃ a s b, t = a ++ '(' :: s ++ ')' :: b ∧ ∀ d ∈ s, isBlank d = true

/-! ## Deletions that follow one another -/

/-- When a second deletion ends in the text that a first one started from, neither deleted anything. -/
theorem deletion_eq_iff {g : Text → Text} {t u : Text} (hu : u.Sublist t) (hg : ∀ v, (g v).Sublist v) :
    g u = t ↔ u = t ∧ g t = t := by
  constructor
  · intro h
    have hback : t.Sublist u := by
      have hsub := hg u
      rwa [h] at hsub
    have hfirst := hu.eq_of_length_le hback.length_le
    rw [hfirst] at h
    exact ⟨hfirst, h⟩
  · rintro ⟨hfirst, hsecond⟩
    rw [hfirst, hsecond]

theorem tidy_eq_self_iff {maxBlank : Nat} {before cleaned : Text} (h : cleaned.Sublist before) :
    tidy maxBlank before cleaned = before ↔ cleaned = before := by
  unfold tidy
  split
  · exact Iff.rfl
  · next hne =>
    constructor
    · intro hcollapse
      have hsub := collapse_sublist maxBlank cleaned
      rw [hcollapse] at hsub
      exact h.eq_of_length_le hsub.length_le
    · intro heq
      exact absurd heq hne

/-! ## Single passes -/

theorem dropWhile_eq_self_iff (p : Char → Bool) (t : Text) : t.dropWhile p = t ↔ StopsAt p t := by
  cases t with
  | nil => simp [StopsAt]
  | cons c rest =>
    constructor
    · intro h
      have hstop := stopsAt_dropWhile p (c :: rest)
      rwa [h] at hstop
    · intro h
      simp [h c rfl]

theorem trimEnd_eq_self_iff (t : Text) : trimEnd t = t ↔ ∀ c ∈ t.getLast?, isBlank c = false := by
  have hreverse : trimEnd t = t ↔ t.reverse.dropWhile isBlank = t.reverse := by
    rw [trimEnd, dropEndWhile, List.reverse_eq_iff]
  rw [hreverse, dropWhile_eq_self_iff, StopsAt, List.head?_reverse]

theorem dropOpeningFence_eq_self_iff (t : Text) : dropOpeningFence t = t ↔ ¬ ∃ code, t = fence ++ code := by
  unfold dropOpeningFence
  split
  · next hfence =>
    obtain ⟨code, rfl⟩ := (isPrefixOf_iff_exists fence t).1 hfence
    have hle := (dropTagLine_suffix ((fence ++ code).drop fence.length)).length_le
    constructor
    · intro h
      rw [h, List.drop_left] at hle
      simp only [fence, List.length_append, List.length_cons, List.length_nil] at hle
      omega
    · intro hno
      exact absurd ⟨code, rfl⟩ hno
  · next hfence =>
    rw [isPrefixOf_iff_exists] at hfence
    simp only [hfence, not_false_eq_true]

theorem dropClosingFence_eq_self_iff (t : Text) :
    dropClosingFence t = t ↔ ¬ ∃ code s, t = code ++ fence ++ s ∧ ∀ c ∈ s, isSpaceTab c = true := by
  have hsplit := List.takeWhile_append_dropWhile (p := isSpaceTab) (l := t.reverse)
  unfold dropClosingFence
  split
  · next before hfence =>
    -- the backticks are there, and what stands before them is shorter than the text
    rw [hfence] at hsplit
    have hlength := congrArg List.length hsplit
    simp only [List.length_append, List.length_cons, List.length_reverse] at hlength
    have hshape : ∃ code s, t = code ++ fence ++ s ∧ ∀ c ∈ s, isSpaceTab c = true := by
      refine ⟨before.reverse, (t.reverse.takeWhile isSpaceTab).reverse, ?_, ?_⟩
      · have hwhole : t = (t.reverse.takeWhile isSpaceTab ++ '\x60' :: '\x60' :: '\x60' :: before).reverse := by
          rw [hsplit, List.reverse_reverse]
        exact hwhole.trans (by simp [fence])
      · intro c hc
        exact mem_of_mem_takeWhile _ c (List.mem_reverse.1 hc)
    constructor
    · intro h
      have hcode := congrArg List.length h
      split at hcode
      · simp only [List.length_reverse, List.length_cons] at hcode hlength
        omega
      · rw [List.length_reverse] at hcode
        omega
    · intro hno
      exact absurd hshape hno
  · next hnoFence =>
    constructor
    · rintro - ⟨code, s, rfl, hs⟩
      have hstop : StopsAt isSpaceTab (fence.reverse ++ code.reverse) := stopsAt_cons (by decide) _
      have hdrop := dropWhile_append_of_stopsAt (s := s.reverse)
        (fun c hc => hs c (List.mem_reverse.1 hc)) hstop
      refine hnoFence code.reverse ?_
      rw [List.reverse_append, List.reverse_append]
      exact hdrop
    · intro _
      rfl

theorem isHashComment_iff (line : Text) :
    isHashComment line = true ↔ ∃ s rest, line = s ++ '#' :: rest ∧ ∀ c ∈ s, isSpaceTab c = true := by
  rw [isHashComment, beq_iff_eq]
  constructor
  · intro h
    obtain ⟨rest, hrest⟩ := List.head?_eq_some_iff.1 h
    refine ⟨line.takeWhile isSpaceTab, rest, ?_, mem_of_mem_takeWhile line⟩
    rw [← hrest, List.takeWhile_append_dropWhile]
  · rintro ⟨s, rest, rfl, hs⟩
    rw [dropWhile_append_of_stopsAt hs (stopsAt_cons (by decide) rest)]
    rfl

theorem clearComment_eq_self_iff (line : Text) :
    clearComment line = line ↔ ¬ ∃ s rest, line = s ++ '#' :: rest ∧ ∀ c ∈ s, isSpaceTab c = true := by
  rw [← isHashComment_iff, clearComment]
  split
  · next h =>
    constructor
    · rintro rfl
      exact absurd h (by decide)
    · intro hno
      exact absurd h hno
  · next h => simp [h]

theorem eraseFragments_eq_self_iff {fuel : Nat} {t : Text} (hfuel : t.length ≤ fuel) :
    eraseFragments fuel t = t ↔ ¬ fragmentDefinition.MatchesIn t := by
  rw [← eraseFirst?_eq_none_iff]
  cases fuel with
  | zero =>
    obtain rfl := List.eq_nil_of_length_eq_zero (Nat.le_zero.1 hfuel)
    simp [eraseFragments, eraseFirst?, eraseFirstFrom?]
  | succ fuel =>
    rw [eraseFragments]
    cases hfirst : eraseFirst? fragmentDefinition t with
    | none => simp
    | some rest =>
      have hlt := (eraseFirst?_sublist fragmentDefinition hfirst).2
      have hle := (eraseFragments_sublist fuel rest).length_le
      constructor
      · intro h
        simp only [h] at hle
        omega
      · intro hnone
        exact absurd hnone (by simp)

theorem stripFences_eq_self_iff (t : Text) : stripFences t = t ↔ Pass.fences.Clean t := by
  have hopening : (dropOpeningFence t).Sublist t := (dropOpeningFence_suffix t).sublist
  have hclosing (u : Text) : (dropClosingFence u).Sublist u := (dropClosingFence_isPrefix u).sublist
  rw [stripFences, deletion_eq_iff hopening hclosing, dropOpeningFence_eq_self_iff,
    dropClosingFence_eq_self_iff]
  rfl

theorem stripCComments_eq_self_iff (t : Text) : stripCComments t = t ↔ Pass.cComments.Clean t := by
  have hblocks : (erase blockComment t).Sublist t := erase_sublist blockComment t
  have hlines (u : Text) : (erase lineComment u).Sublist u := erase_sublist lineComment u
  rw [stripCComments, tidy_eq_self_iff ((hlines _).trans hblocks), deletion_eq_iff hblocks hlines,
    erase_eq_self_iff, erase_eq_self_iff, blockComment, matchesIn_between_iff (by decide),
    matchesIn_lineComment_iff]
  rfl

theorem stripFragments_eq_self_iff (t : Text) : stripFragments t = t ↔ Pass.graphqlFragments.Clean t := by
  have hdefinitions := eraseFragments_sublist t.length t
  have hspreads (u : Text) : (erase namedSpread u).Sublist u := erase_sublist namedSpread u
  rw [stripFragments, tidy_eq_self_iff ((hspreads _).trans hdefinitions),
    deletion_eq_iff hdefinitions hspreads, eraseFragments_eq_self_iff (Nat.le_refl _), erase_eq_self_iff,
    matchesIn_fragmentDefinition_iff, matchesIn_namedSpread_iff]
  rfl

theorem stripVariables_eq_self_iff (t : Text) : stripVariables t = t ↔ Pass.graphqlVariables.Clean t := by
  have herase (pattern : Pattern) (u : Text) : (erase pattern u).Sublist u := erase_sublist pattern u
  have hdefinitions := herase variableDefinitions t
  have harguments := (herase variableArgument _).trans hdefinitions
  have hreferences := (herase variableReference _).trans harguments
  rw [stripVariables, tidy_eq_self_iff ((herase emptyArguments _).trans hreferences),
    deletion_eq_iff hreferences (herase emptyArguments),
    deletion_eq_iff harguments (herase variableReference),
    deletion_eq_iff hdefinitions (herase variableArgument)]
  simp only [erase_eq_self_iff]
  -- what holds no variable holds no argument that is bound to one
  have hbound : ¬ variableReference.MatchesIn t → ¬ variableArgument.MatchesIn t :=
    mt matchesIn_variableReference_of_argument
  rw [Pass.Clean, ← matchesIn_variableDefinitions_iff, ← matchesIn_variableReference_iff,
    ← matchesIn_emptyArguments_iff]
  constructor
  · rintro ⟨⟨⟨hdef, -⟩, href⟩, hempty⟩
    exact ⟨hdef, href, hempty⟩
  · rintro ⟨hdef, href, hempty⟩
    exact ⟨⟨⟨hdef, hbound href⟩, href⟩, hempty⟩

/-- A pass leaves a text alone exactly when the text holds nothing that the pass removes. -/
theorem Pass.run_eq_self_iff (p : Pass) (t : Text) : p.run t = t ↔ p.Clean t := by
  cases p with
  | trim =>
    have hstart : (trimStart t).Sublist t := List.dropWhile_sublist isBlank
    have hend (u : Text) : (trimEnd u).Sublist u := dropEndWhile_sublist isBlank u
    rw [Pass.run, Text.trim, deletion_eq_iff hstart hend, trimStart, dropWhile_eq_self_iff,
      trimEnd_eq_self_iff]
    rfl
  | fences => exact stripFences_eq_self_iff t
  | htmlComments =>
    rw [Pass.run, stripHtmlComments, tidy_eq_self_iff (erase_sublist _ t), erase_eq_self_iff, htmlComment,
      matchesIn_between_iff (by decide)]
    rfl
  | cComments => exact stripCComments_eq_self_iff t
  | graphqlComments =>
    rw [Pass.run, stripHashComments, tidy_eq_self_iff (mapLines_sublist clearComment_sublist t),
      mapLines_eq_self_iff clearComment_sublist]
    simp only [clearComment_eq_self_iff]
    rfl
  | graphqlDirectives =>
    rw [Pass.run, stripDirectives, tidy_eq_self_iff (erase_sublist _ t), erase_eq_self_iff,
      matchesIn_directive_iff]
    rfl
  | graphqlFragments => exact stripFragments_eq_self_iff t
  | graphqlVariables => exact stripVariables_eq_self_iff t

/-! ## Rounds and extraction -/

/-- A round leaves a text alone exactly when each of its passes does. -/
theorem round_eq_self_iff (ps : List Pass) (t : Text) : round ps t = t ↔ ∀ p ∈ ps, p.run t = t := by
  induction ps with
  | nil => simp [round]
  | cons p rest ih =>
    have hround : round (p :: rest) t = round rest (p.run t) := rfl
    rw [hround, deletion_eq_iff (p.run_sublist t) (round_sublist rest), ih, List.forall_mem_cons]

/-- The options switch a pass on. -/
def Options.switchesOn (o : Options) : Pass → Bool
  | .trim => o.trimWhitespace
  | .fences => o.removeMarkdownFences
  | .htmlComments => o.removeHtmlComments
  | .cComments => o.removeCComments
  | .graphqlComments => o.removeGraphqlComments
  | .graphqlDirectives => o.removeGraphqlDirectives
  | .graphqlFragments => o.removeGraphqlFragments
  | .graphqlVariables => o.removeGraphqlVariables

theorem mem_passes_iff (o : Options) (p : Pass) : p ∈ passes o ↔ o.switchesOn p = true := by
  have hswitch (on : Bool) (q : Pass) : p ∈ (if on then [q] else []) ↔ on = true ∧ p = q := by
    cases on <;> simp
  simp only [passes, List.mem_append, hswitch]
  cases p <;> simp [Options.switchesOn]

/-- Every pass that the options switch on leaves the extracted text alone, and the extracted text holds
nothing that the pass removes. -/
theorem extract_clean (o : Options) (t : Text) :
    ∀ p : Pass, o.switchesOn p = true → p.run (extract o t) = extract o t ∧ p.Clean (extract o t) := by
  intro p hp
  have hrun := (round_eq_self_iff (passes o) (extract o t)).1 (round_extract o t) p ((mem_passes_iff o p).2 hp)
  exact ⟨hrun, (p.run_eq_self_iff (extract o t)).1 hrun⟩

/-- An operation in two fences, with a comment, a variable that is bound to an argument behind two signs, a
directive, and a fragment with its spread. -/
def wrappedOperation : Text :=
  ("\x60\x60\x60gql\n\x60\x60\x60\nquery($i: ID) \x7b\n# all\n a(i: $$i) @b ...F \x7d\n" ++
    "fragment F on T \x7b c \x7b d \x7d \x7d\n\x60\x60\x60\n\x60\x60\x60").toList

/-- The fences, the comment, the variables, the directive and the fragment are gone; the sign that is left is
no variable. -/
theorem extract_clean_wrappedOperation :
    graphqlStrict.switchesOn .graphqlVariables = true ∧
      extract graphqlStrict wrappedOperation = "query \x7b\n a(i: $)  \x7d".toList ∧
      Pass.graphqlVariables.run (extract graphqlStrict wrappedOperation) =
        extract graphqlStrict wrappedOperation ∧
      Pass.graphqlVariables.Clean (extract graphqlStrict wrappedOperation) := by
  have hon : graphqlStrict.switchesOn .graphqlVariables = true := rfl
  obtain ⟨hrun, hclean⟩ := extract_clean graphqlStrict wrappedOperation .graphqlVariables hon
  exact ⟨hon, by decide +kernel, hrun, hclean⟩

end SnippetAudit.Extraction
