import SnippetAudit.Extraction.Extract

/-!
# Passes only delete

Every pass of an extraction removes characters and changes or adds none: its result is a sublist of the
text it was given. So a round that changes a text shortens it, and rounds come to a text that they leave
alone.

## What this module delivers

- `stripFences_isInfix`: taking a snippet out of its fence leaves one piece of it;
- `Pass.run_sublist`, `round_sublist`, `settle_sublist`: passes, rounds and their repetition only delete;
- `round_settle`: with as many rounds as there are characters the last one changes nothing;
- `round_extract`: an extracted text is one that a round leaves alone.
-/

set_option autoImplicit false

namespace SnippetAudit.Extraction

open Text

/-! ## Fences -/

theorem lineEnd?_suffix {t rest : Text} (h : lineEnd? t = some rest) : rest <:+ t := by
  cases t with
  | nil =>
    obtain rfl := Option.some.inj h
    exact List.suffix_refl []
  | cons c more =>
    simp only [lineEnd?] at h
    split at h
    · obtain rfl := Option.some.inj h
      exact List.suffix_cons c more
    · exact absurd h (by simp)

theorem getD_suffix {found : Option Text} {otherwise t : Text}
    (hfound : ∀ rest, found = some rest → rest <:+ t) (hotherwise : otherwise <:+ t) :
    found.getD otherwise <:+ t := by
  cases found with
  | none => exact hotherwise
  | some rest => exact hfound rest rfl

theorem dropTagLine_suffix (t : Text) : dropTagLine t <:+ t := by
  have hblanks : t.dropWhile isSpaceTab <:+ t := List.dropWhile_suffix _
  have htag : (t.dropWhile isTagChar).dropWhile isSpaceTab <:+ t :=
    (List.dropWhile_suffix _).trans (List.dropWhile_suffix _)
  refine getD_suffix ?_ (getD_suffix (fun rest h => (lineEnd?_suffix h).trans hblanks) hblanks)
  intro rest h
  split at h
  · exact absurd h (by simp)
  · exact (lineEnd?_suffix h).trans htag

theorem dropOpeningFence_suffix (t : Text) : dropOpeningFence t <:+ t := by
  unfold dropOpeningFence
  split
  · exact (dropTagLine_suffix _).trans (List.drop_suffix _ _)
  · exact List.suffix_refl t

theorem dropClosingFence_isPrefix (t : Text) : dropClosingFence t <+: t := by
  have hend : t.reverse.dropWhile isSpaceTab <:+ t.reverse := List.dropWhile_suffix _
  have key {code : Text} (h : code <:+ t.reverse.dropWhile isSpaceTab) : code.reverse <+: t := by
    have hcode := h.trans hend
    rw [← List.reverse_prefix, List.reverse_reverse] at hcode
    exact hcode
  unfold dropClosingFence
  split
  · next before hfence =>
    rw [hfence] at key
    -- behind the three backticks stands the code, or a line feed and the code
    have hbefore : before <:+ '\x60' :: '\x60' :: '\x60' :: before :=
      List.suffix_append ['\x60', '\x60', '\x60'] before
    split
    · next code => exact key ((List.suffix_cons '\n' code).trans hbefore)
    · exact key hbefore
  · exact List.prefix_refl t

/-- What is taken out of a fence is one piece of the text. -/
theorem stripFences_isInfix (t : Text) : stripFences t <:+: t :=
  (dropClosingFence_isPrefix _).isInfix.trans (dropOpeningFence_suffix t).isInfix

/-! ## Removals -/

theorem tidy_sublist {maxBlank : Nat} {before cleaned : Text} (h : cleaned.Sublist before) :
    (tidy maxBlank before cleaned).Sublist before := by
  unfold tidy
  split
  · exact h
  · exact (collapse_sublist maxBlank cleaned).trans h

theorem clearComment_sublist (line : Text) : (clearComment line).Sublist line := by
  unfold clearComment
  split
  · exact List.nil_sublist line
  · exact List.Sublist.refl line

theorem eraseFragments_sublist (fuel : Nat) : ∀ t, (eraseFragments fuel t).Sublist t := by
  induction fuel with
  | zero => intro t; exact List.Sublist.refl t
  | succ fuel ih =>
    intro t
    unfold eraseFragments
    split
    · next rest h => exact (ih rest).trans (eraseFirst?_sublist fragmentDefinition h).1
    · exact List.Sublist.refl t

/-- A pass only deletes. -/
theorem Pass.run_sublist (p : Pass) (t : Text) : (p.run t).Sublist t := by
  cases p with
  | trim => exact trim_sublist t
  | fences => exact (stripFences_isInfix t).sublist
  | htmlComments => exact tidy_sublist (erase_sublist _ t)
  | cComments => exact tidy_sublist ((erase_sublist _ _).trans (erase_sublist _ t))
  | graphqlComments => exact tidy_sublist (mapLines_sublist clearComment_sublist t)
  | graphqlDirectives => exact tidy_sublist (erase_sublist _ t)
  | graphqlFragments =>
    exact tidy_sublist ((erase_sublist _ _).trans (eraseFragments_sublist t.length t))
  | graphqlVariables =>
    refine tidy_sublist ?_
    exact (erase_sublist emptyArguments _).trans <| (erase_sublist variableReference _).trans <|
      (erase_sublist variableArgument _).trans (erase_sublist variableDefinitions t)

/-! ## Rounds -/

/-- A round only deletes. -/
theorem round_sublist (ps : List Pass) : ∀ t, (round ps t).Sublist t := by
  induction ps with
  | nil => intro t; exact List.Sublist.refl t
  | cons p rest ih => intro t; exact (ih (p.run t)).trans (p.run_sublist t)

/-- A round that changes a text shortens it. -/
theorem length_round_lt {ps : List Pass} {t : Text} (h : round ps t ≠ t) :
    (round ps t).length < t.length := by
  have hle := (round_sublist ps t).length_le
  have hne : (round ps t).length ≠ t.length := fun he => h ((round_sublist ps t).eq_of_length he)
  omega

/-- Repeated rounds only delete. -/
theorem settle_sublist (ps : List Pass) (fuel : Nat) : ∀ t, (settle ps fuel t).Sublist t := by
  induction fuel with
  | zero => intro t; exact List.Sublist.refl t
  | succ fuel ih =>
    intro t
    unfold settle
    split
    · exact List.Sublist.refl t
    · exact (ih (round ps t)).trans (round_sublist ps t)

/-- Where a round changes nothing, nothing is repeated. -/
theorem settle_of_round_eq {ps : List Pass} {t : Text} (h : round ps t = t) (fuel : Nat) :
    settle ps fuel t = t := by
  cases fuel with
  | zero => rfl
  | succ fuel => rw [settle, if_pos h]

/-- As many rounds as there are characters come to a text that a further round leaves alone. -/
theorem round_settle (ps : List Pass) (fuel : Nat) :
    ∀ t : Text, t.length ≤ fuel → round ps (settle ps fuel t) = settle ps fuel t := by
  induction fuel with
  | zero =>
    intro t ht
    obtain rfl := List.eq_nil_of_length_eq_zero (Nat.le_zero.1 ht)
    exact List.sublist_nil.1 (round_sublist ps [])
  | succ fuel ih =>
    intro t ht
    unfold settle
    split
    · next h => exact h
    · next h =>
      have hlt := length_round_lt h
      exact ih (round ps t) (by omega)

/-- A round leaves an extracted text alone. -/
theorem round_extract (o : Options) (t : Text) : round (passes o) (extract o t) = extract o t :=
  round_settle (passes o) _ (unixNewlines t) (Nat.le_refl _)

end SnippetAudit.Extraction
