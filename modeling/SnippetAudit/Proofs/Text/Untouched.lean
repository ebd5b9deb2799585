import SnippetAudit.Text.Erase
import SnippetAudit.Text.Lines

/-!
# Texts that a removal leaves alone

Erasing a pattern and changing lines only delete. So they leave a text alone exactly when there is nothing
to delete in it: the pattern matches at none of its places, or every line stays as it is.

## What this module delivers

- `Pattern.MatchesIn`: a pattern matches at some place of a text;
- `erase_eq_self_iff`, `eraseFirst?_eq_none_iff`: erasing leaves alone the texts without matches;
- `mapLines_eq_self_iff`: a change of lines leaves alone the texts of which it leaves every line alone;
- `isPrefixOf_iff_exists`, `afterFirst?_isSome_iff`, `lengthThrough?_isSome_iff`: texts that start with a mark
  and texts that hold one.
-/

set_option autoImplicit false

namespace SnippetAudit.Text

/-! ## Erasing -/

/-- The pattern matches at a place of the text, before which stands the text's own character, or `before`
at its start. -/
def Pattern.MatchesFrom (pattern : Pattern) (before : Option Char) (t : Text) : Prop :=
  ∃ a b, t = a ++ b ∧ b ≠ [] ∧ pattern (a.getLast?.or before) b ≠ 0

/-- The pattern matches at a place of the text. -/
def Pattern.MatchesIn (pattern : Pattern) (t : Text) : Prop :=
  ∃ a b, t = a ++ b ∧ b ≠ [] ∧ pattern a.getLast? b ≠ 0

theorem Pattern.matchesFrom_none (pattern : Pattern) (t : Text) :
    pattern.MatchesFrom none t ↔ pattern.MatchesIn t := by
  simp [MatchesFrom, MatchesIn]

theorem Pattern.not_matchesFrom_nil (pattern : Pattern) (before : Option Char) :
    ¬ pattern.MatchesFrom before [] := by
  rintro ⟨a, b, hab, hb, -⟩
  exact hb (List.append_eq_nil_iff.1 hab.symm).2

theorem getLast?_cons_or (c : Char) (a : Text) (before : Option Char) :
    (c :: a).getLast?.or before = a.getLast?.or (some c) := by
  rw [List.getLast?_cons]
  cases a.getLast? <;> rfl

/-- The first place of a text is its start, and the others are those of the text behind its first
character. -/
theorem Pattern.matchesFrom_cons (pattern : Pattern) (before : Option Char) (c : Char) (rest : Text) :
    pattern.MatchesFrom before (c :: rest) ↔
      pattern before (c :: rest) ≠ 0 ∨ pattern.MatchesFrom (some c) rest := by
  constructor
  · rintro ⟨a, b, hab, hb, hmatch⟩
    cases a with
    | nil =>
      obtain rfl : c :: rest = b := hab
      exact Or.inl hmatch
    | cons d a =>
      obtain ⟨rfl, rfl⟩ := List.cons.inj hab
      rw [getLast?_cons_or] at hmatch
      exact Or.inr ⟨a, b, rfl, hb, hmatch⟩
  · rintro (hmatch | ⟨a, b, rfl, hb, hmatch⟩)
    · exact ⟨[], c :: rest, rfl, List.cons_ne_nil c rest, hmatch⟩
    · rw [← getLast?_cons_or c a before] at hmatch
      exact ⟨c :: a, b, rfl, hb, hmatch⟩

theorem eraseFrom_eq_self_iff (pattern : Pattern) (t : Text) :
    ∀ before, eraseFrom pattern before 0 t = t ↔ ¬ pattern.MatchesFrom before t := by
  induction t with
  | nil =>
    intro before
    simp [eraseFrom, pattern.not_matchesFrom_nil before]
  | cons c rest ih =>
    intro before
    rw [pattern.matchesFrom_cons, eraseFrom]
    split
    · next h => simp [h, ih]
    · next more h =>
      -- a match is dropped, and what is left is shorter
      have hle := (eraseFrom_sublist pattern rest (some c) more).length_le
      constructor
      · intro heq
        rw [heq, List.length_cons] at hle
        omega
      · intro hno
        exact absurd (Or.inl (by rw [h]; exact Nat.succ_ne_zero more)) hno

/-- Erasing leaves a text alone exactly when the pattern matches nowhere in it. -/
theorem erase_eq_self_iff (pattern : Pattern) (t : Text) :
    erase pattern t = t ↔ ¬ pattern.MatchesIn t := by
  rw [erase, eraseFrom_eq_self_iff, pattern.matchesFrom_none]

theorem eraseFirstFrom?_eq_none_iff (pattern : Pattern) (t : Text) :
    ∀ before, eraseFirstFrom? pattern before t = none ↔ ¬ pattern.MatchesFrom before t := by
  induction t with
  | nil =>
    intro before
    simp [eraseFirstFrom?, pattern.not_matchesFrom_nil before]
  | cons c rest ih =>
    intro before
    rw [pattern.matchesFrom_cons, eraseFirstFrom?]
    split
    · next h => simp [h, ih]
    · next more h => simp [h]

/-- There is no first match exactly when the pattern matches nowhere. -/
theorem eraseFirst?_eq_none_iff (pattern : Pattern) (t : Text) :
    eraseFirst? pattern t = none ↔ ¬ pattern.MatchesIn t := by
  rw [eraseFirst?, eraseFirstFrom?_eq_none_iff, pattern.matchesFrom_none]

/-! ## Lines -/

theorem unlines_map_eq_self_iff {f : Text → Text} (hf : ∀ line, (f line).Sublist line) :
    ∀ ls : List Text, unlines (ls.map f) = unlines ls ↔ ∀ line ∈ ls, f line = line
  | [] => by simp [unlines]
  | [line] => by simp [unlines]
  | line :: next :: more => by
    have ih := unlines_map_eq_self_iff hf (next :: more)
    have hline := (hf line).length_le
    have hrest := (unlines_map_sublist hf (next :: more)).length_le
    rw [List.forall_mem_cons, ← ih]
    constructor
    · intro h
      change f line ++ '\n' :: unlines ((next :: more).map f) = line ++ '\n' :: unlines (next :: more) at h
      -- neither part can be longer than before, so both keep their length
      have hlength := congrArg List.length h
      simp only [List.length_append, List.length_cons] at hlength hrest
      obtain ⟨hhead, htail⟩ := List.append_inj h (by omega)
      exact ⟨hhead, (List.cons.inj htail).2⟩
    · rintro ⟨hhead, htail⟩
      change f line ++ '\n' :: unlines ((next :: more).map f) = line ++ '\n' :: unlines (next :: more)
      rw [hhead, htail]

/-- A change that only deletes in every line leaves a text alone exactly when it leaves every line
alone. -/
theorem mapLines_eq_self_iff {f : Text → Text} (hf : ∀ line, (f line).Sublist line) (t : Text) :
    mapLines f t = t ↔ ∀ line ∈ lines t, f line = line := by
  have h := unlines_map_eq_self_iff hf (lines t)
  rw [unlines_lines] at h
  exact h

/-! ## Marks -/

theorem isPrefixOf_iff_exists (mark t : Text) :
    mark.isPrefixOf t = true ↔ ∃ rest, t = mark ++ rest := by
  rw [List.isPrefixOf_iff_prefix]
  exact ⟨fun ⟨rest, h⟩ => ⟨rest, h.symm⟩, fun ⟨rest, h⟩ => ⟨rest, h.symm⟩⟩

/-- There is a text behind the first occurrence of a mark exactly when the mark occurs. -/
theorem afterFirst?_isSome_iff (mark t : Text) : (afterFirst? mark t).isSome ↔ mark <:+: t := by
  induction t with
  | nil => simp [afterFirst?]
  | cons c rest ih =>
    rw [List.infix_cons_iff, ← List.isPrefixOf_iff_prefix, ← ih, afterFirst?]
    split
    · next h => simp [h]
    · next h => simp [h]

/-- A text has a length up to the end of a mark exactly when the mark occurs. -/
theorem lengthThrough?_isSome_iff (mark t : Text) : (lengthThrough? mark t).isSome ↔ mark <:+: t := by
  induction t with
  | nil => simp [lengthThrough?]
  | cons c rest ih =>
    rw [List.infix_cons_iff, ← List.isPrefixOf_iff_prefix, ← ih, lengthThrough?]
    split
    · next h => simp [h]
    · next h => simp [h]

end SnippetAudit.Text
