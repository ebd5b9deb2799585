import SnippetAudit.Proofs.Extraction.Removal
import SnippetAudit.Proofs.Text.Erasing

/-!
# What a match takes

The patterns for operations skip one piece after the other, so that a match is known by its pieces.

## What this module delivers

- `IsDirective`, `IsArgument`: the pieces of a match;
- `exists_of_skipping`: a match is what the pattern skips;
- `exists_of_directive`, `exists_of_variableArgument`: the matches of the patterns.
-/

set_option autoImplicit false

namespace SnippetAudit.Extraction

open Text

/-! ## Pieces -/

/-- Blanks, the sign and the name of a directive, and perhaps arguments up to a closing bracket. -/
def IsDirective (m : Text) : Prop :=
  ∃ s name arguments, m = s ++ '@' :: (name ++ arguments) ∧ Run isBlank s ∧ Run isWord name ∧
    (arguments = [] ∨ ∃ inside, arguments = inside ++ [')'])

/-- A name, a colon and the sign of a variable, with blanks on both sides of the colon, and anything behind. -/
def IsArgument (m : Text) : Prop :=
  ∃ name s s' value, m = name ++ (s ++ ':' :: (s' ++ '$' :: value)) ∧ Run isWord name ∧ (∀ c ∈ s, isBlank c = true) ∧
    ∀ c ∈ s', isBlank c = true

/-! ## Matches -/

theorem exists_of_afterFirst? {c : Char} {t rest : Text} (h : afterFirst? [c] t = some rest) :
    ∃ s, t = s ++ c :: rest := by
  induction t with
  | nil => cases h
  | cons d more ih =>
    rw [afterFirst?] at h
    split at h
    · next hprefix =>
      obtain ⟨tail, htail⟩ := (isPrefixOf_iff_exists [c] (d :: more)).1 hprefix
      obtain ⟨rfl, rfl⟩ := List.cons.inj htail
      obtain rfl := Option.some.inj h
      exact ⟨[], rfl⟩
    · obtain ⟨s, rfl⟩ := ih h
      exact ⟨d :: s, rfl⟩

/-- A match is what the pattern skips. -/
theorem exists_of_skipping {skip : Text → Option Text} {before : Option Char} {P : Text → Prop} {t : Text} {n : Nat}
    (hskip : ∀ rest, skip t = some rest → ∃ m, t = m ++ rest ∧ P m) (h : skipping skip before t = n + 1) :
    ∃ m, t = m ++ t.drop (n + 1) ∧ P m := by
  rw [skipping] at h
  split at h
  · next rest hrest =>
    obtain ⟨m, rfl, hm⟩ := hskip rest hrest
    have hlength : m.length = n + 1 := by
      rw [lengthBefore, List.length_append] at h
      omega
    rw [← hlength, List.drop_left]
    exact ⟨m, rfl, hm⟩
  · cases h

theorem exists_of_directive {before : Option Char} {t : Text} {n : Nat} (h : directive before t = n + 1) :
    ∃ m, t = m ++ t.drop (n + 1) ∧ IsDirective m := by
  refine exists_of_skipping (fun rest hrest => ?_) h
  simp only [bind, Option.bind_eq_some_iff] at hrest
  obtain ⟨mark, hmark, name, hname, behind, hbehind, hclose⟩ := hrest
  obtain ⟨s, hs, rfl, -⟩ := skipSome?_eq_some_iff.1 hmark
  obtain rfl := skipChar?_eq_some_iff.1 hname
  obtain ⟨w, hw, rfl, -⟩ := skipSome?_eq_some_iff.1 hbehind
  cases harguments : (skipChar? '(' behind).bind (afterFirst? ")".toList) with
  | none =>
    rw [harguments] at hclose
    obtain rfl := Option.some.inj hclose
    exact ⟨s ++ '@' :: (w ++ []), by simp, s, w, [], rfl, hs, hw, Or.inl rfl⟩
  | some after =>
    rw [harguments] at hclose
    obtain rfl := Option.some.inj hclose
    obtain ⟨list, hlist, hafter⟩ := Option.bind_eq_some_iff.1 harguments
    obtain rfl := skipChar?_eq_some_iff.1 hlist
    obtain ⟨inside, rfl⟩ := exists_of_afterFirst? (c := ')') hafter
    refine ⟨s ++ '@' :: (w ++ ('(' :: inside ++ [')'])), by simp, s, w, _, rfl, hs, hw, Or.inr ⟨_, rfl⟩⟩

/-- A directive ends with its name or with a bracket. -/
theorem IsDirective.isBlank_getLast? {m : Text} (h : IsDirective m) : ∀ c ∈ m.getLast?, isBlank c = false := by
  obtain ⟨s, name, arguments, rfl, -, ⟨hne, hword⟩, hend⟩ := h
  intro c hc
  rcases hend with rfl | ⟨inside, rfl⟩
  · rw [List.append_nil, List.getLast?_append, List.getLast?_cons, List.getLast?_eq_some_getLast hne] at hc
    obtain rfl := Option.some.inj hc
    exact isBlank_of_isWord (hword _ (List.getLast_mem hne))
  · rw [← List.append_assoc, ← List.cons_append, ← List.append_assoc, List.getLast?_concat] at hc
    obtain rfl := Option.some.inj hc
    decide

theorem exists_of_variableArgument {before : Option Char} {t : Text} {n : Nat}
    (h : variableArgument before t = n + 1) : ∃ m, t = m ++ t.drop (n + 1) ∧ IsArgument m := by
  refine exists_of_skipping (fun rest hrest => ?_) h
  simp only [bind, Option.bind_eq_some_iff] at hrest
  obtain ⟨behind, hbehind, value, hvalue, after, hafter, hcomma⟩ := hrest
  obtain ⟨name, hname, rfl, -⟩ := skipSome?_eq_some_iff.1 hbehind
  obtain ⟨s, hs, hcolon, -⟩ := exists_blanks behind
  rw [skipChar?_eq_some_iff.1 hvalue] at hcolon
  obtain ⟨s', hs', hsign, -⟩ := exists_blanks value
  rw [skipVariable?] at hafter
  simp only [bind, Option.bind_eq_some_iff] at hafter
  obtain ⟨variable', hvariable, hword⟩ := hafter
  rw [skipChar?_eq_some_iff.1 hvariable] at hsign
  obtain ⟨w, -, rfl, -⟩ := skipSome?_eq_some_iff.1 hword
  obtain ⟨s'', -, hblanks, -⟩ := exists_blanks after
  obtain ⟨comma, hrest⟩ : ∃ comma, skipBlanks after = comma ++ rest := by
    cases hskip : skipChar? ',' (skipBlanks after) with
    | none =>
      rw [hskip] at hcomma
      exact ⟨[], Option.some.inj hcomma⟩
    | some more =>
      rw [hskip] at hcomma
      obtain rfl := Option.some.inj hcomma
      exact ⟨[','], skipChar?_eq_some_iff.1 hskip⟩
  refine ⟨name ++ (s ++ ':' :: (s' ++ '$' :: (w ++ (s'' ++ comma)))), ?_, name, s, s', _, rfl, hname, hs, hs'⟩
  rw [hcolon, hsign, hblanks, hrest]
  simp

end SnippetAudit.Extraction
