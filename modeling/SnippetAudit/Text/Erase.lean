import SnippetAudit.Text.Basic

/-!
# Erasing matches

A pattern is given by how many characters it matches at a place, which may depend on the character
before the place; zero says that it does not match there. Erasing goes from left to right: at a place
that matches, the match is dropped and the search goes on behind it.

## What this module delivers

- `Pattern`: matches by length at a place;
- `erase`: a text without the matches of a pattern;
- `eraseFirst?`: a text without the first match only;
- `between`: the pattern of everything from an opening mark to the next closing mark;
- `erase_sublist`, `eraseFirst?_sublist`: erasing only deletes.
-/

set_option autoImplicit false

namespace SnippetAudit.Text

/-- How many characters a pattern matches at a place, given the character before it and the text
from there on. Zero characters are no match. -/
abbrev Pattern := Option Char → Text → Nat

/-- Erases matches; `pending` characters of a match found earlier are still to be dropped. -/
def eraseFrom (pattern : Pattern) : Option Char → Nat → Text → Text
  | _, _, [] => []
  | _, pending + 1, c :: rest => eraseFrom pattern (some c) pending rest
  | before, 0, c :: rest =>
    match pattern before (c :: rest) with
    | 0 => c :: eraseFrom pattern (some c) 0 rest
    | more + 1 => eraseFrom pattern (some c) more rest

/-- The text without the matches of a pattern. -/
def erase (pattern : Pattern) (t : Text) : Text :=
  eraseFrom pattern none 0 t

/-- The text without the first match of a pattern, if there is one, when `before` stands before it. -/
def eraseFirstFrom? (pattern : Pattern) (before : Option Char) : Text → Option Text
  | [] => none
  | c :: rest =>
    match pattern before (c :: rest) with
    | 0 => (eraseFirstFrom? pattern (some c) rest).map (c :: ·)
    | more + 1 => some (rest.drop more)

/-- The text without the first match of a pattern, if there is one. -/
def eraseFirst? (pattern : Pattern) (t : Text) : Option Text :=
  eraseFirstFrom? pattern none t

/-- Everything from an opening mark to the end of the next closing mark. -/
def between (opening closing : Text) : Pattern := fun _ t =>
  if opening.isPrefixOf t then
    match lengthThrough? closing (t.drop opening.length) with
    | some n => opening.length + n
    | none => 0
  else 0

theorem eraseFrom_sublist (pattern : Pattern) (t : Text) :
    ∀ before pending, (eraseFrom pattern before pending t).Sublist t := by
  induction t with
  | nil => intro before pending; cases pending <;> simp [eraseFrom]
  | cons c rest ih =>
    intro before pending
    cases pending with
    | succ pending => exact (ih (some c) pending).trans (List.sublist_cons_self c rest)
    | zero =>
      unfold eraseFrom
      split
      · exact (ih (some c) 0).cons_cons c
      · next more _ => exact (ih (some c) more).trans (List.sublist_cons_self c rest)

/-- Erasing only deletes characters. -/
theorem erase_sublist (pattern : Pattern) (t : Text) : (erase pattern t).Sublist t :=
  eraseFrom_sublist pattern t none 0

theorem eraseFirstFrom?_sublist (pattern : Pattern) {t u : Text} :
    ∀ {before}, eraseFirstFrom? pattern before t = some u → u.Sublist t ∧ u.length < t.length := by
  induction t generalizing u with
  | nil => intro before h; simp [eraseFirstFrom?] at h
  | cons c rest ih =>
    intro before h
    unfold eraseFirstFrom? at h
    split at h
    · obtain ⟨v, hv, rfl⟩ := Option.map_eq_some_iff.1 h
      have := ih hv
      exact ⟨this.1.cons_cons c, by simpa using this.2⟩
    · next more _ =>
      obtain rfl := Option.some.inj h
      refine ⟨(List.drop_sublist more rest).trans (List.sublist_cons_self c rest), ?_⟩
      simp only [List.length_drop, List.length_cons]
      omega

/-- Erasing the first match deletes at least one character and changes no other. -/
theorem eraseFirst?_sublist (pattern : Pattern) {t u : Text} (h : eraseFirst? pattern t = some u) :
    u.Sublist t ∧ u.length < t.length :=
  eraseFirstFrom?_sublist pattern h

end SnippetAudit.Text
