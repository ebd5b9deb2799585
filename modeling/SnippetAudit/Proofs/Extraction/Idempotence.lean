import SnippetAudit.Proofs.Extraction.Deletion

/-!
# Extracting twice

The line ends of a snippet are made line feeds once, before the first round. A carriage return that stands
before a line end, or that a removal brings before one, is left in the extracted text with a line feed
behind it, and a second extraction takes it away. This is the only way in which a second extraction differs
from the first: extraction is idempotent at exactly the texts whose extraction has no carriage return
directly before a line feed (`extract_extract_eq_iff`).

## What this module delivers

- `crlf`: a carriage return and a line feed;
- `extract_sublist`: an extraction only deletes;
- `unixNewlines_eq_self_iff`: the texts whose line ends are line feeds already;
- `extract_extract_eq_iff`: when a second extraction changes nothing.
-/

set_option autoImplicit false

namespace SnippetAudit.Extraction

open Text

/-- A carriage return and a line feed. -/
def crlf : Text := ['\r', '\n']

theorem unixNewlines_sublist (t : Text) : (unixNewlines t).Sublist t := by
  fun_induction unixNewlines t with
  | case1 => exact List.Sublist.slnil
  | case2 rest ih => exact (ih.cons_cons '\n').cons '\r'
  | case3 c rest _ ih => exact ih.cons_cons c

/-- An extraction only deletes. -/
theorem extract_sublist (o : Options) (t : Text) : (extract o t).Sublist t :=
  (settle_sublist (passes o) _ _).trans (unixNewlines_sublist t)

theorem crlf_infix_cons_iff {c : Char} {rest : Text} (h : ∀ more, c = '\r' → rest = '\n' :: more → False) :
    crlf <:+: c :: rest ↔ crlf <:+: rest := by
  rw [List.infix_cons_iff]
  constructor
  · rintro (hfront | hlater)
    · obtain ⟨more, hmore⟩ := hfront
      simp only [crlf, List.cons_append, List.nil_append, List.cons.injEq] at hmore
      exact (h more hmore.1.symm hmore.2.symm).elim
    · exact hlater
  · exact Or.inr

/-- The line ends of a text are line feeds already when no carriage return stands directly before a line
feed. -/
theorem unixNewlines_eq_self_iff (t : Text) : unixNewlines t = t ↔ ¬ crlf <:+: t := by
  fun_induction unixNewlines t with
  | case1 => simp [crlf]
  | case2 rest ih =>
    constructor
    · intro h
      have hlength := congrArg List.length h
      have hle := (unixNewlines_sublist rest).length_le
      simp only [List.length_cons] at hlength
      omega
    · intro h
      exact absurd ⟨[], rest, rfl⟩ h
  | case3 c rest h ih => rw [List.cons.injEq, crlf_infix_cons_iff h, ← ih, and_iff_right rfl]

/-- A second extraction changes nothing exactly where the line ends of the extracted text are line feeds
already. -/
theorem extract_extract_eq_iff_unixNewlines (o : Options) (t : Text) :
    extract o (extract o t) = extract o t ↔ unixNewlines (extract o t) = extract o t := by
  constructor
  · intro h
    -- the second extraction deletes from the text with its line ends changed, and that is no longer
    have hfirst := unixNewlines_sublist (extract o t)
    have hsecond := settle_sublist (passes o) (unixNewlines (extract o t)).length
      (unixNewlines (extract o t))
    change (extract o (extract o t)).Sublist (unixNewlines (extract o t)) at hsecond
    rw [h] at hsecond
    exact hfirst.eq_of_length_le hsecond.length_le
  · intro h
    have hround := round_extract o t
    calc extract o (extract o t)
        = settle (passes o) (unixNewlines (extract o t)).length (unixNewlines (extract o t)) := rfl
      _ = settle (passes o) (extract o t).length (extract o t) := by rw [h]
      _ = extract o t := settle_of_round_eq hround _

/-- Extraction is idempotent at exactly the texts whose extraction has no carriage return directly before
a line feed, whatever the options. -/
theorem extract_extract_eq_iff (o : Options) (t : Text) :
    extract o (extract o t) = extract o t ↔ ¬ crlf <:+: extract o t := by
  rw [extract_extract_eq_iff_unixNewlines, unixNewlines_eq_self_iff]

/-- Two carriage returns before a line feed, and a carriage return that a removed comment brings before
one, are changed by a second extraction. -/
theorem extract_extract_ne :
    extract untouched (extract untouched "a\r\r\nb".toList) ≠ extract untouched "a\r\r\nb".toList ∧
      extract markup (extract markup "a\r<!-- -->\nb".toList) ≠
        extract markup "a\r<!-- -->\nb".toList := by
  decide +kernel

end SnippetAudit.Extraction
