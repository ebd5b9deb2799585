import SnippetAudit.Proofs.Text.Untouched

/-!
# Erasing piece by piece

A text that is erased from left to right falls into pieces: text in which nothing matches stays, and a match goes as
a whole. A mark that does not overlap itself is found at its own place, whatever stands in front of it.

## What this module delivers

- `eraseFrom_append`, `eraseFrom_of_match`: the two kinds of pieces;
- `erase_induct`: induction over the pieces;
- `Borderless`, `prefix_of_borderless`: marks that do not overlap themselves;
- `lengthThrough?_append`: such a mark behind a text without it.
-/

set_option autoImplicit false

namespace SnippetAudit.Text

/-! ## Pieces -/

/-- What stands in front of the next match stays. -/
theorem eraseFrom_append {pattern : Pattern} {b : Text} (a : Text) :
    ∀ {before : Option Char},
      (∀ u v, a = u ++ v → v ≠ [] → pattern (u.getLast?.or before) (v ++ b) = 0) →
        eraseFrom pattern before 0 (a ++ b) = a ++ eraseFrom pattern (a.getLast?.or before) 0 b := by
  induction a with
  | nil => exact fun _ => rfl
  | cons c a ih =>
    intro before hnone
    have hfirst : pattern before (c :: (a ++ b)) = 0 := hnone [] (c :: a) rfl (List.cons_ne_nil c a)
    rw [List.cons_append, eraseFrom, hfirst, getLast?_cons_or, List.cons_append]
    refine congrArg (c :: ·) (ih fun u v huv hv => ?_)
    rw [← getLast?_cons_or c u before]
    exact hnone (c :: u) v (by rw [huv, List.cons_append]) hv

/-- What is left of a match found earlier is dropped. -/
theorem eraseFrom_drop (pattern : Pattern) (t : Text) : ∀ before n,
    eraseFrom pattern before n t = eraseFrom pattern ((t.take n).getLast?.or before) 0 (t.drop n) := by
  induction t with
  | nil => exact fun before n => by cases n <;> rfl
  | cons c rest ih =>
    intro before n
    cases n with
    | zero => rfl
    | succ n =>
      rw [List.take_succ_cons, List.drop_succ_cons, getLast?_cons_or]
      exact ih (some c) n

/-- What holds of a text and of what erasing leaves of it is shown character by character where nothing matches, and
match by match elsewhere. -/
theorem erase_induct {pattern : Pattern} {P : Text → Text → Prop} (hnil : P [] [])
    (hkeep : ∀ before c rest u, pattern before (c :: rest) = 0 → P rest u → P (c :: rest) (c :: u))
    (hmatch : ∀ before t n u, pattern before t = n + 1 → P (t.drop (n + 1)) u → P t u) (t : Text) :
    P t (erase pattern t) := by
  have hfrom : ∀ size, ∀ t : Text, t.length ≤ size → ∀ before, P t (eraseFrom pattern before 0 t) := by
    intro size
    induction size with
    | zero =>
      intro t ht before
      rw [List.length_eq_zero_iff.1 (Nat.le_zero.1 ht)]
      exact hnil
    | succ size ih =>
      intro t ht before
      cases t with
      | nil => exact hnil
      | cons c rest =>
        rw [List.length_cons, Nat.add_le_add_iff_right] at ht
        rw [eraseFrom]
        split
        · next hzero => exact hkeep before c rest _ hzero (ih rest ht _)
        · next n hn =>
          have hle : (rest.drop n).length ≤ size := Nat.le_trans (List.drop_sublist n rest).length_le ht
          rw [eraseFrom_drop]
          exact hmatch before (c :: rest) n _ hn (ih _ hle _)
  exact hfrom t.length t (Nat.le_refl _) none

/-- A match goes as a whole. -/
theorem eraseFrom_of_match {pattern : Pattern} {before : Option Char} {m rest : Text} (hne : m ≠ [])
    (hmatch : pattern before (m ++ rest) = m.length) :
    eraseFrom pattern before 0 (m ++ rest) = eraseFrom pattern m.getLast? 0 rest := by
  obtain ⟨c, m, rfl⟩ := List.exists_cons_of_ne_nil hne
  rw [List.cons_append, List.length_cons] at hmatch
  rw [List.cons_append, eraseFrom, hmatch]
  simp only [eraseFrom_drop pattern (m ++ rest), List.take_left, List.drop_left]
  rw [← getLast?_cons_or c m none, Option.or_none]

/-- What goes first is a match, and everything else stays. -/
theorem exists_of_eraseFirstFrom? {pattern : Pattern} {t u : Text} : ∀ {before},
    eraseFirstFrom? pattern before t = some u →
      ∃ a b n, t = a ++ b ∧ b ≠ [] ∧ pattern (a.getLast?.or before) b = n + 1 ∧ u = a ++ b.drop (n + 1) := by
  induction t generalizing u with
  | nil => exact fun h => nomatch h
  | cons c rest ih =>
    intro before h
    rw [eraseFirstFrom?] at h
    split at h
    · obtain ⟨v, hv, rfl⟩ := Option.map_eq_some_iff.1 h
      obtain ⟨a, b, n, rfl, hb, hmatch, rfl⟩ := ih hv
      exact ⟨c :: a, b, n, rfl, hb, by rw [getLast?_cons_or, hmatch], rfl⟩
    · next n hn =>
      obtain rfl := Option.some.inj h
      exact ⟨[], c :: rest, n, rfl, List.cons_ne_nil c rest, hn, rfl⟩

/-! ## Marks -/

/-- No end of the mark is also a start of it, the mark itself apart. -/
def Borderless (mark : Text) : Prop := ∀ n < mark.length, 0 < n → ¬ mark.drop n <+: mark

instance (mark : Text) : Decidable (Borderless mark) :=
  inferInstanceAs (Decidable (∀ n < mark.length, 0 < n → ¬ mark.drop n <+: mark))

/-- In front of a mark that does not overlap itself, the mark is found only where it stands as a whole. -/
theorem prefix_of_borderless {mark v rest : Text} (hmark : Borderless mark) (hv : v ≠ [])
    (h : mark <+: v ++ (mark ++ rest)) : mark <+: v := by
  rcases List.prefix_or_prefix_of_prefix h (List.prefix_append v _) with hin | hbeyond
  · exact hin
  · obtain ⟨p, rfl⟩ := hbeyond
    by_cases hp : p = []
    · rewrite [hp, List.append_nil]
      exact List.prefix_rfl
    · -- the end of the mark that goes beyond the text would be a start of the mark
      have hstart : p <+: v ++ p ++ rest := (List.prefix_append_right_inj v).1 h
      have hshorter : p.length ≤ (v ++ p).length := by simp
      have hborder : p <+: v ++ p := List.prefix_of_prefix_length_le hstart (List.prefix_append _ rest) hshorter
      have hlength : v.length < (v ++ p).length := by
        have := List.length_pos_iff.2 hp
        rw [List.length_append]
        omega
      have hno := hmark v.length hlength (List.length_pos_iff.2 hv)
      rw [List.drop_left] at hno
      exact absurd hborder hno

theorem lengthThrough?_append {mark : Text} (hmark : Borderless mark) (hne : mark ≠ []) {w : Text}
    (hw : ¬ mark <:+: w) (rest : Text) :
    lengthThrough? mark (w ++ (mark ++ rest)) = some (w.length + mark.length) := by
  induction w with
  | nil =>
    obtain ⟨c, more, rfl⟩ := List.exists_cons_of_ne_nil hne
    rw [List.nil_append, List.cons_append, lengthThrough?, ← List.cons_append,
      if_pos (List.isPrefixOf_iff_prefix.2 (List.prefix_append _ rest)), List.length_nil, Nat.zero_add]
  | cons c more ih =>
    have hrest : ¬ mark <:+: more := fun h => hw (h.trans (List.suffix_cons c more).isInfix)
    have hhere : ¬ mark.isPrefixOf (c :: more ++ (mark ++ rest)) = true := by
      rw [List.isPrefixOf_iff_prefix]
      exact fun h => hw (prefix_of_borderless hmark (List.cons_ne_nil c more) h).isInfix
    rw [List.cons_append] at hhere ⊢
    rw [lengthThrough?, if_neg hhere, ih hrest, Option.map_some, List.length_cons]
    congr 1
    omega

end SnippetAudit.Text
