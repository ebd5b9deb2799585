import SnippetAudit.Proofs.Extraction.Idempotence

/-!
# Extraction comes to an end

Two loops make up an extraction. Rounds of passes are repeated until one changes nothing, and within a round
fragment definitions are removed one after the other until there is none. Neither loop counts: each goes on as
long as it finds something to do. That is bounded all the same, since whatever a loop does shortens the text,
so that the loops of `settle` and `eraseFragments`, which do count, are never cut off.

## What this module delivers

- `Loop`: a loop that goes on until there is nothing to do, with the number of its rounds;
- `exists_loop`, `Loop.unique`: a loop that shortens the text at every round comes to an end, and there is only
  one;
- `exists_loop_round_iff`, `extract_eq_iff`: extraction as what such a loop leaves;
- `extract_terminates`: the loops of an extraction do, after at most one round more than there are characters,
  and all they do is delete.
-/

set_option autoImplicit false

namespace SnippetAudit.Extraction

open Text

/-! ## Loops -/

/-- A loop that starts from a text takes a number of rounds and leaves a text. Every round but the last changes
the text; the last one finds nothing to do. -/
inductive Loop (change? : Text → Option Text) : Text → Nat → Text → Prop where
  | last {t : Text} (h : change? t = none) : Loop change? t 1 t
  | again {t u v : Text} {n : Nat} (h : change? t = some u) (more : Loop change? u n v) :
      Loop change? t (n + 1) v

/-- A loop that is cut off after some changes. -/
def repeatWithin (change? : Text → Option Text) : Nat → Text → Text
  | 0, t => t
  | fuel + 1, t =>
    match change? t with
    | some u => repeatWithin change? fuel u
    | none => t

section Loop

variable {change? : Text → Option Text}

/-- If every change shortens the text, a loop with as many changes as there are characters is not cut off. -/
theorem exists_loop (hshort : ∀ t u, change? t = some u → u.length < t.length) (fuel : Nat) :
    ∀ t : Text, t.length ≤ fuel → ∃ n ≤ t.length + 1, Loop change? t n (repeatWithin change? fuel t) := by
  induction fuel with
  | zero =>
    intro t ht
    cases hchange : change? t with
    | none => exact ⟨1, Nat.le_add_left 1 _, .last hchange⟩
    | some u =>
      have hlt := hshort t u hchange
      omega
  | succ fuel ih =>
    intro t ht
    rw [repeatWithin]
    cases hchange : change? t with
    | none => exact ⟨1, Nat.le_add_left 1 _, .last hchange⟩
    | some u =>
      have hlt := hshort t u hchange
      obtain ⟨n, hn, hloop⟩ := ih u (by omega)
      exact ⟨n + 1, by omega, .again hchange hloop⟩

/-- A loop leaves one and the same text. -/
theorem Loop.unique {t u v : Text} {m n : Nat} (h : Loop change? t m u) (h' : Loop change? t n v) : u = v := by
  induction h generalizing n with
  | last hnone =>
    cases h' with
    | last _ => rfl
    | again hsome _ => rw [hnone] at hsome; cases hsome
  | again hsome _ ih =>
    cases h' with
    | last hnone => rw [hnone] at hsome; cases hsome
    | again hsome' more' =>
      obtain rfl := Option.some.inj (hsome.symm.trans hsome')
      exact ih more'

end Loop

/-! ## Rounds of passes -/

/-- The text after a round, if the round changes it. -/
def changedBy? (ps : List Pass) (t : Text) : Option Text :=
  if round ps t = t then none else some (round ps t)

theorem length_lt_of_changedBy? {ps : List Pass} {t u : Text} (h : changedBy? ps t = some u) :
    u.length < t.length := by
  rw [changedBy?] at h
  split at h
  · cases h
  · next hne =>
    cases h
    exact length_round_lt hne

theorem settle_eq_repeatWithin (ps : List Pass) (fuel : Nat) (t : Text) :
    settle ps fuel t = repeatWithin (changedBy? ps) fuel t := by
  induction fuel generalizing t with
  | zero => rfl
  | succ fuel ih =>
    rw [settle, repeatWithin, changedBy?]
    split
    · rfl
    · exact ih (round ps t)

/-- Repeating rounds leaves the same whether it starts before a round or after it. -/
theorem exists_loop_round_iff {ps : List Pass} {t u : Text} :
    (∃ n, Loop (changedBy? ps) (round ps t) n u) ↔ ∃ n, Loop (changedBy? ps) t n u := by
  by_cases h : round ps t = t
  · rw [h]
  · have hchange : changedBy? ps t = some (round ps t) := if_neg h
    constructor
    · rintro ⟨n, hloop⟩
      exact ⟨n + 1, .again hchange hloop⟩
    · rintro ⟨n, hloop⟩
      cases hloop with
      | last hnone => rw [hnone] at hchange; cases hchange
      | again hsome more =>
        obtain rfl := Option.some.inj (hchange.symm.trans hsome)
        exact ⟨_, more⟩

/-! ## Fragment definitions -/

theorem eraseFragments_eq_repeatWithin (fuel : Nat) (t : Text) :
    eraseFragments fuel t = repeatWithin (eraseFirst? fragmentDefinition) fuel t := by
  induction fuel generalizing t with
  | zero => rfl
  | succ fuel ih =>
    rw [eraseFragments, repeatWithin]
    cases eraseFirst? fragmentDefinition t with
    | none => rfl
    | some rest => exact ih rest

/-! ## Extraction -/

theorem exists_loop_extract (o : Options) (t : Text) :
    ∃ n ≤ t.length + 1, Loop (changedBy? (passes o)) (unixNewlines t) n (extract o t) := by
  obtain ⟨n, hn, hloop⟩ := exists_loop (fun _ _ => length_lt_of_changedBy?) (unixNewlines t).length
    (unixNewlines t) (Nat.le_refl _)
  rw [← settle_eq_repeatWithin] at hloop
  have hle := (unixNewlines_sublist t).length_le
  exact ⟨n, by omega, hloop⟩

/-- What is extracted from a text is what repeating rounds leaves of it, however long that takes. -/
theorem extract_eq_iff {o : Options} {t u : Text} :
    extract o t = u ↔ ∃ n, Loop (changedBy? (passes o)) (unixNewlines t) n u := by
  obtain ⟨n, -, hloop⟩ := exists_loop_extract o t
  constructor
  · rintro rfl
    exact ⟨n, hloop⟩
  · rintro ⟨m, hloop'⟩
    exact hloop.unique hloop'

/-- An extraction comes to an end after at most one round more than the text has characters, since every round
that changes the text shortens it. So does, on any text, the removal of fragment definitions within a round,
whatever the braces are. What is left of the text are some of its characters, in their order. -/
theorem extract_terminates (o : Options) (t : Text) :
    (∃ n ≤ t.length + 1, Loop (changedBy? (passes o)) (unixNewlines t) n (extract o t)) ∧
      (∀ u : Text, round (passes o) u ≠ u → (round (passes o) u).length < u.length) ∧
      (∀ u : Text, ∃ n ≤ u.length + 1,
        Loop (eraseFirst? fragmentDefinition) u n (eraseFragments u.length u)) ∧
      (extract o t).Sublist t := by
  refine ⟨exists_loop_extract o t, fun u => length_round_lt, fun u => ?_, extract_sublist o t⟩
  rw [eraseFragments_eq_repeatWithin]
  exact exists_loop (fun _ _ h => (eraseFirst?_sublist fragmentDefinition h).2) u.length u (Nat.le_refl _)

end SnippetAudit.Extraction
