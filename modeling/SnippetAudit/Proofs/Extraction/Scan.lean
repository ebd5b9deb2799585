import SnippetAudit.Extraction.Operation
import SnippetAudit.Proofs.Text.Untouched

/-!
# Reading a text piece by piece

The patterns for operations skip one piece of a text after the other: a sign, a keyword, a run of characters
of a class. Each way of skipping is described by the pieces that make up the text, so that a pattern that is
composed of them is described by the pieces in their order.

## What this module delivers

- `Run`, `StopsAt`: a run of characters of a class, and a text that does not go on with that class;
- `isWord_of_isBlank`: no blank is a word character;
- `skipChar?_eq_some_iff`, `skipKeyword?_eq_some_iff`, `skipSome?_eq_some_iff`: the pieces that are skipped;
- `skipping_ne_zero_iff`: a pattern matches where it skips something.
-/

set_option autoImplicit false

namespace SnippetAudit.Extraction

open Text

/-! ## Runs -/

/-- A run of characters of a class: at least one, and no other. -/
def Run (p : Char → Bool) (s : Text) : Prop := s ≠ [] ∧ ∀ c ∈ s, p c = true

/-- The text is at its end or goes on with a character outside of the class. -/
def StopsAt (p : Char → Bool) (t : Text) : Prop := ∀ c ∈ t.head?, p c = false

theorem stopsAt_cons {p : Char → Bool} {c : Char} (h : p c = false) (t : Text) : StopsAt p (c :: t) := by
  intro d hd
  obtain rfl := Option.some.inj hd
  exact h

theorem run_singleton {p : Char → Bool} {c : Char} (h : p c = true) : Run p [c] :=
  ⟨List.cons_ne_nil c [], fun d hd => by rwa [List.mem_singleton.1 hd]⟩

theorem Run.exists_cons {p : Char → Bool} {s : Text} (h : Run p s) :
    ∃ c rest, s = c :: rest ∧ p c = true := by
  obtain ⟨hne, hall⟩ := h
  cases s with
  | nil => exact absurd rfl hne
  | cons c rest => exact ⟨c, rest, rfl, hall c List.mem_cons_self⟩

/-- A run of one class stops another class when the two have nothing in common. -/
theorem Run.stopsAt {p q : Char → Bool} {s : Text} (h : Run p s) (hpq : ∀ c, p c = true → q c = false)
    (t : Text) : StopsAt q (s ++ t) := by
  obtain ⟨c, rest, rfl, hc⟩ := h.exists_cons
  exact stopsAt_cons (hpq c hc) (rest ++ t)

theorem dropWhile_append_of_stopsAt {p : Char → Bool} {s t : Text} (hs : ∀ c ∈ s, p c = true)
    (ht : StopsAt p t) : (s ++ t).dropWhile p = t := by
  rw [List.dropWhile_append_of_pos hs]
  cases t with
  | nil => rfl
  | cons c rest => simp [ht c rfl]

theorem takeWhile_append_of_stopsAt {p : Char → Bool} {s t : Text} (hs : ∀ c ∈ s, p c = true)
    (ht : StopsAt p t) : (s ++ t).takeWhile p = s := by
  rw [List.takeWhile_append_of_pos hs]
  cases t with
  | nil => simp
  | cons c rest => simp [ht c rfl]

theorem stopsAt_dropWhile (p : Char → Bool) (t : Text) : StopsAt p (t.dropWhile p) := by
  intro c hc
  have h := List.head?_dropWhile_not p t
  rw [Option.mem_def.1 hc] at h
  exact h

theorem mem_of_mem_takeWhile {p : Char → Bool} (t : Text) : ∀ c ∈ t.takeWhile p, p c = true :=
  fun c hc => List.all_eq_true.1 List.all_takeWhile c hc

/-! ## Classes -/

/-- The code points of the blanks. -/
def blankCodes : List Nat :=
  [9, 10, 11, 12, 13, 28, 29, 30, 31, 32, 0x85, 0xA0, 0x1680, 0x2000, 0x2001, 0x2002, 0x2003, 0x2004, 0x2005,
    0x2006, 0x2007, 0x2008, 0x2009, 0x200A, 0x2028, 0x2029, 0x202F, 0x205F, 0x3000]

theorem toNat_mem_blankCodes {c : Char} (h : isBlank c = true) : c.toNat ∈ blankCodes := by
  simp only [isBlank, Bool.or_eq_true, Bool.and_eq_true, decide_eq_true_eq, beq_iff_eq] at h
  simp only [blankCodes, List.mem_cons, List.not_mem_nil, or_false]
  omega

/-- No blank is a word character. -/
theorem isWord_of_isBlank {c : Char} (h : isBlank c = true) : isWord c = false := by
  have hcodes : ∀ n ∈ blankCodes, isWord (Char.ofNat n) = false := by decide +kernel
  have hc := hcodes c.toNat (toNat_mem_blankCodes h)
  rwa [Char.ofNat_toNat] at hc

theorem isBlank_of_isWord {c : Char} (h : isWord c = true) : isBlank c = false := by
  cases hblank : isBlank c with
  | false => rfl
  | true => rw [isWord_of_isBlank hblank] at h; exact absurd h Bool.false_ne_true

theorem endsWord_eq_true_iff (t : Text) : endsWord t = true ↔ StopsAt isWord t := by
  cases t with
  | nil => simp [endsWord, StopsAt]
  | cons c rest => simp [endsWord, StopsAt]

/-! ## Pieces -/

theorem skipChar?_eq_some_iff {c : Char} {t rest : Text} : skipChar? c t = some rest ↔ t = c :: rest := by
  cases t with
  | nil => simp [skipChar?]
  | cons d more =>
    simp only [skipChar?, List.cons.injEq]
    split
    · next h => simp [h]
    · next h => simp [h]

theorem skipChar?_cons (c : Char) (rest : Text) : skipChar? c (c :: rest) = some rest :=
  skipChar?_eq_some_iff.2 rfl

theorem skipKeyword?_eq_some_iff {keyword t rest : Text} :
    skipKeyword? keyword t = some rest ↔ t = keyword ++ rest := by
  unfold skipKeyword?
  split
  · next h =>
    obtain ⟨more, rfl⟩ := (isPrefixOf_iff_exists keyword t).1 h
    simp
  · next h =>
    constructor
    · intro hnone
      exact absurd hnone (by simp)
    · intro ht
      exact absurd ((isPrefixOf_iff_exists keyword t).2 ⟨rest, ht⟩) h

theorem skipKeyword?_append (keyword rest : Text) : skipKeyword? keyword (keyword ++ rest) = some rest :=
  skipKeyword?_eq_some_iff.2 rfl

/-- What is skipped of a class is all that there is of it, and at least one character. -/
theorem skipSome?_eq_some_iff {p : Char → Bool} {t rest : Text} :
    skipSome? p t = some rest ↔ ∃ s, Run p s ∧ t = s ++ rest ∧ StopsAt p rest := by
  constructor
  · intro h
    cases t with
    | nil => exact absurd h (by simp [skipSome?])
    | cons c more =>
      simp only [skipSome?] at h
      split at h
      · next hc =>
        obtain rfl := Option.some.inj h
        refine ⟨(c :: more).takeWhile p, ⟨?_, mem_of_mem_takeWhile _⟩, ?_, stopsAt_dropWhile p _⟩
        · simp [hc]
        · exact List.takeWhile_append_dropWhile.symm
      · exact absurd h (by simp)
  · rintro ⟨s, hs, rfl, hstop⟩
    obtain ⟨c, more, rfl, hc⟩ := hs.exists_cons
    have hdrop := dropWhile_append_of_stopsAt hs.2 hstop
    rw [List.cons_append] at hdrop ⊢
    simp only [skipSome?, hc, if_true, hdrop]

theorem skipSome?_append {p : Char → Bool} {s t : Text} (hs : Run p s) (ht : StopsAt p t) :
    skipSome? p (s ++ t) = some t :=
  skipSome?_eq_some_iff.2 ⟨s, hs, rfl, ht⟩

/-- Behind one character of a class there is always something to skip to. -/
theorem exists_skipSome? {p : Char → Bool} {c : Char} (hc : p c = true) (t : Text) :
    ∃ rest, skipSome? p (c :: t) = some rest ∧ rest.length < (c :: t).length := by
  refine ⟨(c :: t).dropWhile p, by simp [skipSome?, hc], ?_⟩
  have hle := (List.dropWhile_sublist (l := t) p).length_le
  simp only [List.dropWhile_cons, hc, if_true, List.length_cons]
  omega

theorem skipBlanks_append {s t : Text} (hs : ∀ c ∈ s, isBlank c = true) (ht : StopsAt isBlank t) :
    skipBlanks (s ++ t) = t :=
  dropWhile_append_of_stopsAt hs ht

/-- A text is its leading blanks and what stands behind them. -/
theorem exists_blanks (t : Text) :
    ∃ s, (∀ c ∈ s, isBlank c = true) ∧ t = s ++ skipBlanks t ∧ StopsAt isBlank (skipBlanks t) :=
  ⟨t.takeWhile isBlank, mem_of_mem_takeWhile t, List.takeWhile_append_dropWhile.symm,
    stopsAt_dropWhile isBlank t⟩

theorem afterFirst?_suffix {mark t rest : Text} (h : afterFirst? mark t = some rest) : rest <:+ t := by
  induction t with
  | nil =>
    simp only [afterFirst?] at h
    split at h
    · obtain rfl := Option.some.inj h
      exact List.suffix_refl []
    · exact absurd h (by simp)
  | cons c more ih =>
    simp only [afterFirst?] at h
    split at h
    · obtain rfl := Option.some.inj h
      exact List.drop_suffix mark.length (c :: more)
    · exact (ih h).trans (List.suffix_cons c more)

/-- A sign has a text behind it exactly when it occurs. -/
theorem afterFirst?_singleton (c : Char) (t : Text) : (afterFirst? [c] t).isSome ↔ ∃ a b, t = a ++ c :: b := by
  rw [afterFirst?_isSome_iff]
  constructor
  · rintro ⟨a, b, rfl⟩
    exact ⟨a, b, by simp⟩
  · rintro ⟨a, b, rfl⟩
    exact ⟨a, b, by simp⟩

/-! ## Patterns -/

/-- A pattern matches exactly where it skips to a shorter rest. -/
theorem skipping_ne_zero_iff {skip : Text → Option Text} {before : Option Char} {t : Text} :
    skipping skip before t ≠ 0 ↔ ∃ rest, skip t = some rest ∧ rest.length < t.length := by
  unfold skipping
  cases skip t with
  | none => simp
  | some rest =>
    simp only [lengthBefore, Option.some.injEq, exists_eq_left']
    omega

end SnippetAudit.Extraction
