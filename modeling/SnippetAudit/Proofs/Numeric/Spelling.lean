import Mathlib.Data.List.Basic
import Mathlib.Data.Nat.Digits.Defs
import SnippetAudit.Numeric.Numeral

/-!
# Spellings of whole numbers

A whole number is spelled in base ten without leading zeros, or behind a mark in base sixteen, eight or two,
with any leading zeros and with letters of either case. Underscores may stand anywhere in it. Reading gives the
number back exactly, however large it is: base ten is read up to a length, the other bases without bound.

## What this module delivers

- `Spells`, `IsSpelling`: the spellings of a number, without underscores and with them;
- `Sign`: what stands in front of a spelling;
- `isSpelling_toDigits`: the digits in base ten are a spelling;
- `readDigits?_toDigits`: digits in any base are read as their number;
- `IsPlain`, `isPlain_of_isSpelling`: a spelling holds no blanks, and no digits but those of ASCII;
- `read?_signed`: a spelling with a sign is read as the number with that sign.
-/

set_option autoImplicit false

namespace SnippetAudit.Numeral

open Text

/-- The marks behind a zero, with the bases that they announce. -/
def radixMarks : List (Char × Nat) :=
  [('x', 16), ('X', 16), ('o', 8), ('O', 8), ('b', 2), ('B', 2)]

/-- The spellings of a whole number without underscores. -/
inductive Spells (n : Nat) : Text → Prop where
  /-- In base ten there are no leading zeros, and not too many digits. -/
  | plain (hlength : (Nat.toDigits 10 n).length ≤ maxDecimalDigits) : Spells n (Nat.toDigits 10 n)
  /-- In another base there may be leading zeros, and letters of either case. -/
  | announced {mark : Char} {radix : Nat} {digits : Text} (zeros : Nat) (hmark : (mark, radix) ∈ radixMarks)
      (hdigits : digits.map Char.toLower = List.replicate zeros '0' ++ Nat.toDigits radix n) :
      Spells n ('0' :: mark :: digits)

/-- The spellings of a whole number, with underscores anywhere. -/
def IsSpelling (n : Nat) (t : Text) : Prop := Spells n (t.filter (· != '_'))

/-- What stands in front of a spelling. -/
inductive Sign where
  | absent
  | plus
  | minus
  deriving Repr, DecidableEq

namespace Sign

/-- A sign as it is written. -/
def text : Sign → Text
  | absent => []
  | plus => ['+']
  | minus => ['-']

/-- The number with a sign. -/
def apply : Sign → Nat → Int
  | minus, n => -(n : Int)
  | _, n => n

end Sign

/-! ## Digits -/

theorem toNat_toLower (c : Char) :
    c.toLower.toNat = if 65 ≤ c.toNat ∧ c.toNat ≤ 90 then c.toNat + 32 else c.toNat := by
  have hupper : (c.val ≥ 'A'.val ∧ c.val ≤ 'Z'.val) ↔ 65 ≤ c.toNat ∧ c.toNat ≤ 90 := Iff.rfl
  delta Char.toLower
  split
  · next h =>
    have hle := (hupper.1 h).2
    rw [if_pos (hupper.1 h)]
    show (c.val + 32).toNat = _
    rw [UInt32.toNat_add]
    show (c.toNat + 32) % 2 ^ 32 = _
    omega
  · next h => rw [if_neg fun h' => h (hupper.2 h')]

theorem toNat_digitChar {d : Nat} (hd : d < 16) : d.digitChar.toNat = if d < 10 then 48 + d else 87 + d := by
  have hall : ∀ d < 16, d.digitChar.toNat = if d < 10 then 48 + d else 87 + d := by decide
  exact hall d hd

theorem radixDigit?_eq {radix d : Nat} {c : Char} (hradix : radix ≤ 16) (hd : d < radix)
    (hc : c.toLower = d.digitChar) : radixDigit? radix c = some d := by
  have hcode := congrArg Char.toNat hc
  rw [toNat_toLower, toNat_digitChar (by omega)] at hcode
  -- the comparisons of characters, by their numbers
  have hrange (low high : Char) : (low ≤ c ∧ c ≤ high) ↔ low.toNat ≤ c.toNat ∧ c.toNat ≤ high.toNat := Iff.rfl
  have hbounds : '0'.toNat = 48 ∧ '9'.toNat = 57 ∧ 'a'.toNat = 97 ∧ 'z'.toNat = 122 ∧ 'A'.toNat = 65 ∧
      'Z'.toNat = 90 := by decide
  simp only [radixDigit?, hrange, hbounds, Option.filter_eq_some_iff]
  refine ⟨?_, by simpa using hd⟩
  split_ifs at hcode ⊢
  all_goals first | omega | (rw [Option.some.injEq]; omega)

/-- Digits are read one by one, from the most significant on. -/
theorem readDigits?_append_singleton (radix : Nat) (t : Text) (c : Char) :
    readDigits? radix (t ++ [c]) = (readDigits? radix t).bind fun n =>
      (radixDigit? radix c).map fun d => radix * n + d := by
  simp only [readDigits?, List.mapM_append, List.mapM_cons, List.mapM_nil]
  cases t.mapM (radixDigit? radix) with
  | none => rfl
  | some digits => cases radixDigit? radix c <;> simp [digitsValue]

theorem readDigits?_zeros {radix zeros : Nat} (hradix : 1 < radix ∧ radix ≤ 16) {t : Text}
    (ht : t.map Char.toLower = List.replicate zeros '0') : readDigits? radix t = some 0 := by
  induction zeros generalizing t with
  | zero =>
    obtain rfl := List.map_eq_nil_iff.1 ht
    rfl
  | succ zeros ih =>
    rw [List.replicate_succ'] at ht
    obtain ⟨front, last, rfl, hfront, hlast⟩ := List.map_eq_append_iff.1 ht
    obtain ⟨c, rfl, hc⟩ := List.map_eq_singleton_iff.1 hlast
    rw [readDigits?_append_singleton, ih hfront, radixDigit?_eq hradix.2 (by omega : 0 < radix) hc]
    rfl

/-- The digits of a number are read as the number, with any leading zeros and letters of either case. -/
theorem readDigits?_toDigits {radix : Nat} (hradix : 1 < radix ∧ radix ≤ 16) (zeros n : Nat) {t : Text}
    (ht : t.map Char.toLower = List.replicate zeros '0' ++ Nat.toDigits radix n) :
    readDigits? radix t = some n := by
  -- the last digit is read last, and what is in front of it is spelled like the quotient by the base
  induction n using Nat.strong_induction_on generalizing t with
  | _ n ih =>
    rcases Nat.lt_or_ge n radix with hsmall | hlarge
    · rw [Nat.toDigits_of_lt_base hsmall] at ht
      obtain ⟨front, last, rfl, hfront, hlast⟩ := List.map_eq_append_iff.1 ht
      obtain ⟨c, rfl, hc⟩ := List.map_eq_singleton_iff.1 hlast
      rw [readDigits?_append_singleton, readDigits?_zeros hradix hfront, radixDigit?_eq hradix.2 hsmall hc]
      simp
    · rw [Nat.toDigits_of_base_le hradix.1 hlarge, ← List.append_assoc] at ht
      obtain ⟨front, last, rfl, hfront, hlast⟩ := List.map_eq_append_iff.1 ht
      obtain ⟨c, rfl, hc⟩ := List.map_eq_singleton_iff.1 hlast
      have hquotient : n / radix < n := Nat.div_lt_self (by omega) hradix.1
      rw [readDigits?_append_singleton, ih _ hquotient hfront,
        radixDigit?_eq hradix.2 (Nat.mod_lt n (by omega)) hc]
      simp [Nat.div_add_mod]

theorem exists_of_mem_toDigits {radix : Nat} (hradix : 1 < radix) {n : Nat} {c : Char}
    (hc : c ∈ Nat.toDigits radix n) : ∃ d < radix, c = d.digitChar := by
  induction n using Nat.strong_induction_on with
  | _ n ih =>
    rcases Nat.lt_or_ge n radix with hsmall | hlarge
    · rw [Nat.toDigits_of_lt_base hsmall] at hc
      exact ⟨n, hsmall, List.mem_singleton.1 hc⟩
    · rw [Nat.toDigits_of_base_le hradix hlarge, List.mem_append] at hc
      rcases hc with hfront | hlast
      · exact ih _ (Nat.div_lt_self (by omega) hradix) hfront
      · exact ⟨n % radix, Nat.mod_lt n (by omega), List.mem_singleton.1 hlast⟩

/-- What holds of the ten digits holds of all characters of a number. -/
theorem forall_mem_toDigits {P : Char → Prop} (h : ∀ d < 10, P d.digitChar) (n : Nat) :
    ∀ c ∈ Nat.toDigits 10 n, P c := by
  intro c hc
  obtain ⟨d, hd, rfl⟩ := exists_of_mem_toDigits (by decide) hc
  exact h d hd

/-- Only zero is spelled with a zero in front. -/
theorem head?_toDigits {n : Nat} (h : (Nat.toDigits 10 n).head? = some '0') : n = 0 := by
  induction n using Nat.strong_induction_on with
  | _ n ih =>
    rcases Nat.lt_or_ge n 10 with hsmall | hlarge
    · rw [Nat.toDigits_of_lt_base hsmall, List.head?_cons, Option.some.injEq] at h
      have hcode := congrArg Char.toNat h
      rw [toNat_digitChar (by omega), if_pos hsmall] at hcode
      have hzero : '0'.toNat = 48 := rfl
      omega
    · rw [Nat.toDigits_of_base_le (by decide) hlarge, List.head?_append_of_ne_nil _ Nat.toDigits_ne_nil] at h
      have hquotient := ih (n / 10) (Nat.div_lt_self (by omega) (by decide)) h
      omega

/-- The digits in base ten are a spelling. -/
theorem isSpelling_toDigits {k : Nat} (hlength : (Nat.toDigits 10 k).length ≤ maxDecimalDigits) :
    IsSpelling k (Nat.toDigits 10 k) := by
  have hdigits : (Nat.toDigits 10 k).filter (· != '_') = Nat.toDigits 10 k :=
    List.filter_eq_self.2 (forall_mem_toDigits (by decide) k)
  rw [IsSpelling, hdigits]
  exact .plain hlength

/-! ## Numbers without sign -/

/-- A character of ASCII behind the asterisk; letters, digits, signs and underscores are among them. -/
def IsPlain (c : Char) : Prop := 42 < c.toNat ∧ c.toNat < 128

instance decidableIsPlain : DecidablePred IsPlain := fun c => inferInstanceAs (Decidable (42 < c.toNat ∧ c.toNat < 128))

theorem radixMarks_spec : ∀ pair ∈ radixMarks,
    announcedRadix? pair.1 = some pair.2 ∧ 1 < pair.2 ∧ pair.2 ≤ 16 ∧ pair.1 ≠ '_' ∧ IsPlain pair.1 := by
  decide

theorem map_toLower_toDigits (n : Nat) : (Nat.toDigits 10 n).map Char.toLower = Nat.toDigits 10 n := by
  have hlower : ∀ c ∈ Nat.toDigits 10 n, c.toLower = id c := forall_mem_toDigits (by decide) n
  rw [List.map_congr_left hlower, List.map_id]

theorem readPlain?_toDigits {n : Nat} (hlength : (Nat.toDigits 10 n).length ≤ maxDecimalDigits) :
    readPlain? (Nat.toDigits 10 n) = some n := by
  have hshort : ¬ ((Nat.toDigits 10 n).isEmpty = true ∨ maxDecimalDigits < (Nat.toDigits 10 n).length) := by
    simp only [List.isEmpty_iff, Nat.toDigits_ne_nil, false_or]
    omega
  have hzeros : ¬ ((Nat.toDigits 10 n).head? = some '0' ∧ (Nat.toDigits 10 n).any (· != '0') = true) := by
    rintro ⟨hhead, hother⟩
    obtain rfl := head?_toDigits hhead
    exact absurd hother (by decide)
  rw [readPlain?, if_neg hshort, if_neg hzeros]
  exact readDigits?_toDigits (by decide) 0 n (map_toLower_toDigits n)

/-- A spelling without underscores is read as its number. -/
theorem readMagnitude?_spells {n : Nat} {t : Text} (h : Spells n t) : readMagnitude? t = some n := by
  cases h with
  | plain hlength =>
    rw [readMagnitude?.eq_def]
    split
    · next mark digits ht =>
      -- a zero in front is all of it
      obtain rfl := head?_toDigits (n := n) (by rw [ht]; rfl)
      exact absurd ht (by simp)
    · exact readPlain?_toDigits hlength
  | @announced mark radix digits zeros hmark hdigits =>
    obtain ⟨hradix, hlow, hhigh, -⟩ := radixMarks_spec _ hmark
    have hsome : digits.isEmpty = false := by
      cases digits with
      | nil => exact absurd hdigits.symm (by simp [Nat.toDigits_ne_nil])
      | cons first rest => rfl
    rw [readMagnitude?, hradix]
    simp only [hsome, Bool.false_eq_true, if_false]
    exact readDigits?_toDigits ⟨hlow, hhigh⟩ zeros n hdigits

/-! ## Surroundings -/

theorem IsPlain.isBlank_eq_false {c : Char} (h : IsPlain c) : isBlank c = false := by
  obtain ⟨hlow, hhigh⟩ := h
  simp only [isBlank, Bool.or_eq_false_iff, Bool.and_eq_false_iff, decide_eq_false_iff_not, beq_eq_false_iff_ne]
  omega

theorem IsPlain.isPadding_eq_false {c : Char} (h : IsPlain c) : isPadding c = false := by
  obtain ⟨hlow, hhigh⟩ := h
  have hspace : c ≠ ' ' := by
    rintro rfl
    exact absurd hlow (by decide)
  rw [isPadding, if_pos hhigh]
  simp only [Bool.or_eq_false_iff, Bool.and_eq_false_iff, decide_eq_false_iff_not, beq_eq_false_iff_ne]
  exact ⟨by omega, hspace⟩

/-- The only digits among these characters are those of ASCII. -/
theorem IsPlain.eq_of_digitValue? {c : Char} {n : Nat} (h : IsPlain c) (hn : digitValue? c = some n) :
    Char.ofNat ('0'.toNat + n) = c := by
  obtain ⟨first, hfirst, rfl⟩ := Option.map_eq_some_iff.1 hn
  have hrange := List.find?_some hfirst
  have hscript : ∀ z ∈ zeroDigits, z = 48 ∨ 128 ≤ z := by decide
  have hcode : '0'.toNat = 48 := rfl
  simp only [Bool.and_eq_true, decide_eq_true_eq] at hrange
  rcases hscript first (List.mem_of_find?_eq_some hfirst) with rfl | hother
  · rw [hcode, Nat.add_sub_of_le hrange.1, Char.ofNat_toNat]
  · exact absurd h.2 (by omega)

theorem asciiDigits_of_isPlain {t : Text} (h : ∀ c ∈ t, IsPlain c) : asciiDigits t = t := by
  rw [asciiDigits]
  conv_rhs => rw [← List.map_id t]
  refine List.map_congr_left fun c hc => ?_
  split
  · next n hn => exact (h c hc).eq_of_digitValue? hn
  · rfl

/-- Nothing has to be cut off before such characters or behind them. -/
theorem dropWhile_of_isPlain {p : Char → Bool} (hp : ∀ c, IsPlain c → p c = false) {t : Text}
    (h : ∀ c ∈ t, IsPlain c) : t.dropWhile p = t := by
  cases t with
  | nil => rfl
  | cons c rest => rw [List.dropWhile_cons, hp c (h c List.mem_cons_self), if_neg Bool.false_ne_true]

theorem dropEndWhile_of_isPlain {p : Char → Bool} (hp : ∀ c, IsPlain c → p c = false) {t : Text}
    (h : ∀ c ∈ t, IsPlain c) : dropEndWhile p t = t := by
  rw [dropEndWhile, dropWhile_of_isPlain hp fun c hc => h c (List.mem_reverse.1 hc), List.reverse_reverse]

theorem unpad_of_isPlain {t : Text} (h : ∀ c ∈ t, IsPlain c) : unpad t = t := by
  have hp (c : Char) (hc : IsPlain c) : isPadding c = false := hc.isPadding_eq_false
  rw [unpad, dropWhile_of_isPlain hp h, dropEndWhile_of_isPlain hp h, asciiDigits_of_isPlain h]

theorem isPlain_of_toLower {radix d : Nat} {c : Char} (hradix : radix ≤ 16) (hd : d < radix)
    (hc : c.toLower = d.digitChar) : IsPlain c := by
  have hcode := congrArg Char.toNat hc
  rw [toNat_toLower, toNat_digitChar (by omega)] at hcode
  rw [IsPlain]
  split_ifs at hcode <;> omega

theorem isPlain_of_spells {n : Nat} {t : Text} (h : Spells n t) : ∀ c ∈ t, IsPlain c := by
  cases h with
  | plain hlength => exact forall_mem_toDigits (by decide) n
  | @announced mark radix digits zeros hmark hdigits =>
    obtain ⟨-, hlow, hhigh, -, hplain⟩ := radixMarks_spec _ hmark
    rw [List.forall_mem_cons, List.forall_mem_cons]
    refine ⟨by decide, hplain, fun c hc => ?_⟩
    have hlower : c.toLower ∈ List.replicate zeros '0' ++ Nat.toDigits radix n :=
      hdigits ▸ List.mem_map_of_mem hc
    rcases List.mem_append.1 hlower with hzero | hdigit
    · exact isPlain_of_toLower hhigh (by omega : 0 < radix) (List.eq_of_mem_replicate hzero)
    · obtain ⟨d, hd, hc⟩ := exists_of_mem_toDigits hlow hdigit
      exact isPlain_of_toLower hhigh hd hc

theorem isPlain_of_isSpelling {n : Nat} {t : Text} (h : IsSpelling n t) : ∀ c ∈ t, IsPlain c := by
  intro c hc
  by_cases hunderscore : c = '_'
  · subst hunderscore
    decide
  · exact isPlain_of_spells h c (List.mem_filter.2 ⟨hc, by simpa using hunderscore⟩)

/-! ## Numbers with a sign -/

theorem Sign.isPlain_text (sign : Sign) : ∀ c ∈ sign.text, IsPlain c := by
  cases sign with
  | absent => exact List.forall_mem_nil _
  | plus => exact List.forall_mem_singleton.2 (by decide)
  | minus => exact List.forall_mem_singleton.2 (by decide)

/-- A spelling has no sign of its own. -/
theorem sign_not_mem {n : Nat} {t : Text} (h : Spells n t) {c : Char} (hc : c ∈ t.head?) : c ≠ '-' ∧ c ≠ '+' := by
  cases h with
  | plain hlength =>
    have hdigits : ∀ d ∈ Nat.toDigits 10 n, d ≠ '-' ∧ d ≠ '+' := forall_mem_toDigits (by decide) n
    exact hdigits c (List.mem_of_mem_head? hc)
  | announced zeros hmark hdigits =>
    obtain rfl := Option.mem_some.1 hc
    decide

theorem splitSign_append {n : Nat} {t : Text} (h : Spells n t) (sign : Sign) :
    splitSign (sign.text ++ t) = (sign == .minus, t) := by
  cases sign with
  | minus => rfl
  | plus => rfl
  | absent =>
    rw [Sign.text, List.nil_append, splitSign.eq_def]
    split
    · exact absurd rfl (sign_not_mem h (Option.mem_some.2 rfl)).1
    · exact absurd rfl (sign_not_mem h (Option.mem_some.2 rfl)).2
    · rfl

/-- A spelling with a sign is read as the number with that sign. -/
theorem read?_signed {n : Nat} {t : Text} (h : IsSpelling n t) (sign : Sign) :
    Number.read? (sign.text ++ t) = some (.int (sign.apply n)) := by
  have hsign : (sign.text ++ t).filter (· != '_') = sign.text ++ t.filter (· != '_') := by
    cases sign <;> rfl
  have hplain : ∀ c ∈ sign.text ++ t.filter (· != '_'), IsPlain c := by
    rw [List.forall_mem_append]
    exact ⟨sign.isPlain_text, isPlain_of_spells h⟩
  have hread : readInteger? (sign.text ++ t.filter (· != '_')) = some (sign.apply n) := by
    rw [readInteger?, unpad_of_isPlain hplain, splitSign_append h]
    dsimp only
    rw [readMagnitude?_spells h]
    cases sign <;> rfl
  simp only [Number.read?, hsign, hread]

end SnippetAudit.Numeral
