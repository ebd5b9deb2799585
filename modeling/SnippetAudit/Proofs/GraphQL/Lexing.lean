import SnippetAudit.GraphQL.Lexer
import SnippetAudit.Proofs.Extraction.Idempotence
import SnippetAudit.Proofs.Extraction.Scan
import SnippetAudit.Proofs.Text.Lines

/-!
# Reading a token looks no further than one character

A token is settled by its own characters and by the one behind it. So a token is read in the same way from
another text that starts with its characters, if that text goes on alike, with a line end or not at all.
No token ends with a blank or a backtick.

## What this module delivers

- `Behind`: what may stand behind a token instead of what does;
- `Local`: a reader looks no further than one character behind what it reads;
- `isTokenChar`: the characters that a token may end with;
- `exists_source`: the characters of a token, and that they are read alike in other texts.
-/

set_option autoImplicit false

namespace SnippetAudit.GraphQL

open Text Extraction

variable {α β ε : Type}

theorem exists_of_map_eq_ok {f : α → β} {x : Except ε α} {b : β} (h : x.map f = .ok b) :
    ∃ a, x = .ok a ∧ f a = b := by
  cases x with
  | error e => cases h
  | ok a => exact ⟨a, rfl, Except.ok.inj h⟩

/-- What is made of a result does not change where the reader stops. -/
theorem map_result_eq_ok_iff {f : α → β} {x : Except ε (α × Nat)} {b : β} {stop : Nat} :
    (x.map fun (a, stop) => (f a, stop)) = .ok (b, stop) ↔ ∃ a, x = .ok (a, stop) ∧ f a = b := by
  cases x with
  | error e => simp [Except.map]
  | ok result =>
    simp only [Except.map, Except.ok.injEq, Prod.ext_iff]
    constructor
    · rintro ⟨rfl, rfl⟩
      exact ⟨result.1, ⟨rfl, rfl⟩, rfl⟩
    · rintro ⟨a, ⟨rfl, rfl⟩, rfl⟩
      exact ⟨rfl, rfl⟩

/-! ## What stands behind -/

/-- The other text is empty, starts with a line feed, or starts like the first one. -/
def Behind (rest rest' : Text) : Prop := ∀ c ∈ rest'.head?, c = '\n' ∨ c ∈ rest.head?

theorem Behind.refl (rest : Text) : Behind rest rest := fun _ hc => Or.inr hc

theorem Behind.append {rest rest' : Text} (h : Behind rest rest') (s : Text) : Behind (s ++ rest) (s ++ rest') := by
  cases s with
  | nil => exact h
  | cons c more => exact fun _ hc => Or.inr hc

/-- What stops without a line feed stops before anything that may stand there instead. -/
theorem Behind.stopsAt {rest rest' : Text} (h : Behind rest rest') {p : Char → Bool} (hp : p '\n' = false)
    (hstop : StopsAt p rest) : StopsAt p rest' := by
  intro c hc
  rcases h c hc with rfl | hsame
  · exact hp
  · exact hstop c hsame

theorem any_head?_eq_false_iff {p : Char → Bool} {t : Text} : t.head?.any p = false ↔ StopsAt p t := by
  cases t with
  | nil => simp [StopsAt]
  | cons c rest => simp [StopsAt]

/-- What a reader makes of a text is settled by some characters and by the one behind them. -/
def Local (f : Text → α) (s rest : Text) : Prop := ∀ rest', Behind rest rest' → f (s ++ rest') = f (s ++ rest)

/-- A character that a token may end with, or that stands in a number. -/
def isTokenChar (c : Char) : Bool :=
  isNamePart c || (punctuatorOf? c).isSome || c == '"' || c == '.' || c == '-' || c == '+'

theorem isTokenChar_of_isNamePart {c : Char} (h : isNamePart c = true) : isTokenChar c = true := by
  simp [isTokenChar, h]

/-- A character that stands in a name or in a number, or between dots. -/
def isPlainChar (c : Char) : Bool := isNamePart c || c == '.' || c == '-' || c == '+'

theorem isPlainChar_of_isNamePart {c : Char} (h : isNamePart c = true) : isPlainChar c = true := by
  simp [isPlainChar, h]

theorem isPlainChar_of_isDigit {c : Char} (h : isDigit c = true) : isPlainChar c = true :=
  isPlainChar_of_isNamePart (by simp [isNamePart, h])

theorem isTokenChar_of_isPlainChar {c : Char} (h : isPlainChar c = true) : isTokenChar c = true := by
  simp only [isPlainChar, Bool.or_eq_true] at h
  rcases h with ((h | h) | h) | h <;> simp [isTokenChar, h]

theorem isTokenChar_of_isBlank {c : Char} (h : isBlank c = true) : isTokenChar c = false := by
  have hcodes : ∀ n ∈ blankCodes, isTokenChar (Char.ofNat n) = false := by decide +kernel
  have hc := hcodes c.toNat (toNat_mem_blankCodes h)
  rwa [Char.ofNat_toNat] at hc

/-! ## Names and numbers -/

theorem readName_append {s rest : Text} (hs : ∀ c ∈ s, isNamePart c = true) (hrest : StopsAt isNamePart rest) :
    readName (s ++ rest) = ⟨.name, s, s.length⟩ := by
  rw [readName, takeWhile_append_of_stopsAt hs hrest]

theorem exists_digits {start n : Nat} {t : Text} (h : digitsLength start t = .ok n) :
    ∃ s rest, t = s ++ rest ∧ s.length = n ∧ s ≠ [] ∧ (∀ c ∈ s, isPlainChar c = true) ∧
      Local (digitsLength start) s rest := by
  have hs := mem_of_mem_takeWhile (p := isDigit) t
  have hrest := stopsAt_dropWhile isDigit t
  have hsplit : t = t.takeWhile isDigit ++ t.dropWhile isDigit := List.takeWhile_append_dropWhile.symm
  have hcount : t.takeWhile isDigit ≠ [] ∧ (t.takeWhile isDigit).length = n := by
    rw [digitsLength] at h
    split at h
    · cases h
    · next hzero =>
      refine ⟨fun he => hzero ?_, Except.ok.inj h⟩
      rw [he]
      rfl
  refine ⟨_, _, hsplit, hcount.2, hcount.1, fun c hc => isPlainChar_of_isDigit (hs c hc), fun rest' hbehind => ?_⟩
  -- a line feed is no digit, so that the digits stop in the same place
  have hlength : (t.takeWhile isDigit).length ≠ 0 := by simp [hcount.1]
  have hrest' := hbehind.stopsAt (p := isDigit) (by decide) hrest
  simp only [digitsLength, takeWhile_append_of_stopsAt hs hrest', takeWhile_append_of_stopsAt hs hrest]

theorem exists_whole {start n : Nat} {t : Text} (h : wholeLength start t = .ok n) :
    ∃ s rest, t = s ++ rest ∧ s.length = n ∧ s ≠ [] ∧ (∀ c ∈ s, isPlainChar c = true) ∧
      Local (wholeLength start) s rest := by
  rw [wholeLength.eq_def] at h
  split at h
  · next rest =>
    split at h
    · cases h
    · next hdigit =>
      -- a zero is the whole part, and no digit may stand behind it
      have hstop := any_head?_eq_false_iff.1 (Bool.eq_false_iff.2 hdigit)
      have hzero {r : Text} (hr : StopsAt isDigit r) : wholeLength start ('0' :: r) = .ok 1 := by
        simp [wholeLength, any_head?_eq_false_iff.2 hr]
      have hchar : ∀ c ∈ ['0'], isPlainChar c = true := List.forall_mem_singleton.2 (by decide)
      refine ⟨['0'], rest, rfl, Except.ok.inj h, by simp, hchar, fun rest' hbehind => ?_⟩
      exact (hzero (hbehind.stopsAt (by decide) hstop)).trans (hzero hstop).symm
  · next hzero =>
    obtain ⟨s, rest, rfl, hn, hne, hs, hlocal⟩ := exists_digits h
    refine ⟨s, rest, rfl, hn, hne, hs, fun rest' hbehind => ?_⟩
    obtain ⟨c, more, rfl⟩ := List.exists_cons_of_ne_nil hne
    have hdigits (r : Text) : wholeLength start (c :: more ++ r) = digitsLength start (c :: more ++ r) := by
      rw [wholeLength.eq_def]
      split
      · next heq =>
        obtain ⟨rfl, -⟩ := List.cons.inj heq
        exact absurd rfl (hzero _)
      · rfl
    rw [hdigits, hdigits]
    exact hlocal rest' hbehind

/-- Where a part of a number is missing, it is missing as well when something else stands behind. -/
theorem exists_nothing {f : Text → Except ε Nat} {p : Char → Bool} (hp : p '\n' = false)
    (hnothing : ∀ r, StopsAt p r → f r = .ok 0) {t : Text} (ht : StopsAt p t) {n : Nat} (h : f t = .ok n) :
    ∃ s rest, t = s ++ rest ∧ s.length = n ∧ (∀ c ∈ s, isPlainChar c = true) ∧ Local f s rest := by
  rw [hnothing t ht] at h
  refine ⟨[], t, rfl, Except.ok.inj h, by simp, fun rest' hbehind => ?_⟩
  exact (hnothing rest' (hbehind.stopsAt hp ht)).trans (hnothing t ht).symm

theorem exists_fraction {start n : Nat} {t : Text} (h : fractionLength start t = .ok n) :
    ∃ s rest, t = s ++ rest ∧ s.length = n ∧ (∀ c ∈ s, isPlainChar c = true) ∧
      Local (fractionLength start) s rest := by
  rw [fractionLength.eq_def] at h
  split at h
  · next digits =>
    obtain ⟨m, hdigits, rfl⟩ := exists_of_map_eq_ok h
    obtain ⟨s, rest, rfl, rfl, -, hs, hlocal⟩ := exists_digits hdigits
    refine ⟨'.' :: s, rest, rfl, rfl, ?_, fun rest' hbehind => ?_⟩
    · exact List.forall_mem_cons.2 ⟨by decide, hs⟩
    · exact congrArg (Except.map (· + 1)) (hlocal rest' hbehind)
  · next hpoint =>
    rw [← fractionLength.eq_2 start t hpoint] at h
    refine exists_nothing (p := (· == '.')) (by decide) (fun r hr => ?_) (fun c hc => ?_) h
    · apply fractionLength.eq_2
      rintro digits rfl
      exact absurd (hr '.' rfl) (by decide)
    · obtain ⟨more, rfl⟩ := List.head?_eq_some_iff.1 (Option.mem_def.1 hc)
      exact beq_eq_false_iff_ne.2 fun he => hpoint more (he ▸ rfl)

/-- A sign may stand at the start of a text or not. -/
theorem exists_sign (P : Option Char → Prop) [DecidablePred P] (hnone : ¬ P none) (hline : ¬ P (some '\n'))
    (t : Text) : ∃ s rest, t = s ++ rest ∧ (∀ c ∈ s, P (some c)) ∧
      ∀ rest', Behind rest rest' → (if P (s ++ rest').head? then 1 else 0) = s.length := by
  by_cases hsign : P t.head?
  · cases t with
    | nil => exact absurd hsign hnone
    | cons c rest =>
      refine ⟨[c], rest, rfl, ?_, fun rest' _ => ?_⟩
      · intro d hd
        obtain rfl := List.mem_singleton.1 hd
        exact hsign
      · exact if_pos hsign
  · refine ⟨[], t, rfl, by simp, fun rest' hbehind => if_neg ?_⟩
    cases rest' with
    | nil => exact hnone
    | cons c more =>
      rcases hbehind c rfl with rfl | hsame
      · exact hline
      · rwa [Option.mem_def.1 hsame] at hsign

theorem exists_exponent {start n : Nat} {t : Text} (h : exponentLength start t = .ok n) :
    ∃ s rest, t = s ++ rest ∧ s.length = n ∧ (∀ c ∈ s, isPlainChar c = true) ∧
      Local (exponentLength start) s rest := by
  by_cases hletter : ∃ e more, t = e :: more ∧ (e = 'e' ∨ e = 'E')
  · obtain ⟨e, more, rfl, he⟩ := hletter
    obtain ⟨sign, behind, rfl, hchars, hsign⟩ := exists_sign (fun o => o = some '+' ∨ o = some '-') (by simp)
      (by simp) more
    have hread {r : Text} (hr : Behind behind r) : exponentLength start (e :: (sign ++ r)) =
        (digitsLength (start + 1 + sign.length) r).map (· + 1 + sign.length) := by
      simp only [exponentLength, if_pos he, hsign r hr, List.drop_left]
    rw [hread (.refl behind)] at h
    obtain ⟨m, hdigits, rfl⟩ := exists_of_map_eq_ok h
    obtain ⟨s, rest, rfl, rfl, -, hs, hlocal⟩ := exists_digits hdigits
    refine ⟨e :: (sign ++ s), rest, by simp, by simp; omega, ?_, fun rest' hbehind => ?_⟩
    · have hsigned : ∀ c ∈ sign, isPlainChar c = true := by
        intro c hc
        rcases hchars c hc with heq | heq
        · obtain rfl := Option.some.inj heq
          decide
        · obtain rfl := Option.some.inj heq
          decide
      have hletter : isPlainChar e = true := by rcases he with rfl | rfl <;> decide
      exact List.forall_mem_cons.2 ⟨hletter, List.forall_mem_append.2 ⟨hsigned, hs⟩⟩
    · rw [List.cons_append, List.cons_append, List.append_assoc, List.append_assoc,
        hread (hbehind.append s), hread (.refl _), hlocal rest' hbehind]
  · refine exists_nothing (p := fun c => decide (c = 'e' ∨ c = 'E')) (by decide) (fun r hr => ?_) (fun c hc => ?_) h
    · cases r with
      | nil => rfl
      | cons c more => exact if_neg (of_decide_eq_false (hr c rfl))
    · obtain ⟨more, rfl⟩ := List.head?_eq_some_iff.1 (Option.mem_def.1 hc)
      exact decide_eq_false fun he => hletter ⟨c, more, rfl, he⟩

/-- What a number is read as when its parts are known: nothing that goes on like a number or a name may stand
behind them. -/
def numberOf (wholeEnd : Nat) (source rest : Text) : Lexed Lexeme :=
  if rest.head?.any fun c => c == '.' || isNameStart c then .error ⟨source.length, .digitExpected rest.head?⟩
  else .ok ⟨if source.length = wholeEnd then .int else .float, source, source.length⟩

theorem readNumber_append {sign whole fraction exponent rest : Text}
    (hsign : (if (sign ++ (whole ++ (fraction ++ (exponent ++ rest)))).head? = some '-' then 1 else 0) = sign.length)
    (hwhole : wholeLength sign.length (whole ++ (fraction ++ (exponent ++ rest))) = .ok whole.length)
    (hfraction : fractionLength (sign.length + whole.length) (fraction ++ (exponent ++ rest)) = .ok fraction.length)
    (hexponent : exponentLength (sign.length + whole.length + fraction.length) (exponent ++ rest) =
      .ok exponent.length) :
    readNumber (sign ++ (whole ++ (fraction ++ (exponent ++ rest)))) =
      numberOf (sign.length + whole.length) (sign ++ (whole ++ (fraction ++ exponent))) rest := by
  have hwholeEnd : (sign ++ (whole ++ (fraction ++ (exponent ++ rest)))).drop (sign.length + whole.length) =
      fraction ++ (exponent ++ rest) := by
    rw [← List.append_assoc, ← List.length_append, List.drop_left]
  have hfractionEnd : (sign ++ (whole ++ (fraction ++ (exponent ++ rest)))).drop
      (sign.length + whole.length + fraction.length) = exponent ++ rest := by
    rw [← List.drop_drop, hwholeEnd, List.drop_left]
  have hend : (sign ++ (whole ++ (fraction ++ (exponent ++ rest)))).drop
      (sign.length + whole.length + fraction.length + exponent.length) = rest := by
    rw [← List.drop_drop, hfractionEnd, List.drop_left]
  have hlength : (sign ++ (whole ++ (fraction ++ exponent))).length =
      sign.length + whole.length + fraction.length + exponent.length := by
    simp only [List.length_append]
    omega
  have htaken : (sign ++ (whole ++ (fraction ++ (exponent ++ rest)))).take
      (sign.length + whole.length + fraction.length + exponent.length) =
        sign ++ (whole ++ (fraction ++ exponent)) := by
    simp only [← List.append_assoc, ← List.length_append, List.take_left]
  simp only [readNumber, numberOf, hsign, List.drop_left, hwhole, hwholeEnd, hfraction, hfractionEnd, hexponent,
    hend, htaken, hlength, bind, Except.bind]

/-- A number is made of its parts, and its parts are the same wherever they stand. -/
theorem exists_parts {t : Text} {l : Lexeme} (h : readNumber t = .ok l) :
    ∃ wholeEnd s rest, t = s ++ rest ∧ s ≠ [] ∧ (∀ c ∈ s, isPlainChar c = true) ∧
      ∀ rest', Behind rest rest' → readNumber (s ++ rest') = numberOf wholeEnd s rest' := by
  obtain ⟨sign, digits, rfl, hchars, hsign⟩ := exists_sign (· = some '-') (by simp) (by simp) t
  simp only [readNumber, hsign digits (.refl digits), List.drop_left, bind, Except.bind] at h
  split at h
  · cases h
  · next w hw =>
    obtain ⟨whole, rest, rfl, rfl, hne, hwhole, hwholeLocal⟩ := exists_whole hw
    rw [← List.drop_drop, List.drop_left, List.drop_left] at h
    split at h
    · cases h
    · next f hf =>
      obtain ⟨fraction, rest, rfl, rfl, hfraction, hfractionLocal⟩ := exists_fraction hf
      rw [← List.drop_drop, ← List.drop_drop, List.drop_left, List.drop_left, List.drop_left] at h
      split at h
      · cases h
      · next e he =>
        obtain ⟨exponent, rest, rfl, rfl, hexponent, hexponentLocal⟩ := exists_exponent he
        -- what stands behind a part are the later parts and what stands behind the number
        refine ⟨sign.length + whole.length, sign ++ (whole ++ (fraction ++ exponent)), rest, by simp, by simp [hne],
          ?_, fun rest' hbehind => ?_⟩
        · have hsigned : ∀ c ∈ sign, isPlainChar c = true := by
            intro c hc
            obtain rfl := Option.some.inj (hchars c hc)
            decide
          simp only [List.forall_mem_append]
          exact ⟨hsigned, hwhole, hfraction, hexponent⟩
        · have hexponentBehind := hbehind.append exponent
          have hfractionBehind := hexponentBehind.append fraction
          simp only [List.append_assoc]
          exact readNumber_append (hsign _ (hfractionBehind.append whole))
            ((hwholeLocal _ hfractionBehind).trans hw) ((hfractionLocal _ hexponentBehind).trans hf)
            ((hexponentLocal _ hbehind).trans he)

theorem exists_number {t : Text} {l : Lexeme} (h : readNumber t = .ok l) :
    ∃ s rest, t = s ++ rest ∧ s.length = l.length ∧ s ≠ [] ∧ (∀ c ∈ s, isPlainChar c = true) ∧
      Local readNumber s rest := by
  obtain ⟨wholeEnd, s, rest, rfl, hne, hs, hread⟩ := exists_parts h
  rw [hread rest (.refl rest), numberOf] at h
  split at h
  · cases h
  · next hstop =>
    have hrest := any_head?_eq_false_iff.1 (Bool.eq_false_iff.2 hstop)
    refine ⟨s, rest, rfl, congrArg Lexeme.length (Except.ok.inj h), hne, hs, fun rest' hbehind => ?_⟩
    have hrest' := any_head?_eq_false_iff.2 (hbehind.stopsAt (by decide) hrest)
    rw [hread rest' hbehind, hread rest (.refl rest), numberOf, numberOf, if_neg hstop, hrest']
    rfl

/-! ## Strings -/

theorem ne_of_radixDigit? {c : Char} {n : Nat} (h : radixDigit? 16 c = some n) : c ≠ '\r' := by
  rintro rfl
  have hnone : radixDigit? 16 '\r' = none := by decide
  rw [hnone] at h
  cases h

/-- Four digits are the first four characters. -/
theorem exists_of_fourHexDigits? {t : Text} {n : Nat} (h : fourHexDigits? t = some n) :
    ∃ s rest, t = s ++ rest ∧ s.length = 4 ∧ '\r' ∉ s ∧ ∀ rest', fourHexDigits? (s ++ rest') = some n := by
  rw [fourHexDigits?] at h
  split at h
  · next hfour =>
    have hle := List.length_filterMap_le (radixDigit? 16) (t.take 4)
    have hlength : (t.take 4).length = 4 := by
      have := List.length_take_le 4 t
      omega
    refine ⟨t.take 4, t.drop 4, (List.take_append_drop 4 t).symm, hlength, ?_, fun rest' => ?_⟩
    · intro hmem
      -- four characters have four digits, so that each of them is one
      have hall := List.filterMap_length_eq_length.1 (hfour.trans hlength.symm)
      exact absurd (hall '\r' hmem) (by decide)
    · have htake : (t.take 4 ++ rest').take 4 = t.take 4 := List.take_left' hlength
      simp only [fourHexDigits?, htake, hfour, if_true]
      exact h
  · cases h

/-- Two halves are the first six characters behind the first half. -/
theorem exists_of_surrogatePair? {high : Nat} {t : Text} {c : Char} (h : surrogatePair? high t = some c) :
    ∃ s rest, t = s ++ rest ∧ s.length = 6 ∧ '\r' ∉ s ∧ ∀ rest', surrogatePair? high (s ++ rest') = some c := by
  rw [surrogatePair?.eq_def] at h
  split at h
  · next digits =>
    obtain ⟨low, hlow, hpair⟩ := Option.bind_eq_some_iff.1 h
    obtain ⟨s, rest, rfl, hlength, hs, hread⟩ := exists_of_fourHexDigits? hlow
    refine ⟨'\\' :: 'u' :: s, rest, rfl, by simp [hlength], by simp [hs], fun rest' => ?_⟩
    exact Option.bind_eq_some_iff.2 ⟨low, hread rest', hpair⟩
  · cases h

theorem exists_of_readBracedEscape {whole t : Text} {length point n : Nat} {d : Char}
    (h : readBracedEscape whole length point t = .ok (d, n)) :
    ∃ s rest, t = s ++ rest ∧ n = length + s.length ∧ '\r' ∉ s ∧
      ∀ whole' rest', readBracedEscape whole' length point (s ++ rest') = .ok (d, n) := by
  induction t generalizing length point with
  | nil => cases h
  | cons c more ih =>
    rw [readBracedEscape] at h
    split at h
    · cases h
    · next hshort =>
      split at h
      · next hclose =>
        subst hclose
        split at h
        · cases h
        · next hpoint =>
          obtain ⟨rfl, rfl⟩ := Prod.mk.inj (Except.ok.inj h)
          refine ⟨['\x7d'], more, rfl, rfl, by decide, fun whole' rest' => ?_⟩
          rw [List.cons_append, readBracedEscape, if_neg hshort, if_pos rfl, if_neg hpoint]
      · next hopen =>
        split at h
        · next digit hdigit =>
          obtain ⟨s, rest, rfl, rfl, hs, hread⟩ := ih h
          have hc := (ne_of_radixDigit? hdigit).symm
          refine ⟨c :: s, rest, rfl, by simp; omega, by simp [hc, hs], fun whole' rest' => ?_⟩
          rw [List.cons_append, readBracedEscape, if_neg hshort, if_neg hopen, hdigit]
          exact hread whole' rest'
        · cases h

theorem exists_of_readFixedEscape {a b d : Char} {t : Text} {n : Nat} (h : readFixedEscape (a :: b :: t) = .ok (d, n)) :
    ∃ s rest, t = s ++ rest ∧ n = s.length + 2 ∧ s ≠ [] ∧ '\r' ∉ s ∧
      ∀ rest', readFixedEscape (a :: b :: (s ++ rest')) = .ok (d, n) := by
  have hdrop (u : Text) : (a :: b :: u).drop 6 = u.drop 4 := rfl
  rw [readFixedEscape, List.drop_succ_cons, List.drop_succ_cons, List.drop_zero] at h
  split at h
  · cases h
  · next point hpoint =>
    obtain ⟨s, rest, rfl, hlength, hs, hread⟩ := exists_of_fourHexDigits? hpoint
    have hne : s ≠ [] := List.ne_nil_of_length_eq_add_one hlength
    split at h
    · next hscalar =>
      obtain ⟨rfl, rfl⟩ := Prod.mk.inj (Except.ok.inj h)
      refine ⟨s, rest, rfl, by omega, hne, hs, fun rest' => ?_⟩
      rw [readFixedEscape, List.drop_succ_cons, List.drop_succ_cons, List.drop_zero, hread rest']
      exact if_pos hscalar
    · next hhalf =>
      rw [hdrop, List.drop_left' hlength] at h
      split at h
      · next c hpair =>
        obtain ⟨rfl, rfl⟩ := Prod.mk.inj (Except.ok.inj h)
        obtain ⟨s', rest, rfl, hlength', hs', hread'⟩ := exists_of_surrogatePair? hpair
        refine ⟨s ++ s', rest, by simp, by simp; omega, by simp [hne], by simp [hs, hs'], fun rest' => ?_⟩
        rw [readFixedEscape, List.drop_succ_cons, List.drop_succ_cons, List.drop_zero, List.append_assoc,
          hread (s' ++ rest')]
        dsimp only
        rw [if_neg hhalf, hdrop, List.drop_left' hlength, hread' rest']
      · cases h

/-- An escape is read in the same way whatever stands behind it. -/
theorem exists_of_readEscape {t : Text} {d : Char} {n : Nat} (h : readEscape ('\\' :: t) = .ok (d, n)) :
    ∃ s rest, t = s ++ rest ∧ n = s.length + 1 ∧ '\r' ∉ s ∧ ∀ rest', readEscape ('\\' :: (s ++ rest')) = .ok (d, n) := by
  rw [readEscape.eq_def] at h
  split at h
  · next c digits heq =>
    obtain ⟨-, rfl⟩ := List.cons.inj heq
    obtain ⟨s, rest, rfl, rfl, hs, hread⟩ := exists_of_readBracedEscape h
    refine ⟨'u' :: '\x7b' :: s, rest, rfl, by simp; omega, by simp [hs], fun rest' => ?_⟩
    exact hread _ rest'
  · next c more hbrace heq =>
    obtain ⟨rfl, rfl⟩ := List.cons.inj heq
    obtain ⟨s, rest, rfl, rfl, hne, hs, hread⟩ := exists_of_readFixedEscape h
    -- the first digit is no brace, which would start another kind of escape
    obtain ⟨x, digits, rfl⟩ := List.exists_cons_of_ne_nil hne
    have hx : x ≠ '\x7b' := fun he => hbrace (digits ++ rest) (by rw [he]; rfl)
    refine ⟨'u' :: x :: digits, rest, rfl, rfl, ?_, fun rest' => ?_⟩
    · rw [List.mem_cons, not_or]
      exact ⟨by decide, hs⟩
    · exact (readEscape.eq_2 _ _ fun _ he => hx (List.cons.inj he).1).trans (hread rest')
  · next head c more hbrace hu heq =>
    obtain ⟨rfl, rfl⟩ := List.cons.inj heq
    split at h
    · next d' hd =>
      obtain ⟨rfl, rfl⟩ := Prod.mk.inj (Except.ok.inj h)
      have hc : '\r' ≠ c := by
        rintro rfl
        cases hd
      refine ⟨[c], more, rfl, rfl, by simpa using hc, fun rest' => ?_⟩
      exact (readEscape.eq_3 _ _ _ (fun _ he _ => hu he) hu).trans (by rw [hd])
    · cases h
  · cases h

/-- A string goes up to its closing quote; `skip` characters belong to an escape. -/
theorem exists_of_readChars {start skip stop : Nat} {t value : Text}
    (h : readChars start skip t = .ok (value, stop)) :
    ∃ s rest, t = s ++ '"' :: rest ∧ stop = start + s.length + 1 ∧ skip ≤ s.length ∧ '\r' ∉ s.drop skip ∧
      ∀ rest', readChars start skip (s ++ '"' :: rest') = .ok (value, stop) := by
  induction t generalizing start skip value with
  | nil => cases h
  | cons c more ih =>
    cases skip with
    | succ skip =>
      rw [readChars] at h
      obtain ⟨s, rest, rfl, rfl, hskip, hs, hread⟩ := ih h
      refine ⟨c :: s, rest, rfl, by simp; omega, by simp; omega, hs, fun rest' => ?_⟩
      rw [List.cons_append, readChars]
      exact hread rest'
    | zero =>
      rw [readChars] at h
      split at h
      · next hquote =>
        subst hquote
        obtain ⟨rfl, rfl⟩ := Prod.mk.inj (Except.ok.inj h)
        refine ⟨[], more, rfl, rfl, Nat.le_refl 0, by simp, fun rest' => ?_⟩
        rw [List.nil_append, readChars, if_pos rfl]
      · next hquote =>
        split at h
        · cases h
        · next hline =>
          have hc : '\r' ≠ c := by
            rintro rfl
            exact hline rfl
          split at h
          · next hescape =>
            subst hescape
            split at h
            · cases h
            · next d length hread =>
              obtain ⟨e, behind, rfl, rfl, he, hescape⟩ := exists_of_readEscape hread
              rw [Nat.add_sub_cancel] at h
              obtain ⟨result, hrest, rfl⟩ := map_result_eq_ok_iff.1 h
              obtain ⟨s, rest, hsplit, hstop, hskip, hs, hreadOn⟩ := ih hrest
              -- the escape ends in front of the quote that closes the string
              obtain ⟨s', rfl⟩ : e <+: s :=
                List.prefix_of_prefix_length_le ⟨behind, hsplit⟩ ⟨'"' :: rest, rfl⟩ hskip
              rw [List.drop_left] at hs
              refine ⟨'\\' :: (e ++ s'), rest, by rw [hsplit]; rfl, ?_, Nat.zero_le _, ?_, fun rest' => ?_⟩
              · rw [hstop, List.length_cons]
                omega
              · simp [he, hs]
              · rw [List.cons_append, readChars, if_neg (by decide), if_neg (by decide), if_pos rfl,
                  List.append_assoc, hescape (s' ++ '"' :: rest')]
                dsimp only
                rw [Nat.add_sub_cancel, ← List.append_assoc, hreadOn rest']
                rfl
          · next hescape =>
            obtain ⟨result, hrest, rfl⟩ := map_result_eq_ok_iff.1 h
            obtain ⟨s, rest, rfl, hstop, -, hs, hreadOn⟩ := ih hrest
            refine ⟨c :: s, rest, rfl, ?_, Nat.zero_le _, ?_, fun rest' => ?_⟩
            · rw [hstop, List.length_cons]
              omega
            · rw [List.drop_zero, List.mem_cons, not_or]
              exact ⟨hc, hs⟩
            · rw [List.cons_append, readChars, if_neg hquote, if_neg hline, if_neg hescape, hreadOn rest']
              rfl

/-! ## Blocks -/

/-- Three quotes. -/
def tripleQuote : Text := ['"', '"', '"']

/-- What a character makes of the lines behind it, where it does not start something longer. -/
def addToLines (c : Char) (lines : List Text) : List Text :=
  if endsLine c then [] :: lines else prependToFirst [c] lines

/-- What a long enough text starts with does not change with what stands behind it. -/
theorem starts_of_starts {u p r tail : Text} (hp : p.length ≤ u.length) (h : u ++ r = p ++ tail) (r' : Text) :
    ∃ tail', u ++ r' = p ++ tail' := by
  obtain ⟨more, rfl⟩ := List.prefix_of_prefix_length_le ⟨tail, h.symm⟩ ⟨r, rfl⟩ hp
  exact ⟨more ++ r', List.append_assoc p more r'⟩

/-- A block goes up to its closing quotes. -/
theorem exists_of_readBlockLines {start stop : Nat} {t : Text} {lines : List Text}
    (h : readBlockLines start t = .ok (lines, stop)) :
    ∃ s rest, t = s ++ rest ∧ stop = start + s.length ∧ tripleQuote <:+ s ∧
      ∀ rest', readBlockLines start (s ++ rest') = .ok (lines, stop) := by
  induction start, t using readBlockLines.induct generalizing lines with
  | case1 start => cases h
  | case2 start behind =>
    rw [readBlockLines] at h
    obtain ⟨rfl, rfl⟩ := Prod.mk.inj (Except.ok.inj h)
    exact ⟨tripleQuote, behind, rfl, rfl, List.suffix_refl _, readBlockLines.eq_2 start⟩
  | case3 start more ih =>
    rw [readBlockLines] at h
    obtain ⟨result, hrest, rfl⟩ := map_result_eq_ok_iff.1 h
    obtain ⟨s, rest, rfl, hstop, hends, hread⟩ := ih hrest
    refine ⟨['\\', '"', '"', '"'] ++ s, rest, rfl, ?_, hends.trans (List.suffix_append _ s), fun rest' => ?_⟩
    · rw [hstop, List.length_append, ← Nat.add_assoc]
      rfl
    · exact (readBlockLines.eq_3 start (s ++ rest')).trans (congrArg _ (hread rest'))
  | case4 start more ih =>
    rw [readBlockLines] at h
    obtain ⟨result, hrest, rfl⟩ := map_result_eq_ok_iff.1 h
    obtain ⟨s, rest, rfl, hstop, hends, hread⟩ := ih hrest
    refine ⟨['\r', '\n'] ++ s, rest, rfl, ?_, hends.trans (List.suffix_append _ s), fun rest' => ?_⟩
    · rw [hstop, List.length_append, ← Nat.add_assoc]
      rfl
    · exact (readBlockLines.eq_4 start (s ++ rest')).trans (congrArg _ (hread rest'))
  | case5 start c more hquotes hescape hline ih =>
    rw [readBlockLines.eq_5 _ _ _ hquotes hescape hline] at h
    obtain ⟨result, hrest, rfl⟩ := (map_result_eq_ok_iff (f := addToLines c)).1 h
    obtain ⟨s, rest, rfl, hstop, hends, hread⟩ := ih hrest
    -- whether the character starts something longer is settled by the three characters behind it
    have hstarts {p tail rest' : Text} (hp : p.length ≤ 3) (heq : s ++ rest' = p ++ tail) :
        ∃ tail', s ++ rest = p ++ tail' :=
      starts_of_starts (Nat.le_trans hp hends.length_le) heq rest
    refine ⟨c :: s, rest, rfl, ?_, hends.trans (List.suffix_cons c s), fun rest' => ?_⟩
    · rw [hstop, List.length_cons]
      omega
    · rw [List.cons_append, readBlockLines.eq_5, hread rest']
      · rfl
      · intro tail hc heq
        obtain ⟨tail', heq'⟩ := hstarts (p := ['"', '"']) (by decide) heq
        exact hquotes tail' hc heq'
      · intro tail hc heq
        obtain ⟨tail', heq'⟩ := hstarts (p := tripleQuote) (by decide) heq
        exact hescape tail' hc heq'
      · intro tail hc heq
        obtain ⟨tail', heq'⟩ := hstarts (p := ['\n']) (by decide) heq
        exact hline tail' hc heq'

/-! ## Line ends -/

theorem behind_unixNewlines (t : Text) : Behind t (unixNewlines t) := by
  intro c hc
  cases t using unixNewlines.fun_cases with
  | case1 => cases hc
  | case2 rest => exact Or.inl (Option.some.inj hc).symm
  | case3 d rest hline =>
    rw [unixNewlines.eq_3 _ _ hline] at hc
    exact Or.inr hc

/-- The lines of a block are the same whichever way they end. -/
theorem readBlockLines_unixNewlines {start start' stop stop' : Nat} {s : Text} {lines : List Text}
    (h : readBlockLines start s = .ok (lines, stop)) (hstop : stop = start + s.length)
    (hs : ¬ crlf <:+: unixNewlines s) (hstop' : stop' = start' + (unixNewlines s).length) :
    readBlockLines start' (unixNewlines s) = .ok (lines, stop') := by
  induction start, s using readBlockLines.induct generalizing lines start' with
  | case1 start => cases h
  | case2 start behind =>
    rw [readBlockLines] at h
    obtain ⟨rfl, rfl⟩ := Prod.mk.inj (Except.ok.inj h)
    obtain rfl : behind = [] := by
      apply List.eq_nil_of_length_eq_zero
      simp only [List.length_cons] at hstop
      omega
    rw [hstop']
    rfl
  | case3 start more ih =>
    have hunix : unixNewlines ('\\' :: '"' :: '"' :: '"' :: more) = '\\' :: '"' :: '"' :: '"' :: unixNewlines more := by
      simp [unixNewlines]
    rw [hunix] at hs hstop' ⊢
    simp only [List.length_cons] at hstop hstop'
    rw [readBlockLines] at h ⊢
    obtain ⟨lines', hrest, rfl⟩ := map_result_eq_ok_iff.1 h
    have hmore : ¬ crlf <:+: unixNewlines more := fun h' => hs (h'.trans (List.suffix_append ['\\', '"', '"', '"'] _).isInfix)
    exact map_result_eq_ok_iff.2 ⟨lines', ih hrest (by omega) hmore (by omega), rfl⟩
  | case4 start more ih =>
    have hunix : unixNewlines ('\r' :: '\n' :: more) = '\n' :: unixNewlines more := unixNewlines.eq_2 more
    rw [hunix] at hs hstop' ⊢
    simp only [List.length_cons] at hstop hstop'
    rw [readBlockLines] at h
    rw [readBlockLines.eq_5 _ _ _ (by simp) (by simp) (by simp)]
    obtain ⟨lines', hrest, rfl⟩ := map_result_eq_ok_iff.1 h
    have hmore : ¬ crlf <:+: unixNewlines more := fun h' => hs (h'.trans (List.suffix_cons '\n' _).isInfix)
    exact map_result_eq_ok_iff.2 ⟨lines', ih hrest (by omega) hmore (by omega), rfl⟩
  | case5 start c more hquotes hescape hline ih =>
    have hunix : unixNewlines (c :: more) = c :: unixNewlines more := unixNewlines.eq_3 c more hline
    rw [hunix] at hs hstop' ⊢
    rw [List.length_cons] at hstop hstop'
    rw [readBlockLines.eq_5 _ _ _ hquotes hescape hline] at h
    obtain ⟨lines', hrest, rfl⟩ := (map_result_eq_ok_iff (f := addToLines c)).1 h
    have hmore : ¬ crlf <:+: unixNewlines more := fun h' => hs (h'.trans (List.suffix_cons c _).isInfix)
    -- quotes and line ends that are found now have been there before
    rw [readBlockLines.eq_5]
    · exact (map_result_eq_ok_iff (f := addToLines c)).2 ⟨lines', ih hrest (by omega) hmore (by omega), rfl⟩
    · intro tail hc heq
      obtain ⟨tail', heq'⟩ := exists_of_unixNewlines_eq_append (p := ['"', '"']) heq (by decide)
      exact hquotes tail' hc heq'
    · intro tail hc heq
      obtain ⟨tail', heq'⟩ := exists_of_unixNewlines_eq_append (p := tripleQuote) heq (by decide)
      exact hescape tail' hc heq'
    · rintro tail rfl heq
      exact hs ⟨[], tail, by rw [heq]; rfl⟩

/-! ## Tokens -/

/-- The characters of a token at the start of a text: they end in a character that tokens may end with, and are
read as the token wherever they stand in front of something that may stand behind it, whichever way lines end. -/
structure IsSource (c : Char) (s rest : Text) (l : Lexeme) : Prop where
  length_eq : s.length = l.length
  closes : ∃ before last, s = before ++ [last] ∧ isTokenChar last = true
  read : ∀ rest', Behind rest rest' → readLexeme c (s ++ rest') = .ok l
  read_unix : ¬ crlf <:+: unixNewlines s → ∀ rest', Behind rest rest' →
    readLexeme c (unixNewlines s ++ rest') = .ok { l with length := (unixNewlines s).length }

/-- Line ends do not matter where there is none. -/
theorem IsSource.of_not_mem {c : Char} {s rest : Text} {l : Lexeme} (hlength : s.length = l.length)
    (hcloses : ∃ before last, s = before ++ [last] ∧ isTokenChar last = true) (hs : '\r' ∉ s)
    (hread : ∀ rest', Behind rest rest' → readLexeme c (s ++ rest') = .ok l) : IsSource c s rest l := by
  refine ⟨hlength, hcloses, hread, fun _ rest' hbehind => ?_⟩
  rw [unixNewlines_of_not_mem hs, hread rest' hbehind, hlength]

/-- Text that holds nothing but the characters of tokens closes a token. -/
theorem closes_of_forall {s : Text} (hne : s ≠ []) (hs : ∀ c ∈ s, isTokenChar c = true) :
    (∃ before last, s = before ++ [last] ∧ isTokenChar last = true) ∧ '\r' ∉ s := by
  constructor
  · have hlast := List.dropLast_concat_getLast hne
    exact ⟨s.dropLast, s.getLast hne, hlast.symm, hs _ (List.getLast_mem hne)⟩
  · intro hmem
    exact absurd (hs '\r' hmem) (by decide)

theorem exists_source_of_readString {t : Text} {l : Lexeme} (h : readString ('"' :: t) = .ok l) :
    ∃ s rest, '"' :: t = s ++ rest ∧ IsSource '"' s rest l := by
  have hread (r : Text) : readLexeme '"' ('"' :: r) = readString ('"' :: r) := rfl
  by_cases hblock : ∃ body, '"' :: t = tripleQuote ++ body
  · obtain ⟨body, hbody⟩ := hblock
    obtain rfl : t = '"' :: '"' :: body := (List.cons.inj hbody).2
    rw [readString] at h
    obtain ⟨result, hlines, rfl⟩ := exists_of_map_eq_ok h
    obtain ⟨s, rest, rfl, hstop, hends, hlocal⟩ := exists_of_readBlockLines hlines
    have hblock {r : Text} {lines : List Text} {stop : Nat} (hr : readBlockLines 3 r = .ok (lines, stop)) :
        readLexeme '"' (tripleQuote ++ r) = .ok ⟨.blockString, StringLiteral.blockValue lines, stop⟩ :=
      (hread _).trans ((readString.eq_1 r).trans (congrArg _ hr))
    refine ⟨tripleQuote ++ s, rest, rfl, ?_, ?_, fun rest' _ => ?_, fun hs rest' _ => ?_⟩
    · rw [List.length_append]
      exact hstop.symm
    · obtain ⟨before, rfl⟩ := hends
      exact ⟨tripleQuote ++ (before ++ ['"', '"']), '"', by simp [tripleQuote], by decide⟩
    · rw [List.append_assoc]
      exact hblock (hlocal rest')
    · have hunix : unixNewlines (tripleQuote ++ s) = tripleQuote ++ unixNewlines s := by
        simp [tripleQuote, unixNewlines]
      -- the block takes all of its characters, whichever way its lines end
      have hwhole : readBlockLines 3 s = .ok (result.1, 3 + s.length) := by
        have hself := hlocal []
        rwa [List.append_nil, hstop] at hself
      rw [hunix] at hs
      have hlines' : readBlockLines 3 (unixNewlines s) = .ok (result.1, 3 + (unixNewlines s).length) :=
        readBlockLines_unixNewlines hwhole rfl (fun h' => hs (h'.trans (List.suffix_append _ _).isInfix)) rfl
      obtain ⟨s', rest'', heq, hstop', -, hlocal'⟩ := exists_of_readBlockLines hlines'
      obtain rfl : rest'' = [] := by
        apply List.eq_nil_of_length_eq_zero
        have hlength := congrArg List.length heq
        rw [List.length_append] at hlength
        omega
      rw [List.append_nil] at heq
      rw [hunix, List.append_assoc, heq]
      refine (hblock (hlocal' rest')).trans ?_
      rw [List.length_append, heq]
      rfl
  · rw [readString.eq_2 _ fun body heq => hblock ⟨body, heq⟩] at h
    obtain ⟨result, hchars, rfl⟩ := exists_of_map_eq_ok h
    obtain ⟨s, rest, heq, hstop, -, hs, hlocal⟩ := exists_of_readChars hchars
    obtain rfl : t = s ++ '"' :: rest := heq
    refine ⟨'"' :: s ++ ['"'], rest, by simp, .of_not_mem ?_ ?_ ?_ fun rest' hbehind => ?_⟩
    · simp [hstop]
      omega
    · exact ⟨'"' :: s, '"', rfl, by decide⟩
    · rw [List.drop_zero] at hs
      simp [hs]
    · have happend : '"' :: s ++ ['"'] ++ rest' = '"' :: (s ++ '"' :: rest') := by simp
      rw [happend, hread, readString.eq_2, List.drop_one, List.tail_cons, hlocal rest']
      · rfl
      · -- an empty string is no block as long as no quote stands behind it
        intro body hbody
        cases s with
        | nil =>
          obtain rfl : rest' = '"' :: body := by simpa using hbody
          rcases hbehind '"' rfl with heq | hquote
          · exact absurd heq (by decide)
          · obtain ⟨more, rfl⟩ := List.head?_eq_some_iff.1 (Option.mem_def.1 hquote)
            exact hblock ⟨more, rfl⟩
        | cons x more =>
          rw [← happend] at hbody
          obtain ⟨tail, htail⟩ := starts_of_starts (p := tripleQuote) (by simp [tripleQuote]) hbody rest
          exact hblock ⟨tail, by rw [← htail]; simp⟩

theorem exists_source_of_readDots {t : Text} {l : Lexeme} (h : readDots ('.' :: t) = .ok l) :
    ∃ s rest, '.' :: t = s ++ rest ∧ IsSource '.' s rest l := by
  rw [readDots.eq_def] at h
  split at h
  · next rest heq =>
    cases h
    exact ⟨['.', '.', '.'], rest, heq, .of_not_mem rfl ⟨['.', '.'], '.', rfl, by decide⟩ (by decide) fun _ _ => rfl⟩
  · cases h
  · split at h <;> cases h

theorem exists_source_of_name {c : Char} {t : Text} (hpunctuator : punctuatorOf? c = none)
    (hc : isNameStart c = true) :
    ∃ s rest, c :: t = s ++ rest ∧ IsSource c s rest (readName (c :: t)) := by
  have hs := mem_of_mem_takeWhile (p := isNamePart) (c :: t)
  have hrest := stopsAt_dropWhile isNamePart (c :: t)
  have hsplit : c :: t = (c :: t).takeWhile isNamePart ++ (c :: t).dropWhile isNamePart :=
    List.takeWhile_append_dropWhile.symm
  have hne : (c :: t).takeWhile isNamePart ≠ [] := by
    rw [List.takeWhile_cons_of_pos (by simp [isNamePart, hc])]
    exact List.cons_ne_nil _ _
  obtain ⟨hcloses, hsingle⟩ := closes_of_forall hne fun d hd => isTokenChar_of_isNamePart (hs d hd)
  refine ⟨_, _, hsplit, .of_not_mem rfl hcloses hsingle fun rest' hbehind => ?_⟩
  rw [readLexeme, hpunctuator]
  dsimp only
  rw [if_pos hc, readName_append hs (hbehind.stopsAt (by decide) hrest)]
  rfl

/-- A token stands at the start of the text that it is read from. -/
theorem exists_source {c : Char} {t : Text} {l : Lexeme} (h : readLexeme c (c :: t) = .ok l) :
    ∃ s rest, c :: t = s ++ rest ∧ IsSource c s rest l := by
  rw [readLexeme] at h
  split at h
  · next kind hkind =>
    cases h
    refine ⟨[c], t, rfl, .of_not_mem rfl ⟨[], c, rfl, by simp [isTokenChar, hkind]⟩ ?_ fun rest' _ => ?_⟩
    · intro hmem
      obtain rfl := List.mem_singleton.1 hmem
      cases hkind
    · rw [readLexeme, hkind]
  · next hkind =>
    split at h
    · next hname =>
      cases h
      exact exists_source_of_name hkind hname
    · next hname =>
      split at h
      · next hnumber =>
        obtain ⟨s, rest, heq, hlength, hne, hs, hlocal⟩ := exists_number h
        obtain ⟨hcloses, hsingle⟩ := closes_of_forall hne fun d hd => isTokenChar_of_isPlainChar (hs d hd)
        refine ⟨s, rest, heq, .of_not_mem hlength hcloses hsingle fun rest' hbehind => ?_⟩
        rw [readLexeme, hkind]
        dsimp only
        rw [if_neg hname, if_pos hnumber, hlocal rest' hbehind, ← heq]
        exact h
      · next hnumber =>
        split at h
        · next hquote =>
          subst hquote
          exact exists_source_of_readString h
        · next hquote =>
          split at h
          · next hpoint =>
            subst hpoint
            exact exists_source_of_readDots h
          · split at h <;> cases h

end SnippetAudit.GraphQL
