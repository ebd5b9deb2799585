import SnippetAudit.Proofs.GraphQL.Lexing
import SnippetAudit.Proofs.GraphQL.Parsing
import SnippetAudit.Proofs.Text.Lines

/-!
# Reading a text token by token

A text is read by skipping what is ignored and taking a token, again and again up to the end. What is read does
not depend on blanks at either end, on the way lines end, or on what is skipped between two tokens.

## What this module delivers

- `Reads`: the tokens that are read from a text up to its end, as a parser sees them;
- `reads_iff`: they are the tokens of the text;
- `sources`: the texts of the tokens;
- `Reads.replace`: what is ignored behind some lines may be replaced by something else that is ignored;
- `Reads.of_append`, `Reads.of_blank_append`: nothing is lost with blanks at either end;
- `Reads.unixNewlines`: nothing changes with the way lines end, unless it does inside of a token.
-/

set_option autoImplicit false

namespace SnippetAudit.GraphQL

open Text Extraction

/-- The tokens that are read from a text up to its end. -/
inductive Reads : Text → List (TokenKind × String) → Prop where
  | finish {t : Text} (hskip : skipIgnored t = []) : Reads t []
  | next {c : Char} {t s rest : Text} {l : Lexeme} {sights : List (TokenKind × String)}
      (hskip : skipIgnored t = c :: (s ++ rest)) (hsource : IsSource c (c :: s) rest l) (h : Reads rest sights) :
      Reads t ((l.kind, String.ofList l.value) :: sights)

/-! ## What is ignored -/

/-- Whether a comment goes on behind a character that is ignored; nothing for a character that is not. -/
def behindIgnored? (comment : Bool) (c : Char) : Option Bool :=
  if comment then some (!endsLine c) else if c = '#' then some true else if isIgnored c then some false else none

theorem skipIgnoredFrom_cons (comment : Bool) (c : Char) (rest : Text) :
    skipIgnoredFrom comment (c :: rest) =
      match behindIgnored? comment c with
      | some comment' => skipIgnoredFrom comment' rest
      | none => c :: rest := by
  rw [skipIgnoredFrom, behindIgnored?]
  split
  · rfl
  · split
    · rfl
    · split <;> rfl

theorem skipIgnoredFrom_suffix (comment : Bool) (t : Text) : skipIgnoredFrom comment t <:+ t := by
  induction t generalizing comment with
  | nil => exact List.suffix_refl []
  | cons c rest ih =>
    rw [skipIgnoredFrom_cons]
    split
    · exact (ih _).trans (List.suffix_cons c rest)
    · exact List.suffix_refl _

/-- Where something is left, what stands behind it is left as well. -/
theorem skipIgnoredFrom_append {comment : Bool} {t : Text} (h : skipIgnoredFrom comment t ≠ []) (rest : Text) :
    skipIgnoredFrom comment (t ++ rest) = skipIgnoredFrom comment t ++ rest := by
  induction t generalizing comment with
  | nil => exact absurd rfl h
  | cons c more ih =>
    rw [skipIgnoredFrom_cons] at h
    rw [List.cons_append, skipIgnoredFrom_cons, skipIgnoredFrom_cons]
    cases hc : behindIgnored? comment c with
    | none => rfl
    | some comment' =>
      rw [hc] at h
      exact ih h

/-- Where nothing is left, skipping goes on with what stands behind. -/
theorem exists_skipIgnoredFrom {comment : Bool} {t : Text} (h : skipIgnoredFrom comment t = []) :
    ∃ comment', ∀ rest, skipIgnoredFrom comment (t ++ rest) = skipIgnoredFrom comment' rest := by
  induction t generalizing comment with
  | nil => exact ⟨comment, fun _ => rfl⟩
  | cons c more ih =>
    rw [skipIgnoredFrom_cons] at h
    cases hc : behindIgnored? comment c with
    | none =>
      rw [hc] at h
      cases h
    | some comment' =>
      rw [hc] at h
      obtain ⟨last, hlast⟩ := ih h
      refine ⟨last, fun rest => ?_⟩
      rw [List.cons_append, skipIgnoredFrom_cons, hc]
      exact hlast rest

/-- Skipping starts anew behind a line feed. -/
theorem skipIgnoredFrom_append_lineFeed {comment : Bool} {t : Text}
    (h : skipIgnoredFrom comment (t ++ ['\n']) = []) (rest : Text) :
    skipIgnoredFrom comment (t ++ '\n' :: rest) = skipIgnored rest := by
  induction t generalizing comment with
  | nil =>
    cases comment with
    | true => rfl
    | false => rfl
  | cons c more ih =>
    rw [List.cons_append, skipIgnoredFrom_cons] at h ⊢
    cases hc : behindIgnored? comment c with
    | none =>
      rw [hc] at h
      cases h
    | some comment' =>
      rw [hc] at h
      exact ih h

/-- What is skipped does not depend on the way lines end. -/
theorem skipIgnoredFrom_unixNewlines (comment : Bool) (t : Text) :
    skipIgnoredFrom comment (unixNewlines t) = unixNewlines (skipIgnoredFrom comment t) := by
  induction t using unixNewlines.induct generalizing comment with
  | case1 => rfl
  | case2 rest ih =>
    rw [unixNewlines]
    cases comment with
    | true => exact ih false
    | false => exact ih false
  | case3 c rest hline ih =>
    rw [unixNewlines.eq_3 c rest hline, skipIgnoredFrom_cons, skipIgnoredFrom_cons]
    split
    · exact ih _
    · exact (unixNewlines.eq_3 c rest hline).symm

/-! ## Tokens in their order -/

/-- No token starts with a character that no token ends with. -/
theorem isTokenChar_of_readLexeme {c : Char} {t : Text} {l : Lexeme} (h : readLexeme c t = .ok l) :
    isTokenChar c = true := by
  cases hc : isTokenChar c with
  | true => rfl
  | false =>
    simp only [isTokenChar, isNamePart, Bool.or_eq_false_iff, Option.isSome_eq_false_iff, Option.isNone_iff_eq_none,
      beq_eq_false_iff_ne] at hc
    obtain ⟨⟨⟨⟨⟨⟨hname, hdigit⟩, hpunctuator⟩, hquote⟩, hpoint⟩, hminus⟩, -⟩ := hc
    rw [readLexeme, hpunctuator] at h
    simp only [hname, hdigit, hquote, hpoint, beq_eq_false_iff_ne.2 hminus, Bool.or_false, if_false,
      Bool.false_eq_true] at h
    split at h <;> cases h

theorem Reads.congr {t t' : Text} {sights : List (TokenKind × String)} (h : Reads t sights)
    (hskip : skipIgnored t = skipIgnored t') : Reads t' sights := by
  cases h with
  | finish ht => exact .finish (hskip ▸ ht)
  | next ht hread hrest => exact .next (hskip ▸ ht) hread hrest

theorem exists_source_cons {c : Char} {t : Text} {l : Lexeme} (h : readLexeme c (c :: t) = .ok l) :
    ∃ s rest, t = s ++ rest ∧ IsSource c (c :: s) rest l := by
  obtain ⟨s, rest, heq, hsource⟩ := exists_source h
  cases s with
  | nil =>
    obtain ⟨before, last, hnil, -⟩ := hsource.closes
    exact absurd hnil.symm (by simp)
  | cons d more =>
    obtain ⟨rfl, hmore⟩ := List.cons.inj heq
    exact ⟨more, rest, hmore, hsource⟩

theorem IsSource.readLexeme_append {c : Char} {s rest : Text} {l : Lexeme} (h : IsSource c (c :: s) rest l) :
    readLexeme c (c :: (s ++ rest)) = .ok l ∧ (c :: (s ++ rest)).drop l.length = rest := by
  have hdrop : (c :: s ++ rest).drop l.length = rest := List.drop_left' h.length_eq
  exact ⟨h.read rest (.refl rest), hdrop⟩

/-- A token takes a character at least. -/
theorem length_lt_of_skipIgnored {c : Char} {t s rest : Text} (hskip : skipIgnored t = c :: (s ++ rest)) :
    rest.length < t.length := by
  have hle := (skipIgnoredFrom_suffix false t).length_le
  change (skipIgnored t).length ≤ t.length at hle
  rw [hskip, List.length_cons, List.length_append] at hle
  omega

/-- The tokens that are read are those of the text. -/
theorem reads_iff {t : Text} {sights : List (TokenKind × String)} :
    Reads t sights ↔ (tokens t).sights? = some sights := by
  constructor
  · intro h
    -- each token takes a character, so that the fuel lasts
    have hfrom : ∀ fuel start, t.length < fuel → (tokensFrom fuel start t).sights? = some sights := by
      induction h with
      | finish hskip =>
        intro fuel start hfuel
        obtain ⟨fuel, rfl⟩ := Nat.exists_eq_add_one_of_ne_zero (Nat.ne_zero_of_lt hfuel)
        simp only [tokensFrom, hskip, Tokens.sights?]
      | next hskip hsource _ ih =>
        intro fuel start hfuel
        obtain ⟨fuel, rfl⟩ := Nat.exists_eq_add_one_of_ne_zero (Nat.ne_zero_of_lt hfuel)
        have hlength := length_lt_of_skipIgnored hskip
        obtain ⟨hread, hdrop⟩ := hsource.readLexeme_append
        simp only [tokensFrom, hskip, hread, hdrop, Tokens.sights?]
        rw [ih fuel _ (by omega)]
        rfl
    exact hfrom _ _ (Nat.lt_succ_self _)
  · have hfrom : ∀ fuel start t sights, t.length < fuel → (tokensFrom fuel start t).sights? = some sights →
        Reads t sights := by
      intro fuel
      induction fuel with
      | zero =>
        intro start t sights hfuel
        exact absurd hfuel (Nat.not_lt_zero _)
      | succ fuel ih =>
        intro start t sights hfuel h
        rw [tokensFrom] at h
        split at h
        · next hskip =>
          cases h
          exact .finish hskip
        · next c more hskip =>
          split at h
          · cases h
          · next l hread =>
            obtain ⟨sights, hsights, rfl⟩ := Option.map_eq_some_iff.1 h
            rw [hskip] at hread hsights
            obtain ⟨s, rest, rfl, hsource⟩ := exists_source_cons hread
            rw [hsource.readLexeme_append.2] at hsights
            have hlength := length_lt_of_skipIgnored hskip
            exact .next hskip hsource (ih _ _ _ (by omega) hsights)
    exact hfrom _ _ t sights (Nat.lt_succ_self _)

/-- Where a token is known to stand, it is what is read there. -/
theorem Reads.of_source {c : Char} {t s rest : Text} {l : Lexeme} {sights : List (TokenKind × String)}
    (h : Reads t sights) (hskip : skipIgnored t = c :: (s ++ rest)) (hsource : IsSource c (c :: s) rest l) :
    ∃ more, sights = (l.kind, String.ofList l.value) :: more ∧ Reads rest more := by
  obtain ⟨hread, hdrop⟩ := hsource.readLexeme_append
  cases h with
  | finish hnil =>
    rw [hskip] at hnil
    cases hnil
  | @next c' _ s' rest' l' more hskip' hsource' hmore =>
    obtain ⟨hread', hdrop'⟩ := hsource'.readLexeme_append
    rw [hskip'] at hskip
    rw [hskip] at hread' hdrop'
    obtain ⟨rfl, -⟩ := List.cons.inj hskip
    obtain rfl : l' = l := Except.ok.inj (hread'.symm.trans hread)
    obtain rfl : rest' = rest := hdrop'.symm.trans hdrop
    exact ⟨more, rfl, hmore⟩

/-! ## The texts of tokens -/

/-- The texts of the tokens that a text starts with, as many as `fuel`. -/
def sourcesFrom : Nat → Text → List Text
  | 0, _ => []
  | fuel + 1, t =>
    match skipIgnored t with
    | [] => []
    | c :: rest =>
      match readLexeme c (c :: rest) with
      | .error _ => []
      | .ok l => (c :: rest).take l.length :: sourcesFrom fuel ((c :: rest).drop l.length)

/-- The texts of the tokens of a text; each takes a character at least. -/
def sources (t : Text) : List Text := sourcesFrom (t.length + 1) t

/-- More fuel than characters is as good as any. -/
theorem sourcesFrom_eq {fuel fuel' : Nat} {t : Text} (h : t.length < fuel) (h' : t.length < fuel') :
    sourcesFrom fuel t = sourcesFrom fuel' t := by
  induction fuel generalizing fuel' t with
  | zero => exact absurd h (Nat.not_lt_zero _)
  | succ fuel ih =>
    obtain ⟨fuel', rfl⟩ := Nat.exists_eq_add_one_of_ne_zero (Nat.ne_zero_of_lt h')
    rw [sourcesFrom, sourcesFrom]
    cases hskip : skipIgnored t with
    | nil => rfl
    | cons c rest =>
      dsimp only
      cases hread : readLexeme c (c :: rest) with
      | error e => rfl
      | ok l =>
        obtain ⟨s, behind, rfl, hsource⟩ := exists_source_cons hread
        have hlength := length_lt_of_skipIgnored hskip
        have hbehind : sourcesFrom fuel behind = sourcesFrom fuel' behind := ih (by omega) (by omega)
        dsimp only
        rw [hsource.readLexeme_append.2, hbehind]

/-- The text of the first token stands in front of those of the others. -/
theorem sources_of_source {c : Char} {t s rest : Text} {l : Lexeme} (hskip : skipIgnored t = c :: (s ++ rest))
    (hsource : IsSource c (c :: s) rest l) : sources t = (c :: s) :: sources rest := by
  obtain ⟨hread, hdrop⟩ := hsource.readLexeme_append
  have htake : (c :: (s ++ rest)).take l.length = c :: s := List.take_left' hsource.length_eq
  have hlength := length_lt_of_skipIgnored hskip
  rw [sources, sourcesFrom, hskip]
  dsimp only
  rw [hread]
  dsimp only
  rw [htake, hdrop, sources, sourcesFrom_eq hlength (Nat.lt_succ_self _)]

/-! ## Replacing what is ignored -/

theorem skipIgnored_append_of_lineStart {t : Text} (h : LineStart t) (hskip : skipIgnored t = []) (rest : Text) :
    skipIgnored (t ++ rest) = skipIgnored rest := by
  rcases h.eq_nil_or with rfl | ⟨before, rfl⟩
  · rfl
  · rw [List.append_assoc]
    exact skipIgnoredFrom_append_lineFeed hskip rest

theorem skipIgnored_append_of_cons {c : Char} {t more : Text} (hskip : skipIgnored t = c :: more) (rest : Text) :
    skipIgnored (t ++ rest) = c :: (more ++ rest) := by
  have hne : skipIgnored t ≠ [] := by
    rw [hskip]
    exact List.cons_ne_nil c more
  exact (skipIgnoredFrom_append hne rest).trans (congrArg (· ++ rest) hskip)

theorem IsSource.of_behind {c : Char} {s rest rest' : Text} {l : Lexeme} (h : IsSource c s rest l)
    (hbehind : ∀ r, Behind rest' r → Behind rest r) : IsSource c s rest' l :=
  ⟨h.length_eq, h.closes, fun r hr => h.read r (hbehind r hr), fun hs r hr => h.read_unix hs r (hbehind r hr)⟩

/-- A token ends before its line does, so that it is the same whatever comes behind the line. -/
theorem IsSource.append {c : Char} {s behind : Text} {l : Lexeme} (h : IsSource c s behind l)
    (hstart : LineStart (s ++ behind)) (rest : Text) : IsSource c s (behind ++ rest) l := by
  have hbehind : behind ≠ [] := by
    rintro rfl
    obtain ⟨before, last, rfl, hlast⟩ := h.closes
    obtain rfl := hstart last (by simp)
    exact absurd hlast (by decide)
  obtain ⟨x, more, rfl⟩ := List.exists_cons_of_ne_nil hbehind
  exact h.of_behind fun _ hsame => hsame

/-- Behind some lines that can be read, what is ignored may be replaced by something else that is ignored. -/
theorem Reads.replace {pre rest rest' : Text} {before sights : List (TokenKind × String)} (hpre : Reads pre before)
    (hstart : LineStart pre) (hrest : skipIgnored rest = skipIgnored rest') (h : Reads (pre ++ rest) sights) :
    Reads (pre ++ rest') sights := by
  induction hpre generalizing sights with
  | finish hskip =>
    apply h.congr
    rw [skipIgnored_append_of_lineStart hstart hskip, skipIgnored_append_of_lineStart hstart hskip, hrest]
  | @next c t s behind l _ hskip hsource _ ih =>
    have hlines : LineStart (c :: (s ++ behind)) := hstart.of_suffix (hskip ▸ skipIgnoredFrom_suffix false t)
    have happend (r : Text) : skipIgnored (t ++ r) = c :: (s ++ (behind ++ r)) := by
      rw [skipIgnored_append_of_cons hskip, List.append_assoc]
    obtain ⟨more, rfl, hmore⟩ := h.of_source (happend rest) (hsource.append hlines rest)
    -- the text goes on with the same token, and with lines behind it
    have hbehind : LineStart behind := hlines.of_suffix (List.suffix_append (c :: s) behind)
    exact .next (happend rest') (hsource.append hlines rest') (ih hbehind hmore)

/-! ## Blanks at the ends -/

/-- A line feed at the end changes nothing. -/
theorem Reads.append_lineFeed {t : Text} {sights : List (TokenKind × String)} (h : Reads t sights) :
    Reads (t ++ ['\n']) sights := by
  induction h with
  | finish hskip =>
    obtain ⟨comment, hgo⟩ := exists_skipIgnoredFrom hskip
    apply Reads.finish
    rw [skipIgnored, hgo]
    cases comment <;> rfl
  | @next c _ s rest l _ hskip hsource _ ih =>
    -- a line feed may stand behind every token
    have hskip' := skipIgnored_append_of_cons hskip ['\n']
    rw [List.append_assoc] at hskip'
    refine .next hskip' (hsource.of_behind fun r hr x hx => ?_) ih
    cases rest with
    | nil => exact Or.inl ((hr x hx).elim id fun hsame => (Option.some.inj hsame).symm)
    | cons y more => exact hr x hx

theorem IsSource.isTokenChar {c : Char} {s rest : Text} {l : Lexeme} (h : IsSource c s rest l) :
    isTokenChar c = true :=
  isTokenChar_of_readLexeme (h.read rest (.refl rest))

theorem IsSource.exists_mem {c : Char} {s beyond rest : Text} {l : Lexeme} (h : IsSource c (s ++ beyond) rest l)
    (hbeyond : beyond ≠ []) : ∃ x ∈ beyond, GraphQL.isTokenChar x = true := by
  obtain ⟨before, last, heq, hlast⟩ := h.closes
  have hend : (s ++ beyond).getLast? = some last := by rw [heq, List.getLast?_concat]
  rw [List.getLast?_append, List.getLast?_eq_some_getLast hbeyond, Option.some_or] at hend
  obtain rfl := Option.some.inj hend
  exact ⟨_, List.getLast_mem hbeyond, hlast⟩

/-- What no token ends with may go at the end of a text. -/
theorem Reads.of_append {t w : Text} {sights : List (TokenKind × String)} (hw : ∀ c ∈ w, isTokenChar c = false)
    (h : Reads (t ++ w) sights) : Reads t sights := by
  generalize hu : t ++ w = u at h
  induction h generalizing t with
  | finish hskip =>
    subst hu
    cases ht : skipIgnored t with
    | nil => exact .finish ht
    | cons c more =>
      rw [skipIgnored_append_of_cons ht] at hskip
      cases hskip
  | @next c _ s rest l _ hskip hsource _ ih =>
    subst hu
    cases ht : skipIgnored t with
    | nil =>
      -- a token would start with one of these characters
      obtain ⟨comment, hgo⟩ := exists_skipIgnoredFrom ht
      have hsuffix := skipIgnoredFrom_suffix comment w
      rw [← hgo w] at hsuffix
      change skipIgnored (t ++ w) <:+ w at hsuffix
      rw [hskip] at hsuffix
      have hc := hw c (hsuffix.subset List.mem_cons_self)
      rw [hsource.isTokenChar] at hc
      cases hc
    | cons d more =>
      rw [skipIgnored_append_of_cons ht] at hskip
      obtain ⟨rfl, hmore⟩ := List.cons.inj hskip
      -- the token ends before these characters start
      obtain ⟨behind, rfl, rfl⟩ : ∃ behind, more = s ++ behind ∧ rest = behind ++ w := by
        rcases List.append_eq_append_iff.1 hmore with ⟨beyond, rfl, rfl⟩ | ⟨behind, hs, hrest⟩
        · by_cases hbeyond : beyond = []
          · subst hbeyond
            exact ⟨[], by simp, rfl⟩
          · obtain ⟨x, hx, htoken⟩ := IsSource.exists_mem (s := d :: more) hsource hbeyond
            rw [hw x (List.mem_append_left _ hx)] at htoken
            cases htoken
        · exact ⟨behind, hs, hrest⟩
      refine .next ht (hsource.of_behind fun r hr x hx => ?_) (ih rfl)
      rcases hr x hx with hline | hsame
      · exact Or.inl hline
      · obtain ⟨tail, rfl⟩ := List.head?_eq_some_iff.1 (Option.mem_def.1 hsame)
        exact Or.inr rfl

/-- Blanks may go at the start of a text; all of them are ignored. -/
theorem Reads.of_blank_append {w t : Text} {sights : List (TokenKind × String)} (hw : ∀ c ∈ w, isBlank c = true)
    (h : Reads (w ++ t) sights) : Reads t sights ∧ ∀ c ∈ w, isIgnored c = true := by
  induction w with
  | nil => exact ⟨h, by simp⟩
  | cons c more ih =>
    obtain ⟨hc, hmore⟩ := List.forall_mem_cons.1 hw
    have hsign : c ≠ '#' := by
      rintro rfl
      exact absurd hc (by decide)
    cases hignored : isIgnored c with
    | true =>
      have hskip : skipIgnored (c :: (more ++ t)) = skipIgnored (more ++ t) := by
        rw [skipIgnored, skipIgnoredFrom, if_neg (by simp), if_neg hsign, if_pos hignored]
        rfl
      obtain ⟨ht, hall⟩ := ih hmore (h.congr hskip)
      exact ⟨ht, List.forall_mem_cons.2 ⟨hignored, hall⟩⟩
    | false =>
      -- a blank that is not ignored would have to start a token
      have hskip : skipIgnored (c :: (more ++ t)) = c :: (more ++ t) := by
        rw [skipIgnored, skipIgnoredFrom, if_neg (by simp), if_neg hsign, if_neg (by simp [hignored])]
      cases h with
      | finish hnil =>
        rw [List.cons_append, hskip] at hnil
        cases hnil
      | next hnext hsource =>
        rw [List.cons_append, hskip] at hnext
        obtain ⟨rfl, -⟩ := List.cons.inj hnext
        have htoken := hsource.isTokenChar
        rw [isTokenChar_of_isBlank hc] at htoken
        cases htoken

/-! ## Line ends -/

/-- The same is read whichever way lines end, if inside of tokens no carriage return stands in front of a line end of
two characters, where both would be taken for one. -/
theorem Reads.unixNewlines {t : Text} {sights : List (TokenKind × String)} (h : Reads t sights)
    (ht : ∀ s ∈ sources t, ¬ crlf <:+: Text.unixNewlines s) : Reads (Text.unixNewlines t) sights := by
  have hunix (u : Text) : skipIgnored (Text.unixNewlines u) = Text.unixNewlines (skipIgnored u) :=
    skipIgnoredFrom_unixNewlines false u
  induction h with
  | finish hskip =>
    apply Reads.finish
    rw [hunix, hskip]
    rfl
  | @next c u s rest l _ hskip hsource _ ih =>
    rw [sources_of_source hskip hsource, List.forall_mem_cons] at ht
    have hlast : ∀ x ∈ (c :: s).getLast?, x ≠ '\r' := by
      obtain ⟨before, last, heq, hlast⟩ := hsource.closes
      intro x hx
      rw [heq, List.getLast?_concat] at hx
      obtain rfl := Option.some.inj hx
      rintro rfl
      exact absurd hlast (by decide)
    have hc : c ≠ '\r' := by
      rintro rfl
      exact absurd hsource.isTokenChar (by decide)
    have hsplit : skipIgnored (Text.unixNewlines u) = Text.unixNewlines (c :: s) ++ Text.unixNewlines rest := by
      rw [hunix, hskip, ← unixNewlines_append hlast rest]
      rfl
    have hcons : Text.unixNewlines (c :: s) = c :: Text.unixNewlines s :=
      Text.unixNewlines.eq_3 _ _ fun _ he => absurd he hc
    have hread := hsource.read_unix ht.1 (Text.unixNewlines rest) (behind_unixNewlines rest)
    rw [hcons, List.cons_append] at hread hsplit
    obtain ⟨s', rest', heq, hsource'⟩ := exists_source_cons hread
    -- both parts are as long as they were
    have hlength : s'.length = (Text.unixNewlines s).length := by
      have hboth := hsource'.length_eq
      simpa using hboth
    obtain ⟨rfl, rfl⟩ := List.append_inj heq.symm hlength
    have hnext := Reads.next hsplit hsource' (ih ht.2)
    exact hnext

end SnippetAudit.GraphQL
