import SnippetAudit.Proofs.Extraction.Strict
import SnippetAudit.Proofs.GraphQL.Cleaning

/-!
# Texts without strings

A token that is no string holds no line end, no blank and no sign but at its start. So in a text without strings, each
line ends between two tokens, and a sign outside of comments is a token wherever it stands.

## What this module delivers

- `Stringless`: kinds of tokens without strings;
- `IsSource.isPlainChar_of_mem`: the characters of such tokens;
- `Reads.detached`, `Reads.unixNewlines_of_stringless`: lines may be removed, and end in any way;
- `Reads.of_punctuator`, `Reads.of_word`: the token that starts with a character;
- `Reads.exists_of_sign`: signs of variables are tokens, unless they stand in comments.
-/

set_option autoImplicit false

namespace SnippetAudit.GraphQL

open Text Extraction

/-- There are no strings among the tokens. -/
def Stringless (kinds : List TokenKind) : Prop := .string ∉ kinds ∧ .blockString ∉ kinds

instance (kinds : List TokenKind) : Decidable (Stringless kinds) :=
  inferInstanceAs (Decidable (_ ∧ _))

theorem stringless_cons_iff {kind : TokenKind} {kinds : List TokenKind} :
    Stringless (kind :: kinds) ↔ (kind ≠ .string ∧ kind ≠ .blockString) ∧ Stringless kinds := by
  simp only [Stringless, List.mem_cons, not_or, eq_comm (b := kind)]
  constructor
  · rintro ⟨⟨hstring, hmore⟩, hblock, hmore'⟩
    exact ⟨⟨hstring, hblock⟩, hmore, hmore'⟩
  · rintro ⟨⟨hstring, hblock⟩, hmore, hmore'⟩
    exact ⟨⟨hstring, hmore⟩, hblock, hmore'⟩

/-! ## Characters of tokens -/

theorem kind_of_readString {t : Text} {l : Lexeme} (h : readString t = .ok l) :
    l.kind = .string ∨ l.kind = .blockString := by
  rw [readString.eq_def] at h
  split at h
  · obtain ⟨result, -, rfl⟩ := exists_of_map_eq_ok h
    exact Or.inr rfl
  · obtain ⟨result, -, rfl⟩ := exists_of_map_eq_ok h
    exact Or.inl rfl

theorem isPlainChar_of_mem_take {c : Char} {t : Text} {l : Lexeme} (h : readLexeme c (c :: t) = .ok l)
    (hkind : l.kind ≠ .string ∧ l.kind ≠ .blockString) : ∀ d ∈ t.take (l.length - 1), isPlainChar d = true := by
  rw [readLexeme] at h
  split at h
  · cases h
    simp
  · split at h
    · next hname =>
      cases h
      have hlength : (readName (c :: t)).length - 1 = (t.takeWhile isNamePart).length := by
        rw [readName, List.takeWhile_cons_of_pos (by simp [isNamePart, hname])]
        rfl
      rw [hlength, ← List.prefix_iff_eq_take.1 (List.takeWhile_prefix isNamePart)]
      exact fun d hd => isPlainChar_of_isNamePart (mem_of_mem_takeWhile _ d hd)
    · split at h
      · obtain ⟨s, rest, heq, hlength, hne, hs, -⟩ := exists_number h
        obtain ⟨d, more, rfl⟩ := List.exists_cons_of_ne_nil hne
        have ht : t = more ++ rest := (List.cons.inj heq).2
        rw [← hlength, List.length_cons, Nat.add_sub_cancel, ht, List.take_left]
        exact fun d hd => hs d (List.mem_cons_of_mem _ hd)
      · split at h
        · exact ((kind_of_readString h).elim hkind.1 hkind.2).elim
        · split at h
          · rw [readDots.eq_def] at h
            split at h
            · next heq =>
              cases h
              obtain ⟨-, rfl⟩ := List.cons.inj heq
              exact List.forall_mem_cons.2 ⟨by decide, List.forall_mem_singleton.2 (by decide)⟩
            · cases h
            · split at h <;> cases h
          · split at h <;> cases h

/-- Behind its first character, a token that is no string holds nothing but what names and numbers are made of. -/
theorem IsSource.isPlainChar_of_mem {c : Char} {s rest : Text} {l : Lexeme} (h : IsSource c (c :: s) rest l)
    (hkind : l.kind ≠ .string ∧ l.kind ≠ .blockString) : ∀ d ∈ s, isPlainChar d = true := by
  have hlength : l.length - 1 = s.length := by
    rw [← h.length_eq, List.length_cons, Nat.add_sub_cancel]
  have hall := isPlainChar_of_mem_take h.readLexeme_append.1 hkind
  rwa [hlength, List.take_left] at hall

/-! ## Lines -/

/-- A text that is read to its end is read up to the start of any of its lines. -/
theorem Reads.exists_of_lineStart {pre rest : Text} {sights : List (TokenKind × String)}
    (h : Reads (pre ++ rest) sights) (hstrings : Stringless (sights.map Prod.fst)) (hstart : LineStart pre) :
    ∃ taken, Reads pre taken := by
  generalize ht : pre ++ rest = t at h
  induction h generalizing pre with
  | finish hskip =>
    subst ht
    cases hpre : skipIgnored pre with
    | nil => exact ⟨[], .finish hpre⟩
    | cons c more =>
      rw [skipIgnored_append_of_cons hpre] at hskip
      cases hskip
  | @next c _ s behind l _ hskip hsource _ ih =>
    subst ht
    rw [List.map_cons, stringless_cons_iff] at hstrings
    -- no line ends inside of the token
    have hinside {u : Text} (hu : ∀ x ∈ u, x ∈ s) : ¬ LineStart (c :: u) := by
      intro hlines
      have hlast := hlines _ (List.getLast?_eq_some_getLast (List.cons_ne_nil c u))
      have htoken : isTokenChar ((c :: u).getLast (List.cons_ne_nil c u)) = true := by
        rcases List.mem_cons.1 (List.getLast_mem (List.cons_ne_nil c u)) with heq | hmem
        · rw [heq]
          exact hsource.isTokenChar
        · exact isTokenChar_of_isPlainChar (hsource.isPlainChar_of_mem hstrings.1 _ (hu _ hmem))
      rw [hlast] at htoken
      exact absurd htoken (by decide)
    cases hpre : skipIgnored pre with
    | nil => exact ⟨[], .finish hpre⟩
    | cons d more =>
      have hlines : LineStart (d :: more) := hstart.of_suffix (hpre ▸ skipIgnoredFrom_suffix false pre)
      rw [skipIgnored_append_of_cons hpre] at hskip
      obtain ⟨rfl, hmore⟩ := List.cons.inj hskip
      rcases List.append_eq_append_iff.1 hmore with ⟨beyond, rfl, -⟩ | ⟨between, rfl, rfl⟩
      · exact absurd hlines (hinside fun x hx => List.mem_append_left beyond hx)
      · cases between with
        | nil =>
          rw [List.append_nil] at hlines
          exact absurd hlines (hinside fun x hx => hx)
        | cons x others =>
          have hbetween : LineStart (x :: others) := hlines.of_suffix (List.suffix_append (d :: s) _)
          obtain ⟨taken, htaken⟩ := ih hstrings.2 hbetween rfl
          exact ⟨_, .next hpre (hsource.of_behind fun _ hsame => hsame) htaken⟩

/-- In a text without strings, lines that go are no part of tokens. -/
theorem Reads.detached {t : Text} {sights : List (TokenKind × String)} (h : Reads t sights)
    (hstrings : Stringless (sights.map Prod.fst)) : Detached t := by
  intro _ before line after heq _
  have ht : t = terminated before ++ unlines (line :: after) := by
    rw [← unlines_terminated_append (List.cons_ne_nil line after), ← heq, unlines_lines]
  rw [ht] at h
  obtain ⟨taken, htaken⟩ := h.exists_of_lineStart hstrings (lineStart_terminated before)
  rw [reads_iff.1 htaken]
  rfl

/-- Without strings, no token holds a carriage return. -/
theorem Reads.return_not_mem {t : Text} {sights : List (TokenKind × String)} (h : Reads t sights)
    (hstrings : Stringless (sights.map Prod.fst)) : ∀ s ∈ sources t, '\r' ∉ s := by
  induction h with
  | finish hskip =>
    rw [sources, sourcesFrom, hskip]
    exact List.forall_mem_nil _
  | @next c u s rest l _ hskip hsource _ ih =>
    rw [List.map_cons, stringless_cons_iff] at hstrings
    rw [sources_of_source hskip hsource, List.forall_mem_cons]
    refine ⟨fun hmem => ?_, ih hstrings.2⟩
    rcases List.mem_cons.1 hmem with rfl | hmem
    · exact absurd hsource.isTokenChar (by decide)
    · exact absurd (hsource.isPlainChar_of_mem hstrings.1 _ hmem) (by decide)

/-- Without strings, the same is read whichever way lines end, with any carriage returns in front of line ends. -/
theorem Reads.unixNewlines_of_stringless {t : Text} {sights : List (TokenKind × String)} (h : Reads t sights)
    (hstrings : Stringless (sights.map Prod.fst)) : Reads (Text.unixNewlines t) sights := by
  refine h.unixNewlines fun s hs hbreak => ?_
  have hreturn := h.return_not_mem hstrings s hs
  rw [unixNewlines_of_not_mem hreturn] at hbreak
  exact hreturn (hbreak.subset List.mem_cons_self)

/-! ## Tokens at the start of a text -/

/-- Nothing is skipped in front of a character of a class that holds nothing ignored. -/
theorem skipIgnored_of_class {p : Char → Bool} (hp : ['#', ' ', '\t', ',', '\uFEFF', '\n', '\r'].any p = false)
    {c : Char} (hc : p c = true) (t : Text) : skipIgnored (c :: t) = c :: t := by
  have hne : c ∉ ['#', ' ', '\t', ',', '\uFEFF', '\n', '\r'] :=
    fun hmem => Bool.eq_false_iff.1 hp (List.any_eq_true.2 ⟨c, hmem, hc⟩)
  have hignored : isIgnored c = false := by
    rw [Bool.eq_false_iff]
    intro h
    simp only [isIgnored, endsLine, Bool.or_eq_true, beq_iff_eq] at h
    exact hne (List.mem_cons_of_mem _ (by simpa [or_assoc] using h))
  rw [skipIgnored, skipIgnoredFrom, if_neg Bool.false_ne_true, if_neg fun heq => hne (by simp [heq]),
    if_neg (Bool.eq_false_iff.1 hignored)]

theorem skipIgnored_of_isTokenChar {c : Char} (hc : isTokenChar c = true) (t : Text) :
    skipIgnored (c :: t) = c :: t :=
  skipIgnored_of_class (by decide) hc t

theorem skipIgnored_of_isWord {c : Char} (hc : isWord c = true) (t : Text) : skipIgnored (c :: t) = c :: t :=
  skipIgnored_of_class (by decide +kernel) hc t

section

variable {c : Char} {t : Text} {kind : TokenKind} {sights : List (TokenKind × String)}

theorem Reads.of_punctuator (hc : punctuatorOf? c = some kind) (h : Reads (c :: t) sights) :
    ∃ more, sights = (kind, "") :: more ∧ Reads t more := by
  have hread : readLexeme c (c :: t) = .ok ⟨kind, [], 1⟩ := by rw [readLexeme, hc]
  obtain ⟨s, rest, heq, hsource⟩ := exists_source_cons hread
  obtain rfl : s = [] := List.eq_nil_of_length_eq_zero (by simpa using hsource.length_eq)
  obtain rfl : t = rest := heq
  exact h.of_source (skipIgnored_of_isTokenChar hsource.isTokenChar t) hsource

/-- Where nothing is skipped, a token starts. -/
theorem Reads.exists_of_cons (h : Reads (c :: t) sights) (hskip : skipIgnored (c :: t) = c :: t) :
    ∃ s rest l more, t = s ++ rest ∧ IsSource c (c :: s) rest l ∧ sights = (l.kind, String.ofList l.value) :: more ∧
      Reads rest more := by
  cases h with
  | finish hnil => exact absurd (hskip.symm.trans hnil) (List.cons_ne_nil _ _)
  | @next d _ s rest l more hnext hsource hmore =>
    obtain ⟨rfl, heq⟩ := List.cons.inj (hskip.symm.trans hnext)
    exact ⟨s, rest, l, more, heq, hsource, rfl, hmore⟩

/-- A point starts a spread. -/
theorem Reads.of_point (h : Reads ('.' :: t) sights) : ∃ more, sights.map Prod.fst = .spread :: more := by
  obtain ⟨s, rest, l, more, rfl, hsource, rfl, -⟩ := h.exists_of_cons (skipIgnored_of_isTokenChar (by decide) t)
  have hread : readDots ('.' :: (s ++ rest)) = .ok l := hsource.readLexeme_append.1
  rw [readDots.eq_def] at hread
  split at hread
  · cases hread
    exact ⟨_, rfl⟩
  · cases hread
  · split at hread <;> cases hread

theorem isWord_of_punctuatorOf? (h : punctuatorOf? c = some kind) : isWord c = false := by
  unfold punctuatorOf? at h
  split at h <;> first | decide | cases h

/-- Of the characters of words, only those of names start tokens. -/
theorem Reads.isNamePart_of_isWord (h : Reads (c :: t) sights) (hc : isWord c = true) : isNamePart c = true := by
  obtain ⟨s, rest, l, more, -, hsource, -⟩ := h.exists_of_cons (skipIgnored_of_isWord hc t)
  have htoken := hsource.isTokenChar
  simp only [isTokenChar, Bool.or_eq_true, beq_iff_eq, Option.isSome_iff_exists] at htoken
  rcases htoken with ((((hname | ⟨kind, hkind⟩) | rfl) | rfl) | rfl) | rfl
  · exact hname
  · rw [isWord_of_punctuatorOf? hkind] at hc
    cases hc
  all_goals exact absurd hc (by decide)

theorem kind_of_readNumber {l : Lexeme} (h : readNumber t = .ok l) : l.kind = .int ∨ l.kind = .float := by
  obtain ⟨wholeEnd, s, rest, rfl, -, -, hread⟩ := exists_parts h
  rw [hread rest (.refl rest), numberOf] at h
  split at h
  · cases h
  · cases h
    dsimp only
    split
    · exact Or.inl rfl
    · exact Or.inr rfl

/-- Where a name starts, it takes all characters of names, and reading goes on behind them. -/
theorem Reads.of_name (h : Reads (c :: t) sights) (hc : isWord c = true) {rest : List TokenKind}
    (hsights : sights.map Prod.fst = .name :: rest) :
    ∃ n b more, t = n ++ b ∧ (∀ d ∈ n, isNamePart d = true) ∧ StopsAt isNamePart b ∧ Reads b more ∧
      more.map Prod.fst = rest := by
  have hpart := h.isNamePart_of_isWord hc
  obtain ⟨s, b, l, more, rfl, hsource, rfl, hmore⟩ := h.exists_of_cons (skipIgnored_of_isWord hc t)
  obtain ⟨hkind, hrest⟩ := List.cons.inj hsights
  have hread := hsource.readLexeme_append.1
  have hpunctuator : punctuatorOf? c = none := by
    rw [Option.eq_none_iff_forall_ne_some]
    intro kind hsome
    rw [isWord_of_punctuatorOf? hsome] at hc
    cases hc
  rw [readLexeme, hpunctuator] at hread
  dsimp only at hread
  split at hread
  · cases hread
    -- both splits of the text are at the same place
    have hsplit : s ++ b = (s ++ b).takeWhile isNamePart ++ (s ++ b).dropWhile isNamePart :=
      List.takeWhile_append_dropWhile.symm
    have hlength : s.length = ((s ++ b).takeWhile isNamePart).length := by
      have hboth := hsource.length_eq
      rw [readName, List.takeWhile_cons_of_pos hpart] at hboth
      exact Nat.succ.inj hboth
    obtain ⟨hs, hb⟩ := List.append_inj hsplit hlength
    refine ⟨s, b, more, rfl, ?_, ?_, hmore, hrest⟩
    · rw [hs]
      exact mem_of_mem_takeWhile _
    · rw [hb]
      exact stopsAt_dropWhile isNamePart _
  · next hstart =>
    have hdigit : isDigit c = true := by simpa [isNamePart, hstart] using hpart
    rw [hdigit, Bool.true_or, if_pos rfl] at hread
    rcases kind_of_readNumber hread with hint | hfloat
    · rw [hint] at hkind
      cases hkind
    · rw [hfloat] at hkind
      cases hkind

end

/-! ## Signs of variables -/

/-- Outside of comments, a sign of a variable is not skipped. -/
theorem exists_skipped (comment : Bool) {a : Text} (h : LeavesComments a)
    (hcomment : comment = true → ∃ c ∈ a, c = '\n' ∨ c = '\r') (r : Text) :
    ∃ w b, a = w ++ b ∧ skipIgnoredFrom comment (a ++ '$' :: r) = b ++ '$' :: r := by
  induction a generalizing comment with
  | nil =>
    cases comment with
    | true =>
      obtain ⟨c, hc, -⟩ := hcomment rfl
      cases hc
    | false => exact ⟨[], [], rfl, rfl⟩
  | cons c rest ih =>
    rw [List.cons_append, skipIgnoredFrom_cons]
    cases hbehind : behindIgnored? comment c with
    | none => exact ⟨[], c :: rest, rfl, rfl⟩
    | some comment' =>
      have hrest : comment' = true → ∃ d ∈ rest, d = '\n' ∨ d = '\r' := by
        rintro rfl
        cases comment with
        | true =>
          -- inside of a comment, the line goes on
          obtain ⟨d, hd, hends⟩ := hcomment rfl
          rcases List.mem_cons.1 hd with rfl | hd
          · rcases hends with rfl | rfl <;> cases hbehind
          · exact ⟨d, hd, hends⟩
        | false =>
          rw [behindIgnored?, if_neg Bool.false_ne_true] at hbehind
          split at hbehind
          · next hsign => exact h [] rest (by rw [hsign]; rfl)
          · split at hbehind <;> cases hbehind
      obtain ⟨w, b, rfl, hskip⟩ := ih comment' (h.of_append (t := [c])) hrest
      exact ⟨c :: w, b, rfl, hskip⟩

/-- Without strings, every sign of a variable outside of comments is a token, and reading goes on behind it. -/
theorem Reads.exists_of_sign {a r : Text} {sights : List (TokenKind × String)} (h : Reads (a ++ '$' :: r) sights)
    (houtside : LeavesComments a) (hstrings : Stringless (sights.map Prod.fst)) :
    ∃ more, (.dollar, "") :: more <:+ sights ∧ Reads r more := by
  generalize ht : a ++ '$' :: r = t at h
  induction h generalizing a with
  | finish hskip =>
    subst ht
    obtain ⟨w, b, -, hleft⟩ := exists_skipped false houtside nofun r
    rw [← skipIgnored, hskip] at hleft
    exact absurd hleft (by simp)
  | @next c t s rest l sights hskip hsource hrest ih =>
    subst ht
    obtain ⟨w, b, rfl, hleft⟩ := exists_skipped false houtside nofun r
    have hwhole : Reads (c :: (s ++ rest)) ((l.kind, String.ofList l.value) :: sights) :=
      .next (skipIgnored_of_isTokenChar hsource.isTokenChar _) hsource hrest
    rw [← skipIgnored, hskip] at hleft
    rw [List.map_cons, stringless_cons_iff] at hstrings
    cases b with
    | nil =>
      -- the token starts with the sign
      rw [hleft] at hwhole
      obtain ⟨more, hmore, hreads⟩ := hwhole.of_punctuator rfl
      exact ⟨more, hmore ▸ List.suffix_refl _, hreads⟩
    | cons d before =>
      obtain ⟨rfl, heq⟩ := List.cons.inj hleft
      rcases List.append_eq_append_iff.1 heq with ⟨y, rfl, rfl⟩ | ⟨inside, rfl, hsign⟩
      · -- the sign stands behind the token
        have hbehind : LeavesComments y := (houtside.of_append (t := w)).of_append (t := c :: s)
        obtain ⟨more, hmore, hreads⟩ := ih hbehind hstrings.2 rfl
        exact ⟨more, hmore.trans (List.suffix_cons _ _), hreads⟩
      · cases inside with
        | nil =>
          obtain ⟨more, hmore, hreads⟩ := ih leavesComments_nil hstrings.2 hsign
          exact ⟨more, hmore.trans (List.suffix_cons _ _), hreads⟩
        | cons x others =>
          obtain ⟨rfl, -⟩ := List.cons.inj hsign
          exact absurd (hsource.isPlainChar_of_mem hstrings.1 '$' (by simp)) (by decide)

end SnippetAudit.GraphQL
