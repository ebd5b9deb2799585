import SnippetAudit.Proofs.Extraction.Scan

/-!
# What the passes remove

Where a pass removes something, the text has a certain form there: the marks of a comment with anything
between them, a directive behind a blank, the head of a fragment definition, a variable. For each pattern the
texts in which it matches are described by the pieces that they hold, without the way in which the pattern
looks for them.

## What this module delivers

- `matchesIn_between_iff`, `matchesIn_lineComment_iff`: texts with comments;
- `matchesIn_directive_iff`: texts with a directive;
- `matchesIn_fragmentDefinition_iff`, `matchesIn_namedSpread_iff`: texts with fragments;
- `matchesIn_variableDefinitions_iff`, `matchesIn_variableReference_iff`, `matchesIn_emptyArguments_iff`: texts
  with variables and argument lists, and `matchesIn_variableReference_of_argument`.
-/

set_option autoImplicit false

namespace SnippetAudit.Extraction

open Text

/-! ## Comments -/

/-- There is something between marks exactly where both occur, the closing mark behind the opening one. -/
theorem matchesIn_between_iff {opening : Text} (hopening : opening ≠ []) (closing t : Text) :
    (between opening closing).MatchesIn t ↔ ∃ a b c, t = a ++ opening ++ b ++ closing ++ c := by
  constructor
  · rintro ⟨a, body, rfl, -, hmatch⟩
    unfold between at hmatch
    split at hmatch
    · next hprefix =>
      obtain ⟨rest, rfl⟩ := (isPrefixOf_iff_exists opening body).1 hprefix
      rw [List.drop_left] at hmatch
      have hclosing : (lengthThrough? closing rest).isSome := by
        cases hlength : lengthThrough? closing rest with
        | none => rw [hlength] at hmatch; exact absurd rfl hmatch
        | some n => rfl
      obtain ⟨b, c, rfl⟩ := (lengthThrough?_isSome_iff closing rest).1 hclosing
      exact ⟨a, b, c, by simp⟩
    · exact absurd rfl hmatch
  · rintro ⟨a, b, c, rfl⟩
    refine ⟨a, opening ++ (b ++ closing ++ c), by simp, by simp [hopening], ?_⟩
    have hclosing := (lengthThrough?_isSome_iff closing (b ++ closing ++ c)).2 ⟨b, c, rfl⟩
    obtain ⟨n, hn⟩ := Option.isSome_iff_exists.1 hclosing
    have hpos := List.length_pos_iff.2 hopening
    rw [between, if_pos ((isPrefixOf_iff_exists _ _).2 ⟨_, rfl⟩), List.drop_left, hn]
    simp only
    omega

/-- The place behind a text is the start of the whole text or stands behind a blank. -/
def BehindBlank (a : Text) : Prop := ∀ c ∈ a.getLast?, isBlank c = true

theorem matchesIn_lineComment_iff (t : Text) :
    lineComment.MatchesIn t ↔ ∃ a b, t = a ++ "//".toList ++ b ∧ BehindBlank a := by
  have hcondition (a rest : Text) : (a.getLast?.all isBlank && "//".toList.isPrefixOf rest) = true ↔
      BehindBlank a ∧ ∃ b, rest = "//".toList ++ b := by
    rw [Bool.and_eq_true, isPrefixOf_iff_exists, BehindBlank]
    cases a.getLast? <;> simp
  constructor
  · rintro ⟨a, rest, rfl, -, hmatch⟩
    unfold lineComment at hmatch
    split at hmatch
    · next h =>
      obtain ⟨ha, b, rfl⟩ := (hcondition a rest).1 h
      exact ⟨a, b, by rw [List.append_assoc], ha⟩
    · exact absurd rfl hmatch
  · rintro ⟨a, b, rfl, ha⟩
    refine ⟨a, "//".toList ++ b, by rw [List.append_assoc], List.cons_ne_nil _ _, ?_⟩
    rw [lineComment, if_pos ((hcondition a _).2 ⟨ha, b, rfl⟩)]
    simp

/-! ## Directives -/

theorem directive_ne_zero_iff (before : Option Char) (t : Text) :
    directive before t ≠ 0 ↔ ∃ s c rest, Run isBlank s ∧ isWord c = true ∧ t = s ++ '@' :: c :: rest := by
  rw [directive, skipping_ne_zero_iff]
  simp only [bind, Option.bind_eq_some_iff]
  constructor
  · rintro ⟨-, ⟨mark, hmark, name, hname, rest, hrest, -⟩, -⟩
    obtain ⟨s, hs, rfl, -⟩ := skipSome?_eq_some_iff.1 hmark
    obtain rfl := skipChar?_eq_some_iff.1 hname
    obtain ⟨w, hw, rfl, -⟩ := skipSome?_eq_some_iff.1 hrest
    obtain ⟨c, more, rfl, hc⟩ := hw.exists_cons
    exact ⟨s, c, more ++ rest, hs, hc, rfl⟩
  · rintro ⟨s, c, rest, hs, hc, rfl⟩
    have hmark : skipSome? isBlank (s ++ '@' :: c :: rest) = some ('@' :: c :: rest) :=
      skipSome?_append hs (stopsAt_cons (by decide) _)
    obtain ⟨behind, hbehind, hlength⟩ := exists_skipSome? hc rest
    refine ⟨_, ⟨_, hmark, _, skipChar?_cons _ _, behind, hbehind, rfl⟩, ?_⟩
    -- the arguments, if there are any, only take more of the text
    have hle : (((skipChar? '(' behind).bind (afterFirst? ")".toList)).getD behind).length ≤
        behind.length := by
      cases hopen : skipChar? '(' behind with
      | none => exact Nat.le_refl _
      | some arguments =>
        obtain rfl := skipChar?_eq_some_iff.1 hopen
        cases hclose : afterFirst? ")".toList arguments with
        | none =>
          simp only [Option.bind_some, hclose, Option.getD_none, Nat.le_refl]
        | some after =>
          have := (afterFirst?_suffix hclose).length_le
          rw [Option.bind_some, hclose, Option.getD_some, List.length_cons]
          omega
    simp only [List.length_append, List.length_cons] at hlength ⊢
    omega

theorem matchesIn_directive_iff (t : Text) :
    directive.MatchesIn t ↔
      ∃ a blank c b, t = a ++ blank :: '@' :: c :: b ∧ isBlank blank = true ∧ isWord c = true := by
  constructor
  · rintro ⟨a, rest, rfl, -, hmatch⟩
    obtain ⟨s, c, b, ⟨hne, hall⟩, hc, rfl⟩ := (directive_ne_zero_iff _ _).1 hmatch
    refine ⟨a ++ s.dropLast, s.getLast hne, c, b, ?_, hall _ (List.getLast_mem hne), hc⟩
    conv => lhs; rw [← List.dropLast_concat_getLast hne]
    simp
  · rintro ⟨a, blank, c, b, rfl, hblank, hc⟩
    exact ⟨a, _, rfl, List.cons_ne_nil _ _,
      (directive_ne_zero_iff _ _).2 ⟨[blank], c, b, run_singleton hblank, hc, rfl⟩⟩

/-! ## Fragments -/

/-- The text starts with the head of a fragment definition, and a brace opens somewhere behind it. -/
def StartsFragment (t : Text) : Prop :=
  ∃ s₁ name s₂ s₃ c b rest, t = "fragment".toList ++ (s₁ ++ (name ++ (s₂ ++ ("on".toList ++ (s₃ ++
      (c :: b ++ '\x7b' :: rest)))))) ∧
    Run isBlank s₁ ∧ Run isWord name ∧ Run isBlank s₂ ∧ Run isBlank s₃ ∧ isWord c = true

/-- The head of a definition starts with the keyword as a word of its own. -/
theorem StartsFragment.exists_blank {t : Text} (h : StartsFragment t) :
    ∃ c rest, t = "fragment".toList ++ c :: rest ∧ isBlank c = true := by
  obtain ⟨s₁, name, s₂, s₃, c, extra, rest, rfl, hs₁, -⟩ := h
  obtain ⟨blank, more, rfl, hblank⟩ := hs₁.exists_cons
  exact ⟨blank, _, rfl, hblank⟩

theorem run_on : Run isWord "on".toList := ⟨by decide, List.all_eq_true.1 (by decide)⟩

theorem skipFragmentHead?_isSome_iff (t : Text) : (skipFragmentHead? t).isSome ↔ StartsFragment t := by
  rw [Option.isSome_iff_exists]
  unfold skipFragmentHead?
  simp only [bind, Option.bind_eq_some_iff]
  constructor
  · rintro ⟨body, t₁, h₁, t₂, h₂, t₃, h₃, t₄, h₄, t₅, h₅, t₆, h₆, t₇, h₇, hbrace⟩
    obtain rfl := skipKeyword?_eq_some_iff.1 h₁
    obtain ⟨s₁, hs₁, rfl, -⟩ := skipSome?_eq_some_iff.1 h₂
    obtain ⟨name, hname, rfl, -⟩ := skipSome?_eq_some_iff.1 h₃
    obtain ⟨s₂, hs₂, rfl, -⟩ := skipSome?_eq_some_iff.1 h₄
    obtain rfl := skipKeyword?_eq_some_iff.1 h₅
    obtain ⟨s₃, hs₃, rfl, -⟩ := skipSome?_eq_some_iff.1 h₆
    obtain ⟨w, hw, rfl, -⟩ := skipSome?_eq_some_iff.1 h₇
    obtain ⟨c, more, rfl, hc⟩ := hw.exists_cons
    obtain ⟨b, rest, rfl⟩ := (afterFirst?_singleton '\x7b' t₇).1 (Option.isSome_iff_exists.2 ⟨body, hbrace⟩)
    exact ⟨s₁, name, s₂, s₃, c, more ++ b, rest, by simp, hs₁, hname, hs₂, hs₃, hc⟩
  · rintro ⟨s₁, name, s₂, s₃, c, b, rest, rfl, hs₁, hname, hs₂, hs₃, hc⟩
    -- the brace is no word character, so it is left behind the word
    have hbrace : ∃ u v, (c :: b ++ '\x7b' :: rest).dropWhile isWord = u ++ '\x7b' :: v := by
      have hmem : '\x7b' ∈ (c :: b ++ '\x7b' :: rest).takeWhile isWord ++
          (c :: b ++ '\x7b' :: rest).dropWhile isWord := by
        rw [List.takeWhile_append_dropWhile]
        simp
      rcases List.mem_append.1 hmem with htaken | hleft
      · exact absurd (mem_of_mem_takeWhile _ _ htaken) (by decide)
      · exact List.append_of_mem hleft
    obtain ⟨after, hafter⟩ := Option.isSome_iff_exists.1 ((afterFirst?_singleton '\x7b' _).2 hbrace)
    have hword : skipSome? isWord (c :: b ++ '\x7b' :: rest) =
        some ((c :: b ++ '\x7b' :: rest).dropWhile isWord) := by
      simp [skipSome?, hc]
    exact ⟨after, _, skipKeyword?_append _ _,
      _, skipSome?_append hs₁ (hname.stopsAt (fun _ => isBlank_of_isWord) _),
      _, skipSome?_append hname (hs₂.stopsAt (fun _ => isWord_of_isBlank) _),
      _, skipSome?_append hs₂ (run_on.stopsAt (fun _ => isBlank_of_isWord) _),
      _, skipKeyword?_append _ _,
      _, skipSome?_append hs₃ (stopsAt_cons (isBlank_of_isWord hc) _),
      _, hword, hafter⟩

theorem skipBody_length_le (t : Text) : ∀ depth, (skipBody depth t).length ≤ t.length := by
  induction t with
  | nil => intro depth; cases depth <;> simp [skipBody]
  | cons c rest ih =>
    intro depth
    cases depth with
    | zero => simp [skipBody]
    | succ depth =>
      simp only [skipBody, List.length_cons]
      split
      · exact Nat.le_succ_of_le (ih (depth + 2))
      · split
        · exact Nat.le_succ_of_le (ih depth)
        · exact Nat.le_succ_of_le (ih (depth + 1))

theorem skipFragmentHead?_length {t rest : Text} (h : skipFragmentHead? t = some rest) :
    rest.length < t.length := by
  unfold skipFragmentHead? at h
  simp only [bind, Option.bind_eq_some_iff] at h
  obtain ⟨t₁, h₁, t₂, h₂, t₃, h₃, t₄, h₄, t₅, h₅, t₆, h₆, t₇, h₇, hbrace⟩ := h
  obtain rfl := skipKeyword?_eq_some_iff.1 h₁
  obtain ⟨s₁, -, rfl, -⟩ := skipSome?_eq_some_iff.1 h₂
  obtain ⟨name, -, rfl, -⟩ := skipSome?_eq_some_iff.1 h₃
  obtain ⟨s₂, -, rfl, -⟩ := skipSome?_eq_some_iff.1 h₄
  obtain rfl := skipKeyword?_eq_some_iff.1 h₅
  obtain ⟨s₃, -, rfl, -⟩ := skipSome?_eq_some_iff.1 h₆
  obtain ⟨w, -, rfl, -⟩ := skipSome?_eq_some_iff.1 h₇
  have hle := (afterFirst?_suffix hbrace).length_le
  simp only [List.length_append, String.length_toList]
  have hfragment : "fragment".length = 8 := rfl
  omega

/-- A fragment definition stands exactly where no word character stands before its head. -/
theorem fragmentDefinition_ne_zero_iff (before : Option Char) (t : Text) :
    fragmentDefinition before t ≠ 0 ↔ (∀ c ∈ before, isWord c = false) ∧ StartsFragment t := by
  have hboundary : startsAtBoundary before = true ↔ ∀ c ∈ before, isWord c = false := by
    unfold startsAtBoundary
    cases before <;> simp
  rw [← hboundary, ← skipFragmentHead?_isSome_iff]
  unfold fragmentDefinition
  split
  · next hbefore =>
    rw [skipping_ne_zero_iff, and_iff_right hbefore]
    constructor
    · rintro ⟨rest, hrest, -⟩
      obtain ⟨body, hbody, -⟩ := Option.map_eq_some_iff.1 hrest
      exact Option.isSome_iff_exists.2 ⟨body, hbody⟩
    · intro hhead
      obtain ⟨body, hbody⟩ := Option.isSome_iff_exists.1 hhead
      exact ⟨skipBody 1 body, by rw [hbody]; rfl,
        Nat.lt_of_le_of_lt (skipBody_length_le body 1) (skipFragmentHead?_length hbody)⟩
  · next hbefore => simp [hbefore]

/-- A text holds a fragment definition exactly when it holds the head of one that no word character stands
before. -/
theorem matchesIn_fragmentDefinition_iff (t : Text) :
    fragmentDefinition.MatchesIn t ↔
      ∃ a b, t = a ++ b ∧ (∀ c ∈ a.getLast?, isWord c = false) ∧ StartsFragment b := by
  constructor
  · rintro ⟨a, b, rfl, -, hmatch⟩
    exact ⟨a, b, rfl, (fragmentDefinition_ne_zero_iff _ b).1 hmatch⟩
  · rintro ⟨a, b, rfl, hb⟩
    refine ⟨a, b, rfl, ?_, (fragmentDefinition_ne_zero_iff _ b).2 hb⟩
    obtain ⟨s₁, name, s₂, s₃, c, extra, rest, rfl, -⟩ := hb.2
    exact List.append_ne_nil_of_left_ne_nil (by decide) _

/-- A whole word is the keyword exactly when the keyword can be skipped there and no word goes on behind
it. -/
theorem skipKeyword?_endsWord_iff {keyword name rest : Text} (hkeyword : ∀ c ∈ keyword, isWord c = true)
    (hname : Run isWord name) (hrest : StopsAt isWord rest) :
    (∃ behind, skipKeyword? keyword (name ++ rest) = some behind ∧ endsWord behind = true) ↔
      name = keyword := by
  constructor
  · rintro ⟨behind, hskip, hends⟩
    have hwhole := skipKeyword?_eq_some_iff.1 hskip
    have hname' := takeWhile_append_of_stopsAt hname.2 hrest
    have hkeyword' := takeWhile_append_of_stopsAt hkeyword ((endsWord_eq_true_iff behind).1 hends)
    rw [← hname', hwhole, hkeyword']
  · rintro rfl
    exact ⟨rest, skipKeyword?_append _ _, (endsWord_eq_true_iff rest).2 hrest⟩

theorem namedSpread_ne_zero_iff (before : Option Char) (t : Text) :
    namedSpread before t ≠ 0 ↔ ∃ s name rest, t = "...".toList ++ (s ++ (name ++ rest)) ∧
      (∀ c ∈ s, isBlank c = true) ∧ Run isWord name ∧ StopsAt isWord rest ∧ name ≠ "on".toList := by
  have hon : ∀ c ∈ "on".toList, isWord c = true := run_on.2
  rw [namedSpread, skipping_ne_zero_iff]
  simp only [bind, Option.bind_eq_some_iff]
  constructor
  · rintro ⟨rest, ⟨name, hname, hskip⟩, -⟩
    obtain rfl := skipKeyword?_eq_some_iff.1 hname
    obtain ⟨s, hs, hname, -⟩ := exists_blanks name
    have hword : skipSome? isWord (skipBlanks name) = some rest ∧
        ¬ ∃ behind, skipKeyword? "on".toList (skipBlanks name) = some behind ∧ endsWord behind = true := by
      cases hkeyword : skipKeyword? "on".toList (skipBlanks name) with
      | none =>
        rw [hkeyword] at hskip
        exact ⟨hskip, by simp⟩
      | some behind =>
        rw [hkeyword] at hskip
        simp only at hskip
        split at hskip
        · exact absurd hskip (by simp)
        · next hends => exact ⟨hskip, by simpa using hends⟩
    obtain ⟨hrest, hnotOn⟩ := hword
    obtain ⟨w, hw, hword, hstop⟩ := skipSome?_eq_some_iff.1 hrest
    rw [hword, skipKeyword?_endsWord_iff hon hw hstop] at hnotOn
    exact ⟨s, w, rest, by rw [hname, hword], hs, hw, hstop, hnotOn⟩
  · rintro ⟨s, name, rest, rfl, hs, hname, hstop, hnotOn⟩
    have hblanks : skipBlanks (s ++ (name ++ rest)) = name ++ rest :=
      skipBlanks_append hs (hname.stopsAt (fun _ => isBlank_of_isWord) rest)
    have hword : skipSome? isWord (name ++ rest) = some rest := skipSome?_append hname hstop
    have hnoKeyword := mt (skipKeyword?_endsWord_iff hon hname hstop).1 hnotOn
    refine ⟨rest, ⟨_, skipKeyword?_append _ _, ?_⟩, ?_⟩
    · rw [hblanks]
      cases hkeyword : skipKeyword? "on".toList (name ++ rest) with
      | none => exact hword
      | some behind =>
        have hends : ¬ endsWord behind = true := fun h => hnoKeyword ⟨behind, hkeyword, h⟩
        simp only [if_neg hends, hword]
    · simp only [List.length_append, String.length_toList]
      have hdots : "...".length = 3 := rfl
      omega

theorem matchesIn_namedSpread_iff (t : Text) :
    namedSpread.MatchesIn t ↔ ∃ a s name rest, t = a ++ "...".toList ++ s ++ name ++ rest ∧
      (∀ c ∈ s, isBlank c = true) ∧ Run isWord name ∧ StopsAt isWord rest ∧ name ≠ "on".toList := by
  constructor
  · rintro ⟨a, b, rfl, -, hmatch⟩
    obtain ⟨s, name, rest, rfl, h⟩ := (namedSpread_ne_zero_iff _ _).1 hmatch
    exact ⟨a, s, name, rest, by simp only [List.append_assoc], h⟩
  · rintro ⟨a, s, name, rest, rfl, h⟩
    refine ⟨a, "...".toList ++ (s ++ (name ++ rest)), by simp only [List.append_assoc],
      List.cons_ne_nil _ _, ?_⟩
    exact (namedSpread_ne_zero_iff _ _).2 ⟨s, name, rest, rfl, h⟩

/-! ## Variables -/

theorem skipVariable?_isSome_iff (t : Text) :
    (skipVariable? t).isSome ↔ ∃ c rest, t = '$' :: c :: rest ∧ isWord c = true := by
  rw [Option.isSome_iff_exists]
  unfold skipVariable?
  simp only [bind, Option.bind_eq_some_iff]
  constructor
  · rintro ⟨rest, name, hname, hrest⟩
    obtain rfl := skipChar?_eq_some_iff.1 hname
    obtain ⟨w, hw, rfl, -⟩ := skipSome?_eq_some_iff.1 hrest
    obtain ⟨c, more, rfl, hc⟩ := hw.exists_cons
    exact ⟨c, more ++ rest, rfl, hc⟩
  · rintro ⟨c, rest, rfl, hc⟩
    obtain ⟨behind, hbehind, -⟩ := exists_skipSome? hc rest
    exact ⟨behind, _, skipChar?_cons _ _, hbehind⟩

theorem variableReference_ne_zero_iff (before : Option Char) (t : Text) :
    variableReference before t ≠ 0 ↔ ∃ c rest, t = '$' :: c :: rest ∧ isWord c = true := by
  rw [variableReference, skipping_ne_zero_iff]
  constructor
  · rintro ⟨rest, hrest, -⟩
    exact (skipVariable?_isSome_iff t).1 (Option.isSome_iff_exists.2 ⟨rest, hrest⟩)
  · rintro ⟨c, rest, rfl, hc⟩
    obtain ⟨behind, hbehind, hlength⟩ := exists_skipSome? hc rest
    refine ⟨behind, ?_, ?_⟩
    · simp [skipVariable?, skipChar?, hbehind]
    · simp only [List.length_cons] at hlength ⊢
      omega

/-- A variable occurs exactly where its sign stands before a word character. -/
theorem matchesIn_variableReference_iff (t : Text) :
    variableReference.MatchesIn t ↔ ∃ a c b, t = a ++ '$' :: c :: b ∧ isWord c = true := by
  constructor
  · rintro ⟨a, b, rfl, -, hmatch⟩
    obtain ⟨c, more, rfl, hc⟩ := (variableReference_ne_zero_iff _ b).1 hmatch
    exact ⟨a, c, more, rfl, hc⟩
  · rintro ⟨a, c, b, rfl, hc⟩
    exact ⟨a, _, rfl, List.cons_ne_nil _ _, (variableReference_ne_zero_iff _ _).2 ⟨c, b, rfl, hc⟩⟩

/-- An argument that is bound to a variable holds one. -/
theorem matchesIn_variableReference_of_argument {t : Text} (h : variableArgument.MatchesIn t) :
    variableReference.MatchesIn t := by
  obtain ⟨a, b, rfl, -, hmatch⟩ := h
  rw [variableArgument, skipping_ne_zero_iff] at hmatch
  simp only [bind, Option.bind_eq_some_iff] at hmatch
  obtain ⟨-, ⟨name, hname, value, hvalue, rest, hrest, -⟩, -⟩ := hmatch
  obtain ⟨w, -, rfl, -⟩ := skipSome?_eq_some_iff.1 hname
  obtain ⟨s, -, hs, -⟩ := exists_blanks name
  rw [skipChar?_eq_some_iff.1 hvalue] at hs
  obtain ⟨s', -, hs', -⟩ := exists_blanks value
  obtain ⟨c, more, hvariable, hc⟩ :=
    (skipVariable?_isSome_iff _).1 (Option.isSome_iff_exists.2 ⟨rest, hrest⟩)
  rw [hvariable] at hs'
  rw [matchesIn_variableReference_iff]
  exact ⟨a ++ w ++ s ++ ':' :: s', c, more, by rw [hs, hs']; simp, hc⟩

theorem matchesIn_variableDefinitions_iff (t : Text) :
    variableDefinitions.MatchesIn t ↔
      ∃ a s b c, t = a ++ '(' :: s ++ '$' :: b ++ ')' :: c ∧ ∀ d ∈ s, isBlank d = true := by
  constructor
  · rintro ⟨a, rest, rfl, -, hmatch⟩
    rw [variableDefinitions, skipping_ne_zero_iff] at hmatch
    simp only [bind, Option.bind_eq_some_iff] at hmatch
    obtain ⟨after, ⟨inside, hinside, behind, hbehind, hclose⟩, -⟩ := hmatch
    obtain rfl := skipChar?_eq_some_iff.1 hinside
    obtain ⟨s, hs, hblanks, -⟩ := exists_blanks inside
    rw [skipChar?_eq_some_iff.1 hbehind] at hblanks
    obtain ⟨b, c, rfl⟩ := (afterFirst?_singleton ')' behind).1 (Option.isSome_iff_exists.2 ⟨after, hclose⟩)
    exact ⟨a, s, b, c, by rw [hblanks]; simp, hs⟩
  · rintro ⟨a, s, b, c, rfl, hs⟩
    refine ⟨a, '(' :: (s ++ '$' :: (b ++ ')' :: c)), by simp, List.cons_ne_nil _ _, ?_⟩
    have hblanks : skipBlanks (s ++ '$' :: (b ++ ')' :: c)) = '$' :: (b ++ ')' :: c) :=
      skipBlanks_append hs (stopsAt_cons (by decide) _)
    have hclosed := (afterFirst?_singleton ')' (b ++ ')' :: c)).2 ⟨b, c, rfl⟩
    obtain ⟨rest, hrest⟩ := Option.isSome_iff_exists.1 hclosed
    have hle := (afterFirst?_suffix hrest).length_le
    rw [variableDefinitions, skipping_ne_zero_iff]
    simp only [bind, Option.bind_eq_some_iff]
    refine ⟨rest, ⟨_, skipChar?_cons _ _, _, skipChar?_eq_some_iff.2 hblanks, hrest⟩, ?_⟩
    simp only [List.length_append, List.length_cons] at hle ⊢
    omega

theorem matchesIn_emptyArguments_iff (t : Text) :
    emptyArguments.MatchesIn t ↔ ∃ a s b, t = a ++ '(' :: s ++ ')' :: b ∧ ∀ d ∈ s, isBlank d = true := by
  constructor
  · rintro ⟨a, rest, rfl, -, hmatch⟩
    rw [emptyArguments, skipping_ne_zero_iff] at hmatch
    simp only [bind, Option.bind_eq_some_iff] at hmatch
    obtain ⟨b, ⟨inside, hinside, hclose⟩, -⟩ := hmatch
    obtain rfl := skipChar?_eq_some_iff.1 hinside
    obtain ⟨s, hs, hblanks, -⟩ := exists_blanks inside
    rw [skipChar?_eq_some_iff.1 hclose] at hblanks
    exact ⟨a, s, b, by rw [hblanks]; simp, hs⟩
  · rintro ⟨a, s, b, rfl, hs⟩
    refine ⟨a, '(' :: (s ++ ')' :: b), by simp, List.cons_ne_nil _ _, ?_⟩
    have hblanks : skipBlanks (s ++ ')' :: b) = ')' :: b :=
      skipBlanks_append hs (stopsAt_cons (by decide) b)
    rw [emptyArguments, skipping_ne_zero_iff]
    simp only [bind, Option.bind_eq_some_iff]
    refine ⟨b, ⟨_, skipChar?_cons _ _, skipChar?_eq_some_iff.2 hblanks⟩, ?_⟩
    simp only [List.length_append, List.length_cons]
    omega

end SnippetAudit.Extraction
