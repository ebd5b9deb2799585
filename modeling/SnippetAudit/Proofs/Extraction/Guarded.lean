import Mathlib.Data.List.DropRight
import SnippetAudit.Proofs.Extraction.Collapse
import SnippetAudit.Proofs.Extraction.Match

/-!
# Removals keep away from variables

A variable is removed by its sign and the name behind it. If an earlier removal took the name, the sign would be left
alone and stay. So no removal may start behind the sign, behind the name, or behind a colon that follows it, and none
may make it possible for a later one. The places at which a removal would do harm are found by reading a text from
left to right; the sign of a variable is what starts such a stretch, and the first character that belongs to something
else ends it.

## What this module delivers

- `Stage`, `stageAt`: how far a text has got behind the sign of a variable, with `cases_of_stageAfter` for one step;
- `Stage.Guards`, `Guarded`: no removal starts at such a place;
- `StartsRemoval`, `Guarded.remove`: removing one match keeps a text guarded;
- `Guarded.collapse`: so does collapsing blank lines;
- `Guarded.erase`, `Guarded.stripDirectives`, `Guarded.stripFragments`: so do whole passes.
-/

set_option autoImplicit false

namespace SnippetAudit.Extraction

open Text

/-! ## Stages -/

/-- How far a text has got behind the sign of a variable: to the sign, into the name, to the blanks behind the name, or
to a colon and the blanks behind that. -/
inductive Stage where
  | sign
  | name
  | gap
  | colon
  deriving Repr, DecidableEq

/-- The stage behind one more character. -/
def stageAfter (stage : Option Stage) (c : Char) : Option Stage :=
  if c = '$' then some .sign
  else
    match stage with
    | none => none
    | some .sign => if isWord c then some .name else none
    | some .name => if isWord c then some .name else if isBlank c then some .gap else if c = ':' then some .colon else none
    | some .gap => if isBlank c then some .gap else if c = ':' then some .colon else none
    | some .colon => if isBlank c then some .colon else none

/-- The stage behind a text. -/
def stageAt (stage : Option Stage) (t : Text) : Option Stage := t.foldl stageAfter stage

theorem stageAt_append (stage : Option Stage) (a b : Text) : stageAt stage (a ++ b) = stageAt (stageAt stage a) b :=
  List.foldl_append

/-- Where a stage is reached from outside of variables, it is reached from everywhere. -/
theorem stageAt_of_none {t : Text} {s : Stage} (h : stageAt none t = some s) (stage : Option Stage) :
    stageAt stage t = some s := by
  induction t generalizing stage with
  | nil => cases h
  | cons c rest ih =>
    by_cases hc : c = '$'
    · subst hc
      exact h
    · have hnone : stageAfter none c = none := if_neg hc
      rw [stageAt, List.foldl_cons, hnone] at h
      exact ih h _

/-- Only the sign itself leads to the first stage. -/
theorem eq_of_stageAfter_sign {stage : Option Stage} {c : Char} (h : stageAfter stage c = some .sign) : c = '$' := by
  unfold stageAfter at h
  repeat' split at h
  all_goals first | assumption | cases h

/-- Without a sign, a text outside of variables stays there. -/
theorem stageAt_none {t : Text} (h : '$' ∉ t) : stageAt none t = none := by
  induction t with
  | nil => rfl
  | cons c rest ih =>
    obtain ⟨hc, hrest⟩ := not_or.1 (mt List.mem_cons.2 h)
    rw [stageAt, List.foldl_cons, show stageAfter none c = none from if_neg (Ne.symm hc)]
    exact ih hrest

/-- A stage is reached from the last sign. -/
theorem exists_sign_of_stageAt {t : Text} {s : Stage} (h : stageAt none t = some s) :
    ∃ a b, t = a ++ '$' :: b ∧ '$' ∉ b ∧ stageAt (some .sign) b = some s := by
  induction t using List.reverseRecOn generalizing s with
  | nil => cases h
  | append_singleton t c ih =>
    rw [stageAt_append] at h
    by_cases hc : c = '$'
    · subst hc
      exact ⟨t, [], rfl, List.not_mem_nil, h⟩
    · have hsign : '$' ∉ [c] := fun hmem => hc (List.mem_singleton.1 hmem).symm
      cases hstage : stageAt none t with
      | none =>
        rw [hstage, stageAt_none hsign] at h
        cases h
      | some s' =>
        obtain ⟨a, b, rfl, hb, hbehind⟩ := ih hstage
        refine ⟨a, b ++ [c], by simp, List.not_mem_append hb hsign, ?_⟩
        rw [stageAt_append, hbehind, ← hstage, h]

/-- Without another sign, only the sign itself is at the first stage. -/
theorem eq_nil_of_stageAt_sign {t : Text} (ht : '$' ∉ t) (h : stageAt (some .sign) t = some .sign) : t = [] := by
  rcases List.eq_nil_or_concat t with rfl | ⟨front, c, rfl⟩
  · rfl
  · rw [List.concat_eq_append] at ht h
    rw [stageAt_append] at h
    obtain rfl := eq_of_stageAfter_sign (c := c) h
    exact absurd (by simp) ht

theorem isWord_of_stageAfter_name {stage : Option Stage} {c : Char} (h : stageAfter stage c = some .name) :
    isWord c = true := by
  unfold stageAfter at h
  repeat' split at h
  all_goals first | assumption | cases h

/-- A name goes on behind the sign and inside of itself. -/
theorem stageAfter_word {c : Char} (hc : isWord c = true) {s : Stage} (hs : s = .sign ∨ s = .name) :
    stageAfter (some s) c = some .name := by
  have hsign : c ≠ '$' := by
    rintro rfl
    exact absurd hc (by decide)
  unfold stageAfter
  rw [if_neg hsign]
  rcases hs with rfl | rfl
  · exact if_pos hc
  · exact if_pos hc

theorem stageAt_word {w : Text} (hw : Run isWord w) {s : Stage} (hs : s = .sign ∨ s = .name) :
    stageAt (some s) w = some .name := by
  obtain ⟨c, rest, rfl, hc⟩ := hw.exists_cons
  have hrest : ∀ c' ∈ rest, isWord c' = true := fun c' hc' => hw.2 c' (List.mem_cons_of_mem c hc')
  rw [stageAt, List.foldl_cons, stageAfter_word hc hs]
  clear hw hc hs
  induction rest with
  | nil => rfl
  | cons d more ih =>
    rw [List.forall_mem_cons] at hrest
    rw [List.foldl_cons, stageAfter_word hrest.1 (Or.inr rfl)]
    exact ih hrest.2

/-- The stage behind a blank. -/
def Stage.behindBlank : Option Stage → Option Stage
  | some .name => some .gap
  | some .gap => some .gap
  | some .colon => some .colon
  | _ => none

theorem stageAfter_blank {c : Char} (hc : isBlank c = true) (stage : Option Stage) :
    stageAfter stage c = Stage.behindBlank stage := by
  have hsign : c ≠ '$' := by
    rintro rfl
    exact absurd hc (by decide)
  have hword : isWord c = false := isWord_of_isBlank hc
  unfold stageAfter
  rw [if_neg hsign]
  rcases stage with _ | _ | _ | _ | _ <;> simp [Stage.behindBlank, hc, hword]

/-- A stage goes on with a character of the name, with a blank, or with the colon. -/
theorem cases_of_stageAfter {s s' : Stage} {c : Char} (hc : c ≠ '$') (h : stageAfter (some s) c = some s') :
    (isWord c = true ∧ (s = .sign ∨ s = .name) ∧ s' = .name) ∨
      (isBlank c = true ∧ Stage.behindBlank (some s) = some s') ∨
      (c = ':' ∧ (s = .name ∨ s = .gap) ∧ s' = .colon) := by
  cases hblank : isBlank c with
  | true =>
    rw [stageAfter_blank hblank] at h
    exact Or.inr (Or.inl ⟨rfl, h⟩)
  | false =>
    cases hword : isWord c with
    | true => cases s <;> simp_all [stageAfter]
    | false => cases s <;> simp_all [stageAfter]

theorem behindBlank_behindBlank (stage : Option Stage) :
    Stage.behindBlank (Stage.behindBlank stage) = Stage.behindBlank stage := by
  rcases stage with _ | _ | _ | _ | _ <;> rfl

/-- Any number of blanks does what one blank does. -/
theorem stageAt_blanks {w : Text} (hne : w ≠ []) (hw : ∀ c ∈ w, isBlank c = true) (stage : Option Stage) :
    stageAt stage w = Stage.behindBlank stage := by
  induction w generalizing stage with
  | nil => exact absurd rfl hne
  | cons c rest ih =>
    rw [List.forall_mem_cons] at hw
    rw [stageAt, List.foldl_cons, stageAfter_blank hw.1]
    by_cases hrest : rest = []
    · rw [hrest, List.foldl_nil]
    · exact (ih hrest hw.2 _).trans (behindBlank_behindBlank stage)

/-- Behind a blank, more blanks change nothing. -/
theorem stageAt_append_blanks {a w : Text} (ha : BehindBlank a) (hw : ∀ c ∈ w, isBlank c = true) :
    stageAt none (a ++ w) = stageAt none a := by
  rw [stageAt_append]
  by_cases hne : w = []
  · rw [hne]
    rfl
  · rw [stageAt_blanks hne hw]
    rcases List.eq_nil_or_concat a with rfl | ⟨front, c, rfl⟩
    · rfl
    · rw [List.concat_eq_append] at ha ⊢
      have hc : isBlank c = true := ha c (by rw [List.getLast?_concat]; rfl)
      rw [stageAt_append, stageAt_blanks (List.cons_ne_nil c []) (by simpa using hc), behindBlank_behindBlank]

/-- A text that has got into a name ends with a character of it. -/
theorem isWord_getLast?_of_stageAt {a : Text} (h : stageAt none a = some .name) :
    ∃ c ∈ a.getLast?, isWord c = true := by
  rcases List.eq_nil_or_concat a with rfl | ⟨front, c, rfl⟩
  · cases h
  · rw [List.concat_eq_append] at h ⊢
    rw [stageAt_append] at h
    exact ⟨c, by rw [List.getLast?_concat]; rfl, isWord_of_stageAfter_name h⟩

/-! ## Guarded texts -/

/-- The word at the start ends at a character that no removal starts with, so that it stays as it is. -/
def EndsFirmly (b : Text) : Prop :=
  ∃ c ∈ (b.dropWhile isWord).head?, isBlank c = false ∧ c ≠ '.' ∧ c ≠ '('

/-- A word with a blank behind it, or with nothing, does not end firmly. -/
theorem not_endsFirmly_append {word t : Text} (hword : ∀ c ∈ word, isWord c = true)
    (ht : ∀ c ∈ t.head?, isBlank c = true) : ¬ EndsFirmly (word ++ t) := by
  have hstops : StopsAt isWord t := fun c hc => isWord_of_isBlank (ht c hc)
  rw [EndsFirmly, dropWhile_append_of_stopsAt hword hstops]
  rintro ⟨c, hc, hblank, -⟩
  rw [ht c hc] at hblank
  cases hblank

/-- What may stand at a place, as far as words go. A name that is the keyword of a definition would be removed with it.
Behind the name or the colon, a word may grow to that keyword when a removal takes what stands behind it. Neither
happens to a word that ends firmly. -/
def Stage.Allows : Stage → Text → Prop
  | .sign, b => b.takeWhile isWord = "fragment".toList → EndsFirmly b
  | .name, _ => True
  | .gap, b => b.takeWhile isWord <+: "fragment".toList → b.takeWhile isWord = [] ∨ EndsFirmly b
  | .colon, b => b.takeWhile isWord <+: "fragment".toList → b.takeWhile isWord = [] ∨ EndsFirmly b

/-- What may stand at a place: no removal starts there, and behind a sign there is a name. -/
structure Stage.Guards (s : Stage) (b : Text) : Prop where
  no_directive : (skipBlanks b).head? ≠ some '@'
  no_spread : b.head? ≠ some '.'
  no_bracket : b.head? ≠ some '('
  allows : s.Allows b
  named : s = .sign → ∃ c ∈ b.head?, isWord c = true
  no_argument : s = .colon → b.head? ≠ some '$'

/-- No removal starts behind a variable. -/
def Guarded (t : Text) : Prop := ∀ a b s, t = a ++ b → stageAt none a = some s → s.Guards b

/-- A removal starts here: of a directive, a spread, brackets or a definition. -/
inductive StartsRemoval (a t : Text) : Prop where
  | directive (hblank : ∃ c ∈ t.head?, isBlank c = true) (hsign : (skipBlanks t).head? = some '@')
  | spread (hdot : t.head? = some '.')
  | bracket (hbracket : t.head? = some '(')
  | definition (hkeyword : ∃ c rest, t = "fragment".toList ++ c :: rest ∧ isBlank c = true)
      (hboundary : ∀ c ∈ a.getLast?, isWord c = false)

theorem Stage.Guards.not_startsRemoval {s : Stage} {a t : Text} (h : s.Guards t) (hs : stageAt none a = some s) :
    ¬ StartsRemoval a t := by
  rintro (⟨-, hsign⟩ | hdot | hbracket | ⟨hkeyword, hboundary⟩)
  · exact h.no_directive hsign
  · exact h.no_spread hdot
  · exact h.no_bracket hbracket
  · obtain ⟨blank, rest, rfl, hblank⟩ := hkeyword
    have hallows := h.allows
    have hkeyword : ∀ c ∈ "fragment".toList, isWord c = true := List.all_eq_true.1 (by decide)
    have hword : ("fragment".toList ++ blank :: rest).takeWhile isWord = "fragment".toList :=
      takeWhile_append_of_stopsAt hkeyword (stopsAt_cons (isWord_of_isBlank hblank) rest)
    have hfirmly : ¬ EndsFirmly ("fragment".toList ++ blank :: rest) :=
      not_endsFirmly_append hkeyword fun c hc => Option.some.inj hc ▸ hblank
    cases s with
    | sign => exact hfirmly (hallows hword)
    | name =>
      obtain ⟨c, hc, hend⟩ := isWord_getLast?_of_stageAt hs
      rw [hboundary c hc] at hend
      cases hend
    | gap =>
      rw [Stage.Allows, hword] at hallows
      exact (hallows (List.prefix_refl _)).elim (by decide) hfirmly
    | colon =>
      rw [Stage.Allows, hword] at hallows
      exact (hallows (List.prefix_refl _)).elim (by decide) hfirmly

/-- Where a word ends, a removal takes none of its characters. -/
theorem StartsRemoval.stopsAt {a t : Text} (h : StartsRemoval a t) (ha : ∃ c ∈ a.getLast?, isWord c = true) :
    StopsAt isWord t := by
  obtain ⟨d, hd, hword⟩ := ha
  intro c hc
  rcases h with ⟨⟨blank, hblank, hisBlank⟩, -⟩ | hdot | hbracket | ⟨-, hboundary⟩
  · rw [hblank] at hc
    obtain rfl := Option.some.inj hc
    exact isWord_of_isBlank hisBlank
  · rw [hdot] at hc
    obtain rfl := Option.some.inj hc
    decide
  · rw [hbracket] at hc
    obtain rfl := Option.some.inj hc
    decide
  · rw [hboundary d hd] at hword
    cases hword

/-- Where a word ends firmly, no removal starts behind it. -/
theorem StartsRemoval.not_endsFirmly {a t : Text} (h : StartsRemoval a t) (hstops : StopsAt isWord t) {word : Text}
    (hword : ∀ c ∈ word, isWord c = true) : ¬ EndsFirmly (word ++ t) := by
  rw [EndsFirmly, dropWhile_append_of_stopsAt hword hstops]
  rintro ⟨c, hc, hblank, hdot, hbracket⟩
  rcases h with ⟨⟨d, hd, hisBlank⟩, -⟩ | hhead | hhead | ⟨⟨d, rest, rfl, -⟩, -⟩
  · obtain rfl := Option.some.inj (hd.symm.trans hc)
    rw [hisBlank] at hblank
    cases hblank
  · exact hdot (Option.some.inj (hc.symm.trans hhead))
  · exact hbracket (Option.some.inj (hc.symm.trans hhead))
  · exact absurd (hstops 'f' rfl) (by decide)

theorem head?_skipBlanks_append {a : Text} (ha : ¬ ∀ c ∈ a, isBlank c = true) (t : Text) :
    (skipBlanks (a ++ t)).head? = (skipBlanks a).head? := by
  have hne : skipBlanks a ≠ [] := by
    intro h
    obtain ⟨s, hs, heq, -⟩ := exists_blanks a
    rw [h, List.append_nil] at heq
    exact ha (heq ▸ hs)
  obtain ⟨c, rest, hrest⟩ := List.exists_cons_of_ne_nil hne
  have happend : skipBlanks (a ++ t) = skipBlanks a ++ t := by
    rw [skipBlanks, List.dropWhile_append, ← skipBlanks, hrest]
    rfl
  rw [happend, hrest]
  rfl

theorem takeWhile_append_of_not_all {p : Char → Bool} {a : Text} (ha : ¬ ∀ c ∈ a, p c = true) (t : Text) :
    (a ++ t).takeWhile p = a.takeWhile p := by
  rw [List.takeWhile_append, if_neg]
  intro hlength
  have hwhole : a.takeWhile p = a := (List.takeWhile_prefix p).eq_of_length hlength
  exact ha (hwhole ▸ mem_of_mem_takeWhile a)

/-! ## Removing one part -/

/-- What is allowed does not depend on what stands behind the word and the character that ends it. -/
theorem Stage.allows_append_iff {a : Text} (ha : ¬ ∀ c ∈ a, isWord c = true) (s : Stage) (t u : Text) :
    s.Allows (a ++ t) ↔ s.Allows (a ++ u) := by
  have hne : a.dropWhile isWord ≠ [] := fun hnil => ha (List.dropWhile_eq_nil_iff.1 hnil)
  have hfirmly : EndsFirmly (a ++ t) ↔ EndsFirmly (a ++ u) := by
    obtain ⟨c, rest, hrest⟩ := List.exists_cons_of_ne_nil hne
    rw [EndsFirmly, EndsFirmly, List.dropWhile_append, List.dropWhile_append, hrest]
    exact Iff.rfl
  have htake : (a ++ t).takeWhile isWord = (a ++ u).takeWhile isWord := by
    rw [takeWhile_append_of_not_all ha, takeWhile_append_of_not_all ha]
  cases s <;> simp only [Stage.Allows, htake, hfirmly]

/-- A word that is allowed in front of a removal stays so when it grows, unless a variable is named by it. -/
theorem Stage.Allows.append {s : Stage} {front word t : Text} (h : s.Allows (word ++ t)) (hsign : s ≠ .sign)
    (hne : word ≠ []) (hword : ∀ c ∈ word, isWord c = true) (hstarts : StartsRemoval front t)
    (hstops : StopsAt isWord t) (u : Text) : s.Allows (word ++ u) := by
  have htake : (word ++ t).takeWhile isWord = word := takeWhile_append_of_stopsAt hword hstops
  have hkeyword (hallows : word <+: "fragment".toList → word = [] ∨ EndsFirmly (word ++ t))
      (hlonger : (word ++ u).takeWhile isWord <+: "fragment".toList) : False := by
    rw [List.takeWhile_append_of_pos hword] at hlonger
    exact (hallows ((List.prefix_append word _).trans hlonger)).elim hne (hstarts.not_endsFirmly hstops hword)
  cases s with
  | sign => exact absurd rfl hsign
  | name => trivial
  | gap =>
    rw [Stage.Allows, htake] at h
    exact fun hlonger => (hkeyword h hlonger).elim
  | colon =>
    rw [Stage.Allows, htake] at h
    exact fun hlonger => (hkeyword h hlonger).elim

/-- What stands behind a place stays the same in front of the next part that is removed. -/
theorem Stage.Guards.remove {s : Stage} {front a m b : Text} (hs : stageAt none front = some s) (ha : a ≠ [])
    (h : s.Guards (a ++ (m ++ b))) (hstarts : StartsRemoval (front ++ a) (m ++ b))
    (hend : ∀ s', stageAt none (front ++ a) = some s' → s'.Guards (m ++ b)) : s.Guards (a ++ b) := by
  have hhead : ∀ t, (a ++ t).head? = a.head? := by
    obtain ⟨c, rest, rfl⟩ := List.exists_cons_of_ne_nil ha
    exact fun _ => rfl
  have hno {s' : Stage} (hs' : stageAt none (front ++ a) = some s') : False :=
    (hend s' hs').not_startsRemoval hs' hstarts
  obtain ⟨hdirective, hspread, hbracket, hallows, hnamed, hargument⟩ := h
  rw [hhead] at hspread hbracket hnamed hargument
  refine ⟨?_, by rwa [hhead], by rwa [hhead], ?_, by rwa [hhead], by rwa [hhead]⟩
  · by_cases hblank : ∀ c ∈ a, isBlank c = true
    · -- behind the blanks, the removal would start at a place that is guarded
      have hstage : stageAt none (front ++ a) = Stage.behindBlank (some s) := by
        rw [stageAt_append, hs, stageAt_blanks ha hblank]
      cases s with
      | sign =>
        obtain ⟨c, hc, hword⟩ := hnamed rfl
        rw [isWord_of_isBlank (hblank c (List.mem_of_mem_head? hc))] at hword
        cases hword
      | name => exact (hno hstage).elim
      | gap => exact (hno hstage).elim
      | colon => exact (hno hstage).elim
    · rw [head?_skipBlanks_append hblank] at hdirective ⊢
      exact hdirective
  · by_cases hword : ∀ c ∈ a, isWord c = true
    · -- a name goes up to a guarded place, and any other word only grows
      have hsign : s ≠ .sign := by
        rintro rfl
        exact hno (by rw [stageAt_append, hs, stageAt_word ⟨ha, hword⟩ (Or.inl rfl)])
      have hstops : StopsAt isWord (m ++ b) := by
        refine hstarts.stopsAt ⟨a.getLast ha, ?_, hword _ (List.getLast_mem ha)⟩
        rw [List.getLast?_append, List.getLast?_eq_some_getLast ha, Option.some_or]
        rfl
      exact hallows.append hsign ha hword hstarts hstops b
    · exact (s.allows_append_iff hword _ _).1 hallows

/-- Removing a part keeps a text guarded. -/
theorem Guarded.remove {a m b : Text} (h : Guarded (a ++ (m ++ b))) (hstarts : StartsRemoval a (m ++ b)) :
    Guarded (a ++ b) := by
  have hno (s : Stage) (hs : stageAt none a = some s) : False :=
    (h a (m ++ b) s rfl hs).not_startsRemoval hs hstarts
  intro front behind s heq hs
  rcases List.append_eq_append_iff.1 heq with ⟨before, rfl, rfl⟩ | ⟨before, rfl, rfl⟩
  · -- the place is behind the part, and the stage there was the same
    cases hstage : stageAt none a with
    | some s' => exact (hno s' hstage).elim
    | none =>
      rw [stageAt_append, hstage] at hs
      refine h (a ++ (m ++ before)) behind s (by simp) ?_
      rw [stageAt_append, stageAt_append]
      exact stageAt_of_none hs _
  · by_cases hbefore : before = []
    · rw [hbefore, List.append_nil] at hno
      exact (hno s hs).elim
    · exact (h front _ s (List.append_assoc _ _ _) hs).remove hs hbefore hstarts fun s' hs' => (hno s' hs').elim

/-! ## Blanks -/

theorem head?_skipBlanks_append_blanks {w : Text} (hw : ∀ c ∈ w, isBlank c = true) (b : Text) :
    (skipBlanks (b ++ w)).head? = (skipBlanks b).head? := by
  by_cases hb : ∀ c ∈ b, isBlank c = true
  · have hnil {t : Text} (ht : ∀ c ∈ t, isBlank c = true) : skipBlanks t = [] := List.dropWhile_eq_nil_iff.2 ht
    rw [hnil (List.forall_mem_append.2 ⟨hb, hw⟩), hnil hb]
  · exact head?_skipBlanks_append hb w

/-- What is allowed does not depend on blanks at the end of a text. -/
theorem Stage.allows_append_blanks {w : Text} (hw : ∀ c ∈ w, isBlank c = true) (s : Stage) (b : Text) :
    s.Allows (b ++ w) ↔ s.Allows b := by
  by_cases hb : ∀ c ∈ b, isWord c = true
  · -- the word ends with the text or at a blank, and firmly at neither
    have hends {u : Text} (hu : ∀ c ∈ u, isBlank c = true) :
        (b ++ u).takeWhile isWord = b ∧ ¬ EndsFirmly (b ++ u) := by
      have hhead : ∀ c ∈ u.head?, isBlank c = true := fun c hc => hu c (List.mem_of_mem_head? hc)
      exact ⟨takeWhile_append_of_stopsAt hb fun c hc => isWord_of_isBlank (hhead c hc), not_endsFirmly_append hb hhead⟩
    have hnil := hends (u := []) nofun
    rw [List.append_nil] at hnil
    cases s <;> simp only [Stage.Allows, hends hw, hnil]
  · have hsame := s.allows_append_iff hb w []
    rwa [List.append_nil] at hsame

/-- Blanks at the end of a text change nothing. -/
theorem Stage.guards_append_blanks {w : Text} (hw : ∀ c ∈ w, isBlank c = true) (s : Stage) (b : Text) :
    s.Guards (b ++ w) ↔ s.Guards b := by
  have hhead (c : Char) (hc : isBlank c = false) : (b ++ w).head? = some c ↔ b.head? = some c := by
    cases b with
    | cons d rest => exact Iff.rfl
    | nil =>
      constructor
      · intro hsome
        rw [hw c (List.mem_of_mem_head? hsome)] at hc
        cases hc
      · intro hnone
        cases hnone
  have hnamed : (∃ c ∈ (b ++ w).head?, isWord c = true) ↔ ∃ c ∈ b.head?, isWord c = true := by
    constructor
    · rintro ⟨c, hc, hword⟩
      exact ⟨c, (hhead c (isBlank_of_isWord hword)).1 hc, hword⟩
    · rintro ⟨c, hc, hword⟩
      exact ⟨c, (hhead c (isBlank_of_isWord hword)).2 hc, hword⟩
  have hskip := head?_skipBlanks_append_blanks hw b
  constructor
  · rintro ⟨hdirective, hspread, hbracket, hallows, hname, hargument⟩
    exact ⟨hskip ▸ hdirective, mt (hhead _ (by decide)).2 hspread, mt (hhead _ (by decide)).2 hbracket,
      (s.allows_append_blanks hw b).1 hallows, fun h => hnamed.1 (hname h),
      fun h => mt (hhead _ (by decide)).2 (hargument h)⟩
  · rintro ⟨hdirective, hspread, hbracket, hallows, hname, hargument⟩
    exact ⟨hskip ▸ hdirective, mt (hhead _ (by decide)).1 hspread, mt (hhead _ (by decide)).1 hbracket,
      (s.allows_append_blanks hw b).2 hallows, fun h => hnamed.2 (hname h),
      fun h => mt (hhead _ (by decide)).1 (hargument h)⟩

/-- Blanks at its end may be cut off a guarded text. -/
theorem Guarded.of_append_blanks {w t : Text} (hw : ∀ c ∈ w, isBlank c = true) (h : Guarded (t ++ w)) : Guarded t := by
  rintro a b s rfl hs
  exact (s.guards_append_blanks hw b).1 (h a (b ++ w) s (List.append_assoc a b w) hs)

theorem Stage.guards_nil {s : Stage} (hs : s ≠ .sign) : s.Guards [] := by
  refine ⟨nofun, nofun, nofun, ?_, fun h => absurd h hs, fun _ => nofun⟩
  cases s with
  | sign => exact absurd rfl hs
  | name => trivial
  | gap => exact fun _ => Or.inl rfl
  | colon => exact fun _ => Or.inl rfl

/-- Blanks may be added to the end of a guarded text. -/
theorem Guarded.append_blanks {w t : Text} (hw : ∀ c ∈ w, isBlank c = true) (h : Guarded t) : Guarded (t ++ w) := by
  intro a b s heq hs
  rcases List.append_eq_append_iff.1 heq.symm with ⟨before, rfl, rfl⟩ | ⟨before, rfl, rfl⟩
  · exact (s.guards_append_blanks hw before).2 (h a before s rfl hs)
  · -- only blanks are left, and what they stand behind is not the sign itself
    have hsign : s ≠ .sign := by
      rintro rfl
      rcases List.eq_nil_or_concat before with rfl | ⟨front, c, rfl⟩
      · rw [List.append_nil] at hs
        obtain ⟨c, hc, -⟩ := (h t [] .sign (by simp) hs).named rfl
        cases hc
      · rw [List.concat_eq_append, ← List.append_assoc, stageAt_append] at hs
        obtain rfl := eq_of_stageAfter_sign (c := c) hs
        exact absurd (hw '$' (by simp)) (by decide)
    exact (s.guards_append_blanks (fun c hc => hw c (List.mem_append_right _ hc)) []).2 (Stage.guards_nil hsign)

/-- Where a line starts, blanks may go. -/
theorem Guarded.remove_blanks {a m b : Text} (ha : LineStart a) (hm : ∀ c ∈ m, isBlank c = true)
    (h : Guarded (a ++ (m ++ b))) : Guarded (a ++ b) := by
  have hblank : BehindBlank a := fun c hc => ha c hc ▸ by decide
  have hstage (t : Text) : stageAt none (a ++ m ++ t) = stageAt none (a ++ t) := by
    rw [stageAt_append, stageAt_append_blanks hblank hm, ← stageAt_append]
  intro front behind s heq hs
  rcases List.append_eq_append_iff.1 heq with ⟨before, rfl, rfl⟩ | ⟨before, rfl, rfl⟩
  · exact h (a ++ m ++ before) behind s (by simp) ((hstage before).trans hs)
  · by_cases hne : before = []
    · subst hne
      have hbehind := hstage []
      simp only [List.append_nil] at hbehind
      exact h (front ++ m) b s (by simp) (hbehind.trans hs)
    · have hhead : ∀ t, (before ++ t).head? = before.head? := by
        obtain ⟨c, rest, rfl⟩ := List.exists_cons_of_ne_nil hne
        exact fun _ => rfl
      have hskip : (skipBlanks (before ++ (m ++ b))).head? = (skipBlanks (before ++ b)).head? := by
        by_cases hall : ∀ c ∈ before, isBlank c = true
        · rw [skipBlanks, List.dropWhile_append_of_pos hall, List.dropWhile_append_of_pos hm, skipBlanks,
            List.dropWhile_append_of_pos hall]
        · rw [head?_skipBlanks_append hall, head?_skipBlanks_append hall]
      have hword : ¬ ∀ c ∈ before, isWord c = true := by
        intro hall
        have hfeed : before.getLast hne = '\n' := by
          apply ha
          rw [List.getLast?_append, List.getLast?_eq_some_getLast hne]
          rfl
        have hlast := hall _ (List.getLast_mem hne)
        rw [hfeed] at hlast
        exact absurd hlast (by decide)
      obtain ⟨hdirective, hspread, hbracket, hallows, hnamed, hargument⟩ := h front _ s (List.append_assoc _ _ _) hs
      rw [hhead] at hspread hbracket hnamed hargument
      exact ⟨hskip ▸ hdirective, by rwa [hhead], by rwa [hhead], (s.allows_append_iff hword _ _).1 hallows,
        by rwa [hhead], by rwa [hhead]⟩

/-- Collapsing removes blank lines, one after the other. -/
theorem Guarded.collapse {t : Text} (h : Guarded t) : Guarded (collapse 0 t) := by
  have hlines : ∀ ls : List Text, ∀ done, LineStart done → Guarded (done ++ terminated ls) →
      Guarded (done ++ terminated (ls.filter isVisible)) := by
    intro ls
    induction ls with
    | nil => exact fun _ _ hdone => hdone
    | cons line more ih =>
      intro done hstart hdone
      rw [terminated_cons] at hdone
      cases hvisible : isVisible line with
      | true =>
        rw [List.filter_cons_of_pos hvisible, terminated_cons]
        have hnext : LineStart (done ++ line ++ ['\n']) := fun c hc => by
          rw [List.getLast?_concat] at hc
          exact (Option.some.inj hc).symm
        have hrest := ih (done ++ line ++ ['\n']) hnext (by simpa using hdone)
        simpa using hrest
      | false =>
        rw [List.filter_cons_of_neg (by simp [hvisible])]
        have hblank : ∀ c ∈ line ++ ['\n'], isBlank c = true := by
          rw [isVisible, Bool.not_eq_false', List.all_eq_true] at hvisible
          refine List.forall_mem_append.2 ⟨fun c hc => isBlank_of_isSpaceTab (hvisible c hc), ?_⟩
          exact List.forall_mem_singleton.2 (by decide)
        exact ih done hstart (Guarded.remove_blanks hstart hblank (by simpa using hdone))
  have hfeed : ∀ c ∈ ['\n'], isBlank c = true := List.forall_mem_singleton.2 (by decide)
  have hvisible : Guarded ([] ++ terminated ((lines t).filter isVisible)) :=
    hlines (lines t) [] lineStart_nil (by rw [List.nil_append, terminated_lines]; exact h.append_blanks hfeed)
  rw [collapse_zero, visibleLines]
  by_cases hnone : (lines t).filter isVisible = []
  · rw [hnone] at hvisible ⊢
    exact hvisible
  · rw [List.nil_append, terminated_eq_unlines_append hnone] at hvisible
    exact hvisible.of_append_blanks hfeed

/-! ## Whole passes -/

/-- Erasing removes matches one after the other. -/
theorem Guarded.erase {pattern : Pattern} (hpattern : ∀ a before t, pattern before t ≠ 0 → StartsRemoval a t)
    {t : Text} (h : Guarded t) : Guarded (erase pattern t) := by
  have hrun : ∀ done, Guarded (done ++ t) → Guarded (done ++ Text.erase pattern t) := by
    refine erase_induct (P := fun t u => ∀ done, Guarded (done ++ t) → Guarded (done ++ u)) ?_ ?_ ?_ t
    · exact fun _ hdone => hdone
    · intro before c rest u _ ih done hdone
      rw [List.append_cons] at hdone ⊢
      exact ih (done ++ [c]) hdone
    · intro before t n u hmatch ih done hdone
      have hstarts := hpattern done before t (hmatch ▸ Nat.succ_ne_zero n)
      rw [← List.take_append_drop (n + 1) t] at hdone hstarts
      exact ih done (hdone.remove hstarts)
  exact hrun [] h

theorem startsRemoval_directive (a : Text) (before : Option Char) (t : Text) (h : directive before t ≠ 0) :
    StartsRemoval a t := by
  obtain ⟨s, c, rest, hs, hc, rfl⟩ := (directive_ne_zero_iff before t).1 h
  obtain ⟨blank, more, rfl, hblank⟩ := hs.exists_cons
  refine .directive ⟨blank, rfl, hblank⟩ ?_
  rw [skipBlanks_append hs.2 (stopsAt_cons (by decide) (c :: rest))]
  rfl

theorem startsRemoval_namedSpread (a : Text) (before : Option Char) (t : Text) (h : namedSpread before t ≠ 0) :
    StartsRemoval a t := by
  obtain ⟨s, name, rest, rfl, -⟩ := (namedSpread_ne_zero_iff before t).1 h
  exact .spread rfl

theorem startsRemoval_variableDefinitions (a : Text) (before : Option Char) (t : Text)
    (h : variableDefinitions before t ≠ 0) : StartsRemoval a t := by
  obtain ⟨rest, hrest, -⟩ := skipping_ne_zero_iff.1 h
  obtain ⟨inside, hinside, -⟩ := Option.bind_eq_some_iff.1 hrest
  obtain rfl := skipChar?_eq_some_iff.1 hinside
  exact .bracket rfl

theorem Guarded.eraseFirst? {t u : Text} (h : Guarded t) (hfirst : eraseFirst? fragmentDefinition t = some u) :
    Guarded u := by
  obtain ⟨a, b, n, rfl, hb, hmatch, rfl⟩ := exists_of_eraseFirstFrom? hfirst
  rw [Option.or_none] at hmatch
  obtain ⟨hboundary, hstarts⟩ := (fragmentDefinition_ne_zero_iff a.getLast? b).1 (hmatch ▸ Nat.succ_ne_zero n)
  have hkeyword := hstarts.exists_blank
  rw [← List.take_append_drop (n + 1) b] at h hkeyword
  exact h.remove (.definition hkeyword hboundary)

theorem Guarded.eraseFragments {t : Text} (h : Guarded t) (fuel : Nat) : Guarded (eraseFragments fuel t) := by
  induction fuel generalizing t with
  | zero => exact h
  | succ fuel ih =>
    rw [Extraction.eraseFragments]
    split
    · next hfirst => exact ih (h.eraseFirst? hfirst)
    · exact h

theorem Guarded.tidy {t u : Text} (h : Guarded u) : Guarded (tidy 0 t u) := by
  rw [Extraction.tidy]
  split
  · exact h
  · exact h.collapse

theorem Guarded.stripDirectives {t : Text} (h : Guarded t) : Guarded (stripDirectives t) :=
  (h.erase startsRemoval_directive).tidy

theorem Guarded.stripFragments {t : Text} (h : Guarded t) : Guarded (stripFragments t) :=
  ((h.eraseFragments t.length).erase startsRemoval_namedSpread).tidy

end SnippetAudit.Extraction
