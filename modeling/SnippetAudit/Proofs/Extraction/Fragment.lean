import SnippetAudit.Proofs.Extraction.Removal

/-!
# Fragment definitions between other text

A fragment definition is a head and a body in braces, which may hold more braces as long as they are balanced.
Definitions stand at the start of a text, behind a blank, or directly behind one another, with other text between
them that does not hold the keyword. Removing takes away the first definition, and then looks again at the text that
is left. What stands in front of the next definition is then other text alone. It ends in a blank, so no keyword
starts in it and ends in the definition. So the definitions go one by one, and the other text is left.

## What this module delivers

- `Balanced`, `skipBody_append`: bodies, and the brace that closes one;
- `WrittenFragment`, `interleaved`: definitions as they are written, with other text between them;
- `HoldsWord`: texts with a word in them;
- `eraseFirst?_text`: the first definition is found and goes as a whole;
- `eraseFragments_interleaved`: all of them go;
- `stripFragments_interleaved`: the other text is what is left, with its blank lines collapsed.
-/

set_option autoImplicit false

namespace SnippetAudit.Extraction

open Text

/-! ## Bodies -/

/-- Every brace that opens is closed later, and every brace that closes was opened before. -/
inductive Balanced : Text → Prop where
  | nil : Balanced []
  | other {c : Char} {t : Text} (hopen : c ≠ '\x7b') (hclose : c ≠ '\x7d') (ht : Balanced t) : Balanced (c :: t)
  | braces {s t : Text} (hs : Balanced s) (ht : Balanced t) : Balanced ('\x7b' :: (s ++ '\x7d' :: t))

/-- A balanced text is read without a change in the number of open braces. -/
theorem skipBody_append {body : Text} (h : Balanced body) :
    ∀ (depth : Nat) (rest : Text), skipBody (depth + 1) (body ++ rest) = skipBody (depth + 1) rest := by
  induction h with
  | nil => exact fun _ _ => rfl
  | other hopen hclose _ ih =>
    intro depth rest
    rw [List.cons_append, skipBody, if_neg hopen, if_neg hclose, ih]
  | @braces s t _ _ ihs iht =>
    intro depth rest
    calc
      skipBody (depth + 1) ('\x7b' :: (s ++ '\x7d' :: t) ++ rest)
          = skipBody (depth + 2) (s ++ ('\x7d' :: (t ++ rest))) := by
            rw [List.cons_append, skipBody, if_pos rfl, List.append_assoc, List.cons_append]
      _ = skipBody (depth + 2) ('\x7d' :: (t ++ rest)) := ihs (depth + 1) _
      _ = skipBody (depth + 1) (t ++ rest) := by rw [skipBody, if_neg (by decide), if_pos rfl]
      _ = skipBody (depth + 1) rest := iht depth rest

/-! ## Definitions -/

/-- A fragment definition as it is written. -/
structure WrittenFragment where
  beforeName : Text
  name : Text
  beforeOn : Text
  beforeType : Text
  type : Text
  /-- What stands between the type and the brace that opens the body. -/
  behindType : Text
  body : Text
  beforeName_blank : Run isBlank beforeName
  name_word : Run isWord name
  beforeOn_blank : Run isBlank beforeOn
  beforeType_blank : Run isBlank beforeType
  type_word : Run isWord type
  behindType_apart : StopsAt isWord behindType
  behindType_braceless : '\x7b' ∉ behindType
  body_balanced : Balanced body

namespace WrittenFragment

/-- The head of a definition, with the brace that opens its body. -/
def head (f : WrittenFragment) : Text :=
  "fragment".toList ++ (f.beforeName ++ (f.name ++ (f.beforeOn ++ ("on".toList ++
    (f.beforeType ++ (f.type ++ (f.behindType ++ ['\x7b'])))))))

/-- The text of a definition. -/
def text (f : WrittenFragment) : Text := f.head ++ (f.body ++ ['\x7d'])

theorem text_ne_nil (f : WrittenFragment) : f.text ≠ [] :=
  List.append_ne_nil_of_right_ne_nil _ (List.append_ne_nil_of_right_ne_nil _ (List.cons_ne_nil _ _))

end WrittenFragment

theorem afterFirst?_of_not_mem {c : Char} {t : Text} (h : c ∉ t) (rest : Text) :
    afterFirst? [c] (t ++ c :: rest) = some rest := by
  induction t with
  | nil => simp [afterFirst?]
  | cons d more ih =>
    rw [List.mem_cons, not_or] at h
    have hprefix : [c].isPrefixOf (d :: (more ++ c :: rest)) = false := by
      rw [List.isPrefixOf, beq_eq_false_iff_ne.2 h.1, Bool.false_and]
    rw [List.cons_append, afterFirst?, hprefix, if_neg Bool.false_ne_true, ih h.2]

/-- Behind the head of a definition its body is read. -/
theorem skipFragmentHead?_head (f : WrittenFragment) (rest : Text) :
    skipFragmentHead? (f.head ++ rest) = some rest := by
  have hbrace : StopsAt isWord (f.behindType ++ '\x7b' :: rest) := by
    cases hbehind : f.behindType with
    | nil => exact stopsAt_cons (by decide) rest
    | cons c more => exact stopsAt_cons (f.behindType_apart c (by rw [hbehind]; rfl)) _
  have hhead : f.head ++ rest = "fragment".toList ++ (f.beforeName ++ (f.name ++ (f.beforeOn ++ ("on".toList ++
      (f.beforeType ++ (f.type ++ (f.behindType ++ '\x7b' :: rest))))))) := by
    unfold WrittenFragment.head
    simp only [List.append_assoc, List.singleton_append]
  rw [hhead]
  unfold skipFragmentHead?
  simp only [bind, Option.bind_eq_some_iff]
  exact ⟨_, skipKeyword?_append _ _,
    _, skipSome?_append f.beforeName_blank (f.name_word.stopsAt (fun _ => isBlank_of_isWord) _),
    _, skipSome?_append f.name_word (f.beforeOn_blank.stopsAt (fun _ => isWord_of_isBlank) _),
    _, skipSome?_append f.beforeOn_blank (run_on.stopsAt (fun _ => isBlank_of_isWord) _),
    _, skipKeyword?_append _ _,
    _, skipSome?_append f.beforeType_blank (f.type_word.stopsAt (fun _ => isBlank_of_isWord) _),
    _, skipSome?_append f.type_word hbrace, afterFirst?_of_not_mem f.behindType_braceless rest⟩

/-- A definition that stands at a boundary is matched from its keyword to the brace that closes its body. -/
theorem fragmentDefinition_text {before : Option Char} (hbefore : ∀ c ∈ before, isWord c = false)
    (f : WrittenFragment) (rest : Text) : fragmentDefinition before (f.text ++ rest) = f.text.length := by
  have hboundary : startsAtBoundary before = true := by
    cases before with
    | none => rfl
    | some c => simp [startsAtBoundary, hbefore c rfl]
  have hbody : skipBody 1 (f.body ++ '\x7d' :: rest) = rest := by
    rw [skipBody_append f.body_balanced, skipBody, if_neg (by decide), if_pos rfl, skipBody]
  have hskip : (skipFragmentHead? (f.text ++ rest)).map (skipBody 1) = some rest := by
    rw [WrittenFragment.text, List.append_assoc, skipFragmentHead?_head, Option.map_some, List.append_assoc,
      List.singleton_append, hbody]
  rw [fragmentDefinition, if_pos hboundary, skipping, hskip]
  simp [lengthBefore]

/-! ## Other text -/

/-- The text holds a word, and no word character stands on either side of it. -/
def HoldsWord (word t : Text) : Prop :=
  ∃ a b, t = a ++ word ++ b ∧ (∀ c ∈ a.getLast?, isWord c = false) ∧ StopsAt isWord b

/-- A word in a text that ends in a blank is a word in every text that goes on behind it. -/
theorem HoldsWord.append {word t : Text} (hword : ∀ c ∈ word.getLast?, isBlank c = false) (hne : word ≠ [])
    (ht : BehindBlank t) (h : HoldsWord word t) (rest : Text) : HoldsWord word (t ++ rest) := by
  obtain ⟨a, b, rfl, ha, hb⟩ := h
  refine ⟨a, b ++ rest, by simp, ha, ?_⟩
  cases b with
  | nil =>
    -- the text would end in the word
    have hc := List.getLast?_eq_some_getLast hne
    have hlast : (a ++ word ++ []).getLast? = some (word.getLast hne) := by
      rw [List.append_nil, List.getLast?_append, hc, Option.some_or]
    have hblank := ht _ hlast
    rw [hword _ hc] at hblank
    exact absurd hblank Bool.false_ne_true
  | cons c more => exact stopsAt_cons (hb c rfl) (more ++ rest)

theorem fragment_last : ∀ c ∈ "fragment".toList.getLast?, isBlank c = false :=
  fun _ hc => Option.some.inj hc ▸ by decide

/-- No definition starts in a text without the keyword. -/
theorem not_matchesIn_of_not_holdsWord {t : Text} (h : ¬ HoldsWord "fragment".toList t) :
    ¬ fragmentDefinition.MatchesIn t := by
  rw [matchesIn_fragmentDefinition_iff]
  rintro ⟨a, b, rfl, ha, hb⟩
  obtain ⟨c, rest, rfl, hc⟩ := hb.exists_blank
  exact h ⟨a, c :: rest, by simp, ha, stopsAt_cons (isWord_of_isBlank hc) rest⟩

/-- Where a text ends in a blank and does not hold the keyword, no definition starts in it, whatever stands behind
it. -/
theorem fragmentDefinition_eq_zero {u v : Text} (hv : v ≠ []) (hblank : BehindBlank (u ++ v))
    (hword : ¬ HoldsWord "fragment".toList (u ++ v)) (rest : Text) :
    fragmentDefinition u.getLast? (v ++ rest) = 0 := by
  by_cases hzero : fragmentDefinition u.getLast? (v ++ rest) = 0
  · exact hzero
  · obtain ⟨hu, hstarts⟩ := (fragmentDefinition_ne_zero_iff _ _).1 hzero
    obtain ⟨c, more, hmore, hc⟩ := hstarts.exists_blank
    have hprefix : "fragment".toList <+: v ++ rest := ⟨c :: more, hmore.symm⟩
    have hlast : isBlank (v.getLast hv) = true :=
      hblank _ (by rw [List.getLast?_append, List.getLast?_eq_some_getLast hv]; rfl)
    have hletters : "fragment".toList.all (fun c => !isBlank c) = true := by decide
    have hkeyword (c : Char) (hc : c ∈ "fragment".toList) : isBlank c = false := by
      simpa using List.all_eq_true.1 hletters c hc
    -- the keyword has no blank in it, so it does not go beyond the text
    have hbeyond : ¬ v <+: "fragment".toList := by
      intro h
      rw [hkeyword _ (h.subset (List.getLast_mem hv))] at hlast
      exact Bool.false_ne_true hlast
    obtain ⟨w, rfl⟩ :=
      (List.prefix_or_prefix_of_prefix hprefix (List.prefix_append v rest)).resolve_right hbeyond
    cases w with
    | nil => exact absurd (List.append_nil "fragment".toList ▸ List.prefix_rfl) hbeyond
    | cons d w =>
      rw [List.append_assoc, List.append_cancel_left_eq, List.cons_append, List.cons.injEq] at hmore
      obtain ⟨rfl, -⟩ := hmore
      exact absurd ⟨u, d :: w, by rw [List.append_assoc], hu, stopsAt_cons (isWord_of_isBlank hc) w⟩ hword

/-! ## Removing one definition -/

/-- The first match goes where nothing matches in front of it. -/
theorem eraseFirstFrom?_append {pattern : Pattern} {b : Text} (hb : b ≠ []) (a : Text) :
    ∀ {before : Option Char} {n : Nat},
      (∀ u v, a = u ++ v → v ≠ [] → pattern (u.getLast?.or before) (v ++ b) = 0) →
        pattern (a.getLast?.or before) b = n + 1 →
          eraseFirstFrom? pattern before (a ++ b) = some (a ++ b.drop (n + 1)) := by
  induction a with
  | nil =>
    intro before n _ hmatch
    obtain ⟨c, rest, rfl⟩ := List.exists_cons_of_ne_nil hb
    have hfirst : pattern before (c :: rest) = n + 1 := hmatch
    rw [List.nil_append, eraseFirstFrom?, hfirst]
    rfl
  | cons c a ih =>
    intro before n hnone hmatch
    have hfirst : pattern before (c :: (a ++ b)) = 0 := hnone [] (c :: a) rfl (List.cons_ne_nil c a)
    rw [getLast?_cons_or] at hmatch
    have hrest := ih (fun u v huv hv => ?_) hmatch
    · rw [List.cons_append, eraseFirstFrom?, hfirst, hrest]
      rfl
    · rw [← getLast?_cons_or c u before]
      exact hnone (c :: u) v (by rw [huv, List.cons_append]) hv

/-- A definition behind text without the keyword is the first one, and it goes as a whole. -/
theorem eraseFirst?_text {t : Text} (hblank : BehindBlank t) (hword : ¬ HoldsWord "fragment".toList t)
    (f : WrittenFragment) (rest : Text) :
    eraseFirst? fragmentDefinition (t ++ (f.text ++ rest)) = some (t ++ rest) := by
  have hbefore : ∀ c ∈ t.getLast?, isWord c = false := fun c hc => isWord_of_isBlank (hblank c hc)
  have hpos : f.text.length = (f.text.length - 1) + 1 :=
    (Nat.succ_pred_eq_of_pos (List.length_pos_iff.2 f.text_ne_nil)).symm
  have hmatch : fragmentDefinition (t.getLast?.or none) (f.text ++ rest) = (f.text.length - 1) + 1 := by
    rw [Option.or_none, fragmentDefinition_text hbefore, ← hpos]
  have hne : f.text ++ rest ≠ [] := List.append_ne_nil_of_left_ne_nil f.text_ne_nil rest
  rw [eraseFirst?, eraseFirstFrom?_append hne t _ hmatch, ← hpos, List.drop_left]
  rintro u v rfl hv
  rw [Option.or_none]
  exact fragmentDefinition_eq_zero hv hblank hword _

/-! ## Removing all definitions -/

/-- Definitions, each behind a piece of other text, and the other text behind the last one. -/
def interleaved : List (Text × WrittenFragment) → Text → Text
  | [], last => last
  | (t, f) :: rest, last => t ++ (f.text ++ interleaved rest last)

/-- The other text alone. -/
def otherText (pieces : List (Text × WrittenFragment)) (last : Text) : Text := pieces.flatMap Prod.fst ++ last

/-- Every definition has some length. -/
theorem length_interleaved (pieces : List (Text × WrittenFragment)) (last : Text) :
    (otherText pieces last).length + pieces.length ≤ (interleaved pieces last).length := by
  induction pieces with
  | nil => exact Nat.le_refl _
  | cons piece rest ih =>
    obtain ⟨t, f⟩ := piece
    have hpos := List.length_pos_iff.2 f.text_ne_nil
    simp only [otherText, interleaved, List.flatMap_cons, List.length_append, List.length_cons] at ih ⊢
    omega

theorem BehindBlank.append {s t : Text} (hs : BehindBlank s) (ht : BehindBlank t) : BehindBlank (s ++ t) := by
  intro c hc
  rw [Option.mem_def, List.getLast?_append, Option.or_eq_some_iff] at hc
  rcases hc with hc | ⟨-, hc⟩
  · exact ht c hc
  · exact hs c hc

/-- Where other text alone stands in front, all definitions go, and the other text is left. The induction takes the
text in front along, since what is left of a piece stands in front of the next definition. -/
theorem eraseFragments_interleaved (last : Text) (pieces : List (Text × WrittenFragment))
    (hblank : ∀ piece ∈ pieces, BehindBlank piece.1) :
    ∀ (front : Text) (fuel : Nat), BehindBlank front → pieces.length ≤ fuel →
      ¬ HoldsWord "fragment".toList (front ++ otherText pieces last) →
        eraseFragments fuel (front ++ interleaved pieces last) = front ++ otherText pieces last := by
  induction pieces with
  | nil =>
    intro front fuel _ _ hword
    have hnone := (eraseFirst?_eq_none_iff fragmentDefinition _).2 (not_matchesIn_of_not_holdsWord hword)
    cases fuel with
    | zero => rfl
    | succ fuel =>
      rw [otherText, List.flatMap_nil, List.nil_append] at hnone ⊢
      rw [interleaved, eraseFragments, hnone]
  | cons piece rest ih =>
    obtain ⟨t, f⟩ := piece
    intro front fuel hfront hfuel hword
    rw [List.forall_mem_cons] at hblank
    have hbefore : BehindBlank (front ++ t) := hfront.append hblank.1
    have hsplit : front ++ otherText ((t, f) :: rest) last = front ++ t ++ otherText rest last := by
      simp [otherText]
    rw [hsplit] at hword ⊢
    have hnone : ¬ HoldsWord "fragment".toList (front ++ t) := fun h =>
      hword (h.append fragment_last (by decide) hbefore _)
    have hfirst := eraseFirst?_text hbefore hnone f (interleaved rest last)
    rw [List.append_assoc] at hfirst
    cases fuel with
    | zero => exact absurd hfuel (Nat.not_succ_le_zero _)
    | succ fuel =>
      rw [interleaved, eraseFragments, hfirst]
      exact ih hblank.2 (front ++ t) fuel hbefore (Nat.le_of_succ_le_succ hfuel) hword

/-- Exactly the definitions go. What is left of a text with definitions, where each piece of other text in front of
one is empty or ends in a blank, is the other text with its blank lines collapsed, if it holds neither the keyword
nor three dots. -/
theorem stripFragments_interleaved (pieces : List (Text × WrittenFragment)) (last : Text) (hpieces : pieces ≠ [])
    (hblank : ∀ piece ∈ pieces, BehindBlank piece.1)
    (hword : ¬ HoldsWord "fragment".toList (otherText pieces last))
    (hdots : ¬ "...".toList <:+: otherText pieces last) :
    stripFragments (interleaved pieces last) = collapse 0 (otherText pieces last) := by
  have hlength := length_interleaved pieces last
  have hpos := List.length_pos_iff.2 hpieces
  have herase : eraseFragments (interleaved pieces last).length (interleaved pieces last) = otherText pieces last :=
    eraseFragments_interleaved last pieces hblank [] _ (fun _ hc => absurd hc (by simp)) (by omega) hword
  have hspreads : erase namedSpread (otherText pieces last) = otherText pieces last := by
    rw [erase_eq_self_iff, matchesIn_namedSpread_iff]
    rintro ⟨a, s, name, rest, htext, -⟩
    exact hdots ⟨a, s ++ name ++ rest, by rw [htext]; simp only [List.append_assoc]⟩
  rw [stripFragments, herase, hspreads, tidy, if_neg]
  intro heq
  rw [heq] at hlength
  omega

/-- A definition with braces in its body, and with a directive behind its type. -/
def cardFragment : WrittenFragment where
  beforeName := [' ']
  name := ['C', 'a', 'r', 'd']
  beforeOn := ['\n']
  beforeType := [' ']
  type := ['S', 'h', 'o', 'p']
  behindType := [' ', '@', 'a']
  body := ['b', '\x7b', 'c', '\x7b', '\x7d', '\x7d']
  beforeName_blank := ⟨by decide, List.all_eq_true.1 (by decide)⟩
  name_word := ⟨by decide, List.all_eq_true.1 (by decide)⟩
  beforeOn_blank := ⟨by decide, List.all_eq_true.1 (by decide)⟩
  beforeType_blank := ⟨by decide, List.all_eq_true.1 (by decide)⟩
  type_word := ⟨by decide, List.all_eq_true.1 (by decide)⟩
  behindType_apart := stopsAt_cons (by decide) _
  behindType_braceless := by decide
  body_balanced :=
    .other (by decide) (by decide) (.braces (s := ['c', '\x7b', '\x7d'])
      (.other (by decide) (by decide) (.braces .nil .nil)) .nil)

/-- Two definitions, one directly behind the other, go from behind an operation. -/
theorem stripFragments_interleaved_cards :
    let pieces := [(['\x7b', 'a', '\x7d', '\n', '\n'], cardFragment), ([], cardFragment)]
    pieces ≠ [] ∧ (∀ piece ∈ pieces, BehindBlank piece.1) ∧
      ¬ HoldsWord "fragment".toList (otherText pieces ['\n']) ∧ ¬ "...".toList <:+: otherText pieces ['\n'] ∧
      stripFragments (interleaved pieces ['\n']) = ['\x7b', 'a', '\x7d'] := by
  intro pieces
  have hpieces : pieces ≠ [] := List.cons_ne_nil _ _
  have hother : otherText pieces ['\n'] = ['\x7b', 'a', '\x7d', '\n', '\n', '\n'] := rfl
  have hblank : ∀ piece ∈ pieces, BehindBlank piece.1 := by
    intro piece hpiece
    simp only [pieces, List.mem_cons, List.not_mem_nil, or_false] at hpiece
    rcases hpiece with rfl | rfl
    · exact fun c hc => Option.some.inj hc ▸ by decide
    · exact fun c hc => absurd hc (by simp)
  have hword : ¬ HoldsWord "fragment".toList (otherText pieces ['\n']) := by
    rintro ⟨a, b, htext, -⟩
    have hlength := congrArg List.length htext
    simp only [hother, List.length_append, String.length_toList, List.length_cons, List.length_nil] at hlength
    have hfragment : "fragment".length = 8 := rfl
    omega
  have hdots : ¬ "...".toList <:+: otherText pieces ['\n'] := by
    rw [hother]
    decide
  have hcollapse : collapse 0 (otherText pieces ['\n']) = ['\x7b', 'a', '\x7d'] := by
    rw [hother]
    decide
  refine ⟨hpieces, hblank, hword, hdots, ?_⟩
  rw [stripFragments_interleaved pieces ['\n'] hpieces hblank hword hdots, hcollapse]

end SnippetAudit.Extraction
