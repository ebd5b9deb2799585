import SnippetAudit.Proofs.Extraction.Guarded
import SnippetAudit.Proofs.Extraction.Idempotence

/-!
# Strict texts hold no signs

Strict cleaning removes the directives and the variables of an operation. It knows them by their signs, each with the
name directly behind it, and a directive by the blank in front of it besides. Where all signs of a text stand like
that, the first round removes them. What a round has removed does not come back, since all passes only delete.

## What this module delivers

- `bare`: what the first passes leave of a text;
- `SignsDirectives`, `SignsVariables`: texts in which all signs are followed by names;
- `WellSpaced`: a layout in which strict cleaning finds the signs;
- `not_mem_erase_directive`, `not_mem_stripVariables`: the passes that remove the signs;
- `not_mem_extract_of_guarded`: strict cleaning leaves no sign.
-/

set_option autoImplicit false

namespace SnippetAudit.Extraction

open Text

/-- The text without blanks around it, without a fence and without comment lines. -/
def bare (t : Text) : Text := stripHashComments (stripFences (Text.trim (unixNewlines t)))

/-- Every sign of a directive has a blank directly in front of it and a name directly behind it. -/
def SignsDirectives (t : Text) : Prop :=
  ∀ a b, t = a ++ '@' :: b → (∃ c ∈ a.getLast?, isBlank c = true) ∧ ∃ c ∈ b.head?, isWord c = true

/-- Every sign of a variable has a name directly behind it. -/
def SignsVariables (t : Text) : Prop := ∀ a b, t = a ++ '$' :: b → ∃ c ∈ b.head?, isWord c = true

/-- A line ends behind each hash sign, so that what stands behind the text is in no comment. -/
def LeavesComments (t : Text) : Prop := ∀ a b, t = a ++ '#' :: b → ∃ c ∈ b, c = '\n' ∨ c = '\r'

theorem leavesComments_nil : LeavesComments [] := fun a b heq => absurd heq (by simp)

theorem LeavesComments.of_append {t u : Text} (h : LeavesComments (t ++ u)) : LeavesComments u := by
  rintro a b rfl
  exact h (t ++ a) b (by simp)

/-- No removal starts behind the sign of a variable that stands in front of the text, up to the next sign. -/
def GuardsSign (t : Text) : Prop := ∀ a b, t = a ++ b → '$' ∉ a → ∀ s ∈ stageAt (some .sign) a, s.Guards b

/-- A layout in which strict cleaning finds the signs of an operation. -/
structure WellSpaced (t : Text) : Prop where
  directive_signs : SignsDirectives t
  variable_signs : SignsVariables t
  /-- What stands behind the signs in comments is not known from the tokens. -/
  comments : ∀ a b, t = a ++ '$' :: b → ¬ LeavesComments a → GuardsSign b
  /-- No variable is called like the keyword of a definition, and no start of that word follows a variable, unless the
  word ends firmly. -/
  words : ∀ a b, t = a ++ b → ∀ s ∈ stageAt none a, s.Allows b

/-! ## Deciding the layout -/

/-- What holds of a text at all of its places is decided by going through them. -/
theorem forall_append_iff {t : Text} {P : Text → Text → Prop} :
    (∀ a b, t = a ++ b → P a b) ↔ ∀ n ∈ List.range (t.length + 1), P (t.take n) (t.drop n) := by
  constructor
  · exact fun h n _ => h _ _ (List.take_append_drop n t).symm
  · rintro h a b rfl
    have hlength : a.length ∈ List.range ((a ++ b).length + 1) := by
      rw [List.mem_range, List.length_append]
      omega
    have hsplit := h a.length hlength
    rwa [List.take_left, List.drop_left] at hsplit

instance (t : Text) (P : Text → Text → Prop) [∀ a b, Decidable (P a b)] :
    Decidable (∀ a b, t = a ++ b → P a b) :=
  decidable_of_iff (((List.range (t.length + 1)).all fun n => P (t.take n) (t.drop n)) = true) <| by
    rw [forall_append_iff, List.all_eq_true]
    simp only [decide_eq_true_eq]

theorem forall_append_cons_iff {t : Text} {c : Char} {P : Text → Text → Prop} :
    (∀ a b, t = a ++ c :: b → P a b) ↔ ∀ a b, t = a ++ b → b.head? = some c → P a b.tail := by
  constructor
  · intro h a b heq hb
    obtain ⟨rest, rfl⟩ := List.head?_eq_some_iff.1 hb
    exact h a rest heq
  · exact fun h a b heq => h a (c :: b) heq rfl

instance (t : Text) (c : Char) (P : Text → Text → Prop) [∀ a b, Decidable (P a b)] :
    Decidable (∀ a b, t = a ++ c :: b → P a b) :=
  decidable_of_iff _ forall_append_cons_iff.symm

instance (b : Text) : Decidable (EndsFirmly b) :=
  decidable_of_iff ((b.dropWhile isWord).head?.any (fun c => !isBlank c && c != '.' && c != '(') = true)
    (by simp [EndsFirmly, Option.any_eq_true, and_assoc])

instance (s : Stage) (b : Text) : Decidable (s.Allows b) :=
  match s with
  | .sign => inferInstanceAs (Decidable (b.takeWhile isWord = "fragment".toList → EndsFirmly b))
  | .name => isTrue trivial
  | .gap | .colon =>
    inferInstanceAs (Decidable (b.takeWhile isWord <+: "fragment".toList → b.takeWhile isWord = [] ∨ EndsFirmly b))

instance (s : Stage) (b : Text) : Decidable (s.Guards b) :=
  decidable_of_iff ((skipBlanks b).head? ≠ some '@' ∧ b.head? ≠ some '.' ∧ b.head? ≠ some '(' ∧ s.Allows b ∧
      (s = .sign → b.head?.any isWord = true) ∧ (s = .colon → b.head? ≠ some '$')) <| by
    simp only [Option.any_eq_true]
    exact ⟨fun ⟨hdirective, hspread, hbracket, hallows, hnamed, hargument⟩ =>
        ⟨hdirective, hspread, hbracket, hallows, hnamed, hargument⟩,
      fun h => ⟨h.no_directive, h.no_spread, h.no_bracket, h.allows, h.named, h.no_argument⟩⟩

instance (t : Text) : Decidable (SignsDirectives t) :=
  decidable_of_iff (∀ a b, t = a ++ '@' :: b → a.getLast?.any isBlank = true ∧ b.head?.any isWord = true)
    (by simp only [SignsDirectives, Option.any_eq_true, Option.mem_def])

instance (t : Text) : Decidable (SignsVariables t) :=
  decidable_of_iff (∀ a b, t = a ++ '$' :: b → b.head?.any isWord = true)
    (by simp only [SignsVariables, Option.any_eq_true, Option.mem_def])

instance (t : Text) : Decidable (LeavesComments t) :=
  decidable_of_iff (∀ a b, t = a ++ '#' :: b → (b.any fun c => c == '\n' || c == '\r') = true)
    (by simp only [LeavesComments, List.any_eq_true, Bool.or_eq_true, beq_iff_eq])

instance (t : Text) : Decidable (GuardsSign t) :=
  inferInstanceAs (Decidable (∀ a b, t = a ++ b → '$' ∉ a → ∀ s ∈ stageAt (some .sign) a, s.Guards b))

instance (t : Text) : Decidable (WellSpaced t) :=
  decidable_of_iff (SignsDirectives t ∧ SignsVariables t ∧
      (∀ a b, t = a ++ '$' :: b → ¬ LeavesComments a → GuardsSign b) ∧
      ∀ a b, t = a ++ b → ∀ s ∈ stageAt none a, s.Allows b)
    ⟨fun ⟨hdirectives, hvariables, hcomments, hwords⟩ => ⟨hdirectives, hvariables, hcomments, hwords⟩,
      fun h => ⟨h.directive_signs, h.variable_signs, h.comments, h.words⟩⟩

/-! ## Directives -/

/-- Where all signs of directives are like that, all of them go. -/
theorem not_mem_erase_directive {t : Text} (h : SignsDirectives t) : '@' ∉ erase directive t := by
  refine erase_induct (P := fun t u => SignsDirectives t → '@' ∉ u) (fun _ => List.not_mem_nil) ?_ ?_ t h
  · intro before c rest u hzero ih h
    have hc : '@' ≠ c := by
      rintro rfl
      obtain ⟨⟨d, hd, -⟩, -⟩ := h [] rest rfl
      cases hd
    refine List.not_mem_cons_of_ne_of_not_mem hc (ih fun a b heq => ?_)
    subst heq
    obtain ⟨hblank, hword⟩ := h (c :: a) b rfl
    cases a with
    | cons d more => exact ⟨hblank, hword⟩
    | nil =>
      -- the blank that stays would be the start of a directive
      obtain ⟨d, hd, hisBlank⟩ := hblank
      obtain rfl : c = d := Option.some.inj hd
      obtain ⟨w, hw, hisWord⟩ := hword
      obtain ⟨more, rfl⟩ := List.head?_eq_some_iff.1 (Option.mem_def.1 hw)
      exact absurd hzero ((directive_ne_zero_iff before _).2 ⟨[c], w, more, run_singleton hisBlank, hisWord, rfl⟩)
  · intro before t n u hmatch ih h
    obtain ⟨m, hm, hdirective⟩ := exists_of_directive hmatch
    generalize t.drop (n + 1) = rest at hm ih
    subst hm
    refine ih fun a b heq => ?_
    subst heq
    obtain ⟨⟨c, hc, hblank⟩, hword⟩ := h (m ++ a) b (by simp)
    refine ⟨⟨c, ?_, hblank⟩, hword⟩
    rw [List.getLast?_append] at hc
    cases hlast : a.getLast? with
    | some d => rwa [hlast] at hc
    | none =>
      rw [hlast, Option.none_or] at hc
      rw [hdirective.isBlank_getLast? c hc] at hblank
      cases hblank

theorem not_mem_tidy {c : Char} {u : Text} (h : c ∉ u) (maxBlank : Nat) (t : Text) : c ∉ tidy maxBlank t u := by
  rw [tidy]
  split
  · exact h
  · exact fun hmem => h ((collapse_sublist maxBlank u).subset hmem)

/-! ## Variables -/

/-- The end of a name, a colon and the blanks around it lead from the sign to the last stage. -/
theorem stageAt_argument {name s s' : Text} (hname : Run isWord name) (hs : ∀ c ∈ s, isBlank c = true)
    (hs' : ∀ c ∈ s', isBlank c = true) : stageAt (some .sign) (name ++ (s ++ ':' :: s')) = some .colon := by
  have hcolon : stageAt (stageAt (some .name) s) [':'] = some .colon := by
    by_cases hne : s = []
    · rw [hne]
      rfl
    · rw [stageAt_blanks hne hs]
      rfl
  rw [stageAt_append, stageAt_word hname (Or.inl rfl), stageAt_append, ← List.singleton_append, stageAt_append, hcolon]
  by_cases hne : s' = []
  · rw [hne]
    rfl
  · exact stageAt_blanks hne hs' _

/-- Where no argument starts behind a sign, removing arguments takes no name from its sign. -/
theorem signsVariables_erase {t : Text} (h : Guarded t) : SignsVariables (erase variableArgument t) := by
  have hrun : ∀ front, Guarded (front ++ t) → SignsVariables (erase variableArgument t) ∧
      (stageAt none front = some .sign → ∃ c ∈ (erase variableArgument t).head?, isWord c = true) := by
    refine erase_induct (P := fun t u => ∀ front, Guarded (front ++ t) → SignsVariables u ∧
      (stageAt none front = some .sign → ∃ c ∈ u.head?, isWord c = true)) ?_ ?_ ?_ t
    · intro front hfront
      exact ⟨fun a b heq => absurd heq (by simp), fun hsign => (hfront front [] .sign rfl hsign).named rfl⟩
    · intro before c rest u _ ih front hfront
      have hguards := hfront front (c :: rest)
      rw [List.append_cons] at hfront
      obtain ⟨hrest, hnext⟩ := ih (front ++ [c]) hfront
      refine ⟨fun a b heq => ?_, fun hsign => (hguards .sign rfl hsign).named rfl⟩
      cases a with
      | nil =>
        obtain ⟨rfl, rfl⟩ := List.cons.inj heq
        exact hnext (by rw [stageAt_append]; rfl)
      | cons d more =>
        obtain ⟨rfl, rfl⟩ := List.cons.inj heq
        exact hrest more b rfl
    · intro before t n u hmatch ih front hfront
      obtain ⟨m, hm, name, s, s', value, rfl, hname, hs, hs'⟩ := exists_of_variableArgument hmatch
      rw [hm, ← List.append_assoc] at hfront
      refine ⟨(ih _ hfront).1, fun hsign => ?_⟩
      -- the sign of the argument's value would stand behind the colon of a variable
      have hstage : stageAt none (front ++ (name ++ (s ++ ':' :: s'))) = some .colon := by
        rw [stageAt_append, hsign, stageAt_argument hname hs hs']
      exact absurd rfl ((hfront _ ('$' :: (value ++ t.drop (n + 1))) .colon (by simp) hstage).no_argument rfl)
  exact (hrun [] h).1

/-- Where every sign of a variable has a name behind it, all of them go. -/
theorem not_mem_erase_variableReference {t : Text} (h : SignsVariables t) : '$' ∉ erase variableReference t := by
  refine erase_induct (P := fun t u => SignsVariables t → '$' ∉ u) (fun _ => List.not_mem_nil) ?_ ?_ t h
  · intro before c rest u hzero ih h
    refine List.not_mem_cons_of_ne_of_not_mem ?_ (ih fun a b heq => h (c :: a) b (by rw [heq]; rfl))
    rintro rfl
    obtain ⟨w, hw, hword⟩ := h [] rest rfl
    obtain ⟨more, rfl⟩ := List.head?_eq_some_iff.1 (Option.mem_def.1 hw)
    exact absurd hzero ((variableReference_ne_zero_iff before _).2 ⟨w, more, rfl, hword⟩)
  · intro before t n u _ ih h
    refine ih fun a b heq => h (t.take (n + 1) ++ a) b ?_
    rw [List.append_assoc, ← heq, List.take_append_drop]

/-- Where no removal starts behind a variable, no sign of a variable is left. -/
theorem not_mem_stripVariables {t : Text} (h : Guarded t) : '$' ∉ stripVariables t := by
  have hreferences := not_mem_erase_variableReference (signsVariables_erase (h.erase startsRemoval_variableDefinitions))
  exact not_mem_tidy (fun hmem => hreferences ((erase_sublist emptyArguments _).subset hmem)) 0 t

/-! ## Rounds -/

theorem passes_graphqlStrict : passes graphqlStrict =
    [.trim, .fences, .graphqlComments, .graphqlDirectives, .graphqlFragments, .graphqlVariables, .trim] := rfl

theorem round_graphqlStrict (t : Text) : round (passes graphqlStrict) t =
    Text.trim (stripVariables (stripFragments (stripDirectives
      (stripHashComments (stripFences (Text.trim t)))))) := by
  rw [passes_graphqlStrict, round]
  simp only [List.foldl_cons, List.foldl_nil, Pass.run]

/-- What the first round leaves is all that can be left in the end. -/
theorem extract_sublist_round (o : Options) (t : Text) :
    (extract o t).Sublist (round (passes o) (unixNewlines t)) := by
  rw [extract]
  cases hlength : (unixNewlines t).length with
  | zero =>
    rw [List.length_eq_zero_iff.1 hlength]
    exact List.nil_sublist _
  | succ fuel =>
    rw [settle]
    split
    · next heq =>
      rewrite [heq]
      exact List.Sublist.refl _
    · exact settle_sublist _ _ _

/-- If the signs stand as they should in a text from which the blanks, fences and comment lines are gone, strict
cleaning leaves none of them. -/
theorem not_mem_extract_of_guarded {t : Text} (hdirectives : SignsDirectives (bare t)) (hguarded : Guarded (bare t)) :
    '@' ∉ extract graphqlStrict t ∧ '$' ∉ extract graphqlStrict t := by
  have hround := extract_sublist_round graphqlStrict t
  rw [round_graphqlStrict, ← bare] at hround
  have htrim := hround.trans (trim_sublist _)
  have hsign : '@' ∉ stripDirectives (bare t) := not_mem_tidy (not_mem_erase_directive hdirectives) 0 _
  constructor
  · intro hmem
    have hvariables := htrim.trans (Pass.run_sublist .graphqlVariables _)
    exact hsign ((hvariables.trans (Pass.run_sublist .graphqlFragments _)).subset hmem)
  · exact fun hmem => not_mem_stripVariables hguarded.stripDirectives.stripFragments (htrim.subset hmem)

end SnippetAudit.Extraction
