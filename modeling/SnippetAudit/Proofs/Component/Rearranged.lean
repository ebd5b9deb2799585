import Mathlib.Data.List.Forall2
import SnippetAudit.Proofs.Component.Alike
import SnippetAudit.Proofs.Data.Pieces
import SnippetAudit.Proofs.Data.Sorted
import SnippetAudit.Proofs.Schema.Place

/-!
# Attributes in another order

The failures of attributes are sorted by place, so those inside the attributes come in an order that does not depend
on that of the attributes. Those of the attributes as a whole keep the order in which the keywords tell them. The
keywords go by the document, but for the expressions for names: these go by the attributes. A part under the
subschema `false` fails as the whole, so under an expression with that subschema the violations come in the order of
the attributes, and there alone.

## What this module delivers

- `Rearranged`: failures that are the same but for what they say about the attributes as a whole;
- `filter_keywordFailures`, `rearranged_keywordFailures`, `rearranged_failures`: the failures of attributes in another
  order, under each keyword and under a whole document;
- `filter_isWhole_failures_eq_iff`: when those of the attributes as a whole are the same;
- `violations_rearranged`: what attributes in another order violate.
-/

set_option autoImplicit false

namespace SnippetAudit.Component

open Schema

variable {a b : Members Value}

/-! ## Attributes in another order -/

theorem depth_eq_of_perm (hperm : a.Perm b) : Value.depth (.object a) = Value.depth (.object b) := by
  have hmembers : Value.depthMembers a = Value.depthMembers b := by
    induction hperm with
    | nil => rfl
    | cons pair _ ih => rw [Value.depthMembers, Value.depthMembers, ih]
    | swap pair other rest =>
      simp only [Value.depthMembers]
      exact Nat.max_left_comm _ _ _
    | trans _ _ ih ih' => exact ih.trans ih'
  rw [Value.depth, Value.depth, hmembers]

/-! ## Failures -/

/-- The failures are the same, or both stand at the attributes as a whole and differ in what they say. -/
def Kin (f g : Failure) : Prop := f = g ∨ ∃ message message', f = .here message ∧ g = .here message'

theorem forall₂_kin_map {α : Type} (message : α → String) : ∀ {xs ys : List α}, xs.length = ys.length →
    List.Forall₂ Kin (xs.map fun x => .here (message x)) (ys.map fun y => .here (message y))
  | [], [], _ => .nil
  | x :: _, y :: _, h => .cons (Or.inr ⟨message x, message y, rfl, rfl⟩) (forall₂_kin_map message (Nat.succ.inj h))

/-- The failures are the same in each attribute, and akin at the attributes as a whole. -/
structure Rearranged (fs gs : List Failure) : Prop where
  whole : List.Forall₂ Kin (fs.filter Failure.isWhole) (gs.filter Failure.isWhole)
  part : ∀ name, fs.filter (Failure.startsWith name) = gs.filter (Failure.startsWith name)

namespace Rearranged

variable {fs fs' gs gs' : List Failure}

theorem refl (fs : List Failure) : Rearranged fs fs := ⟨List.forall₂_same.2 fun _ _ => Or.inl rfl, fun _ => rfl⟩

theorem append (h : Rearranged fs gs) (h' : Rearranged fs' gs') : Rearranged (fs ++ fs') (gs ++ gs') where
  whole := by
    rw [List.filter_append, List.filter_append]
    exact List.rel_append h.whole h'.whole
  part name := by rw [List.filter_append, List.filter_append, h.part, h'.part]

theorem flatMap {α : Type} {xs : List α} {judge judge' : α → List Failure}
    (h : ∀ x ∈ xs, Rearranged (judge x) (judge' x)) : Rearranged (xs.flatMap judge) (xs.flatMap judge') := by
  induction xs with
  | nil => exact refl []
  | cons x more ih =>
    rw [List.forall_mem_cons] at h
    exact h.1.append (ih h.2)

end Rearranged

/-- Failures in parts are those of the part that a name leads to. -/
theorem filter_startsWith_flatMap {α : Type} (key : α → String) (judge : α → List Failure)
    (hjudge : ∀ x, ∀ f ∈ judge x, f.isWhole = true ∨ f.pathTexts.head? = some (key x)) (xs : List α)
    (name : String) : (xs.flatMap judge).filter (Failure.startsWith name) =
      ((xs.filter fun x => key x == name).flatMap judge).filter (Failure.startsWith name) := by
  induction xs with
  | nil => rfl
  | cons x rest ih =>
    rw [List.flatMap_cons, List.filter_append, ih, List.filter_cons]
    split
    · rw [List.flatMap_cons, List.filter_append]
    · next hx =>
      have hnone : (judge x).filter (Failure.startsWith name) = [] := by
        rw [List.filter_eq_nil_iff]
        intro f hf hstarts
        rw [Failure.startsWith, beq_iff_eq] at hstarts
        rcases hjudge x f hf with hwhole | hhead
        · rw [Failure.isWhole_iff] at hwhole
          rw [Failure.pathTexts, hwhole] at hstarts
          exact absurd hstarts (by simp)
        · rw [hhead, Option.some_inj] at hstarts
          exact hx (beq_iff_eq.2 hstarts)
      rw [hnone, List.nil_append]

/-- Where the parts have different names, the failures in one of them are the same in any order of the parts. -/
theorem filter_startsWith_eq_of_perm {α : Type} (key : α → String) (judge : α → List Failure)
    (hjudge : ∀ x, ∀ f ∈ judge x, f.isWhole = true ∨ f.pathTexts.head? = some (key x)) {xs ys : List α}
    (hperm : xs.Perm ys) (hnodup : (xs.map key).Nodup) (name : String) :
    (xs.flatMap judge).filter (Failure.startsWith name) = (ys.flatMap judge).filter (Failure.startsWith name) := by
  rw [filter_startsWith_flatMap key judge hjudge, filter_key_eq_of_perm key hperm hnodup,
    ← filter_startsWith_flatMap key judge hjudge]

/-! ## Parts of the attributes -/

/-- The message about a part under the subschema `false`. -/
def forbiddenText (v : Value) : String := "False schema does not allow " ++ shown v

/-- The subschema is `false`, which allows nothing. -/
def isForbidding : Value → Bool
  | .bool false => true
  | _ => false

theorem isForbidding_iff {schema : Value} : isForbidding schema = true ↔ schema = .bool false := by
  unfold isForbidding
  split
  · simp
  · next hne => simpa using hne

/-- What is used of judging by subschemas: `true` allows everything, and `false` nothing. -/
structure Decides (scope : Scope) : Prop where
  allows : ∀ v, scope.judge (.bool true) v = []
  forbids : ∀ v, scope.judge (.bool false) v = [.here (forbiddenText v)]

theorem decides_topScope (document attributes : Members Value) : Decides (topScope document (.object attributes)) := by
  -- the budget of a whole document is large enough to look into its parts
  obtain ⟨budget, hbudget⟩ : ∃ budget, budgetFor (.object document) (.object attributes) - 1 = budget + 1 := by
    refine Nat.exists_eq_succ_of_ne_zero ?_
    have hsize : 2 * 2 ≤ budgetFor (.object document) (.object attributes) := by
      rw [budgetFor, Value.size, Value.depth]
      exact Nat.mul_le_mul (by omega) (by omega)
    omega
  constructor <;> intro v <;> rw [topScope, hbudget] <;> rfl

section Parts

variable {scope : Scope} (hscope : Decides scope)

include hscope

/-- A part fails at the attributes as a whole only where it is forbidden. -/
theorem filter_isWhole_judgePart (name : String) (schema part : Value) :
    (scope.judgePart (.member name) schema part).filter Failure.isWhole =
      if isForbidding schema = true then [.here (forbiddenText part)] else [] := by
  unfold Scope.judgePart
  split
  · next b =>
    cases b with
    | true => rw [hscope.allows]; rfl
    | false => rw [hscope.forbids]; rfl
  · next hne =>
    have hfalse : ¬ isForbidding schema = true := fun h => hne false (isForbidding_iff.1 h)
    rw [if_neg hfalse, List.filter_eq_nil_iff]
    intro f hf
    obtain ⟨g, -, rfl⟩ := List.mem_map.1 hf
    exact Bool.false_ne_true

/-- All other failures of a part start with its name. -/
theorem head?_of_mem_judgePart {name : String} {schema part : Value} {f : Failure}
    (hf : f ∈ scope.judgePart (.member name) schema part) :
    f.isWhole = true ∨ f.pathTexts.head? = some name := by
  unfold Scope.judgePart at hf
  split at hf
  · next b =>
    cases b with
    | true => rw [hscope.allows] at hf; exact absurd hf List.not_mem_nil
    | false =>
      rw [hscope.forbids] at hf
      obtain rfl := List.mem_singleton.1 hf
      exact Or.inl rfl
  · obtain ⟨g, -, rfl⟩ := List.mem_map.1 hf
    exact Or.inr rfl

end Parts

/-! ## Keywords -/

section Keywords

variable {scope : Scope} {arg : Value}

theorem properties_eq_of_perm (scope : Scope) (arg : Value) (hperm : a.Perm b) (hnodup : a.names.Nodup) :
    properties scope arg (.object a) = properties scope arg (.object b) := by
  simp only [properties, Members.get?_eq_of_perm hperm hnodup]

theorem required_eq_of_perm (scope : Scope) (arg : Value) (hperm : a.Perm b) :
    required scope arg (.object a) = required scope arg (.object b) := by
  have hmember : hasMember a = hasMember b := by
    funext name
    rw [hasMember, hasMember, Members.has_eq_of_perm hperm]
  simp only [required, hmember]

theorem additionalNames_perm (schema : Members Value) (hperm : a.Perm b) :
    (additionalNames schema a).Perm (additionalNames schema b) := (hperm.map Prod.fst).filter _

theorem unreadableJoin?_eq_of_perm (schema : Members Value) (hperm : a.Perm b) :
    unreadableJoin? schema a = unreadableJoin? schema b := by
  have hnames (p : String → Bool) : a.names.any p = b.names.any p := (hperm.map Prod.fst).any_eq
  rw [unreadableJoin?, unreadableJoin?, hnames]

/-- The attributes that an expression is found in. -/
def found (expression : String) (attributes : Members Value) : Members Value :=
  attributes.filter fun pair => isFound expression pair.1

/-- An expression judges the attributes that it is found in. -/
theorem patternProperties_object (scope : Scope) (arg : Value) (attributes : Members Value) :
    patternProperties scope arg (.object attributes) = (membersOf arg).flatMap fun member =>
      (found member.1 attributes).flatMap fun pair => scope.judgePart (.member pair.1) member.2 pair.2 := rfl

theorem found_perm (expression : String) (hperm : a.Perm b) : (found expression a).Perm (found expression b) :=
  hperm.filter _

theorem nodup_found (expression : String) (hnodup : a.names.Nodup) : ((found expression a).map Prod.fst).Nodup :=
  hnodup.sublist (List.filter_sublist.map Prod.fst)

variable (hscope : Decides scope)

include hscope

/-- Under an expression, attributes fail as a whole where its subschema is `false`, and there each of them does. -/
theorem filter_isWhole_found (expression : String) (schema : Value) (attributes : Members Value) :
    ((found expression attributes).flatMap fun pair =>
        scope.judgePart (.member pair.1) schema pair.2).filter Failure.isWhole =
      if isForbidding schema = true then (found expression attributes).map fun pair => .here (forbiddenText pair.2)
      else [] := by
  simp only [List.filter_flatMap, filter_isWhole_judgePart hscope]
  split
  · exact List.map_eq_flatMap.symm
  · exact List.flatMap_eq_nil_iff.2 fun _ _ => rfl

theorem rearranged_found (expression : String) (schema : Value) (hperm : a.Perm b) (hnodup : a.names.Nodup) :
    Rearranged
      ((found expression a).flatMap fun pair => scope.judgePart (.member pair.1) schema pair.2)
      ((found expression b).flatMap fun pair => scope.judgePart (.member pair.1) schema pair.2) where
  whole := by
    rw [filter_isWhole_found hscope, filter_isWhole_found hscope]
    split
    · exact forall₂_kin_map _ (found_perm expression hperm).length_eq
    · exact .nil
  part := filter_startsWith_eq_of_perm Prod.fst _ (fun _ _ hf => head?_of_mem_judgePart hscope hf)
    (found_perm expression hperm) (nodup_found expression hnodup)

/-- Additional attributes fail in the same way in each attribute and as a whole, where their names are told in
order. -/
theorem filter_judgeExtras (hperm : a.Perm b) (hnodup : a.names.Nodup) {extras extras' : List String}
    (hextras : extras.Perm extras') (hdistinct : extras.Nodup) :
    (judgeExtras scope arg a extras).filter Failure.isWhole = (judgeExtras scope arg b extras').filter Failure.isWhole ∧
      ∀ name, (judgeExtras scope arg a extras).filter (Failure.startsWith name) =
        (judgeExtras scope arg b extras').filter (Failure.startsWith name) := by
  unfold judgeExtras
  split
  · simp only [← Members.get?_eq_of_perm hperm hnodup]
    refine ⟨?_, filter_startsWith_eq_of_perm id _ (fun _ _ hf => head?_of_mem_judgePart hscope hf) hextras
      (by rw [List.map_id]; exact hdistinct)⟩
    -- a schema object is not `false`
    simp only [List.filter_flatMap, filter_isWhole_judgePart hscope, isForbidding, Bool.false_eq_true, if_false]
    rw [List.flatMap_eq_nil_iff.2 fun _ _ => rfl, List.flatMap_eq_nil_iff.2 fun _ _ => rfl]
  · rw [Sorted.sortStrings_eq_of_perm hextras, hextras.isEmpty_eq]
    exact ⟨rfl, fun _ => rfl⟩
  · exact ⟨rfl, fun _ => rfl⟩

theorem filter_additionalProperties (hperm : a.Perm b) (hnodup : a.names.Nodup) :
    (additionalProperties scope arg (.object a)).filter Failure.isWhole =
        (additionalProperties scope arg (.object b)).filter Failure.isWhole ∧
      ∀ name, (additionalProperties scope arg (.object a)).filter (Failure.startsWith name) =
        (additionalProperties scope arg (.object b)).filter (Failure.startsWith name) := by
  unfold additionalProperties
  dsimp only
  rw [unreadableJoin?_eq_of_perm scope.siblings hperm]
  split
  · exact ⟨rfl, fun _ => rfl⟩
  · exact filter_judgeExtras hscope hperm hnodup (additionalNames_perm scope.siblings hperm)
      (hnodup.sublist List.filter_sublist)

end Keywords

/-! ## Documents -/

section Documents

variable {document : Members Value} (hplain : IsPlain document) (hperm : a.Perm b) (hnodup : a.names.Nodup)

include hplain hperm hnodup

/-- Under the keywords that go by the document, the failures are the same as a whole and in each attribute. -/
theorem filter_keywordFailures {scope : Scope} (hscope : Decides scope) {member : String × Value}
    (hmember : member ∈ document) (hkeyword : member.1 ≠ "patternProperties") :
    (keywordFailures scope (.object a) member).filter Failure.isWhole =
        (keywordFailures scope (.object b) member).filter Failure.isWhole ∧
      ∀ name, (keywordFailures scope (.object a) member).filter (Failure.startsWith name) =
        (keywordFailures scope (.object b) member).filter (Failure.startsWith name) := by
  obtain ⟨keyword, arg⟩ := member
  rcases hplain _ hmember with htype | hmembers
  · obtain ⟨rfl, rfl⟩ := Prod.mk.inj htype
    exact ⟨rfl, fun _ => rfl⟩
  · simp only [memberKeywords, List.mem_cons, List.not_mem_nil, or_false] at hmembers
    rcases hmembers with rfl | rfl | rfl | rfl
    · have heq : keywordFailures scope (.object a) ("properties", arg) =
          keywordFailures scope (.object b) ("properties", arg) := properties_eq_of_perm scope arg hperm hnodup
      rw [heq]
      exact ⟨rfl, fun _ => rfl⟩
    · exact absurd rfl hkeyword
    · have heq : keywordFailures scope (.object a) ("required", arg) =
          keywordFailures scope (.object b) ("required", arg) := required_eq_of_perm scope arg hperm
      rw [heq]
      exact ⟨rfl, fun _ => rfl⟩
    · exact filter_additionalProperties hscope hperm hnodup

theorem rearranged_keywordFailures {scope : Scope} (hscope : Decides scope) {member : String × Value}
    (hmember : member ∈ document) :
    Rearranged (keywordFailures scope (.object a) member) (keywordFailures scope (.object b) member) := by
  by_cases hkeyword : member.1 = "patternProperties"
  · obtain ⟨_, arg⟩ := member
    obtain rfl : _ = "patternProperties" := hkeyword
    exact Rearranged.flatMap fun pair _ => rearranged_found hscope pair.1 pair.2 hperm hnodup
  · obtain ⟨hwhole, hpart⟩ := filter_keywordFailures hplain hperm hnodup hscope hmember hkeyword
    exact ⟨by rw [hwhole]; exact List.forall₂_same.2 fun _ _ => Or.inl rfl, hpart⟩

end Documents

/-- Values that are equally deep are judged with the same budget. -/
theorem topScope_eq_of_perm (document : Members Value) (hperm : a.Perm b) :
    topScope document (.object a) = topScope document (.object b) := by
  rw [topScope, topScope, budgetFor, budgetFor, depth_eq_of_perm hperm]

/-- The failures of attributes in another order are the same in each attribute, and akin at the whole. -/
theorem rearranged_failures {document : Members Value} (hplain : IsPlain document) (hperm : a.Perm b)
    (hnodup : a.names.Nodup) :
    Rearranged (failures (.object document) (.object a)) (failures (.object document) (.object b)) := by
  rw [failures_object, failures_object, topScope_eq_of_perm document hperm]
  exact Rearranged.flatMap fun _ hmember =>
    rearranged_keywordFailures hplain hperm hnodup (decides_topScope document b) hmember

/-! ## The order at the attributes as a whole -/

/-- The values of the attributes that an expression is found in, as messages show them. -/
def shownFound (expression : String) (attributes : Members Value) : List String :=
  (found expression attributes).map fun pair => shown pair.2

theorem map_forbidden_eq_iff {xs ys : Members Value} :
    (xs.map fun pair => Failure.here (forbiddenText pair.2)) =
        (ys.map fun pair => Failure.here (forbiddenText pair.2)) ↔
      (xs.map fun pair => shown pair.2) = ys.map fun pair => shown pair.2 := by
  have hinjective : Function.Injective fun text : String => Failure.here ("False schema does not allow " ++ text) := by
    intro text text' heq
    have hmessage : "False schema does not allow " ++ text = "False schema does not allow " ++ text' :=
      congrArg Failure.message heq
    exact String.append_right_inj _ |>.1 hmessage
  have hmap (zs : Members Value) : (zs.map fun pair => Failure.here (forbiddenText pair.2)) =
      (zs.map fun pair => shown pair.2).map fun text => Failure.here ("False schema does not allow " ++ text) := by
    rw [List.map_map]
    rfl
  rw [hmap, hmap]
  exact hinjective.list_map.eq_iff

/-- Under the expressions, the failures at the attributes as a whole come in the same order exactly when the values
under each expression with the subschema `false` do. -/
theorem filter_isWhole_patternProperties_eq_iff {scope : Scope} (hscope : Decides scope) (arg : Value)
    (hperm : a.Perm b) :
    (patternProperties scope arg (.object a)).filter Failure.isWhole =
        (patternProperties scope arg (.object b)).filter Failure.isWhole ↔
      ∀ expression, (expression, .bool false) ∈ membersOf arg → shownFound expression a = shownFound expression b := by
  simp only [patternProperties_object, List.filter_flatMap, filter_isWhole_found hscope]
  rw [flatMap_eq_flatMap_iff]
  · constructor
    · intro h expression hmember
      exact map_forbidden_eq_iff.1 (h _ hmember)
    · intro h member hmember
      split
      · next hfalse =>
        refine map_forbidden_eq_iff.2 (h member.1 ?_)
        rw [← isForbidding_iff.1 hfalse]
        exact hmember
      · rfl
  · intro member _
    split
    · rw [List.length_map, List.length_map, (found_perm member.1 hperm).length_eq]
    · exact Nat.le_refl 0

/-- The failures at the attributes as a whole come in the same order exactly when the values under each expression
with the subschema `false` do. -/
theorem filter_isWhole_failures_eq_iff {document : Members Value} (hplain : IsPlain document) (hperm : a.Perm b)
    (hnodup : a.names.Nodup) :
    (failures (.object document) (.object a)).filter Failure.isWhole =
        (failures (.object document) (.object b)).filter Failure.isWhole ↔
      ∀ arg expression, ("patternProperties", arg) ∈ document → (expression, .bool false) ∈ membersOf arg →
        shownFound expression a = shownFound expression b := by
  have hscope := decides_topScope document b
  rw [failures_object, failures_object, topScope_eq_of_perm document hperm, List.filter_flatMap, List.filter_flatMap,
    flatMap_eq_flatMap_iff fun member hmember =>
      (rearranged_keywordFailures hplain hperm hnodup hscope hmember).whole.length_eq.le]
  constructor
  · intro h arg expression harg
    exact (filter_isWhole_patternProperties_eq_iff hscope arg hperm).1 (h _ harg) expression
  · intro h member hmember
    by_cases hkeyword : member.1 = "patternProperties"
    · obtain ⟨_, arg⟩ := member
      obtain rfl : _ = "patternProperties" := hkeyword
      exact (filter_isWhole_patternProperties_eq_iff hscope arg hperm).2 fun expression => h arg expression hmember
    · exact (filter_keywordFailures hplain hperm hnodup hscope hmember hkeyword).1

/-! ## Violations -/

/-- Failures that are akin are told by the same violations only if they are the same. -/
theorem violationsFrom_eq_iff (s : StructuralSchema) (attributes : Members Value) {fs gs : List Failure}
    (h : List.Forall₂ Kin fs gs) : ∀ reported,
      s.violationsFrom attributes reported fs = s.violationsFrom attributes reported gs ↔ fs = gs := by
  induction h with
  | nil => exact fun _ => iff_of_true rfl rfl
  | @cons f g fs gs hkin _ ih =>
    intro reported
    rcases hkin with rfl | ⟨message, message', rfl, rfl⟩
    · obtain ⟨told, reported', htold⟩ := StructuralSchema.exists_told s attributes reported f
      rw [htold, htold, List.append_cancel_left_eq, ih, List.cons_inj_right]
    · constructor
      · intro heq
        obtain ⟨hfirst, hrest⟩ := List.cons_eq_cons.1 heq
        have hmessage : message = message' := congrArg Violation.message hfirst
        rw [hmessage, (ih reported).1 hrest]
      · exact fun heq => congrArg _ heq

/-- The violations are those of the attributes as a whole, and then those in each attribute. -/
theorem violations_eq (s : StructuralSchema) (attributes : Members Value) : s.violations attributes =
    s.violationsFrom attributes []
        ((failures (.object s.effective) (.object attributes)).filter Failure.isWhole) ++
      (sortByPath ((failures (.object s.effective) (.object attributes)).filter fun f => !f.isWhole)).map
        Violation.ofFailure := by
  rw [StructuralSchema.violations, StructuralSchema.failures, sortByPath_eq_append,
    StructuralSchema.violationsFrom_append_of_parts]
  intro f hf
  simpa using (List.mem_filter.1 ((Sorted.mem_sortBy_iff _ f _).1 hf)).2

/-- Failures in the attributes are sorted alike in any order of the attributes. -/
theorem Rearranged.sortByPath_eq {fs gs : List Failure} (h : Rearranged fs gs) :
    sortByPath (fs.filter fun f => !f.isWhole) = sortByPath (gs.filter fun f => !f.isWhole) := by
  refine sortByPath_eq_of_head ?_ fun name => ?_
  · rw [List.filter_filter, List.filter_filter]
    simp
  · rw [List.filter_comm, h.part, List.filter_comm]

theorem mem_of_forall₂_kin {f : Failure} {fs gs : List Failure} (h : List.Forall₂ Kin fs gs)
    (hbroken : f.breakdown?.isSome = true) (hf : f ∈ fs) : f ∈ gs := by
  induction h with
  | nil => exact hf
  | @cons first other _ _ hkin _ ih =>
    rcases List.mem_cons.1 hf with rfl | hrest
    · rcases hkin with rfl | ⟨message, -, rfl, -⟩
      · exact List.mem_cons_self
      · exact absurd hbroken Bool.false_ne_true
    · exact List.mem_cons_of_mem other (ih hrest)

/-- A breakdown is come upon in any order of the attributes. -/
theorem Rearranged.mem_of_breakdown? {f : Failure} {fs gs : List Failure} (h : Rearranged fs gs)
    (hbroken : f.breakdown?.isSome = true) (hf : f ∈ fs) : f ∈ gs := by
  cases hhead : f.pathTexts.head? with
  | none =>
    rw [Failure.pathTexts, List.head?_eq_none_iff, List.map_eq_nil_iff] at hhead
    have hwhole := List.mem_filter.2 ⟨hf, Failure.isWhole_iff.2 hhead⟩
    exact (List.mem_filter.1 (mem_of_forall₂_kin h.whole hbroken hwhole)).1
  | some name =>
    have hpart := List.mem_filter.2 ⟨hf, show f.startsWith name = true from beq_iff_eq.2 hhead⟩
    rw [h.part] at hpart
    exact (List.mem_filter.1 hpart).1

theorem isSome_breakdown?_iff {s : StructuralSchema} {attributes : Members Value} :
    (s.breakdown? attributes).isSome = true ↔
      ∃ f ∈ failures (.object s.effective) (.object attributes), f.breakdown?.isSome = true := by
  rw [StructuralSchema.breakdown?, firstBreakdown?, List.findSome?_isSome_iff]

theorem mem_effective_of_mem {s : StructuralSchema} {pair : String × Value} (h : pair ∈ s.document)
    (hne : pair.1 ≠ "additionalProperties") : pair ∈ s.effective := by
  rw [StructuralSchema.effective]
  split
  · exact Members.mem_put_of_ne _ h hne
  · exact h

/-- Strict mode adds no expressions for names. -/
theorem patterns_of_effective {s : StructuralSchema} {arg : Value} :
    ("patternProperties", arg) ∈ s.effective ↔ ("patternProperties", arg) ∈ s.document := by
  refine ⟨fun h => ?_, fun h => mem_effective_of_mem h (by simp)⟩
  rcases mem_of_mem_effective h with heq | hmem
  · exact absurd (congrArg Prod.fst heq) (by simp)
  · exact hmem

/-! ## Whole contracts -/

/-- Attributes in another order can be judged exactly when they can be judged as they are. They violate the same in the
same order exactly when, under each expression for names with the subschema `false`, the values of the attributes that
it is found in are shown in the same order. -/
theorem violations_rearranged {s : StructuralSchema} (hplain : IsPlain s.document) (hperm : a.Perm b)
    (hnodup : a.names.Nodup) :
    (s.breakdown? a).isSome = (s.breakdown? b).isSome ∧
      (s.violations a = s.violations b ↔
        ∀ arg expression, ("patternProperties", arg) ∈ s.document → (expression, .bool false) ∈ membersOf arg →
          shownFound expression a = shownFound expression b) := by
  have hnodup' : b.names.Nodup := (hperm.map Prod.fst).nodup_iff.1 hnodup
  have heffective := isPlain_effective hplain
  have hrearranged := rearranged_failures heffective hperm hnodup
  have hrearranged' := rearranged_failures heffective hperm.symm hnodup'
  constructor
  · rw [Bool.eq_iff_iff, isSome_breakdown?_iff, isSome_breakdown?_iff]
    constructor
    · exact fun ⟨f, hf, hbroken⟩ => ⟨f, hrearranged.mem_of_breakdown? hbroken hf, hbroken⟩
    · exact fun ⟨f, hf, hbroken⟩ => ⟨f, hrearranged'.mem_of_breakdown? hbroken hf, hbroken⟩
  · have hundeclared : s.undeclaredNames b = s.undeclaredNames a :=
      Sorted.sortStrings_eq_of_perm ((hperm.symm.map Prod.fst).filter _)
    rw [violations_eq, violations_eq, hrearranged.sortByPath_eq,
      StructuralSchema.violationsFrom_congr hundeclared (Members.has_eq_of_perm hperm.symm),
      List.append_cancel_right_eq, violationsFrom_eq_iff s a hrearranged.whole,
      filter_isWhole_failures_eq_iff heffective hperm hnodup]
    simp only [patterns_of_effective]

/-- A document with a required tone that forbids the attributes whose names start with "data". -/
def gateDocument : Members Value :=
  [("type", .str "object"), ("patternProperties", .object [("^data", .bool false)]), ("required", .list [.str "tone"])]

theorem isPlain_gateDocument : IsPlain gateDocument := by
  refine List.forall_mem_cons.2 ⟨Or.inl rfl, List.forall_mem_cons.2 ⟨Or.inr (by decide), ?_⟩⟩
  exact List.forall_mem_singleton.2 (Or.inr (by decide))

/-- One forbidden attribute and an undeclared one. -/
def gatedAttributes : Members Value := [("size", .int 1), ("data-id", .str "x")]

/-- A single forbidden attribute is in order, so that the order of the attributes does not show. -/
theorem violations_rearranged_gate :
    IsPlain gateDocument ∧ gatedAttributes.names.Nodup ∧ gatedAttributes.Perm gatedAttributes.reverse ∧
      StructuralSchema.violations ⟨gateDocument, true⟩ gatedAttributes =
        StructuralSchema.violations ⟨gateDocument, true⟩ gatedAttributes.reverse ∧
      StructuralSchema.violations ⟨gateDocument, true⟩ gatedAttributes =
        [⟨"root", "False schema does not allow 'x'", none⟩, .missing "tone", .undeclared "size"] := by
  have hperm : gatedAttributes.Perm gatedAttributes.reverse := (List.reverse_perm _).symm
  have hnodup : gatedAttributes.names.Nodup := by decide
  refine ⟨isPlain_gateDocument, hnodup, hperm, ?_, by decide⟩
  have hrearranged := violations_rearranged (s := ⟨gateDocument, true⟩) isPlain_gateDocument hperm hnodup
  refine hrearranged.2.2 fun arg expression harg hfalse => ?_
  simp only [gateDocument, List.mem_cons, Prod.mk.injEq, List.not_mem_nil, or_false, String.reduceEq, false_and,
    false_or, true_and] at harg
  subst harg
  obtain rfl : expression = "^data" := (Prod.mk.inj (List.mem_singleton.1 hfalse)).1
  decide

/-- Two forbidden attributes. -/
def forbiddenAttributes : Members Value := [("data-x", .str "x"), ("data-y", .str "y")]

/-- Forbidden attributes are told in the order in which they are given, though they are told at the same place. -/
theorem violations_rearranged_forbidden :
    StructuralSchema.ofValue (.object gateDocument) = .ok ⟨gateDocument, true⟩ ∧ IsPlain gateDocument ∧
      forbiddenAttributes.names.Nodup ∧ forbiddenAttributes.Perm forbiddenAttributes.reverse ∧
      StructuralSchema.violations ⟨gateDocument, true⟩ forbiddenAttributes =
        [⟨"root", "False schema does not allow 'x'", none⟩, ⟨"root", "False schema does not allow 'y'", none⟩,
          .missing "tone"] ∧
      StructuralSchema.violations ⟨gateDocument, true⟩ forbiddenAttributes ≠
        StructuralSchema.violations ⟨gateDocument, true⟩ forbiddenAttributes.reverse := by
  have haccepted : checkDocument? (.object gateDocument) = none := by decide
  refine ⟨?_, isPlain_gateDocument, by decide, (List.reverse_perm _).symm, by decide, by decide +kernel⟩
  rw [StructuralSchema.ofValue, StructuralSchema.ofDocument, haccepted]

end SnippetAudit.Component
