import SnippetAudit.Component.Usage
import SnippetAudit.Proofs.Data.Members
import SnippetAudit.Proofs.Schema.Closing

/-!
# Usages that differ in the sources of expressions

An attribute whose value is an expression is judged as a string, so its source decides which failures it has. The
failures of two usages are compared that differ in the sources of expressions alone. They are the same, but for
those that start with an attribute whose source differs. Each of these comes from judging the value of the attribute
by a subschema that the document has for it.

A subschema `false` must be excepted. Its failure stands at the attributes as a whole and shows the source.

## What this module delivers

- `Alike`: attributes that differ in the sources of expressions alone;
- `isOutside`, `Agree`: failures that are the same but for those that start with some attributes;
- `IsPlain`, `Forbids`: documents with the keywords for members alone, and the attributes that they forbid;
- `agree_keywordFailures`, `agree_failures`: the failures under each keyword, and under a whole document, agree;
- `HasFor`, `comesFrom_of_mem_failures`: failures that start with an attribute come from its value.
-/

set_option autoImplicit false

namespace SnippetAudit.Component

open Schema

/-! ## Usages that are alike -/

/-- The attributes have the same names in the same order, and their values differ in the sources of
expressions alone. -/
inductive Alike : Members Value → Members Value → Prop where
  | nil : Alike [] []
  | same (name : String) (v : Value) {a b : Members Value} (h : Alike a b) : Alike ((name, v) :: a) ((name, v) :: b)
  | source (name s t : String) {a b : Members Value} (h : Alike a b) :
      Alike ((name, .expr s) :: a) ((name, .expr t) :: b)

namespace Alike

variable {a b : Members Value}

theorem symm (h : Alike a b) : Alike b a := by
  induction h with
  | nil => exact .nil
  | same name v _ ih => exact .same name v ih
  | source name s t _ ih => exact .source name t s ih

theorem names_eq (h : Alike a b) : a.names = b.names := by
  induction h with
  | nil => rfl
  | same name v _ ih => exact congrArg (name :: ·) ih
  | source name s t _ ih => exact congrArg (name :: ·) ih

theorem depth_eq (h : Alike a b) : Value.depth (.object a) = Value.depth (.object b) := by
  have hmembers : Value.depthMembers a = Value.depthMembers b := by
    induction h with
    | nil => rfl
    | same name v _ ih => rw [Value.depthMembers, Value.depthMembers, ih]
    | source name s t _ ih =>
      rw [Value.depthMembers, Value.depthMembers, ih]
      rfl
  rw [Value.depth, Value.depth, hmembers]

theorem filter (h : Alike a b) (p : String → Bool) :
    Alike (a.filter fun pair => p pair.1) (b.filter fun pair => p pair.1) := by
  induction h with
  | nil => exact .nil
  | same name v _ ih =>
    rw [List.filter_cons, List.filter_cons]
    dsimp only
    split
    · exact .same name v ih
    · exact ih
  | source name s t _ ih =>
    rw [List.filter_cons, List.filter_cons]
    dsimp only
    split
    · exact .source name s t ih
    · exact ih

/-- An attribute has the same value in both, or two expressions. -/
theorem get? (h : Alike a b) (name : String) :
    a.get? name = b.get? name ∨ ∃ s t, a.get? name = some (.expr s) ∧ b.get? name = some (.expr t) := by
  induction h with
  | nil => exact Or.inl rfl
  | same first v _ ih =>
    rw [Members.get?, Members.get?, List.lookup_cons, List.lookup_cons]
    cases name == first with
    | true => exact Or.inl rfl
    | false => exact ih
  | source first s t _ ih =>
    rw [Members.get?, Members.get?, List.lookup_cons, List.lookup_cons]
    cases name == first with
    | true => exact Or.inr ⟨s, t, rfl, rfl⟩
    | false => exact ih

end Alike

/-- The usages have the same tag, and attributes that are alike. -/
structure Usage.Alike (u u' : Usage) : Prop where
  tag : u.tag = u'.tag
  attributes : Component.Alike u.attributes u'.attributes

variable {u u' : Usage}

theorem Usage.Alike.symm (h : u.Alike u') : u'.Alike u := ⟨h.tag.symm, h.attributes.symm⟩

theorem isSome_expression?_iff {name : String} :
    (u.expression? name).isSome = true ↔ ∃ s, u.attributes.get? name = some (.expr s) := by
  rw [Usage.expression?]
  split
  · next s hs => simp [hs]
  · next hnone =>
    constructor
    · intro h
      exact absurd h Bool.false_ne_true
    · rintro ⟨s, hs⟩
      exact (hnone s hs).elim

theorem Usage.Alike.isSome_expression? (h : u.Alike u') (name : String) :
    (u.expression? name).isSome = (u'.expression? name).isSome := by
  rw [Bool.eq_iff_iff, isSome_expression?_iff, isSome_expression?_iff]
  rcases h.attributes.get? name with heq | ⟨s, t, hs, ht⟩
  · rw [heq]
  · exact iff_of_true ⟨s, hs⟩ ⟨t, ht⟩

/-- Where attributes differ, the sources of their expressions do. -/
theorem Usage.Alike.expression?_ne (h : u.Alike u') {name : String}
    (hne : u.attributes.get? name ≠ u'.attributes.get? name) : u.expression? name ≠ u'.expression? name := by
  rcases h.attributes.get? name with heq | ⟨s, t, hs, ht⟩
  · exact absurd heq hne
  · intro hsame
    rw [Usage.expression?, Usage.expression?, hs, ht] at hsame
    exact hne (by rw [hs, ht, Option.some.inj hsame])

/-! ## Failures outside of some attributes -/

/-- The failure does not start with one of the hidden attributes. -/
def isOutside (hidden : String → Bool) (f : Failure) : Bool :=
  match f.path with
  | .member name :: _ => !hidden name
  | _ => true

/-- The failures are the same but for those that start with one of the hidden attributes. -/
def Agree (hidden : String → Bool) (fs gs : List Failure) : Prop :=
  fs.filter (isOutside hidden) = gs.filter (isOutside hidden)

section Agree

variable {hidden : String → Bool}

theorem agree_refl (fs : List Failure) : Agree hidden fs fs := rfl

theorem Agree.append {fs fs' gs gs' : List Failure} (h : Agree hidden fs gs) (h' : Agree hidden fs' gs') :
    Agree hidden (fs ++ fs') (gs ++ gs') := by
  rw [Agree, List.filter_append, List.filter_append, h, h']

theorem Agree.flatMap {α : Type} {xs : List α} {judge judge' : α → List Failure}
    (h : ∀ x ∈ xs, Agree hidden (judge x) (judge' x)) : Agree hidden (xs.flatMap judge) (xs.flatMap judge') := by
  induction xs with
  | nil => exact agree_refl []
  | cons x more ih =>
    rw [List.forall_mem_cons] at h
    exact h.1.append (ih h.2)

/-- The failures of attributes that are alike agree when those of each attribute do. -/
theorem Agree.flatMap_alike {a b : Members Value} (h : Alike a b) {judge : String × Value → List Failure}
    (hjudge : ∀ name part part', (name, part) ∈ a → (name, part') ∈ b →
      Agree hidden (judge (name, part)) (judge (name, part'))) :
    Agree hidden (a.flatMap judge) (b.flatMap judge) := by
  induction h with
  | nil => exact agree_refl []
  | same name v _ ih =>
    refine (hjudge name v v List.mem_cons_self List.mem_cons_self).append (ih fun other part part' ha hb => ?_)
    exact hjudge other part part' (List.mem_cons_of_mem _ ha) (List.mem_cons_of_mem _ hb)
  | source name s t _ ih =>
    refine (hjudge name _ _ List.mem_cons_self List.mem_cons_self).append (ih fun other part part' ha hb => ?_)
    exact hjudge other part part' (List.mem_cons_of_mem _ ha) (List.mem_cons_of_mem _ hb)

/-- All failures of a hidden attribute are left out. -/
theorem agree_under {name : String} (hname : hidden name = true) (fs gs : List Failure) :
    Agree hidden (fs.map (.under (.member name))) (gs.map (.under (.member name))) := by
  have hnone (fs : List Failure) : (fs.map (Failure.under (.member name))).filter (isOutside hidden) = [] := by
    rw [List.filter_eq_nil_iff, List.forall_mem_map]
    intro f _
    simp [isOutside, Failure.under, hname]
  rw [Agree, hnone, hnone]

end Agree

/-! ## Judging the attributes -/

/-- What is used of judging by subschemas: one that is true or false fails at the value as a whole, true without looking
at it. -/
structure Discreet (scope : Scope) : Prop where
  whole : ∀ b v, ∀ f ∈ scope.judge (.bool b) v, f.path = []
  unread : ∀ v w, scope.judge (.bool true) v = scope.judge (.bool true) w

theorem discreet_topScope (document : Members Value) (v : Value) : Discreet (topScope document v) where
  whole b v := by
    rw [topScope]
    cases budgetFor (.object document) _ - 1 with
    | zero =>
      intro f hf
      obtain rfl := List.mem_singleton.1 hf
      rfl
    | succ budget =>
      intro f hf
      cases b with
      | true => exact absurd hf List.not_mem_nil
      | false =>
        obtain rfl := List.mem_singleton.1 hf
        rfl
  unread v w := by
    rw [topScope]
    cases budgetFor (.object document) _ - 1 <;> rfl

theorem additionalNames_eq (halike : u.Alike u') (schema : Members Value) :
    additionalNames schema u.attributes = additionalNames schema u'.attributes := by
  simp only [additionalNames, halike.attributes.names_eq]

theorem unreadableJoin?_eq (halike : u.Alike u') (schema : Members Value) :
    unreadableJoin? schema u.attributes = unreadableJoin? schema u'.attributes := by
  simp only [unreadableJoin?, halike.attributes.names_eq]

theorem exists_get?_of_mem_additionalNames {schema attributes : Members Value} {name : String}
    (h : name ∈ additionalNames schema attributes) : ∃ part, attributes.get? name = some part := by
  rw [additionalNames, List.mem_filter] at h
  exact Members.exists_get?_of_mem_names h.1

section Judging

variable {scope : Scope} (hscope : Discreet scope) (halike : u.Alike u') {hidden : String → Bool}
  (hhidden : ∀ name, u.expression? name ≠ u'.expression? name → hidden name = true)

include hscope halike hhidden

/-- The failures of an attribute agree under a subschema, unless the subschema forbids it and shows its value. -/
theorem agree_judgePart {name : String} {schema part part' : Value} (hget : u.attributes.get? name = some part)
    (hget' : u'.attributes.get? name = some part')
    (hallowed : u.expression? name ≠ u'.expression? name → schema ≠ .bool false) :
    Agree hidden (scope.judgePart (.member name) schema part) (scope.judgePart (.member name) schema part') := by
  by_cases heq : part = part'
  · rw [heq]
    exact agree_refl _
  · have hdiffer : u.expression? name ≠ u'.expression? name := by
      refine halike.expression?_ne fun hsame => heq ?_
      rw [hget, hget'] at hsame
      exact Option.some.inj hsame
    unfold Scope.judgePart
    split
    · next b =>
      cases b with
      | true =>
        rw [hscope.unread part part']
        exact agree_refl _
      | false => exact absurd rfl (hallowed hdiffer)
    · exact agree_under (hhidden name hdiffer) _ _

theorem agree_properties {arg : Value}
    (hallowed : ∀ name, u.expression? name ≠ u'.expression? name → (name, .bool false) ∉ membersOf arg) :
    Agree hidden (properties scope arg (.object u.attributes)) (properties scope arg (.object u'.attributes)) := by
  refine Agree.flatMap fun (name, schema) hschema => ?_
  dsimp only
  cases hget : u.attributes.get? name with
  | none =>
    rcases halike.attributes.get? name with hsame | ⟨s, t, hs, -⟩
    · rw [← hsame, hget]
      exact agree_refl []
    · rw [hget] at hs
      cases hs
  | some part =>
    have hname : name ∈ u'.attributes.names := by
      rw [← halike.attributes.names_eq]
      exact List.mem_map_of_mem (Members.mem_of_get?_eq_some hget)
    obtain ⟨part', hget'⟩ := Members.exists_get?_of_mem_names hname
    rw [hget']
    refine agree_judgePart hscope halike hhidden hget hget' ?_
    rintro hdiffer rfl
    exact hallowed name hdiffer hschema

theorem agree_patternProperties (hnodup : u.attributes.names.Nodup) {arg : Value}
    (hallowed : ∀ name, u.expression? name ≠ u'.expression? name →
      ∀ expression, (expression, .bool false) ∈ membersOf arg → ¬ isFound expression name = true) :
    Agree hidden (patternProperties scope arg (.object u.attributes))
      (patternProperties scope arg (.object u'.attributes)) := by
  refine Agree.flatMap fun (expression, schema) hschema => ?_
  dsimp only
  refine Agree.flatMap_alike (halike.attributes.filter (isFound expression)) fun name part part' hpart hpart' => ?_
  obtain ⟨hmem, hfound⟩ := List.mem_filter.1 hpart
  have hget := Members.get?_eq_some_of_mem hnodup hmem
  rw [halike.attributes.names_eq] at hnodup
  have hget' := Members.get?_eq_some_of_mem hnodup (List.mem_filter.1 hpart').1
  refine agree_judgePart hscope halike hhidden hget hget' ?_
  rintro hdiffer rfl
  exact hallowed name hdiffer expression hschema hfound

theorem agree_additionalProperties (arg : Value) :
    Agree hidden (additionalProperties scope arg (.object u.attributes))
      (additionalProperties scope arg (.object u'.attributes)) := by
  unfold additionalProperties
  dsimp only
  rw [unreadableJoin?_eq halike]
  split
  · exact agree_refl _
  · rw [additionalNames_eq halike]
    unfold judgeExtras
    split
    · refine Agree.flatMap fun name hname => ?_
      obtain ⟨part', hget'⟩ := exists_get?_of_mem_additionalNames hname
      rw [← additionalNames_eq halike] at hname
      obtain ⟨part, hget⟩ := exists_get?_of_mem_additionalNames hname
      rw [hget, hget']
      exact agree_judgePart hscope halike hhidden hget hget' fun _ => Value.noConfusion
    · -- the names alone are told
      exact agree_refl _
    · exact agree_refl _

end Judging

theorem hasMember_eq (halike : u.Alike u') (name : Value) :
    hasMember u.attributes name = hasMember u'.attributes name := by
  have hhas : Members.has u.attributes = Members.has u'.attributes := by
    funext other
    rw [Members.has, Members.has, halike.attributes.names_eq]
  rw [hasMember, hasMember, hhas]

theorem required_eq (halike : u.Alike u') (scope : Scope) (arg : Value) :
    required scope arg (.object u.attributes) = required scope arg (.object u'.attributes) := by
  simp only [required, hasMember_eq halike]

/-! ## Documents -/

/-- The keywords for the members of objects. -/
def memberKeywords : List String := ["properties", "patternProperties", "required", "additionalProperties"]

/-- The document has keywords for the members of objects, and says that it is for objects; it has no other
keywords. What the subschemas in it have is left open. -/
def IsPlain (document : Members Value) : Prop :=
  ∀ pair ∈ document, pair = ("type", .str "object") ∨ pair.1 ∈ memberKeywords

/-- An attribute has the subschema `false`, by its name or by an expression for names. -/
def Forbids (document : Members Value) (name : String) : Prop :=
  (∃ arg, ("properties", arg) ∈ document ∧ (name, .bool false) ∈ membersOf arg) ∨
    ∃ arg expression, ("patternProperties", arg) ∈ document ∧ (expression, .bool false) ∈ membersOf arg ∧
      isFound expression name = true

/-- The document has the subschema for an attribute: for its name, for an expression that is found in its name, or for
all attributes that are additional. -/
def HasFor (document : Members Value) (name : String) (schema : Value) : Prop :=
  (∃ arg, ("properties", arg) ∈ document ∧ (name, schema) ∈ membersOf arg) ∨
    (∃ arg expression, ("patternProperties", arg) ∈ document ∧ (expression, schema) ∈ membersOf arg ∧
      isFound expression name = true) ∨
    ("additionalProperties", schema) ∈ document

theorem mem_of_mem_effective {s : StructuralSchema} {pair : String × Value} (h : pair ∈ s.effective) :
    pair = ("additionalProperties", .bool false) ∨ pair ∈ s.document := by
  rw [StructuralSchema.effective] at h
  split at h
  · exact Members.mem_put h
  · exact Or.inr h

theorem isPlain_effective {s : StructuralSchema} (h : IsPlain s.document) : IsPlain s.effective := by
  intro pair hpair
  rcases mem_of_mem_effective hpair with rfl | hmem
  · exact Or.inr (by decide)
  · exact h pair hmem

/-- Strict mode forbids no attribute by a subschema. -/
theorem forbids_of_effective {s : StructuralSchema} {name : String} (h : Forbids s.effective name) :
    Forbids s.document name := by
  rcases h with ⟨arg, hmem, hfalse⟩ | ⟨arg, expression, hmem, hfalse⟩
  · rcases mem_of_mem_effective hmem with heq | hmem
    · exact absurd (congrArg Prod.fst heq) (by simp)
    · exact Or.inl ⟨arg, hmem, hfalse⟩
  · rcases mem_of_mem_effective hmem with heq | hmem
    · exact absurd (congrArg Prod.fst heq) (by simp)
    · exact Or.inr ⟨arg, expression, hmem, hfalse⟩

/-- Under every keyword of a plain document the failures of the attributes agree. -/
theorem agree_keywordFailures {document : Members Value} (hplain : IsPlain document) {scope : Scope}
    (hscope : Discreet scope) (halike : u.Alike u') (hnodup : u.attributes.names.Nodup) {hidden : String → Bool}
    (hhidden : ∀ name, u.expression? name ≠ u'.expression? name → hidden name = true)
    (hallowed : ∀ name, u.expression? name ≠ u'.expression? name → ¬ Forbids document name)
    {member : String × Value} (hmember : member ∈ document) :
    Agree hidden (keywordFailures scope (.object u.attributes) member)
      (keywordFailures scope (.object u'.attributes) member) := by
  obtain ⟨keyword, arg⟩ := member
  rcases hplain _ hmember with htype | hkeyword
  · obtain ⟨rfl, rfl⟩ := Prod.mk.inj htype
    exact agree_refl []
  · simp only [memberKeywords, List.mem_cons, List.not_mem_nil, or_false] at hkeyword
    rcases hkeyword with rfl | rfl | rfl | rfl
    · exact agree_properties hscope halike hhidden fun name hdiffer hfalse =>
        hallowed name hdiffer (Or.inl ⟨arg, hmember, hfalse⟩)
    · exact agree_patternProperties hscope halike hhidden hnodup fun name hdiffer expression hfalse hfound =>
        hallowed name hdiffer (Or.inr ⟨arg, expression, hmember, hfalse, hfound⟩)
    · have hsame : keywordFailures scope (.object u.attributes) ("required", arg) =
          keywordFailures scope (.object u'.attributes) ("required", arg) := required_eq halike scope arg
      rw [hsame]
      exact agree_refl _
    · exact agree_additionalProperties hscope halike hhidden arg

/-- The failures of usages that are alike agree. -/
theorem agree_failures {document : Members Value} (hplain : IsPlain document) (halike : u.Alike u')
    (hnodup : u.attributes.names.Nodup) {hidden : String → Bool}
    (hhidden : ∀ name, u.expression? name ≠ u'.expression? name → hidden name = true)
    (hallowed : ∀ name, u.expression? name ≠ u'.expression? name → ¬ Forbids document name) :
    Agree hidden (failures (.object document) (.object u.attributes))
      (failures (.object document) (.object u'.attributes)) := by
  -- values that are equally deep are judged with the same budget
  have hscopes : topScope document (.object u'.attributes) = topScope document (.object u.attributes) := by
    rw [topScope, topScope, budgetFor, budgetFor, halike.attributes.depth_eq]
  rw [failures_object, failures_object, hscopes]
  exact Agree.flatMap fun member hmember =>
    agree_keywordFailures hplain (discreet_topScope document _) halike hnodup hhidden hallowed hmember

/-! ## Failures of one attribute -/

/-- The failure starts with the attribute, and comes from judging its value by a subschema that the document has for
it. -/
def ComesFrom (document attributes : Members Value) (judge : Value → Value → List Failure) (name : String)
    (f : Failure) : Prop :=
  ∃ schema part g, HasFor document name schema ∧ attributes.get? name = some part ∧ g ∈ judge schema part ∧
    f = g.under (.member name)

section Coming

variable {document attributes : Members Value} {scope : Scope} (hscope : Discreet scope) {name : String}
  {steps : List PathStep} {f : Failure} (hpath : f.path = .member name :: steps)

include hscope hpath

theorem comesFrom_of_judgePart {other : String} {schema part : Value} (hschema : HasFor document other schema)
    (hget : attributes.get? other = some part) (hf : f ∈ scope.judgePart (.member other) schema part) :
    ComesFrom document attributes scope.judge name f := by
  unfold Scope.judgePart at hf
  split at hf
  · -- the failure stands at the attributes as a whole
    rw [hscope.whole _ _ f hf] at hpath
    cases hpath
  · obtain ⟨g, hg, rfl⟩ := List.mem_map.1 hf
    obtain ⟨hname, -⟩ := List.cons.inj hpath
    obtain rfl := PathStep.member.inj hname
    exact ⟨schema, part, g, hschema, hget, hg, rfl⟩

theorem comesFrom_of_keywordFailures (hplain : IsPlain document) (hnodup : attributes.names.Nodup)
    {member : String × Value} (hmember : member ∈ document)
    (hf : f ∈ keywordFailures scope (.object attributes) member) :
    ComesFrom document attributes scope.judge name f := by
  have hno {g : Failure} (hg : g.path = []) (hf : f = g) : ComesFrom document attributes scope.judge name f := by
    rw [hf, hg] at hpath
    cases hpath
  obtain ⟨keyword, arg⟩ := member
  rcases hplain _ hmember with htype | hkeyword
  · obtain ⟨rfl, rfl⟩ := Prod.mk.inj htype
    exact absurd hf List.not_mem_nil
  · simp only [memberKeywords, List.mem_cons, List.not_mem_nil, or_false] at hkeyword
    rcases hkeyword with rfl | rfl | rfl | rfl
    · obtain ⟨⟨other, schema⟩, hschema, hf⟩ := List.mem_flatMap.1 hf
      dsimp only at hf
      split at hf
      · next part hget =>
        exact comesFrom_of_judgePart hscope hpath (Or.inl ⟨arg, hmember, hschema⟩) hget hf
      · exact absurd hf List.not_mem_nil
    · obtain ⟨⟨expression, schema⟩, hschema, hf⟩ := List.mem_flatMap.1 hf
      obtain ⟨⟨other, part⟩, hpart, hf⟩ := List.mem_flatMap.1 hf
      obtain ⟨hmem, hfound⟩ := List.mem_filter.1 hpart
      exact comesFrom_of_judgePart hscope hpath (Or.inr (Or.inl ⟨arg, expression, hmember, hschema, hfound⟩))
        (Members.get?_eq_some_of_mem hnodup hmem) hf
    · obtain ⟨missing, -, hf⟩ := List.mem_map.1 hf
      exact hno rfl hf.symm
    · have hf : f ∈ additionalProperties scope arg (.object attributes) := hf
      unfold additionalProperties at hf
      dsimp only at hf
      split at hf
      · exact hno rfl (List.mem_singleton.1 hf)
      · unfold judgeExtras at hf
        split at hf
        · obtain ⟨other, hother, hf⟩ := List.mem_flatMap.1 hf
          obtain ⟨part, hget⟩ := exists_get?_of_mem_additionalNames hother
          rw [hget] at hf
          exact comesFrom_of_judgePart hscope hpath (Or.inr (Or.inr hmember)) hget hf
        · split at hf
          · exact absurd hf List.not_mem_nil
          · exact hno rfl (List.mem_singleton.1 hf)
        · exact absurd hf List.not_mem_nil

end Coming

/-- A failure that starts with an attribute comes from its value. -/
theorem comesFrom_of_mem_failures {document attributes : Members Value} (hplain : IsPlain document)
    (hnodup : attributes.names.Nodup) {f : Failure} {name : String} {steps : List PathStep}
    (hpath : f.path = .member name :: steps) (hf : f ∈ failures (.object document) (.object attributes)) :
    ComesFrom document attributes (topScope document (.object attributes)).judge name f := by
  rw [failures_object, List.mem_flatMap] at hf
  obtain ⟨member, hmember, hf⟩ := hf
  exact comesFrom_of_keywordFailures (discreet_topScope document _) hpath hplain hnodup hmember hf

end SnippetAudit.Component
