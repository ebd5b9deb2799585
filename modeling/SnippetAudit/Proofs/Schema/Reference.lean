import Mathlib.Data.List.Perm.Subperm
import Mathlib.Logic.Relation
import SnippetAudit.Proofs.Schema.Origin

/-!
# Judging strings comes to an end

A string has no parts. So judging it by a schema goes on only at subschemas for the same value and along references,
and it breaks down only where a reference does not lead to a schema, or where the way comes back to a schema that it
has left. Where neither happens, no schema stands twice on the way. All of them are parts of the document, so the way
is no longer than the document has parts, and that much the budget allows.

## What this module delivers

- `Value.Inside`, `Value.parts`: the parts of a value at any depth;
- `inside_of_resolve`: a reference leads to a part of the document;
- `JudgesBy`: how judging a value by one schema leads to another one;
- `Unfolds`: judging a string by a schema comes to an end;
- `unfolds_of_unfoldsWithin`: that can be computed;
- `Unfolds.breakdown?_eq_none`: judging a string does not break down then.
-/

set_option autoImplicit false

namespace SnippetAudit

/-! ## Parts of values -/

namespace Value

/-- The first value is a part of the second one, at any depth, or the value itself. -/
inductive Inside : Value → Value → Prop where
  | whole (v : Value) : Inside v v
  | item {v item : Value} {items : List Value} (hitem : item ∈ items) (hv : Inside v item) :
      Inside v (.list items)
  | member {v part : Value} {name : String} {members : Members Value} (hpart : (name, part) ∈ members)
      (hv : Inside v part) : Inside v (.object members)

theorem Inside.trans {u v w : Value} (huv : Inside u v) (hvw : Inside v w) : Inside u w := by
  induction hvw with
  | whole => exact huv
  | item hitem _ ih => exact .item hitem ih
  | member hpart _ ih => exact .member hpart ih

mutual

/-- The parts of a value, with the value itself. -/
def parts : Value → List Value
  | .list items => .list items :: partsOfItems items
  | .object members => .object members :: partsOfMembers members
  | v => [v]

/-- The parts of items. -/
def partsOfItems : List Value → List Value
  | [] => []
  | item :: rest => parts item ++ partsOfItems rest

/-- The parts of members. -/
def partsOfMembers : List (String × Value) → List Value
  | [] => []
  | (_, value) :: rest => parts value ++ partsOfMembers rest

end

mutual

theorem length_parts : ∀ v : Value, v.parts.length = v.size
  | .list items => by rw [parts, List.length_cons, length_partsOfItems items, size]
  | .object members => by rw [parts, List.length_cons, length_partsOfMembers members, size]
  | .null | .bool _ | .int _ | .float _ | .str _ | .expr _ => by simp [parts, size]

theorem length_partsOfItems : ∀ items : List Value, (partsOfItems items).length = sizeItems items
  | [] => rfl
  | item :: rest => by
    rw [partsOfItems, List.length_append, length_parts item, length_partsOfItems rest, sizeItems]

theorem length_partsOfMembers : ∀ members : List (String × Value), (partsOfMembers members).length = sizeMembers members
  | [] => rfl
  | (_, value) :: rest => by
    rw [partsOfMembers, List.length_append, length_parts value, length_partsOfMembers rest, sizeMembers]

end

theorem mem_parts_self (v : Value) : v ∈ v.parts := by
  cases v <;> simp [parts]

theorem parts_subset_of_mem_items {item : Value} {items : List Value} (h : item ∈ items) :
    item.parts ⊆ partsOfItems items := by
  induction items with
  | nil => exact absurd h List.not_mem_nil
  | cons first rest ih =>
    rw [partsOfItems]
    rcases List.mem_cons.1 h with rfl | hrest
    · exact List.subset_append_left _ _
    · exact List.subset_append_of_subset_right _ (ih hrest)

theorem parts_subset_of_mem_members {name : String} {part : Value} {members : List (String × Value)}
    (h : (name, part) ∈ members) : part.parts ⊆ partsOfMembers members := by
  induction members with
  | nil => exact absurd h List.not_mem_nil
  | cons first rest ih =>
    obtain ⟨other, value⟩ := first
    rw [partsOfMembers]
    rcases List.mem_cons.1 h with heq | hrest
    · obtain ⟨rfl, rfl⟩ := Prod.mk.inj heq
      exact List.subset_append_left _ _
    · exact List.subset_append_of_subset_right _ (ih hrest)

theorem Inside.mem_parts {v w : Value} (h : Inside v w) : v ∈ w.parts := by
  induction h with
  | whole => exact mem_parts_self _
  | item hitem _ ih =>
    rw [parts]
    exact List.mem_cons_of_mem _ (parts_subset_of_mem_items hitem ih)
  | member hpart _ ih =>
    rw [parts]
    exact List.mem_cons_of_mem _ (parts_subset_of_mem_members hpart ih)

end Value

namespace Schema

open Relation Value

theorem inside_of_mem_itemsOf {item arg : Value} (h : item ∈ itemsOf arg) : Inside item arg := by
  cases arg with
  | list items => exact .item h (.whole item)
  | _ => exact absurd h List.not_mem_nil

theorem inside_of_mem_membersOf {name : String} {part arg : Value} (h : (name, part) ∈ membersOf arg) :
    Inside part arg := by
  cases arg with
  | object members => exact .member h (.whole part)
  | _ => exact absurd h List.not_mem_nil

theorem inside_of_mem {name : String} {part : Value} {members : Members Value} (h : (name, part) ∈ members) :
    Inside part (.object members) :=
  .member h (.whole part)

theorem inside_of_get? {name : String} {part : Value} {members : Members Value}
    (h : members.get? name = some part) : Inside part (.object members) :=
  inside_of_mem (Members.mem_of_get?_eq_some h)

/-! ## Where references lead -/

theorem mem_of_itemAt {α : Type} {lost : Lost} {items : List α} {step : Text} {item : α}
    (h : itemAt lost items step = .ok item) : item ∈ items := by
  unfold itemAt at h
  split at h
  · cases h
  · next i _ =>
    dsimp only at h
    split at h
    · next other hitem =>
      obtain rfl := Except.ok.inj h
      obtain ⟨n, hn⟩ : ∃ n : Nat, items[n]? = some other := by
        by_cases hplace : (if i < 0 then i + items.length else i) < 0
        · rw [if_pos hplace] at hitem
          cases hitem
        · rw [if_neg hplace] at hitem
          exact ⟨_, hitem⟩
      exact List.mem_of_getElem? hn
    · cases h

theorem inside_of_followSteps {lost : Lost} {part : Value} (steps : List Text) :
    ∀ v, followSteps lost v steps = .ok part → Inside part v := by
  induction steps with
  | nil =>
    intro v h
    rw [followSteps] at h
    obtain rfl := Except.ok.inj h
    exact .whole v
  | cons step rest ih =>
    intro v h
    unfold followSteps at h
    split at h
    · next members =>
      split at h
      · next next hnext => exact (ih next h).trans (inside_of_get? hnext)
      · cases h
    · next items =>
      split at h
      · next item hitem => exact .item (mem_of_itemAt hitem) (ih item h)
      · cases h
    · next s =>
      cases hchar : itemAt lost s.toList step with
      | error e => rw [hchar] at h; cases h
      | ok c => rw [hchar] at h; cases h
    · cases h

mutual

theorem inside_of_findAnchor? {name : String} {part : Value} :
    ∀ v, findAnchor? name v = some part → Inside part v
  | .object members, h => by
    rw [findAnchor?, Option.or_eq_some_iff] at h
    rcases h with hinner | ⟨-, hself⟩
    · obtain ⟨keyword, arg, harg, hpart⟩ := inside_of_findAnchorInKeywords? members hinner
      exact .member harg hpart
    · split at hself
      · obtain rfl := Option.some.inj hself
        exact .whole _
      · cases hself
  | .list _, h | .null, h | .bool _, h | .int _, h | .float _, h | .str _, h | .expr _, h =>
    absurd h (by simp [findAnchor?])

theorem inside_of_findAnchorInKeywords? {name : String} {part : Value} :
    ∀ members, findAnchorInKeywords? name members = some part →
      ∃ keyword arg, (keyword, arg) ∈ members ∧ Inside part arg
  | [], h => absurd h (by simp [findAnchorInKeywords?])
  | (keyword, arg) :: rest, h => by
    rw [findAnchorInKeywords?] at h
    rcases Option.or_eq_some_iff.1 h with hhere | ⟨-, hrest⟩
    · refine ⟨keyword, arg, List.mem_cons_self, ?_⟩
      split at hhere
      · exact inside_of_findAnchor? arg hhere
      · split at hhere
        · exact inside_of_findAnchorInList? arg hhere
        · split at hhere
          · exact inside_of_findAnchorInMap? arg hhere
          · cases hhere
    · obtain ⟨other, value, hother, hpart⟩ := inside_of_findAnchorInKeywords? rest hrest
      exact ⟨other, value, List.mem_cons_of_mem _ hother, hpart⟩

theorem inside_of_findAnchorInList? {name : String} {part : Value} :
    ∀ v, findAnchorInList? name v = some part → Inside part v
  | .list items, h => by
    rw [findAnchorInList?] at h
    obtain ⟨item, hitem, hpart⟩ := inside_of_findAnchorInItems? items h
    exact .item hitem hpart
  | .object _, h | .null, h | .bool _, h | .int _, h | .float _, h | .str _, h | .expr _, h =>
    absurd h (by simp [findAnchorInList?])

theorem inside_of_findAnchorInMap? {name : String} {part : Value} :
    ∀ v, findAnchorInMap? name v = some part → Inside part v
  | .object members, h => by
    rw [findAnchorInMap?] at h
    obtain ⟨member, value, hmember, hpart⟩ := inside_of_findAnchorInMembers? members h
    exact .member hmember hpart
  | .list _, h | .null, h | .bool _, h | .int _, h | .float _, h | .str _, h | .expr _, h =>
    absurd h (by simp [findAnchorInMap?])

theorem inside_of_findAnchorInItems? {name : String} {part : Value} :
    ∀ items, findAnchorInItems? name items = some part → ∃ item ∈ items, Inside part item
  | [], h => absurd h (by simp [findAnchorInItems?])
  | item :: rest, h => by
    rw [findAnchorInItems?] at h
    rcases Option.or_eq_some_iff.1 h with hfirst | ⟨-, hrest⟩
    · exact ⟨item, List.mem_cons_self, inside_of_findAnchor? item hfirst⟩
    · obtain ⟨other, hother, hpart⟩ := inside_of_findAnchorInItems? rest hrest
      exact ⟨other, List.mem_cons_of_mem item hother, hpart⟩

theorem inside_of_findAnchorInMembers? {name : String} {part : Value} :
    ∀ members, findAnchorInMembers? name members = some part →
      ∃ member value, (member, value) ∈ members ∧ Inside part value
  | [], h => absurd h (by simp [findAnchorInMembers?])
  | (member, value) :: rest, h => by
    rw [findAnchorInMembers?] at h
    rcases Option.or_eq_some_iff.1 h with hfirst | ⟨-, hrest⟩
    · exact ⟨member, value, List.mem_cons_self, inside_of_findAnchor? value hfirst⟩
    · obtain ⟨other, otherValue, hother, hpart⟩ := inside_of_findAnchorInMembers? rest hrest
      exact ⟨other, otherValue, List.mem_cons_of_mem _ hother, hpart⟩

end

/-- A reference leads to a part of the document. -/
theorem inside_of_resolve {root part : Value} {reference : String} (h : resolve root reference = .ok part) :
    Inside part root := by
  unfold resolve at h
  dsimp only at h
  split at h
  · cases h
  · split at h
    · cases h
    · obtain rfl := Except.ok.inj h
      exact .whole _
    · exact inside_of_followSteps _ _ h
    · split at h
      · next schema hschema =>
        obtain rfl := Except.ok.inj h
        exact inside_of_findAnchor? _ hschema
      · cases h

/-! ## Judging a value once more -/

/-- Judging a value by the first schema judges it once more by the second one, whatever the value is. -/
def JudgesBy (root schema sub : Value) : Prop :=
  ∃ members keyword arg, schema = .object members ∧ (keyword, arg) ∈ members ∧ InPlace root members keyword arg sub

/-- The subschemas by which a value is judged once more are parts of the document. -/
theorem JudgesBy.inside {root schema sub : Value} (h : JudgesBy root schema sub) (hschema : Inside schema root) :
    Inside sub root := by
  obtain ⟨members, keyword, arg, rfl, hmember, hsub⟩ := h
  have harg : Inside arg root := (inside_of_mem hmember).trans hschema
  cases hsub with
  | item _ hitem => exact (inside_of_mem_itemsOf hitem).trans harg
  | negated => exact harg
  | condition => exact harg
  | branch hbranch => exact (inside_of_get? hbranch).trans hschema
  | target _ _ htarget => exact inside_of_resolve htarget

/-- Judging a string by the schema comes to an end: references in it lead to schemas, and the same is true of all
schemas by which it judges the string once more. Being inductive, that rules out a way that comes back. -/
inductive Unfolds (root : Value) (manner : Manner) : Value → Prop where
  | intro {schema : Value}
      (hlead : ∀ members keyword arg, schema = .object members → (keyword, arg) ∈ members →
        keyword ∈ referenceKeywords → LeadsToSchema root manner.refusal? arg)
      (hsubs : ∀ sub, JudgesBy root schema sub → Unfolds root manner sub) : Unfolds root manner schema

theorem Unfolds.leads {root : Value} {manner : Manner} {members : Members Value} {keyword : String} {arg : Value}
    (h : Unfolds root manner (.object members)) (hmember : (keyword, arg) ∈ members)
    (hkeyword : keyword ∈ referenceKeywords) : LeadsToSchema root manner.refusal? arg := by
  cases h with
  | intro hlead => exact hlead members keyword arg rfl hmember hkeyword

theorem Unfolds.sub {root schema sub : Value} {manner : Manner} (h : Unfolds root manner schema)
    (hsub : JudgesBy root schema sub) : Unfolds root manner sub := by
  cases h with
  | intro _ hsubs => exact hsubs sub hsub

/-- No way of judging a value once more comes back. -/
theorem Unfolds.not_transGen {root schema : Value} {manner : Manner} (h : Unfolds root manner schema) :
    ¬ TransGen (JudgesBy root) schema schema := by
  induction h with
  | intro _ _ ih =>
    intro hcircle
    -- the circle may as well be entered at its next schema
    obtain ⟨sub, hsub, hback⟩ := TransGen.head'_iff.1 hcircle
    exact ih sub hsub (TransGen.tail' hback hsub)

/-! ### Computing whether judging comes to an end -/

/-- The subschemas by which a keyword judges a value once more. -/
def subschemas (root : Value) (siblings : Members Value) (keyword : String) (arg : Value) : List Value :=
  if combiningKeywords.contains keyword then itemsOf arg
  else if keyword = "not" then [arg]
  else if keyword = "if" then arg :: ["then", "else"].filterMap siblings.get?
  else if referenceKeywords.contains keyword then
    (arg.string?.bind fun reference => (resolve root reference).toOption).toList
  else []

theorem InPlace.mem_subschemas {root schema arg : Value} {siblings : Members Value} {keyword : String}
    (h : InPlace root siblings keyword arg schema) : schema ∈ subschemas root siblings keyword arg := by
  unfold subschemas
  cases h with
  | item hkeyword hitem =>
    rw [if_pos (List.contains_iff_mem.2 hkeyword)]
    exact hitem
  | negated => simp [combiningKeywords]
  | condition => simp [combiningKeywords]
  | branch hbranch hname => rcases hname with rfl | rfl <;> simp [combiningKeywords, hbranch]
  | target hkeyword harg htarget =>
    simp only [referenceKeywords, List.mem_cons, List.not_mem_nil, or_false] at hkeyword
    rcases hkeyword with rfl | rfl <;>
      simp [combiningKeywords, referenceKeywords, harg, htarget, Except.toOption]

/-- The argument is a reference that leads to a schema. -/
def leadsToSchema (root : Value) (manner : Manner) (arg : Value) : Bool :=
  (arg.string?.bind fun reference => (resolve root reference).toOption).any fun schema =>
    (manner.refusal? schema).isNone

theorem leadsToSchema_sound {root arg : Value} {manner : Manner}
    (h : leadsToSchema root manner arg = true) : LeadsToSchema root manner.refusal? arg := by
  obtain ⟨schema, htarget, hnone⟩ := (Option.any_eq_true _ _).1 h
  obtain ⟨reference, hreference, hresolve⟩ := Option.bind_eq_some_iff.1 htarget
  refine ⟨reference, schema, hreference, ?_, Option.isNone_iff_eq_none.1 hnone⟩
  cases hresolved : resolve root reference with
  | error lost => rw [hresolved] at hresolve; cases hresolve
  | ok other => rw [hresolved] at hresolve; rw [Option.some.inj hresolve]

/-- Judging a string by the schema comes to an end within so many steps. -/
def unfoldsWithin (root : Value) (manner : Manner) : Nat → Value → Bool
  | 0, _ => false
  | budget + 1, .object members => members.all fun (keyword, arg) =>
      (!referenceKeywords.contains keyword || leadsToSchema root manner arg) &&
        (subschemas root members keyword arg).all (unfoldsWithin root manner budget)
  | _ + 1, _ => true

theorem unfolds_of_unfoldsWithin {root : Value} {manner : Manner} {budget : Nat} :
    ∀ {schema : Value}, unfoldsWithin root manner budget schema = true → Unfolds root manner schema := by
  induction budget with
  | zero => exact fun h => absurd h Bool.false_ne_true
  | succ budget ih =>
    intro schema h
    have hall (members : Members Value) (keyword : String) (arg : Value) (hschema : schema = .object members)
        (hmember : (keyword, arg) ∈ members) :
        (keyword ∈ referenceKeywords → leadsToSchema root manner arg = true) ∧
          ∀ sub ∈ subschemas root members keyword arg, unfoldsWithin root manner budget sub = true := by
      rw [hschema, unfoldsWithin, List.all_eq_true] at h
      have hmember := h _ hmember
      rw [Bool.and_eq_true, List.all_eq_true] at hmember
      refine ⟨fun hkeyword => ?_, hmember.2⟩
      rw [List.contains_iff_mem.2 hkeyword] at hmember
      exact hmember.1
    refine .intro (fun members keyword arg hschema hmember hkeyword => ?_) fun sub hsub => ?_
    · exact leadsToSchema_sound ((hall members keyword arg hschema hmember).1 hkeyword)
    · obtain ⟨members, keyword, arg, hschema, hmember, hsub⟩ := hsub
      exact ih ((hall members keyword arg hschema hmember).2 sub hsub.mem_subschemas)

/-! ## Judging strings -/

/-- Schemas by which judging came to a schema, none of them twice. -/
structure OnTheWay (root : Value) (visited : List Value) (schema : Value) : Prop where
  nodup : visited.Nodup
  inside : ∀ other ∈ visited, Inside other root
  leads : ∀ other ∈ visited, TransGen (JudgesBy root) other schema

namespace OnTheWay

variable {root schema sub : Value} {visited : List Value}

theorem start (root schema : Value) : OnTheWay root [] schema := ⟨List.nodup_nil, by simp, by simp⟩

/-- The way has no more schemas than the document has parts. -/
theorem length_le (h : OnTheWay root visited schema) : visited.length ≤ root.size := by
  have hsubset : visited ⊆ root.parts := fun other hother => (h.inside other hother).mem_parts
  rw [← length_parts]
  exact (List.subperm_of_subset h.nodup hsubset).length_le

theorem step {manner : Manner} (h : OnTheWay root visited schema) (hunfolds : Unfolds root manner schema)
    (hschema : Inside schema root) (hsub : JudgesBy root schema sub) : OnTheWay root (schema :: visited) sub where
  nodup := List.nodup_cons.2 ⟨fun hmem => hunfolds.not_transGen (h.leads schema hmem), h.nodup⟩
  inside := List.forall_mem_cons.2 ⟨hschema, h.inside⟩
  leads := List.forall_mem_cons.2 ⟨.single hsub, fun other hother => (h.leads other hother).tail hsub⟩

end OnTheWay

/-- Judging a string does not break down on a way that leaves enough of the budget. -/
theorem breakdown?_eq_none_of_onTheWay {root v : Value} {manner : Manner} {text : String} (hv : v.string? = some text)
    {budget : Nat} : ∀ {schema : Value} {visited : List Value}, Unfolds root manner schema → Inside schema root →
      OnTheWay root visited schema → root.size < budget + visited.length →
        ∀ f ∈ failuresWithin root manner budget schema v, f.breakdown? = none := by
  have hno {p : Prop} (h : v.string? = none) : p := absurd (hv.symm.trans h) (by simp)
  induction budget with
  | zero =>
    intro schema visited _ _ hway hbudget
    have hlength := hway.length_le
    omega
  | succ budget ih =>
    intro schema visited hunfolds hinside hway hbudget f hf
    rcases failuresWithin_cases hf with ⟨message, -, rfl⟩ | ⟨members, keyword, arg, _, rfl, hmember, hkeyword, hf⟩
    · rfl
    · have hsub {sub : Value} (hsub : InPlace root members keyword arg sub) :
          ∀ g ∈ failuresWithin root manner budget sub v, g.breakdown? = none := by
        have hjudges : JudgesBy root (.object members) sub := ⟨members, keyword, arg, rfl, hmember, hsub⟩
        refine ih (hunfolds.sub hjudges) (hjudges.inside hinside) (hway.step hunfolds hinside hjudges) ?_
        rw [List.length_cons]
        omega
      cases arises_of_mem_keywords _ hkeyword _ arg v f hf with
      | here => rfl
      | missing => rfl
      | closed => rfl
      | whole hschema hjudged => exact hsub hschema f hjudged
      | stuck hschema hjudged hcause => exact absurd ((hsub hschema _ hjudged).symm.trans hcause) (by simp)
      | lost hreference hlost => exact absurd (hunfolds.leads hmember hreference) hlost
      | dependent hnone | name hnone | flag hnone | part hnone | inside hnone => exact hno hnone

/-- Where judging a string by a part of the document comes to an end, it does not break down. -/
theorem Unfolds.breakdown?_eq_none {root schema v : Value} {manner : Manner} {text : String} {budget : Nat}
    (h : Unfolds root manner schema) (hinside : Inside schema root) (hv : v.string? = some text)
    (hbudget : root.size < budget) : ∀ f ∈ failuresWithin root manner budget schema v, f.breakdown? = none :=
  breakdown?_eq_none_of_onTheWay hv h hinside (.start root schema) hbudget

end Schema

end SnippetAudit
