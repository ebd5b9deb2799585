import SnippetAudit.Data.Distinct
import SnippetAudit.Data.Equality

/-!
# Values each once

Only a string or an expression is equal to a string, and it has its characters then. Values are taken each once by
leaving out those that are equal to one before, so what is left does not repeat itself, and no string is lost.

## What this module delivers

- `looselyEqual_str_iff`, `str_looselyEqual_iff`: the values that are equal to a string;
- `mem_valuesBeyond`, `pairwise_valuesBeyond`, `exists_of_str_mem`: what is left;
- `valuesBeyond_congr`, `valuesBeyond_eq_nil`: what it depends on;
- `valuesBeyond_map_str`: strings are left out like names.
-/

set_option autoImplicit false

namespace SnippetAudit

open Value

/-! ## Equality with a string -/

theorem str_looselyEqual_iff {name : String} {v : Value} :
    (Value.str name).looselyEqual v = true ↔ v.string? = some name := by
  rw [looselyEqual, sameWith, beq_iff_eq]

theorem looselyEqual_str_iff {name : String} {v : Value} :
    v.looselyEqual (.str name) = true ↔ v.string? = some name := by
  cases v with
  | str s => rw [str_looselyEqual_iff, string?, string?, Option.some.injEq, Option.some.injEq, eq_comm]
  | expr source =>
    rw [looselyEqual, sameWith, beq_iff_eq, string?, string?, Option.some.injEq, Option.some.injEq, eq_comm]
  | null => simp [looselyEqual, sameWith, string?]
  | bool b => simp [looselyEqual, sameWith, string?, compareNumbers]
  | int n => simp [looselyEqual, sameWith, string?, compareNumbers]
  | float x => simp [looselyEqual, sameWith, string?, compareNumbers]
  | list items => simp [looselyEqual, sameWith, string?]
  | object members => simp [looselyEqual, sameWith, string?]

/-! ## Values each once -/

/-- One of the values is equal to the given one. -/
def IsAmong (v : Value) (known : List Value) : Prop := ∃ other ∈ known, other.looselyEqual v = true

theorem any_looselyEqual_iff {v : Value} {known : List Value} :
    (known.any fun other => other.looselyEqual v) = true ↔ IsAmong v known :=
  List.any_eq_true

theorem isAmong_cons {v other : Value} {known : List Value} :
    IsAmong v (other :: known) ↔ other.looselyEqual v = true ∨ IsAmong v known := by
  simp [IsAmong]

theorem isAmong_append {v : Value} {known others : List Value} :
    IsAmong v (known ++ others) ↔ IsAmong v known ∨ IsAmong v others := by
  simp only [IsAmong, List.mem_append, or_and_right, exists_or]

theorem mem_valuesBeyond {v : Value} {known vs : List Value} (h : v ∈ valuesBeyond known vs) :
    v ∈ vs ∧ ¬ IsAmong v known := by
  fun_induction valuesBeyond known vs with
  | case1 => exact absurd h List.not_mem_nil
  | case2 known first rest _ ih => exact (ih h).imp_left (List.mem_cons_of_mem _)
  | case3 known first rest hnew ih =>
    rcases List.mem_cons.1 h with rfl | hrest
    · exact ⟨List.mem_cons_self, fun hamong => hnew (any_looselyEqual_iff.2 hamong)⟩
    · obtain ⟨hmem, hbeyond⟩ := ih hrest
      exact ⟨List.mem_cons_of_mem _ hmem, fun hamong => hbeyond (isAmong_cons.2 (Or.inr hamong))⟩

/-- No value that is left is equal to a later one. -/
theorem pairwise_valuesBeyond (known vs : List Value) :
    (valuesBeyond known vs).Pairwise fun v w => v.looselyEqual w = false := by
  fun_induction valuesBeyond known vs with
  | case1 => exact List.Pairwise.nil
  | case2 known first rest _ ih => exact ih
  | case3 known first rest _ ih =>
    refine List.pairwise_cons.2 ⟨fun v hv => ?_, ih⟩
    rw [Bool.eq_false_iff]
    exact fun heq => (mem_valuesBeyond hv).2 (isAmong_cons.2 (Or.inl heq))

/-- No string is lost. -/
theorem exists_of_str_mem {name : String} {vs : List Value} (h : .str name ∈ vs) (known : List Value) :
    IsAmong (.str name) (valuesBeyond known vs ++ known) := by
  fun_induction valuesBeyond known vs with
  | case1 => exact absurd h List.not_mem_nil
  | case2 known first rest hold ih =>
    rcases List.mem_cons.1 h with rfl | hrest
    · obtain ⟨other, hother, heq⟩ := any_looselyEqual_iff.1 hold
      exact ⟨other, List.mem_append_right _ hother, heq⟩
    · exact ih hrest
  | case3 known first rest _ ih =>
    rcases List.mem_cons.1 h with rfl | hrest
    · exact ⟨_, List.mem_cons_self, str_looselyEqual_iff.2 rfl⟩
    · obtain ⟨other, hother, heq⟩ := ih hrest
      refine ⟨other, ?_, heq⟩
      simp only [List.mem_append, List.mem_cons] at hother ⊢
      rcases hother with hrest | rfl | hknown
      · exact Or.inl (Or.inr hrest)
      · exact Or.inl (Or.inl rfl)
      · exact Or.inr hknown

/-- What is left depends on which of the values are known, and not on how. -/
theorem valuesBeyond_congr {known known' vs : List Value} (h : ∀ v ∈ vs, IsAmong v known ↔ IsAmong v known') :
    valuesBeyond known vs = valuesBeyond known' vs := by
  induction vs generalizing known known' with
  | nil => rfl
  | cons v rest ih =>
    rw [List.forall_mem_cons] at h
    have hcons : ∀ w ∈ rest, IsAmong w (v :: known) ↔ IsAmong w (v :: known') := fun w hw => by
      rw [isAmong_cons, isAmong_cons, h.2 w hw]
    have hany : (known.any fun other => other.looselyEqual v) = known'.any fun other => other.looselyEqual v := by
      rw [Bool.eq_iff_iff, any_looselyEqual_iff, any_looselyEqual_iff, h.1]
    rw [valuesBeyond, valuesBeyond, hany, ih h.2, ih hcons]

theorem valuesBeyond_eq_nil {known vs : List Value} (h : ∀ v ∈ vs, IsAmong v known) : valuesBeyond known vs = [] := by
  induction vs with
  | nil => rfl
  | cons v rest ih =>
    rw [List.forall_mem_cons] at h
    rw [valuesBeyond, if_pos (any_looselyEqual_iff.2 h.1), ih h.2]

/-- Strings are left out like names. -/
theorem valuesBeyond_map_str (known names : List String) :
    valuesBeyond (known.map .str) (names.map .str) = (namesBeyond known names).map .str := by
  have hmem (name : String) (known : List String) :
      ((known.map Value.str).any fun other => other.looselyEqual (.str name)) = known.contains name := by
    rw [Bool.eq_iff_iff, any_looselyEqual_iff, List.contains_iff_mem]
    constructor
    · rintro ⟨_, hother, heq⟩
      obtain ⟨other, hmem, rfl⟩ := List.mem_map.1 hother
      obtain rfl := Option.some.inj (looselyEqual_str_iff.1 heq)
      exact hmem
    · exact fun h => ⟨_, List.mem_map_of_mem h, str_looselyEqual_iff.2 rfl⟩
  induction names generalizing known with
  | nil => rfl
  | cons name rest ih =>
    rw [List.map_cons, valuesBeyond, namesBeyond, hmem]
    split
    · exact ih known
    · rw [List.map_cons, ← ih (name :: known), List.map_cons]

end SnippetAudit
