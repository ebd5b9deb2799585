import Mathlib.Data.List.Basic

/-!
# Lists and their pieces

What is said of a list as a whole is said of its pieces where the whole tells them apart: a list that is made of
pieces tells each of them where their lengths are known, a property that breaks off splits a list in two, and elements
with different keys are told by their keys in any order.

## What this module delivers

- `flatMap_eq_flatMap_iff`: lists that are the same piece by piece;
- `eq_filter_append`: the elements with a property in front of the others;
- `filter_key_eq_of_perm`: the elements with a key in another order.
-/

set_option autoImplicit false

namespace SnippetAudit

section Flat

variable {α β : Type} {f g : α → List β} {xs : List α} (hle : ∀ x ∈ xs, (f x).length ≤ (g x).length)

include hle

theorem length_flatMap_le : (xs.flatMap f).length ≤ (xs.flatMap g).length := by
  induction xs with
  | nil => exact Nat.le_refl 0
  | cons x rest ih =>
    rw [List.forall_mem_cons] at hle
    rw [List.flatMap_cons, List.flatMap_cons, List.length_append, List.length_append]
    exact Nat.add_le_add hle.1 (ih hle.2)

/-- Where no piece is longer than its counterpart, the whole is the same only if every piece is. -/
theorem flatMap_eq_flatMap_iff : xs.flatMap f = xs.flatMap g ↔ ∀ x ∈ xs, f x = g x := by
  refine ⟨fun h => ?_, List.flatMap_congr⟩
  induction xs with
  | nil => exact fun x hx => absurd hx List.not_mem_nil
  | cons x rest ih =>
    rw [List.forall_mem_cons] at hle ⊢
    rw [List.flatMap_cons, List.flatMap_cons] at h
    have hlength : (f x).length = (g x).length := by
      have htotal := congrArg List.length h
      have hrest := length_flatMap_le hle.2
      rw [List.length_append, List.length_append] at htotal
      have hfirst := hle.1
      omega
    obtain ⟨hfirst, hrest⟩ := List.append_inj h hlength
    exact ⟨hfirst, ih hle.2 hrest⟩

end Flat

/-- A list in which a property breaks off is made of the elements with it and those without. -/
theorem eq_filter_append {α : Type} {p : α → Bool} {l : List α} (h : l.Pairwise fun x y => p y = true → p x = true) :
    l = l.filter p ++ l.filter fun x => !p x := by
  induction l with
  | nil => rfl
  | cons x rest ih =>
    rw [List.pairwise_cons] at h
    cases hx : p x with
    | true =>
      rw [List.filter_cons_of_pos hx, List.filter_cons_of_neg (by simp [hx]), List.cons_append, ← ih h.2]
    | false =>
      -- nothing behind has the property
      have hnone : rest.filter p = [] := by
        rw [List.filter_eq_nil_iff]
        intro y hy hpy
        rw [h.1 y hy hpy] at hx
        exact Bool.false_ne_true hx.symm
      rw [List.filter_cons_of_neg (by simp [hx]), List.filter_cons_of_pos (by simp [hx]), hnone, List.nil_append]
      rw [hnone, List.nil_append] at ih
      rw [← ih h.2]

/-- Of elements with different keys, those with one key are the same in any order. -/
theorem filter_key_eq_of_perm {α : Type} (key : α → String) {xs ys : List α} (hperm : xs.Perm ys)
    (hnodup : (xs.map key).Nodup) (name : String) :
    xs.filter (fun x => key x == name) = ys.filter fun y => key y == name := by
  have hsingle {zs : List α} (hzs : (zs.map key).Nodup) :
      (zs.filter fun z => key z == name).Pairwise fun _ _ => False := by
    rw [List.Nodup, List.pairwise_map] at hzs
    refine (hzs.filter _).imp_of_mem fun {x y} hx hy hne => hne ?_
    rw [beq_iff_eq.1 (List.mem_filter.1 hx).2, beq_iff_eq.1 (List.mem_filter.1 hy).2]
  refine (hperm.filter _).eq_of_pairwise (fun _ _ _ _ h => h.elim) (hsingle hnodup) (hsingle ?_)
  exact (hperm.map key).nodup_iff.1 hnodup

end SnippetAudit
