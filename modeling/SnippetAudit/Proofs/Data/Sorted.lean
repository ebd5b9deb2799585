import SnippetAudit.Data.Sorted

/-!
# Leaving elements out of a sorted list

Sorting keeps elements of equal rank in their order, so leaving some elements out and sorting the others comes
to the same in either order. Different strings are of different rank, so that the order in which strings are
given does not show in the sorted list.

## What this module delivers

- `IsRank`: orders by a rank, in which elements may be of equal rank;
- `pairwise_sortBy`: nothing in a sorted list comes before an element in front of it;
- `filter_sortBy`: leaving elements out before or after sorting;
- `isTied`, `sortBy_eq_of_tied`: how a list is sorted depends on the elements of each rank;
- `isRank_textBefore`: lists of strings have such an order;
- `sortStrings_eq_of_perm`: strings are sorted alike however they are given.
-/

set_option autoImplicit false

namespace SnippetAudit.Sorted

/-- The order compares elements by a rank. -/
structure IsRank {α : Type} (before : α → α → Bool) : Prop where
  asymm : ∀ {x y}, before x y = true → before y x = false
  /-- Whatever lies between in rank, or beside one of the two. -/
  between : ∀ {x y} (z : α), before x y = true → before x z = true ∨ before z y = true

variable {α : Type} {before : α → α → Bool}

theorem insertBy_of_forall {x : α} {l : List α} (h : ∀ y ∈ l, before y x = false) :
    insertBy before x l = x :: l := by
  cases l with
  | nil => rfl
  | cons y rest =>
    have hy : before y x = false := h y List.mem_cons_self
    rw [insertBy, hy, if_neg Bool.false_ne_true]

/-- What comes before nothing at its place comes before nothing behind it. -/
theorem before_eq_false_of_sorted (hrank : IsRank before) {x y : α} {rest : List α}
    (hsorted : ∀ z ∈ rest, before z y = false) (hy : before y x = false) : ∀ z ∈ y :: rest, before z x = false := by
  rw [List.forall_mem_cons]
  refine ⟨hy, fun z hz => ?_⟩
  rw [Bool.eq_false_iff]
  intro hzx
  rcases hrank.between y hzx with hzy | hyx
  · rw [hsorted z hz] at hzy
    exact Bool.false_ne_true hzy
  · rw [hy] at hyx
    exact Bool.false_ne_true hyx

theorem pairwise_insertBy (hrank : IsRank before) (x : α) {l : List α}
    (h : l.Pairwise fun y z => before z y = false) :
    (insertBy before x l).Pairwise fun y z => before z y = false := by
  induction l with
  | nil => exact List.pairwise_singleton _ _
  | cons y rest ih =>
    rw [List.pairwise_cons] at h
    rw [insertBy]
    split
    · next hyx =>
      rw [List.pairwise_cons]
      refine ⟨fun z hz => ?_, ih h.2⟩
      rcases List.mem_cons.1 ((insertBy_perm before x rest).mem_iff.1 hz) with rfl | hrest
      · exact hrank.asymm hyx
      · exact h.1 z hrest
    · next hyx =>
      have hyx : before y x = false := Bool.eq_false_iff.2 hyx
      exact List.pairwise_cons.2 ⟨before_eq_false_of_sorted hrank h.1 hyx, List.pairwise_cons.2 h⟩

/-- In a sorted list no element comes before one in front of it. -/
theorem pairwise_sortBy (hrank : IsRank before) (l : List α) :
    (sortBy before l).Pairwise fun y z => before z y = false := by
  induction l with
  | nil => exact List.Pairwise.nil
  | cons x rest ih => exact pairwise_insertBy hrank x ih

theorem filter_insertBy_of_neg {p : α → Bool} {x : α} (hx : p x = false) (l : List α) :
    (insertBy before x l).filter p = l.filter p := by
  induction l with
  | nil => simp [insertBy, hx]
  | cons y rest ih =>
    rw [insertBy]
    split
    · rw [List.filter_cons, ih, List.filter_cons]
    · rw [List.filter_cons, hx, if_neg Bool.false_ne_true]

theorem filter_insertBy_of_pos (hrank : IsRank before) {p : α → Bool} {x : α} (hx : p x = true) {l : List α}
    (h : l.Pairwise fun y z => before z y = false) :
    (insertBy before x l).filter p = insertBy before x (l.filter p) := by
  induction l with
  | nil => simp [insertBy, hx]
  | cons y rest ih =>
    rw [List.pairwise_cons] at h
    by_cases hyx : before y x = true
    · rw [insertBy, if_pos hyx, List.filter_cons, List.filter_cons, ih h.2]
      split
      · rw [insertBy, if_pos hyx]
      · rfl
    · -- the element goes to the front, before and after leaving out
      have hyx : before y x = false := Bool.eq_false_iff.2 hyx
      have hnone := before_eq_false_of_sorted hrank h.1 hyx
      rw [insertBy_of_forall hnone, List.filter_cons, if_pos hx,
        insertBy_of_forall fun z hz => hnone z (List.mem_filter.1 hz).1]

/-- Elements can be left out before sorting or after it. -/
theorem filter_sortBy (hrank : IsRank before) (p : α → Bool) (l : List α) :
    (sortBy before l).filter p = sortBy before (l.filter p) := by
  induction l with
  | nil => rfl
  | cons x rest ih =>
    rw [sortBy, List.filter_cons]
    cases hx : p x with
    | true => rw [filter_insertBy_of_pos hrank hx (pairwise_sortBy hrank rest), ih, if_pos rfl, sortBy]
    | false => rw [filter_insertBy_of_neg hx, ih, if_neg Bool.false_ne_true]

/-! ## Elements of equal rank -/

/-- Neither element comes before the other. -/
def isTied (before : α → α → Bool) (x y : α) : Bool := !before x y && !before y x

theorem IsRank.irrefl (hrank : IsRank before) (x : α) : before x x = false := by
  rw [Bool.eq_false_iff]
  intro h
  rw [hrank.asymm h] at h
  exact Bool.false_ne_true h

theorem isTied_self (hrank : IsRank before) (x : α) : isTied before x x = true := by
  rw [isTied, hrank.irrefl x]
  rfl

/-- Sorted lists that agree on the elements of each rank are the same. -/
theorem eq_of_sorted_of_tied (hrank : IsRank before) {l l' : List α} (h : l.Pairwise fun y z => before z y = false)
    (h' : l'.Pairwise fun y z => before z y = false)
    (htied : ∀ x, l.filter (isTied before x) = l'.filter (isTied before x)) : l = l' := by
  have hmem {l l' : List α} (htied : ∀ x, l.filter (isTied before x) = l'.filter (isTied before x)) {x : α}
      (hx : x ∈ l) : x ∈ l' := by
    have hfilter := List.mem_filter.2 ⟨hx, isTied_self hrank x⟩
    rw [htied] at hfilter
    exact (List.mem_filter.1 hfilter).1
  induction l generalizing l' with
  | nil =>
    cases l' with
    | nil => rfl
    | cons y rest' => exact absurd (hmem (fun x => (htied x).symm) List.mem_cons_self) List.not_mem_nil
  | cons x rest ih =>
    cases l' with
    | nil => exact absurd (hmem htied List.mem_cons_self) List.not_mem_nil
    | cons y rest' =>
      -- each of the first elements is in the other list, so neither comes before the other
      have hxy : before x y = false := by
        rcases List.mem_cons.1 (hmem htied (x := x) List.mem_cons_self) with rfl | hx
        · exact hrank.irrefl x
        · exact (List.pairwise_cons.1 h').1 x hx
      have hyx : before y x = false := by
        rcases List.mem_cons.1 (hmem (fun z => (htied z).symm) (x := y) List.mem_cons_self) with rfl | hy
        · exact hrank.irrefl y
        · exact (List.pairwise_cons.1 h).1 y hy
      have hfirst := htied x
      have hxtied : isTied before x y = true := by rw [isTied, hxy, hyx]; rfl
      rw [List.filter_cons_of_pos (isTied_self hrank x), List.filter_cons_of_pos hxtied] at hfirst
      obtain ⟨rfl, -⟩ := List.cons_eq_cons.1 hfirst
      refine congrArg (x :: ·) (ih (List.pairwise_cons.1 h).2 (List.pairwise_cons.1 h').2 fun z => ?_)
      have hz := htied z
      rw [List.filter_cons, List.filter_cons] at hz
      split at hz
      · exact (List.cons_eq_cons.1 hz).2
      · exact hz

/-- How a list is sorted depends on the elements of each rank alone. -/
theorem sortBy_eq_of_tied (hrank : IsRank before) {l l' : List α}
    (htied : ∀ x, l.filter (isTied before x) = l'.filter (isTied before x)) : sortBy before l = sortBy before l' := by
  refine eq_of_sorted_of_tied hrank (pairwise_sortBy hrank l) (pairwise_sortBy hrank l') fun x => ?_
  rw [filter_sortBy hrank, filter_sortBy hrank, htied]

/-- Elements none of which comes before another keep their order. -/
theorem sortBy_eq_self {l : List α} (h : ∀ x ∈ l, ∀ y ∈ l, before x y = false) : sortBy before l = l := by
  induction l with
  | nil => rfl
  | cons x rest ih =>
    rw [sortBy, ih fun y hy z hz => h y (List.mem_cons_of_mem x hy) z (List.mem_cons_of_mem x hz)]
    exact insertBy_of_forall fun y hy => h y (List.mem_cons_of_mem x hy) x List.mem_cons_self

/-! ## Lists of strings -/

theorem textBefore_asymm {a b : List String} (h : textBefore a b = true) : textBefore b a = false := by
  induction a generalizing b with
  | nil =>
    cases b with
    | nil => exact absurd h Bool.false_ne_true
    | cons t others => rfl
  | cons s rest ih =>
    cases b with
    | nil => exact absurd h Bool.false_ne_true
    | cons t others =>
      rw [textBefore] at h ⊢
      by_cases hst : s < t
      · rw [if_neg (String.lt_asymm hst), if_pos hst]
      · rw [if_neg hst] at h
        by_cases hts : t < s
        · rw [if_pos hts] at h
          exact absurd h Bool.false_ne_true
        · rw [if_neg hts] at h ⊢
          rw [if_neg hst]
          exact ih h

theorem textBefore_between {a b : List String} (c : List String) (h : textBefore a b = true) :
    textBefore a c = true ∨ textBefore c b = true := by
  induction a generalizing b c with
  | nil =>
    cases c with
    | nil => exact Or.inr h
    | cons u more => exact Or.inl rfl
  | cons s rest ih =>
    cases b with
    | nil => exact absurd h Bool.false_ne_true
    | cons t others =>
      cases c with
      | nil => exact Or.inr rfl
      | cons u more =>
        rw [textBefore] at h
        simp only [textBefore]
        by_cases hst : s < t
        · -- the string between comes behind the first one, or before the second one
          have hu : s < u ∨ u < t := by grind
          rcases hu with hsu | hut
          · exact Or.inl (if_pos hsu)
          · exact Or.inr (if_pos hut)
        · rw [if_neg hst] at h
          by_cases hts : t < s
          · rw [if_pos hts] at h
            exact absurd h Bool.false_ne_true
          · rw [if_neg hts] at h
            have heq : s = t := by grind
            subst heq
            by_cases hsu : s < u
            · exact Or.inl (if_pos hsu)
            · by_cases hus : u < s
              · exact Or.inr (if_pos hus)
              · rw [if_neg hsu, if_neg hus, if_neg hus, if_neg hsu]
                exact ih more h

/-- Only equal lists of strings are of equal rank. -/
theorem eq_of_isTied_textBefore {a b : List String} (h : isTied textBefore a b = true) : a = b := by
  rw [isTied, Bool.and_eq_true, Bool.not_eq_true', Bool.not_eq_true'] at h
  obtain ⟨hab, hba⟩ := h
  induction a generalizing b with
  | nil =>
    cases b with
    | nil => rfl
    | cons t others => exact absurd hab.symm Bool.false_ne_true
  | cons s rest ih =>
    cases b with
    | nil => exact absurd hba.symm Bool.false_ne_true
    | cons t others =>
      rw [textBefore] at hab hba
      by_cases hst : s < t
      · rw [if_pos hst] at hab
        exact absurd hab.symm Bool.false_ne_true
      · by_cases hts : t < s
        · rw [if_pos hts] at hba
          exact absurd hba.symm Bool.false_ne_true
        · rw [if_neg hst, if_neg hts] at hab
          rw [if_neg hts, if_neg hst] at hba
          have heq : s = t := by grind
          rw [heq, ih hab hba]

theorem isRank_textBefore : IsRank textBefore := ⟨textBefore_asymm, fun c => textBefore_between c⟩

/-! ## Strings -/

theorem isRank_lt : IsRank fun a b : String => decide (a < b) where
  asymm h := by
    rw [decide_eq_true_iff] at h
    exact decide_eq_false (String.lt_asymm h)
  between c h := by
    simp only [decide_eq_true_iff] at h ⊢
    grind

/-- Strings are sorted alike however they are given. -/
theorem sortStrings_eq_of_perm {ss ts : List String} (h : ss.Perm ts) : sortStrings ss = sortStrings ts := by
  have hperm : (sortStrings ss).Perm (sortStrings ts) := ((sortBy_perm _ ss).trans h).trans (sortBy_perm _ ts).symm
  refine hperm.eq_of_pairwise ?_ (pairwise_sortBy isRank_lt ss) (pairwise_sortBy isRank_lt ts)
  intro a b _ _ hba hab
  rw [decide_eq_false_iff_not] at hba hab
  grind

end SnippetAudit.Sorted
