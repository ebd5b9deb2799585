import SnippetAudit.Proofs.Data.Pieces
import SnippetAudit.Proofs.Data.Sorted
import SnippetAudit.Schema.Failure

/-!
# Failures in the order of their places

Failures are sorted by their places, and those of one place keep their order. Those of the value itself come first, as
they are given. So two lists of failures are sorted alike if they agree on the value itself and on each of its parts.

## What this module delivers

- `Failure.before`, `isRank_before`: the order of places;
- `filter_sortByPath`: leaving failures out before or after sorting;
- `Failure.isWhole`, `sortByPath_eq_append`: the failures of the value itself come first;
- `Failure.startsWith`, `sortByPath_eq_of_head`: lists that agree on each first step are sorted alike.
-/

set_option autoImplicit false

namespace SnippetAudit.Schema

/-- The place of the first failure comes before that of the second one. -/
def Failure.before (f g : Failure) : Bool := Sorted.textBefore f.pathTexts g.pathTexts

theorem isRank_before : Sorted.IsRank Failure.before :=
  ⟨Sorted.isRank_textBefore.asymm, fun h => Sorted.isRank_textBefore.between h.pathTexts⟩

theorem filter_sortByPath (p : Failure → Bool) (fs : List Failure) :
    (sortByPath fs).filter p = sortByPath (fs.filter p) :=
  Sorted.filter_sortBy isRank_before p fs

/-- The failure stands at the value itself. -/
def Failure.isWhole (f : Failure) : Bool := f.path.isEmpty

theorem Failure.isWhole_iff {f : Failure} : f.isWhole = true ↔ f.path = [] := List.isEmpty_iff

/-- The place of the value itself comes before all others. -/
theorem before_of_isWhole {f g : Failure} (hf : f.isWhole = true) : f.before g = !g.isWhole := by
  rw [Failure.isWhole_iff] at hf
  rw [Failure.before, Failure.pathTexts, hf, List.map_nil, Sorted.textBefore, Failure.pathTexts, Failure.isWhole]
  cases g.path <;> rfl

/-- The failures of the value itself come first, as they are given. -/
theorem sortByPath_eq_append (fs : List Failure) :
    sortByPath fs = fs.filter Failure.isWhole ++ sortByPath (fs.filter fun f => !f.isWhole) := by
  have hsorted := Sorted.pairwise_sortBy isRank_before fs
  have hwhole : sortByPath (fs.filter Failure.isWhole) = fs.filter Failure.isWhole := by
    refine Sorted.sortBy_eq_self fun f hf g hg => ?_
    have hbefore := before_of_isWhole (g := g) (List.mem_filter.1 hf).2
    rwa [(List.mem_filter.1 hg).2] at hbefore
  calc
    sortByPath fs = (sortByPath fs).filter Failure.isWhole ++ (sortByPath fs).filter fun f => !f.isWhole := by
      refine eq_filter_append (hsorted.imp fun {f g} hfg hg => ?_)
      rw [before_of_isWhole hg] at hfg
      simpa using hfg
    _ = fs.filter Failure.isWhole ++ sortByPath (fs.filter fun f => !f.isWhole) := by
      rw [filter_sortByPath, filter_sortByPath, hwhole]

/-- The failure stands in the part that the step with the given words leads to. -/
def Failure.startsWith (name : String) (f : Failure) : Bool := f.pathTexts.head? == some name

/-- Failures that agree on the value itself and on each first step are sorted alike. -/
theorem sortByPath_eq_of_head {fs gs : List Failure} (hwhole : fs.filter Failure.isWhole = gs.filter Failure.isWhole)
    (hpart : ∀ name, fs.filter (Failure.startsWith name) = gs.filter (Failure.startsWith name)) :
    sortByPath fs = sortByPath gs := by
  refine Sorted.sortBy_eq_of_tied isRank_before fun f => ?_
  have hplace {g : Failure} (hg : Sorted.isTied Failure.before f g = true) : f.pathTexts = g.pathTexts :=
    Sorted.eq_of_isTied_textBefore hg
  -- failures at one place have the same first step, or none
  have hstep {p : Failure → Bool} (hp : ∀ g, Sorted.isTied Failure.before f g = true → p g = true)
      (hs : List Failure) : hs.filter (Sorted.isTied Failure.before f) =
        (hs.filter p).filter (Sorted.isTied Failure.before f) := by
    rw [List.filter_filter]
    refine List.filter_congr fun g _ => ?_
    cases hg : Sorted.isTied Failure.before f g with
    | true => rw [hp g hg, Bool.and_self]
    | false => rw [Bool.false_and]
  cases hhead : f.pathTexts.head? with
  | none =>
    have hnone (g : Failure) (hg : Sorted.isTied Failure.before f g = true) : g.isWhole = true := by
      rw [hplace hg, Failure.pathTexts, List.head?_eq_none_iff, List.map_eq_nil_iff] at hhead
      exact Failure.isWhole_iff.2 hhead
    rw [hstep hnone fs, hstep hnone gs, hwhole]
  | some name =>
    have hsome (g : Failure) (hg : Sorted.isTied Failure.before f g = true) : g.startsWith name = true := by
      rw [Failure.startsWith, ← hplace hg, hhead, beq_self_eq_true]
    rw [hstep hsome fs, hstep hsome gs, hpart]

end SnippetAudit.Schema
