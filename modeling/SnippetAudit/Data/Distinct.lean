/-!
# Distinct names

Lists of names without the names that came before.

## What this module delivers

- `namesBeyond`: the names that are not among given ones, each once;
- `distinctNames`: the names of a list, each once;
- `mem_namesBeyond_iff`: no other names are left out;
- `nodup_namesBeyond`: no name comes twice.
-/

set_option autoImplicit false

namespace SnippetAudit

/-- The names that are not among `known`, each once, in the order of their first place. -/
def namesBeyond (known : List String) : List String → List String
  | [] => []
  | name :: rest =>
    if known.contains name then namesBeyond known rest
    else name :: namesBeyond (name :: known) rest

/-- The names of a list, each once, in the order of their first place. -/
def distinctNames (names : List String) : List String := namesBeyond [] names

/-- Only the names that are known are left out. -/
theorem mem_namesBeyond_iff (name : String) (known names : List String) :
    name ∈ namesBeyond known names ↔ name ∈ names ∧ name ∉ known := by
  fun_induction namesBeyond known names with
  | case1 => simp
  | case2 known first rest h ih =>
    rw [ih, List.mem_cons]
    have hfirst : first ∈ known := by simpa using h
    constructor
    · rintro ⟨hrest, hunknown⟩
      exact ⟨Or.inr hrest, hunknown⟩
    · rintro ⟨rfl | hrest, hunknown⟩
      · exact absurd hfirst hunknown
      · exact ⟨hrest, hunknown⟩
  | case3 known first rest h ih =>
    rw [List.mem_cons, ih, List.mem_cons, List.mem_cons]
    have hfirst : first ∉ known := by simpa using h
    constructor
    · rintro (rfl | ⟨hrest, hunknown⟩)
      · exact ⟨Or.inl rfl, hfirst⟩
      · exact ⟨Or.inr hrest, fun hknown => hunknown (Or.inr hknown)⟩
    · rintro ⟨rfl | hrest, hunknown⟩
      · exact Or.inl rfl
      · by_cases hname : name = first
        · exact Or.inl hname
        · exact Or.inr ⟨hrest, fun hknown => hknown.elim hname hunknown⟩

theorem nodup_namesBeyond (known names : List String) : (namesBeyond known names).Nodup := by
  fun_induction namesBeyond known names with
  | case1 => exact List.nodup_nil
  | case2 known first rest h ih => exact ih
  | case3 known first rest h ih =>
    refine List.nodup_cons.2 ⟨fun hfirst => ?_, ih⟩
    exact ((mem_namesBeyond_iff first (first :: known) rest).1 hfirst).2 List.mem_cons_self

end SnippetAudit
