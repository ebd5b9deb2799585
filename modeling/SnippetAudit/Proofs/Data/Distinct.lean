import SnippetAudit.Data.Distinct

/-!
# Names in the order of their first place

Leaving out the names that came before keeps the others in their order. So the distinct names of a list stand in the
order of their first places in it.

## What this module delivers

- `namesBeyond_sublist`: names keep their order;
- `ListsOnce`, `listsOnce_distinctNames`: a list of all names, each once, in the order of their first places.
-/

set_option autoImplicit false

namespace SnippetAudit

theorem namesBeyond_sublist (known names : List String) : (namesBeyond known names).Sublist names := by
  fun_induction namesBeyond known names with
  | case1 => exact List.Sublist.slnil
  | case2 known first rest _ ih => exact ih.cons first
  | case3 known first rest _ ih => exact ih.cons_cons first

/-- The names of a list, each once, in the order of their first places. -/
structure ListsOnce (names listed : List String) : Prop where
  mem : ∀ name, name ∈ listed ↔ name ∈ names
  nodup : listed.Nodup
  ordered : listed.Pairwise fun name later => names.idxOf name < names.idxOf later

/-- Behind a name that is not among them, names keep the order of their first places. -/
theorem pairwise_idxOf_cons {first : String} {rest listed : List String} (hfirst : first ∉ listed)
    (h : listed.Pairwise fun name later => rest.idxOf name < rest.idxOf later) :
    listed.Pairwise fun name later => (first :: rest).idxOf name < (first :: rest).idxOf later := by
  refine h.imp_of_mem fun {name later} hname hlater hlt => ?_
  have hne {other : String} (hother : other ∈ listed) : (first == other) = false :=
    beq_eq_false_iff_ne.2 fun heq => hfirst (heq ▸ hother)
  rw [List.idxOf_cons, List.idxOf_cons, hne hname, hne hlater]
  exact Nat.succ_lt_succ hlt

theorem pairwise_idxOf_namesBeyond (known names : List String) :
    (namesBeyond known names).Pairwise fun name later => names.idxOf name < names.idxOf later := by
  fun_induction namesBeyond known names with
  | case1 => exact List.Pairwise.nil
  | case2 known first rest hknown ih =>
    refine pairwise_idxOf_cons (fun hmem => ?_) ih
    exact ((mem_namesBeyond_iff _ _ _).1 hmem).2 (List.contains_iff_mem.1 hknown)
  | case3 known first rest _ ih =>
    have hfirst : first ∉ namesBeyond (first :: known) rest := fun hmem =>
      ((mem_namesBeyond_iff _ _ _).1 hmem).2 List.mem_cons_self
    refine List.pairwise_cons.2 ⟨fun later hlater => ?_, pairwise_idxOf_cons hfirst ih⟩
    have hne : (first == later) = false := beq_eq_false_iff_ne.2 fun heq => hfirst (heq ▸ hlater)
    rw [List.idxOf_cons_self, List.idxOf_cons, hne]
    exact Nat.succ_pos _

theorem listsOnce_distinctNames (names : List String) : ListsOnce names (distinctNames names) where
  mem name := by rw [distinctNames, mem_namesBeyond_iff, and_iff_left List.not_mem_nil]
  nodup := nodup_namesBeyond [] names
  ordered := pairwise_idxOf_namesBeyond [] names

end SnippetAudit
