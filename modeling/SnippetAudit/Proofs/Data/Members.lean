import SnippetAudit.Data.Members

/-!
# Named values

Members whose names differ are pairs, in either direction: the value of a name is the one it is paired
with. Changing the values of pairs and making members of them may be done in either order, since
which pair counts is decided by the names.

## What this module delivers

- `get?_eq_some_of_mem`, `exists_get?_of_mem_names`, `isSome_get?`: the value of a name that is given;
- `get?_eq_of_perm`, `has_eq_of_perm`: values and names of members in another order;
- `mem_put`, `mem_put_of_ne`: what is among members once a name has been given a value;
- `mem_ofPairs`: members come from pairs;
- `ofPairs_map`: members from pairs whose values have been changed;
- `ofPairs_of_nodup`: pairs with different names are members as they stand.
-/

set_option autoImplicit false

namespace SnippetAudit.Members

/-- A name that is given once has the value that is given with it. -/
theorem get?_eq_some_of_mem {α : Type} {name : String} {value : α} {members : Members α}
    (hnodup : members.names.Nodup) (h : (name, value) ∈ members) : members.get? name = some value := by
  induction members with
  | nil => exact absurd h List.not_mem_nil
  | cons pair rest ih =>
    rw [Members.names, List.map_cons, List.nodup_cons] at hnodup
    rw [Members.get?, List.lookup_cons]
    rcases List.mem_cons.1 h with rfl | hrest
    · rw [beq_self_eq_true]
    · have hne : name ≠ pair.1 := by
        rintro rfl
        exact hnodup.1 (List.mem_map.2 ⟨(pair.1, value), hrest, rfl⟩)
      rw [beq_eq_false_iff_ne.2 hne]
      exact ih hnodup.2 hrest

theorem exists_get?_of_mem_names {α : Type} {name : String} {members : Members α}
    (h : name ∈ members.names) : ∃ value, members.get? name = some value := by
  induction members with
  | nil => exact absurd h List.not_mem_nil
  | cons pair rest ih =>
    rw [Members.get?, List.lookup_cons]
    cases hname : name == pair.1 with
    | true => exact ⟨pair.2, rfl⟩
    | false =>
      rcases List.mem_cons.1 h with rfl | hrest
      · exact absurd hname (by simp)
      · exact ih hrest

theorem isSome_get? {α : Type} (members : Members α) (name : String) :
    (members.get? name).isSome = members.has name := by
  rw [Bool.eq_iff_iff, has_eq_true_iff, Option.isSome_iff_exists]
  exact ⟨fun ⟨_, h⟩ => List.mem_map_of_mem (mem_of_get?_eq_some h), exists_get?_of_mem_names⟩

/-- Where each name is given once, its value does not depend on the order of the members. -/
theorem get?_eq_of_perm {α : Type} {a b : Members α} (hperm : a.Perm b) (hnodup : a.names.Nodup) (name : String) :
    a.get? name = b.get? name := by
  have hnodup' : b.names.Nodup := (hperm.map Prod.fst).nodup_iff.1 hnodup
  refine Option.ext fun v => ⟨fun h => ?_, fun h => ?_⟩
  · exact get?_eq_some_of_mem hnodup' (hperm.mem_iff.1 (mem_of_get?_eq_some h))
  · exact get?_eq_some_of_mem hnodup (hperm.mem_iff.2 (mem_of_get?_eq_some h))

theorem has_eq_of_perm {α : Type} {a b : Members α} (hperm : a.Perm b) : a.has = b.has := by
  funext name
  rw [Bool.eq_iff_iff, has_eq_true_iff, has_eq_true_iff]
  exact (hperm.map Prod.fst).mem_iff

theorem mem_put {α : Type} {name : String} {value : α} {members : Members α} {pair : String × α}
    (h : pair ∈ members.put name value) : pair = (name, value) ∨ pair ∈ members := by
  induction members with
  | nil => exact Or.inl (List.mem_singleton.1 h)
  | cons first rest ih =>
    rw [Members.put] at h
    split at h
    · rcases List.mem_cons.1 h with hfirst | hrest
      · exact Or.inl hfirst
      · exact Or.inr (List.mem_cons_of_mem _ hrest)
    · rcases List.mem_cons.1 h with hfirst | hrest
      · exact Or.inr (hfirst ▸ List.mem_cons_self)
      · exact (ih hrest).imp_right (List.mem_cons_of_mem _)

/-- What has another name stays among members when a name is given a value. -/
theorem mem_put_of_ne {α : Type} {name : String} (value : α) {members : Members α} {pair : String × α}
    (h : pair ∈ members) (hne : pair.1 ≠ name) : pair ∈ members.put name value := by
  induction members with
  | nil => exact absurd h List.not_mem_nil
  | cons first rest ih =>
    rw [Members.put]
    split
    · next hfirst =>
      rcases List.mem_cons.1 h with rfl | hrest
      · exact absurd hfirst hne
      · exact List.mem_cons_of_mem _ hrest
    · rcases List.mem_cons.1 h with rfl | hrest
      · exact List.mem_cons_self
      · exact List.mem_cons_of_mem _ (ih hrest)

theorem mem_foldl_put {α : Type} {pairs : List (String × α)} {members : Members α} {pair : String × α}
    (h : pair ∈ pairs.foldl (fun (ms : Members α) p => ms.put p.1 p.2) members) :
    pair ∈ members ∨ pair ∈ pairs := by
  induction pairs generalizing members with
  | nil => exact Or.inl h
  | cons first rest ih =>
    rcases ih h with hput | hrest
    · rcases mem_put hput with rfl | hmembers
      · exact Or.inr List.mem_cons_self
      · exact Or.inl hmembers
    · exact Or.inr (List.mem_cons_of_mem first hrest)

/-- Members come from the pairs that they are made from. -/
theorem mem_ofPairs {α : Type} {pairs : List (String × α)} {pair : String × α} (h : pair ∈ ofPairs pairs) :
    pair ∈ pairs :=
  (mem_foldl_put h).resolve_left List.not_mem_nil

/-- A name is given the changed value where the values are changed. -/
theorem put_map {α β : Type} (f : α → β) (name : String) (value : α) (members : Members α) :
    Members.put name (f value) (members.map fun pair => (pair.1, f pair.2)) =
      (members.put name value).map fun pair => (pair.1, f pair.2) := by
  induction members with
  | nil => rfl
  | cons first rest ih =>
    rw [put, List.map_cons, put]
    split
    · rfl
    · rw [List.map_cons, ih]

/-- The members from pairs whose values have been changed are the members from the pairs with their values
changed. -/
theorem ofPairs_map {α β : Type} (f : α → β) (pairs : List (String × α)) :
    ofPairs (pairs.map fun pair => (pair.1, f pair.2)) = (ofPairs pairs).map fun pair => (pair.1, f pair.2) := by
  have hfold (members : Members α) :
      (pairs.map fun pair => (pair.1, f pair.2)).foldl (fun (ms : Members β) pair => ms.put pair.1 pair.2)
          (members.map fun pair => (pair.1, f pair.2)) =
        (pairs.foldl (fun (ms : Members α) pair => ms.put pair.1 pair.2) members).map
          fun pair => (pair.1, f pair.2) := by
    induction pairs generalizing members with
    | nil => rfl
    | cons first rest ih =>
      rw [List.map_cons, List.foldl_cons, List.foldl_cons]
      dsimp only
      rw [put_map, ih]
  exact hfold []

/-- A new name is put at the end. -/
theorem put_of_not_mem {α : Type} {name : String} {members : Members α} (h : name ∉ members.names) (value : α) :
    members.put name value = members ++ [(name, value)] := by
  induction members with
  | nil => rfl
  | cons first rest ih =>
    rw [names, List.map_cons, List.mem_cons, not_or] at h
    rw [put, if_neg fun hname => h.1 hname.symm, ih h.2, List.cons_append]

/-- Pairs with different names are members as they stand. -/
theorem ofPairs_of_nodup {α : Type} {pairs : Members α} (h : pairs.names.Nodup) : ofPairs pairs = pairs := by
  -- the members so far and the pairs to come have different names
  have hfold (members rest : Members α) (h : (names (members ++ rest)).Nodup) :
      rest.foldl (fun (ms : Members α) pair => ms.put pair.1 pair.2) members = members ++ rest := by
    induction rest generalizing members with
    | nil => exact (List.append_nil members).symm
    | cons first rest ih =>
      have hassoc : members ++ first :: rest = members ++ [first] ++ rest := by simp
      have hnew : first.1 ∉ members.names := by
        intro hmem
        rw [names, List.map_append] at h
        exact (List.nodup_append.1 h).2.2 _ hmem _ (List.mem_cons_self) rfl
      rw [List.foldl_cons, put_of_not_mem hnew, hassoc]
      exact ih _ (hassoc ▸ h)
  exact hfold [] pairs h

end SnippetAudit.Members
