/-!
# Members

The members of an object are named values in the order in which their names were first given. A name
given again keeps its place and takes the new value.

## What this module delivers

- `Members`: ordered named values;
- `put`, `get?`, `names`, `has`: setting, reading and listing them;
- `ofPairs`: members from pairs in which a name may come twice.
-/

set_option autoImplicit false

namespace SnippetAudit

/-- Named values in order. -/
abbrev Members (α : Type) := List (String × α)

namespace Members

variable {α : Type}

/-- Gives a name a value: in place if the name is there, else at the end. -/
def put (name : String) (value : α) : Members α → Members α
  | [] => [(name, value)]
  | (other, old) :: rest =>
    if other = name then (name, value) :: rest else (other, old) :: put name value rest

/-- The value of a name. -/
def get? (members : Members α) (name : String) : Option α := List.lookup name members

/-- The names in order. -/
def names (members : Members α) : List String := members.map Prod.fst

/-- The name is given. -/
def has (members : Members α) (name : String) : Bool := members.names.contains name

/-- Members from pairs, a later pair replacing the value of an earlier one of the same name. -/
def ofPairs (pairs : List (String × α)) : Members α :=
  pairs.foldl (fun members pair => members.put pair.1 pair.2) []

theorem has_eq_true_iff (members : Members α) (name : String) :
    members.has name = true ↔ name ∈ members.names := by
  rw [has, List.contains_iff_mem]

theorem get?_put_self (name : String) (value : α) (members : Members α) :
    (members.put name value).get? name = some value := by
  induction members with
  | nil => simp [put, get?]
  | cons pair rest ih =>
    obtain ⟨other, old⟩ := pair
    by_cases h : other = name
    · simp [put, get?, h]
    · have h' : (name == other) = false := by simpa using fun e => h e.symm
      simpa [put, get?, h, List.lookup_cons, h'] using ih

theorem get?_put_of_ne {name other : String} (h : other ≠ name) (value : α) (members : Members α) :
    (members.put name value).get? other = members.get? other := by
  have hne : (other == name) = false := by simpa using h
  induction members with
  | nil => simp [put, get?, h]
  | cons pair rest ih =>
    obtain ⟨first, old⟩ := pair
    by_cases hfirst : first = name
    · subst hfirst
      simp [put, get?, List.lookup_cons, hne]
    · simp only [get?] at ih
      simp only [put, get?, hfirst, if_false, List.lookup_cons, ih]

theorem mem_of_get?_eq_some {name : String} {value : α} {members : Members α}
    (h : members.get? name = some value) : (name, value) ∈ members := by
  obtain ⟨before, behind, rfl, -⟩ := List.lookup_eq_some_iff.1 h
  exact List.mem_append_right before List.mem_cons_self

end Members

end SnippetAudit
