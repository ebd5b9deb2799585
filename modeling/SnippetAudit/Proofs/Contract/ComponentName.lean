import SnippetAudit.Contract.Resolver
import SnippetAudit.Proofs.Data.Members

/-!
# Contracts that are found by the names of components

In a package whose tags lead to contracts by names, a contract is named for its component, with `PropsSchema` or
with `Schema` behind the component's name. A tag leads to the contract with the first ending if there is one, and
else to that with the second. So every component's name leads to a contract. But a tag that ends in `Props` leads
to the contract of the component without `Props` as well: both endings of the two tags make the same name.

## What this module delivers

- `contractName?`: the name of the contract that a tag leads to, with `contractByName?_eq`;
- `stem?`, `componentName?`: the component that a contract is named for, with `componentName?_eq_some_iff`;
- `contract_found_by_name`: the tags that lead to a contract, and those that lead to the same one.
-/

set_option autoImplicit false

namespace SnippetAudit.Contract

/-! ## Names of contracts -/

namespace Package

/-- The name of the contract that a tag leads to. -/
def contractName? (p : Package) (tag : String) : Option String :=
  [tag ++ "PropsSchema", tag ++ "Schema"].find? p.contracts.has

variable {p : Package} {tag key : String}

/-- The contract of a tag is the one of the name that the tag leads to. -/
theorem contractByName?_eq (p : Package) (tag : String) :
    p.contractByName? tag = (p.contractName? tag).bind p.contracts.get? := by
  have hget {name : String} : p.contracts.get? name = none ↔ p.contracts.has name = false := by
    rw [← Option.isNone_iff_eq_none, ← Option.not_isSome, Members.isSome_get?, Bool.not_eq_true']
  rw [contractByName?, contractName?]
  cases hprops : p.contracts.has (tag ++ "PropsSchema") with
  | true =>
    obtain ⟨document, hdocument⟩ := Option.isSome_iff_exists.1 ((Members.isSome_get? _ _).trans hprops)
    rw [List.find?_cons_of_pos hprops, Option.bind_some, hdocument, Option.some_or]
  | false =>
    rw [List.find?_cons_of_neg (by rw [hprops]; exact Bool.false_ne_true), hget.2 hprops, Option.none_or]
    cases hplain : p.contracts.has (tag ++ "Schema") with
    | true => rw [List.find?_cons_of_pos hplain, Option.bind_some]
    | false =>
      rw [List.find?_cons_of_neg (by rw [hplain]; exact Bool.false_ne_true), hget.2 hplain]
      rfl

/-- The name that a tag leads to is one of two, and there is a contract of that name. -/
theorem of_contractName?_eq_some (h : p.contractName? tag = some key) :
    key ∈ p.contracts.names ∧ (key = tag ++ "PropsSchema" ∨ key = tag ++ "Schema") := by
  refine ⟨(Members.has_eq_true_iff _ _).1 (List.find?_some h), ?_⟩
  simpa using List.mem_of_find?_eq_some h

theorem isSome_contractName?_iff : (p.contractName? tag).isSome = true ↔
    tag ++ "PropsSchema" ∈ p.contracts.names ∨ tag ++ "Schema" ∈ p.contracts.names := by
  simp [contractName?, List.find?_isSome, Members.has_eq_true_iff]

end Package

/-! ## Names of components -/

/-- The string without an ending, if it ends so. -/
def stem? (ending s : String) : Option String :=
  if ending.toList.isSuffixOf s.toList then
    some (String.ofList (s.toList.take (s.toList.length - ending.toList.length)))
  else none

theorem stem?_eq_some_iff {ending s stem : String} : stem? ending s = some stem ↔ s = stem ++ ending := by
  rw [stem?]
  constructor
  · intro h
    split at h
    · next hsuffix =>
      obtain ⟨front, hfront⟩ := List.isSuffixOf_iff_suffix.1 hsuffix
      obtain rfl := Option.some.inj h
      rw [← String.toList_inj, String.toList_append, String.toList_ofList, ← hfront, List.length_append,
        Nat.add_sub_cancel, List.take_left]
    · cases h
  · rintro rfl
    have hsuffix : ending.toList.isSuffixOf (stem ++ ending).toList = true :=
      List.isSuffixOf_iff_suffix.2 ⟨stem.toList, String.toList_append.symm⟩
    rw [if_pos hsuffix, String.toList_append, List.length_append, Nat.add_sub_cancel, List.take_left,
      String.ofList_toList]

/-- The component that a contract is named for: the name without `PropsSchema` if it ends so, and else the name
without `Schema`. -/
def componentName? (key : String) : Option String := (stem? "PropsSchema" key).or (stem? "Schema" key)

theorem append_propsSchema (s : String) : s ++ "PropsSchema" = s ++ "Props" ++ "Schema" := by
  rw [String.append_assoc]
  rfl

theorem componentName?_eq_some_iff {key component : String} : componentName? key = some component ↔
    key = component ++ "PropsSchema" ∨ key = component ++ "Schema" ∧ ∀ stem, component ≠ stem ++ "Props" := by
  have hnone : stem? "PropsSchema" key = none ↔ ∀ stem, key ≠ stem ++ "PropsSchema" := by
    rw [Option.eq_none_iff_forall_not_mem]
    simp only [Option.mem_def, stem?_eq_some_iff, ne_eq]
  rw [componentName?, Option.or_eq_some_iff, stem?_eq_some_iff, stem?_eq_some_iff, hnone]
  refine or_congr_right ?_
  constructor
  · rintro ⟨hprops, rfl⟩
    refine ⟨rfl, ?_⟩
    rintro stem rfl
    exact hprops stem (append_propsSchema stem).symm
  · rintro ⟨rfl, hcomponent⟩
    refine ⟨fun stem hstem => hcomponent stem ?_, rfl⟩
    rwa [append_propsSchema, String.append_left_inj] at hstem

/-! ## Tags that lead to contracts -/

variable {p : Package} {tag tag' key : String}

theorem isSome_contract_iff : ((p.contractName? tag).bind p.contracts.get?).isSome = true ↔
    tag ++ "PropsSchema" ∈ p.contracts.names ∨ tag ++ "Schema" ∈ p.contracts.names := by
  rw [← Package.isSome_contractName?_iff]
  cases hname : p.contractName? tag with
  | none => rfl
  | some key =>
    have hkey := (Package.of_contractName?_eq_some hname).1
    rw [Option.bind_some, Members.isSome_get?, Members.has_eq_true_iff]
    exact iff_of_true hkey rfl

/-- A contract that one of the two names of a tag names is named for the tag, or for the tag without `Props`. -/
theorem named_iff_component : tag ++ "PropsSchema" ∈ p.contracts.names ∨ tag ++ "Schema" ∈ p.contracts.names ↔
    ∃ key ∈ p.contracts.names, ∃ component, componentName? key = some component ∧
      (tag = component ∨ key = component ++ "PropsSchema" ∧ tag = component ++ "Props") := by
  constructor
  · rintro (hprops | hplain)
    · exact ⟨_, hprops, tag, componentName?_eq_some_iff.2 (Or.inl rfl), Or.inl rfl⟩
    · by_cases hstem : ∃ stem, tag = stem ++ "Props"
      · obtain ⟨stem, rfl⟩ := hstem
        rw [← append_propsSchema] at hplain
        exact ⟨_, hplain, stem, componentName?_eq_some_iff.2 (Or.inl rfl), Or.inr ⟨rfl, rfl⟩⟩
      · exact ⟨_, hplain, tag, componentName?_eq_some_iff.2 (Or.inr ⟨rfl, not_exists.1 hstem⟩), Or.inl rfl⟩
  · rintro ⟨key, hkey, component, hcomponent, rfl | ⟨rfl, rfl⟩⟩
    · rcases componentName?_eq_some_iff.1 hcomponent with rfl | ⟨rfl, -⟩
      · exact Or.inl hkey
      · exact Or.inr hkey
    · rw [append_propsSchema] at hkey
      exact Or.inr hkey

/-- Different tags make the same name only with different endings. -/
theorem shared_name (hne : tag ≠ tag') (h : key = tag ++ "PropsSchema" ∨ key = tag ++ "Schema")
    (h' : key = tag' ++ "PropsSchema" ∨ key = tag' ++ "Schema") :
    (tag' = tag ++ "Props" ∧ key = tag ++ "PropsSchema") ∨ (tag = tag' ++ "Props" ∧ key = tag' ++ "PropsSchema") := by
  rcases h with rfl | rfl
  · rcases h' with hsame | hplain
    · exact absurd ((String.append_left_inj _).1 hsame) hne
    · rw [append_propsSchema, String.append_left_inj] at hplain
      exact Or.inl ⟨hplain.symm, rfl⟩
  · rcases h' with hprops | hsame
    · refine Or.inr ⟨?_, hprops⟩
      rwa [append_propsSchema, String.append_left_inj] at hprops
    · exact absurd ((String.append_left_inj _).1 hsame) hne

/-- In a package whose tags lead to contracts by names, the tags that lead to a contract are the names of its
components, and these names with `Props` behind them where the contract's own name has it there. Two different tags
lead to the same contract only if one of them is the other with `Props` behind it. -/
theorem contract_found_by_name (p : Package) (hnames : p.mapsTags = false) :
    (∀ tag, (Resolver.package p).judgeOf? tag =
        ((p.contractName? tag).bind p.contracts.get?).map fun document => .schema ⟨document, true⟩) ∧
      (∀ tag, ((Resolver.package p).judgeOf? tag).isSome = true ↔
        ∃ key ∈ p.contracts.names, ∃ component, componentName? key = some component ∧
          (tag = component ∨ key = component ++ "PropsSchema" ∧ tag = component ++ "Props")) ∧
      ∀ tag tag' key, tag ≠ tag' → p.contractName? tag = some key → p.contractName? tag' = some key →
        (tag' = tag ++ "Props" ∧ key = tag ++ "PropsSchema") ∨
          (tag = tag' ++ "Props" ∧ key = tag' ++ "PropsSchema") := by
  have hjudge (tag : String) : (Resolver.package p).judgeOf? tag =
      ((p.contractName? tag).bind p.contracts.get?).map fun document => .schema ⟨document, true⟩ := by
    rw [Resolver.judgeOf?, Package.contractOf?, hnames, if_neg Bool.false_ne_true, Package.contractByName?_eq]
  refine ⟨hjudge, fun tag => ?_, fun tag tag' key hne htag htag' => ?_⟩
  · rw [hjudge, Option.isSome_map, isSome_contract_iff, named_iff_component]
  · exact shared_name hne (Package.of_contractName?_eq_some htag).2 (Package.of_contractName?_eq_some htag').2

/-- A button has a contract, and no tag besides `Badge` and `BadgeProps` leads to the contract of the badge. -/
theorem contract_found_by_name_retail :
    retailPackage.mapsTags = false ∧
      ((Resolver.package retailPackage).judgeOf? "Button").isSome = true ∧
      retailPackage.contractName? "Badge" = some "BadgePropsSchema" ∧
      ∀ tag, tag ≠ "Badge" → retailPackage.contractName? tag = some "BadgePropsSchema" → tag = "BadgeProps" := by
  have hnames : retailPackage.mapsTags = false := rfl
  obtain ⟨-, hfound, hshared⟩ := contract_found_by_name retailPackage hnames
  have hbutton : "ButtonPropsSchema" ∈ retailPackage.contracts.names := by decide +kernel
  have hbadge : retailPackage.contractName? "Badge" = some "BadgePropsSchema" := by decide +kernel
  refine ⟨hnames, (hfound "Button").2 ⟨_, hbutton, "Button", componentName?_eq_some_iff.2 (Or.inl rfl), Or.inl rfl⟩,
    hbadge, fun tag hne htag => ?_⟩
  rcases hshared "Badge" tag _ hne.symm hbadge htag with ⟨hprops, -⟩ | ⟨hbare, -⟩
  · exact hprops
  · -- the name would end in `Props`
    have hstem : (stem? "Props" "Badge").isSome = true := Option.isSome_iff_exists.2 ⟨tag, stem?_eq_some_iff.2 hbare⟩
    exact absurd hstem (by decide +kernel)

/-- Every contract of the retail components is named for a component. A tag that is the name of none of them leads
to a contract all the same, and two tags lead to the same one. -/
theorem contract_shared_by_tags :
    retailMarkupPackage.mapsTags = false ∧
      (∀ key ∈ retailMarkupPackage.contracts.names, (stem? "Schema" key).isSome = true) ∧
      ((Resolver.package retailMarkupPackage).judgeOf? "BadgeProps").isSome = true ∧
      (∀ key ∈ retailMarkupPackage.contracts.names, componentName? key ≠ some "BadgeProps") ∧
      retailMarkupPackage.contractName? "Badge" = some "BadgePropsSchema" ∧
      retailMarkupPackage.contractName? "BadgeProps" = some "BadgePropsSchema" := by
  refine ⟨rfl, by decide +kernel, by decide +kernel, ?_, by decide +kernel, by decide +kernel⟩
  intro key hkey hname
  rcases componentName?_eq_some_iff.1 hname with rfl | ⟨-, hstem⟩
  · exact absurd hkey (by decide +kernel)
  · exact hstem "Badge" rfl

end SnippetAudit.Contract
