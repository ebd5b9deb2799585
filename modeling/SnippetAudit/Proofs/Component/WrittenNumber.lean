import SnippetAudit.Proofs.Component.CrowdedLiteral
import SnippetAudit.Proofs.Component.NamedValue
import SnippetAudit.Proofs.Numeric.Spelling
import SnippetAudit.Proofs.Text.Trimming

/-!
# Whole numbers as attributes

A whole number is given to an attribute as a string or in braces. The string counts as a number where the
attribute is one by contract, and may have blanks around it; in braces the number is a node of its own, under a
node for the sign if it has one. Either way the attribute has exactly the number that is spelled.

## What this module delivers

- `IsNumberNode`: the nodes of numbers with a sign;
- `literal?_of_isNumberNode`: they are literals for their number;
- `numberFromText_padded`: a string is the number that it spells;
- `whole_number_attribute`: the value of an attribute that is given a whole number.
-/

set_option autoImplicit false

namespace SnippetAudit.Component

open Numeral Syntax

/-- The node is a number, or a sign in front of a number; `t` is the text of the number without the sign. -/
inductive IsNumberNode (source : Octets) (t : Text) : Sign → Node → Prop where
  | bare {n : Node} (hkind : n.kind = "number") (htext : n.text source = t) : IsNumberNode source t .absent n
  | signed {n operator argument : Node} {sign : Sign} (hkind : n.kind = "unary_expression")
      (hoperator : n.childByField? "operator" = some operator) (hsign : operator.text source = sign.text)
      (hargument : n.childByField? "argument" = some argument) (hnumber : argument.kind = "number")
      (htext : argument.text source = t) (hpresent : sign ≠ .absent) : IsNumberNode source t sign n

variable {source : Octets} {number : Nat} {t : Text} {sign : Sign} {n : Node}

theorem literal?_of_isNumberNode (hn : IsNumberNode source t sign n) (ht : IsSpelling number t) :
    literal? source n = some (.int (sign.apply number)) := by
  have hread : Number.read? t = some (.int number) := read?_signed ht .absent
  cases hn with
  | bare hkind htext =>
    rw [literal?_simple (by simp [hkind, compoundKinds]), simpleLiteral?, hkind, htext, hread]
    rfl
  | @signed _ operator argument _ hkind hoperator hsign hargument hnumber htext hpresent =>
    have hliteral : signedNumber? n source = some (.int (sign.apply number)) := by
      simp only [signedNumber?, hoperator, hargument, hnumber, htext, hread, hsign, Option.bind_eq_bind,
        Option.bind_some, bne_self_eq_false, Bool.false_eq_true, if_false]
      cases sign with
      | absent => exact absurd rfl hpresent
      | plus => rfl
      | minus => rfl
    rw [literal?_simple (by simp [hkind, compoundKinds]), simpleLiteral?, hkind]
    exact hliteral

/-- Blanks around a text are cut off. -/
theorem trim_padded {before behind : Text} (hbefore : ∀ c ∈ before, Text.isBlank c = true)
    (hbehind : ∀ c ∈ behind, Text.isBlank c = true) (ht : ∀ c ∈ t, IsPlain c) :
    Text.trim (before ++ t ++ behind) = t := by
  have hblank (c : Char) (hc : IsPlain c) : Text.isBlank c = false := hc.isBlank_eq_false
  have hstart : Text.trimStart (before ++ t) = t := by
    rw [Text.trimStart, List.dropWhile_append_of_pos hbefore, dropWhile_of_isPlain hblank ht]
  rw [Text.trim_append hbehind, Text.trim, hstart, Text.trimEnd, dropEndWhile_of_isPlain hblank ht]

/-- A string that spells a number, with blanks around it, is the number where the attribute is one by contract. -/
theorem numberFromText_padded {rules : WalkRules} {name content : String} {before behind : Text}
    (ht : IsSpelling number t) (hbefore : ∀ c ∈ before, Text.isBlank c = true)
    (hbehind : ∀ c ∈ behind, Text.isBlank c = true)
    (hcontent : content.toList = before ++ (sign.text ++ t) ++ behind) (hnumeric : name ∈ rules.numeric) :
    numberFromText rules name content = .int (sign.apply number) := by
  have hplain : ∀ c ∈ sign.text ++ t, IsPlain c := by
    rw [List.forall_mem_append]
    exact ⟨sign.isPlain_text, isPlain_of_isSpelling ht⟩
  have hread := read?_signed ht sign
  have hsome : (sign.text ++ t).isEmpty = false := by
    rw [List.isEmpty_eq_false_iff]
    intro hnil
    have hempty : Number.read? [] = none := by decide
    rw [hnil, hempty] at hread
    exact absurd hread (by simp)
  simp only [numberFromText, hcontent, trim_padded hbefore hbehind hplain, hsome, hread, Bool.false_eq_true, if_false,
    List.contains_iff_mem.2 hnumeric, if_true]
  rfl

/-- A string stays a string where the attribute is no number by contract. -/
theorem numberFromText_of_not_mem {rules : WalkRules} {name : String} (hnumeric : name ∉ rules.numeric)
    (content : String) : numberFromText rules name content = .str content := by
  rw [numberFromText, if_neg (mt List.contains_iff_mem.1 hnumeric)]

/-- A spelling of a whole number is read as exactly that number. An attribute that is a number by contract has it,
with its sign, for a string as well as for a number in braces; a string for any other attribute is kept. -/
theorem whole_number_attribute (rules : WalkRules) (source : Octets) (name : String) (sign : Sign)
    {number : Nat} {t : Text} (ht : IsSpelling number t) :
    Number.read? t = some (.int number) ∧
      (∀ a value : Node, IsAttribute source name value a → value.kind = "string" →
        (name ∈ rules.numeric → ∀ before behind : Text, (∀ c ∈ before, Text.isBlank c = true) →
            (∀ c ∈ behind, Text.isBlank c = true) →
            (quotedText value source).toList = before ++ (sign.text ++ t) ++ behind →
            attribute? rules source a = some (name, .int (sign.apply number))) ∧
          (name ∉ rules.numeric → attribute? rules source a = some (name, .str (quotedText value source)))) ∧
      ∀ a inner : Node, IsBraced source name inner a → IsNumberNode source t sign inner →
        attribute? rules source a = some (name, .int (sign.apply number)) := by
  refine ⟨read?_signed ht .absent, fun a value ha hkind => ?_, fun a inner ha hinner => ?_⟩
  · have hvalue : attribute? rules source a = some (name, numberFromText rules name (quotedText value source)) := by
      rw [attribute?_of_isAttribute rules ha, attributeValue, if_pos hkind]
    rw [hvalue]
    refine ⟨fun hnumeric before behind hbefore hbehind hcontent => ?_, fun hnumeric => ?_⟩
    · rw [numberFromText_padded ht hbefore hbehind hcontent hnumeric]
    · rw [numberFromText_of_not_mem hnumeric]
  · rw [attribute?_of_isBraced rules ha, decode, literal?_of_isNumberNode hinner ht, Option.getD_some]

/-! ## A field -/

/-- A field with the same bound twice, as a string and in braces. -/
def fieldSource : Octets := Text.encode "<F max=\" -0x1_0000000000000001 \" min=\x7b-0x1_0000000000000001\x7d />".toList

/-- The string of the upper bound. -/
def boundString : Node := fieldNode "string" 7 32 none []

/-- The negative number of the lower bound. -/
def boundNumber : Node :=
  fieldNode "unary_expression" 38 59 none
    [fieldNode "-" 38 39 "operator" [], fieldNode "number" 39 59 "argument" []]

/-- The attribute of the upper bound. -/
def upperBound : Node := fieldNode "jsx_attribute" 3 32 none [fieldNode "property_identifier" 3 6 none [], boundString]

/-- The attribute of the lower bound. -/
def lowerBound : Node :=
  fieldNode "jsx_attribute" 33 60 none
    [fieldNode "property_identifier" 33 36 none [], fieldNode "jsx_expression" 37 60 none [boundNumber]]

/-- The bound is a number that no floating-point number equals. -/
theorem whole_number_attribute_beyond_floats :
    IsSpelling (2 ^ 64 + 1) "0x1_0000000000000001".toList ∧
      IsAttribute fieldSource "max" boundString upperBound ∧
      IsBraced fieldSource "min" boundNumber lowerBound ∧
      attribute? defaultRules fieldSource upperBound = some ("max", .int (-(2 ^ 64 + 1))) ∧
      attribute? defaultRules fieldSource lowerBound = some ("min", .int (-(2 ^ 64 + 1))) := by
  have hspelling : IsSpelling (2 ^ 64 + 1) "0x1_0000000000000001".toList :=
    .announced 0 (by decide : ('x', 16) ∈ radixMarks) (by decide +kernel)
  have hupper : IsAttribute fieldSource "max" boundString upperBound :=
    ⟨_, _, rfl, by decide +kernel, rfl⟩
  have hlower : IsBraced fieldSource "min" boundNumber lowerBound :=
    ⟨_, ⟨_, _, rfl, by decide +kernel, rfl⟩, rfl, rfl⟩
  have hnumber : IsNumberNode fieldSource "0x1_0000000000000001".toList .minus boundNumber :=
    .signed rfl rfl (by decide +kernel) rfl rfl (by decide +kernel) (by decide)
  have hmax := (whole_number_attribute defaultRules fieldSource "max" .minus hspelling).2.1 _ _ hupper rfl
  have hmin := (whole_number_attribute defaultRules fieldSource "min" .minus hspelling).2.2 _ _ hlower hnumber
  have hblank : ∀ c ∈ [' '], Text.isBlank c = true := List.forall_mem_singleton.2 rfl
  exact ⟨hspelling, hupper, hlower, hmax.1 (by decide) [' '] [' '] hblank hblank (by decide +kernel), hmin⟩

end SnippetAudit.Component
