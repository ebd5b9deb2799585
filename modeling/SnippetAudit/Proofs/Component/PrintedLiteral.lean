import SnippetAudit.Proofs.Component.WrittenNumber
import SnippetAudit.Proofs.Data.Members
import SnippetAudit.Proofs.Syntax.Span

/-!
# Literals as they are printed

A value is printed as the text of a tree: strings between quotes, numbers with a sign of their own node, lists and
objects around the texts of what is in them, any of these in parentheses. Between the texts of the parts stands
whatever the grammar puts there, remarks included. Reading takes the same path through the tree and gives the value
back. Where that path meets a node that is no literal, there is no value at all, and the attribute keeps the source.

## What this module delivers

- `Prints`, `PrintsItems`, `PrintsMembers`: the trees that print a value;
- `literal?_of_prints`: what is printed is read back;
- `Spoiled`, `literal?_of_spoiled`: a tree with a node that is no literal among those to be read;
- `printed_attribute`: the attribute that is given a printed value, or a spoiled one.
-/

set_option autoImplicit false

namespace SnippetAudit.Component

open Numeral Syntax Text

/-! ## Printing -/

/-- The text is a string in quotes that needs no escapes. -/
structure IsQuoted (quote : Char) (s : String) (t : Text) : Prop where
  text : t = quote :: (s.toList ++ [quote])
  plain : ∀ c ∈ s.toList, c ≠ quote ∧ c ≠ '\\' ∧ c ≠ '\n'

/-- The node on the text is the key of an object member: its name as it stands, or in quotes. -/
inductive PrintsKey (before t : Text) (key : Node) (name : String) : Prop where
  | bare (hspans : key.Spans before t) (hkind : key.kind = "property_identifier" ∨ key.kind = "identifier")
      (htext : t = name.toList) : PrintsKey before t key name
  | quoted {quote : Char} (hspans : key.Spans before t) (hkind : key.kind = "string")
      (hquote : quote = '"' ∨ quote = '\'') (htext : IsQuoted quote name t) : PrintsKey before t key name

mutual

/-- The tree prints the value on a text behind another. -/
inductive Prints : Text → Text → Node → Value → Prop where
  | string {before t : Text} {n : Node} {s : String} {quote : Char} (hspans : n.Spans before t)
      (hkind : n.kind = "string") (hquote : quote = '"' ∨ quote = '\'') (htext : IsQuoted quote s t) :
      Prints before t n (.str s)
  | template {before t : Text} {n : Node} {s : String} (hspans : n.Spans before t) (hkind : n.kind = "template_string")
      (hplain : ∀ child ∈ n.namedChildren, child.kind ≠ "template_substitution") (htext : IsQuoted '`' s t) :
      Prints before t n (.str s)
  | number {before t : Text} {n : Node} {k : Nat} (hspans : n.Spans before t) (hkind : n.kind = "number")
      (hspelling : IsSpelling k t) : Prints before t n (.int k)
  | signed {before t : Text} {n operator argument : Node} {k : Nat} (sign : Sign) (gap digits : Text)
      (hspans : n.Spans before t) (htext : t = sign.text ++ gap ++ digits) (hkind : n.kind = "unary_expression")
      (hpresent : sign ≠ .absent) (hoperator : n.childByField? "operator" = some operator)
      (hsign : operator.Spans before sign.text) (hargument : n.childByField? "argument" = some argument)
      (hnumber : argument.kind = "number") (hdigits : argument.Spans (before ++ sign.text ++ gap) digits)
      (hspelling : IsSpelling k digits) : Prints before t n (.int (sign.apply k))
  | bool {before t : Text} {n : Node} (b : Bool) (hspans : n.Spans before t)
      (hkind : n.kind = if b then "true" else "false") (htext : t = n.kind.toList) : Prints before t n (.bool b)
  | null {before t : Text} {n : Node} (hspans : n.Spans before t) (hkind : n.kind = "null")
      (htext : t = n.kind.toList) : Prints before t n .null
  | parenthesized {before t : Text} {n inner : Node} {v : Value} (left s right : Text)
      (hspans : n.Spans before t) (htext : t = left ++ s ++ right) (hkind : n.kind = "parenthesized_expression")
      (halone : n.namedChildren = [inner]) (hinner : Prints (before ++ left) s inner v) : Prints before t n v
  | list {before t : Text} {n : Node} {items : List Value} (hspans : n.Spans before t) (hkind : n.kind = "array")
      (hitems : PrintsItems before t (parts n) items) : Prints before t n (.list items)
  | object {before t : Text} {n : Node} {members : Members Value} (hspans : n.Spans before t)
      (hkind : n.kind = "object") (hmembers : PrintsMembers before t (parts n) members)
      (hnodup : members.names.Nodup) : Prints before t n (.object members)

/-- The trees print the values in their order, with anything between them. -/
inductive PrintsItems : Text → Text → List Node → List Value → Prop where
  | nil {before t : Text} : PrintsItems before t [] []
  | cons {before t : Text} {n : Node} {ns : List Node} {v : Value} {vs : List Value} (gap s rest : Text)
      (htext : t = gap ++ s ++ rest) (hitem : Prints (before ++ gap) s n v)
      (hrest : PrintsItems (before ++ gap ++ s) rest ns vs) : PrintsItems before t (n :: ns) (v :: vs)

/-- The trees print the members in their order, with anything between them. -/
inductive PrintsMembers : Text → Text → List Node → Members Value → Prop where
  | nil {before t : Text} : PrintsMembers before t [] []
  | cons {before t : Text} {pair key value : Node} {ns : List Node} {memberName : String} {v : Value}
      {members : Members Value} (gap name colon s rest : Text) (htext : t = gap ++ name ++ colon ++ s ++ rest)
      (hkind : pair.kind = "pair") (hkey : pair.childByField? "key" = some key)
      (hname : PrintsKey (before ++ gap) name key memberName) (hfield : pair.childByField? "value" = some value)
      (hvalue : Prints (before ++ gap ++ name ++ colon) s value v)
      (hrest : PrintsMembers (before ++ gap ++ name ++ colon ++ s) rest ns members) :
      PrintsMembers before t (pair :: ns) ((memberName, v) :: members)

end

/-! ## Reading back -/

theorem quotedText_of_isQuoted {before t : Text} {n : Node} {quote : Char} {s : String} (hspans : n.Spans before t)
    (htext : IsQuoted quote s t) (behind : Text) : quotedText n (encode (before ++ t ++ behind)) = s := by
  have hinner : unquoted (quote :: (s.toList ++ [quote])) = s.toList := by
    simp [unquoted]
  rw [quotedText, hspans.text, htext.text, hinner, String.ofList_toList]

theorem keyOf?_of_printsKey {before t : Text} {key : Node} {name : String} (h : PrintsKey before t key name)
    (behind : Text) : keyOf? key (encode (before ++ t ++ behind)) = some name := by
  cases h with
  | bare hspans hkind htext =>
    have hname : ["property_identifier", "identifier", "number"].contains key.kind = true := by
      rcases hkind with hkind | hkind <;> simp [hkind]
    rw [keyOf?, if_pos hname, hspans.text, htext, String.ofList_toList]
  | quoted hspans hkind _ htext =>
    have hname : ¬ ["property_identifier", "identifier", "number"].contains key.kind = true := by
      simp [hkind]
    rw [keyOf?, if_neg hname, if_pos hkind, quotedText_of_isQuoted hspans htext]

mutual

/-- What is printed is read back, whatever stands before and behind it. -/
theorem literal?_of_prints {before t : Text} {n : Node} {v : Value} :
    Prints before t n v → ∀ behind : Text, literal? (encode (before ++ t ++ behind)) n = some v
  | .string hspans hkind _ htext, behind => by
    rw [literal?_simple (by simp [hkind, compoundKinds]), simpleLiteral?, hkind]
    exact congrArg (fun s => some (Value.str s)) (quotedText_of_isQuoted hspans htext behind)
  | .template hspans hkind hplain htext, behind => by
    have hnone : (n.namedChildren.any fun child => child.kind == "template_substitution") = false := by
      rw [List.any_eq_false]
      simpa using hplain
    rw [literal?_simple (by simp [hkind, compoundKinds]), simpleLiteral?, hkind]
    simp only [hnone, Bool.false_eq_true, if_false, quotedText_of_isQuoted hspans htext]
  | .number hspans hkind hspelling, behind =>
    literal?_of_isNumberNode (.bare hkind (hspans.text behind)) hspelling
  | .signed _ gap digits _ htext hkind hpresent hoperator hsign hargument hnumber hdigits hspelling, behind => by
    -- the sign and the number each lie in the same source, with the rest of it behind them
    have hoperatorText := hsign.text (gap ++ digits ++ behind)
    have hargumentText := hdigits.text behind
    subst htext
    simp only [← List.append_assoc] at hoperatorText hargumentText ⊢
    exact literal?_of_isNumberNode (.signed hkind hoperator hoperatorText hargument hnumber hargumentText hpresent)
      hspelling
  | .bool b _ hkind _, behind => by
    cases b <;> rw [literal?_simple (by simp [hkind, compoundKinds]), simpleLiteral?, hkind] <;> rfl
  | .null _ hkind _, behind => by
    rw [literal?_simple (by simp [hkind, compoundKinds]), simpleLiteral?, hkind]
    rfl
  | .parenthesized _ _ right _ htext hkind halone hinner, behind => by
    have hread := literal?_of_prints hinner (right ++ behind)
    -- no remark is beside the expression, so it is the one child that counts
    subst htext
    simp only [literal?_parenthesized hkind, halone]
    simpa only [List.append_assoc] using hread
  | .list _ hkind hitems, behind => by
    rw [literal?_array hkind, mapM_of_printsItems hitems behind, Option.map_some]
  | .object _ hkind hmembers hnodup, behind => by
    rw [literal?_object hkind, mapM_of_printsMembers hmembers behind, Option.map_some,
      Members.ofPairs_of_nodup hnodup]

theorem mapM_of_printsItems {before t : Text} {ns : List Node} {vs : List Value} :
    PrintsItems before t ns vs → ∀ behind : Text, ns.mapM (literal? (encode (before ++ t ++ behind))) = some vs
  | .nil, _ => rfl
  | .cons _ _ rest htext hitem hrest, behind => by
    have hfirst := literal?_of_prints hitem (rest ++ behind)
    have hothers := mapM_of_printsItems hrest behind
    subst htext
    simp only [← List.append_assoc] at hfirst hothers ⊢
    rw [List.mapM_cons, hfirst, hothers]
    rfl

theorem mapM_of_printsMembers {before t : Text} {ns : List Node} {members : Members Value} :
    PrintsMembers before t ns members →
      ∀ behind : Text, ns.mapM (pairLiteral? (encode (before ++ t ++ behind))) = some members
  | .nil, _ => rfl
  | .cons _ _ colon s rest htext hkind hkey hname hfield hvalue hrest, behind => by
    have hkeyText := keyOf?_of_printsKey hname (colon ++ s ++ rest ++ behind)
    have hread := literal?_of_prints hvalue (rest ++ behind)
    have hothers := mapM_of_printsMembers hrest behind
    subst htext
    simp only [← List.append_assoc] at hkeyText hread hothers ⊢
    rw [List.mapM_cons, pairLiteral?, if_pos hkind, hkey, hfield, hothers]
    simp only [Option.bind_eq_bind, Option.bind_some, hkeyText, hread]
    rfl

end

/-! ## Trees that are spoiled -/

/-- The types of the nodes that may be literals. -/
def literalKinds : List String :=
  ["string", "template_string", "number", "true", "false", "null", "unary_expression"] ++ compoundKinds

/-- The node is no literal, whatever is in it. -/
inductive IsForeign (source : Octets) (n : Node) : Prop where
  | kind (hkind : n.kind ∉ literalKinds) : IsForeign source n
  | substitution {child : Node} (hkind : n.kind = "template_string") (hchild : child ∈ n.namedChildren)
      (hsubstitution : child.kind = "template_substitution") : IsForeign source n
  | operand {argument : Node} (hkind : n.kind = "unary_expression")
      (hargument : n.childByField? "argument" = some argument) (hoperand : argument.kind ≠ "number") :
      IsForeign source n
  | operator {operator : Node} (hkind : n.kind = "unary_expression")
      (hoperator : n.childByField? "operator" = some operator)
      (hsign : operator.text source ≠ ['-'] ∧ operator.text source ≠ ['+']) : IsForeign source n

/-- Among the nodes that a value is read from, one is no literal. -/
inductive Spoiled (source : Octets) : Node → Prop where
  | leaf {n : Node} (hforeign : IsForeign source n) : Spoiled source n
  | parenthesized {n inner : Node} (hkind : n.kind = "parenthesized_expression") (hmem : inner ∈ n.namedChildren)
      (hinner : Spoiled source inner) : Spoiled source n
  | item {n item : Node} (hkind : n.kind = "array") (hmem : item ∈ parts n) (hitem : Spoiled source item) :
      Spoiled source n
  | member {n member : Node} (hkind : n.kind = "object") (hmem : member ∈ parts n) (hmember : member.kind ≠ "pair") :
      Spoiled source n
  | key {n pair key : Node} (hkind : n.kind = "object") (hmem : pair ∈ parts n)
      (hkey : pair.childByField? "key" = some key)
      (hcomputed : key.kind ∉ ["property_identifier", "identifier", "number", "string"]) : Spoiled source n
  | value {n pair value : Node} (hkind : n.kind = "object") (hmem : pair ∈ parts n)
      (hvalue : pair.childByField? "value" = some value) (hspoiled : Spoiled source value) : Spoiled source n

variable {source : Octets} {n : Node}

theorem signedNumber?_of_operand {argument : Node} (hargument : n.childByField? "argument" = some argument)
    (hoperand : argument.kind ≠ "number") : signedNumber? n source = none := by
  rw [signedNumber?, hargument]
  cases n.childByField? "operator" with
  | none => rfl
  | some sign => simp [hoperand]

theorem signedNumber?_of_operator {operator : Node} (hoperator : n.childByField? "operator" = some operator)
    (hsign : operator.text source ≠ ['-'] ∧ operator.text source ≠ ['+']) : signedNumber? n source = none := by
  rw [signedNumber?, hoperator]
  cases n.childByField? "argument" with
  | none => rfl
  | some argument =>
    simp only [Option.bind_eq_bind, Option.bind_some]
    split
    · rfl
    · cases Number.read? (argument.text source) with
      | none => rfl
      | some number =>
        rw [Option.bind_some]
        split
        · next htext => exact absurd htext hsign.1
        · next htext => exact absurd htext hsign.2
        · rfl

theorem literal?_of_isForeign (h : IsForeign source n) : literal? source n = none := by
  cases h with
  | kind hkind =>
    simp only [literalKinds, List.mem_append, not_or] at hkind
    rw [literal?_simple hkind.2, simpleLiteral?]
    split
    all_goals first | rfl | next hliteral => exact absurd hkind.1 (by simp [hliteral])
  | substitution hkind hchild hsubstitution =>
    have hany : (n.namedChildren.any fun child => child.kind == "template_substitution") = true :=
      List.any_eq_true.2 ⟨_, hchild, beq_iff_eq.2 hsubstitution⟩
    rw [literal?_simple (by simp [hkind, compoundKinds]), simpleLiteral?, hkind]
    simp only [hany, if_true]
  | operand hkind hargument hoperand =>
    rw [literal?_simple (by simp [hkind, compoundKinds]), simpleLiteral?, hkind]
    exact signedNumber?_of_operand hargument hoperand
  | operator hkind hoperator hsign =>
    rw [literal?_simple (by simp [hkind, compoundKinds]), simpleLiteral?, hkind]
    exact signedNumber?_of_operator hoperator hsign

theorem keyOf?_eq_none {key : Node} (hkind : key.kind ∉ ["property_identifier", "identifier", "number", "string"]) :
    keyOf? key source = none := by
  simp only [List.mem_cons, List.not_mem_nil, or_false, not_or] at hkind
  simp [keyOf?, hkind]

theorem literal?_object_eq_none {member : Node} (hkind : n.kind = "object") (hmem : member ∈ parts n)
    (hmember : pairLiteral? source member = none) : literal? source n = none := by
  rw [literal?_object hkind, mapM_eq_none hmem hmember, Option.map_none]

/-- A spoiled tree is no literal, wherever the node is that spoils it. -/
theorem literal?_of_spoiled (h : Spoiled source n) : literal? source n = none := by
  -- one part without a value leaves all that it is part of without one
  induction h with
  | leaf hforeign => exact literal?_of_isForeign hforeign
  | @parenthesized n inner hkind hmem _ ih =>
    rw [literal?_parenthesized hkind]
    split
    · next other halone =>
      rw [halone, List.mem_singleton] at hmem
      exact hmem ▸ ih
    · rfl
  | item hkind hmem _ ih => rw [literal?_array hkind, mapM_eq_none hmem ih, Option.map_none]
  | member hkind hmem hmember => exact literal?_object_eq_none hkind hmem (if_neg hmember)
  | key hkind hmem hkey hcomputed =>
    refine literal?_object_eq_none hkind hmem ?_
    simp [pairLiteral?, hkey, keyOf?_eq_none hcomputed]
  | @value n pair value hkind hmem hvalue _ ih =>
    refine literal?_object_eq_none hkind hmem ?_
    simp [pairLiteral?, hvalue, ih]

/-! ## Attributes -/

/-- The node gives the value to an attribute in braces as well as to a member. -/
def Gives (rules : WalkRules) (source : Octets) (name : String) (n : Node) (v : Value) : Prop :=
  (∀ a : Node, IsBraced source name n a → attribute? rules source a = some (name, v)) ∧
    ∀ a : Node, IsMember source name n a → memberAttribute? source a = some (name, v)

theorem gives_decode (rules : WalkRules) (source : Octets) (name : String) (n : Node) :
    Gives rules source name n (decode n source) :=
  ⟨fun _ ha => attribute?_of_isBraced rules ha, fun _ ha => memberAttribute?_of_isMember ha⟩

/-- A tree that prints a value gives exactly that value. A spoiled tree gives the whole source of the value, whatever
else in it is a literal. -/
theorem printed_attribute (rules : WalkRules) (name : String) (before t behind : Text) (n : Node) :
    (∀ v : Value, Prints before t n v → Gives rules (encode (before ++ t ++ behind)) name n v) ∧
      (n.Spans before t → Spoiled (encode (before ++ t ++ behind)) n →
        Gives rules (encode (before ++ t ++ behind)) name n (.expr (String.ofList t))) := by
  have hgives := gives_decode rules (encode (before ++ t ++ behind)) name n
  refine ⟨fun v hprints => ?_, fun hspans hspoiled => ?_⟩
  · rwa [decode, literal?_of_prints hprints behind, Option.getD_some] at hgives
  · rwa [decode, literal?_of_spoiled hspoiled, Option.getD_none, hspans.text] at hgives

/-! ## A list -/

/-- The text in front of the data of a list. -/
def beforeData : Text := "<List data=\x7b".toList

/-- A number, a remark, a string in parentheses, and an object. -/
def dataText : Text := "[-2, /* ü */ ('né'), \x7b\"a b\": null\x7d]".toList

/-- The text behind the data. -/
def behindData : Text := "\x7d />".toList

/-- The object in the data. -/
def dataObject : Node :=
  fieldNode "object" 35 48 none
    [fieldNode "pair" 36 47 none [fieldNode "string" 36 41 "key" [], fieldNode "null" 43 47 "value" []]]

/-- The tree of the data. -/
def dataNode : Node :=
  fieldNode "array" 12 49 none
    [fieldNode "unary_expression" 13 15 none
        [fieldNode "-" 13 14 "operator" [], fieldNode "number" 14 15 "argument" []],
      fieldNode "comment" 17 25 none [],
      fieldNode "parenthesized_expression" 26 33 none [fieldNode "string" 27 32 none []],
      dataObject]

/-- The value of the data. -/
def dataValue : Value := .list [.int (-2), .str "né", .object [("a b", .null)]]

theorem dataNode_prints : Prints beforeData dataText dataNode dataValue := by
  have hobject : Prints "<List data=\x7b[-2, /* ü */ ('né'), ".toList "\x7b\"a b\": null\x7d".toList dataObject
      (.object [("a b", .null)]) := by
    refine .object ⟨by decide, by decide⟩ rfl ?_ (by decide)
    refine .cons ['\x7b'] "\"a b\"".toList ": ".toList "null".toList ['\x7d'] (by decide) rfl rfl ?_ rfl ?_ .nil
    · exact .quoted ⟨by decide, by decide⟩ rfl (Or.inl rfl) ⟨by decide, by simp⟩
    · exact .null ⟨by decide, by decide⟩ rfl (by decide)
  have hname : Prints "<List data=\x7b[-2, /* ü */ (".toList "'né'".toList
      (fieldNode "string" 27 32 none []) (.str "né") :=
    .string ⟨by decide, by decide⟩ rfl (Or.inr rfl) ⟨by decide, by simp⟩
  have hnumber : Prints "<List data=\x7b[".toList "-2".toList
      (fieldNode "unary_expression" 13 15 none
        [fieldNode "-" 13 14 "operator" [], fieldNode "number" 14 15 "argument" []])
      (.int (-2)) :=
    .signed .minus [] ['2'] ⟨by decide, by decide⟩ (by decide) rfl (by decide) rfl ⟨by decide, by decide⟩ rfl rfl
      ⟨by decide, by decide⟩ (isSpelling_toDigits (by decide))
  refine .list ⟨by decide, by decide⟩ rfl ?_
  refine .cons ['['] "-2".toList ", /* ü */ ('né'), \x7b\"a b\": null\x7d]".toList (by decide) hnumber ?_
  refine .cons ", /* ü */ ".toList "('né')".toList ", \x7b\"a b\": null\x7d]".toList (by decide) ?_ ?_
  · exact .parenthesized ['('] "'né'".toList [')'] ⟨by decide, by decide⟩ (by decide) rfl rfl hname
  · exact .cons ", ".toList "\x7b\"a b\": null\x7d".toList [']'] (by decide) hobject .nil

/-- The attribute of the data. -/
def dataAttribute : Node :=
  fieldNode "jsx_attribute" 6 50 none
    [fieldNode "property_identifier" 6 10 none [], fieldNode "jsx_expression" 11 50 none [dataNode]]

/-- The text in front of the data of a list that a call creates. -/
def beforeRows : Text := "h.createComponent('List', \x7bdata: ".toList

/-- A number, and a name in parentheses. -/
def rowsText : Text := "[1, (né)]".toList

/-- The text behind these data. -/
def behindRows : Text := "\x7d)".toList

/-- The tree of these data. -/
def rowsNode : Node :=
  fieldNode "array" 33 43 "value"
    [fieldNode "number" 34 35 none [],
      fieldNode "parenthesized_expression" 37 42 none [fieldNode "identifier" 38 41 none []]]

/-- The member of these data. -/
def rowsMember : Node := fieldNode "pair" 27 43 none [fieldNode "property_identifier" 27 31 "key" [], rowsNode]

/-- Data that are literals through and through are read; of the others the source is kept. -/
theorem printed_attribute_of_list :
    Prints beforeData dataText dataNode dataValue ∧
      IsBraced (encode (beforeData ++ dataText ++ behindData)) "data" dataNode dataAttribute ∧
      attribute? defaultRules (encode (beforeData ++ dataText ++ behindData)) dataAttribute =
        some ("data", dataValue) ∧
      Spoiled (encode (beforeRows ++ rowsText ++ behindRows)) rowsNode ∧
      IsMember (encode (beforeRows ++ rowsText ++ behindRows)) "data" rowsNode rowsMember ∧
      memberAttribute? (encode (beforeRows ++ rowsText ++ behindRows)) rowsMember =
        some ("data", .expr "[1, (né)]") := by
  have hbraced : IsBraced (encode (beforeData ++ dataText ++ behindData)) "data" dataNode dataAttribute :=
    ⟨_, ⟨_, _, rfl, by decide +kernel, rfl⟩, rfl, rfl⟩
  have hmember : IsMember (encode (beforeRows ++ rowsText ++ behindRows)) "data" rowsNode rowsMember :=
    ⟨rfl, by decide +kernel, rfl⟩
  have hspans : rowsNode.Spans beforeRows rowsText := ⟨by decide, by decide⟩
  have hname : Spoiled (encode (beforeRows ++ rowsText ++ behindRows)) (fieldNode "identifier" 38 41 none []) :=
    .leaf (.kind (by decide))
  have hspoiled : Spoiled (encode (beforeRows ++ rowsText ++ behindRows)) rowsNode :=
    .item rfl (List.mem_cons_of_mem _ (List.mem_singleton_self _))
      (.parenthesized rfl (List.mem_singleton_self _) hname)
  have hdata := (printed_attribute defaultRules "data" beforeData dataText behindData dataNode).1 _ dataNode_prints
  have hrows := (printed_attribute defaultRules "data" beforeRows rowsText behindRows rowsNode).2 hspans hspoiled
  exact ⟨dataNode_prints, hbraced, hdata.1 _ hbraced, hspoiled, hmember, hrows.2 _ hmember⟩

end SnippetAudit.Component
