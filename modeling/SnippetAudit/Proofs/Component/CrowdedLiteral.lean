import SnippetAudit.Proofs.Component.Uncommented

/-!
# Literals that comments crowd

What is in parentheses is decoded if it stands there alone, and a comment beside it counts as a second part.
Lists, objects and everything else that is decoded pass over comments. So a literal stays the same without
the comments in it, unless one of them stands in parentheses; and then there is no literal before the
comments are taken away. What is decoded therefore depends on comments where they crowd a literal, and
nowhere else.

## What this module delivers

- `literal?_parenthesized`, `literal?_array`, `literal?_object`, `literal?_simple`: the forms of literals;
- `Crowded`: a comment stands beside what is in parentheses;
- `literal?_of_crowded`, `literal?_withoutComments`: crowded nodes are no literals, all others stay the same;
- `HidesLiteral`, `decode_withoutComments_iff`: where comments change what is decoded.
-/

set_option autoImplicit false

namespace SnippetAudit.Component

open Syntax

variable {source : Octets} {n : Node}

/-! ## The forms of literals -/

/-- The types of the literals that hold other literals. -/
def compoundKinds : List String := ["parenthesized_expression", "array", "object"]

/-- A node that its parent is made of: one with a name, and no comment. -/
def isPart (n : Node) : Bool := n.isNamed && !isComment n

theorem parts_eq (n : Node) : parts n = n.children.filter isPart := by
  rw [parts, Node.namedChildren, List.filter_filter]
  exact List.filter_congr fun child _ => Bool.and_comm _ _

theorem mem_children_of_mem_parts {part : Node} (h : part ∈ parts n) : part ∈ n.children := by
  rw [parts_eq] at h
  exact (List.mem_filter.1 h).1

theorem literal?_simple (hkind : n.kind ∉ compoundKinds) : literal? source n = simpleLiteral? n source := by
  obtain ⟨kind, isNamed, isMissing, hasError, start, stop, field, children⟩ := n
  simp only [compoundKinds, List.mem_cons, List.not_mem_nil, or_false, not_or] at hkind
  rw [literal?]
  exacts [hkind.1, hkind.2.1, hkind.2.2]

theorem firstNamedLiteral?_eq (ns : List Node) :
    firstNamedLiteral? source ns = (ns.filter (·.isNamed)).head?.bind (literal? source) := by
  induction ns with
  | nil => rfl
  | cons n rest ih =>
    rw [firstNamedLiteral?, ih]
    cases hn : n.isNamed <;> simp [hn]

/-- What stands in parentheses is a literal if it is one and stands there alone. -/
theorem literal?_parenthesized (hkind : n.kind = "parenthesized_expression") :
    literal? source n = match n.namedChildren with
      | [inner] => literal? source inner
      | _ => none := by
  obtain ⟨kind, isNamed, isMissing, hasError, start, stop, field, children⟩ := n
  obtain rfl : kind = "parenthesized_expression" := hkind
  rw [literal?, firstNamedLiteral?_eq]
  dsimp only [Node.namedChildren]
  generalize children.filter (·.isNamed) = named
  match named with
  | [] => rfl
  | [inner] => rfl
  | _ :: _ :: _ => rfl

/-- What takes a value from every part and passes over all other nodes, fails at the first part without a
value. -/
theorem eq_mapM_of_parts {α : Type} (value? : Node → Option α) (values? : List Node → Option (List α))
    (hnil : values? [] = some [])
    (hcons : ∀ n rest, values? (n :: rest) =
      if !n.isNamed || isComment n then values? rest
      else (value? n).bind fun value => (values? rest).map (value :: ·)) (ns : List Node) :
    values? ns = (ns.filter isPart).mapM value? := by
  induction ns with
  | nil => exact hnil
  | cons n rest ih =>
    rw [hcons, ih]
    by_cases hpart : isPart n = true
    · have hkept : ¬ (!n.isNamed || isComment n) = true := by simpa [isPart] using hpart
      rw [if_neg hkept, List.filter_cons_of_pos hpart, List.mapM_cons]
      exact congrArg _ (funext fun value => Option.map_eq_bind)
    · have hpassed : (!n.isNamed || isComment n) = true := by simpa [isPart, imp_iff_not_or] using hpart
      rw [if_pos hpassed, List.filter_cons_of_neg hpart]

/-- A list is a literal if all its items are. -/
theorem literal?_array (hkind : n.kind = "array") :
    literal? source n = ((parts n).mapM (literal? source)).map .list := by
  have hitems := eq_mapM_of_parts (literal? source) (itemLiterals? source) rfl fun n rest => by
    rw [itemLiterals?]
    cases literal? source n <;> rfl
  rw [parts_eq, ← hitems]
  obtain ⟨kind, isNamed, isMissing, hasError, start, stop, field, children⟩ := n
  obtain rfl : kind = "array" := hkind
  rw [literal?]

/-- The name and the value of an object member with a literal value. -/
def pairLiteral? (source : Octets) (pair : Node) : Option (String × Value) :=
  if pair.kind = "pair" then do
    let name ← (pair.childByField? "key").bind (keyOf? · source)
    let value ← (pair.childByField? "value").bind (literal? source)
    some (name, value)
  else none

theorem valueLiteral?_eq (ns : List Node) :
    valueLiteral? source ns = (ns.find? fun n => n.field == some "value").bind (literal? source) := by
  induction ns with
  | nil => rfl
  | cons n rest ih =>
    rw [valueLiteral?, ih, List.find?_cons]
    cases hn : n.field == some "value" <;> simp

/-- An object is a literal if all its members have names and literal values. -/
theorem literal?_object (hkind : n.kind = "object") :
    literal? source n =
      ((parts n).mapM (pairLiteral? source)).map fun pairs => .object (Members.ofPairs pairs) := by
  have hmembers := eq_mapM_of_parts (pairLiteral? source) (memberLiterals? source) rfl fun n rest => by
    obtain ⟨kind, isNamed, isMissing, hasError, start, stop, field, children⟩ := n
    rw [memberLiterals?, valueLiteral?_eq, pairLiteral?]
    dsimp only [isComment, Node.childByField?]
    congr 1
    by_cases hpair : kind = "pair"
    · simp only [hpair, bne_self_eq_false, Bool.false_eq_true, if_false, if_true]
      cases (children.find? fun child => child.field == some "key").bind (keyOf? · source) with
      | none => rfl
      | some name => cases (children.find? fun child => child.field == some "value").bind (literal? source) <;> rfl
    · rw [if_pos (bne_iff_ne.2 hpair), if_neg hpair]
      rfl
  rw [parts_eq, ← hmembers]
  obtain ⟨kind, isNamed, isMissing, hasError, start, stop, field, children⟩ := n
  obtain rfl : kind = "object" := hkind
  rw [literal?]

/-! ## A comment in parentheses -/

/-- In what makes up a literal, a comment stands beside what is in parentheses. -/
inductive Crowded : Node → Prop
  | beside {n comment : Node} (hkind : n.kind = "parenthesized_expression") (hmem : comment ∈ n.namedChildren)
      (hcomment : isComment comment = true) : Crowded n
  | inside {n inner : Node} (hkind : n.kind = "parenthesized_expression" ∨ n.kind = "array")
      (hmem : inner ∈ parts n) (hinner : Crowded inner) : Crowded n
  | member {n pair value : Node} (hkind : n.kind = "object") (hmem : pair ∈ parts n)
      (hvalue : pair.childByField? "value" = some value) (hcrowded : Crowded value) : Crowded n

theorem literal?_comment (hcomment : isComment n = true) : literal? source n = none := by
  have hkind : n.kind = "comment" := by simpa [isComment] using hcomment
  rw [literal?_simple (by simp [hkind, compoundKinds]), simpleLiteral?, hkind]
  rfl

theorem mapM_eq_none {α β : Type} {f : α → Option β} {x : α} {xs : List α} (hmem : x ∈ xs) (hx : f x = none) :
    xs.mapM f = none := by
  induction xs with
  | nil => exact absurd hmem List.not_mem_nil
  | cons y rest ih =>
    rw [List.mapM_cons]
    rcases List.mem_cons.1 hmem with rfl | hrest
    · rw [hx]
      rfl
    · rw [ih hrest]
      cases f y <;> rfl

theorem mapM_congr {α β : Type} {f g : α → Option β} {xs : List α} (h : ∀ x ∈ xs, f x = g x) :
    xs.mapM f = xs.mapM g := by
  induction xs with
  | nil => rfl
  | cons x rest ih =>
    rw [List.forall_mem_cons] at h
    rw [List.mapM_cons, List.mapM_cons, h.1, ih h.2]

/-- What a comment crowds is no literal. -/
theorem literal?_of_crowded (h : Crowded n) : literal? source n = none := by
  induction h with
  | @beside n comment hkind hmem hcomment =>
    rw [literal?_parenthesized hkind]
    split
    · next inner hchildren =>
      rw [hchildren, List.mem_singleton] at hmem
      rw [← hmem]
      exact literal?_comment hcomment
    · rfl
  | @inside n inner hkind hmem _ ih =>
    rcases hkind with hkind | hkind
    · rw [literal?_parenthesized hkind]
      split
      · next other hchildren =>
        have hchild : inner ∈ n.namedChildren := (List.mem_filter.1 hmem).1
        rw [hchildren, List.mem_singleton] at hchild
        rw [← hchild]
        exact ih
      · rfl
    · rw [literal?_array hkind, mapM_eq_none hmem ih]
      rfl
  | @member n pair value hkind hmem hvalue _ ih =>
    have hpair : pairLiteral? source pair = none := by
      rw [pairLiteral?, hvalue, Option.bind_some, ih]
      cases (pair.childByField? "key").bind (keyOf? · source) <;> simp
    rw [literal?_object hkind, mapM_eq_none hmem hpair]
    rfl

/-! ## Literals without comments -/

@[simp] theorem quotedText_withoutComments (n : Node) (source : Octets) :
    quotedText (withoutComments n) source = quotedText n source := by
  rw [quotedText, text_withoutComments, quotedText]

@[simp] theorem keyOf?_withoutComments (key : Node) (source : Octets) :
    keyOf? (withoutComments key) source = keyOf? key source := by
  simp only [keyOf?, kind_withoutComments, text_withoutComments, quotedText_withoutComments]

theorem signedNumber?_withoutComments (hfields : CommentsInNoField n) :
    signedNumber? (withoutComments n) source = signedNumber? n source := by
  rw [signedNumber?, childByField?_withoutComments hfields, childByField?_withoutComments hfields, signedNumber?]
  cases n.childByField? "operator" with
  | none => rfl
  | some sign => cases n.childByField? "argument" <;> simp

/-- A literal that holds no others stays the same: a comment is no substitution and stands in no field. -/
theorem simpleLiteral?_withoutComments (hfields : CommentsInNoField n) :
    simpleLiteral? (withoutComments n) source = simpleLiteral? n source := by
  have hsubstitution : ((withoutComments n).namedChildren.any fun child => child.kind == "template_substitution") =
      n.namedChildren.any fun child => child.kind == "template_substitution" := by
    rw [namedChildren_withoutComments, List.any_map, parts, List.any_filter]
    congr 1
    funext child
    by_cases hkind : child.kind = "template_substitution" <;> simp [isComment, hkind]
  simp only [simpleLiteral?, kind_withoutComments, text_withoutComments, quotedText_withoutComments,
    signedNumber?_withoutComments hfields, hsubstitution]

/-- A member stays the same if its value does. -/
theorem pairLiteral?_withoutComments {pair : Node} (hfields : CommentsInNoField pair)
    (hvalue : ∀ value, pair.childByField? "value" = some value →
      literal? source (withoutComments value) = literal? source value) :
    pairLiteral? source (withoutComments pair) = pairLiteral? source pair := by
  have hname : ((pair.childByField? "key").map withoutComments).bind (keyOf? · source) =
      (pair.childByField? "key").bind (keyOf? · source) := by
    cases pair.childByField? "key" <;> simp
  have hliteral : ((pair.childByField? "value").map withoutComments).bind (literal? source) =
      (pair.childByField? "value").bind (literal? source) := by
    cases hfound : pair.childByField? "value" with
    | none => rfl
    | some value => exact hvalue value hfound
  rw [pairLiteral?, kind_withoutComments, childByField?_withoutComments hfields,
    childByField?_withoutComments hfields, hname, hliteral, pairLiteral?]

/-- A literal that no comment crowds stays the same. -/
theorem literal?_withoutComments (hfields : CommentsInNoField n) (h : ¬ Crowded n) :
    literal? source (withoutComments n) = literal? source n := by
  -- the values of an object stand two steps below it
  induction n using Node.inductBelow with
  | step n ih =>
    by_cases hkind : n.kind ∈ compoundKinds
    · have hpart (part : Node) (hpart : part ∈ parts n) (hcrowded : ¬ Crowded part) :
          literal? source (withoutComments part) = literal? source part :=
        ih part (mem_children_of_mem_parts hpart) part .root (hfields.child (mem_children_of_mem_parts hpart)) hcrowded
      simp only [compoundKinds, List.mem_cons, List.not_mem_nil, or_false] at hkind
      rcases hkind with hparenthesized | harray | hobject
      · have halone : parts n = n.namedChildren := by
          refine List.filter_eq_self.2 fun child hchild => ?_
          rw [Bool.not_eq_true', ← Bool.not_eq_true]
          exact fun hcomment => h (.beside hparenthesized hchild hcomment)
        rw [literal?_parenthesized hparenthesized, ← halone,
          literal?_parenthesized ((kind_withoutComments n).trans hparenthesized), namedChildren_withoutComments]
        match hparts : parts n with
        | [] => rfl
        | [inner] =>
          have hinner : inner ∈ parts n := hparts ▸ List.mem_singleton_self inner
          exact hpart inner hinner fun hcrowded => h (.inside (Or.inl hparenthesized) hinner hcrowded)
        | _ :: _ :: _ => rfl
      · rw [literal?_array harray, literal?_array ((kind_withoutComments n).trans harray), parts_withoutComments,
          List.mapM_map]
        congr 1
        exact mapM_congr fun item hitem =>
          hpart item hitem fun hcrowded => h (.inside (Or.inr harray) hitem hcrowded)
      · rw [literal?_object hobject, literal?_object ((kind_withoutComments n).trans hobject), parts_withoutComments,
          List.mapM_map]
        congr 1
        refine mapM_congr fun pair hpair => ?_
        have hpairfields := hfields.child (mem_children_of_mem_parts hpair)
        refine pairLiteral?_withoutComments hpairfields fun value hvalue => ?_
        have hchild : value ∈ pair.children := List.mem_of_find?_eq_some hvalue
        exact ih pair (mem_children_of_mem_parts hpair) value (.inside hchild .root) (hpairfields.child hchild)
          fun hcrowded => h (.member hobject hpair hvalue hcrowded)
    · have hkind' : (withoutComments n).kind ∉ compoundKinds := by rwa [kind_withoutComments]
      rw [literal?_simple hkind, literal?_simple hkind', simpleLiteral?_withoutComments hfields]

/-! ## Decoding -/

theorem isExpr_ofNumber (x : Number) : (ofNumber x).isExpr = false := by
  cases x <;> rfl

theorem exists_of_signedNumber? {v : Value} (h : signedNumber? n source = some v) : ∃ x, v = ofNumber x := by
  simp only [signedNumber?, Option.bind_eq_bind, Option.bind_eq_some_iff] at h
  obtain ⟨sign, -, argument, -, h⟩ := h
  split at h
  · exact absurd h (by simp)
  · obtain ⟨number, -, h⟩ := Option.bind_eq_some_iff.1 h
    split at h
    · exact ⟨number.negate, (Option.some.inj h).symm⟩
    · exact ⟨number, (Option.some.inj h).symm⟩
    · exact absurd h (by simp)

theorem isExpr_simpleLiteral? {v : Value} (h : simpleLiteral? n source = some v) : v.isExpr = false := by
  rw [simpleLiteral?] at h
  split at h
  · obtain rfl := Option.some.inj h
    rfl
  · split at h
    · exact absurd h (by simp)
    · obtain rfl := Option.some.inj h
      rfl
  · obtain ⟨number, -, rfl⟩ := Option.map_eq_some_iff.1 h
    exact isExpr_ofNumber number
  · obtain rfl := Option.some.inj h
    rfl
  · obtain rfl := Option.some.inj h
    rfl
  · obtain rfl := Option.some.inj h
    rfl
  · obtain ⟨number, rfl⟩ := exists_of_signedNumber? h
    exact isExpr_ofNumber number
  · exact absurd h (by simp)

/-- No literal is an expression. -/
theorem isExpr_literal? {v : Value} (h : literal? source n = some v) : v.isExpr = false := by
  induction n using Node.induct generalizing v with
  | step n ih =>
    by_cases hkind : n.kind ∈ compoundKinds
    · simp only [compoundKinds, List.mem_cons, List.not_mem_nil, or_false] at hkind
      rcases hkind with hparenthesized | harray | hobject
      · rw [literal?_parenthesized hparenthesized] at h
        split at h
        · next inner hchildren =>
          have hinner : inner ∈ n.namedChildren := hchildren ▸ List.mem_singleton_self inner
          exact ih inner (List.mem_filter.1 hinner).1 h
        · exact absurd h (by simp)
      · rw [literal?_array harray] at h
        obtain ⟨items, -, rfl⟩ := Option.map_eq_some_iff.1 h
        rfl
      · rw [literal?_object hobject] at h
        obtain ⟨pairs, -, rfl⟩ := Option.map_eq_some_iff.1 h
        rfl
    · rw [literal?_simple hkind] at h
      exact isExpr_simpleLiteral? h

/-- A comment crowds what is a literal without it. -/
def HidesLiteral (source : Octets) (n : Node) : Prop :=
  Crowded n ∧ (literal? source (withoutComments n)).isSome = true

/-- Comments make a difference where they crowd a literal, and nowhere else. -/
theorem decode_withoutComments_iff (hfields : CommentsInNoField n) :
    decode (withoutComments n) source = decode n source ↔ ¬ HidesLiteral source n := by
  rw [decode, decode, text_withoutComments, HidesLiteral, not_and]
  by_cases hcrowded : Crowded n
  · rw [literal?_of_crowded hcrowded]
    cases hliteral : literal? source (withoutComments n) with
    | none => simp
    | some v =>
      have hexpr := isExpr_literal? hliteral
      simp only [hcrowded, Option.getD_some, Option.getD_none, Option.isSome_some, not_true_eq_false, imp_false]
      constructor
      · rintro rfl
        exact absurd hexpr Bool.noConfusion
      · exact fun h => h.elim
  · rw [literal?_withoutComments hfields hcrowded]
    exact iff_of_true rfl fun h => absurd h hcrowded

end SnippetAudit.Component
