import SnippetAudit.GraphQL.Parser.Document

/-!
# Parsing looks at kinds and values

A parser sees tokens by their kinds and values; their places come into errors alone. So two sequences of tokens
with the same kinds and values, as far as they go, are parsed as the same document. Every parser is built from
few steps, and each step that succeeds on one sequence does so on the other.

A step that takes a token demands that the token behind it can be read. So a document is never made of
tokens up to a place where none can be read.

## What this module delivers

- `Tokens.sights?`: the kinds and values of tokens that go on to the end of the text;
- `Tokens.Alike`: sequences with the same kinds and values;
- `Tokens.UpTo`: tokens that are taken with a readable one behind each;
- `Follows`, `Steady`: a parser does on one sequence what another does on one that is alike;
- `steady_definitions`: parsing definitions is such a parser, as are all that it is built from;
- `isSome_sights?_of_parseTokens`: tokens that are parsed go on to the end of the text;
- `parse_of_sights?`: texts with the same kinds and values of tokens are parsed as the same document.
-/

set_option autoImplicit false

namespace SnippetAudit.GraphQL

/-! ## Sequences of tokens -/

/-- What a parser sees of a token. -/
def Token.sight (t : Token) : TokenKind × String := (t.kind, t.value)

namespace Tokens

/-- What a parser sees of tokens that go on to the end of the text; nothing if there is a place where none can
be read. -/
def sights? : Tokens → Option (List (TokenKind × String))
  | .next t rest => rest.sights?.map (t.sight :: ·)
  | .finish _ => some []
  | .fault _ => none

/-- The tokens of both sequences have the same kinds and values. -/
inductive Alike : Tokens → Tokens → Prop where
  | next {t t' : Token} {rest rest' : Tokens} (hsight : t.sight = t'.sight) (h : Alike rest rest') :
      Alike (.next t rest) (.next t' rest')
  | finish (start start' : Nat) : Alike (.finish start) (.finish start')
  | fault (e e' : SyntaxError) : Alike (.fault e) (.fault e')

/-- The second sequence is what is left when tokens are taken from the first one, with a token or the end of
the text behind each of them. -/
inductive UpTo : Tokens → Tokens → Prop where
  | here (ts : Tokens) : UpTo ts ts
  | next {t : Token} {rest left : Tokens} (hreadable : ∀ e, rest ≠ .fault e) (h : UpTo rest left) :
      UpTo (.next t rest) left

theorem alike_of_sights? {ts us : Tokens} {sights : List (TokenKind × String)} (hts : ts.sights? = some sights)
    (hus : us.sights? = some sights) : ts.Alike us := by
  induction ts generalizing us sights with
  | next t rest ih =>
    obtain ⟨more, hmore, rfl⟩ := Option.map_eq_some_iff.1 hts
    cases us with
    | next t' rest' =>
      obtain ⟨more', hmore', heq⟩ := Option.map_eq_some_iff.1 hus
      obtain ⟨hsight, rfl⟩ := List.cons.inj heq
      exact .next hsight.symm (ih hmore hmore')
    | finish => cases hus
    | fault => cases hus
  | finish start =>
    cases hts
    cases us with
    | next t' rest' =>
      obtain ⟨_, -, heq⟩ := Option.map_eq_some_iff.1 hus
      cases heq
    | finish start' => exact .finish start start'
    | fault => cases hus
  | fault => cases hts

theorem Alike.refl (ts : Tokens) : ts.Alike ts := by
  induction ts with
  | next t rest ih => exact .next rfl ih
  | finish start => exact .finish start start
  | fault e => exact .fault e e

theorem Alike.length_eq {ts us : Tokens} (h : ts.Alike us) : ts.length = us.length := by
  induction h with
  | next _ _ ih => exact congrArg (· + 1) ih
  | finish => rfl
  | fault => rfl

theorem Alike.sight_head? {ts us : Tokens} (h : ts.Alike us) :
    ts.head?.map Token.sight = us.head?.map Token.sight := by
  cases h with
  | next hsight _ => exact congrArg some hsight
  | finish => rfl
  | fault => rfl

theorem UpTo.trans {ts us vs : Tokens} (h : ts.UpTo us) (h' : us.UpTo vs) : ts.UpTo vs := by
  induction h with
  | here => exact h'
  | next hreadable _ ih => exact .next hreadable (ih h')

/-- Tokens that are taken up to the end can all be read. -/
theorem UpTo.isSome_sights? {ts left : Tokens} (h : ts.UpTo left) (hts : ∀ e, ts ≠ .fault e)
    (hleft : left.head? = none) : ts.sights?.isSome = true := by
  induction h with
  | here ts =>
    cases ts with
    | next t rest => cases hleft
    | finish => rfl
    | fault e => exact absurd rfl (hts e)
  | next hreadable _ ih =>
    rw [sights?, Option.isSome_map]
    exact ih hreadable hleft

end Tokens

namespace Parser

variable {α β γ δ : Type}

/-! ## Parsers that follow each other -/

/-- Where the first parser succeeds, the second one does so on a sequence that is alike: the results are
related, what is left is alike, and tokens were taken that can be read. -/
def Follows (R : α → β → Prop) (p : Parser α) (q : Parser β) : Prop :=
  ∀ ⦃ts us : Tokens⦄, ts.Alike us → ∀ ⦃a : α⦄ ⦃left : Tokens⦄, p.run ts = .ok (a, left) →
    ∃ b left', q.run us = .ok (b, left') ∧ R a b ∧ left.Alike left' ∧ ts.UpTo left

/-- The parser gives the same result on sequences that are alike. -/
def Steady (p : Parser α) : Prop := Follows Eq p p

variable {R : α → β → Prop} {S : γ → δ → Prop} {p : Parser α} {q : Parser β}

theorem Follows.pure {a : α} {b : β} (h : R a b) : Follows R (Pure.pure a) (Pure.pure b) := by
  intro ts us halike a' left hrun
  rw [StateT.run_pure] at hrun
  cases hrun
  exact ⟨b, us, rfl, h, halike, .here ts⟩

theorem Follows.throw (e : SyntaxError) : Follows R (throw e) q := by
  intro ts us _ a left hrun
  cases hrun

theorem run_bind_eq_ok {f : α → Parser γ} {ts left : Tokens} {c : γ} (h : (p >>= f).run ts = .ok (c, left)) :
    ∃ a middle, p.run ts = .ok (a, middle) ∧ (f a).run middle = .ok (c, left) := by
  rw [StateT.run_bind] at h
  cases hfirst : p.run ts with
  | error e =>
    rw [hfirst] at h
    cases h
  | ok result =>
    rw [hfirst] at h
    exact ⟨result.1, result.2, rfl, h⟩

theorem Follows.bind {f : α → Parser γ} {g : β → Parser δ} (hp : Follows R p q)
    (hf : ∀ a b, R a b → Follows S (f a) (g b)) : Follows S (p >>= f) (q >>= g) := by
  intro ts us halike c left hrun
  obtain ⟨a, middle, hfirst, hrest⟩ := run_bind_eq_ok hrun
  obtain ⟨b, middle', hsecond, hab, hmiddle, htaken⟩ := hp halike hfirst
  obtain ⟨d, left', hlast, hcd, hleft, htaken'⟩ := hf a b hab hmiddle hrest
  refine ⟨d, left', ?_, hcd, hleft, htaken.trans htaken'⟩
  rw [StateT.run_bind, hsecond]
  exact hlast

theorem Steady.pure (a : α) : Steady (Pure.pure a : Parser α) := Follows.pure rfl

theorem Steady.bind {p : Parser α} {f : α → Parser γ} (hp : Steady p) (hf : ∀ a, Steady (f a)) :
    Steady (p >>= f) := by
  apply Follows.bind hp
  rintro a _ rfl
  exact hf a

theorem Steady.map {p : Parser α} (hp : Steady p) (f : α → γ) : Steady (f <$> p) := by
  rw [map_eq_pure_bind]
  exact hp.bind fun a => Steady.pure (f a)

theorem Steady.ite {c : Prop} [Decidable c] {p q : Parser α} (hp : Steady p) (hq : Steady q) :
    Steady (if c then p else q) := by
  split
  · exact hp
  · exact hq

/-- What is decided by a token that is seen alike may differ in its place alone. -/
theorem Steady.seen {p : Parser (Option Token)} {f : Option Token → Parser α}
    (hp : Follows (fun a b => a.map Token.sight = b.map Token.sight) p p)
    (hf : ∀ a b : Option Token, a.map Token.sight = b.map Token.sight → Follows Eq (f a) (f b)) :
    Steady (p >>= f) :=
  Follows.bind hp hf

/-! ## Single tokens -/

theorem follows_get : Follows Tokens.Alike get get := by
  intro ts us halike a left hrun
  cases hrun
  exact ⟨us, us, rfl, halike, halike, .here ts⟩

theorem follows_current : Follows (fun a b => a.map Token.sight = b.map Token.sight) current current := by
  apply Follows.bind follows_get
  intro ts us halike
  exact Follows.pure halike.sight_head?

theorem follows_refuse (fault : Option Token → SyntaxFault) : Follows R (refuse fault) q := by
  intro ts us _ a left hrun
  cases hrun

theorem steady_refuse (fault : Option Token → SyntaxFault) : Steady (refuse fault : Parser α) :=
  follows_refuse fault

theorem steady_unexpected : Steady (unexpected : Parser α) := steady_refuse _

theorem steady_budget : Steady budget := by
  apply Follows.bind follows_get
  intro ts us halike
  apply Follows.pure
  rw [halike.length_eq]

theorem steady_advance : Steady advance := by
  intro ts us halike a left hrun
  cases halike with
  | next hsight hrest =>
    -- success says that the token behind can be read
    cases hrest with
    | next hsight' hrest' =>
      cases hrun
      exact ⟨(), _, rfl, rfl, .next hsight' hrest', .next (fun _ => Tokens.noConfusion) (.here _)⟩
    | finish start start' =>
      cases hrun
      exact ⟨(), _, rfl, rfl, .finish start start', .next (fun _ => Tokens.noConfusion) (.here _)⟩
    | fault e e' => cases hrun
  | finish start start' =>
    cases hrun
    exact ⟨(), _, rfl, rfl, .finish start start', .here _⟩
  | fault e e' =>
    cases hrun
    exact ⟨(), _, rfl, rfl, .fault e e', .here _⟩

/-- A question about a token that looks at its kind and value alone. -/
theorem any_eq_of_sight {a b : Option Token} (h : a.map Token.sight = b.map Token.sight)
    (f : TokenKind × String → Bool) : (a.any fun t => f t.sight) = b.any fun t => f t.sight := by
  have hany (o : Option Token) : (o.any fun t => f t.sight) = (o.map Token.sight).any f := by
    cases o <;> rfl
  rw [hany, hany, h]

theorem steady_isAt (kind : TokenKind) : Steady (isAt kind) := by
  apply Steady.seen follows_current
  intro a b h
  apply Follows.pure
  exact any_eq_of_sight h fun sight => sight.1 == kind

theorem steady_accept (kind : TokenKind) : Steady (accept kind) := by
  apply (steady_isAt kind).bind
  intro found
  apply Steady.ite
  · exact steady_advance.bind fun _ => Steady.pure true
  · exact Steady.pure false

theorem steady_expect (kind : TokenKind) : Steady (expect kind) := by
  apply Steady.seen follows_current
  rintro a b h
  cases a with
  | none => exact follows_refuse _
  | some t =>
    cases b with
    | none => cases h
    | some t' =>
      have hsight : t.sight = t'.sight := Option.some.inj h
      obtain ⟨hkind, hvalue⟩ := Prod.mk.inj hsight
      dsimp only
      rw [hkind, hvalue]
      apply Steady.ite
      · exact steady_advance.bind fun _ => Steady.pure _
      · exact steady_refuse _

theorem steady_acceptKeyword (keyword : String) : Steady (acceptKeyword keyword) := by
  apply Steady.seen follows_current
  intro a b h
  have hany : a.any (isKeyword keyword) = b.any (isKeyword keyword) :=
    any_eq_of_sight h fun sight => sight.1 == .name && sight.2 == keyword
  rw [hany]
  apply Steady.ite
  · exact steady_advance.bind fun _ => Steady.pure true
  · exact Steady.pure false

theorem steady_expectKeyword (keyword : String) : Steady (expectKeyword keyword) := by
  apply (steady_acceptKeyword keyword).bind
  intro found
  apply Steady.ite
  · exact steady_refuse _
  · exact Steady.pure ()

theorem steady_name : Steady name := steady_expect .name

/-! ## Lists -/

section Lists

variable {item : Parser α} (hitem : Steady item)

include hitem

theorem steady_itemsUntil (close : TokenKind) (fuel : Nat) : Steady (itemsUntil close item fuel) := by
  induction fuel with
  | zero => exact steady_unexpected
  | succ fuel ih =>
    apply (steady_accept close).bind
    intro closed
    apply Steady.ite
    · exact Steady.pure []
    · exact hitem.bind fun first => ih.bind fun more => Steady.pure (first :: more)

theorem steady_any (opening close : TokenKind) : Steady (any opening item close) :=
  (steady_expect opening).bind fun _ => steady_budget.bind fun fuel => steady_itemsUntil hitem close fuel

theorem steady_many (opening close : TokenKind) : Steady (many opening item close) := by
  apply (steady_expect opening).bind
  intro _
  apply hitem.bind
  intro first
  exact steady_budget.bind fun fuel => (steady_itemsUntil hitem close fuel).bind fun more =>
    Steady.pure (first :: more)

theorem steady_optionalMany (opening close : TokenKind) : Steady (optionalMany opening item close) := by
  apply (steady_isAt opening).bind
  intro found
  apply Steady.ite
  · exact steady_many hitem opening close
  · exact Steady.pure []

theorem steady_separatedItems (separator : TokenKind) (fuel : Nat) :
    Steady (separatedItems separator item fuel) := by
  induction fuel with
  | zero => exact steady_unexpected
  | succ fuel ih =>
    apply hitem.bind
    intro first
    apply (steady_accept separator).bind
    intro found
    apply Steady.ite
    · exact ih.bind fun more => Steady.pure (first :: more)
    · exact Steady.pure [first]

theorem steady_separated (separator : TokenKind) : Steady (separated separator item) :=
  (steady_accept separator).bind fun _ => steady_budget.bind fun fuel => steady_separatedItems hitem separator fuel

end Lists

/-! ## Values, types and directives -/

theorem steady_variableName : Steady variableName := (steady_expect .dollar).bind fun _ => steady_name

/-- A variable that must not stand where it stands is an error in any case. -/
theorem steady_refuseVariable : Steady refuseVariable := by
  apply Follows.bind follows_get
  intro ts us _
  apply Follows.bind (steady_expect .dollar)
  intro _ _ _
  apply Follows.bind follows_current
  intro a b _
  cases a with
  | none => exact Follows.throw _
  | some t =>
    dsimp only
    split
    · exact Follows.throw _
    · exact Follows.throw _

theorem steady_objectField {value : Parser Literal} (hvalue : Steady value) : Steady (objectField value) := by
  apply steady_name.bind
  intro fieldName
  apply (steady_expect .colon).bind
  intro _
  exact hvalue.bind fun v => Steady.pure (fieldName, v)

theorem steady_literalWithin (constant : Bool) (fuel : Nat) : Steady (literalWithin constant fuel) := by
  induction fuel with
  | zero => exact steady_unexpected
  | succ fuel ih =>
    apply Steady.seen follows_current
    intro a b h
    cases a with
    | none => exact follows_refuse _
    | some t =>
      cases b with
      | none => cases h
      | some t' =>
        obtain ⟨hkind, hvalue⟩ := Prod.mk.inj (Option.some.inj h)
        dsimp only
        rw [hkind, hvalue]
        -- a value that is a single token
        have htaken (v : Literal) : Steady (do advance; return v) := steady_advance.bind fun _ => Steady.pure v
        split
        · exact (steady_any ih .openBracket .closeBracket).bind fun items => Steady.pure _
        · exact (steady_any (steady_objectField ih) .openBrace .closeBrace).bind fun fields => Steady.pure _
        · exact htaken _
        · exact htaken _
        · exact htaken _
        · exact htaken _
        · exact htaken _
        · apply Steady.ite
          · exact steady_refuseVariable
          · exact steady_variableName.bind fun v => Steady.pure _
        · exact steady_unexpected

theorem steady_literal (constant : Bool) : Steady (literal constant) :=
  steady_budget.bind fun fuel => steady_literalWithin constant fuel

theorem steady_typeRefWithin (fuel : Nat) : Steady (typeRefWithin fuel) := by
  induction fuel with
  | zero => exact steady_unexpected
  | succ fuel ih =>
    -- a type may be marked once its name or its list has been read
    have hmark (type : TypeRef) : Steady (do if ← accept .bang then return .nonNull type else return type) := by
      apply (steady_accept .bang).bind
      intro found
      exact Steady.ite (Steady.pure _) (Steady.pure _)
    apply (steady_accept .openBracket).bind
    intro found
    apply Steady.ite
    · apply ih.bind
      intro item
      exact (steady_expect .closeBracket).bind fun _ => hmark (.list item)
    · exact steady_name.bind fun typeName => hmark (.named typeName)

theorem steady_typeRef : Steady typeRef := steady_budget.bind fun fuel => steady_typeRefWithin fuel

theorem steady_argument (constant : Bool) : Steady (argument constant) := by
  apply steady_name.bind
  intro argumentName
  apply (steady_expect .colon).bind
  intro _
  exact (steady_literal constant).bind fun v => Steady.pure _

theorem steady_arguments (constant : Bool) : Steady (arguments constant) :=
  steady_optionalMany (steady_argument constant) .openParen .closeParen

theorem steady_directivesWithin (constant : Bool) (fuel : Nat) : Steady (directivesWithin constant fuel) := by
  induction fuel with
  | zero => exact steady_unexpected
  | succ fuel ih =>
    apply (steady_accept .atSign).bind
    intro found
    apply Steady.ite
    · apply steady_name.bind
      intro directiveName
      apply (steady_arguments constant).bind
      intro given
      exact ih.bind fun more => Steady.pure (⟨directiveName, given⟩ :: more)
    · exact Steady.pure []

theorem steady_directives (constant : Bool) : Steady (directives constant) :=
  steady_budget.bind fun fuel => steady_directivesWithin constant fuel

theorem steady_isAtDescription : Steady isAtDescription := by
  apply (steady_isAt .string).bind
  intro plain
  cases plain with
  | true => exact Steady.pure true
  | false => exact (steady_isAt .blockString).bind fun found => Steady.pure found

theorem steady_description : Steady description := by
  apply steady_isAtDescription.bind
  intro found
  exact Steady.ite steady_advance (Steady.pure ())

/-! ## Executable definitions -/

theorem steady_fragmentName : Steady fragmentName := by
  apply Steady.seen follows_current
  intro a b h
  have hany : (a.any fun t => t.value == "on") = b.any fun t => t.value == "on" :=
    any_eq_of_sight h fun sight => sight.2 == "on"
  rw [hany]
  exact Steady.ite steady_unexpected steady_name

theorem steady_setOf {item : Parser Selection} (hitem : Steady item) : Steady (setOf item) := by
  apply Follows.bind follows_get
  intro ts us halike
  dsimp only
  rw [halike.length_eq]
  exact (steady_any hitem .openBrace .closeBrace).bind fun selections => Steady.pure _

section Selections

variable {set : Parser SelectionSet} (hset : Steady set)

include hset

theorem steady_fieldSelection : Steady (fieldSelection set) := by
  -- what follows when it is known whether the field has another name
  have hrest (alias? : Option String) (fieldName : String) : Steady (do
      let given ← arguments false
      let head : FieldHead := ⟨alias?, fieldName, given, ← directives false⟩
      if ← isAt .openBrace then
        let inner ← set
        return Selection.branch head inner.place inner.selections
      else return .leaf head) := by
    apply (steady_arguments false).bind
    intro given
    apply (steady_directives false).bind
    intro directives
    apply (steady_isAt .openBrace).bind
    intro found
    apply Steady.ite
    · exact hset.bind fun inner => Steady.pure _
    · exact Steady.pure _
  apply steady_name.bind
  intro first
  apply (steady_accept .colon).bind
  intro found
  cases found with
  | true => exact steady_name.bind fun fieldName => hrest (some first) fieldName
  | false => exact hrest none first

theorem steady_fragmentSelection : Steady (fragmentSelection set) := by
  -- a selection set in place, when it is known which type it is for
  have hinline (condition : Option String) : Steady (do
      let given ← directives false
      let inner ← set
      return Selection.inline condition given inner.place inner.selections) := by
    apply (steady_directives false).bind
    intro given
    exact hset.bind fun inner => Steady.pure _
  apply (steady_expect .spread).bind
  intro _
  apply (steady_acceptKeyword "on").bind
  intro conditional
  apply (steady_isAt .name).bind
  intro named
  cases conditional with
  | true => exact (steady_name.map some).bind hinline
  | false =>
    cases named with
    | true =>
      apply steady_fragmentName.bind
      intro spreadName
      exact (steady_directives false).bind fun given => Steady.pure _
    | false => exact hinline none

end Selections

theorem steady_selectionWithin (fuel : Nat) : Steady (selectionWithin fuel) := by
  induction fuel with
  | zero => exact steady_unexpected
  | succ fuel ih =>
    apply (steady_isAt .spread).bind
    intro found
    apply Steady.ite
    · exact steady_fragmentSelection (steady_setOf ih)
    · exact steady_fieldSelection (steady_setOf ih)

theorem steady_selectionSet : Steady selectionSet :=
  steady_budget.bind fun fuel => steady_setOf (steady_selectionWithin fuel)

/-- A type, a value by default and directives, as they stand behind the name of a variable or an input. -/
theorem steady_typed {f : TypeRef → Option Literal → List Directive → α} : Steady (do
    let type ← typeRef
    let default ← if ← accept .equals then some <$> literal true else pure none
    return f type default (← directives true)) := by
  apply steady_typeRef.bind
  intro type
  apply (steady_accept .equals).bind
  intro found
  have hrest (default : Option Literal) : Steady (do return f type default (← directives true)) :=
    (steady_directives true).bind fun given => Steady.pure _
  cases found with
  | true => exact ((steady_literal true).map some).bind hrest
  | false => exact hrest none

theorem steady_variableDefinition : Steady variableDefinition := by
  apply steady_description.bind
  intro _
  apply steady_variableName.bind
  intro definedName
  exact (steady_expect .colon).bind fun _ => steady_typed

theorem steady_operationKind : Steady operationKind := by
  apply Follows.bind follows_get
  intro ts us _
  apply Follows.bind (steady_expect .name)
  rintro word _ rfl
  split
  · exact Follows.pure rfl
  · exact Follows.throw _

theorem steady_operation : Steady operation := by
  -- what follows when it is known whether the operation has a name
  have hrest (kind : OperationKind) (operationName : Option String) : Steady (do
      let parameters ← optionalMany .openParen variableDefinition .closeParen
      let given ← directives false
      return Operation.mk kind operationName parameters given (← selectionSet)) := by
    apply (steady_optionalMany steady_variableDefinition .openParen .closeParen).bind
    intro parameters
    apply (steady_directives false).bind
    intro given
    exact steady_selectionSet.bind fun set => Steady.pure _
  apply (steady_isAt .openBrace).bind
  intro short
  apply Steady.ite
  · exact steady_selectionSet.bind fun set => Steady.pure _
  · apply steady_description.bind
    intro _
    apply steady_operationKind.bind
    intro kind
    apply (steady_isAt .name).bind
    intro named
    cases named with
    | true => exact (steady_name.map some).bind (hrest kind)
    | false => exact hrest kind none

theorem steady_fragment : Steady fragment := by
  apply steady_description.bind
  intro _
  apply (steady_expectKeyword "fragment").bind
  intro _
  apply steady_fragmentName.bind
  intro definedName
  apply (steady_expectKeyword "on").bind
  intro _
  apply steady_name.bind
  intro condition
  apply (steady_directives false).bind
  intro given
  exact steady_selectionSet.bind fun set => Steady.pure _

/-! ## Declarations of the type system -/

theorem steady_placedDirectives (place : Place) : Steady (placedDirectives place) :=
  (steady_directives true).bind fun _ => Steady.pure _

theorem steady_inputDefinition : Steady inputDefinition := by
  apply steady_description.bind
  intro _
  apply steady_name.bind
  intro definedName
  exact (steady_expect .colon).bind fun _ => steady_typed

theorem steady_argumentDefinitions : Steady argumentDefinitions :=
  steady_optionalMany steady_inputDefinition .openParen .closeParen

theorem steady_fieldDefinition : Steady fieldDefinition := by
  apply steady_description.bind
  intro _
  apply steady_name.bind
  intro _
  apply steady_argumentDefinitions.bind
  intro given
  apply (steady_expect .colon).bind
  intro _
  apply steady_typeRef.bind
  intro type
  exact (steady_placedDirectives .fieldDefinition).bind fun placed => Steady.pure _

theorem steady_fieldDefinitions : Steady fieldDefinitions :=
  steady_optionalMany steady_fieldDefinition .openBrace .closeBrace

theorem steady_inputFields : Steady inputFields :=
  (steady_optionalMany steady_inputDefinition .openBrace .closeBrace).bind fun _ => Steady.pure _

theorem steady_mentionedType : Steady mentionedType := steady_name.bind fun _ => Steady.pure _

theorem steady_interfaces : Steady interfaces := by
  apply (steady_acceptKeyword "implements").bind
  intro found
  apply Steady.ite
  · exact steady_separated steady_mentionedType .ampersand
  · exact Steady.pure []

theorem steady_unionMembers : Steady unionMembers := by
  apply (steady_accept .equals).bind
  intro found
  apply Steady.ite
  · exact steady_separated steady_mentionedType .pipe
  · exact Steady.pure []

theorem steady_enumValue : Steady enumValue := by
  -- a name that is none of the reserved ones
  have hrest : Steady (do
      let _ ← name
      return Declaration.part [← placedDirectives .enumValue]) :=
    steady_name.bind fun _ => (steady_placedDirectives .enumValue).bind fun placed => Steady.pure _
  apply steady_description.bind
  intro _
  apply Steady.seen follows_current
  intro a b h
  cases a with
  | none =>
    cases b with
    | none => exact hrest
    | some t' => cases h
  | some t =>
    cases b with
    | none => cases h
    | some t' =>
      obtain ⟨-, hvalue⟩ := Prod.mk.inj (Option.some.inj h)
      dsimp only
      rw [hvalue]
      split
      · exact Follows.throw _
      · exact hrest

theorem steady_enumValues : Steady enumValues := steady_optionalMany steady_enumValue .openBrace .closeBrace

theorem steady_rootType : Steady rootType := by
  apply (steady_expect .name).bind
  intro _
  exact (steady_expect .colon).bind fun _ => steady_mentionedType

theorem steady_place : Steady place := by
  apply Follows.bind follows_get
  intro ts us _
  apply Follows.bind steady_name
  rintro word _ rfl
  split
  · exact Follows.pure rfl
  · exact Follows.throw _

theorem steady_body (keyword : TypeKeyword) : Steady keyword.body := by
  cases keyword with
  | scalar => exact (steady_placedDirectives .scalar).bind fun given => Steady.pure _
  | object =>
    apply steady_interfaces.bind
    intro implemented
    apply (steady_placedDirectives .object).bind
    intro given
    exact steady_fieldDefinitions.bind fun fields => Steady.pure _
  | interface =>
    apply steady_interfaces.bind
    intro implemented
    apply (steady_placedDirectives .interface).bind
    intro given
    exact steady_fieldDefinitions.bind fun fields => Steady.pure _
  | union =>
    exact (steady_placedDirectives .union).bind fun given => steady_unionMembers.bind fun members => Steady.pure _
  | enum =>
    exact (steady_placedDirectives .enum).bind fun given => steady_enumValues.bind fun values => Steady.pure _
  | inputObject =>
    exact (steady_placedDirectives .inputObject).bind fun given => steady_inputFields.bind fun fields => Steady.pure _

theorem steady_schemaDefinition : Steady schemaDefinition := by
  apply steady_description.bind
  intro _
  apply (steady_expectKeyword "schema").bind
  intro _
  apply (steady_placedDirectives .schema).bind
  intro given
  exact (steady_many steady_rootType .openBrace .closeBrace).bind fun roots => Steady.pure _

theorem steady_typeDefinition (keyword : TypeKeyword) : Steady (typeDefinition keyword) := by
  apply steady_description.bind
  intro _
  apply (steady_expectKeyword keyword.word).bind
  intro _
  apply steady_name.bind
  intro definedName
  exact (steady_body keyword).bind fun body => Steady.pure _

theorem steady_directiveDefinition : Steady directiveDefinition := by
  apply steady_description.bind
  intro _
  apply (steady_expectKeyword "directive").bind
  intro _
  apply (steady_expect .atSign).bind
  intro _
  apply steady_name.bind
  intro definedName
  apply steady_argumentDefinitions.bind
  intro given
  apply (steady_acceptKeyword "repeatable").bind
  intro repeatable
  apply (steady_expectKeyword "on").bind
  intro _
  exact (steady_separated steady_place .pipe).bind fun places => Steady.pure _

theorem steady_declaration {keyword : String} {declaration : Parser Definition}
    (h : declaration? keyword = some declaration) : Steady declaration := by
  rw [declaration?] at h
  split at h
  · cases h
    exact steady_schemaDefinition
  · split at h
    · cases h
      exact steady_directiveDefinition
    · obtain ⟨type, -, rfl⟩ := Option.map_eq_some_iff.1 h
      exact steady_typeDefinition type

/-- An extension must say something. -/
theorem steady_saying {body : List Declaration} {d : Definition} :
    Steady (if isBlankBody body then unexpected else return d) :=
  Steady.ite steady_unexpected (Steady.pure d)

theorem steady_extensionDefinition : Steady extensionDefinition := by
  apply (steady_expectKeyword "extend").bind
  intro _
  apply Steady.seen follows_current
  intro a b h
  cases a with
  | none => exact follows_refuse _
  | some t =>
    cases b with
    | none => cases h
    | some t' =>
      obtain ⟨hkind, hvalue⟩ := Prod.mk.inj (Option.some.inj h)
      dsimp only
      rw [isKeyword, isKeyword, hkind, hvalue]
      apply Steady.ite
      · apply steady_advance.bind
        intro _
        apply (steady_placedDirectives .schema).bind
        intro given
        apply (steady_optionalMany steady_rootType .openBrace .closeBrace).bind
        intro roots
        exact steady_saying
      · split
        · next keyword _ =>
          apply steady_advance.bind
          intro _
          apply steady_name.bind
          intro extended
          apply (steady_body keyword).bind
          intro body
          exact steady_saying
        · exact steady_unexpected

/-! ## Documents -/

theorem follows_keywordToken (described : Bool) :
    Follows (fun a b => a.map Token.sight = b.map Token.sight) (keywordToken described)
      (keywordToken described) := by
  apply Follows.bind follows_get
  intro ts us halike
  cases described with
  | false => exact Follows.pure halike.sight_head?
  | true =>
    cases halike with
    | next hsight hrest =>
      cases hrest with
      | next hsight' _ => exact Follows.pure (congrArg some hsight')
      | finish => exact Follows.pure rfl
      | fault => exact Follows.throw _
    | finish => exact Follows.pure rfl
    | fault => exact Follows.pure rfl

theorem follows_keywordStart (described : Bool) :
    Follows (fun _ _ => True) (keywordStart described) (keywordStart described) := by
  apply Follows.bind follows_get
  intro ts us halike
  cases described with
  | false => exact Follows.pure trivial
  | true => cases halike <;> exact Follows.pure trivial

theorem steady_keywordDefinition (described : Bool) {t t' : Token} (h : t.sight = t'.sight) :
    Follows Eq (keywordDefinition described t) (keywordDefinition described t') := by
  obtain ⟨-, hvalue⟩ := Prod.mk.inj h
  unfold keywordDefinition
  rw [hvalue]
  split
  · next declaration hdeclaration => exact steady_declaration hdeclaration
  · apply Steady.ite
    · exact steady_operation.bind fun d => Steady.pure _
    · apply Steady.ite
      · exact steady_fragment.bind fun d => Steady.pure _
      · split
        · apply Follows.bind follows_get
          intro _ _ _
          exact Follows.throw _
        · apply Steady.ite
          · exact steady_extensionDefinition
          · exact steady_unexpected

theorem steady_definition : Steady definition := by
  apply (steady_isAt .openBrace).bind
  intro short
  apply Steady.ite
  · exact steady_operation.bind fun d => Steady.pure _
  · apply steady_isAtDescription.bind
    intro described
    apply Steady.seen (follows_keywordToken described)
    intro a b h
    cases a with
    | none =>
      cases b with
      | none =>
        apply Follows.bind (follows_keywordStart described)
        intro _ _ _
        exact Follows.throw _
      | some t' => cases h
    | some t =>
      cases b with
      | none => cases h
      | some t' =>
        have hsight : t.sight = t'.sight := Option.some.inj h
        obtain ⟨hkind, -⟩ := Prod.mk.inj hsight
        dsimp only
        rw [hkind]
        split
        · apply Follows.bind follows_get
          intro _ _ _
          exact Follows.throw _
        · split
          · exact steady_keywordDefinition described hsight
          · exact Follows.throw _

theorem steady_definitions (fuel : Nat) : Steady (definitions fuel) := by
  induction fuel with
  | zero => exact steady_unexpected
  | succ fuel ih =>
    apply steady_definition.bind
    intro first
    apply Steady.seen follows_current
    intro a b h
    cases a with
    | none =>
      cases b with
      | none => exact Steady.pure [first]
      | some t' => cases h
    | some t =>
      cases b with
      | none => cases h
      | some t' => exact ih.bind fun more => Steady.pure (first :: more)

/-- Definitions go on until no token is left. -/
theorem head?_of_definitions {fuel : Nat} {ts left : Tokens} {ds : List Definition}
    (h : (definitions fuel).run ts = .ok (ds, left)) : left.head? = none := by
  induction fuel generalizing ts ds with
  | zero => cases h
  | succ fuel ih =>
    obtain ⟨first, behind, -, h⟩ := run_bind_eq_ok h
    obtain ⟨token?, _, hcurrent, h⟩ := run_bind_eq_ok h
    cases hcurrent
    cases hhead : behind.head? with
    | none =>
      rw [hhead] at h
      cases h
      exact hhead
    | some t =>
      rw [hhead] at h
      obtain ⟨more, _, hmore, h⟩ := run_bind_eq_ok h
      cases h
      exact ih hmore

end Parser

/-! ## Parsing tokens -/

section

variable {ts us : Tokens} {d : Document}

/-- The document of tokens is what their definitions come to. -/
theorem parseTokens_eq_ok_iff : parseTokens ts = .ok d ↔
    (∀ e, ts ≠ .fault e) ∧ ∃ left, (Parser.definitions (ts.length + 1)).run ts = .ok (d, left) := by
  have hrun : (Parser.definitions (ts.length + 1)).run' ts = .ok d ↔
      ∃ left, (Parser.definitions (ts.length + 1)).run ts = .ok (d, left) := by
    change ((Parser.definitions (ts.length + 1)).run ts).map Prod.fst = .ok d ↔ _
    cases (Parser.definitions (ts.length + 1)).run ts with
    | error e => simp [Except.map]
    | ok result => simp [Except.map, Prod.ext_iff]
  cases ts with
  | fault e => simp [parseTokens]
  | next t rest => simpa [parseTokens] using hrun
  | finish start => simpa [parseTokens] using hrun

theorem isSome_sights?_of_parseTokens (h : parseTokens ts = .ok d) : ts.sights?.isSome = true := by
  obtain ⟨hts, left, hrun⟩ := parseTokens_eq_ok_iff.1 h
  obtain ⟨-, -, -, -, -, htaken⟩ := Parser.steady_definitions _ (.refl ts) hrun
  exact htaken.isSome_sights? hts (Parser.head?_of_definitions hrun)

theorem parseTokens_of_alike (h : parseTokens ts = .ok d) (halike : ts.Alike us) : parseTokens us = .ok d := by
  obtain ⟨hts, left, hrun⟩ := parseTokens_eq_ok_iff.1 h
  obtain ⟨_, left', hrun', rfl, -, -⟩ := Parser.steady_definitions _ halike hrun
  rw [halike.length_eq] at hrun'
  refine parseTokens_eq_ok_iff.2 ⟨?_, left', hrun'⟩
  rintro e rfl
  cases halike with
  | fault e' => exact hts e' rfl

end

/-- Texts whose tokens go on to the end with the same kinds and values are parsed as the same document. -/
theorem parse_of_sights? {t t' : Text} {d : Document} {sights : List (TokenKind × String)}
    (h : parse t = .ok d) (ht : (tokens t).sights? = some sights) (ht' : (tokens t').sights? = some sights) :
    parse t' = .ok d :=
  parseTokens_of_alike h (Tokens.alike_of_sights? ht ht')

end SnippetAudit.GraphQL
