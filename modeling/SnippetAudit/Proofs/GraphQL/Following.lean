import SnippetAudit.Proofs.GraphQL.Parsing

/-!
# What follows a variable

In an executable document, a variable stands in brackets: in those of arguments, of lists or objects, or of variable
definitions. So no directive, no spread and no opening bracket follows it, and behind the colon of a definition there
is a type. This is shown from the end of the tokens to their start: a parser that was given orderly tokens behind what
it took has taken orderly ones. A value may end with a variable, so that for values it matters what follows.

## What this module delivers

- `Tokens.kinds`: the kinds of tokens;
- `Harmless`, `BehindName`, `NamesVariable`, `Orderly`: what may follow a variable, and kinds in which it does;
- `Keeps`, `Starts`, `Gives`: what is asked of parsers, with `keeps_definitions` for the last of them;
- `orderly_of_parseTokens`: the tokens of executable documents are orderly.
-/

set_option autoImplicit false

namespace SnippetAudit.GraphQL

/-! ## Kinds in their order -/

/-- The kinds of tokens, up to the place where none is left or none can be read. -/
def Tokens.kinds : Tokens → List TokenKind
  | .next t rest => t.kind :: rest.kinds
  | _ => []

/-- Neither a directive nor a spread nor arguments start here, and no colon stands here. -/
def Harmless (kinds : List TokenKind) : Prop :=
  ∀ kind ∈ kinds.head?, kind ≠ .atSign ∧ kind ≠ .spread ∧ kind ≠ .openParen ∧ kind ≠ .colon

/-- What holds of a kind holds of the first one. -/
theorem forall_head?_cons {P : TokenKind → Prop} {kind : TokenKind} (h : P kind) (rest : List TokenKind) :
    ∀ first ∈ (kind :: rest).head?, P first := by
  intro first hfirst
  obtain rfl := Option.some.inj hfirst
  exact h

theorem harmless_cons {kind : TokenKind} (h : kind ≠ .atSign ∧ kind ≠ .spread ∧ kind ≠ .openParen ∧ kind ≠ .colon)
    (rest : List TokenKind) : Harmless (kind :: rest) :=
  forall_head?_cons h rest

/-- A type starts here. -/
def StartsType (kinds : List TokenKind) : Prop := ∃ kind ∈ kinds.head?, kind = .name ∨ kind = .openBracket

/-- What stands behind the name of a variable: something harmless, or a colon and a type. -/
inductive BehindName : List TokenKind → Prop where
  | value {kinds : List TokenKind} (h : Harmless kinds) : BehindName kinds
  | definition {rest : List TokenKind} (h : StartsType rest) : BehindName (.colon :: rest)

/-- What stands behind the sign of a variable. -/
def NamesVariable (kinds : List TokenKind) : Prop := ∃ rest, kinds = .name :: rest ∧ BehindName rest

/-- All variables are named, and followed by what may follow them. -/
def Orderly : List TokenKind → Prop
  | [] => True
  | kind :: rest => (kind = .dollar → NamesVariable rest) ∧ Orderly rest

theorem orderly_cons_iff {kind : TokenKind} (hkind : kind ≠ .dollar) {rest : List TokenKind} :
    Orderly (kind :: rest) ↔ Orderly rest := by
  rw [Orderly, and_iff_right fun h => absurd h hkind]

/-- What holds of all kinds holds behind each sign of a variable. -/
theorem Orderly.of_suffix {kinds rest : List TokenKind} (h : Orderly kinds) (hrest : .dollar :: rest <:+ kinds) :
    NamesVariable rest := by
  induction kinds with
  | nil => exact absurd hrest (by simp)
  | cons kind more ih =>
    rcases List.suffix_cons_iff.1 hrest with heq | hsuffix
    · obtain ⟨rfl, rfl⟩ := List.cons.inj heq
      exact h.1 rfl
    · exact ih h.2 hsuffix

theorem Tokens.kinds_of_sights? {ts : Tokens} {sights : List (TokenKind × String)} (h : ts.sights? = some sights) :
    ts.kinds = sights.map Prod.fst := by
  induction ts generalizing sights with
  | next t rest ih =>
    obtain ⟨more, hmore, rfl⟩ := Option.map_eq_some_iff.1 h
    rw [kinds, ih hmore]
    rfl
  | finish start =>
    cases h
    rfl
  | fault e => cases h

/-- The definition is an operation or a fragment. -/
def Definition.isExecutable : Definition → Bool
  | .system _ _ => false
  | _ => true

namespace Parser

variable {α β : Type}

/-! ## What is asked of parsers -/

/-- Where what is left is orderly, what was there before is. If what the parser takes may end with a variable, something
harmless must follow. -/
def Keeps (opens : Bool) (p : Parser α) : Prop :=
  ∀ ⦃ts : Tokens⦄ ⦃a : α⦄ ⦃left : Tokens⦄, p.run ts = .ok (a, left) → Orderly left.kinds →
    (opens = true → Harmless left.kinds) → Orderly ts.kinds

/-- The parser starts with something of a sort. -/
def Starts (sort : List TokenKind → Prop) (p : Parser α) : Prop :=
  ∀ ⦃ts : Tokens⦄ ⦃a : α⦄ ⦃left : Tokens⦄, p.run ts = .ok (a, left) → sort ts.kinds

variable {opens : Bool} {p q : Parser α}

theorem Keeps.pure (a : α) : Keeps opens (Pure.pure a : Parser α) := by
  intro ts _ left hrun hleft _
  cases hrun
  exact hleft

theorem Keeps.bind {f : α → Parser β} (hp : Keeps false p) (hf : ∀ a, Keeps opens (f a)) : Keeps opens (p >>= f) := by
  intro ts b left hrun hleft hend
  obtain ⟨a, middle, hfirst, hrest⟩ := run_bind_eq_ok hrun
  exact hp hfirst (hf a hrest hleft hend) nofun

/-- What is made of a result does not matter. -/
theorem Keeps.map (hp : Keeps opens p) (f : α → β) : Keeps opens (f <$> p) := by
  intro ts b left hrun hleft hend
  rw [map_eq_pure_bind] at hrun
  obtain ⟨a, middle, hfirst, hrest⟩ := run_bind_eq_ok hrun
  cases hrest
  exact hp hfirst hleft hend

theorem Keeps.ite {c : Prop} [Decidable c] (hp : Keeps opens p) (hq : Keeps opens q) :
    Keeps opens (if c then p else q) := by
  split
  · exact hp
  · exact hq

theorem Keeps.throw (e : SyntaxError) : Keeps opens (throw e : Parser α) := nofun

/-- A parser that takes nothing changes nothing. -/
theorem Keeps.of_eq (h : ∀ {ts : Tokens} {a : α} {left : Tokens}, p.run ts = .ok (a, left) → ts = left) :
    Keeps opens p :=
  fun _ _ _ hrun hleft _ => h hrun ▸ hleft

theorem eq_of_isAt {kind : TokenKind} {ts left : Tokens} {found : Bool}
    (h : (isAt kind).run ts = .ok (found, left)) : ts = left := by
  cases h
  rfl

theorem keeps_get : Keeps opens get := .of_eq fun h => by cases h; rfl

theorem keeps_current : Keeps opens current := .of_eq fun h => by cases h; rfl

theorem keeps_budget : Keeps opens budget := .of_eq fun h => by cases h; rfl

theorem keeps_isAt (kind : TokenKind) : Keeps opens (isAt kind) := .of_eq eq_of_isAt

theorem keeps_unexpected : Keeps opens (unexpected : Parser α) := nofun

/-! ## Single tokens -/

/-- What is taken is the first token. -/
theorem kinds_of_advance {ts left : Tokens} {u : Unit} {t : Token} (hhead : ts.head? = some t)
    (h : advance.run ts = .ok (u, left)) : ts.kinds = t.kind :: left.kinds := by
  cases ts with
  | next t' rest =>
    obtain rfl : t' = t := Option.some.inj hhead
    cases rest with
    | next => cases h; rfl
    | finish => cases h; rfl
    | fault => cases h
  | finish => cases hhead
  | fault => cases hhead

theorem kinds_of_expect {kind : TokenKind} {ts left : Tokens} {v : String}
    (h : (expect kind).run ts = .ok (v, left)) : ts.kinds = kind :: left.kinds := by
  obtain ⟨token?, _, hcurrent, h⟩ := run_bind_eq_ok h
  cases hcurrent
  cases hhead : ts.head? with
  | none =>
    rw [hhead] at h
    cases h
  | some t =>
    rw [hhead] at h
    dsimp only at h
    split at h
    · next hkind =>
      obtain ⟨u, middle, hadvance, h⟩ := run_bind_eq_ok h
      cases h
      rw [kinds_of_advance hhead hadvance, eq_of_beq hkind]
    · cases h

/-- A token is taken only if it is of the kind. -/
theorem kinds_of_accept {kind : TokenKind} {ts left : Tokens} {found : Bool}
    (h : (accept kind).run ts = .ok (found, left)) :
    (found = true ∧ ts.kinds = kind :: left.kinds) ∨ (found = false ∧ left = ts) := by
  obtain ⟨isAt?, _, hat, h⟩ := run_bind_eq_ok h
  cases hat
  cases hhead : ts.head? with
  | none =>
    rw [hhead] at h
    cases h
    exact Or.inr ⟨rfl, rfl⟩
  | some t =>
    rw [hhead, Option.any_some] at h
    cases hkind : t.kind == kind with
    | true =>
      rw [hkind] at h
      obtain ⟨u, middle, hadvance, h⟩ := run_bind_eq_ok h
      cases h
      exact Or.inl ⟨rfl, by rw [kinds_of_advance hhead hadvance, eq_of_beq hkind]⟩
    | false =>
      rw [hkind] at h
      cases h
      exact Or.inr ⟨rfl, rfl⟩

section Tokens

variable {kind : TokenKind} (hkind : kind ≠ .dollar)

include hkind

theorem keeps_expect : Keeps opens (expect kind) := by
  intro ts _ left hrun hleft _
  rw [kinds_of_expect hrun]
  exact (orderly_cons_iff hkind).2 hleft

theorem keeps_accept : Keeps opens (accept kind) := by
  intro ts _ left hrun hleft _
  rcases kinds_of_accept hrun with ⟨-, hkinds⟩ | ⟨-, rfl⟩
  · rw [hkinds]
    exact (orderly_cons_iff hkind).2 hleft
  · exact hleft

end Tokens

theorem keeps_name : Keeps opens name := keeps_expect (by decide)

theorem keeps_acceptKeyword (keyword : String) : Keeps opens (acceptKeyword keyword) := by
  intro ts _ left hrun hleft _
  obtain ⟨token?, _, hcurrent, hrun⟩ := run_bind_eq_ok hrun
  cases hcurrent
  cases hhead : ts.head? with
  | none =>
    rw [hhead] at hrun
    cases hrun
    exact hleft
  | some t =>
    rw [hhead, Option.any_some] at hrun
    cases hkeyword : isKeyword keyword t with
    | true =>
      rw [hkeyword] at hrun
      obtain ⟨u, middle, hadvance, hrun⟩ := run_bind_eq_ok hrun
      cases hrun
      rw [isKeyword, Bool.and_eq_true] at hkeyword
      rw [kinds_of_advance hhead hadvance, eq_of_beq hkeyword.1]
      exact (orderly_cons_iff (by decide)).2 hleft
    | false =>
      rw [hkeyword] at hrun
      cases hrun
      exact hleft

theorem keeps_expectKeyword (keyword : String) : Keeps opens (expectKeyword keyword) := by
  apply Keeps.bind (keeps_acceptKeyword keyword)
  intro found
  exact Keeps.ite nofun (Keeps.pure ())

/-- What is taken for a description is a string. -/
theorem exists_of_isAtDescription {ts middle : Tokens} {described : Bool}
    (h : isAtDescription.run ts = .ok (described, middle)) :
    middle = ts ∧ (described = true → ∃ t, ts.head? = some t ∧ t.kind ≠ .dollar) := by
  obtain ⟨plain, _, hplain, h⟩ := run_bind_eq_ok h
  cases hplain
  cases hhead : ts.head? with
  | none =>
    rw [hhead, Option.any_none] at h
    obtain ⟨block, _, hblock, h⟩ := run_bind_eq_ok h
    cases hblock
    cases h
    rw [hhead]
    exact ⟨rfl, nofun⟩
  | some t =>
    rw [hhead, Option.any_some] at h
    cases hstring : t.kind == .string with
    | true =>
      rw [hstring] at h
      cases h
      exact ⟨rfl, fun _ => ⟨t, rfl, by rw [eq_of_beq hstring]; decide⟩⟩
    | false =>
      rw [hstring] at h
      obtain ⟨block, _, hblock, h⟩ := run_bind_eq_ok h
      cases hblock
      cases h
      rw [hhead, Option.any_some]
      exact ⟨rfl, fun hkind => ⟨t, rfl, by rw [eq_of_beq hkind]; decide⟩⟩

/-- A description is no variable. -/
theorem keeps_description : Keeps opens description := by
  intro ts _ left hrun hleft _
  obtain ⟨described, middle, hat, hrun⟩ := run_bind_eq_ok hrun
  obtain ⟨rfl, hstring⟩ := exists_of_isAtDescription hat
  cases described with
  | true =>
    obtain ⟨t, hhead, hkind⟩ := hstring rfl
    rw [kinds_of_advance hhead hrun]
    exact (orderly_cons_iff hkind).2 hleft
  | false =>
    cases hrun
    exact hleft

/-! ## Lists -/

section Lists

variable {item : Parser α} {opening close : TokenKind} (hitem : Keeps opens item)
  (hstarts : opens = true → Starts Harmless item) (hopening : opening ≠ .dollar) (hclose : close ≠ .dollar)
  (hcloses : Harmless [close])

include hitem hstarts hclose hcloses

/-- An item that may end with a variable has another item or the closing token behind it. -/
theorem keeps_itemsUntil (fuel : Nat) :
    Keeps false (itemsUntil close item fuel) ∧ (opens = true → Starts Harmless (itemsUntil close item fuel)) := by
  induction fuel with
  | zero => exact ⟨nofun, fun _ => nofun⟩
  | succ fuel ih =>
    have hrun {ts left : Tokens} {items : List α} (h : (itemsUntil close item (fuel + 1)).run ts = .ok (items, left)) :
        (∃ rest : Tokens, ts.kinds = close :: rest.kinds ∧ left = rest) ∨
          ∃ first middle more, item.run ts = .ok (first, middle) ∧
            (itemsUntil close item fuel).run middle = .ok (more, left) := by
      obtain ⟨closed, middle, haccept, hrest⟩ := run_bind_eq_ok h
      rcases kinds_of_accept haccept with ⟨rfl, hkinds⟩ | ⟨rfl, rfl⟩
      · cases hrest
        exact Or.inl ⟨_, hkinds, rfl⟩
      · rw [if_neg Bool.false_ne_true] at hrest
        obtain ⟨first, behind, hfirst, hrest⟩ := run_bind_eq_ok hrest
        obtain ⟨more, _, hmore, hrest⟩ := run_bind_eq_ok hrest
        cases hrest
        exact Or.inr ⟨first, behind, more, hfirst, hmore⟩
    constructor
    · intro ts items left h hleft _
      rcases hrun h with ⟨rest, hkinds, rfl⟩ | ⟨first, middle, more, hfirst, hmore⟩
      · rw [hkinds]
        exact (orderly_cons_iff hclose).2 hleft
      · exact hitem hfirst (ih.1 hmore hleft nofun) fun hopens => ih.2 hopens hmore
    · intro hopens ts items left h
      rcases hrun h with ⟨rest, hkinds, -⟩ | ⟨first, middle, more, hfirst, -⟩
      · rw [hkinds]
        exact hcloses
      · exact hstarts hopens hfirst

include hopening

theorem keeps_any : Keeps false (any opening item close) :=
  Keeps.bind (keeps_expect hopening) fun _ => Keeps.bind keeps_budget fun fuel =>
    (keeps_itemsUntil hitem hstarts hclose hcloses fuel).1

theorem keeps_many : Keeps false (many opening item close) := by
  apply Keeps.bind (keeps_expect hopening)
  intro _ ts items left hrun hleft _
  obtain ⟨first, behind, hfirst, hrun⟩ := run_bind_eq_ok hrun
  obtain ⟨fuel, _, hbudget, hrun⟩ := run_bind_eq_ok hrun
  cases hbudget
  obtain ⟨more, _, hmore, hrun⟩ := run_bind_eq_ok hrun
  cases hrun
  have hitems := keeps_itemsUntil hitem hstarts hclose hcloses (behind.length + 1)
  exact hitem hfirst (hitems.1 hmore hleft nofun) fun hopens => hitems.2 hopens hmore

theorem keeps_optionalMany : Keeps false (optionalMany opening item close) := by
  apply Keeps.bind (keeps_isAt opening)
  intro found
  exact Keeps.ite (keeps_many hitem hstarts hopening hclose hcloses) (Keeps.pure [])

end Lists

/-! ## Values, types and directives -/

theorem kinds_of_variableName {ts left : Tokens} {v : String} (h : variableName.run ts = .ok (v, left)) :
    ts.kinds = .dollar :: .name :: left.kinds := by
  obtain ⟨sign, middle, hsign, hname⟩ := run_bind_eq_ok h
  rw [kinds_of_expect hsign, kinds_of_expect hname]

/-- A variable is named, and something harmless follows. -/
theorem keeps_variableName : Keeps true variableName := by
  intro ts _ left hrun hleft hend
  rw [kinds_of_variableName hrun]
  exact ⟨fun _ => ⟨_, rfl, .value (hend rfl)⟩, (orderly_cons_iff (by decide)).2 hleft⟩

theorem starts_name : Starts Harmless name := by
  intro ts _ left hrun
  rw [kinds_of_expect hrun]
  exact harmless_cons (by decide) _

/-- A parser starts with what its first part starts with. -/
theorem Starts.bind {sort : List TokenKind → Prop} {f : α → Parser β} (hp : Starts sort p) : Starts sort (p >>= f) := by
  intro ts b left hrun
  obtain ⟨a, middle, hfirst, -⟩ := run_bind_eq_ok hrun
  exact hp hfirst

theorem keeps_objectField {value : Parser Literal} (hvalue : Keeps opens value) :
    Keeps opens (objectField value) := by
  apply Keeps.bind keeps_name
  intro fieldName
  apply Keeps.bind (keeps_expect (by decide))
  intro _
  exact hvalue.map fun v => (fieldName, v)

theorem kinds_of_head? {ts : Tokens} {t : Token} (h : ts.head? = some t) : ∃ rest, ts.kinds = t.kind :: rest := by
  cases ts with
  | next t' rest =>
    obtain rfl : t' = t := Option.some.inj h
    exact ⟨rest.kinds, rfl⟩
  | finish => cases h
  | fault => cases h

theorem not_run_refuseVariable {ts left : Tokens} {v : Literal} : refuseVariable.run ts ≠ .ok (v, left) := by
  intro h
  obtain ⟨_, _, hget, h⟩ := run_bind_eq_ok h
  obtain ⟨_, _, hsign, h⟩ := run_bind_eq_ok h
  obtain ⟨token?, middle, hcurrent, h⟩ := run_bind_eq_ok h
  cases token? with
  | none => cases h
  | some t =>
    dsimp only at h
    split at h
    · cases h
    · cases h

/-- A value starts with something harmless, and only where variables may stand it may end with one. -/
theorem keeps_literalWithin (constant : Bool) (fuel : Nat) :
    Keeps (!constant) (literalWithin constant fuel) ∧ Starts Harmless (literalWithin constant fuel) := by
  induction fuel with
  | zero => exact ⟨nofun, nofun⟩
  | succ fuel ih =>
    obtain ⟨hkeeps, hstarts⟩ := ih
    have hlist : Keeps false (do
        return Literal.list (← any .openBracket (literalWithin constant fuel) .closeBracket)) :=
      (keeps_any hkeeps (fun _ => hstarts) (by decide) (by decide) (harmless_cons (by decide) [])).bind
        fun _ => Keeps.pure _
    have hobject : Keeps false (do
        return Literal.object (← any .openBrace (objectField (literalWithin constant fuel)) .closeBrace)) :=
      (keeps_any (keeps_objectField hkeeps) (fun _ => starts_name.bind) (by decide) (by decide)
        (harmless_cons (by decide) [])).bind fun _ => Keeps.pure _
    have hrun {ts left : Tokens} {v : Literal} (h : (literalWithin constant (fuel + 1)).run ts = .ok (v, left)) :
        Harmless ts.kinds ∧
          (Orderly left.kinds → ((!constant) = true → Harmless left.kinds) → Orderly ts.kinds) := by
      obtain ⟨token?, _, hcurrent, h⟩ := run_bind_eq_ok h
      cases hcurrent
      cases hhead : ts.head? with
      | none =>
        rw [hhead] at h
        cases h
      | some t =>
        rw [hhead] at h
        dsimp only at h
        obtain ⟨rest, hrest⟩ := kinds_of_head? hhead
        have hstart {kind : TokenKind} (hkind : t.kind = kind)
            (hharmless : kind ≠ .atSign ∧ kind ≠ .spread ∧ kind ≠ .openParen ∧ kind ≠ .colon) : Harmless ts.kinds := by
          rw [hrest, hkind]
          exact harmless_cons hharmless rest
        -- a value that is a single token
        have htaken {v' : Literal} {kind : TokenKind} (hkind : t.kind = kind) (hdollar : kind ≠ .dollar)
            (hone : (do advance; return v' : Parser Literal).run ts = .ok (v, left)) (hleft : Orderly left.kinds) :
            Orderly ts.kinds := by
          obtain ⟨u, middle, hadvance, hone⟩ := run_bind_eq_ok hone
          cases hone
          rw [kinds_of_advance hhead hadvance, hkind]
          exact (orderly_cons_iff hdollar).2 hleft
        split at h
        · next hkind =>
          exact ⟨hstart hkind (by decide), fun hleft _ => hlist h hleft nofun⟩
        · next hkind =>
          exact ⟨hstart hkind (by decide), fun hleft _ => hobject h hleft nofun⟩
        · next hkind => exact ⟨hstart hkind (by decide), fun hleft _ => htaken hkind (by decide) h hleft⟩
        · next hkind => exact ⟨hstart hkind (by decide), fun hleft _ => htaken hkind (by decide) h hleft⟩
        · next hkind => exact ⟨hstart hkind (by decide), fun hleft _ => htaken hkind (by decide) h hleft⟩
        · next hkind => exact ⟨hstart hkind (by decide), fun hleft _ => htaken hkind (by decide) h hleft⟩
        · next hkind => exact ⟨hstart hkind (by decide), fun hleft _ => htaken hkind (by decide) h hleft⟩
        · next hkind =>
          refine ⟨hstart hkind (by decide), fun hleft hend => ?_⟩
          cases constant with
          | true => exact absurd h not_run_refuseVariable
          | false =>
            obtain ⟨variableName, middle, hvariable, h⟩ := run_bind_eq_ok h
            cases h
            exact keeps_variableName hvariable hleft hend
        · cases h
    exact ⟨fun ts v left h => (hrun h).2, fun ts v left h => (hrun h).1⟩

theorem keeps_literal (constant : Bool) : Keeps (!constant) (literal constant) :=
  keeps_budget.bind fun fuel => (keeps_literalWithin constant fuel).1

theorem keeps_typeRefWithin (fuel : Nat) : Keeps false (typeRefWithin fuel) := by
  induction fuel with
  | zero => exact keeps_unexpected
  | succ fuel ih =>
    have hmark (type : TypeRef) : Keeps false (do if ← accept .bang then return .nonNull type else return type) := by
      apply (keeps_accept (by decide)).bind
      intro found
      exact Keeps.ite (Keeps.pure _) (Keeps.pure _)
    apply (keeps_accept (by decide)).bind
    intro found
    apply Keeps.ite
    · apply ih.bind
      intro item
      exact (keeps_expect (by decide)).bind fun _ => hmark (.list item)
    · exact keeps_name.bind fun typeName => hmark (.named typeName)

theorem keeps_typeRef : Keeps false typeRef := keeps_budget.bind fun fuel => keeps_typeRefWithin fuel

theorem starts_typeRef : Starts StartsType typeRef := by
  intro ts type left hrun
  obtain ⟨fuel, _, hbudget, hrun⟩ := run_bind_eq_ok hrun
  cases hbudget
  rw [typeRefWithin] at hrun
  obtain ⟨found, middle, haccept, hrun⟩ := run_bind_eq_ok hrun
  rcases kinds_of_accept haccept with ⟨rfl, hkinds⟩ | ⟨rfl, rfl⟩
  · rw [hkinds]
    exact ⟨.openBracket, rfl, Or.inr rfl⟩
  · rw [if_neg Bool.false_ne_true] at hrun
    obtain ⟨typeName, behind, hname, -⟩ := run_bind_eq_ok hrun
    rw [kinds_of_expect hname]
    exact ⟨.name, rfl, Or.inl rfl⟩

theorem keeps_argument (constant : Bool) : Keeps (!constant) (argument constant) := by
  apply keeps_name.bind
  intro argumentName
  apply (keeps_expect (by decide)).bind
  intro _
  exact (keeps_literal constant).map fun v => Argument.mk argumentName v

theorem keeps_arguments (constant : Bool) : Keeps false (arguments constant) :=
  keeps_optionalMany (keeps_argument constant) (fun _ => starts_name.bind) (by decide) (by decide)
    (harmless_cons (by decide) [])

theorem keeps_directivesWithin (constant : Bool) (fuel : Nat) : Keeps false (directivesWithin constant fuel) := by
  induction fuel with
  | zero => exact keeps_unexpected
  | succ fuel ih =>
    apply (keeps_accept (by decide)).bind
    intro found
    apply Keeps.ite
    · apply keeps_name.bind
      intro directiveName
      apply (keeps_arguments constant).bind
      intro given
      exact ih.bind fun more => Keeps.pure _
    · exact Keeps.pure []

theorem keeps_directives (constant : Bool) : Keeps false (directives constant) :=
  keeps_budget.bind fun fuel => keeps_directivesWithin constant fuel

/-! ## Executable definitions -/

theorem keeps_fragmentName : Keeps false fragmentName := by
  apply keeps_current.bind
  intro token?
  exact Keeps.ite keeps_unexpected keeps_name

theorem keeps_setOf {item : Parser Selection} (hitem : Keeps false item) : Keeps false (setOf item) := by
  apply keeps_get.bind
  intro ts
  exact (keeps_any hitem nofun (by decide) (by decide) (harmless_cons (by decide) [])).bind fun _ => Keeps.pure _

section Selections

variable {set : Parser SelectionSet} (hset : Keeps false set)

include hset

theorem keeps_fieldSelection : Keeps false (fieldSelection set) := by
  -- what follows when it is known whether the field has another name
  have hrest (alias? : Option String) (fieldName : String) : Keeps false (do
      let given ← arguments false
      let head : FieldHead := ⟨alias?, fieldName, given, ← directives false⟩
      if ← isAt .openBrace then
        let inner ← set
        return Selection.branch head inner.place inner.selections
      else return .leaf head) := by
    apply (keeps_arguments false).bind
    intro given
    apply (keeps_directives false).bind
    intro directives
    apply (keeps_isAt .openBrace).bind
    intro found
    apply Keeps.ite
    · exact hset.bind fun inner => Keeps.pure _
    · exact Keeps.pure _
  apply keeps_name.bind
  intro first
  apply (keeps_accept (by decide)).bind
  intro found
  cases found with
  | true => exact keeps_name.bind fun fieldName => hrest (some first) fieldName
  | false => exact hrest none first

theorem keeps_fragmentSelection : Keeps false (fragmentSelection set) := by
  -- a selection set in place, when it is known which type it is for
  have hinline (condition : Option String) : Keeps false (do
      let given ← directives false
      let inner ← set
      return Selection.inline condition given inner.place inner.selections) := by
    apply (keeps_directives false).bind
    intro given
    exact hset.bind fun inner => Keeps.pure _
  apply (keeps_expect (by decide)).bind
  intro _
  apply (keeps_acceptKeyword "on").bind
  intro conditional
  apply (keeps_isAt .name).bind
  intro named
  cases conditional with
  | true => exact (keeps_name.map some).bind hinline
  | false =>
    cases named with
    | true =>
      apply keeps_fragmentName.bind
      intro spreadName
      exact (keeps_directives false).bind fun given => Keeps.pure _
    | false => exact hinline none

end Selections

theorem keeps_selectionWithin (fuel : Nat) : Keeps false (selectionWithin fuel) := by
  induction fuel with
  | zero => exact keeps_unexpected
  | succ fuel ih =>
    apply (keeps_isAt .spread).bind
    intro found
    apply Keeps.ite
    · exact keeps_fragmentSelection (keeps_setOf ih)
    · exact keeps_fieldSelection (keeps_setOf ih)

theorem keeps_selectionSet : Keeps false selectionSet :=
  keeps_budget.bind fun fuel => keeps_setOf (keeps_selectionWithin fuel)

/-- Behind the name of a variable that is defined there is a colon, and a type behind it. -/
theorem keeps_variableDefinition : Keeps false variableDefinition := by
  have hrest (definedName : String) (type : TypeRef) : Keeps false (do
      let default ← if ← accept .equals then some <$> literal true else pure none
      return VariableDefinition.mk definedName type default (← directives true)) := by
    have hdirectives (default : Option Literal) : Keeps false (do
        return VariableDefinition.mk definedName type default (← directives true)) :=
      (keeps_directives true).bind fun given => Keeps.pure _
    apply (keeps_accept (by decide)).bind
    intro found
    cases found with
    | true => exact ((keeps_literal true).map some).bind hdirectives
    | false => exact hdirectives none
  apply keeps_description.bind
  intro _ ts _ left hrun hleft _
  obtain ⟨definedName, middle, hname, hrun⟩ := run_bind_eq_ok hrun
  obtain ⟨_, behind, hcolon, hrun⟩ := run_bind_eq_ok hrun
  obtain ⟨type, _, htype, hrun⟩ := run_bind_eq_ok hrun
  have hbehind : Orderly behind.kinds := keeps_typeRef htype (hrest definedName type hrun hleft nofun) nofun
  rw [kinds_of_variableName hname, kinds_of_expect hcolon]
  exact ⟨fun _ => ⟨_, rfl, .definition (starts_typeRef htype)⟩, (orderly_cons_iff (by decide)).2
    ((orderly_cons_iff (by decide)).2 hbehind)⟩

theorem keeps_operationKind : Keeps false operationKind := by
  apply keeps_get.bind
  intro ts
  apply (keeps_expect (by decide)).bind
  intro word
  split
  · exact Keeps.pure _
  · exact Keeps.throw _

theorem keeps_operation : Keeps false operation := by
  -- what follows when it is known whether the operation has a name
  have hrest (kind : OperationKind) (operationName : Option String) : Keeps false (do
      let parameters ← optionalMany .openParen variableDefinition .closeParen
      let given ← directives false
      return Operation.mk kind operationName parameters given (← selectionSet)) := by
    apply (keeps_optionalMany keeps_variableDefinition nofun (by decide) (by decide)
      (harmless_cons (by decide) [])).bind
    intro parameters
    apply (keeps_directives false).bind
    intro given
    exact keeps_selectionSet.bind fun set => Keeps.pure _
  apply (keeps_isAt .openBrace).bind
  intro short
  apply Keeps.ite
  · exact keeps_selectionSet.bind fun set => Keeps.pure _
  · apply keeps_description.bind
    intro _
    apply keeps_operationKind.bind
    intro kind
    apply (keeps_isAt .name).bind
    intro named
    cases named with
    | true => exact (keeps_name.map some).bind (hrest kind)
    | false => exact hrest kind none

theorem keeps_fragment : Keeps false fragment := by
  apply keeps_description.bind
  intro _
  apply (keeps_expectKeyword "fragment").bind
  intro _
  apply keeps_fragmentName.bind
  intro definedName
  apply (keeps_expectKeyword "on").bind
  intro _
  apply keeps_name.bind
  intro condition
  apply (keeps_directives false).bind
  intro given
  exact keeps_selectionSet.bind fun set => Keeps.pure _

/-! ## Documents -/

/-- All results of the parser have the property. -/
def Gives (P : α → Prop) (p : Parser α) : Prop := ∀ ⦃ts : Tokens⦄ ⦃a : α⦄ ⦃left : Tokens⦄, p.run ts = .ok (a, left) → P a

theorem Gives.pure {P : α → Prop} {a : α} (h : P a) : Gives P (Pure.pure a : Parser α) := by
  intro ts _ left hrun
  cases hrun
  exact h

/-- What a parser gives is what its last part gives. -/
theorem Gives.bind {P : β → Prop} {f : α → Parser β} (hf : ∀ a, Gives P (f a)) : Gives P (p >>= f) := by
  intro ts b left hrun
  obtain ⟨a, middle, -, hrest⟩ := run_bind_eq_ok hrun
  exact hf a hrest

theorem gives_schemaDefinition : Gives (·.isExecutable = false) schemaDefinition :=
  Gives.bind fun _ => Gives.bind fun _ => Gives.bind fun _ => Gives.bind fun _ => Gives.pure rfl

theorem gives_typeDefinition (keyword : TypeKeyword) : Gives (·.isExecutable = false) (typeDefinition keyword) :=
  Gives.bind fun _ => Gives.bind fun _ => Gives.bind fun _ => Gives.bind fun _ => Gives.pure rfl

theorem gives_directiveDefinition : Gives (·.isExecutable = false) directiveDefinition :=
  Gives.bind fun _ => Gives.bind fun _ => Gives.bind fun _ => Gives.bind fun _ => Gives.bind fun _ =>
    Gives.bind fun _ => Gives.bind fun _ => Gives.bind fun _ => Gives.pure rfl

/-- Keywords of the type system start what is not executed. -/
theorem gives_declaration {keyword : String} {declaration : Parser Definition}
    (h : declaration? keyword = some declaration) : Gives (·.isExecutable = false) declaration := by
  unfold declaration? at h
  split at h
  · cases h
    exact gives_schemaDefinition
  · split at h
    · cases h
      exact gives_directiveDefinition
    · obtain ⟨kind, -, rfl⟩ := Option.map_eq_some_iff.1 h
      exact gives_typeDefinition kind

theorem gives_extensionDefinition : Gives (·.isExecutable = false) extensionDefinition := by
  have hsaying {body : List Declaration} {d : Definition} (hd : d.isExecutable = false) :
      Gives (·.isExecutable = false) (do
        if isBlankBody body then unexpected
        return d : Parser Definition) := by
    split
    · exact Gives.bind fun _ => Gives.pure hd
    · exact Gives.pure hd
  apply Gives.bind
  intro _
  apply Gives.bind
  intro token?
  cases token? with
  | none => exact nofun
  | some t =>
    dsimp only
    split
    · exact Gives.bind fun _ => Gives.bind fun _ => Gives.bind fun _ => hsaying rfl
    · split
      · exact Gives.bind fun _ => Gives.bind fun _ => Gives.bind fun _ => hsaying rfl
      · exact nofun

/-- A definition that is executed keeps what is left orderly. -/
def KeepsExecutable (p : Parser Definition) : Prop :=
  ∀ ⦃ts : Tokens⦄ ⦃d : Definition⦄ ⦃left : Tokens⦄, p.run ts = .ok (d, left) → d.isExecutable = true →
    Orderly left.kinds → Orderly ts.kinds

theorem Keeps.executable {p : Parser Definition} (h : Keeps false p) : KeepsExecutable p :=
  fun _ _ _ hrun _ hleft => h hrun hleft nofun

/-- There is nothing to show of what is never executed. -/
theorem Gives.executable {p : Parser Definition} (h : Gives (·.isExecutable = false) p) : KeepsExecutable p :=
  fun _ _ _ hrun hexecutable _ => absurd hexecutable (Bool.eq_false_iff.1 (h hrun))

theorem KeepsExecutable.ite {c : Prop} [Decidable c] {p q : Parser Definition} (hp : KeepsExecutable p)
    (hq : KeepsExecutable q) : KeepsExecutable (if c then p else q) := by
  split
  · exact hp
  · exact hq

theorem keeps_keywordDefinition (described : Bool) (t : Token) : KeepsExecutable (keywordDefinition described t) := by
  unfold keywordDefinition
  split
  · next declaration hdeclaration => exact (gives_declaration hdeclaration).executable
  · apply KeepsExecutable.ite
    · exact (keeps_operation.bind fun _ => Keeps.pure _).executable
    · apply KeepsExecutable.ite
      · exact (keeps_fragment.bind fun _ => Keeps.pure _).executable
      · split
        · exact (keeps_get.bind fun _ => Keeps.throw _).executable
        · apply KeepsExecutable.ite
          · exact gives_extensionDefinition.executable
          · exact keeps_unexpected.executable

/-- Looking for the keyword takes nothing. -/
theorem eq_of_keywordToken {described : Bool} {ts middle : Tokens} {token? : Option Token}
    (h : (keywordToken described).run ts = .ok (token?, middle)) : ts = middle := by
  obtain ⟨_, _, hget, h⟩ := run_bind_eq_ok h
  cases hget
  split at h
  · cases h
  · cases h
    rfl
  · cases h
    rfl

theorem keeps_definition : KeepsExecutable definition := by
  intro ts d left hrun hexecutable hleft
  obtain ⟨short, _, hat, hrun⟩ := run_bind_eq_ok hrun
  obtain rfl := eq_of_isAt hat
  cases short with
  | true => exact (keeps_operation.bind fun _ => Keeps.pure _).executable hrun hexecutable hleft
  | false =>
    rw [if_neg Bool.false_ne_true] at hrun
    obtain ⟨described, middle, hdescribed, hrun⟩ := run_bind_eq_ok hrun
    obtain ⟨hmiddle, -⟩ := exists_of_isAtDescription hdescribed
    rw [hmiddle] at hrun
    obtain ⟨token?, behind, htoken, hrun⟩ := run_bind_eq_ok hrun
    rw [← eq_of_keywordToken htoken] at hrun
    cases token? with
    | none =>
      obtain ⟨_, _, -, hrun⟩ := run_bind_eq_ok hrun
      cases hrun
    | some t =>
      dsimp only at hrun
      split at hrun
      · obtain ⟨_, _, -, hrun⟩ := run_bind_eq_ok hrun
        cases hrun
      · split at hrun
        · exact keeps_keywordDefinition described t hrun hexecutable hleft
        · cases hrun

theorem kinds_of_head?_eq_none {ts : Tokens} (h : ts.head? = none) : ts.kinds = [] := by
  cases ts with
  | next t rest => cases h
  | finish => rfl
  | fault => rfl

theorem keeps_definitions {fuel : Nat} {ts left : Tokens} {d : Document}
    (h : (definitions fuel).run ts = .ok (d, left)) (hexecutable : ∀ definition ∈ d, definition.isExecutable = true) :
    Orderly ts.kinds := by
  induction fuel generalizing ts d with
  | zero => cases h
  | succ fuel ih =>
    obtain ⟨first, behind, hfirst, h⟩ := run_bind_eq_ok h
    obtain ⟨token?, _, hcurrent, h⟩ := run_bind_eq_ok h
    cases hcurrent
    cases hhead : behind.head? with
    | none =>
      rw [hhead] at h
      cases h
      refine keeps_definition hfirst (hexecutable first (List.mem_singleton_self first)) ?_
      rw [kinds_of_head?_eq_none hhead]
      trivial
    | some t =>
      rw [hhead] at h
      obtain ⟨more, _, hmore, h⟩ := run_bind_eq_ok h
      cases h
      rw [List.forall_mem_cons] at hexecutable
      exact keeps_definition hfirst hexecutable.1 (ih hmore hexecutable.2)

end Parser

/-- In the tokens of an executable document, all variables are named and followed by what may follow them. -/
theorem orderly_of_parseTokens {ts : Tokens} {d : Document} (h : parseTokens ts = .ok d)
    (hexecutable : ∀ definition ∈ d, definition.isExecutable = true) : Orderly ts.kinds := by
  obtain ⟨-, left, hrun⟩ := parseTokens_eq_ok_iff.1 h
  exact Parser.keeps_definitions hrun hexecutable

end SnippetAudit.GraphQL
