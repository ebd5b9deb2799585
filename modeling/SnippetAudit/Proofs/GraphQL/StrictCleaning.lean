import SnippetAudit.Proofs.Extraction.Strict
import SnippetAudit.Proofs.GraphQL.Following
import SnippetAudit.Proofs.GraphQL.Stringless

/-!
# Strict cleaning of documents

Strict cleaning knows directives and variables by their signs and by what stands directly at these. Whether it finds
all of them depends on how a document is laid out. What the grammar says about the tokens behind a variable is carried
over to its text, character by character; so of an executable document whose signs stand at their names, and whose
directives stand behind blanks, no sign is left.

## What this module delivers

- `Executable`: texts that are parsed as executable documents;
- `Ahead`, `Ahead.run`: what is read behind the sign of a variable;
- `WellSpaced`: the layouts in which strict cleaning finds all signs;
- `signless_extract_of_executable`: it leaves none of them.
-/

set_option autoImplicit false

namespace SnippetAudit.GraphQL

open Text Extraction

/-- The text is parsed as a document that holds nothing but operations and fragments. -/
def Executable (t : Text) : Prop :=
  ∃ d, parse t = .ok d ∧ ∀ definition ∈ d, definition.isExecutable = true

theorem executable_iff (t : Text) :
    Executable t ↔ ((parse t).toOption.any fun d => d.all Definition.isExecutable) = true := by
  rw [Executable]
  cases parse t with
  | error e => simp [Except.toOption]
  | ok d => simp [Except.toOption]

instance (t : Text) : Decidable (Executable t) := decidable_of_iff _ (executable_iff t).symm

/-! ## Ahead of a place -/

/-- What is read ahead of a place, by how far the text has got behind the sign of a variable. -/
inductive Ahead : Stage → Text → Prop where
  | sign {t : Text} {sights : List (TokenKind × String)} (h : Reads t sights)
      (hkinds : NamesVariable (sights.map Prod.fst)) : Ahead .sign t
  | name {n t : Text} {sights : List (TokenKind × String)} (hn : ∀ c ∈ n, isNamePart c = true)
      (hstop : StopsAt isNamePart t) (h : Reads t sights) (hkinds : BehindName (sights.map Prod.fst)) :
      Ahead .name (n ++ t)
  | gap {t : Text} {sights : List (TokenKind × String)} (h : Reads t sights)
      (hkinds : BehindName (sights.map Prod.fst)) : Ahead .gap t
  | colon {t : Text} {sights : List (TokenKind × String)} (h : Reads t sights)
      (hkinds : StartsType (sights.map Prod.fst)) : Ahead .colon t

theorem isNamePart_of_isBlank {c : Char} (h : isBlank c = true) : isNamePart c = false := by
  cases hc : isNamePart c with
  | false => rfl
  | true =>
    have htoken := isTokenChar_of_isNamePart hc
    rw [isTokenChar_of_isBlank h] at htoken
    cases htoken

/-- Where the name does not go on, what stands behind it is read. -/
theorem Ahead.exists_of_name {c : Char} {t : Text} (h : Ahead .name (c :: t)) (hc : isNamePart c = false) :
    ∃ sights, Reads (c :: t) sights ∧ BehindName (sights.map Prod.fst) := by
  generalize hu : c :: t = u at h
  cases h with
  | @name n b sights hn hstop h hkinds =>
    cases n with
    | nil => exact ⟨sights, h, hkinds⟩
    | cons d more =>
      obtain ⟨rfl, -⟩ := List.cons.inj hu
      rw [hn c List.mem_cons_self] at hc
      cases hc

/-- A character of words behind the sign, or inside of the name, belongs to the name. -/
theorem Ahead.of_word {s : Stage} {c : Char} {t : Text} (h : Ahead s (c :: t)) (hs : s = .sign ∨ s = .name)
    (hc : isWord c = true) : Ahead .name t := by
  rcases hs with rfl | rfl
  · cases h with
    | sign hreads hkinds =>
      obtain ⟨rest, hrest, hbehind⟩ := hkinds
      obtain ⟨n, b, more, rfl, hn, hstop, hmore, rfl⟩ := hreads.of_name hc hrest
      exact .name hn hstop hmore hbehind
  · cases hpart : isNamePart c with
    | false =>
      obtain ⟨sights, hreads, -⟩ := h.exists_of_name hpart
      rw [hreads.isNamePart_of_isWord hc] at hpart
      cases hpart
    | true =>
      generalize hu : c :: t = u at h
      cases h with
      | @name n b sights hn hstop hreads hkinds =>
        cases n with
        | nil =>
          obtain rfl : c :: t = b := hu
          rw [hstop c rfl] at hpart
          cases hpart
        | cons d more =>
          obtain ⟨-, rfl⟩ := List.cons.inj hu
          exact .name (fun x hx => hn x (List.mem_cons_of_mem d hx)) hstop hreads hkinds

/-- Blanks are skipped. -/
theorem Ahead.of_blank {s s' : Stage} {c : Char} {t : Text} (h : Ahead s (c :: t)) (hc : isBlank c = true)
    (hs : Stage.behindBlank (some s) = some s') : Ahead s' t := by
  have hskip {sights : List (TokenKind × String)} (hreads : Reads (c :: t) sights) : Reads t sights :=
    (Reads.of_blank_append (w := [c]) (List.forall_mem_singleton.2 hc) hreads).1
  cases s with
  | sign => cases hs
  | name =>
    cases hs
    obtain ⟨sights, hreads, hkinds⟩ := h.exists_of_name (isNamePart_of_isBlank hc)
    exact .gap (hskip hreads) hkinds
  | gap =>
    cases hs
    cases h with
    | gap hreads hkinds => exact .gap (hskip hreads) hkinds
  | colon =>
    cases hs
    cases h with
    | colon hreads hkinds => exact .colon (hskip hreads) hkinds

/-- Behind a colon that follows the name of a variable, there is a type. -/
theorem Ahead.of_colon {s : Stage} {t : Text} (h : Ahead s (':' :: t)) (hs : s = .name ∨ s = .gap) :
    Ahead .colon t := by
  obtain ⟨sights, hreads, hkinds⟩ : ∃ sights, Reads (':' :: t) sights ∧ BehindName (sights.map Prod.fst) := by
    rcases hs with rfl | rfl
    · exact h.exists_of_name (by decide)
    · cases h with
      | gap hreads hkinds => exact ⟨_, hreads, hkinds⟩
  obtain ⟨more, rfl, hmore⟩ := hreads.of_punctuator rfl
  rw [List.map_cons] at hkinds
  cases hkinds with
  | value hharmless => exact absurd rfl (hharmless .colon rfl).2.2.2
  | definition htype => exact .colon hmore htype

/-- Each character leads to what is read ahead of the next place. -/
theorem Ahead.step {s s' : Stage} {c : Char} {t : Text} (h : Ahead s (c :: t)) (hc : c ≠ '$')
    (hs : stageAfter (some s) c = some s') : Ahead s' t := by
  rcases cases_of_stageAfter hc hs with ⟨hword, hstage, rfl⟩ | ⟨hblank, hstage⟩ | ⟨rfl, hstage, rfl⟩
  · exact h.of_word hstage hword
  · exact h.of_blank hblank hstage
  · exact h.of_colon hstage

/-- Up to the next sign, each place is behind what was read ahead of the sign. -/
theorem Ahead.run {d b : Text} {s s' : Stage} (h : Ahead s (d ++ b)) (hd : '$' ∉ d)
    (hs : stageAt (some s) d = some s') : Ahead s' b := by
  induction d generalizing s with
  | nil =>
    obtain rfl := Option.some.inj hs
    exact h
  | cons c rest ih =>
    obtain ⟨hc, hrest⟩ := not_or.1 (mt List.mem_cons.2 hd)
    rw [stageAt, List.foldl_cons] at hs
    cases hnext : stageAfter (some s) c with
    | none =>
      rw [hnext, ← stageAt, stageAt_none hrest] at hs
      cases hs
    | some next =>
      rw [hnext] at hs
      exact ih (h.step (Ne.symm hc) hnext) hrest hs

/-! ## No removal starts ahead -/

/-- Neither a directive nor a spread nor arguments start here. -/
def OpensNothing (kinds : List TokenKind) : Prop :=
  ∀ kind ∈ kinds.head?, kind ≠ .atSign ∧ kind ≠ .spread ∧ kind ≠ .openParen

theorem Harmless.opensNothing {kinds : List TokenKind} (h : Harmless kinds) : OpensNothing kinds :=
  fun kind hkind => ⟨(h kind hkind).1, (h kind hkind).2.1, (h kind hkind).2.2.1⟩

theorem opensNothing_cons {kind : TokenKind} (h : kind ≠ .atSign ∧ kind ≠ .spread ∧ kind ≠ .openParen)
    (rest : List TokenKind) : OpensNothing (kind :: rest) :=
  forall_head?_cons h rest

theorem BehindName.opensNothing {kinds : List TokenKind} (h : BehindName kinds) : OpensNothing kinds := by
  cases h with
  | value h => exact h.opensNothing
  | definition h => exact opensNothing_cons (by decide) _

theorem StartsType.opensNothing {kinds : List TokenKind} (h : StartsType kinds) : OpensNothing kinds := by
  obtain ⟨kind, hkind, hor⟩ := h
  intro kind' hkind'
  obtain rfl := Option.some.inj (hkind'.symm.trans hkind)
  rcases hor with rfl | rfl <;> decide

theorem NamesVariable.opensNothing {kinds : List TokenKind} (h : NamesVariable kinds) : OpensNothing kinds := by
  obtain ⟨rest, rfl, -⟩ := h
  exact opensNothing_cons (by decide) rest

section

variable {t : Text} {sights : List (TokenKind × String)}

theorem Reads.head?_ne {c : Char} {kind : TokenKind} (h : Reads t sights) (hc : punctuatorOf? c = some kind)
    (hkinds : kind ∉ (sights.map Prod.fst).head?) : t.head? ≠ some c := by
  intro hhead
  obtain ⟨rest, rfl⟩ := List.head?_eq_some_iff.1 hhead
  obtain ⟨more, rfl, -⟩ := h.of_punctuator hc
  exact hkinds rfl

/-- Where nothing is opened, a place is guarded, as far as it does not depend on the layout. -/
theorem Reads.guards {s : Stage} (h : Reads t sights) (hkinds : OpensNothing (sights.map Prod.fst))
    (hallows : s.Allows t) (hnamed : s = .sign → ∃ c ∈ t.head?, isWord c = true)
    (hargument : s = .colon → t.head? ≠ some '$') : s.Guards t := by
  obtain ⟨w, hw, ht, -⟩ := exists_blanks t
  refine ⟨?_, fun hpoint => ?_, h.head?_ne rfl fun hmem => (hkinds _ hmem).2.2 rfl, hallows, hnamed, hargument⟩
  · rw [ht] at h
    exact (h.of_blank_append hw).1.head?_ne rfl fun hmem => (hkinds _ hmem).1 rfl
  · obtain ⟨rest, rfl⟩ := List.head?_eq_some_iff.1 hpoint
    obtain ⟨more, hmore⟩ := h.of_point
    exact (hkinds .spread (by rw [hmore]; rfl)).2.1 rfl

end

theorem StartsType.dollar_not_mem {kinds : List TokenKind} (h : StartsType kinds) : .dollar ∉ kinds.head? := by
  intro hmem
  obtain ⟨kind, hkind, hor⟩ := h
  obtain rfl := Option.some.inj (hmem.symm.trans hkind)
  exact hor.elim nofun nofun

/-- Inside of a name, nothing but the name goes on. -/
theorem guards_name {c : Char} (hc : isNamePart c = true) (t : Text) : Stage.name.Guards (c :: t) := by
  have hhead {d : Char} (hd : isNamePart d = false) : some c ≠ some d := by
    rintro heq
    obtain rfl := Option.some.inj heq
    rw [hc] at hd
    cases hd
  have hblank : ¬ isBlank c = true := by
    intro hblank
    rw [isNamePart_of_isBlank hblank] at hc
    cases hc
  refine ⟨?_, hhead (by decide), hhead (by decide), trivial, nofun, nofun⟩
  rw [skipBlanks, List.dropWhile_cons_of_neg hblank]
  exact hhead (by decide)

/-- What is ahead is guarded, if the words that stand there are allowed and signs are named. -/
theorem Ahead.guards {s : Stage} {t : Text} (h : Ahead s t) (hallows : s.Allows t)
    (hnamed : s = .sign → ∃ c ∈ t.head?, isWord c = true) : s.Guards t := by
  cases h with
  | sign h hkinds => exact h.guards hkinds.opensNothing hallows hnamed nofun
  | @name n t sights hn hstop h hkinds =>
    cases n with
    | nil => exact h.guards hkinds.opensNothing hallows hnamed nofun
    | cons c more => exact guards_name (hn c List.mem_cons_self) (more ++ t)
  | gap h hkinds => exact h.guards hkinds.opensNothing hallows hnamed nofun
  | colon h hkinds =>
    exact h.guards hkinds.opensNothing hallows hnamed fun _ => h.head?_ne rfl hkinds.dollar_not_mem

/-- A well-spaced text of orderly tokens is guarded. -/
theorem WellSpaced.guarded {t : Text} {sights : List (TokenKind × String)} (hspaced : WellSpaced t)
    (h : Reads t sights) (hstrings : Stringless (sights.map Prod.fst)) (horderly : Orderly (sights.map Prod.fst)) :
    Guarded t := by
  intro a b s heq hs
  obtain ⟨front, d, rfl, hd, hbehind⟩ := exists_sign_of_stageAt hs
  rw [List.append_assoc, List.cons_append] at heq
  by_cases houtside : LeavesComments front
  · subst heq
    obtain ⟨more, hsuffix, hreads⟩ := h.exists_of_sign houtside hstrings
    have hahead : Ahead .sign (d ++ b) := .sign hreads (horderly.of_suffix (hsuffix.map Prod.fst))
    refine (hahead.run hd hbehind).guards (hspaced.words (front ++ '$' :: d) b (by simp) s hs) ?_
    rintro rfl
    -- only the sign itself leads to this stage
    obtain rfl := eq_nil_of_stageAt_sign hd hbehind
    exact hspaced.variable_signs front b rfl
  · exact hspaced.comments front (d ++ b) heq houtside d b rfl hd s hbehind

/-- What strict cleaning starts with changes no tokens. -/
theorem Reads.bare {t : Text} {sights : List (TokenKind × String)} (h : Reads t sights)
    (hstrings : Stringless (sights.map Prod.fst)) (hclosed : ClosedComments (Text.unixNewlines t)) :
    Reads (Extraction.bare t) sights := by
  have htrim := (h.unixNewlines_of_stringless hstrings).trim
  have hclosed' := ClosedComments.trim hclosed
  obtain ⟨w, hw, hchars⟩ := htrim.exists_stripFences
  rw [hw] at htrim hclosed'
  have hfences := htrim.of_append hchars
  exact (hfences.stripHashComments hclosed'.of_append (hfences.detached hstrings)).1

/-! ## Documents without signs -/

/-- Of an executable document without strings, strict cleaning leaves no sign of a directive or of a variable, if
nothing is read of comment lines and what it starts with leaves a well-spaced text. -/
theorem signless_extract_of_executable {t : Text} (h : Executable t) (hstrings : Stringless (tokens t).kinds)
    (hclosed : ClosedComments (Text.unixNewlines t)) (hspaced : WellSpaced (bare t)) :
    '@' ∉ extract graphqlStrict t ∧ '$' ∉ extract graphqlStrict t := by
  obtain ⟨d, hparse, hexecutable⟩ := h
  have horderly := orderly_of_parseTokens hparse hexecutable
  obtain ⟨sights, hsights⟩ := Option.isSome_iff_exists.1 (isSome_sights?_of_parseTokens hparse)
  rw [Tokens.kinds_of_sights? hsights] at hstrings horderly
  have hreads : Reads (bare t) sights := (reads_iff.2 hsights).bare hstrings hclosed
  exact not_mem_extract_of_guarded hspaced.directive_signs (WellSpaced.guarded hspaced hreads hstrings horderly)

/-- An operation with signs on several lines and in comments, a fragment, and a word behind a variable that the keyword
of fragments starts with. -/
def signedOperation : Text :=
  unlines (["query($id: ID) \x7b # for $5", "  shop(id: $id f: 1)", "    @include(if: true) \x7b ...Id \x7d", "\x7d",
    "# @shop, 5 $", "fragment Id on Shop \x7b id @cached \x7d"].map String.toList)

theorem signless_extract_of_executable_signed :
    Executable signedOperation ∧ Stringless (tokens signedOperation).kinds ∧
      ClosedComments (Text.unixNewlines signedOperation) ∧ WellSpaced (bare signedOperation) ∧
      '@' ∉ extract graphqlStrict signedOperation ∧ '$' ∉ extract graphqlStrict signedOperation := by
  have hexecutable : Executable signedOperation := by decide +kernel
  have hstrings : Stringless (tokens signedOperation).kinds := by decide +kernel
  have hclosed : ClosedComments (Text.unixNewlines signedOperation) := by decide +kernel
  have hspaced : WellSpaced (bare signedOperation) := by decide +kernel
  exact ⟨hexecutable, hstrings, hclosed, hspaced,
    signless_extract_of_executable hexecutable hstrings hclosed hspaced⟩

/-- In other layouts signs are left: of a directive without a blank in front of it, though the same tokens with a blank
lose it, and of variables with blanks behind their signs. -/
theorem mem_extract_of_unspaced :
    (let t := "\x7b shop@include(if: true) \x7b name \x7d \x7d".toList
     let t' := "\x7b shop @include(if: true) \x7b name \x7d \x7d".toList
     Executable t ∧ Stringless (tokens t).kinds ∧ '#' ∉ t ∧ '@' ∈ extract graphqlStrict t ∧
       (tokens t').sights? = (tokens t).sights? ∧ '@' ∉ extract graphqlStrict t') ∧
    (let t := "query ($ id: ID) \x7b shop(id: $ id) \x7b name \x7d \x7d".toList
     Executable t ∧ Stringless (tokens t).kinds ∧ '#' ∉ t ∧ '$' ∈ extract graphqlStrict t) := by
  decide +kernel

end SnippetAudit.GraphQL
