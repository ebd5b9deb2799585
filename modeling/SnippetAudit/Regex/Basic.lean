import SnippetAudit.Regex.Letter
import SnippetAudit.Text.Digit
import SnippetAudit.Text.Word

/-!
# Regular expressions

Regular expressions over characters, with classes, anchors, groups and references to them, repetition in
three modes, and tests of what stands before or behind a place. The flags that an expression is read with
are settled in its parts.

## What this module delivers

- `Regex` and its parts;
- `CharClass.contains`: membership of a character in a class;
- `Regex.width`: the least and the greatest length of a match.
-/

set_option autoImplicit false

namespace SnippetAudit

/-- A class of characters that has a name. -/
inductive NamedClass where
  | digit
  | blank
  | word
  deriving Repr, DecidableEq

/-- A part of a character class. -/
inductive ClassPart where
  /-- The code points from the first to the last one. -/
  | range (first last : Nat)
  | named (which : NamedClass) (negated : Bool)
  deriving Repr, DecidableEq

/-- A character class: its parts, or the characters in none of them. -/
structure CharClass where
  negated : Bool
  parts : List ClassPart
  ignoreCase : Bool
  asciiOnly : Bool
  deriving Repr, DecidableEq

/-- A place in a text that an expression can ask for. -/
inductive Anchor where
  | textStart
  | textEnd
  | lineStart
  | lineEnd
  /-- The end, or the place before a line feed at the very end. -/
  | lastLineEnd
  | wordBoundary (asciiOnly : Bool)
  | noWordBoundary (asciiOnly : Bool)
  deriving Repr, DecidableEq

/-- In which order the numbers of repetitions are tried; a possessive repetition keeps the first. -/
inductive RepeatMode where
  | greedy
  | lazy
  | possessive
  deriving Repr, DecidableEq

/-- A regular expression. -/
inductive Regex where
  | empty
  | chars (cs : CharClass)
  /-- Any character; a line feed only where `lineFeedToo`. -/
  | any (lineFeedToo : Bool)
  | anchor (a : Anchor)
  | seq (first second : Regex)
  | alt (first second : Regex)
  | repeated (least : Nat) (most : Option Nat) (mode : RepeatMode) (body : Regex)
  /-- A group that keeps what it matches under a number. -/
  | group (number : Nat) (body : Regex)
  /-- What a group has kept. -/
  | reference (number : Nat) (ignoreCase asciiOnly : Bool)
  /-- What stands at a place, before or behind it, without moving on. -/
  | look (ahead negated : Bool) (body : Regex)
  /-- Only the first way in which the body matches. -/
  | atomic (body : Regex)
  /-- One of two expressions, by whether a group has kept something. -/
  | conditional (number : Nat) (present absent : Regex)
  deriving Repr, DecidableEq, Inhabited

namespace NamedClass

/-- Membership of a character. -/
def contains (which : NamedClass) (asciiOnly : Bool) (c : Char) : Bool :=
  let inScope := !asciiOnly || c.toNat < 128
  match which with
  | .digit => inScope && (Text.digitValue? c).isSome
  | .blank =>
    if asciiOnly then (9 ≤ c.toNat && c.toNat ≤ 13) || c == ' ' else Text.isBlank c
  | .word => inScope && Text.isWord c

end NamedClass

namespace CharClass

/-- Membership of a character in a part. The named classes have a letter in all of its forms, or in none. -/
def partContains (cs : CharClass) (c : Char) : ClassPart → Bool
  | .range first last =>
    (Regex.letterForms cs.ignoreCase cs.asciiOnly c).any fun n => first ≤ n && n ≤ last
  | .named which negated => which.contains cs.asciiOnly c != negated

/-- Membership of a character. -/
def contains (cs : CharClass) (c : Char) : Bool := cs.parts.any (cs.partContains c) != cs.negated

end CharClass

namespace Regex

/-- The sum of two greatest lengths, where none means no bound. -/
def addBound (a b : Option Nat) : Option Nat :=
  match a, b with
  | some m, some n => some (m + n)
  | _, _ => none

/-- The greater of two greatest lengths, where none means no bound. -/
def maxBound (a b : Option Nat) : Option Nat :=
  match a, b with
  | some m, some n => some (max m n)
  | _, _ => none

/-- The least and the greatest length of a match, given those of the groups. -/
def width (groups : List (Nat × Nat × Option Nat)) : Regex → Nat × Option Nat
  | .empty => (0, some 0)
  | .chars _ => (1, some 1)
  | .any _ => (1, some 1)
  | .anchor _ => (0, some 0)
  | .seq first second =>
    ((width groups first).1 + (width groups second).1,
      addBound (width groups first).2 (width groups second).2)
  | .alt first second =>
    (min (width groups first).1 (width groups second).1,
      maxBound (width groups first).2 (width groups second).2)
  | .repeated least most _ body =>
    ((width groups body).1 * least,
      match (width groups body).2, most with
      | some 0, _ => some 0
      | some n, some m => some (n * m)
      | _, _ => none)
  | .group _ body => width groups body
  | .reference number _ _ => (List.lookup number groups).getD (0, none)
  | .look _ _ _ => (0, some 0)
  | .atomic body => width groups body
  | .conditional _ present absent =>
    (min (width groups present).1 (width groups absent).1,
      maxBound (width groups present).2 (width groups absent).2)

/-- All matches have the same length. -/
def hasFixedWidth (groups : List (Nat × Nat × Option Nat)) (r : Regex) : Bool :=
  some (width groups r).1 == (width groups r).2

end Regex

end SnippetAudit
