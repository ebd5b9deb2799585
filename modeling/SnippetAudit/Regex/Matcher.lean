import SnippetAudit.Regex.Basic

/-!
# Matching regular expressions

A match moves from a place in a text to a later one and keeps what its groups match. An expression has
all its ways of matching, in the order of preference; a text is found when there is one from some place.

## What this module delivers

- `Place`: a place in a text with what groups have kept;
- `Regex.ways`: the places an expression leads to;
- `Regex.isFoundIn`: the expression matches somewhere in a text.
-/

set_option autoImplicit false

namespace SnippetAudit

/-- A place in a text: what stands before it, the nearest character first, what stands behind it, and
what groups have kept. -/
structure Place where
  before : Text
  after : Text
  kept : List (Nat × Text)
  deriving Repr, DecidableEq

namespace Place

/-- The place behind the next character, if that satisfies a condition. -/
def advance (p : Char → Bool) (place : Place) : List Place :=
  match place.after with
  | [] => []
  | c :: rest => if p c then [⟨c :: place.before, rest, place.kept⟩] else []

/-- The place with a group's text kept. -/
def keep (place : Place) (number : Nat) (t : Text) : Place :=
  ⟨place.before, place.after, (number, t) :: place.kept.filter (·.1 != number)⟩

/-- The text between an earlier place and this one. -/
def since (place start : Place) : Text :=
  start.after.take (start.after.length - place.after.length)

end Place

namespace Anchor

/-- A word character stands on exactly one side of the place. -/
def isBoundary (asciiOnly : Bool) (place : Place) : Bool :=
  let isWord (c : Char) := NamedClass.word.contains asciiOnly c
  place.before.head?.any isWord != place.after.head?.any isWord

/-- The place is one that the anchor asks for. -/
def holds (a : Anchor) (place : Place) : Bool :=
  match a with
  | .textStart => place.before.isEmpty
  | .textEnd => place.after.isEmpty
  | .lineStart => place.before.head?.all (· == '\n')
  | .lineEnd => place.after.head?.all (· == '\n')
  | .lastLineEnd => place.after.isEmpty || place.after == ['\n']
  | .wordBoundary asciiOnly => isBoundary asciiOnly place
  | .noWordBoundary asciiOnly =>
    -- in the empty text neither a boundary nor its absence is found
    !isBoundary asciiOnly place && !(place.before.isEmpty && place.after.isEmpty)

end Anchor

namespace Regex

/-- The places reached by matching a text as it stands. -/
def matchText (ignoreCase asciiOnly : Bool) : Text → Place → List Place
  | [], place => [place]
  | c :: rest, place =>
    (place.advance fun d =>
      if ignoreCase then foldChar asciiOnly c == foldChar asciiOnly d else c == d).flatMap
        (matchText ignoreCase asciiOnly rest)

/-- The places reached by repetitions of one step, at least `least` and at most `most` of them. Beyond
the least number a step must move on. -/
def repeatWays (step : Place → List Place) (mode : RepeatMode) :
    Nat → Nat → Option Nat → Place → List Place
  | 0, _, _, place => [place]
  | fuel + 1, least, most, place =>
    if 0 < least then
      ((step place).flatMap (repeatWays step mode fuel (least - 1) (most.map (· - 1)))).eraseDups
    else
      let further :=
        if most = some 0 then []
        else
          (((step place).filter fun next => next.after.length < place.after.length).flatMap
            (repeatWays step mode fuel 0 (most.map (· - 1))))
      match mode with
      | .lazy => (place :: further).eraseDups
      | _ => (further ++ [place]).eraseDups

/-- The places an expression leads to from a place, the preferred ones first. -/
def ways : Regex → Place → List Place
  | .empty, place => [place]
  | .chars cs, place => place.advance cs.contains
  | .any lineFeedToo, place => place.advance fun c => lineFeedToo || c != '\n'
  | .anchor a, place => if a.holds place then [place] else []
  | .seq first second, place => ((ways first place).flatMap (ways second)).eraseDups
  | .alt first second, place => (ways first place ++ ways second place).eraseDups
  | .repeated least most mode body, place =>
    -- every repetition beyond the least number uses up a character
    let all := repeatWays (ways body) mode (least + place.after.length + 1) least most place
    if mode = .possessive then all.take 1 else all
  | .group number body, place =>
    (ways body place).map fun next => next.keep number (next.since place)
  | .reference number ignoreCase asciiOnly, place =>
    match List.lookup number place.kept with
    | some t => matchText ignoreCase asciiOnly t place
    | none => []
  | .look ahead negated body, place =>
    let starts : List Place :=
      if ahead then [place]
      -- a look behind is tried from every earlier place and must end at this one
      else (List.range (place.before.length + 1)).map fun n =>
        ⟨place.before.drop n, (place.before.take n).reverse ++ place.after, place.kept⟩
    let found := (starts.flatMap (ways body)).filter fun next =>
      ahead || next.after.length == place.after.length
    match found with
    | [] => if negated then [place] else []
    -- nothing is consumed; only what groups have kept comes out of a look
    | next :: _ => if negated then [] else [⟨place.before, place.after, next.kept⟩]
  | .atomic body, place => (ways body place).take 1
  | .conditional number present absent, place =>
    if (List.lookup number place.kept).isSome then ways present place else ways absent place

/-- The expression matches from a place of the text behind `before`. -/
def isFoundFrom (r : Regex) (before : Text) : Text → Bool
  | [] => !(ways r ⟨before, [], []⟩).isEmpty
  | c :: rest => !(ways r ⟨before, c :: rest, []⟩).isEmpty || isFoundFrom r (c :: before) rest

/-- The expression matches somewhere in a text. -/
def isFoundIn (r : Regex) (t : Text) : Bool := isFoundFrom r [] t

end Regex

end SnippetAudit
