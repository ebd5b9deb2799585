import SnippetAudit.Data.Distinct
import SnippetAudit.Data.Sorted
import SnippetAudit.Text.Lower
import SnippetAudit.Text.Digit

/-!
# Suggestions

Where a name is not known, messages suggest names that are nearly the same. The distance between two names
is the number of edits that lead from one to the other, where an edit changes, adds or drops one character
or swaps two neighbours. Letter case does not count, but names that differ in nothing else are one edit
apart.

## What this module delivers

- `editDistance`: the number of edits;
- `naturalBefore`: the order of names in which numbers count by their value;
- `suggestions`: the names near an input;
- `didYouMean`: the question that messages end with.
-/

set_option autoImplicit false

namespace SnippetAudit.GraphQL

/-! ## Distance -/

/-- The cells of a row of distances. A cell tells the distance between the starts of two texts, of which
the first ends with `c` and `before?` in front of it, and the second is a start of the text given.
`left` is the cell to the left, `corner` and `above` are the row above from the cell to the left on,
`higher` is the row above that one from two cells to the left on, and `last?` is the character in front
of the text given. -/
def distanceCells (c : Char) (before? : Option Char) (left corner : Nat) (above higher : List Nat)
    (last? : Option Char) : Text → List Nat
  | [] => []
  | d :: rest =>
    match above with
    | [] => []
    | up :: above =>
      let plain := min (min (up + 1) (left + 1)) (corner + if c = d then 0 else 1)
      let swapped :=
        -- the two last characters are those of the other text in turn
        if before? = some d ∧ last? = some c then min plain (higher.headD plain + 1) else plain
      swapped ::
        distanceCells c before? swapped up above (if last?.isSome then higher.drop 1 else higher)
          (some d) rest

/-- The last row of distances from the starts of `b`, for the text that goes on from the rows `above` and
`higher`; `row` is the number of characters in front of it and `before?` is the last of them. -/
def distanceRows (b : Text) (row : Nat) (before? : Option Char) (above higher : List Nat) :
    Text → List Nat
  | [] => above
  | c :: rest =>
    let cells :=
      (row + 1) :: distanceCells c before? (row + 1) row (above.drop 1) higher none b
    distanceRows b (row + 1) (some c) cells above rest

/-- The number of edits that lead from one text to another. -/
def editDistance (a b : Text) : Nat :=
  (distanceRows b 0 none (List.range (b.length + 1)) [] a).getLastD 0

/-- The distance between two names, if it is not above `limit`. -/
def nameDistance? (limit : Nat) (input option : String) : Option Nat :=
  if input = option then some 0
  else
    let a := Text.lower input.toList
    let b := Text.lower option.toList
    if a = b then some 1
    else
      let distance := editDistance b a
      if distance ≤ limit then some distance else none

/-! ## Order -/

/-- A text as parts that are digits and parts that are not, taking turns, where `digits` tells the kind
of the first. -/
def naturalParts (digits : Bool) : Text → List Text
  | [] => [[]]
  | c :: rest =>
    if ('0' ≤ c && c ≤ '9') = digits then
      match naturalParts digits rest with
      | [] => [[c]]
      | part :: more => (c :: part) :: more
    else
      match naturalParts (!digits) rest with
      | [] => [[], [c]]
      | part :: more => [] :: (c :: part) :: more

/-- The first text comes first by its characters. -/
def charsBefore (a b : Text) : Bool := decide (String.ofList a < String.ofList b)

/-- The number of a part that is digits. -/
def partValue (part : Text) : Nat := Text.digitsValue 10 (part.filterMap (Text.radixDigit? 10))

/-- The first list of parts comes first: parts that are digits are compared by their value, and by their
characters where it is the same. -/
def partsBefore (digits : Bool) : List Text → List Text → Bool
  | [], others => !others.isEmpty
  | _ :: _, [] => false
  | a :: rest, b :: others =>
    if a = b then partsBefore (!digits) rest others
    else if digits && partValue a != partValue b then decide (partValue a < partValue b)
    else charsBefore a b

/-- The first name comes first where numbers count by their value. -/
def naturalBefore (a b : String) : Bool :=
  partsBefore false (naturalParts false a.toList) (naturalParts false b.toList)

/-! ## Hints -/

/-- The greatest distance at which a name is near an input. -/
def distanceLimit (input : String) : Nat := input.length * 2 / 5 + 1

/-- The names near an input, each once, the nearest first. -/
def suggestions (input : String) (options : List String) : List String :=
  let near := (distinctNames options).filterMap fun option =>
    (nameDistance? (distanceLimit input) input option).map fun distance => (distance, option)
  -- names at one distance are in their natural order
  (Sorted.sortBy (fun a b => a.1 < b.1 || (a.1 == b.1 && naturalBefore a.2 b.2)) near).map Prod.snd

/-- The number of names that a hint shows at most. -/
def hintLimit : Nat := 5

/-- Quoted names as a choice. -/
def orList : List String → String
  | [] => ""
  | [a] => a
  | [a, b] => a ++ " or " ++ b
  | names => ", ".intercalate names.dropLast ++ ", or " ++ names.getLastD ""

/-- The question whether one of some names was meant; `lead` stands in front of the names. -/
def didYouMean (lead : String) (names : List String) : String :=
  match names.take hintLimit with
  | [] => ""
  | shown => " Did you mean " ++ lead ++ orList (shown.map fun name => "'" ++ name ++ "'") ++ "?"

end SnippetAudit.GraphQL
