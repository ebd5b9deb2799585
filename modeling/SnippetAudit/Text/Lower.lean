import SnippetAudit.Text.LowerTable

/-!
# Lower-casing

Every capital letter becomes its small form. Two letters need more than a table of single characters:
the capital I with a dot becomes two characters, and the capital sigma becomes a final sigma where it
ends a word.

## What this module delivers

- `lower`: a text with every letter in its small form.
-/

set_option autoImplicit false

namespace SnippetAudit.Text

/-- The small form of a letter whose small form is one fixed character; other characters are kept. -/
def lowerChar (c : Char) : Char :=
  if c.toNat < 128 then c.toLower
  else
    match lowerRuns.find? fun (first, last, step, _) =>
        first ≤ c.toNat && c.toNat ≤ last && (c.toNat - first) % step == 0 with
    | some (_, _, _, distance) => Char.ofNat ((c.toNat : Int) + distance).toNat
    | none => c

/-- The nearest character that is not passed over, going away from a capital sigma, has case. -/
def meetsCased : Text → Bool
  | [] => false
  | c :: rest =>
    if inRanges caseIgnorableTable c.toNat then meetsCased rest else inRanges casedTable c.toNat

/-- A text in lower case, with the characters before it, the nearest first, given as `before`. -/
def lowerAfter (before : Text) : Text → Text
  | [] => []
  | c :: rest =>
    let small : Text :=
      -- the capital I with a dot becomes an i and a dot above it
      if c.toNat = 0x130 then ['i', Char.ofNat 0x307]
      else if c.toNat = 0x3A3 then
        -- a sigma is final where cased letters stand before it and none behind it
        if meetsCased before && !meetsCased rest then [Char.ofNat 0x3C2] else [Char.ofNat 0x3C3]
      else [lowerChar c]
    small ++ lowerAfter (c :: before) rest

/-- A text in lower case. -/
def lower (t : Text) : Text := lowerAfter [] t

end SnippetAudit.Text
