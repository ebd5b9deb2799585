import SnippetAudit.Regex.Basic

/-!
# Reading regular expressions

An expression is read from its text from left to right. Reading fails where the text is no expression:
at brackets that do not match, at a repetition of nothing, at an escape without meaning, at a reference to
a group that is not there, or at a look behind of no fixed length.

Characters given by their names are left out: where such an escape stands, reading fails. In a class, capitals beyond
U+FFFF that are listed and not part of a range are found in both forms where letter case is ignored.

## What this module delivers

- `Regex.read?`: the expression that a text is, if it is one.
-/

set_option autoImplicit false

namespace SnippetAudit.Regex

/-- The switches that an expression is read with. -/
structure Flags where
  ignoreCase : Bool := false
  multiline : Bool := false
  dotAll : Bool := false
  verbose : Bool := false
  asciiOnly : Bool := false
  deriving Repr, DecidableEq

/-- What is known of an expression's groups while it is read. -/
structure Groups where
  /-- The number of the next group. -/
  next : Nat := 1
  names : List (String × Nat) := []
  /-- The groups whose closing bracket has not been read. -/
  opened : List Nat := []
  widths : List (Nat × Nat × Option Nat) := []
  /-- The numbers asked for by conditions; they must exist in the end. -/
  asked : List Nat := []
  /-- The groups opened before the look behind that is being read, if one is. -/
  behindFrom : Option Nat := none

/-- Switches as a list of their letters. -/
def Flags.set (flags : Flags) (letter : Char) (on : Bool) : Flags :=
  match letter with
  | 'i' => { flags with ignoreCase := on }
  | 'm' => { flags with multiline := on }
  | 's' => { flags with dotAll := on }
  | 'x' => { flags with verbose := on }
  | 'a' => { flags with asciiOnly := on }
  | 'u' => { flags with asciiOnly := !on }
  | _ => flags

/-- The letters of switches. -/
def flagLetters : List Char := ['i', 'm', 's', 'x', 'a', 'u']

/-- The number of exactly `count` hexadecimal digits at the front of a text. -/
def takeHex? (count : Nat) (t : Text) : Option (Nat × Text) :=
  if t.length < count then none
  else ((t.take count).mapM (Text.radixDigit? 16)).map fun digits =>
    (Text.digitsValue 16 digits, t.drop count)

/-- The greatest code point. -/
def maxCodePoint : Nat := 0x10FFFF

/-- A digit below eight. -/
def isOctal (c : Char) : Bool := '0' ≤ c && c ≤ '7'

/-- The code point of an escape that is the same inside and outside a class, its letter having been
read. -/
def plainEscape? (letter : Char) (rest : Text) : Option (Nat × Text) :=
  match letter with
  | 'a' => some (7, rest)
  | 'f' => some (12, rest)
  | 'n' => some ('\n'.toNat, rest)
  | 'r' => some ('\r'.toNat, rest)
  | 't' => some ('\t'.toNat, rest)
  | 'v' => some (11, rest)
  | 'x' => takeHex? 2 rest
  | 'u' => takeHex? 4 rest
  | 'U' => (takeHex? 8 rest).filter fun (n, _) => n ≤ maxCodePoint
  | c => if c.isAlphanum then none else some (c.toNat, rest)

/-- The class named by a letter. -/
def namedClass? : Char → Option ClassPart
  | 'd' => some (.named .digit false)
  | 'D' => some (.named .digit true)
  | 's' => some (.named .blank false)
  | 'S' => some (.named .blank true)
  | 'w' => some (.named .word false)
  | 'W' => some (.named .word true)
  | _ => none

/-- The value of octal digits, which must be below U+0100. -/
def octalValue? (digits : Text) : Option Nat :=
  let n := Text.digitsValue 8 (digits.filterMap (Text.radixDigit? 8))
  if n ≤ 0xFF then some n else none

/-- One character or named class inside brackets. -/
def takeClassPart? (t : Text) : Option (ClassPart × Text) :=
  match t with
  | [] => none
  | '\\' :: [] => none
  | '\\' :: letter :: rest =>
    match namedClass? letter with
    | some part => some (part, rest)
    | none =>
      if letter = 'b' then some (.range 8 8, rest)
      else if isOctal letter then
        let digits := letter :: (rest.take 2).takeWhile isOctal
        (octalValue? digits).map fun n => (.range n n, rest.drop (digits.length - 1))
      else (plainEscape? letter rest).map fun (n, more) => (.range n n, more)
  | c :: rest => some (.range c.toNat c.toNat, rest)

/-- The parts of a class up to its closing bracket; a bracket that comes first is a part. -/
def takeClassParts? : Nat → List ClassPart → Text → Option (List ClassPart × Text)
  | 0, _, _ => none
  | fuel + 1, done, t =>
    if t.head? = some ']' ∧ !done.isEmpty then some (done.reverse, t.drop 1)
    else do
      let (first, rest) ← takeClassPart? t
      match rest with
      -- a bar in front of the closing bracket is a character and no range
      | '-' :: ']' :: more =>
        some ((.range '-'.toNat '-'.toNat :: first :: done).reverse, more)
      | '-' :: more =>
        let (last, after) ← takeClassPart? more
        match first, last with
        | .range lo _, .range hi _ =>
          if lo ≤ hi then takeClassParts? fuel (.range lo hi :: done) after else none
        | _, _ => none
      | more => takeClassParts? fuel (first :: done) more

/-- A class behind its opening bracket. -/
def takeClass? (flags : Flags) (t : Text) : Option (Regex × Text) :=
  let (negated, rest) :=
    match t with
    | '^' :: more => (true, more)
    | more => (false, more)
  (takeClassParts? (t.length + 1) [] rest).map fun (parts, more) =>
    (.chars ⟨negated, parts, flags.ignoreCase, flags.asciiOnly⟩, more)

/-- The expression that matches one code point. -/
def literal (flags : Flags) (n : Nat) : Regex :=
  .chars ⟨false, [.range n n], flags.ignoreCase, flags.asciiOnly⟩

/-- A reference to a group, which must be there and closed, and not belong to the look behind being
read. -/
def reference? (flags : Flags) (groups : Groups) (number : Nat) : Option Regex :=
  if number = 0 ∨ groups.next ≤ number ∨ groups.opened.contains number then none
  else if groups.behindFrom.any (· ≤ number) then none
  else some (.reference number flags.ignoreCase flags.asciiOnly)

/-- An escape outside a class, its backslash having been read. -/
def takeEscape? (flags : Flags) (groups : Groups) (t : Text) : Option (Regex × Text) :=
  match t with
  | [] => none
  | letter :: rest =>
    match namedClass? letter with
    | some part => some (.chars ⟨false, [part], flags.ignoreCase, flags.asciiOnly⟩, rest)
    | none =>
      if letter = 'A' then some (.anchor .textStart, rest)
      else if letter = 'Z' then some (.anchor .textEnd, rest)
      else if letter = 'b' then some (.anchor (.wordBoundary flags.asciiOnly), rest)
      else if letter = 'B' then some (.anchor (.noWordBoundary flags.asciiOnly), rest)
      else if letter = '0' then
        let digits := letter :: (rest.take 2).takeWhile isOctal
        (octalValue? digits).map fun n => (literal flags n, rest.drop (digits.length - 1))
      -- three octal digits are a character; otherwise one or two digits are the number of a group
      else if letter.isDigit then
        match rest with
        | second :: more =>
          if second.isDigit then
            match more with
            | third :: after =>
              if isOctal letter ∧ isOctal second ∧ isOctal third then
                (octalValue? [letter, second, third]).map fun n => (literal flags n, after)
              else
                (reference? flags groups
                  (Text.digitsValue 10 ([letter, second].filterMap (Text.radixDigit? 10)))).map
                  fun r => (r, more)
            | [] =>
              (reference? flags groups
                (Text.digitsValue 10 ([letter, second].filterMap (Text.radixDigit? 10)))).map
                fun r => (r, more)
          else (reference? flags groups (letter.toNat - 48)).map fun r => (r, rest)
        | [] => (reference? flags groups (letter.toNat - 48)).map fun r => (r, rest)
      else (plainEscape? letter rest).map fun (n, more) => (literal flags n, more)

/-- How often a repetition sign asks for. -/
structure Times where
  least : Nat
  most : Option Nat

/-- The repetition sign at the front of a text; braces that hold no numbers are none, and numbers in the
wrong order make none readable, which is told by `some none`. -/
def takeTimes? (t : Text) : Option (Option Times × Text) :=
  match t with
  | '?' :: rest => some (some ⟨0, some 1⟩, rest)
  | '*' :: rest => some (some ⟨0, none⟩, rest)
  | '+' :: rest => some (some ⟨1, none⟩, rest)
  | '\x7b' :: rest =>
    let low := rest.takeWhile Char.isDigit
    let afterLow := rest.dropWhile Char.isDigit
    let value (digits : Text) : Nat :=
      Text.digitsValue 10 (digits.filterMap (Text.radixDigit? 10))
    match afterLow with
    | '\x7d' :: more =>
      if low.isEmpty then none else some (some ⟨value low, some (value low)⟩, more)
    | ',' :: more =>
      let high := more.takeWhile Char.isDigit
      match more.dropWhile Char.isDigit with
      | '\x7d' :: after =>
        let most := if high.isEmpty then none else some (value high)
        if most.any (· < value low) then some (none, after)
        else some (some ⟨value low, most⟩, after)
      | _ => none
    | _ => none
  | _ => none

/-- The way in which a repetition is tried, by the sign behind it. -/
def takeMode (t : Text) : RepeatMode × Text :=
  match t with
  | '?' :: rest => (.lazy, rest)
  | '+' :: rest => (.possessive, rest)
  | rest => (.greedy, rest)

/-- The text behind white space and remarks, which are passed over in verbose expressions. -/
def skipRemarks : Nat → Text → Text
  | 0, t => t
  | fuel + 1, t =>
    match t with
    | '#' :: rest => skipRemarks fuel ((rest.dropWhile (· != '\n')).drop 1)
    | c :: rest =>
      if (9 ≤ c.toNat ∧ c.toNat ≤ 13) ∨ c = ' ' then skipRemarks fuel rest else t
    | [] => []

/-- A name may start with a letter or an underscore and goes on with word characters. -/
def isName (t : Text) : Bool :=
  t.all Text.isWord && !t.isEmpty && t.head?.all fun c => (Text.digitValue? c).isNone

/-- The text up to a closing mark, which must come, and the text behind it. -/
def takeUntil? (mark : Char) (t : Text) : Option (Text × Text) :=
  match t.dropWhile (· != mark) with
  | [] => none
  | _ :: rest =>
    let name := t.takeWhile (· != mark)
    if name.isEmpty then none else some (name, rest)

/-- The switches turned on and off at the front of a group, with the character that ends them. -/
def takeFlags? (t : Text) : Option (Text × Text × Char × Text) :=
  let on := t.takeWhile flagLetters.contains
  match t.dropWhile flagLetters.contains with
  | ')' :: rest => if on.isEmpty then none else some (on, [], ')', rest)
  | ':' :: rest => if on.isEmpty then none else some (on, [], ':', rest)
  | '-' :: more =>
    let off := more.takeWhile flagLetters.contains
    match more.dropWhile flagLetters.contains with
    | ':' :: rest =>
      -- the switches for the alphabet can be turned on but not off
      if off.isEmpty ∨ off.contains 'a' ∨ off.contains 'u' ∨ on.any off.contains then none
      else some (on, off, ':', rest)
    | _ => none
  | _ => none

/-- Switches set by letters. -/
def applyFlags (flags : Flags) (on off : Text) : Flags :=
  off.foldl (·.set · false) (on.foldl (·.set · true) flags)

/-- A group opened with the next number and an optional name. -/
def Groups.openGroup (groups : Groups) (name : Option String) : Groups :=
  { groups with
    next := groups.next + 1
    opened := groups.next :: groups.opened
    names := match name with
      | some n => (n, groups.next) :: groups.names
      | none => groups.names }

/-- A group closed, with the width of its body. -/
def Groups.closeGroup (groups : Groups) (number : Nat) (body : Regex) : Groups :=
  { groups with
    opened := groups.opened.filter (· != number)
    widths := (number, body.width groups.widths) :: groups.widths }

/-- An expression in front of others, the last one first. -/
def joinReversed (items : List Regex) : Regex :=
  items.foldl (fun rest item => match rest with
    | .empty => item
    | rest => .seq item rest) .empty

/-- What reading a part gives: the expression, the groups and the text behind it. -/
abbrev Part := Option (Regex × Groups × Text)

/-- An expression that cannot be repeated: nothing, a place, or a repetition. -/
def isRepeatable : Regex → Bool
  | .anchor _ => false
  | .repeated _ _ _ _ => false
  | _ => true

mutual

/-- Alternatives up to a closing bracket or the end. -/
def readAlternatives : Nat → Flags → Bool → Groups → Text → Part
  | 0, _, _, _, _ => none
  | fuel + 1, flags, isTop, groups, t => do
    let (first, groups, rest) ← readSequence fuel flags isTop groups [] t
    match rest with
    | '|' :: more =>
      let (second, groups, after) ← readAlternatives fuel flags false groups more
      some (.alt first second, groups, after)
    | rest => some (first, groups, rest)

/-- A sequence up to a bar, a closing bracket or the end; `done` holds what is read, the last first.
Switches for the whole expression may stand at its very start. -/
def readSequence : Nat → Flags → Bool → Groups → List Regex → Text → Part
  | 0, _, _, _, _, _ => none
  | fuel + 1, flags, isTop, groups, done, t =>
    let t := if flags.verbose then skipRemarks t.length t else t
    match t with
    | [] => some (joinReversed done, groups, [])
    | '|' :: _ => some (joinReversed done, groups, t)
    | ')' :: _ => some (joinReversed done, groups, t)
    | '\\' :: rest => do
      let (r, more) ← takeEscape? flags groups rest
      readSequence fuel flags false groups (r :: done) more
    | '[' :: rest => do
      let (r, more) ← takeClass? flags rest
      readSequence fuel flags false groups (r :: done) more
    | '.' :: rest => readSequence fuel flags false groups (.any flags.dotAll :: done) rest
    | '^' :: rest =>
      let a := if flags.multiline then .lineStart else .textStart
      readSequence fuel flags false groups (.anchor a :: done) rest
    | '$' :: rest =>
      let a := if flags.multiline then .lineEnd else .lastLineEnd
      readSequence fuel flags false groups (.anchor a :: done) rest
    | '(' :: '?' :: rest =>
      match takeFlags? rest with
      | some (on, _, ')', more) =>
        -- switches without a body hold for the whole expression and stand at its very start
        if isTop ∧ done.isEmpty then readSequence fuel (applyFlags flags on []) true groups [] more
        else none
      | some (on, off, _, more) => do
        let (body, groups, after) ← readAlternatives fuel (applyFlags flags on off) false groups more
        match after with
        | ')' :: last => readSequence fuel flags false groups (.seq .empty body :: done) last
        | _ => none
      | none => do
        let (r, groups, more) ← readExtension fuel flags groups rest
        match r with
        | some r => readSequence fuel flags false groups (r :: done) more
        -- a remark is no part of the sequence, so switches may still follow it
        | none => readSequence fuel flags isTop groups done more
    | '(' :: rest => do
      let number := groups.next
      let (body, groups, after) ← readAlternatives fuel flags false (groups.openGroup none) rest
      match after with
      | ')' :: more =>
        readSequence fuel flags false (groups.closeGroup number body) (.group number body :: done) more
      | _ => none
    | c :: rest =>
      match takeTimes? t with
      | some (none, _) => none
      | some (some times, more) =>
        match done with
        | [] => none
        | last :: earlier =>
          if !isRepeatable last then none
          else
            let (mode, after) := takeMode more
            readSequence fuel flags false groups
              (.repeated times.least times.most mode last :: earlier) after
      | none => readSequence fuel flags false groups (literal flags c.toNat :: done) rest

/-- A group with a question mark behind its bracket; a remark is no expression. -/
def readExtension : Nat → Flags → Groups → Text → Option (Option Regex × Groups × Text)
  | 0, _, _, _ => none
  | fuel + 1, flags, groups, t =>
    match t with
    | ':' :: rest => do
      let (body, groups, after) ← readAlternatives fuel flags false groups rest
      match after with
      | ')' :: more => some (some (.seq .empty body), groups, more)
      | _ => none
    | '>' :: rest => do
      let (body, groups, after) ← readAlternatives fuel flags false groups rest
      match after with
      | ')' :: more => some (some (.atomic body), groups, more)
      | _ => none
    | '#' :: rest =>
      match rest.dropWhile (· != ')') with
      | _ :: more => some (none, groups, more)
      | [] => none
    | '=' :: rest => readLook fuel flags true false groups rest
    | '!' :: rest => readLook fuel flags true true groups rest
    | '<' :: '=' :: rest => readLook fuel flags false false groups rest
    | '<' :: '!' :: rest => readLook fuel flags false true groups rest
    | 'P' :: '<' :: rest => do
      let (name, more) ← takeUntil? '>' rest
      if !isName name ∨ (List.lookup (String.ofList name) groups.names).isSome then none
      else
        let number := groups.next
        let (body, groups, after) ←
          readAlternatives fuel flags false (groups.openGroup (String.ofList name)) more
        match after with
        | ')' :: last => some (some (.group number body), groups.closeGroup number body, last)
        | _ => none
    | 'P' :: '=' :: rest => do
      let (name, more) ← takeUntil? ')' rest
      let number ← List.lookup (String.ofList name) groups.names
      some (some (← reference? flags groups number), groups, more)
    | '(' :: rest => do
      let (name, more) ← takeUntil? ')' rest
      let number ←
        if isName name then List.lookup (String.ofList name) groups.names
        else (name.mapM (Text.radixDigit? 10)).map (Text.digitsValue 10)
      -- a condition may ask for a group that comes later; whether there is one is known at the end
      if number = 0 ∨ groups.behindFrom.any (· ≤ number) then none
      else
        let groups := { groups with asked := number :: groups.asked }
        let (present, groups, rest) ← readSequence fuel flags false groups [] more
        match rest with
        | ')' :: last => some (some (.conditional number present .empty), groups, last)
        | '|' :: other =>
          let (absent, groups, rest) ← readSequence fuel flags false groups [] other
          match rest with
          | ')' :: last => some (some (.conditional number present absent), groups, last)
          | _ => none
        | _ => none
    | _ => none

/-- A look ahead or behind, up to its closing bracket; one behind must have a fixed width. -/
def readLook : Nat → Flags → Bool → Bool → Groups → Text → Option (Option Regex × Groups × Text)
  | 0, _, _, _, _, _ => none
  | fuel + 1, flags, ahead, negated, groups, t => do
    let outer := groups.behindFrom
    -- references inside of a look behind may only lead to groups that were opened before it
    let inner := if ahead then outer else some (outer.getD groups.next)
    let (body, groups, after) ←
      readAlternatives fuel flags false { groups with behindFrom := inner } t
    match after with
    | ')' :: more =>
      if !ahead ∧ !body.hasFixedWidth groups.widths then none
      else some (some (.look ahead negated body), { groups with behindFrom := outer }, more)
    | _ => none

end

/-- The expression that a text is, if it is one. -/
def read? (t : Text) : Option Regex :=
  -- on the way to the next character at most four readers call each other
  match readAlternatives (4 * t.length + 4) {} true {} t with
  | some (r, groups, []) => if groups.asked.any (groups.next ≤ ·) then none else some r
  | _ => none

end SnippetAudit.Regex
