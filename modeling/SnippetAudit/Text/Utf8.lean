import SnippetAudit.Text.Quoted

/-!
# UTF-8

A character is one to four octets: the first octet tells how many follow and how the second one is
limited. Octets that form no character are taken off in the longest piece that still could have
started one; reading either stops at such a piece or puts the replacement character in its place.

## What this module delivers

- `Octets`: sequences of octets;
- `encodeChar`, `encode`: the octets of a character and of a text;
- `Octets.step`: the first character of a sequence, or the piece that forms none;
- `Octets.decode`: the text of a sequence, or the first fault with its place;
- `Octets.decodeLossy`: the text with a replacement character for every fault.
-/

set_option autoImplicit false

namespace SnippetAudit

/-- A sequence of octets. -/
abbrev Octets := List UInt8

namespace Text

/-- The octets of one character. -/
def encodeChar (c : Char) : Octets :=
  let n := c.toNat
  if n < 0x80 then [UInt8.ofNat n]
  else if n < 0x800 then [UInt8.ofNat (0xC0 + n / 0x40), UInt8.ofNat (0x80 + n % 0x40)]
  else if n < 0x10000 then
    [UInt8.ofNat (0xE0 + n / 0x1000), UInt8.ofNat (0x80 + n / 0x40 % 0x40),
      UInt8.ofNat (0x80 + n % 0x40)]
  else
    [UInt8.ofNat (0xF0 + n / 0x40000), UInt8.ofNat (0x80 + n / 0x1000 % 0x40),
      UInt8.ofNat (0x80 + n / 0x40 % 0x40), UInt8.ofNat (0x80 + n % 0x40)]

/-- The octets of a text. -/
def encode (t : Text) : Octets := t.flatMap encodeChar

end Text

namespace Octets

/-- Why octets form no character. -/
inductive Fault where
  /-- The first octet starts no character. -/
  | badStart
  /-- An octet that should continue the character does not. -/
  | badContinuation
  /-- The sequence ends inside a character. -/
  | cutShort
  deriving Repr, DecidableEq

/-- The shape of a character by its first octet: how many octets follow, the bits the first one
gives, and the least and the greatest second octet. -/
structure Lead where
  following : Nat
  bits : Nat
  secondMin : Nat
  secondMax : Nat
  deriving Repr, DecidableEq

/-- What the first octet says about the character, if it starts one. -/
def lead? (first : Nat) : Option Lead :=
  if first < 0x80 then some ⟨0, first, 0, 0⟩
  -- 0x80 to 0xBF continue a character; 0xC0 and 0xC1 would spell ASCII in two octets
  else if first < 0xC2 then none
  else if first < 0xE0 then some ⟨1, first - 0xC0, 0x80, 0xBF⟩
  -- 0xE0 and 0xF0 must not spell what fits in fewer octets, 0xED no surrogate, 0xF4 nothing above U+10FFFF
  else if first = 0xE0 then some ⟨2, 0, 0xA0, 0xBF⟩
  else if first = 0xED then some ⟨2, 13, 0x80, 0x9F⟩
  else if first < 0xF0 then some ⟨2, first - 0xE0, 0x80, 0xBF⟩
  else if first = 0xF0 then some ⟨3, 0, 0x90, 0xBF⟩
  else if first < 0xF4 then some ⟨3, first - 0xF0, 0x80, 0xBF⟩
  else if first = 0xF4 then some ⟨3, 4, 0x80, 0x8F⟩
  else none

/-- What stands at the front of a sequence: a character, or a piece that forms none, each with the
number of octets behind its first one. -/
inductive Front where
  | char (c : Char) (more : Nat)
  | fault (fault : Fault) (more : Nat)
  deriving Repr, DecidableEq

/-- Reads `left` continuation octets, the next of them between `low` and `high`, onto the bits read
so far; `used` octets behind the first one are read already. -/
def continue? (left bits low high used : Nat) : Octets → Front :=
  match left with
  | 0 => fun _ => .char (Char.ofNat bits) used
  | left + 1 => fun
    | [] => .fault .cutShort used
    | octet :: rest =>
      if low ≤ octet.toNat ∧ octet.toNat ≤ high then
        continue? left (bits * 0x40 + (octet.toNat - 0x80)) 0x80 0xBF (used + 1) rest
      else .fault .badContinuation used

/-- What stands at the front of a sequence that starts with `first`. -/
def step (first : UInt8) (rest : Octets) : Front :=
  match lead? first.toNat with
  | none => .fault .badStart 0
  | some lead => continue? lead.following lead.bits lead.secondMin lead.secondMax 0 rest

/-- The character that stands for octets that form none. -/
def replacement : Char := Char.ofNat 0xFFFD

/-- Reads a sequence with replacements; `pending` octets belong to a piece read before. -/
def decodeLossyFrom : Nat → Octets → Text
  | _, [] => []
  | pending + 1, _ :: rest => decodeLossyFrom pending rest
  | 0, octet :: rest =>
    match step octet rest with
    | .char c more => c :: decodeLossyFrom more rest
    | .fault _ more => replacement :: decodeLossyFrom more rest

/-- The text of a sequence, with the replacement character for every piece that forms none. -/
def decodeLossy (octets : Octets) : Text := decodeLossyFrom 0 octets

/-- A piece of a sequence that forms no character: its first octet, its place, and its length. -/
structure DecodeError where
  first : UInt8
  position : Nat
  length : Nat
  fault : Fault
  deriving Repr, DecidableEq

/-- The wording of each fault. -/
def Fault.message : Fault → String
  | .badStart => "invalid start byte"
  | .badContinuation => "invalid continuation byte"
  | .cutShort => "unexpected end of data"

/-- The wording of a decoding error: one octet is shown, several are located. -/
def DecodeError.message (e : DecodeError) : String :=
  let place :=
    if e.length = 1 then
      "byte 0x" ++ String.ofList (Text.hexDigits 2 e.first.toNat) ++ " in position " ++
        toString e.position
    else
      "bytes in position " ++ toString e.position ++ "-" ++ toString (e.position + e.length - 1)
  "'utf-8' codec can't decode " ++ place ++ ": " ++ e.fault.message

/-- Reads a sequence from `position` on; `pending` octets belong to a character read before. -/
def decodeFrom (position : Nat) : Nat → Octets → Except DecodeError Text
  | _, [] => .ok []
  | pending + 1, _ :: rest => decodeFrom (position + 1) pending rest
  | 0, octet :: rest =>
    match step octet rest with
    | .char c more => (decodeFrom (position + 1) more rest).map (c :: ·)
    | .fault fault more => .error ⟨octet, position, more + 1, fault⟩

/-- The text of a sequence, or its first piece that forms no character. -/
def decode (octets : Octets) : Except DecodeError Text := decodeFrom 0 0 octets

end Octets

end SnippetAudit
