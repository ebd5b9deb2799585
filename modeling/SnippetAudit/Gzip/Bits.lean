import SnippetAudit.Text.Utf8

/-!
# Bits of a packed stream

A packed stream is read bit by bit, each octet from its lowest bit on. What is read may end too early or make
no sense.

## What this module delivers

- `StreamError`: why a packed stream cannot be unpacked, with its wording;
- `Source`, `Unpacking`: what is left of a stream, and a reading of it;
- `bit`, `bits`, `alignedOctet`: the readings of one bit, of a number and of a whole octet.
-/

set_option autoImplicit false

namespace SnippetAudit.Gzip

/-- Why a stream cannot be unpacked. -/
inductive StreamError where
  /-- A stream does not start as a packed one does. -/
  | notPacked (start : Octets)
  | unknownMethod
  | cutShort
  /-- The packed data make no sense. -/
  | badData (reason : String)
  | wrongChecksum (stated computed : UInt32)
  | wrongLength
  deriving Repr, DecidableEq

/-- One octet as messages show it: as a character where it is a printable one. -/
def octetText (mark : Char) (octet : UInt8) : Text :=
  if octet < 0x80 then Text.escapeChar mark (Char.ofNat octet.toNat)
  else '\\' :: 'x' :: Text.hexDigits 2 octet.toNat

/-- Octets as messages show them. -/
def octetsText (octets : Octets) : String :=
  let mark := Text.quoteMark (octets.map fun octet => Char.ofNat octet.toNat)
  "b" ++ String.ofList (mark :: octets.flatMap (octetText mark) ++ [mark])

/-- A number as messages show it. -/
def hexText (n : UInt32) : String := "0x" ++ String.ofList (Text.hexDigits 1 n.toNat)

/-- The wording of the errors. -/
def StreamError.message : StreamError → String
  | .notPacked start => "Not a gzipped file (" ++ octetsText start ++ ")"
  | .unknownMethod => "Unknown compression method"
  | .cutShort => "Compressed file ended before the end-of-stream marker was reached"
  | .badData reason => "Error -3 while decompressing data: " ++ reason
  | .wrongChecksum stated computed =>
    "CRC check failed " ++ hexText stated ++ " != " ++ hexText computed
  | .wrongLength => "Incorrect length of data produced"

/-- What is left of a stream: octets, of the first of which some bits are read already. -/
structure Source where
  rest : Octets
  used : Nat := 0
  deriving Repr, DecidableEq

/-- A reading of a stream. -/
abbrev Unpacking (α : Type) := StateT Source (Except StreamError) α

/-- The next bit. -/
def bit : Unpacking Nat := fun source =>
  match source.rest with
  | [] => .error .cutShort
  | octet :: rest =>
    .ok (octet.toNat / Nat.pow 2 source.used % 2,
      if source.used = 7 then ⟨rest, 0⟩ else ⟨octet :: rest, source.used + 1⟩)

/-- The number that the next `count` bits spell, the lowest first. -/
def bits : Nat → Unpacking Nat
  | 0 => return 0
  | count + 1 => do
    let low ← bit
    return low + 2 * (← bits count)

/-- The next whole octet; bits left of one that was begun are passed over. -/
def alignedOctet : Unpacking UInt8 := fun source =>
  match if source.used = 0 then source.rest else source.rest.drop 1 with
  | [] => .error .cutShort
  | octet :: rest => .ok (octet, ⟨rest, 0⟩)

/-- The number that the next `count` whole octets spell, the lowest first. -/
def alignedNumber : Nat → Unpacking Nat
  | 0 => return 0
  | count + 1 => do
    let low ← alignedOctet
    return low.toNat + 256 * (← alignedNumber count)

end SnippetAudit.Gzip
