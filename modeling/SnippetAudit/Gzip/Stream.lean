import SnippetAudit.Gzip.Checksum
import SnippetAudit.Gzip.Inflate

/-!
# Packed streams

A packed stream is a row of members. Each has a head with a mark at its front, packed data, and behind them the
checksum and the length of what the data hold. Octets of zero may follow the last member.

## What this module delivers

- `unpack`: the octets that a packed stream holds;
- `pack`: a stream that holds given octets, which are stored as they are.
-/

set_option autoImplicit false

namespace SnippetAudit.Gzip

/-- The mark at the front of a member. -/
def mark : Octets := [0x1F, 0x8B]

/-- Passes over octets up to the first zero. -/
def skipName : Nat → Unpacking Unit
  | 0 => return ()
  | fuel + 1 => do if (← alignedOctet) = 0 then return () else skipName fuel

/-- Passes over the head of a member behind its mark. -/
def skipHead : Unpacking Unit := do
  let method ← alignedNumber 1
  let flags ← alignedNumber 1
  -- the time, the extra flags and the operating system are not looked at
  let _ ← alignedNumber 6
  if method ≠ 8 then throw .unknownMethod
  let length := (← get).rest.length
  if flags / 4 % 2 = 1 then
    let extra ← alignedNumber 2
    let _ ← alignedNumber extra
  if flags / 8 % 2 = 1 then skipName length
  if flags / 16 % 2 = 1 then skipName length
  if flags / 2 % 2 = 1 then
    let _ ← alignedNumber 2

/-- Unpacks a member behind its mark. -/
def member : Unpacking Octets := do
  skipHead
  let out := (← inflate).toList
  let stated := UInt32.ofNat (← alignedNumber 4)
  let length ← alignedNumber 4
  if stated ≠ crc32 out then throw (.wrongChecksum stated (crc32 out))
  if length ≠ out.length % 0x100000000 then throw .wrongLength
  return out

/-- Unpacks members, less than `fuel` of them. -/
def members : Nat → Octets → Except StreamError Octets
  | 0, _ => .error .cutShort
  | _ + 1, [] => .ok []
  | fuel + 1, octets =>
    if mark.isPrefixOf octets then
      match member.run ⟨octets.drop mark.length, 0⟩ with
      | .error e => .error e
      | .ok (out, source) =>
        -- the rest of an octet in which bits were read belongs to no member
        let rest := if source.used = 0 then source.rest else source.rest.drop 1
        (members fuel (rest.dropWhile (· == 0))).map (out ++ ·)
    else .error (.notPacked (octets.take mark.length))

/-- The octets that a packed stream holds. -/
def unpack (octets : Octets) : Except StreamError Octets := members (octets.length + 1) octets

/-- A number as `count` octets, the lowest first. -/
def numberOctets : Nat → Nat → Octets
  | 0, _ => []
  | count + 1, n => UInt8.ofNat (n % 256) :: numberOctets count (n / 256)

/-- The most octets that a stored block holds. -/
def storedLimit : Nat := 0xFFFF

/-- A stored block. -/
def storeBlock (last : Bool) (octets : Octets) : Octets :=
  (if last then 1 else 0) :: numberOctets 2 octets.length ++
    numberOctets 2 (storedLimit - octets.length) ++ octets

/-- Octets in stored blocks, less than `fuel` of them. -/
def storeBlocks : Nat → Octets → Octets
  | 0, _ => []
  | fuel + 1, octets =>
    if octets.length ≤ storedLimit then storeBlock true octets
    else storeBlock false (octets.take storedLimit) ++ storeBlocks fuel (octets.drop storedLimit)

/-- A packed stream that holds the octets, which are stored as they are. -/
def pack (octets : Octets) : Octets :=
  mark ++ [8, 0, 0, 0, 0, 0, 0, 255] ++ storeBlocks (octets.length + 1) octets ++
    numberOctets 4 (crc32 octets).toNat ++ numberOctets 4 octets.length

end SnippetAudit.Gzip
