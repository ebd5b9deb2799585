import SnippetAudit.Gzip.Bits

/-!
# Unpacking

Packed data are blocks. A stored block holds its octets as they are; a coded block spells them in a code of
symbols of different length, in which a symbol is an octet, the end of the block, or a piece that is repeated
from what was unpacked before. The code of a block is the fixed one, or stands in front of the block.

## What this module delivers

- `Code`, `Code.ofLengths?`, `Code.symbol`: codes given by the lengths of their symbols;
- `inflate`: the octets that packed data hold.
-/

set_option autoImplicit false

namespace SnippetAudit.Gzip

/-! ## Codes -/

/-- A code in which the symbols of one length follow each other: how many symbols there are of each length,
from length 1 on, and the symbols by length. -/
structure Code where
  counts : List Nat
  symbols : Array Nat
  deriving Repr

/-- The longest symbol of a code. -/
def longestSymbol : Nat := 15

/-- How many words of a length are free behind `counts` of shorter symbols, of `free` at first; there is none
if there are too many symbols. -/
def freeWords : Nat → List Nat → Option Nat
  | free, [] => some free
  | free, count :: rest => if 2 * free < count then none else freeWords (2 * free - count) rest

/-- The code in which the symbol of each number has the given length; a symbol of length 0 is not used. A code
may leave words free only where it may be `sparse` and no symbol is longer than one bit. -/
def Code.ofLengths? (sparse : Bool) (lengths : List Nat) : Option Code :=
  let sizes := (List.range longestSymbol).map (· + 1)
  let counts := sizes.map fun size => lengths.count size
  let symbols := sizes.flatMap fun size =>
    (lengths.zipIdx.filter fun (length, _) => length == size).map Prod.snd
  let short := lengths.all fun length => length ≤ 1
  match freeWords 1 counts with
  -- a complete code leaves no words free; a single symbol may stand alone
  | some free => if free = 0 ∨ (sparse ∧ short) then some ⟨counts, symbols.toArray⟩ else none
  | none => none

/-- Reads a symbol bit by bit: `word` is what was read, `first` the first word of the length and `index` the
number of shorter symbols. -/
def Code.symbolFrom (code : Code) (reason : String) (word first index : Nat) : List Nat → Unpacking Nat
  | [] => throw (.badData reason)
  | count :: rest => do
    let word := word + (← bit)
    if word < first + count then
      match code.symbols[index + (word - first)]? with
      | some symbol => return symbol
      | none => throw (.badData reason)
    else code.symbolFrom reason (2 * word) (2 * (first + count)) (index + count) rest

/-- The next symbol of a code. -/
def Code.symbol (code : Code) (reason : String) : Unpacking Nat :=
  code.symbolFrom reason 0 0 0 code.counts

/-! ## Repeated pieces -/

/-- The shortest piece of each length symbol, with the number of bits that lengthen it. -/
def lengthBases : List (Nat × Nat) :=
  [(3, 0), (4, 0), (5, 0), (6, 0), (7, 0), (8, 0), (9, 0), (10, 0), (11, 1), (13, 1), (15, 1), (17, 1),
    (19, 2), (23, 2), (27, 2), (31, 2), (35, 3), (43, 3), (51, 3), (59, 3), (67, 4), (83, 4), (99, 4),
    (115, 4), (131, 5), (163, 5), (195, 5), (227, 5), (258, 0)]

/-- The least distance of each distance symbol, with the number of bits that enlarge it. -/
def distanceBases : List (Nat × Nat) :=
  [(1, 0), (2, 0), (3, 0), (4, 0), (5, 1), (7, 1), (9, 2), (13, 2), (17, 3), (25, 3), (33, 4), (49, 4),
    (65, 5), (97, 5), (129, 6), (193, 6), (257, 7), (385, 7), (513, 8), (769, 8), (1025, 9), (1537, 9),
    (2049, 10), (3073, 10), (4097, 11), (6145, 11), (8193, 12), (12289, 12), (16385, 13), (24577, 13)]

/-- The number of a symbol: its base and what its further bits add. -/
def extended (reason : String) (bases : List (Nat × Nat)) (symbol : Nat) : Unpacking Nat := do
  match bases[symbol]? with
  | some (base, extra) => return base + (← bits extra)
  | none => throw (.badData reason)

/-- Repeats `count` octets that lie `distance` back. -/
def repeatPiece (distance : Nat) : Nat → Array UInt8 → Option (Array UInt8)
  | 0, out => some out
  | count + 1, out =>
    -- a piece may reach into itself, so it is copied octet by octet
    if distance = 0 ∨ out.size < distance then none
    else match out[out.size - distance]? with
      | some octet => repeatPiece distance count (out.push octet)
      | none => none

/-! ## Blocks -/

/-- The symbol that ends a block. -/
def endSymbol : Nat := 256

/-- Unpacks a coded block of less than `fuel` symbols. -/
def codedBlock (literals distances : Code) : Nat → Array UInt8 → Unpacking (Array UInt8)
  | 0, _ => throw .cutShort
  | fuel + 1, out => do
    let symbol ← literals.symbol "invalid literal/length code"
    if symbol < endSymbol then codedBlock literals distances fuel (out.push (UInt8.ofNat symbol))
    else if symbol = endSymbol then return out
    else
      let length ← extended "invalid literal/length code" lengthBases (symbol - endSymbol - 1)
      let distance ←
        extended "invalid distance code" distanceBases (← distances.symbol "invalid distance code")
      match repeatPiece distance length out with
      | some out => codedBlock literals distances fuel out
      | none => throw (.badData "invalid distance too far back")

/-- Unpacks `count` octets that stand as they are. -/
def storedOctets : Nat → Array UInt8 → Unpacking (Array UInt8)
  | 0, out => return out
  | count + 1, out => do storedOctets count (out.push (← alignedOctet))

/-- Unpacks a stored block: its length, the complement of its length, and its octets. -/
def storedBlock (out : Array UInt8) : Unpacking (Array UInt8) := do
  let length ← alignedNumber 2
  let complement ← alignedNumber 2
  if length + complement = 0xFFFF then storedOctets length out
  else throw (.badData "invalid stored block lengths")

/-- The lengths of the fixed code's literals. -/
def fixedLiterals : List Nat :=
  List.replicate 144 8 ++ List.replicate 112 9 ++ List.replicate 24 7 ++ List.replicate 8 8

/-- The lengths of the fixed code's distances. -/
def fixedDistances : List Nat := List.replicate 32 5

/-- A code, or the data make no sense. -/
def codeOf (reason : String) (sparse : Bool) (lengths : List Nat) : Unpacking Code :=
  match Code.ofLengths? sparse lengths with
  | some code => return code
  | none => throw (.badData reason)

/-- The order in which the lengths of the lengths' own code are given. -/
def lengthOrder : List Nat := [16, 17, 18, 0, 8, 7, 9, 6, 10, 5, 11, 4, 12, 3, 13, 2, 14, 1, 15]

/-- The lengths of the symbols of a block's code, `total` in all, of which `lengths` are read, the last one
first; each of less than `fuel` steps reads at least one. -/
def symbolLengths (code : Code) (total : Nat) : Nat → List Nat → Unpacking (List Nat)
  | 0, lengths => return lengths.reverse
  | fuel + 1, lengths => do
    if total ≤ lengths.length then return lengths.reverse
    let symbol ← code.symbol "invalid code lengths set"
    if symbol < 16 then symbolLengths code total fuel (symbol :: lengths)
    else
      -- 16 repeats the length before it, 17 and 18 repeat zero
      let (length?, count) ← match symbol with
        | 16 => do pure (lengths.head?, 3 + (← bits 2))
        | 17 => do pure (some 0, 3 + (← bits 3))
        | _ => do pure (some 0, 11 + (← bits 7))
      match length? with
      | some length =>
        if total < lengths.length + count then throw (.badData "invalid bit length repeat")
        else symbolLengths code total fuel (List.replicate count length ++ lengths)
      | none => throw (.badData "invalid bit length repeat")

/-- Reads the codes in front of a block: that of the literals and that of the distances. -/
def blockCodes : Unpacking (Code × Code) := do
  let literalCount := 257 + (← bits 5)
  let distanceCount := 1 + (← bits 5)
  let lengthCount := 4 + (← bits 4)
  if 286 < literalCount ∨ 30 < distanceCount then
    throw (.badData "too many length or distance symbols")
  let given ← (lengthOrder.take lengthCount).mapM fun symbol => do return (symbol, ← bits 3)
  let lengthsCode ← codeOf "invalid code lengths set" false
    ((List.range lengthOrder.length).map fun symbol => (given.lookup symbol).getD 0)
  let total := literalCount + distanceCount
  let lengths ← symbolLengths lengthsCode total (total + 1) []
  let (literals, distances) := lengths.splitAt literalCount
  if literals[endSymbol]?.getD 0 = 0 then throw (.badData "invalid code -- missing end-of-block")
  let literalCode ← codeOf "invalid literal/lengths set" true literals
  return (literalCode, ← codeOf "invalid distances set" true distances)

/-- Unpacks a block, and tells whether it is the last one; a coded block has less than `fuel` symbols. -/
def block (fuel : Nat) (out : Array UInt8) : Unpacking (Bool × Array UInt8) := do
  let last := (← bit) = 1
  let out ← match ← bits 2 with
    | 0 => storedBlock out
    | 1 => do
      codedBlock (← codeOf "" true fixedLiterals) (← codeOf "" true fixedDistances) fuel out
    | 2 => do
      let (literals, distances) ← blockCodes
      codedBlock literals distances fuel out
    | _ => throw (.badData "invalid block type")
  return (last, out)

/-- Unpacks blocks up to the last one, less than `fuel` of them. -/
def blocks (symbolFuel : Nat) : Nat → Array UInt8 → Unpacking (Array UInt8)
  | 0, _ => throw .cutShort
  | fuel + 1, out => do
    let (last, out) ← block symbolFuel out
    if last then return out else blocks symbolFuel fuel out

/-- Unpacks data. Every symbol and every block takes up a bit, so there are no more of them than bits. -/
def inflate : Unpacking (Array UInt8) := fun source =>
  let fuel := 8 * source.rest.length + 1
  blocks fuel fuel #[] source

end SnippetAudit.Gzip
