import SnippetAudit.Text.Utf8

/-!
# Checksums

The checksum of octets is the remainder of the polynomial that their bits spell, each octet's lowest bit
first, by a fixed polynomial of degree 32. The remainder starts with all bits set and ends complemented.

## What this module delivers

- `crc32`: the checksum of octets.
-/

set_option autoImplicit false

namespace SnippetAudit.Gzip

/-- One bit is shifted out; where it is set, the polynomial is taken off. -/
def crcStep (crc : UInt32) : UInt32 :=
  if crc &&& 1 = 1 then (crc >>> 1) ^^^ 0xEDB88320 else crc >>> 1

/-- The remainder behind one more octet. -/
def crcOctet (crc : UInt32) (octet : UInt8) : UInt32 :=
  crcStep <| crcStep <| crcStep <| crcStep <| crcStep <| crcStep <| crcStep <| crcStep <|
    crc ^^^ octet.toUInt32

/-- The checksum of octets. -/
def crc32 (octets : Octets) : UInt32 := octets.foldl crcOctet 0xFFFFFFFF ^^^ 0xFFFFFFFF

end SnippetAudit.Gzip
