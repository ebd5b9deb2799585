import SnippetAudit.Text.Digit
import SnippetAudit.Text.Utf8

/-!
# Percent signs

In the references of documents, a percent sign with two hexadecimal digits behind it stands for an octet, and
octets in a row stand for the characters that they encode.

## What this module delivers

- `unquoteOctets`, `unquote`: the text that such a text stands for.
-/

set_option autoImplicit false

namespace SnippetAudit.Text

/-- The octets of a text, with one octet for each percent sign that has two hexadecimal digits behind it. -/
def unquoteOctets : Text → Octets
  | '%' :: high :: low :: rest =>
    match radixDigit? 16 high, radixDigit? 16 low with
    | some m, some n => UInt8.ofNat (16 * m + n) :: unquoteOctets rest
    | _, _ => encodeChar '%' ++ unquoteOctets (high :: low :: rest)
  | c :: rest => encodeChar c ++ unquoteOctets rest
  | [] => []

/-- The text that a text with percent signs stands for; octets that encode nothing are replaced. -/
def unquote (t : Text) : Text := if t.contains '%' then Octets.decodeLossy (unquoteOctets t) else t

example : unquote "a%20b%2Fc%".toList = "a b/c%".toList := by decide +kernel

end SnippetAudit.Text
