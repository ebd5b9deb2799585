import Mathlib.Tactic.SplitIfs
import SnippetAudit.Text.Utf8

/-!
# Reading back what was encoded

The first octet of a character tells how many octets follow, and each of these lies in the bounds that the first
one sets; put together again, the bits are the number of the character. So the octets of a text are read as the
text, whatever stands behind a character.

## What this module delivers

- `step_encodeChar`: the octets of a character are read as the character;
- `decodeLossy_encode`: the octets of a text are read as the text;
- `encode_append`: a text is encoded piece by piece.
-/

set_option autoImplicit false

namespace SnippetAudit

namespace Octets

/-- A following octet in its bounds adds its six bits. -/
theorem continue?_succ {low high octet : Nat} (hlow : low ≤ octet) (hhigh : octet ≤ high) (hsmall : octet < 0x100)
    (left bits used : Nat) (rest : Octets) :
    continue? (left + 1) bits low high used (UInt8.ofNat octet :: rest) =
      continue? left (bits * 0x40 + (octet - 0x80)) 0x80 0xBF (used + 1) rest := by
  have hvalue : (UInt8.ofNat octet).toNat = octet := UInt8.toNat_ofNat_of_lt' hsmall
  rw [continue?]
  dsimp only
  rw [hvalue, if_pos ⟨hlow, hhigh⟩]

/-- A following octet of a character with nothing special about its first octet. -/
theorem continue?_tail {bits part : Nat} (hpart : part < 0x40) (left used : Nat) (rest : Octets) :
    continue? (left + 1) bits 0x80 0xBF used (UInt8.ofNat (0x80 + part) :: rest) =
      continue? left (bits * 0x40 + part) 0x80 0xBF (used + 1) rest := by
  rw [continue?_succ (by omega) (by omega) (by omega), Nat.add_sub_cancel_left]

theorem step_eq {first : Nat} (hsmall : first < 0x100) {lead : Lead} (hlead : lead? first = some lead)
    (rest : Octets) : step (UInt8.ofNat first) rest =
      continue? lead.following lead.bits lead.secondMin lead.secondMax 0 rest := by
  have hvalue : (UInt8.ofNat first).toNat = first := UInt8.toNat_ofNat_of_lt' hsmall
  rw [step, hvalue, hlead]

end Octets

namespace Text

open Octets

/-- A character has no number between those of the surrogates. -/
theorem toNat_valid (c : Char) : c.toNat < 0xD800 ∨ 0xDFFF < c.toNat ∧ c.toNat < 0x110000 := c.valid

/-- What the first of two octets says. -/
theorem lead?_two {n : Nat} (hlow : 0x80 ≤ n) (hhigh : n < 0x800) :
    lead? (0xC0 + n / 0x40) = some ⟨1, n / 0x40, 0x80, 0xBF⟩ := by
  rw [lead?, if_neg (by omega), if_neg (by omega), if_pos (by omega), Nat.add_sub_cancel_left]

/-- What the first of three octets says: the second one is in its bounds, as the character is no surrogate and
does not fit into two octets. -/
theorem lead?_three {n : Nat} (hlow : 0x800 ≤ n) (hhigh : n < 0x10000) (hvalid : n < 0xD800 ∨ 0xDFFF < n) :
    ∃ low high, lead? (0xE0 + n / 0x1000) = some ⟨2, n / 0x1000, low, high⟩ ∧
      low ≤ 0x80 + n / 0x40 % 0x40 ∧ 0x80 + n / 0x40 % 0x40 ≤ high := by
  rw [lead?, if_neg (by omega), if_neg (by omega), if_neg (by omega)]
  by_cases hfirst : n / 0x1000 = 0
  · exact ⟨0xA0, 0xBF, by rw [hfirst]; rfl, by omega, by omega⟩
  by_cases hlast : n / 0x1000 = 13
  · exact ⟨0x80, 0x9F, by rw [hlast]; rfl, by omega, by omega⟩
  · refine ⟨0x80, 0xBF, ?_, by omega, by omega⟩
    rw [if_neg (by omega), if_neg (by omega), if_pos (by omega), Nat.add_sub_cancel_left]

/-- What the first of four octets says. -/
theorem lead?_four {n : Nat} (hlow : 0x10000 ≤ n) (hhigh : n < 0x110000) :
    ∃ low high, lead? (0xF0 + n / 0x40000) = some ⟨3, n / 0x40000, low, high⟩ ∧
      low ≤ 0x80 + n / 0x1000 % 0x40 ∧ 0x80 + n / 0x1000 % 0x40 ≤ high := by
  rw [lead?, if_neg (by omega), if_neg (by omega), if_neg (by omega), if_neg (by omega), if_neg (by omega),
    if_neg (by omega)]
  by_cases hfirst : n / 0x40000 = 0
  · exact ⟨0x90, 0xBF, by rw [hfirst]; rfl, by omega, by omega⟩
  by_cases hlast : n / 0x40000 = 4
  · exact ⟨0x80, 0x8F, by rw [hlast]; rfl, by omega, by omega⟩
  · refine ⟨0x80, 0xBF, ?_, by omega, by omega⟩
    rw [if_neg (by omega), if_pos (by omega), Nat.add_sub_cancel_left]

/-- The octets of a character are read as the character, whatever stands behind them. -/
theorem step_encodeChar (c : Char) : ∃ first rest, encodeChar c = first :: rest ∧
    ∀ behind : Octets, step first (rest ++ behind) = .char c rest.length := by
  have hvalid := toNat_valid c
  have hchar : Char.ofNat c.toNat = c := Char.ofNat_toNat c
  rw [encodeChar]
  generalize c.toNat = n at hvalid hchar ⊢
  -- by the number of octets; the bits of the parts are those of the number
  split_ifs with hone htwo hthree
  · refine ⟨_, _, rfl, fun behind => ?_⟩
    rw [step_eq (by omega) (if_pos hone)]
    exact congrArg (Front.char · 0) hchar
  · refine ⟨_, _, rfl, fun behind => ?_⟩
    have hbits : n / 0x40 * 0x40 + n % 0x40 = n := by omega
    rw [step_eq (by omega) (lead?_two (by omega) htwo), List.cons_append, continue?_tail (by omega), hbits]
    exact congrArg (Front.char · 1) hchar
  · obtain ⟨low, high, hlead, hlow, hhigh⟩ := lead?_three (Nat.le_of_not_lt htwo) hthree (by omega)
    refine ⟨_, _, rfl, fun behind => ?_⟩
    have hbits : (n / 0x1000 * 0x40 + n / 0x40 % 0x40) * 0x40 + n % 0x40 = n := by omega
    rw [step_eq (by omega) hlead, List.cons_append, continue?_succ hlow hhigh (by omega), Nat.add_sub_cancel_left,
      List.cons_append, continue?_tail (by omega), hbits]
    exact congrArg (Front.char · 2) hchar
  · obtain ⟨low, high, hlead, hlow, hhigh⟩ := lead?_four (Nat.le_of_not_lt hthree) (by omega)
    refine ⟨_, _, rfl, fun behind => ?_⟩
    have hbits : ((n / 0x40000 * 0x40 + n / 0x1000 % 0x40) * 0x40 + n / 0x40 % 0x40) * 0x40 + n % 0x40 = n := by
      omega
    rw [step_eq (by omega) hlead, List.cons_append, continue?_succ hlow hhigh (by omega), Nat.add_sub_cancel_left,
      List.cons_append, continue?_tail (by omega), List.cons_append, continue?_tail (by omega), hbits]
    exact congrArg (Front.char · 3) hchar

/-- Octets that belong to a character are passed over. -/
theorem decodeLossyFrom_append (octets behind : Octets) :
    decodeLossyFrom octets.length (octets ++ behind) = decodeLossyFrom 0 behind := by
  induction octets with
  | nil => rfl
  | cons octet rest ih => exact ih

/-- The octets of a text are read as the text. -/
theorem decodeLossy_encode (t : Text) : (encode t).decodeLossy = t := by
  induction t with
  | nil => rfl
  | cons c rest ih =>
    obtain ⟨first, more, hencode, hstep⟩ := step_encodeChar c
    have hread : decodeLossyFrom 0 (first :: (more ++ encode rest)) = c :: decodeLossyFrom 0 (encode rest) := by
      rw [decodeLossyFrom, hstep]
      exact congrArg (c :: ·) (decodeLossyFrom_append more (encode rest))
    rw [decodeLossy, encode, List.flatMap_cons, hencode, List.cons_append]
    exact hread.trans (congrArg (c :: ·) ih)

/-- A text is encoded piece by piece. -/
@[simp] theorem encode_append (s t : Text) : encode (s ++ t) = encode s ++ encode t :=
  List.flatMap_append

end Text

end SnippetAudit
