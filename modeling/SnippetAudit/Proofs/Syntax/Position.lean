import Mathlib.Data.List.DropRight
import SnippetAudit.Proofs.Text.Lines
import SnippetAudit.Proofs.Text.Utf8
import SnippetAudit.Syntax.Node

/-!
# Places of characters

The place of an octet is found from the octets in front of it: the line feeds among them are counted, and the octets
behind the last one are read as characters. The octet of a line feed belongs to no other character. So where a
character starts, the place is the line and the column of the character in the text. The places of characters come in
the order of the text: either a line feed lies between two characters, or the later one stands further to the right on
the same line. So no two characters have one place.

A parser tells a place in octets, by the line and the number of octets in front of it there. Cut out of the source,
these octets are the characters that the column counts.

## What this module delivers

- `count_encode`, `lastLine_encode`: line feeds and the last line of an encoded text;
- `positionAt_encode`: the place where a character starts;
- `Position.NotBehind`: the order of places, by line and then by column;
- `StartsCharacter`, `notBehind_of_le`: places where characters start come in the order of the octets;
- `Point`, `positionAt_eq_position`: the place of an octet from its line and its column in octets;
- `position_determines_index`: the place of a character is its line and its column, and no other character has it.
-/

set_option autoImplicit false

namespace SnippetAudit.Syntax

open Text

/-! ## Line feeds -/

theorem encodeChar_lineFeed : encodeChar '\n' = [10] := by
  decide

/-- No character but the line feed has its octet. -/
theorem not_mem_encodeChar {c : Char} (h : c ≠ '\n') : 10 ∉ encodeChar c := by
  have hne : c.toNat ≠ 10 := fun heq => h (Char.toNat_inj.1 heq)
  have hoctet {n : Nat} (hn : n < 256) (hne : n ≠ 10) : (10 : UInt8) ≠ UInt8.ofNat n := by
    intro heq
    have hvalue := congrArg UInt8.toNat heq
    rw [UInt8.toNat_ofNat_of_lt' hn] at hvalue
    exact hne hvalue.symm
  have hvalid := toNat_valid c
  rw [encodeChar]
  split_ifs with hone htwo hthree <;> simp only [List.mem_cons, List.not_mem_nil, or_false, not_or]
  · exact hoctet (by omega) hne
  · exact ⟨hoctet (by omega) (by omega), hoctet (by omega) (by omega)⟩
  · exact ⟨hoctet (by omega) (by omega), hoctet (by omega) (by omega), hoctet (by omega) (by omega)⟩
  · exact ⟨hoctet (by omega) (by omega), hoctet (by omega) (by omega), hoctet (by omega) (by omega),
      hoctet (by omega) (by omega)⟩

theorem encodeChar_ne_nil (c : Char) : encodeChar c ≠ [] := by
  obtain ⟨first, rest, h, -⟩ := step_encodeChar c
  rw [h]
  exact List.cons_ne_nil first rest

/-- The line feeds of a text are those of its octets. -/
theorem count_encode (t : Text) : (encode t).count 10 = t.count '\n' := by
  induction t with
  | nil => rfl
  | cons c rest ih =>
    rw [encode, List.flatMap_cons, List.count_append, ← encode, ih, List.count_cons]
    by_cases hc : c = '\n'
    · subst hc
      rw [encodeChar_lineFeed]
      simp [Nat.add_comm]
    · rw [List.count_eq_zero_of_not_mem (not_mem_encodeChar hc)]
      simp [hc]

theorem not_mem_encode {t : Text} (h : '\n' ∉ t) : 10 ∉ encode t := by
  rw [← List.count_eq_zero, count_encode]
  exact List.count_eq_zero_of_not_mem h

theorem getLast?_encode_lineFeed (t : Text) : (encode (t ++ ['\n'])).getLast? = some 10 := by
  rw [encode_append, List.getLast?_append]
  rfl

/-- The last line of the octets of a text has the octets of its last line. -/
theorem lastLine_encode {before last : Text} (hbefore : LineStart before) (hlast : '\n' ∉ last) :
    lastLine (encode (before ++ last)) = encode last := by
  have hstop : ∀ octet ∈ (encode last).reverse, (octet != 10) = true := by
    intro octet hoctet
    rw [bne_iff_ne]
    rintro rfl
    exact not_mem_encode hlast (List.mem_reverse.1 hoctet)
  rw [lastLine, encode_append, List.reverse_append, List.takeWhile_append_of_pos hstop]
  rcases hbefore.eq_nil_or with rfl | ⟨front, rfl⟩
  · simp [encode]
  · obtain ⟨octets, hoctets⟩ := List.getLast?_eq_some_iff.1 (getLast?_encode_lineFeed front)
    simp [hoctets]

/-- The place where a character starts: the line feeds in front of it and the characters in front of it on its line
are counted, each from one. -/
theorem positionAt_encode {before last : Text} (hbefore : LineStart before) (hlast : '\n' ∉ last) (behind : Text) :
    positionAt (encode (before ++ last ++ behind)) (encode (before ++ last)).length =
      ⟨before.count '\n' + 1, last.length + 1⟩ := by
  rw [positionAt, encode_append (before ++ last) behind, List.take_left, count_encode,
    lastLine_encode hbefore hlast, decodeLossy_encode, List.count_append, List.count_eq_zero_of_not_mem hlast,
    Nat.add_zero]

/-! ## The order of places -/

/-- The place is on an earlier line, or on the same line and not further to the right. -/
def Position.NotBehind (p q : Position) : Prop := p.line < q.line ∨ p.line = q.line ∧ p.column ≤ q.column

instance (p q : Position) : Decidable (p.NotBehind q) := inferInstanceAs (Decidable (_ ∨ _))

theorem Position.NotBehind.refl (p : Position) : p.NotBehind p := Or.inr ⟨rfl, Nat.le_refl _⟩

/-- A character of the text starts at the octet, or the text ends there. -/
def StartsCharacter (t : Text) (offset : Nat) : Prop :=
  ∃ before behind, t = before ++ behind ∧ offset = (encode before).length

theorem length_le_length_encode (t : Text) : t.length ≤ (encode t).length := by
  induction t with
  | nil => exact Nat.le_refl _
  | cons c rest ih =>
    have hpos := List.length_pos_iff.2 (encodeChar_ne_nil c)
    rw [encode, List.flatMap_cons, ← encode, List.length_append, List.length_cons]
    omega

/-- Behind more characters no place is further in front. -/
theorem notBehind_append (front more behind : Text) :
    (positionAt (encode (front ++ more ++ behind)) (encode front).length).NotBehind
      (positionAt (encode (front ++ more ++ behind)) (encode (front ++ more)).length) := by
  obtain ⟨before, last, rfl, hbefore, hlast⟩ := exists_lastLine front
  have hfirst := positionAt_encode hbefore hlast (more ++ behind)
  rw [← List.append_assoc] at hfirst
  rw [hfirst]
  by_cases hmore : '\n' ∈ more
  · -- a line feed lies in between
    obtain ⟨before', last', hsplit, hbefore', hlast'⟩ := exists_lastLine (before ++ last ++ more)
    have hcount := congrArg (List.count '\n') hsplit
    have hpos := List.count_pos_iff.2 hmore
    rw [hsplit, positionAt_encode hbefore' hlast']
    simp only [List.count_append, List.count_eq_zero_of_not_mem hlast, List.count_eq_zero_of_not_mem hlast'] at hcount
    exact Or.inl (Nat.succ_lt_succ (by omega))
  · have hline : '\n' ∉ last ++ more := by
      rw [List.mem_append, not_or]
      exact ⟨hlast, hmore⟩
    rw [List.append_assoc before, positionAt_encode hbefore hline]
    refine Or.inr ⟨rfl, Nat.succ_le_succ ?_⟩
    rw [List.length_append]
    exact Nat.le_add_right _ _

/-- Places where characters start come in the order of the octets. -/
theorem notBehind_of_le {t : Text} {offset later : Nat} (hoffset : StartsCharacter t offset)
    (hlater : StartsCharacter t later) (hle : offset ≤ later) :
    (positionAt (encode t) offset).NotBehind (positionAt (encode t) later) := by
  obtain ⟨front, behind, rfl, rfl⟩ := hoffset
  obtain ⟨front', behind', hsplit, rfl⟩ := hlater
  have hfront : front <+: front' ∨ front' <+: front :=
    List.prefix_or_prefix_of_prefix (List.prefix_append front behind) ⟨behind', hsplit.symm⟩
  rcases hfront with ⟨more, rfl⟩ | ⟨more, rfl⟩
  · rw [hsplit]
    exact notBehind_append front more behind'
  · -- no octet lies in between, so no character does
    have hnone : more = [] := by
      have hlength := length_le_length_encode more
      rw [encode_append, List.length_append] at hle
      exact List.eq_nil_of_length_eq_zero (by omega)
    rw [hnone, List.append_nil]
    exact .refl _

/-! ## Points -/

/-- The octet at which the line of an octet starts: the one behind the last line feed in front of it. -/
def lineStart (source : Octets) (offset : Nat) : Nat :=
  (source.take offset).length - (lastLine (source.take offset)).length

/-- A place as a parser tells it: the line feeds in front of it, and the octets in front of it on its line. -/
structure Point where
  row : Nat
  column : Nat
  deriving Repr, DecidableEq

/-- The point of an octet. -/
def pointAt (source : Octets) (offset : Nat) : Point :=
  ⟨(source.take offset).count 10, offset - lineStart source offset⟩

/-- The place of an octet with a given point: the octets in front of it on its line are cut out of the source and
read as characters. -/
def Point.position (p : Point) (source : Octets) (offset : Nat) : Position :=
  ⟨p.row + 1, (Octets.decodeLossy ((source.take offset).drop (offset - p.column))).length + 1⟩

theorem lineStart_le (source : Octets) (offset : Nat) : lineStart source offset ≤ offset :=
  Nat.le_trans (Nat.sub_le _ _) (List.length_take_le offset source)

theorem lastLine_suffix (octets : Octets) : lastLine octets <:+ octets := by
  rw [lastLine, ← List.reverse_prefix, List.reverse_reverse]
  exact List.takeWhile_prefix _

/-- The place of an octet is found from its point, also behind the end of the source. -/
theorem positionAt_eq_position (source : Octets) (offset : Nat) :
    positionAt source offset = (pointAt source offset).position source offset := by
  have hcut : (source.take offset).drop (lineStart source offset) = lastLine (source.take offset) :=
    (List.suffix_iff_eq_drop.1 (lastLine_suffix _)).symm
  rw [Point.position, pointAt, Nat.sub_sub_self (lineStart_le source offset), hcut, positionAt]

theorem take_encode (t : Text) (k : Nat) :
    (encode t).take (encode (t.take k)).length = encode (t.take k) := by
  have hsplit := encode_append (t.take k) (t.drop k)
  rw [List.take_append_drop] at hsplit
  rw [hsplit, List.take_left]

/-- The point of a character counts the octets in front of it. -/
theorem pointAt_take (t : Text) (k : Nat) : pointAt (encode t) (encode (t.take k)).length =
    ⟨(encode (t.take k)).count 10, (lastLine (encode (t.take k))).length⟩ := by
  rw [pointAt, lineStart, take_encode, Nat.sub_sub_self (lastLine_suffix _).length_le]

/-! ## Characters by their places -/

theorem rtakeWhile_append {s more : Text} (h : '\n' ∉ more) :
    (s ++ more).rtakeWhile (· != '\n') = s.rtakeWhile (· != '\n') ++ more := by
  have hmore : ∀ c ∈ more.reverse, (c != '\n') = true := by
    intro c hc
    rw [bne_iff_ne]
    rintro rfl
    exact h (List.mem_reverse.1 hc)
  rw [List.rtakeWhile, List.reverse_append, List.takeWhile_append_of_pos hmore, List.reverse_append,
    List.reverse_reverse, ← List.rtakeWhile]

theorem rtakeWhile_of_lineStart {before last : Text} (hbefore : LineStart before) (hlast : '\n' ∉ last) :
    (before ++ last).rtakeWhile (· != '\n') = last := by
  rw [rtakeWhile_append hlast]
  rcases hbefore.eq_nil_or with rfl | ⟨front, rfl⟩
  · rfl
  · rw [List.rtakeWhile_concat_neg _ _ _ (by decide), List.nil_append]

/-- The place of the character behind the first `k` ones, or of the end of the text. -/
theorem positionAt_take (t : Text) (k : Nat) :
    positionAt (encode t) (encode (t.take k)).length =
      ⟨(t.take k).count '\n' + 1, ((t.take k).rtakeWhile (· != '\n')).length + 1⟩ := by
  obtain ⟨before, last, hsplit, hbefore, hlast⟩ := exists_lastLine (t.take k)
  have hplace := positionAt_encode hbefore hlast (t.drop k)
  rw [← hsplit, List.take_append_drop] at hplace
  rw [hplace, hsplit, rtakeWhile_of_lineStart hbefore hlast, List.count_append, List.count_eq_zero_of_not_mem hlast,
    Nat.add_zero]

/-- Between two characters with one place there is no line feed, and then no character. -/
theorem eq_of_positionAt_eq {t : Text} {k l : Nat} (hle : k ≤ l) (hl : l ≤ t.length)
    (h : positionAt (encode t) (encode (t.take k)).length = positionAt (encode t) (encode (t.take l)).length) :
    k = l := by
  have hsplit : t.take l = t.take k ++ (t.take l).drop k := by
    conv => lhs; rw [← List.take_append_drop k (t.take l), List.take_take, Nat.min_eq_left hle]
  rw [positionAt_take, positionAt_take, Position.mk.injEq, hsplit, List.count_append] at h
  have hnone : '\n' ∉ (t.take l).drop k := List.count_eq_zero.1 (by omega)
  have hlength := h.2
  rw [rtakeWhile_append hnone, List.length_append, List.length_drop, List.length_take] at hlength
  omega

/-- Where a character starts, the point of a node counts the line feeds among the octets in front of it and the octets
behind the last of them. From the point, the place is found: the line feeds in front of the character and the
characters in front of it on its line, each counted from one. No other character has the place. -/
theorem position_determines_index (t : Text) {k : Nat} (hk : k ≤ t.length) {n : Node}
    (hstart : n.start = (encode (t.take k)).length) :
    pointAt (encode t) n.start = ⟨(encode (t.take k)).count 10, (lastLine (encode (t.take k))).length⟩ ∧
      (pointAt (encode t) n.start).position (encode t) n.start =
        ⟨1 + (t.take k).count '\n', 1 + ((t.take k).rtakeWhile (· != '\n')).length⟩ ∧
      positionAt (encode t) n.start = (pointAt (encode t) n.start).position (encode t) n.start ∧
      ∀ (l : Nat) (m : Node), l ≤ t.length → m.start = (encode (t.take l)).length →
        positionAt (encode t) m.start = positionAt (encode t) n.start → l = k := by
  refine ⟨by rw [hstart, pointAt_take], ?_, positionAt_eq_position (encode t) n.start, ?_⟩
  · rw [← positionAt_eq_position, hstart, positionAt_take, Nat.add_comm 1, Nat.add_comm 1]
  · intro l m hl hm heq
    rw [hm, hstart] at heq
    rcases Nat.le_total k l with hle | hle
    · exact (eq_of_positionAt_eq hle hl heq.symm).symm
    · exact eq_of_positionAt_eq hle hk heq

/-- Behind a character of two octets, a line feed, a character of four octets and a space: the eighth octet is in the
third column. -/
theorem position_determines_index_fourOctets :
    let t : Text := ['é', '\n', '😀', ' ', ')']
    let n : Node := ⟨")", false, false, true, 8, 9, none, []⟩
    4 ≤ t.length ∧ n.start = (encode (t.take 4)).length ∧
      pointAt (encode t) n.start = ⟨1, 5⟩ ∧ positionAt (encode t) n.start = ⟨2, 3⟩ ∧
      ∀ (l : Nat) (m : Node), l ≤ t.length → m.start = (encode (t.take l)).length →
        positionAt (encode t) m.start = ⟨2, 3⟩ → l = 4 := by
  intro t n
  have hk : 4 ≤ t.length := by decide
  have hstart : n.start = (encode (t.take 4)).length := by decide
  obtain ⟨hpoint, hposition, heq, hunique⟩ := position_determines_index t hk hstart
  have hplace : positionAt (encode t) n.start = ⟨2, 3⟩ := heq.trans (hposition.trans (by decide))
  exact ⟨hk, hstart, hpoint.trans (by decide), hplace, fun l m hl hm h => hunique l m hl hm (h.trans hplace.symm)⟩

end SnippetAudit.Syntax
