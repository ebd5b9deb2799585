import Mathlib.Data.Nat.Digits.Defs
import SnippetAudit.Data.Value
import SnippetAudit.Proofs.Numeric.Spelling
import SnippetAudit.Schema.Structural

/-!
# How values start when they are shown

Messages show values at their start: in quotes or brackets, by a capital letter, or as a number. Other messages start
with names in quotes or with a word of their own. None of this is how the messages for undeclared and missing
attributes start, so none of these messages is one of the two.

## What this module delivers

- `IsOrdinary`: messages other than the two;
- `StartsApart`, `StartsApart.isOrdinary`: texts that start like neither of them;
- `startsApart_text`: every value is shown in this way;
- `startsApart_namesWith`, `startsApart_additionalMessage`: so do the other messages.
-/

set_option autoImplicit false

namespace SnippetAudit.Schema

/-- The message is not one for an attribute that is undeclared or missing. -/
def IsOrdinary (message : String) : Prop :=
  message ≠ Violation.undeclaredMessage ∧ message ≠ Violation.missingMessage

/-- The character starts neither of the two messages. -/
def IsApart (c : Char) : Prop := c ≠ 'a' ∧ c ≠ 'r'

instance decidableIsApart : DecidablePred IsApart := fun _ => inferInstanceAs (Decidable (_ ∧ _))

/-- The text starts like neither of the two messages. -/
def StartsApart (s : String) : Prop := ∃ c ∈ s.toList.head?, IsApart c

theorem StartsApart.append {s : String} (hs : StartsApart s) (t : String) : StartsApart (s ++ t) := by
  obtain ⟨c, hc, hne⟩ := hs
  refine ⟨c, ?_, hne⟩
  rw [String.toList_append, List.head?_append, Option.mem_def.1 hc]
  rfl

theorem StartsApart.isOrdinary {s : String} (hs : StartsApart s) : IsOrdinary s := by
  obtain ⟨c, hc, hundeclared, hmissing⟩ := hs
  constructor
  · rintro rfl
    exact hundeclared (Option.some.inj hc).symm
  · rintro rfl
    exact hmissing (Option.some.inj hc).symm

/-! ## Numbers -/

theorem isApart_of_mem_toDigits {n : Nat} {c : Char} (hc : c ∈ Nat.toDigits 10 n) : IsApart c :=
  Numeral.forall_mem_toDigits (by decide) n c hc

theorem startsApart_of_cons {s : String} {c : Char} {behind : List Char} (hs : s.toList = c :: behind)
    (hc : IsApart c) : StartsApart s := by
  rw [StartsApart, hs]
  exact ⟨c, rfl, hc⟩

/-- In front of a character that is apart stand none that are not. -/
theorem startsApart_of_append {s : String} {front behind : List Char} {c : Char} (hs : s.toList = front ++ c :: behind)
    (hfront : ∀ d ∈ front, IsApart d) (hc : IsApart c) : StartsApart s := by
  cases front with
  | nil => exact startsApart_of_cons hs hc
  | cons d rest => exact startsApart_of_cons hs (hfront d List.mem_cons_self)

theorem startsApart_toString (n : Nat) : StartsApart (toString n) := by
  have hne : Nat.toDigits 10 n ≠ [] := Nat.toDigits_ne_nil
  obtain ⟨c, rest, hdigits⟩ := List.exists_cons_of_ne_nil hne
  have htext : (toString n).toList = c :: rest := by
    rw [← hdigits]
    exact String.toList_ofList
  exact startsApart_of_cons htext (isApart_of_mem_toDigits (hdigits ▸ List.mem_cons_self))

theorem startsApart_int (n : Int) : StartsApart (toString n) := by
  cases n with
  | ofNat m => exact startsApart_toString m
  | negSucc m => exact StartsApart.append ⟨'-', rfl, by decide⟩ _

theorem exists_exponentText (layout : Binary64.Layout) (e : Int) :
    ∃ rest, (Binary64.exponentText layout e).toList = 'e' :: rest := by
  rw [Binary64.exponentText]
  split <;> exact ⟨_, by rw [String.toList_append, String.toList_append]; rfl⟩

/-- A number starts with one of its digits, with a zero, or with the mark of its fraction or of its exponent. -/
theorem startsApart_layoutText (layout : Binary64.Layout) {digits : List Char} (hdigits : ∀ c ∈ digits, IsApart c)
    (magnitude : Int) : StartsApart (Binary64.layoutText layout digits magnitude) := by
  rw [Binary64.layoutText]
  split
  · obtain ⟨rest, hexponent⟩ := exists_exponentText layout magnitude
    let point : List Char := if (digits.drop 1).isEmpty then [] else '.' :: digits.drop 1
    have htext : (String.ofList (digits.take 1 ++ point) ++ Binary64.exponentText layout magnitude).toList =
        digits.take 1 ++ point ++ 'e' :: rest := by
      rw [String.toList_append, String.toList_ofList, hexponent]
    refine startsApart_of_append htext ?_ (by decide)
    rw [List.forall_mem_append]
    refine ⟨fun c hc => hdigits c (List.mem_of_mem_take hc), ?_⟩
    dsimp only [point]
    split
    · simp
    · exact List.forall_mem_cons.2 ⟨by decide, fun c hc => hdigits c (List.mem_of_mem_drop hc)⟩
  · split
    · exact startsApart_of_cons String.toList_ofList (by decide)
    · refine startsApart_of_append String.toList_ofList (fun c hc => ?_) (by decide : IsApart '.')
      rcases List.mem_append.1 (List.mem_of_mem_take hc) with hdigit | hzero
      · exact hdigits c hdigit
      · exact List.eq_of_mem_replicate hzero ▸ by decide

theorem startsApart_binary64 (x : Binary64) : StartsApart x.text := by
  cases x with
  | nan => exact ⟨'n', rfl, by decide⟩
  | infinite negative => cases negative <;> exact ⟨_, rfl, by decide⟩
  | finite negative mantissa exponent =>
    rw [Binary64.text]
    generalize Binary64.shortestDigits mantissa exponent = short
    obtain ⟨digits, unit⟩ := short
    have hdigits : ∀ c ∈ Binary64.dropTrailingZeros (Nat.toDigits 10 digits), IsApart c := by
      intro c hc
      have hmem := (List.dropWhile_sublist _).mem (List.mem_reverse.1 hc)
      exact isApart_of_mem_toDigits (List.mem_reverse.1 hmem)
    have hsign : StartsApart "-" := ⟨'-', rfl, by decide⟩
    cases negative with
    | true =>
      split
      · exact hsign.append "0.0"
      · exact hsign.append _
    | false =>
      split
      · exact ⟨'0', rfl, by decide⟩
      · dsimp only
        rw [if_neg Bool.false_ne_true, String.empty_append]
        exact startsApart_layoutText _ hdigits _

/-! ## Values -/

theorem startsApart_quoteString (s : String) : StartsApart (Text.quoteString s) := by
  have hmark : IsApart (Text.quoteMark s.toList) := by
    rw [Text.quoteMark]
    split <;> decide
  exact startsApart_of_cons String.toList_ofList hmark

/-- Every value is shown in such a way. -/
theorem startsApart_text (v : Value) : StartsApart v.text := by
  cases v with
  | null => exact ⟨'N', rfl, by decide⟩
  | bool b => cases b <;> exact ⟨_, rfl, by decide⟩
  | int n => exact startsApart_int n
  | float x => exact startsApart_binary64 x
  | str s => exact startsApart_quoteString s
  | expr source =>
    have hexpr : StartsApart "ExpressionValue(" := ⟨'E', rfl, by decide⟩
    exact (hexpr.append _).append _
  | list items =>
    have hbracket : StartsApart "[" := ⟨'[', rfl, by decide⟩
    exact (hbracket.append _).append _
  | object members =>
    have hbrace : StartsApart "\x7b" := ⟨'\x7b', rfl, by decide⟩
    exact (hbrace.append _).append _

/-! ## Messages that do not show a value first -/

/-- Names in a message start with a quote, and without names the verb is there. -/
theorem startsApart_namesWith (names : List String) {one several : String} (hseveral : StartsApart several) :
    StartsApart (namesWith one several names) := by
  rw [namesWith]
  match names with
  | [] => exact hseveral
  | [name] => exact (startsApart_quoteString name).append _
  | name :: other :: rest =>
    rw [List.map_cons, List.map_cons, String.intercalate_cons_cons, String.append_assoc, String.append_assoc]
    exact (startsApart_quoteString name).append _

theorem startsApart_additionalMessage (schema : Members Value) (extras : List String) :
    StartsApart (additionalMessage schema extras) := by
  have hverb : StartsApart " do" := ⟨' ', rfl, by decide⟩
  have hadditional : StartsApart "Additional properties are not allowed (" := ⟨'A', rfl, by decide⟩
  rw [additionalMessage.eq_def]
  split
  · exact ((startsApart_namesWith extras hverb).append _).append _
  · exact (hadditional.append _).append _

end SnippetAudit.Schema
