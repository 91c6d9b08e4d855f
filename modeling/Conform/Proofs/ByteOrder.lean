import Mathlib.Data.List.Basic
import Mathlib.Tactic.SplitIfs

/-!
# The order of texts and of their bytes

Texts are compared character by character, by code points. `Text.bytes_lt_iff` says that this is the
order of their bytes in UTF-8: of two characters, the one with the smaller code point has the
smaller bytes (`encoding_lt`), and it has them in front of whatever follows, so that the first
characters at which two texts differ settle both orders.
-/

namespace Conform.Text

/-- The bytes of a text in UTF-8. -/
def bytes (text : String) : List UInt8 := text.toUTF8.data.toList

/-- The bytes of a text are those of its characters. -/
theorem bytes_eq (text : String) : bytes text = text.toList.flatMap String.utf8EncodeChar := by
  have h : text.toUTF8 = text.toList.utf8Encode := String.utf8Encode_toList.symm
  rw [bytes, h]
  simp [List.utf8Encode]

/-- A number below 256 is that of its byte. -/
theorem toNat_ofNat_byte (n : Nat) (h : n < 256) : (UInt8.ofNat n).toNat = n := by
  rw [UInt8.toNat_ofNat', Nat.mod_eq_of_lt h]

/-- A character with a smaller code point has smaller bytes, whatever follows. -/
theorem encoding_lt {c d : Char} (h : c < d) (rest others : List UInt8) :
    String.utf8EncodeChar c ++ rest < String.utf8EncodeChar d ++ others := by
  have hlt : c.val.toNat < d.val.toNat := h
  have hbound : d.val.toNat < 0x110000 := by
    rcases d.valid with hd | hd <;> omega
  -- The digits of a code point to the base 64 come from one division after another.
  have htwo (n : Nat) : n / 4096 = n / 64 / 64 := (Nat.div_div_eq_div_mul n 64 64).symm
  have hthree (n : Nat) : n / 262144 = n / 64 / 64 / 64 := by
    rw [Nat.div_div_eq_div_mul, Nat.div_div_eq_div_mul]
  unfold String.utf8EncodeChar
  dsimp only
  generalize c.val.toNat = m at hlt ⊢
  generalize d.val.toNat = n at hlt hbound ⊢
  -- A longer form has a greater first byte. In forms of one length the first digit that is not the
  -- same settles the order.
  clear h
  split_ifs <;>
    simp (disch := omega) only [List.cons_append, List.nil_append, List.cons_lt_cons_iff,
      UInt8.lt_iff_toNat_lt, ← UInt8.toNat_inj, toNat_ofNat_byte, htwo, hthree] <;>
    omega

/-- A text before another one in the order of texts is before it in the order of bytes. -/
theorem bytes_lt {first second : String} (h : first < second) : bytes first < bytes second := by
  have hchars : List.Lex (· < ·) first.toList second.toList := List.lex_lt.2 h
  rw [bytes_eq, bytes_eq]
  generalize first.toList = cs at hchars ⊢
  generalize second.toList = ds at hchars ⊢
  induction hchars with
  | @nil d ds =>
    obtain ⟨byte, rest, hbytes⟩ :=
      List.exists_cons_of_ne_nil (String.utf8EncodeChar_ne_nil (c := d))
    rw [List.flatMap_nil, List.flatMap_cons, hbytes]
    exact List.nil_lt_cons ..
  | rel h =>
    rw [List.flatMap_cons, List.flatMap_cons]
    exact encoding_lt h ..
  | cons _ ih =>
    rw [List.flatMap_cons, List.flatMap_cons]
    exact List.append_left_lt ih

/-- The order of texts is that of their bytes. -/
theorem bytes_lt_iff {first second : String} : bytes first < bytes second ↔ first < second := by
  refine ⟨fun h => ?_, bytes_lt⟩
  rcases Std.lt_trichotomy first second with hlt | heq | hgt
  · exact hlt
  · exact absurd (heq ▸ h) (List.lt_irrefl _)
  · exact absurd (bytes_lt hgt) (List.lt_asymm h)

end Conform.Text
