import Mathlib.Data.List.Lex
import Mathlib.Tactic.SplitIfs

/-!
# The order of bytes

Tables list their keys in the order of texts, which goes by the numbers of the characters.
The order of the UTF-8 bytes is the same (`bytes_lt`): of two characters the greater one
has the greater bytes, and they differ before either ends (`encoded_lt`).
-/

namespace Rulebook.Text

/-- The bytes of a text in UTF-8. -/
def bytes (s : String) : List UInt8 := s.toUTF8.data.toList

theorem bytes_eq (s : String) : bytes s = s.toList.flatMap String.utf8EncodeChar := by
  rw [bytes, String.toUTF8_eq_toByteArray, ← String.utf8Encode_toList, List.utf8Encode,
    List.toList_data_toByteArray]

theorem byte_lt_iff {m n : Nat} (hm : m < 256) (hn : n < 256) :
    UInt8.ofNat m < UInt8.ofNat n ↔ m < n := by
  rw [UInt8.lt_iff_toNat_lt, UInt8.toNat_ofNat', UInt8.toNat_ofNat', Nat.mod_eq_of_lt hm,
    Nat.mod_eq_of_lt hn]

theorem byte_inj {m n : Nat} (hm : m < 256) (hn : n < 256) :
    UInt8.ofNat m = UInt8.ofNat n ↔ m = n := by
  rw [← UInt8.toNat_inj, UInt8.toNat_ofNat', UInt8.toNat_ofNat', Nat.mod_eq_of_lt hm,
    Nat.mod_eq_of_lt hn]

theorem toNat_val_lt (c : Char) : c.val.toNat < 0x110000 := by
  have h := c.valid
  simp only [UInt32.isValidChar, Nat.isValidChar] at h
  omega

/-- A greater character has greater bytes, whatever follows. -/
theorem encoded_lt {c d : Char} (h : c < d) (s t : List UInt8) :
    String.utf8EncodeChar c ++ s < String.utf8EncodeChar d ++ t := by
  have hlt : c.val.toNat < d.val.toNat := h
  have hmax := toNat_val_lt d
  simp only [String.utf8EncodeChar]
  generalize c.val.toNat = m at hlt
  generalize d.val.toNat = n at hlt hmax
  -- the bytes after the first are digits of base 64, the most significant first
  have hm := Nat.div_div_eq_div_mul m 64 64
  have hn := Nat.div_div_eq_div_mul n 64 64
  have hm' := Nat.div_div_eq_div_mul m 4096 64
  have hn' := Nat.div_div_eq_div_mul n 4096 64
  have hmfirst : m / 262144 % 8 = m / 262144 := Nat.mod_eq_of_lt (by omega)
  have hnfirst : n / 262144 % 8 = n / 262144 := Nat.mod_eq_of_lt (by omega)
  -- by the numbers of bytes of both, from one to four
  split_ifs
  all_goals
    simp only [List.cons_append, List.nil_append, List.cons_lt_cons_iff]
    repeat rw [byte_lt_iff (by omega) (by omega)]
    repeat rw [byte_inj (by omega) (by omega)]
    omega

theorem encoded_ne_nil (c : Char) : String.utf8EncodeChar c ≠ [] := by
  simp only [String.utf8EncodeChar]
  split_ifs
  all_goals exact List.cons_ne_nil _ _

theorem flatMap_encoded_lt : ∀ {cs ds : List Char}, cs < ds →
    cs.flatMap String.utf8EncodeChar < ds.flatMap String.utf8EncodeChar
  | [], [], h => absurd h (List.lt_irrefl [])
  | [], d :: ds, _ => by
      rw [List.flatMap_cons]
      cases hd : String.utf8EncodeChar d with
      | nil => exact absurd hd (encoded_ne_nil d)
      | cons b bs => exact List.nil_lt_cons b _
  | c :: cs, [], h => absurd h (List.not_lt_nil _)
  | c :: cs, d :: ds, h => by
      rw [List.flatMap_cons, List.flatMap_cons]
      rcases List.cons_lt_cons_iff.mp h with hhead | ⟨rfl, htail⟩
      · exact encoded_lt hhead _ _
      · exact List.Lex.append_left _ (flatMap_encoded_lt htail) _

/-- Of two texts the greater one has the greater bytes. -/
theorem bytes_lt {s t : String} (h : s < t) : bytes s < bytes t := by
  rw [bytes_eq, bytes_eq]
  exact flatMap_encoded_lt (String.lt_iff.mp h)

end Rulebook.Text
