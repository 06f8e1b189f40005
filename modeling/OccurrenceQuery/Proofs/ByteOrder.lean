/-
Bytes of strings. The order of strings is that of their bytes: in the encoding of a character the first
byte that differs from that of a smaller character is the greater one, and no encoding begins another. A
text that has only bytes of ASCII can be read off them.
-/
import Mathlib.Data.String.Basic
import Mathlib.Tactic

namespace OccurrenceQuery.Text

/-- The bytes of a string. -/
def bytes (s : String) : List UInt8 := s.toByteArray.data.toList

theorem bytes_eq_flatMap (s : String) : bytes s = s.toList.flatMap String.utf8EncodeChar := by
  rw [bytes, ← String.utf8Encode_toList, List.utf8Encode]
  simp

/-! ## Order -/

/-- The bytes of a greater character are greater, whatever follows either of them. -/
theorem utf8EncodeChar_append_lt {c d : Char} (h : c < d) (as bs : List UInt8) :
    String.utf8EncodeChar c ++ as < String.utf8EncodeChar d ++ bs := by
  have hlt : c.val.toNat < d.val.toNat := h
  have hd : d.val.toNat < 0x110000 := by
    have hvalid := d.valid
    simp only [UInt32.isValidChar, Nat.isValidChar] at hvalid
    omega
  simp only [String.utf8EncodeChar]
  generalize c.val.toNat = m at hlt
  generalize d.val.toNat = n at hlt hd
  have hdigits : ∀ k : Nat, k / 4096 = k / 64 / 64 ∧ k / 262144 = k / 64 / 64 / 64 := by omega
  rw [(hdigits m).1, (hdigits m).2, (hdigits n).1, (hdigits n).2]
  -- a longer encoding has the greater first byte; at one length the bytes are digits to base 64
  split_ifs <;>
    simp (disch := omega) only [List.cons_append, List.nil_append, List.cons_lt_cons_iff,
      UInt8.lt_iff_toNat_lt, ← UInt8.toNat_inj, UInt8.toNat_ofNat', Nat.mod_eq_of_lt] <;>
    omega

theorem flatMap_utf8EncodeChar_lt : ∀ {cs ds : List Char}, cs < ds →
    cs.flatMap String.utf8EncodeChar < ds.flatMap String.utf8EncodeChar
  | cs, [], h => absurd h (List.not_lt_nil cs)
  | [], d :: ds, _ => by
    have hne : String.utf8EncodeChar d ≠ [] := String.utf8EncodeChar_ne_nil
    obtain ⟨b, bs, hb⟩ := List.exists_cons_of_ne_nil hne
    simp [hb, List.nil_lt_cons]
  | c :: cs, d :: ds, h => by
    rw [List.flatMap_cons, List.flatMap_cons]
    rcases List.cons_lt_cons_iff.1 h with hlt | ⟨rfl, hlt⟩
    · exact utf8EncodeChar_append_lt hlt _ _
    · exact List.append_left_lt (flatMap_utf8EncodeChar_lt hlt)

/-- One string is less than another exactly when its bytes are. -/
theorem bytes_lt_iff {s t : String} : bytes s < bytes t ↔ s < t := by
  have hmono : ∀ {s t : String}, s < t → bytes s < bytes t := by
    intro s t h
    rw [bytes_eq_flatMap, bytes_eq_flatMap]
    exact flatMap_utf8EncodeChar_lt (String.lt_iff_toList_lt.1 h)
  refine ⟨fun h => ?_, hmono⟩
  rcases lt_trichotomy s t with hlt | rfl | hgt
  · exact hlt
  · exact absurd h (List.lt_irrefl _)
  · exact absurd h (List.lt_asymm (hmono hgt))

/-! ## Texts of ASCII -/

/-- Whether all bytes of a text are those of characters of ASCII. -/
def isPlain (s : String) : Bool := (bytes s).all fun b => Nat.blt b.toNat 0x80

/-- The text that bytes of ASCII stand for, one character for each. -/
def plainText (s : String) : List Char := (bytes s).map fun b => Char.ofNat b.toNat

/-- A character that has only bytes of ASCII is encoded as itself. -/
theorem map_utf8EncodeChar {c : Char} (h : ∀ b ∈ String.utf8EncodeChar c, b.toNat < 0x80) :
    (String.utf8EncodeChar c).map (fun b => Char.ofNat b.toNat) = [c] := by
  have hvalue : c.val.toNat = c.toNat := rfl
  by_cases hascii : c.toNat ≤ 0x7F
  · simp only [String.utf8EncodeChar, hvalue, if_pos hascii, List.map_cons, List.map_nil,
      UInt8.toNat_ofNat']
    rw [Nat.mod_eq_of_lt (by omega), Char.ofNat_toNat]
  · exfalso
    simp only [String.utf8EncodeChar, hvalue, if_neg hascii] at h
    have hfirst := h _ (List.head_mem (by split_ifs <;> simp))
    -- the first byte of a longer encoding has its highest bit set
    revert hfirst
    split_ifs <;> simp <;> omega

theorem toList_eq_plainText {s : String} (h : isPlain s = true) : s.toList = plainText s := by
  have hbytes : ∀ b ∈ bytes s, b.toNat < 0x80 := by simpa [isPlain] using h
  rw [plainText, bytes_eq_flatMap]
  rw [bytes_eq_flatMap] at hbytes
  generalize s.toList = cs at hbytes ⊢
  induction cs with
  | nil => rfl
  | cons c cs ih =>
    rw [List.flatMap_cons, List.forall_mem_append] at hbytes
    rw [List.flatMap_cons, List.map_append, map_utf8EncodeChar hbytes.1, ← ih hbytes.2,
      List.singleton_append]

end OccurrenceQuery.Text
