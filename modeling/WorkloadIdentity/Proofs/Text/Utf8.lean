/-
# Texts and their octets

Texts are compared character by character. UTF-8 writes a greater character
with a greater first octet, or with the same octets up to a greater one, so
comparing the octets comes to the same (`Utf8.encode_lt_encode_iff`).

A character of ASCII is one octet, and no octet of another character is one of ASCII. So a
test of characters against an alphabet of ASCII may as well be made octet by octet
(`Utf8.exists_octet_not_mem_iff`).

Key theorems: `Utf8.encode_eq_flatMap`, `Utf8.exists_octet_not_mem_iff`,
`Utf8.encode_lt_encode_iff`.
-/
import Mathlib.Data.String.Basic
import WorkloadIdentity.Text.Utf8

namespace WorkloadIdentity
namespace Utf8

/-- A text in octets is its characters in octets. -/
theorem encode_eq_flatMap (s : String) : encode s = s.toList.flatMap encodeChar := by
  unfold encode encodeChar
  rw [String.toUTF8_eq_toByteArray, ← String.utf8Encode_toList, List.utf8Encode,
    List.toList_data_toByteArray]

/-- Octets that are the form of a text are the octets of that text. -/
theorem encode_of_decode {bytes : Bytes} {s : String} (h : decode bytes = some s) :
    encode s = bytes := by
  unfold decode String.fromUTF8? at h
  split at h
  · obtain rfl := Option.some.inj h
    rfl
  · cases h

/-- The octets of a text are the form of it. -/
theorem decode_encode (s : String) : decode (encode s) = some s := by
  have hvalid : s.toUTF8.IsValidUTF8 := s.isValidUTF8
  have hoctets : (⟨(encode s).toArray⟩ : ByteArray) = s.toUTF8 := rfl
  unfold decode String.fromUTF8?
  rw [hoctets, dif_pos hvalid]
  rfl

theorem length_le_flatMap : ∀ s : List Char, s.length ≤ (s.flatMap encodeChar).length
  | [] => le_refl _
  | c :: s => by
    have ih := length_le_flatMap s
    have hone : 0 < (encodeChar c).length := List.length_pos_of_ne_nil String.utf8EncodeChar_ne_nil
    rw [List.flatMap_cons, List.length_append, List.length_cons]
    omega

/-- A text has no more characters than octets. -/
theorem length_le_encode (s : String) : s.toList.length ≤ (encode s).length := by
  rw [encode_eq_flatMap]
  exact length_le_flatMap s.toList

/-! ### Alphabets of ASCII -/

/-- A character of ASCII is one octet. -/
theorem encodeChar_of_lt {c : Char} (hc : c.toNat < 128) :
    encodeChar c = [UInt8.ofNat c.toNat] := by
  have hle : c.val.toNat ≤ 0x7f := Nat.le_of_lt_succ hc
  unfold encodeChar String.utf8EncodeChar
  simp only [if_pos hle]
  rfl

/-- Characters beyond ASCII are of octets beyond it. -/
theorem le_of_mem_encodeChar {c : Char} (hc : 128 ≤ c.toNat) {b : UInt8}
    (hb : b ∈ encodeChar c) : 128 ≤ b.toNat := by
  have hlow : ¬ c.val.toNat ≤ 0x7f := Nat.not_le_of_lt hc
  have hhigh : c.val.toNat < 0x110000 := by
    have := c.valid
    simp only [UInt32.isValidChar, Nat.isValidChar] at this
    omega
  unfold encodeChar String.utf8EncodeChar at hb
  simp only [if_neg hlow] at hb
  split_ifs at hb <;> simp only [List.mem_cons, List.not_mem_nil, or_false] at hb <;>
    rcases hb with rfl | rfl | rfl | rfl <;>
    simp only [UInt8.toNat_ofNat'] <;> omega

theorem mem_encode_ofList {b : UInt8} {s : List Char} :
    b ∈ encode (String.ofList s) ↔ ∃ c ∈ s, b ∈ encodeChar c := by
  rw [encode_eq_flatMap, String.toList_ofList, List.mem_flatMap]

/-- The characters of ASCII that an octet belongs to are one at most, and no other character
has it. -/
theorem eq_of_mem_encodeChar {c d : Char} {b : UInt8} (hd : d.toNat < 128)
    (hbc : b ∈ encodeChar c) (hbd : b ∈ encodeChar d) : c = d := by
  rw [encodeChar_of_lt hd, List.mem_singleton] at hbd
  have hb : b.toNat = d.toNat := by
    rw [hbd, UInt8.toNat_ofNat']
    omega
  have hc : c.toNat < 128 := by
    by_contra hc
    have := le_of_mem_encodeChar (Nat.le_of_not_lt hc) hbc
    omega
  rw [encodeChar_of_lt hc, List.mem_singleton] at hbc
  have hsame : c.toNat = d.toNat := by
    rw [← hb, hbc, UInt8.toNat_ofNat']
    omega
  rw [← Char.ofNat_toNat c, hsame, Char.ofNat_toNat]

/-- **An octet outside an alphabet is a character outside it.** -/
theorem exists_octet_not_mem_iff {alphabet : List Char} (hascii : ∀ c ∈ alphabet, c.toNat < 128)
    (s : List Char) :
    (∃ b ∈ encode (String.ofList s), b ∉ encode (String.ofList alphabet)) ↔
      ∃ c ∈ s, c ∉ alphabet := by
  simp only [mem_encode_ofList]
  constructor
  · rintro ⟨b, ⟨c, hc, hb⟩, hout⟩
    exact ⟨c, hc, fun hin => hout ⟨c, hin, hb⟩⟩
  · rintro ⟨c, hc, hout⟩
    obtain ⟨b, bs, hb⟩ := List.exists_cons_of_ne_nil (String.utf8EncodeChar_ne_nil (c := c))
    have hbc : b ∈ encodeChar c := by
      unfold encodeChar
      rw [hb]
      exact List.mem_cons_self
    refine ⟨b, ⟨c, hc, hbc⟩, ?_⟩
    rintro ⟨d, hd, hbd⟩
    exact hout (eq_of_mem_encodeChar (hascii d hd) hbc hbd ▸ hd)

/-! ### Order -/

/-- A greater character is written in greater octets, whatever follows. -/
theorem encodeChar_append_lt {c d : Char} (h : c < d) (xs ys : Bytes) :
    encodeChar c ++ xs < encodeChar d ++ ys := by
  have hlt : c.val.toNat < d.val.toNat := h
  have hd : d.val.toNat < 0x110000 := by
    have := d.valid
    simp only [UInt32.isValidChar, Nat.isValidChar] at this
    omega
  unfold encodeChar String.utf8EncodeChar
  simp only
  split_ifs <;>
    simp only [List.cons_append, List.nil_append, List.cons_lt_cons_iff, UInt8.lt_iff_toNat_lt,
      ← UInt8.toNat_inj, UInt8.toNat_ofNat'] <;>
    -- no octet exceeds 255, so none is cut off
    simp (disch := omega) only [Nat.mod_eq_of_lt] <;>
    omega

theorem flatMap_lt_flatMap : ∀ {s t : List Char}, s < t → s.flatMap encodeChar < t.flatMap encodeChar
  | [], [], h => absurd h (List.lt_irrefl _)
  | [], d :: t, _ => by
    obtain ⟨b, bs, hb⟩ := List.exists_cons_of_ne_nil (String.utf8EncodeChar_ne_nil (c := d))
    simp [encodeChar, hb]
  | c :: s, [], h => absurd h (List.not_lt_nil _)
  | c :: s, d :: t, h => by
    rw [List.flatMap_cons, List.flatMap_cons]
    rcases List.cons_lt_cons_iff.mp h with hc | ⟨rfl, hs⟩
    · exact encodeChar_append_lt hc _ _
    · exact List.append_left_lt (flatMap_lt_flatMap hs)

/-- **Texts and their octets are ordered alike.** -/
theorem encode_lt_encode_iff (s t : String) : encode s < encode t ↔ s < t := by
  rw [encode_eq_flatMap, encode_eq_flatMap, String.lt_iff_toList_lt]
  refine ⟨fun h => ?_, flatMap_lt_flatMap⟩
  rcases lt_trichotomy s.toList t.toList with hlt | heq | hgt
  · exact hlt
  · rw [heq] at h
    exact absurd h (List.lt_irrefl _)
  · exact absurd h (List.lt_asymm (flatMap_lt_flatMap hgt))

end Utf8
end WorkloadIdentity
