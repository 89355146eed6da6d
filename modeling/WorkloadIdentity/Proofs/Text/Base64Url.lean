/-
# Base64url is read back

Reading accepts exactly what writing produces, so that every octet string has
one text and every text that is read is the text of what it is read as
(`Base64Url.decode_eq_some_iff`). Both halves go by groups of four characters:
three octets are cut into four numbers below 64 and put together again, and the
bits that a short last group leaves over are zero in writing and are asked to be
zero in reading.

Key theorems: `Base64Url.length_encode`, `Base64Url.decode_encode`,
`Base64Url.eq_encode_of_decode`, `Base64Url.decode_eq_some_iff`.
-/
import WorkloadIdentity.Proofs.Text.Characters
import WorkloadIdentity.Text.Base64Url

namespace WorkloadIdentity
namespace Base64Url

/-! ### Characters -/

theorem value?_char {v : Nat} (hv : v < 64) : value? (char v) = some v := by
  have hall : (List.range 64).all (fun v => value? (char v) == some v) = true := by
    decide +kernel
  exact eq_of_beq (List.all_eq_true.mp hall v (List.mem_range.mpr hv))

/-- A character with a value is a letter, a digit or one of two marks. -/
theorem toNat_lt_of_value? {c : Char} {v : Nat} (h : value? c = some v) : c.toNat < 128 := by
  have hcases : c.isAlphanum = true ∨ c = '-' ∨ c = '_' := by
    by_contra hnone
    simp only [not_or] at hnone
    obtain ⟨halphanum, hminus, hunderscore⟩ := hnone
    have hparts : ¬ (((c.isUpper || c.isLower) || c.isDigit) = true) := halphanum
    simp only [Bool.or_eq_true, not_or] at hparts
    unfold value? at h
    simp [hparts, hminus, hunderscore] at h
  rcases hcases with halphanum | rfl | rfl
  · exact toNat_lt_of_isAlphanum halphanum
  · decide
  · decide

/-- Every value is written with one character. -/
theorem char_of_value? {c : Char} {v : Nat} (h : value? c = some v) : v < 64 ∧ char v = c := by
  have hall : (List.range 128).all (fun n =>
      (value? (Char.ofNat n)).all fun v => decide (v < 64) && char v == Char.ofNat n) = true := by
    decide +kernel
  have hc := forall_ascii (p := fun c => (value? c).all fun v => decide (v < 64) && char v == c)
    hall (toNat_lt_of_value? h)
  rw [h, Option.all_some, Bool.and_eq_true] at hc
  exact ⟨of_decide_eq_true hc.1, eq_of_beq hc.2⟩

/-! ### Writing, then reading -/

/-- Four characters for three octets, and one more than octets for a rest. -/
theorem length_encode : ∀ octets : Bytes, (encode octets).length = (4 * octets.length + 2) / 3
  | [] => rfl
  | [_] => by simp [encode]
  | [_, _] => by simp [encode]
  | _ :: _ :: _ :: rest => by
    have ih := length_encode rest
    simp only [encode, List.length_cons, ih]
    omega

/-- Every character of a text has a value. -/
theorem exists_value?_of_mem_encode {c : Char} : ∀ {octets : Bytes}, c ∈ encode octets →
    ∃ v, value? c = some v
  | [], h => by cases h
  | [a], h => by
    have ha := a.toNat_lt
    simp only [encode, List.mem_cons, List.not_mem_nil, or_false] at h
    rcases h with rfl | rfl <;> exact ⟨_, value?_char (by omega)⟩
  | [a, b], h => by
    have ha := a.toNat_lt
    have hb := b.toNat_lt
    simp only [encode, List.mem_cons, List.not_mem_nil, or_false] at h
    rcases h with rfl | rfl | rfl <;> exact ⟨_, value?_char (by omega)⟩
  | a :: b :: c :: rest, h => by
    have ha := a.toNat_lt
    have hb := b.toNat_lt
    have hc := c.toNat_lt
    simp only [encode, List.mem_cons] at h
    rcases h with rfl | rfl | rfl | rfl | h
    · exact ⟨_, value?_char (by omega)⟩
    · exact ⟨_, value?_char (by omega)⟩
    · exact ⟨_, value?_char (by omega)⟩
    · exact ⟨_, value?_char (by omega)⟩
    · exact exists_value?_of_mem_encode h

theorem dot_not_mem_encode (octets : Bytes) : '.' ∉ encode octets := by
  intro h
  obtain ⟨v, hv⟩ := exists_value?_of_mem_encode h
  have hnone : value? '.' = none := by decide
  rw [hnone] at hv
  cases hv

/-- An octet that is put together again from its parts. -/
theorem ofNat_eq {n : Nat} {b : UInt8} (h : n = b.toNat) : UInt8.ofNat n = b := by
  rw [h, UInt8.ofNat_toNat]

theorem decode_encode : ∀ octets : Bytes, decode (encode octets) = some octets
  | [] => rfl
  | [a] => by
    have ha := a.toNat_lt
    have hx : a.toNat / 4 < 64 := by omega
    have hy : a.toNat % 4 * 16 < 64 := by omega
    have hleft : a.toNat % 4 * 16 % 16 = 0 := by omega
    have hwhole : a.toNat / 4 * 4 + a.toNat % 4 * 16 / 16 = a.toNat := by omega
    simp only [encode, decode, value?_char hx, value?_char hy, Option.bind_eq_bind,
      Option.bind_some, if_pos hleft, ofNat_eq hwhole]
  | [a, b] => by
    have ha := a.toNat_lt
    have hb := b.toNat_lt
    have hx : a.toNat / 4 < 64 := by omega
    have hy : a.toNat % 4 * 16 + b.toNat / 16 < 64 := by omega
    have hz : b.toNat % 16 * 4 < 64 := by omega
    have hleft : b.toNat % 16 * 4 % 4 = 0 := by omega
    have hfirst : a.toNat / 4 * 4 + (a.toNat % 4 * 16 + b.toNat / 16) / 16 = a.toNat := by omega
    have hsecond : (a.toNat % 4 * 16 + b.toNat / 16) % 16 * 16 + b.toNat % 16 * 4 / 4 =
        b.toNat := by omega
    simp only [encode, decode, value?_char hx, value?_char hy, value?_char hz,
      Option.bind_eq_bind, Option.bind_some, if_pos hleft, ofNat_eq hfirst, ofNat_eq hsecond]
  | a :: b :: c :: rest => by
    have ih := decode_encode rest
    have ha := a.toNat_lt
    have hb := b.toNat_lt
    have hc := c.toNat_lt
    have hx : a.toNat / 4 < 64 := by omega
    have hy : a.toNat % 4 * 16 + b.toNat / 16 < 64 := by omega
    have hz : b.toNat % 16 * 4 + c.toNat / 64 < 64 := by omega
    have hw : c.toNat % 64 < 64 := by omega
    have hfirst : a.toNat / 4 * 4 + (a.toNat % 4 * 16 + b.toNat / 16) / 16 = a.toNat := by omega
    have hsecond : (a.toNat % 4 * 16 + b.toNat / 16) % 16 * 16 +
        (b.toNat % 16 * 4 + c.toNat / 64) / 4 = b.toNat := by omega
    have hthird : (b.toNat % 16 * 4 + c.toNat / 64) % 4 * 64 + c.toNat % 64 = c.toNat := by omega
    simp only [encode, decode, value?_char hx, value?_char hy, value?_char hz, value?_char hw,
      Option.bind_eq_bind, Option.bind_some, ih, ofNat_eq hfirst, ofNat_eq hsecond,
      ofNat_eq hthird]

/-! ### Reading, then writing -/

/-- With the number of octets as a numeral, which `omega` can compare with. -/
theorem toNat_ofNat {n : Nat} (h : n < 256) : (UInt8.ofNat n).toNat = n :=
  UInt8.toNat_ofNat_of_lt' h

theorem eq_encode_of_decode : ∀ {s : List Char} {octets : Bytes},
    decode s = some octets → s = encode octets
  | [], octets, h => by
    obtain rfl := Option.some.inj h
    rfl
  | [_], _, h => by cases h
  | [a, b], octets, h => by
    simp only [decode, Option.bind_eq_bind, Option.bind_eq_some_iff] at h
    obtain ⟨x, hx, y, hy, h⟩ := h
    obtain ⟨hxlt, rfl⟩ := char_of_value? hx
    obtain ⟨hylt, rfl⟩ := char_of_value? hy
    split at h
    · rename_i hleft
      obtain rfl := Option.some.inj h
      have hfirst : (x * 4 + y / 16) / 4 = x := by omega
      have hsecond : (x * 4 + y / 16) % 4 * 16 = y := by omega
      rw [encode, toNat_ofNat (by omega), hfirst, hsecond]
    · cases h
  | [a, b, c], octets, h => by
    simp only [decode, Option.bind_eq_bind, Option.bind_eq_some_iff] at h
    obtain ⟨x, hx, y, hy, z, hz, h⟩ := h
    obtain ⟨hxlt, rfl⟩ := char_of_value? hx
    obtain ⟨hylt, rfl⟩ := char_of_value? hy
    obtain ⟨hzlt, rfl⟩ := char_of_value? hz
    split at h
    · rename_i hleft
      obtain rfl := Option.some.inj h
      have hfirst : (x * 4 + y / 16) / 4 = x := by omega
      have hsecond : (x * 4 + y / 16) % 4 * 16 + (y % 16 * 16 + z / 4) / 16 = y := by omega
      have hthird : (y % 16 * 16 + z / 4) % 16 * 4 = z := by omega
      rw [encode, toNat_ofNat (by omega), toNat_ofNat (by omega), hfirst, hsecond, hthird]
    · cases h
  | a :: b :: c :: d :: rest, octets, h => by
    simp only [decode, Option.bind_eq_bind, Option.bind_eq_some_iff] at h
    obtain ⟨x, hx, y, hy, z, hz, w, hw, more, hmore, h⟩ := h
    obtain ⟨hxlt, rfl⟩ := char_of_value? hx
    obtain ⟨hylt, rfl⟩ := char_of_value? hy
    obtain ⟨hzlt, rfl⟩ := char_of_value? hz
    obtain ⟨hwlt, rfl⟩ := char_of_value? hw
    obtain rfl := Option.some.inj h
    have ih := eq_encode_of_decode hmore
    have hfirst : (x * 4 + y / 16) / 4 = x := by omega
    have hsecond : (x * 4 + y / 16) % 4 * 16 + (y % 16 * 16 + z / 4) / 16 = y := by omega
    have hthird : (y % 16 * 16 + z / 4) % 16 * 4 + (z % 4 * 64 + w) / 64 = z := by omega
    have hfourth : (z % 4 * 64 + w) % 64 = w := by omega
    rw [encode, toNat_ofNat (by omega), toNat_ofNat (by omega), toNat_ofNat (by omega), hfirst,
      hsecond, hthird, hfourth, ← ih]

/-- **Reading accepts exactly what writing produces.** -/
theorem decode_eq_some_iff {s : List Char} {octets : Bytes} :
    decode s = some octets ↔ s = encode octets := by
  constructor
  · exact eq_encode_of_decode
  · rintro rfl
    exact decode_encode octets

end Base64Url
end WorkloadIdentity
