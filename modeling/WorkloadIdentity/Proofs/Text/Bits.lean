/-
# Base64url, bit by bit

The bits of octets, eight for each and the highest first, are cut into groups of six, with zeros
to fill the last one, and each group is written as the character of its number. That is what a
text spells (`Base64Url.Spells`). It is said without the groups of three octets and of four
characters that writing and reading go by; they come to the same, as they cut the same bits
(`Base64Url.spells_encode`), and a text is determined by its bits (`Base64Url.sextets_injective`).

Key definitions: `bits`, `Base64Url.sextets`, `Base64Url.octetBits`, `Base64Url.Spells`.
Key theorems: `bits_add`, `bits_eq_iff`, `Base64Url.spells_encode`, `Base64Url.Spells.eq_encode`,
`Base64Url.decode_eq_some_iff_spells`.
-/
import Mathlib.Tactic.Ring
import WorkloadIdentity.Proofs.Text.Base64Url

namespace WorkloadIdentity

/-! ### Bits of a number -/

/-- The lowest bits of a number, so many of them, the highest first. -/
def bits : Nat → Nat → List Bool
  | 0, _ => []
  | width + 1, n => bits width (n / 2) ++ [decide (n % 2 = 1)]

@[simp] theorem length_bits : ∀ width n : Nat, (bits width n).length = width
  | 0, _ => rfl
  | width + 1, n => by simp [bits, length_bits width]

/-- The highest bits are those of the number without its lowest ones. -/
theorem bits_add (high : Nat) : ∀ low n : Nat,
    bits (high + low) n = bits high (n / 2 ^ low) ++ bits low n
  | 0, n => by simp [bits]
  | low + 1, n => by
    have hdiv : n / 2 / 2 ^ low = n / 2 ^ (low + 1) := by
      rw [Nat.div_div_eq_div_mul, pow_succ']
    rw [← Nat.add_assoc, bits, bits_add high low, hdiv, bits, List.append_assoc]

/-- Numbers have the same lowest bits if and only if they leave the same remainder. -/
theorem bits_eq_iff : ∀ {width n m : Nat},
    bits width n = bits width m ↔ n % 2 ^ width = m % 2 ^ width
  | 0, n, m => by simp [bits, Nat.mod_one]
  | width + 1, n, m => by
    have hn : n % 2 ^ (width + 1) = n % 2 + 2 * (n / 2 % 2 ^ width) := by
      rw [pow_succ', Nat.mod_mul]
    have hm : m % 2 ^ (width + 1) = m % 2 + 2 * (m / 2 % 2 ^ width) := by
      rw [pow_succ', Nat.mod_mul]
    simp only [bits, List.append_singleton_inj, bits_eq_iff, decide_eq_decide, hn, hm]
    omega

namespace Base64Url

/-! ### Texts and octets as bits -/

/-- The bits of a text, six for each character. -/
def sextets (s : List Char) : List Bool := s.flatMap fun c => bits 6 (alphabet.idxOf c)

/-- The bits of octets. -/
def octetBits (octets : Bytes) : List Bool := octets.flatMap fun b => bits 8 b.toNat

/-- The text is of the alphabet, and its bits are those of the octets with zeros behind them, too
few for a character. -/
def Spells (s : List Char) (octets : Bytes) : Prop :=
  (∀ c ∈ s, c ∈ alphabet) ∧
    ∃ left < 6, sextets s = octetBits octets ++ List.replicate left false

theorem length_sextets (s : List Char) : (sextets s).length = 6 * s.length := by
  simp [sextets, Nat.mul_comm]

theorem length_octetBits (octets : Bytes) : (octetBits octets).length = 8 * octets.length := by
  simp [octetBits, Nat.mul_comm]

/-! ### The alphabet -/

theorem idxOf_char {v : Nat} (hv : v < 64) : alphabet.idxOf (char v) = v := by
  have hall : (List.range 64).all (fun v => alphabet.idxOf (char v) == v) = true := by
    decide +kernel
  exact eq_of_beq (List.all_eq_true.mp hall v (List.mem_range.mpr hv))

theorem char_mem_alphabet {v : Nat} (hv : v < 64) : char v ∈ alphabet := by
  have hlength : alphabet.length = 64 := by decide
  apply List.idxOf_lt_length_iff.mp
  rw [idxOf_char hv, hlength]
  exact hv

/-- A character of the alphabet is the one of its number. -/
theorem char_idxOf {c : Char} (hc : c ∈ alphabet) :
    alphabet.idxOf c < 64 ∧ char (alphabet.idxOf c) = c := by
  have hlength : alphabet.length = 64 := by decide
  have hlt := List.idxOf_lt_length_iff.mpr hc
  refine ⟨hlength ▸ hlt, ?_⟩
  unfold char
  rw [List.getD_eq_getElem?_getD, List.getElem?_eq_getElem hlt, List.getElem_idxOf hlt,
    Option.getD_some]

theorem mem_alphabet_of_mem_encode {octets : Bytes} {c : Char} (hc : c ∈ encode octets) :
    c ∈ alphabet := by
  obtain ⟨v, hv⟩ := exists_value?_of_mem_encode hc
  obtain ⟨hlt, rfl⟩ := char_of_value? hv
  exact char_mem_alphabet hlt

/-! ### Writing -/

theorem sextets_cons (c : Char) (s : List Char) :
    sextets (c :: s) = bits 6 (alphabet.idxOf c) ++ sextets s := List.flatMap_cons

theorem sextets_char_cons {v : Nat} (hv : v < 64) (s : List Char) :
    sextets (char v :: s) = bits 6 v ++ sextets s := by
  rw [sextets_cons, idxOf_char hv]

theorem octetBits_cons (b : UInt8) (octets : Bytes) :
    octetBits (b :: octets) = bits 8 b.toNat ++ octetBits octets := List.flatMap_cons

/-- Where a character has the end of an octet and the start of another, its bits are those of
both. -/
theorem bits_joint (high low : Nat) {a b : Nat} (hb : b < 2 ^ low) (r : Nat)
    (hr : r = a % 2 ^ high * 2 ^ low + b) : bits (high + low) r = bits high a ++ bits low b := by
  subst hr
  have hpos : 0 < 2 ^ low := Nat.two_pow_pos low
  have hdiv : (a % 2 ^ high * 2 ^ low + b) / 2 ^ low = a % 2 ^ high := by
    rw [Nat.mul_comm, Nat.mul_add_div hpos, Nat.div_eq_of_lt hb, Nat.add_zero]
  rw [bits_add, hdiv, bits_eq_iff.mpr (Nat.mod_mod a _)]
  congr 1
  apply bits_eq_iff.mpr
  rw [Nat.mul_comm, Nat.mul_add_mod]

/-- **Writing spells the octets.** -/
theorem spells_encode : ∀ octets : Bytes, Spells (encode octets) octets
  | [] => ⟨nofun, 0, by decide, rfl⟩
  | [a] => by
    have ha := a.toNat_lt
    refine ⟨fun c hc => mem_alphabet_of_mem_encode hc, 4, by decide, ?_⟩
    have hsecond : bits 6 (a.toNat % 4 * 16) = bits 2 a.toNat ++ bits 4 0 :=
      bits_joint 2 4 (by decide) _ rfl
    rw [encode, sextets_char_cons (by omega), sextets_char_cons (by omega), octetBits_cons, hsecond,
      bits_add 6 2, List.append_assoc, List.append_assoc]
    rfl
  | [a, b] => by
    have ha := a.toNat_lt
    have hb := b.toNat_lt
    refine ⟨fun c hc => mem_alphabet_of_mem_encode hc, 2, by decide, ?_⟩
    have hsecond : bits 6 (a.toNat % 4 * 16 + b.toNat / 16) =
        bits 2 a.toNat ++ bits 4 (b.toNat / 16) := bits_joint 2 4 (by omega) _ rfl
    have hthird : bits 6 (b.toNat % 16 * 4) = bits 4 b.toNat ++ bits 2 0 :=
      bits_joint 4 2 (by decide) _ rfl
    rw [encode, sextets_char_cons (by omega), sextets_char_cons (by omega),
      sextets_char_cons (by omega), octetBits_cons, octetBits_cons, hsecond, hthird, bits_add 6 2,
      bits_add 4 4]
    simp only [List.append_assoc]
    rfl
  | a :: b :: c :: rest => by
    obtain ⟨-, left, hleft, hrest⟩ := spells_encode rest
    have ha := a.toNat_lt
    have hb := b.toNat_lt
    have hc := c.toNat_lt
    refine ⟨fun c hc => mem_alphabet_of_mem_encode hc, left, hleft, ?_⟩
    have hsecond : bits 6 (a.toNat % 4 * 16 + b.toNat / 16) =
        bits 2 a.toNat ++ bits 4 (b.toNat / 16) := bits_joint 2 4 (by omega) _ rfl
    have hthird : bits 6 (b.toNat % 16 * 4 + c.toNat / 64) =
        bits 4 b.toNat ++ bits 2 (c.toNat / 64) := bits_joint 4 2 (by omega) _ rfl
    have hfourth : bits 6 (c.toNat % 64) = bits 6 c.toNat := bits_eq_iff.mpr (Nat.mod_mod _ _)
    rw [encode, sextets_char_cons (by omega), sextets_char_cons (by omega),
      sextets_char_cons (by omega), sextets_char_cons (by omega), octetBits_cons, octetBits_cons,
      octetBits_cons, hrest, hsecond, hthird, hfourth, bits_add 6 2, bits_add 4 4, bits_add 2 6]
    simp only [List.append_assoc]
    rfl

/-! ### Reading -/

/-- Texts of the alphabet with the same bits are the same. -/
theorem sextets_injective : ∀ {s t : List Char}, (∀ c ∈ s, c ∈ alphabet) → (∀ c ∈ t, c ∈ alphabet) →
    sextets s = sextets t → s = t
  | [], [], _, _, _ => rfl
  | [], d :: t, _, _, h => by
    have hlength := congrArg List.length h
    simp [length_sextets] at hlength
  | c :: s, [], _, _, h => by
    have hlength := congrArg List.length h
    simp [length_sextets] at hlength
  | c :: s, d :: t, hs, ht, h => by
    obtain ⟨hc, hs⟩ := List.forall_mem_cons.mp hs
    obtain ⟨hd, ht⟩ := List.forall_mem_cons.mp ht
    obtain ⟨hclt, hchar⟩ := char_idxOf hc
    obtain ⟨hdlt, hchar'⟩ := char_idxOf hd
    rw [sextets_cons, sextets_cons] at h
    obtain ⟨hfirst, hrest⟩ := List.append_inj h (by simp)
    have hsame : alphabet.idxOf c = alphabet.idxOf d := by
      have hmod := bits_eq_iff.mp hfirst
      omega
    rw [sextets_injective hs ht hrest, ← hchar, ← hchar', hsame]

/-- **Octets have one text.** -/
theorem Spells.eq_encode {s : List Char} {octets : Bytes} (h : Spells s octets) :
    s = encode octets := by
  obtain ⟨hs, left, hleft, hbits⟩ := h
  obtain ⟨hs', left', hleft', hbits'⟩ := spells_encode octets
  apply sextets_injective hs hs'
  -- both fill up to a multiple of six
  have hlength := congrArg List.length hbits
  have hlength' := congrArg List.length hbits'
  simp only [List.length_append, List.length_replicate, length_sextets, length_octetBits]
    at hlength hlength'
  have hsame : left = left' := by omega
  rw [hbits, hbits', hsame]

/-- **Reading accepts the texts that spell octets**, and gives the octets. -/
theorem decode_eq_some_iff_spells {s : List Char} {octets : Bytes} :
    decode s = some octets ↔ Spells s octets := by
  rw [decode_eq_some_iff]
  constructor
  · rintro rfl
    exact spells_encode octets
  · exact Spells.eq_encode

end Base64Url
end WorkloadIdentity
