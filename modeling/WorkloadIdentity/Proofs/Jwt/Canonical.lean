/-
# Segments have one text

A segment is decoded if and only if its bits are those of octets with zeros behind them, so the
octets have no other text, and a token cannot be written in another way with the same header and
claims. Whatever a tolerant reader would let pass is refused: padding, the characters of the
other alphabet, blanks, a character too many, and bits that no octet has (`Base64Url.Malformed`).

Key definitions: `Base64Url.leftOver`, `Base64Url.Malformed`.
Key theorems: `Base64Url.Spells.not_malformed`, `JwtSvid.segment_text_canonical`.
-/
import WorkloadIdentity.Proofs.Jwt.Segment
import WorkloadIdentity.Proofs.Text.Bits

namespace WorkloadIdentity

namespace Base64Url

/-- The bits of a text behind the last whole octet. -/
def leftOver (s : List Char) : List Bool := (sextets s).drop ((sextets s).length / 8 * 8)

/-- What keeps a text from being the text of octets. -/
inductive Malformed (s : List Char) : Prop where
  | padded : '=' ∈ s → Malformed s
  /-- It is of the alphabet that has these two in place of `-` and `_`. -/
  | standard : '+' ∈ s ∨ '/' ∈ s → Malformed s
  | blank {c : Char} : c ∈ s → c.isWhitespace = true → Malformed s
  | stray {c : Char} : c ∈ s → c ∉ alphabet → Malformed s
  /-- The last group of four is a single character. -/
  | single : s.length % 4 = 1 → Malformed s
  /-- A bit that belongs to no octet is set. -/
  | leftOver : true ∈ leftOver s → Malformed s

theorem isWhitespace_of_mem_alphabet : ∀ c ∈ alphabet, c.isWhitespace = false :=
  forall_mem_of_all (by decide +kernel)

/-- Behind the last octet are only the zeros that fill the last group. -/
theorem Spells.eq_false_of_mem_leftOver {s : List Char} {octets : Bytes} (h : Spells s octets)
    {bit : Bool} (hbit : bit ∈ leftOver s) : bit = false := by
  obtain ⟨-, left, hleft, hbits⟩ := h
  have hwhole : (octetBits octets ++ List.replicate left false).length / 8 * 8 =
      (octetBits octets).length := by
    rw [List.length_append, List.length_replicate, length_octetBits]
    omega
  unfold leftOver at hbit
  rw [hbits, hwhole, List.drop_left] at hbit
  exact List.eq_of_mem_replicate hbit

/-- **The text of octets is not malformed.** -/
theorem Spells.not_malformed {s : List Char} {octets : Bytes} (h : Spells s octets) :
    ¬ Malformed s := by
  have hmem := h.1
  intro hmalformed
  cases hmalformed with
  | padded hpad => exact absurd (hmem _ hpad) (by decide)
  | standard hother =>
    rcases hother with hplus | hslash
    · exact absurd (hmem _ hplus) (by decide)
    · exact absurd (hmem _ hslash) (by decide)
  | blank hc hblank =>
    rw [isWhitespace_of_mem_alphabet _ (hmem _ hc)] at hblank
    cases hblank
  | stray hc hstray => exact hstray (hmem _ hc)
  | single hsingle =>
    -- a single character has six bits to fill up with, and fewer are left
    obtain ⟨-, left, hleft, hbits⟩ := h
    have hlength := congrArg List.length hbits
    rw [List.length_append, List.length_replicate, length_sextets, length_octetBits] at hlength
    omega
  | leftOver hbit => cases h.eq_false_of_mem_leftOver hbit

end Base64Url

namespace JwtSvid

theorem decodeSegment_eq_ok_iff_spells (s : List Char) (octets : Bytes) :
    decodeSegment s = .ok octets ↔ Base64Url.Spells s octets ∧ s.length ≤ maxSegmentLength := by
  rw [decodeSegment_eq_ok_iff, ← length_encode_le_iff, ← Base64Url.decode_eq_some_iff_spells,
    Base64Url.decode_eq_some_iff]
  constructor
  · rintro ⟨rfl, hlength⟩
    exact ⟨rfl, hlength⟩
  · rintro ⟨rfl, hlength⟩
    exact ⟨rfl, hlength⟩

/-- **Decoding a segment is strict, and its text is canonical.** A text that is not too long is
decoded if and only if it spells octets, bit by bit, and gives these; it is then just what they
are written as, a text that is malformed in any way is refused, and no other text is decoded to
the same octets. -/
theorem segment_text_canonical (s : List Char) :
    (∀ octets, decodeSegment s = .ok octets ↔
      Base64Url.Spells s octets ∧ s.length ≤ maxSegmentLength) ∧
    (∀ octets, decodeSegment s = .ok octets → s = Base64Url.encode octets) ∧
    (Base64Url.Malformed s → decodeSegment s = .error .invalidBase64) ∧
    ∀ t octets, decodeSegment s = .ok octets → decodeSegment t = .ok octets → s = t := by
  have hencode : ∀ t octets, decodeSegment t = .ok octets → t = Base64Url.encode octets :=
    fun t octets h => ((decodeSegment_eq_ok_iff t octets).mp h).1
  refine ⟨decodeSegment_eq_ok_iff_spells s, hencode s, fun hmalformed => ?_, fun t octets hs ht => ?_⟩
  · cases h : decodeSegment s with
    | error cause => rw [error_of_decodeSegment h]
    | ok octets =>
      exact absurd hmalformed ((decodeSegment_eq_ok_iff_spells s octets).mp h).1.not_malformed
  · rw [hencode s octets hs, hencode t octets ht]

/-- Of the texts that differ in the bits behind the only octet, one is decoded. -/
theorem segment_text_canonical_leftOver :
    decodeSegment ['_', 'w'] = .ok [0xff] ∧ Base64Url.encode [0xff] = ['_', 'w'] ∧
      decodeSegment ['_', 'x'] = .error .invalidBase64 := by
  have hdecoded : decodeSegment ['_', 'w'] = .ok [0xff] := by decide
  refine ⟨hdecoded, ((segment_text_canonical _).2.1 _ hdecoded).symm, ?_⟩
  exact (segment_text_canonical _).2.2.1 (.leftOver (by decide +kernel))

end JwtSvid
end WorkloadIdentity
