/-
# How long a segment may be

Header and claims are segments, and a segment is refused for its size by its
characters, before it is decoded. The greatest number of characters is four
thirds of the greatest number of octets, and four more to be sure. Octets are
written with four thirds as many characters, rounded up, so the four are more
than the rounding takes: a segment of one or two octets above the greatest number
is decoded as well, and three are too many.

Key theorems: `JwtSvid.length_encode_le_iff`, `JwtSvid.decodeSegment_eq_ok_iff`,
`JwtSvid.segment_size_bound`.
-/
import WorkloadIdentity.Jwt.Svid
import WorkloadIdentity.Proofs.Text.Base64Url

namespace WorkloadIdentity
namespace JwtSvid

/-- A segment is refused for no other cause than that it is none. -/
theorem error_of_decodeSegment {s : List Char} {e : JwtError} (h : decodeSegment s = .error e) :
    e = .invalidBase64 := by
  unfold decodeSegment at h
  split at h
  · exact (Except.error.inj h).symm
  · split at h
    · cases h
    · exact (Except.error.inj h).symm

/-- The octets whose text is no longer than a segment may be. -/
theorem length_encode_le_iff (octets : Bytes) :
    (Base64Url.encode octets).length ≤ maxSegmentLength ↔ octets.length ≤ maxSegmentSize + 2 := by
  have hlength : maxSegmentLength = 87385 := by decide
  have hsize : maxSegmentSize = 65536 := by decide
  rw [Base64Url.length_encode, hlength, hsize]
  omega

theorem decodeSegment_eq_ok_iff (s : List Char) (octets : Bytes) :
    decodeSegment s = .ok octets ↔
      s = Base64Url.encode octets ∧ octets.length ≤ maxSegmentSize + 2 := by
  unfold decodeSegment
  constructor
  · intro h
    split at h
    · cases h
    rename_i hlength
    split at h
    · rename_i read hread
      obtain rfl := Except.ok.inj h
      obtain rfl := Base64Url.eq_encode_of_decode hread
      exact ⟨rfl, (length_encode_le_iff _).mp (Nat.not_lt.mp hlength)⟩
    · cases h
  · rintro ⟨rfl, hsize⟩
    have hlength := (length_encode_le_iff octets).mpr hsize
    rw [if_neg (Nat.not_lt.mpr hlength), Base64Url.decode_encode]

/-- **The bound on a segment is two octets above the greatest number.** The text of octets is
decoded if and only if there are no more of them than that, so the greatest number is the bound
for all but those that are one or two above it; and no segment, whether or not it is such a text,
is decoded to more. -/
theorem segment_size_bound (octets : Bytes) (s : List Char) :
    ((∃ read, decodeSegment (Base64Url.encode octets) = .ok read) ↔
      octets.length ≤ maxSegmentSize + 2) ∧
    (((∃ read, decodeSegment (Base64Url.encode octets) = .ok read) ↔
        octets.length ≤ maxSegmentSize) ↔
      octets.length ≠ maxSegmentSize + 1 ∧ octets.length ≠ maxSegmentSize + 2) ∧
    (decodeSegment s = .ok octets → octets.length ≤ maxSegmentSize + 2) := by
  have hdecoded : (∃ read, decodeSegment (Base64Url.encode octets) = .ok read) ↔
      octets.length ≤ maxSegmentSize + 2 := by
    constructor
    · rintro ⟨read, h⟩
      obtain ⟨hsame, hsize⟩ := (decodeSegment_eq_ok_iff _ _).mp h
      -- octets have one text each
      have hread : some octets = some read := by
        rw [← Base64Url.decode_encode octets, hsame, Base64Url.decode_encode]
      rw [Option.some.inj hread]
      exact hsize
    · intro hsize
      exact ⟨octets, (decodeSegment_eq_ok_iff _ _).mpr ⟨rfl, hsize⟩⟩
  refine ⟨hdecoded, ?_, fun h => ((decodeSegment_eq_ok_iff _ _).mp h).2⟩
  rw [hdecoded]
  omega

/-- One blank more than the greatest number of octets is decoded. -/
theorem segment_size_bound_exceeded :
    let blanks : Bytes := List.replicate 65537 0x20
    blanks.length = maxSegmentSize + 1 ∧
      decodeSegment (Base64Url.encode blanks) = .ok blanks := by
  intro blanks
  have hlength : blanks.length = maxSegmentSize + 1 := List.length_replicate
  refine ⟨hlength, (decodeSegment_eq_ok_iff _ _).mpr ⟨rfl, ?_⟩⟩
  omega

end JwtSvid
end WorkloadIdentity
