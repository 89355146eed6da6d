/-
# Times with a fraction

The fraction of a time is cut off before the time is compared, which moves a number
toward zero. For a clock after 1970 a token is so accepted up to a second too early: a
time at which it begins passes if it is below the whole number after the last one that
should pass (`JwtSvid.latest`). A time of expiry before 1970 passes up to a second too
long (`JwtSvid.earliest`). All other times are held to the leeway.

This is said of times as they are written (`JwtSvid.Writes`). Reading one changes it a
little, by less than a thousandth of a second if the calendar has it.

Key definitions: `JwtSvid.ClaimsOf`, `JwtSvid.Writes`, `JwtSvid.latest`, `JwtSvid.earliest`.
Key theorems: `JwtSvid.writes_of_decode`, `JwtSvid.fractional_dates`.
-/
import WorkloadIdentity.Proofs.Json.Written
import WorkloadIdentity.Proofs.Jwt.Segment
import WorkloadIdentity.Proofs.Jwt.Validity
import WorkloadIdentity.Proofs.Jwt.Vouched
import WorkloadIdentity.Proofs.Text.Utf8

namespace WorkloadIdentity
namespace JwtSvid

open Json (Number Numeral Near)

/-! ### What a token writes -/

/-- The text of a token's claims, and the members that are read from it. -/
structure ClaimsOf (token : String) (text : String) (members : Keyed Json) : Prop where
  segment : ∃ header claims signature octets, Splits token header claims signature ∧
    decodeSegment claims = .ok octets ∧ Utf8.decode octets = some text
  members : Json.parseText text.toList = some (.object members)

/-- A claim of the token holds a number that its text writes as the numeral. -/
def Writes (token : String) (claim : DateClaim) (t : Numeral) : Prop :=
  ∃ text members n, ClaimsOf token text members ∧
    Keyed.find? claim.name members = some (.number n) ∧ t.StandsIn text.toList ∧
    t.value? = some n

variable {token : String} {svid : JwtSvid}

theorem claimsOf_of_decode (h : decode token = .ok svid) :
    ∃ text, ClaimsOf token text svid.claims := by
  obtain ⟨header, claims, signature, read, hsplit, hcarries⟩ := (decode_eq_ok_iff _ _).mp h
  obtain ⟨octets, hsegment, hparse⟩ := hcarries.claims
  obtain ⟨text, htext, hmembers⟩ := Option.bind_eq_some_iff.mp hparse
  exact ⟨text, ⟨header, claims, signature, octets, hsplit, hsegment, htext⟩, hmembers⟩

theorem ClaimsOf.unique {text text' : String} {members members' : Keyed Json}
    (h : ClaimsOf token text members) (h' : ClaimsOf token text' members') :
    text = text' ∧ members = members' := by
  obtain ⟨header, claims, signature, octets, hsplit, hsegment, htext⟩ := h.segment
  obtain ⟨header', claims', signature', octets', hsplit', hsegment', htext'⟩ := h'.segment
  have hsame := ((splitOn_eq_iff _ _ _ _).mpr hsplit).symm.trans
    ((splitOn_eq_iff _ _ _ _).mpr hsplit')
  simp only [List.cons.injEq] at hsame
  obtain ⟨-, rfl, -⟩ := hsame
  obtain rfl := Except.ok.inj (hsegment.symm.trans hsegment')
  obtain rfl := Option.some.inj (htext.symm.trans htext')
  have hmembers := Option.some.inj (h.members.symm.trans h'.members)
  exact ⟨rfl, Json.object.inj hmembers⟩

/-- The text of claims is no longer than a segment. -/
theorem ClaimsOf.length_lt {text : String} {members : Keyed Json}
    (h : ClaimsOf token text members) : text.toList.length < 2 ^ 30 := by
  obtain ⟨header, claims, signature, octets, hsplit, hsegment, htext⟩ := h.segment
  have hsize := ((decodeSegment_eq_ok_iff _ _).mp hsegment).2
  have hlength := Utf8.length_le_encode text
  rw [Utf8.encode_of_decode htext] at hlength
  simp only [maxSegmentSize] at hsize
  omega

/-- Every number that a claim holds is written somewhere. -/
theorem writes_of_decode (h : decode token = .ok svid) {claim : DateClaim} {n : Number}
    (hn : Keyed.find? claim.name svid.claims = some (.number n)) : ∃ t, Writes token claim t := by
  obtain ⟨text, hclaims⟩ := claimsOf_of_decode h
  have hholds : Json.Holds (.object svid.claims) n := .member hn (.self n)
  obtain ⟨t, hstands, hvalue⟩ := Json.isWritten_of_parseText hclaims.members hholds
  exact ⟨t, text, svid.claims, n, hclaims, hn, hstands, hvalue⟩

/-- The number that a claim holds is near to the one that is written. -/
theorem near_of_writes (h : decode token = .ok svid) {claim : DateClaim} {t : Numeral}
    (ht : Writes token claim t) :
    ∃ n : Number, Keyed.find? claim.name svid.claims = some (.number n) ∧ Near n.toRat t.exact := by
  obtain ⟨text, members, n, hclaims, hfind, hstands, hvalue⟩ := ht
  obtain ⟨text', hclaims'⟩ := claimsOf_of_decode h
  obtain ⟨-, rfl⟩ := hclaims.unique hclaims'
  exact ⟨n, hfind, Numeral.value?_near (Json.isSane_of_standsIn hstands hclaims.length_lt) hvalue⟩

/-! ### What passes -/

/-- Numbers below this are cut off to at most the bound; for a negative bound this one is
as well. -/
def latest (bound : Int) : Int := if 0 ≤ bound then bound + 1 else bound

/-- Numbers above this are cut off to at least the bound; for a positive bound this one is
as well. -/
def earliest (bound : Int) : Int := if 0 < bound then bound else bound - 1

theorem date?_of_number {claims : Keyed Json} {claim : DateClaim} {n : Number}
    (h : Keyed.find? claim.name claims = some (.number n)) :
    date? claims claim = .ok (some (clampTime n.whole)) := by
  unfold date?
  rw [h]
  cases n <;> rfl

variable {now : Int}

/-- A time that is a number has come if its whole part has. -/
theorem begun_iff {claims : Keyed Json} {claim : DateClaim} {n : Number} (hnow : IsNamed now)
    (h : Keyed.find? claim.name claims = some (.number n)) :
    Begun claims claim now ↔
      if 0 ≤ now + leeway then n.toRat < (now + leeway : Int) + 1
      else n.toRat ≤ (now + leeway : Int) := by
  rw [← Number.whole_le_iff]
  obtain ⟨hfirst, hlast⟩ := hnow
  simp only [expiryRange] at hfirst hlast
  have hbound : clampTime n.whole ≤ clampTime (now + leeway) ↔ n.whole ≤ now + leeway := by
    apply clampTime_le_iff
    · simp only [minTime, leeway]
      omega
    · simp only [maxTime, leeway]
      omega
  rw [← hbound]
  unfold Begun
  rw [date?_of_number h]
  constructor
  · rintro ⟨time, htime, hcome⟩
    obtain rfl := Except.ok.inj htime
    exact hcome _ rfl
  · intro hcome
    refine ⟨_, rfl, ?_⟩
    intro t ht
    obtain rfl := Option.some.inj ht
    exact hcome

/-- A time of expiry that is a number has not passed if its whole part has not. -/
theorem unexpired_iff {expiry : Int} {n : Number} (hnow : IsNamed now)
    (h : expiry = clampTime n.whole) :
    clampTime (now - leeway) ≤ expiry ↔
      if 0 < now - leeway then (now - leeway : Int) ≤ n.toRat
      else (now - leeway : Int) - 1 < n.toRat := by
  rw [← Number.le_whole_iff, h]
  obtain ⟨hfirst, hlast⟩ := hnow
  simp only [expiryRange] at hfirst hlast
  unfold clampTime minTime maxTime leeway
  omega

/-- What is at most a bound of the calendar was written at most a thousandth above it. -/
theorem lt_of_near {q v b : ℚ} (h : Near q v) (hb : |b| ≤ 400000000000) (hq : q ≤ b) :
    v < b + 1 / 1000 := by
  obtain ⟨hlow, hhigh⟩ := abs_le.mp hb
  have hlittle : (2 : ℚ) ^ (-900 : Int) ≤ 1 / 2 ^ 20 := by
    calc (2 : ℚ) ^ (-900 : Int) ≤ 2 ^ (-20 : Int) := Binary64.zpow_le_zpow (by decide)
      _ = 1 / 2 ^ 20 := by norm_num
  have herror := (abs_le.mp h).1
  rcases le_total 0 v with hv | hv
  · rw [abs_of_nonneg hv] at herror
    linarith
  · rw [abs_of_nonpos hv] at herror
    linarith

/-- What is at least a bound of the calendar was written at most a thousandth below it. -/
theorem gt_of_near {q v b : ℚ} (h : Near q v) (hb : |b| ≤ 400000000000) (hq : b ≤ q) :
    b - 1 / 1000 < v := by
  have hneg := lt_of_near h.neg ((abs_neg b).trans_le hb) (neg_le_neg hq)
  linarith

/-- **A fraction moves a time by less than a second.** A time of an accepted token that is a
number is written in its claims; and however it is written, a time at which the token begins
is below `latest`, and the time of expiry above `earliest`, but for the little that reading
changes. -/
theorem fractional_dates {expected : List String} (hnow : IsNamed now)
    (h : parseInsecure token expected now = .ok svid) :
    (∀ claim n, Keyed.find? (DateClaim.name claim) svid.claims = some (.number n) →
      ∃ t, Writes token claim t) ∧
    (∀ claim t, claim ≠ .expiry → Writes token claim t →
      t.exact < latest (now + leeway) + 1 / 1000) ∧
    ∀ t, Writes token .expiry t → earliest (now - leeway) - 1 / 1000 < t.exact := by
  have hdecode := decode_of_parseInsecure h
  have hvalid := holds_of_parseInsecure h
  have hcalendar := hnow
  obtain ⟨hfirst, hlast⟩ := hcalendar
  simp only [expiryRange] at hfirst hlast
  refine ⟨fun claim n hn => writes_of_decode hdecode hn, ?_, ?_⟩
  · intro claim t hne ht
    obtain ⟨n, hn, hnear⟩ := near_of_writes hdecode ht
    have hbegun : Begun svid.claims claim now := by
      cases claim with
      | expiry => exact absurd rfl hne
      | notBefore => exact hvalid.notBefore
      | issuedAt => exact hvalid.issuedAt
    have hle : n.toRat ≤ latest (now + leeway) := by
      have hpasses := (begun_iff hnow hn).mp hbegun
      unfold latest
      split_ifs at hpasses ⊢
      · push_cast at hpasses ⊢
        exact hpasses.le
      · exact hpasses
    have hbound : |latest (now + leeway)| ≤ 400000000000 := by
      unfold latest leeway
      rw [abs_le]
      omega
    exact lt_of_near hnear (by exact_mod_cast hbound) hle
  · intro t ht
    obtain ⟨n, hn, hnear⟩ := near_of_writes hdecode ht
    have hexpiry : svid.expiry = clampTime n.whole := by
      obtain ⟨_, _, _, _, -, hcarries⟩ := (decode_eq_ok_iff _ _).mp hdecode
      have hdate := hcarries.expiry.1.symm.trans (date?_of_number hn)
      exact Option.some.inj (Except.ok.inj hdate)
    have hle : earliest (now - leeway) ≤ n.toRat := by
      have hpasses := (unexpired_iff hnow hexpiry).mp hvalid.unexpired
      unfold earliest
      split_ifs at hpasses ⊢
      · exact hpasses
      · push_cast at hpasses ⊢
        exact hpasses.le
    have hbound : |earliest (now - leeway)| ≤ 400000000000 := by
      unfold earliest leeway
      rw [abs_le]
      omega
    exact gt_of_near hnear (by exact_mod_cast hbound) hle

/-- The claims of a token that begins at half a second past 1700000060 and expires at
1700000300. -/
def halfClaims : String :=
  "eyJzdWIiOiJzcGlmZmU6Ly9leGFtcGxlLm9yZy9zZXJ2aWNlIiwiYXVkIjpbImF1ZGllbmNlIl0sImV4cCI6M" ++
    "TcwMDAwMDMwMCwibmJmIjoxNzAwMDAwMDYwLjV9"

/-- A token with these claims. -/
def halfToken : String := "eyJhbGciOiJSUzI1NiJ9." ++ halfClaims ++ ".c2ln"

/-- The time at which it begins, as written. -/
def halfPast : Numeral := ⟨false, [1, 7, 0, 0, 0, 0, 0, 0, 6, 0], some [5], none⟩

theorem halfPast_exact : halfPast.exact = 1700000060 + 1 / 2 := by
  norm_num [halfPast, Numeral.exact, Numeral.magnitude, Json.decimal, Json.decimalFrom]

theorem halfToken_accepted :
    ∃ svid, parseInsecure halfToken ["audience"] 1700000000 = .ok svid := by
  have h : (parseInsecure halfToken ["audience"] 1700000000).toOption.isSome = true := by
    decide +kernel
  obtain ⟨svid, hsvid⟩ := Option.isSome_iff_exists.mp h
  exact ⟨svid, ok_of_result.mp hsvid⟩

/-- The number that a claim holds, if it is a number. -/
def numberOf? (claim : DateClaim) : Json → Option Number
  | .object members => match Keyed.find? claim.name members with
    | some (.number n) => some n
    | _ => none
  | _ => none

theorem find?_of_numberOf? {claim : DateClaim} {value : Json} {n : Number}
    (h : numberOf? claim value = some n) :
    ∃ members, value = .object members ∧ Keyed.find? claim.name members = some (.number n) := by
  unfold numberOf? at h
  split at h
  · split at h
    · rename_i members _ m hfind
      obtain rfl := Option.some.inj h
      exact ⟨members, rfl, hfind⟩
    · cases h
  · cases h

theorem halfToken_writes : Writes halfToken .notBefore halfPast := by
  have htext : ((decodeSegment halfClaims.toList).toOption.bind Utf8.decode).map (fun text =>
      ((Json.readNumeral (text.toList.drop 80)).map (·.1),
        (Json.parseText text.toList).bind (numberOf? .notBefore))) =
      some (some halfPast, halfPast.value?) := by
    decide +kernel
  obtain ⟨n, hn⟩ : ∃ n, halfPast.value? = some n := Option.isSome_iff_exists.mp (by decide +kernel)
  rw [hn] at htext
  obtain ⟨text, hdecoded, htext⟩ := Option.map_eq_some_iff.mp htext
  obtain ⟨octets, hsegment, hdecoded⟩ := Option.bind_eq_some_iff.mp hdecoded
  obtain ⟨hread, hnumber⟩ := Prod.mk.inj htext
  obtain ⟨⟨t, rest⟩, hread, rfl⟩ := Option.map_eq_some_iff.mp hread
  obtain ⟨value, hparse, hnumber⟩ := Option.bind_eq_some_iff.mp hnumber
  obtain ⟨members, rfl, hfind⟩ := find?_of_numberOf? hnumber
  have hsplit : Splits halfToken "eyJhbGciOiJSUzI1NiJ9".toList halfClaims.toList "c2ln".toList :=
    (splitOn_eq_iff _ _ _ _).mp (by decide +kernel)
  exact ⟨text, members, n, ⟨⟨_, _, _, octets, hsplit, ok_of_result.mp hsegment, hdecoded⟩, hparse⟩,
    hfind, ⟨_, rest, List.drop_suffix _ _, hread⟩, hn⟩

/-- It is accepted more than a minute before it begins. -/
theorem fractional_dates_passed :
    Writes halfToken .notBefore halfPast ∧ (1700000000 + leeway : Int) < halfPast.exact ∧
      ∃ svid, parseInsecure halfToken ["audience"] 1700000000 = .ok svid := by
  refine ⟨halfToken_writes, ?_, halfToken_accepted⟩
  rw [halfPast_exact]
  norm_num [leeway]

/-- But not a second more. -/
theorem fractional_dates_half :
    IsNamed 1700000000 ∧ (∃ svid, parseInsecure halfToken ["audience"] 1700000000 = .ok svid) ∧
      Writes halfToken .notBefore halfPast ∧
      halfPast.exact < latest (1700000000 + leeway) + 1 / 1000 ∧
      latest (1700000000 + leeway) = 1700000061 := by
  have hnow : IsNamed 1700000000 := by decide
  obtain ⟨svid, h⟩ := halfToken_accepted
  have hlate := (fractional_dates hnow h).2.1 .notBefore halfPast (by decide) halfToken_writes
  exact ⟨hnow, halfToken_accepted, halfToken_writes, hlate, rfl⟩

end JwtSvid
end WorkloadIdentity
