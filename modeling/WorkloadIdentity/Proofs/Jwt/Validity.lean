/-
# When a token is valid

A token says when it expires and may say when it was issued and from when on it
is valid. Times that no word of 64 bits can hold are moved to the nearest one
that can, and so are the bounds that they are compared with; for a clock that
shows a time of the calendar neither changes the outcome (`clampTime_le_iff`).
So for times in whole seconds, the clock values at which a token is accepted are
an interval: from a minute before the later of the two times at which it begins to
a minute after it expires (`JwtSvid.validity_window`). A token that expires in no
year of the calendar is refused at any time.

Key definitions: `JwtSvid.wholeDate?`, `JwtSvid.Dated`, `JwtSvid.HasCome`,
`JwtSvid.HasWindow`.
Key theorems: `JwtSvid.decode_of_dated`, `JwtSvid.validate_of_dated`,
`JwtSvid.validity_window`.
-/
import WorkloadIdentity.Proofs.Jwt.Decode

namespace WorkloadIdentity
namespace JwtSvid

/-! ### Times in whole seconds -/

/-- The time that a claim gives as an integer, if it gives one; nothing if what it
holds is no integer. A zero with a minus is kept as a double. -/
def wholeDate? (claims : Keyed Json) (claim : DateClaim) : Option (Option Int) :=
  match Keyed.find? claim.name claims with
  | none => some none
  | some .null => some none
  | some (.number (.integer t)) => some (some t)
  | some (.number (.real x)) => if x = .zero true then some (some 0) else none
  | some _ => none

/-- Zero has no other whole part, with either sign. -/
theorem truncate_zero (negative : Bool) : (Binary64.zero negative).truncate = 0 := by
  unfold Binary64.truncate Binary64.ratio Binary64.zero
  cases negative <;> simp

theorem date?_of_wholeDate? {claims : Keyed Json} {claim : DateClaim} {time : Option Int}
    (h : wholeDate? claims claim = some time) :
    date? claims claim = .ok (time.map clampTime) := by
  unfold wholeDate? at h
  unfold date?
  generalize Keyed.find? claim.name claims = member at h ⊢
  split at h
  · obtain rfl := Option.some.inj h
    rfl
  · obtain rfl := Option.some.inj h
    rfl
  · obtain rfl := Option.some.inj h
    rfl
  · split at h
    · rename_i hzero
      obtain rfl := Option.some.inj h
      rw [hzero]
      simp only [truncate_zero, Option.map_some]
    · cases h
  · cases h

/-- A bound between the least and the greatest word holds back the same times,
moved or not. -/
theorem clampTime_le_iff {t bound : Int} (hmin : minTime ≤ bound) (hmax : bound < maxTime) :
    clampTime t ≤ clampTime bound ↔ t ≤ bound := by
  unfold clampTime
  omega

theorem clampTime_of_mem {t : Int} (hmin : minTime ≤ t) (hmax : t ≤ maxTime) :
    clampTime t = t := by
  unfold clampTime
  omega

/-- The calendar has a time that is moved to a word if and only if it has the
time itself. -/
theorem clampTime_mem_expiryRange {t : Int} :
    expiryRange.1 ≤ clampTime t ∧ clampTime t ≤ expiryRange.2 ↔
      expiryRange.1 ≤ t ∧ t ≤ expiryRange.2 := by
  simp only [clampTime, expiryRange, minTime, maxTime]
  omega

/-! ### Tokens with times -/

/-- The header and the claims of a token say all that a token has to say to an audience,
and the claims give these times. Whether the calendar has the time of expiry, and whether
the token is valid at any time, is left open. -/
structure Dated (token : String) (expected : List String) (header claims : List Char)
    (read : JwtHeader) (members : Keyed Json) (expiry : Int) (notBefore issuedAt : Option Int) :
    Prop where
  splits : ∃ signature, Splits token header claims signature
  header : readHeader header = .ok read
  claims : readClaims claims = .ok members
  type : checkType read.type = .ok ()
  algorithm : ∃ algorithm, readAlgorithm read.algorithm = .ok algorithm
  subject : ∃ id, readSubject members = .ok id
  audience : audience? members = .ok (distinct expected)
  expiry : wholeDate? members .expiry = some (some expiry)
  notBefore : wholeDate? members .notBefore = some notBefore
  issuedAt : wholeDate? members .issuedAt = some issuedAt

/-- The calendar has the time. -/
def IsNamed (t : Int) : Prop := expiryRange.1 ≤ t ∧ t ≤ expiryRange.2

instance (t : Int) : Decidable (IsNamed t) := inferInstanceAs (Decidable (_ ∧ _))

/-- A time that clocks show, from 1970 on. -/
def IsClock (now : Int) : Prop := 0 ≤ now ∧ now ≤ expiryRange.2

instance (now : Int) : Decidable (IsClock now) := inferInstanceAs (Decidable (_ ∧ _))

/-- The time, if there is one, has come, give or take the leeway. -/
def HasCome (time : Option Int) (now : Int) : Prop := ∀ t ∈ time, t ≤ now + leeway

instance (time : Option Int) (now : Int) : Decidable (HasCome time now) :=
  inferInstanceAs (Decidable (∀ t ∈ time, t ≤ now + leeway))

variable {token : String} {expected : List String} {header claims : List Char}
  {read : JwtHeader} {members : Keyed Json} {expiry now : Int} {notBefore issuedAt : Option Int}

/-- A token that expires in a year of the calendar is decoded. -/
theorem decode_of_dated
    (h : Dated token expected header claims read members expiry notBefore issuedAt)
    (hnamed : IsNamed expiry) :
    ∃ svid, decode token = .ok svid ∧ svid.claims = members ∧ svid.expiry = expiry ∧
      svid.audience = distinct expected := by
  obtain ⟨signature, hsplit⟩ := h.splits
  obtain ⟨algorithm, halgorithm⟩ := h.algorithm
  obtain ⟨id, hid⟩ := h.subject
  have hclamp : clampTime expiry = expiry := by
    obtain ⟨hfirst, hlast⟩ := hnamed
    have hmin : minTime ≤ expiryRange.1 := by decide
    have hmax : expiryRange.2 ≤ maxTime := by decide
    exact clampTime_of_mem (hmin.trans hfirst) (hlast.trans hmax)
  have hdate : date? members .expiry = .ok (some expiry) := by
    rw [date?_of_wholeDate? h.expiry, Option.map_some, hclamp]
  have hexpiry : readExpiry members = .ok expiry := (readExpiry_eq_ok_iff _ _).mpr ⟨hdate, hnamed⟩
  refine ⟨⟨id, none, expiry, distinct expected, members, read.keyId, algorithm, token⟩, ?_,
    rfl, rfl, rfl⟩
  rw [decode_of_splits hsplit h.header h.claims]
  exact (ofParts_eq_ok_iff _ _ _ _).mpr
    ⟨h.type, halgorithm, hid, hexpiry, h.audience, rfl, rfl, rfl, rfl⟩

/-- A token that expires in no year of the calendar is not. -/
theorem decode_of_not_named
    (h : Dated token expected header claims read members expiry notBefore issuedAt)
    (hnamed : ¬ IsNamed expiry) : decode token = .error (.invalidTimestamp .expiry) := by
  obtain ⟨signature, hsplit⟩ := h.splits
  obtain ⟨algorithm, halgorithm⟩ := h.algorithm
  obtain ⟨id, hid⟩ := h.subject
  have hclamp : ¬ (expiryRange.1 ≤ clampTime expiry ∧ clampTime expiry ≤ expiryRange.2) :=
    mt clampTime_mem_expiryRange.mp hnamed
  have hexpiry : readExpiry members = .error (.invalidTimestamp .expiry) := by
    unfold readExpiry
    rw [date?_of_wholeDate? h.expiry]
    exact if_neg hclamp
  rw [decode_of_splits hsplit h.header h.claims]
  unfold ofParts
  simp only [h.type, halgorithm, hid, hexpiry, bind, Except.bind]

/-! ### Checks -/

theorem checkBegun_of_wholeDate? {claims : Keyed Json} {claim : DateClaim} {time : Option Int}
    (htime : wholeDate? claims claim = some time) (hnow : IsClock now) (refusal : JwtError) :
    checkBegun claims claim now refusal =
      if HasCome time now then .ok () else .error refusal := by
  obtain ⟨hfirst, hlast⟩ := hnow
  have hmin : minTime ≤ now + leeway := by
    simp only [minTime, leeway]
    omega
  have hmax : now + leeway < maxTime := by
    simp only [maxTime, leeway, expiryRange] at hlast ⊢
    omega
  unfold checkBegun
  rw [date?_of_wholeDate? htime]
  cases time with
  | none => rfl
  | some t =>
    have hcome : HasCome (some t) now ↔ clampTime t ≤ clampTime (now + leeway) := by
      rw [clampTime_le_iff hmin hmax]
      exact ⟨fun h => h t rfl, fun h s hs => Option.some.inj hs ▸ h⟩
    simp only [hcome]
    rfl

theorem checkUnexpired_of_clock (expiry : Int) (hnow : IsClock now) :
    checkUnexpired expiry now = if now - leeway ≤ expiry then .ok () else .error .expired := by
  obtain ⟨hfirst, hlast⟩ := hnow
  have hclamp : clampTime (now - leeway) = now - leeway := by
    simp only [expiryRange] at hlast
    apply clampTime_of_mem
    · simp only [minTime, leeway]
      omega
    · simp only [maxTime, leeway]
      omega
  rw [checkUnexpired, hclamp]

/-- The checks of a token that is decoded, one in the other. -/
theorem parseInsecure_of_dated
    (h : Dated token expected header claims read members expiry notBefore issuedAt)
    (hnamed : IsNamed expiry) :
    ∃ svid, ∀ now, IsClock now → parseInsecure token expected now =
      if HasCome notBefore now then
        if now - leeway ≤ expiry then
          if HasCome issuedAt now then .ok svid else .error .issuedInTheFuture
        else .error .expired
      else .error .notYetValid := by
  obtain ⟨svid, hdecode, hclaims, hexpiry, haudience⟩ := decode_of_dated h hnamed
  refine ⟨svid, fun now hnow => ?_⟩
  unfold parseInsecure validate
  simp only [hdecode, hclaims, hexpiry, haudience, bind, Except.bind, checkAudience, if_true,
    checkBegun_of_wholeDate? h.notBefore hnow, checkUnexpired_of_clock expiry hnow,
    checkBegun_of_wholeDate? h.issuedAt hnow]
  by_cases hnbf : HasCome notBefore now
  · by_cases hexp : now - leeway ≤ expiry
    · by_cases hiat : HasCome issuedAt now
      · simp only [if_pos hnbf, if_pos hexp, if_pos hiat]
        rfl
      · simp only [if_pos hnbf, if_pos hexp, if_neg hiat]
    · simp only [if_pos hnbf, if_neg hexp]
  · simp only [if_neg hnbf]

/-! ### The window -/

/-- What a reading gives at a time is settled by the times that a token gives: it is
accepted in one interval, and before and after that refused for the first of the times that
is against it. -/
structure HasWindow (reading : Int → Except JwtError JwtSvid) (expiry : Int)
    (notBefore issuedAt : Option Int) : Prop where
  /-- An expiry that the calendar does not have is refused at any time. -/
  unnamed : ¬ IsNamed expiry → ∀ now, reading now = .error (.invalidTimestamp .expiry)
  accepts : IsNamed expiry → ∀ now, IsClock now → ((∃ svid, reading now = .ok svid) ↔
    HasCome notBefore now ∧ now - leeway ≤ expiry ∧ HasCome issuedAt now)
  notYetValid : IsNamed expiry → ∀ now, IsClock now → ¬ HasCome notBefore now →
    reading now = .error .notYetValid
  expired : IsNamed expiry → ∀ now, IsClock now → HasCome notBefore now →
    expiry < now - leeway → reading now = .error .expired
  issuedInTheFuture : IsNamed expiry → ∀ now, IsClock now → HasCome notBefore now →
    now - leeway ≤ expiry → ¬ HasCome issuedAt now → reading now = .error .issuedInTheFuture
  /-- Between two times at which it is accepted it is accepted throughout. -/
  interval : ∀ first now last, first ≤ now → now ≤ last → IsClock first → IsClock last →
    (∃ svid, reading first = .ok svid) → (∃ svid, reading last = .ok svid) →
    ∃ svid, reading now = .ok svid

/-- What has come does not go. -/
theorem HasCome.mono {time : Option Int} {now later : Int} (h : HasCome time now)
    (hle : now ≤ later) : HasCome time later := by
  intro t ht
  have := h t ht
  omega

/-- **The window of a token is exact.** A token whose times are integers, however large or
small, is accepted at just the times from a minute before it begins to a minute after it
expires. -/
theorem validity_window
    (h : Dated token expected header claims read members expiry notBefore issuedAt) :
    HasWindow (parseInsecure token expected) expiry notBefore issuedAt := by
  have haccepts : IsNamed expiry → ∀ now, IsClock now →
      ((∃ svid, parseInsecure token expected now = .ok svid) ↔
        HasCome notBefore now ∧ now - leeway ≤ expiry ∧ HasCome issuedAt now) := by
    intro hnamed now hnow
    obtain ⟨svid, hread⟩ := parseInsecure_of_dated h hnamed
    rw [hread now hnow]
    simp only [ok_of_test]
    constructor
    · rintro ⟨_, hnbf, hexp, hiat, -⟩
      exact ⟨hnbf, hexp, hiat⟩
    · rintro ⟨hnbf, hexp, hiat⟩
      exact ⟨svid, hnbf, hexp, hiat, rfl⟩
  have hunnamed : ¬ IsNamed expiry →
      ∀ now, parseInsecure token expected now = .error (.invalidTimestamp .expiry) := by
    intro hnamed now
    unfold parseInsecure
    rw [decode_of_not_named h hnamed]
    rfl
  constructor
  case unnamed => exact hunnamed
  case accepts => exact haccepts
  case notYetValid =>
    intro hnamed now hnow hnbf
    obtain ⟨svid, hread⟩ := parseInsecure_of_dated h hnamed
    rw [hread now hnow, if_neg hnbf]
  case expired =>
    intro hnamed now hnow hnbf hexp
    obtain ⟨svid, hread⟩ := parseInsecure_of_dated h hnamed
    rw [hread now hnow, if_pos hnbf, if_neg (Int.not_le.mpr hexp)]
  case issuedInTheFuture =>
    intro hnamed now hnow hnbf hexp hiat
    obtain ⟨svid, hread⟩ := parseInsecure_of_dated h hnamed
    rw [hread now hnow, if_pos hnbf, if_pos hexp, if_neg hiat]
  case interval =>
    intro first now last hle hle' hclock hclock' hread hread'
    have hnamed : IsNamed expiry := by
      by_contra hnamed
      obtain ⟨svid, hread⟩ := hread
      cases (hunnamed hnamed first).symm.trans hread
    have hnow : IsClock now := ⟨hclock.1.trans hle, hle'.trans hclock'.2⟩
    -- begun since the first of the two times, and not expired until the last
    obtain ⟨hnbf, -, hiat⟩ := (haccepts hnamed first hclock).mp hread
    obtain ⟨-, hexp, -⟩ := (haccepts hnamed last hclock').mp hread'
    refine (haccepts hnamed now hnow).mpr ⟨hnbf.mono hle, ?_, hiat.mono hle⟩
    omega

/-- The claims of a token that is valid since the least time there is, was issued at
1700000000 and expires at 1700000300. -/
def agelessClaims : String :=
  "eyJzdWIiOiJzcGlmZmU6Ly9leGFtcGxlLm9yZy9zZXJ2aWNlIiwiYXVkIjpbImF1ZGllbmNlIl0sImV4cCI6M" ++
    "TcwMDAwMDMwMCwibmJmIjotOTIyMzM3MjAzNjg1NDc3NTgwOCwiaWF0IjoxNzAwMDAwMDAwfQ"

/-- A token with these claims. -/
def agelessToken : String := "eyJhbGciOiJSUzI1NiJ9." ++ agelessClaims ++ "."

theorem dated_agelessToken : ∃ members, Dated agelessToken ["audience"]
    "eyJhbGciOiJSUzI1NiJ9".toList agelessClaims.toList ⟨none, none, "RS256"⟩ members 1700000300
    (some (-9223372036854775808)) (some 1700000000) := by
  have htimes : (readClaims agelessClaims.toList).toOption.map (fun members =>
      (wholeDate? members .expiry, wholeDate? members .notBefore, wholeDate? members .issuedAt)) =
      some (some (some 1700000300), some (some (-9223372036854775808)),
        some (some 1700000000)) := by
    decide +kernel
  have hnames : (readClaims agelessClaims.toList).toOption.map (fun members =>
      ((readSubject members).toOption, (audience? members).toOption)) =
      some (some ⟨"spiffe://example.org/service", 20⟩, some ["audience"]) := by
    decide +kernel
  obtain ⟨members, hmembers, htimes⟩ := Option.map_eq_some_iff.mp htimes
  rw [hmembers, Option.map_some, Option.some.injEq] at hnames
  simp only [Prod.mk.injEq] at htimes hnames
  obtain ⟨hexp, hnbf, hiat⟩ := htimes
  obtain ⟨hid, haud⟩ := hnames
  exact ⟨members, ⟨[], (splitOn_eq_iff _ _ _ _).mp (by decide +kernel)⟩,
    ok_of_result.mp (by decide +kernel), ok_of_result.mp hmembers, by decide,
    ⟨.rs256, by decide⟩, ⟨_, ok_of_result.mp hid⟩, ok_of_result.mp haud, hexp, hnbf, hiat⟩

/-- The window of the token opens a minute before it is issued and closes a minute after
it expires, to the second. -/
theorem validity_window_ageless :
    HasWindow (parseInsecure agelessToken ["audience"]) 1700000300
      (some (-9223372036854775808)) (some 1700000000) ∧
    parseInsecure agelessToken ["audience"] 1699999939 = .error .issuedInTheFuture ∧
    (∃ svid, parseInsecure agelessToken ["audience"] 1699999940 = .ok svid) ∧
    (∃ svid, parseInsecure agelessToken ["audience"] 1700000360 = .ok svid) ∧
    parseInsecure agelessToken ["audience"] 1700000361 = .error .expired := by
  obtain ⟨members, hdated⟩ := dated_agelessToken
  have hwindow := validity_window hdated
  have hnamed : IsNamed 1700000300 := by decide
  refine ⟨hwindow, ?_, ?_, ?_, ?_⟩
  · exact hwindow.issuedInTheFuture hnamed _ (by decide) (by decide) (by decide) (by decide)
  · exact (hwindow.accepts hnamed _ (by decide)).mpr (by decide)
  · exact (hwindow.accepts hnamed _ (by decide)).mpr (by decide)
  · exact hwindow.expired hnamed _ (by decide) (by decide) (by decide)

end JwtSvid
end WorkloadIdentity
