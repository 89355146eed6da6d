/-
# Certificates one after the other

A certificate ends by itself, so octets are those of certificates one after the
other in one way or in none. `Certificate.IsWhole` is a certificate whose octets
have nothing behind it, and taking octets apart gives the whole certificates
that make them up, if there are any such (`Certificate.readList_eq_ok_iff`). A
bound on how many there may be changes nothing as long as it is kept. Every
round takes an octet at least, so there are never more rounds than octets
(`Certificate.readListFrom_of_le`), and octets that cannot be taken apart have a
rest that begins with no certificate (`Certificate.readListFrom_none_cases`).

Of how a certificate is read nothing is used but that it is one element, which
says how long it is (`Der.Reader.framed_sequence`).

Key definitions: `Certificate.IsWhole`.
Key theorems: `Certificate.isWhole_iff_of_parse`,
`Certificate.readFirst_eq_some_iff`, `Certificate.readListFrom_eq_ok_iff`,
`Certificate.readList_eq_ok_iff`, `Certificate.concatenation_exact`.
-/
import WorkloadIdentity.Proofs.Der.Framing
import WorkloadIdentity.Proofs.Outcome
import WorkloadIdentity.X509.Svid

namespace WorkloadIdentity
namespace Certificate

/-! ### One certificate -/

/-- A certificate is read from the front, and all octets are kept. -/
theorem parse_eq_ok_iff {der : Bytes} {certificate : Certificate} :
    parse der = .ok certificate ↔ certificate.der = der ∧
      ∃ rest, X509.readCertificate der = some (certificate.extensions, rest) := by
  unfold parse Der.Reader.run?
  cases hread : X509.readCertificate der with
  | none => exact ⟨nofun, fun ⟨_, _, h⟩ => by cases h⟩
  | some read =>
    obtain ⟨extensions, rest⟩ := read
    constructor
    · intro h
      obtain rfl := Except.ok.inj h
      exact ⟨rfl, rest, rfl⟩
    · rintro ⟨rfl, _, h⟩
      obtain ⟨rfl, rfl⟩ := Prod.mk.inj (Option.some.inj h)
      rfl

/-- The octets are those of the certificate, with nothing behind it, and the
extensions are what they say. -/
def IsWhole (certificate : Certificate) : Prop :=
  X509.readCertificate certificate.der = some (certificate.extensions, [])

theorem IsWhole.parse {certificate : Certificate} (h : certificate.IsWhole) :
    Certificate.parse certificate.der = .ok certificate :=
  parse_eq_ok_iff.mpr ⟨rfl, [], h⟩

/-- A certificate that was read is whole if nothing is behind it. -/
theorem isWhole_iff_of_parse {der : Bytes} {certificate : Certificate}
    (h : parse der = .ok certificate) :
    certificate.IsWhole ↔ ∀ extensions rest,
      X509.readCertificate der = some (extensions, rest) → rest = [] := by
  obtain ⟨rfl, rest, hread⟩ := parse_eq_ok_iff.mp h
  unfold IsWhole
  rw [hread]
  constructor
  · intro hwhole extensions rest' heq
    obtain ⟨-, rfl⟩ := Prod.mk.inj (Option.some.inj hwhole)
    exact (Prod.mk.inj (Option.some.inj heq)).2.symm
  · intro hnothing
    rw [hnothing _ _ rfl]

/-- No octets are no certificate. -/
theorem IsWhole.der_ne_nil {certificate : Certificate} (h : certificate.IsWhole) :
    certificate.der ≠ [] := by
  intro hnil
  unfold IsWhole at h
  rw [hnil] at h
  cases h

/-- What follows a whole certificate takes a round less. -/
theorem IsWhole.length_rest_le {certificate : Certificate} (h : certificate.IsWhole)
    {octets rest : Bytes} {fuel : Nat} (hsplit : octets = certificate.der ++ rest)
    (hfuel : octets.length ≤ fuel + 1) : rest.length ≤ fuel := by
  have hone := List.length_pos_of_ne_nil h.der_ne_nil
  rw [hsplit, List.length_append] at hfuel
  omega

/-- A whole certificate is the one in front, whatever follows. -/
theorem IsWhole.readFirst_append {certificate : Certificate} (h : certificate.IsWhole)
    (after : Bytes) : readFirst (certificate.der ++ after) = some (certificate, after) := by
  obtain ⟨own, hder, hown⟩ := Der.Reader.framed_sequence _ _ _ _ h
  rw [List.append_nil] at hder
  subst hder
  have hread : X509.readCertificate (certificate.der ++ after) =
      some (certificate.extensions, after) := hown after
  unfold readFirst
  simp only [hread, Option.map_some, List.length_append, Nat.add_sub_cancel, List.take_left]

/-- What is in front is a whole certificate and what follows it. -/
theorem readFirst_eq_some_iff {octets rest : Bytes} {certificate : Certificate} :
    readFirst octets = some (certificate, rest) ↔
      octets = certificate.der ++ rest ∧ certificate.IsWhole := by
  constructor
  · intro h
    obtain ⟨⟨extensions, rest'⟩, hread, heq⟩ := Option.map_eq_some_iff.mp h
    obtain ⟨rfl, rfl⟩ := Prod.mk.inj heq
    obtain ⟨own, rfl, hown⟩ := Der.Reader.framed_sequence _ _ _ _ hread
    have htake : (own ++ rest').take ((own ++ rest').length - rest'.length) = own := by
      rw [List.length_append, Nat.add_sub_cancel, List.take_left]
    have hwhole := hown []
    rw [List.append_nil] at hwhole
    refine ⟨by rw [htake], ?_⟩
    unfold IsWhole
    rw [htake]
    exact hwhole
  · rintro ⟨rfl, hwhole⟩
    exact hwhole.readFirst_append rest

theorem readFirst_eq_none_iff {octets : Bytes} :
    readFirst octets = none ↔ X509.readCertificate octets = none := Option.map_eq_none_iff

/-! ### A round -/

/-- A round takes the whole certificate in front, if there is room for it. -/
theorem readListFrom_succ_eq_ok_iff {most : Option Nat} {fuel found : Nat} {octets : Bytes}
    {certificates : List Certificate} (hmore : octets ≠ []) :
    readListFrom most found (fuel + 1) octets = .ok certificates ↔
      most.any (· ≤ found) = false ∧ ∃ certificate rest others,
        octets = certificate.der ++ rest ∧ certificate.IsWhole ∧
        readListFrom most (found + 1) fuel rest = .ok others ∧
        certificates = certificate :: others := by
  obtain ⟨b, octets, rfl⟩ := List.exists_cons_of_ne_nil hmore
  rw [readListFrom]
  · cases hfull : most.any (· ≤ found) with
    | true => simp
    | false =>
      simp only [Bool.false_eq_true, if_false, true_and]
      cases hfirst : readFirst (b :: octets) with
      | none =>
        refine ⟨nofun, ?_⟩
        rintro ⟨certificate, rest, others, hsplit, hwhole, -, -⟩
        rw [hsplit, hwhole.readFirst_append] at hfirst
        cases hfirst
      | some first =>
        obtain ⟨certificate, rest⟩ := first
        simp only [ok_of_steps, ok_of_pure]
        constructor
        · rintro ⟨others, hothers, rfl⟩
          obtain ⟨hsplit, hwhole⟩ := readFirst_eq_some_iff.mp hfirst
          exact ⟨certificate, rest, others, hsplit, hwhole, hothers, rfl⟩
        · rintro ⟨certificate', rest', others, hsplit, hwhole, hothers, rfl⟩
          -- there is one way only to take a certificate from the front
          rw [hsplit, hwhole.readFirst_append] at hfirst
          obtain ⟨rfl, rfl⟩ := Prod.mk.inj (Option.some.inj hfirst)
          exact ⟨others, hothers, rfl⟩
  · exact nofun

theorem readListFrom_nil (most : Option Nat) (found fuel : Nat) :
    readListFrom most found fuel [] = .ok [] := by
  cases fuel <;> rfl

/-! ### All rounds -/

/-- With as many rounds as octets, the whole certificates are found that the
octets are made of. -/
theorem readListFrom_eq_ok_iff {most : Option Nat} : ∀ {fuel found : Nat} {octets : Bytes}
    {certificates : List Certificate}, octets.length ≤ fuel →
    (readListFrom most found fuel octets = .ok certificates ↔
      certificates.flatMap (·.der) = octets ∧ (∀ c ∈ certificates, c.IsWhole) ∧
        ∀ m, most = some m → certificates.length ≤ m - found)
  | fuel, found, [], certificates, _ => by
    rw [readListFrom_nil]
    constructor
    · intro h
      obtain rfl := Except.ok.inj h
      exact ⟨rfl, nofun, fun m _ => Nat.zero_le _⟩
    · rintro ⟨hoctets, hwhole, -⟩
      cases certificates with
      | nil => rfl
      | cons certificate others =>
        have hnil := (List.append_eq_nil_iff.mp hoctets).1
        exact absurd hnil (hwhole certificate List.mem_cons_self).der_ne_nil
  | 0, found, b :: octets, certificates, hfuel => by cases hfuel
  | fuel + 1, found, b :: octets, certificates, hfuel => by
    -- a whole certificate has an octet, so there are rounds enough for what follows it
    rw [readListFrom_succ_eq_ok_iff (List.cons_ne_nil b octets)]
    constructor
    · rintro ⟨hroom, certificate, rest, others, hsplit, hwhole, hothers, rfl⟩
      have hrest := hwhole.length_rest_le hsplit hfuel
      obtain ⟨hoctets, hall, hcount⟩ := (readListFrom_eq_ok_iff hrest).mp hothers
      refine ⟨?_, List.forall_mem_cons.mpr ⟨hwhole, hall⟩, ?_⟩
      · rw [List.flatMap_cons, hoctets, hsplit]
      rintro m rfl
      have hmore : found < m := by simpa using hroom
      have hothers := hcount m rfl
      rw [List.length_cons]
      omega
    · rintro ⟨hoctets, hall, hcount⟩
      cases certificates with
      | nil => cases hoctets
      | cons certificate others =>
        obtain ⟨hwhole, hall⟩ := List.forall_mem_cons.mp hall
        rw [List.flatMap_cons] at hoctets
        have hrest := hwhole.length_rest_le hoctets.symm hfuel
        refine ⟨?_, certificate, others.flatMap (·.der), others, hoctets.symm, hwhole, ?_, rfl⟩
        · cases most with
          | none => rfl
          | some m =>
            have hlength := hcount m rfl
            rw [List.length_cons] at hlength
            simp only [Option.any_some, decide_eq_false_iff_not]
            omega
        · refine (readListFrom_eq_ok_iff hrest).mpr ⟨rfl, hall, ?_⟩
          intro m hm
          have hlength := hcount m hm
          rw [List.length_cons] at hlength
          omega

/-- **Octets are taken apart into the whole certificates that make them up.** -/
theorem readList_eq_ok_iff {most : Option Nat} {octets : Bytes} {certificates : List Certificate} :
    readList most octets = .ok certificates ↔
      certificates.flatMap (·.der) = octets ∧ (∀ c ∈ certificates, c.IsWhole) ∧
        ∀ m, most = some m → certificates.length ≤ m :=
  readListFrom_eq_ok_iff (Nat.le_refl _)

/-- More rounds than octets change nothing. -/
theorem readListFrom_of_le {most : Option Nat} : ∀ {fuel fuel' found : Nat} {octets : Bytes},
    octets.length ≤ fuel → octets.length ≤ fuel' →
    readListFrom most found fuel octets = readListFrom most found fuel' octets
  | fuel, fuel', found, [], _, _ => by rw [readListFrom_nil, readListFrom_nil]
  | 0, _, _, b :: octets, hfuel, _ => by cases hfuel
  | fuel + 1, 0, _, b :: octets, _, hfuel' => by cases hfuel'
  | fuel + 1, fuel' + 1, found, b :: octets, hfuel, hfuel' => by
    rw [readListFrom, readListFrom]
    · split
      · rfl
      cases hfirst : readFirst (b :: octets) with
      | none => rfl
      | some first =>
        obtain ⟨certificate, rest⟩ := first
        obtain ⟨hsplit, hwhole⟩ := readFirst_eq_some_iff.mp hfirst
        have hrounds : readListFrom most (found + 1) fuel rest =
            readListFrom most (found + 1) fuel' rest :=
          readListFrom_of_le (hwhole.length_rest_le hsplit hfuel)
            (hwhole.length_rest_le hsplit hfuel')
        simp only [hrounds]
    · exact nofun
    · exact nofun

/-- Without a bound, octets that cannot be taken apart begin with whole
certificates, and what is behind them begins with none. -/
theorem readListFrom_none_cases : ∀ (fuel found : Nat) {octets : Bytes}, octets.length ≤ fuel →
    (∃ certificates, readListFrom none found fuel octets = .ok certificates) ∨
    readListFrom none found fuel octets = .error .malformed ∧
      ∃ (certificates : List Certificate) (rest : Bytes),
        octets = certificates.flatMap (·.der) ++ rest ∧ (∀ c ∈ certificates, c.IsWhole) ∧
          rest ≠ [] ∧ X509.readCertificate rest = none
  | fuel, found, [], _ => .inl ⟨[], readListFrom_nil none found fuel⟩
  | 0, found, b :: octets, hfuel => by cases hfuel
  | fuel + 1, found, b :: octets, hfuel => by
    rw [readListFrom]
    · simp only [Option.any_none, Bool.false_eq_true, if_false]
      cases hfirst : readFirst (b :: octets) with
      | none =>
        exact .inr ⟨rfl, [], b :: octets, rfl, nofun, List.cons_ne_nil b octets,
          readFirst_eq_none_iff.mp hfirst⟩
      | some first =>
        obtain ⟨certificate, rest⟩ := first
        obtain ⟨hsplit, hwhole⟩ := readFirst_eq_some_iff.mp hfirst
        have hrest := hwhole.length_rest_le hsplit hfuel
        rcases readListFrom_none_cases fuel (found + 1) hrest with
          ⟨others, hothers⟩ | ⟨herror, others, last, rfl, hall, hlast⟩
        · refine .inl ⟨certificate :: others, ?_⟩
          simp only [hothers]
          rfl
        · refine .inr ⟨?_, certificate :: others, last, ?_, ?_, hlast⟩
          · simp only [herror]
            rfl
          · rw [hsplit, List.flatMap_cons, List.append_assoc]
          · exact List.forall_mem_cons.mpr ⟨hwhole, hall⟩
    · exact nofun

/-! ### Octets and the certificates they are made of -/

/-- A bound is kept or nothing is found; it changes nothing else. -/
theorem readList_some_eq_ok_iff {most : Nat} {octets : Bytes} {certificates : List Certificate} :
    readList (some most) octets = .ok certificates ↔
      readList none octets = .ok certificates ∧ certificates.length ≤ most := by
  simp only [readList_eq_ok_iff, Option.some.injEq, forall_eq', reduceCtorEq, false_implies,
    implies_true, and_true, and_assoc]

theorem exists_isWhole_map : ∀ {pieces : List Bytes},
    (∀ piece ∈ pieces, ∃ extensions, X509.readCertificate piece = some (extensions, [])) →
    ∃ certificates : List Certificate, (∀ c ∈ certificates, c.IsWhole) ∧
      certificates.map (·.der) = pieces
  | [], _ => ⟨[], nofun, rfl⟩
  | piece :: pieces, h => by
    obtain ⟨⟨extensions, hread⟩, hrest⟩ := List.forall_mem_cons.mp h
    obtain ⟨certificates, hwhole, rfl⟩ := exists_isWhole_map hrest
    exact ⟨⟨piece, extensions⟩ :: certificates, List.forall_mem_cons.mpr ⟨hread, hwhole⟩, rfl⟩

/-- What is made of the octets of certificates is taken apart into these. -/
theorem readList_flatten {pieces : List Bytes}
    (h : ∀ piece ∈ pieces, ∃ extensions, X509.readCertificate piece = some (extensions, [])) :
    ∃ certificates, readList none pieces.flatten = .ok certificates ∧
      certificates.map (·.der) = pieces := by
  obtain ⟨certificates, hwhole, rfl⟩ := exists_isWhole_map h
  refine ⟨certificates, readList_eq_ok_iff.mpr ⟨?_, hwhole, nofun⟩, rfl⟩
  rw [List.flatMap_def]

/-- **Taking octets apart loses nothing and makes nothing up.** There are never more rounds than
octets, and either certificates are found or there is a rest that begins with none. Those that are
found make up the octets, none is empty, and each is read from its own octets to their end. Octets
that are made of certificates are taken apart into these and no others. And with a bound of
sixteen the same is found, unless there are more. -/
theorem concatenation_exact (der : Bytes) :
    (∀ fuel, der.length ≤ fuel → readListFrom none 0 fuel der = readList none der) ∧
    ((∃ certificates, readList none der = .ok certificates) ∨
      readList none der = .error .malformed ∧
        ∃ (certificates : List Certificate) (rest : Bytes),
          der = certificates.flatMap (·.der) ++ rest ∧ (∀ c ∈ certificates, c.IsWhole) ∧
            rest ≠ [] ∧ X509.readCertificate rest = none) ∧
    (∀ certificates, readList none der = .ok certificates →
      certificates.flatMap (·.der) = der ∧ ∀ c ∈ certificates,
        c.der ≠ [] ∧ X509.readCertificate c.der = some (c.extensions, [])) ∧
    (∀ pieces : List Bytes, pieces.flatten = der →
      (∀ piece ∈ pieces, ∃ extensions, X509.readCertificate piece = some (extensions, [])) →
      ∃ certificates, readList none der = .ok certificates ∧
        certificates.map (·.der) = pieces) ∧
    ∀ certificates, readList (some maxChainLength) der = .ok certificates ↔
      readList none der = .ok certificates ∧ certificates.length ≤ 16 := by
  refine ⟨?_, readListFrom_none_cases _ 0 (Nat.le_refl _), ?_, ?_, ?_⟩
  · intro fuel hfuel
    exact readListFrom_of_le hfuel (Nat.le_refl _)
  · intro certificates h
    obtain ⟨hoctets, hwhole, -⟩ := readList_eq_ok_iff.mp h
    exact ⟨hoctets, fun c hc => ⟨(hwhole c hc).der_ne_nil, hwhole c hc⟩⟩
  · rintro pieces rfl hpieces
    exact readList_flatten hpieces
  · intro certificates
    exact readList_some_eq_ok_iff

/-! ### Two certificates -/

/-- A certificate of a serial number that says nothing but what it has to. -/
def bareCertificate (serial : UInt8) : Bytes :=
  [0x30, 0x43, 0x30, 0x38, 0x02, 0x01, serial, 0x30, 0x04, 0x06, 0x02, 0x2a, 0x03, 0x30, 0x00, 0x30,
    0x1e, 0x17, 0x0d] ++ Utf8.encode "250101000000Z" ++ [0x17, 0x0d] ++
    Utf8.encode "350101000000Z" ++ [0x30, 0x00, 0x30, 0x09, 0x30, 0x04, 0x06, 0x02, 0x2a, 0x03,
    0x03, 0x01, 0x00, 0x30, 0x04, 0x06, 0x02, 0x2a, 0x03, 0x03, 0x01, 0x00]

/-- Two certificates are found where there are two, also with a bound. -/
theorem concatenation_exact_two : ∃ certificates,
    readList none (bareCertificate 1 ++ bareCertificate 2) = .ok certificates ∧
    certificates.map (·.der) = [bareCertificate 1, bareCertificate 2] ∧
    (∀ c ∈ certificates, X509.readCertificate c.der = some (c.extensions, [])) ∧
    readList (some maxChainLength) (bareCertificate 1 ++ bareCertificate 2) = .ok certificates := by
  have hpieces : ∀ piece ∈ [bareCertificate 1, bareCertificate 2],
      ∃ extensions, X509.readCertificate piece = some (extensions, []) := by
    simp only [List.forall_mem_cons]
    exact ⟨⟨[], by decide +kernel⟩, ⟨[], by decide +kernel⟩, nofun⟩
  obtain ⟨-, -, hsound, hcomplete, hbounded⟩ :=
    concatenation_exact (bareCertificate 1 ++ bareCertificate 2)
  obtain ⟨certificates, hread, hmap⟩ :=
    hcomplete _ (by rw [List.flatten_cons, List.flatten_singleton]) hpieces
  have hlength : certificates.length = 2 := by
    rw [← List.length_map (·.der), hmap]
    rfl
  exact ⟨certificates, hread, hmap, fun c hc => ((hsound _ hread).2 c hc).2,
    (hbounded _).mpr ⟨hread, by rw [hlength]; decide⟩⟩

end Certificate
end WorkloadIdentity
