/-
# Claims survive the compact form

Header and claims in writing, each in base64url, with dots between them and a third text after
them: that is a token in compact form (`JwtSvid.compact`). If the header names an algorithm and
the claims say what a token has to say, it is decoded, and to just these claims
(`JwtSvid.decode_compact`). The claims are read back as a whole. Of the header only three members
are read; the others are passed over, so their numbers need not be read back.

Key definitions: `JwtSvid.compact`, `JwtSvid.IsHeader`, `JwtSvid.IsClaims`.
Key theorems: `JwtHeader.read_bytes`, `JwtSvid.readClaims_encode`, `JwtSvid.decode_compact`.
-/
import WorkloadIdentity.Proofs.Json.Printed
import WorkloadIdentity.Proofs.Json.Scanned
import WorkloadIdentity.Proofs.Jwt.Decode
import WorkloadIdentity.Proofs.Jwt.Segment

namespace WorkloadIdentity

/-! ### Headers -/

namespace JwtHeader

variable {means : Json.Numeral → Json.Number → Prop} {d : Nat}

/-- The octets are the value of the member, under its name. -/
def IsNamed (means : Json.Numeral → Json.Number → Prop) (d : Nat) (named : String × Bytes)
    (entry : String × Json) : Prop :=
  named.1 = entry.1 ∧ Json.IsPiece means d named.2 entry.2

/-- The member under its name. -/
def readMember (member : Bytes × Bytes) : Option (String × Bytes) :=
  (readText member.1).map fun name => (name, member.2)

theorem read_of_splitMembers {octets : Bytes} {members : List (Bytes × Bytes)}
    (h : Json.splitMembers octets = some members) :
    read octets = (members.mapM readMember).bind ofMembers := by
  unfold read
  rw [h]
  refine congrArg (Option.bind · ofMembers) (congrArg (List.mapM · members) ?_)
  funext member
  obtain ⟨name, value⟩ := member
  simp only [readMember]
  cases readText name <;> rfl

theorem exists_named {pieces : List (Bytes × Bytes)} {entries : List (String × Json)}
    (h : List.Forall₂ (Json.IsEntry means d) pieces entries) :
    ∃ named, pieces.mapM readMember = some named ∧
      List.Forall₂ (IsNamed means d) named entries := by
  induction h with
  | nil => exact ⟨[], rfl, .nil⟩
  | @cons piece entry pieces entries hentry _ ih =>
    obtain ⟨named, hnamed, hall⟩ := ih
    have hname : readMember piece = some (entry.1, piece.2) := by
      unfold readMember readText
      rw [hentry.parse_name]
      rfl
    refine ⟨(entry.1, piece.2) :: named, ?_, .cons ⟨rfl, hentry.2⟩ hall⟩
    rw [List.mapM_cons, hnamed, hname]
    rfl

/-- The values of a name are the one that the object has under it, or none. -/
theorem valuesOf_named {named : List (String × Bytes)} {members : Keyed Json}
    (h : List.Forall₂ (IsNamed means d) named members) (hsorted : Keyed.Sorted members)
    (name : String) :
    List.Forall₂ (Json.IsPiece means d) (valuesOf name named)
      (Keyed.find? name members).toList := by
  have hfilter : List.Forall₂ (IsNamed means d) (named.filter (·.1 == name))
      (members.filter (·.1 == name)) := by
    refine List.rel_filter (fun a entry hentry => ?_) h
    simp [hentry.1]
  have hvalues : (Keyed.find? name members).toList = (members.filter (·.1 == name)).map (·.2) := by
    rw [Keyed.filter_of_sorted name hsorted]
    cases Keyed.find? name members <;> rfl
  rw [hvalues, valuesOf, List.forall₂_map_left_iff, List.forall₂_map_right_iff]
  exact hfilter.imp fun _ _ h => h.2

/-- The member is missing, null, or the text. -/
def SaysOptional (member : Option Json) (text : Option String) : Prop :=
  (text = none ∧ (member = none ∨ member = some .null)) ∨
    ∃ s, text = some s ∧ member = some (.string s)

/-- What the values of a name are read as, if there are any. -/
theorem optional_of_values {values : List Bytes} {member : Option Json} {text : Option String}
    (h : List.Forall₂ (Json.IsPiece means d) values member.toList)
    (hmember : SaysOptional member text) :
    (values = [] ∧ text = none) ∨ ∃ value, values = [value] ∧ readOptional value = some text := by
  rcases hmember with ⟨rfl, rfl | rfl⟩ | ⟨s, rfl, rfl⟩
  · cases h
    exact .inl ⟨rfl, rfl⟩
  · obtain ⟨value, rest, hvalue, hrest, rfl⟩ := List.forall₂_cons_right_iff.mp h
    cases hrest
    refine .inr ⟨value, rfl, ?_⟩
    unfold readOptional
    rw [hvalue.parse_null]
  · obtain ⟨value, rest, hvalue, hrest, rfl⟩ := List.forall₂_cons_right_iff.mp h
    cases hrest
    refine .inr ⟨value, rfl, ?_⟩
    unfold readOptional
    rw [hvalue.parse_string]

/-- **The three members of a header are read**, whatever the others are. -/
theorem ofMembers_eq {named : List (String × Bytes)} {members : Keyed Json}
    (h : List.Forall₂ (IsNamed means d) named members) (hsorted : Keyed.Sorted members)
    {keyId type : Option String} {algorithm : String}
    (hkeyId : SaysOptional (Keyed.find? "kid" members) keyId)
    (htype : SaysOptional (Keyed.find? "typ" members) type)
    (halgorithm : Keyed.find? "alg" members = some (.string algorithm)) :
    ofMembers named = some ⟨keyId, type, algorithm⟩ := by
  have hread : ∃ value, valuesOf "alg" named = [value] ∧ readText value = some algorithm := by
    have hvalues := valuesOf_named h hsorted "alg"
    rw [halgorithm] at hvalues
    obtain ⟨value, rest, hvalue, hrest, heq⟩ := List.forall₂_cons_right_iff.mp hvalues
    cases hrest
    refine ⟨value, heq, ?_⟩
    unfold readText
    rw [hvalue.parse_string]
    rfl
  obtain ⟨value, halg, htext⟩ := hread
  unfold ofMembers
  rcases optional_of_values (valuesOf_named h hsorted "kid") hkeyId with
    ⟨hkid, rfl⟩ | ⟨kid, hkid, hkid'⟩ <;>
  rcases optional_of_values (valuesOf_named h hsorted "typ") htype with
    ⟨htyp, rfl⟩ | ⟨typ, htyp, htyp'⟩ <;>
  simp_all

/-- **A header is read from its writing.** -/
theorem read_bytes {header : Keyed Json} (hvalue : Json.WellFormed d (.object header))
    (hnumbers : ∀ n, Json.Holds (.object header) n → n.IsHeld) {keyId type : Option String}
    {algorithm : String} (hkeyId : SaysOptional (Keyed.find? "kid" header) keyId)
    (htype : SaysOptional (Keyed.find? "typ" header) type)
    (halgorithm : Keyed.find? "alg" header = some (.string algorithm)) :
    read (Json.object header).bytes = some ⟨keyId, type, algorithm⟩ := by
  cases hvalue with
  | @object _ _ hsorted hentries =>
    have hnil : header ≠ [] := by
      rintro rfl
      cases halgorithm
    -- the numerals may stand for anything, as no number is read
    have hspells : Json.Spells (fun _ _ => True) _ (Json.membersChars header) (.members header) :=
      Json.spells_membersChars hnil fun entry hentry =>
        Json.spells_chars (hentries entry hentry) fun n hn => by
          obtain ⟨t, ht⟩ := (hnumbers n (.member
            ((Keyed.find?_eq_some_iff_mem hsorted).mpr hentry) hn)).exists_writesNumeral
          exact ⟨t, ht, trivial⟩
    obtain ⟨pieces, hsplit, hpieces⟩ :=
      Json.splitMembers_enclosed Json.isBlanks_nil Json.isBlanks_nil hspells
    obtain ⟨named, hnamed, hall⟩ := exists_named hpieces
    have hbytes : (Json.object header).bytes = Json.octetsOf
        ([] ++ ('\x7b' :: (Json.membersChars header ++ ['\x7d']) ++ [])) := by
      unfold Json.bytes Json.text
      rw [← Json.octetsOf_toList, String.toList_ofList, Json.chars]
      simp
    rw [hbytes, read_of_splitMembers hsplit, hnamed, Option.bind_some]
    exact ofMembers_eq hall hsorted hkeyId htype halgorithm

end JwtHeader

namespace JwtSvid

/-! ### Tokens in compact form -/

/-- Header and claims in writing and a third text, with dots between them. -/
def compact (header claims : Keyed Json) (third : List Char) : String :=
  String.ofList (Base64Url.encode (Json.object header).bytes ++
    '.' :: Base64Url.encode (Json.object claims).bytes ++ '.' :: third)

/-- A header that names the algorithm, and may name a key ID and one of the two types. It may have
any other members. -/
structure IsHeader (header : Keyed Json) (keyId : Option String) (algorithm : JwtAlgorithm) :
    Prop where
  wellFormed : ∃ d, Json.WellFormed d (.object header)
  numbers : ∀ n, Json.Holds (.object header) n → n.IsHeld
  algorithm : Keyed.find? "alg" header = some (.string algorithm.name)
  keyId : JwtHeader.SaysOptional (Keyed.find? "kid" header) keyId
  type : ∃ type, JwtHeader.SaysOptional (Keyed.find? "typ" header) type ∧
    (type = none ∨ type = some "JWT" ∨ type = some "JOSE")
  size : (Json.object header).bytes.length ≤ maxSegmentSize + 2

/-- Claims of integers of 64 bits, not nested too deep, with a subject that is an identity, an
expiry that a calendar can name and these audiences. -/
structure IsClaims (claims : Keyed Json) (id : SpiffeId) (expiry : Int) (texts : List String) :
    Prop where
  wellFormed : Json.WellFormed Json.maxDepth (.object claims)
  numbers : ∀ n, Json.Holds (.object claims) n → n.IsInteger
  subject : ∃ subject, Keyed.find? "sub" claims = some (.string subject) ∧
    SpiffeId.parse subject = .ok id
  expiry : Keyed.find? "exp" claims = some (.number (.integer expiry)) ∧
    expiryRange.1 ≤ expiry ∧ expiry ≤ expiryRange.2
  audience : NamesAudience claims texts
  size : (Json.object claims).bytes.length ≤ maxSegmentSize + 2

theorem splits_compact (header claims : Keyed Json) {third : List Char} (hthird : '.' ∉ third) :
    Splits (compact header claims third) (Base64Url.encode (Json.object header).bytes)
      (Base64Url.encode (Json.object claims).bytes) third where
  text := String.toList_ofList
  header := Base64Url.dot_not_mem_encode _
  claims := Base64Url.dot_not_mem_encode _
  signature := hthird

/-- A header is read with one of the two types, or none. -/
theorem IsHeader.readHeader {header : Keyed Json} {keyId : Option String} {algorithm : JwtAlgorithm}
    (h : IsHeader header keyId algorithm) :
    ∃ type, checkType type = .ok () ∧
      JwtSvid.readHeader (Base64Url.encode (Json.object header).bytes) =
        .ok ⟨keyId, type, algorithm.name⟩ := by
  obtain ⟨type, hmember, htype⟩ := h.type
  obtain ⟨d, hvalue⟩ := h.wellFormed
  refine ⟨type, (checkType_eq_ok_iff _).mpr htype, (readHeader_eq_ok_iff _ _).mpr ?_⟩
  refine ⟨_, (decodeSegment_eq_ok_iff _ _).mpr ⟨rfl, h.size⟩, ?_⟩
  exact JwtHeader.read_bytes hvalue h.numbers h.keyId hmember h.algorithm

/-- Claims are read back as a whole, whatever they are about. -/
theorem readClaims_encode {claims : Keyed Json}
    (hvalue : Json.WellFormed Json.maxDepth (.object claims))
    (hnumbers : ∀ n, Json.Holds (.object claims) n → n.IsInteger)
    (hsize : (Json.object claims).bytes.length ≤ maxSegmentSize + 2) :
    readClaims (Base64Url.encode (Json.object claims).bytes) = .ok claims := by
  refine (readClaims_eq_ok_iff _ _).mpr ⟨_, (decodeSegment_eq_ok_iff _ _).mpr ⟨rfl, hsize⟩, ?_⟩
  exact Json.parse_bytes hvalue fun n hn => (hnumbers n hn).writtenAs

/-- **A token in compact form is read as its header and its claims.** -/
theorem readsAs_compact {header claims : Keyed Json} {third : List Char} {read : JwtHeader}
    (hheader : readHeader (Base64Url.encode (Json.object header).bytes) = .ok read)
    (hclaims : readClaims (Base64Url.encode (Json.object claims).bytes) = .ok claims)
    (hthird : '.' ∉ third) : ReadsAs (compact header claims third) read claims :=
  ⟨_, _, third, splits_compact header claims hthird, hheader, hclaims⟩

/-- A time that a calendar can name is in a word of 64 bits. -/
theorem clampTime_of_expiryRange {t : Int} (hlow : expiryRange.1 ≤ t) (hhigh : t ≤ expiryRange.2) :
    clampTime t = t := by
  unfold expiryRange at hlow hhigh
  unfold clampTime minTime maxTime
  simp only at hlow hhigh
  omega

/-- What claims say is what the token carries. -/
theorem IsClaims.ofParts {claims : Keyed Json} {id : SpiffeId} {expiry : Int} {texts : List String}
    (h : IsClaims claims id expiry texts) {type : Option String} (htype : checkType type = .ok ())
    (token : String) (keyId : Option String) (algorithm : JwtAlgorithm) :
    JwtSvid.ofParts token ⟨keyId, type, algorithm.name⟩ claims =
      .ok ⟨id, none, expiry, distinct texts, claims, keyId, algorithm, token⟩ := by
  obtain ⟨hexpiry, hlow, hhigh⟩ := h.expiry
  have hdate : date? claims .expiry = .ok (some expiry) := by
    unfold date? DateClaim.name
    rw [hexpiry]
    simp only [clampTime_of_expiryRange hlow hhigh]
  exact (ofParts_eq_ok_iff _ _ _ _).mpr ⟨htype, (readAlgorithm_eq_ok_iff _ _).mpr rfl,
    (readSubject_eq_ok_iff _ _).mpr h.subject,
    (readExpiry_eq_ok_iff _ _).mpr ⟨hdate, hlow, hhigh⟩,
    (audience?_eq_ok_iff _ _).mpr ⟨texts, h.audience, rfl⟩, rfl, rfl, rfl, rfl⟩

/-- **Claims survive the compact form.** The token decodes, and what it carries is what was
written: the claims as they are, their subject, expiry and audiences, the algorithm and the key ID
of the header, and the text itself. -/
theorem decode_compact {header claims : Keyed Json} {third : List Char} {keyId : Option String}
    {algorithm : JwtAlgorithm} {id : SpiffeId} {expiry : Int} {texts : List String}
    (hheader : IsHeader header keyId algorithm) (hclaims : IsClaims claims id expiry texts)
    (hthird : '.' ∉ third) :
    decode (compact header claims third) = .ok ⟨id, none, expiry, distinct texts, claims, keyId,
      algorithm, compact header claims third⟩ := by
  obtain ⟨type, htype, hread⟩ := hheader.readHeader
  have hmembers := readClaims_encode hclaims.wellFormed hclaims.numbers hclaims.size
  rw [(readsAs_compact hread hmembers hthird).decode]
  exact hclaims.ofParts htype _ _ _

/-- A header with a fraction. -/
def nestedHeader : Keyed Json :=
  [("alg", .string "ES256"), ("kid", .string "key \"1\""), ("typ", .string "JWT"),
    ("weights", .array [.number (.real ⟨false, 3 * 2 ^ 51, -52⟩), .null])]

/-- Claims with this audience that hold an array, an object and texts to escape. -/
def nestedClaims (audience : Json) : Keyed Json :=
  [("aud", audience), ("exp", .number (.integer 2000000000)),
    ("note", .object [("\n", .array [.number (.integer (-7)), .bool true]),
      ("caf\u00e9", .string "\\")]),
    ("sub", .string "spiffe://acme.io/ns/web")]

theorem isHeader_nestedHeader : IsHeader nestedHeader (some "key \"1\"") .es256 where
  wellFormed := by
    refine ⟨2, .object (by unfold Keyed.Sorted; decide) ?_⟩
    have hweights : Json.WellFormed 1
        (.array [.number (.real ⟨false, 3 * 2 ^ 51, -52⟩), .null]) :=
      .array (List.forall_mem_cons.mpr ⟨.number _, List.forall_mem_singleton.mpr .null⟩)
    exact List.forall_mem_cons.mpr ⟨.string _, List.forall_mem_cons.mpr ⟨.string _,
      List.forall_mem_cons.mpr ⟨.string _, List.forall_mem_singleton.mpr hweights⟩⟩⟩
  numbers n hn := by
    have hnumbers : (Json.object nestedHeader).numbers = [.real ⟨false, 3 * 2 ^ 51, -52⟩] := by
      decide
    have hmem := hn.mem_numbers
    rw [hnumbers] at hmem
    obtain rfl := List.mem_singleton.mp hmem
    exact ⟨by decide, by decide⟩
  algorithm := rfl
  keyId := .inr ⟨_, rfl, rfl⟩
  type := ⟨some "JWT", .inr ⟨_, rfl, rfl⟩, .inr (.inl rfl)⟩
  size := by decide +kernel

theorem wellFormed_nestedClaims {audience : Json} (h : Json.WellFormed 126 audience) :
    Json.WellFormed Json.maxDepth (.object (nestedClaims audience)) := by
  have hsorted : ["aud", "exp", "note", "sub"].Pairwise (· < ·) := by decide
  have hitems : Json.WellFormed 125 (.array [.number (.integer (-7)), .bool true]) :=
    .array (List.forall_mem_cons.mpr ⟨.number _, List.forall_mem_singleton.mpr (.bool _)⟩)
  have hnote : Json.WellFormed 126 (.object [("\n", .array [.number (.integer (-7)), .bool true]),
      ("caf\u00e9", .string "\\")]) :=
    .object (by unfold Keyed.Sorted; decide)
      (List.forall_mem_cons.mpr ⟨hitems, List.forall_mem_singleton.mpr (.string _)⟩)
  exact .object hsorted (List.forall_mem_cons.mpr ⟨h, List.forall_mem_cons.mpr ⟨.number _,
    List.forall_mem_cons.mpr ⟨hnote, List.forall_mem_singleton.mpr (.string _)⟩⟩⟩)

theorem isInteger_nestedClaims {audience : Json} (h : audience.numbers = []) {n : Json.Number}
    (hn : Json.Holds (.object (nestedClaims audience)) n) : n.IsInteger := by
  have hnumbers : (Json.object (nestedClaims audience)).numbers =
      audience.numbers ++ [.integer 2000000000, .integer (-7)] := rfl
  have hmem := hn.mem_numbers
  rw [hnumbers, h, List.nil_append] at hmem
  rcases List.mem_pair.mp hmem with rfl | rfl
  · exact ⟨_, rfl, by decide, by decide⟩
  · exact ⟨_, rfl, by decide, by decide⟩

theorem isClaims_nestedClaims {audience : Json} {texts : List String}
    (hvalue : Json.WellFormed 126 audience) (hnumbers : audience.numbers = [])
    (htexts : NamesAudience (nestedClaims audience) texts)
    (hsize : (Json.object (nestedClaims audience)).bytes.length ≤ maxSegmentSize + 2) :
    IsClaims (nestedClaims audience) ⟨"spiffe://acme.io/ns/web", 16⟩ 2000000000 texts where
  wellFormed := wellFormed_nestedClaims hvalue
  numbers _ hn := isInteger_nestedClaims hnumbers hn
  subject := ⟨"spiffe://acme.io/ns/web", rfl, by decide +kernel⟩
  expiry := ⟨rfl, by decide⟩
  audience := htexts
  size := hsize

theorem wellFormed_texts {d : Nat} (texts : List String) :
    Json.WellFormed (d + 1) (.array (texts.map .string)) := by
  refine .array fun item hitem => ?_
  obtain ⟨text, -, rfl⟩ := List.mem_map.mp hitem
  exact .string text

/-- One of the three audiences is there twice. -/
theorem decode_compact_nestedClaims :
    let claims := nestedClaims (.array (["b", "a", "b"].map .string))
    let token := compact nestedHeader claims ['-', 'A']
    IsHeader nestedHeader (some "key \"1\"") .es256 ∧
      IsClaims claims ⟨"spiffe://acme.io/ns/web", 16⟩ 2000000000 ["b", "a", "b"] ∧
      '.' ∉ ['-', 'A'] ∧
      decode token = .ok ⟨⟨"spiffe://acme.io/ns/web", 16⟩, none, 2000000000, ["a", "b"], claims,
        some "key \"1\"", .es256, token⟩ := by
  intro claims token
  have hclaims : IsClaims claims ⟨"spiffe://acme.io/ns/web", 16⟩ 2000000000 ["b", "a", "b"] :=
    isClaims_nestedClaims (wellFormed_texts _) (by decide) (.array (by decide) rfl)
      (by decide +kernel)
  have hdot : '.' ∉ ['-', 'A'] := by decide
  exact ⟨isHeader_nestedHeader, hclaims, hdot, decode_compact isHeader_nestedHeader hclaims hdot⟩

end JwtSvid
end WorkloadIdentity
