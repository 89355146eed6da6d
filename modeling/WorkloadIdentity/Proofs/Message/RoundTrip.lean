/-
# Messages are read back

A message that is written and read says the same as before, whatever its texts, octets and
entries are (`MessageKind.messages_read_back`). A reader need not know all the fields it finds:
what it does not know may stand before, between and behind the fields of the message, and is
passed over. There is one limit to it. In a field that is passed over, groups may be nested a
hundred deep, and octets with a deeper field are no message.

Key definitions: `Wire.nested`, `MessageKind`, `MessageKind.parts`, `MessageKind.KeysDiffer`,
`MessageKind.Same`.
Key theorems: `Wire.writes_nested`, `MessageKind.exists_isMessage`,
`MessageKind.messages_read_back`.
-/
import WorkloadIdentity.Message.Stream
import WorkloadIdentity.Proofs.Keyed
import WorkloadIdentity.Proofs.Message.Jwt
import WorkloadIdentity.Proofs.Message.X509

namespace WorkloadIdentity

open Wire

/-! ### Groups within groups -/

namespace Wire

/-- Groups of a number, each but the innermost with one group in it and nothing else. -/
def nested (n : Nat) : Nat → Bytes
  | 0 => []
  | depth + 1 => writeVarint (n * 8 + 3) ++ (nested n depth ++ writeVarint (n * 8 + 4))

theorem writes_nested {n : Nat} (hpos : 0 < n) (hfits : n * 8 + 4 < Nat.pow 2 32) :
    ∀ depth, Writes (depth + 1) (.field n) (nested n (depth + 1)) := by
  have hstart : WritesKey ⟨n, .groupStart⟩ (writeVarint (n * 8 + 3)) :=
    writesKey_writeVarint (Nat.lt_of_succ_lt hfits) hpos
  have hstop : WritesKey ⟨n, .groupEnd⟩ (writeVarint (n * 8 + 4)) :=
    writesKey_writeVarint hfits hpos
  intro depth
  induction depth with
  | zero => exact .group hstart .done hstop
  | succ depth ih =>
    have hinner := Writes.next ih .done
    rw [List.append_nil, Nat.max_zero] at hinner
    exact .group hstart hinner hstop

end Wire

/-! ### Kinds of messages -/

/-- A message without fields has no parts. -/
theorem StreamRequest.isMessage : IsMessage (fun _ => .skip) outerLimit
    (fun _ => []) StreamRequest.encode StreamRequest.decode? id where
  writes _ := rfl
  knows _ := ⟨fun n => by simp, by simp⟩
  reads := ⟨_, fun _ => Option.map_eq_bind, fun _ _ => rfl⟩

/-- The messages of the Workload API, but for the answer on a token to validate. -/
inductive MessageKind where
  | x509SvidRequest
  | x509SvidResponse
  | x509Svid
  | x509BundlesRequest
  | x509BundlesResponse
  | jwtSvid
  | jwtSvidRequest
  | jwtSvidResponse
  | jwtBundlesRequest
  | jwtBundlesResponse
  | validateRequest

namespace MessageKind

/-- What a message of the kind says. -/
abbrev Value : MessageKind → Type
  | x509SvidRequest | x509BundlesRequest | jwtBundlesRequest => StreamRequest
  | x509SvidResponse => X509SvidResponse
  | x509Svid => X509SvidEntry
  | x509BundlesResponse => X509BundlesResponse
  | jwtSvid => JwtSvidEntry
  | jwtSvidRequest => JwtSvidRequest
  | jwtSvidResponse => JwtSvidResponse
  | jwtBundlesResponse => JwtBundlesResponse
  | validateRequest => ValidateRequest

/-- The message on the wire. -/
def encode : (kind : MessageKind) → kind.Value → Bytes
  | x509SvidRequest | x509BundlesRequest | jwtBundlesRequest => StreamRequest.encode
  | x509SvidResponse => X509SvidResponse.encode
  | x509Svid => X509SvidEntry.encode
  | x509BundlesResponse => X509BundlesResponse.encode
  | jwtSvid => JwtSvidEntry.encode
  | jwtSvidRequest => JwtSvidRequest.encode
  | jwtSvidResponse => JwtSvidResponse.encode
  | jwtBundlesResponse => JwtBundlesResponse.encode
  | validateRequest => ValidateRequest.encode

/-- Reads the message. -/
def decode? : (kind : MessageKind) → Bytes → Option kind.Value
  | x509SvidRequest | x509BundlesRequest | jwtBundlesRequest => StreamRequest.decode?
  | x509SvidResponse => X509SvidResponse.decode?
  | x509Svid => X509SvidEntry.decode?
  | x509BundlesResponse => X509BundlesResponse.decode?
  | jwtSvid => JwtSvidEntry.decode?
  | jwtSvidRequest => JwtSvidRequest.decode?
  | jwtSvidResponse => JwtSvidResponse.decode?
  | jwtBundlesResponse => JwtBundlesResponse.decode?
  | validateRequest => ValidateRequest.decode?

/-- What a message has under each number. -/
def parts : (kind : MessageKind) → kind.Value → List (Nat × Part)
  | x509SvidRequest | x509BundlesRequest | jwtBundlesRequest => fun _ => []
  | x509SvidResponse => X509SvidResponse.parts
  | x509Svid => X509SvidEntry.parts
  | x509BundlesResponse => X509BundlesResponse.parts
  | jwtSvid => JwtSvidEntry.parts
  | jwtSvidRequest => JwtSvidRequest.parts
  | jwtSvidResponse => JwtSvidResponse.parts
  | jwtBundlesResponse => JwtBundlesResponse.parts
  | validateRequest => ValidateRequest.parts

/-- The maps of the message have one entry of a key. -/
def KeysDiffer (kind : MessageKind) (m : kind.Value) : Prop :=
  ∀ part ∈ kind.parts m, part.2.KeysDiffer

/-- The messages say the same: they differ in the order of the entries of their maps at most. -/
def Same : (kind : MessageKind) → kind.Value → kind.Value → Prop
  | x509SvidResponse, m, m' =>
    m.svids = m'.svids ∧ m.revocationLists = m'.revocationLists ∧
      m.federatedBundles.Perm m'.federatedBundles
  | x509BundlesResponse, m, m' =>
    m.revocationLists = m'.revocationLists ∧ m.bundles.Perm m'.bundles
  | jwtBundlesResponse, m, m' => m.bundles.Perm m'.bundles
  | x509SvidRequest, m, m' | x509BundlesRequest, m, m' | jwtBundlesRequest, m, m' => m = m'
  | x509Svid, m, m' => m = m'
  | jwtSvid, m, m' => m = m'
  | jwtSvidRequest, m, m' => m = m'
  | jwtSvidResponse, m, m' => m = m'
  | validateRequest, m, m' => m = m'

/-- The messages of a kind are written and read by their parts, and what is read of a message says
the same. -/
theorem exists_isMessage (kind : MessageKind) : ∃ use inOrder,
    IsMessage use outerLimit kind.parts kind.encode kind.decode? inOrder ∧
      ∀ m, kind.KeysDiffer m → kind.Same m (inOrder m) := by
  cases kind with
  | x509SvidRequest => exact ⟨_, _, StreamRequest.isMessage, fun _ _ => rfl⟩
  | x509SvidResponse =>
    refine ⟨_, _, X509SvidResponse.isMessage, fun m hkeys => ⟨rfl, rfl, ?_⟩⟩
    have hdiffer : (m.federatedBundles.map (·.1)).Nodup :=
      hkeys (3, .entries _) (by simp [parts, X509SvidResponse.parts])
    exact (Keyed.ofList_perm hdiffer).symm
  | x509Svid => exact ⟨_, _, X509SvidEntry.isMessage outerLimit, fun _ _ => rfl⟩
  | x509BundlesRequest => exact ⟨_, _, StreamRequest.isMessage, fun _ _ => rfl⟩
  | x509BundlesResponse =>
    refine ⟨_, _, X509BundlesResponse.isMessage, fun m hkeys => ⟨rfl, ?_⟩⟩
    have hdiffer : (m.bundles.map (·.1)).Nodup :=
      hkeys (2, .entries _) (by simp [parts, X509BundlesResponse.parts])
    exact (Keyed.ofList_perm hdiffer).symm
  | jwtSvid => exact ⟨_, _, JwtSvidEntry.isMessage outerLimit, fun _ _ => rfl⟩
  | jwtSvidRequest => exact ⟨_, _, JwtSvidRequest.isMessage, fun _ _ => rfl⟩
  | jwtSvidResponse => exact ⟨_, _, JwtSvidResponse.isMessage, fun _ _ => rfl⟩
  | jwtBundlesRequest => exact ⟨_, _, StreamRequest.isMessage, fun _ _ => rfl⟩
  | jwtBundlesResponse =>
    refine ⟨_, _, JwtBundlesResponse.isMessage, fun m hkeys => ?_⟩
    have hdiffer : (m.bundles.map (·.1)).Nodup :=
      hkeys (1, .entries _) (by simp [parts, JwtBundlesResponse.parts])
    exact (Keyed.ofList_perm hdiffer).symm
  | validateRequest => exact ⟨_, _, ValidateRequest.isMessage, fun _ _ => rfl⟩

/-- **Messages are read back.** A message is written as the fields of its parts, and the message
that is read says the same. That message is read just so where fields of numbers that are not
the message's stand between its own, if none of them is nested deeper than the limit; if one is,
nothing is read. -/
theorem messages_read_back (kind : MessageKind) (m : kind.Value) (hkeys : kind.KeysDiffer m)
    (hsize : (kind.encode m).length < Nat.pow 2 31) :
    kind.encode m = writeFields (fieldsOf (kind.parts m)) ∧
      ∃ m', kind.Same m m' ∧ kind.decode? (kind.encode m) = some m' ∧
        ∀ depth octets,
          Interspersed ((kind.parts m).map (·.1)) depth (fieldsOf (kind.parts m)) octets →
            kind.decode? octets = if depth ≤ outerLimit then some m' else none := by
  have hlarge : Nat.pow 2 31 ≤ Nat.pow 2 64 := by decide
  have hfits : (kind.encode m).length < Nat.pow 2 64 := Nat.lt_of_lt_of_le hsize hlarge
  have houter : 0 < outerLimit := by decide
  obtain ⟨_, inOrder, hmessage, hsame⟩ := kind.exists_isMessage
  exact ⟨hmessage.writes m, inOrder m, hsame m hkeys, hmessage.read_write houter hfits,
    fun _ _ hother => hmessage.read_interspersed houter hfits hother⟩

/-- A revocation list and two bundles, one of them empty. -/
def twoBundles : X509BundlesResponse := ⟨[[7]], [("b", [1]), ("a", [])]⟩

theorem messages_read_back_twoBundles :
    x509BundlesResponse.KeysDiffer twoBundles ∧
      (x509BundlesResponse.encode twoBundles).length < Nat.pow 2 31 ∧
      ∃ m', x509BundlesResponse.Same twoBundles m' ∧
        x509BundlesResponse.decode? (x509BundlesResponse.encode twoBundles) = some m' ∧
        x509BundlesResponse.decode? (writeField 1 [7] ++ (nested 9 2 ++
          writeFields [(2, writeEntry ("b", [1])), (2, writeEntry ("a", []))])) = some m' := by
  have hkeys : x509BundlesResponse.KeysDiffer twoBundles := by
    simp [KeysDiffer, parts, X509BundlesResponse.parts, twoBundles, Part.KeysDiffer]
  have hsize : (x509BundlesResponse.encode twoBundles).length < Nat.pow 2 31 := by decide +kernel
  have hstray : Writes 2 (.field 9) (nested 9 2) := writes_nested (by decide) (by decide) 1
  have hother : Interspersed [1, 2] 2 (fieldsOf (parts x509BundlesResponse twoBundles))
      (writeField 1 [7] ++ (nested 9 2 ++
        writeFields [(2, writeEntry ("b", [1])), (2, writeEntry ("a", []))])) :=
    .field (.unknown (by decide) hstray (interspersed_writeFields _ _))
  obtain ⟨-, m', hsame, hread, hothers⟩ :=
    messages_read_back x509BundlesResponse twoBundles hkeys hsize
  refine ⟨hkeys, hsize, m', hsame, hread, ?_⟩
  rw [hothers 2 _ hother, if_pos (by decide)]

/-- Fields that a message does not have may be nested so deep that it is not read. -/
theorem deep_fields_unread :
    ¬ ∀ (kind : MessageKind) (m : kind.Value) (depth : Nat) (octets : Bytes),
      kind.KeysDiffer m → (kind.encode m).length < Nat.pow 2 31 →
        Interspersed ((kind.parts m).map (·.1)) depth (fieldsOf (kind.parts m)) octets →
          kind.decode? octets = kind.decode? (kind.encode m) := by
  intro h
  have hkeys : x509SvidResponse.KeysDiffer ⟨[], [], []⟩ := by
    simp [KeysDiffer, parts, X509SvidResponse.parts, Part.KeysDiffer]
  have hsize : (x509SvidResponse.encode ⟨[], [], []⟩).length < Nat.pow 2 31 := by decide
  have hstray : Writes 101 (.field 9) (nested 9 101) := writes_nested (by decide) (by decide) 100
  -- nothing but the group is written, and it is one deeper than the limit
  have hother : Interspersed [1, 2, 3] 101 (fieldsOf (parts x509SvidResponse ⟨[], [], []⟩))
      (nested 9 101 ++ []) := .unknown (by decide) hstray .done
  have hread := h x509SvidResponse ⟨[], [], []⟩ 101 _ hkeys hsize hother
  have houter : 0 < outerLimit := by decide
  have hlarge : Nat.pow 2 31 ≤ Nat.pow 2 64 := by decide
  have hempty : x509SvidResponse.decode? (x509SvidResponse.encode ⟨[], [], []⟩) =
      some ⟨[], [], []⟩ := rfl
  have hnone := X509SvidResponse.isMessage.read_interspersed houter
    (Nat.lt_of_lt_of_le hsize hlarge) hother
  rw [if_neg (by decide)] at hnone
  rw [hempty] at hread
  cases hread.symm.trans hnone

end MessageKind
end WorkloadIdentity
