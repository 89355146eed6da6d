/-
# Fields in writing

What octets write, said without a reader: numbers in groups of seven bits, of which more may be
written than are needed (`Wire.WritesVarint`), keys and contents, and fields one after the other
with groups within groups (`Wire.Writes`), so that a field comes with how deep its groups are
nested. A field that is no group has a depth of one.

Whatever is written so is read, and what follows it is left (`Wire.readVarint_append`,
`Wire.readKey_append`, `Wire.readBlock_append`). A field is passed over if and only if it is not
nested deeper than the limit (`Wire.skipField_append`).

Key definitions: `Wire.WritesVarint`, `Wire.WritesKey`, `Wire.WritesContent`, `Wire.Writes`.
Key theorems: `Wire.readVarint_append`, `Wire.writesVarint_writeVarint`, `Wire.readKey_append`,
`Wire.readBlock_append`, `Wire.skipGroups_writes`, `Wire.skipField_append`.
-/
import Mathlib.Logic.Basic
import WorkloadIdentity.Wire.Field

namespace WorkloadIdentity
namespace Wire

/-! ### Numbers -/

/-- The octets write the number, seven bits each and the lowest first. The last of them may be
zeros. -/
inductive WritesGroups : Nat → Bytes → Prop where
  | last {b : UInt8} : b.toNat < 128 → WritesGroups b.toNat [b]
  | more {b : UInt8} {high : Nat} {octets : Bytes} : 128 ≤ b.toNat → WritesGroups high octets →
      WritesGroups (b.toNat % 128 + 128 * high) (b :: octets)

/-- The octets, ten at most, write a number of sixty-four bits. -/
structure WritesVarint (n : Nat) (octets : Bytes) : Prop where
  groups : WritesGroups n octets
  short : octets.length ≤ 10
  fits : n < Nat.pow 2 64

theorem WritesGroups.length_pos {n : Nat} {octets : Bytes} (h : WritesGroups n octets) :
    0 < octets.length := by
  cases h <;> simp

theorem readGroups_append {n : Nat} {octets : Bytes} (h : WritesGroups n octets) :
    ∀ {count : Nat}, octets.length ≤ count + 1 → n < 2 * Nat.pow 128 count →
      ∀ rest, readGroups (count + 1) (octets ++ rest) = some (n, rest) := by
  induction h with
  | @last b hb =>
    intro count _ hfits rest
    have htenth : ¬ (count = 0 ∧ 2 ≤ b.toNat) := by
      rintro ⟨rfl, hlarge⟩
      have hone : Nat.pow 128 0 = 1 := rfl
      omega
    rw [List.singleton_append, readGroups, if_pos hb, if_neg htenth]
  | @more b high octets hb hgroups ih =>
    intro count hshort hfits rest
    have hpos := hgroups.length_pos
    rw [List.length_cons] at hshort
    obtain ⟨k, rfl⟩ : ∃ k, count = k + 1 := ⟨count - 1, by omega⟩
    have hpow : Nat.pow 128 (k + 1) = Nat.pow 128 k * 128 := rfl
    rw [List.cons_append, readGroups, if_neg (by omega), ih (by omega) (by omega), Option.map_some]

/-- **A number is read**, whatever follows it. -/
theorem readVarint_append {n : Nat} {octets : Bytes} (h : WritesVarint n octets) (rest : Bytes) :
    readVarint (octets ++ rest) = some (n, rest) :=
  readGroups_append h.groups h.short h.fits rest

theorem writesGroups_writeVarint (n : Nat) : WritesGroups n (writeVarint n) := by
  induction n using writeVarint.induct with
  | case1 n hsmall =>
    have hoctet : (UInt8.ofNat n).toNat = n := by
      rw [UInt8.toNat_ofNat']
      omega
    have hlast : WritesGroups (UInt8.ofNat n).toNat [UInt8.ofNat n] := .last (by omega)
    rw [writeVarint, if_pos hsmall]
    rwa [hoctet] at hlast
  | case2 n hlarge ih =>
    have hoctet : (UInt8.ofNat (n % 128 + 128)).toNat = n % 128 + 128 := by
      rw [UInt8.toNat_ofNat']
      omega
    have hmore := WritesGroups.more (b := UInt8.ofNat (n % 128 + 128)) (by omega) ih
    have hwhole : (n % 128 + 128) % 128 + 128 * (n / 128) = n := by omega
    rw [writeVarint, if_neg hlarge]
    rwa [hoctet, hwhole] at hmore

theorem length_writeVarint_le : ∀ {count n : Nat}, n < Nat.pow 128 (count + 1) →
    (writeVarint n).length ≤ count + 1
  | 0, n, h => by
    have hone : Nat.pow 128 (0 + 1) = 128 := rfl
    rw [writeVarint, if_pos (by omega)]
    exact Nat.le_refl 1
  | count + 1, n, h => by
    have hpow : Nat.pow 128 (count + 1 + 1) = Nat.pow 128 (count + 1) * 128 := rfl
    rw [writeVarint]
    split
    · simp
    · rw [List.length_cons]
      have hrest : (writeVarint (n / 128)).length ≤ count + 1 := length_writeVarint_le (by omega)
      omega

theorem writesVarint_writeVarint {n : Nat} (h : n < Nat.pow 2 64) :
    WritesVarint n (writeVarint n) where
  groups := writesGroups_writeVarint n
  short := by
    have hpow : Nat.pow 2 64 ≤ Nat.pow 128 10 := by decide
    exact length_writeVarint_le (Nat.lt_of_lt_of_le h hpow)
  fits := h

/-! ### Keys -/

/-- The code of a form. -/
def Form.code : Form → Nat
  | varint => 0
  | octets8 => 1
  | block => 2
  | groupStart => 3
  | groupEnd => 4
  | octets4 => 5

theorem Form.code_lt (form : Form) : form.code < 8 := by
  cases form <;> decide

theorem Form.ofCode?_code (form : Form) : ofCode? form.code = some form := by
  cases form <;> rfl

/-- The octets write the key, which is of thirty-two bits and has a number that is not zero. -/
structure WritesKey (key : Key) (octets : Bytes) : Prop where
  varint : WritesVarint (key.number * 8 + key.form.code) octets
  fits : key.number * 8 + key.form.code < Nat.pow 2 32
  pos : 0 < key.number

theorem readKey_append {key : Key} {octets : Bytes} (h : WritesKey key octets) (rest : Bytes) :
    readKey (octets ++ rest) = some (key, rest) := by
  have hcode := key.form.code_lt
  have hpos := h.pos
  have hform : (key.number * 8 + key.form.code) % 8 = key.form.code := by omega
  have hnumber : (key.number * 8 + key.form.code) / 8 = key.number := by omega
  have hgood : ¬ (Nat.pow 2 32 ≤ key.number * 8 + key.form.code ∨ key.number = 0) := by
    rintro (hlarge | hzero)
    · exact absurd h.fits (Nat.not_lt.mpr hlarge)
    · omega
  unfold readKey
  rw [readVarint_append h.varint]
  simp only [Option.bind_eq_bind, Option.bind_some, hform, hnumber, Form.ofCode?_code, if_neg hgood]

theorem writesKey_writeVarint {key : Key} (hfits : key.number * 8 + key.form.code < Nat.pow 2 32)
    (hpos : 0 < key.number) : WritesKey key (writeVarint (key.number * 8 + key.form.code)) := by
  have hlarge : Nat.pow 2 32 ≤ Nat.pow 2 64 := by decide
  exact ⟨writesVarint_writeVarint (Nat.lt_of_lt_of_le hfits hlarge), hfits, hpos⟩

theorem WritesKey.length_pos {key : Key} {octets : Bytes} (h : WritesKey key octets) :
    0 < octets.length := h.varint.groups.length_pos

/-! ### Contents -/

/-- The octets are a content of the form, which is none of a group. -/
inductive WritesContent : Form → Bytes → Prop where
  | varint {n : Nat} {octets : Bytes} : WritesVarint n octets → WritesContent .varint octets
  | octets8 {octets : Bytes} : octets.length = 8 → WritesContent .octets8 octets
  | block {size block : Bytes} : WritesVarint block.length size →
      WritesContent .block (size ++ block)
  | octets4 {octets : Bytes} : octets.length = 4 → WritesContent .octets4 octets

theorem readBlock_append {size block : Bytes} (h : WritesVarint block.length size) (rest : Bytes) :
    readBlock (size ++ (block ++ rest)) = some (block, rest) := by
  unfold readBlock
  rw [readVarint_append h]
  simp only [Option.bind_eq_bind, Option.bind_some]
  rw [if_pos (by simp), List.take_left, List.drop_left]

theorem skipOctets_append (octets rest : Bytes) :
    skipOctets octets.length (octets ++ rest) = some rest := by
  unfold skipOctets
  rw [if_pos (by simp), List.drop_left]

theorem skipContent_append {form : Form} {octets : Bytes} (h : WritesContent form octets)
    (rest : Bytes) : skipContent form (octets ++ rest) = some rest := by
  cases h with
  | varint hn => rw [skipContent, readVarint_append hn, Option.map_some]
  | octets8 hlength => rw [skipContent, ← hlength, skipOctets_append]
  | @block size block hsize =>
    rw [skipContent, List.append_assoc, readBlock_append hsize, Option.map_some]
  | octets4 hlength => rw [skipContent, ← hlength, skipOctets_append]

/-! ### Fields -/

/-- What octets may write. -/
inductive Piece where
  | field (number : Nat)
  /-- Fields one after the other. -/
  | fields

/-- The octets write the piece, and fields in it are nested so deep. -/
inductive Writes : Nat → Piece → Bytes → Prop where
  | plain {form : Form} {n : Nat} {key content : Bytes} :
      WritesKey ⟨n, form⟩ key → WritesContent form content → Writes 1 (.field n) (key ++ content)
  | group {d n : Nat} {start inner stop : Bytes} :
      WritesKey ⟨n, .groupStart⟩ start → Writes d .fields inner → WritesKey ⟨n, .groupEnd⟩ stop →
      Writes (d + 1) (.field n) (start ++ (inner ++ stop))
  | done : Writes 0 .fields []
  | next {d d' n : Nat} {own more : Bytes} :
      Writes d (.field n) own → Writes d' .fields more → Writes (max d d') .fields (own ++ more)

/-! ### Passing over fields -/

variable {limit count n group : Nat} {outer : List Nat} {octets rest after : Bytes}

theorem skipGroups_end (hkey : readKey octets = some (⟨n, .groupEnd⟩, rest)) :
    skipGroups limit (count + 1) (group :: outer) octets =
      if n = group then skipGroups limit count outer rest else none := by
  rw [skipGroups, hkey]
  rfl

theorem skipGroups_start (hkey : readKey octets = some (⟨n, .groupStart⟩, rest)) :
    skipGroups limit (count + 1) (group :: outer) octets =
      if limit ≤ outer.length + 1 then none
      else skipGroups limit count (n :: group :: outer) rest := by
  rw [skipGroups, hkey]
  rfl

theorem skipGroups_plain {form : Form} (hstart : form ≠ .groupStart) (hend : form ≠ .groupEnd)
    (hkey : readKey octets = some (⟨n, form⟩, rest)) :
    skipGroups limit (count + 1) (group :: outer) octets =
      if limit ≤ outer.length + 1 then none
      else (skipContent form rest).bind (skipGroups limit count (group :: outer)) := by
  rw [skipGroups, hkey]
  cases form with
  | groupStart => exact absurd rfl hstart
  | groupEnd => exact absurd rfl hend
  | varint => rfl
  | octets8 => rfl
  | block => rfl
  | octets4 => rfl

theorem WritesContent.ne_group {form : Form} {content : Bytes} (h : WritesContent form content) :
    form ≠ .groupStart ∧ form ≠ .groupEnd := by
  cases h <;> exact ⟨nofun, nofun⟩

/-- A count that is enough to find the end of some groups is enough if it is greater. -/
theorem skipGroups_mono : ∀ {count count' : Nat} {groups : List Nat} {octets after : Bytes},
    skipGroups limit count groups octets = some after → count ≤ count' →
      skipGroups limit count' groups octets = some after
  | _, _, [], _, _, h, _ => by
    unfold skipGroups at h ⊢
    exact h
  | 0, _, _ :: _, _, _, h, _ => by cases h
  | count + 1, count', group :: outer, octets, after, h, hle => by
    obtain ⟨count', rfl⟩ : ∃ k, count' = k + 1 := ⟨count' - 1, by omega⟩
    have hle' : count ≤ count' := Nat.le_of_succ_le_succ hle
    obtain ⟨⟨⟨n, form⟩, rest⟩, hkey⟩ : ∃ read, readKey octets = some read := by
      cases hread : readKey octets with
      | none =>
        rw [skipGroups, hread] at h
        cases h
      | some read => exact ⟨read, rfl⟩
    by_cases hend : form = .groupEnd
    · subst hend
      rw [skipGroups_end hkey] at h ⊢
      split at h
      · rename_i hsame
        rw [if_pos hsame]
        exact skipGroups_mono h hle'
      · cases h
    by_cases hstart : form = .groupStart
    · subst hstart
      rw [skipGroups_start hkey] at h ⊢
      split at h
      · cases h
      · rename_i hdeep
        rw [if_neg hdeep]
        exact skipGroups_mono h hle'
    · rw [skipGroups_plain hstart hend hkey] at h ⊢
      split at h
      · cases h
      · rename_i hdeep
        obtain ⟨rest', hcontent, h⟩ := Option.bind_eq_some_iff.mp h
        rw [if_neg hdeep, hcontent, Option.bind_some]
        exact skipGroups_mono h hle'

/-- The fields in a group are passed over if they are not nested too deep: what is found after
what follows them is found after them. -/
theorem skipGroups_writes {d : Nat} {piece : Piece} {own : Bytes} (h : Writes d piece own) :
    ∀ {group : Nat} {outer : List Nat} {count count' : Nat} {rest after : Bytes},
      outer.length + 1 + d ≤ limit → skipGroups limit count (group :: outer) rest = some after →
      count + own.length ≤ count' →
      skipGroups limit count' (group :: outer) (own ++ rest) = some after := by
  induction h with
  | @plain form n key content hkey hcontent =>
    intro group outer count count' rest after hlimit hrest hcount
    obtain ⟨hstart, hend⟩ := hcontent.ne_group
    have hpos := hkey.length_pos
    rw [List.length_append] at hcount
    obtain ⟨k, rfl⟩ : ∃ k, count' = k + 1 := ⟨count' - 1, by omega⟩
    rw [List.append_assoc, skipGroups_plain hstart hend (readKey_append hkey _), if_neg (by omega),
      skipContent_append hcontent, Option.bind_some]
    exact skipGroups_mono hrest (by omega)
  | @group d n start inner stop hstart _ hstop ih =>
    intro group outer count count' rest after hlimit hrest hcount
    have hpos := hstart.length_pos
    have hpos' := hstop.length_pos
    simp only [List.length_append] at hcount
    obtain ⟨k, rfl⟩ : ∃ k, count' = k + 1 := ⟨count' - 1, by omega⟩
    -- behind the fields of the group comes the key that closes it
    have hclosed : skipGroups limit (count + 1) (n :: group :: outer) (stop ++ rest) =
        some after := by
      rw [skipGroups_end (readKey_append hstop _), if_pos rfl]
      exact hrest
    rw [List.append_assoc, List.append_assoc, skipGroups_start (readKey_append hstart _),
      if_neg (by omega)]
    exact ih (by rw [List.length_cons]; omega) hclosed (by omega)
  | done =>
    intro group outer count count' rest after _ hrest hcount
    exact skipGroups_mono hrest hcount
  | @next d d' n own more _ _ ih ih' =>
    intro group outer count count' rest after hlimit hrest hcount
    rw [List.length_append] at hcount
    have hmore : skipGroups limit (count + more.length) (group :: outer) (more ++ rest) =
        some after := ih' (by omega) hrest (Nat.le_refl _)
    rw [List.append_assoc]
    exact ih (by omega) hmore (by omega)

/-- If the end of some groups is found, the fields in the innermost of them are not nested too
deep, and the end is found after them. -/
theorem exists_skipGroups_of_writes {d : Nat} {piece : Piece} {own : Bytes}
    (h : Writes d piece own) :
    ∀ {group : Nat} {outer : List Nat} {count : Nat} {rest after : Bytes},
      outer.length + 1 ≤ limit → skipGroups limit count (group :: outer) (own ++ rest) = some after →
      outer.length + 1 + d ≤ limit ∧
        ∃ count', skipGroups limit count' (group :: outer) rest = some after := by
  induction h with
  | @plain form n key content hkey hcontent =>
    intro group outer count rest after _ hskip
    obtain ⟨hstart, hend⟩ := hcontent.ne_group
    cases count with
    | zero => cases hskip
    | succ count =>
      rw [List.append_assoc, skipGroups_plain hstart hend (readKey_append hkey _)] at hskip
      split at hskip
      · cases hskip
      · rw [skipContent_append hcontent, Option.bind_some] at hskip
        exact ⟨by omega, count, hskip⟩
  | @group d n start inner stop hstart _ hstop ih =>
    intro group outer count rest after _ hskip
    cases count with
    | zero => cases hskip
    | succ count =>
      rw [List.append_assoc, List.append_assoc, skipGroups_start (readKey_append hstart _)] at hskip
      split at hskip
      · cases hskip
      · have hopen : (group :: outer).length + 1 ≤ limit := by
          rw [List.length_cons]
          omega
        obtain ⟨hdeep, count', hskip⟩ := ih hopen hskip
        rw [List.length_cons] at hdeep
        cases count' with
        | zero => cases hskip
        | succ count' =>
          rw [skipGroups_end (readKey_append hstop _), if_pos rfl] at hskip
          exact ⟨by omega, count', hskip⟩
  | done =>
    intro group outer count rest after hopen hskip
    exact ⟨hopen, count, hskip⟩
  | @next d d' n own more _ _ ih ih' =>
    intro group outer count rest after hopen hskip
    rw [List.append_assoc] at hskip
    obtain ⟨hfirst, count', hskip⟩ := ih hopen hskip
    obtain ⟨hlater, hskip⟩ := ih' hopen hskip
    exact ⟨by omega, hskip⟩

theorem skipField_plain {form : Form} (hstart : form ≠ .groupStart) :
    skipField limit ⟨n, form⟩ octets = skipContent form octets := by
  unfold skipField
  split
  · rename_i hform
    exact absurd hform hstart
  · rfl

/-- **A field is passed over if and only if it is not nested too deep.** -/
theorem skipField_append {d n : Nat} {own : Bytes} (h : Writes d (.field n) own)
    (hlimit : 0 < limit) (rest : Bytes) :
    ∃ form content, readKey (own ++ rest) = some (⟨n, form⟩, content) ∧
      skipField limit ⟨n, form⟩ content = if d ≤ limit then some rest else none := by
  cases h with
  | @plain form _ key content hkey hcontent =>
    refine ⟨form, content ++ rest, ?_, ?_⟩
    · rw [List.append_assoc]
      exact readKey_append hkey _
    · obtain ⟨hstart, -⟩ := hcontent.ne_group
      rw [skipField_plain hstart, skipContent_append hcontent, if_pos (Nat.succ_le_of_lt hlimit)]
  | @group d _ start inner stop hstart hinner hstop =>
    refine ⟨.groupStart, inner ++ (stop ++ rest), ?_, ?_⟩
    · simp only [List.append_assoc]
      exact readKey_append hstart _
    · have hpos := hstop.length_pos
      have hclosed : skipGroups limit 1 [n] (stop ++ rest) = some rest := by
        rw [skipGroups_end (readKey_append hstop _), if_pos rfl]
        rfl
      unfold skipField
      simp only
      split
      · rename_i hdeep
        refine skipGroups_writes hinner ?_ hclosed ?_
        · rw [List.length_nil]
          omega
        · simp only [List.length_append]
          omega
      · rename_i hdeep
        refine Option.eq_none_iff_forall_ne_some.mpr fun after hskip => hdeep ?_
        obtain ⟨hfits, -⟩ := exists_skipGroups_of_writes hinner (by rw [List.length_nil]; omega) hskip
        rw [List.length_nil] at hfits
        omega

end Wire
end WorkloadIdentity
