/-
# Fields of a message, and others between them

A message is a list of parts, each under a number (`Wire.Part`): one text or octets, which are
left out when empty, or several texts, octets, messages or entries of a map. Its fields are the
blocks of its parts in order (`Wire.fieldsOf`). Between them may stand fields that the message
does not have (`Wire.Interspersed`). Reading gives just the fields of the message, if none of the
others is nested too deep (`Wire.readFields_interspersed`), and each part is made again of the
blocks of its number. A type whose writing and reading go by parts (`Wire.IsMessage`) is read back
(`Wire.IsMessage.read_interspersed`); the entries of maps are one (`Wire.isMessage_entry`).

Key definitions: `Wire.Part`, `Wire.fieldsOf`, `Wire.writeFields`, `Wire.Interspersed`,
`Wire.Knows`, `Wire.IsMessage`.
Key theorems: `Wire.interspersed_writeFields`, `Wire.readFields_interspersed`,
`Wire.blocks_fieldsOf_cons`, `Wire.writeFields_fieldsOf_cons`, `Wire.IsMessage.read_interspersed`,
`Wire.isMessage_entry`.
-/
import WorkloadIdentity.Proofs.Outcome
import WorkloadIdentity.Proofs.Text.Utf8
import WorkloadIdentity.Proofs.Wire.Grammar

namespace WorkloadIdentity
namespace Wire

/-! ### Fields -/

/-- Writes fields one after the other. -/
def writeFields (fields : List Field) : Bytes :=
  fields.flatMap fun field => writeField field.1 field.2

/-- The octets write the fields in order, and before, between and after them fields of numbers
that are not known. These are nested so deep. -/
inductive Interspersed (known : List Nat) : Nat → List Field → Bytes → Prop where
  | done : Interspersed known 0 [] []
  | field {d n : Nat} {block : Bytes} {fields : List Field} {octets : Bytes} :
      Interspersed known d fields octets →
      Interspersed known d ((n, block) :: fields) (writeField n block ++ octets)
  | unknown {d d' n : Nat} {own : Bytes} {fields : List Field} {octets : Bytes} :
      n ∉ known → Writes d (.field n) own → Interspersed known d' fields octets →
      Interspersed known (max d d') fields (own ++ octets)

/-- There may be no other fields. -/
theorem interspersed_writeFields (known : List Nat) : ∀ fields : List Field,
    Interspersed known 0 fields (writeFields fields)
  | [] => .done
  | (_, _) :: fields => .field (interspersed_writeFields known fields)

/-- Each block is within the writing. -/
theorem length_le_writeFields {field : Field} : ∀ {fields : List Field}, field ∈ fields →
    field.2.length ≤ (writeFields fields).length
  | other :: fields, h => by
    have hcons : writeFields (other :: fields) =
        writeField other.1 other.2 ++ writeFields fields := List.flatMap_cons
    rw [hcons, List.length_append]
    rcases List.mem_cons.mp h with rfl | h
    · simp only [writeField, List.length_append]
      omega
    · have hrest := length_le_writeFields h
      omega

/-! ### Reading fields -/

variable {use : Nat → Use} {known : List Nat} {limit d : Nat} {fields : List Field}
  {octets : Bytes}

/-- A message has the fields of these numbers. -/
structure Knows (use : Nat → Use) (known : List Nat) : Prop where
  skips : ∀ n, use n = .skip ↔ n ∉ known
  bounds : ∀ n ∈ known, 0 < n ∧ n < 16

theorem Knows.writesKey (h : Knows use known) {n : Nat} (hn : n ∈ known) :
    WritesKey ⟨n, .block⟩ (writeVarint (n * 8 + 2)) := by
  obtain ⟨hpos, hsmall⟩ := h.bounds n hn
  have hlarge : 130 < Nat.pow 2 32 := by decide
  have hfits : n * 8 + Form.block.code < Nat.pow 2 32 := by
    rw [Form.code]
    omega
  exact writesKey_writeVarint hfits hpos

theorem ne_nil_of_readKey {read : Key × Bytes} (h : readKey octets = some read) : octets ≠ [] := by
  rintro rfl
  cases h

/-- One field is read or passed over, and then the others. -/
theorem readSome_succ {count : Nat} {key : Key} {rest : Bytes}
    (hkey : readKey octets = some (key, rest)) :
    readSome use limit (count + 1) octets =
      if use key.number = .skip then (skipField limit key rest).bind (readSome use limit count)
      else if use key.number = .block ∧ key.form ≠ .block then none
      else (readBlock rest).bind fun read =>
        (readSome use limit count read.2).map ((key.number, read.1) :: ·) := by
  obtain ⟨b, octets, rfl⟩ := List.exists_cons_of_ne_nil (ne_nil_of_readKey hkey)
  conv =>
    lhs
    unfold readSome
  simp only [hkey, Option.bind_eq_bind, Option.bind_some, Option.map_eq_bind, Function.comp_def,
    Option.pure_def]

theorem Writes.length_pos {n : Nat} {own : Bytes} (h : Writes d (.field n) own) :
    0 < own.length := by
  cases h with
  | plain hkey _ =>
    rw [List.length_append]
    have := hkey.length_pos
    omega
  | group hstart _ _ =>
    rw [List.length_append]
    have := hstart.length_pos
    omega

/-- Each field takes an octet at least, so that a count of the octets is enough for the fields. -/
theorem readSome_interspersed (hknows : Knows use known) (hlimit : 0 < limit)
    (h : Interspersed known d fields octets) :
    (∀ field ∈ fields, field.1 ∈ known ∧ field.2.length < Nat.pow 2 64) →
      ∀ {count : Nat}, octets.length ≤ count →
        readSome use limit count octets = if d ≤ limit then some fields else none := by
  induction h with
  | done =>
    intro _ count _
    rw [if_pos (Nat.zero_le limit)]
    cases count <;> rfl
  | @field d n block fields octets _ ih =>
    intro hfields count hcount
    obtain ⟨⟨(hn : n ∈ known), (hblock : block.length < Nat.pow 2 64)⟩, hfields⟩ :=
      List.forall_mem_cons.mp hfields
    have hkey := hknows.writesKey hn
    have hpos := hkey.length_pos
    have huse : use n ≠ .skip := fun hskip => (hknows.skips n).mp hskip hn
    simp only [writeField, List.length_append] at hcount
    obtain ⟨k, rfl⟩ : ∃ k, count = k + 1 := ⟨count - 1, by omega⟩
    rw [writeField, List.append_assoc, List.append_assoc, readSome_succ (readKey_append hkey _),
      if_neg huse, if_neg (by simp), readBlock_append (writesVarint_writeVarint hblock),
      Option.bind_some, ih hfields (by omega)]
    split <;> rfl
  | @unknown d d' n own fields octets hn hown _ ih =>
    intro hfields count hcount
    have hpos := hown.length_pos
    rw [List.length_append] at hcount
    obtain ⟨k, rfl⟩ : ∃ k, count = k + 1 := ⟨count - 1, by omega⟩
    obtain ⟨form, content, hkey, hskip⟩ := skipField_append hown hlimit octets
    rw [readSome_succ hkey, if_pos ((hknows.skips n).mpr hn), hskip]
    by_cases hdeep : d ≤ limit
    · rw [if_pos hdeep, Option.bind_some, ih hfields (by omega)]
      simp only [Nat.max_le, hdeep, true_and]
    · rw [if_neg hdeep, Option.bind_none, if_neg]
      omega

/-- **The fields of a message are read, whatever other fields are between them**, unless one of
these is nested too deep. -/
theorem readFields_interspersed (hknows : Knows use known) (hlimit : 0 < limit)
    (h : Interspersed known d fields octets)
    (hfields : ∀ field ∈ fields, field.1 ∈ known ∧ field.2.length < Nat.pow 2 64) :
    readFields use limit octets = if d ≤ limit then some fields else none :=
  readSome_interspersed hknows hlimit h hfields (Nat.le_refl _)

/-! ### Parts -/

/-- What a message has under a number. -/
inductive Part where
  | text (s : String)
  | octets (b : Bytes)
  | texts (ss : List String)
  /-- Several octet strings. -/
  | strings (bs : List Bytes)
  /-- Several messages, each in writing. -/
  | messages (ms : List Bytes)
  /-- The entries of a map from texts to octets. -/
  | entries (es : List (String × Bytes))

/-- The blocks that a part is written in. A single text or octets are left out if they are
empty. -/
def Part.blocks : Part → List Bytes
  | .text s => if s = "" then [] else [Utf8.encode s]
  | .octets b => if b = [] then [] else [b]
  | .texts ss => ss.map Utf8.encode
  | .strings bs => bs
  | .messages ms => ms
  | .entries es => es.map writeEntry

/-- Entries are of different keys. -/
def Part.KeysDiffer : Part → Prop
  | .entries es => (es.map (·.1)).Nodup
  | .text _ | .octets _ | .texts _ | .strings _ | .messages _ => True

/-- The fields of parts under their numbers. -/
def fieldsOf (parts : List (Nat × Part)) : List Field :=
  parts.flatMap fun (n, part) => part.blocks.map fun block => (n, block)

theorem fieldsOf_cons (n : Nat) (part : Part) (parts : List (Nat × Part)) :
    fieldsOf ((n, part) :: parts) = part.blocks.map (fun block => (n, block)) ++ fieldsOf parts :=
  List.flatMap_cons

/-- Fields have the numbers of the parts. -/
theorem mem_numbers_of_mem_fieldsOf {field : Field} : ∀ {parts : List (Nat × Part)},
    field ∈ fieldsOf parts → field.1 ∈ parts.map (·.1)
  | (n, part) :: parts, h => by
    rw [fieldsOf_cons, List.mem_append, List.mem_map] at h
    rw [List.map_cons, List.mem_cons]
    rcases h with ⟨block, -, rfl⟩ | h
    · exact .inl rfl
    · exact .inr (mem_numbers_of_mem_fieldsOf h)

theorem mem_fieldsOf {n : Nat} {part : Part} {block : Bytes} {parts : List (Nat × Part)}
    (hpart : (n, part) ∈ parts) (hblock : block ∈ part.blocks) : (n, block) ∈ fieldsOf parts :=
  List.mem_flatMap.mpr ⟨(n, part), hpart, List.mem_map_of_mem hblock⟩

@[simp] theorem blocks_fieldsOf_nil (n : Nat) : blocks n (fieldsOf []) = [] := rfl

/-- The blocks of a number are those of its part. -/
@[simp] theorem blocks_fieldsOf_cons (n k : Nat) (part : Part) (parts : List (Nat × Part)) :
    blocks n (fieldsOf ((k, part) :: parts)) =
      (if k = n then part.blocks else []) ++ blocks n (fieldsOf parts) := by
  have happend : ∀ xs ys : List Field, blocks n (xs ++ ys) = blocks n xs ++ blocks n ys :=
    fun xs ys => List.filterMap_append
  have hown : blocks n (part.blocks.map fun block => (k, block)) =
      if k = n then part.blocks else [] := by
    unfold blocks
    rw [List.filterMap_map]
    by_cases hk : k = n
    · simp [hk]
    · simp [hk]
  rw [fieldsOf_cons, happend, hown]

/-! ### Writing parts -/

@[simp] theorem writeFields_fieldsOf_nil : writeFields (fieldsOf []) = [] := rfl

/-- The blocks of a part are written one after the other. -/
@[simp] theorem writeFields_fieldsOf_cons (n : Nat) (part : Part) (parts : List (Nat × Part)) :
    writeFields (fieldsOf ((n, part) :: parts)) =
      writeEach n part.blocks ++ writeFields (fieldsOf parts) := by
  unfold writeFields writeEach
  rw [fieldsOf_cons, List.flatMap_append, List.flatMap_map]

theorem encode_eq_nil_iff (s : String) : Utf8.encode s = [] ↔ s = "" := by
  constructor
  · intro h
    have hlength := Utf8.length_le_encode s
    rw [h, List.length_nil, Nat.le_zero, List.length_eq_zero_iff] at hlength
    exact String.toList_inj.mp hlength
  · rintro rfl
    rfl

theorem writeBlock_eq (n : Nat) (b : Bytes) : writeBlock n b = writeEach n (Part.octets b).blocks := by
  unfold writeBlock writeEach Part.blocks
  cases b <;> simp

theorem writeText_eq (n : Nat) (s : String) : writeText n s = writeEach n (Part.text s).blocks := by
  unfold writeText
  rw [writeBlock_eq]
  simp only [Part.blocks, encode_eq_nil_iff]

/-! ### Reading parts -/

/-- Fields of parts are of numbers that are known, and none is longer than the writing. -/
theorem bounds_of_mem_fieldsOf {parts : List (Nat × Part)}
    (hsize : (writeFields (fieldsOf parts)).length < Nat.pow 2 64) :
    ∀ field ∈ fieldsOf parts, field.1 ∈ parts.map (·.1) ∧ field.2.length < Nat.pow 2 64 :=
  fun _ hfield => ⟨mem_numbers_of_mem_fieldsOf hfield,
    Nat.lt_of_le_of_lt (length_le_writeFields hfield) hsize⟩

/-- What is written one by one is read one by one. -/
theorem mapM_of_blocks {α : Type} {write : α → Bytes} {read : Bytes → Option α} {n : Nat}
    {xs : List α} (h : blocks n fields = xs.map write)
    (hread : ∀ x ∈ xs, read (write x) = some x) : (blocks n fields).mapM read = some xs := by
  rw [h, some_of_each, List.forall₂_map_left_iff, List.forall₂_same]
  exact hread

theorem texts?_of_blocks {n : Nat} {ss : List String}
    (h : blocks n fields = (Part.texts ss).blocks) : texts? n fields = some ss :=
  mapM_of_blocks h fun s _ => Utf8.decode_encode s

theorem text?_of_blocks {n : Nat} {s : String} (h : blocks n fields = (Part.text s).blocks) :
    text? n fields = some s := by
  have hblocks : (Part.text s).blocks = (Part.texts (if s = "" then [] else [s])).blocks := by
    by_cases hs : s = ""
    · simp [Part.blocks, hs]
    · simp [Part.blocks, hs]
  unfold text?
  rw [texts?_of_blocks (h.trans hblocks), Option.map_some]
  by_cases hs : s = ""
  · simp [hs]
  · simp [hs]

theorem block_of_blocks {n : Nat} {b : Bytes} (h : blocks n fields = (Part.octets b).blocks) :
    block n fields = b := by
  unfold block
  rw [h]
  by_cases hb : b = []
  · simp [Part.blocks, hb]
  · simp [Part.blocks, hb]

/-! ### Messages -/

/-- Messages are written as the fields of their parts, and what is read is made of the fields of
these numbers: if they are those of a message, it is the message with its maps in order. -/
structure IsMessage {α : Type} (use : Nat → Use) (limit : Nat) (parts : α → List (Nat × Part))
    (write : α → Bytes) (read : Bytes → Option α) (inOrder : α → α) : Prop where
  writes : ∀ m, write m = writeFields (fieldsOf (parts m))
  knows : ∀ m, Knows use ((parts m).map (·.1))
  reads : ∃ make : List Field → Option α,
    (∀ octets, read octets = (readFields use limit octets).bind make) ∧
      ∀ m, (∀ field ∈ fieldsOf (parts m), field.2.length < Nat.pow 2 64) →
        make (fieldsOf (parts m)) = some (inOrder m)

section

variable {α : Type} {parts : α → List (Nat × Part)} {write : α → Bytes}
  {read : Bytes → Option α} {inOrder : α → α}

/-- **A message is read, whatever other fields are between its own**, unless one of these is
nested too deep. -/
theorem IsMessage.read_interspersed (h : IsMessage use limit parts write read inOrder) {m : α}
    (hlimit : 0 < limit) (hsize : (write m).length < Nat.pow 2 64)
    (hother : Interspersed ((parts m).map (·.1)) d (fieldsOf (parts m)) octets) :
    read octets = if d ≤ limit then some (inOrder m) else none := by
  obtain ⟨make, hread, hmake⟩ := h.reads
  rw [h.writes] at hsize
  have hbounds := bounds_of_mem_fieldsOf hsize
  rw [hread, readFields_interspersed (h.knows m) hlimit hother hbounds]
  by_cases hd : d ≤ limit
  · rw [if_pos hd, if_pos hd, Option.bind_some]
    exact hmake m fun field hfield => (hbounds field hfield).2
  · rw [if_neg hd, if_neg hd, Option.bind_none]

theorem IsMessage.read_write (h : IsMessage use limit parts write read inOrder) {m : α}
    (hlimit : 0 < limit) (hsize : (write m).length < Nat.pow 2 64) :
    read (write m) = some (inOrder m) := by
  have hread := h.read_interspersed hlimit hsize (interspersed_writeFields _ _)
  rwa [if_pos (Nat.zero_le _), ← h.writes] at hread

end

/-! ### Entries of maps -/

/-- What an entry has under each number. -/
def entryParts (entry : String × Bytes) : List (Nat × Part) :=
  [(1, .text entry.1), (2, .octets entry.2)]

/-- An entry is a message of a text and octets. -/
theorem isMessage_entry : IsMessage (fun n => if n = 1 ∨ n = 2 then .block else .skip) innerLimit
    entryParts writeEntry readEntry? id where
  writes entry := by simp [writeEntry, entryParts, writeText_eq, writeBlock_eq]
  knows entry := ⟨fun n => by simp [entryParts], by simp [entryParts]⟩
  reads := by
    refine ⟨_, fun _ => rfl, fun entry _ => ?_⟩
    have hkey : text? 1 (fieldsOf (entryParts entry)) = some entry.1 :=
      text?_of_blocks (by simp [entryParts])
    have hvalue : block 2 (fieldsOf (entryParts entry)) = entry.2 :=
      block_of_blocks (by simp [entryParts])
    simp [hkey, hvalue]

theorem entries?_of_blocks {n : Nat} {es : List (String × Bytes)}
    (h : blocks n fields = (Part.entries es).blocks)
    (hsize : ∀ entry ∈ es, (writeEntry entry).length < Nat.pow 2 64) :
    entries? n fields = some es := by
  have hlimit : 0 < innerLimit := by decide
  exact mapM_of_blocks h fun entry hentry =>
    isMessage_entry.read_write hlimit (hsize entry hentry)

end Wire
end WorkloadIdentity
