/-
# Elements end by themselves

An element says how long it is, so a reader knows where what it reads ends: it
takes some octets from the front and never looks at what follows them. Such a
reader is `Framed`. Readers of tags, lengths and elements are framed, and so is
whatever is read from the content of one element (`framed_sequence`), however
tolerantly that is done.

Key definitions: `Der.Reader.Framed`.
Key theorems: `Der.Reader.Framed.bind`, `Der.Reader.framed_element`,
`Der.Reader.framed_sequence`.
-/
import Mathlib.Logic.Basic
import WorkloadIdentity.Der.Reader

namespace WorkloadIdentity
namespace Der
namespace Reader

variable {α β : Type}

/-- What the reader takes from the front tells what it reads, whatever follows. -/
def Framed (reader : Reader α) : Prop :=
  ∀ (octets : Bytes) (a : α) (rest : Bytes), reader octets = some (a, rest) →
    ∃ own, octets = own ++ rest ∧ ∀ after, reader (own ++ after) = some (a, after)

/-! ### Readers one after the other -/

theorem bind_apply (reader : Reader α) (next : α → Reader β) (octets : Bytes) :
    (reader >>= next) octets = (reader octets).bind fun (a, rest) => next a rest := rfl

theorem Framed.bind {reader : Reader α} {next : α → Reader β} (h : Framed reader)
    (hnext : ∀ a, Framed (next a)) : Framed (reader >>= next) := by
  intro octets b rest hread
  rw [bind_apply, Option.bind_eq_some_iff] at hread
  obtain ⟨⟨a, middle⟩, hfirst, hsecond⟩ := hread
  obtain ⟨own, rfl, hown⟩ := h _ _ _ hfirst
  obtain ⟨own', rfl, hown'⟩ := hnext a _ _ _ hsecond
  refine ⟨own ++ own', (List.append_assoc _ _ _).symm, fun after => ?_⟩
  rw [bind_apply, List.append_assoc, hown, Option.bind_some]
  exact hown' after

theorem framed_pure (a : α) : Framed (pure a : Reader α) := by
  intro octets a' rest h
  obtain ⟨rfl, rfl⟩ := Prod.mk.inj (Option.some.inj h)
  exact ⟨[], rfl, fun _ => rfl⟩

theorem framed_failure : Framed (failure : Reader α) := by
  intro octets a rest h
  cases h

/-- What is known without reading is framed. -/
theorem framed_lift (a? : Option α) : Framed (liftM a? : Reader α) := by
  cases a? with
  | none => exact framed_failure
  | some a => exact framed_pure a

/-! ### Tags, lengths and elements -/

theorem framed_readNumber : ∀ (count acc : Nat), Framed (readNumber acc count)
  | 0, acc => by
    intro octets number rest h
    cases octets <;> cases h
  | count + 1, acc => by
    intro octets number rest h
    cases octets with
    | nil => cases h
    | cons b octets =>
      rw [readNumber] at h
      split at h
      · rename_i hlast
        obtain ⟨rfl, rfl⟩ := Prod.mk.inj (Option.some.inj h)
        refine ⟨[b], rfl, fun after => ?_⟩
        rw [List.singleton_append, readNumber, if_pos hlast]
      · rename_i hmore
        obtain ⟨own, rfl, hown⟩ := framed_readNumber count _ _ _ _ h
        refine ⟨b :: own, rfl, fun after => ?_⟩
        rw [List.cons_append, readNumber, if_neg hmore]
        exact hown after

theorem framed_readTag : Framed readTag := by
  intro octets tag rest h
  cases octets with
  | nil => cases h
  | cons first octets =>
    simp only [readTag] at h
    split at h
    · rename_i hlong
      obtain ⟨⟨number, rest'⟩, hnumber, h⟩ := Option.map_eq_some_iff.mp h
      obtain ⟨rfl, rfl⟩ := Prod.mk.inj h
      obtain ⟨own, rfl, hown⟩ := framed_readNumber _ _ _ _ _ hnumber
      refine ⟨first :: own, rfl, fun after => ?_⟩
      rw [List.cons_append, readTag, if_pos hlong, hown after]
      rfl
    · rename_i hshort
      obtain ⟨rfl, rfl⟩ := Prod.mk.inj (Option.some.inj h)
      refine ⟨[first], rfl, fun after => ?_⟩
      rw [List.singleton_append, readTag, if_neg hshort]

theorem framed_readLength : Framed readLength := by
  intro octets size rest h
  cases octets with
  | nil => cases h
  | cons first octets =>
    simp only [readLength] at h
    split at h
    · rename_i hshort
      obtain ⟨rfl, rfl⟩ := Prod.mk.inj (Option.some.inj h)
      refine ⟨[first], rfl, fun after => ?_⟩
      rw [List.singleton_append, readLength, if_pos hshort]
    · rename_i hlong
      split at h
      · cases h
      · rename_i hfits
        obtain ⟨rfl, rfl⟩ := Prod.mk.inj (Option.some.inj h)
        have hcount : (octets.take (first.toNat - 128)).length = first.toNat - 128 := by
          rw [List.length_take]
          omega
        refine ⟨first :: octets.take (first.toNat - 128), ?_, fun after => ?_⟩
        · rw [List.cons_append, List.take_append_drop]
        · rw [List.cons_append, readLength, if_neg hlong]
          simp only [List.take_left' hcount, List.drop_left' hcount]
          rw [if_neg]
          rw [List.length_append, hcount]
          omega

theorem framed_take (tag : Tag) (size : Nat) : Framed (Element.take tag size) := by
  intro octets e rest h
  unfold Element.take at h
  split at h
  · rename_i hfits
    obtain ⟨rfl, rfl⟩ := Prod.mk.inj (Option.some.inj h)
    have hsize : (octets.take size).length = size := List.length_take_of_le hfits
    refine ⟨octets.take size, (List.take_append_drop _ _).symm, fun after => ?_⟩
    rw [Element.take, if_pos (by rw [List.length_append, hsize]; omega), List.take_left' hsize,
      List.drop_left' hsize]
  · cases h

theorem framed_readHeader : Framed readHeader :=
  Framed.bind framed_readTag fun tag => Framed.bind framed_readLength fun size =>
    framed_pure (tag, size)

theorem framed_element : Framed element :=
  Framed.bind framed_readHeader fun header => framed_take header.1 header.2

/-- Whatever is made of the content of a sequence, the sequence ends by itself. -/
theorem framed_sequence (inner : Reader α) : Framed (sequence inner) := by
  refine Framed.bind framed_element fun e => ?_
  split
  · exact framed_lift _
  · exact framed_failure

end Reader
end Der
end WorkloadIdentity
