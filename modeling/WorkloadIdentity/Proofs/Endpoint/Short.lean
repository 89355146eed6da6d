/-
# Short forms of endpoints

The two slashes in front of a socket's path or of an address may be left out. A text in the short
form is lengthened before it is read (`Endpoint.lengthen_unix`, `Endpoint.lengthen_tcp`), so it is
read as the long one is, unless more slashes follow, which are those of a long form.

An address and a port are written without slashes, so every address and port can be written either
way (`Endpoint.address_reads_back`). To the URL an address of version 4 is a mere name, which is
read as an address afterwards; one of version 6 stands in brackets and is read as the host.

Key theorems: `Endpoint.parse_short_unix`, `Endpoint.parse_short_tcp`,
`Endpoint.address_reads_back`.
-/
import WorkloadIdentity.Proofs.Endpoint

namespace WorkloadIdentity
namespace Endpoint

/-! ### The long form of a short one -/

theorem lengthen_unix {rest : List Char} (h : rest.head? ≠ some '/') :
    lengthen ("unix:/".toList ++ rest) = "unix:///".toList ++ rest := by
  have hprefix : "unix:/".toList.isPrefixOf? ("unix:/".toList ++ rest) = some rest :=
    List.isPrefixOf?_eq_some_iff_append_eq.mpr rfl
  have hhead : ¬(rest.head? == some '/') = true := fun hhead => h (eq_of_beq hhead)
  simp only [lengthen, hprefix, if_neg hhead]

theorem lengthen_tcp {rest : List Char} (h : rest.take 2 ≠ ['/', '/']) :
    lengthen ("tcp:".toList ++ rest) = "tcp://".toList ++ rest := by
  have hunix : "unix:/".toList.isPrefixOf? ("tcp:".toList ++ rest) = none := rfl
  have hprefix : "tcp:".toList.isPrefixOf? ("tcp:".toList ++ rest) = some rest :=
    List.isPrefixOf?_eq_some_iff_append_eq.mpr rfl
  have hhead : ¬(rest.take 2 == ['/', '/']) = true := fun hhead => h (eq_of_beq hhead)
  simp only [lengthen, hunix, hprefix, if_neg hhead]

theorem lengthen_unix_long (rest : List Char) :
    lengthen ("unix://".toList ++ rest) = "unix://".toList ++ rest := rfl

theorem lengthen_tcp_long (rest : List Char) :
    lengthen ("tcp://".toList ++ rest) = "tcp://".toList ++ rest := rfl

/-- Texts with one long form are read alike. -/
theorem parse_congr {s t : String} (h : lengthen s.toList = lengthen t.toList) :
    parse s = parse t := by
  unfold parse
  rw [h]

/-- A path with one slash in front, without the two slashes. -/
theorem parse_short_unix {path : String} {rest : List Char} (hpath : path.toList = '/' :: rest)
    (h : rest.head? ≠ some '/') : parse ("unix:" ++ path) = parse ("unix://" ++ path) := by
  refine parse_congr ?_
  rw [String.toList_append, String.toList_append, hpath]
  exact (lengthen_unix h).trans (lengthen_unix_long ('/' :: rest)).symm

/-- An address without the two slashes. -/
theorem parse_short_tcp {rest : String} (h : rest.toList.take 2 ≠ ['/', '/']) :
    parse ("tcp:" ++ rest) = parse ("tcp://" ++ rest) := by
  refine parse_congr ?_
  rw [String.toList_append, String.toList_append, lengthen_tcp h, lengthen_tcp_long]

/-! ### Addresses -/

/-- What is written behind the slashes has none. -/
theorem exists_text_tcp (host : IpAddress) (port : Nat) :
    ∃ rest : String, (tcp host port).text = "tcp://" ++ rest ∧ '/' ∉ rest.toList := by
  have hport : '/' ∉ decimal port := fun hc => absurd (isDigit_of_mem_decimal hc) (by decide)
  cases host with
  | v4 x =>
    have hx : '/' ∉ x.text := fun hc => absurd (Ipv4.mem_alphabet_of_mem_text hc) (by decide)
    refine ⟨String.ofList (x.text ++ ':' :: decimal port), ?_, ?_⟩
    · rw [text_v4, ← String.toList_inj, String.toList_append]
      simp
    · rw [String.toList_ofList]
      simp [hx, hport]
  | v6 x =>
    have hx : '/' ∉ x.text := fun hc => absurd (Ipv6.mem_alphabet_of_mem_text hc) (by decide)
    refine ⟨String.ofList ('[' :: (x.text ++ ']' :: ':' :: decimal port)), ?_, ?_⟩
    · rw [text_v6, ← String.toList_inj, String.toList_append]
      simp
    · rw [String.toList_ofList]
      simp [hx, hport]

/-- **Every address and port is read back from its text, and from the text without the slashes.** -/
theorem address_reads_back (host : IpAddress) (port : UInt16) :
    parse (tcp host port.toNat).text = .ok (tcp host port.toNat) ∧
      ∃ rest : String, (tcp host port.toNat).text = "tcp://" ++ rest ∧
        parse ("tcp:" ++ rest) = .ok (tcp host port.toNat) := by
  obtain ⟨rest, htext, hslash⟩ := exists_text_tcp host port.toNat
  have hport : port.toNat ≤ 65535 := Nat.le_of_lt_succ port.toNat_lt
  have hlong : parse (tcp host port.toNat).text = .ok (tcp host port.toNat) :=
    parse_text_tcp host hport
  have hslashes : rest.toList.take 2 ≠ ['/', '/'] := by
    intro htake
    have hmem : '/' ∈ rest.toList.take 2 := by simp [htake]
    exact hslash (List.mem_of_mem_take hmem)
  refine ⟨hlong, rest, htext, ?_⟩
  rw [parse_short_tcp hslashes, ← htext, hlong]

end Endpoint
end WorkloadIdentity
