/-
# Addresses are read back from their writing

The canonical writing of an address reads as that address again
(`Ipv4.parse_text`, `Ipv6.parse_text`). A numeral has the value of the number
that it writes, in both bases. For version 6 the writing leaves out one run of
zero groups; the two colons in its place are the only two in a row, so the
reader finds the groups before and after them and puts as many zeros between as
eight lack. An address that maps one of version 4 is written with that one at
the end, and the two groups that it stands for are the last two.

Key theorems: `Ipv4.parse_text`, `Ipv6.parse_text`, `Ipv6.parse_of_splitAtDoubleColon`.
-/
import WorkloadIdentity.Net.Address
import WorkloadIdentity.Proofs.Text.Characters

namespace WorkloadIdentity

/-! ### Numerals -/

/-- A digit of a numeral is the digit of a number below the base. -/
theorem exists_digitChar {b n : Nat} (hb : 1 < b) {c : Char} (hc : c ∈ Nat.toDigits b n) :
    ∃ d < b, c = d.digitChar := by
  induction n using Nat.strongRecOn with
  | _ n ih =>
    rw [Nat.toDigits_eq_if hb] at hc
    by_cases hlt : n < b
    · rw [if_pos hlt, List.mem_singleton] at hc
      exact ⟨n, hlt, hc⟩
    · rw [if_neg hlt, List.mem_append, List.mem_singleton] at hc
      rcases hc with hc | hc
      · exact ih (n / b) (Nat.div_lt_self (by omega) hb) hc
      · exact ⟨n % b, Nat.mod_lt n (by omega), hc⟩

/-- The digits of a number in decimal have its value. -/
theorem foldl_decimal (n : Nat) :
    (decimal n).foldl (fun n c => n * 10 + (c.toNat - '0'.toNat)) 0 = n := by
  have hvalue : Nat.ofDigitChars 10 (Nat.toDigits 10 n) 0 = n := Nat.ofDigitChars_ten_toDigits
  simpa only [decimal, Nat.ofDigitChars, Nat.mul_comm 10] using hvalue

theorem isDigit_of_mem_decimal {n : Nat} {c : Char} (hc : c ∈ decimal n) : c.isDigit = true :=
  Nat.isDigit_of_mem_toDigits (by decide) (by decide) hc

theorem decimal_ne_nil (n : Nat) : decimal n ≠ [] := Nat.toDigits_ne_nil

theorem Hex.value?_digitChar {d : Nat} (hd : d < 16) : Hex.value? d.digitChar = some d := by
  have hall : (List.range 16).all (fun d => Hex.value? d.digitChar == some d) = true := by
    decide +kernel
  exact eq_of_beq (List.all_eq_true.mp hall d (List.mem_range.mpr hd))

/-- The digits of a number in hexadecimal are read, and have its value. -/
theorem mapM_value?_toDigits (n : Nat) :
    ∃ values, (Nat.toDigits 16 n).mapM Hex.value? = some values ∧
      values.foldl (· * 16 + ·) 0 = n := by
  induction n using Nat.strongRecOn with
  | _ n ih =>
    rw [Nat.toDigits_eq_if (by decide)]
    by_cases hlt : n < 16
    · refine ⟨[n], ?_, by simp⟩
      simp [if_pos hlt, Hex.value?_digitChar hlt]
    · obtain ⟨values, hread, hvalue⟩ := ih (n / 16) (Nat.div_lt_self (by omega) (by decide))
      have hlast : Hex.value? (n % 16).digitChar = some (n % 16) :=
        Hex.value?_digitChar (Nat.mod_lt n (by decide))
      refine ⟨values ++ [n % 16], ?_, ?_⟩
      · simp [if_neg hlt, List.mapM_append, hread, hlast]
      · rw [List.foldl_append, hvalue, List.foldl_cons, List.foldl_nil]
        omega

/-! ### Version 4 -/

namespace Ipv4

/-- The characters of an address in writing. -/
def alphabet : List Char := "0123456789.".toList

theorem mem_alphabet_of_mem_decimal {n : Nat} {c : Char} (hc : c ∈ decimal n) : c ∈ alphabet := by
  obtain ⟨d, hd, rfl⟩ := exists_digitChar (by decide) hc
  have hall : (List.range 10).all (fun d => alphabet.contains d.digitChar) = true := by
    decide +kernel
  simpa using List.all_eq_true.mp hall d (List.mem_range.mpr hd)

theorem text_eq_intercalate (x : Ipv4) : x.text = ['.'].intercalate
    [decimal x.a.toNat, decimal x.b.toNat, decimal x.c.toNat, decimal x.d.toNat] := by
  simp [text, List.intercalate_cons_cons]

theorem mem_alphabet_of_mem_text {x : Ipv4} {c : Char} (hc : c ∈ x.text) : c ∈ alphabet := by
  rw [text_eq_intercalate] at hc
  rcases eq_or_mem_of_mem_intercalate hc with rfl | ⟨part, hpart, hc⟩
  · decide
  · simp only [List.mem_cons, List.not_mem_nil, or_false] at hpart
    rcases hpart with rfl | rfl | rfl | rfl <;> exact mem_alphabet_of_mem_decimal hc

theorem octet?_decimal (b : UInt8) : octet? (decimal b.toNat) = some b :=
  eq_of_beq (forall_octet (p := fun b => octet? (decimal b.toNat) == some b) (by decide +kernel) b)

/-- **A version 4 address is read back from its writing.** -/
theorem parse_text (x : Ipv4) : parse x.text = some x := by
  have hdot (n : Nat) : '.' ∉ decimal n := fun h => absurd (isDigit_of_mem_decimal h) (by decide)
  have hsplit : x.text.splitOn '.' =
      [decimal x.a.toNat, decimal x.b.toNat, decimal x.c.toNat, decimal x.d.toNat] := by
    rw [text_eq_intercalate, List.splitOn_intercalate _ _ (by simp)]
    simp [hdot]
  simp [parse, hsplit, octet?_decimal]

end Ipv4

/-! ### Groups of version 6 -/

namespace Ipv6

/-- The characters of an address in writing. -/
def alphabet : List Char := "0123456789abcdef:.".toList

theorem mem_alphabet_of_mem_groupText {g : UInt16} {c : Char} (hc : c ∈ groupText g) :
    c ∈ alphabet ∧ c ≠ ':' := by
  obtain ⟨d, hd, rfl⟩ := exists_digitChar (by decide) hc
  have hall : (List.range 16).all
      (fun d => alphabet.contains d.digitChar && d.digitChar != ':') = true := by
    decide +kernel
  simpa using List.all_eq_true.mp hall d (List.mem_range.mpr hd)

theorem not_mem_groupText (g : UInt16) : ':' ∉ groupText g := fun hc =>
  (mem_alphabet_of_mem_groupText hc).2 rfl

theorem groupText_ne_nil (g : UInt16) : groupText g ≠ [] := Nat.toDigits_ne_nil

theorem groupsText_cons_cons (g h : UInt16) (rest : List UInt16) :
    groupsText (g :: h :: rest) = groupText g ++ ':' :: groupsText (h :: rest) := by
  simp [groupsText, List.intercalate_cons_cons]

theorem groupsText_cons_ne_nil (g : UInt16) (rest : List UInt16) :
    groupsText (g :: rest) ≠ [] := by
  cases rest <;> simp [groupsText, List.intercalate_cons_cons, groupText_ne_nil]

theorem mem_alphabet_of_mem_groupsText {groups : List UInt16} {c : Char}
    (hc : c ∈ groupsText groups) : c ∈ alphabet := by
  rcases eq_or_mem_of_mem_intercalate hc with rfl | ⟨part, hpart, hc⟩
  · decide
  · obtain ⟨g, -, rfl⟩ := List.mem_map.mp hpart
    exact (mem_alphabet_of_mem_groupText hc).1

theorem group?_groupText (g : UInt16) : group? (groupText g) = some g := by
  have hlength : ¬4 < (groupText g).length := by
    have hle : (groupText g).length ≤ 4 :=
      (Nat.length_toDigits_le_iff (by decide) (by decide)).mpr g.toNat_lt
    omega
  obtain ⟨values, hread, hvalue⟩ := mapM_value?_toDigits g.toNat
  have hread' : (groupText g).mapM Hex.value? = some values := hread
  simp [group?, groupText_ne_nil, hlength, hread', hvalue]

theorem groups?_map_groupText (v4AtEnd : Bool) :
    ∀ groups : List UInt16, groups? v4AtEnd (groups.map groupText) = some groups
  | [] => rfl
  | [g] => by simp [groups?, group?_groupText]
  | g :: h :: rest => by
    have ih := groups?_map_groupText v4AtEnd (h :: rest)
    rw [List.map_cons] at ih
    simp [groups?, group?_groupText, ih]

theorem splitOn_groupsText {groups : List UInt16} (h : groups ≠ []) :
    (groupsText groups).splitOn ':' = groups.map groupText := by
  refine List.splitOn_intercalate _ ?_ (by simpa using h)
  simpa using fun g _ => not_mem_groupText g

/-- Groups in writing are read as those groups. -/
theorem run?_groupsText (v4AtEnd : Bool) (groups : List UInt16) :
    run? v4AtEnd (groupsText groups) = some groups := by
  cases groups with
  | nil => rfl
  | cons g rest =>
    have hne : (groupsText (g :: rest)).isEmpty = false := by
      simpa using groupsText_cons_ne_nil g rest
    rw [run?, hne, splitOn_groupsText (List.cons_ne_nil g rest)]
    exact groups?_map_groupText v4AtEnd (g :: rest)

/-! ### The two colons -/

/-- There are no two colons in a row where there is none. -/
theorem splitAtDoubleColon_append {s : List Char} (hs : ':' ∉ s) (tail : List Char) :
    splitAtDoubleColon (s ++ tail) =
      (splitAtDoubleColon tail).map fun (before, after) => (s ++ before, after) := by
  induction s with
  | nil => simp
  | cons c s ih =>
    rw [List.mem_cons, not_or] at hs
    have hc : (c == ':') = false := beq_eq_false_iff_ne.mpr (Ne.symm hs.1)
    rw [List.cons_append, splitAtDoubleColon, hc, ih hs.2]
    simp [Function.comp_def]

/-- Groups with a colon between any two have no two colons in a row. -/
theorem splitAtDoubleColon_groupsText (tail : List Char) : ∀ groups : List UInt16,
    splitAtDoubleColon (groupsText groups ++ tail) =
      (splitAtDoubleColon tail).map fun (before, after) => (groupsText groups ++ before, after)
  | [] => by simp [groupsText]
  | [g] => by simpa [groupsText] using splitAtDoubleColon_append (not_mem_groupText g) tail
  | g :: h :: rest => by
    have hhead : (groupsText (h :: rest) ++ tail).head? ≠ some ':' := by
      obtain ⟨c, s, hs⟩ := List.exists_cons_of_ne_nil (groupText_ne_nil h)
      have hc : c ≠ ':' := fun hc => not_mem_groupText h (by simp [hs, hc])
      cases rest <;> simp [groupsText, List.intercalate_cons_cons, hs, hc]
    have hcolon : splitAtDoubleColon (':' :: (groupsText (h :: rest) ++ tail)) =
        (splitAtDoubleColon (groupsText (h :: rest) ++ tail)).map
          fun (before, after) => (':' :: before, after) := by
      rw [splitAtDoubleColon, beq_eq_false_iff_ne.mpr hhead]
      simp
    rw [groupsText_cons_cons, List.append_assoc, List.cons_append,
      splitAtDoubleColon_append (not_mem_groupText g), hcolon,
      splitAtDoubleColon_groupsText tail (h :: rest)]
    simp [Function.comp_def]

theorem splitAtDoubleColon_between (before after : List UInt16) :
    splitAtDoubleColon (groupsText before ++ ':' :: ':' :: groupsText after) =
      some (groupsText before, groupsText after) := by
  rw [splitAtDoubleColon_groupsText]
  simp [splitAtDoubleColon]

/-! ### The longest run of zeros -/

theorem take_zerosAt (groups : List UInt16) :
    groups.take (zerosAt groups) = List.replicate (zerosAt groups) 0 := by
  have htake : groups.take (zerosAt groups) = groups.takeWhile (· == 0) :=
    (List.prefix_iff_eq_take.mp (List.takeWhile_prefix _)).symm
  rw [htake]
  refine List.eq_replicate_of_mem fun g hg => ?_
  exact eq_of_beq (List.all_eq_true.mp List.all_takeWhile g hg)

/-- The longest run is a run of zeros. -/
theorem take_longestZeros : ∀ groups : List UInt16,
    (groups.drop (longestZeros groups).1).take (longestZeros groups).2 =
      List.replicate (longestZeros groups).2 0
  | [] => rfl
  | g :: rest => by
    rw [longestZeros]
    split
    · exact take_zerosAt (g :: rest)
    · exact take_longestZeros rest

/-- The groups before the longest run of zeros, the run, and the groups after it. -/
theorem eq_append_longestZeros (groups : List UInt16) :
    groups = groups.take (longestZeros groups).1 ++
      List.replicate (longestZeros groups).2 0 ++
      groups.drop ((longestZeros groups).1 + (longestZeros groups).2) := by
  rw [← take_longestZeros, List.append_assoc, ← List.drop_drop, List.take_append_drop,
    List.take_append_drop]

/-! ### Addresses that map one of version 4 -/

theorem mapped?_eq_some {groups : List UInt16} {v4 : Ipv4} (h : mapped? groups = some v4) :
    groups = [0, 0, 0, 0, 0, 0xffff] ++ v4.groups := by
  unfold mapped? at h
  split at h
  · next x y =>
    obtain rfl := Option.some.inj h
    have hgroup (g : UInt16) : UInt16.ofNat ((UInt8.ofNat (g.toNat / 256)).toNat * 256 +
        (UInt8.ofNat g.toNat).toNat) = g := by
      apply UInt16.toNat_inj.mp
      have := g.toNat_lt
      simp only [UInt16.toNat_ofNat', UInt8.toNat_ofNat']
      omega
    simp only [Ipv4.groups, hgroup, List.cons_append, List.nil_append]
  · cases h

/-- A version 4 address is too long for a group. -/
theorem group?_v4Text (x : Ipv4) : group? x.text = none := by
  have hpos (n : Nat) : 0 < (decimal n).length := List.length_pos_iff.mpr (decimal_ne_nil n)
  have hlength : 4 < x.text.length := by
    have ha := hpos x.a.toNat
    have hb := hpos x.b.toNat
    have hc := hpos x.c.toNat
    simp only [Ipv4.text, List.length_append, List.length_cons]
    omega
  simp [group?, hlength]

/-- Behind the two colons stand the last mapped group and the version 4 address. -/
theorem run?_v4Text (x : Ipv4) :
    run? true ("ffff:".toList ++ x.text) = some (0xffff :: x.groups) := by
  have hcolon : ':' ∉ x.text := fun hc => absurd (Ipv4.mem_alphabet_of_mem_text hc) (by decide)
  have hsplit : ("ffff:".toList ++ x.text).splitOn ':' = ["ffff".toList, x.text] := by
    have hjoin : "ffff:".toList ++ x.text = [':'].intercalate ["ffff".toList, x.text] := by
      simp [List.intercalate_cons_cons]
    rw [hjoin, List.splitOn_intercalate _ _ (by simp)]
    simp [hcolon]
  have hffff : group? ['f', 'f', 'f', 'f'] = some 0xffff := by decide +kernel
  rw [run?, hsplit]
  simp [groups?, hffff, group?_v4Text, Ipv4.parse_text]

/-! ### The whole address -/

theorem ofGroups?_groups (x : Ipv6) : ofGroups? x.groups = some x := by
  simp [ofGroups?, x.length_groups]

/-- What is read around two colons, with zeros for the groups left out. -/
theorem parse_of_splitAtDoubleColon {s before after : List Char} {x : Ipv6}
    {left right : List UInt16} {count : Nat} (hsplit : splitAtDoubleColon s = some (before, after))
    (hleft : run? false before = some left) (hright : run? true after = some right)
    (hcount : 0 < count) (hx : x.groups = left ++ List.replicate count 0 ++ right) :
    parse s = some x := by
  have hlength : 8 = left.length + (count + right.length) := by
    simpa [x.length_groups] using congrArg List.length hx
  have hzeros : 8 - left.length - right.length = count := by omega
  have hle : left.length + right.length ≤ 7 := by omega
  simp only [parse, hsplit, hleft, hright]
  simp only [Option.bind_eq_bind, Option.bind_some, if_pos hle, hzeros]
  rw [← hx, ofGroups?_groups]

/-- **A version 6 address is read back from its writing**, whichever of its
groups are zero and whether or not it maps one of version 4. -/
theorem parse_text (x : Ipv6) : parse x.text = some x := by
  unfold text
  cases hmapped : mapped? x.groups with
  | some v4 =>
    have hsplit : splitAtDoubleColon ("::ffff:".toList ++ v4.text) =
        some ([], "ffff:".toList ++ v4.text) := rfl
    have hx : x.groups = [] ++ List.replicate 5 0 ++ 0xffff :: v4.groups := by
      simpa using mapped?_eq_some hmapped
    exact parse_of_splitAtDoubleColon hsplit rfl (run?_v4Text v4) (by decide) hx
  | none =>
    by_cases hcount : 1 < (longestZeros x.groups).2
    · simp only [if_pos hcount]
      exact parse_of_splitAtDoubleColon (splitAtDoubleColon_between _ _) (run?_groupsText false _)
        (run?_groupsText true _) (by omega) (eq_append_longestZeros x.groups)
    · have hsplit : splitAtDoubleColon (groupsText x.groups) = none := by
        simpa [splitAtDoubleColon] using splitAtDoubleColon_groupsText [] x.groups
      simp [hcount, parse, hsplit, run?_groupsText, ofGroups?_groups]

theorem mem_alphabet_of_mem_text {x : Ipv6} {c : Char} (hc : c ∈ x.text) : c ∈ alphabet := by
  have hv4 : ∀ c ∈ Ipv4.alphabet, c ∈ alphabet := forall_mem_of_all (by decide +kernel)
  have hffff : ∀ c ∈ "::ffff:".toList, c ∈ alphabet := forall_mem_of_all (by decide +kernel)
  have hcolon : ':' ∈ alphabet := by decide +kernel
  unfold text at hc
  split at hc
  · rcases List.mem_append.mp hc with hc | hc
    · exact hffff c hc
    · exact hv4 c (Ipv4.mem_alphabet_of_mem_text hc)
  · dsimp only at hc
    split at hc
    · simp only [List.mem_append, List.mem_cons] at hc
      rcases hc with hc | rfl | rfl | hc
      · exact mem_alphabet_of_mem_groupsText hc
      · exact hcolon
      · exact hcolon
      · exact mem_alphabet_of_mem_groupsText hc
    · exact mem_alphabet_of_mem_groupsText hc

end Ipv6
end WorkloadIdentity
