/-
This file is about the prefixes that `tlv_decode_fec_elm` accepts: what `ldp_applymask`
does to the bits of an address, that an accepted prefix is one of its family with all
bits beyond its length zero, and that elements which denote one prefix give one FEC.
The decoder does not look at how long the prefix claims to be, so this is true
exactly of the elements whose prefix is not longer than an address.
-/

import Ldpd.Ldpe.Termination

namespace Ldpd

open Bytes Code Reading

/-! ### Masks -/

theorem prefixlen2mask_bit {prefixlen : UInt8} (short : prefixlen ≤ 32) {i : Nat}
    (inside : i < 32) :
    (prefixlen2mask prefixlen).toNat.testBit (31 - i) = decide (i < prefixlen.toNat) := by
  have bound : prefixlen.toNat ≤ 32 := short
  rw [prefixlen2mask]
  split
  · rename_i zero
    rw [zero]
    exact Nat.zero_testBit _
  · rename_i positive
    have some' : prefixlen.toNat ≠ 0 := fun zero => positive (UInt8.toNat_inj.mp zero)
    have amount : (32 - prefixlen.toUInt32).toNat = 32 - prefixlen.toNat := by
      rw [UInt32.toNat_sub_of_le]
      · rfl
      · exact short
    rw [UInt32.toNat_shiftLeft, amount, Nat.mod_eq_of_lt (show 32 - prefixlen.toNat < 32 by omega),
      Nat.testBit_mod_two_pow, Nat.testBit_shiftLeft,
      show (0xffffffff : UInt32).toNat = 2 ^ 32 - 1 from rfl, Nat.testBit_two_pow_sub_one,
      decide_eq_true (show 31 - i < 32 by omega),
      decide_eq_true (show 31 - i - (32 - prefixlen.toNat) < 32 by omega), Bool.true_and,
      Bool.and_true]
    exact decide_eq_decide.mpr (by omega)

/-- The byte of an IPv6 mask in which the prefix ends. -/
theorem mask6_last_bit : ∀ rest < 8, ∀ i < 8,
    (((0xff00 : UInt16) >>> UInt16.ofNat rest).toUInt8).toNat.testBit (7 - i) =
      decide (i < rest) := by
  decide

theorem mask6_full_bit : ∀ i < 8, (0xff : UInt8).toNat.testBit (7 - i) = true := by
  decide

theorem mask6Byte_bit (prefixlen : UInt8) (i : Nat) :
    (mask6Byte prefixlen (i / 8)).toNat.testBit (7 - i % 8) = decide (i < prefixlen.toNat) := by
  have octet : i % 8 < 8 := Nat.mod_lt _ (by decide)
  rw [mask6Byte]
  split
  · rw [mask6_full_bit _ octet]
    exact (decide_eq_true (by omega)).symm
  split
  · have rest : prefixlen.toUInt16 % 8 = UInt16.ofNat (prefixlen.toNat % 8) := by
      apply UInt16.toNat_inj.mp
      rw [UInt16.toNat_mod, UInt16.toNat_ofNat_of_lt']
      · rfl
      · exact Nat.lt_trans (Nat.mod_lt _ (by decide)) (by decide)
    rw [rest, mask6_last_bit _ (Nat.mod_lt _ (by decide)) _ octet]
    exact decide_eq_decide.mpr (by omega)
  · rw [decide_eq_false (by omega)]
    exact Nat.zero_testBit _

/-- `ldp_applymask` keeps the bits of the prefix and clears the others. -/
theorem bitAt_ldpApplymask (addr : LdpdAddr) {prefixlen : UInt8}
    (short : prefixlen ≤ addr.af.maxPrefixlen) (i : Nat) :
    bitAt (ldpApplymask addr prefixlen).bytes i =
      (decide (i < prefixlen.toNat) && bitAt addr.bytes i) := by
  cases addr with
  | v4 addr =>
    show bitAt (put32 (addr &&& prefixlen2mask prefixlen)) i = (_ && bitAt (put32 addr) i)
    by_cases inside : i < 32
    · rw [bitAt_put32 _ inside, bitAt_put32 _ inside, UInt32.toNat_and, Nat.testBit_and,
        prefixlen2mask_bit short inside, Bool.and_comm]
    · have beyond : 8 * 4 ≤ i := Nat.le_of_not_lt inside
      rw [bitAt_of_le beyond, bitAt_of_le beyond, Bool.and_false]
  | v6 addr =>
    show bitAt (addr.mapIdx fun i byte => byte &&& mask6Byte prefixlen i).toList i =
      (_ && bitAt addr.toList i)
    by_cases inside : i / 8 < 16
    · have byte : ∀ bytes : In6Addr, bytes.toList.getD (i / 8) 0 = bytes[i / 8] := by
        intro bytes
        rw [List.getD_eq_getElem?_getD, List.getElem?_eq_getElem (by rw [Vector.length_toList]; exact inside),
          Vector.getElem_toList]
        rfl
      rw [bitAt, bitAt, byte, byte, Vector.getElem_mapIdx, UInt8.toNat_and, Nat.testBit_and,
        mask6Byte_bit, Bool.and_comm]
    · have beyond : ∀ bytes : In6Addr, 8 * bytes.toList.length ≤ i := by
        intro bytes
        rw [Vector.length_toList]
        omega
      rw [bitAt_of_le (beyond _), bitAt_of_le (beyond _), Bool.and_false]

theorem af_ldpApplymask (addr : LdpdAddr) (prefixlen : UInt8) :
    (ldpApplymask addr prefixlen).af = addr.af := by
  cases addr <;> rfl

theorem af_addrOfBytes (af : Af) (bytes : List UInt8) : (addrOfBytes af bytes).af = af := by
  cases af <;> rfl

/-- Addresses of one family with the same bits are the same. -/
theorem LdpdAddr.ext_bits {first second : LdpdAddr} (af : first.af = second.af)
    (same : ∀ i, bitAt first.bytes i = bitAt second.bytes i) : first = second := by
  match first, second, af with
  | .v4 first, .v4 second, _ =>
    have bytes : put32 first = put32 second := bytes_ext rfl same
    have words : get32 (put32 first ++ []) = get32 (put32 second ++ []) := by rw [bytes]
    rw [get32_put32, get32_put32] at words
    rw [words]
  | .v6 first, .v6 second, _ =>
    have length : first.toList.length = second.toList.length := by
      rw [Vector.length_toList, Vector.length_toList]
    rw [Vector.toList_inj.mp (bytes_ext length same)]

/-- The bits of an address that is read off a message. -/
theorem bitAt_addrOfBytes (af : Af) (bytes : List UInt8) {i : Nat}
    (inside : i < af.maxPrefixlen.toNat) :
    bitAt (addrOfBytes af bytes).bytes i = bitAt bytes i := by
  cases af with
  | inet => exact bitAt_put32_get32 bytes inside
  | inet6 =>
    have index : i / 8 < 16 := Nat.div_lt_of_lt_mul inside
    show bitAt (Vector.ofFn fun i : Fin 16 => bytes.getD i 0).toList i = bitAt bytes i
    rw [bitAt, bitAt, List.getD_eq_getElem?_getD,
      List.getElem?_eq_getElem (by rw [Vector.length_toList]; exact index), Vector.getElem_toList,
      Vector.getElem_ofFn]
    rfl

/-! ### Accepted prefixes -/

/-- Two elements denote the same prefix: the family, the length and the bits of the prefix. -/
def SamePrefix (elm elm' : List UInt8) : Prop :=
  get16 (elm.drop 1) = get16 (elm'.drop 1) ∧ get8 (elm.drop 3) = get8 (elm'.drop 3) ∧
    ∀ i < (get8 (elm.drop 3)).toNat, bitAt (elm.drop 4) i = bitAt (elm'.drop 4) i

/-- `tlv_decode_fec_elm` accepts an element as a FEC. -/
def Accepts (elm : List UInt8) (len : Nat) (fec : MapFec) : Prop :=
  ∃ fuel msg old ldpe used map ldpe', map.fec = fec ∧
    (tlvDecodeFecElm fuel msg elm len old ldpe).outcome = .ret (some (used, map), ldpe')

/-- A prefix element is decoded well: within the bounds of the language, to a prefix of its family
whose bits beyond its length are zero, and to the FEC of every element for the same prefix. -/
structure DecodedWell (elm : List UInt8) (len : Nat) : Prop where
  defined : ∀ fuel msg old ldpe, Defined Access.Meant (tlvDecodeFecElm fuel msg elm len old ldpe)
  masked : ∀ fec, Accepts elm len fec → ∃ addr prefixlen, fec = .network addr prefixlen ∧
    prefixlen ≤ addr.af.maxPrefixlen ∧ ∀ i, prefixlen.toNat ≤ i → bitAt addr.bytes i = false
  canonical : ∀ elm' len' fec fec', get8 elm' = mapTypePrefix → len' ≤ elm'.length →
    SamePrefix elm elm' → Accepts elm len fec → Accepts elm' len' fec' → fec = fec'

theorem prefixElm_eq_some {elm : List UInt8} {len : Nat} {af : Af} {prefixlen : UInt8}
    (complete : prefixElm elm len = some (af, prefixlen)) :
    afOfFamily (get16 (elm.drop 1)) = some af ∧ get8 (elm.drop 3) = prefixlen := by
  rw [prefixElm] at complete
  split at complete
  · obtain ⟨af', family, rest⟩ := Option.bind_eq_some_iff.mp complete
    split at rest
    · cases rest
      exact ⟨family, rfl⟩
    · cases rest
  · cases complete

/-- The bits of the prefix of an element. -/
theorem bitAt_prefixOf (elm : List UInt8) {af : Af} {prefixlen : UInt8}
    (short : prefixlen ≤ af.maxPrefixlen) (i : Nat) :
    bitAt (prefixOf elm af prefixlen).bytes i =
      (decide (i < prefixlen.toNat) && bitAt (elm.drop 4) i) := by
  rw [prefixOf, bitAt_ldpApplymask _ (by rw [af_addrOfBytes]; exact short)]
  by_cases inside : i < prefixlen.toNat
  · have size : i < 8 * prefixSize prefixlen := by
      rw [prefixSize]
      omega
    rw [bitAt_addrOfBytes af _ (Nat.lt_of_lt_of_le inside short), bitAt_take size]
  · rw [decide_eq_false inside, Bool.false_and, Bool.false_and]

theorem af_prefixOf (elm : List UInt8) (af : Af) (prefixlen : UInt8) :
    (prefixOf elm af prefixlen).af = af := by
  rw [prefixOf, af_ldpApplymask, af_addrOfBytes]

/-- The reading of an element that is a buffer of its own. -/
theorem obeys_elm {elm : List UInt8} {len : Nat} (fits : len ≤ elm.length) (fuel : Nat)
    (msg : LdpMsg) (old : FecBuf) :
    Obeys ⟨elm.length, 0⟩ (256 ≤ fuel) Eq (tlvDecodeFecElm fuel msg elm len old)
      (readFecElm msg [] elm len old) :=
  obeys_tlvDecodeFecElm fuel msg old ⟨(List.append_nil elm).symm, rfl, Nat.le_refl _⟩ fits

/-- The reading of an element has a meaning unless it is empty or overlong. -/
theorem readFecElm_undefined {elm : List UInt8} {len : Nat} (fits : len ≤ elm.length) (msg : LdpMsg)
    (old : FecBuf) :
    (readFecElm msg [] elm len old).verdict = .undefined ↔ elm = [] ∨ Overlong elm len := by
  have flaw := readFecElm_has msg [] old fits .undefined
  rw [ElmFlaw, List.append_nil] at flaw
  exact flaw

/-- The decoder keeps to what has a meaning when the element has one. -/
theorem defined_tlvDecodeFecElm {elm : List UInt8} {len : Nat} (fits : len ≤ elm.length)
    (some' : elm ≠ []) (sound : ¬Overlong elm len) (fuel : Nat) (msg : LdpMsg) (old : FecBuf)
    (ldpe : Ldpe) : Defined Access.Meant (tlvDecodeFecElm fuel msg elm len old ldpe) := by
  refine (obeys_elm fits fuel msg old ldpe).defined fun undefined => ?_
  exact not_or.mpr ⟨some', sound⟩ ((readFecElm_undefined fits msg old).mp undefined)

theorem readFecElm_of_accepts {elm : List UInt8} {len : Nat} {fec : MapFec}
    (fits : len ≤ elm.length) (some' : elm ≠ []) (sound : ¬Overlong elm len)
    (accepts : Accepts elm len fec) :
    ∃ msg old used map, map.fec = fec ∧
      (readFecElm msg [] elm len old).verdict = .accept (used, map) := by
  obtain ⟨fuel, msg, old, ldpe, used, map, ldpe', same, returns⟩ := accepts
  refine ⟨msg, old, used, map, same, ?_⟩
  rcases obeys_elm fits fuel msg old ldpe with ⟨-, spent, -⟩ | ⟨-, ends⟩
  · rw [spent] at returns
    cases returns
  · rw [EndsAs, returns] at ends
    cases verdict : (readFecElm msg [] elm len old).verdict with
    | accept read =>
      rw [verdict] at ends
      obtain ⟨-, value, rfl, same⟩ := ends
      cases same
      rfl
    | reject reply =>
      rw [verdict] at ends
      cases ends.2
    | undefined =>
      exact absurd ((readFecElm_undefined fits msg old).mp verdict) (not_or.mpr ⟨some', sound⟩)
    | endless =>
      rw [verdict] at ends
      cases ends.2

theorem prefixElm_ne_nil {elm : List UInt8} (type : get8 elm = mapTypePrefix) : elm ≠ [] := by
  rintro rfl
  exact absurd type (by decide)

/-- What a prefix element is accepted as. -/
theorem network_of_accepts {elm : List UInt8} {len : Nat} {fec : MapFec}
    (type : get8 elm = mapTypePrefix) (fits : len ≤ elm.length) (sound : ¬Overlong elm len)
    (accepts : Accepts elm len fec) :
    ∃ af, afOfFamily (get16 (elm.drop 1)) = some af ∧ get8 (elm.drop 3) ≤ af.maxPrefixlen ∧
      fec = .network (prefixOf elm af (get8 (elm.drop 3))) (get8 (elm.drop 3)) := by
  have some' := prefixElm_ne_nil type
  obtain ⟨msg, old, used, map, rfl, reads⟩ := readFecElm_of_accepts fits some' sound accepts
  rw [readFecElm_eq msg [] len old some', if_neg (by rw [type]; decide), if_pos type] at reads
  rcases readPrefix_cases msg elm len old with ⟨-, reply, same⟩ |
    ⟨af, prefixlen, complete, -, ⟨-, same⟩ | ⟨short, same⟩⟩
  · rw [same] at reads
    cases reads
  · rw [same] at reads
    cases reads
  · obtain ⟨family, rfl⟩ := prefixElm_eq_some complete
    rw [same] at reads
    cases reads
    exact ⟨af, family, short, rfl⟩

theorem masked_of_accepts {elm : List UInt8} {len : Nat} {fec : MapFec}
    (type : get8 elm = mapTypePrefix) (fits : len ≤ elm.length) (sound : ¬Overlong elm len)
    (accepts : Accepts elm len fec) :
    ∃ addr prefixlen, fec = .network addr prefixlen ∧ prefixlen ≤ addr.af.maxPrefixlen ∧
      ∀ i, prefixlen.toNat ≤ i → bitAt addr.bytes i = false := by
  obtain ⟨af, -, short, rfl⟩ := network_of_accepts type fits sound accepts
  refine ⟨_, _, rfl, ?_, fun i beyond => ?_⟩
  · rw [af_prefixOf]
    exact short
  · rw [bitAt_prefixOf elm short, decide_eq_false (Nat.not_lt.mpr beyond), Bool.false_and]

theorem eq_of_samePrefix {elm elm' : List UInt8} {len len' : Nat} {fec fec' : MapFec}
    (type : get8 elm = mapTypePrefix) (type' : get8 elm' = mapTypePrefix)
    (fits : len ≤ elm.length) (fits' : len' ≤ elm'.length) (sound : ¬Overlong elm len)
    (same : SamePrefix elm elm')
    (accepts : Accepts elm len fec) (accepts' : Accepts elm' len' fec') : fec = fec' := by
  obtain ⟨families, lengths, bits⟩ := same
  obtain ⟨af, family, short, rfl⟩ := network_of_accepts type fits sound accepts
  -- The other element has the same family and prefix length, so it is not overlong either.
  have sound' : ¬Overlong elm' len' := by
    rintro ⟨-, af', prefixlen, complete, overlong⟩
    obtain ⟨family', rfl⟩ := prefixElm_eq_some complete
    rw [families, family', Option.some_inj] at family
    rw [family, ← lengths] at overlong
    exact absurd overlong (UInt8.not_lt.mpr short)
  obtain ⟨af', family', short', rfl⟩ := network_of_accepts type' fits' sound' accepts'
  rw [families, family', Option.some_inj] at family
  subst family
  rw [← lengths] at short' ⊢
  have addrs : prefixOf elm af' (get8 (elm.drop 3)) = prefixOf elm' af' (get8 (elm.drop 3)) := by
    refine LdpdAddr.ext_bits (by rw [af_prefixOf, af_prefixOf]) fun i => ?_
    rw [bitAt_prefixOf elm short, bitAt_prefixOf elm' short']
    by_cases inside : i < (get8 (elm.drop 3)).toNat
    · rw [bits i inside]
    · rw [decide_eq_false inside, Bool.false_and, Bool.false_and]
  rw [addrs]

/-- The decoder does something without a meaning on an element that is overlong. -/
theorem not_defined_of_overlong {elm : List UInt8} {len : Nat} (fits : len ≤ elm.length)
    (overlong : Overlong elm len) (msg : LdpMsg) (old : FecBuf) (ldpe : Ldpe) :
    ¬Defined Access.Meant (tlvDecodeFecElm 256 msg elm len old ldpe) := by
  rcases obeys_elm fits 256 msg old ldpe with ⟨-, -, short⟩ | ⟨-, ends⟩
  · exact absurd (Nat.le_refl 256) short
  · rw [EndsAs, (readFecElm_undefined fits msg old).mpr (Or.inr overlong)] at ends
    exact ends.2

/-- A prefix element is decoded well exactly when its prefix is not longer than an address. -/
theorem decodedWell_iff {elm : List UInt8} {len : Nat} (type : get8 elm = mapTypePrefix)
    (fits : len ≤ elm.length) : DecodedWell elm len ↔ ¬Overlong elm len := by
  constructor
  · intro well overlong
    exact not_defined_of_overlong fits overlong ⟨0, 0, 0⟩ {} operSession (well.defined ..)
  · intro sound
    refine ⟨?_, fun fec accepts => masked_of_accepts type fits sound accepts, ?_⟩
    · exact fun fuel msg old ldpe =>
        defined_tlvDecodeFecElm fits (prefixElm_ne_nil type) sound fuel msg old ldpe
    · intro elm' len' fec fec' type' fits' same accepts accepts'
      exact eq_of_samePrefix type type' fits fits' sound same accepts accepts'

/-! ### Elements -/

/-- The prefix 10.0.0.0/8. -/
def prefixTen : List UInt8 :=
  [0x02, 0x00, 0x01, 0x08, 0x0a]

theorem decodedWell_prefixTen : DecodedWell prefixTen prefixTen.length := by
  refine (decodedWell_iff (by decide) (Nat.le_refl _)).mpr ?_
  rintro ⟨-, af, prefixlen, complete, overlong⟩
  have ten : prefixElm prefixTen prefixTen.length = some (.inet, 8) := by decide
  rw [ten] at complete
  cases complete
  exact absurd overlong (by decide)

/-- An IPv4 prefix that claims to have 200 bits. -/
def prefixTooLong : List UInt8 :=
  [0x02, 0x00, 0x01, 0xc8] ++ List.replicate 25 0xff

theorem prefix_not_decodedWell : ¬DecodedWell prefixTooLong prefixTooLong.length := by
  intro well
  have overlong : Overlong prefixTooLong prefixTooLong.length :=
    ⟨by decide, .inet, 200, by decide, by decide⟩
  exact not_defined_of_overlong (Nat.le_refl _) overlong ⟨0, 0, 0⟩ {} operSession (well.defined ..)

end Ldpd
