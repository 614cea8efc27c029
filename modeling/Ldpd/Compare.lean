/-
This file is about the comparators of the red-black trees, as the source computes them on
the words and the bytes of unions that lie in memory. Those that subtract are lawful only
for keys that are near each other; those that compare field by field are total orders of
what the keys denote.
-/

import Ldpd.Library.Comparator
import Ldpd.Library.Native
import Ldpd.Main.Kroute

namespace Ldpd

open Bytes Comparator

/-! ### Comparators that subtract -/

/-- `nbr_id_compare`. The difference of unsigned words is converted to an `int`. -/
def nbrIdCompare (a b : InAddr) : Int :=
  (a - b).toInt32.toInt

/-- `nbr_pid_compare`. -/
def nbrPidCompare (a b : UInt32) : Int :=
  (a - b).toInt32.toInt

/-- `lde_nbr_compare`. -/
def ldeNbrCompare (a b : UInt32) : Int :=
  (a - b).toInt32.toInt

/-- `kif_compare`. The words are promoted to `int` before they are subtracted. -/
def kifCompare (a b : UInt16) : Int :=
  (b.toNat : Int) - a.toNat

/-- All keys lie within 2^31 successive words. -/
def NearKeys (keys : List UInt32) : Prop :=
  ∃ base : UInt32, ∀ key ∈ keys, key - base < 0x80000000

section Subtracting

theorem lawfulOn_word_iff (keys : List UInt32) :
    LawfulOn {key | key ∈ keys} (fun a b : UInt32 => (a - b).toInt32.toInt) id ↔ NearKeys keys := by
  have image : UInt32.toBitVec '' {key | key ∈ keys} = {key | key ∈ keys.map UInt32.toBitVec} := by
    ext word
    exact List.mem_map.symm
  have meaning : LawfulOn {key | key ∈ keys} (fun a b : UInt32 => (a - b).toInt32.toInt) id ↔
      LawfulOn {key | key ∈ keys}
        (fun a b : UInt32 => difference a.toBitVec b.toBitVec) (id ∘ UInt32.toBitVec) := by
    refine lawfulOn_congr fun a b => ?_
    exact UInt32.toBitVec_inj.symm
  rw [meaning, ← lawfulOn_image_iff, image, lawfulOn_difference_iff (by decide)]
  constructor
  · rintro ⟨base, near⟩
    refine ⟨.ofBitVec base, fun key member => UInt32.lt_iff_toNat_lt.mpr ?_⟩
    exact near key.toBitVec (List.mem_map_of_mem member)
  · rintro ⟨base, near⟩
    refine ⟨base.toBitVec, fun word member => ?_⟩
    obtain ⟨key, among, rfl⟩ := List.mem_map.mp member
    exact UInt32.lt_iff_toNat_lt.mp (near key among)

theorem lawfulOn_kifCompare (keys : Set UInt16) : LawfulOn keys kifCompare id := by
  refine ⟨fun a _ b _ => ?_, fun a _ b _ => ?_, fun a _ b _ c _ less less' => ?_⟩
  · rw [kifCompare, Int.sub_eq_zero, Int.natCast_inj, UInt16.toNat_inj]
    exact eq_comm
  · rw [kifCompare, kifCompare, ← Int.sign_neg, Int.neg_sub]
  · rw [kifCompare] at less less' ⊢
    omega

/-- The comparators that subtract are lawful exactly for keys that lie within half of all words; the
one of interface indexes is lawful for all of them. -/
theorem subtracting_lawful_iff (lsrIds peerids ldePeerids : List UInt32) (ifindexes : List UInt16) :
    (LawfulOn {key | key ∈ lsrIds} nbrIdCompare id ∧ LawfulOn {key | key ∈ peerids} nbrPidCompare id ∧
      LawfulOn {key | key ∈ ldePeerids} ldeNbrCompare id ∧
      LawfulOn {key | key ∈ ifindexes} kifCompare id) ↔
    NearKeys lsrIds ∧ NearKeys peerids ∧ NearKeys ldePeerids := by
  rw [← lawfulOn_word_iff, ← lawfulOn_word_iff, ← lawfulOn_word_iff]
  exact and_congr_right fun _ => and_congr_right fun _ => and_iff_left (lawfulOn_kifCompare _)

/-- The LSR-IDs 16.0.0.1, 96.0.0.1 and 192.0.0.1 are compared in a circle. -/
theorem lsrIds_circular : nbrIdCompare 0x10000001 0x60000001 < 0 ∧
    nbrIdCompare 0x60000001 0xc0000001 < 0 ∧ nbrIdCompare 0xc0000001 0x10000001 < 0 ∧
    ¬LawfulOn {key | key ∈ [0x10000001, 0x60000001, 0xc0000001]} nbrIdCompare id := by
  have first : nbrIdCompare 0x10000001 0x60000001 < 0 := by decide
  have second : nbrIdCompare 0x60000001 0xc0000001 < 0 := by decide
  have third : nbrIdCompare 0xc0000001 0x10000001 < 0 := by decide
  refine ⟨first, second, third, fun lawful => ?_⟩
  have less := lawful.trans 0x10000001 (by decide) 0x60000001 (by decide) 0xc0000001 (by decide)
    (Int.le_of_lt first) (Int.le_of_lt second)
  exact absurd less (by decide)

end Subtracting

/-! ### Comparators that compare field by field -/

namespace Raw

/-- `memcmp`, for memory of equal size: the difference of the first bytes that differ. -/
def memcmp : List UInt8 → List UInt8 → Int
  | byte :: rest, byte' :: rest' =>
    if byte = byte' then memcmp rest rest' else (byte.toNat : Int) - byte'.toNat
  | _, _ => 0

/-- The numbers of the address families. -/
def afNumber : Af → Nat
  | .inet => 2
  | .inet6 => 24

/-- `union ldpd_addr`. -/
structure AddrUnion where
  bytes : Vector UInt8 16
  deriving DecidableEq

/-- The member for IPv4, as a number. -/
def AddrUnion.v4 (addr : AddrUnion) : InAddr :=
  get32 addr.bytes.toList

/-- The address of a family in the union. -/
def AddrUnion.addr (addr : AddrUnion) : Af → LdpdAddr
  | .inet => .v4 addr.v4
  | .inet6 => .v6 addr.bytes

/-- `ldp_addrcmp`. -/
def ldpAddrcmp (af : Af) (a b : AddrUnion) : Int :=
  match af with
  | .inet => if a.v4 = b.v4 then 0 else if b.v4 < a.v4 then 1 else -1
  | .inet6 => memcmp a.bytes.toList b.bytes.toList

/-- The key of `struct kroute_prefix`. -/
structure KrouteKey where
  af : Af
  addr : AddrUnion
  prefixlen : UInt8
  deriving DecidableEq

/-- The prefix that a key denotes. -/
def KrouteKey.net (key : KrouteKey) : KroutePrefix :=
  ⟨key.addr.addr key.af, key.prefixlen⟩

/-- `kroute_compare`. -/
def krouteCompare (a b : KrouteKey) : Int :=
  if afNumber a.af < afNumber b.af then -1
  else if afNumber b.af < afNumber a.af then 1
  else
    let addrcmp := ldpAddrcmp a.af a.addr b.addr
    if addrcmp ≠ 0 then addrcmp
    else if a.prefixlen < b.prefixlen then -1
    else if b.prefixlen < a.prefixlen then 1
    else 0

/-- The key of `struct nbr` in `nbrs_by_addr`. -/
structure NbrKey where
  af : Af
  raddr : AddrUnion
  deriving DecidableEq

/-- The address that a key denotes. -/
def NbrKey.addr (key : NbrKey) : LdpdAddr :=
  key.raddr.addr key.af

/-- `nbr_addr_compare`. -/
def nbrAddrCompare (a b : NbrKey) : Int :=
  if afNumber a.af < afNumber b.af then -1
  else if afNumber b.af < afNumber a.af then 1
  else ldpAddrcmp a.af a.raddr b.raddr

/-- `enum fec_type`. -/
inductive FecType where
  | ipv4
  | ipv6
  | pwid
  deriving DecidableEq

/-- The number of a type. -/
def FecType.number : FecType → Nat
  | .ipv4 => 0
  | .ipv6 => 1
  | .pwid => 2

/-- The type and the union of `struct fec`. The union is as large as its IPv6 member, in words. -/
structure FecKey where
  type : FecType
  u : Vector UInt8 20
  deriving DecidableEq

namespace FecKey

variable (key : FecKey)

def ipv4Prefix : UInt32 := get32 key.u.toList
def ipv4Prefixlen : UInt8 := key.u.get 4
def ipv6Prefix : In6Addr := key.u.take 16
def ipv6Prefixlen : UInt8 := key.u.get 16
def pwidType : UInt16 := Native.load16 key.u.toList
def pwidPwid : UInt32 := Native.load32 (key.u.toList.drop 4)
def pwidLsrId : UInt32 := get32 (key.u.toList.drop 8)

/-- The FEC that a key denotes. -/
def fec : Fec :=
  match key.type with
  | .ipv4 => .ipv4 key.ipv4Prefix key.ipv4Prefixlen
  | .ipv6 => .ipv6 key.ipv6Prefix key.ipv6Prefixlen
  | .pwid => .pwid key.pwidType key.pwidPwid key.pwidLsrId

end FecKey

/-- `fec_compare`. -/
def fecCompare (a b : FecKey) : Int :=
  if a.type.number < b.type.number then -1
  else if b.type.number < a.type.number then 1
  else
    match a.type with
    | .ipv4 =>
      if a.ipv4Prefix < b.ipv4Prefix then -1
      else if b.ipv4Prefix < a.ipv4Prefix then 1
      else if a.ipv4Prefixlen < b.ipv4Prefixlen then -1
      else if b.ipv4Prefixlen < a.ipv4Prefixlen then 1
      else 0
    | .ipv6 =>
      if memcmp a.ipv6Prefix.toList b.ipv6Prefix.toList < 0 then -1
      else if 0 < memcmp a.ipv6Prefix.toList b.ipv6Prefix.toList then 1
      else if a.ipv6Prefixlen < b.ipv6Prefixlen then -1
      else if b.ipv6Prefixlen < a.ipv6Prefixlen then 1
      else 0
    | .pwid =>
      if a.pwidType < b.pwidType then -1
      else if b.pwidType < a.pwidType then 1
      else if a.pwidPwid < b.pwidPwid then -1
      else if b.pwidPwid < a.pwidPwid then 1
      else if a.pwidLsrId < b.pwidLsrId then -1
      else if b.pwidLsrId < a.pwidLsrId then 1
      else 0

end Raw

section Fields

variable {Field : Type} [Ord Field] [LE Field] [LT Field] [Std.LawfulOrderOrd Field]
  [Std.LawfulOrderLT Field] [DecidableLT Field]

/-- A field is compared, and then the rest. -/
theorem ordering_field (a b : Field) (rest : Int) :
    Ord.compare (if a < b then -1 else if b < a then 1 else rest) 0 =
      (Ord.compare a b).then (Ord.compare rest 0) := by
  cases order : Ord.compare a b with
  | lt =>
    rw [if_pos (Std.compare_eq_lt.mp order)]
    rfl
  | gt =>
    have notLess : ¬a < b := fun less => by cases order.symm.trans (Std.compare_eq_lt.mpr less)
    rw [if_neg notLess, if_pos (Std.compare_eq_gt.mp order)]
    rfl
  | eq =>
    have notLess : ¬a < b := fun less => by cases order.symm.trans (Std.compare_eq_lt.mpr less)
    have notMore : ¬b < a := fun less => by cases order.symm.trans (Std.compare_eq_gt.mpr less)
    rw [if_neg notLess, if_neg notMore]
    rfl

end Fields

section Bytewise

theorem compare_natCast (a b : Nat) : Ord.compare ((a : Int) - b) 0 = Ord.compare a b := by
  rcases Nat.lt_trichotomy a b with less | same | more
  · rw [Std.compare_eq_lt.mpr less, Std.compare_eq_lt.mpr (show (a : Int) - b < 0 by omega)]
  · rw [same, Int.sub_self, Std.ReflOrd.compare_self, Std.ReflOrd.compare_self]
  · rw [Std.compare_eq_gt.mpr more, Std.compare_eq_gt.mpr (show 0 < (a : Int) - b by omega)]

theorem compare_toNat (a b : UInt8) : Ord.compare a.toNat b.toNat = Ord.compare a b := by
  rcases Nat.lt_trichotomy a.toNat b.toNat with less | same | more
  · rw [Std.compare_eq_lt.mpr less, Std.compare_eq_lt.mpr (UInt8.lt_iff_toNat_lt.mpr less)]
  · rw [UInt8.toNat_inj.mp same, Std.ReflOrd.compare_self, Std.ReflOrd.compare_self]
  · rw [Std.compare_eq_gt.mpr more, Std.compare_eq_gt.mpr (UInt8.lt_iff_toNat_lt.mpr more)]

/-- `memcmp` compares byte by byte. -/
theorem ordering_memcmp {bytes bytes' : List UInt8} (size : bytes.length = bytes'.length) :
    Ord.compare (Raw.memcmp bytes bytes') 0 = Ord.compare bytes bytes' := by
  induction bytes generalizing bytes' with
  | nil =>
    cases bytes' with
    | nil => rfl
    | cons byte' rest' => cases size
  | cons byte rest inductionHypothesis =>
    cases bytes' with
    | nil => cases size
    | cons byte' rest' =>
      rw [Raw.memcmp, List.compare_cons_cons]
      by_cases same : byte = byte'
      · subst same
        rw [if_pos rfl, inductionHypothesis (Nat.succ.inj size), Std.ReflOrd.compare_self]
        rfl
      · rw [if_neg same, compare_natCast, compare_toNat]
        cases order : Ord.compare byte byte' with
        | eq => exact absurd (Std.LawfulEqOrd.eq_of_compare order) same
        | lt | gt => rfl

theorem ordering_memcmp_toList {size : Nat} (a b : Vector UInt8 size) :
    Ord.compare (Raw.memcmp a.toList b.toList) 0 = Ord.compare a b := by
  rw [ordering_memcmp (by rw [Vector.length_toList, Vector.length_toList]),
    Vector.compare_eq_compare_toList]

end Bytewise

/-! ### What the comparators say -/

section Denoting

theorem ordering_zero : Ord.compare (0 : Int) 0 = .eq := rfl

/-- Families are compared by their numbers. -/
theorem compare_afNumber (af af' : Af) : Ord.compare (Raw.afNumber af) (Raw.afNumber af') =
    if af = af' then .eq else if af = .inet then .lt else .gt := by
  cases af with
  | inet | inet6 => cases af' with
    | inet | inet6 => rfl

theorem ordering_ldpAddrcmp (af : Af) (a b : Raw.AddrUnion) (len len' : UInt8) :
    (Ord.compare (Raw.ldpAddrcmp af a b) 0).then (Ord.compare len len') =
      krouteCompare ⟨a.addr af, len⟩ ⟨b.addr af, len'⟩ := by
  cases af with
  | inet6 => exact congrArg (Ordering.then · _) (ordering_memcmp_toList a.bytes b.bytes)
  | inet =>
    have same : Ord.compare (Raw.ldpAddrcmp .inet a b) 0 = Ord.compare a.v4 b.v4 := by
      rw [Raw.ldpAddrcmp]
      cases order : Ord.compare a.v4 b.v4 with
      | eq => rw [if_pos (Std.LawfulEqOrd.eq_of_compare order), ordering_zero]
      | lt =>
        have less := Std.compare_eq_lt.mp order
        rw [if_neg (UInt32.ne_of_lt less), if_neg (UInt32.lt_asymm less)]
        rfl
      | gt =>
        have more := Std.compare_eq_gt.mp order
        rw [if_neg (UInt32.ne_of_lt more).symm, if_pos more]
        rfl
    rw [same]
    rfl

/-- `kroute_compare` compares the prefixes that keys denote. -/
theorem ordering_krouteCompare (a b : Raw.KrouteKey) :
    ordering Raw.krouteCompare a b = krouteCompare a.net b.net := by
  have lengths (rest : Int) (first : rest ≠ 0) :
      (Ord.compare rest 0).then (Ord.compare a.prefixlen b.prefixlen) = Ord.compare rest 0 := by
    cases order : Ord.compare rest 0 with
    | lt | gt => rfl
    | eq => exact absurd (Std.LawfulEqOrd.eq_of_compare order) first
  rw [ordering, Raw.krouteCompare, ordering_field, compare_afNumber]
  by_cases family : a.af = b.af
  · rw [if_pos family, Raw.KrouteKey.net, Raw.KrouteKey.net, ← family, ← ordering_ldpAddrcmp]
    show Ord.compare (if Raw.ldpAddrcmp a.af a.addr b.addr ≠ 0 then _ else _) 0 = _
    split
    · rename_i different
      exact (lengths _ different).symm
    · rename_i same
      rw [ordering_field, Decidable.not_not.mp same]
      exact Ordering.then_eq
  · rw [if_neg family]
    obtain ⟨af, addr, len⟩ := a
    obtain ⟨af', addr', len'⟩ := b
    cases af with
    | inet | inet6 => cases af' with
      | inet | inet6 => first | rfl | exact absurd rfl family

/-- `nbr_addr_compare` compares the addresses that keys denote. -/
theorem ordering_nbrAddrCompare (a b : Raw.NbrKey) :
    ordering Raw.nbrAddrCompare a b = krouteCompare ⟨a.addr, 0⟩ ⟨b.addr, 0⟩ := by
  rw [ordering, Raw.nbrAddrCompare, ordering_field, compare_afNumber]
  by_cases family : a.af = b.af
  · rw [if_pos family, Raw.NbrKey.addr, Raw.NbrKey.addr, ← family, ← ordering_ldpAddrcmp]
    exact Ordering.then_eq.symm
  · rw [if_neg family]
    obtain ⟨af, addr⟩ := a
    obtain ⟨af', addr'⟩ := b
    cases af with
    | inet | inet6 => cases af' with
      | inet | inet6 => first | rfl | exact absurd rfl family

/-- `fec_compare` compares the FECs that keys denote. -/
theorem ordering_fecCompare (a b : Raw.FecKey) :
    ordering Raw.fecCompare a b = fecCompare a.fec b.fec := by
  obtain ⟨type, u⟩ := a
  obtain ⟨type', u'⟩ := b
  by_cases same : type = type'
  · subst same
    rw [ordering, Raw.fecCompare, ordering_field, Std.ReflOrd.compare_self]
    cases type with
    | ipv4 =>
      show Ord.compare (if (_ : UInt32) < _ then -1 else _) 0 = _
      rw [ordering_field, ordering_field, ordering_zero, Ordering.then_eq]
      rfl
    | ipv6 =>
      show Ord.compare (if Raw.memcmp _ _ < 0 then -1 else _) 0 = _
      rw [ordering_field, ordering_memcmp_toList, ordering_field, ordering_zero, Ordering.then_eq]
      rfl
    | pwid =>
      show Ord.compare (if (_ : UInt16) < _ then -1 else _) 0 = _
      rw [ordering_field, ordering_field, ordering_field, ordering_zero, Ordering.then_eq,
        ← Ordering.then_assoc]
      rfl
  · cases type with
    | ipv4 | ipv6 | pwid => cases type' with
      | ipv4 | ipv6 | pwid => first | rfl | exact absurd rfl same

/-- The comparators that compare field by field are total orders of what their keys denote, whatever
lies in the rest of the unions, and trees with them are finite maps. -/
theorem structured_lawful :
    (LawfulOn Set.univ Raw.fecCompare Raw.FecKey.fec ∧ FiniteMap Raw.fecCompare Raw.FecKey.fec) ∧
    (LawfulOn Set.univ Raw.krouteCompare Raw.KrouteKey.net ∧
      FiniteMap Raw.krouteCompare Raw.KrouteKey.net) ∧
    (LawfulOn Set.univ Raw.nbrAddrCompare Raw.NbrKey.addr ∧
      FiniteMap Raw.nbrAddrCompare Raw.NbrKey.addr) := by
  have fecs := lawfulOn_of_ordering ordering_fecCompare
  have kroutes := lawfulOn_of_ordering ordering_krouteCompare
  have nbrs : LawfulOn Set.univ Raw.nbrAddrCompare Raw.NbrKey.addr := by
    have nets : LawfulOn Set.univ Raw.nbrAddrCompare fun key => (⟨key.addr, 0⟩ : KroutePrefix) :=
      lawfulOn_of_ordering ordering_nbrAddrCompare
    refine (lawfulOn_congr fun a b => ?_).mp nets
    exact ⟨congrArg KroutePrefix.addr, fun same => congrArg (KroutePrefix.mk · 0) same⟩
  exact ⟨⟨fecs, fecs.finiteMap⟩, ⟨kroutes, kroutes.finiteMap⟩, ⟨nbrs, nbrs.finiteMap⟩⟩

end Denoting

end Ldpd
