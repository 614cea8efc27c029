/-
This file holds the data the three processes of the daemon exchange: addresses,
labels, forwarding equivalence classes, and the label records `struct map` that
travel between the LDP engine and the label decision engine.

An address family always travels with the `union ldpd_addr` it selects a member
of, so the pair is one tagged value here. Numbers that the source keeps in
network byte order are held by value, and `ntohl` and `htonl` disappear. Flag
words whose bits are tested one by one are records of booleans, one for each
bit the source defines.
-/

import Mathlib

namespace Ldpd

/-! ### Addresses -/

/-- `struct in_addr`, by value. -/
abbrev InAddr := UInt32

/-- `struct in6_addr`: the sixteen bytes of `s6_addr`. -/
abbrev In6Addr := Vector UInt8 16

/-- The address families the daemon speaks. -/
inductive Af where
  | inet
  | inet6
  deriving DecidableEq, Repr

/-- `union ldpd_addr` with the address family that says which member is meant. -/
inductive LdpdAddr where
  | v4 (addr : InAddr)
  | v6 (addr : In6Addr)
  deriving DecidableEq, Repr

/-- The address family of an address. -/
def LdpdAddr.af : LdpdAddr → Af
  | .v4 _ => .inet
  | .v6 _ => .inet6

/-! ### Labels -/

/-- `NO_LABEL`, the largest 32-bit value. -/
def noLabel : UInt32 := 0xffffffff

/-- `MPLS_LABEL_IPV4NULL` of `netmpls/mpls.h`. -/
def mplsLabelIpv4null : UInt32 := 0

/-- `MPLS_LABEL_IPV6NULL` of `netmpls/mpls.h`. -/
def mplsLabelIpv6null : UInt32 := 2

/-- `MPLS_LABEL_IMPLNULL` of `netmpls/mpls.h`. -/
def mplsLabelImplnull : UInt32 := 3

/-- `MPLS_LABEL_RESERVED_MAX` of `netmpls/mpls.h`. -/
def mplsLabelReservedMax : UInt32 := 15

/-- `MPLS_LABEL_MAX` of `netmpls/mpls.h`. -/
def mplsLabelMax : UInt32 := 1048575

/-! ### Label records -/

/-- The FEC of a `struct map`: its `type` with the member of the union the type selects. -/
inductive MapFec where
  | wildcard
  | network (addr : LdpdAddr) (prefixlen : UInt8)
  | pwid (type : UInt16) (pwid groupId : UInt32) (ifmtu : UInt16)
  deriving DecidableEq, Repr

/-- The bits of `map.flags`, `F_MAP_REQ_ID` to `F_MAP_PW_STATUS`. -/
structure MapFlags where
  reqId : Bool := false
  status : Bool := false
  pwCword : Bool := false
  pwId : Bool := false
  pwIfmtu : Bool := false
  pwStatus : Bool := false
  deriving DecidableEq, Repr

/-- The `st` member of `struct map`. -/
structure MapStatus where
  statusCode : UInt32 := 0
  msgId : UInt32 := 0
  msgType : UInt16 := 0
  deriving DecidableEq, Repr

/-- `struct map`. -/
structure Map where
  fec : MapFec
  msgId : UInt32 := 0
  st : MapStatus := {}
  label : UInt32 := 0
  requestid : UInt32 := 0
  pwStatus : UInt32 := 0
  flags : MapFlags := {}
  deriving DecidableEq, Repr

/-- `struct notify_msg`, with the two bits of its `flags`. -/
structure NotifyMsg where
  statusCode : UInt32
  msgId : UInt32 := 0
  msgType : UInt16 := 0
  pwStatus : UInt32 := 0
  fec : Map := { fec := .wildcard }
  hasPwStatus : Bool := false
  hasFec : Bool := false
  deriving DecidableEq, Repr

/-- `PW_FORWARDING`. -/
def pwForwarding : UInt32 := 0

/-! ### Message types and status codes -/

/-- The message types of `ldp.h`, by the numbers they have on the wire. -/
def msgTypeLabelrequest : UInt16 := 0x0401

@[inherit_doc msgTypeLabelrequest]
def msgTypeLabelmapping : UInt16 := 0x0400

/-- The status codes of `ldp.h` that the label decision engine sends. -/
def sLoopDetected : UInt32 := 0x0000000B

@[inherit_doc sLoopDetected]
def sNoRoute : UInt32 := 0x0000000D

@[inherit_doc sLoopDetected]
def sWrongCbit : UInt32 := 0x00000025

@[inherit_doc sLoopDetected]
def sPwStatus : UInt32 := 0x00000028

/-! ### Forwarding equivalence classes -/

/-- `struct fec`: the type and the member of the union it selects. -/
inductive Fec where
  | ipv4 (addr : InAddr) (prefixlen : UInt8)
  | ipv6 (addr : In6Addr) (prefixlen : UInt8)
  | pwid (type : UInt16) (pwid : UInt32) (lsrId : InAddr)
  deriving DecidableEq, Repr

/-- The address family of the routes a FEC stands for; a pseudowire has none. -/
def Fec.af : Fec → Option Af
  | .ipv4 .. => some .inet
  | .ipv6 .. => some .inet6
  | .pwid .. => none

/-- `fec_compare`: the type first, then the fields of the type in the order the source
compares them. -/
def fecCompare : Fec → Fec → Ordering
  | .ipv4 addr len, .ipv4 addr' len' => (compare addr addr').then (compare len len')
  | .ipv4 .., _ => .lt
  | .ipv6 .., .ipv4 .. => .gt
  | .ipv6 addr len, .ipv6 addr' len' => (compare addr addr').then (compare len len')
  | .ipv6 .., .pwid .. => .lt
  | .pwid type pwid lsrId, .pwid type' pwid' lsrId' =>
      ((compare type type').then (compare pwid pwid')).then (compare lsrId lsrId')
  | .pwid .., _ => .gt

theorem fecCompare_self (fec : Fec) : fecCompare fec fec = .eq := by
  cases fec <;> simp [fecCompare, Std.ReflCmp.compare_self]

theorem eq_of_fecCompare {first second : Fec} (equal : fecCompare first second = .eq) :
    first = second := by
  cases first <;> cases second <;>
    simp_all [fecCompare, Ordering.then_eq_eq]

theorem fecCompare_swap (first second : Fec) :
    fecCompare first second = (fecCompare second first).swap := by
  cases first <;> cases second <;>
    simp only [fecCompare, Ordering.swap_then, Ordering.swap_lt, Ordering.swap_gt,
      ← Std.OrientedOrd.eq_swap]

/-- A comparison of a major and then a minor key is transitive when both are. -/
theorem then_isLE_trans {Major Minor : Type} (major : Major → Major → Ordering)
    (minor : Minor → Minor → Ordering) [Std.TransCmp major] [Std.TransCmp minor]
    {a b c : Major} {x y z : Minor} (first : ((major a b).then (minor x y)).isLE)
    (second : ((major b c).then (minor y z)).isLE) : ((major a c).then (minor x z)).isLE := by
  simp only [Ordering.isLE_then_iff_and] at first second ⊢
  refine ⟨Std.TransCmp.isLE_trans first.1 second.1, ?_⟩
  rcases first.2 with less | le
  · exact Or.inl (Std.TransCmp.lt_of_lt_of_isLE less second.1)
  · rcases second.2 with less' | le'
    · exact Or.inl (Std.TransCmp.lt_of_isLE_of_lt first.1 less')
    · exact Or.inr (Std.TransCmp.isLE_trans le le')

/-- The comparison of a pseudowire type and then a pseudowire id. -/
def pwidCompare : UInt16 × UInt32 → UInt16 × UInt32 → Ordering :=
  compareLex (compareOn Prod.fst) (compareOn Prod.snd)

instance : Std.TransCmp pwidCompare :=
  inferInstanceAs (Std.TransCmp (compareLex (compareOn Prod.fst) (compareOn Prod.snd)))

theorem fecCompare_isLE_trans {first second third : Fec}
    (lower : (fecCompare first second).isLE) (upper : (fecCompare second third).isLE) :
    (fecCompare first third).isLE := by
  cases first with
  | ipv4 =>
    cases second <;> cases third <;> simp only [fecCompare, Ordering.isLE_lt, Ordering.isLE_gt,
      Bool.false_eq_true] at lower upper ⊢
    exact then_isLE_trans compare compare lower upper
  | ipv6 =>
    cases second <;> cases third <;> simp only [fecCompare, Ordering.isLE_lt, Ordering.isLE_gt,
      Bool.false_eq_true] at lower upper ⊢
    exact then_isLE_trans compare compare lower upper
  | pwid type pwid =>
    cases second <;> cases third <;>
      simp only [fecCompare, Ordering.isLE_gt, Bool.false_eq_true] at lower upper ⊢
    rename_i type' pwid' _ type'' pwid'' _
    exact then_isLE_trans pwidCompare compare (a := (type, pwid)) (b := (type', pwid'))
      (c := (type'', pwid'')) lower upper

/-- The comparator of the FEC trees is a total order that equates only equal FECs, which is
what `sys/tree.h` asks of it. -/
instance : Std.TransCmp fecCompare where
  eq_swap := fecCompare_swap _ _
  isLE_trans := fecCompare_isLE_trans

instance : Std.LawfulEqCmp fecCompare where
  compare_self := fecCompare_self _
  eq_of_compare := eq_of_fecCompare

end Ldpd
