/-
This file is the state of the label decision engine: the FEC tree `ft`, the
neighbors `lde_nbrs` with their five label trees and their address lists, the
configured pseudowires, and the two pipes the engine writes to.

Trees of `sys/tree.h` are ordered maps, so a loop of the source over a tree is a
fold over its keys in order. A pointer of the source is the key of the record it
points to: a `struct fec_node *` is a FEC, a `struct lde_nbr *` a peerid, and a
`struct l2vpn_pw *` the index of a record in a table of its own. Following a
pointer that leads nowhere, and every `fatalx`, is kept in `faults`.
-/

import Ldpd.Types
import Ldpd.Library.Tree

namespace Ldpd

/-! ### Records -/

/-- `struct fec_tree`: entries in the order of `fec_compare`. -/
abbrev FecTree (Entry : Type) := Std.ExtTreeMap Fec Entry fecCompare

/-- `struct fec_nh`. -/
structure FecNh where
  nexthop : LdpdAddr
  remoteLabel : UInt32
  priority : UInt8
  deriving DecidableEq, Repr

/-- `struct fec_node`. The lists of received and sent mappings hold the peerid of the
neighbor whose tree holds the mapping. -/
structure FecNode where
  nexthops : List FecNh
  downstream : List UInt32
  upstream : List UInt32
  localLabel : UInt32
  data : Option Nat
  deriving DecidableEq, Repr

/-- `struct lde_nbr`. A mapping entry is its `struct map`, a request entry its message id
and a withdraw entry its label. -/
structure LdeNbr where
  id : InAddr
  v4Enabled : Bool
  v6Enabled : Bool
  recvReq : FecTree UInt32
  sentReq : FecTree UInt32
  recvMap : FecTree Map
  sentMap : FecTree Map
  sentWdraw : FecTree UInt32
  addrList : List LdpdAddr

/-- The bits of `pw.flags`, `F_PW_STATUSTLV_CONF` to `F_PW_STATUS_UP`. -/
structure PwFlags where
  statustlvConf : Bool := false
  statustlv : Bool := false
  cwordConf : Bool := false
  cword : Bool := false
  statusUp : Bool := false
  deriving DecidableEq, Repr

/-- `struct l2vpn_pw`. -/
structure L2vpnPw where
  l2vpn : Nat
  lsrId : InAddr
  addr : LdpdAddr
  pwid : UInt32
  ifindex : UInt32
  remoteGroup : UInt32 := 0
  remoteMtu : UInt16 := 0
  remoteStatus : UInt32 := 0
  flags : PwFlags := {}
  deriving DecidableEq, Repr

/-- `struct l2vpn`: what the engine reads of it. -/
structure L2vpn where
  name : String
  pwType : UInt16
  mtu : UInt16
  pwList : List Nat
  deriving DecidableEq, Repr, Inhabited

/-- `struct kroute`: the fields the engine fills in. -/
structure Kroute where
  addr : LdpdAddr
  prefixlen : UInt8
  nexthop : LdpdAddr
  localLabel : UInt32
  remoteLabel : UInt32
  priority : UInt8
  deriving DecidableEq, Repr

/-- `struct kpw`. -/
structure Kpw where
  ifindex : UInt32
  pwType : UInt16
  nexthop : LdpdAddr
  localLabel : UInt32
  remoteLabel : UInt32
  flags : PwFlags
  deriving DecidableEq, Repr

/-- What the engine writes on its pipe to the parent process. -/
inductive ParentImsg where
  | klabelChange (kr : Kroute)
  | klabelDelete (kr : Kroute)
  | kpwlabelChange (kpw : Kpw)
  | kpwlabelDelete (kpw : Kpw)
  deriving DecidableEq, Repr

/-- What the engine writes on its pipe to the LDP engine. -/
inductive LdpeImsg where
  | mappingAdd (peerid : UInt32) (map : Map)
  | mappingAddEnd (peerid : UInt32)
  | withdrawAdd (peerid : UInt32) (map : Map)
  | withdrawAddEnd (peerid : UInt32)
  | releaseAdd (peerid : UInt32) (map : Map)
  | releaseAddEnd (peerid : UInt32)
  | notificationSend (peerid : UInt32) (nm : NotifyMsg)
  deriving DecidableEq, Repr

/-- What goes wrong in the engine: `fatalx`, a FEC that has no node, and a pseudowire that is `NULL` or
has been freed. -/
inductive LdeFault where
  | fatalx
  | nullFec
  | nullPw
  | freedPw
  deriving DecidableEq, Repr

/-- The label decision engine. `label` is the static counter of `lde_assign_label`, the two
`ExpNull` fields are the `F_LDPD_AF_EXPNULL` bits of `ldeconf`, and `l2vpnList` is its list
of L2VPNs. -/
structure Lde where
  ft : FecTree FecNode
  ldeNbrs : Std.ExtTreeMap UInt32 LdeNbr compare
  label : UInt32
  ipv4ExpNull : Bool
  ipv6ExpNull : Bool
  l2vpnList : List Nat
  l2vpns : Std.ExtTreeMap Nat L2vpn compare
  pws : Std.ExtTreeMap Nat L2vpnPw compare
  toLdpe : List LdpeImsg
  toParent : List ParentImsg
  faults : List LdeFault

/-- The configuration of an L2VPN. -/
structure L2vpnConf where
  name : String
  pwType : UInt16
  mtu : UInt16

/-- What the engine starts with: the explicit-null settings and the L2VPNs, without their
pseudowires. -/
structure LdeConf where
  ipv4ExpNull : Bool := false
  ipv6ExpNull : Bool := false
  l2vpns : List L2vpnConf := []

/-- The engine as it starts. -/
def Lde.start (conf : LdeConf) : Lde where
  ft := ∅
  ldeNbrs := ∅
  label := mplsLabelReservedMax
  ipv4ExpNull := conf.ipv4ExpNull
  ipv6ExpNull := conf.ipv6ExpNull
  l2vpnList := List.range conf.l2vpns.length
  l2vpns := Std.ExtTreeMap.ofList (conf.l2vpns.zipIdx.map fun (l2vpn, index) =>
    (index, { name := l2vpn.name, pwType := l2vpn.pwType, mtu := l2vpn.mtu, pwList := [] })) compare
  pws := ∅
  toLdpe := []
  toParent := []
  faults := []

/-! ### Access -/

/-- The nexthops of a FEC, none when the tree has no node for it. -/
def Lde.nexthops (lde : Lde) (fec : Fec) : List FecNh :=
  match lde.ft[fec]? with
  | some fn => fn.nexthops
  | none => []

/-- Change the node of a FEC in place. -/
def Lde.updateNode (lde : Lde) (fec : Fec) (change : FecNode → FecNode) : Lde :=
  { lde with ft := lde.ft.modify fec change }

/-- Change a neighbor in place. -/
def Lde.updateNbr (lde : Lde) (peerid : UInt32) (change : LdeNbr → LdeNbr) : Lde :=
  { lde with ldeNbrs := lde.ldeNbrs.modify peerid change }

/-- Change a pseudowire in place. -/
def Lde.updatePw (lde : Lde) (pw : Nat) (change : L2vpnPw → L2vpnPw) : Lde :=
  { lde with pws := lde.pws.modify pw change }

/-- Change the flags of a pseudowire in place. -/
def Lde.setPwFlags (lde : Lde) (pw : Nat) (change : PwFlags → PwFlags) : Lde :=
  lde.updatePw pw fun pw => { pw with flags := change pw.flags }

/-- `lde_imsg_compose_ldpe`. -/
def Lde.composeLdpe (lde : Lde) (imsg : LdpeImsg) : Lde :=
  { lde with toLdpe := lde.toLdpe ++ [imsg] }

/-- `lde_imsg_compose_parent`. -/
def Lde.composeParent (lde : Lde) (imsg : ParentImsg) : Lde :=
  { lde with toParent := lde.toParent ++ [imsg] }

/-- `fatalx`, or a pointer that leads nowhere. -/
def Lde.fail (lde : Lde) (fault : LdeFault) : Lde :=
  { lde with faults := lde.faults ++ [fault] }

/-- The pseudowire of a node that has none, or had one that has been freed. -/
def Lde.failPw (lde : Lde) (fn : FecNode) : Lde :=
  lde.fail (if fn.data = none then .nullPw else .freedPw)

/-- `fnh->remote_label = label`. -/
def Lde.setRemoteLabel (lde : Lde) (fec : Fec) (fnh : FecNh) (label : UInt32) : Lde :=
  lde.updateNode fec fun fn =>
    { fn with
      nexthops := fn.nexthops.map fun other =>
        if other.nexthop = fnh.nexthop ∧ other.priority = fnh.priority then
          { other with remoteLabel := label }
        else other }

/-! ### FEC tree functions -/

/-- `lde_address_find`. -/
def ldeAddressFind (ln : LdeNbr) (addr : LdpdAddr) : Bool :=
  ln.addrList.contains addr

/-- `fec_add` of a FEC that `fec_find` did not find. -/
def fecAdd (lde : Lde) (fec : Fec) : Lde :=
  { lde with
    ft := lde.ft.insertIfNew fec
      { nexthops := [], downstream := [], upstream := [], localLabel := noLabel, data := none } }

/-- `fec_nh_find`. -/
def fecNhFind (fn : FecNode) (nexthop : LdpdAddr) (priority : UInt8) : Option FecNh :=
  fn.nexthops.find? fun fnh => fnh.nexthop = nexthop ∧ fnh.priority = priority

/-- `fec_nh_add`. -/
def fecNhAdd (lde : Lde) (fec : Fec) (nexthop : LdpdAddr) (priority : UInt8) : Lde :=
  lde.updateNode fec fun fn =>
    { fn with nexthops := { nexthop, remoteLabel := noLabel, priority } :: fn.nexthops }

/-- `fec_nh_del`. -/
def fecNhDel (lde : Lde) (fec : Fec) (fnh : FecNh) : Lde :=
  lde.updateNode fec fun fn =>
    { fn with
      nexthops := fn.nexthops.filter fun other =>
        ¬(other.nexthop = fnh.nexthop ∧ other.priority = fnh.priority) }

/-- `egress_label`. A pseudowire FEC is not expected. -/
def egressLabel (lde : Lde) : Fec → Option UInt32
  | .ipv4 .. => some (if lde.ipv4ExpNull then mplsLabelIpv4null else mplsLabelImplnull)
  | .ipv6 .. => some (if lde.ipv6ExpNull then mplsLabelIpv6null else mplsLabelImplnull)
  | .pwid .. => none

/-- `lde_assign_label`: the next value of the 32-bit counter. -/
def ldeAssignLabel (lde : Lde) : Lde × UInt32 :=
  ({ lde with label := lde.label + 1 }, lde.label + 1)

/-! ### Mapping, request and withdraw entries -/

/-- `lde_map_add`, with the mapping that its caller stores in the new entry. -/
def ldeMapAdd (lde : Lde) (peerid : UInt32) (fec : Fec) (map : Map) (sent : Bool) : Lde :=
  if sent then
    (lde.updateNode fec fun fn => { fn with upstream := peerid :: fn.upstream }).updateNbr peerid
      fun ln => { ln with sentMap := ln.sentMap.insert fec map }
  else
    (lde.updateNode fec fun fn => { fn with downstream := peerid :: fn.downstream }).updateNbr
      peerid fun ln => { ln with recvMap := ln.recvMap.insert fec map }

/-- `me->map = map` for an entry that exists. -/
def ldeMapSet (lde : Lde) (peerid : UInt32) (fec : Fec) (map : Map) (sent : Bool) : Lde :=
  lde.updateNbr peerid fun ln =>
    if sent then { ln with sentMap := ln.sentMap.insert fec map }
    else { ln with recvMap := ln.recvMap.insert fec map }

/-- `lde_map_del`: the entry leaves its tree and the list of its node. -/
def ldeMapDel (lde : Lde) (peerid : UInt32) (fec : Fec) (sent : Bool) : Lde :=
  if sent then
    (lde.updateNode fec fun fn => { fn with upstream := fn.upstream.erase peerid }).updateNbr
      peerid fun ln => { ln with sentMap := ln.sentMap.erase fec }
  else
    (lde.updateNode fec fun fn => { fn with downstream := fn.downstream.erase peerid }).updateNbr
      peerid fun ln => { ln with recvMap := ln.recvMap.erase fec }

end Ldpd
