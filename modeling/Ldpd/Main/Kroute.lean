/-
This file models the kernel routes of the parent process: the tree of prefixes, each
with a list of priorities, each with a list of nexthops; the routing messages that
change it; what of it is redistributed to the label decision engine; and the routing
messages that the process writes to put labels into the forwarding table.

The prefix length that a netmask gives is part of the message here. A gateway is read
through the member of the union that the family of the destination selects.
-/

import Ldpd.Lde.State
import Ldpd.Ldpe.Interfaces

namespace Ldpd

/-! ### Addresses -/

/-- `IN6_IS_SCOPE_EMBED`: link-local addresses and the multicast addresses of a link or an interface. -/
def isScopeEmbed (addr : In6Addr) : Bool :=
  isLinklocal addr || (addr.get 0 = 0xff && (addr.get 1 &&& 0x0f = 0x02 || addr.get 1 &&& 0x0f = 0x01))

/-- `IN6_IS_ADDR_LOOPBACK`. -/
def isLoopback6 (addr : In6Addr) : Bool :=
  addr.toList.take 15 = List.replicate 15 0 && addr.get 15 = 1

/-- `bad_addr_v4`. -/
def badAddrV4 (addr : InAddr) : Bool :=
  addr >>> 24 = 0 || addr >>> 24 = 127 || addr &&& 0xf0000000 = 0xe0000000 ||
    addr &&& 0xf0000000 = 0xf0000000

/-- `bad_addr_v6`: unspecified, loopback, multicast, site-local, mapped and compatible addresses. -/
def badAddrV6 (addr : In6Addr) : Bool :=
  addr.toList = List.replicate 16 0 || isLoopback6 addr || addr.get 0 = 0xff ||
    (addr.get 0 = 0xfe && addr.get 1 &&& 0xc0 = 0xc0) ||
    (addr.toList.take 10 = List.replicate 10 0 && addr.get 10 = 0xff && addr.get 11 = 0xff) ||
    addr.toList.take 12 = List.replicate 12 0

/-- `bad_addr`. -/
def badAddr : LdpdAddr → Bool
  | .v4 addr => badAddrV4 addr
  | .v6 addr => badAddrV6 addr

/-- `ldp_addrisset`. -/
def ldpAddrisset : LdpdAddr → Bool
  | .v4 addr => addr != 0
  | .v6 addr => addr.toList != List.replicate 16 0

/-- The address that `recoverscope` leaves. -/
def recoverscope (addr : In6Addr) : In6Addr :=
  if isScopeEmbed addr then (addr.set 2 0).set 3 0 else addr

/-! ### The tree -/

/-- The bits of `kroute.flags`. -/
structure KrFlags where
  ldpdInserted : Bool := false
  connected : Bool := false
  static : Bool := false
  dynamic : Bool := false
  reject : Bool := false
  blackhole : Bool := false
  redistributed : Bool := false
  deriving DecidableEq, Repr

/-- `struct kroute_node`: the route it holds, with its flags. -/
structure KrouteNode extends Kroute where
  flags : KrFlags := {}
  deriving DecidableEq, Repr

/-- `struct kroute_priority`. -/
structure KroutePriority where
  priority : UInt8
  nexthops : List KrouteNode
  deriving DecidableEq, Repr

/-- The key of `struct kroute_prefix`. -/
structure KroutePrefix where
  addr : LdpdAddr
  prefixlen : UInt8
  deriving DecidableEq, Repr

/-- The FEC of a prefix. -/
def KroutePrefix.fec (net : KroutePrefix) : Fec :=
  match net.addr with
  | .v4 addr => .ipv4 addr net.prefixlen
  | .v6 addr => .ipv6 addr net.prefixlen

/-- `kroute_compare`: the family, the address and the prefix length. -/
def krouteCompare (a b : KroutePrefix) : Ordering :=
  fecCompare a.fec b.fec

theorem KroutePrefix.fec_injective {a b : KroutePrefix} (same : a.fec = b.fec) : a = b := by
  obtain ⟨addr, prefixlen⟩ := a
  obtain ⟨addr', prefixlen'⟩ := b
  cases addr <;> cases addr' <;> simp_all [KroutePrefix.fec]

instance : Std.TransCmp krouteCompare where
  eq_swap := fecCompare_swap _ _
  isLE_trans := fecCompare_isLE_trans

instance : Std.LawfulEqCmp krouteCompare where
  compare_self := fecCompare_self _
  eq_of_compare equal := KroutePrefix.fec_injective (eq_of_fecCompare equal)

/-- The prefix of a route. -/
def Kroute.net (kr : Kroute) : KroutePrefix :=
  ⟨kr.addr, kr.prefixlen⟩

/-! ### Messages -/

/-- What the process writes on its pipe to the label decision engine. -/
inductive NetworkImsg where
  | add (kr : KrouteNode)
  | del (kr : KrouteNode)
  deriving DecidableEq, Repr

/-- The types of routing messages that are written to the kernel. -/
inductive RtmAction where
  | add
  | change
  | delete
  deriving DecidableEq, Repr

/-- A routing message to the kernel: about the entry of a label, with the label it is swapped for, or
about a route, with the label that is pushed. -/
inductive RtRequest where
  | mpls (action : RtmAction) (label : UInt32) (nexthop : LdpdAddr) (priority : UInt8)
    (labelOut : Option UInt32)
  | inet (action : RtmAction) (net : KroutePrefix) (nexthop : LdpdAddr) (priority : UInt8)
    (labelOut : Option UInt32)
  deriving DecidableEq, Repr

/-- The state of the process: `krt`, `kr_state.fib_sync` and what it has written so far. -/
structure Kr where
  krt : Std.ExtTreeMap KroutePrefix (List KroutePriority) krouteCompare := ∅
  fibSync : Bool
  toLde : List NetworkImsg := []
  toKernel : List RtRequest := []

/-- The label of a message other than `RTM_DELETE`. -/
def labelOut (action : RtmAction) (kn : KrouteNode) : Option UInt32 :=
  if kn.remoteLabel ≠ noLabel ∧ action ≠ .delete then some kn.remoteLabel else none

/-- `send_rtmsg` with family `AF_MPLS`. `send_rtmsg_v6` does nothing. -/
def sendRtmsgMpls (fibSync : Bool) (action : RtmAction) (kn : KrouteNode) : List RtRequest :=
  if kn.addr.af = .inet6 ∨ fibSync = false ∨ kn.localLabel < mplsLabelReservedMax then []
  else [.mpls action kn.localLabel kn.nexthop kn.priority (labelOut action kn)]

/-- `send_rtmsg` with family `AF_INET`. -/
def sendRtmsgInet (fibSync : Bool) (action : RtmAction) (kn : KrouteNode) : List RtRequest :=
  if kn.addr.af = .inet6 ∨ fibSync = false ∨ labelOut action kn = some mplsLabelImplnull then []
  else [.inet action kn.net kn.nexthop kn.priority (labelOut action kn)]

/-- Write to the kernel. -/
def Kr.write (kr : Kr) (requests : List RtRequest) : Kr :=
  { kr with toKernel := kr.toKernel ++ requests }

/-! ### Lookups -/

/-- `RTP_ANY` of `net/route.h`. No route has this priority. -/
def rtpAny : UInt8 := 64

/-- The test of `kroute_find_prio`. `RTP_ANY` picks the first. -/
def KroutePriority.isPrio (prio : UInt8) (kprio : KroutePriority) : Bool :=
  prio = rtpAny || kprio.priority = prio

/-- The test of `kroute_find_gw`. -/
def KrouteNode.isGw (nexthop : LdpdAddr) (kn : KrouteNode) : Bool :=
  kn.nexthop = nexthop

/-- `kroute_find_prio`. -/
def krouteFindPrio (kprios : List KroutePriority) (prio : UInt8) : Option KroutePriority :=
  kprios.find? (KroutePriority.isPrio prio)

/-- `kroute_find_gw`. -/
def krouteFindGw (kprio : KroutePriority) (nexthop : LdpdAddr) : Option KrouteNode :=
  kprio.nexthops.find? (KrouteNode.isGw nexthop)

/-- The three lookups one after another. -/
def krouteFind (kr : Kr) (route : Kroute) : Option KrouteNode :=
  (kr.krt[route.net]?).bind fun kprios =>
    (krouteFindPrio kprios route.priority).bind fun kprio => krouteFindGw kprio route.nexthop

/-- Put another node in the place of the first that a lookup finds. -/
def replaceNode (kprios : List KroutePriority) (route : Kroute) (change : KrouteNode → KrouteNode) :
    List KroutePriority :=
  kprios.replaceF fun kprio =>
    if kprio.isPrio route.priority then
      some { kprio with
        nexthops := kprio.nexthops.replaceF fun kn =>
          if kn.isGw route.nexthop then some (change kn) else none }
    else none

/-- Change the node that a lookup finds. -/
def Kr.changeNode (kr : Kr) (route : Kroute) (change : KrouteNode → KrouteNode) : Kr :=
  { kr with krt := kr.krt.modify route.net fun kprios => replaceNode kprios route change }

/-! ### Redistribution -/

/-- What `kr_redist_eval` asks of a route. -/
def KrouteNode.redistributable (kn : KrouteNode) : Bool :=
  !kn.flags.dynamic && !badAddr kn.addr &&
    (match kn.addr with
      | .v4 _ => true
      | .v6 addr => !isScopeEmbed addr) &&
    kn.prefixlen != 0 &&
    (kn.flags.blackhole || kn.flags.reject ||
      match kn.nexthop with
      | .v4 nexthop => nexthop != 0x7f000001
      | .v6 nexthop => !isLoopback6 nexthop)

/-- Set or clear `F_REDISTRIBUTED`. -/
def KrouteNode.mark (kn : KrouteNode) (redistributed : Bool) : KrouteNode :=
  { kn with flags := { kn.flags with redistributed } }

/-- `kr_redist_remove`: the route that it leaves, and what it sends. -/
def krRedistRemove (kn : KrouteNode) : KrouteNode × List NetworkImsg :=
  if kn.flags.redistributed then (kn.mark false, [.del (kn.mark false)]) else (kn, [])

/-- `kr_redist_eval`. -/
def krRedistEval (kn : KrouteNode) : KrouteNode × List NetworkImsg :=
  if kn.flags.redistributed then (kn, [])
  else if kn.redistributable then (kn.mark true, [.add (kn.mark true)])
  else (kn, [])

/-- Call one of them for all nexthops of a priority. -/
def KroutePriority.forNexthops (act : KrouteNode → KrouteNode × List NetworkImsg)
    (kprio : KroutePriority) : KroutePriority × List NetworkImsg :=
  ({ kprio with nexthops := kprio.nexthops.map fun kn => (act kn).1 },
    kprio.nexthops.flatMap fun kn => (act kn).2)

/-- `kr_redistribute`. The list is gone through from its end. -/
def krRedistribute : List KroutePriority → List KroutePriority × List NetworkImsg
  | [] => ([], [])
  | first :: rest =>
    ((first.forNexthops krRedistEval).1 :: rest.map fun kprio => (kprio.forNexthops krRedistRemove).1,
      (rest.reverse.flatMap fun kprio => (kprio.forNexthops krRedistRemove).2) ++
        (first.forNexthops krRedistEval).2)

/-- Store the priorities of a prefix after `kr_redistribute`. -/
def Kr.redistribute (kr : Kr) (net : KroutePrefix) (kprios : List KroutePriority) : Kr :=
  { kr with
    krt := kr.krt.insert net (krRedistribute kprios).1
    toLde := kr.toLde ++ (krRedistribute kprios).2 }

/-! ### Insertion and removal -/

/-- The priorities of a prefix with one more route. -/
def insertNode (kprios : List KroutePriority) (kn : KrouteNode) : List KroutePriority :=
  match krouteFindPrio kprios kn.priority with
  | none => kprios.orderedInsert (fun kprio tmp => kprio.priority < tmp.priority) ⟨kn.priority, [kn]⟩
  | some kprio =>
    match krouteFindGw kprio kn.nexthop with
    | some _ => kprios
    | none => kprios.replaceF fun kprio =>
      if kprio.isPrio kn.priority then some { kprio with nexthops := kprio.nexthops ++ [kn] } else none

/-- `kroute_insert`. -/
def krouteInsert (kr : Kr) (kn : KrouteNode) : Kr :=
  kr.redistribute kn.net (insertNode (kr.krt.getD kn.net []) kn)

/-- `kroute_uninstall`. -/
def krouteUninstall (fibSync : Bool) (kn : KrouteNode) : List RtRequest :=
  if kn.flags.ldpdInserted then sendRtmsgMpls fibSync .delete kn else []

/-- The priorities of a prefix without the node that a lookup finds. -/
def eraseNode (kprios : List KroutePriority) (route : Kroute) : List KroutePriority :=
  match krouteFindPrio kprios route.priority with
  | none => kprios
  | some kprio =>
    if (kprio.nexthops.eraseP (KrouteNode.isGw route.nexthop)).isEmpty then
      kprios.eraseP (KroutePriority.isPrio route.priority)
    else kprios.replaceF fun kprio =>
      if kprio.isPrio route.priority then
        some { kprio with nexthops := kprio.nexthops.eraseP (KrouteNode.isGw route.nexthop) }
      else none

/-- `kroute_remove`. -/
def krouteRemove (kr : Kr) (route : Kroute) : Kr :=
  match krouteFind kr route with
  | none => kr
  | some kn =>
    let kr := { kr with toLde := kr.toLde ++ (krRedistRemove kn).2 }
    let kr := kr.write (krouteUninstall kr.fibSync kn)
    match eraseNode (kr.krt.getD route.net []) route with
    | [] => { kr with krt := kr.krt.erase route.net }
    | kprios => kr.redistribute route.net kprios

/-- `kroute_clear`. -/
def krouteClear (kr : Kr) : Kr :=
  let nodes := kr.krt.toList.flatMap fun entry => entry.2.flatMap KroutePriority.nexthops
  { kr with
    krt := ∅
    toLde := kr.toLde ++ nodes.flatMap fun kn => (krRedistRemove kn).2
    toKernel := kr.toKernel ++ nodes.flatMap fun kn => krouteUninstall kr.fibSync (krRedistRemove kn).1 }

/-! ### Labels -/

/-- The route carries a label for its nexthop. -/
def KrouteNode.labelled (kn : KrouteNode) : Bool :=
  ldpAddrisset kn.nexthop && kn.remoteLabel != noLabel

/-- A route with the labels of a request, marked with `F_LDPD_INSERTED`. -/
def KrouteNode.relabel (request : Kroute) (kn : KrouteNode) : KrouteNode :=
  { kn with
    localLabel := request.localLabel
    remoteLabel := request.remoteLabel
    flags := { kn.flags with ldpdInserted := true } }

/-- A route without labels. -/
def KrouteNode.unlabel (kn : KrouteNode) : KrouteNode :=
  { kn with
    localLabel := noLabel
    remoteLabel := noLabel
    flags := { kn.flags with ldpdInserted := false } }

/-- `kr_change`. The second component is false where the source returns -1. -/
def krChange (kr : Kr) (route : Kroute) : Kr × Bool :=
  match krouteFind kr route with
  | none => (kr, false)
  | some kn =>
    let action : RtmAction := if kn.flags.ldpdInserted then .change else .add
    let kr := kr.changeNode route (KrouteNode.relabel route)
    let kn := kn.relabel route
    let kr := kr.write (sendRtmsgMpls kr.fibSync action kn)
    (kr.write (if kn.labelled then sendRtmsgInet kr.fibSync .change kn else []), true)

/-- `kr_delete`. -/
def krDelete (kr : Kr) (route : Kroute) : Kr :=
  match krouteFind kr route with
  | none => kr
  | some kn =>
    if kn.flags.ldpdInserted then
      let kr := kr.write (sendRtmsgMpls kr.fibSync .delete kn)
      let kr := kr.changeNode route KrouteNode.unlabel
      kr.write (if kn.labelled then sendRtmsgInet kr.fibSync .change kn.unlabel else [])
    else kr

/-- The nexthops that `kr_fib_couple` and `kr_fib_decouple` go through: those of the first priority of
every prefix that are marked with `F_LDPD_INSERTED`. -/
def Kr.firstInserted (kr : Kr) : List KrouteNode :=
  kr.krt.toList.flatMap fun entry =>
    match entry.2 with
    | [] => []
    | kprio :: _ => kprio.nexthops.filter fun kn => kn.flags.ldpdInserted

/-- `kr_fib_couple`. -/
def krFibCouple (kr : Kr) : Kr :=
  if kr.fibSync then kr
  else { kr with fibSync := true }.write (kr.firstInserted.flatMap fun kn =>
    sendRtmsgMpls true .add kn ++ if kn.labelled then sendRtmsgInet true .change kn else [])

/-- `kr_fib_decouple`. -/
def krFibDecouple (kr : Kr) : Kr :=
  if kr.fibSync then
    { kr with fibSync := false }.write (kr.firstInserted.flatMap fun kn =>
      sendRtmsgMpls true .delete kn ++
        if kn.labelled then sendRtmsgInet true .change { kn with remoteLabel := noLabel } else [])
  else kr

/-- `kr_shutdown`. -/
def krShutdown (kr : Kr) : Kr :=
  krouteClear (krFibDecouple kr)

/-! ### Routing messages -/

/-- The types of routing messages that are about routes. -/
inductive RtmType where
  | add
  | get
  | change
  | delete
  deriving DecidableEq, Repr

/-- The gateway of a routing message. -/
inductive RtGateway where
  | inet (addr : InAddr)
  | inet6 (addr : In6Addr)
  | link
  | other
  deriving DecidableEq, Repr

/-- `struct rt_msghdr` with the addresses behind it. -/
structure RtMsghdr where
  type : RtmType
  dst : LdpdAddr
  prefixlen : UInt8
  gateway : RtGateway
  static : Bool := false
  blackhole : Bool := false
  reject : Bool := false
  dynamic : Bool := false
  connected : Bool := false
  priority : UInt8
  deriving DecidableEq, Repr

/-- The nexthop: the bytes of the gateway, read with the family of the destination. -/
def RtMsghdr.nexthop (rtm : RtMsghdr) : LdpdAddr :=
  addrOfBytes rtm.dst.af (match rtm.gateway with
    | .inet addr => (LdpdAddr.v4 addr).bytes
    | .inet6 addr => (recoverscope addr).toList
    | .link | .other => [])

/-- The route that `rtmsg_process_route` makes of a message. Its labels are zero at first. -/
def RtMsghdr.kroute (rtm : RtMsghdr) : KrouteNode where
  addr := rtm.dst
  prefixlen := rtm.prefixlen
  nexthop := rtm.nexthop
  localLabel := 0
  remoteLabel := 0
  priority := rtm.priority
  flags :=
    { connected := rtm.gateway = .link || rtm.connected || rtm.dst = rtm.nexthop
      static := rtm.static
      dynamic := rtm.dynamic
      reject := rtm.reject
      blackhole := rtm.blackhole }

/-- The first nexthop of the priority that a message is about. -/
def firstNexthop (kr : Kr) (route : Kroute) : Option KrouteNode :=
  (kr.krt[route.net]?).bind fun kprios =>
    (krouteFindPrio kprios route.priority).bind fun kprio => kprio.nexthops.head?

/-- What `RTM_CHANGE` does first: it takes away the first nexthop. -/
def removeFirst (kr : Kr) (route : Kroute) : Kr :=
  match firstNexthop kr route with
  | none => kr
  | some kn => krouteRemove kr kn.toKroute

/-- `rtmsg_process_route`. The second component is false where the source returns -1 and the daemon
stops. -/
def rtmsgProcessRoute (kr : Kr) (rtm : RtMsghdr) : Kr × Bool :=
  let route := rtm.kroute
  let kr := if rtm.type = .change then removeFirst kr route.toKroute else kr
  if rtm.type = .delete then
    match krouteFind kr route.toKroute with
    | none => (kr, true)
    | some _ => (krouteRemove kr route.toKroute, true)
  else if !ldpAddrisset route.nexthop && !route.flags.connected then (kr, false)
  else
    match krouteFind kr route.toKroute with
    | some _ =>
      (kr.redistribute route.net (replaceNode (kr.krt.getD route.net []) route.toKroute fun _ => route),
        true)
    | none => (krouteInsert kr { route with localLabel := noLabel, remoteLabel := noLabel }, true)

end Ldpd
