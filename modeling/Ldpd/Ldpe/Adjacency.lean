/-
This file is what a datagram on a discovery socket does: `disc_recv_packet` of
`packet.c`, `recv_hello` of `hello.c` and the adjacencies of `adjacency.c`, on top of
the interfaces and targeted neighbors and of the neighbors with their connections.

An adjacency points to its interface or its targeted neighbor, which are known here by
their index and their address, and to its neighbor, known by its LSR-ID. A targeted
neighbor points back to its adjacency: `tnbr->adj` is the adjacency with the targeted
neighbor as its source.
-/

import Ldpd.Ldpe.Connect
import Ldpd.Ldpe.Hello
import Ldpd.Main.Kroute

namespace Ldpd

open Bytes

/-! ### Numbers -/

def sTransMismtch : UInt32 := 0x80000032
def sDsNoncmplnce : UInt32 := 0x80000033

def linkDfltHoldtime : UInt16 := 15
def targetedDfltHoldtime : UInt16 := 45
def minHoldtime : UInt16 := 3
def infiniteHoldtime : UInt16 := 0xffff

/-- The `AF_INET6` and `IN6_IS_SCOPE_EMBED` test of `recv_hello`. -/
def LdpdAddr.scoped : LdpdAddr → Bool
  | .v4 _ => false
  | .v6 addr => isScopeEmbed addr

/-- A flag of a Hello is set. -/
def flagSet (flags flag : UInt16) : Bool :=
  flags &&& flag != 0

/-! ### Records -/

/-- `struct hello_source`. -/
inductive HelloSource where
  | link (ifindex : UInt16) (af : Af) (srcAddr : LdpdAddr)
  | targeted (target : LdpdAddr)
  deriving DecidableEq

/-- `adj_get_af`. -/
def HelloSource.af : HelloSource → Af
  | .link _ af _ => af
  | .targeted target => target.af

/-- The test of `adj_find`. The interface of a link adjacency is not compared. -/
def HelloSource.sameAs (source other : HelloSource) : Bool :=
  match source, other with
  | .link _ af srcAddr, .link _ _ otherAddr => ldpAddrSame af otherAddr srcAddr
  | .targeted target, .targeted otherTarget => target = otherTarget
  | _, _ => false

/-- `struct adj`. The timer is whether it is pending. -/
structure Adj where
  lsrId : InAddr
  nbr : Option InAddr := none
  source : HelloSource
  transAddr : LdpdAddr
  holdtime : UInt16 := 0
  inactivityTimer : Bool := false
  deriving DecidableEq

/-- What only `recv_hello` uses of `struct nbr`. -/
structure HelloNbr where
  dsTlv : Bool
  raddrScope : UInt16
  confSeqnum : UInt32 := 0
  gtsmNegotiated : Bool := false
  deriving DecidableEq

/-- What is up to the world when a connection is taken up or started: whether one from a transport
address is waiting in `global.pending_conns`, and what becomes of one that is started. -/
structure HelloWorld where
  pending : LdpdAddr → Bool
  outcome : LdpdAddr → ConnectOutcome

/-- The engine as far as Hellos concern it: the interfaces and targeted neighbors with their holdtimes
and the type of the interfaces, `global.adj_list`, and the neighbors. The parser takes no other
transport preference. -/
structure HelloEngine where
  conf : HelloConf
  thelloHoldtime : Af → UInt16
  ifaceHoldtime : UInt16 → Af → UInt16
  pointToPoint : UInt16 → Bool
  tnbrHoldtime : LdpdAddr → UInt16
  discovery : Discovery
  adjs : List Adj
  nbrs : InAddr → HelloNbr
  conn : ConnEngine
  prefParsed : conf.transPref = dualStackLdpov4 ∨ conf.transPref = dualStackLdpov6

namespace HelloEngine

/-! ### Adjacencies -/

/-- `nbr_adj_count`. -/
def nbrAdjCount (engine : HelloEngine) (id : InAddr) (af : Af) : Nat :=
  (engine.adjs.filter fun adj => adj.nbr = some id ∧ adj.source.af = af).length

/-- `adj_find`. -/
def adjFind (engine : HelloEngine) (source : HelloSource) : Option Adj :=
  engine.adjs.find? fun adj => source.sameAs adj.source

/-- `session_shutdown` and `nbr_del`, for a neighbor that has lost its adjacencies. -/
def loseNbr (engine : HelloEngine) (id : InAddr) (status : UInt32) : Option HelloEngine := do
  let conn ← engine.conn.shutdown id status 0 0
  let conn ← conn.nbrDel id
  some { engine with conn }

/-- `adj_del`. -/
def adjDel (engine : HelloEngine) (adj : Adj) (status : UInt32) : Option HelloEngine :=
  let engine := { engine with adjs := engine.adjs.erase adj }
  match adj.nbr with
  | none => some engine
  | some id =>
    match engine.conn.engine.nbrs[id]? with
    | none => some engine
    | some entry =>
      if engine.nbrAdjCount id entry.nbr.af = 0 then
        { engine with adjs := engine.adjs.filter fun other => other.nbr ≠ some id }.loseNbr id status
      else some engine

/-- `adj_del` of an adjacency that may not be there. -/
def dropAdj (engine : HelloEngine) (adj : Option Adj) : Option HelloEngine :=
  match adj with
  | none => some engine
  | some adj => engine.adjDel adj sShutdown

/-- `adj_new`, with the pointer to the neighbor that `recv_hello` sets. -/
def adjNew (engine : HelloEngine) (lsrId : InAddr) (nbr : Option InAddr) (source : HelloSource)
    (transAddr : LdpdAddr) : HelloEngine :=
  { engine with adjs := { lsrId, nbr, source, transAddr } :: engine.adjs }

/-! ### Targeted neighbors -/

/-- `tnbr_del`. -/
def tnbrDel (engine : HelloEngine) (addr : LdpdAddr) : Option HelloEngine := do
  let engine ← engine.dropAdj (engine.adjs.find? fun adj => adj.source = .targeted addr)
  some { engine with discovery := engine.discovery.updateTnbr addr fun _ => none }

/-- `tnbr_new`, for a Hello from a router that is no targeted neighbor yet. -/
def tnbrNew (engine : HelloEngine) (addr : LdpdAddr) : HelloEngine :=
  { engine with
    discovery := engine.discovery.tnbrInsert { addr, dynamic := true }
    tnbrHoldtime := Function.update engine.tnbrHoldtime addr (engine.thelloHoldtime addr.af) }

/-- The part of `recv_hello` that finds the targeted neighbor of a Hello, and whether there is one. -/
def helloTarget (engine : HelloEngine) (src : LdpdAddr) (request : Bool) :
    Option (HelloEngine × Bool) :=
  match engine.discovery.tnbrFind src with
  | some tnbr =>
    -- remove the dynamic tnbr if the 'R' bit was cleared
    if tnbr.dynamic ∧ ¬request then
      let discovery := engine.discovery.updateTnbr src fun tnbr => some { tnbr with dynamic := false }
      let engine := { engine with discovery }
      match Discovery.tnbrCheck { tnbr with dynamic := false } with
      | none => (engine.tnbrDel src).map fun engine => (engine, false)
      | some _ => some (engine, true)
    else some (engine, true)
  | none =>
    if request ∧ engine.discovery.thelloAccept src.af then some (engine.tnbrNew src, true)
    else some (engine, false)

/-! ### Neighbors -/

/-- `nbr_find_addr`. -/
def nbrFindAddr (engine : HelloEngine) (af : Af) (addr : LdpdAddr) : Option InAddr :=
  (engine.conn.engine.nbrs.toList.find? fun other =>
    other.2.nbr.af = af ∧ ldpAddrSame af (engine.conn.links other.1).raddr addr).map Prod.fst

/-- `nbr_new`. Every adjacency with the LSR-ID becomes one of the neighbor. -/
def nbrNew (engine : HelloEngine) (world : HelloWorld) (id : InAddr) (af : Af) (dsTlv : Bool)
    (addr : LdpdAddr) (scope : UInt16) : Option HelloEngine := do
  let conn ← connStep engine.conn
    (.nbrNew id af dsTlv (world.pending addr) (engine.conf.transAddr af) addr)
  some { engine with
    conn
    nbrs := Function.update engine.nbrs id { dsTlv, raddrScope := scope }
    adjs := engine.adjs.map fun adj => if adj.lsrId = id then { adj with nbr := some id } else adj }

end HelloEngine

/-! ### Hellos -/

/-- `LINK_DFLT_HOLDTIME` and `TARGETED_DFLT_HOLDTIME`. -/
def HelloSource.dfltHoldtime : HelloSource → UInt16
  | .link .. => linkDfltHoldtime
  | .targeted _ => targetedDfltHoldtime

/-- A Hello that has been read: its holdtime, its GTSM flag, its transport address with the scope it is
in, and the optional parameters. -/
structure Hello where
  holdtime : UInt16
  gtsm : Bool
  transAddr : LdpdAddr
  scope : UInt16
  opts : HelloOpts

/-- The transport preference lets a session run over the family. -/
def prefersFamily (transPref : UInt16) (af : Af) : Bool :=
  transPref == dualStackLdpov4 && af == .inet || transPref == dualStackLdpov6 && af == .inet6

/-- The other address family. -/
def Af.other : Af → Af
  | .inet => .inet6
  | .inet6 => .inet

namespace HelloEngine

/-- The configured holdtime of the source of a Hello. -/
def sourceHoldtime (engine : HelloEngine) : HelloSource → UInt16
  | .link ifindex af _ => engine.ifaceHoldtime ifindex af
  | .targeted target => engine.tnbrHoldtime target

/-- The GTSM flag of the neighbor is updated, and its configuration sequence number. -/
def updateNbr (engine : HelloEngine) (id : InAddr) (hello : Hello) : Option HelloEngine :=
  match engine.conn.engine.nbrs[id]? with
  | none => some engine
  | some entry => do
    let nbr := engine.nbrs id
    let stops := hello.opts.rcvdConf ∧ nbr.confSeqnum < hello.opts.confNumber ∧
      entry.nbr.initdelayTimer
    let conn ← if stops then engine.conn.stopIdtimer id else some engine.conn
    let confSeqnum := if hello.opts.rcvdConf then hello.opts.confNumber else nbr.confSeqnum
    some { engine with
      conn
      nbrs := Function.update engine.nbrs id { nbr with gtsmNegotiated := hello.gtsm, confSeqnum } }

/-- The holdtime of the adjacency is updated, and its timer. -/
def updateHoldtime (engine : HelloEngine) (source : HelloSource) (received : UInt16) : HelloEngine :=
  let received := if received = 0 then source.dfltHoldtime else received
  let holdtime := min (engine.sourceHoldtime source) received
  { engine with
    adjs := updateFirst (fun adj => source.sameAs adj.source)
      (fun adj => some { adj with holdtime, inactivityTimer := holdtime ≠ infiniteHoldtime })
      engine.adjs }

/-- The end of `recv_hello`, for a Hello that is accepted. -/
def acceptHello (engine : HelloEngine) (world : HelloWorld) (lsrId : InAddr) (source : HelloSource)
    (hello : Hello) : Option HelloEngine := do
  let known := engine.conn.engine.nbrs[lsrId]?.isSome
  let engine := match engine.adjFind source with
    | some _ => engine
    | none => engine.adjNew lsrId (if known then some lsrId else none) source hello.transAddr
  let starts := ¬known ∧ (¬hello.opts.rcvdDs ∨ prefersFamily hello.opts.transPref source.af)
  let engine ← if starts then
      engine.nbrNew world lsrId source.af hello.opts.rcvdDs hello.transAddr hello.scope
    else some engine
  let engine ← engine.updateNbr lsrId hello
  let engine := engine.updateHoldtime source hello.holdtime
  let conn ← engine.conn.helloConnect lsrId (world.outcome (engine.conn.links lsrId).raddr)
  some { engine with conn }

/-- The checks of a Hello against the neighbor it is from, in `recv_hello`. -/
def checkHello (engine : HelloEngine) (world : HelloWorld) (lsrId : InAddr) (msg : LdpMsg)
    (source : HelloSource) (hello : Hello) : Option HelloEngine :=
  let adj := engine.adjFind source
  let entry := engine.conn.engine.nbrs[lsrId]?
  -- the remote preference does not match the local preference
  if hello.opts.rcvdDs ∧ hello.opts.transPref ≠ engine.conf.transPref then do
    let conn ← engine.conn.shutdown lsrId sTransMismtch msg.id msg.type
    { engine with conn }.dropAdj adj
  -- noncompliant dual-stack neighbor
  else if entry.isSome ∧ ¬hello.opts.rcvdDs ∧ 0 < engine.nbrAdjCount lsrId source.af.other then do
    let conn ← engine.conn.shutdown lsrId sDsNoncmplnce msg.id msg.type
    some { engine with conn }
  else
    match entry with
    | some entry =>
      -- a different transport address
      if entry.nbr.af = source.af ∧
          (¬ldpAddrSame source.af (engine.conn.links lsrId).raddr hello.transAddr ∨
            (engine.nbrs lsrId).raddrScope ≠ hello.scope) then engine.dropAdj adj
      else engine.acceptHello world lsrId source hello
    | none =>
      -- the transport address of another neighbor
      if (engine.nbrFindAddr source.af hello.transAddr).isSome then engine.dropAdj adj
      else engine.acceptHello world lsrId source hello

/-- `recv_hello`. -/
def recvHello (engine : HelloEngine) (world : HelloWorld) (lsrId : InAddr) (msg : LdpMsg)
    (src : LdpdAddr) (iface : Iface) (multicast : Bool) (buf : List UInt8) : Option HelloEngine :=
  match tlvDecodeHelloPrms buf with
  | none => some engine
  | some (holdtime, flags) =>
    let targeted := flagSet flags fHelloTargeted
    -- safety checks
    if holdtime ≠ 0 ∧ holdtime < minHoldtime then some engine
    else if multicast ∧ targeted then some engine
    else if ¬multicast ∧ ¬targeted then some engine
    else
      match helloOpts engine.conf src.af (buf.drop helloPrmsSize) with
      | none => some engine
      | some opts =>
        -- implicit transport address
        let transAddr := if opts.rcvdAddr then opts.addr else src
        if badAddr transAddr then some engine
        else if transAddr.scoped ∧ targeted then some engine
        else
          let hello : Hello := {
            holdtime
            gtsm := flagSet flags fHelloGtsm
            transAddr
            scope := if transAddr.scoped then iface.ifindex else 0
            opts }
          if targeted then
            if src.scoped then some engine
            else do
              let (engine, found) ← engine.helloTarget src (flagSet flags fHelloReqTarg)
              if found then engine.checkHello world lsrId msg (.targeted src) hello
              else some engine
          else engine.checkHello world lsrId msg (.link iface.ifindex src.af src) hello

/-! ### Datagrams -/

/-- The address of an interface and the source of a multicast packet on it are neighbors. -/
def reaches (pointToPoint : Bool) (ifAddr : IfAddr) (src : LdpdAddr) : Bool :=
  match ifAddr.addr, src with
  | .v4 own, .v4 addr =>
    if pointToPoint then ifAddr.dstbrd = .v4 addr
    else own &&& prefixlen2mask ifAddr.prefixlen = addr &&& prefixlen2mask ifAddr.prefixlen
  | _, _ => false

/-- `disc_find_iface`. -/
def discFindIface (engine : HelloEngine) (ifindex : UInt16) (src : LdpdAddr) (multicast : Bool) :
    Option Iface :=
  match engine.discovery.ifaces.find? fun iface => iface.ifindex == ifindex with
  | none => none
  | some iface =>
    let found : Bool :=
      if ¬multicast then (iface.ia src.af).enabled
      else match src with
        | .v4 _ => iface.addrList.any fun ifAddr =>
          reaches (engine.pointToPoint iface.ifindex) ifAddr src
        | .v6 addr => isLinklocal addr
    if found then some iface else none

/-- `disc_recv_packet`. -/
def discRecvPacket (engine : HelloEngine) (world : HelloWorld) (ifindex : UInt16) (src : LdpdAddr)
    (multicast : Bool) (datagram : List UInt8) : Option HelloEngine :=
  if badAddr src then some engine
  else
    match engine.discFindIface ifindex src multicast with
    | none => some engine
    | some iface =>
      match discMessage datagram with
      | none => some engine
      | some (lsrId, msg, buf) =>
        if msg.type = msgTypeHello then engine.recvHello world lsrId msg src iface multicast buf
        else some engine

end HelloEngine

end Ldpd
