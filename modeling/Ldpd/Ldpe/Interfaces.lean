/-
This file is the part of the LDP engine that finds neighbors: the addresses of the
router, the interfaces and the targeted neighbors, of `interface.c` and `adjacency.c`,
with the handlers of `ldpe_dispatch_main` and the parts of `merge_config` that change
them, and what the sessions are told of the addresses by `address.c`.

A session goes down at any time, also in the middle of one of these handlers. It does
so in a step of its own here, before the handler.
-/

import Ldpd.Ldpe.State
import Ldpd.Library.Run

namespace Ldpd

/-! ### Addresses -/

/-- `union ldpd_addr` as it lies in memory: an IPv4 address is followed by zeros. -/
def LdpdAddr.overlay (addr : LdpdAddr) : List UInt8 :=
  addr.bytes ++ List.replicate (16 - addr.bytes.length) 0

/-- Whether `ldp_addrcmp` returns zero. The family says which member of the unions is compared. -/
def ldpAddrSame (af : Af) (a b : LdpdAddr) : Bool :=
  a.overlay.take af.addrSize = b.overlay.take af.addrSize

/-- `struct if_addr`. -/
structure IfAddr where
  addr : LdpdAddr
  prefixlen : UInt8
  dstbrd : LdpdAddr
  family : dstbrd.af = addr.af
  deriving DecidableEq

/-- `struct kaddr`. -/
structure Kaddr extends IfAddr where
  ifindex : UInt16

/-- What `if_addr_lookup` looks for. -/
def IfAddr.matches (ka ifAddr : IfAddr) : Bool :=
  ldpAddrSame ka.addr.af ifAddr.addr ka.addr && ifAddr.prefixlen == ka.prefixlen &&
    ldpAddrSame ka.addr.af ifAddr.dstbrd ka.dstbrd

/-- `if_addr_lookup`. -/
def ifAddrLookup (addrList : List IfAddr) (ka : IfAddr) : Option IfAddr :=
  addrList.find? ka.matches

/-- `IN6_IS_ADDR_LINKLOCAL`. -/
def isLinklocal (addr : In6Addr) : Bool :=
  addr[0] == 0xfe && addr[1] &&& 0xc0 == 0x80

/-! ### Interfaces and targeted neighbors -/

/-- `struct iface_af`, with the state being `IF_STA_ACTIVE` or not. -/
structure IfaceAf where
  enabled : Bool
  active : Bool := false

/-- `struct iface`. -/
structure Iface where
  ifindex : UInt16
  flags : UInt32
  linkstate : UInt8
  addrList : List IfAddr := []
  linklocal : In6Addr := Vector.replicate 16 0
  ia : Af → IfaceAf

/-- `(iface->flags & IFF_UP) && LINK_STATE_IS_UP(iface->linkstate)`. -/
def Iface.linkOk (iface : Iface) : Bool :=
  iface.flags &&& 1 != 0 && (4 ≤ iface.linkstate || iface.linkstate == 0)

/-- `struct tnbr`, with the state being `TNBR_STA_ACTIVE` or not. -/
structure Tnbr where
  addr : LdpdAddr
  active : Bool := false
  configured : Bool := false
  dynamic : Bool := false
  pwCount : UInt16 := 0

/-! ### What a session is told -/

/-- An Address message, or an Address Withdraw message. -/
structure AddressMsg where
  withdraw : Bool
  addrs : List LdpdAddr
  deriving DecidableEq, Repr

/-- What the address functions use of `struct nbr`. `sent` has the messages of the session. -/
structure AddrNbr where
  id : InAddr
  v4Enabled : Bool
  v6Enabled : Bool
  oper : Bool := false
  maxPduLen : UInt16 := 0
  sent : List AddressMsg := []

/-- Whether a family is enabled for the neighbor. -/
def AddrNbr.enabled (nbr : AddrNbr) : Af → Bool
  | .inet => nbr.v4Enabled
  | .inet6 => nbr.v6Enabled

/-- The loop of `send_address`: as many addresses as possible in each message. -/
def addressRounds (maxPduLen : UInt16) (af : Af) (withdraw : Bool) : Nat → List LdpdAddr → List AddressMsg
  | 0, _ => []
  | _ + 1, [] => []
  | rounds + 1, addr :: rest =>
    let count := addressBatch maxPduLen af (addr :: rest)
    ⟨withdraw, (addr :: rest).take count⟩ ::
      addressRounds maxPduLen af withdraw rounds ((addr :: rest).drop count)

/-- `send_address`. -/
def AddrNbr.sendAddress (nbr : AddrNbr) (af : Af) (addrs : List LdpdAddr) (withdraw : Bool) : AddrNbr :=
  { nbr with sent := nbr.sent ++ addressRounds nbr.maxPduLen af withdraw addrs.length addrs }

/-- `send_address_single`, for one neighbor in the loops of `if_addr_add` and `if_addr_del`. -/
def AddrNbr.tell (ifAddr : IfAddr) (withdraw : Bool) (nbr : AddrNbr) : AddrNbr :=
  if nbr.oper ∧ nbr.enabled ifAddr.addr.af then
    nbr.sendAddress ifAddr.addr.af [ifAddr.addr] withdraw
  else nbr

/-! ### The state -/

structure Discovery where
  rtrId : InAddr := 0
  thelloAccept : Af → Bool := fun _ => false
  addrList : List IfAddr := []
  ifaces : List Iface := []
  tnbrs : List Tnbr := []
  -- whether ldp_disc_socket and ldp_edisc_socket are open
  discSocket : Af → Bool := fun _ => false
  ediscSocket : Af → Bool := fun _ => false
  nbrs : List AddrNbr := []

/-- Change the first element that has a property, or take it out. -/
def updateFirst {Item : Type} (is : Item → Bool) (change : Item → Option Item) : List Item → List Item
  | [] => []
  | item :: rest =>
    if is item then (change item).toList ++ rest else item :: updateFirst is change rest

namespace Discovery

/-! ### Updates -/

/-- `if_update_af`. -/
def ifUpdateAf (state : Discovery) (af : Af) (iface : Iface) : Iface :=
  let addrOk := match af with
    | .inet => iface.addrList.any fun ifAddr => ifAddr.addr.af = .inet
    | .inet6 => isLinklocal iface.linklocal
  let socketOk := state.discSocket af
  let rtrIdOk := state.rtrId != 0
  let ok := (iface.ia af).enabled && iface.linkOk && addrOk && socketOk && rtrIdOk
  if (iface.ia af).active then
    if ok then iface
    else { iface with ia := Function.update iface.ia af { iface.ia af with active := false } }
  else
    if !ok then iface
    else { iface with ia := Function.update iface.ia af { iface.ia af with active := true } }

/-- `if_update` with `AF_UNSPEC`. -/
def ifUpdate (state : Discovery) (iface : Iface) : Iface :=
  state.ifUpdateAf .inet6 (state.ifUpdateAf .inet iface)

/-- `tnbr_update`. -/
def tnbrUpdate (state : Discovery) (tnbr : Tnbr) : Tnbr :=
  let ok := state.ediscSocket tnbr.addr.af && state.rtrId != 0
  if tnbr.active then
    if ok then tnbr else { tnbr with active := false }
  else
    if !ok then tnbr else { tnbr with active := true }

/-- `if_update_all` and `tnbr_update_all` for one family. -/
def updateAll (state : Discovery) (af : Af) : Discovery :=
  { state with
    ifaces := state.ifaces.map (state.ifUpdateAf af)
    tnbrs := state.tnbrs.map fun tnbr => if tnbr.addr.af = af then state.tnbrUpdate tnbr else tnbr }

/-- `if_update_all` and `tnbr_update_all` with `AF_UNSPEC`. -/
def updateAllUnspec (state : Discovery) : Discovery :=
  { state with
    ifaces := state.ifaces.map state.ifUpdate
    tnbrs := state.tnbrs.map state.tnbrUpdate }

/-! ### Handlers -/

/-- Change the interface that `if_lookup` finds. -/
def updateIface (state : Discovery) (ifindex : UInt16) (change : Iface → Iface) : Discovery :=
  { state with
    ifaces := updateFirst (fun iface => iface.ifindex == ifindex) (fun iface => some (change iface))
      state.ifaces }

/-- The part of `if_addr_add` about the interface. -/
def ifaceAddrAdd (state : Discovery) (ka : IfAddr) (iface : Iface) : Iface :=
  let iface := match ka.addr with
    | .v6 addr => if isLinklocal addr then { iface with linklocal := addr } else iface
    | .v4 _ => iface
  match ifAddrLookup iface.addrList ka with
  | some _ => iface
  | none => state.ifUpdateAf ka.addr.af { iface with addrList := ka :: iface.addrList }

/-- The part of `if_addr_del` about the interface. -/
def ifaceAddrDel (state : Discovery) (ka : IfAddr) (iface : Iface) : Iface :=
  let iface := match ka.addr with
    | .v6 addr =>
      if iface.linklocal = addr then { iface with linklocal := Vector.replicate 16 0 } else iface
    | .v4 _ => iface
  match ifAddrLookup iface.addrList ka with
  | none => iface
  | some ifAddr =>
    state.ifUpdateAf ifAddr.addr.af { iface with addrList := iface.addrList.eraseP ka.matches }

/-- `if_addr_add`. -/
def ifAddrAdd (state : Discovery) (ka : Kaddr) : Discovery :=
  let state := match ifAddrLookup state.addrList ka.toIfAddr with
    | some _ => state
    | none =>
      { state with
        addrList := ka.toIfAddr :: state.addrList
        nbrs := state.nbrs.map (AddrNbr.tell ka.toIfAddr false) }
  state.updateIface ka.ifindex (state.ifaceAddrAdd ka.toIfAddr)

/-- `if_addr_del`. -/
def ifAddrDel (state : Discovery) (ka : Kaddr) : Discovery :=
  let state := state.updateIface ka.ifindex (state.ifaceAddrDel ka.toIfAddr)
  match ifAddrLookup state.addrList ka.toIfAddr with
  | none => state
  | some ifAddr =>
    { state with
      nbrs := state.nbrs.map (AddrNbr.tell ifAddr true)
      addrList := state.addrList.eraseP ka.matches }

/-- `IMSG_IFSTATUS`. -/
def ifstatus (state : Discovery) (ifindex : UInt16) (flags : UInt32) (linkstate : UInt8) : Discovery :=
  state.updateIface ifindex fun iface => state.ifUpdate { iface with flags, linkstate }

/-- `IMSG_CLOSE_SOCKETS`. -/
def closeSockets (state : Discovery) (af : Af) : Discovery :=
  { state with
    discSocket := Function.update state.discSocket af false
    ediscSocket := Function.update state.ediscSocket af false }.updateAll af

/-- `IMSG_SETUP_SOCKETS`, when all sockets are there. -/
def setupSockets (state : Discovery) (af : Af) : Discovery :=
  { state with
    discSocket := Function.update state.discSocket af true
    ediscSocket := Function.update state.ediscSocket af true }.updateAll af

/-! ### Targeted neighbors -/

/-- `tnbr_check`, with the tnbr gone if there is no more use for it. -/
def tnbrCheck (tnbr : Tnbr) : Option Tnbr :=
  if !tnbr.configured && !tnbr.dynamic && tnbr.pwCount == 0 then none else some tnbr

/-- `tnbr_find`. -/
def tnbrFind (state : Discovery) (addr : LdpdAddr) : Option Tnbr :=
  state.tnbrs.find? fun tnbr => tnbr.addr = addr

/-- Change the targeted neighbor that `tnbr_find` finds, or delete it. -/
def updateTnbr (state : Discovery) (addr : LdpdAddr) (change : Tnbr → Option Tnbr) : Discovery :=
  { state with tnbrs := updateFirst (fun tnbr => tnbr.addr = addr) change state.tnbrs }

/-- `tnbr_new`, `tnbr_update` and the insertion into the list. -/
def tnbrInsert (state : Discovery) (tnbr : Tnbr) : Discovery :=
  { state with tnbrs := state.tnbrUpdate tnbr :: state.tnbrs }

/-- The part of `recv_hello` that is about the targeted neighbor. -/
def targetedHello (state : Discovery) (src : LdpdAddr) (request : Bool) : Discovery :=
  let state := if request then state else state.updateTnbr src fun tnbr =>
    if tnbr.dynamic then tnbrCheck { tnbr with dynamic := false } else some tnbr
  match state.tnbrFind src with
  | some _ => state
  | none =>
    if request ∧ state.thelloAccept src.af then
      state.tnbrInsert { addr := src, dynamic := true }
    else state

/-- The part of `adj_itimer` that is about a targeted neighbor. -/
def targetedExpired (state : Discovery) (addr : LdpdAddr) : Discovery :=
  state.updateTnbr addr fun tnbr =>
    if !tnbr.configured && tnbr.pwCount == 0 then none else some tnbr

/-- `ldpe_l2vpn_pw_init`. -/
def pwInit (state : Discovery) (addr : LdpdAddr) : Discovery :=
  let state := match state.tnbrFind addr with
    | some _ => state
    | none => state.tnbrInsert { addr }
  state.updateTnbr addr fun tnbr => some { tnbr with pwCount := tnbr.pwCount + 1 }

/-- `ldpe_l2vpn_pw_exit`. -/
def pwExit (state : Discovery) (addr : LdpdAddr) : Discovery :=
  state.updateTnbr addr fun tnbr => tnbrCheck { tnbr with pwCount := tnbr.pwCount - 1 }

end Discovery

/-! ### Reloads -/

/-- An interface of a new configuration. -/
structure IfaceConf where
  ifindex : UInt16
  flags : UInt32
  linkstate : UInt8
  enabled : Af → Bool

/-- A call that `merge_l2vpns` makes for a pseudowire. -/
inductive PwCall where
  | init (addr : LdpdAddr)
  | exit (addr : LdpdAddr)

/-- A new configuration, with the pseudowires it starts and stops. -/
structure DiscoveryConf where
  rtrId : InAddr
  thelloAccept : Af → Bool
  ifaces : List IfaceConf
  tnbrs : List LdpdAddr
  pws : List PwCall

namespace Discovery

/-- `merge_global`. -/
def mergeGlobal (state : Discovery) (conf : DiscoveryConf) : Discovery :=
  if state.rtrId = conf.rtrId then state
  else
    let state := if state.rtrId = 0 ∨ conf.rtrId = 0 then state.updateAllUnspec else state
    { state with rtrId := conf.rtrId }

/-- `ldpe_remove_dynamic_tnbrs`. -/
def removeDynamicTnbrs (state : Discovery) (af : Af) : Discovery :=
  { state with
    tnbrs := state.tnbrs.filterMap fun tnbr =>
      if tnbr.addr.af = af then tnbrCheck { tnbr with dynamic := false } else some tnbr }

/-- `merge_af`. -/
def mergeAf (conf : DiscoveryConf) (state : Discovery) (af : Af) : Discovery :=
  let state := if state.thelloAccept af ∧ !conf.thelloAccept af then state.removeDynamicTnbrs af
    else state
  { state with thelloAccept := Function.update state.thelloAccept af (conf.thelloAccept af) }

/-- `merge_iface_af`. -/
def mergeIfaceAf (state : Discovery) (conf : IfaceConf) (iface : Iface) (af : Af) : Iface :=
  if (iface.ia af).enabled = conf.enabled af then iface
  else state.ifUpdateAf af
    { iface with ia := Function.update iface.ia af { iface.ia af with enabled := conf.enabled af } }

/-- An interface of the new configuration in `merge_ifaces`. -/
def mergeIface (state : Discovery) (conf : IfaceConf) : Discovery :=
  if state.ifaces.any fun iface => iface.ifindex == conf.ifindex then
    state.updateIface conf.ifindex fun iface =>
      state.mergeIfaceAf conf (state.mergeIfaceAf conf iface .inet) .inet6
  else
    { state with
      ifaces :=
        { ifindex := conf.ifindex, flags := conf.flags, linkstate := conf.linkstate
          ia := fun af => { enabled := conf.enabled af } } :: state.ifaces }

/-- `merge_ifaces`. -/
def mergeIfaces (state : Discovery) (conf : DiscoveryConf) : Discovery :=
  conf.ifaces.foldl mergeIface
    { state with
      ifaces := state.ifaces.filter fun iface =>
        conf.ifaces.any fun xi => xi.ifindex == iface.ifindex }

/-- A targeted neighbor of the new configuration in `merge_tnbrs`. -/
def mergeTnbr (state : Discovery) (addr : LdpdAddr) : Discovery :=
  match state.tnbrFind addr with
  | none => state.tnbrInsert { addr, configured := true }
  | some _ => state.updateTnbr addr fun tnbr => some { tnbr with configured := true }

/-- `merge_tnbrs`. -/
def mergeTnbrs (state : Discovery) (conf : DiscoveryConf) : Discovery :=
  conf.tnbrs.foldl mergeTnbr
    { state with
      tnbrs := state.tnbrs.filterMap fun tnbr =>
        if tnbr.configured ∧ tnbr.addr ∉ conf.tnbrs then tnbrCheck { tnbr with configured := false }
        else some tnbr }

/-- A call of `merge_l2vpns`. -/
def pwCall (state : Discovery) : PwCall → Discovery
  | .init addr => state.pwInit addr
  | .exit addr => state.pwExit addr

/-- `merge_config`. -/
def mergeConfig (state : Discovery) (conf : DiscoveryConf) : Discovery :=
  let state := state.mergeGlobal conf
  let state := mergeAf conf (mergeAf conf state .inet) .inet6
  let state := state.mergeIfaces conf
  let state := state.mergeTnbrs conf
  conf.pws.foldl pwCall state

/-! ### Sessions -/

/-- `nbr_new`. -/
def nbrNew (state : Discovery) (id : InAddr) (v4Enabled v6Enabled : Bool) : Discovery :=
  if state.nbrs.any fun nbr => nbr.id == id then state
  else { state with nbrs := { id, v4Enabled, v6Enabled } :: state.nbrs }

/-- `nbr_del`. -/
def nbrDel (state : Discovery) (id : InAddr) : Discovery :=
  { state with nbrs := state.nbrs.filter fun nbr => nbr.id != id }

/-- `send_address_all`. The list it builds has the addresses in the opposite order. -/
def sendAddressAll (state : Discovery) (nbr : AddrNbr) (af : Af) : AddrNbr :=
  nbr.sendAddress af
    ((state.addrList.filter fun ifAddr => ifAddr.addr.af = af).map IfAddr.addr).reverse false

/-- The session of a neighbor comes up, with the maximum PDU length that `recv_init` settled. -/
def sessionUp (state : Discovery) (proposed : UInt16) (nbr : AddrNbr) : AddrNbr :=
  let maxPduLen := min (if proposed ≤ 255 then 4096 else proposed) 4096
  let nbr := { nbr with oper := true, maxPduLen, sent := [] }
  let nbr := if nbr.v4Enabled then state.sendAddressAll nbr .inet else nbr
  if nbr.v6Enabled then state.sendAddressAll nbr .inet6 else nbr

/-- Change the neighbor with an id. -/
def updateNbr (state : Discovery) (id : InAddr) (change : AddrNbr → AddrNbr) : Discovery :=
  { state with nbrs := state.nbrs.map fun nbr => if nbr.id = id then change nbr else nbr }

end Discovery

/-! ### Steps -/

/-- Everything that changes this part of the engine. -/
inductive DiscoveryInput where
  | ifstatus (ifindex : UInt16) (flags : UInt32) (linkstate : UInt8)
  | newaddr (ka : Kaddr)
  | deladdr (ka : Kaddr)
  | closeSockets (af : Af)
  | setupSockets (af : Af)
  | reload (conf : DiscoveryConf)
  | targetedHello (src : LdpdAddr) (request : Bool)
  | targetedExpired (addr : LdpdAddr)
  | nbrNew (id : InAddr) (v4Enabled v6Enabled : Bool)
  | nbrDel (id : InAddr)
  | sessionUp (id : InAddr) (maxPduLen : UInt16)
  | sessionDown (id : InAddr)

def discoveryStep (state : Discovery) : DiscoveryInput → Discovery
  | .ifstatus ifindex flags linkstate => state.ifstatus ifindex flags linkstate
  | .newaddr ka => state.ifAddrAdd ka
  | .deladdr ka => state.ifAddrDel ka
  | .closeSockets af => state.closeSockets af
  | .setupSockets af => state.setupSockets af
  | .reload conf => state.mergeConfig conf
  | .targetedHello src request => state.targetedHello src request
  | .targetedExpired addr => state.targetedExpired addr
  | .nbrNew id v4Enabled v6Enabled => state.nbrNew id v4Enabled v6Enabled
  | .nbrDel id => state.nbrDel id
  | .sessionUp id maxPduLen => state.updateNbr id (state.sessionUp maxPduLen)
  | .sessionDown id => state.updateNbr id fun nbr => { nbr with oper := false }

end Ldpd
