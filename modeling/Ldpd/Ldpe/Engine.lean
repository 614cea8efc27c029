/-
This file puts the LDP engine together: the table of its neighbors, each with the maps
that the label decision engine has asked it to send, and everything that makes one of
its event handlers run. A handler that serves one neighbor sees the engine from there;
what it does to the shared parts is carried back.

A handler does not always come back, and a C program cannot go on after behaviour that
is undefined, so a step leads to a state or to none.
-/

import Ldpd.Ldpe.Session
import Ldpd.Ldpe.SendLabels

namespace Ldpd

open Bytes Code

/-! ### What happens to a neighbor -/

/-- Everything that makes a handler run for one neighbor: connections, data and errors on them,
timers, resets, and what there is to send while the session is operational. -/
inductive NbrInput where
  | accept (admitted : Bool)
  | connectUp
  | read (fuel : Nat) (result : ReadResult)
  | writeError
  | ktimer
  | ktimeout
  | itimeout
  | idtimer (connected : Bool)
  | stopIdtimer
  | shutdown (status msgId : UInt32) (msgType : UInt16)
  | address (addr : LdpdAddr) (withdraw : Bool)

/-- `session_accept` for a neighbor in the passive role, with `session_accept_nbr`. Whether the
connection passes the checks of the latter is not up to the engine. -/
def sessionAccept (ldpe : Ldpe) (admitted : Bool) : Ldpe :=
  if ldpe.nbr.state = .present ∧ admitted then
    nbrFsm (ldpe.updateNbr fun nbr => { nbr with tcp := some {} }) .matchAdj
  else ldpe

/-- `nbr_ktimer`. -/
def nbrKtimer (ldpe : Ldpe) : Ldpe :=
  (sendKeepalive (ldpe.updateNbr fun nbr => { nbr with keepaliveTimer := false })).updateNbr
    fun nbr => { nbr with keepaliveTimer := true }

def sKeepaliveTmr : UInt32 := 0x80000014

/-- `nbr_ktimeout`. -/
def nbrKtimeout (ldpe : Ldpe) : Ldpe :=
  sessionShutdown (ldpe.updateNbr fun nbr => { nbr with keepaliveTimeout := false }) sKeepaliveTmr 0 0

/-- `nbr_itimeout`. -/
def nbrItimeout (ldpe : Ldpe) : Ldpe :=
  nbrFsm (ldpe.updateNbr fun nbr => { nbr with initTimeout := false }) .closeSession

/-- `nbr_idtimer`. The connection may be there at once. -/
def nbrIdtimer (ldpe : Ldpe) (connected : Bool) : Ldpe :=
  let ldpe := ldpe.updateNbr fun nbr => { nbr with initdelayTimer := false }
  if connected then nbrFsm ldpe .connectUp else ldpe

/-- `send_address_single`, as `if_addr_add` and `if_addr_del` use it. -/
def sendAddressSingle (ldpe : Ldpe) (addr : LdpdAddr) (withdraw : Bool) : Ldpe :=
  let enabled : Bool := match addr.af with
    | .inet => ldpe.nbr.v4Enabled
    | .inet6 => ldpe.nbr.v6Enabled
  if ldpe.nbr.state = .oper ∧ enabled then sendAddress ldpe addr.af [addr] withdraw else ldpe

/-- The state that a function returns in, if it does. -/
def returnedState {Event : Type} (code : Code Event Ldpe Unit) (ldpe : Ldpe) : Option Ldpe :=
  match (code ldpe).outcome with
  | .ret (_, ldpe') => some ldpe'
  | _ => none

/-- What a handler makes of the engine. A timer that is not pending does not fire, and there is
nothing to read or write without a connection. -/
def nbrInput (ldpe : Ldpe) : NbrInput → Option Ldpe
  | .accept admitted => some (sessionAccept ldpe admitted)
  | .connectUp => some (nbrFsm ldpe .connectUp)
  | .read fuel result =>
    if ldpe.nbr.tcp.isSome then returnedState (sessionRead fuel result) ldpe else some ldpe
  | .writeError => some (if ldpe.nbr.tcp.isSome then nbrFsm ldpe .closeSession else ldpe)
  | .ktimer => some (if ldpe.nbr.keepaliveTimer then nbrKtimer ldpe else ldpe)
  | .ktimeout => some (if ldpe.nbr.keepaliveTimeout then nbrKtimeout ldpe else ldpe)
  | .itimeout => some (if ldpe.nbr.initTimeout then nbrItimeout ldpe else ldpe)
  | .idtimer connected =>
    some (if ldpe.nbr.initdelayTimer then nbrIdtimer ldpe connected else ldpe)
  | .stopIdtimer => some (ldpe.updateNbr fun nbr => { nbr with initdelayTimer := false })
  | .shutdown status msgId msgType => some (sessionShutdown ldpe status msgId msgType)
  | .address addr withdraw => some (sendAddressSingle ldpe addr withdraw)

/-! ### The engine -/

/-- The lists of maps that the label decision engine fills. -/
inductive LabelList where
  | mapping
  | withdraw
  | release
  deriving DecidableEq, Repr

/-- The type of the messages that a list becomes. -/
def LabelList.type : LabelList → UInt16
  | .mapping => msgTypeLabelmapping
  | .withdraw => msgTypeLabelwithdraw
  | .release => msgTypeLabelrelease

/-- A neighbor with its lists of maps and what has been queued for it. -/
structure NbrEntry where
  nbr : Nbr
  lists : LabelList → List MappingEntry
  sent : List (List UInt8)

/-- What the engine knows from elsewhere: its configuration, in which the parser takes no keepalive
below the smallest one, and the addresses of its interfaces. -/
structure LdpeConf where
  rtrId : InAddr
  afKeepalive : Af → UInt16
  nbrpKeepalive : InAddr → Option UInt16
  addrList : List LdpdAddr
  afParsed : ∀ af, minKeepalive ≤ afKeepalive af
  nbrpParsed : ∀ id keepalive, nbrpKeepalive id = some keepalive → minKeepalive ≤ keepalive

/-- A map that was written on the connection of the session with the given peerid. -/
structure Written where
  session : UInt32
  me : MappingEntry
  deriving DecidableEq, Repr

/-- The LDP engine. `nbrs` is `nbrs_by_id`; a neighbor is in `nbrs_by_pid` as long as its peerid is
not zero. `written` is not part of the source: it keeps what `send_labelmessage` logs. -/
structure LdpEngine where
  conf : LdpeConf
  peercnt : UInt32 := 1
  msgcnt : UInt32 := 0
  nbrs : Std.ExtTreeMap InAddr NbrEntry compare := ∅
  toLde : List LdeEvent := []
  fault : Bool := false
  written : List Written := []

/-- The peerids in `nbrs_by_pid`, except that of one neighbor. -/
def LdpEngine.peerids (engine : LdpEngine) (id : InAddr) : List UInt32 :=
  (engine.nbrs.toList.filter fun other => other.1 ≠ id ∧ other.2.nbr.peerid ≠ 0).map
    fun other => other.2.nbr.peerid

/-- The engine as a handler sees it that serves one neighbor. -/
def LdpEngine.view (engine : LdpEngine) (id : InAddr) (entry : NbrEntry) : Ldpe where
  rtrId := engine.conf.rtrId
  nbrKeepalive := engine.conf.nbrpKeepalive id
  afKeepalive := engine.conf.afKeepalive
  addrList := engine.conf.addrList
  peercnt := engine.peercnt
  peerids := engine.peerids id
  msgcnt := engine.msgcnt
  nbr := entry.nbr
  sent := entry.sent
  toLde := engine.toLde
  fault := engine.fault

/-- The engine after such a handler. -/
def LdpEngine.store (engine : LdpEngine) (id : InAddr) (entry : NbrEntry) (ldpe : Ldpe) : LdpEngine :=
  { engine with
    peercnt := ldpe.peercnt
    msgcnt := ldpe.msgcnt
    nbrs := engine.nbrs.insert id { entry with nbr := ldpe.nbr, sent := ldpe.sent }
    toLde := ldpe.toLde
    fault := ldpe.fault }

/-- `nbr_find_peerid`. -/
def LdpEngine.nbrFindPeerid (engine : LdpEngine) (peerid : UInt32) : Option (InAddr × NbrEntry) :=
  engine.nbrs.toList.find? fun other => other.2.nbr.peerid = peerid ∧ peerid ≠ 0

/-! ### Neighbors -/

/-- What `nbr_new` makes of the memory it gets. -/
def Nbr.fresh (id : InAddr) (af : Af) (dsTlv : Bool) : Nbr where
  tcp := none
  peerid := 0
  af := af
  v4Enabled := af = .inet ∨ dsTlv
  v6Enabled := af = .inet6 ∨ dsTlv
  id := id
  state := .present
  idtimerCnt := 0
  keepalive := 0
  maxPduLen := 0
  keepaliveTimer := false
  keepaliveTimeout := false
  initTimeout := false
  initdelayTimer := false

/-- `nbr_new`. A connection from the neighbor may be waiting. -/
def nbrNew (engine : LdpEngine) (id : InAddr) (af : Af) (dsTlv pending : Bool) : Option LdpEngine :=
  if id ∈ engine.nbrs then none
  else
    let entry : NbrEntry := { nbr := .fresh id af dsTlv, lists := fun _ => [], sent := [] }
    some (engine.store id entry (sessionAccept (engine.view id entry) pending))

/-- `nbr_del`. -/
def nbrDel (engine : LdpEngine) (id : InAddr) : LdpEngine :=
  match engine.nbrs[id]? with
  | none => engine
  | some entry =>
    let engine := engine.store id entry (nbrFsm (engine.view id entry) .closeSession)
    { engine with nbrs := engine.nbrs.erase id }

/-! ### Messages from the label decision engine -/

/-- `mapping_list_add`. -/
def mappingListAdd (lists : LabelList → List MappingEntry) (list : LabelList) (me : MappingEntry) :
    LabelList → List MappingEntry :=
  fun other => if other = list then lists other ++ [me] else lists other

/-- `IMSG_MAPPING_ADD` and the like. -/
def ldpeAdd (engine : LdpEngine) (list : LabelList) (peerid : UInt32) (map : Map) : LdpEngine :=
  match engine.nbrFindPeerid peerid with
  | none => engine
  | some (id, entry) =>
    if entry.nbr.state = .oper then
      { engine with
        nbrs := engine.nbrs.insert id
          { entry with lists := mappingListAdd entry.lists list { peerid, map } } }
    else engine

/-- `IMSG_MAPPING_ADD_END` and the like. -/
def ldpeAddEnd (engine : LdpEngine) (fuel : Nat) (list : LabelList) (peerid : UInt32) :
    Option LdpEngine :=
  match engine.nbrFindPeerid peerid with
  | none => some engine
  | some (id, entry) =>
    if entry.nbr.state = .oper then
      let run := sendLabelmessage fuel list.type (entry.lists list)
      let ldpe := engine.view id entry
      (returnedState run ldpe).map fun ldpe' =>
        let lists other := if other = list then [] else entry.lists other
        { engine.store id { entry with lists } ldpe' with
          written := engine.written ++ (run ldpe).trace.map (Written.mk entry.nbr.peerid) }
    else some engine

/-- `IMSG_NOTIFICATION_SEND`. -/
def ldpeNotificationSend (engine : LdpEngine) (peerid : UInt32) (nm : NotifyMsg) : LdpEngine :=
  match engine.nbrFindPeerid peerid with
  | none => engine
  | some (id, entry) =>
    if entry.nbr.state = .oper then
      engine.store id entry (sendNotificationFull (engine.view id entry) nm)
    else engine

/-- `ldpe_dispatch_lde`, for one message. -/
def ldpeDispatchLde (engine : LdpEngine) (fuel : Nat) : LdpeImsg → Option LdpEngine
  | .mappingAdd peerid map => some (ldpeAdd engine .mapping peerid map)
  | .mappingAddEnd peerid => ldpeAddEnd engine fuel .mapping peerid
  | .withdrawAdd peerid map => some (ldpeAdd engine .withdraw peerid map)
  | .withdrawAddEnd peerid => ldpeAddEnd engine fuel .withdraw peerid
  | .releaseAdd peerid map => some (ldpeAdd engine .release peerid map)
  | .releaseAddEnd peerid => ldpeAddEnd engine fuel .release peerid
  | .notificationSend peerid nm => some (ldpeNotificationSend engine peerid nm)

/-! ### Steps -/

/-- Everything that makes a handler of the engine run. -/
inductive LdpeInput where
  | conf (conf : LdpeConf)
  | nbrNew (id : InAddr) (af : Af) (dsTlv pending : Bool)
  | nbrDel (id : InAddr)
  | nbr (id : InAddr) (input : NbrInput)
  | imsg (imsg : LdpeImsg) (fuel : Nat)

/-- One handler, for a neighbor of the table. -/
def ldpeNbrStep (engine : LdpEngine) (id : InAddr) (input : NbrInput) : Option LdpEngine :=
  match engine.nbrs[id]? with
  | none => some engine
  | some entry => (nbrInput (engine.view id entry) input).map (engine.store id entry)

/-- One handler. -/
def ldpeStep (engine : LdpEngine) : LdpeInput → Option LdpEngine
  | .conf conf => some { engine with conf }
  | .nbrNew id af dsTlv pending => nbrNew engine id af dsTlv pending
  | .nbrDel id => some (nbrDel engine id)
  | .nbr id input => ldpeNbrStep engine id input
  | .imsg imsg fuel => ldpeDispatchLde engine fuel imsg

/-! ### A session -/

/-- A configuration with the keepalive that the parser sets when there is none. -/
def plainConf : LdpeConf where
  rtrId := 0x0a000001
  afKeepalive _ := 180
  nbrpKeepalive _ := none
  addrList := []
  afParsed _ := by decide
  nbrpParsed := nofun

/-- The Initialization message of a neighbor. -/
def peerInit : List UInt8 :=
  [0, 1, 0, 32, 10, 0, 0, 2, 0, 0, 2, 0, 0, 22, 0, 0, 0, 1, 5, 0, 0, 14, 0, 1, 0, 180, 0, 0, 0, 0,
    10, 0, 0, 1, 0, 0]

/-- Its KeepAlive message. -/
def peerKeepalive : List UInt8 :=
  [0, 1, 0, 14, 10, 0, 0, 2, 0, 0, 2, 1, 0, 4, 0, 0, 0, 2]

/-- What brings a session with that neighbor about. -/
def sessionInputs : List LdpeInput :=
  [.nbr 0x0a000002 (.accept true), .nbr 0x0a000002 (.read 4 (.data peerInit)),
    .nbr 0x0a000002 (.read 4 (.data peerKeepalive))]

end Ldpd
