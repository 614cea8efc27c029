/-
This file is the state machine of a neighbor: the table of `neighbor.c`, the actions
it calls for, and what the message handlers use it through, `session_shutdown` and
`send_notification_nbr`.
-/

import Ldpd.Ldpe.State

namespace Ldpd

/-! ### The table -/

/-- `enum nbr_event`. -/
inductive NbrEvent where
  | nothing
  | matchAdj
  | connectUp
  | closeSession
  | initRcvd
  | keepaliveRcvd
  | pduRcvd
  | pduSent
  | initSent
  deriving DecidableEq, Repr

/-- `enum nbr_action`. -/
inductive NbrAction where
  | nothing
  | rstKtimeout
  | sessionEst
  | rstKtimer
  | connectSetup
  | passiveInit
  | keepaliveSend
  | closeSession
  deriving DecidableEq, Repr

/-- A row of `nbr_fsm_tbl`: the states it is for, the event, the action and the state that
results, if it changes. -/
structure FsmRow where
  states : List NbrState
  event : NbrEvent
  action : NbrAction
  newState : Option NbrState

/-- `NBR_STA_SESSION`. -/
def nbrStaSession : List NbrState := [.initial, .openrec, .opensent, .oper]

/-- `nbr_fsm_tbl`. -/
def nbrFsmTbl : List FsmRow := [
  ⟨[.present], .matchAdj, .nothing, some .initial⟩,
  ⟨[.initial], .initRcvd, .passiveInit, some .openrec⟩,
  ⟨[.openrec], .keepaliveRcvd, .sessionEst, some .oper⟩,
  ⟨[.present], .connectUp, .connectSetup, some .initial⟩,
  ⟨[.initial], .initSent, .nothing, some .opensent⟩,
  ⟨[.opensent], .initRcvd, .keepaliveSend, some .openrec⟩,
  ⟨[.oper], .pduRcvd, .rstKtimeout, none⟩,
  ⟨nbrStaSession, .pduRcvd, .nothing, none⟩,
  ⟨[.oper], .pduSent, .rstKtimer, none⟩,
  ⟨nbrStaSession, .pduSent, .nothing, none⟩,
  ⟨[.present], .closeSession, .nothing, none⟩,
  ⟨nbrStaSession, .closeSession, .closeSession, some .present⟩]

/-- The first row for a state and an event. -/
def nbrFsmRow (state : NbrState) (event : NbrEvent) : Option FsmRow :=
  nbrFsmTbl.find? fun row => state ∈ row.states ∧ row.event = event

/-! ### Actions -/

/-- The search of `nbr_update_peerid`. Among as many ids as there are neighbors and one more, one
is free. -/
def nextPeerid (peerids : List UInt32) : Nat → UInt32 → UInt32
  | 0, peercnt => peercnt
  | tries + 1, peercnt =>
    if peercnt + 1 ∈ peerids then nextPeerid peerids tries (peercnt + 1) else peercnt + 1

/-- `nbr_update_peerid`. -/
def nbrUpdatePeerid (ldpe : Ldpe) : Ldpe :=
  let peerid := nextPeerid ldpe.peerids (ldpe.peerids.length + 1) ldpe.peercnt
  { ldpe with peercnt := peerid, nbr := { ldpe.nbr with peerid } }

/-- `nbr_act_session_operational`. -/
def nbrActSessionOperational (ldpe : Ldpe) : Ldpe :=
  let ldpe := nbrUpdatePeerid (ldpe.updateNbr fun nbr => { nbr with idtimerCnt := 0 })
  ldpe.composeLde
    (.neighborUp ldpe.nbr.peerid ldpe.nbr.id ldpe.nbr.v4Enabled ldpe.nbr.v6Enabled)

/-- `session_close`. -/
def sessionClose (ldpe : Ldpe) : Ldpe :=
  ldpe.updateNbr fun nbr =>
    { nbr with
      tcp := none
      keepaliveTimer := false
      keepaliveTimeout := false
      initTimeout := false }

/-- The part of `nbr_fsm` before the action: the new state, and the timer that guards the
exchange of Initialization messages. -/
def nbrEnter (ldpe : Ldpe) (newState : Option NbrState) : Ldpe :=
  ldpe.updateNbr fun nbr =>
    let state := newState.getD nbr.state
    { nbr with state, initTimeout := decide (state ≠ .oper ∧ state ≠ .present) }

/-- The events of `nbr_fsm` that come from a sender: they change no state and send nothing. -/
def nbrFsmPduSent (ldpe : Ldpe) : Ldpe :=
  match nbrFsmRow ldpe.nbr.state .pduSent with
  | none => ldpe
  | some row =>
    (nbrEnter ldpe row.newState).updateNbr fun nbr =>
      { nbr with keepaliveTimer := nbr.keepaliveTimer || decide (row.action = .rstKtimer) }

/-- `send_address`. -/
def sendAddress (ldpe : Ldpe) (af : Af) (addrs : List LdpdAddr) (withdraw : Bool) : Ldpe :=
  if addrs = [] then ldpe
  else nbrFsmPduSent (sendAddressRounds af withdraw addrs.length addrs ldpe)

/-- `send_address_all`. The list it builds has the addresses in the opposite order. -/
def sendAddressAll (ldpe : Ldpe) (af : Af) : Ldpe :=
  sendAddress ldpe af (ldpe.addrList.filter fun addr => addr.af = af).reverse false

/-- The actions of `nbr_fsm` other than `NBR_ACT_CONNECT_SETUP`. -/
def nbrAct (ldpe : Ldpe) : NbrAction → Ldpe
  | .rstKtimeout => ldpe.updateNbr fun nbr => { nbr with keepaliveTimeout := true }
  | .rstKtimer => ldpe.updateNbr fun nbr => { nbr with keepaliveTimer := true }
  | .sessionEst =>
    let ldpe := nbrActSessionOperational ldpe
    let ldpe := ldpe.updateNbr fun nbr =>
      { nbr with keepaliveTimer := true, keepaliveTimeout := true }
    let ldpe := if ldpe.nbr.v4Enabled then sendAddressAll ldpe .inet else ldpe
    let ldpe := if ldpe.nbr.v6Enabled then sendAddressAll ldpe .inet6 else ldpe
    ldpe.composeLde (.labelMappingFull ldpe.nbr.peerid)
  | .passiveInit => sendKeepalive (sendInit ldpe)
  | .keepaliveSend =>
    sendKeepalive (ldpe.updateNbr fun nbr => { nbr with keepaliveTimeout := true })
  | .closeSession => sessionClose (ldpe.composeLde (.neighborDown ldpe.nbr.peerid))
  | .connectSetup | .nothing => ldpe

/-- `nbr_fsm`. Setting up a connection raises a further event, for which there is no further
one. An event outside of the table is ignored. -/
def nbrFsm (ldpe : Ldpe) (event : NbrEvent) : Ldpe :=
  match nbrFsmRow ldpe.nbr.state event with
  | none => ldpe
  | some row =>
    let ldpe := nbrEnter ldpe row.newState
    if row.action = .connectSetup then
      let ldpe := sendInit (ldpe.updateNbr fun nbr => { nbr with tcp := some {} })
      match nbrFsmRow ldpe.nbr.state .initSent with
      | none => ldpe
      | some row => nbrAct (nbrEnter ldpe row.newState) row.action
    else nbrAct ldpe row.action

/-! ### What the handlers use -/

/-- `nbr_start_idtimer`. -/
def nbrStartIdtimer (ldpe : Ldpe) : Ldpe :=
  ldpe.updateNbr fun nbr =>
    { nbr with
      idtimerCnt := if nbr.idtimerCnt ≤ 2 then nbr.idtimerCnt + 1 else nbr.idtimerCnt
      initdelayTimer := true }

/-- `send_notification_nbr`. -/
def sendNotificationNbr (ldpe : Ldpe) (statusCode msgId : UInt32) (msgType : UInt16) : Ldpe :=
  nbrFsm (sendNotificationFull ldpe { statusCode, msgId, msgType }) .pduSent

/-- `session_shutdown`. In the first state there is no session; at most a connection attempt is
given up. -/
def sessionShutdown (ldpe : Ldpe) (status msgId : UInt32) (msgType : UInt16) : Ldpe :=
  if ldpe.nbr.state = .present then ldpe
  else nbrFsm (sendNotificationNbr ldpe status msgId msgType) .closeSession

end Ldpd
