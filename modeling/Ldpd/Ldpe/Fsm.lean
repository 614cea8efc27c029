/-
This file says what the state machine of a neighbor can do, row by row of its table, up
to what it writes to the peer. Everything that is known about runs of the engine rests
on this list.
-/

import Ldpd.Ldpe.Attached
import Ldpd.Ldpe.Replies

namespace Ldpd

/-! ### Writing to the peer -/

/-- Two engines that differ at most in what has been written to the peer. -/
def Writes (ldpe ldpe' : Ldpe) : Prop :=
  ∃ msgcnt sent fault, ldpe' = { ldpe with msgcnt, sent, fault }

/-- A property that does not depend on what has been written to the peer. -/
def Unwritten (property : Ldpe → Prop) : Prop :=
  ∀ ldpe ldpe', Writes ldpe ldpe' → property ldpe → property ldpe'

section Writes

variable {ldpe ldpe' ldpe'' : Ldpe}

theorem Writes.refl (ldpe : Ldpe) : Writes ldpe ldpe :=
  ⟨ldpe.msgcnt, ldpe.sent, ldpe.fault, rfl⟩

theorem Writes.trans (first : Writes ldpe ldpe') (second : Writes ldpe' ldpe'') :
    Writes ldpe ldpe'' := by
  obtain ⟨_, _, _, rfl⟩ := first
  obtain ⟨_, _, _, rfl⟩ := second
  exact ⟨_, _, _, rfl⟩

theorem Writes.nbr (writes : Writes ldpe ldpe') : ldpe'.nbr = ldpe.nbr := by
  obtain ⟨_, _, _, rfl⟩ := writes
  rfl

theorem Writes.toLde (writes : Writes ldpe ldpe') : ldpe'.toLde = ldpe.toLde := by
  obtain ⟨_, _, _, rfl⟩ := writes
  rfl

theorem Writes.nbrEnter (writes : Writes ldpe ldpe') (newState : Option NbrState) :
    Writes (nbrEnter ldpe newState) (nbrEnter ldpe' newState) := by
  obtain ⟨_, _, _, rfl⟩ := writes
  exact ⟨_, _, _, rfl⟩

theorem Writes.ite {condition : Prop} [Decidable condition] {yes no : Ldpe} (taken : Writes ldpe yes)
    (passed : Writes ldpe no) : Writes ldpe (if condition then yes else no) := by
  split
  · exact taken
  · exact passed

/-- `nbr_send_labelmappings` does not depend on what has been written. -/
theorem Writes.labelMappingFull (writes : Writes ldpe ldpe') :
    Writes (ldpe.composeLde (.labelMappingFull ldpe.nbr.peerid))
      (ldpe'.composeLde (.labelMappingFull ldpe'.nbr.peerid)) := by
  obtain ⟨_, _, _, rfl⟩ := writes
  exact ⟨_, _, _, rfl⟩

theorem writes_openMessage (ldpe : Ldpe) (type size : UInt16) :
    Writes ldpe (ldpe.openMessage type size).1 :=
  ⟨_, _, _, rfl⟩

theorem writes_enqueue (ldpe : Ldpe) (buf : Ibuf) : Writes ldpe (ldpe.enqueue buf) := by
  rw [Ldpe.enqueue]
  split
  · exact ⟨_, _, _, rfl⟩
  · exact ⟨_, _, _, rfl⟩

theorem writes_sendInit (ldpe : Ldpe) : Writes ldpe (sendInit ldpe) := by
  have opened := writes_openMessage ldpe msgTypeInit 36
  rw [sendInit]
  exact Writes.ite opened (opened.trans (writes_enqueue ..))

theorem writes_sendKeepalive (ldpe : Ldpe) : Writes ldpe (sendKeepalive ldpe) :=
  (writes_openMessage ..).trans (writes_enqueue ..)

theorem writes_sendNotificationFull (ldpe : Ldpe) (nm : NotifyMsg) :
    Writes ldpe (sendNotificationFull ldpe nm) :=
  .ite (writes_openMessage ..) ((writes_openMessage ..).trans (writes_enqueue ..))

theorem writes_sendAddressRounds (af : Af) (withdraw : Bool) (rounds : Nat) (addrs : List LdpdAddr)
    (ldpe : Ldpe) : Writes ldpe (sendAddressRounds af withdraw rounds addrs ldpe) := by
  induction rounds generalizing addrs ldpe with
  | zero => exact .refl ldpe
  | succ rounds inductionHypothesis =>
    cases addrs with
    | nil => exact .refl ldpe
    | cons addr rest =>
      have opened := writes_openMessage ldpe
        (if withdraw then msgTypeAddrwithdraw else msgTypeAddr)
      exact .ite (opened _)
        (((opened _).trans (writes_enqueue ..)).trans (inductionHypothesis ..))

end Writes

/-! ### Operational sessions -/

/-- The timers of an operational session are as they should be. -/
def Nbr.Running (nbr : Nbr) : Prop :=
  nbr.state = .oper ∧ nbr.initTimeout = false ∧ nbr.keepaliveTimer = true

theorem nbrFsmPduSent_of_running {ldpe : Ldpe} (running : ldpe.nbr.Running) :
    nbrFsmPduSent ldpe = ldpe := by
  obtain ⟨state, timeout, timer⟩ := running
  have row : nbrFsmRow ldpe.nbr.state .pduSent = some ⟨[.oper], .pduSent, .rstKtimer, none⟩ := by
    rw [state]
    rfl
  rw [nbrFsmPduSent, row]
  obtain ⟨_, _, _, _, _, _, _, nbr, _, _, _⟩ := ldpe
  obtain ⟨_, _, _, _, _, _, _, _, _, _, _, _, _, _⟩ := nbr
  subst state timeout timer
  rfl

theorem writes_sendAddressAll {ldpe : Ldpe} (running : ldpe.nbr.Running) (af : Af) :
    Writes ldpe (sendAddressAll ldpe af) := by
  rw [sendAddressAll, sendAddress]
  refine .ite (.refl ldpe) ?_
  have writes := writes_sendAddressRounds af false
    (ldpe.addrList.filter fun addr => addr.af = af).reverse.length
    (ldpe.addrList.filter fun addr => addr.af = af).reverse ldpe
  rw [nbrFsmPduSent_of_running]
  · exact writes
  · rw [writes.nbr]
    exact running

/-- The id that the next session gets. -/
def newPeerid (ldpe : Ldpe) : UInt32 :=
  nextPeerid ldpe.peerids (ldpe.peerids.length + 1) ldpe.peercnt

/-- What the establishment of a session leaves, but for the addresses it sends. -/
def established (ldpe : Ldpe) : Ldpe :=
  let peerid := newPeerid ldpe
  { ldpe with
    peercnt := peerid
    nbr := { ldpe.nbr with
      peerid
      state := .oper
      idtimerCnt := 0
      initTimeout := false
      keepaliveTimer := true
      keepaliveTimeout := true }
    toLde := ldpe.toLde ++
      [.neighborUp peerid ldpe.nbr.id ldpe.nbr.v4Enabled ldpe.nbr.v6Enabled] ++
        [.labelMappingFull peerid] }

theorem writes_sessionEst (ldpe : Ldpe) :
    Writes (established ldpe) (nbrAct (nbrEnter ldpe (some .oper)) .sessionEst) := by
  -- the state just after the timers are started, before the addresses are sent
  let timers := (nbrActSessionOperational (nbrEnter ldpe (some .oper))).updateNbr fun nbr =>
    { nbr with keepaliveTimer := true, keepaliveTimeout := true }
  have addresses : ∀ (enabled : Bool) (ldpe' : Ldpe) (af : Af), Writes timers ldpe' →
      Writes timers (if enabled = true then sendAddressAll ldpe' af else ldpe') := by
    intro enabled ldpe' af writes
    refine .ite (writes.trans (writes_sendAddressAll ?_ af)) writes
    rw [writes.nbr]
    exact ⟨rfl, rfl, rfl⟩
  have told : established ldpe = timers.composeLde (.labelMappingFull timers.nbr.peerid) := by
    rw [established, newPeerid]
    simp only [timers, nbrActSessionOperational, nbrUpdatePeerid, nbrEnter, Ldpe.updateNbr,
      Ldpe.composeLde]
    rfl
  rw [told, nbrAct]
  exact (addresses _ _ .inet6 (addresses _ _ .inet (.refl timers))).labelMappingFull

/-! ### The rows of the table -/

/-- What an event can do, one case for each row of the table. -/
inductive FsmStep (ldpe : Ldpe) : NbrEvent → Ldpe → Prop
  | ignored {event : NbrEvent} (unknown : nbrFsmRow ldpe.nbr.state event = none) :
      FsmStep ldpe event ldpe
  | matchAdj (state : ldpe.nbr.state = .present) :
      FsmStep ldpe .matchAdj (nbrEnter ldpe (some .initial))
  | passiveInit {ldpe' : Ldpe} (state : ldpe.nbr.state = .initial)
      (writes : Writes (nbrEnter ldpe (some .openrec)) ldpe') : FsmStep ldpe .initRcvd ldpe'
  | sessionEst {ldpe' : Ldpe} (state : ldpe.nbr.state = .openrec)
      (writes : Writes (established ldpe) ldpe') : FsmStep ldpe .keepaliveRcvd ldpe'
  | connectSetup {ldpe' : Ldpe} (state : ldpe.nbr.state = .present)
      (writes : Writes (nbrEnter ((nbrEnter ldpe (some .initial)).updateNbr fun nbr =>
        { nbr with tcp := some {} }) (some .opensent)) ldpe') : FsmStep ldpe .connectUp ldpe'
  | initSent (state : ldpe.nbr.state = .initial) :
      FsmStep ldpe .initSent (nbrEnter ldpe (some .opensent))
  | keepaliveSend {ldpe' : Ldpe} (state : ldpe.nbr.state = .opensent)
      (writes : Writes ((nbrEnter ldpe (some .openrec)).updateNbr fun nbr =>
        { nbr with keepaliveTimeout := true }) ldpe') : FsmStep ldpe .initRcvd ldpe'
  | rstKtimeout (state : ldpe.nbr.state = .oper) :
      FsmStep ldpe .pduRcvd ((nbrEnter ldpe none).updateNbr fun nbr =>
        { nbr with keepaliveTimeout := true })
  | rstKtimer (state : ldpe.nbr.state = .oper) :
      FsmStep ldpe .pduSent ((nbrEnter ldpe none).updateNbr fun nbr =>
        { nbr with keepaliveTimer := true })
  | stays {event : NbrEvent} (starting : ldpe.nbr.state ≠ .oper) :
      FsmStep ldpe event (nbrEnter ldpe none)
  | close (session : ldpe.nbr.state ≠ .present) :
      FsmStep ldpe .closeSession
        (sessionClose ((nbrEnter ldpe (some .present)).composeLde (.neighborDown ldpe.nbr.peerid)))

theorem nbrFsm_of_row {ldpe : Ldpe} {event : NbrEvent} {row : FsmRow}
    (found : nbrFsmRow ldpe.nbr.state event = some row) (plain : row.action ≠ .connectSetup) :
    nbrFsm ldpe event = nbrAct (nbrEnter ldpe row.newState) row.action := by
  rw [nbrFsm, found]
  exact if_neg plain

theorem nbrFsm_close {ldpe : Ldpe} (session : ldpe.nbr.state ≠ .present) :
    nbrFsm ldpe .closeSession =
      sessionClose ((nbrEnter ldpe (some .present)).composeLde (.neighborDown ldpe.nbr.peerid)) := by
  have row : nbrFsmRow ldpe.nbr.state .closeSession =
      some ⟨nbrStaSession, .closeSession, .closeSession, some .present⟩ := by
    cases state : ldpe.nbr.state with
    | present => exact absurd state session
    | _ => rfl
  exact nbrFsm_of_row row nofun

theorem closeSession_state (ldpe : Ldpe) : (nbrFsm ldpe .closeSession).nbr.state = .present := by
  by_cases session : ldpe.nbr.state = .present
  · have row : nbrFsmRow ldpe.nbr.state .closeSession =
        some ⟨[.present], .closeSession, .nothing, none⟩ := by
      rw [session]
      rfl
    rw [nbrFsm_of_row row nofun]
    exact session
  · rw [nbrFsm_close session]
    rfl

theorem nbrFsm_connectUp {ldpe : Ldpe} (state : ldpe.nbr.state = .present) :
    nbrFsm ldpe .connectUp = nbrEnter (sendInit ((nbrEnter ldpe (some .initial)).updateNbr fun nbr =>
      { nbr with tcp := some {} })) (some .opensent) := by
  have row : nbrFsmRow ldpe.nbr.state .connectUp =
      some ⟨[.present], .connectUp, .connectSetup, some .initial⟩ := by
    rw [state]
    rfl
  rw [nbrFsm, row]
  dsimp only
  rw [if_pos rfl, nbr_sendInit]
  rfl

/-- What the senders of addresses tell the state machine is one of its events. -/
theorem nbrFsmPduSent_eq (ldpe : Ldpe) : nbrFsmPduSent ldpe = nbrFsm ldpe .pduSent := by
  have timer (nbr : Nbr) (action : NbrAction) (quiet : action ≠ .rstKtimer) :
      { nbr with keepaliveTimer := nbr.keepaliveTimer || decide (action = .rstKtimer) } = nbr := by
    rw [decide_eq_false quiet, Bool.or_false]
  have restart (nbr : Nbr) :
      { nbr with keepaliveTimer := nbr.keepaliveTimer || decide (NbrAction.rstKtimer = .rstKtimer) } =
        { nbr with keepaliveTimer := true } := by
    rw [decide_eq_true rfl, Bool.or_true]
  rw [nbrFsmPduSent]
  cases state : ldpe.nbr.state with
  | present =>
    rw [nbrFsm, state]
    rfl
  | oper =>
    have row : nbrFsmRow ldpe.nbr.state .pduSent = some ⟨[.oper], .pduSent, .rstKtimer, none⟩ := by
      rw [state]
      rfl
    rw [nbrFsm_of_row row (by decide)]
    exact congrArg (fun nbr => { ldpe with nbr }) (restart _)
  | initial | openrec | opensent =>
    have row : nbrFsmRow ldpe.nbr.state .pduSent = some ⟨nbrStaSession, .pduSent, .nothing, none⟩ := by
      rw [state]
      rfl
    rw [nbrFsm_of_row row (by decide)]
    exact congrArg (fun nbr => { ldpe with nbr }) (timer _ .nothing (by decide))

theorem fsmStep_ignored {ldpe : Ldpe} {event : NbrEvent}
    (unknown : nbrFsmRow ldpe.nbr.state event = none) : FsmStep ldpe event (nbrFsm ldpe event) := by
  have same : nbrFsm ldpe event = ldpe := by rw [nbrFsm, unknown]
  rw [same]
  exact .ignored unknown

/-- The table says what the state machine does. -/
theorem nbrFsm_step (ldpe : Ldpe) (event : NbrEvent) : FsmStep ldpe event (nbrFsm ldpe event) := by
  have found {row : FsmRow} (state : NbrState) (now : ldpe.nbr.state = state)
      (plain : row.action ≠ .connectSetup) (listed : nbrFsmRow state event = some row) :
      nbrFsm ldpe event = nbrAct (nbrEnter ldpe row.newState) row.action :=
    nbrFsm_of_row (now ▸ listed) plain
  have stays (state : NbrState) (now : ldpe.nbr.state = state) (starting : state ≠ .oper)
      {states : List NbrState} (listed : nbrFsmRow state event = some ⟨states, event, .nothing, none⟩) :
      FsmStep ldpe event (nbrFsm ldpe event) := by
    rw [found state now (fun same => NbrAction.noConfusion same) listed]
    exact .stays (now ▸ starting)
  cases event with
  | nothing =>
    refine fsmStep_ignored ?_
    cases ldpe.nbr.state <;> rfl
  | matchAdj =>
    cases state : ldpe.nbr.state with
    | present =>
      rw [found _ state (by decide) rfl]
      exact .matchAdj state
    | _ => exact fsmStep_ignored (state ▸ rfl)
  | connectUp =>
    cases state : ldpe.nbr.state with
    | present =>
      rw [nbrFsm_connectUp state]
      exact .connectSetup state ((writes_sendInit _).nbrEnter _)
    | _ => exact fsmStep_ignored (state ▸ rfl)
  | closeSession =>
    cases state : ldpe.nbr.state with
    | present => exact stays _ state (by decide) rfl
    | _ =>
      have session : ldpe.nbr.state ≠ .present := state ▸ nofun
      rw [nbrFsm_close session]
      exact .close session
  | initRcvd =>
    cases state : ldpe.nbr.state with
    | initial =>
      rw [found _ state (by decide) rfl]
      exact .passiveInit state ((writes_sendInit _).trans (writes_sendKeepalive _))
    | opensent =>
      rw [found _ state (by decide) rfl]
      exact .keepaliveSend state (writes_sendKeepalive _)
    | _ => exact fsmStep_ignored (state ▸ rfl)
  | keepaliveRcvd =>
    cases state : ldpe.nbr.state with
    | openrec =>
      rw [found _ state (by decide) rfl]
      exact .sessionEst state (writes_sessionEst ldpe)
    | _ => exact fsmStep_ignored (state ▸ rfl)
  | pduRcvd =>
    cases state : ldpe.nbr.state with
    | present => exact fsmStep_ignored (state ▸ rfl)
    | oper =>
      rw [found _ state (by decide) rfl]
      exact .rstKtimeout state
    | _ => exact stays _ state (by decide) rfl
  | pduSent =>
    cases state : ldpe.nbr.state with
    | present => exact fsmStep_ignored (state ▸ rfl)
    | oper =>
      rw [found _ state (by decide) rfl]
      exact .rstKtimer state
    | _ => exact stays _ state (by decide) rfl
  | initSent =>
    cases state : ldpe.nbr.state with
    | initial =>
      rw [found _ state (by decide) rfl]
      exact .initSent state
    | _ => exact fsmStep_ignored (state ▸ rfl)

/-- A PDU that is sent starts a timer at most. -/
theorem nbrFsm_pduSent (ldpe : Ldpe) : ∃ initTimeout keepaliveTimer,
    nbrFsm ldpe .pduSent = ldpe.updateNbr fun nbr => { nbr with initTimeout, keepaliveTimer } := by
  have step := nbrFsm_step ldpe .pduSent
  generalize nbrFsm ldpe .pduSent = ldpe' at step
  cases step with
  | ignored => exact ⟨_, _, rfl⟩
  | rstKtimer => exact ⟨_, _, rfl⟩
  | stays => exact ⟨_, _, rfl⟩

/-- Whatever is sent on the way, a session that is shut down is closed. -/
theorem sessionShutdown_eq {ldpe : Ldpe} (session : ldpe.nbr.state ≠ .present) (status msgId : UInt32)
    (msgType : UInt16) : Writes (nbrFsm ldpe .closeSession) (sessionShutdown ldpe status msgId msgType) := by
  rw [sessionShutdown, if_neg session, sendNotificationNbr]
  obtain ⟨_, _, _, written⟩ :=
    writes_sendNotificationFull ldpe { statusCode := status, msgId, msgType }
  obtain ⟨_, _, sent⟩ := nbrFsm_pduSent
    (sendNotificationFull ldpe { statusCode := status, msgId, msgType })
  rw [sent, written, nbrFsm_close session, nbrFsm_close]
  · exact ⟨_, _, _, rfl⟩
  · exact session

end Ldpd
