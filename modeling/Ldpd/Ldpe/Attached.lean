/-
This file is about the connection of a session: which functions leave it open and its
read buffer alone, and which of the replies to a message closes it.
-/

import Ldpd.Ldpe.Session

namespace Ldpd

open Bytes Code

/-! ### The connection -/

/-- There is a session, and its connection has these bytes in its read buffer. -/
def Attached (rbuf : List UInt8) (ldpe : Ldpe) : Prop :=
  ldpe.nbr.tcp = some ⟨rbuf⟩ ∧ ldpe.nbr.state ≠ .present

/-- The connection is closed. -/
def Detached (ldpe : Ldpe) : Prop :=
  ldpe.nbr.tcp = none

/-! ### Senders leave the neighbor alone -/

@[simp] theorem nbr_composeLde (ldpe : Ldpe) (imsg : LdeEvent) :
    (ldpe.composeLde imsg).nbr = ldpe.nbr := rfl

@[simp] theorem nbr_openMessage (ldpe : Ldpe) (type size : UInt16) :
    (ldpe.openMessage type size).1.nbr = ldpe.nbr := rfl

@[simp] theorem nbr_enqueue (ldpe : Ldpe) (buf : Ibuf) : (ldpe.enqueue buf).nbr = ldpe.nbr := by
  rw [Ldpe.enqueue]
  split <;> rfl

theorem nbr_ite {condition : Prop} [Decidable condition] {yes no : Ldpe} {nbr : Nbr}
    (taken : yes.nbr = nbr) (passed : no.nbr = nbr) :
    (if condition then yes else no).nbr = nbr := by
  split
  · exact taken
  · exact passed

@[simp] theorem nbr_sendInit (ldpe : Ldpe) : (sendInit ldpe).nbr = ldpe.nbr :=
  nbr_ite (nbr_openMessage ..) (nbr_enqueue ..)

@[simp] theorem nbr_sendKeepalive (ldpe : Ldpe) : (sendKeepalive ldpe).nbr = ldpe.nbr :=
  nbr_enqueue ..

@[simp] theorem nbr_sendNotificationFull (ldpe : Ldpe) (nm : NotifyMsg) :
    (sendNotificationFull ldpe nm).nbr = ldpe.nbr :=
  nbr_ite (nbr_openMessage ..) (nbr_enqueue ..)

@[simp] theorem nbr_sendAddressRounds (af : Af) (withdraw : Bool) (rounds : Nat)
    (addrs : List LdpdAddr) (ldpe : Ldpe) :
    (sendAddressRounds af withdraw rounds addrs ldpe).nbr = ldpe.nbr := by
  induction rounds generalizing addrs ldpe with
  | zero => rfl
  | succ rounds inductionHypothesis =>
    cases addrs with
    | nil => rfl
    | cons addr rest =>
      refine nbr_ite (nbr_openMessage ..) ?_
      rw [inductionHypothesis, nbr_enqueue, nbr_openMessage]

/-! ### The state machine -/

section Machine

variable {rbuf : List UInt8} {ldpe : Ldpe}

theorem Attached.of_nbr {ldpe' : Ldpe} (attached : Attached rbuf ldpe) (same : ldpe'.nbr = ldpe.nbr) :
    Attached rbuf ldpe' := by
  rw [Attached, same]
  exact attached

/-- A change of the neighbor that leaves its connection and its state alone. -/
theorem Attached.updateNbr (attached : Attached rbuf ldpe) {change : Nbr → Nbr}
    (tcp : (change ldpe.nbr).tcp = ldpe.nbr.tcp) (state : (change ldpe.nbr).state = ldpe.nbr.state) :
    Attached rbuf (ldpe.updateNbr change) :=
  ⟨tcp.trans attached.1, fun same => attached.2 (state.symm.trans same)⟩

theorem Attached.nbrEnter (attached : Attached rbuf ldpe) {newState : Option NbrState}
    (session : newState ≠ some .present) : Attached rbuf (nbrEnter ldpe newState) := by
  refine ⟨attached.1, ?_⟩
  cases newState with
  | none => exact attached.2
  | some state => exact fun same => session (congrArg some same)

theorem Attached.nbrFsmPduSent (attached : Attached rbuf ldpe) : Attached rbuf (nbrFsmPduSent ldpe) := by
  rw [Ldpd.nbrFsmPduSent]
  split
  · exact attached
  · rename_i row found
    have event := List.find?_some found
    have stays : row.newState ≠ some .present := by
      have member := List.mem_of_find?_eq_some found
      have rows : ∀ row ∈ nbrFsmTbl, row.event = .pduSent → row.newState ≠ some .present := by
        decide
      exact rows row member (of_decide_eq_true event).2
    exact (attached.nbrEnter stays).updateNbr rfl rfl

theorem Attached.sendAddressAll (attached : Attached rbuf ldpe) (af : Af) :
    Attached rbuf (sendAddressAll ldpe af) := by
  rw [Ldpd.sendAddressAll, Ldpd.sendAddress]
  split
  · exact attached
  · exact Attached.nbrFsmPduSent (attached.of_nbr (nbr_sendAddressRounds ..))

theorem Attached.nbrAct (attached : Attached rbuf ldpe) {action : NbrAction}
    (stays : action ≠ .closeSession) : Attached rbuf (nbrAct ldpe action) := by
  cases action with
  | nothing | connectSetup => exact attached
  | rstKtimeout | rstKtimer => exact attached.updateNbr rfl rfl
  | sessionEst =>
    rw [Ldpd.nbrAct]
    have operational : Attached rbuf (nbrActSessionOperational ldpe) := attached
    have timers : Attached rbuf ((nbrActSessionOperational ldpe).updateNbr fun nbr =>
        { nbr with keepaliveTimer := true, keepaliveTimeout := true }) :=
      operational.updateNbr rfl rfl
    have addresses : ∀ (enabled : Bool) (ldpe : Ldpe) (af : Af), Attached rbuf ldpe →
        Attached rbuf (if enabled = true then Ldpd.sendAddressAll ldpe af else ldpe) := by
      intro enabled ldpe af attached
      split
      · exact attached.sendAddressAll af
      · exact attached
    exact addresses _ _ _ (addresses _ _ _ timers)
  | passiveInit =>
    refine attached.of_nbr ?_
    rw [Ldpd.nbrAct, nbr_sendKeepalive, nbr_sendInit]
  | keepaliveSend =>
    have timer : Attached rbuf (ldpe.updateNbr fun nbr => { nbr with keepaliveTimeout := true }) :=
      attached.updateNbr rfl rfl
    refine timer.of_nbr ?_
    rw [Ldpd.nbrAct, nbr_sendKeepalive]
  | closeSession => exact absurd rfl stays

/-- No event but the last one takes a session away. -/
theorem Attached.nbrFsm (attached : Attached rbuf ldpe) {event : NbrEvent}
    (stays : event ≠ .closeSession) : Attached rbuf (nbrFsm ldpe event) := by
  rw [Ldpd.nbrFsm]
  split
  · exact attached
  · rename_i row found
    have matched := List.find?_some found
    have rows : ∀ row ∈ nbrFsmTbl, row.event ≠ .closeSession → ∀ state ∈ row.states,
        state ≠ .present → row.newState ≠ some .present ∧ row.action ≠ .connectSetup ∧
          row.action ≠ .closeSession := by
      decide
    obtain ⟨state, connect, close⟩ := rows row (List.mem_of_find?_eq_some found)
      ((of_decide_eq_true matched).2 ▸ stays) _ (of_decide_eq_true matched).1 attached.2
    simp only
    rw [if_neg connect]
    exact (attached.nbrEnter state).nbrAct close

/-- The last event closes the connection. -/
theorem Attached.close (attached : Attached rbuf ldpe) : Detached (Ldpd.nbrFsm ldpe .closeSession) := by
  have row : nbrFsmRow ldpe.nbr.state .closeSession =
      some ⟨nbrStaSession, .closeSession, .closeSession, some .present⟩ := by
    have session := attached.2
    cases state : ldpe.nbr.state with
    | present => exact absurd state session
    | _ => rfl
  rw [Ldpd.nbrFsm, row]
  rfl

/-! ### Replies -/

theorem Attached.notify (attached : Attached rbuf ldpe) (status : UInt32) (msg : LdpMsg) :
    Attached rbuf (say ldpe (.notify status msg)) :=
  Attached.nbrFsm (attached.of_nbr (nbr_sendNotificationFull ..)) (by decide)

theorem Attached.shutdown (attached : Attached rbuf ldpe) (status : UInt32) (msg : LdpMsg) :
    Detached (say ldpe (.shutdown status msg)) := by
  show Detached (sessionShutdown ldpe status msg.id msg.type)
  rw [sessionShutdown, if_neg attached.2]
  exact (attached.notify status msg).close

end Machine

end Ldpd
