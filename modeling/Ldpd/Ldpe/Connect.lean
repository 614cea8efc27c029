/-
This file follows the connections that the engine makes to its neighbors: the five
places that call `nbr_establish_connection`, the event that waits for a connection in
progress, and the timer that delays the next attempt after a session was refused.
`recv_hello` looks at all of them before it starts an attempt. A reload that changes the
parameters of a neighbor does not look at the timer, and `IMSG_SETUP_SOCKETS` looks at
nothing, so two attempts may be under way for one neighbor. And an attempt that is given
up leaves its socket open, as does one whose outcome cannot be read.
-/

import Ldpd.Ldpe.Sound

namespace Ldpd

/-! ### Connections -/

/-- What `nbr_establish_connection` comes to. -/
inductive ConnectOutcome where
  | failed
  | inProgress
  | connected
  deriving DecidableEq, Repr

/-- What `getsockopt` tells `nbr_connect_cb`: nothing when it fails, or whether the connection is up. -/
inductive SoError where
  | unread
  | failed
  | connected
  deriving DecidableEq, Repr

/-- The transport addresses of a neighbor, whether `ev_connect` is pending, and whether `fd` is an open
socket that no session has taken over. -/
structure Link where
  laddr : LdpdAddr
  raddr : LdpdAddr
  pending : Bool := false
  fd : Bool := false

/-- `nbr_session_active_role`. The addresses are compared in network byte order. -/
def Link.active (link : Link) : Bool :=
  link.raddr.bytes < link.laddr.bytes

/-- A call of `nbr_establish_connection`: the state of the neighbor, whether it has a connection,
whether one is in progress, and whether the socket in `fd` is open. -/
structure Attempt where
  state : NbrState
  connected : Bool
  pending : Bool
  fd : Bool
  deriving DecidableEq, Repr

/-- The engine with the connections it makes. The lists are not part of the source: they keep the calls
of `nbr_establish_connection`, and the states in which `NBR_EVT_CONNECT_UP` was delivered. -/
structure ConnEngine where
  engine : LdpEngine
  links : InAddr → Link
  attempts : List Attempt := []
  ups : List NbrState := []

namespace ConnEngine

/-- Change the link of a neighbor. -/
def setLink (conn : ConnEngine) (id : InAddr) (change : Link → Link) : ConnEngine :=
  { conn with links := Function.update conn.links id (change (conn.links id)) }

/-- A step of the engine itself. -/
def inner (conn : ConnEngine) (input : LdpeInput) : Option ConnEngine :=
  (ldpeStep conn.engine input).map fun engine => { conn with engine }

/-- `NBR_EVT_CONNECT_UP`. Only in state PRESENT `tcp_new` takes the socket over. -/
def connectUp (conn : ConnEngine) (id : InAddr) : Option ConnEngine :=
  match conn.engine.nbrs[id]? with
  | none => some conn
  | some entry =>
    let taken : Bool := entry.nbr.state = .present
    let conn := { conn with ups := conn.ups ++ [entry.nbr.state] }
    let conn := conn.setLink id fun link => { link with fd := !taken && link.fd }
    conn.inner (.nbr id .connectUp)

/-- `nbr_establish_connection`. -/
def establish (conn : ConnEngine) (id : InAddr) (outcome : ConnectOutcome) : Option ConnEngine :=
  match conn.engine.nbrs[id]? with
  | none => some conn
  | some entry =>
    let link := conn.links id
    let attempt : Attempt := ⟨entry.nbr.state, entry.nbr.tcp.isSome, link.pending, link.fd⟩
    let conn := { conn with attempts := conn.attempts ++ [attempt] }
    match outcome with
    | .failed => some (conn.setLink id fun link => { link with fd := false })
    | .inProgress => some (conn.setLink id fun link => { link with pending := true, fd := true })
    | .connected => (conn.setLink id fun link => { link with fd := true }).connectUp id

/-- `session_shutdown`. An attempt that is under way is given up, and its socket is not closed. -/
def shutdown (conn : ConnEngine) (id : InAddr) (status msgId : UInt32) (msgType : UInt16) :
    Option ConnEngine :=
  match conn.engine.nbrs[id]? with
  | none => some conn
  | some entry =>
    if entry.nbr.state = .present then some (conn.setLink id fun link => { link with pending := false })
    else conn.inner (.nbr id (.shutdown status msgId msgType))

/-- `nbr_del`. -/
def nbrDel (conn : ConnEngine) (id : InAddr) : Option ConnEngine :=
  (conn.inner (.nbrDel id)).map fun conn =>
    conn.setLink id fun link => { link with pending := false, fd := false }

/-- `nbr_stop_idtimer`. -/
def stopIdtimer (conn : ConnEngine) (id : InAddr) : Option ConnEngine :=
  conn.inner (.nbr id .stopIdtimer)

/-- Go on with a neighbor that is there and fulfils a condition. -/
def guarded (conn : ConnEngine) (id : InAddr) (condition : Nbr → Bool)
    (next : ConnEngine → Option ConnEngine) : Option ConnEngine :=
  match conn.engine.nbrs[id]? with
  | none => some conn
  | some entry => if condition entry.nbr then next conn else some conn

/-- The rest of `nbr_connect_cb`. A socket whose error cannot be read stays open, and nothing waits for
it any more. -/
def connectDone (conn : ConnEngine) (id : InAddr) : SoError → Option ConnEngine
  | .unread => some conn
  | .failed => some (conn.setLink id fun link => { link with fd := false })
  | .connected => conn.connectUp id

/-- The end of `recv_hello`. -/
def helloConnect (conn : ConnEngine) (id : InAddr) (outcome : ConnectOutcome) : Option ConnEngine :=
  conn.guarded id (fun nbr => nbr.state = .present && !nbr.initdelayTimer && (conn.links id).active &&
    !(conn.links id).pending) fun conn => conn.establish id outcome

end ConnEngine

/-! ### Steps -/

/-- The inputs of a neighbor that have nothing to do with taking up a connection or giving it up. -/
def NbrInput.inSession : NbrInput → Bool
  | .read .. | .writeError | .ktimer | .ktimeout | .itimeout | .address .. => true
  | _ => false

theorem NbrInput.connects_of_inSession : ∀ {input : NbrInput}, input.inSession = true →
    input.connects = false
  | .read .., _ | .writeError, _ | .ktimer, _ | .ktimeout, _ | .itimeout, _ | .address .., _ => rfl

/-- Everything that makes a handler of the engine run. A handler that serves several neighbors runs once
for each. -/
inductive ConnInput where
  | conf (conf : LdpeConf)
  | imsg (imsg : LdpeImsg) (fuel : Nat)
  | nbrNew (id : InAddr) (af : Af) (dsTlv waiting : Bool) (laddr raddr : LdpdAddr)
  | adjDel (id : InAddr) (notifStatus : UInt32)
  | session (id : InAddr) (input : NbrInput)
  | accept (id : InAddr) (admitted : Bool)
  | shutdown (id : InAddr) (status msgId : UInt32) (msgType : UInt16)
  | hello (id : InAddr) (newConf : Bool) (outcome : ConnectOutcome)
  | idtimer (id : InAddr) (outcome : ConnectOutcome)
  | connectCb (id : InAddr) (result : SoError)
  | nbrp (id : InAddr) (outcome : ConnectOutcome)
  | stopInitBackoff (id : InAddr) (outcome : ConnectOutcome)
  | setupSockets (id : InAddr) (laddr : LdpdAddr) (outcome : ConnectOutcome)

open ConnEngine in
/-- One handler. -/
def connStep (conn : ConnEngine) : ConnInput → Option ConnEngine
  | .conf conf => conn.inner (.conf conf)
  | .imsg imsg fuel => conn.inner (.imsg imsg fuel)
  | .nbrNew id af dsTlv waiting laddr raddr =>
    (conn.inner (.nbrNew id af dsTlv waiting)).map fun conn => conn.setLink id fun _ => { laddr, raddr }
  -- adj_del, for the last adjacency of a neighbor
  | .adjDel id notifStatus => do
    let conn ← conn.shutdown id notifStatus 0 0
    conn.nbrDel id
  | .session id input => if input.inSession then conn.inner (.nbr id input) else none
  -- session_accept
  | .accept id admitted =>
    if (conn.links id).active then some conn else conn.inner (.nbr id (.accept admitted))
  | .shutdown id status msgId msgType => conn.shutdown id status msgId msgType
  -- recv_hello
  | .hello id newConf outcome =>
    if newConf then (conn.stopIdtimer id).bind fun conn => conn.helloConnect id outcome
    else conn.helloConnect id outcome
  -- nbr_idtimer
  | .idtimer id outcome => conn.guarded id Nbr.initdelayTimer fun conn => do
    let conn ← conn.stopIdtimer id
    conn.establish id outcome
  -- nbr_connect_cb
  | .connectCb id result => conn.guarded id (fun _ => (conn.links id).pending) fun conn =>
    (conn.setLink id fun link => { link with pending := false }).connectDone id result
  -- merge_nbrps
  | .nbrp id outcome => do
    let conn ← conn.shutdown id sShutdown 0 0
    if (conn.links id).active then conn.establish id outcome else some conn
  -- ldpe_stop_init_backoff
  | .stopInitBackoff id outcome => conn.guarded id Nbr.initdelayTimer fun conn => do
    let conn ← conn.stopIdtimer id
    conn.establish id outcome
  -- IMSG_SETUP_SOCKETS
  | .setupSockets id laddr outcome =>
    let conn := conn.setLink id fun link => { link with laddr }
    if (conn.links id).active then conn.establish id outcome else some conn

/-! ### When attempts are apart -/

/-- A call of `nbr_establish_connection` that is in order. -/
def Attempt.proper (attempt : Attempt) : Prop :=
  attempt.state = .present ∧ attempt.connected = false ∧ attempt.pending = false ∧ attempt.fd = false

/-- No session is shut down while a connection is in progress unless the neighbor goes with it, and the
outcome of a connection can be read. No connection is started by a change of the parameters of a neighbor
while its init delay timer is pending, and sockets are set up again for neighbors that have no session,
no connection in progress and no such timer. -/
def Apart (conn : ConnEngine) : ConnInput → Prop
  | .connectCb _ result => result ≠ .unread
  | .shutdown id _ _ _ => (conn.links id).pending = false
  | .nbrp id _ => (conn.links id).pending = false ∧ ((conn.links id).active → ∀ entry : NbrEntry,
    conn.engine.nbrs[id]? = some entry → entry.nbr.initdelayTimer = false)
  | .setupSockets id _ _ => ∀ entry : NbrEntry, conn.engine.nbrs[id]? = some entry →
    entry.nbr.state = .present ∧ entry.nbr.initdelayTimer = false ∧ (conn.links id).pending = false
  | _ => True

/-! ### One neighbor -/

/-- The init delay timer is pending only without a session and without a connection in progress, a
connection is in progress only without a session, and all three only in the active role. -/
structure Nbr.Calm (active pending : Bool) (nbr : Nbr) : Prop where
  delayed : nbr.initdelayTimer = true → nbr.state = .present ∧ pending = false ∧ active = true
  connecting : pending = true → nbr.state = .present ∧ active = true
  opensent : nbr.state = .opensent → active = true

section Neighbor

variable {active pending : Bool} {nbr nbr' : Nbr} {ldpe ldpe' : Ldpe}

theorem Nbr.Calm.congr (calm : nbr.Calm active pending) (state : nbr'.state = nbr.state)
    (timer : nbr'.initdelayTimer = true → nbr.initdelayTimer = true) : nbr'.Calm active pending where
  delayed waits := state ▸ calm.delayed (timer waits)
  connecting waits := state ▸ calm.connecting waits
  opensent waits := calm.opensent (state ▸ waits)

/-- Of a neighbor with a session nothing else is under way. -/
theorem Nbr.Calm.idle (calm : nbr.Calm active pending) (session : nbr.state ≠ .present) :
    nbr.initdelayTimer = false ∧ pending = false :=
  ⟨Bool.eq_false_iff.mpr fun waits => session (calm.delayed waits).1,
    Bool.eq_false_iff.mpr fun waits => session (calm.connecting waits).1⟩

/-- A session goes on to another state. -/
theorem Nbr.Calm.move (calm : nbr.Calm active pending) (session : nbr.state ≠ .present)
    (timer : nbr'.initdelayTimer = nbr.initdelayTimer) (state : nbr'.state ≠ .opensent) :
    nbr'.Calm active pending := by
  obtain ⟨idle, quiet⟩ := calm.idle session
  refine ⟨fun waits => ?_, fun waits => ?_, fun waits => absurd waits state⟩
  · cases (timer.trans idle).symm.trans waits
  · cases quiet.symm.trans waits

theorem fsmStep_initdelayTimer {event : NbrEvent} (step : FsmStep ldpe event ldpe') :
    ldpe'.nbr.initdelayTimer = ldpe.nbr.initdelayTimer := by
  cases step with
  | ignored | matchAdj | initSent | rstKtimeout | rstKtimer | stays | close => rfl
  | passiveInit state writes | sessionEst state writes | connectSetup state writes
  | keepaliveSend state writes =>
    rw [writes.nbr]
    rfl

theorem Nbr.Calm.nbrFsm (calm : ldpe.nbr.Calm active pending) {event : NbrEvent}
    (other : event ∉ [NbrEvent.matchAdj, .connectUp, .initSent]) :
    (nbrFsm ldpe event).nbr.Calm active pending := by
  have step := nbrFsm_step ldpe event
  have timer := fsmStep_initdelayTimer step
  have session {state : NbrState} (now : ldpe.nbr.state = state) (different : state ≠ .present) :
      ldpe.nbr.state ≠ .present := now ▸ different
  generalize Ldpd.nbrFsm ldpe event = ldpe' at step timer ⊢
  cases step with
  | ignored => exact calm
  | matchAdj | connectSetup | initSent => exact absurd other (by decide)
  | passiveInit state writes | keepaliveSend state writes | sessionEst state writes =>
    refine calm.move (session state (by decide)) timer ?_
    rw [writes.nbr]
    show _ = NbrState.opensent → False
    intro same
    cases same
  | rstKtimeout | rstKtimer => exact calm.congr rfl fun waits => waits
  | stays => exact calm.congr rfl fun waits => waits
  | close present =>
    refine calm.move present timer ?_
    show NbrState.present = .opensent → False
    intro same
    cases same

theorem machineRules_calm : MachineRules fun ldpe => ldpe.nbr.Calm active pending where
  unwritten _ _ writes calm := calm.congr (by rw [writes.nbr]) (by rw [writes.nbr]; exact id)
  quiet ldpe event quiet calm := by
    refine calm.nbrFsm fun other => ?_
    revert quiet other
    cases event with
    | _ => decide

theorem sessionRules_calm : SessionRules fun ldpe => ldpe.nbr.Calm active pending := by
  refine machineRules_calm.sessionRules (fun ldpe calm state => ?_) (fun _ _ calm => calm)
    (fun ldpe sess _ calm => ?_) (fun _ calm => calm.nbrFsm (by decide)) (fun _ _ _ _ calm => calm)
    fun _ _ calm _ => calm.congr rfl fun waits => waits
  · have session : (nbrStartIdtimer ldpe).nbr.state ≠ .present := by
      show ldpe.nbr.state ≠ .present
      rw [state]
      decide
    have quiet := (calm.idle session).2
    rw [nbrFsm_close session]
    refine ⟨fun _ => ⟨rfl, quiet, calm.opensent state⟩, fun waits => ?_, fun waits => ?_⟩
    · cases quiet.symm.trans waits
    · cases waits
  · rw [finishInit]
    refine Nbr.Calm.nbrFsm ?_ (by decide)
    exact calm.congr rfl fun waits => waits

/-- Handlers that take up no connection. -/
theorem Nbr.Calm.nbrInput (calm : ldpe.nbr.Calm active pending) {input : NbrInput}
    (apart : input.connects = false) (leads : nbrInput ldpe input = some ldpe') :
    ldpe'.nbr.Calm active pending := by
  refine property_nbrInput sessionRules_calm machineRules_calm
    (fun _ _ _ _ _ _ timer calm => calm.congr rfl timer) (fun taken => ?_) calm leads
  rw [apart] at taken
  cases taken

/-- A connection is taken up in the passive role, or before there is a role. -/
theorem Nbr.Calm.sessionAccept (calm : ldpe.nbr.Calm active pending)
    (quiet : ldpe.nbr.initdelayTimer = false ∧ pending = false) (admitted : Bool) :
    (sessionAccept ldpe admitted).nbr.Calm active pending := by
  rw [Ldpd.sessionAccept]
  split
  case isFalse => exact calm
  rename_i taken
  have step := nbrFsm_step (ldpe.updateNbr fun nbr => { nbr with tcp := some {} }) .matchAdj
  have timer := (fsmStep_initdelayTimer step).trans quiet.1
  have state : (Ldpd.nbrFsm (ldpe.updateNbr fun nbr => { nbr with tcp := some {} })
      .matchAdj).nbr.state = .initial := by
    have row : nbrFsmRow (ldpe.updateNbr fun nbr => { nbr with tcp := some {} }).nbr.state .matchAdj =
        some ⟨[.present], .matchAdj, .nothing, some .initial⟩ := by
      show nbrFsmRow ldpe.nbr.state .matchAdj = _
      rw [taken.1]
      rfl
    rw [nbrFsm_of_row row (by decide)]
    rfl
  refine ⟨fun waits => ?_, fun waits => ?_, fun waits => ?_⟩
  · cases timer.symm.trans waits
  · cases quiet.2.symm.trans waits
  · cases state.symm.trans waits

end Neighbor

/-! ### The table -/

/-- All neighbors are calm, and all that has been logged is in order. -/
structure ConnEngine.Calm (conn : ConnEngine) : Prop where
  fits : conn.engine.Fits
  nbrs : ∀ (id : InAddr) (entry : NbrEntry), conn.engine.nbrs[id]? = some entry →
    entry.nbr.Calm (conn.links id).active (conn.links id).pending
  sockets : ∀ id, (conn.links id).fd = true → (conn.links id).pending = true
  attempts : ∀ attempt ∈ conn.attempts, attempt.proper
  ups : ∀ state ∈ conn.ups, state = .present

/-- A neighbor for which a connection may be started. -/
structure ConnEngine.Ready (conn : ConnEngine) (id : InAddr) (entry : NbrEntry) : Prop where
  found : conn.engine.nbrs[id]? = some entry
  state : entry.nbr.state = .present
  timer : entry.nbr.initdelayTimer = false
  pending : (conn.links id).pending = false
  active : (conn.links id).active = true

namespace ConnEngine

section Table

variable {conn conn' : ConnEngine} {id : InAddr} {entry : NbrEntry}

theorem setLink_links (change : Link → Link) :
    (conn.setLink id change).links id = change (conn.links id) :=
  Function.update_self ..

theorem setLink_setLink (change change' : Link → Link) :
    (conn.setLink id change).setLink id change' = conn.setLink id fun link => change' (change link) := by
  simp only [ConnEngine.setLink, Function.update_self, Function.update_idem]

/-- A link changes, and its neighbor stays calm. -/
theorem Calm.setLink (calm : conn.Calm) {change : Link → Link}
    (socket : (change (conn.links id)).fd = true → (change (conn.links id)).pending = true)
    (kept : ∀ entry : NbrEntry, conn.engine.nbrs[id]? = some entry →
      entry.nbr.Calm (change (conn.links id)).active (change (conn.links id)).pending) :
    (conn.setLink id change).Calm := by
  refine ⟨calm.fits, fun other entry found => ?_, fun other => ?_, calm.attempts, calm.ups⟩
  · rw [ConnEngine.setLink]
    by_cases same : other = id
    · subst same
      simp only [Function.update_self]
      exact kept entry found
    · simp only [Function.update_of_ne same]
      exact calm.nbrs other entry found
  · rw [ConnEngine.setLink]
    by_cases same : other = id
    · subst same
      simp only [Function.update_self]
      exact socket
    · simp only [Function.update_of_ne same]
      exact calm.sockets other

/-- The engine makes a step in which no neighbor takes up a connection. -/
theorem Calm.inner (calm : conn.Calm) {input : LdpeInput}
    (quiet : ∀ id nbr, input = .nbr id nbr → nbr.connects = false)
    (other : ∀ id af dsTlv pending, input ≠ .nbrNew id af dsTlv pending)
    (leads : conn.inner input = some conn') : conn'.Calm := by
  obtain ⟨engine', step, rfl⟩ := Option.map_eq_some_iff.mp leads
  refine ⟨calm.fits.step step, ?_, calm.sockets, calm.attempts, calm.ups⟩
  -- What is left to show for the neighbor that the step is about.
  have stored {id : InAddr} {entry : NbrEntry}
      (kept : entry.nbr.Calm (conn.links id).active (conn.links id).pending) (other : InAddr)
      (entry' : NbrEntry) (found : (conn.engine.nbrs.insert id entry)[other]? = some entry') :
      entry'.nbr.Calm (conn.links other).active (conn.links other).pending := by
    rw [Tree.getElem?_insert] at found
    split at found
    · rename_i same
      subst same
      cases found
      exact kept
    · exact calm.nbrs other entry' found
  cases engineStep_of_ldpeStep step with
  | idle | conf => exact calm.nbrs
  | nbrNew af dsTlv pending => exact absurd rfl (other _ af dsTlv pending)
  | nbrDel present =>
    intro other entry' found
    rw [Tree.getElem?_erase] at found
    split at found
    · cases found
    · rename_i different
      rw [store_nbrs, if_neg different] at found
      exact calm.nbrs other entry' found
  | nbr present handled =>
    have kept := Nbr.Calm.nbrInput (calm.nbrs _ _ present) (quiet _ _ rfl) handled
    exact stored kept
  | add present =>
    have kept := calm.nbrs _ _ present
    exact stored kept
  | addEnd present oper list returned =>
    have kept := returnedState_of_keeps (keeps_sendLabelmessage machineRules_calm.unwritten
      (fun _ calm => calm.nbrFsm (by decide)) _ _ _) (calm.nbrs _ _ present) returned
    exact stored kept
  | @notificationSend imsg fuel id entry present oper nm =>
    have writes := writes_sendNotificationFull (conn.engine.view id entry) nm
    have kept : (sendNotificationFull (conn.engine.view id entry) nm).nbr.Calm
        (conn.links id).active (conn.links id).pending := by
      rw [writes.nbr]
      exact calm.nbrs id entry present
    exact stored kept

/-- A step about one neighbor that leaves it calm, whatever it is. -/
theorem Calm.nbr (calm : conn.Calm) (found : conn.engine.nbrs[id]? = some entry) {input : NbrInput}
    (leads : conn.inner (.nbr id input) = some conn') : ∃ ldpe',
    nbrInput (conn.engine.view id entry) input = some ldpe' ∧
      conn' = { conn with engine := conn.engine.store id entry ldpe' } ∧
        (ldpe'.nbr.Calm (conn.links id).active (conn.links id).pending → conn'.Calm) := by
  obtain ⟨engine', step, rfl⟩ := Option.map_eq_some_iff.mp leads
  have handled : (nbrInput (conn.engine.view id entry) input).map (conn.engine.store id entry) =
      some engine' := by
    have unfolded : ldpeNbrStep conn.engine id input = some engine' := step
    rw [ldpeNbrStep, found] at unfolded
    exact unfolded
  obtain ⟨ldpe', stepped, rfl⟩ := Option.map_eq_some_iff.mp handled
  refine ⟨ldpe', stepped, rfl, fun kept => ⟨calm.fits.step step, fun other entry' present => ?_,
    calm.sockets, calm.attempts, calm.ups⟩⟩
  rw [store_nbrs] at present
  split at present
  · rename_i same
    subst same
    cases present
    exact kept
  · exact calm.nbrs other entry' present

/-- A link that has no connection in progress changes its socket. -/
theorem Ready.setLink (ready : conn.Ready id entry) {change : Link → Link}
    (active : (change (conn.links id)).active = (conn.links id).active)
    (pending : (change (conn.links id)).pending = (conn.links id).pending) :
    (conn.setLink id change).Ready id entry := by
  refine ⟨ready.found, ready.state, ready.timer, ?_, ?_⟩
  · rw [setLink_links, pending]
    exact ready.pending
  · rw [setLink_links, active]
    exact ready.active

/-- A handler of a neighbor that is gone does nothing. -/
theorem inner_absent (absent : conn.engine.nbrs[id]? = none) (input : NbrInput) :
    conn.inner (.nbr id input) = some conn := by
  have stays : ldpeStep conn.engine (.nbr id input) = some conn.engine := by
    show ldpeNbrStep conn.engine id input = _
    rw [ldpeNbrStep, absent]
  rw [ConnEngine.inner, stays]
  rfl

/-- The connection is up that a neighbor has waited for, and its socket is taken over. -/
theorem Calm.connectUp
    (calm : (conn.setLink id fun link => { link with fd := false }).Calm)
    (ready : conn.Ready id entry) (leads : conn.connectUp id = some conn') : conn'.Calm := by
  rw [ConnEngine.connectUp, ready.found] at leads
  simp only [ready.state, decide_true, Bool.not_true, Bool.false_and] at leads
  have logged : Calm { (conn.setLink id fun link => { link with fd := false }) with
      ups := conn.ups ++ [.present] } := by
    refine ⟨calm.fits, calm.nbrs, calm.sockets, calm.attempts, ?_⟩
    rw [List.forall_mem_append, List.forall_mem_singleton]
    exact ⟨calm.ups, rfl⟩
  obtain ⟨ldpe', stepped, -, kept⟩ := logged.nbr ready.found leads
  have still : (conn.setLink id fun link => { link with fd := false }).Ready id entry :=
    ready.setLink rfl rfl
  refine kept ?_
  cases stepped
  have timer := (fsmStep_initdelayTimer (nbrFsm_step (conn.engine.view id entry) .connectUp)).trans
    ready.timer
  refine ⟨fun waits => ?_, fun waits => ?_, fun _ => still.active⟩
  · cases timer.symm.trans waits
  · cases still.pending.symm.trans waits

/-- A connection is started for a neighbor that is ready. -/
theorem Calm.establish (calm : conn.Calm) (ready : conn.Ready id entry) {outcome : ConnectOutcome}
    (leads : conn.establish id outcome = some conn') : conn'.Calm := by
  rw [ConnEngine.establish, ready.found] at leads
  have closed : entry.nbr.tcp = none := by
    have fits := calm.fits id entry ready.found
    rw [Nbr.Fits, ready.state] at fits
    exact fits.1
  have unused : (conn.links id).fd = false := by
    refine Bool.eq_false_iff.mpr fun used => ?_
    cases ready.pending.symm.trans (calm.sockets id used)
  have logged : Calm { conn with
      attempts := conn.attempts ++
        [Attempt.mk entry.nbr.state entry.nbr.tcp.isSome (conn.links id).pending
          (conn.links id).fd] } := by
    refine ⟨calm.fits, calm.nbrs, calm.sockets, ?_, calm.ups⟩
    rw [List.forall_mem_append, List.forall_mem_singleton]
    exact ⟨calm.attempts, ready.state, by rw [closed]; rfl, ready.pending, unused⟩
  dsimp only at leads
  generalize conn.attempts ++ _ = attempts at logged leads
  have still : ConnEngine.Ready { conn with attempts } id entry :=
    ⟨ready.found, ready.state, ready.timer, ready.pending, ready.active⟩
  have unlinked : Calm (ConnEngine.setLink { conn with attempts } id fun link =>
      { link with fd := false }) := by
    refine logged.setLink (fun used => ?_) fun entry' found => ?_
    · cases used
    · exact calm.nbrs id entry' found
  cases outcome with
  | failed =>
    cases leads
    exact unlinked
  | inProgress =>
    cases leads
    refine logged.setLink (fun _ => rfl) fun entry' found => ?_
    cases ready.found.symm.trans found
    refine ⟨fun waits => ?_, fun _ => ⟨ready.state, ready.active⟩, fun _ => ready.active⟩
    cases ready.timer.symm.trans waits
  | connected =>
    refine Calm.connectUp ?_ (still.setLink rfl rfl) leads
    rw [setLink_setLink]
    exact unlinked

/-- `nbr_stop_idtimer`, and what it leaves. -/
theorem Calm.stopIdtimer (calm : conn.Calm) (found : conn.engine.nbrs[id]? = some entry)
    (leads : conn.stopIdtimer id = some conn') : conn'.Calm ∧ conn'.links = conn.links ∧
      ∃ entry', conn'.engine.nbrs[id]? = some entry' ∧
        entry'.nbr = { entry.nbr with initdelayTimer := false } := by
  obtain ⟨ldpe', stepped, same, kept⟩ := calm.nbr found leads
  cases stepped
  refine ⟨kept ((calm.nbrs id entry found).congr rfl fun waits => ?_), by rw [same],
    { entry with nbr := { entry.nbr with initdelayTimer := false } }, ?_, rfl⟩
  · cases waits
  · rw [same]
    exact (store_nbrs ..).trans (if_pos rfl)

/-- `session_shutdown`, and what it leaves when no connection is in progress. -/
theorem Calm.shutdown (calm : conn.Calm) (found : conn.engine.nbrs[id]? = some entry)
    (idle : (conn.links id).pending = false) {status msgId : UInt32} {msgType : UInt16}
    (leads : conn.shutdown id status msgId msgType = some conn') : conn'.Calm ∧
      (conn'.links id).active = (conn.links id).active ∧ (conn'.links id).pending = false ∧
        ∃ entry', conn'.engine.nbrs[id]? = some entry' ∧ entry'.nbr.state = .present ∧
          entry'.nbr.initdelayTimer = entry.nbr.initdelayTimer := by
  have before := calm.nbrs id entry found
  rw [ConnEngine.shutdown, found] at leads
  dsimp only at leads
  split at leads
  · rename_i present
    cases leads
    have link : (conn.setLink id fun link => { link with pending := false }).links id =
        { conn.links id with pending := false } := setLink_links _
    refine ⟨calm.setLink (fun used => ?_) fun entry' known => ?_, by rw [link]; rfl, by rw [link],
      entry, found, present, rfl⟩
    · cases idle.symm.trans (calm.sockets id used)
    cases found.symm.trans known
    refine ⟨fun waits => ?_, fun waits => ?_, before.opensent⟩
    · exact ⟨present, rfl, (before.delayed waits).2.2⟩
    · cases waits
  · rename_i session
    obtain ⟨ldpe', stepped, same, kept⟩ := calm.nbr found leads
    have down := Nbr.Calm.nbrInput before rfl stepped
    cases stepped
    have writes : Writes _ (sessionShutdown (conn.engine.view id entry) status msgId msgType) :=
      sessionShutdown_eq session status msgId msgType
    refine ⟨kept down, by rw [same], by rw [same]; exact (before.idle session).2, _,
      by rw [same]; exact (store_nbrs ..).trans (if_pos rfl), ?_, ?_⟩
    · show (sessionShutdown _ _ _ _).nbr.state = _
      rw [writes.nbr]
      exact closeSession_state _
    · show (sessionShutdown _ _ _ _).nbr.initdelayTimer = _
      rw [writes.nbr]
      exact fsmStep_initdelayTimer (nbrFsm_step _ _)

/-- What goes on only with a neighbor that is there and fulfils a condition. -/
theorem guarded_cases {condition : Nbr → Bool} {next : ConnEngine → Option ConnEngine}
    (leads : conn.guarded id condition next = some conn') : conn' = conn ∨
      ∃ entry : NbrEntry, conn.engine.nbrs[id]? = some entry ∧ condition entry.nbr = true ∧
        next conn = some conn' := by
  rw [ConnEngine.guarded] at leads
  split at leads
  · exact .inl (Option.some.inj leads).symm
  · rename_i entry found
    split at leads
    · rename_i fulfilled
      exact .inr ⟨entry, found, fulfilled, leads⟩
    · exact .inl (Option.some.inj leads).symm

/-- The timer of a neighbor ends, and a connection is started. -/
theorem Calm.delayed (calm : conn.Calm) {outcome : ConnectOutcome}
    (leads : (conn.guarded id Nbr.initdelayTimer fun conn => do
      let conn ← conn.stopIdtimer id
      conn.establish id outcome) = some conn') : conn'.Calm := by
  obtain rfl | ⟨entry, found, waits, next⟩ := guarded_cases leads
  · exact calm
  obtain ⟨stopped, stops, starts⟩ := Option.bind_eq_some_iff.mp next
  obtain ⟨calm', links, entry', found', nbr⟩ := calm.stopIdtimer found stops
  obtain ⟨present, idle, active⟩ := (calm.nbrs id entry found).delayed waits
  refine calm'.establish ⟨found', ?_, ?_, ?_, ?_⟩ starts
  · rw [nbr]
    exact present
  · rw [nbr]
  · rw [links]
    exact idle
  · rw [links]
    exact active

/-- A neighbor is added, with a connection of its own that waits or without one. -/
theorem Calm.nbrNew (calm : conn.Calm) {af : Af} {dsTlv waiting : Bool} {laddr raddr : LdpdAddr}
    (leads : conn.inner (.nbrNew id af dsTlv waiting) = some conn') :
    (conn'.setLink id fun _ => { laddr, raddr }).Calm := by
  obtain ⟨engine', step, rfl⟩ := Option.map_eq_some_iff.mp leads
  have fits := calm.fits.step step
  have added : Ldpd.nbrNew conn.engine id af dsTlv waiting = some engine' := step
  rw [Ldpd.nbrNew] at added
  split at added
  · cases added
  cases added
  have fresh : (Nbr.fresh id af dsTlv).Calm (Link.active { laddr, raddr }) false := by
    refine ⟨fun waits => ?_, fun waits => ?_, fun waits => ?_⟩ <;> cases waits
  have accepted : Nbr.Calm (Link.active { laddr, raddr }) false
      (Ldpd.sessionAccept (conn.engine.view id ⟨.fresh id af dsTlv, fun _ => [], []⟩) waiting).nbr :=
    Nbr.Calm.sessionAccept fresh ⟨rfl, rfl⟩ waiting
  refine ⟨fits, fun other entry' found => ?_, fun other used => ?_, calm.attempts, calm.ups⟩
  · rw [ConnEngine.setLink] at found ⊢
    rw [store_nbrs] at found
    split at found
    · rename_i same
      subst same
      cases found
      simp only [Function.update_self]
      exact accepted
    · rename_i different
      simp only [Function.update_of_ne (Ne.symm different)]
      exact calm.nbrs other entry' found
  · rw [ConnEngine.setLink] at used ⊢
    by_cases same : other = id
    · subst same
      simp only [Function.update_self] at used
      cases used
    · simp only [Function.update_of_ne same] at used ⊢
      exact calm.sockets other used

/-- A neighbor goes, with its connection. -/
theorem Calm.nbrDel (calm : conn.Calm) (leads : conn.nbrDel id = some conn') : conn'.Calm := by
  rw [ConnEngine.nbrDel] at leads
  obtain ⟨deleted, step, rfl⟩ := Option.map_eq_some_iff.mp leads
  have kept : deleted.Calm := by
    refine calm.inner (fun _ _ same => ?_) (fun _ _ _ _ same => ?_) step <;> cases same
  refine kept.setLink (fun used => ?_) fun entry found => ?_
  · cases used
  exfalso
  obtain ⟨engine', step, rfl⟩ := Option.map_eq_some_iff.mp step
  cases step
  change (Ldpd.nbrDel conn.engine id).nbrs[id]? = some entry at found
  rw [Ldpd.nbrDel] at found
  split at found
  · rename_i absent
    cases absent.symm.trans found
  · rw [Tree.getElem?_erase, if_pos rfl] at found
    cases found

/-- `nbr_del` leaves nothing of an attempt that was given up before. -/
theorem nbrDel_setLink (conn : ConnEngine) (id : InAddr) :
    (conn.setLink id fun link => { link with pending := false }).nbrDel id = conn.nbrDel id := by
  rw [ConnEngine.nbrDel, ConnEngine.nbrDel, ConnEngine.inner, ConnEngine.inner, Option.map_map,
    Option.map_map]
  refine Option.map_congr fun engine _ => ?_
  simp only [Function.comp_apply, ConnEngine.setLink, Function.update_self, Function.update_idem]

/-- A neighbor loses its last adjacency, and its session or its connection in progress goes with it. -/
theorem Calm.adjDel (calm : conn.Calm) {notifStatus : UInt32}
    (leads : connStep conn (.adjDel id notifStatus) = some conn') : conn'.Calm := by
  obtain ⟨down, shuts, deletes⟩ := Option.bind_eq_some_iff.mp leads
  cases found : conn.engine.nbrs[id]? with
  | none =>
    rw [ConnEngine.shutdown, found] at shuts
    cases shuts
    exact calm.nbrDel deletes
  | some entry =>
    by_cases present : entry.nbr.state = .present
    · rw [ConnEngine.shutdown, found] at shuts
      dsimp only at shuts
      rw [if_pos present] at shuts
      cases shuts
      rw [nbrDel_setLink] at deletes
      exact calm.nbrDel deletes
    · have idle := ((calm.nbrs id entry found).idle present).2
      exact (calm.shutdown found idle shuts).1.nbrDel deletes

/-- `session_accept` takes a connection in the passive role. -/
theorem Calm.accept (calm : conn.Calm) (passive : (conn.links id).active = false) {admitted : Bool}
    (leads : conn.inner (.nbr id (.accept admitted)) = some conn') : conn'.Calm := by
  cases found : conn.engine.nbrs[id]? with
  | none =>
    rw [inner_absent found] at leads
    cases leads
    exact calm
  | some entry =>
    obtain ⟨ldpe', stepped, -, kept⟩ := calm.nbr found leads
    have before := calm.nbrs id entry found
    refine kept ?_
    cases stepped
    refine before.sessionAccept ⟨?_, ?_⟩ admitted
    · refine Bool.eq_false_iff.mpr fun waits => ?_
      cases passive.symm.trans (before.delayed waits).2.2
    · refine Bool.eq_false_iff.mpr fun waits => ?_
      cases passive.symm.trans (before.connecting waits).2

/-- A Hello starts a connection only for a neighbor that is ready. -/
theorem Calm.helloConnect (calm : conn.Calm) {outcome : ConnectOutcome}
    (leads : conn.helloConnect id outcome = some conn') : conn'.Calm := by
  obtain rfl | ⟨entry, found, fulfilled, next⟩ := guarded_cases leads
  · exact calm
  simp only [Bool.and_eq_true, decide_eq_true_eq, Bool.not_eq_true'] at fulfilled
  obtain ⟨⟨⟨state, timer⟩, active⟩, pending⟩ := fulfilled
  exact calm.establish ⟨found, state, timer, pending, active⟩ next

/-- Of a neighbor that is gone there is nothing to connect to. -/
theorem Calm.establish_ready (calm : conn.Calm)
    (ready : ∀ entry : NbrEntry, conn.engine.nbrs[id]? = some entry → conn.Ready id entry)
    {outcome : ConnectOutcome} (leads : conn.establish id outcome = some conn') : conn'.Calm := by
  cases found : conn.engine.nbrs[id]? with
  | none =>
    rw [ConnEngine.establish, found] at leads
    cases leads
    exact calm
  | some entry => exact calm.establish (ready entry found) leads

/-- What goes on in a session takes up no connection. -/
theorem Calm.session (calm : conn.Calm) {input : NbrInput}
    (leads : connStep conn (.session id input) = some conn') : conn'.Calm := by
  rw [Ldpd.connStep] at leads
  split at leads
  · rename_i inSession
    refine calm.inner (fun _ nbr same => ?_) (fun _ _ _ _ same => ?_) leads
    · cases same
      exact NbrInput.connects_of_inSession inSession
    · cases same
  · cases leads

/-- `recv_hello` stops the timer when the configuration of the sender is new. -/
theorem Calm.hello (calm : conn.Calm) {newConf : Bool} {outcome : ConnectOutcome}
    (leads : connStep conn (.hello id newConf outcome) = some conn') : conn'.Calm := by
  rw [Ldpd.connStep] at leads
  split at leads
  · obtain ⟨stopped, stops, starts⟩ := Option.bind_eq_some_iff.mp leads
    refine Calm.helloConnect ?_ starts
    refine calm.inner (fun _ _ same => ?_) (fun _ _ _ _ same => ?_) stops
    · cases same
      rfl
    · cases same
  · exact calm.helloConnect leads

/-- The outcome of a connection in progress is read: its socket is closed or taken over. -/
theorem Calm.connectCb (calm : conn.Calm) {result : SoError} (read : result ≠ .unread)
    (leads : connStep conn (.connectCb id result) = some conn') : conn'.Calm := by
  rw [Ldpd.connStep] at leads
  obtain rfl | ⟨entry, found, waits, next⟩ := guarded_cases leads
  · exact calm
  have before := calm.nbrs id entry found
  obtain ⟨state, active⟩ := before.connecting waits
  have timer : entry.nbr.initdelayTimer = false := by
    refine Bool.eq_false_iff.mpr fun delayed => ?_
    cases waits.symm.trans (before.delayed delayed).2.1
  have ended : ((conn.setLink id fun link => { link with pending := false }).setLink id fun link =>
      { link with fd := false }).Calm := by
    rw [setLink_setLink]
    refine calm.setLink (fun used => ?_) fun entry' known => ?_
    · cases used
    · cases found.symm.trans known
      refine ⟨fun delayed => ?_, fun pending => ?_, before.opensent⟩
      · cases timer.symm.trans delayed
      · cases pending
  cases result with
  | unread => exact absurd rfl read
  | failed =>
    cases next
    exact ended
  | connected =>
    refine Calm.connectUp ended ⟨found, state, timer, ?_, ?_⟩ next
    · rw [setLink_links]
    · rw [setLink_links]
      exact active

/-- The parameters of a neighbor change: its session goes, and a connection is started. -/
theorem Calm.nbrp (calm : conn.Calm) {outcome : ConnectOutcome} (apart : Apart conn (.nbrp id outcome))
    (leads : connStep conn (.nbrp id outcome) = some conn') : conn'.Calm := by
  rw [Ldpd.connStep] at leads
  obtain ⟨down, shuts, starts⟩ := Option.bind_eq_some_iff.mp leads
  cases found : conn.engine.nbrs[id]? with
  | none =>
    rw [ConnEngine.shutdown, found] at shuts
    cases shuts
    split at starts
    · refine calm.establish_ready (fun entry known => ?_) starts
      cases found.symm.trans known
    · cases starts
      exact calm
  | some entry =>
    obtain ⟨calm', active, pending, entry', found', state, timer⟩ := calm.shutdown found apart.1 shuts
    split at starts
    · rename_i role
      have stopped := timer.trans (apart.2 (active ▸ role) entry found)
      exact calm'.establish ⟨found', state, stopped, pending, role⟩ starts
    · cases starts
      exact calm'

/-- Sockets are set up again for a neighbor without a session, a connection in progress and a timer. -/
theorem Calm.setupSockets (calm : conn.Calm) {laddr : LdpdAddr} {outcome : ConnectOutcome}
    (apart : Apart conn (.setupSockets id laddr outcome))
    (leads : connStep conn (.setupSockets id laddr outcome) = some conn') : conn'.Calm := by
  rw [Ldpd.connStep] at leads
  have moved : (conn.setLink id fun link => { link with laddr }).Calm := by
    refine calm.setLink (calm.sockets id) fun entry found => ?_
    obtain ⟨state, timer, pending⟩ := apart entry found
    refine ⟨fun waits => ?_, fun waits => ?_, fun waits => ?_⟩
    · cases timer.symm.trans waits
    · cases pending.symm.trans waits
    · cases state.symm.trans waits
  split at leads
  · rename_i role
    refine moved.establish_ready (fun entry found => ?_) leads
    obtain ⟨state, timer, pending⟩ := apart entry found
    refine ⟨found, state, timer, ?_, role⟩
    rw [setLink_links]
    exact pending
  · cases leads
    exact moved

/-- One handler, when attempts are apart. -/
theorem Calm.connStep (calm : conn.Calm) {input : ConnInput} (apart : Apart conn input)
    (leads : connStep conn input = some conn') : conn'.Calm := by
  cases input with
  | conf | imsg =>
    refine calm.inner (fun _ _ same => ?_) (fun _ _ _ _ same => ?_) leads <;> cases same
  | nbrNew id af dsTlv waiting laddr raddr =>
    obtain ⟨added, step, rfl⟩ := Option.map_eq_some_iff.mp leads
    exact calm.nbrNew step
  | adjDel id notifStatus => exact calm.adjDel leads
  | session id input => exact calm.session leads
  | accept id admitted =>
    rw [Ldpd.connStep] at leads
    split at leads
    · cases leads
      exact calm
    · rename_i passive
      exact calm.accept (Bool.eq_false_iff.mpr passive) leads
  | shutdown id status msgId msgType =>
    cases found : conn.engine.nbrs[id]? with
    | none =>
      rw [Ldpd.connStep, ConnEngine.shutdown, found] at leads
      cases leads
      exact calm
    | some entry => exact (calm.shutdown found apart leads).1
  | hello id newConf outcome => exact calm.hello leads
  | idtimer id outcome | stopInitBackoff id outcome => exact calm.delayed leads
  | connectCb id result => exact calm.connectCb apart leads
  | nbrp id outcome => exact calm.nbrp apart leads
  | setupSockets id laddr outcome => exact calm.setupSockets apart leads

end Table

/-- The engine at its start. -/
def start (conf : LdpeConf) : ConnEngine where
  engine := { conf }
  links _ := { laddr := .v4 0, raddr := .v4 0 }

end ConnEngine

/-! ### Runs -/

/-- In a run in which attempts are apart every connection is started for a neighbor in state PRESENT that
has no connection, none in progress and no open socket, and every connection comes up in that state. -/
theorem attempts_apart (conf : LdpeConf) {conn : ConnEngine}
    (reached : Run.Reaches connStep Apart (.start conf) conn) :
    (∀ attempt ∈ conn.attempts, attempt.proper) ∧ ∀ state ∈ conn.ups, state = .present := by
  have calm : conn.Calm := by
    refine reached.invariant ConnEngine.Calm
      (fun conn input conn' calm apart leads => calm.connStep apart leads) ?_
    refine ⟨fun id entry found => ?_, fun id entry found => ?_, fun id used => ?_,
      fun attempt member => ?_, fun state member => ?_⟩
    · cases Std.ExtTreeMap.getElem?_empty.symm.trans found
    · cases Std.ExtTreeMap.getElem?_empty.symm.trans found
    · cases used
    · cases member
    · cases member
  exact ⟨calm.attempts, calm.ups⟩

/-- A fatal notification of that neighbor. -/
def fatalNotification : List UInt8 :=
  [0, 1, 0, 28, 10, 0, 0, 2, 0, 0, 0, 1, 0, 18, 0, 0, 0, 1, 3, 0, 0, 10, 0x80, 0, 0, 10, 0, 0, 0, 0,
    0, 0]

/-- The first connection fails, the second comes up, the neighbor refuses the session, and its last
adjacency goes while the third is in progress. -/
def retriedNeighbor : List ConnInput :=
  [.nbrNew 0x0a000002 .inet false false (.v4 0x0a000009) (.v4 0x0a000002),
    .hello 0x0a000002 false .inProgress, .connectCb 0x0a000002 .failed,
    .hello 0x0a000002 false .inProgress, .connectCb 0x0a000002 .connected,
    .session 0x0a000002 (.read 4 (.data fatalNotification)), .idtimer 0x0a000002 .inProgress,
    .adjDel 0x0a000002 sShutdown]

theorem attempts_apart_retriedNeighbor : ∃ conn, retriedNeighbor.foldlM connStep (.start plainConf) =
    some conn ∧ conn.attempts.length = 3 ∧ conn.ups = [.present] ∧
      (∀ attempt ∈ conn.attempts, attempt.proper) ∧ ∀ state ∈ conn.ups, state = .present := by
  have evaluated : ((retriedNeighbor.foldlM connStep (.start plainConf)).map fun conn =>
      (conn.attempts.length, conn.ups)) = some (3, [.present]) := by decide +kernel
  obtain ⟨conn, leads, logged⟩ := Option.map_eq_some_iff.mp evaluated
  have reached : Run.Reaches connStep Apart (.start plainConf) conn := by
    refine Run.Reaches.start.foldlM retriedNeighbor (fun state event member => ?_) leads
    rw [retriedNeighbor] at member
    simp only [List.mem_cons, List.not_mem_nil, or_false] at member
    obtain rfl | rfl | rfl | rfl | rfl | rfl | rfl | rfl := member
    case inr.inr.inl | inr.inr.inr.inr.inl =>
      intro unread
      cases unread
    all_goals trivial
  obtain ⟨attempts, ups⟩ := Prod.mk.inj logged
  exact ⟨conn, leads, attempts, ups, attempts_apart plainConf reached⟩

/-- A neighbor to which the engine connects. -/
def activeNeighbor : List ConnInput :=
  [.nbrNew 0x0a000002 .inet false false (.v4 0x0a000009) (.v4 0x0a000002),
    .hello 0x0a000002 false .connected]

/-- The neighbor refuses the session, and its parameters change before the init delay timer ends. -/
def refusedNeighbor : List ConnInput :=
  activeNeighbor ++ [.session 0x0a000002 (.read 4 (.data fatalNotification)),
    .nbrp 0x0a000002 .inProgress, .idtimer 0x0a000002 .inProgress]

/-- The timer starts a second connection while the first is in progress. -/
theorem refusedNeighbor_twice : ∃ conn, refusedNeighbor.foldlM connStep (.start plainConf) = some conn ∧
    ¬∀ attempt ∈ conn.attempts, attempt.proper := by
  have evaluated : (refusedNeighbor.foldlM connStep (.start plainConf)).map ConnEngine.attempts =
      some [⟨.present, false, false, false⟩, ⟨.present, false, false, false⟩,
        ⟨.present, false, true, true⟩] := by decide +kernel
  obtain ⟨conn, leads, attempts⟩ := Option.map_eq_some_iff.mp evaluated
  refine ⟨conn, leads, fun all => ?_⟩
  have last := all ⟨.present, false, true, true⟩ (by rw [attempts]; decide)
  cases last.2.2.1

end Ldpd
