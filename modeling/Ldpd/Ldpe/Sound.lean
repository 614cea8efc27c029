/-
This file proves that a neighbor's state, its connection, its timers and what it has
negotiated with the peer always fit together, whatever happens to the engine and in
whatever order.
-/

import Ldpd.Ldpe.Steps

namespace Ldpd

open Code

/-! ### What fits together -/

/-- What a session has negotiated is within bounds. -/
def Nbr.Negotiated (nbr : Nbr) : Prop :=
  256 ≤ nbr.maxPduLen ∧ nbr.maxPduLen ≤ ldpMaxLen ∧ minKeepalive ≤ nbr.keepalive

/-- A neighbor whose state, connection, timers and parameters fit together. -/
structure Nbr.Sound (nbr : Nbr) : Prop where
  connected : nbr.tcp ≠ none ↔ nbr.state ∈ nbrStaSession
  starting : nbr.initTimeout = true ↔ nbr.state ∈ [NbrState.initial, .openrec, .opensent]
  sending : nbr.keepaliveTimer = true → nbr.state = .oper
  expecting : nbr.keepaliveTimeout = true → nbr.state ∈ [NbrState.openrec, .oper]
  running : nbr.state = .oper → nbr.keepaliveTimer = true ∧ nbr.keepaliveTimeout = true
  negotiated : nbr.state ∈ [NbrState.openrec, .oper] → nbr.Negotiated

/-- The same, state by state. -/
def Nbr.Fits (nbr : Nbr) : Prop :=
  match nbr.state with
  | .present =>
    nbr.tcp = none ∧ nbr.initTimeout = false ∧ nbr.keepaliveTimer = false ∧
      nbr.keepaliveTimeout = false
  | .initial | .opensent =>
    nbr.tcp ≠ none ∧ nbr.initTimeout = true ∧ nbr.keepaliveTimer = false ∧
      nbr.keepaliveTimeout = false
  | .openrec =>
    nbr.tcp ≠ none ∧ nbr.initTimeout = true ∧ nbr.keepaliveTimer = false ∧ nbr.Negotiated
  | .oper =>
    nbr.tcp ≠ none ∧ nbr.initTimeout = false ∧ nbr.keepaliveTimer = true ∧
      nbr.keepaliveTimeout = true ∧ nbr.Negotiated

theorem Nbr.Fits.sound {nbr : Nbr} (fits : nbr.Fits) : nbr.Sound := by
  cases state : nbr.state with
  | _ =>
    rw [Nbr.Fits, state] at fits
    constructor <;> simp_all [nbrStaSession]

/-- The configured keepalives are those the parser takes. -/
def Ldpe.Parsed (ldpe : Ldpe) : Prop :=
  (∀ keepalive, ldpe.nbrKeepalive = some keepalive → minKeepalive ≤ keepalive) ∧
    ∀ af, minKeepalive ≤ ldpe.afKeepalive af

/-- The engine, seen from a neighbor, is as it should be. -/
def Ldpe.Fits (ldpe : Ldpe) : Prop :=
  ldpe.Parsed ∧ ldpe.nbr.Fits

/-! ### The state machine -/

section Machine

variable {ldpe ldpe' : Ldpe}

theorem unwritten_fits : Unwritten Ldpe.Fits := by
  rintro ldpe _ ⟨_, _, _, rfl⟩ fits
  exact fits

/-- What a neighbor in a known state is like. -/
theorem Ldpe.Fits.at (fits : ldpe.Fits) {state : NbrState} (now : ldpe.nbr.state = state) :
    { ldpe.nbr with state }.Fits := by
  subst now
  exact fits.2

/-- Entering no new state changes nothing: the timer is as it should be already. -/
theorem Ldpe.Fits.nbrEnter_none (fits : ldpe.Fits) : nbrEnter ldpe none = ldpe := by
  have timer : decide (ldpe.nbr.state ≠ .oper ∧ ldpe.nbr.state ≠ .present) =
      ldpe.nbr.initTimeout := by
    cases state : ldpe.nbr.state with
    | _ =>
      have now := fits.at state
      simp only [Nbr.Fits] at now
      simp [now]
  have same : { ldpe.nbr with
      state := ldpe.nbr.state
      initTimeout := decide (ldpe.nbr.state ≠ .oper ∧ ldpe.nbr.state ≠ .present) } = ldpe.nbr := by
    rw [timer]
  exact congrArg (fun nbr => { ldpe with nbr }) same

/-- A timer that is pending already may be started again. -/
theorem Ldpe.Fits.restart (fits : ldpe.Fits) (state : ldpe.nbr.state = .oper) {change : Nbr → Nbr}
    (same : change { ldpe.nbr with keepaliveTimer := true, keepaliveTimeout := true } =
      { ldpe.nbr with keepaliveTimer := true, keepaliveTimeout := true }) :
    (ldpe.updateNbr change) = ldpe := by
  obtain ⟨_, _, timer, timeout, _⟩ := fits.at state
  have now : { ldpe.nbr with keepaliveTimer := true, keepaliveTimeout := true } = ldpe.nbr :=
    congrArg₂ (fun keepaliveTimer keepaliveTimeout =>
      { ldpe.nbr with keepaliveTimer, keepaliveTimeout }) timer.symm timeout.symm
  rw [now] at same
  exact congrArg (fun nbr => { ldpe with nbr }) same

theorem Ldpe.Fits.fsmStep (fits : ldpe.Fits) {event : NbrEvent} (step : FsmStep ldpe event ldpe')
    (adjacent : event ≠ .matchAdj) (negotiated : event = .initRcvd → ldpe.nbr.Negotiated) :
    ldpe'.Fits := by
  have parsed := fits.1
  cases step with
  | ignored => exact fits
  | matchAdj => exact absurd rfl adjacent
  | passiveInit state writes =>
    obtain ⟨tcp, _, timer, _⟩ := fits.at state
    exact unwritten_fits _ _ writes ⟨parsed, tcp, rfl, timer, negotiated rfl⟩
  | sessionEst state writes =>
    obtain ⟨tcp, _, _, agreed⟩ := fits.at state
    exact unwritten_fits _ _ writes ⟨parsed, tcp, rfl, rfl, rfl, agreed⟩
  | connectSetup state writes =>
    obtain ⟨_, _, timer, timeout⟩ := fits.at state
    exact unwritten_fits _ _ writes ⟨parsed, Option.some_ne_none _, rfl, timer, timeout⟩
  | initSent state =>
    obtain ⟨tcp, _, timer, timeout⟩ := fits.at state
    exact ⟨parsed, tcp, rfl, timer, timeout⟩
  | keepaliveSend state writes =>
    obtain ⟨tcp, _, timer, _⟩ := fits.at state
    exact unwritten_fits _ _ writes ⟨parsed, tcp, rfl, timer, negotiated rfl⟩
  | rstKtimeout state =>
    rw [fits.nbrEnter_none, fits.restart state rfl]
    exact fits
  | rstKtimer state =>
    rw [fits.nbrEnter_none, fits.restart state rfl]
    exact fits
  | stays starting =>
    rw [fits.nbrEnter_none]
    exact fits
  | close session => exact ⟨parsed, rfl, rfl, rfl, rfl⟩

theorem Ldpe.Fits.nbrFsm (fits : ldpe.Fits) {event : NbrEvent} (adjacent : event ≠ .matchAdj)
    (uninitiated : event ≠ .initRcvd) : (nbrFsm ldpe event).Fits :=
  fits.fsmStep (nbrFsm_step ldpe event) adjacent fun same => absurd same uninitiated

theorem Ldpe.Fits.sendNotificationFull (fits : ldpe.Fits) (nm : NotifyMsg) :
    (sendNotificationFull ldpe nm).Fits :=
  unwritten_fits _ _ (writes_sendNotificationFull ldpe nm) fits

/-- A change of the neighbor that has nothing to do with any of this. -/
theorem Ldpe.Fits.updateNbr (fits : ldpe.Fits) {change : Nbr → Nbr}
    (same : (change ldpe.nbr).Fits ↔ ldpe.nbr.Fits) : (ldpe.updateNbr change).Fits :=
  ⟨fits.1, same.mpr fits.2⟩

end Machine

/-! ### Reading from the connection -/

theorem machineRules_fits : MachineRules Ldpe.Fits where
  unwritten := unwritten_fits
  quiet ldpe event listed fits := by
    have other : event ≠ .matchAdj ∧ event ≠ .initRcvd := by
      constructor
      · rintro rfl
        exact absurd listed (by decide)
      · rintro rfl
        exact absurd listed (by decide)
    exact fits.nbrFsm other.1 other.2

/-- A neighbor may agree on other parameters in any state. -/
theorem Ldpe.Fits.negotiate {ldpe : Ldpe} (fits : ldpe.Fits) {keepalive maxPduLen : UInt16}
    (agreed : { ldpe.nbr with keepalive, maxPduLen }.Negotiated) :
    (ldpe.updateNbr fun nbr => { nbr with keepalive, maxPduLen }).Fits := by
  refine ⟨fits.1, ?_⟩
  have now := fits.2
  simp only [Ldpe.updateNbr]
  rw [Nbr.Fits] at now ⊢
  cases state : ldpe.nbr.state with
  | present | initial | opensent =>
    rw [state] at now
    exact now
  | openrec =>
    rw [state] at now
    exact ⟨now.1, now.2.1, now.2.2.1, agreed⟩
  | oper =>
    rw [state] at now
    exact ⟨now.1, now.2.1, now.2.2.1, now.2.2.2.1, agreed⟩

theorem Ldpe.Parsed.nbrGetKeepalive {ldpe : Ldpe} (parsed : ldpe.Parsed) :
    minKeepalive ≤ nbrGetKeepalive ldpe := by
  rw [Ldpd.nbrGetKeepalive]
  cases keepalive : ldpe.nbrKeepalive with
  | none => exact parsed.2 _
  | some keepalive' => exact parsed.1 keepalive' keepalive

/-- The parameters of an Initialization message that is taken are within bounds, and so are the
configured ones. -/
theorem Ldpe.Fits.finishInit {ldpe : Ldpe} (fits : ldpe.Fits) (sess : SessPrms)
    (long : minKeepalive ≤ sess.keepaliveTime) : (finishInit ldpe sess).Fits := by
  have agreed : Nbr.Negotiated { ldpe.nbr with
      keepalive := min (Ldpd.nbrGetKeepalive ldpe) sess.keepaliveTime
      maxPduLen := min (if sess.maxPduLen ≤ 255 then ldpMaxLen else sess.maxPduLen) ldpMaxLen } := by
    have configured := UInt16.le_iff_toNat_le.mp fits.1.nbrGetKeepalive
    have proposed := UInt16.le_iff_toNat_le.mp long
    have room : 256 ≤ (if sess.maxPduLen ≤ 255 then ldpMaxLen else sess.maxPduLen).toNat := by
      split
      · decide
      · rename_i large
        have exceeds := UInt16.lt_iff_toNat_lt.mp (UInt16.not_le.mp large)
        exact exceeds
    simp only [Nbr.Negotiated, UInt16.le_iff_toNat_le, Bytes.toNat_min16]
    exact ⟨Nat.le_min.mpr ⟨room, by decide⟩, Nat.min_le_right _ _, Nat.le_min.mpr ⟨configured, proposed⟩⟩
  exact (fits.negotiate agreed).fsmStep (nbrFsm_step _ .initRcvd) (by decide) fun _ => agreed

theorem sessionRules_fits : SessionRules Ldpe.Fits := by
  refine machineRules_fits.sessionRules
    (fun _ fits _ => machineRules_fits.quiet _ _ (by decide) (fits.updateNbr Iff.rfl))
    (fun _ _ fits => fits)
    (fun _ sess long fits => fits.finishInit sess long)
    (fun _ fits => fits.nbrFsm (by decide) (by decide)) (fun _ _ _ _ fits => fits) ?_
  intro ldpe rbuf fits attached
  refine fits.updateNbr ?_
  simp only [Nbr.Fits]
  cases ldpe.nbr.state with
  | _ => simp [attached, Nbr.Negotiated]

/-! ### Handlers -/

section Handlers

variable {ldpe ldpe' : Ldpe}

/-- A connection that is accepted is there before the state machine hears of it. -/
theorem Ldpe.Fits.sessionAccept (fits : ldpe.Fits) (admitted : Bool) :
    (sessionAccept ldpe admitted).Fits := by
  rw [Ldpd.sessionAccept]
  split
  · rename_i taken
    obtain ⟨_, _, timer, timeout⟩ := fits.at taken.1
    have row : nbrFsmRow (ldpe.updateNbr fun nbr => { nbr with tcp := some {} }).nbr.state .matchAdj =
        some ⟨[.present], .matchAdj, .nothing, some .initial⟩ := by
      rw [show (ldpe.updateNbr fun nbr => { nbr with tcp := some {} }).nbr.state = .present from taken.1]
      rfl
    rw [nbrFsm_of_row row nofun]
    exact ⟨fits.1, Option.some_ne_none _, rfl, timer, timeout⟩
  · exact fits

theorem Ldpe.Fits.nbrKtimer (fits : ldpe.Fits) (armed : ldpe.nbr.keepaliveTimer = true) :
    (nbrKtimer ldpe).Fits := by
  obtain ⟨_, _, _, same⟩ := writes_sendKeepalive
    (ldpe.updateNbr fun nbr => { nbr with keepaliveTimer := false })
  rw [Ldpd.nbrKtimer, same]
  refine ⟨fits.1, ?_⟩
  have rearmed : { ldpe.nbr with keepaliveTimer := true } = ldpe.nbr :=
    congrArg (fun keepaliveTimer => { ldpe.nbr with keepaliveTimer }) armed.symm
  show Nbr.Fits { ldpe.nbr with keepaliveTimer := true }
  rw [rearmed]
  exact fits.2

theorem Ldpe.Parsed.close (parsed : ldpe.Parsed) (session : ldpe.nbr.state ≠ .present) :
    (Ldpd.nbrFsm ldpe .closeSession).Fits := by
  rw [nbrFsm_close session]
  exact ⟨parsed, rfl, rfl, rfl, rfl⟩

/-- The timeout has fired, and the session that it guarded is shut down. -/
theorem Ldpe.Fits.nbrKtimeout (fits : ldpe.Fits) (armed : ldpe.nbr.keepaliveTimeout = true) :
    (nbrKtimeout ldpe).Fits := by
  have session : ldpe.nbr.state ≠ .present := by
    intro idle
    obtain ⟨_, _, _, disarmed⟩ := fits.at idle
    exact absurd (armed.symm.trans disarmed) nofun
  have parsed : (ldpe.updateNbr fun nbr => { nbr with keepaliveTimeout := false }).Parsed := fits.1
  have session' : (ldpe.updateNbr fun nbr => { nbr with keepaliveTimeout := false }).nbr.state ≠
      .present := session
  rw [Ldpd.nbrKtimeout]
  exact unwritten_fits _ _ (sessionShutdown_eq session' ..) (parsed.close session')

theorem Ldpe.Fits.nbrItimeout (fits : ldpe.Fits) (armed : ldpe.nbr.initTimeout = true) :
    (nbrItimeout ldpe).Fits := by
  have session : ldpe.nbr.state ≠ .present := by
    intro idle
    obtain ⟨_, disarmed, _⟩ := fits.at idle
    exact absurd (armed.symm.trans disarmed) nofun
  have parsed : (ldpe.updateNbr fun nbr => { nbr with initTimeout := false }).Parsed := fits.1
  exact parsed.close session

theorem Ldpe.Fits.nbrIdtimer (fits : ldpe.Fits) (connected : Bool) :
    (nbrIdtimer ldpe connected).Fits := by
  have stopped : (ldpe.updateNbr fun nbr => { nbr with initdelayTimer := false }).Fits :=
    fits.updateNbr Iff.rfl
  rw [Ldpd.nbrIdtimer]
  split
  · exact stopped.nbrFsm (by decide) (by decide)
  · exact stopped

theorem Ldpe.Fits.sendAddressSingle (fits : ldpe.Fits) (addr : LdpdAddr) (withdraw : Bool) :
    (sendAddressSingle ldpe addr withdraw).Fits := by
  refine property_ite (fun _ => ?_) fits
  exact property_sendAddress unwritten_fits (fun _ fits => fits.nbrFsm (by decide) (by decide)) fits ..

theorem Ldpe.Fits.nbrInput (fits : ldpe.Fits) {input : NbrInput}
    (leads : nbrInput ldpe input = some ldpe') : ldpe'.Fits := by
  cases input with
  | read fuel result => exact sessionRules_fits.nbrInput_read fits leads
  | accept admitted =>
    cases leads
    exact fits.sessionAccept admitted
  | connectUp =>
    cases leads
    exact fits.nbrFsm (by decide) (by decide)
  | writeError =>
    cases leads
    exact property_ite (fun _ => fits.nbrFsm (by decide) (by decide)) fits
  | ktimer =>
    cases leads
    exact property_ite fits.nbrKtimer fits
  | ktimeout =>
    cases leads
    exact property_ite fits.nbrKtimeout fits
  | itimeout =>
    cases leads
    exact property_ite fits.nbrItimeout fits
  | idtimer connected =>
    cases leads
    exact property_ite (fun _ => fits.nbrIdtimer connected) fits
  | stopIdtimer =>
    cases leads
    exact fits.updateNbr Iff.rfl
  | shutdown status msgId msgType =>
    cases leads
    exact machineRules_fits.sessionShutdown fits ..
  | address addr withdraw =>
    cases leads
    exact fits.sendAddressSingle addr withdraw

end Handlers

/-! ### Runs -/

/-- Every neighbor of the engine is as it should be. -/
def LdpEngine.Fits (engine : LdpEngine) : Prop :=
  ∀ (id : InAddr) (entry : NbrEntry), engine.nbrs[id]? = some entry → entry.nbr.Fits

theorem LdpEngine.parsed_view (engine : LdpEngine) (id : InAddr) (entry : NbrEntry) :
    (engine.view id entry).Parsed :=
  ⟨engine.conf.nbrpParsed id, engine.conf.afParsed⟩

section Runs

variable {engine engine' : LdpEngine} {id : InAddr} {entry : NbrEntry}

theorem LdpEngine.Fits.view (fits : engine.Fits) (present : engine.nbrs[id]? = some entry) :
    (engine.view id entry).Fits :=
  ⟨engine.parsed_view id entry, fits id entry present⟩

theorem LdpEngine.Fits.insert (fits : engine.Fits) (fresh : entry.nbr.Fits) :
    ∀ (other : InAddr) (entry' : NbrEntry), (engine.nbrs.insert id entry)[other]? = some entry' → entry'.nbr.Fits := by
  intro other entry' present
  rw [Tree.getElem?_insert] at present
  split at present
  · cases present
    exact fresh
  · exact fits other entry' present

theorem LdpEngine.Fits.store (fits : engine.Fits) {ldpe : Ldpe} (kept : ldpe.Fits) :
    (engine.store id entry ldpe).Fits :=
  fits.insert kept.2

theorem LdpEngine.Fits.step (fits : engine.Fits) {input : LdpeInput}
    (leads : ldpeStep engine input = some engine') : engine'.Fits := by
  cases engineStep_of_ldpeStep leads with
  | idle => exact fits
  | conf => exact fits
  | nbrNew af dsTlv pending absent fresh =>
    refine fits.store (Ldpe.Fits.sessionAccept ⟨engine.parsed_view _ _, ?_⟩ pending)
    subst fresh
    exact ⟨rfl, rfl, rfl, rfl⟩
  | nbrDel present =>
    intro other entry' present'
    rw [Tree.getElem?_erase] at present'
    split at present'
    · cases present'
    · exact fits.store ((fits.view present).nbrFsm (by decide) (by decide)) other entry' present'
  | nbr present handled => exact fits.store ((fits.view present).nbrInput handled)
  | add present =>
    have same := fits _ _ present
    exact fits.insert same
  | addEnd present oper list returned =>
    refine fits.store (returnedState_of_keeps (keeps_sendLabelmessage unwritten_fits ?_ _ _ _)
      (fits.view present) returned)
    exact fun _ fits => fits.nbrFsm (by decide) (by decide)
  | notificationSend present oper nm => exact fits.store ((fits.view present).sendNotificationFull nm)

end Runs

/-- `KEEPALIVE_PER_PERIOD`. -/
def keepalivePerPeriod : UInt16 := 3

theorem Nbr.Negotiated.interval {nbr : Nbr} (negotiated : nbr.Negotiated) :
    nbr.keepalive / keepalivePerPeriod ≠ 0 := by
  have least : 3 ≤ nbr.keepalive.toNat := UInt16.le_iff_toNat_le.mp negotiated.2.2
  intro zero
  have zero' : nbr.keepalive.toNat / 3 = 0 := (UInt16.toNat_div ..).symm.trans (congrArg _ zero)
  omega

/-- In every state that the engine reaches, the state of every neighbor, its connection, its timers
and what it has negotiated fit together, and keepalives are never sent without a pause. -/
theorem nbr_sound_of_reached (conf : LdpeConf) (engine : LdpEngine)
    (reached : Run.Reaches ldpeStep (fun _ _ => True) { conf } engine) (id : InAddr) (entry : NbrEntry)
    (present : engine.nbrs[id]? = some entry) :
    entry.nbr.Sound ∧
      (entry.nbr.state ∈ [NbrState.openrec, .oper] → entry.nbr.keepalive / keepalivePerPeriod ≠ 0) := by
  have fits : engine.Fits := by
    refine Run.Reaches.invariant LdpEngine.Fits (fun _ _ _ fits _ leads => fits.step leads) ?_ reached
    intro id entry present
    rw [Std.ExtTreeMap.getElem?_empty] at present
    cases present
  have sound := (fits id entry present).sound
  exact ⟨sound, fun session => (sound.negotiated session).interval⟩

theorem nbr_sound_of_reached_oper : ∃ (engine : LdpEngine) (entry : NbrEntry),
    engine.nbrs[(0x0a000002 : InAddr)]? = some entry ∧ entry.nbr.state = .oper ∧ entry.nbr.Sound ∧
      entry.nbr.keepalive / keepalivePerPeriod ≠ 0 := by
  have evaluated : ((LdpeInput.nbrNew 0x0a000002 .inet false false :: sessionInputs).foldlM ldpeStep
      ({ conf := plainConf } : LdpEngine) >>= fun engine =>
        (engine.nbrs[(0x0a000002 : InAddr)]?).map fun entry => entry.nbr.state) = some .oper := by
    decide +kernel
  obtain ⟨engine, leads, found⟩ := Option.bind_eq_some_iff.mp evaluated
  obtain ⟨entry, present, oper⟩ := Option.map_eq_some_iff.mp found
  have reached : Run.Reaches ldpeStep (fun _ _ => True) { conf := plainConf } engine :=
    Run.Reaches.start.foldlM _ (fun _ _ _ => trivial) leads
  have both := nbr_sound_of_reached plainConf engine reached _ entry present
  exact ⟨engine, entry, present, oper, both.1, both.2 (by rw [oper]; decide)⟩

end Ldpd
