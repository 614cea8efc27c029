/-
This file is about the maps that wait in the lists of a neighbor until the label decision
engine has said that there are no more. The lists belong to the neighbor and not to its
session: closing the session leaves them as they are. What waits is for the session that
sends it as long as no connection is taken up by a neighbor whose lists are not empty.
-/

import Ldpd.Ldpe.Steps

namespace Ldpd

open Code

/-! ### What is written -/

/-- `send_labelmessage` writes maps of its list only. -/
theorem trace_sendLabelmessage (fuel : Nat) (type : UInt16) (mh : List MappingEntry) (ldpe : Ldpe) :
    Clean (· ∈ mh) (sendLabelmessage fuel type mh ldpe) := by
  have loops : Clean (· ∈ mh) (loop (labelRound type) fuel { mh } ldpe) := by
    refine clean_loop (fun locals => locals.mh ⊆ mh) ?_ ?_ fuel (List.Subset.refl mh) ldpe
    · rintro ⟨waiting, pdu⟩ ldpe within
      cases waiting with
      | nil => exact clean_nil _
      | cons me rest =>
        rw [labelRound_cons]
        dsimp only
        split
        · exact clean_nil _
        split
        · exact clean_nil _
        · rintro written member
          rw [List.mem_singleton.mp member]
          exact within List.mem_cons_self
    · rintro ⟨waiting, pdu⟩ ldpe again ldpe' within returned
      cases waiting with
      | nil => cases returned
      | cons me rest =>
        rw [labelRound_cons] at returned
        dsimp only at returned
        split at returned
        · cases returned
          exact within
        split at returned
        · cases returned
        · cases returned
          exact fun other member => within (List.mem_cons_of_mem me member)
  have body : Clean (· ∈ mh) ((loop (labelRound type) fuel { mh } >>= fun pdu =>
      change fun ldpe => nbrFsm ((pdu.map (enqueuePdu ldpe)).getD ldpe) .pduSent) ldpe) :=
    clean_bind.mpr ⟨loops, fun _ _ _ => clean_nil _⟩
  rw [sendLabelmessage]
  split
  · exact clean_nil _
  · exact clean_returned.mpr body

/-! ### One neighbor -/

/-- What waits for a neighbor is for its session, or for its last one. Nothing waits as long as a
session is on its way. -/
def NbrEntry.Tidy (entry : NbrEntry) : Prop :=
  (∀ list, entry.lists list = []) ∨
    (entry.nbr.state = .oper ∨ entry.nbr.state = .present) ∧
      ∀ list, ∀ me ∈ entry.lists list, me.peerid = entry.nbr.peerid

/-- A neighbor with a peerid, in a session or without one. -/
def Ldpe.Settled (peerid : UInt32) (ldpe : Ldpe) : Prop :=
  ldpe.nbr.peerid = peerid ∧ (ldpe.nbr.state = .oper ∨ ldpe.nbr.state = .present)

section Neighbor

variable {peerid : UInt32} {ldpe ldpe' : Ldpe}

theorem Ldpe.Settled.not_starting (settled : ldpe.Settled peerid) {state : NbrState}
    (now : ldpe.nbr.state = state) (starting : state ∈ [NbrState.initial, .openrec, .opensent]) :
    False := by
  subst now
  rcases settled.2 with oper | present
  · rw [oper] at starting
    exact absurd starting (by decide)
  · rw [present] at starting
    exact absurd starting (by decide)

theorem unwritten_settled : Unwritten (Ldpe.Settled peerid) := by
  rintro ldpe _ ⟨_, _, _, rfl⟩ settled
  exact settled

/-- Only a new connection unsettles a neighbor. -/
theorem Ldpe.Settled.nbrFsm (settled : ldpe.Settled peerid) {event : NbrEvent}
    (adjacent : event ≠ .matchAdj) (unconnected : event ≠ .connectUp) :
    (nbrFsm ldpe event).Settled peerid := by
  have step := nbrFsm_step ldpe event
  generalize Ldpd.nbrFsm ldpe event = ldpe' at step
  cases step with
  | ignored | stays | rstKtimeout | rstKtimer => exact settled
  | matchAdj => exact absurd rfl adjacent
  | connectSetup => exact absurd rfl unconnected
  | passiveInit state | initSent state | keepaliveSend state | sessionEst state =>
    exact (settled.not_starting state (by decide)).elim
  | close => exact ⟨settled.1, .inr rfl⟩

theorem machineRules_settled : MachineRules (Ldpe.Settled peerid) where
  unwritten := unwritten_settled
  quiet ldpe event quiet settled := by
    have other : event ≠ .matchAdj ∧ event ≠ .connectUp := by
      constructor
      · rintro rfl
        exact absurd quiet (by decide)
      · rintro rfl
        exact absurd quiet (by decide)
    exact settled.nbrFsm other.1 other.2

theorem sessionRules_settled : SessionRules (Ldpe.Settled peerid) := by
  refine machineRules_settled.sessionRules
    (fun _ settled _ => machineRules_settled.quiet _ _ (by decide) settled) (fun _ _ settled => settled)
    (fun ldpe sess _ settled => ?_) (fun _ settled => settled.nbrFsm (by decide) (by decide))
    (fun _ _ _ _ settled => settled) fun _ _ settled _ => settled
  rw [finishInit]
  refine Ldpe.Settled.nbrFsm ?_ (by decide) (by decide)
  exact settled

/-- An operational session is not disturbed by another connection. -/
theorem Ldpe.Settled.connects (settled : ldpe.Settled peerid) (oper : ldpe.nbr.state = .oper)
    {input : NbrInput} (connects : input.connects) (leads : nbrInput ldpe input = some ldpe') :
    ldpe'.Settled peerid := by
  have ignored (ldpe : Ldpe) (settled : ldpe.Settled peerid) (oper : ldpe.nbr.state = .oper) :
      (Ldpd.nbrFsm ldpe .connectUp).Settled peerid := by
    have unknown : nbrFsmRow ldpe.nbr.state .connectUp = none := by
      rw [oper]
      rfl
    rw [Ldpd.nbrFsm, unknown]
    exact settled
  cases input with
  | accept admitted =>
    cases leads
    have busy : ¬(ldpe.nbr.state = .present ∧ admitted = true) := fun idle =>
      absurd (oper.symm.trans idle.1) (by decide)
    rw [sessionAccept, if_neg busy]
    exact settled
  | connectUp =>
    cases leads
    exact ignored ldpe settled oper
  | idtimer connected =>
    cases leads
    refine property_ite (fun _ => property_ite (fun _ => ignored _ ?_ oper) ?_) settled
    · exact settled
    · exact settled
  | _ => exact absurd connects (by intro taken; cases taken)

theorem Ldpe.Settled.nbrInput (settled : ldpe.Settled peerid) {input : NbrInput}
    (free : input.connects → ldpe.nbr.state ≠ .present)
    (leads : nbrInput ldpe input = some ldpe') : ldpe'.Settled peerid := by
  by_cases connects : input.connects
  · exact settled.connects (settled.2.resolve_right (free connects)) connects leads
  · exact property_nbrInput sessionRules_settled machineRules_settled
      (fun _ _ _ _ _ _ _ settled => settled) (fun taken => absurd taken connects) settled leads

end Neighbor

/-! ### Steps -/

/-- A connection is taken up only by a neighbor for which nothing waits. -/
def Drained (engine : LdpEngine) : LdpeInput → Prop
  | .nbr id input => input.connects → ∀ entry, engine.nbrs[id]? = some entry →
    entry.nbr.state = .present → ∀ list, entry.lists list = []
  | _ => True

/-- What waits and what has been written is for the right session. -/
structure LdpEngine.Tidy (engine : LdpEngine) : Prop where
  waiting : ∀ (id : InAddr) (entry : NbrEntry), engine.nbrs[id]? = some entry → entry.Tidy
  written : ∀ written ∈ engine.written, written.me.peerid = written.session

section Steps

variable {engine engine' : LdpEngine} {id : InAddr} {entry : NbrEntry}

/-- A handler that leaves what waits as it is, for one neighbor. -/
theorem NbrEntry.Tidy.handled (tidy : entry.Tidy) {ldpe : Ldpe}
    (kept : ∀ peerid, (engine.view id entry).Settled peerid → ldpe.Settled peerid) :
    { entry with nbr := ldpe.nbr, sent := ldpe.sent }.Tidy := by
  rcases tidy with empty | ⟨state, own⟩
  · exact .inl empty
  · obtain ⟨same, state'⟩ := kept entry.nbr.peerid ⟨rfl, state⟩
    exact .inr ⟨state', fun list me member => (own list me member).trans same.symm⟩

theorem LdpEngine.Tidy.insert (tidy : engine.Tidy) (own : entry.Tidy) (other : InAddr)
    (entry' : NbrEntry) (present : (engine.nbrs.insert id entry)[other]? = some entry') :
    entry'.Tidy := by
  rw [Tree.getElem?_insert] at present
  split at present
  · cases present
    exact own
  · exact tidy.waiting other entry' present

theorem LdpEngine.Tidy.store (tidy : engine.Tidy) {ldpe : Ldpe}
    (own : { entry with nbr := ldpe.nbr, sent := ldpe.sent }.Tidy) : (engine.store id entry ldpe).Tidy :=
  ⟨tidy.insert own, tidy.written⟩

theorem NbrEntry.Tidy.add (tidy : entry.Tidy) (oper : entry.nbr.state = .oper) (list : LabelList)
    (map : Map) :
    { entry with lists := mappingListAdd entry.lists list ⟨entry.nbr.peerid, map⟩ }.Tidy := by
  refine .inr ⟨.inl oper, fun other me member => ?_⟩
  have own : ∀ me ∈ entry.lists other, me.peerid = entry.nbr.peerid := by
    rcases tidy with empty | both
    · rw [empty other]
      exact fun _ member => absurd member List.not_mem_nil
    · exact both.2 other
  dsimp only [mappingListAdd] at member
  split at member
  · rcases List.mem_append.mp member with member | member
    · exact own me member
    · rw [List.mem_singleton.mp member]
  · exact own me member

theorem NbrEntry.Tidy.sent (tidy : entry.Tidy) (list : LabelList) :
    { entry with lists := fun other => if other = list then [] else entry.lists other }.Tidy := by
  refine tidy.imp (fun empty other => ?_) fun both => ⟨both.1, fun other me member => ?_⟩
  · dsimp only
    split
    · rfl
    · exact empty other
  · dsimp only at member
    split at member
    · exact absurd member List.not_mem_nil
    · exact both.2 other me member

theorem LdpEngine.Tidy.step (tidy : engine.Tidy) {input : LdpeInput} (drained : Drained engine input)
    (leads : ldpeStep engine input = some engine') : engine'.Tidy := by
  cases engineStep_of_ldpeStep leads with
  | idle => exact tidy
  | conf => exact ⟨tidy.waiting, tidy.written⟩
  | nbrNew af dsTlv pending absent fresh =>
    refine tidy.store (.inl fun list => ?_)
    subst fresh
    rfl
  | @nbrDel id entry present =>
    have closed : (engine.store id entry (nbrFsm (engine.view id entry) .closeSession)).Tidy :=
      tidy.store ((tidy.waiting _ _ present).handled fun peerid settled =>
        settled.nbrFsm (by decide) (by decide))
    refine ⟨fun other entry' present' => ?_, tidy.written⟩
    rw [Tree.getElem?_erase] at present'
    split at present'
    · cases present'
    · exact closed.waiting other entry' present'
  | @nbr id entry present input ldpe' handled =>
    have own := tidy.waiting id entry present
    by_cases empty : ∀ list, entry.lists list = []
    · exact tidy.store (.inl empty)
    · refine tidy.store (own.handled fun peerid settled => settled.nbrInput ?_ handled)
      exact fun connects idle => empty (drained connects entry present idle)
  | add present oper list map =>
    exact ⟨tidy.insert ((tidy.waiting _ _ present).add oper list map), tidy.written⟩
  | @addEnd _ _ id entry present oper list ldpe' returned =>
    have own := tidy.waiting id entry present
    have kept (peerid : UInt32) (settled : (engine.view id entry).Settled peerid) :
        ldpe'.Settled peerid :=
      returnedState_of_keeps (keeps_sendLabelmessage unwritten_settled
        (fun _ settled => settled.nbrFsm (by decide) (by decide)) _ _ _) settled returned
    refine ⟨tidy.insert (own.handled kept |>.sent list), fun written member => ?_⟩
    rcases List.mem_append.mp member with earlier | now
    · exact tidy.written written earlier
    · obtain ⟨me, traced, rfl⟩ := List.mem_map.mp now
      have listed := trace_sendLabelmessage _ _ _ _ me traced
      rcases own with empty | both
      · rw [empty list] at listed
        exact absurd listed List.not_mem_nil
      · exact both.2 list me listed
  | @notificationSend _ _ id entry present oper nm =>
    have kept (peerid : UInt32) (settled : (engine.view id entry).Settled peerid) :
        (sendNotificationFull (engine.view id entry) nm).Settled peerid :=
      unwritten_settled _ _ (writes_sendNotificationFull ..) settled
    exact tidy.store ((tidy.waiting _ _ present).handled kept)

end Steps

/-! ### Runs -/

/-- No label message leaks from one session into the next: in every run in which a connection is
taken up only by a neighbor for which nothing waits, every map that has been written on a session was
composed for the peerid of that session, and nothing waits for a neighbor whose session is on its
way. -/
theorem no_leak_of_reached (conf : LdpeConf) (engine : LdpEngine)
    (reached : Run.Reaches ldpeStep Drained { conf } engine) :
    (∀ written ∈ engine.written, written.me.peerid = written.session) ∧
      ∀ (id : InAddr) (entry : NbrEntry), engine.nbrs[id]? = some entry →
        entry.nbr.state ∈ [NbrState.initial, .openrec, .opensent] →
          ∀ list, entry.lists list = [] := by
  have tidy : engine.Tidy := by
    refine Run.Reaches.invariant LdpEngine.Tidy (fun _ _ _ tidy drained leads =>
      tidy.step drained leads) ⟨fun id entry present => ?_, fun _ member => ?_⟩ reached
    · rw [Std.ExtTreeMap.getElem?_empty] at present
      cases present
    · exact absurd member List.not_mem_nil
  refine ⟨tidy.written, fun id entry present starting => ?_⟩
  rcases tidy.waiting id entry present with empty | ⟨oper | idle, _⟩
  · exact empty
  · rw [oper] at starting
    exact absurd starting (by decide)
  · rw [idle] at starting
    exact absurd starting (by decide)

/-- A route that the label decision engine advertises. -/
def advertisedMap : Map where
  fec := .network (.v4 0x0b000000) 8
  label := 16

theorem no_leak_of_reached_advertised : ∃ engine,
    Run.Reaches ldpeStep Drained { conf := plainConf } engine ∧ engine.written = [⟨2, 2, advertisedMap⟩] ∧
      ∀ written ∈ engine.written, written.me.peerid = written.session := by
  let start : LdpEngine := { conf := plainConf }
  let inputs := (sessionInputs.drop 1) ++
    [.imsg (.mappingAdd 2 advertisedMap) 4, .imsg (.mappingAddEnd 2) 4]
  have evaluated : ((ldpeStep start (.nbrNew 0x0a000002 .inet false false) >>= fun engine =>
      ldpeStep engine (.nbr 0x0a000002 (.accept true)) >>= fun engine =>
        inputs.foldlM ldpeStep engine).map fun engine => engine.written) =
          some [⟨2, 2, advertisedMap⟩] := by
    decide +kernel
  obtain ⟨engine, leads, written⟩ := Option.map_eq_some_iff.mp evaluated
  obtain ⟨engine₁, created, leads⟩ := Option.bind_eq_some_iff.mp leads
  obtain ⟨engine₂, accepted, leads⟩ := Option.bind_eq_some_iff.mp leads
  have drained : Drained engine₁ (.nbr 0x0a000002 (.accept true)) := by
    intro _ entry present _ list
    have absent : (0x0a000002 : InAddr) ∉ start.nbrs := Std.ExtTreeMap.not_mem_empty
    rw [ldpeStep, nbrNew, if_neg absent] at created
    cases created
    rw [store_nbrs, if_pos rfl] at present
    cases present
    rfl
  have quiet : ∀ engine, ∀ input ∈ inputs, Drained engine input := by
    intro engine input member
    simp only [inputs, sessionInputs, List.drop_succ_cons, List.drop_zero, List.cons_append,
      List.nil_append, List.mem_cons, List.not_mem_nil, or_false] at member
    rcases member with rfl | rfl | rfl | rfl
    · intro connects
      cases connects
    · intro connects
      cases connects
    · trivial
    · trivial
  have reached : Run.Reaches ldpeStep Drained start engine :=
    ((Run.Reaches.start.step trivial created).step drained accepted).foldlM inputs quiet leads
  exact ⟨engine, reached, written, (no_leak_of_reached plainConf engine reached).1⟩

/-- What happens to the neighbor of `sessionInputs` when a map waits and the session is closed before
the end of the list has come. -/
def interruptedInputs : List LdpeInput :=
  .nbrNew 0x0a000002 .inet false false :: sessionInputs ++
    [.imsg (.mappingAdd 2 advertisedMap) 4, .nbr 0x0a000002 .writeError] ++ sessionInputs ++
      [.imsg (.mappingAddEnd 3) 4]

/-- The map is sent on the next session. -/
theorem interrupted_leaks : ∃ engine,
    Run.Reaches ldpeStep (fun _ _ => True) { conf := plainConf } engine ∧
      ¬∀ written ∈ engine.written, written.me.peerid = written.session := by
  have evaluated : ((interruptedInputs.foldlM ldpeStep ({ conf := plainConf } : LdpEngine)).map
      fun engine => engine.written) = some [⟨3, 2, advertisedMap⟩] := by
    decide +kernel
  obtain ⟨engine, leads, written⟩ := Option.map_eq_some_iff.mp evaluated
  refine ⟨engine, Run.Reaches.start.foldlM _ (fun _ _ _ => trivial) leads, fun own => ?_⟩
  rw [written] at own
  exact absurd (own _ List.mem_cons_self) (by decide)

end Ldpd
