/-
This file proves that the two engines agree on who the neighbors are. A peerid is one
more than the last one, so as long as the counter does not come around no two sessions
share one, and what is written on the pipe about a session lies between the news that
its neighbor is up and that it is down.
-/

import Ldpd.Ldpe.Steps
import Ldpd.Lde.Neighbors

namespace Ldpd

open Code

/-! ### The pipe -/

/-- What may come when these neighbors are known: a neighbor that is not among them, and what is
from the session of one of them. -/
def Timely (known : Set UInt32) (imsg : LdeEvent) : Prop :=
  match imsg with
  | .neighborUp peerid .. => peerid ≠ 0 ∧ peerid ∉ known
  | _ => ∀ peerid ∈ imsg.peer, peerid ∈ known

/-- The neighbors that are known after everything on the pipe. -/
def registered (stream : List LdeEvent) : Set UInt32 := stream.foldl registers ∅

/-- Everything on the pipe was timely when it came. -/
def Orderly (stream : List LdeEvent) : Prop := Run.Allowed registers Timely ∅ stream

/-- News of a session that has come up. -/
def LdeEvent.isUp : LdeEvent → Bool
  | .neighborUp .. => true
  | _ => false

/-- How many sessions have come up. -/
def sessionsUp (stream : List LdeEvent) : Nat := stream.countP LdeEvent.isUp

/-- The counter has come around: a session has come up under the peerid that stands for none. -/
def Overflown (stream : List LdeEvent) : Prop :=
  2 ^ 32 - 2 < sessionsUp stream ∧
    ∃ id v4Enabled v6Enabled, LdeEvent.neighborUp 0 id v4Enabled v6Enabled ∈ stream

section Stream

variable {stream : List LdeEvent} {imsg : LdeEvent}

theorem registered_append (stream : List LdeEvent) (imsg : LdeEvent) :
    registered (stream ++ [imsg]) = registers (registered stream) imsg := by
  rw [registered, List.foldl_append]
  rfl

theorem sessionsUp_append (stream : List LdeEvent) (imsg : LdeEvent) :
    sessionsUp (stream ++ [imsg]) = sessionsUp stream + if imsg.isUp then 1 else 0 := by
  rw [sessionsUp, List.countP_append, List.countP_singleton]
  rfl

theorem Orderly.append (orderly : Orderly stream) (timely : Timely (registered stream) imsg) :
    Orderly (stream ++ [imsg]) :=
  Run.allowed_append.mpr ⟨orderly, timely, trivial⟩

theorem Orderly.timely {before after : List LdeEvent} (orderly : Orderly (before ++ imsg :: after)) :
    Timely (registered before) imsg :=
  (Run.allowed_append.mp orderly).2.1

/-- Who is known has come up and not gone down since. -/
theorem up_of_registered {peerid : UInt32} (known : peerid ∈ registered stream) :
    ∃ earlier since id v4Enabled v6Enabled,
      stream = earlier ++ .neighborUp peerid id v4Enabled v6Enabled :: since ∧
        .neighborDown peerid ∉ since := by
  induction stream using List.reverseRecOn with
  | nil => exact absurd known (Set.notMem_empty peerid)
  | append_singleton stream imsg inductionHypothesis =>
    have later (known : peerid ∈ registered stream) (quiet : imsg ≠ .neighborDown peerid) :
        ∃ earlier since id v4Enabled v6Enabled,
          stream ++ [imsg] = earlier ++ .neighborUp peerid id v4Enabled v6Enabled :: since ∧
            .neighborDown peerid ∉ since := by
      obtain ⟨earlier, since, id, v4Enabled, v6Enabled, rfl, absent⟩ := inductionHypothesis known
      refine ⟨earlier, since ++ [imsg], id, v4Enabled, v6Enabled, by simp, fun member => ?_⟩
      rcases List.mem_append.mp member with member | member
      · exact absent member
      · exact quiet (List.mem_singleton.mp member).symm
    rw [registered_append] at known
    cases imsg with
    | neighborUp other id v4Enabled v6Enabled =>
      rcases known with rfl | known
      · exact ⟨stream, [], id, v4Enabled, v6Enabled, rfl, List.not_mem_nil⟩
      · exact later known nofun
    | neighborDown other =>
      refine later known.1 fun same => known.2 ?_
      cases same
      exact rfl
    | _ => exact later known nofun

theorem Overflown.append (overflown : Overflown stream) (more : List LdeEvent) :
    Overflown (stream ++ more) := by
  obtain ⟨many, id, v4Enabled, v6Enabled, member⟩ := overflown
  refine ⟨many.trans_le ?_, id, v4Enabled, v6Enabled, List.mem_append_left more member⟩
  rw [sessionsUp, sessionsUp, List.countP_append]
  exact Nat.le_add_right _ _

end Stream

/-! ### The other end of the pipe -/

/-- What the LDP engine, and not the parent or a timer, sends. -/
def LdeEvent.fromLdpe (imsg : LdeEvent) : Bool :=
  match imsg with
  | .neighborUp .. | .neighborDown .. | .notification .. => true
  | _ => imsg.peer.isSome

/-- The imsg of the LDP engine that an input is. -/
def LdeInput.fromLdpe : LdeInput → Option LdeEvent
  | .event imsg => if imsg.fromLdpe then some imsg else none
  | .reload _ => none

theorem known_ldeInput (lde : Lde) (input : LdeInput) :
    (ldeInput lde input).known = (input.fromLdpe.toList).foldl registers lde.known := by
  cases input with
  | reload xconf => exact (NbrsKept.mergeConfig lde xconf).known
  | event imsg =>
    rw [ldeInput, known_ldeStep]
    cases imsg with
    | _ => rfl

/-- What the label decision engine knows is what it has been told. -/
theorem known_replay (inputs : List LdeInput) (lde : Lde) :
    (inputs.foldl ldeInput lde).known = (inputs.filterMap LdeInput.fromLdpe).foldl registers lde.known := by
  induction inputs generalizing lde with
  | nil => rfl
  | cons input rest inductionHypothesis =>
    rw [List.foldl_cons, inductionHypothesis, known_ldeInput]
    cases told : input.fromLdpe with
    | none =>
      rw [List.filterMap_cons_none told]
      rfl
    | some imsg =>
      rw [List.filterMap_cons_some told]
      rfl

/-- A label decision engine that is told so far what is on the pipe, between whatever else happens
to it, knows nobody under the peerid of a neighbor that comes up. -/
theorem replay_fresh {stream : List LdeEvent} (orderly : Orderly stream) {before after : List LdeInput}
    {peerid : UInt32} {id : InAddr} {v4Enabled v6Enabled : Bool}
    (told : (before ++ .event (.neighborUp peerid id v4Enabled v6Enabled) :: after).filterMap
      LdeInput.fromLdpe <+: stream) (conf : LdeConf) :
    peerid ∉ (before.foldl ldeInput (Lde.start conf)).ldeNbrs := by
  have split : (before ++ LdeInput.event (.neighborUp peerid id v4Enabled v6Enabled) :: after).filterMap
      LdeInput.fromLdpe = before.filterMap LdeInput.fromLdpe ++
        .neighborUp peerid id v4Enabled v6Enabled :: after.filterMap LdeInput.fromLdpe := by
    rw [List.filterMap_append]
    rfl
  obtain ⟨rest, rfl⟩ := told
  rw [split, List.append_assoc, List.cons_append] at orderly
  have known : (before.foldl ldeInput (Lde.start conf)).known =
      registered (before.filterMap LdeInput.fromLdpe) := by
    have nobody : (Lde.start conf).known = ∅ :=
      Set.eq_empty_of_forall_notMem fun _ => Std.ExtTreeMap.not_mem_empty
    rw [known_replay, nobody, registered]
  intro present
  have member : peerid ∈ (before.foldl ldeInput (Lde.start conf)).known := present
  rw [known] at member
  exact orderly.timely.2 member

/-! ### One neighbor -/

/-- What is on the pipe fits the neighbor, the ids of the others and the counter. `operational` are
the ids of the others that have a session. -/
structure Ldpe.Known (others : List UInt32) (operational : Set UInt32) (ldpe : Ldpe) : Prop where
  same : ldpe.peerids = others
  orderly : Orderly ldpe.toLde
  known : ∀ peerid, peerid ∈ registered ldpe.toLde ↔
    peerid ∈ operational ∨ ldpe.nbr.state = .oper ∧ peerid = ldpe.nbr.peerid
  counted : ldpe.peercnt.toNat = sessionsUp ldpe.toLde + 1
  earlier : ldpe.nbr.peerid ≤ ldpe.peercnt ∧ ∀ peerid ∈ others, peerid ≤ ldpe.peercnt
  distinct : ldpe.nbr.peerid ∉ others
  among : ∀ peerid ∈ operational, peerid ∈ others
  nonzero : 0 ∉ others ∧ (ldpe.nbr.state = .oper → ldpe.nbr.peerid ≠ 0)

/-- As long as the counter has not come around. -/
def Ldpe.Named (others : List UInt32) (operational : Set UInt32) (ldpe : Ldpe) : Prop :=
  ldpe.Known others operational ∨ Overflown ldpe.toLde

section Neighbor

variable {others : List UInt32} {operational : Set UInt32} {ldpe ldpe' : Ldpe}

/-- Most of what happens to a neighbor has nothing to do with its peerid. -/
theorem Ldpe.Known.congr (known : ldpe.Known others operational)
    (peerids : ldpe'.peerids = ldpe.peerids) (peercnt : ldpe'.peercnt = ldpe.peercnt)
    (toLde : ldpe'.toLde = ldpe.toLde) (peerid : ldpe'.nbr.peerid = ldpe.nbr.peerid)
    (state : ldpe'.nbr.state = .oper ↔ ldpe.nbr.state = .oper) : ldpe'.Known others operational where
  same := peerids.trans known.same
  orderly := toLde ▸ known.orderly
  known other := by
    rw [toLde, peerid, state]
    exact known.known other
  counted := by
    rw [peercnt, toLde]
    exact known.counted
  earlier := by
    rw [peercnt, peerid]
    exact known.earlier
  distinct := peerid ▸ known.distinct
  among := known.among
  nonzero := by
    rw [peerid, state]
    exact known.nonzero

/-- An imsg that tells of no neighbor. -/
theorem Ldpe.Known.tell (known : ldpe.Known others operational) {imsg : LdeEvent}
    (same : registers (registered ldpe.toLde) imsg = registered ldpe.toLde) (quiet : imsg.isUp = false)
    (timely : Timely (registered ldpe.toLde) imsg) :
    (ldpe.composeLde imsg).Known others operational where
  same := known.same
  orderly := known.orderly.append timely
  known peerid := by
    rw [Ldpe.composeLde, registered_append, same]
    exact known.known peerid
  counted := by
    rw [Ldpe.composeLde, sessionsUp_append, quiet]
    exact known.counted
  earlier := known.earlier
  distinct := known.distinct
  among := known.among
  nonzero := known.nonzero

/-- The next id is one more than the last one. -/
theorem Ldpe.Known.newPeerid (known : ldpe.Known others operational) :
    newPeerid ldpe = ldpe.peercnt + 1 := by
  have free : ldpe.peercnt + 1 ∉ ldpe.peerids := by
    rw [known.same]
    intro member
    have order := UInt32.le_iff_toNat_le.mp (known.earlier.2 _ member)
    have zero : ldpe.peercnt + 1 = 0 := by
      refine UInt32.toNat_inj.mp ?_
      rw [UInt32.toNat_add] at order ⊢
      have bound := ldpe.peercnt.toNat_lt
      simp only [UInt32.toNat_one, UInt32.toNat_zero] at order ⊢
      omega
    exact known.nonzero.1 (zero ▸ member)
  rw [Ldpd.newPeerid, nextPeerid, if_neg free]

theorem Ldpe.Known.established (known : ldpe.Known others operational)
    (state : ldpe.nbr.state = .openrec) (room : ldpe.peercnt.toNat + 1 < 2 ^ 32) :
    (established ldpe).Known others operational := by
  have next : (ldpe.peercnt + 1).toNat = ldpe.peercnt.toNat + 1 := by
    rw [UInt32.toNat_add, UInt32.toNat_one]
    exact Nat.mod_eq_of_lt room
  have nonzero : ldpe.peercnt + 1 ≠ 0 := by
    intro zero
    rw [zero, UInt32.toNat_zero] at next
    exact Nat.succ_ne_zero _ next.symm
  have later {peerid : UInt32} (order : peerid ≤ ldpe.peercnt) : peerid ≤ ldpe.peercnt + 1 := by
    rw [UInt32.le_iff_toNat_le] at order ⊢
    omega
  have unused : ldpe.peercnt + 1 ∉ others := by
    intro member
    have order := UInt32.le_iff_toNat_le.mp (known.earlier.2 _ member)
    omega
  have unknown : ldpe.peercnt + 1 ∉ registered ldpe.toLde := by
    intro member
    rcases (known.known _).mp member with member | oper
    · exact unused (known.among _ member)
    · exact absurd (state.symm.trans oper.1) nofun
  rw [Ldpd.established]
  dsimp only
  rw [known.newPeerid]
  have news := registered_append ldpe.toLde
    (.neighborUp (ldpe.peercnt + 1) ldpe.nbr.id ldpe.nbr.v4Enabled ldpe.nbr.v6Enabled)
  have timely : Timely (registered ldpe.toLde)
      (.neighborUp (ldpe.peercnt + 1) ldpe.nbr.id ldpe.nbr.v4Enabled ldpe.nbr.v6Enabled) :=
    ⟨nonzero, unknown⟩
  constructor
  · exact known.same
  · refine (known.orderly.append timely).append ?_
    rintro peerid ⟨⟩
    rw [news]
    exact Set.mem_insert _ _
  · intro peerid
    rw [registered_append, news]
    show peerid ∈ insert (ldpe.peercnt + 1) (registered ldpe.toLde) ↔ _
    rw [Set.mem_insert_iff, known.known peerid, state]
    simp only [reduceCtorEq, false_and, or_false, true_and]
    exact or_comm
  · rw [sessionsUp_append, sessionsUp_append, next, known.counted]
    rfl
  · exact ⟨UInt32.le_refl _, fun peerid member => later (known.earlier.2 peerid member)⟩
  · exact unused
  · exact known.among
  · exact ⟨known.nonzero.1, fun _ => nonzero⟩

/-- A session that is closed is unknown from then on, and one that never came up was. -/
theorem Ldpe.Known.close (known : ldpe.Known others operational) :
    (sessionClose ((nbrEnter ldpe (some .present)).composeLde
      (.neighborDown ldpe.nbr.peerid))).Known others operational where
  same := known.same
  orderly := known.orderly.append nofun
  known peerid := by
    show peerid ∈ registered (ldpe.toLde ++ [.neighborDown ldpe.nbr.peerid]) ↔ _
    rw [registered_append]
    show peerid ∈ registered ldpe.toLde ∧ peerid ≠ ldpe.nbr.peerid ↔
      peerid ∈ operational ∨ NbrState.present = .oper ∧ _
    rw [known.known peerid]
    constructor
    · rintro ⟨member | own, other⟩
      · exact .inl member
      · exact absurd own.2 other
    · rintro (member | own)
      · exact ⟨.inl member, fun same => known.distinct (same ▸ known.among _ member)⟩
      · exact absurd own.1 nofun
  counted := by
    show ldpe.peercnt.toNat = sessionsUp (ldpe.toLde ++ [.neighborDown ldpe.nbr.peerid]) + 1
    rw [sessionsUp_append]
    exact known.counted
  earlier := known.earlier
  distinct := known.distinct
  among := known.among
  nonzero := ⟨known.nonzero.1, fun oper => absurd oper nofun⟩

/-! ### The state machine -/

theorem unwritten_named : Unwritten (Ldpe.Named others operational) := by
  rintro ldpe _ ⟨_, _, _, rfl⟩ named
  exact named.imp (fun known => known.congr rfl rfl rfl rfl Iff.rfl) fun overflown => overflown

/-- A new state that is as little operational as the old one. -/
theorem Ldpe.Known.nbrEnter (known : ldpe.Known others operational) {newState : Option NbrState}
    (same : newState.getD ldpe.nbr.state = .oper ↔ ldpe.nbr.state = .oper) :
    (nbrEnter ldpe newState).Known others operational :=
  known.congr rfl rfl rfl rfl same

theorem Ldpe.Known.fsmStep (known : ldpe.Known others operational) {event : NbrEvent}
    (step : FsmStep ldpe event ldpe') : ldpe'.Named others operational := by
  cases step with
  | ignored => exact .inl known
  | matchAdj state | initSent state =>
    exact .inl (known.nbrEnter (by simp [state]))
  | passiveInit state writes =>
    exact unwritten_named _ _ writes (.inl (known.nbrEnter (by simp [state])))
  | sessionEst state writes =>
    refine unwritten_named _ _ writes ?_
    by_cases room : ldpe.peercnt.toNat + 1 < 2 ^ 32
    · exact .inl (known.established state room)
    · have zero : Ldpd.newPeerid ldpe = 0 := by
        rw [known.newPeerid]
        refine UInt32.toNat_inj.mp ?_
        rw [UInt32.toNat_add, UInt32.toNat_one, UInt32.toNat_zero]
        have bound := ldpe.peercnt.toNat_lt
        omega
      refine .inr ⟨?_, ldpe.nbr.id, ldpe.nbr.v4Enabled, ldpe.nbr.v6Enabled, ?_⟩
      · have counted := known.counted
        rw [Ldpd.established]
        dsimp only
        rw [sessionsUp_append, sessionsUp_append]
        show 2 ^ 32 - 2 < sessionsUp ldpe.toLde + 1 + 0
        omega
      · rw [Ldpd.established, zero]
        simp
  | connectSetup state writes =>
    refine unwritten_named _ _ writes (.inl (known.congr rfl rfl rfl rfl ?_))
    show NbrState.opensent = .oper ↔ _
    rw [state]
    decide
  | keepaliveSend state writes =>
    refine unwritten_named _ _ writes (.inl (known.congr rfl rfl rfl rfl ?_))
    show NbrState.openrec = .oper ↔ _
    rw [state]
    decide
  | rstKtimeout | rstKtimer => exact .inl (known.congr rfl rfl rfl rfl Iff.rfl)
  | stays => exact .inl (known.nbrEnter Iff.rfl)
  | close => exact .inl known.close

/-- The state machine takes nothing back that is on the pipe. -/
theorem Overflown.fsmStep (overflown : Overflown ldpe.toLde) {event : NbrEvent}
    (step : FsmStep ldpe event ldpe') : Overflown ldpe'.toLde := by
  cases step with
  | sessionEst state writes =>
    rw [writes.toLde]
    exact (overflown.append _).append _
  | passiveInit state writes | connectSetup state writes | keepaliveSend state writes =>
    rw [writes.toLde]
    exact overflown
  | close => exact overflown.append _
  | _ => exact overflown

theorem Ldpe.Named.nbrFsm (named : ldpe.Named others operational) (event : NbrEvent) :
    (nbrFsm ldpe event).Named others operational := by
  rcases named with known | overflown
  · exact known.fsmStep (nbrFsm_step ldpe event)
  · exact .inr (overflown.fsmStep (nbrFsm_step ldpe event))

theorem Ldpe.Named.congr (named : ldpe.Named others operational)
    (peerids : ldpe'.peerids = ldpe.peerids) (peercnt : ldpe'.peercnt = ldpe.peercnt)
    (toLde : ldpe'.toLde = ldpe.toLde) (peerid : ldpe'.nbr.peerid = ldpe.nbr.peerid)
    (state : ldpe'.nbr.state = ldpe.nbr.state) : ldpe'.Named others operational :=
  named.imp (fun known => known.congr peerids peercnt toLde peerid (by rw [state]))
    fun overflown => toLde ▸ overflown

/-- What is from an operational session is timely. -/
theorem Ldpe.Named.tell (named : ldpe.Named others operational) {imsg : LdeEvent}
    (own : ∀ peerid ∈ imsg.peer, ldpe.nbr.state = .oper ∧ peerid = ldpe.nbr.peerid)
    (same : ∀ known, registers known imsg = known) (quiet : imsg.isUp = false) :
    (ldpe.composeLde imsg).Named others operational := by
  refine named.imp (fun known => known.tell (same _) quiet ?_) fun overflown => overflown.append _
  have timely : ∀ peerid ∈ imsg.peer, peerid ∈ registered ldpe.toLde :=
    fun peerid member => (known.known peerid).mpr (.inr (own peerid member))
  cases imsg with
  | neighborUp => exact absurd quiet nofun
  | _ => exact timely

theorem machineRules_named : MachineRules (Ldpe.Named others operational) :=
  ⟨unwritten_named, fun _ event _ named => named.nbrFsm event⟩

theorem sessionRules_named : SessionRules (Ldpe.Named others operational) := by
  refine machineRules_named.sessionRules
    (fun _ named _ => ?_)
    (fun _ _ named => named.tell nofun (fun _ => rfl) rfl) (fun _ sess _ named => ?_)
    (fun _ named => named.nbrFsm _) (fun _ imsg oper peer named => ?_)
    fun _ _ named _ => named.congr rfl rfl rfl rfl rfl
  · refine Ldpe.Named.nbrFsm ?_ _
    exact named.congr rfl rfl rfl rfl rfl
  · rw [finishInit]
    refine Ldpe.Named.nbrFsm ?_ _
    exact named.congr rfl rfl rfl rfl rfl
  · cases imsg with
    | networkAdd | networkDel | notification | neighborUp | neighborDown | gcTimer | pwNew | pwDel =>
      cases peer
    | _ =>
      cases peer
      refine named.tell (fun peerid member => ?_) (fun _ => rfl) rfl
      cases member
      exact ⟨oper, rfl⟩

theorem Ldpe.Named.nbrInput (named : ldpe.Named others operational) {input : NbrInput}
    (leads : nbrInput ldpe input = some ldpe') : ldpe'.Named others operational :=
  property_nbrInput sessionRules_named machineRules_named
    (fun _ _ _ _ _ _ _ named => named.congr rfl rfl rfl rfl rfl)
    (fun _ _ event _ named => named.nbrFsm event) named leads

theorem Ldpe.Named.sessionAccept (named : ldpe.Named others operational) (admitted : Bool) :
    (sessionAccept ldpe admitted).Named others operational :=
  named.nbrInput (show Ldpd.nbrInput ldpe (.accept admitted) = some (Ldpd.sessionAccept ldpe admitted) from rfl)

end Neighbor

/-! ### The table -/

/-- The ids of the other neighbors that have a session. -/
def LdpEngine.operational (engine : LdpEngine) (id : InAddr) : Set UInt32 :=
  { peerid | ∃ other entry, other ≠ id ∧ engine.nbrs[other]? = some entry ∧
    entry.nbr.state = .oper ∧ entry.nbr.peerid = peerid }

/-- What is on the pipe fits the table of the neighbors and the counter. -/
structure LdpEngine.Known (engine : LdpEngine) : Prop where
  orderly : Orderly engine.toLde
  known : ∀ peerid, peerid ∈ registered engine.toLde ↔ ∃ (id : InAddr) (entry : NbrEntry),
    engine.nbrs[id]? = some entry ∧ entry.nbr.state = .oper ∧ entry.nbr.peerid = peerid
  counted : engine.peercnt.toNat = sessionsUp engine.toLde + 1
  earlier : ∀ (id : InAddr) (entry : NbrEntry), engine.nbrs[id]? = some entry →
    entry.nbr.peerid ≤ engine.peercnt
  distinct : ∀ (id other : InAddr) (entry entry' : NbrEntry), id ≠ other →
    engine.nbrs[id]? = some entry → engine.nbrs[other]? = some entry' → entry.nbr.peerid ≠ 0 →
      entry.nbr.peerid ≠ entry'.nbr.peerid
  nonzero : ∀ (id : InAddr) (entry : NbrEntry), engine.nbrs[id]? = some entry →
    entry.nbr.state = .oper → entry.nbr.peerid ≠ 0

/-- As long as the counter has not come around. -/
def LdpEngine.Named (engine : LdpEngine) : Prop := engine.Known ∨ Overflown engine.toLde

section Table

variable {engine engine' : LdpEngine} {id : InAddr} {entry : NbrEntry}

/-- A handler sees what it needs of the table. The neighbor it serves need not be in it yet. -/
theorem LdpEngine.Known.view (known : engine.Known)
    (own : engine.nbrs[id]? = some entry ∨
      engine.nbrs[id]? = none ∧ entry.nbr.peerid = 0 ∧ entry.nbr.state ≠ .oper) :
    (engine.view id entry).Known (engine.peerids id) (engine.operational id) where
  same := rfl
  orderly := known.orderly
  known peerid := by
    refine (known.known peerid).trans ⟨?_, ?_⟩
    · rintro ⟨other, entry', present, oper, rfl⟩
      by_cases same : other = id
      · subst same
        rcases own with own | own
        · cases present.symm.trans own
          exact .inr ⟨oper, rfl⟩
        · exact absurd (present.symm.trans own.1) nofun
      · exact .inl ⟨other, entry', same, present, oper, rfl⟩
    · rintro (⟨other, entry', _, present, oper, rfl⟩ | ⟨oper, rfl⟩)
      · exact ⟨other, entry', present, oper, rfl⟩
      · rcases own with own | own
        · exact ⟨id, entry, own, oper, rfl⟩
        · exact absurd oper own.2.2
  counted := known.counted
  earlier := by
    refine ⟨?_, fun peerid member => ?_⟩
    · rcases own with own | own
      · exact known.earlier id entry own
      · show entry.nbr.peerid ≤ engine.peercnt
        rw [own.2.1]
        exact UInt32.zero_le
    · obtain ⟨_, other, entry', _, present, rfl⟩ := mem_peerids.mp member
      exact known.earlier other entry' present
  distinct := by
    intro member
    obtain ⟨nonzero, other, entry', different, present, same⟩ := mem_peerids.mp member
    rcases own with own | own
    · exact known.distinct id other entry entry' (Ne.symm different) own present nonzero same.symm
    · exact nonzero own.2.1
  among := by
    rintro peerid ⟨other, entry', different, present, oper, rfl⟩
    exact mem_peerids.mpr ⟨known.nonzero other entry' present oper, other, entry', different, present, rfl⟩
  nonzero := by
    refine ⟨fun member => (mem_peerids.mp member).1 rfl, fun oper => ?_⟩
    rcases own with own | own
    · exact known.nonzero id entry own oper
    · exact absurd oper own.2.2

/-- What a handler leaves is carried back. -/
theorem LdpEngine.Known.store (known : engine.Known) {ldpe : Ldpe}
    (kept : ldpe.Known (engine.peerids id) (engine.operational id)) : (engine.store id entry ldpe).Known := by
  have found {other : InAddr} {entry' : NbrEntry}
      (present : (engine.store id entry ldpe).nbrs[other]? = some entry') :
      other = id ∧ entry'.nbr = ldpe.nbr ∨ other ≠ id ∧ engine.nbrs[other]? = some entry' := by
    rw [store_nbrs] at present
    split at present
    · rename_i same
      cases present
      exact .inl ⟨same.symm, rfl⟩
    · rename_i different
      exact .inr ⟨Ne.symm different, present⟩
  have listed {other : InAddr} {entry' : NbrEntry} (different : other ≠ id)
      (present : engine.nbrs[other]? = some entry') (nonzero : entry'.nbr.peerid ≠ 0) :
      entry'.nbr.peerid ∈ engine.peerids id :=
    mem_peerids.mpr ⟨nonzero, other, entry', different, present, rfl⟩
  constructor
  · exact kept.orderly
  · intro peerid
    refine (kept.known peerid).trans ⟨?_, ?_⟩
    · rintro (⟨other, entry', different, present, oper, rfl⟩ | ⟨oper, rfl⟩)
      · refine ⟨other, entry', ?_, oper, rfl⟩
        rw [store_nbrs, if_neg (Ne.symm different)]
        exact present
      · refine ⟨id, { entry with nbr := ldpe.nbr, sent := ldpe.sent }, ?_, oper, rfl⟩
        rw [store_nbrs, if_pos rfl]
    · rintro ⟨other, entry', present, oper, rfl⟩
      rcases found present with ⟨rfl, same⟩ | ⟨different, present⟩
      · exact .inr ⟨same ▸ oper, same ▸ rfl⟩
      · exact .inl ⟨other, entry', different, present, oper, rfl⟩
  · exact kept.counted
  · intro other entry' present
    rcases found present with ⟨_, same⟩ | ⟨different, present⟩
    · rw [same]
      exact kept.earlier.1
    · by_cases zero : entry'.nbr.peerid = 0
      · rw [zero]
        exact UInt32.zero_le
      · exact kept.earlier.2 _ (listed different present zero)
  · intro first second entry₁ entry₂ different present₁ present₂ nonzero equal
    rcases found present₁ with ⟨rfl, same₁⟩ | ⟨apart₁, before₁⟩
    · rcases found present₂ with ⟨rfl, _⟩ | ⟨apart₂, before₂⟩
      · exact different rfl
      · refine kept.distinct ?_
        rw [← same₁, equal]
        exact listed apart₂ before₂ (equal ▸ nonzero)
    · rcases found present₂ with ⟨rfl, same₂⟩ | ⟨apart₂, before₂⟩
      · refine kept.distinct ?_
        rw [← same₂, ← equal]
        exact listed apart₁ before₁ nonzero
      · exact known.distinct first second entry₁ entry₂ different before₁ before₂ nonzero equal
  · intro other entry' present oper
    rcases found present with ⟨_, same⟩ | ⟨_, present⟩
    · rw [same] at oper ⊢
      exact kept.nonzero.2 oper
    · exact known.nonzero other entry' present oper

/-- Only the neighbors themselves matter, not what is queued for them. -/
theorem LdpEngine.Known.congr (known : engine.Known) (peercnt : engine'.peercnt = engine.peercnt)
    (toLde : engine'.toLde = engine.toLde)
    (nbrs : ∀ id : InAddr, (engine'.nbrs[id]?).map NbrEntry.nbr = (engine.nbrs[id]?).map NbrEntry.nbr) :
    engine'.Known := by
  have found {id : InAddr} {entry : NbrEntry} (present : engine'.nbrs[id]? = some entry) :
      ∃ entry', engine.nbrs[id]? = some entry' ∧ entry'.nbr = entry.nbr := by
    have same := (nbrs id).symm
    rw [present] at same
    exact Option.map_eq_some_iff.mp same
  have found' {id : InAddr} {entry : NbrEntry} (present : engine.nbrs[id]? = some entry) :
      ∃ entry', engine'.nbrs[id]? = some entry' ∧ entry'.nbr = entry.nbr := by
    have same := nbrs id
    rw [present] at same
    exact Option.map_eq_some_iff.mp same
  constructor
  · rw [toLde]
    exact known.orderly
  · intro peerid
    rw [toLde, known.known peerid]
    constructor
    · rintro ⟨id, entry, present, oper, rfl⟩
      obtain ⟨entry', present', same⟩ := found' present
      exact ⟨id, entry', present', same ▸ oper, same ▸ rfl⟩
    · rintro ⟨id, entry, present, oper, rfl⟩
      obtain ⟨entry', present', same⟩ := found present
      exact ⟨id, entry', present', same ▸ oper, same ▸ rfl⟩
  · rw [peercnt, toLde]
    exact known.counted
  · intro id entry present
    obtain ⟨entry', present', same⟩ := found present
    rw [peercnt, ← same]
    exact known.earlier id entry' present'
  · intro id other entry₁ entry₂ different present₁ present₂
    obtain ⟨entry₁', present₁', same₁⟩ := found present₁
    obtain ⟨entry₂', present₂', same₂⟩ := found present₂
    rw [← same₁, ← same₂]
    exact known.distinct id other entry₁' entry₂' different present₁' present₂'
  · intro id entry present
    obtain ⟨entry', present', same⟩ := found present
    rw [← same]
    exact known.nonzero id entry' present'

theorem LdpEngine.Known.erase (known : engine.Known) (present : engine.nbrs[id]? = some entry)
    (closed : entry.nbr.state ≠ .oper) : { engine with nbrs := engine.nbrs.erase id }.Known := by
  have found {other : InAddr} {entry' : NbrEntry}
      (present : (engine.nbrs.erase id)[other]? = some entry') :
      engine.nbrs[other]? = some entry' := by
    rw [Tree.getElem?_erase] at present
    split at present
    · cases present
    · exact present
  constructor
  · exact known.orderly
  · intro peerid
    refine (known.known peerid).trans ⟨?_, ?_⟩
    · rintro ⟨other, entry', present', oper, rfl⟩
      refine ⟨other, entry', ?_, oper, rfl⟩
      show (engine.nbrs.erase id)[other]? = some entry'
      rw [Tree.getElem?_erase, if_neg]
      · exact present'
      · rintro rfl
        cases present.symm.trans present'
        exact closed oper
    · rintro ⟨other, entry', present', oper, rfl⟩
      exact ⟨other, entry', found present', oper, rfl⟩
  · exact known.counted
  · exact fun other entry' present' => known.earlier other entry' (found present')
  · exact fun first second entry₁ entry₂ different present₁ present₂ =>
      known.distinct first second entry₁ entry₂ different (found present₁) (found present₂)
  · exact fun other entry' present' => known.nonzero other entry' (found present')

/-! ### Steps -/

/-- A step that runs a handler for one neighbor. -/
theorem LdpEngine.Named.store (named : engine.Named)
    (own : engine.nbrs[id]? = some entry ∨
      engine.nbrs[id]? = none ∧ entry.nbr.peerid = 0 ∧ entry.nbr.state ≠ .oper) {ldpe : Ldpe}
    (handled : ∀ others operational, (engine.view id entry).Named others operational →
      ldpe.Named others operational) (lists : LabelList → List MappingEntry) :
    (engine.store id { entry with lists } ldpe).Named := by
  rcases named with known | overflown
  · exact (handled _ _ (.inl (known.view own))).imp (fun kept => known.store kept)
      fun overflown => overflown
  · -- what a handler keeps whoever the others are includes the overflow
    rcases handled [0] ∅ (.inr overflown) with kept | overflown
    · exact absurd List.mem_cons_self kept.nonzero.1
    · exact .inr overflown

theorem LdpEngine.Named.step (named : engine.Named) {input : LdpeInput}
    (leads : ldpeStep engine input = some engine') : engine'.Named := by
  cases engineStep_of_ldpeStep leads with
  | idle => exact named
  | conf => exact named.imp (fun known => known.congr rfl rfl fun _ => rfl) fun overflown => overflown
  | @nbrNew id af dsTlv pending absent entry fresh =>
    have idle : entry.nbr.peerid = 0 ∧ entry.nbr.state ≠ .oper := by
      rw [fresh]
      exact ⟨rfl, nofun⟩
    exact named.store (.inr ⟨absent, idle⟩) (fun _ _ view => view.sessionAccept pending) entry.lists
  | @nbrDel id entry present =>
    have closed := named.store (.inl present) (fun _ _ view => view.nbrFsm .closeSession) entry.lists
    refine closed.imp (fun known => ?_) fun overflown => overflown
    refine known.erase (by rw [store_nbrs, if_pos rfl]) fun oper => ?_
    exact absurd ((closeSession_state _).symm.trans oper) nofun
  | nbr present handled =>
    exact named.store (.inl present) (fun _ _ view => view.nbrInput handled) _
  | @add _ _ id entry present oper list map =>
    refine named.imp (fun known => known.congr rfl rfl fun other => ?_) fun overflown => overflown
    rw [Tree.getElem?_insert]
    split
    · rename_i same
      rw [← same, present]
      rfl
    · rfl
  | @addEnd _ _ id entry present oper list _ returned =>
    have sent := named.store (.inl present) (fun _ _ view => returnedState_of_keeps
      (keeps_sendLabelmessage unwritten_named (fun _ named => named.nbrFsm _) _ _ _) view returned)
      fun other => if other = list then [] else entry.lists other
    exact sent.imp (fun known => known.congr rfl rfl fun _ => rfl) fun overflown => overflown
  | notificationSend present oper nm =>
    refine named.store (.inl present) (fun _ _ view => ?_) _
    exact unwritten_named _ _ (writes_sendNotificationFull ..) view

end Table

/-! ### Runs -/

/-- The two engines agree on who the neighbors are: no session has come up under the peerid that
stands for none, the neighbors in `nbrs_by_pid` have peerids of their own, a label decision engine
that is told in order what is on the pipe, between whatever else happens to it, never knows the
neighbor yet that comes up, and every label message and address lies between the news that its
neighbor is up and the next one that it is down. -/
structure LdpEngine.Agrees (engine : LdpEngine) : Prop where
  nonzero : ∀ (peerid : UInt32) (id : InAddr) (v4Enabled v6Enabled : Bool),
    .neighborUp peerid id v4Enabled v6Enabled ∈ engine.toLde → peerid ≠ 0
  distinct : ∀ (id other : InAddr) (entry entry' : NbrEntry), id ≠ other →
    engine.nbrs[id]? = some entry → engine.nbrs[other]? = some entry' → entry.nbr.peerid ≠ 0 →
      entry.nbr.peerid ≠ entry'.nbr.peerid
  fresh : ∀ (conf : LdeConf) (before after : List LdeInput) (peerid : UInt32) (id : InAddr)
    (v4Enabled v6Enabled : Bool),
    (before ++ .event (.neighborUp peerid id v4Enabled v6Enabled) :: after).filterMap
      LdeInput.fromLdpe <+: engine.toLde → peerid ∉ (before.foldl ldeInput (Lde.start conf)).ldeNbrs
  between : ∀ (before after : List LdeEvent) (imsg : LdeEvent) (peerid : UInt32),
    engine.toLde = before ++ imsg :: after → imsg.peer = some peerid →
      ∃ earlier since id v4Enabled v6Enabled,
        before = earlier ++ .neighborUp peerid id v4Enabled v6Enabled :: since ∧
          .neighborDown peerid ∉ since

theorem LdpEngine.Known.agrees {engine : LdpEngine} (known : engine.Known) : engine.Agrees where
  nonzero := by
    rintro peerid id v4Enabled v6Enabled member
    obtain ⟨before, after, split⟩ := List.append_of_mem member
    have orderly := known.orderly
    rw [split] at orderly
    exact orderly.timely.1
  distinct := known.distinct
  fresh conf _ _ _ _ _ _ told := replay_fresh known.orderly told conf
  between before after imsg peerid split own := by
    have orderly := known.orderly
    rw [split] at orderly
    have timely := orderly.timely
    refine up_of_registered ?_
    cases imsg with
    | neighborUp => cases own
    | _ => exact timely peerid own

theorem LdpEngine.start_known (conf : LdpeConf) : ({ conf } : LdpEngine).Known := by
  have empty {id : InAddr} {entry : NbrEntry}
      (present : ({ conf } : LdpEngine).nbrs[id]? = some entry) : False := by
    rw [Std.ExtTreeMap.getElem?_empty] at present
    cases present
  refine ⟨trivial, fun peerid => ⟨fun member => ?_, ?_⟩, rfl, ?_, ?_, ?_⟩
  · exact absurd member (Set.notMem_empty peerid)
  · rintro ⟨_, _, present, _⟩
    exact (empty present).elim
  · exact fun _ _ present => (empty present).elim
  · exact fun _ _ _ _ _ present => (empty present).elim
  · exact fun _ _ present => (empty present).elim

/-- The counter comes around with the first session for which no peerid is left. -/
theorem LdpEngine.Named.agrees_iff {engine : LdpEngine} (named : engine.Named) :
    engine.Agrees ↔ sessionsUp engine.toLde ≤ 2 ^ 32 - 2 := by
  rcases named with known | ⟨many, id, v4Enabled, v6Enabled, member⟩
  · have counted := known.counted
    have bound := engine.peercnt.toNat_lt
    exact iff_of_true known.agrees (by omega)
  · exact iff_of_false (fun agrees => agrees.nonzero 0 id v4Enabled v6Enabled member rfl) (by omega)

theorem named_of_reached {conf : LdpeConf} {engine : LdpEngine}
    (reached : Run.Reaches ldpeStep (fun _ _ => True) { conf } engine) : engine.Named :=
  Run.Reaches.invariant LdpEngine.Named (fun _ _ _ named _ leads => named.step leads)
    (.inl (LdpEngine.start_known conf)) reached

/-- In every state that the engine reaches, the two engines agree on who the neighbors are exactly if
so far no more sessions have come up than there are peerids after the first one. -/
theorem agrees_iff_of_reached (conf : LdpeConf) (engine : LdpEngine)
    (reached : Run.Reaches ldpeStep (fun _ _ => True) { conf } engine) :
    engine.Agrees ↔ sessionsUp engine.toLde ≤ 2 ^ 32 - 2 :=
  (named_of_reached reached).agrees_iff

/-! ### A session that comes and goes -/

/-- The neighbor of `sessionInputs`. -/
def flappingNbr (state : NbrState) (tcp : Option TcpConn)
    (keepaliveTimer keepaliveTimeout initTimeout : Bool) (keepalive maxPduLen : UInt16)
    (peerid : UInt32) (idtimerCnt : Nat) (initdelayTimer : Bool) : Nbr where
  tcp := tcp
  peerid := peerid
  af := .inet
  v4Enabled := true
  v6Enabled := false
  id := 0x0a000002
  state := state
  idtimerCnt := idtimerCnt
  keepalive := keepalive
  maxPduLen := maxPduLen
  keepaliveTimer := keepaliveTimer
  keepaliveTimeout := keepaliveTimeout
  initTimeout := initTimeout
  initdelayTimer := initdelayTimer

/-- The engine as it is seen from the only neighbor. -/
def flappingView (nbr : Nbr) (peercnt msgcnt : UInt32) (sent : List (List UInt8))
    (toLde : List LdeEvent) (fault : Bool) : Ldpe where
  rtrId := plainConf.rtrId
  nbrKeepalive := none
  afKeepalive := plainConf.afKeepalive
  addrList := []
  peercnt := peercnt
  peerids := []
  msgcnt := msgcnt
  nbr := nbr
  sent := sent
  toLde := toLde
  fault := fault

/-- An engine whose only neighbor is at some stage, after as many sessions. -/
structure Flapping (stage : Nbr → Prop) (sessions : Nat) (engine : LdpEngine) : Prop where
  conf : engine.conf = plainConf
  alone : ∀ other : InAddr, other ≠ 0x0a000002 → engine.nbrs[other]? = none
  present : ∃ entry, engine.nbrs[(0x0a000002 : InAddr)]? = some entry ∧ stage entry.nbr
  counted : sessionsUp engine.toLde = sessions

/-- What a handler does to the only neighbor. -/
def Leads (stage : Nbr → Prop) (input : NbrInput) (stage' : Nbr → Prop) (more : Nat) : Prop :=
  ∀ nbr peercnt msgcnt sent toLde fault, stage nbr → ∃ nbr' toLde',
    (nbrInput (flappingView nbr peercnt msgcnt sent toLde fault) input).map
      (fun ldpe => (ldpe.nbr, ldpe.toLde)) = some (nbr', toLde') ∧ stage' nbr' ∧
        sessionsUp toLde' = sessionsUp toLde + more

section Flapping

variable {stage stage' : Nbr → Prop} {sessions : Nat} {engine : LdpEngine}

theorem Flapping.view (flapping : Flapping stage sessions engine) (entry : NbrEntry) :
    engine.view 0x0a000002 entry =
      flappingView entry.nbr engine.peercnt engine.msgcnt entry.sent engine.toLde engine.fault := by
  have nobody : engine.peerids 0x0a000002 = [] := by
    refine List.eq_nil_iff_forall_not_mem.mpr fun peerid member => ?_
    obtain ⟨_, other, entry, different, present, _⟩ := mem_peerids.mp member
    exact absurd ((flapping.alone other different).symm.trans present) nofun
  rw [LdpEngine.view, nobody, flapping.conf]
  rfl

theorem Flapping.step (flapping : Flapping stage sessions engine) {input : NbrInput} {more : Nat}
    (leads : Leads stage input stage' more) :
    ∃ engine', ldpeStep engine (.nbr 0x0a000002 input) = some engine' ∧
      Flapping stage' (sessions + more) engine' := by
  obtain ⟨entry, present, now⟩ := flapping.present
  obtain ⟨_, _, handled, next, counted⟩ :=
    leads entry.nbr engine.peercnt engine.msgcnt entry.sent engine.toLde engine.fault now
  rw [← flapping.view entry] at handled
  obtain ⟨ldpe', returned, same⟩ := Option.map_eq_some_iff.mp handled
  cases same
  refine ⟨engine.store 0x0a000002 entry ldpe', ?_, flapping.conf, fun other different => ?_, ?_, ?_⟩
  · rw [ldpeStep, ldpeNbrStep, present]
    exact congrArg (Option.map _) returned
  · rw [store_nbrs, if_neg (Ne.symm different)]
    exact flapping.alone other different
  · refine ⟨{ entry with nbr := ldpe'.nbr, sent := ldpe'.sent }, ?_, next⟩
    rw [store_nbrs, if_pos rfl]
  · exact counted.trans (congrArg (· + more) flapping.counted)

end Flapping

/-- No session. -/
def FlappingIdle (nbr : Nbr) : Prop :=
  ∃ keepalive maxPduLen peerid idtimerCnt initdelayTimer, nbr =
    flappingNbr .present none false false false keepalive maxPduLen peerid idtimerCnt initdelayTimer

/-- A connection. -/
def FlappingConnected (nbr : Nbr) : Prop :=
  ∃ keepalive maxPduLen peerid idtimerCnt initdelayTimer, nbr =
    flappingNbr .initial (some {}) false false true keepalive maxPduLen peerid idtimerCnt initdelayTimer

/-- An Initialization message has been received. -/
def FlappingNegotiated (nbr : Nbr) : Prop :=
  ∃ peerid idtimerCnt initdelayTimer, nbr =
    flappingNbr .openrec (some {}) false false true 180 4096 peerid idtimerCnt initdelayTimer

/-- An operational session. -/
def FlappingRunning (nbr : Nbr) : Prop :=
  ∃ peerid idtimerCnt initdelayTimer, nbr =
    flappingNbr .oper (some {}) true true false 180 4096 peerid idtimerCnt initdelayTimer

theorem leads_accept : Leads FlappingIdle (.accept true) FlappingConnected 0 := by
  rintro _ peercnt msgcnt sent toLde fault ⟨keepalive, maxPduLen, peerid, idtimerCnt, initdelayTimer, rfl⟩
  refine ⟨_, _, ?_, ⟨keepalive, maxPduLen, peerid, idtimerCnt, initdelayTimer, rfl⟩, rfl⟩
  cbv

theorem leads_init : Leads FlappingConnected (.read 4 (.data peerInit)) FlappingNegotiated 0 := by
  rintro _ peercnt msgcnt sent toLde fault ⟨keepalive, maxPduLen, peerid, idtimerCnt, initdelayTimer, rfl⟩
  refine ⟨_, _, ?_, ⟨peerid, idtimerCnt, initdelayTimer, rfl⟩, rfl⟩
  cbv

theorem leads_keepalive : Leads FlappingNegotiated (.read 4 (.data peerKeepalive)) FlappingRunning 1 := by
  rintro _ peercnt msgcnt sent toLde fault ⟨peerid, idtimerCnt, initdelayTimer, rfl⟩
  refine ⟨_, toLde ++ [.neighborUp (peercnt + 1) 0x0a000002 true false] ++
    [.labelMappingFull (peercnt + 1)], ?_, ⟨peercnt + 1, 0, initdelayTimer, rfl⟩, ?_⟩
  · cbv
  · rw [sessionsUp_append, sessionsUp_append]
    rfl

theorem leads_writeError : Leads FlappingRunning .writeError FlappingIdle 0 := by
  rintro _ peercnt msgcnt sent toLde fault ⟨peerid, idtimerCnt, initdelayTimer, rfl⟩
  refine ⟨_, toLde ++ [.neighborDown peerid], ?_, ⟨180, 4096, peerid, idtimerCnt, initdelayTimer, rfl⟩, ?_⟩
  · cbv
  · rw [sessionsUp_append]
    rfl

/-- The session may come and go any number of times. -/
theorem flapping_reached (sessions : Nat) : ∃ engine,
    Run.Reaches ldpeStep (fun _ _ => True) { conf := plainConf } engine ∧
      Flapping FlappingIdle sessions engine := by
  induction sessions with
  | zero =>
    let entry : NbrEntry := ⟨.fresh 0x0a000002 .inet false, fun _ => [], []⟩
    let start : LdpEngine := { conf := plainConf }
    have absent : (0x0a000002 : InAddr) ∉ start.nbrs := Std.ExtTreeMap.not_mem_empty
    have leads : ldpeStep start (.nbrNew 0x0a000002 .inet false false) =
        some (start.store 0x0a000002 entry (start.view 0x0a000002 entry)) := by
      rw [ldpeStep, nbrNew, if_neg absent]
      rfl
    refine ⟨_, Run.Reaches.start.step trivial leads, rfl, fun other different => ?_, ?_, rfl⟩
    · rw [store_nbrs, if_neg (Ne.symm different)]
      exact Std.ExtTreeMap.getElem?_empty
    · refine ⟨entry, ?_, 0, 0, 0, 0, false, rfl⟩
      rw [store_nbrs, if_pos rfl]
      rfl
  | succ sessions inductionHypothesis =>
    obtain ⟨engine, reached, idle⟩ := inductionHypothesis
    obtain ⟨engine₁, accepted, connected⟩ := idle.step leads_accept
    obtain ⟨engine₂, opened, negotiated⟩ := connected.step leads_init
    obtain ⟨engine₃, up, running⟩ := negotiated.step leads_keepalive
    obtain ⟨engine₄, down, idle'⟩ := running.step leads_writeError
    exact ⟨engine₄, ((((reached.step trivial accepted).step trivial opened).step trivial up).step
      trivial down), idle'⟩

theorem agrees_iff_of_reached_seven : ∃ engine, Flapping FlappingIdle 7 engine ∧ engine.Agrees := by
  obtain ⟨engine, reached, flapping⟩ := flapping_reached 7
  refine ⟨engine, flapping, (agrees_iff_of_reached plainConf engine reached).mpr ?_⟩
  rw [flapping.counted]
  decide

/-- A session that has come up 4294967295 times has the peerid that stands for none. -/
theorem flapping_not_agrees : ∃ engine,
    Run.Reaches ldpeStep (fun _ _ => True) { conf := plainConf } engine ∧ ¬engine.Agrees := by
  obtain ⟨engine, reached, flapping⟩ := flapping_reached 4294967295
  refine ⟨engine, reached, fun agrees => ?_⟩
  have few := (named_of_reached reached).agrees_iff.mp agrees
  rw [flapping.counted] at few
  exact absurd few (by decide)

end Ldpd
