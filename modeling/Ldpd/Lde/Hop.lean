/-
This file is about one hop of a label switched path. The label that an engine uses at a
nexthop of its neighbor is the label under which the neighbor expects the packets.
-/

import Ldpd.Lde.Agreement

namespace Ldpd

/-! ### The labels in use at both ends -/

/-- An engine with one priority of every nexthop address and no stale labels. -/
structure Lde.Fresh (lde : Lde) : Prop where
  wellFormed : lde.bindings.WellFormed
  onePriority : lde.bindings.OnePriority
  noStale : lde.bindings.NoStale

/-- A step after which the nexthop addresses have one priority at both ends. -/
def EndsOnePriority (peerid : Bool → UInt32) (ends : Ends) (event : EndsEvent) : Prop :=
  ∀ side, ((endsStep peerid ends event).lde side).bindings.OnePriority

instance (peerid : Bool → UInt32) (ends : Ends) (event : EndsEvent) :
    Decidable (EndsOnePriority peerid ends event) :=
  inferInstanceAs (Decidable (∀ side : Bool,
    ((endsStep peerid ends event).lde side).bindings.OnePriority))

theorem Lde.Fresh.ldeStep {lde : Lde} (fresh : lde.Fresh) {event : LdeEvent}
    (onePriority : OnePriorityStep lde event) : (ldeStep lde event).Fresh :=
  have step := ldeStep_refines lde fresh.wellFormed fresh.onePriority event
  ⟨step.wellFormed fresh.wellFormed, onePriority, step.noStale fresh.wellFormed fresh.noStale⟩

theorem fresh_of_run (conf : LdeConf) (events : List LdeEvent)
    (onePriority : Run.Allowed ldeStep OnePriorityStep (Lde.start conf) events) :
    (events.foldl ldeStep (Lde.start conf)).Fresh :=
  Run.foldl_of_allowed Lde.Fresh (fun _ _ fresh allowed => fresh.ldeStep allowed)
    ⟨start_wellFormed conf, start_onePriority conf, start_noStale conf⟩ onePriority

/-- Every step at the two ends is an event at one of them, or nothing. -/
theorem endsStep_lde (peerid : Bool → UInt32) (ends : Ends) (event : EndsEvent) (side : Bool) :
    (endsStep peerid ends event).lde side = ends.lde side ∨
      ∃ heard, (endsStep peerid ends event).lde side = ldeStep (ends.lde side) heard := by
  cases event with
  | own actor event =>
    by_cases same : side = actor
    · subst same
      exact Or.inr ⟨event, Function.update_self ..⟩
    · exact Or.inl (Function.update_of_ne same ..)
  | hear actor =>
    rw [endsStep]
    split
    · exact Or.inl rfl
    · rename_i imsg _
      dsimp only
      by_cases same : side = actor
      · subst same
        rw [Function.update_self, deliver_eq]
        cases imsg.event (peerid side) with
        | none => exact Or.inl rfl
        | some event => exact Or.inr ⟨event, rfl⟩
      · exact Or.inl (Function.update_of_ne same ..)

theorem fresh_endsStep {peerid : Bool → UInt32} {ends : Ends} (fresh : ∀ side, (ends.lde side).Fresh)
    {event : EndsEvent} (onePriority : EndsOnePriority peerid ends event) (side : Bool) :
    ((endsStep peerid ends event).lde side).Fresh := by
  rcases endsStep_lde peerid ends event side with same | ⟨heard, step⟩
  · rw [same]
    exact fresh side
  · rw [step]
    refine (fresh side).ldeStep ?_
    rw [OnePriorityStep, ← step]
    exact onePriority side

/-! ### One hop -/

/-- What is advertised is a local label. -/
theorem localLabel_of_advertised {lde : Lde} {peerid : UInt32} {fec : Fec} {label : UInt32}
    (advertised : lde.advertised peerid fec = some label) : lde.localLabel fec = label := by
  rw [Lde.advertised] at advertised
  split at advertised
  · cases advertised
  · split at advertised
    · exact Option.some_inj.mp advertised
    · cases advertised

/-- When the other end has been told all labels and has read them, a label that it uses at a nexthop whose
address only this end has listed is the local label of the FEC at this end. -/
theorem Ends.Told.localLabel {peerid : Bool → UInt32} {ends : Ends} {side : Bool}
    (told : ends.Told peerid side) (fresh : (ends.lde !side).Fresh)
    (drained : ends.read (!side) = (ends.queue peerid side).length) {fec : Fec}
    (route : fec.af ≠ none) {fnh : FecNh} (member : fnh ∈ (ends.lde !side).nexthops fec)
    (inUse : fnh.remoteLabel ≠ noLabel)
    (alone : ∀ (other : UInt32) ln, (ends.lde !side).ldeNbrs[other]? = some ln →
      fnh.nexthop ∈ ln.addrList → other = peerid !side) :
    (ends.lde side).localLabel fec = fnh.remoteLabel := by
  obtain ⟨other, view, me, found, owned, recorded, label⟩ := fresh.noStale fec fnh member inUse
  obtain ⟨ln, present, rfl⟩ := Option.map_eq_some_iff.mp found
  obtain ⟨af, family⟩ := Option.ne_none_iff_exists'.mp route
  have mine := alone other ln present (mem_addrList_of_owns family owned)
  subst mine
  have known : (ends.lde !side).received (peerid !side) fec = some fnh.remoteLabel := by
    rw [Lde.received, present, Option.bind_some, ← label]
    exact congrArg (Option.map Map.label) recorded
  refine localLabel_of_advertised ((told fec route).symm.trans ?_)
  rw [Ends.willKnow, Fifo.outcome_drained _ drained.ge, known]

/-- A label in use at a nexthop whose address only the other end of a session has listed is the local
label of the FEC at the other end, once that end has told all its labels and all it has queued is
read. -/
theorem hop_label (peerid : Bool → UInt32) (conf : Bool → LdeConf) (past : Bool → List LdeEvent)
    (strangers : ∀ side, peerid side ∉ ((past side).foldl ldeStep (Lde.start (conf side))).ldeNbrs)
    (id : Bool → InAddr) (v4Enabled v6Enabled : Bool → Bool)
    (ordered : ∀ side, Run.Allowed ldeStep OnePriorityStep (Lde.start (conf side))
      (past side ++
        [.neighborUp (peerid side) (id side) (v4Enabled side) (v6Enabled side)]))
    (events : List EndsEvent)
    (allowed : Run.Allowed (endsStep peerid)
      (fun ends event => EndsAllowed peerid ends event ∧ EndsOnePriority peerid ends event)
      (sessionUp peerid (fun side => (past side).foldl ldeStep (Lde.start (conf side))) id v4Enabled
        v6Enabled) events)
    (side : Bool) (snapped : .own side (.labelMappingFull (peerid side)) ∈ events) (ends : Ends)
    (run : events.foldl (endsStep peerid)
      (sessionUp peerid (fun side => (past side).foldl ldeStep (Lde.start (conf side))) id v4Enabled
        v6Enabled) = ends)
    (drained : ends.read (!side) = (ends.queue peerid side).length) (fec : Fec)
    (route : fec.af ≠ none) (fnh : FecNh) (member : fnh ∈ (ends.lde !side).nexthops fec)
    (inUse : fnh.remoteLabel ≠ noLabel)
    (alone : ∀ (other : UInt32) ln, (ends.lde !side).ldeNbrs[other]? = some ln →
      fnh.nexthop ∈ ln.addrList → other = peerid !side) :
    (ends.lde side).localLabel fec = fnh.remoteLabel := by
  have start := inOrder_sessionUp (fun side => standing_of_run (conf side) (past side)) strangers id
    v4Enabled v6Enabled
  have told := (start.run (allowed.mono fun _ _ both => both.1)).2 side (Or.inr snapped)
  have fresh := Run.foldl_of_allowed (fun ends : Ends => ∀ side, (ends.lde side).Fresh)
    (fun ends event fresh both side => fresh_endsStep fresh both.2 side) (fun side => ?_) allowed
  · rw [run] at told fresh
    exact told.localLabel (fresh !side) drained route member inUse alone
  · have up := fresh_of_run (conf side) _ (ordered side)
    rw [List.foldl_append] at up
    exact up

/-! ### Packets to 11.0.0.0/8 -/

/-- The only neighbor of an engine. -/
theorem eq_of_keys {lde : Lde} {peerid other : UInt32} {ln : LdeNbr}
    (keys : lde.ldeNbrs.keys = [peerid]) (found : lde.ldeNbrs[other]? = some ln) :
    other = peerid := by
  have listed := Std.ExtTreeMap.mem_keys.mpr ((Tree.mem_iff_getElem? _ _).mpr ⟨ln, found⟩)
  rw [keys] at listed
  exact List.mem_singleton.mp listed

/-- The second end has a route to 11.0.0.0/8 over an address of the first one, which tells it its
label of the network. -/
def oneHop : List EndsEvent :=
  [.own true (.networkAdd (pathOver 0x0a000001)), .own true (.addressAdd 2 (.v4 0x0a000001))] ++
    oneRoute

theorem oneHop_allowed :
    Run.Allowed (endsStep sessionPeerid)
      (fun ends event => EndsAllowed sessionPeerid ends event ∧
        EndsOnePriority sessionPeerid ends event) freshSession oneHop := by
  have room : (freshSession.lde true).label < mplsLabelMax := by decide
  have room' : ((endsStep sessionPeerid (endsStep sessionPeerid freshSession (oneHop.get ⟨0, by decide⟩))
      (oneHop.get ⟨1, by decide⟩)).lde false).label < mplsLabelMax := by decide +kernel
  refine ⟨⟨⟨trivial, fun _ _ => room⟩, by decide +kernel⟩,
    ⟨⟨trivial, fun fec takes => absurd takes (not_takes rfl fec)⟩, by decide +kernel⟩,
    ⟨⟨trivial, fun _ _ => room'⟩, by decide +kernel⟩,
    ⟨⟨trivial, fun fec takes => absurd takes (not_takes rfl fec)⟩, by decide +kernel⟩,
    ⟨trivial, by decide +kernel⟩, ⟨trivial, by decide +kernel⟩, ⟨trivial, by decide +kernel⟩,
    ⟨trivial, by decide +kernel⟩, trivial⟩

theorem hop_label_oneHop :
    ((oneHop.foldl (endsStep sessionPeerid) freshSession).lde false).localLabel (.ipv4 0x0b000000 8) =
        16 ∧
      (⟨.v4 0x0a000001, 16, 32⟩ : FecNh) ∈
        ((oneHop.foldl (endsStep sessionPeerid) freshSession).lde true).nexthops
          (.ipv4 0x0b000000 8) := by
  have member : (⟨.v4 0x0a000001, 16, 32⟩ : FecNh) ∈
      ((oneHop.foldl (endsStep sessionPeerid) freshSession).lde true).nexthops
        (.ipv4 0x0b000000 8) := by decide +kernel
  have keys : ((oneHop.foldl (endsStep sessionPeerid) freshSession).lde true).ldeNbrs.keys = [2] := by
    decide +kernel
  refine ⟨hop_label sessionPeerid (fun _ => {}) (fun _ => []) (fun _ => Std.ExtTreeMap.not_mem_empty)
    (fun _ => 8) (fun _ => true) (fun _ => true) (by decide +kernel) oneHop oneHop_allowed false
    (by simp [oneHop, oneRoute, sessionPeerid]) _ rfl (by decide +kernel) _ (by decide) _ member
    (by decide) fun _ _ found _ => eq_of_keys keys found, member⟩

end Ldpd
