/-
This file puts two routers together. Each of them is a parent process with its kernel and an
engine, and the engines have a session. Once everything that was written has been read,
what one of the kernels sends to the other router it sends with the label under which that
router expects it, and the kernel there carries it on.
-/

import Ldpd.Daemon
import Ldpd.Lde.Hop

namespace Ldpd

/-! ### Two routers -/

/-- Two daemons at the ends of a session, and how many of the messages that the other engine has queued
for it each engine has read. -/
structure Routers where
  daemon : Bool → Daemon
  read : Bool → Nat

/-- The two engines. -/
def Routers.ends (routers : Routers) : Ends where
  lde side := (routers.daemon side).lde
  read := routers.read

/-- Something happens at one of the routers, or its engine reads the next message of the other one. -/
inductive RoutersEvent where
  | own (side : Bool) (event : DaemonEvent)
  | hear (side : Bool)

section Routers

variable (peerid : Bool → UInt32)

/-- One step at one of the routers. -/
def routersStep (routers : Routers) : RoutersEvent → Routers
  | .own side event =>
    { routers with
      daemon := Function.update routers.daemon side (daemonStep (routers.daemon side) event) }
  | .hear side =>
    match (routers.ends.queue peerid !side)[routers.read side]? with
    | none => routers
    | some imsg =>
      { daemon := Function.update routers.daemon side
          { routers.daemon side with lde := deliver (peerid side) (routers.daemon side).lde imsg }
        read := Function.update routers.read side (routers.read side + 1) }

/-- The session comes up between the routers. -/
def routersUp (daemon : Bool → Daemon) (id : Bool → InAddr) (v4Enabled v6Enabled : Bool → Bool) :
    Routers where
  daemon side := daemonStep (daemon side)
    (.engine (.neighborUp (peerid side) (id side) (v4Enabled side) (v6Enabled side)))
  read := (sessionUp peerid (fun side => (daemon side).lde) id v4Enabled v6Enabled).read

/-- What an event at a router is for its engine. -/
def DaemonEvent.heard (daemon : Daemon) : DaemonEvent → Option LdeEvent
  | .engine event => some event
  | .readRoute => daemon.kr.toLde[daemon.routesRead]?.bind NetworkImsg.event
  | .rtmsg _ | .readLabels => none

/-- What is required of each router and of the session. -/
def RoutersAllowed (routers : Routers) : RoutersEvent → Prop
  | .own side event =>
    DaemonAllowed (routers.daemon side) event ∧
      ∀ heard, event.heard (routers.daemon side) = some heard →
        EndsAllowed peerid routers.ends (.own side heard)
  | .hear _ => True

/-- A step after which the nexthop addresses have one priority. -/
def DaemonOnePriority (daemon : Daemon) (event : DaemonEvent) : Prop :=
  (daemonStep daemon event).lde.bindings.OnePriority

/-- A step after which the nexthop addresses have one priority at both routers. -/
def RoutersOnePriority (routers : Routers) (event : RoutersEvent) : Prop :=
  ∀ side, ((routersStep peerid routers event).daemon side).lde.bindings.OnePriority

instance (routers : Routers) (event : RoutersEvent) :
    Decidable (RoutersOnePriority peerid routers event) :=
  inferInstanceAs (Decidable (∀ side : Bool,
    ((routersStep peerid routers event).daemon side).lde.bindings.OnePriority))

/-! ### The engines -/

variable {peerid} {routers : Routers}

theorem lde_daemonStep (daemon : Daemon) (event : DaemonEvent) :
    (daemonStep daemon event).lde = (event.heard daemon).elim daemon.lde (ldeStep daemon.lde) := by
  cases event with
  | rtmsg | engine => rfl
  | readLabels => exact readLabels_lde daemon
  | readRoute =>
    rw [daemonStep, DaemonEvent.heard]
    cases daemon.kr.toLde[daemon.routesRead]? <;> rfl

/-- The engine of a daemon runs as an engine. -/
theorem lde_after (fibSync : Bool) (conf : LdeConf) (events : List DaemonEvent) :
    ∃ heard : List LdeEvent,
      (Daemon.after fibSync conf events).lde = heard.foldl ldeStep (Lde.start conf) := by
  induction events using List.reverseRecOn with
  | nil => exact ⟨[], rfl⟩
  | append_singleton events event inductionHypothesis =>
    obtain ⟨heard, same⟩ := inductionHypothesis
    rw [Daemon.after] at same
    rw [Daemon.after, List.foldl_append, List.foldl_cons, List.foldl_nil, lde_daemonStep]
    cases event.heard (events.foldl daemonStep (Daemon.start fibSync conf)) with
    | none => exact ⟨heard, same⟩
    | some last =>
      refine ⟨heard ++ [last], ?_⟩
      rw [List.foldl_append, ← same]
      rfl

theorem fresh_daemonStep {daemon : Daemon} (fresh : daemon.lde.Fresh) {event : DaemonEvent}
    (onePriority : DaemonOnePriority daemon event) : (daemonStep daemon event).lde.Fresh := by
  rw [DaemonOnePriority, lde_daemonStep] at onePriority
  rw [lde_daemonStep]
  cases heard : event.heard daemon with
  | none => exact fresh
  | some event =>
    rw [heard] at onePriority
    exact fresh.ldeStep onePriority

/-- A new neighbor changes no nexthop. -/
theorem Lde.Fresh.neighborUp {lde : Lde} (fresh : lde.Fresh) (self : UInt32) (id : InAddr)
    (v4Enabled v6Enabled : Bool) :
    (Ldpd.ldeStep lde (.neighborUp self id v4Enabled v6Enabled)).Fresh := by
  have kept := FecsKept.ldeNbrNew lde self id v4Enabled v6Enabled
  have origin {fec : Fec} {fnh : FecNh}
      (member : fnh ∈ (ldeNbrNew lde self id v4Enabled v6Enabled).nexthops fec) :
      ∃ old ∈ lde.nexthops fec, old.nexthop = fnh.nexthop ∧ old.priority = fnh.priority := by
    have key : (fnh.nexthop, fnh.priority) ∈ nexthopKeys (lde.nexthops fec) :=
      kept.keys fec ▸ List.mem_map_of_mem member
    obtain ⟨old, known, same⟩ := List.mem_map.mp key
    exact ⟨old, known, congrArg Prod.fst same, congrArg Prod.snd same⟩
  refine fresh.ldeStep fun fec fnh member other member' same => ?_
  obtain ⟨old, known, nexthop, priority⟩ := origin member
  obtain ⟨old', known', nexthop', priority'⟩ := origin member'
  rw [← priority, ← priority']
  exact fresh.onePriority fec old known old' known' (nexthop.trans (same.trans nexthop'.symm))

theorem ends_update (routers : Routers) (side : Bool) (daemon : Daemon) (read : Bool → Nat) :
    Routers.ends { daemon := Function.update routers.daemon side daemon, read } =
      { lde := Function.update routers.ends.lde side daemon.lde, read } := by
  refine congrArg (Ends.mk · read) (funext fun other => ?_)
  show (Function.update routers.daemon side daemon other).lde =
    Function.update routers.ends.lde side daemon.lde other
  by_cases same : other = side
  · subst same
    rw [Function.update_self, Function.update_self]
  · rw [Function.update_of_ne same, Function.update_of_ne same]
    rfl

/-- A step of the routers is a step of the engines, or nothing to them. -/
theorem ends_routersStep {event : RoutersEvent} (allowed : RoutersAllowed peerid routers event) :
    ((routersStep peerid routers event).ends = routers.ends ∧
        ∀ side own, event ≠ .own side (.engine own)) ∨
      ∃ moved, (routersStep peerid routers event).ends = endsStep peerid routers.ends moved ∧
        EndsAllowed peerid routers.ends moved ∧
        (∀ side, event = .own side (.engine (.labelMappingFull (peerid side))) →
          moved = .own side (.labelMappingFull (peerid side))) := by
  cases event with
  | own side own =>
    have step : (routersStep peerid routers (.own side own)).ends =
        { routers.ends with
          lde := Function.update routers.ends.lde side
            ((own.heard (routers.daemon side)).elim (routers.ends.lde side)
              (ldeStep (routers.ends.lde side))) } := by
      rw [routersStep, ends_update, lde_daemonStep]
      rfl
    rw [step]
    cases heard : own.heard (routers.daemon side) with
    | none =>
      refine .inl ⟨?_, fun other event same => ?_⟩
      · rw [Option.elim_none, Function.update_eq_self]
      · cases same
        cases heard
    | some event =>
      refine .inr ⟨.own side event, rfl, allowed.2 event heard, fun other same => ?_⟩
      cases same
      cases heard
      rfl
  | hear side =>
    refine .inr ⟨.hear side, ?_, trivial, fun other same => by cases same⟩
    rw [routersStep, endsStep, show routers.ends.read = routers.read from rfl]
    cases (routers.ends.queue peerid !side)[routers.read side]? with
    | none => rfl
    | some imsg => exact ends_update routers side _ _

/-- A run of the routers is a run of the engines. -/
theorem ends_of_run {events : List RoutersEvent}
    (allowed : Run.Allowed (routersStep peerid) (fun routers event =>
      RoutersAllowed peerid routers event ∧ RoutersOnePriority peerid routers event) routers events) :
    ∃ moves, (events.foldl (routersStep peerid) routers).ends =
        moves.foldl (endsStep peerid) routers.ends ∧
      Run.Allowed (endsStep peerid) (fun ends event => EndsAllowed peerid ends event ∧
        EndsOnePriority peerid ends event) routers.ends moves ∧
      ∀ side, .own side (.engine (.labelMappingFull (peerid side))) ∈ events →
        .own side (.labelMappingFull (peerid side)) ∈ moves := by
  induction events generalizing routers with
  | nil => exact ⟨[], rfl, trivial, fun _ member => absurd member List.not_mem_nil⟩
  | cons event rest inductionHypothesis =>
    obtain ⟨moves, same, moved, snaps⟩ := inductionHypothesis allowed.2
    rcases ends_routersStep allowed.1.1 with ⟨still, other⟩ | ⟨move, step, legal, snap⟩
    · rw [still] at same moved
      refine ⟨moves, same, moved, fun side member => snaps side ?_⟩
      exact (List.mem_cons.mp member).resolve_left (Ne.symm (other side _))
    · refine ⟨move :: moves, ?_, ⟨⟨legal, ?_⟩, ?_⟩, fun side member => ?_⟩
      · rw [List.foldl_cons, same, step, List.foldl_cons]
      · rw [EndsOnePriority, ← step]
        exact allowed.1.2
      · rw [← step]
        exact moved
      · rcases List.mem_cons.mp member with rfl | later
        · rw [snap side rfl]
          exact List.mem_cons_self
        · exact List.mem_cons_of_mem _ (snaps side later)

/-! ### The daemons -/

/-- What an engine reads of the other one takes no label and is about no route of its own. -/
theorem allowed_of_heard (daemon : Daemon) {self : UInt32} {imsg : LdpeImsg} {event : LdeEvent}
    (heard : imsg.event self = some event) : DaemonAllowed daemon (.engine event) := by
  cases imsg with
  | mappingAddEnd | withdrawAddEnd | releaseAddEnd => cases heard
  | mappingAdd | withdrawAdd | releaseAdd | notificationSend =>
    cases heard
    exact ⟨id, fun fec takes => absurd takes (not_takes rfl fec)⟩

/-- A step of the routers is a step of each daemon, or nothing to it. -/
theorem daemon_routersStep {event : RoutersEvent} (allowed : RoutersAllowed peerid routers event)
    (side : Bool) : (routersStep peerid routers event).daemon side = routers.daemon side ∨
      ∃ own, (routersStep peerid routers event).daemon side = daemonStep (routers.daemon side) own ∧
        DaemonAllowed (routers.daemon side) own := by
  cases event with
  | own actor own =>
    by_cases same : side = actor
    · subst same
      exact .inr ⟨own, Function.update_self .., allowed.1⟩
    · exact .inl (Function.update_of_ne same ..)
  | hear actor =>
    rw [routersStep]
    split
    · exact .inl rfl
    · rename_i imsg _
      dsimp only
      by_cases same : side = actor
      · subst same
        rw [Function.update_self, deliver_eq]
        cases heard : imsg.event (peerid side) with
        | none => exact .inl rfl
        | some event => exact .inr ⟨.engine event, rfl, allowed_of_heard _ heard⟩
      · exact .inl (Function.update_of_ne same ..)

/-- Both routers keep their routes, labels and entries right. -/
theorem daemons_of_run {events : List RoutersEvent}
    (allowed : Run.Allowed (routersStep peerid) (RoutersAllowed peerid) routers events)
    (start : ∀ side, (routers.daemon side).Sound ∧ (routers.daemon side).Forwards) (side : Bool) :
    ((events.foldl (routersStep peerid) routers).daemon side).Sound ∧
      ((events.foldl (routersStep peerid) routers).daemon side).Forwards := by
  refine Run.foldl_of_allowed (fun routers : Routers => ∀ side, (routers.daemon side).Sound ∧
    (routers.daemon side).Forwards) (fun routers event both allowed side => ?_) start allowed side
  obtain ⟨sound, forwards⟩ := both side
  rcases daemon_routersStep allowed side with same | ⟨own, step, legal⟩
  · rw [same]
    exact ⟨sound, forwards⟩
  · rw [step]
    exact ⟨sound.step legal, forwards.step sound legal⟩

/-- A new neighbor is nothing to the other processes. -/
theorem daemons_routersUp {daemon : Bool → Daemon}
    (before : ∀ side, (daemon side).Sound ∧ (daemon side).Forwards) (id : Bool → InAddr)
    (v4Enabled v6Enabled : Bool → Bool) (side : Bool) :
    ((routersUp peerid daemon id v4Enabled v6Enabled).daemon side).Sound ∧
      ((routersUp peerid daemon id v4Enabled v6Enabled).daemon side).Forwards := by
  obtain ⟨sound, forwards⟩ := before side
  have legal : DaemonAllowed (daemon side)
      (.engine (.neighborUp (peerid side) (id side) (v4Enabled side) (v6Enabled side))) :=
    ⟨False.elim, fun fec takes => absurd takes (not_takes rfl fec)⟩
  exact ⟨sound.step legal, forwards.step sound legal⟩

/-! ### From one kernel to the other -/

/-- Two routers with a session, in any interleaving. Once everything that was written has been read and
the kernels have carried out all messages, a label that one of the kernels pushes at a nexthop of the
other router is the local label of the FEC there, and the kernel there has the entries that carry the
packets on. -/
theorem routers_forward (conf : Bool → LdeConf) (past : Bool → List DaemonEvent)
    (before : ∀ side, Run.Allowed daemonStep (fun daemon event =>
        DaemonAllowed daemon event ∧ DaemonOnePriority daemon event)
      (Daemon.start true (conf side)) (past side))
    (strangers : ∀ side,
      peerid side ∉ (Daemon.after true (conf side) (past side)).lde.ldeNbrs)
    (id : Bool → InAddr) (v4Enabled v6Enabled : Bool → Bool) (events : List RoutersEvent)
    (allowed : Run.Allowed (routersStep peerid) (fun routers event =>
        RoutersAllowed peerid routers event ∧ RoutersOnePriority peerid routers event)
      (routersUp peerid (fun side => Daemon.after true (conf side) (past side)) id v4Enabled
        v6Enabled) events) (routers : Routers)
    (run : events.foldl (routersStep peerid)
      (routersUp peerid (fun side => Daemon.after true (conf side) (past side)) id v4Enabled
        v6Enabled) = routers)
    (side : Bool) (snapped : .own side (.engine (.labelMappingFull (peerid side))) ∈ events)
    (accepted : ∀ side, (routers.daemon side).kr.Accepted)
    (drained : ∀ side, (routers.daemon side).Drained)
    (read : routers.read (!side) = (routers.ends.queue peerid side).length)
    (entry : MplsEntry) (member : entry ∈ (routers.daemon !side).kr.fib) (label : UInt32)
    (pushed : (routers.daemon !side).kr.swap entry = some (some label))
    (alone : ∀ (other : UInt32) ln, (routers.daemon !side).lde.ldeNbrs[other]? = some ln →
      entry.nexthop ∈ ln.addrList → other = peerid !side) :
    ∃ addr prefixlen,
      (routers.daemon !side).lde.localLabel (.ipv4 addr prefixlen) = entry.label ∧
      (routers.daemon side).lde.localLabel (.ipv4 addr prefixlen) = label ∧
      ∀ fnh ∈ (routers.daemon side).lde.nexthops (.ipv4 addr prefixlen),
        fnh.remoteLabel ≠ noLabel → mplsLabelReservedMax < label →
          ⟨label, fnh.nexthop, fnh.priority⟩ ∈ (routers.daemon side).kr.fib ∧
            (routers.daemon side).kr.swap ⟨label, fnh.nexthop, fnh.priority⟩ =
              some (some fnh.remoteLabel) := by
  have daemons := daemons_of_run (allowed.mono fun _ _ both => both.1)
    (daemons_routersUp (fun side => forwards_of_run (conf side) (past side)
      ((before side).mono fun _ _ both => both.1)) id v4Enabled v6Enabled)
  obtain ⟨moves, same, moved, snaps⟩ := ends_of_run allowed
  rw [run] at daemons same
  have start : (routersUp peerid (fun side => Daemon.after true (conf side) (past side)) id v4Enabled
      v6Enabled).ends.InOrder peerid := by
    refine inOrder_sessionUp (fun side => ?_) strangers id v4Enabled v6Enabled
    obtain ⟨heard, same⟩ := lde_after true (conf side) (past side)
    exact same ▸ standing_of_run (conf side) heard
  have told := (start.run (moved.mono fun _ _ both => both.1)).2 side (.inr (snaps side snapped))
  have known (side : Bool) : (Daemon.after true (conf side) (past side)).lde.Fresh :=
    Run.foldl_of_allowed (fun daemon : Daemon => daemon.lde.Fresh)
      (fun _ _ fresh both => fresh_daemonStep fresh both.2)
      (fresh_of_run (conf side) [] trivial) (before side)
  have fresh := Run.foldl_of_allowed (fun ends : Ends => ∀ side, (ends.lde side).Fresh)
    (fun ends event fresh both side => fresh_endsStep fresh both.2 side)
    (fun side => (known side).neighborUp ..) moved
  rw [← same] at told fresh
  obtain ⟨addr, prefixlen, fnh, listed, rfl, swapped⟩ :=
    (daemons !side).1.entry_of_fib (daemons !side).2 (accepted _) (drained _) member
  rw [pushed, Option.some_inj] at swapped
  split at swapped
  · cases swapped
  rename_i labelled
  cases swapped
  have route : (Fec.ipv4 addr prefixlen).af ≠ none := Option.some_ne_none _
  have expected := told.localLabel (fresh !side) read route listed labelled alone
  refine ⟨addr, prefixlen, rfl, expected, fun next member' labelled' free => ?_⟩
  have carried := (daemons side).1.mem_fib (daemons side).2 (accepted _) (drained _) member' labelled'
    (expected.symm ▸ free)
  rw [← expected]
  exact carried

/-! ### Packets to 11.0.0.0/8 -/

theorem allowed_newRoute {side : Bool} {rtm : RtMsghdr} (priority : rtm.priority ≠ rtpAny)
    (absent : krouteFind (routers.daemon side).kr rtm.kroute.toKroute = none) :
    RoutersAllowed peerid routers (.own side (.rtmsg rtm)) := by
  refine ⟨⟨⟨priority, fun kn overwrites => ?_⟩, fun kn overwrites => ?_⟩, fun _ heard => ?_⟩
  · cases absent.symm.trans overwrites.found
  · cases absent.symm.trans overwrites.found
  · cases heard

theorem NetworkImsg.own {imsg : NetworkImsg} {event : LdeEvent} (heard : imsg.event = some event)
    (peerid : UInt32) : event.Own peerid := by
  cases imsg with
  | add | del =>
    rw [NetworkImsg.event] at heard
    split at heard
    · cases heard
      trivial
    · cases heard

theorem allowed_readRoute {side : Bool}
    (room : (routers.daemon side).lde.label + 1 ≠ noLabel)
    (left : (routers.daemon side).lde.label < mplsLabelMax) :
    RoutersAllowed peerid routers (.own side .readRoute) := by
  refine ⟨fun _ _ _ _ _ _ => room, fun event heard => ⟨?_, fun _ _ => left⟩⟩
  obtain ⟨imsg, -, heard⟩ := Option.bind_eq_some_iff.mp heard
  exact imsg.own heard _

/-- Both routers learn a route to 11.0.0.0/8 over an address of the first one, which tells the second
one its label of the network. -/
def twoRouters : List RoutersEvent :=
  [.own true (.rtmsg (routeMessage false)), .own true .readRoute,
    .own true (.engine (.addressAdd 2 (.v4 0x0a000001))),
    .own false (.engine (.labelMappingFull 1)), .own false (.rtmsg (routeMessage false)),
    .own false .readRoute, .own false .readLabels, .hear true, .hear true, .hear true,
    .own true .readLabels, .own true .readLabels]

/-- The routers before the session has brought anything. -/
def freshRouters : Routers :=
  routersUp sessionPeerid (fun _ => Daemon.after true {} []) (fun _ => 8) (fun _ => true)
    fun _ => true

theorem twoRouters_allowed :
    Run.Allowed (routersStep sessionPeerid) (fun routers event =>
        RoutersAllowed sessionPeerid routers event ∧
          RoutersOnePriority sessionPeerid routers event) freshRouters twoRouters := by
  refine ⟨⟨allowed_newRoute (by decide) (by decide +kernel), by decide +kernel⟩,
    ⟨allowed_readRoute (by decide +kernel) (by decide +kernel), by decide +kernel⟩,
    ⟨⟨⟨id, fun fec takes => absurd takes (not_takes rfl fec)⟩, fun _ heard => ?_⟩, by decide +kernel⟩,
    ⟨⟨⟨id, fun fec takes => absurd takes (not_takes rfl fec)⟩, fun _ heard => ?_⟩, by decide +kernel⟩,
    ⟨allowed_newRoute (by decide) (by decide +kernel), by decide +kernel⟩,
    ⟨allowed_readRoute (by decide +kernel) (by decide +kernel), by decide +kernel⟩,
    ⟨⟨trivial, fun _ heard => by cases heard⟩, by decide +kernel⟩,
    ⟨trivial, by decide +kernel⟩, ⟨trivial, by decide +kernel⟩, ⟨trivial, by decide +kernel⟩,
    ⟨⟨trivial, fun _ heard => by cases heard⟩, by decide +kernel⟩,
    ⟨⟨trivial, fun _ heard => by cases heard⟩, by decide +kernel⟩, trivial⟩
  · cases heard
    exact ⟨trivial, fun fec takes => absurd takes (not_takes rfl fec)⟩
  · cases heard
    exact ⟨trivial, fun fec takes => absurd takes (not_takes rfl fec)⟩

/-- The routers once all of this has happened. -/
def afterTwoRouters : Routers := twoRouters.foldl (routersStep sessionPeerid) freshRouters

theorem routers_forward_twoRouters : ∃ addr prefixlen,
    (afterTwoRouters.daemon true).lde.localLabel (.ipv4 addr prefixlen) = 16 ∧
      (afterTwoRouters.daemon false).lde.localLabel (.ipv4 addr prefixlen) = 16 := by
  have sent : (afterTwoRouters.daemon true).kr.toKernel =
      [.mpls .add 16 (.v4 0x0a000001) 8 none, .mpls .change 16 (.v4 0x0a000001) 8 (some 16),
        .inet .change ⟨.v4 0x0b000000, 8⟩ (.v4 0x0a000001) 8 (some 16)] := by
    decide +kernel
  have sent' : (afterTwoRouters.daemon false).kr.toKernel =
      [.mpls .add 16 (.v4 0x0a000001) 8 none] := by
    decide +kernel
  have accepted (side : Bool) : (afterTwoRouters.daemon side).kr.Accepted := by
    cases side
    · rw [Kr.Accepted, sent']
      exact ⟨Set.notMem_empty _, trivial⟩
    · rw [Kr.Accepted, sent]
      exact ⟨Set.notMem_empty _, trivial, trivial, trivial⟩
  have drained (side : Bool) : (afterTwoRouters.daemon side).Drained := by
    cases side <;> exact ⟨by decide +kernel, by decide +kernel⟩
  have member : (⟨16, .v4 0x0a000001, 8⟩ : MplsEntry) ∈ (afterTwoRouters.daemon true).kr.fib := by
    rw [Kr.fib, sent]
    exact Set.mem_insert _ _
  have pushed : (afterTwoRouters.daemon true).kr.swap ⟨16, .v4 0x0a000001, 8⟩ = some (some 16) := by
    rw [Kr.swap, sent]
    decide
  have keys : (afterTwoRouters.daemon true).lde.ldeNbrs.keys = [2] := by decide +kernel
  obtain ⟨addr, prefixlen, here, there, -⟩ := routers_forward (fun _ => {}) (fun _ => [])
    (fun _ => trivial) (fun _ => Std.ExtTreeMap.not_mem_empty) (fun _ => 8) (fun _ => true)
    (fun _ => true) twoRouters twoRouters_allowed afterTwoRouters rfl false
    (by simp [twoRouters, sessionPeerid]) accepted drained (by decide +kernel) _ member 16 pushed
    fun _ _ found _ => eq_of_keys keys found
  exact ⟨addr, prefixlen, here, there⟩

end Routers

end Ldpd
