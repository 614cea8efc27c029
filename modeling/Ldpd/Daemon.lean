/-
This file puts the parent process and the label decision engine together. Each of them
has a pipe to the other, and reads what is in it whenever it likes: the engine the routes,
the parent process the labels. Once both pipes are empty, the routes of the parent process
carry the labels of the engine, and the kernel forwards with these.
-/

import Ldpd.Main.Carried
import Ldpd.Main.Swaps
import Ldpd.Library.Fifo
import Ldpd.Ldpe.Prefixes

namespace Ldpd

/-! ### Two processes -/

/-- The parent process, the engine, and how much each of them has read of its pipe: the engine of the
routes, the parent process of the labels. -/
structure Daemon where
  kr : Kr
  lde : Lde
  routesRead : Nat := 0
  labelsRead : Nat := 0

/-- What `lde_dispatch_parent` makes of `IMSG_NETWORK_ADD` and `IMSG_NETWORK_DEL`. A nexthop is read
with the address family of its network. -/
def NetworkImsg.event : NetworkImsg → Option LdeEvent
  | .add kn =>
    if family : kn.nexthop.af = kn.addr.af then
      some (.networkAdd {
        addr := kn.addr, prefixlen := kn.prefixlen, nexthop := kn.nexthop,
        priority := kn.priority, connected := kn.flags.connected, family })
    else none
  | .del kn =>
    if family : kn.nexthop.af = kn.addr.af then
      some (.networkDel {
        addr := kn.addr, prefixlen := kn.prefixlen, nexthop := kn.nexthop,
        priority := kn.priority, connected := kn.flags.connected, family })
    else none

/-- What `main_dispatch_lde` makes of the messages about labels. -/
def Kr.dispatchLde (kr : Kr) : ParentImsg → Kr
  | .klabelChange route => (krChange kr route).1
  | .klabelDelete route => krDelete kr route
  | .kpwlabelChange _ | .kpwlabelDelete _ => kr

/-- A routing message of the kernel, anything that happens in the engine, and the two pipes. -/
inductive DaemonEvent where
  | rtmsg (rtm : RtMsghdr)
  | engine (event : LdeEvent)
  | readRoute
  | readLabels

/-- One step of one of the processes. -/
def daemonStep (daemon : Daemon) : DaemonEvent → Daemon
  | .rtmsg rtm => { daemon with kr := (rtmsgProcessRoute daemon.kr rtm).1 }
  | .engine event => { daemon with lde := ldeStep daemon.lde event }
  | .readRoute =>
    match daemon.kr.toLde[daemon.routesRead]? with
    | none => daemon
    | some imsg =>
      { daemon with
        lde := imsg.event.elim daemon.lde (ldeStep daemon.lde)
        routesRead := daemon.routesRead + 1 }
  | .readLabels =>
    match daemon.lde.toParent[daemon.labelsRead]? with
    | none => daemon
    | some imsg =>
      { daemon with
        kr := daemon.kr.dispatchLde imsg
        labelsRead := daemon.labelsRead + 1 }

/-- The daemon as it starts. -/
def Daemon.start (fibSync : Bool) (conf : LdeConf) : Daemon where
  kr := { fibSync }
  lde := Lde.start conf

/-- The daemon after some events. -/
def Daemon.after (fibSync : Bool) (conf : LdeConf) (events : List DaemonEvent) : Daemon :=
  events.foldl daemonStep (Daemon.start fibSync conf)

/-- The routes of the engine come from the parent process only. -/
def LdeEvent.OfRoute : LdeEvent → Prop
  | .networkAdd _ | .networkDel _ => True
  | _ => False

/-- A routing message keeps the marks and the labels of the routes. The counter of labels hands out no
`NO_LABEL`. -/
def DaemonAllowed (daemon : Daemon) : DaemonEvent → Prop
  | .rtmsg rtm => KeepsMarks daemon.kr rtm ∧ Spares daemon.kr rtm
  | .engine event => ¬event.OfRoute ∧ CounterValid daemon.lde (.event event)
  | .readRoute => ∀ imsg event, daemon.kr.toLde[daemon.routesRead]? = some imsg →
    imsg.event = some event → CounterValid daemon.lde (.event event)
  | .readLabels => True

/-- Nothing is left in the pipes. -/
structure Daemon.Drained (daemon : Daemon) : Prop where
  routes : daemon.kr.toLde.length ≤ daemon.routesRead
  labels : daemon.lde.toParent.length ≤ daemon.labelsRead

/-! ### What holds while the pipes are not empty -/

/-- The priority is that of a route, and the nexthop is of the family of the network. -/
def Hop.Real (hop : Hop) : Prop :=
  hop.priority ≠ rtpAny ∧ hop.fec.af = some hop.nexthop.af

/-- The engine has still to read that the route is gone. -/
def Daemon.Leaving (daemon : Daemon) (hop : Hop) : Prop :=
  ∃ kn, .del kn ∈ daemon.kr.toLde.drop daemon.routesRead ∧ kn.toKroute.hop = hop

/-- What the labels of a route will be when the parent process has read everything. -/
def Daemon.outcome (daemon : Daemon) (hop : Hop) (labels : Option (UInt32 × UInt32)) :
    Option (UInt32 × UInt32) :=
  Fifo.outcome (programmed hop) daemon.lde.toParent daemon.labelsRead labels

/-- The routes of the engine will be those that were announced. The labels of a route are those that
the parent process has read last, or none, and will be those that it has been told; or they will be
none, because the route came back before the engine has read that it was gone. -/
structure Daemon.Synced (daemon : Daemon) : Prop where
  carried : ∀ hop labels, daemon.kr.Carries hop labels → hop.Real
  sent : ∀ imsg ∈ daemon.kr.toLde, imsg.hop.Real
  programmed : daemon.lde.Programmed Hop.Real
  routesRead : daemon.routesRead ≤ daemon.kr.toLde.length
  labelsRead : daemon.labelsRead ≤ daemon.lde.toParent.length
  routes : ∀ hop, hop.fec.af ≠ none → Fifo.outcome (listed hop) daemon.kr.toLde daemon.routesRead
    (decide (daemon.lde.Lists hop)) = daemon.kr.announces hop
  recent : ∀ hop labels, daemon.kr.Carries hop labels → labels = none ∨
    labels = (daemon.lde.toParent.take daemon.labelsRead).foldl (Ldpd.programmed hop) none
  pending : ∀ hop labels, daemon.kr.Carries hop labels →
    daemon.outcome hop labels = daemon.lde.told hop ∨
      daemon.outcome hop labels = none ∧ daemon.Leaving hop

section Messages

variable {hop : Hop}

/-- A message sets the labels of a nexthop or leaves them alone. -/
theorem programmed_either (hop : Hop) (imsg : ParentImsg) :
    (∀ told, programmed hop told imsg = told) ∨
      ∃ labels, ∀ told, programmed hop told imsg = labels := by
  cases imsg with
  | klabelChange kr =>
    by_cases here : kr.hop = hop
    · exact .inr ⟨_, fun _ => if_pos here⟩
    · exact .inl fun _ => if_neg here
  | klabelDelete kr =>
    by_cases here : kr.hop = hop
    · exact .inr ⟨_, fun _ => if_pos here⟩
    · exact .inl fun _ => if_neg here
  | kpwlabelChange | kpwlabelDelete => exact .inl fun _ => rfl

/-- A route that was there and is no more has been taken back. -/
theorem exists_del {imsgs : List NetworkImsg} (gone : imsgs.foldl (listed hop) true = false) :
    ∃ kn, .del kn ∈ imsgs ∧ kn.toKroute.hop = hop := by
  induction imsgs with
  | nil => cases gone
  | cons imsg rest inductionHypothesis =>
    have later (same : listed hop true imsg = true) :
        ∃ kn, .del kn ∈ imsg :: rest ∧ kn.toKroute.hop = hop := by
      rw [List.foldl_cons, same] at gone
      obtain ⟨kn, member, here⟩ := inductionHypothesis gone
      exact ⟨kn, List.mem_cons_of_mem _ member, here⟩
    cases imsg with
    | add kn => exact later (by rw [listed]; split_ifs <;> rfl)
    | del kn =>
      by_cases here : kn.toKroute.hop = hop
      · exact ⟨kn, List.mem_cons_self, here⟩
      · exact later (if_neg here)

/-- What more messages make of what will be known. -/
theorem pending_append {imsgs : List ParentImsg} {known told : Option (UInt32 × UInt32)}
    {leaving : Prop} (pending : known = told ∨ known = none ∧ leaving) :
    imsgs.foldl (programmed hop) known = imsgs.foldl (programmed hop) told ∨
      imsgs.foldl (programmed hop) known = none ∧ leaving := by
  rcases pending with rfl | ⟨rfl, leaving⟩
  · exact .inl rfl
  · rcases Fifo.foldl_passes_or_settles (programmed hop) (programmed_either hop) imsgs with
      passes | ⟨labels, settles⟩
    · exact .inr ⟨passes none, leaving⟩
    · exact .inl ((settles none).trans (settles told).symm)

end Messages

/-! ### The parent process -/

theorem Kroute.af_fec (kr : Kroute) : kr.fec.af = some kr.addr.af := by
  rw [Kroute.fec]
  cases kr.addr <;> rfl

section Parent

variable {daemon : Daemon} {hop : Hop}

/-- Labels that agree with those of the engine belong to a nexthop that it has. -/
theorem Lde.Agrees.lists {lde : Lde} {labels : UInt32 × UInt32}
    (agrees : lde.Agrees hop (some labels)) : lde.Lists hop := by
  obtain ⟨-, fnh, member, hops, -⟩ := agrees
  exact List.mem_map.mpr ⟨fnh, member,
    Prod.ext (congrArg Hop.nexthop hops) (congrArg Hop.priority hops)⟩

/-- A route that the engine has and the parent process does not announce is leaving. -/
theorem Daemon.Synced.leaving (synced : daemon.Synced) (route : hop.fec.af ≠ none)
    (lists : daemon.lde.Lists hop) (unannounced : daemon.kr.announces hop = false) :
    daemon.Leaving hop := by
  have gone := synced.routes hop route
  rw [decide_eq_true lists, unannounced] at gone
  exact exists_del gone

/-- A route without labels gets those that the engine has told of, unless it is leaving. -/
theorem Daemon.Synced.fresh (synced : daemon.Synced) (route : hop.fec.af ≠ none)
    (unannounced : daemon.kr.announces hop = false) :
    daemon.outcome hop none = daemon.lde.told hop ∨
      daemon.outcome hop none = none ∧ daemon.Leaving hop := by
  rcases Fifo.foldl_passes_or_settles (Ldpd.programmed hop) (programmed_either hop)
      (daemon.lde.toParent.drop daemon.labelsRead) with passes | ⟨labels, settles⟩
  · have outcome : daemon.outcome hop none = none := passes none
    cases told : daemon.lde.told hop with
    | none => exact .inl outcome
    | some labels =>
      have agrees := synced.programmed.told hop route
      rw [told] at agrees
      exact .inr ⟨outcome, synced.leaving route agrees.lists unannounced⟩
  · refine .inl ((settles none).trans ?_)
    rw [Lde.told, ← Fifo.outcome_take (Ldpd.programmed hop) daemon.lde.toParent
      daemon.labelsRead none]
    exact (settles _).symm

theorem Hop.Real.route (real : hop.Real) : hop.fec.af ≠ none := by
  rw [real.2]
  exact Option.some_ne_none _

/-- The routes of the parent process change. -/
theorem Daemon.Synced.evolve (synced : daemon.Synced) {kr : Kr}
    (evolves : Evolves Hop.Real daemon.kr kr) : ({ daemon with kr } : Daemon).Synced := by
  obtain ⟨imsgs, sent, about⟩ := evolves.toLde
  have leaving {hop : Hop} : daemon.Leaving hop → ({ daemon with kr } : Daemon).Leaving hop := by
    rintro ⟨kn, member, here⟩
    refine ⟨kn, ?_, here⟩
    show NetworkImsg.del kn ∈ kr.toLde.drop daemon.routesRead
    rw [sent, List.drop_append_of_le_length synced.routesRead]
    exact List.mem_append_left _ member
  refine {
    carried := fun hop labels carried => ?_, sent := fun imsg member => ?_,
    programmed := synced.programmed, routesRead := ?_, labelsRead := synced.labelsRead,
    routes := fun hop route => ?_, recent := fun hop labels carried => ?_,
    pending := fun hop labels carried => ?_ }
  · rcases evolves.carries hop labels carried with before | ⟨-, -, real⟩
    · exact synced.carried hop labels before
    · exact real
  · have member' : imsg ∈ daemon.kr.toLde ++ imsgs := sent ▸ member
    rcases List.mem_append.mp member' with before | new
    · exact synced.sent imsg before
    · rcases about imsg new with ⟨labels, carried⟩ | real
      · exact synced.carried _ labels carried
      · exact real
  · show daemon.routesRead ≤ kr.toLde.length
    rw [sent, List.length_append]
    exact Nat.le_add_right_of_le synced.routesRead
  · show Fifo.outcome (listed hop) kr.toLde daemon.routesRead _ = kr.announces hop
    rw [Kr.announces, sent, Fifo.outcome_append _ synced.routesRead, synced.routes hop route,
      List.foldl_append, Kr.announces]
  · rcases evolves.carries hop labels carried with before | ⟨none, -, -⟩
    · exact synced.recent hop labels before
    · exact .inl none
  · rcases evolves.carries hop labels carried with before | ⟨rfl, unannounced, real⟩
    · exact (synced.pending hop labels before).imp_right (And.imp_right leaving)
    · exact (synced.fresh real.route unannounced).imp_right (And.imp_right leaving)

/-- A routing message of the kernel. -/
theorem Daemon.Synced.rtmsg (synced : daemon.Synced) (good : daemon.kr.Good) {rtm : RtMsghdr}
    (keeps : KeepsMarks daemon.kr rtm) (spares : Spares daemon.kr rtm) :
    (daemonStep daemon (.rtmsg rtm)).Synced := by
  have real : rtm.kroute.hop.Real := by
    refine ⟨keeps.priority, ?_⟩
    show rtm.kroute.fec.af = some rtm.nexthop.af
    rw [Kroute.af_fec, RtMsghdr.nexthop, af_addrOfBytes, RtMsghdr.kroute]
  obtain ⟨mid, first, second⟩ := evolves_rtmsgProcessRoute good keeps spares real
  exact (synced.evolve first).evolve second

end Parent

/-! ### The engine -/

section Engine

variable {daemon : Daemon} {hop : Hop}

/-- An event in the engine, that may have been in the pipe. Its routes are still those that will be
announced, and the routes that leave are on their way or gone. -/
theorem Daemon.Synced.proceed (synced : daemon.Synced) {event : LdeEvent}
    (orderly : Admits Hop.Real daemon.lde event) {daemon' : Daemon}
    (kr : daemon'.kr = daemon.kr) (lde : daemon'.lde = ldeStep daemon.lde event)
    (labelsRead : daemon'.labelsRead = daemon.labelsRead)
    (routesRead : daemon'.routesRead ≤ daemon.kr.toLde.length)
    (routes : ∀ hop, hop.fec.af ≠ none → Fifo.outcome (listed hop) daemon.kr.toLde
      daemon'.routesRead (decide (daemon'.lde.Lists hop)) = daemon.kr.announces hop)
    (leaving : ∀ hop, daemon.Leaving hop → daemon'.Leaving hop ∨ ¬daemon'.lde.Lists hop) :
    daemon'.Synced := by
  obtain ⟨-, imsgs, queued, -⟩ := Programs.ldeStep daemon.lde synced.programmed.consistent.idle
    synced.programmed.labelled (UInt32.ne_of_lt synced.programmed.started.low_next).symm orderly.named
  have programmed : daemon'.lde.Programmed Hop.Real := lde ▸ synced.programmed.ldeStep orderly
  have told : daemon'.lde.toParent = daemon.lde.toParent ++ imsgs := lde ▸ queued
  refine {
    carried := fun hop labels carried => synced.carried hop labels (kr ▸ carried)
    sent := kr ▸ synced.sent, programmed, routesRead := kr ▸ routesRead
    labelsRead := ?_, routes := kr ▸ routes
    recent := fun hop labels carried => ?_, pending := fun hop labels carried => ?_ }
  · rw [labelsRead, told, List.length_append]
    exact Nat.le_add_right_of_le synced.labelsRead
  · rw [labelsRead, told, List.take_append_of_le_length synced.labelsRead]
    exact synced.recent hop labels (kr ▸ carried)
  · have real := synced.carried hop labels (kr ▸ carried)
    have outcome : daemon'.outcome hop labels =
        imsgs.foldl (Ldpd.programmed hop) (daemon.outcome hop labels) := by
      rw [Daemon.outcome, labelsRead, told, Fifo.outcome_append _ synced.labelsRead, Daemon.outcome]
    have later : daemon'.lde.told hop =
        imsgs.foldl (Ldpd.programmed hop) (daemon.lde.told hop) := by
      rw [Lde.told, told, List.foldl_append, Lde.told]
    rw [outcome, later]
    rcases pending_append (synced.pending hop labels (kr ▸ carried)) with same | ⟨none, leaves⟩
    · exact .inl same
    rcases leaving hop leaves with leaves | unlisted
    · exact .inr ⟨none, leaves⟩
    · refine .inl (none.trans ?_)
      rw [← later]
      have agrees := programmed.told hop real.route
      cases labels : daemon'.lde.told hop with
      | none => rfl
      | some labels' => exact absurd (labels ▸ agrees).lists unlisted

/-- Anything but a route happens in the engine. -/
theorem Daemon.Synced.engine (synced : daemon.Synced) {event : LdeEvent} (other : ¬event.OfRoute)
    (valid : CounterValid daemon.lde (.event event)) :
    (daemonStep daemon (.engine event)).Synced := by
  have add (kr : RouteMsg) : event ≠ .networkAdd kr := fun same => other (same ▸ trivial)
  have del (kr : RouteMsg) : event ≠ .networkDel kr := fun same => other (same ▸ trivial)
  refine synced.proceed ⟨valid, fun kr same => absurd same (add kr)⟩ rfl rfl rfl synced.routesRead
    (fun hop route => ?_) (fun hop leaves => .inl leaves)
  rw [← synced.routes hop route]
  exact congrArg _ (decide_eq_decide.mpr
    (lists_ldeStep synced.programmed.consistent.idle add del route))

theorem Kroute.family {kr : Kroute} (real : kr.hop.Real) : kr.nexthop.af = kr.addr.af :=
  (Option.some_injective _ (kr.af_fec.symm.trans real.2)).symm

/-- What the engine has after a message about a route. -/
theorem lists_event {imsg : NetworkImsg} (real : imsg.hop.Real) (lde : Lde) :
    ∃ event, imsg.event = some event ∧
      (∀ kr : RouteMsg, event = .networkAdd kr → Hop.Real ⟨kr.fec, kr.nexthop, kr.priority⟩) ∧
      ∀ hop, decide ((ldeStep lde event).Lists hop) = listed hop (decide (lde.Lists hop)) imsg := by
  cases imsg with
  | add kn =>
    refine ⟨_, dif_pos (Kroute.family real), fun kr same => ?_, fun hop => ?_⟩
    · cases same
      exact real
    · rw [listed, Bool.eq_iff_iff, decide_eq_true_iff]
      refine (lists_ldeKernelInsert lde _ _ _ _ none hop).trans ?_
      split_ifs with here
      · exact iff_of_true (.inl here.symm) rfl
      · rw [decide_eq_true_iff]
        exact or_iff_right fun same => here same.symm
  | del kn =>
    refine ⟨_, dif_pos (Kroute.family real), fun kr same => ?_, fun hop => ?_⟩
    · cases same
    · rw [listed, Bool.eq_iff_iff, decide_eq_true_iff]
      refine (lists_ldeKernelRemove lde _ _ _ hop).trans ?_
      split_ifs with here
      · exact iff_of_false (fun both => both.1 here.symm) id
      · rw [decide_eq_true_iff]
        exact and_iff_right fun same => here same.symm

/-- The engine reads of a route. -/
theorem Daemon.Synced.readRoute (synced : daemon.Synced)
    (valid : ∀ imsg event, daemon.kr.toLde[daemon.routesRead]? = some imsg →
      imsg.event = some event → CounterValid daemon.lde (.event event)) :
    (daemonStep daemon .readRoute).Synced := by
  rw [daemonStep]
  split
  · exact synced
  rename_i imsg next
  obtain ⟨bound, here⟩ := List.getElem?_eq_some_iff.mp next
  obtain ⟨event, reads, named, lists⟩ :=
    lists_event (synced.sent imsg (List.mem_of_getElem? next)) daemon.lde
  rw [reads, Option.elim_some]
  refine synced.proceed ⟨valid imsg event next reads, named⟩ rfl rfl rfl bound
    (fun hop route => ?_) fun hop leaves => ?_
  · rw [lists, Fifo.outcome_read _ next, synced.routes hop route]
  · obtain ⟨kn, member, same⟩ := leaves
    rw [← List.cons_getElem_drop_succ (h := bound), here] at member
    rcases List.mem_cons.mp member with rfl | member
    · refine .inr fun still => Bool.false_ne_true ?_
      exact (if_pos same).symm.trans ((lists hop).symm.trans (decide_eq_true still))
    · exact .inl ⟨kn, member, same⟩

end Engine

/-! ### The labels in the pipe -/

section Labels

variable {daemon : Daemon} {hop : Hop}

/-- The parent process reads a message that sets or takes the labels of a nexthop. -/
theorem Daemon.Synced.hear (synced : daemon.Synced) {imsg : ParentImsg}
    (next : daemon.lde.toParent[daemon.labelsRead]? = some imsg) {kr : Kr}
    (sent : kr.toLde = daemon.kr.toLde)
    (carries : ∀ hop labels, kr.Carries hop labels →
      ∃ before, daemon.kr.Carries hop before ∧ labels = Ldpd.programmed hop before imsg) :
    ({ daemon with kr, labelsRead := daemon.labelsRead + 1 } : Daemon).Synced := by
  have carried (hop : Hop) (labels : Option (UInt32 × UInt32)) (there : kr.Carries hop labels) :
      hop.Real := by
    obtain ⟨before, there, -⟩ := carries hop labels there
    exact synced.carried hop before there
  have announces (hop : Hop) : kr.announces hop = daemon.kr.announces hop := by
    rw [Kr.announces, sent, Kr.announces]
  refine {
    carried, sent := fun imsg member => synced.sent imsg (sent ▸ member)
    programmed := synced.programmed, routesRead := ?_
    labelsRead := (List.getElem?_eq_some_iff.mp next).1, routes := fun hop route => ?_
    recent := fun hop labels there => ?_, pending := fun hop labels there => ?_ }
  · show daemon.routesRead ≤ kr.toLde.length
    rw [sent]
    exact synced.routesRead
  · show Fifo.outcome _ kr.toLde daemon.routesRead _ = kr.announces hop
    rw [sent, announces]
    exact synced.routes hop route
  · obtain ⟨before, carried, rfl⟩ := carries hop labels there
    show _ ∨ _ = (daemon.lde.toParent.take (daemon.labelsRead + 1)).foldl (Ldpd.programmed hop) none
    rw [Fifo.take_read _ next]
    rcases programmed_either hop imsg with passes | ⟨labels, settles⟩
    · rw [passes, passes]
      exact synced.recent hop before carried
    · rw [settles, settles]
      exact .inr rfl
  · obtain ⟨before, carried, rfl⟩ := carries hop labels there
    have leaving : daemon.Leaving hop →
        ({ daemon with kr, labelsRead := daemon.labelsRead + 1 } : Daemon).Leaving hop := by
      rintro ⟨kn, member, here⟩
      refine ⟨kn, ?_, here⟩
      show _ ∈ kr.toLde.drop daemon.routesRead
      rw [sent]
      exact member
    rw [Daemon.outcome, Fifo.outcome_read _ next]
    exact (synced.pending hop before carried).imp_right (And.imp_right leaving)

theorem toLde_krChange (kr : Kr) (route : Kroute) : (krChange kr route).1.toLde = kr.toLde := by
  rw [krChange]
  split <;> rfl

theorem toLde_krDelete (kr : Kr) (route : Kroute) : (krDelete kr route).toLde = kr.toLde := by
  rw [krDelete]
  split
  · rfl
  · split <;> rfl

/-- The parent process reads of labels. -/
theorem Daemon.Synced.readLabels (synced : daemon.Synced) (good : daemon.kr.Good) :
    (daemonStep daemon .readLabels).Synced := by
  rw [daemonStep]
  split
  · exact synced
  rename_i imsg next
  have about := synced.programmed.about imsg (List.mem_of_getElem? next)
  cases imsg with
  | klabelChange route =>
    refine synced.hear next (toLde_krChange _ route) fun hop labels there => ?_
    rw [Kr.dispatchLde, carries_krChange good.proper about.1.1] at there
    split_ifs at there with here
    · obtain ⟨rfl, before, there⟩ := there
      exact ⟨before, there, (if_pos here.symm).symm⟩
    · exact ⟨labels, there, (if_neg (Ne.symm here)).symm⟩
  | klabelDelete route =>
    refine synced.hear next (toLde_krDelete _ route) fun hop labels there => ?_
    rw [Kr.dispatchLde, carries_krDelete good.proper about.1] at there
    split_ifs at there with here
    · obtain ⟨rfl, before, there⟩ := there
      exact ⟨before, there, (if_pos here.symm).symm⟩
    · exact ⟨labels, there, (if_neg (Ne.symm here)).symm⟩
  | kpwlabelChange | kpwlabelDelete =>
    exact synced.hear next rfl fun hop labels there => ⟨labels, there, rfl⟩

end Labels

/-! ### Runs -/

/-- The routes and the labels of both processes fit together, as far as each has read. -/
structure Daemon.Sound (daemon : Daemon) : Prop where
  good : daemon.kr.Good
  synced : daemon.Synced
  distinct : daemon.lde.KeysDistinct

section Runs

variable {daemon : Daemon}

theorem getD_start (fibSync : Bool) (net : KroutePrefix) :
    ({ fibSync } : Kr).krt.getD net [] = [] :=
  Std.ExtTreeMap.getD_empty

theorem nodes_start (fibSync : Bool) (net : KroutePrefix) : Kr.nodes { fibSync } net = [] := by
  rw [Kr.nodes, getD_start]
  rfl

theorem good_start (fibSync : Bool) : Kr.Good { fibSync } where
  proper net := (getD_start fibSync net).symm ▸ .nil net
  marked net kn member := absurd (nodes_start fibSync net ▸ member) List.not_mem_nil
  told := by
    refine (Set.eq_empty_of_forall_notMem fun entry eligible => ?_).symm
    obtain ⟨kn, member, -⟩ := eligible
    exact absurd (nodes_start fibSync entry.net ▸ member) List.not_mem_nil
  one := trivial

theorem sound_start (fibSync : Bool) (conf : LdeConf) : (Daemon.start fibSync conf).Sound := by
  have empty (hop : Hop) : ¬(Lde.start conf).Lists hop := by
    rw [Lde.Lists, show (Lde.start conf).nexthops hop.fec = [] from start_nexthops conf hop.fec]
    exact List.not_mem_nil
  have bare (hop : Hop) (labels : Option (UInt32 × UInt32)) :
      ¬(Daemon.start fibSync conf).kr.Carries hop labels := by
    rintro ⟨net, member⟩
    exact absurd (nodes_start fibSync net ▸ member) List.not_mem_nil
  refine ⟨good_start fibSync, ?_, fun fec => ?_⟩
  · exact {
      carried := fun hop labels carried => absurd carried (bare hop labels)
      sent := fun imsg member => absurd member List.not_mem_nil
      programmed := programmed_start conf
      routesRead := Nat.zero_le _
      labelsRead := Nat.zero_le _
      routes := fun hop _ => decide_eq_false (empty hop)
      recent := fun hop labels carried => absurd carried (bare hop labels)
      pending := fun hop labels carried => absurd carried (bare hop labels) }
  · have none : (Lde.start conf).nexthops fec = [] := start_nexthops conf fec
    show (nexthopKeys ((Lde.start conf).nexthops fec)).Nodup
    rw [none]
    exact List.nodup_nil

/-- What the engine reads from its pipe is an event. -/
theorem readRoute_lde (daemon : Daemon) : (daemonStep daemon .readRoute).lde = daemon.lde ∨
    ∃ event, (daemonStep daemon .readRoute).lde = ldeStep daemon.lde event := by
  rw [daemonStep]
  split
  · exact .inl rfl
  · rename_i imsg _
    dsimp only
    cases imsg.event with
    | none => exact .inl rfl
    | some event => exact .inr ⟨event, rfl⟩

theorem readRoute_kr (daemon : Daemon) : (daemonStep daemon .readRoute).kr = daemon.kr := by
  rw [daemonStep]
  split <;> rfl

theorem readLabels_lde (daemon : Daemon) : (daemonStep daemon .readLabels).lde = daemon.lde := by
  rw [daemonStep]
  split <;> rfl

/-- What the parent process reads from its pipe is about labels. -/
theorem readLabels_kr (daemon : Daemon) : (daemonStep daemon .readLabels).kr = daemon.kr ∨
    ∃ imsg, daemon.lde.toParent[daemon.labelsRead]? = some imsg ∧
      (daemonStep daemon .readLabels).kr = daemon.kr.dispatchLde imsg := by
  rw [daemonStep]
  split
  · exact .inl rfl
  · rename_i imsg next
    exact .inr ⟨imsg, next, rfl⟩

theorem Kr.Good.dispatchLde {kr : Kr} (good : kr.Good) (imsg : ParentImsg) :
    (kr.dispatchLde imsg).Good := by
  cases imsg with
  | klabelChange route => exact good.krChange route
  | klabelDelete route => exact good.krDelete route
  | kpwlabelChange | kpwlabelDelete => exact good

theorem Daemon.Sound.step (sound : daemon.Sound) {event : DaemonEvent}
    (allowed : DaemonAllowed daemon event) : (daemonStep daemon event).Sound := by
  refine ⟨?_, ?_, ?_⟩
  · cases event with
    | rtmsg rtm => exact sound.good.rtmsgProcessRoute allowed.1
    | engine event => exact sound.good
    | readRoute =>
      rw [readRoute_kr]
      exact sound.good
    | readLabels =>
      rcases readLabels_kr daemon with same | ⟨imsg, -, step⟩
      · exact same ▸ sound.good
      · exact step ▸ sound.good.dispatchLde imsg
  · cases event with
    | rtmsg rtm => exact sound.synced.rtmsg sound.good allowed.1 allowed.2
    | engine event => exact sound.synced.engine allowed.1 allowed.2
    | readRoute => exact sound.synced.readRoute allowed
    | readLabels => exact sound.synced.readLabels sound.good
  · have idle := sound.synced.programmed.consistent.idle
    cases event with
    | rtmsg rtm => exact sound.distinct
    | engine event => exact sound.distinct.ldeStep idle event
    | readRoute =>
      rcases readRoute_lde daemon with same | ⟨event, step⟩
      · exact same ▸ sound.distinct
      · exact step ▸ sound.distinct.ldeStep idle event
    | readLabels =>
      rw [readLabels_lde]
      exact sound.distinct

theorem sound_of_run (fibSync : Bool) (conf : LdeConf) (events : List DaemonEvent)
    (allowed : Run.Allowed daemonStep DaemonAllowed (Daemon.start fibSync conf) events) :
    (Daemon.after fibSync conf events).Sound :=
  Run.foldl_of_allowed Daemon.Sound (fun _ _ sound allowed => sound.step allowed)
    (sound_start fibSync conf) allowed

/-! ### When the pipes are empty -/

/-- The routes of the parent process carry the labels of the engine. -/
theorem Daemon.Sound.agrees (sound : daemon.Sound) (drained : daemon.Drained) {hop : Hop}
    {labels : Option (UInt32 × UInt32)} (carried : daemon.kr.Carries hop labels) :
    daemon.lde.Agrees hop labels := by
  have route := (sound.synced.carried hop labels carried).route
  rcases sound.synced.pending hop labels carried with told | ⟨-, kn, member, -⟩
  · rw [Daemon.outcome, Fifo.outcome_drained _ drained.labels] at told
    rw [told]
    exact sound.synced.programmed.told hop route
  · rw [List.drop_of_length_le drained.routes] at member
    cases member

/-- The engine has the routes that were announced. -/
theorem Daemon.Sound.lists (sound : daemon.Sound) (drained : daemon.Drained) {hop : Hop}
    (route : hop.fec.af ≠ none) : daemon.lde.Lists hop ↔ daemon.kr.announces hop = true := by
  have same := sound.synced.routes hop route
  rw [Fifo.outcome_drained _ drained.routes] at same
  rw [← same, decide_eq_true_iff]

theorem Announced.exists_hop {hop : Hop} (route : hop.fec.af ≠ none) :
    ∃ entry : Announced, entry.hop = hop := by
  obtain ⟨fec, nexthop, priority⟩ := hop
  cases fec with
  | ipv4 addr prefixlen => exact ⟨⟨⟨.v4 addr, prefixlen⟩, nexthop, priority⟩, rfl⟩
  | ipv6 addr prefixlen => exact ⟨⟨⟨.v6 addr, prefixlen⟩, nexthop, priority⟩, rfl⟩
  | pwid => exact absurd rfl route

/-- A nexthop of the engine is a route of the parent process. -/
theorem Daemon.Sound.carries (sound : daemon.Sound) (drained : daemon.Drained) {hop : Hop}
    (route : hop.fec.af ≠ none) (lists : daemon.lde.Lists hop) :
    ∃ net, ∃ kn ∈ daemon.kr.nodes net, kn.toKroute.hop = hop := by
  obtain ⟨entry, rfl⟩ := Announced.exists_hop route
  rw [sound.lists drained route, announces_iff, sound.good.told] at lists
  obtain ⟨kn, member, -, -, rfl⟩ := lists
  exact ⟨kn.announced.net, kn, member, rfl⟩

/-- Nexthops with the same address and priority are the same. -/
theorem Lde.KeysDistinct.eq {lde : Lde} (distinct : lde.KeysDistinct) {fec : Fec}
    {first second : FecNh} (member : first ∈ lde.nexthops fec) (member' : second ∈ lde.nexthops fec)
    (same : first.hop fec = second.hop fec) : first = second :=
  List.inj_on_of_nodup_map (distinct fec) member member'
    (Prod.ext (congrArg Hop.nexthop same) (congrArg Hop.priority same))

/-- A nexthop with a remote label is a route that carries it. -/
theorem Daemon.Sound.labelled (sound : daemon.Sound) (drained : daemon.Drained) {fec : Fec}
    (route : fec.af ≠ none) {fnh : FecNh} (member : fnh ∈ daemon.lde.nexthops fec)
    (labelled : fnh.remoteLabel ≠ noLabel) : ∃ net, ∃ kn ∈ daemon.kr.nodes net,
      kn.toKroute.hop = fnh.hop fec ∧
        kn.labels = some (daemon.lde.localLabel fec, fnh.remoteLabel) := by
  have lists : daemon.lde.Lists (fnh.hop fec) := List.mem_map_of_mem member
  obtain ⟨net, kn, among, same⟩ := sound.carries drained route lists
  refine ⟨net, kn, among, same, ?_⟩
  have agrees := sound.agrees drained (carries_of_mem among)
  rw [same] at agrees
  cases labels : kn.labels with
  | none =>
    rw [labels] at agrees
    exact absurd (agrees fnh member rfl) labelled
  | some both =>
    rw [labels] at agrees
    obtain ⟨label, other, member', hops, remote⟩ := agrees
    have equal : other = fnh := sound.distinct.eq member' member hops
    rw [show (fnh.hop fec).fec = fec from rfl] at label
    rw [label, ← equal, remote]

/-- Once both pipes are empty, the routes of the parent process carry the labels of the engine, the
engine has the routes of the lowest priorities that may be redistributed, and wherever it has a remote
label the route carries it. -/
theorem krt_labels (fibSync : Bool) (conf : LdeConf) (events : List DaemonEvent)
    (allowed : Run.Allowed daemonStep DaemonAllowed (Daemon.start fibSync conf) events)
    (drained : (Daemon.after fibSync conf events).Drained) :
    (∀ net, ∀ kn ∈ (Daemon.after fibSync conf events).kr.nodes net,
        (Daemon.after fibSync conf events).lde.Agrees kn.toKroute.hop kn.labels) ∧
      (∀ entry : Announced, (Daemon.after fibSync conf events).lde.Lists entry.hop ↔
        entry ∈ (Daemon.after fibSync conf events).kr.eligible) ∧
      ∀ fec, fec.af ≠ none → ∀ fnh ∈ (Daemon.after fibSync conf events).lde.nexthops fec,
        fnh.remoteLabel ≠ noLabel → ∃ net, ∃ kn ∈ (Daemon.after fibSync conf events).kr.nodes net,
          kn.toKroute.hop = fnh.hop fec ∧ kn.labels =
            some ((Daemon.after fibSync conf events).lde.localLabel fec, fnh.remoteLabel) := by
  have sound := sound_of_run fibSync conf events allowed
  generalize Daemon.after fibSync conf events = daemon at sound drained ⊢
  refine ⟨fun net kn member => sound.agrees drained (carries_of_mem member), fun entry => ?_,
    fun fec route fnh member labelled => ?_⟩
  · have route : entry.hop.fec.af ≠ none := by
      obtain ⟨⟨addr, prefixlen⟩, nexthop, priority⟩ := entry
      cases addr <;> exact Option.some_ne_none _
    rw [sound.lists drained route, announces_iff, sound.good.told]
  · exact sound.labelled drained route member labelled

/-- A route of the kernel gets its labels: the engine reads of it and learns a mapping, and the parent
process reads what the engine makes of both. -/
def labelledRoute : List DaemonEvent :=
  [.rtmsg (routeMessage false), .readRoute, .engine (.neighborUp 1 7 true false),
    .engine (.addressAdd 1 (.v4 0x0a000001)),
    .engine (.labelMapping 1 { fec := .network (.v4 0x0b000000) 8, label := 100 }),
    .readLabels, .readLabels]

theorem labelledRoute_allowed (fibSync : Bool) :
    Run.Allowed daemonStep DaemonAllowed (Daemon.start fibSync {}) labelledRoute := by
  have absent : krouteFind (Daemon.start fibSync {}).kr (routeMessage false).kroute.toKroute =
      none := by
    cases fibSync <;> decide +kernel
  refine ⟨⟨⟨by decide, fun kn overwrites => ?_⟩, fun kn overwrites => ?_⟩,
    fun _ _ _ _ _ _ => by cases fibSync <;> decide +kernel,
    ⟨id, fun fec takes => (not_takes rfl fec takes).elim⟩,
    ⟨id, fun fec takes => (not_takes rfl fec takes).elim⟩,
    ⟨id, fun fec takes => (not_takes rfl fec takes).elim⟩, trivial, trivial, trivial⟩
  · cases absent.symm.trans overwrites.found
  · cases absent.symm.trans overwrites.found

theorem krt_labels_labelledRoute :
    ((Daemon.after true {} labelledRoute).kr.nodes (routeMessage false).kroute.net).map
        KrouteNode.labels = [some (16, 100)] ∧
      ∀ net, ∀ kn ∈ (Daemon.after true {} labelledRoute).kr.nodes net,
        (Daemon.after true {} labelledRoute).lde.Agrees kn.toKroute.hop kn.labels :=
  ⟨by decide +kernel, (krt_labels true {} labelledRoute (labelledRoute_allowed true)
    ⟨by decide +kernel, by decide +kernel⟩).1⟩

end Runs

/-! ### The kernel -/

section Kernel

variable {daemon : Daemon}

/-- The tables stay coupled, and as far as the kernel has carried out all messages, it has the entries of
the routes and their labels. -/
structure Daemon.Forwards (daemon : Daemon) : Prop where
  coupled : daemon.kr.fibSync = true
  mirrored : daemon.kr.Accepted → daemon.kr.Mirrored
  swaps : daemon.kr.Accepted → daemon.kr.Swaps

theorem fibSync_rtmsgProcessRoute (kr : Kr) (rtm : RtMsghdr) :
    (rtmsgProcessRoute kr rtm).1.fibSync = kr.fibSync := by
  have removed : (if rtm.type = .change then removeFirst kr rtm.kroute.toKroute else kr).fibSync =
      kr.fibSync := by
    split
    · rw [removeFirst]
      split
      · rfl
      · exact Kr.Mirrored.krouteRemove_fibSync kr _
    · rfl
  rw [rtmsgProcessRoute]
  generalize (if rtm.type = .change then removeFirst kr rtm.kroute.toKroute else kr) = mid
    at removed ⊢
  split
  · split
    · exact removed
    · exact (Kr.Mirrored.krouteRemove_fibSync mid _).trans removed
  split
  · exact removed
  · split <;> exact removed

theorem fibSync_dispatchLde (kr : Kr) (imsg : ParentImsg) :
    (kr.dispatchLde imsg).fibSync = kr.fibSync := by
  cases imsg with
  | klabelChange route =>
    rw [Kr.dispatchLde, krChange]
    split <;> rfl
  | klabelDelete route =>
    rw [Kr.dispatchLde, krDelete]
    split
    · rfl
    · split <;> rfl
  | kpwlabelChange | kpwlabelDelete => rfl

theorem toKernel_dispatchLde (kr : Kr) (imsg : ParentImsg) :
    kr.toKernel <+: (kr.dispatchLde imsg).toKernel := by
  cases imsg with
  | klabelChange route => exact krStep_toKernel kr (.change route)
  | klabelDelete route => exact krStep_toKernel kr (.delete route)
  | kpwlabelChange | kpwlabelDelete => exact List.prefix_rfl

/-- The local label of a route in the kernel is still the one of the next message about it. -/
theorem Daemon.Sound.steady (sound : daemon.Sound) {route : Kroute}
    (next : daemon.lde.toParent[daemon.labelsRead]? = some (.klabelChange route)) {kn : KrouteNode}
    (found : krouteFind daemon.kr route = some kn) (marked : kn.flags.ldpdInserted = true) :
    kn.localLabel = route.localLabel := by
  have about := sound.synced.programmed.about _ (List.mem_of_getElem? next)
  have here := hop_of_find sound.good.proper about.1.1 found
  have carried := carries_of_mem (mem_of_krouteFind found)
  have labels : kn.labels = some (kn.localLabel, kn.remoteLabel) := if_pos marked
  have recent := (sound.synced.recent _ _ carried).resolve_left
    (labels ▸ Option.some_ne_none (kn.localLabel, kn.remoteLabel))
  obtain ⟨bound, there⟩ := List.getElem?_eq_some_iff.mp next
  have steady := sound.synced.programmed.steady _ (sound.synced.carried _ _ carried).route
  rw [← List.take_append_drop daemon.labelsRead daemon.lde.toParent, Run.allowed_append,
    ← List.cons_getElem_drop_succ (h := bound), there] at steady
  exact (steady.2.1 here.symm _ (recent.symm.trans labels)).symm

/-- A step of one of the processes, if the kernel has carried out the messages. -/
theorem Daemon.Forwards.step (forwards : daemon.Forwards) (sound : daemon.Sound) {event : DaemonEvent}
    (allowed : DaemonAllowed daemon event) : (daemonStep daemon event).Forwards := by
  have stays {daemon' : Daemon} (same : daemon'.kr = daemon.kr) : daemon'.Forwards :=
    ⟨same ▸ forwards.coupled, same ▸ forwards.mirrored, same ▸ forwards.swaps⟩
  cases event with
  | rtmsg rtm =>
    have before (accepted : (rtmsgProcessRoute daemon.kr rtm).1.Accepted) : daemon.kr.Accepted :=
      accepted.of_prefix (rtmsgProcessRoute_toKernel daemon.kr rtm)
    refine ⟨(fibSync_rtmsgProcessRoute daemon.kr rtm).trans forwards.coupled, fun accepted => ?_,
      fun accepted => ?_⟩
    · refine (forwards.mirrored (before accepted)).rtmsgProcessRoute allowed.1.priority
        fun _ kn overwrites => ?_
      rw [KrouteNode.installed, allowed.2 kn overwrites, Bool.and_false, Bool.false_and]
    · exact (forwards.swaps (before accepted)).rtmsgProcessRoute
        (forwards.mirrored (before accepted)) allowed.1.priority
  | engine event => exact stays rfl
  | readRoute => exact stays (readRoute_kr daemon)
  | readLabels =>
    rcases readLabels_kr daemon with same | ⟨imsg, next, step⟩
    · exact stays same
    have before (accepted : (daemon.kr.dispatchLde imsg).Accepted) : daemon.kr.Accepted :=
      accepted.of_prefix (toKernel_dispatchLde daemon.kr imsg)
    suffices both : ∀ accepted : (daemon.kr.dispatchLde imsg).Accepted,
        (daemon.kr.dispatchLde imsg).Mirrored ∧ (daemon.kr.dispatchLde imsg).Swaps by
      refine ⟨?_, ?_, ?_⟩
      · rw [step, fibSync_dispatchLde]
        exact forwards.coupled
      · rw [step]
        exact fun accepted => (both accepted).1
      · rw [step]
        exact fun accepted => (both accepted).2
    intro accepted
    have mirrored := forwards.mirrored (before accepted)
    have swaps := forwards.swaps (before accepted)
    cases imsg with
    | klabelChange route =>
      have free := (sound.synced.programmed.about _ (List.mem_of_getElem? next)).2
      have mirrored' := mirrored.krChange (fun kn found =>
        ⟨sound.steady next found, fun _ _ => free⟩) accepted
      exact ⟨mirrored', swaps.krChange mirrored mirrored' fun _ _ _ => free⟩
    | klabelDelete route => exact ⟨mirrored.krDelete route, swaps.krDelete mirrored route⟩
    | kpwlabelChange | kpwlabelDelete => exact ⟨mirrored, swaps⟩

theorem forwards_start (conf : LdeConf) : (Daemon.start true conf).Forwards where
  coupled := rfl
  mirrored _ := by
    have none (net : KroutePrefix) : entries (Kr.nodes { fibSync := true } net) = ∅ := by
      refine Set.eq_empty_of_forall_notMem fun entry inside => ?_
      obtain ⟨kn, member, -⟩ := inside
      exact absurd (nodes_start true net ▸ member) List.not_mem_nil
    refine ⟨(good_start true).proper, fun _ net kn member => ?_, fun _ => ⟨?_, fun net => ?_⟩,
      fun _ => rfl⟩
    · exact absurd (nodes_start true net ▸ member) List.not_mem_nil
    · refine (Set.eq_empty_of_forall_notMem fun entry member => ?_).symm
      obtain ⟨net, member⟩ := member
      exact absurd (none net ▸ member) (Set.notMem_empty entry)
    · show Disjoint (entries (Kr.nodes { fibSync := true } net)) _
      rw [none]
      exact Set.empty_disjoint _
  swaps _ _ net kn member := absurd (nodes_start true net ▸ member) List.not_mem_nil

theorem forwards_of_run (conf : LdeConf) (events : List DaemonEvent)
    (allowed : Run.Allowed daemonStep DaemonAllowed (Daemon.start true conf) events) :
    (Daemon.after true conf events).Sound ∧ (Daemon.after true conf events).Forwards :=
  Run.foldl_of_allowed (fun daemon => daemon.Sound ∧ daemon.Forwards)
    (fun _ _ both allowed => ⟨both.1.step allowed, both.2.step both.1 allowed⟩)
    ⟨sound_start true conf, forwards_start conf⟩ allowed

/-- The FEC of a node that has an entry. -/
theorem KrouteNode.fec_of_installed {kn : KrouteNode} (installed : kn.installed = true) :
    ∃ addr prefixlen, kn.toKroute.fec = .ipv4 addr prefixlen := by
  rw [KrouteNode.installed, Bool.and_eq_true, Bool.and_eq_true] at installed
  have family : kn.addr.af = .inet := of_decide_eq_true installed.1.1
  rw [Kroute.fec]
  cases here : kn.addr with
  | v4 addr => exact ⟨addr, kn.prefixlen, rfl⟩
  | v6 addr =>
    rw [here] at family
    cases family

theorem KrouteNode.labels_of_installed {kn : KrouteNode} (installed : kn.installed = true) :
    kn.labels = some (kn.localLabel, kn.remoteLabel) := by
  rw [KrouteNode.installed, Bool.and_eq_true, Bool.and_eq_true] at installed
  exact if_pos installed.1.2

/-- A route with a label that is not reserved has an entry. -/
theorem KrouteNode.installed_of_labels {kn : KrouteNode} {addr : InAddr} {prefixlen : UInt8}
    (fec : kn.toKroute.fec = .ipv4 addr prefixlen) {labels : UInt32 × UInt32}
    (carried : kn.labels = some labels) (free : mplsLabelReservedMax < labels.1) :
    kn.installed = true ∧ kn.localLabel = labels.1 ∧ kn.remoteLabel = labels.2 := by
  rw [KrouteNode.labels] at carried
  split at carried
  · rename_i marked
    cases carried
    refine ⟨?_, rfl, rfl⟩
    have family : kn.addr.af = .inet := by
      have same := kn.toKroute.af_fec
      rw [fec] at same
      exact (Option.some_injective _ same).symm
    rw [KrouteNode.installed, marked, Bool.and_true, Bool.and_eq_true]
    exact ⟨decide_eq_true family, decide_eq_true free⟩
  · cases carried

/-- An entry of the kernel is the local label of a FEC with a nexthop of it. -/
theorem Daemon.Sound.entry_of_fib (sound : daemon.Sound) (forwards : daemon.Forwards)
    (accepted : daemon.kr.Accepted) (drained : daemon.Drained) {entry : MplsEntry}
    (member : entry ∈ daemon.kr.fib) : ∃ addr prefixlen,
      ∃ fnh ∈ daemon.lde.nexthops (.ipv4 addr prefixlen),
        entry = ⟨daemon.lde.localLabel (.ipv4 addr prefixlen), fnh.nexthop, fnh.priority⟩ ∧
          daemon.kr.swap entry =
            some (if fnh.remoteLabel = noLabel then none else some fnh.remoteLabel) := by
  have fib := ((forwards.mirrored accepted).coupled forwards.coupled).1
  rw [fib] at member
  obtain ⟨net, kn, member, installed, rfl⟩ := member
  obtain ⟨addr, prefixlen, fec⟩ := KrouteNode.fec_of_installed installed
  have agrees := sound.agrees drained (carries_of_mem member)
  rw [KrouteNode.labels_of_installed installed] at agrees
  obtain ⟨label, fnh, listed, hops, remote⟩ := agrees
  have here : kn.toKroute.hop.fec = .ipv4 addr prefixlen := fec
  rw [here] at label listed
  refine ⟨addr, prefixlen, fnh, listed, ?_, ?_⟩
  · rw [label, show fnh.nexthop = kn.nexthop from congrArg Hop.nexthop hops,
      show fnh.priority = kn.priority from congrArg Hop.priority hops, KrouteNode.entry]
  · rw [forwards.swaps accepted forwards.coupled net kn member installed, labelOut, remote]
    by_cases none : kn.remoteLabel = noLabel
    · rw [if_pos none, if_neg fun both => both.1 none]
    · rw [if_neg none, if_pos ⟨none, by decide⟩]

/-- A nexthop of an IPv4 route with a remote label has its entry. -/
theorem Daemon.Sound.mem_fib (sound : daemon.Sound) (forwards : daemon.Forwards)
    (accepted : daemon.kr.Accepted) (drained : daemon.Drained) {addr : InAddr} {prefixlen : UInt8}
    {fnh : FecNh} (member : fnh ∈ daemon.lde.nexthops (.ipv4 addr prefixlen))
    (labelled : fnh.remoteLabel ≠ noLabel)
    (free : mplsLabelReservedMax < daemon.lde.localLabel (.ipv4 addr prefixlen)) :
    ⟨daemon.lde.localLabel (.ipv4 addr prefixlen), fnh.nexthop, fnh.priority⟩ ∈ daemon.kr.fib ∧
      daemon.kr.swap ⟨daemon.lde.localLabel (.ipv4 addr prefixlen), fnh.nexthop, fnh.priority⟩ =
        some (some fnh.remoteLabel) := by
  have fib := ((forwards.mirrored accepted).coupled forwards.coupled).1
  have route : (Fec.ipv4 addr prefixlen).af ≠ none := Option.some_ne_none _
  obtain ⟨net, kn, among, hops, labels⟩ := sound.labelled drained route member labelled
  obtain ⟨installed, label, remote⟩ := KrouteNode.installed_of_labels
    (congrArg Hop.fec hops) labels free
  have entry : kn.entry = ⟨daemon.lde.localLabel (.ipv4 addr prefixlen), fnh.nexthop,
      fnh.priority⟩ := by
    rw [KrouteNode.entry, label, show kn.nexthop = fnh.nexthop from congrArg Hop.nexthop hops,
      show kn.priority = fnh.priority from congrArg Hop.priority hops]
  rw [← entry]
  refine ⟨fib ▸ ⟨net, kn, among, installed, rfl⟩, ?_⟩
  rw [forwards.swaps accepted forwards.coupled net kn among installed, labelOut, remote,
    if_pos ⟨labelled, by decide⟩]

/-- Once both pipes are empty and the kernel has carried out all messages, it forwards with the labels of
the engine: every entry has the local label of a FEC and a nexthop of it, and pushes the remote label of
the nexthop, and every nexthop of an IPv4 route with a remote label has its entry, if the local label
is not reserved. -/
theorem fib_labels (conf : LdeConf) (events : List DaemonEvent)
    (allowed : Run.Allowed daemonStep DaemonAllowed (Daemon.start true conf) events)
    (accepted : (Daemon.after true conf events).kr.Accepted)
    (drained : (Daemon.after true conf events).Drained) :
    (∀ entry ∈ (Daemon.after true conf events).kr.fib, ∃ addr prefixlen,
      ∃ fnh ∈ (Daemon.after true conf events).lde.nexthops (.ipv4 addr prefixlen),
        entry = ⟨(Daemon.after true conf events).lde.localLabel (.ipv4 addr prefixlen), fnh.nexthop,
          fnh.priority⟩ ∧ (Daemon.after true conf events).kr.swap entry =
            some (if fnh.remoteLabel = noLabel then none else some fnh.remoteLabel)) ∧
      ∀ addr prefixlen, ∀ fnh ∈ (Daemon.after true conf events).lde.nexthops (.ipv4 addr prefixlen),
        fnh.remoteLabel ≠ noLabel → mplsLabelReservedMax <
            (Daemon.after true conf events).lde.localLabel (.ipv4 addr prefixlen) →
          ⟨(Daemon.after true conf events).lde.localLabel (.ipv4 addr prefixlen), fnh.nexthop,
              fnh.priority⟩ ∈ (Daemon.after true conf events).kr.fib ∧
            (Daemon.after true conf events).kr.swap
              ⟨(Daemon.after true conf events).lde.localLabel (.ipv4 addr prefixlen), fnh.nexthop,
                fnh.priority⟩ = some (some fnh.remoteLabel) := by
  obtain ⟨sound, forwards⟩ := forwards_of_run conf events allowed
  exact ⟨fun _ member => sound.entry_of_fib forwards accepted drained member,
    fun _ _ _ member labelled free => sound.mem_fib forwards accepted drained member labelled free⟩

theorem fib_labels_labelledRoute :
    (⟨16, .v4 0x0a000001, 8⟩ : MplsEntry) ∈ (Daemon.after true {} labelledRoute).kr.fib ∧
      (Daemon.after true {} labelledRoute).kr.swap ⟨16, .v4 0x0a000001, 8⟩ = some (some 100) := by
  have sent : (Daemon.after true {} labelledRoute).kr.toKernel =
      [.mpls .add 16 (.v4 0x0a000001) 8 none, .mpls .change 16 (.v4 0x0a000001) 8 (some 100),
        .inet .change ⟨.v4 0x0b000000, 8⟩ (.v4 0x0a000001) 8 (some 100)] := by
    decide +kernel
  have accepted : (Daemon.after true {} labelledRoute).kr.Accepted := by
    rw [Kr.Accepted, sent]
    exact ⟨Set.notMem_empty _, trivial, trivial, trivial⟩
  have label : (Daemon.after true {} labelledRoute).lde.localLabel (.ipv4 0x0b000000 8) = 16 := by
    decide +kernel
  have member : (⟨.v4 0x0a000001, 100, 8⟩ : FecNh) ∈
      (Daemon.after true {} labelledRoute).lde.nexthops (.ipv4 0x0b000000 8) := by
    decide +kernel
  have forwards := (fib_labels {} labelledRoute (labelledRoute_allowed true) accepted
    ⟨by decide +kernel, by decide +kernel⟩).2 _ _ _ member (by decide)
  rw [label] at forwards
  exact forwards (by decide)

end Kernel

end Ldpd
