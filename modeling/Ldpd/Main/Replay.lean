/-
This file shows what the tree of kernel routes holds after any routing messages: the
triples of prefix, priority and nexthop that replaying the messages on a set leaves,
where the nexthops of a prefix and priority are kept in the order in which they came.
-/

import Ldpd.Main.Nodes

namespace Ldpd

/-! ### Replaying messages on a set -/

/-- The nexthops of every prefix and priority, in the order in which they came. -/
abbrev RouteSet := KroutePrefix → UInt8 → List LdpdAddr

/-- The triples of a set. -/
def RouteSet.triples (routes : RouteSet) : Set (KroutePrefix × UInt8 × LdpdAddr) :=
  {triple | triple.2.2 ∈ routes triple.1 triple.2.1}

/-- A nexthop is put into a set. -/
def addNexthop (nexthop : LdpdAddr) (nexthops : List LdpdAddr) : List LdpdAddr :=
  if nexthop ∈ nexthops then nexthops else nexthops ++ [nexthop]

/-- What a message does to the nexthops of its prefix and priority. -/
def RtMsghdr.change (rtm : RtMsghdr) (nexthops : List LdpdAddr) : List LdpdAddr :=
  match rtm.type with
  | .add | .get => addNexthop rtm.nexthop nexthops
  | .delete => nexthops.erase rtm.nexthop
  | .change => addNexthop rtm.nexthop nexthops.tail

/-- The nexthops of one prefix and priority change. -/
def RouteSet.update (routes : RouteSet) (net : KroutePrefix) (priority : UInt8)
    (change : List LdpdAddr → List LdpdAddr) : RouteSet :=
  fun other priority' =>
    if other = net ∧ priority' = priority then change (routes other priority')
    else routes other priority'

/-- A message is replayed. -/
def RouteSet.replay (routes : RouteSet) (rtm : RtMsghdr) : RouteSet :=
  routes.update rtm.kroute.net rtm.priority rtm.change

/-- A message names a nexthop or a connected route. -/
def RtMsghdr.Usable (rtm : RtMsghdr) : Prop :=
  ldpAddrisset rtm.nexthop = true ∨ rtm.kroute.flags.connected = true

instance (rtm : RtMsghdr) : Decidable rtm.Usable :=
  inferInstanceAs (Decidable (_ ∨ _))

/-! ### The nexthops of a priority -/

/-- The nexthops of the nodes of a priority. -/
def nexthopsAt (kprios : List KroutePriority) (priority : UInt8) : List LdpdAddr :=
  (kprios.filter fun kprio => kprio.priority = priority).flatMap fun kprio =>
    kprio.nexthops.map fun kn => kn.nexthop

/-- What the tree holds. -/
def Kr.routes (kr : Kr) : RouteSet :=
  fun net => nexthopsAt (kr.krt.getD net [])

section NexthopsAt

variable {net : KroutePrefix} {kprios before after : List KroutePriority} {kprio : KroutePriority}
  {kn : KrouteNode} {route : Kroute} {priority : UInt8}

theorem nexthopsAt_append (first second : List KroutePriority) :
    nexthopsAt (first ++ second) priority =
      nexthopsAt first priority ++ nexthopsAt second priority := by
  rw [nexthopsAt, List.filter_append, List.flatMap_append]
  rfl

theorem nexthopsAt_cons (first : KroutePriority) (rest : List KroutePriority) :
    nexthopsAt (first :: rest) priority =
      (if first.priority = priority then first.nexthops.map fun kn => kn.nexthop else []) ++
        nexthopsAt rest priority := by
  by_cases same : first.priority = priority
  · rw [nexthopsAt, List.filter_cons, if_pos (decide_eq_true same), List.flatMap_cons, if_pos same]
    rfl
  · rw [nexthopsAt, List.filter_cons, if_neg fun yes => same (of_decide_eq_true yes), if_neg same]
    rfl

theorem mem_nexthopsAt {nexthop : LdpdAddr} : nexthop ∈ nexthopsAt kprios priority ↔
    ∃ kprio ∈ kprios, kprio.priority = priority ∧ ∃ kn ∈ kprio.nexthops, kn.nexthop = nexthop := by
  simp only [nexthopsAt, List.mem_flatMap, List.mem_filter, List.mem_map, decide_eq_true_eq, and_assoc]

theorem nexthopsAt_eq_nil (others : ∀ kprio ∈ kprios, kprio.priority ≠ priority) :
    nexthopsAt kprios priority = [] := by
  rw [nexthopsAt, List.filter_eq_nil_iff.mpr fun kprio member => by simpa using others kprio member]
  rfl

/-- Flags do not matter. -/
theorem nexthopsAt_congr {kprios' : List KroutePriority} (same : shape kprios' = shape kprios) :
    nexthopsAt kprios' priority = nexthopsAt kprios priority := by
  have ofShape (kprios : List KroutePriority) : nexthopsAt kprios priority =
      ((shape kprios).filter fun both => both.1 = priority).flatMap fun both =>
        both.2.map Kroute.nexthop := by
    simp only [nexthopsAt, shape, List.filter_map, List.flatMap_map, List.map_map, Function.comp_def]
  rw [ofShape, ofShape, same]

/-- The nexthops of a priority are those of one node. -/
theorem nexthopsAt_middle (proper : Proper net (before ++ kprio :: after)) :
    nexthopsAt before kprio.priority = [] ∧ nexthopsAt after kprio.priority = [] := by
  have sorted := proper.sorted
  rw [List.map_append, List.map_cons, List.pairwise_append] at sorted
  obtain ⟨-, later, earlier⟩ := sorted
  rw [List.pairwise_cons] at later
  refine ⟨nexthopsAt_eq_nil fun other member => ?_, nexthopsAt_eq_nil fun other member => ?_⟩
  · exact UInt8.ne_of_lt (earlier _ (List.mem_map_of_mem member) _ List.mem_cons_self)
  · exact (UInt8.ne_of_lt (later.1 _ (List.mem_map_of_mem member))).symm

/-- A node is found if its nexthop is one of its priority. -/
theorem isSome_findNode (proper : Proper net kprios) (known : route.priority ≠ rtpAny) :
    (findNode kprios route).isSome = true ↔ route.nexthop ∈ nexthopsAt kprios route.priority := by
  rw [Option.isSome_iff_exists, mem_nexthopsAt]
  constructor
  · rintro ⟨kn, found⟩
    obtain ⟨member, priority, nexthop⟩ := (proper.findNode_eq_some known).mp found
    obtain ⟨kprio, among, inKprio⟩ := mem_nodes.mp member
    exact ⟨kprio, among, (proper.placed kprio among kn inKprio).2.symm.trans priority, kn, inKprio,
      nexthop⟩
  · rintro ⟨kprio, among, priority, kn, inKprio, nexthop⟩
    exact ⟨kn, (proper.findNode_eq_some known).mpr ⟨mem_nodes.mpr ⟨kprio, among, inKprio⟩,
      (proper.placed kprio among kn inKprio).2.trans priority, nexthop⟩⟩

/-- Erasing a node erases its nexthop from its priority. -/
theorem nexthopsAt_eraseNode (proper : Proper net kprios) (found : findNode kprios route = some kn)
    (known : route.priority ≠ rtpAny) : nexthopsAt (eraseNode kprios route) priority =
      if priority = route.priority then (nexthopsAt kprios priority).erase route.nexthop
      else nexthopsAt kprios priority := by
  obtain ⟨before, kprio, after, early, late, rfl, there, nexthop, equal, -, erased⟩ :=
    spot_of_findNode found
  have here := equal known
  have distinct := proper.distinct kprio (by simp)
  obtain ⟨front, back⟩ := nexthopsAt_middle proper
  have left : nexthopsAt (eraseNode (before ++ kprio :: after) route) priority =
      nexthopsAt before priority ++ (if kprio.priority = priority then
        (early ++ late).map fun kn => kn.nexthop else []) ++ nexthopsAt after priority := by
    rw [erased]
    split
    · rename_i empty
      rw [List.isEmpty_iff.mp empty, List.map_nil, ite_self, List.append_nil, nexthopsAt_append]
    · rw [nexthopsAt_append, nexthopsAt_cons, List.append_assoc]
  rw [left, nexthopsAt_append, nexthopsAt_cons]
  by_cases same : priority = route.priority
  · subst same
    rw [here] at front back
    rw [if_pos here, if_pos here, if_pos rfl, front, back, List.nil_append, List.append_nil,
      List.nil_append, List.append_nil, there, List.map_append, List.map_append, List.map_cons, ← nexthop]
    rw [there, List.map_append, List.map_cons, List.nodup_middle, List.nodup_cons] at distinct
    have fresh := fun member => distinct.1 (List.mem_append_left _ member)
    rw [List.erase_append_right _ fresh, List.erase_cons_head]
  · have other : kprio.priority ≠ priority := fun equal => same (equal.symm.trans here)
    rw [if_neg other, if_neg other, if_neg same, List.append_nil, List.nil_append]

/-- A priority that is new brings its nexthops. -/
theorem nexthopsAt_orderedInsert {new : KroutePriority}
    (absent : ∀ kprio ∈ kprios, kprio.priority ≠ new.priority) :
    nexthopsAt (kprios.orderedInsert (fun kprio tmp => kprio.priority < tmp.priority) new) priority =
      nexthopsAt kprios priority ++
        if new.priority = priority then new.nexthops.map fun kn => kn.nexthop else [] := by
  induction kprios with
  | nil => exact (nexthopsAt_cons new []).trans (List.append_nil _)
  | cons first rest inductionHypothesis =>
    have later := inductionHypothesis fun kprio member => absent kprio (List.mem_cons_of_mem _ member)
    rw [List.orderedInsert_cons]
    split
    · rw [nexthopsAt_cons]
      by_cases same : new.priority = priority
      · have none : nexthopsAt (first :: rest) priority = [] :=
          nexthopsAt_eq_nil fun kprio member => same ▸ absent kprio member
        rw [if_pos same, none, List.append_nil, List.nil_append]
      · rw [if_neg same, List.append_nil, List.nil_append]
    · rw [nexthopsAt_cons, later, nexthopsAt_cons, List.append_assoc]

/-- Inserting a node puts its nexthop at the end of its priority. -/
theorem nexthopsAt_insertNode (proper : Proper net kprios) (known : kn.priority ≠ rtpAny)
    (absent : findNode kprios kn.toKroute = none) : nexthopsAt (insertNode kprios kn) priority =
      if priority = kn.priority then nexthopsAt kprios priority ++ [kn.nexthop]
      else nexthopsAt kprios priority := by
  rw [insertNode]
  cases first : krouteFindPrio kprios kn.priority with
  | none =>
    have others : ∀ kprio ∈ kprios, kprio.priority ≠ kn.priority := by
      intro kprio member same
      have test := List.find?_eq_none.mp first kprio member
      simp [KroutePriority.isPrio, same] at test
    refine (nexthopsAt_orderedInsert others).trans ?_
    by_cases same : priority = kn.priority
    · rw [if_pos same.symm, if_pos same]
      rfl
    · rw [if_neg fun equal => same equal.symm, if_neg same, List.append_nil]
  | some kprio =>
    rw [findNode, first, Option.bind_some] at absent
    dsimp only
    rw [absent]
    obtain ⟨isPrio, before, after, rfl, -, replaced⟩ := exists_of_find? first
    have equal : kprio.priority = kn.priority := by
      simpa [KroutePriority.isPrio, known] using isPrio
    obtain ⟨front, back⟩ := nexthopsAt_middle proper
    dsimp only
    rw [replaced fun kprio => { kprio with nexthops := kprio.nexthops ++ [kn] }, nexthopsAt_append,
      nexthopsAt_cons, nexthopsAt_append, nexthopsAt_cons]
    by_cases same : priority = kn.priority
    · subst same
      rw [equal] at front back
      rw [if_pos equal, if_pos equal, if_pos rfl, front, back, List.append_nil, List.append_nil,
        List.nil_append, List.nil_append, List.map_append]
      rfl
    · have other : kprio.priority ≠ priority := fun equal' => same (equal'.symm.trans equal)
      rw [if_neg other, if_neg other, if_neg same]

end NexthopsAt

/-! ### Every message is replayed -/

/-- What the tree is after some messages: nothing is empty, everything is in its place, and it holds
what the set holds. -/
structure Kr.Exact (kr : Kr) (routes : RouteSet) : Prop where
  proper : ∀ net, Proper net (kr.krt.getD net [])
  filled : ∀ net : KroutePrefix, kr.krt[net]? ≠ some []
  routes : kr.routes = routes

section Exact

variable {kr : Kr} {routes : RouteSet} {kn : KrouteNode} {rtm : RtMsghdr}

/-- A prefix is stored again with other nexthops of one priority. -/
theorem Kr.Exact.redistribute (holds : kr.Exact routes) {net : KroutePrefix}
    {kprios : List KroutePriority} (filled : kprios ≠ []) (proper : Proper net kprios)
    {priority : UInt8} {change : List LdpdAddr → List LdpdAddr}
    (here : ∀ other, nexthopsAt kprios other = if other = priority
      then change (nexthopsAt (kr.krt.getD net []) other) else nexthopsAt (kr.krt.getD net []) other) :
    (kr.redistribute net kprios).Exact (routes.update net priority change) := by
  refine ⟨fun other => ?_, fun other stored => ?_, ?_⟩
  · rw [Kr.getD_redistribute]
    split
    · rename_i same
      subst same
      exact proper.krRedistribute
    · exact holds.proper other
  · have entry : (kr.redistribute net kprios).krt[other]? =
        if net = other then some (krRedistribute kprios).1 else kr.krt[other]? :=
      Tree.getElem?_insert ..
    rw [entry] at stored
    split at stored
    · have none := congrArg shape (Option.some.inj stored)
      rw [shape_krRedistribute] at none
      exact filled (List.map_eq_nil_iff.mp none)
    · exact holds.filled other stored
  · funext other priority'
    rw [RouteSet.update, ← holds.routes, Kr.routes, Kr.getD_redistribute]
    by_cases same : net = other
    · subst same
      rw [if_pos rfl, nexthopsAt_congr (shape_krRedistribute kprios), here]
      exact if_congr (and_iff_right rfl).symm rfl rfl
    · rw [if_neg same, if_neg fun both => same both.1.symm]
      rfl

theorem RouteSet.update_id (routes : RouteSet) (net : KroutePrefix) (priority : UInt8)
    {change : List LdpdAddr → List LdpdAddr} (same : change (routes net priority) = routes net priority) :
    routes.update net priority change = routes := by
  funext other priority'
  rw [RouteSet.update]
  split
  · rename_i both
    rw [both.1, both.2, same]
  · rfl

theorem RouteSet.update_congr (routes : RouteSet) (net : KroutePrefix) (priority : UInt8)
    (change change' : List LdpdAddr → List LdpdAddr)
    (same : change (routes net priority) = change' (routes net priority)) :
    routes.update net priority change = routes.update net priority change' := by
  funext other priority'
  rw [RouteSet.update, RouteSet.update]
  split
  · rename_i both
    rw [both.1, both.2, same]
  · rfl

/-- One change after another. -/
theorem RouteSet.update_update (routes : RouteSet) (net : KroutePrefix) (priority : UInt8)
    (first second : List LdpdAddr → List LdpdAddr) :
    (routes.update net priority first).update net priority second =
      routes.update net priority (second ∘ first) := by
  funext other priority'
  rw [RouteSet.update, RouteSet.update, RouteSet.update]
  split
  · rfl
  · rfl

theorem Kr.Exact.isSome_krouteFind (holds : kr.Exact routes) {route : Kroute}
    (known : route.priority ≠ rtpAny) :
    (krouteFind kr route).isSome = true ↔ route.nexthop ∈ routes route.net route.priority := by
  rw [krouteFind_eq, isSome_findNode (holds.proper route.net) known, ← holds.routes]
  rfl

/-- A route is taken out. -/
theorem Kr.Exact.krouteRemove (holds : kr.Exact routes) {route : Kroute}
    (known : route.priority ≠ rtpAny) (found : krouteFind kr route = some kn) :
    (krouteRemove kr route).Exact
      (routes.update route.net route.priority fun nexthops => nexthops.erase route.nexthop) := by
  have spot := found
  rw [krouteFind_eq] at spot
  have proper := holds.proper route.net
  have erased := proper.eraseNode spot
  have here (priority : UInt8) := @nexthopsAt_eraseNode route.net _ kn route priority proper spot known
  rw [Ldpd.krouteRemove, found]
  dsimp only
  have same : ({ kr with toLde := kr.toLde ++ (krRedistRemove kn).2 }.write
      (krouteUninstall kr.fibSync kn)).Exact routes :=
    ⟨holds.proper, holds.filled, holds.routes⟩
  split
  · rename_i empty
    have empty' : eraseNode (kr.krt.getD route.net []) route = [] := empty
    refine ⟨fun other => ?_, fun other stored => ?_, ?_⟩
    · dsimp only
      rw [Tree.getD_erase]
      split
      · exact .nil other
      · exact holds.proper other
    · dsimp only at stored
      rw [Tree.getElem?_erase] at stored
      split at stored
      · cases stored
      · exact holds.filled other stored
    · funext other priority
      rw [RouteSet.update, ← holds.routes, Kr.routes, Kr.routes]
      dsimp only
      rw [Tree.getD_erase]
      by_cases net : route.net = other
      · subst net
        have left := here priority
        rw [empty'] at left
        rw [if_pos rfl, left]
        exact if_congr (and_iff_right rfl).symm rfl rfl
      · rw [if_neg net, if_neg fun both => net both.1.symm]
        rfl
  · rename_i filled
    exact same.redistribute filled erased here

end Exact

section Messages

variable {kr : Kr} {routes : RouteSet} {kn : KrouteNode} {rtm : RtMsghdr} {route : Kroute}

/-- A route is put in. -/
theorem Kr.Exact.krouteInsert (holds : kr.Exact routes) (known : kn.priority ≠ rtpAny)
    (absent : krouteFind kr kn.toKroute = none) :
    (krouteInsert kr kn).Exact
      (routes.update kn.net kn.priority fun nexthops => nexthops ++ [kn.nexthop]) := by
  rw [krouteFind_eq] at absent
  obtain ⟨proper, perm⟩ := (holds.proper kn.net).insertNode known rfl absent
  refine holds.redistribute (fun empty => ?_) proper fun other =>
    nexthopsAt_insertNode (holds.proper kn.net) known absent
  rw [empty] at perm
  exact absurd perm.length_eq (Nat.succ_ne_zero _).symm

/-- The node that `RTM_CHANGE` takes away has the first nexthop. -/
theorem Kr.Exact.firstNexthop (holds : kr.Exact routes) (known : route.priority ≠ rtpAny) :
    (firstNexthop kr route).map (fun kn => kn.nexthop) = (routes route.net route.priority).head? := by
  have stored : Ldpd.firstNexthop kr route = (krouteFindPrio (kr.krt.getD route.net []) route.priority).bind
      fun kprio => kprio.nexthops.head? := by
    rw [Ldpd.firstNexthop, Std.ExtTreeMap.getD_eq_getD_getElem?]
    cases kr.krt[route.net]? with
    | none | some => rfl
  rw [stored, ← holds.routes, Kr.routes]
  have proper := holds.proper route.net
  generalize kr.krt.getD route.net [] = kprios at proper ⊢
  cases first : krouteFindPrio kprios route.priority with
  | none =>
    rw [nexthopsAt_eq_nil fun kprio member same => ?_]
    · rfl
    · have test := List.find?_eq_none.mp first kprio member
      simp [KroutePriority.isPrio, same] at test
  | some kprio =>
    obtain ⟨isPrio, before, after, rfl, -⟩ := exists_of_find? first
    have equal : kprio.priority = route.priority := by
      simpa [KroutePriority.isPrio, known] using isPrio
    obtain ⟨front, back⟩ := nexthopsAt_middle proper
    rw [nexthopsAt_append, nexthopsAt_cons, ← equal, front, back, if_pos rfl, List.append_nil,
      List.nil_append, List.head?_map]
    rfl

/-- `RTM_CHANGE` takes away the first nexthop. -/
theorem Kr.Exact.removeFirst (holds : kr.Exact routes) (known : route.priority ≠ rtpAny) :
    (removeFirst kr route).Exact (routes.update route.net route.priority List.tail) := by
  have head := holds.firstNexthop known
  rw [Ldpd.removeFirst]
  cases first : Ldpd.firstNexthop kr route with
  | none =>
    rw [first] at head
    rw [routes.update_id route.net route.priority]
    · exact holds
    · rw [List.head?_eq_none_iff.mp head.symm]
      rfl
  | some kn =>
    rw [first] at head
    obtain ⟨rest, list⟩ := List.head?_eq_some_iff.mp head.symm
    obtain ⟨found, net, priority⟩ := removeFirst_find holds.proper known first
    have removed := holds.krouteRemove (priority ▸ known) found
    have tail : (routes kn.net kn.priority).erase kn.nexthop =
        List.tail (routes kn.net kn.priority) := by
      rw [net, priority, list, List.erase_cons_head]
      rfl
    rw [routes.update_congr kn.net kn.priority (fun nexthops => nexthops.erase kn.nexthop) List.tail tail,
      net, priority] at removed
    exact removed

/-- A node is replaced by one with the same nexthop. -/
theorem nexthopsAt_replaceNode {kprios : List KroutePriority} {priority : UInt8}
    (found : findNode kprios route = some kn) {change : KrouteNode → KrouteNode}
    (nexthop : (change kn).nexthop = kn.nexthop) :
    nexthopsAt (replaceNode kprios route change) priority = nexthopsAt kprios priority := by
  obtain ⟨before, kprio, after, early, late, rfl, there, -, -, replaced, -⟩ := spot_of_findNode found
  rw [replaced, nexthopsAt_append, nexthopsAt_append, nexthopsAt_cons, nexthopsAt_cons, there,
    List.map_append, List.map_append, List.map_cons, List.map_cons, nexthop]

/-- A message for a route that is there updates it. -/
theorem Kr.Exact.overwrite (holds : kr.Exact routes) (known : rtm.priority ≠ rtpAny)
    (found : krouteFind kr rtm.kroute.toKroute = some kn) :
    (kr.redistribute rtm.kroute.net (replaceNode (kr.krt.getD rtm.kroute.net [])
        rtm.kroute.toKroute fun _ => rtm.kroute)).Exact
      (routes.update rtm.kroute.net rtm.priority (addNexthop rtm.nexthop)) := by
  have listed := (holds.isSome_krouteFind (show rtm.kroute.toKroute.priority ≠ rtpAny from known)).mp
    (Option.isSome_of_mem found)
  have spot := found
  rw [krouteFind_eq] at spot
  have proper := holds.proper rtm.kroute.net
  obtain ⟨member, priority, nexthop⟩ := (proper.findNode_eq_some known).mp spot
  obtain ⟨front, back, -, replaced, -⟩ := nodes_of_findNode spot
  have filled : replaceNode (kr.krt.getD rtm.kroute.net []) rtm.kroute.toKroute
      (fun _ => rtm.kroute) ≠ [] := by
    intro empty
    have none := replaced fun _ => rtm.kroute
    rw [empty] at none
    exact absurd none.symm (List.append_ne_nil_of_right_ne_nil _ (List.cons_ne_nil _ _))
  have here (other : UInt8) : nexthopsAt (replaceNode (kr.krt.getD rtm.kroute.net [])
      rtm.kroute.toKroute fun _ => rtm.kroute) other =
        if other = rtm.priority then id (nexthopsAt (kr.krt.getD rtm.kroute.net []) other)
        else nexthopsAt (kr.krt.getD rtm.kroute.net []) other := by
    rw [nexthopsAt_replaceNode spot nexthop.symm]
    exact (ite_self _).symm
  have stored := holds.redistribute filled
    (proper.replaceNode spot nexthop.symm ⟨(proper.net_of_mem member).symm, priority.symm⟩) here
  have same : addNexthop rtm.nexthop (routes rtm.kroute.net rtm.priority) =
      id (routes rtm.kroute.net rtm.priority) :=
    if_pos listed
  rw [routes.update_congr _ _ (addNexthop rtm.nexthop) id same]
  exact stored

/-- A message for a route that is not there inserts it. -/
theorem Kr.Exact.insertNew (holds : kr.Exact routes) (known : rtm.priority ≠ rtpAny)
    (absent : krouteFind kr rtm.kroute.toKroute = none) :
    (Ldpd.krouteInsert kr { rtm.kroute with localLabel := noLabel, remoteLabel := noLabel }).Exact
      (routes.update rtm.kroute.net rtm.priority (addNexthop rtm.nexthop)) := by
  have listed := holds.isSome_krouteFind (show rtm.kroute.toKroute.priority ≠ rtpAny from known)
  have fresh : rtm.nexthop ∉ routes rtm.kroute.net rtm.priority := by
    rw [absent] at listed
    exact fun member => Bool.false_ne_true (listed.mpr member)
  rw [routes.update_congr _ _ (addNexthop rtm.nexthop) (fun nexthops => nexthops ++ [rtm.nexthop])
    (if_neg fresh)]
  exact holds.krouteInsert known absent

/-- A message is handled as it is replayed. -/
theorem Kr.Exact.rtmsgProcessRoute (holds : kr.Exact routes) (known : rtm.priority ≠ rtpAny)
    (usable : rtm.Usable) :
    (rtmsgProcessRoute kr rtm).2 = true ∧ (rtmsgProcessRoute kr rtm).1.Exact (routes.replay rtm) := by
  have known' : rtm.kroute.toKroute.priority ≠ rtpAny := known
  have used : ¬(!ldpAddrisset rtm.kroute.nexthop && !rtm.kroute.flags.connected) = true := by
    rw [Bool.and_eq_true, not_and_or, Bool.not_eq_true', Bool.not_eq_true', Bool.not_eq_false,
      Bool.not_eq_false]
    exact usable
  have first : (if rtm.type = .change then Ldpd.removeFirst kr rtm.kroute.toKroute else kr).Exact
      (routes.update rtm.kroute.net rtm.priority
        fun nexthops => if rtm.type = .change then nexthops.tail else nexthops) := by
    split
    · exact holds.removeFirst known'
    · rw [routes.update_id _ _ rfl]
      exact holds
  rw [Ldpd.rtmsgProcessRoute]
  generalize (if rtm.type = .change then Ldpd.removeFirst kr rtm.kroute.toKroute else kr) = kr' at first ⊢
  by_cases delete : rtm.type = .delete
  · have change : rtm.change = fun nexthops => nexthops.erase rtm.nexthop := by
      funext nexthops
      rw [RtMsghdr.change, delete]
    have stays : ¬rtm.type = .change := by
      rw [delete]
      decide
    simp only [if_neg stays] at first
    rw [routes.update_id _ _ rfl] at first
    rw [if_pos delete, RouteSet.replay, change]
    have listed := first.isSome_krouteFind known'
    split
    · rename_i absent
      rw [absent] at listed
      rw [routes.update_id _ _ (List.erase_of_not_mem fun member =>
        Bool.false_ne_true (listed.mpr member))]
      exact ⟨rfl, first⟩
    · rename_i kn found
      exact ⟨rfl, first.krouteRemove known' found⟩
  · have change : rtm.change = addNexthop rtm.nexthop ∘
        fun nexthops => if rtm.type = .change then nexthops.tail else nexthops := by
      funext nexthops
      rw [RtMsghdr.change, Function.comp_apply]
      cases type : rtm.type with
      | add | get | change => rfl
      | delete => exact absurd type delete
    rw [if_neg delete, if_neg used, RouteSet.replay, change, ← RouteSet.update_update]
    split
    · rename_i kn found
      exact ⟨rfl, first.overwrite known found⟩
    · rename_i absent
      exact ⟨rfl, first.insertNew known absent⟩

end Messages

/-! ### Runs -/

theorem exact_empty (fibSync : Bool) : Kr.Exact { fibSync } fun _ _ => [] := by
  have empty (net : KroutePrefix) : (∅ : Std.ExtTreeMap KroutePrefix (List KroutePriority)
      krouteCompare).getD net [] = [] := Std.ExtTreeMap.getD_empty
  refine ⟨fun net => ?_, fun net stored => ?_, ?_⟩
  · rw [empty]
    exact .nil net
  · cases Std.ExtTreeMap.getElem?_empty.symm.trans stored
  · funext net priority
    rw [Kr.routes, empty]
    rfl

/-- Messages are handled as they are replayed. -/
theorem Kr.Exact.foldl {kr : Kr} {routes : RouteSet} (holds : kr.Exact routes) (rtms : List RtMsghdr)
    (known : ∀ rtm ∈ rtms, rtm.priority ≠ rtpAny) (usable : ∀ rtm ∈ rtms, rtm.Usable) :
    (rtms.foldl (fun kr rtm => (Ldpd.rtmsgProcessRoute kr rtm).1) kr).Exact
      (rtms.foldl RouteSet.replay routes) := by
  induction rtms generalizing kr routes with
  | nil => exact holds
  | cons rtm rest inductionHypothesis =>
    rw [List.forall_mem_cons] at known usable
    exact inductionHypothesis (holds.rtmsgProcessRoute known.1 usable.1).2 known.2 usable.2

/-- The triples in a tree. -/
def Kr.triples (kr : Kr) : Set (KroutePrefix × UInt8 × LdpdAddr) :=
  {triple | ∃ kprios, kr.krt[triple.1]? = some kprios ∧ ∃ kprio ∈ kprios,
    kprio.priority = triple.2.1 ∧ ∃ kn ∈ kprio.nexthops, kn.nexthop = triple.2.2}

theorem Kr.Exact.triples {kr : Kr} {routes : RouteSet} (holds : kr.Exact routes) :
    kr.triples = routes.triples := by
  ext triple
  show (∃ kprios, _ ∧ _) ↔ triple.2.2 ∈ routes triple.1 triple.2.1
  rw [← holds.routes, Kr.routes, mem_nexthopsAt, Std.ExtTreeMap.getD_eq_getD_getElem?]
  cases kr.krt[triple.1]? with
  | none => simp
  | some kprios => simp

/-- After any routing messages the tree holds the triples that replaying them leaves, the priorities of
every prefix are in order, nothing is empty, no nexthop is there twice, and every route carries the
prefix, the length and the priority it lies under. -/
theorem krt_exact (fibSync : Bool) (rtms : List RtMsghdr)
    (known : ∀ rtm ∈ rtms, rtm.priority ≠ rtpAny) (usable : ∀ rtm ∈ rtms, rtm.Usable) :
    (rtms.foldl (fun kr rtm => (rtmsgProcessRoute kr rtm).1) { fibSync }).triples =
        (rtms.foldl RouteSet.replay fun _ _ => []).triples ∧
      ∀ net kprios, (rtms.foldl (fun kr rtm => (rtmsgProcessRoute kr rtm).1) { fibSync }).krt[net]? =
        some kprios → kprios ≠ [] ∧ Proper net kprios := by
  have holds := (exact_empty fibSync).foldl rtms known usable
  generalize rtms.foldl (fun kr rtm => (rtmsgProcessRoute kr rtm).1) { fibSync } = kr at holds ⊢
  refine ⟨holds.triples, fun net kprios stored => ⟨fun empty => ?_, ?_⟩⟩
  · rw [empty] at stored
    exact holds.filled net stored
  · have proper := holds.proper net
    rw [Std.ExtTreeMap.getD_eq_getD_getElem?, stored] at proper
    exact proper

/-- A message about a route to 11.0.0.0/8. -/
def netMessage (type : RtmType) (gateway : InAddr) (priority : UInt8) : RtMsghdr where
  type := type
  dst := .v4 0x0b000000
  prefixlen := 8
  gateway := .inet gateway
  priority := priority

/-- The route of a message as it is stored. -/
def unlabelledRoute (rtm : RtMsghdr) : Kroute :=
  { rtm.kroute.toKroute with localLabel := noLabel, remoteLabel := noLabel }

theorem krt_exact_change :
    (([netMessage .add 0x0a000001 8, netMessage .change 0x0a000002 8].foldl
      (fun kr rtm => (rtmsgProcessRoute kr rtm).1) { fibSync := true }).krt[
        (⟨.v4 0x0b000000, 8⟩ : KroutePrefix)]?).isSome = true ∧
    ([netMessage .add 0x0a000001 8, netMessage .change 0x0a000002 8].foldl
      (fun kr rtm => (rtmsgProcessRoute kr rtm).1) { fibSync := true }).triples =
      ([netMessage .add 0x0a000001 8, netMessage .change 0x0a000002 8].foldl RouteSet.replay
        fun _ _ => []).triples :=
  ⟨by decide +kernel, (krt_exact true
    [netMessage .add 0x0a000001 8, netMessage .change 0x0a000002 8] (by decide) (by decide)).1⟩

/-- `RTP_ANY` stands for any priority: a route with it lies under the first one of its prefix. -/
theorem anyPriority_not_exact :
    ¬∀ net kprios, ([netMessage .add 0x0a000001 8, netMessage .add 0x0a000002 rtpAny].foldl
      (fun kr rtm => (rtmsgProcessRoute kr rtm).1) { fibSync := true }).krt[net]? = some kprios →
        kprios ≠ [] ∧ Proper net kprios := by
  intro proper
  have stored : (([netMessage .add 0x0a000001 8, netMessage .add 0x0a000002 rtpAny].foldl
      (fun kr rtm => (rtmsgProcessRoute kr rtm).1) { fibSync := true }).krt[
        (⟨.v4 0x0b000000, 8⟩ : KroutePrefix)]?).map shape =
      some [(8, [unlabelledRoute (netMessage .add 0x0a000001 8),
        unlabelledRoute (netMessage .add 0x0a000002 rtpAny)])] := by
    decide +kernel
  obtain ⟨kprios, there, shaped⟩ := Option.map_eq_some_iff.mp stored
  have placed := (proper _ kprios there).2.placed
  obtain ⟨kprio, rfl, both⟩ := List.map_eq_singleton_iff.mp shaped
  have priority : kprio.priority = 8 := congrArg Prod.fst both
  obtain ⟨first, rest, list, -, others⟩ := List.map_eq_cons_iff.mp (congrArg Prod.snd both)
  obtain ⟨second, _, rfl, route, -⟩ := List.map_eq_cons_iff.mp others
  have member : second ∈ kprio.nexthops := by
    rw [list]
    exact List.mem_cons_of_mem _ List.mem_cons_self
  have same := (placed kprio List.mem_cons_self second member).2
  rw [priority] at same
  have priority' : second.priority = 64 := congrArg Kroute.priority route
  exact absurd (same.symm.trans priority') (by decide)

end Ldpd
