/-
This file is about the labels that the routes of the parent process carry. A message of
the label decision engine changes the labels of one route, and a routing message takes
away routes, brings routes without labels, or leaves the labels of a route alone.
-/

import Ldpd.Main.Redistribute
import Ldpd.Main.Fib
import Ldpd.Lde.Programs

namespace Ldpd

/-! ### Routes with labels -/

/-- The local and the remote label of a route that is marked with `F_LDPD_INSERTED`. -/
def KrouteNode.labels (kn : KrouteNode) : Option (UInt32 × UInt32) :=
  if kn.flags.ldpdInserted then some (kn.localLabel, kn.remoteLabel) else none

/-- A route and its labels. -/
def KrouteNode.view (kn : KrouteNode) : Hop × Option (UInt32 × UInt32) :=
  (kn.toKroute.hop, kn.labels)

/-- The tree has a route with these labels. -/
def Kr.Carries (kr : Kr) (hop : Hop) (labels : Option (UInt32 × UInt32)) : Prop :=
  ∃ net, (hop, labels) ∈ (kr.nodes net).map KrouteNode.view

/-- The route that the hop of an announcement is. -/
def Announced.hop (entry : Announced) : Hop :=
  ⟨entry.net.fec, entry.nexthop, entry.priority⟩

theorem Announced.hop_injective : Function.Injective Announced.hop := by
  intro first second same
  obtain ⟨net, nexthop, priority⟩ := first
  obtain ⟨net', nexthop', priority'⟩ := second
  have fec : net.fec = net'.fec := congrArg Hop.fec same
  cases KroutePrefix.fec_injective fec
  cases same
  rfl

theorem Kroute.hop_eq (kr : Kroute) : kr.hop = kr.announced.hop := rfl

/-- Two routes with one hop have one prefix, nexthop and priority. -/
theorem Kroute.hop_eq_iff {kr other : Kroute} :
    kr.hop = other.hop ↔
      kr.net = other.net ∧ kr.nexthop = other.nexthop ∧ kr.priority = other.priority := by
  rw [Kroute.hop_eq, Kroute.hop_eq, Announced.hop_injective.eq_iff, Kroute.announced,
    Kroute.announced, Announced.mk.injEq]

section Views

variable {kr kr' : Kr} {net : KroutePrefix} {kn : KrouteNode} {front back : List KrouteNode}
  {hop : Hop} {labels : Option (UInt32 × UInt32)}

theorem view_settle (list : List KrouteNode) (kn : KrouteNode) :
    (kn.settle list).view = kn.view := rfl

theorem map_view_settle (list nodes : List KrouteNode) :
    (list.map (KrouteNode.settle nodes)).map KrouteNode.view = list.map KrouteNode.view := by
  rw [List.map_map]
  exact List.map_congr_left fun kn _ => view_settle nodes kn

/-- What the nodes of a prefix carry after `kr_redistribute`. -/
theorem view_redistribute {kprios : List KroutePriority} (proper : Proper net kprios)
    (other : KroutePrefix) :
    ((kr.redistribute net kprios).nodes other).map KrouteNode.view =
      if net = other then (nodes kprios).map KrouteNode.view
      else (kr.nodes other).map KrouteNode.view := by
  rw [Kr.nodes, Kr.getD_redistribute]
  split
  · rw [nodes_krRedistribute proper, map_view_settle]
  · rfl

/-- A route of the tree is a node of its prefix. -/
theorem carries_iff (proper : ∀ net, Proper net (kr.krt.getD net [])) {route : Kroute} :
    kr.Carries route.hop labels ↔ ∃ kn ∈ kr.nodes route.net,
      kn.priority = route.priority ∧ kn.nexthop = route.nexthop ∧ kn.labels = labels := by
  constructor
  · rintro ⟨net, member⟩
    obtain ⟨kn, among, same⟩ := List.mem_map.mp member
    obtain ⟨here, nexthop, priority⟩ := Kroute.hop_eq_iff.mp (congrArg Prod.fst same)
    have placed := (proper net).net_of_mem among
    refine ⟨kn, ?_, priority, nexthop, congrArg Prod.snd same⟩
    rw [← here, placed]
    exact among
  · rintro ⟨kn, among, priority, nexthop, same⟩
    refine ⟨route.net, List.mem_map.mpr ⟨kn, among, Prod.ext ?_ same⟩⟩
    exact Kroute.hop_eq_iff.mpr ⟨(proper route.net).net_of_mem among, nexthop, priority⟩

/-- A lookup finds the labels that a route carries. -/
theorem carries_iff_find (proper : ∀ net, Proper net (kr.krt.getD net [])) {route : Kroute}
    (known : route.priority ≠ rtpAny) :
    kr.Carries route.hop labels ↔ (krouteFind kr route).map KrouteNode.labels = some labels := by
  rw [carries_iff proper, krouteFind_eq, Option.map_eq_some_iff]
  refine exists_congr fun kn => ?_
  rw [(proper route.net).findNode_eq_some known]
  show kn ∈ nodes _ ∧ _ ↔ _
  tauto

/-- One node of a prefix is put in the place of another with the same hop. -/
theorem carries_replace (proper : ∀ net, Proper net (kr.krt.getD net []))
    (before : kr.nodes net = front ++ kn :: back) {new : KrouteNode}
    (same : new.toKroute.hop = kn.toKroute.hop)
    (views : ∀ other, (kr'.nodes other).map KrouteNode.view =
      if net = other then (front ++ new :: back).map KrouteNode.view
      else (kr.nodes other).map KrouteNode.view) :
    kr'.Carries hop labels ↔
      if hop = kn.toKroute.hop then labels = new.labels else kr.Carries hop labels := by
  have here : kn.net = net := (proper net).net_of_mem (by rw [Kr.nodes] at before; simp [before])
  have others {other : KrouteNode} (among : other ∈ front ++ back) :
      other.toKroute.hop ≠ kn.toKroute.hop := by
    intro equal
    obtain ⟨-, nexthop, priority⟩ := Kroute.hop_eq_iff.mp equal
    exact (proper net).fresh before (List.mem_map.mpr ⟨other, among, Prod.ext priority nexthop⟩)
  split_ifs with hit
  · subst hit
    constructor
    · rintro ⟨other, member⟩
      rw [views] at member
      split_ifs at member with equal
      · obtain ⟨item, among, view⟩ := List.mem_map.mp member
        rcases List.mem_cons.mp (List.perm_middle.mem_iff.mp among) with rfl | among
        · exact (congrArg Prod.snd view).symm
        · exact absurd (congrArg Prod.fst view) (others among)
      · obtain ⟨item, among, view⟩ := List.mem_map.mp member
        refine absurd ?_ equal
        rw [← here, ← (Kroute.hop_eq_iff.mp (congrArg Prod.fst view)).1]
        exact (proper other).net_of_mem among
    · rintro rfl
      refine ⟨net, ?_⟩
      rw [views, if_pos rfl]
      exact List.mem_map.mpr ⟨new, by simp, Prod.ext same rfl⟩
  · have passed (item : KrouteNode) (view : item.view = (hop, labels)) :
        item ∈ front ++ new :: back ↔ item ∈ front ++ kn :: back := by
      have notKn : item ≠ kn := fun equal => hit (equal ▸ (congrArg Prod.fst view).symm)
      have notNew : item ≠ new := fun equal =>
        hit ((congrArg Prod.fst view).symm.trans (equal ▸ same))
      simp [notKn, notNew]
    refine exists_congr fun other => ?_
    rw [views]
    split_ifs with equal
    · rw [← equal, before, List.mem_map, List.mem_map]
      exact exists_congr fun item => ⟨fun both => ⟨(passed item both.2).mp both.1, both.2⟩,
        fun both => ⟨(passed item both.2).mpr both.1, both.2⟩⟩
    · rfl

end Views

/-! ### Messages of the label decision engine -/

section Labels

variable {kr : Kr} {route : Kroute} {hop : Hop} {labels : Option (UInt32 × UInt32)}

/-- Changing the node that a lookup finds. -/
theorem carries_changeNode (proper : ∀ net, Proper net (kr.krt.getD net [])) {kr' : Kr}
    {kn : KrouteNode} (found : krouteFind kr route = some kn) (change : KrouteNode → KrouteNode)
    (same : (change kn).toKroute.hop = kn.toKroute.hop)
    (tree : kr'.krt = (kr.changeNode route change).krt) :
    kr'.Carries hop labels ↔
      if hop = kn.toKroute.hop then labels = (change kn).labels else kr.Carries hop labels := by
  rw [krouteFind_eq] at found
  obtain ⟨front, back, before, after, -⟩ := nodes_of_findNode found
  refine carries_replace proper before same fun other => ?_
  rw [Kr.nodes, tree, Kr.getD_changeNode]
  split_ifs with equal
  · rw [← equal, after]
  · rfl

theorem hop_of_find (proper : ∀ net, Proper net (kr.krt.getD net []))
    (known : route.priority ≠ rtpAny) {kn : KrouteNode} (found : krouteFind kr route = some kn) :
    kn.toKroute.hop = route.hop := by
  rw [krouteFind_eq, (proper route.net).findNode_eq_some known] at found
  obtain ⟨member, priority, nexthop⟩ := found
  exact Kroute.hop_eq_iff.mpr ⟨(proper route.net).net_of_mem member, nexthop, priority⟩

/-- `kr_change` gives a route the labels of the request. -/
theorem carries_krChange (proper : ∀ net, Proper net (kr.krt.getD net []))
    (known : route.priority ≠ rtpAny) :
    (krChange kr route).1.Carries hop labels ↔
      if hop = route.hop then labels = some (route.localLabel, route.remoteLabel) ∧
        ∃ before, kr.Carries hop before
      else kr.Carries hop labels := by
  rw [krChange]
  cases found : krouteFind kr route with
  | none =>
    split_ifs with hit
    · have absent (before : Option (UInt32 × UInt32)) : ¬kr.Carries hop before := by
        rw [hit, carries_iff_find proper known, found]
        exact (Option.some_ne_none before).symm
      exact iff_of_false (absent labels) fun both => both.2.elim absent
    · rfl
  | some kn =>
    have here := hop_of_find proper known found
    refine (carries_changeNode proper found (KrouteNode.relabel route) rfl rfl).trans ?_
    rw [here]
    split_ifs with hit
    · have there : ∃ before, kr.Carries hop before := by
        refine ⟨kn.labels, ?_⟩
        rw [hit, carries_iff_find proper known, found, Option.map_some]
      exact (and_iff_left there).symm
    · rfl

/-- `kr_delete` takes the labels of a route away. -/
theorem carries_krDelete (proper : ∀ net, Proper net (kr.krt.getD net []))
    (known : route.priority ≠ rtpAny) :
    (krDelete kr route).Carries hop labels ↔
      if hop = route.hop then labels = none ∧ ∃ before, kr.Carries hop before
      else kr.Carries hop labels := by
  rw [krDelete]
  cases found : krouteFind kr route with
  | none =>
    split_ifs with hit
    · have absent (before : Option (UInt32 × UInt32)) : ¬kr.Carries hop before := by
        rw [hit, carries_iff_find proper known, found]
        exact (Option.some_ne_none before).symm
      exact iff_of_false (absent labels) fun both => both.2.elim absent
    · rfl
  | some kn =>
    have here := hop_of_find proper known found
    have carried (hit : hop = route.hop) (other : Option (UInt32 × UInt32)) :
        kr.Carries hop other ↔ other = kn.labels := by
      rw [hit, carries_iff_find proper known, found, Option.map_some, Option.some_inj]
      exact eq_comm
    dsimp only
    by_cases marked : kn.flags.ldpdInserted = true
    · rw [if_pos marked]
      refine (carries_changeNode proper found KrouteNode.unlabel rfl rfl).trans ?_
      rw [here]
      split_ifs with hit
      · exact (and_iff_left ⟨kn.labels, (carried hit kn.labels).mpr rfl⟩).symm
      · rfl
    · rw [if_neg marked]
      split_ifs with hit
      · have unlabelled : kn.labels = none := if_neg marked
        rw [carried hit, unlabelled]
        exact (and_iff_left ⟨kn.labels, (carried hit kn.labels).mpr rfl⟩).symm
      · rfl

end Labels

/-! ### What does not depend on labels -/

section Twins

variable {kr kr' : Kr} {route : Kroute} {kn : KrouteNode}

/-- What the redistribution reads of a route. -/
def KrouteNode.twin (kn : KrouteNode) : Announced × Bool × Bool :=
  (kn.announced, kn.redistributable, kn.flags.redistributed)

theorem lowest_of_twins {list list' : List KrouteNode}
    (twins : list'.map KrouteNode.twin = list.map KrouteNode.twin) {kn' : KrouteNode}
    (same : kn'.twin = kn.twin) : Lowest list' kn' ↔ Lowest list kn := by
  have priorities : list'.map (fun kn => kn.priority) = list.map fun kn => kn.priority := by
    have mapped := congrArg (List.map fun twin => twin.1.priority) twins
    rw [List.map_map, List.map_map] at mapped
    exact mapped
  have priority : kn'.priority = kn.priority := congrArg (fun twin => twin.1.priority) same
  rw [Lowest, Lowest, priority]
  constructor
  · intro lowest
    have lowest' := List.forall_mem_map (f := fun kn : KrouteNode => kn.priority)
      (P := fun other => kn.priority ≤ other) |>.mpr lowest
    rw [priorities] at lowest'
    exact List.forall_mem_map.mp lowest'
  · intro lowest
    have lowest' := List.forall_mem_map (f := fun kn : KrouteNode => kn.priority)
      (P := fun other => kn.priority ≤ other) |>.mpr lowest
    rw [← priorities] at lowest'
    exact List.forall_mem_map.mp lowest'

/-- The labels do not matter for what is announced. -/
theorem Kr.Good.of_twins (good : kr.Good) (proper : ∀ net, Proper net (kr'.krt.getD net []))
    (twins : ∀ net, (kr'.nodes net).map KrouteNode.twin = (kr.nodes net).map KrouteNode.twin)
    (sent : kr'.toLde = kr.toLde) : kr'.Good := by
  have twin {net : KroutePrefix} {kn' : KrouteNode} (member : kn' ∈ kr'.nodes net) :
      ∃ kn ∈ kr.nodes net, kn.twin = kn'.twin := by
    have among := List.mem_map_of_mem (f := KrouteNode.twin) member
    rw [twins] at among
    exact List.mem_map.mp among
  have twin' {net : KroutePrefix} {kn : KrouteNode} (member : kn ∈ kr.nodes net) :
      ∃ kn' ∈ kr'.nodes net, kn'.twin = kn.twin := by
    have among := List.mem_map_of_mem (f := KrouteNode.twin) member
    rw [← twins] at among
    exact List.mem_map.mp among
  have told : kr'.told = kr.told := by rw [Kr.told, Kr.told, sent]
  refine ⟨proper, fun net kn' member => ?_, ?_, sent ▸ good.one⟩
  · obtain ⟨kn, among, same⟩ := twin member
    have lowest := lowest_of_twins (twins net) same.symm
    have marked := good.marked net kn among
    have redistributable : kn.redistributable = kn'.redistributable := congrArg (·.2.1) same
    have redistributed : kn.flags.redistributed = kn'.flags.redistributed := congrArg (·.2.2) same
    rw [← redistributed, marked, redistributable, decide_eq_decide.mpr lowest]
  · rw [told, good.told]
    ext entry
    constructor
    · rintro ⟨kn, member, lowest, passed, announced⟩
      obtain ⟨kn', among, same⟩ := twin' member
      exact ⟨kn', among, (lowest_of_twins (twins _) same).mpr lowest,
        (congrArg (·.2.1) same).trans passed, (congrArg Prod.fst same).trans announced⟩
    · rintro ⟨kn', member, lowest, passed, announced⟩
      obtain ⟨kn, among, same⟩ := twin member
      exact ⟨kn, among, (lowest_of_twins (twins _) same.symm).mp lowest,
        (congrArg (·.2.1) same).trans passed, (congrArg Prod.fst same).trans announced⟩

/-- A node changes its labels. -/
theorem Kr.Good.changeNode (good : kr.Good) (found : krouteFind kr route = some kn)
    (change : KrouteNode → KrouteNode) (same : (change kn).twin = kn.twin)
    (tree : kr'.krt = (kr.changeNode route change).krt) (sent : kr'.toLde = kr.toLde) : kr'.Good := by
  have announced : (change kn).announced = kn.announced := congrArg Prod.fst same
  rw [krouteFind_eq] at found
  obtain ⟨front, back, before, after, -⟩ := nodes_of_findNode found
  refine good.of_twins (fun net => ?_) (fun net => ?_) sent
  · rw [tree, Kr.getD_changeNode]
    split_ifs with here
    · exact here ▸ (good.proper route.net).replaceNode found (congrArg Announced.nexthop announced)
        ⟨congrArg Announced.net announced, congrArg Announced.priority announced⟩
    · exact good.proper net
  · rw [Kr.nodes, tree, Kr.getD_changeNode]
    split_ifs with here
    · rw [← here, after, Kr.nodes, before, List.map_append, List.map_append, List.map_cons,
        List.map_cons, same]
    · rfl

theorem Kr.Good.krChange (good : kr.Good) (route : Kroute) : (krChange kr route).1.Good := by
  rw [Ldpd.krChange]
  split
  · exact good
  · rename_i kn found
    exact good.changeNode found (KrouteNode.relabel route) rfl rfl rfl

theorem Kr.Good.krDelete (good : kr.Good) (route : Kroute) : (krDelete kr route).Good := by
  rw [Ldpd.krDelete]
  split
  · exact good
  · rename_i kn found
    split
    · exact good.changeNode found KrouteNode.unlabel rfl rfl rfl
    · exact good

end Twins

/-! ### Routing messages -/

/-- The route that a message is about. -/
def NetworkImsg.hop : NetworkImsg → Hop
  | .add kn | .del kn => kn.toKroute.hop

/-- Whether the label decision engine has a route after a message. -/
def listed (hop : Hop) (before : Bool) (imsg : NetworkImsg) : Bool :=
  if imsg.hop = hop then
    match imsg with
    | .add _ => true
    | .del _ => false
  else before

/-- The label decision engine has been told of a route. -/
def Kr.announces (kr : Kr) (hop : Hop) : Bool :=
  kr.toLde.foldl (listed hop) false

theorem foldl_listed (entry : Announced) (imsgs : List NetworkImsg) (before : Bool)
    (told : Set Announced) (same : before = true ↔ entry ∈ told) :
    imsgs.foldl (listed entry.hop) before = true ↔ entry ∈ imsgs.foldl NetworkImsg.apply told := by
  induction imsgs generalizing before told with
  | nil => exact same
  | cons imsg rest inductionHypothesis =>
    refine inductionHypothesis _ _ ?_
    have hops (kn : KrouteNode) : kn.toKroute.hop = entry.hop ↔ entry = kn.announced := by
      rw [Kroute.hop_eq, Announced.hop_injective.eq_iff, eq_comm]
    cases imsg with
    | add kn =>
      rw [listed, NetworkImsg.apply, Set.mem_insert_iff, ← hops]
      split_ifs with hit
      · exact iff_of_true rfl (.inl hit)
      · rw [same]
        exact (or_iff_right hit).symm
    | del kn =>
      rw [listed, NetworkImsg.apply, Set.mem_sdiff, Set.mem_singleton_iff, ← hops]
      split_ifs with hit
      · exact iff_of_false id fun both => both.2 hit
      · rw [same]
        exact (and_iff_left hit).symm

theorem announces_iff (kr : Kr) (entry : Announced) :
    kr.announces entry.hop = true ↔ entry ∈ kr.told :=
  foldl_listed entry kr.toLde false ∅ (iff_of_false Bool.false_ne_true (Set.notMem_empty entry))

/-- Routes go, come without labels or keep their labels. Those that come are known and were not
announced. -/
structure Evolves (known : Hop → Prop) (kr kr' : Kr) : Prop where
  toLde : ∃ imsgs, kr'.toLde = kr.toLde ++ imsgs ∧
    ∀ imsg ∈ imsgs, (∃ labels, kr.Carries imsg.hop labels) ∨ known imsg.hop
  carries : ∀ hop labels, kr'.Carries hop labels → kr.Carries hop labels ∨
    labels = none ∧ kr.announces hop = false ∧ known hop

section Routes

variable {known : Hop → Prop} {kr : Kr} {route : Kroute}

theorem Evolves.refl (kr : Kr) : Evolves known kr kr :=
  ⟨⟨[], (List.append_nil _).symm, fun _ member => absurd member List.not_mem_nil⟩, fun _ _ => .inl⟩

/-- `kr_redistribute` sends messages about the nodes of its prefix. -/
theorem hop_of_sent {kprios : List KroutePriority} {imsg : NetworkImsg}
    (sent : imsg ∈ (krRedistribute kprios).2) : ∃ kn ∈ nodes kprios, imsg.hop = kn.toKroute.hop := by
  have removes {kn : KrouteNode} (sent : imsg ∈ (krRedistRemove kn).2) :
      imsg.hop = kn.toKroute.hop := by
    rw [krRedistRemove] at sent
    split at sent
    · rw [List.mem_singleton.mp sent]
      rfl
    · cases sent
  have evals {kn : KrouteNode} (sent : imsg ∈ (krRedistEval kn).2) :
      imsg.hop = kn.toKroute.hop := by
    rw [krRedistEval] at sent
    split at sent
    · cases sent
    split at sent
    · rw [List.mem_singleton.mp sent]
      rfl
    · cases sent
  cases kprios with
  | nil => cases sent
  | cons first rest =>
    rcases List.mem_append.mp sent with sent | sent
    · obtain ⟨kprio, below, sent⟩ := List.mem_flatMap.mp sent
      obtain ⟨kn, among, sent⟩ := List.mem_flatMap.mp sent
      refine ⟨kn, mem_nodes.mpr ⟨kprio, ?_, among⟩, removes sent⟩
      exact List.mem_cons_of_mem _ (List.mem_reverse.mp below)
    · obtain ⟨kn, among, sent⟩ := List.mem_flatMap.mp sent
      exact ⟨kn, mem_nodes.mpr ⟨first, List.mem_cons_self, among⟩, evals sent⟩

theorem carries_of_mem {net : KroutePrefix} {kn : KrouteNode} (member : kn ∈ kr.nodes net) :
    kr.Carries kn.toKroute.hop kn.labels :=
  ⟨net, List.mem_map_of_mem member⟩

/-- `kroute_remove`. -/
theorem evolves_krouteRemove (proper : ∀ net, Proper net (kr.krt.getD net [])) (route : Kroute) :
    Evolves known kr (krouteRemove kr route) := by
  cases found : krouteFind kr route with
  | none =>
    rw [krouteRemove, found]
    exact .refl kr
  | some kn =>
    have spot := found
    rw [krouteFind_eq] at spot
    obtain ⟨front, back, before, -, after⟩ := nodes_of_findNode spot
    have before' : kr.nodes route.net = front ++ kn :: back := before
    have old {item : KrouteNode} (among : item ∈ front ++ back) : item ∈ kr.nodes route.net := by
      rw [before']
      exact List.perm_middle.mem_iff.mpr (List.mem_cons_of_mem _ among)
    have member : kn ∈ kr.nodes route.net := before' ▸ List.mem_append_right _ List.mem_cons_self
    have there : kr.Carries kn.toKroute.hop kn.labels := carries_of_mem member
    refine ⟨?_, fun hop labels carried => .inl ?_⟩
    · have gone : ∀ imsg ∈ (krRedistRemove kn).2, ∃ labels, kr.Carries imsg.hop labels := by
        intro imsg sent
        rw [krRedistRemove] at sent
        split at sent
        · rw [List.mem_singleton.mp sent]
          exact ⟨kn.labels, there⟩
        · cases sent
      rw [krouteRemove, found]
      dsimp only
      split
      · exact ⟨_, rfl, fun imsg sent => .inl (gone imsg sent)⟩
      · rename_i kprios _
        refine ⟨_, List.append_assoc .., fun imsg sent => .inl ?_⟩
        rcases List.mem_append.mp sent with sent | sent
        · exact gone imsg sent
        · obtain ⟨item, among, same⟩ := hop_of_sent sent
          have among' : item ∈ nodes (eraseNode (kr.krt.getD route.net []) route) := among
          rw [after] at among'
          exact ⟨item.labels, same ▸ carries_of_mem (old among')⟩
    · obtain ⟨net, member⟩ := carried
      rw [Kr.nodes, getD_krouteRemove found] at member
      refine ⟨net, ?_⟩
      split_ifs at member with here
      · rw [nodes_krRedistribute ((proper route.net).eraseNode spot), map_view_settle, after] at member
        obtain ⟨item, among, view⟩ := List.mem_map.mp member
        exact List.mem_map.mpr ⟨item, here ▸ old among, view⟩
      · exact member

/-- `kroute_insert` of a route that is not there. -/
theorem evolves_krouteInsert (good : kr.Good) {kn : KrouteNode} (real : kn.priority ≠ rtpAny)
    (unlabelled : kn.flags.ldpdInserted = false) (absent : krouteFind kr kn.toKroute = none)
    (new : known kn.toKroute.hop) : Evolves known kr (krouteInsert kr kn) := by
  rw [krouteFind_eq] at absent
  obtain ⟨proper, perm⟩ := (good.proper kn.net).insertNode real rfl absent
  refine ⟨⟨_, rfl, fun imsg sent => ?_⟩, fun hop labels carried => ?_⟩
  · obtain ⟨item, among, same⟩ := hop_of_sent sent
    rw [same]
    rcases List.mem_cons.mp (perm.mem_iff.mp among) with rfl | among
    · exact .inr new
    · exact .inl ⟨item.labels, carries_of_mem (show item ∈ kr.nodes kn.net from among)⟩
  obtain ⟨net, member⟩ := carried
  rw [krouteInsert, view_redistribute proper] at member
  split_ifs at member with here
  · obtain ⟨item, among, view⟩ := List.mem_map.mp member
    rcases List.mem_cons.mp (perm.mem_iff.mp among) with rfl | among
    · have hops : item.announced.hop = hop := congrArg Prod.fst view
      refine .inr ⟨(congrArg Prod.snd view).symm.trans (if_neg (Bool.not_eq_true _ ▸ unlabelled)), ?_,
        hops ▸ new⟩
      rw [← hops, Bool.eq_false_iff, ne_eq, announces_iff, good.told]
      rintro ⟨other, there, -, -, same⟩
      have found := ((good.proper item.net).findNode_eq_some real).mpr
        ⟨there, congrArg Announced.priority same, congrArg Announced.nexthop same⟩
      cases absent.symm.trans found
    · exact .inl ⟨net, List.mem_map.mpr ⟨item, here ▸ among, view⟩⟩
  · exact .inl ⟨net, member⟩

/-- A route without labels is overwritten. -/
theorem evolves_overwrite (good : kr.Good) (real : route.priority ≠ rtpAny) {kn : KrouteNode}
    (found : krouteFind kr route = some kn) (unlabelled : kn.flags.ldpdInserted = false)
    {new : KrouteNode} (same : new.toKroute.hop = route.hop)
    (unlabelled' : new.flags.ldpdInserted = false) :
    Evolves known kr (kr.redistribute route.net
      (replaceNode (kr.krt.getD route.net []) route fun _ => new)) := by
  have here := hop_of_find good.proper real found
  have none {item : KrouteNode} (unmarked : item.flags.ldpdInserted = false) : item.labels = none :=
    if_neg (Bool.not_eq_true _ ▸ unmarked)
  have spot := found
  rw [krouteFind_eq] at spot
  obtain ⟨front, back, before, after, -⟩ := nodes_of_findNode spot
  have before' : kr.nodes route.net = front ++ kn :: back := before
  obtain ⟨net, nexthop, priority⟩ := Kroute.hop_eq_iff.mp (same.trans here.symm)
  have proper : Proper route.net (replaceNode (kr.krt.getD route.net []) route fun _ => new) :=
    (good.proper route.net).replaceNode spot nexthop ⟨net, priority⟩
  refine ⟨⟨_, rfl, fun imsg sent => .inl ?_⟩, fun hop labels carried => .inl ?_⟩
  · obtain ⟨item, among, hops⟩ := hop_of_sent sent
    rw [after] at among
    rw [hops]
    rcases List.mem_cons.mp (List.perm_middle.mem_iff.mp among) with rfl | among
    · have member : kn ∈ kr.nodes route.net := before' ▸ List.mem_append_right _ List.mem_cons_self
      rw [same, ← here]
      exact ⟨kn.labels, carries_of_mem member⟩
    · have member : item ∈ kr.nodes route.net := by
        rw [before']
        exact List.perm_middle.mem_iff.mpr (List.mem_cons_of_mem _ among)
      exact ⟨item.labels, carries_of_mem member⟩
  rw [carries_replace good.proper before (same.trans here.symm) fun other => ?_] at carried
  · split_ifs at carried with hit
    · rw [carried, none unlabelled', hit, here, carries_iff_find good.proper real, found,
        Option.map_some, none unlabelled]
    · exact carried
  · rw [view_redistribute proper]
    split_ifs with equal
    · rw [after]
    · rfl

/-- A routing message overwrites no route that carries labels. -/
def Spares (kr : Kr) (rtm : RtMsghdr) : Prop :=
  ∀ kn, Overwrites kr rtm kn → kn.flags.ldpdInserted = false

/-- A routing message takes a route away, and then brings or overwrites one. -/
theorem evolves_rtmsgProcessRoute (good : kr.Good) {rtm : RtMsghdr} (keeps : KeepsMarks kr rtm)
    (spares : Spares kr rtm) (new : known rtm.kroute.hop) :
    ∃ mid, Evolves known kr mid ∧ Evolves known mid (rtmsgProcessRoute kr rtm).1 := by
  have first : Evolves known kr
      (if rtm.type = .change then removeFirst kr rtm.kroute.toKroute else kr) ∧
        (if rtm.type = .change then removeFirst kr rtm.kroute.toKroute else kr).Good := by
    split
    · rw [removeFirst]
      split
      · exact ⟨.refl kr, good⟩
      · exact ⟨evolves_krouteRemove good.proper _, good.krouteRemove _⟩
    · exact ⟨.refl kr, good⟩
  have spared (updates : rtm.type ≠ .delete)
      (usable : ldpAddrisset rtm.nexthop = true ∨ rtm.kroute.flags.connected = true) {kn : KrouteNode}
      (found : krouteFind (if rtm.type = .change then removeFirst kr rtm.kroute.toKroute else kr)
        rtm.kroute.toKroute = some kn) : kn.flags.ldpdInserted = false := by
    obtain ⟨before, overwrites, ⟨redistributed, same⟩, -⟩ :=
      overwrites_of_find good.proper keeps.priority updates usable found
    rw [same]
    exact spares before overwrites
  refine ⟨_, first.1, ?_⟩
  obtain ⟨-, good'⟩ := first
  rw [rtmsgProcessRoute]
  generalize (if rtm.type = .change then removeFirst kr rtm.kroute.toKroute else kr) = mid
    at good' spared ⊢
  split
  · split
    · exact .refl mid
    · exact evolves_krouteRemove good'.proper _
  rename_i updates
  split
  · exact .refl mid
  rename_i usable
  rw [Bool.and_eq_true, not_and_or, Bool.not_eq_true', Bool.not_eq_true', Bool.not_eq_false,
    Bool.not_eq_false] at usable
  split
  · rename_i found
    exact evolves_overwrite good' keeps.priority found (spared updates usable found) rfl rfl
  · rename_i absent
    exact evolves_krouteInsert good' keeps.priority rfl absent new

end Routes

end Ldpd
