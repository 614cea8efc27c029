/-
This file compares what the parent process has told the label decision engine with
the routes it holds: those of the lowest priority of every prefix that may be
redistributed. The flag `F_REDISTRIBUTED` is the memory of what was announced. A
routing message for a route that is there already overwrites it: when the route may
no longer be redistributed, its announcement is never taken back.
-/

import Ldpd.Main.Nodes
import Ldpd.Library.Run

namespace Ldpd

/-! ### What was announced -/

/-- What identifies a route in the label decision engine. -/
structure Announced where
  net : KroutePrefix
  nexthop : LdpdAddr
  priority : UInt8
  deriving DecidableEq, Repr

/-- What a message about a route identifies. -/
def Kroute.announced (kr : Kroute) : Announced :=
  ⟨kr.net, kr.nexthop, kr.priority⟩

/-- A message to the label decision engine. Adding a route again changes nothing. -/
def NetworkImsg.apply (told : Set Announced) : NetworkImsg → Set Announced
  | .add kr => insert kr.announced told
  | .del kr => told \ {kr.announced}

/-- What the label decision engine has been told. -/
def Kr.told (kr : Kr) : Set Announced :=
  kr.toLde.foldl NetworkImsg.apply ∅

/-- The routes of the lowest priority of their prefix that may be redistributed. -/
def Kr.eligible (kr : Kr) : Set Announced :=
  {entry | ∃ kn ∈ kr.nodes entry.net, Lowest (kr.nodes entry.net) kn ∧ kn.redistributable = true ∧
    kn.announced = entry}

/-- No prefix is there with two priorities. -/
def OnePriority (told : Set Announced) : Prop :=
  ∀ first ∈ told, ∀ second ∈ told, first.net = second.net → first.priority = second.priority

/-! ### What a message overwrites -/

/-- The priority of a message is that of a route, and a node of the lowest priority that may be
redistributed is not overwritten by one that may not. -/
structure KeepsMarks (kr : Kr) (rtm : RtMsghdr) : Prop where
  priority : rtm.priority ≠ rtpAny
  marks : ∀ kn, Overwrites kr rtm kn → Lowest (kr.nodes kn.net) kn → kn.redistributable = true →
    rtm.kroute.redistributable = true

/-! ### Sets of announcements -/

section Told

variable {told bound : Set Announced} {msgs : List NetworkImsg} {list : List KrouteNode}

theorem OnePriority.mono (one : OnePriority bound) (subset : told ⊆ bound) : OnePriority told :=
  fun first member second member' => one first (subset member) second (subset member')

/-- While announcements stay within a set with one priority for each prefix, so does what was told. -/
theorem allowed_of_bound (one : OnePriority bound)
    (within : ∀ kr, NetworkImsg.add kr ∈ msgs → kr.announced ∈ bound) (start : told ⊆ bound) :
    Run.Allowed NetworkImsg.apply (fun told imsg => OnePriority (imsg.apply told)) told msgs := by
  induction msgs generalizing told with
  | nil => trivial
  | cons imsg rest inductionHypothesis =>
    have next : imsg.apply told ⊆ bound := by
      cases imsg with
      | add kr => exact Set.insert_subset (within kr List.mem_cons_self) start
      | del kr => exact Set.sdiff_subset.trans start
    exact ⟨one.mono next,
      inductionHypothesis (fun kr member => within kr (List.mem_cons_of_mem _ member)) next⟩

theorem onePriority_of_allowed (one : OnePriority told)
    (allowed : Run.Allowed NetworkImsg.apply (fun told imsg => OnePriority (imsg.apply told)) told msgs) :
    OnePriority (msgs.foldl NetworkImsg.apply told) :=
  Run.foldl_of_allowed OnePriority (fun _ _ _ legal => legal) one allowed

/-- What is announced of the nodes of a list that pass a test. -/
def announced (test : KrouteNode → Bool) (list : List KrouteNode) : Set Announced :=
  {entry | ∃ kn ∈ list, test kn = true ∧ kn.announced = entry}

theorem announced_nil (test : KrouteNode → Bool) : announced test [] = ∅ := by
  refine Set.eq_empty_of_forall_notMem fun entry among => ?_
  obtain ⟨kn, member, -⟩ := among
  cases member

theorem announced_cons (test : KrouteNode → Bool) (kn : KrouteNode) (rest : List KrouteNode) :
    announced test (kn :: rest) = (if test kn then {kn.announced} else ∅) ∪ announced test rest := by
  ext entry
  show (∃ other ∈ kn :: rest, _) ↔ _
  rw [List.exists_mem_cons_iff, Set.mem_union]
  refine or_congr ?_ Iff.rfl
  split
  · rename_i passed
    exact (and_iff_right passed).trans (eq_comm.trans Set.mem_singleton_iff.symm)
  · rename_i failed
    exact iff_of_false (fun both => failed both.1) (Set.notMem_empty entry)

/-- The marked nodes are taken back. -/
theorem foldl_krRedistRemove (list : List KrouteNode) (told : Set Announced) :
    (list.flatMap fun kn => (krRedistRemove kn).2).foldl NetworkImsg.apply told =
      told \ announced (fun kn => kn.flags.redistributed) list := by
  induction list generalizing told with
  | nil =>
    rw [announced_nil, Set.sdiff_empty]
    rfl
  | cons kn rest inductionHypothesis =>
    rw [List.flatMap_cons, List.foldl_append, inductionHypothesis, announced_cons, ← Set.sdiff_sdiff,
      krRedistRemove]
    congr 1
    split
    · rfl
    · exact Set.sdiff_empty.symm

/-- The nodes that are not marked and may be redistributed are announced. -/
theorem foldl_krRedistEval (list : List KrouteNode) (told : Set Announced) :
    (list.flatMap fun kn => (krRedistEval kn).2).foldl NetworkImsg.apply told =
      told ∪ announced (fun kn => !kn.flags.redistributed && kn.redistributable) list := by
  induction list generalizing told with
  | nil =>
    rw [announced_nil, Set.union_empty]
    rfl
  | cons kn rest inductionHypothesis =>
    rw [List.flatMap_cons, List.foldl_append, inductionHypothesis, announced_cons, ← Set.union_assoc,
      krRedistEval]
    congr 1
    cases kn.flags.redistributed with
    | true => exact (Set.union_empty told).symm
    | false =>
      cases kn.redistributable with
      | true => exact Set.insert_eq _ _ |>.trans (Set.union_comm _ _)
      | false => exact (Set.union_empty told).symm

theorem krRedistEval_add {kr kn : KrouteNode} (sent : NetworkImsg.add kr ∈ (krRedistEval kn).2) :
    kn.flags.redistributed = false ∧ kn.redistributable = true ∧ kn.announced = kr.announced := by
  rw [krRedistEval] at sent
  split at sent
  · cases sent
  · rename_i unmarked
    split at sent
    · rename_i passed
      cases List.mem_singleton.mp sent
      exact ⟨Bool.eq_false_iff.mpr unmarked, passed, rfl⟩
    · cases sent

/-- What `kr_redistribute` makes of what was told. -/
theorem foldl_krRedistribute {net : KroutePrefix} {kprios : List KroutePriority}
    (proper : Proper net kprios) (told : Set Announced) :
    (krRedistribute kprios).2.foldl NetworkImsg.apply told =
      told \ announced (fun kn => !Lowest (nodes kprios) kn && kn.flags.redistributed) (nodes kprios) ∪
        announced (fun kn => Lowest (nodes kprios) kn && (!kn.flags.redistributed && kn.redistributable))
          (nodes kprios) := by
  cases kprios with
  | nil =>
    rw [nodes, List.flatMap_nil, announced_nil, announced_nil, Set.sdiff_empty, Set.union_empty]
    rfl
  | cons first rest =>
    obtain ⟨lowest, others⟩ := proper.lowest_iff
    have removed : (rest.reverse.flatMap fun kprio => (kprio.forNexthops krRedistRemove).2) =
        (nodes rest.reverse).flatMap fun kn => (krRedistRemove kn).2 := by
      rw [nodes, List.flatMap_assoc]
      rfl
    have added : (first.forNexthops krRedistEval).2 = first.nexthops.flatMap fun kn =>
        (krRedistEval kn).2 := rfl
    rw [krRedistribute, removed, added, List.foldl_append, foldl_krRedistRemove, foldl_krRedistEval]
    congr 1
    · congr 1
      ext entry
      constructor
      · rintro ⟨kn, member, marked, rfl⟩
        obtain ⟨kprio, below, inKprio⟩ := mem_nodes.mp member
        have below' := List.mem_reverse.mp below
        refine ⟨kn, mem_nodes.mpr ⟨kprio, List.mem_cons_of_mem _ below', inKprio⟩, ?_, rfl⟩
        simp only [others kprio below' kn inKprio, decide_false, Bool.not_false, Bool.true_and]
        exact marked
      · rintro ⟨kn, member, test, rfl⟩
        rw [Bool.and_eq_true, Bool.not_eq_true', decide_eq_false_iff_not] at test
        obtain ⟨kprio, among, inKprio⟩ := mem_nodes.mp member
        obtain rfl | below := List.mem_cons.mp among
        · exact absurd (lowest kn inKprio) test.1
        · exact ⟨kn, mem_nodes.mpr ⟨kprio, List.mem_reverse.mpr below, inKprio⟩, test.2, rfl⟩
    · ext entry
      constructor
      · rintro ⟨kn, member, test, rfl⟩
        refine ⟨kn, mem_nodes.mpr ⟨first, List.mem_cons_self, member⟩, ?_, rfl⟩
        simp only [lowest kn member, decide_true, Bool.true_and]
        exact test
      · rintro ⟨kn, member, test, rfl⟩
        rw [Bool.and_eq_true, decide_eq_true_eq] at test
        obtain ⟨kprio, among, inKprio⟩ := mem_nodes.mp member
        obtain rfl | below := List.mem_cons.mp among
        · exact ⟨kn, inKprio, test.2, rfl⟩
        · exact absurd test.1 (others kprio below kn inKprio)

end Told

/-! ### One prefix -/

/-- The tree is in order, a node is marked if and only if it is announced, and no prefix was ever
announced with two priorities. -/
structure Kr.Good (kr : Kr) : Prop where
  proper : ∀ net, Proper net (kr.krt.getD net [])
  marked : ∀ net, ∀ kn ∈ kr.nodes net,
    kn.flags.redistributed = (Lowest (kr.nodes net) kn && kn.redistributable)
  told : kr.told = kr.eligible
  one : Run.Allowed NetworkImsg.apply (fun told imsg => OnePriority (imsg.apply told)) ∅ kr.toLde

section Prefix

variable {kr : Kr} {net : KroutePrefix} {kprios : List KroutePriority} {told : Set Announced}

theorem onePriority_empty : OnePriority ∅ := fun _ none => absurd none (Set.notMem_empty _)

/-- What is told of the nodes of a prefix is what they announce. -/
structure Announces (kprios : List KroutePriority) (net : KroutePrefix) (told : Set Announced) :
    Prop where
  proper : Proper net kprios
  eligible : ∀ kn ∈ nodes kprios, kn.flags.redistributed = true → Lowest (nodes kprios) kn →
    kn.redistributable = true
  known : announced (fun kn => kn.flags.redistributed) (nodes kprios) ⊆ told
  all : ∀ entry ∈ told, entry.net = net →
    entry ∈ announced (fun kn => kn.flags.redistributed) (nodes kprios) ∨
      entry ∈ announced (fun kn => Lowest (nodes kprios) kn && kn.redistributable) (nodes kprios)

theorem Announces.told_same (announces : Announces kprios net told) {entry : Announced}
    (here : entry.net = net) : entry ∈ (krRedistribute kprios).2.foldl NetworkImsg.apply told ↔
      entry ∈ announced (fun kn => Lowest (nodes kprios) kn && kn.redistributable) (nodes kprios) := by
  rw [foldl_krRedistribute announces.proper]
  constructor
  · rintro (⟨old, kept⟩ | ⟨kn, member, test, rfl⟩)
    · obtain ⟨kn, member, marked, rfl⟩ | now := announces.all entry old here
      · refine ⟨kn, member, ?_, rfl⟩
        by_cases lowest : Lowest (nodes kprios) kn
        · simp only [lowest, decide_true, Bool.true_and]
          exact announces.eligible kn member marked lowest
        · refine absurd ⟨kn, member, ?_, rfl⟩ kept
          simp only [lowest, decide_false, Bool.not_false, Bool.true_and]
          exact marked
      · exact now
    · simp only [Bool.and_eq_true] at test
      refine ⟨kn, member, ?_, rfl⟩
      simp only [Bool.and_eq_true]
      exact ⟨test.1, test.2.2⟩
  · rintro ⟨kn, member, test, rfl⟩
    simp only [Bool.and_eq_true, decide_eq_true_eq] at test
    cases marked : kn.flags.redistributed with
    | true =>
      refine .inl ⟨announces.known ⟨kn, member, marked, rfl⟩, fun removed => ?_⟩
      obtain ⟨other, -, test', same⟩ := removed
      simp only [Bool.and_eq_true, Bool.not_eq_true', decide_eq_false_iff_not] at test'
      have priority : other.priority = kn.priority := congrArg Announced.priority same
      refine test'.1 fun third member' => ?_
      rw [priority]
      exact test.1 third member'
    | false =>
      refine .inr ⟨kn, member, ?_, rfl⟩
      simp only [Bool.and_eq_true, decide_eq_true_eq, Bool.not_eq_true']
      exact ⟨test.1, marked, test.2⟩

theorem Announces.told_other (announces : Announces kprios net told) {entry : Announced}
    (there : entry.net ≠ net) :
    entry ∈ (krRedistribute kprios).2.foldl NetworkImsg.apply told ↔ entry ∈ told := by
  have apart (test : KrouteNode → Bool) : entry ∉ announced test (nodes kprios) := by
    rintro ⟨kn, member, -, rfl⟩
    exact there (announces.proper.net_of_mem member)
  rw [foldl_krRedistribute announces.proper, Set.mem_union, Set.mem_sdiff]
  exact ⟨fun among => among.elim And.left fun added => absurd added (apart _),
    fun member => .inl ⟨member, apart _⟩⟩

/-- In the end no prefix is announced with two priorities. -/
theorem Announces.onePriority_end (announces : Announces kprios net told) (one : OnePriority told) :
    OnePriority ((krRedistribute kprios).2.foldl NetworkImsg.apply told) := by
  intro first member second member' same
  by_cases here : first.net = net
  · obtain ⟨kn, among, test, rfl⟩ := (announces.told_same here).mp member
    obtain ⟨kn', among', test', rfl⟩ := (announces.told_same (same.symm.trans here)).mp member'
    simp only [Bool.and_eq_true, decide_eq_true_eq] at test test'
    exact UInt8.le_antisymm (test.1 kn' among') (test'.1 kn among)
  · have there : second.net ≠ net := same ▸ here
    exact one first ((announces.told_other here).mp member) second
      ((announces.told_other there).mp member') same

/-- No prefix is announced with two priorities while the messages go out. -/
theorem Announces.onePriority (announces : Announces kprios net told) (one : OnePriority told) :
    Run.Allowed NetworkImsg.apply (fun told imsg => OnePriority (imsg.apply told)) told
      (krRedistribute kprios).2 := by
  have final := announces.onePriority_end one
  cases kprios with
  | nil => trivial
  | cons first rest =>
    rw [krRedistribute, List.foldl_append] at final
    refine Run.allowed_append.mpr ⟨allowed_of_bound one (fun kr member => ?_) subset_rfl,
      allowed_of_bound final (fun kr member => ?_) ?_⟩
    · -- The first messages only take back.
      obtain ⟨kprio, -, among⟩ := List.mem_flatMap.mp member
      obtain ⟨kn, -, sent⟩ := List.mem_flatMap.mp among
      rw [krRedistRemove] at sent
      split at sent
      · cases List.mem_singleton.mp sent
      · cases sent
    · obtain ⟨kn, inFirst, sent⟩ := List.mem_flatMap.mp member
      rw [KroutePriority.forNexthops, foldl_krRedistEval]
      obtain ⟨unmarked, passed, same⟩ := krRedistEval_add sent
      refine .inr ⟨kn, inFirst, ?_, same⟩
      simp only [unmarked, passed, Bool.not_false, Bool.true_and]
    · rw [KroutePriority.forNexthops, foldl_krRedistEval]
      exact Set.subset_union_left

/-- The routes of one prefix are redistributed, and all others are as they were. -/
theorem good_redistribute (properOthers : ∀ other, other ≠ net → Proper other (kr.krt.getD other []))
    (markedOthers : ∀ other, other ≠ net → ∀ kn ∈ kr.nodes other,
      kn.flags.redistributed = (Lowest (kr.nodes other) kn && kn.redistributable))
    (toldOthers : ∀ entry : Announced, entry.net ≠ net → (entry ∈ kr.told ↔ entry ∈ kr.eligible))
    (one : Run.Allowed NetworkImsg.apply (fun told imsg => OnePriority (imsg.apply told)) ∅ kr.toLde)
    (announces : Announces kprios net kr.told) : (kr.redistribute net kprios).Good := by
  have tree (other : KroutePrefix) : (kr.redistribute net kprios).krt.getD other [] =
      if net = other then (krRedistribute kprios).1 else kr.krt.getD other [] :=
    Tree.getD_insert ..
  have here : (kr.redistribute net kprios).nodes net =
      (nodes kprios).map (KrouteNode.settle (nodes kprios)) := by
    rw [Kr.nodes, tree, if_pos rfl, nodes_krRedistribute announces.proper]
  have there (other : KroutePrefix) (different : other ≠ net) :
      (kr.redistribute net kprios).nodes other = kr.nodes other := by
    rw [Kr.nodes, tree, if_neg (Ne.symm different)]
    rfl
  have lowest (kn : KrouteNode) : Lowest ((nodes kprios).map (KrouteNode.settle (nodes kprios)))
      (kn.settle (nodes kprios)) ↔ Lowest (nodes kprios) kn := List.forall_mem_map
  have told : (kr.redistribute net kprios).told =
      (krRedistribute kprios).2.foldl NetworkImsg.apply kr.told := List.foldl_append ..
  refine ⟨fun other => ?_, fun other kn member => ?_, ?_, ?_⟩
  · rw [tree]
    split
    · rename_i same
      exact same ▸ announces.proper.krRedistribute
    · rename_i different
      exact properOthers other (Ne.symm different)
  · by_cases same : other = net
    · subst same
      rw [here] at member ⊢
      obtain ⟨old, among, rfl⟩ := List.mem_map.mp member
      rw [decide_eq_decide.mpr (lowest old)]
      show (Lowest (nodes kprios) old && (old.flags.redistributed || old.redistributable) : Bool) =
        (Lowest (nodes kprios) old && old.redistributable : Bool)
      by_cases first : Lowest (nodes kprios) old
      · simp only [first, decide_true, Bool.true_and]
        cases marked : old.flags.redistributed with
        | true => exact (announces.eligible old among marked first).symm
        | false => rfl
      · simp only [first, decide_false, Bool.false_and]
    · rw [there other same] at member ⊢
      exact markedOthers other same kn member
  · ext entry
    rw [told]
    by_cases same : entry.net = net
    · rw [announces.told_same same]
      subst same
      show _ ↔ ∃ kn ∈ (kr.redistribute entry.net kprios).nodes entry.net, _
      rw [here]
      constructor
      · rintro ⟨kn, member, test, announced⟩
        simp only [Bool.and_eq_true, decide_eq_true_eq] at test
        exact ⟨kn.settle (nodes kprios), List.mem_map_of_mem member, (lowest kn).mpr test.1, test.2,
          announced⟩
      · rintro ⟨kn', member, first, passed, announced⟩
        obtain ⟨kn, member', rfl⟩ := List.mem_map.mp member
        refine ⟨kn, member', ?_, announced⟩
        simp only [Bool.and_eq_true, decide_eq_true_eq]
        exact ⟨(lowest kn).mp first, passed⟩
    · rw [announces.told_other same, toldOthers entry same]
      show (∃ kn ∈ kr.nodes entry.net, _) ↔ ∃ kn ∈ (kr.redistribute net kprios).nodes entry.net, _
      rw [there entry.net same]
  · refine Run.allowed_append.mpr ⟨one, announces.onePriority ?_⟩
    exact onePriority_of_allowed onePriority_empty one

end Prefix

/-! ### Operations -/

namespace Kr.Good

variable {kr : Kr} {route : Kroute} {kn : KrouteNode}

/-- What a prefix announces is told, and nothing else of it. -/
theorem mem_told_iff (good : kr.Good) {entry : Announced} :
    entry ∈ kr.told ↔ entry ∈ announced (fun kn => kn.flags.redistributed) (kr.nodes entry.net) := by
  rw [good.told]
  refine exists_congr fun kn => and_congr_right fun member => ?_
  show _ ↔ kn.flags.redistributed = true ∧ _
  rw [good.marked entry.net kn member, Bool.and_eq_true, decide_eq_true_eq, and_assoc]

/-- A route is inserted that is not there. -/
theorem krouteInsert (good : kr.Good) (some : kn.priority ≠ rtpAny)
    (unmarked : kn.flags.redistributed = false)
    (absent : krouteFind kr kn.toKroute = none) : (krouteInsert kr kn).Good := by
  rw [krouteFind_eq] at absent
  obtain ⟨proper, perm⟩ := (good.proper kn.net).insertNode some rfl absent
  have same (entry : Announced) : entry ∈ announced (fun kn => kn.flags.redistributed)
      (Ldpd.nodes (insertNode (kr.krt.getD kn.net []) kn)) ↔
        entry ∈ announced (fun kn => kn.flags.redistributed) (kr.nodes kn.net) := by
    constructor
    · rintro ⟨other, member, marked, rfl⟩
      obtain rfl | old := List.mem_cons.mp (perm.mem_iff.mp member)
      · cases unmarked.symm.trans marked
      · exact ⟨other, old, marked, rfl⟩
    · rintro ⟨other, member, marked, rfl⟩
      exact ⟨other, perm.mem_iff.mpr (List.mem_cons_of_mem _ member), marked, rfl⟩
  refine good_redistribute (fun other _ => good.proper other) (fun other _ => good.marked other)
    (fun entry _ => by rw [good.told]) good.one ⟨proper, fun other member marked _ => ?_,
      fun entry among => ?_, fun entry told here => .inl ?_⟩
  · obtain rfl | old := List.mem_cons.mp (perm.mem_iff.mp member)
    · cases unmarked.symm.trans marked
    · rw [good.marked kn.net other old, Bool.and_eq_true] at marked
      exact marked.2
  · have old := (same entry).mp among
    obtain ⟨other, member, -, rfl⟩ := old
    have net : other.announced.net = kn.net := (good.proper kn.net).net_of_mem member
    rw [good.mem_told_iff, net]
    exact (same _).mp among
  · rw [good.mem_told_iff, here] at told
    exact (same entry).mpr told

theorem marked_redistributable (good : kr.Good) {net : KroutePrefix} (member : kn ∈ kr.nodes net)
    (marked : kn.flags.redistributed = true) : Lowest (kr.nodes net) kn ∧ kn.redistributable = true := by
  rw [good.marked net kn member, Bool.and_eq_true, decide_eq_true_eq] at marked
  exact marked

theorem told_of_marked (good : kr.Good) {net : KroutePrefix} (member : kn ∈ kr.nodes net)
    (marked : kn.flags.redistributed = true) : kn.announced ∈ kr.told := by
  have here : kn.announced.net = net := (good.proper net).net_of_mem member
  rw [good.mem_told_iff, here]
  exact ⟨kn, member, marked, rfl⟩

/-- A node is overwritten by a route that is not marked yet. -/
theorem replaceNode (good : kr.Good) (found : krouteFind kr route = some kn) {new : KrouteNode}
    (same : new.announced = kn.announced) (unmarked : new.flags.redistributed = false)
    (keeps : Lowest (kr.nodes kn.net) kn → kn.redistributable = true → new.redistributable = true) :
    (kr.redistribute route.net (Ldpd.replaceNode (kr.krt.getD route.net []) route fun _ => new)).Good := by
  rw [krouteFind_eq] at found
  have proper := good.proper route.net
  obtain ⟨front, back, before, after, -⟩ := nodes_of_findNode found
  have after := after fun _ => new
  have priority : new.priority = kn.priority := congrArg Announced.priority same
  have before' : kr.nodes route.net = front ++ kn :: back := before
  have net : kn.net = route.net := proper.net_of_mem (before ▸ by simp)
  have lowest (other : KrouteNode) : Lowest (front ++ new :: back) other ↔
      Lowest (front ++ kn :: back) other := by
    unfold Lowest
    rw [List.forall_mem_append, List.forall_mem_append, List.forall_mem_cons, List.forall_mem_cons,
      priority]
  have old {other : KrouteNode} (member : other ∈ front ++ new :: back)
      (marked : other.flags.redistributed = true) : other ∈ kr.nodes route.net := by
    rw [before']
    rw [List.mem_append, List.mem_cons] at member ⊢
    obtain early | rfl | late := member
    · exact .inl early
    · cases unmarked.symm.trans marked
    · exact .inr (.inr late)
  refine good_redistribute (fun other _ => good.proper other) (fun other _ => good.marked other)
    (fun entry _ => by rw [good.told]) good.one ⟨?_, fun other member marked _ => ?_,
      fun entry among => ?_, fun entry told here => ?_⟩
  · refine proper.replaceNode found (congrArg Announced.nexthop same) ⟨?_, priority⟩
    exact congrArg Announced.net same
  · rw [after] at member
    exact (good.marked_redistributable (old member marked) marked).2
  · rw [after] at among
    obtain ⟨other, member, marked, rfl⟩ := among
    exact good.told_of_marked (old member marked) marked
  · rw [good.mem_told_iff, here, before'] at told
    rw [after]
    obtain ⟨other, member, marked, rfl⟩ := told
    rw [List.mem_append, List.mem_cons] at member
    obtain early | rfl | late := member
    · exact .inl ⟨other, List.mem_append_left _ early, marked, rfl⟩
    · have member : other ∈ kr.nodes route.net := by simp [before']
      obtain ⟨first, passed⟩ := good.marked_redistributable member marked
      refine .inr ⟨new, by simp, ?_, same⟩
      simp only [Bool.and_eq_true, decide_eq_true_eq]
      refine ⟨(lowest new).mpr fun third member' => ?_, keeps (net ▸ first) passed⟩
      rw [priority]
      exact first third (before' ▸ member')
    · exact .inl ⟨other, List.mem_append_right _ (List.mem_cons_of_mem _ late), marked, rfl⟩

/-- Only the lookups in the tree and the messages matter. -/
theorem congr {kr' : Kr} (good : kr.Good)
    (tree : ∀ net, kr'.krt.getD net [] = kr.krt.getD net []) (sent : kr'.toLde = kr.toLde) : kr'.Good := by
  have nodes : kr'.nodes = kr.nodes := funext fun net => congrArg Ldpd.nodes (tree net)
  have told : kr'.told = kr.told := by rw [Kr.told, Kr.told, sent]
  have eligible : kr'.eligible = kr.eligible := by rw [Kr.eligible, Kr.eligible, nodes]
  refine ⟨fun net => ?_, ?_, ?_, ?_⟩
  · rw [tree]
    exact good.proper net
  · rw [nodes]
    exact good.marked
  · rw [told, eligible]
    exact good.told
  · rw [sent]
    exact good.one

/-- A node is taken back, and then taken out of the tree. -/
theorem krouteRemove (good : kr.Good) (route : Kroute) : (krouteRemove kr route).Good := by
  rw [Ldpd.krouteRemove]
  split
  · exact good
  rename_i kn found
  rw [krouteFind_eq] at found
  have proper := good.proper route.net
  obtain ⟨front, back, before, -, after⟩ := nodes_of_findNode found
  have before' : kr.nodes route.net = front ++ kn :: back := before
  have member : kn ∈ kr.nodes route.net := by simp [before']
  have net : kn.net = route.net := proper.net_of_mem member
  have fresh := proper.fresh before
  dsimp only
  generalize taken : ({ kr with toLde := kr.toLde ++ (krRedistRemove kn).2 }.write
    (krouteUninstall kr.fibSync kn) : Kr) = kr'
  have told : kr'.told = kr.told \ announced (fun kn => kn.flags.redistributed) [kn] := by
    rw [← foldl_krRedistRemove, List.flatMap_singleton, ← taken]
    exact List.foldl_append ..
  have tree : kr'.krt = kr.krt := by rw [← taken]; rfl
  have one : Run.Allowed NetworkImsg.apply (fun told imsg => OnePriority (imsg.apply told)) ∅ kr'.toLde := by
    rw [← taken]
    refine Run.allowed_append.mpr ⟨good.one, allowed_of_bound
      (onePriority_of_allowed onePriority_empty good.one) (fun kr member => ?_) subset_rfl⟩
    rw [krRedistRemove] at member
    split at member
    · cases List.mem_singleton.mp member
    · cases member
  have others (entry : Announced) (different : entry.net ≠ route.net) :
      entry ∈ kr'.told ↔ entry ∈ kr'.eligible := by
    have nodes : kr'.nodes = kr.nodes := funext fun net => by rw [Kr.nodes, Kr.nodes, tree]
    have eligible : kr'.eligible = kr.eligible := by rw [Kr.eligible, Kr.eligible, nodes]
    rw [told, eligible, ← good.told]
    refine ⟨And.left, fun member => ⟨member, fun removed => ?_⟩⟩
    obtain ⟨other, among, -, rfl⟩ := removed
    cases List.mem_singleton.mp among
    exact different net
  have old {other : KrouteNode} (among : other ∈ front ++ back) : other ∈ kr.nodes route.net := by
    rw [before']
    rw [List.mem_append] at among
    rw [List.mem_append, List.mem_cons]
    exact among.imp_right .inr
  have removed : (kr'.redistribute route.net (eraseNode (kr'.krt.getD route.net []) route)).Good := by
    refine good_redistribute (fun other _ => tree ▸ good.proper other) (fun other _ => ?_) others one
      ⟨tree ▸ proper.eraseNode found, fun other among marked _ => ?_, fun entry among => ?_,
        fun entry member' here => .inl ?_⟩
    · rw [Kr.nodes, tree]
      exact good.marked other
    · rw [tree, after] at among
      exact (good.marked_redistributable (old among) marked).2
    · rw [tree, after] at among
      obtain ⟨other, among, marked, rfl⟩ := among
      rw [told]
      refine ⟨good.told_of_marked (old among) marked, fun removed => ?_⟩
      obtain ⟨kn', single, -, same⟩ := removed
      cases List.mem_singleton.mp single
      refine fresh (List.mem_map.mpr ⟨other, among, ?_⟩)
      exact Prod.ext (congrArg Announced.priority same).symm (congrArg Announced.nexthop same).symm
    · rw [told] at member'
      obtain ⟨known, kept⟩ := member'
      rw [good.mem_told_iff, here, before'] at known
      rw [tree, after]
      obtain ⟨other, among, marked, rfl⟩ := known
      rw [List.mem_append, List.mem_cons] at among
      obtain early | rfl | late := among
      · exact ⟨other, List.mem_append_left _ early, marked, rfl⟩
      · exact absurd ⟨other, List.mem_singleton_self _, marked, rfl⟩ kept
      · exact ⟨other, List.mem_append_right _ late, marked, rfl⟩
  split
  · rename_i empty
    rw [empty] at removed
    refine removed.congr (fun other => ?_) (List.append_nil _).symm
    exact (Tree.getD_erase ..).trans (Tree.getD_insert ..).symm
  · exact removed

/-- A routing message. -/
theorem rtmsgProcessRoute (good : kr.Good) {rtm : RtMsghdr} (keeps : KeepsMarks kr rtm) :
    (rtmsgProcessRoute kr rtm).1.Good := by
  rw [Ldpd.rtmsgProcessRoute]
  have good' : (if rtm.type = .change then removeFirst kr rtm.kroute.toKroute else kr).Good := by
    split
    · rw [removeFirst]
      split
      · exact good
      · exact good.krouteRemove _
    · exact good
  split
  · split
    · exact good'
    · exact good'.krouteRemove _
  rename_i updates
  split
  · exact good'
  rename_i usable
  have usable' : ldpAddrisset rtm.nexthop = true ∨ rtm.kroute.flags.connected = true := by
    rw [Bool.and_eq_true, not_and_or, Bool.not_eq_true', Bool.not_eq_true', Bool.not_eq_false,
      Bool.not_eq_false] at usable
    exact usable
  split
  · rename_i kn' found
    obtain ⟨kn, overwrites, ⟨redistributed, same⟩, lowest⟩ :=
      overwrites_of_find good.proper keeps.priority updates usable' found
    have announced : rtm.kroute.announced = kn'.announced := by
      rw [krouteFind_eq] at found
      obtain ⟨member, priority, nexthop⟩ :=
        ((good'.proper rtm.kroute.net).findNode_eq_some keeps.priority).mp found
      have net := (good'.proper rtm.kroute.net).net_of_mem member
      rw [Kroute.announced, Kroute.announced, net, priority, nexthop]
    refine good'.replaceNode found announced rfl fun first passed => ?_
    rw [same, KrouteNode.redistributable_mark] at passed
    exact keeps.marks kn overwrites (lowest first) passed
  · rename_i absent
    exact good'.krouteInsert keeps.priority rfl absent

end Kr.Good

/-! ### Runs -/

/-- In a run in which no announced node is overwritten by one that may not be redistributed, the label
decision engine has been told exactly the routes of the lowest priorities that may be, and it never saw
a prefix with two priorities. -/
theorem told_eq_eligible (fibSync : Bool) (rtms : List RtMsghdr)
    (keeps : Run.Allowed (fun kr rtm => (rtmsgProcessRoute kr rtm).1) KeepsMarks { fibSync } rtms) :
    (rtms.foldl (fun kr rtm => (rtmsgProcessRoute kr rtm).1) { fibSync }).told =
        (rtms.foldl (fun kr rtm => (rtmsgProcessRoute kr rtm).1) { fibSync }).eligible ∧
      Run.Allowed NetworkImsg.apply (fun told imsg => OnePriority (imsg.apply told)) ∅
        (rtms.foldl (fun kr rtm => (rtmsgProcessRoute kr rtm).1) { fibSync }).toLde := by
  have start : Kr.Good { fibSync } := by
    have empty (net : KroutePrefix) : (∅ : Std.ExtTreeMap KroutePrefix (List KroutePriority)
        krouteCompare).getD net [] = [] := Std.ExtTreeMap.getD_empty
    have nodes (net : KroutePrefix) : Kr.nodes { fibSync } net = [] := by
      rw [Kr.nodes, empty]
      rfl
    refine ⟨fun net => ?_, fun net kn member => ?_, ?_, trivial⟩
    · rw [empty]
      exact .nil net
    · rw [nodes] at member
      cases member
    · refine (Set.eq_empty_of_forall_notMem fun entry eligible => ?_).symm
      obtain ⟨kn, member, -⟩ := eligible
      rw [nodes] at member
      cases member
  have good := Run.foldl_of_allowed Kr.Good (fun kr rtm good keeps => good.rtmsgProcessRoute keeps)
    start keeps
  exact ⟨good.told, good.one⟩

/-- A message about a route to 11.0.0.0/8 by way of 10.0.0.1. -/
def routeMessage (dynamic : Bool) : RtMsghdr where
  type := .add
  dst := .v4 0x0b000000
  prefixlen := 8
  gateway := .inet 0x0a000001
  dynamic := dynamic
  priority := 8

/-- The state of the parent process after messages about that route. -/
def routeState (rtms : List RtMsghdr) : Kr :=
  rtms.foldl (fun kr rtm => (rtmsgProcessRoute kr rtm).1) { fibSync := true }

/-- Two routes, and a better one for the first of them that is lost again. -/
def routeChanges : List RtMsghdr :=
  let better := { routeMessage false with gateway := .inet 0x0a000002, priority := 4 }
  [routeMessage false, { routeMessage false with dst := .v4 0x0c000000 }, better,
    { better with type := .delete }]

theorem told_eq_eligible_route : (routeState routeChanges).toLde ≠ [] ∧
    (routeState routeChanges).told = (routeState routeChanges).eligible := by
  have fresh {kr : Kr} {rtm : RtMsghdr} (absent : krouteFind kr rtm.kroute.toKroute = none)
      (priority : rtm.priority ≠ rtpAny) : KeepsMarks kr rtm :=
    ⟨priority, fun kn overwrites => absurd (overwrites.found.symm.trans absent) (Option.some_ne_none kn)⟩
  refine ⟨by decide +kernel, (told_eq_eligible true routeChanges ⟨fresh ?_ (by decide),
    fresh ?_ (by decide), fresh ?_ (by decide), ⟨by decide, ?_⟩, trivial⟩).1⟩
  · decide +kernel
  · decide +kernel
  · decide +kernel
  · exact fun kn overwrites => absurd rfl overwrites.updates

/-- The route becomes a dynamic one, and is not taken back. -/
theorem routeMessage_dynamic : (routeState [routeMessage false, routeMessage true]).told ≠
    (routeState [routeMessage false, routeMessage true]).eligible := by
  have sent : (routeState [routeMessage false, routeMessage true]).toLde =
      [.add ((routeMessage false).kroute.mark true |> fun kn =>
        { kn with localLabel := noLabel, remoteLabel := noLabel })] := by
    decide +kernel
  have nodes : (routeState [routeMessage false, routeMessage true]).nodes (routeMessage false).kroute.net =
      [(routeMessage true).kroute] := by
    decide +kernel
  intro same
  have told : (routeMessage false).kroute.announced ∈
      (routeState [routeMessage false, routeMessage true]).told := by
    rw [Kr.told, sent]
    exact Set.mem_insert _ _
  rw [same] at told
  obtain ⟨kn, member, -, passed, -⟩ := told
  have member' : kn ∈ [(routeMessage true).kroute] := nodes ▸ member
  rw [List.mem_singleton.mp member'] at passed
  cases passed

end Ldpd
