/-
This file says what the operations on the routes of one prefix do to its nodes: the
priorities are in order, every node lies in the list of its priority, and a lookup,
a replacement, a removal or an insertion is about one node.
-/

import Ldpd.Main.Kroute

namespace Ldpd

/-! ### The nodes of a prefix -/

/-- All nexthops of a prefix. -/
def nodes (kprios : List KroutePriority) : List KrouteNode :=
  kprios.flatMap KroutePriority.nexthops

/-- The nodes that the tree has for a prefix. -/
def Kr.nodes (kr : Kr) (net : KroutePrefix) : List KrouteNode :=
  Ldpd.nodes (kr.krt.getD net [])

/-- The priorities are in order, none is empty, and every node is in its place. -/
structure Proper (net : KroutePrefix) (kprios : List KroutePriority) : Prop where
  sorted : (kprios.map KroutePriority.priority).Pairwise (· < ·)
  filled : ∀ kprio ∈ kprios, kprio.nexthops ≠ []
  distinct : ∀ kprio ∈ kprios, (kprio.nexthops.map fun kn => kn.nexthop).Nodup
  placed : ∀ kprio ∈ kprios, ∀ kn ∈ kprio.nexthops, kn.net = net ∧ kn.priority = kprio.priority

/-- No node of the prefix has a lower priority. -/
def Lowest (nodes : List KrouteNode) (kn : KrouteNode) : Prop :=
  ∀ other ∈ nodes, kn.priority ≤ other.priority

instance (nodes : List KrouteNode) (kn : KrouteNode) : Decidable (Lowest nodes kn) :=
  inferInstanceAs (Decidable (∀ other ∈ nodes, kn.priority ≤ other.priority))

section Lists

variable {Element : Type} {test : Element → Bool} {list : List Element} {element : Element}

/-- Where a lookup finds an element, and what erasing or replacing it does. -/
theorem exists_of_find? (found : list.find? test = some element) :
    test element = true ∧ ∃ before after, list = before ++ element :: after ∧
      list.eraseP test = before ++ after ∧
        ∀ change : Element → Element,
          list.replaceF (fun item => if test item then some (change item) else none) =
            before ++ change element :: after := by
  obtain ⟨fits, before, after, rfl, others⟩ := List.find?_eq_some_iff_append.mp found
  refine ⟨fits, before, after, rfl, ?_, fun change => ?_⟩
  · rw [List.eraseP_append_right _ (by simpa using others), List.eraseP_cons_of_pos fits]
  · clear found
    induction before with
    | nil => simp [fits]
    | cons first rest inductionHypothesis =>
      have other : test first = false := by simpa using others first List.mem_cons_self
      have here := inductionHypothesis fun item member => others item (List.mem_cons_of_mem _ member)
      rw [List.cons_append, List.replaceF_cons_of_none _ (by simp [other]), here]
      rfl

end Lists

section Nodes

variable {net : KroutePrefix} {kprios : List KroutePriority} {route : Kroute} {kn : KrouteNode}

theorem mem_nodes : kn ∈ nodes kprios ↔ ∃ kprio ∈ kprios, kn ∈ kprio.nexthops :=
  List.mem_flatMap

theorem nodes_append (first second : List KroutePriority) :
    nodes (first ++ second) = nodes first ++ nodes second :=
  List.flatMap_append ..

theorem nodes_cons (kprio : KroutePriority) (rest : List KroutePriority) :
    nodes (kprio :: rest) = kprio.nexthops ++ nodes rest :=
  List.flatMap_cons ..

/-- What the lookups of a prefix find, one after another. -/
def findNode (kprios : List KroutePriority) (route : Kroute) : Option KrouteNode :=
  (krouteFindPrio kprios route.priority).bind fun kprio => krouteFindGw kprio route.nexthop

theorem krouteFind_eq (kr : Kr) (route : Kroute) :
    krouteFind kr route = findNode (kr.krt.getD route.net []) route := by
  rw [krouteFind, Std.ExtTreeMap.getD_eq_getD_getElem?]
  cases kr.krt[route.net]? with
  | none => rfl
  | some kprios => rfl

/-- Where a node is found, and what replacing or erasing it leaves. -/
theorem spot_of_findNode (found : findNode kprios route = some kn) :
    ∃ before kprio after early late, kprios = before ++ kprio :: after ∧
      kprio.nexthops = early ++ kn :: late ∧ kn.nexthop = route.nexthop ∧
      (route.priority ≠ rtpAny → kprio.priority = route.priority) ∧
      (∀ change, replaceNode kprios route change =
        before ++ { kprio with nexthops := early ++ change kn :: late } :: after) ∧
      eraseNode kprios route = if (early ++ late).isEmpty then before ++ after else
        before ++ { kprio with nexthops := early ++ late } :: after := by
  obtain ⟨kprio, first, second⟩ := Option.bind_eq_some_iff.mp found
  obtain ⟨isPrio, before, after, here, erased, replaced⟩ := exists_of_find? first
  obtain ⟨isGw, early, late, there, erased', replaced'⟩ := exists_of_find? second
  refine ⟨before, kprio, after, early, late, here, there, ?_, fun some => ?_, fun change => ?_, ?_⟩
  · simpa [KrouteNode.isGw] using isGw
  · simpa [KroutePriority.isPrio, some] using isPrio
  · rw [replaceNode, replaced fun kprio => { kprio with
      nexthops := kprio.nexthops.replaceF fun kn =>
        if kn.isGw route.nexthop then Option.some (change kn) else none }, replaced']
  · rw [eraseNode, first]
    dsimp only
    rw [erased', erased, replaced fun kprio => { kprio with
      nexthops := kprio.nexthops.eraseP (KrouteNode.isGw route.nexthop) }, erased']

/-- The node that is found is replaced or erased, and all others stay. -/
theorem nodes_of_findNode (found : findNode kprios route = some kn) :
    ∃ front back, nodes kprios = front ++ kn :: back ∧
      (∀ change, nodes (replaceNode kprios route change) = front ++ change kn :: back) ∧
        nodes (eraseNode kprios route) = front ++ back := by
  obtain ⟨before, kprio, after, early, late, here, there, -, -, replaced, erased⟩ :=
    spot_of_findNode found
  refine ⟨nodes before ++ early, late ++ nodes after, ?_, fun change => ?_, ?_⟩
  · rw [here, nodes_append, nodes_cons, there]
    simp only [List.append_assoc, List.cons_append]
  · rw [replaced, nodes_append, nodes_cons]
    simp only [List.append_assoc, List.cons_append]
  · rw [erased]
    split
    · rename_i empty
      obtain ⟨rfl, rfl⟩ := List.append_eq_nil_iff.mp (List.isEmpty_iff.mp empty)
      rw [nodes_append, List.append_nil, List.nil_append]
    · rw [nodes_append, nodes_cons]
      simp only [List.append_assoc]

/-- A priority that is new is put in its order. -/
theorem sorted_orderedInsert {new : KroutePriority}
    (sorted : (kprios.map KroutePriority.priority).Pairwise (· < ·))
    (absent : ∀ kprio ∈ kprios, kprio.priority ≠ new.priority) :
    ((kprios.orderedInsert (fun kprio tmp => kprio.priority < tmp.priority) new).map
      KroutePriority.priority).Pairwise (· < ·) := by
  induction kprios with
  | nil => exact List.pairwise_singleton _ _
  | cons first rest inductionHypothesis =>
    rw [List.map_cons, List.pairwise_cons] at sorted
    have different := absent first List.mem_cons_self
    rw [List.orderedInsert_cons]
    split
    · rename_i less
      rw [List.map_cons, List.map_cons, List.pairwise_cons, List.pairwise_cons]
      refine ⟨fun priority member => ?_, sorted⟩
      obtain rfl | below := List.mem_cons.mp member
      · exact less
      · exact UInt8.lt_trans less (sorted.1 priority below)
    · rename_i less
      rw [List.map_cons, List.pairwise_cons]
      refine ⟨fun priority member => ?_, inductionHypothesis sorted.2
        fun kprio member => absent kprio (List.mem_cons_of_mem _ member)⟩
      obtain ⟨kprio, among, rfl⟩ := List.mem_map.mp member
      obtain rfl | below := (List.mem_orderedInsert _).mp among
      · exact UInt8.lt_of_le_of_ne (UInt8.not_lt.mp less) different
      · exact sorted.1 _ (List.mem_map_of_mem below)

/-! ### Keeping the order -/

namespace Proper

protected theorem nil (net : KroutePrefix) : Proper net [] :=
  ⟨List.Pairwise.nil, fun _ member => absurd member List.not_mem_nil,
    fun _ member => absurd member List.not_mem_nil, fun _ member => absurd member List.not_mem_nil⟩

/-- One priority changes its nexthops. -/
theorem replace {before after : List KroutePriority} {kprio : KroutePriority}
    (proper : Proper net (before ++ kprio :: after)) {nexthops : List KrouteNode} (filled : nexthops ≠ [])
    (distinct : (nexthops.map fun kn => kn.nexthop).Nodup)
    (placed : ∀ kn ∈ nexthops, kn.net = net ∧ kn.priority = kprio.priority) :
    Proper net (before ++ { kprio with nexthops } :: after) := by
  have others {property : KroutePriority → Prop}
      (kept : ∀ other ∈ before ++ kprio :: after, property other)
      (here : property { kprio with nexthops }) :
      ∀ other ∈ before ++ { kprio with nexthops } :: after, property other := by
    rw [List.forall_mem_append, List.forall_mem_cons] at kept ⊢
    exact ⟨kept.1, here, kept.2.2⟩
  refine ⟨?_, others proper.filled filled, others proper.distinct distinct, others proper.placed placed⟩
  have sorted := proper.sorted
  rw [List.map_append, List.map_cons] at sorted ⊢
  exact sorted

/-- A priority goes. -/
theorem erase {before after : List KroutePriority} {kprio : KroutePriority}
    (proper : Proper net (before ++ kprio :: after)) : Proper net (before ++ after) := by
  have sublist : (before ++ after).Sublist (before ++ kprio :: after) :=
    (List.Sublist.refl before).append (List.sublist_cons_self kprio after)
  exact ⟨proper.sorted.sublist (sublist.map _), fun other member => proper.filled other (sublist.subset member),
    fun other member => proper.distinct other (sublist.subset member),
    fun other member => proper.placed other (sublist.subset member)⟩

section First

variable {first : KroutePriority} {rest : List KroutePriority}

theorem tail (proper : Proper net (first :: rest)) : Proper net rest := by
  have proper' : Proper net ([] ++ first :: rest) := proper
  exact proper'.erase

theorem lower (proper : Proper net (first :: rest)) : ∀ kprio ∈ rest, first.priority < kprio.priority := by
  have sorted := proper.sorted
  rw [List.map_cons, List.pairwise_cons] at sorted
  exact fun kprio member => sorted.1 _ (List.mem_map_of_mem member)

end First

theorem replaceNode (proper : Proper net kprios) (found : findNode kprios route = some kn)
    {change : KrouteNode → KrouteNode} (nexthop : (change kn).nexthop = kn.nexthop)
    (placed : (change kn).net = kn.net ∧ (change kn).priority = kn.priority) :
    Proper net (replaceNode kprios route change) := by
  obtain ⟨before, kprio, after, early, late, rfl, there, -, -, replaced, -⟩ := spot_of_findNode found
  have member : kprio ∈ before ++ kprio :: after := by simp
  have distinct := proper.distinct kprio member
  have places := proper.placed kprio member
  rw [replaced]
  rw [there] at distinct places
  refine proper.replace (by simp) ?_ ?_
  · rw [List.map_append, List.map_cons] at distinct ⊢
    rw [nexthop]
    exact distinct
  · rw [List.forall_mem_append, List.forall_mem_cons] at places ⊢
    rw [placed.1, placed.2]
    exact places

theorem eraseNode (proper : Proper net kprios) (found : findNode kprios route = some kn) :
    Proper net (eraseNode kprios route) := by
  obtain ⟨before, kprio, after, early, late, rfl, there, -, -, -, erased⟩ := spot_of_findNode found
  have member : kprio ∈ before ++ kprio :: after := by simp
  have distinct := proper.distinct kprio member
  have places := proper.placed kprio member
  rw [erased]
  rw [there] at distinct places
  split
  · exact proper.erase
  · rename_i filled
    have sublist : (early ++ late).Sublist (early ++ kn :: late) :=
      (List.Sublist.refl early).append (List.sublist_cons_self kn late)
    refine proper.replace (fun empty => filled (List.isEmpty_iff.mpr empty)) ?_ ?_
    · exact distinct.sublist (sublist.map _)
    · exact fun other member => places other (sublist.subset member)

/-- Nodes of one prefix differ in their priority or their nexthop. -/
theorem nodup (proper : Proper net kprios) :
    ((nodes kprios).map fun kn => (kn.priority, kn.nexthop)).Nodup := by
  induction kprios with
  | nil => exact List.nodup_nil
  | cons first rest inductionHypothesis =>
    have later := inductionHypothesis proper.tail
    have here : (first.nexthops.map fun kn => (kn.priority, kn.nexthop)).Nodup := by
      refine List.Nodup.of_map Prod.snd ?_
      rw [List.map_map]
      exact proper.distinct first List.mem_cons_self
    rw [nodes_cons, List.map_append, List.nodup_append]
    refine ⟨here, later, fun pair member pair' member' same => ?_⟩
    obtain ⟨kn, inFirst, rfl⟩ := List.mem_map.mp member
    obtain ⟨kn', inRest, rfl⟩ := List.mem_map.mp member'
    obtain ⟨kprio, below, inKprio⟩ := mem_nodes.mp inRest
    have first' := (proper.placed first List.mem_cons_self kn inFirst).2
    have second' := (proper.placed kprio (List.mem_cons_of_mem _ below) kn' inKprio).2
    have equal : first.priority = kprio.priority :=
      first'.symm.trans ((congrArg Prod.fst same).trans second')
    exact absurd (proper.lower kprio below) (equal ▸ UInt8.lt_irrefl _)

/-- No other node has the priority and the nexthop of a node. -/
theorem fresh (proper : Proper net kprios) {front back : List KrouteNode}
    (middle : nodes kprios = front ++ kn :: back) :
    (kn.priority, kn.nexthop) ∉ (front ++ back).map fun kn => (kn.priority, kn.nexthop) := by
  have nodup := proper.nodup
  rw [middle, List.map_append, List.map_cons, List.nodup_middle, List.nodup_cons,
    ← List.map_append] at nodup
  exact nodup.1

theorem net_of_mem (proper : Proper net kprios) (member : kn ∈ nodes kprios) : kn.net = net := by
  obtain ⟨kprio, among, inKprio⟩ := mem_nodes.mp member
  exact (proper.placed kprio among kn inKprio).1

/-- Priority and nexthop tell which node is found. -/
theorem findNode_eq_some (proper : Proper net kprios) (known : route.priority ≠ rtpAny) :
    findNode kprios route = some kn ↔
      kn ∈ nodes kprios ∧ kn.priority = route.priority ∧ kn.nexthop = route.nexthop := by
  have sound {kn : KrouteNode} (found : findNode kprios route = some kn) :
      kn ∈ nodes kprios ∧ kn.priority = route.priority ∧ kn.nexthop = route.nexthop := by
    obtain ⟨before, kprio, after, early, late, here, there, nexthop, priority, -⟩ :=
      spot_of_findNode found
    have member : kprio ∈ kprios := by simp [here]
    have member' : kn ∈ kprio.nexthops := by simp [there]
    refine ⟨mem_nodes.mpr ⟨kprio, member, member'⟩, ?_, nexthop⟩
    rw [(proper.placed kprio member kn member').2, priority known]
  refine ⟨sound, fun ⟨member, priority, nexthop⟩ => ?_⟩
  cases found : findNode kprios route with
  | some other =>
    obtain ⟨member', priority', nexthop'⟩ := sound found
    refine congrArg some (List.inj_on_of_nodup_map proper.nodup member' member ?_)
    exact Prod.ext (priority'.trans priority.symm) (nexthop'.trans nexthop.symm)
  | none =>
    exfalso
    obtain ⟨kprio, among, inKprio⟩ := mem_nodes.mp member
    have equal : kprio.priority = route.priority :=
      (proper.placed kprio among kn inKprio).2.symm.trans priority
    cases first : krouteFindPrio kprios route.priority with
    | none =>
      have test := List.find?_eq_none.mp first kprio among
      simp [KroutePriority.isPrio, equal] at test
    | some kprio' =>
      rw [findNode, first, Option.bind_some] at found
      have equal' : kprio'.priority = route.priority := by
        simpa [KroutePriority.isPrio, known] using List.find?_some first
      have nodup : (kprios.map KroutePriority.priority).Nodup :=
        proper.sorted.imp fun less => UInt8.ne_of_lt less
      have same : kprio' = kprio := List.inj_on_of_nodup_map nodup (List.mem_of_find?_eq_some first)
        among (equal'.trans equal.symm)
      have test := List.find?_eq_none.mp found kn (same ▸ inKprio)
      simp [KrouteNode.isGw, nexthop] at test

/-- The nodes of the first priority have the lowest priority, and no other nodes have. -/
theorem lowest_iff {first : KroutePriority} {rest : List KroutePriority}
    (proper : Proper net (first :: rest)) :
    (∀ kn ∈ first.nexthops, Lowest (nodes (first :: rest)) kn) ∧
      ∀ kprio ∈ rest, ∀ kn ∈ kprio.nexthops, ¬Lowest (nodes (first :: rest)) kn := by
  have lower := proper.lower
  have here := fun kn member => (proper.placed first List.mem_cons_self kn member).2
  have there := fun kprio member kn member' =>
    (proper.placed kprio (List.mem_cons_of_mem _ member) kn member').2
  refine ⟨fun kn member other member' => ?_, fun kprio below kn member lowest => ?_⟩
  · rw [here kn member]
    obtain ⟨kprio, among, inKprio⟩ := mem_nodes.mp member'
    obtain rfl | below := List.mem_cons.mp among
    · rw [here other inKprio]
      exact UInt8.le_refl _
    · rw [there kprio below other inKprio]
      exact UInt8.le_of_lt (lower kprio below)
  · obtain ⟨other, inFirst⟩ := List.exists_mem_of_ne_nil _ (proper.filled first List.mem_cons_self)
    have le := lowest other (mem_nodes.mpr ⟨first, List.mem_cons_self, inFirst⟩)
    rw [there kprio below kn member, here other inFirst] at le
    exact absurd (lower kprio below) (UInt8.not_lt.mpr le)

/-! ### Insertion -/

/-- A priority that is new is put in its place. -/
theorem orderedInsert (proper : Proper net kprios) {new : KroutePriority}
    (absent : ∀ kprio ∈ kprios, kprio.priority ≠ new.priority)
    (filled : new.nexthops ≠ []) (distinct : (new.nexthops.map fun kn => kn.nexthop).Nodup)
    (placed : ∀ kn ∈ new.nexthops, kn.net = net ∧ kn.priority = new.priority) :
    Proper net (kprios.orderedInsert (fun kprio tmp => kprio.priority < tmp.priority) new) := by
  have others {property : KroutePriority → Prop} (kept : ∀ other ∈ kprios, property other)
      (here : property new) : ∀ other ∈ kprios.orderedInsert
        (fun kprio tmp => kprio.priority < tmp.priority) new, property other := by
    intro other member
    obtain rfl | known := (List.mem_orderedInsert _).mp member
    · exact here
    · exact kept other known
  exact ⟨sorted_orderedInsert proper.sorted absent, others proper.filled filled,
    others proper.distinct distinct, others proper.placed placed⟩

/-- A route that is not there yet is inserted. -/
theorem insertNode (proper : Proper net kprios) (some : kn.priority ≠ rtpAny) (placed : kn.net = net)
    (absent : findNode kprios kn.toKroute = none) :
    Proper net (insertNode kprios kn) ∧ (nodes (insertNode kprios kn)).Perm (kn :: nodes kprios) := by
  rw [Ldpd.insertNode]
  cases first : krouteFindPrio kprios kn.priority with
  | none =>
    have others : ∀ kprio ∈ kprios, kprio.priority ≠ kn.priority := by
      intro kprio member same
      have test := List.find?_eq_none.mp first kprio member
      simp [KroutePriority.isPrio, same] at test
    refine ⟨proper.orderedInsert others (List.cons_ne_nil _ _) (List.nodup_singleton _) ?_, ?_⟩
    · exact List.forall_mem_singleton.mpr ⟨placed, rfl⟩
    · exact (List.perm_orderedInsert _ _ _).flatMap_right _
  | some kprio =>
    rw [findNode, first, Option.bind_some] at absent
    dsimp only
    rw [absent]
    obtain ⟨isPrio, before, after, rfl, -, replaced⟩ := exists_of_find? first
    have member : kprio ∈ before ++ kprio :: after := by simp
    have equal : kprio.priority = kn.priority := by
      simpa [KroutePriority.isPrio, some] using isPrio
    have fresh : kn.nexthop ∉ kprio.nexthops.map fun kn => kn.nexthop := by
      intro known
      obtain ⟨other, among, same⟩ := List.mem_map.mp known
      have test := List.find?_eq_none.mp absent other among
      simp [KrouteNode.isGw, same] at test
    dsimp only
    rw [replaced fun kprio => { kprio with nexthops := kprio.nexthops ++ [kn] }]
    refine ⟨proper.replace (by simp) ?_ ?_, ?_⟩
    · rw [List.map_append, List.nodup_append]
      refine ⟨proper.distinct kprio member, List.nodup_singleton _, fun nexthop known nexthop' new same => ?_⟩
      have equal' : nexthop = kn.nexthop := same.trans (List.mem_singleton.mp new)
      exact fresh (equal' ▸ known)
    · rw [List.forall_mem_append, List.forall_mem_singleton]
      exact ⟨proper.placed kprio member, placed, equal.symm⟩
    · simp only [nodes_append, nodes_cons, List.append_assoc]
      refine (List.Perm.append_left _ ?_).trans List.perm_middle
      rw [List.singleton_append]
      exact List.perm_middle

end Proper

/-! ### Redistribution -/

@[simp]
theorem KrouteNode.mark_toKroute (redistributed : Bool) :
    (kn.mark redistributed).toKroute = kn.toKroute := rfl

@[simp]
theorem KrouteNode.mark_redistributed (redistributed : Bool) :
    (kn.mark redistributed).flags.redistributed = redistributed := rfl

theorem KrouteNode.redistributable_mark (redistributed : Bool) :
    (kn.mark redistributed).redistributable = kn.redistributable := rfl

theorem krRedistRemove_fst (kn : KrouteNode) : (krRedistRemove kn).1 = kn.mark false := by
  rw [krRedistRemove]
  split
  · rfl
  · rename_i unmarked
    rw [KrouteNode.mark, ← Bool.eq_false_iff.mpr unmarked]

theorem krRedistEval_fst (kn : KrouteNode) :
    (krRedistEval kn).1 = kn.mark (kn.flags.redistributed || kn.redistributable) := by
  rw [krRedistEval]
  split
  · rename_i marked
    rw [marked, Bool.true_or, KrouteNode.mark, ← marked]
  · rename_i unmarked
    rw [Bool.eq_false_iff.mpr unmarked, Bool.false_or]
    split
    · rename_i yes
      rw [yes]
    · rename_i no
      rw [Bool.eq_false_iff.mpr no, KrouteNode.mark, ← Bool.eq_false_iff.mpr unmarked]

/-- A node with the mark that `kr_redistribute` leaves. -/
def KrouteNode.settle (nodes : List KrouteNode) (kn : KrouteNode) : KrouteNode :=
  kn.mark (Lowest nodes kn && (kn.flags.redistributed || kn.redistributable))

/-- What `kr_redistribute` does to the nodes of a prefix. -/
theorem nodes_krRedistribute (proper : Proper net kprios) :
    nodes (krRedistribute kprios).1 = (nodes kprios).map (KrouteNode.settle (nodes kprios)) := by
  cases kprios with
  | nil => rfl
  | cons first rest =>
    obtain ⟨lowest, others⟩ := proper.lowest_iff
    have here : ∀ kn ∈ first.nexthops, (krRedistEval kn).1 = kn.settle (nodes (first :: rest)) := by
      intro kn member
      rw [krRedistEval_fst, KrouteNode.settle, decide_eq_true (lowest kn member), Bool.true_and]
    have there : ∀ kn ∈ nodes rest, (krRedistRemove kn).1 = kn.settle (nodes (first :: rest)) := by
      intro kn member
      obtain ⟨kprio, below, inKprio⟩ := mem_nodes.mp member
      rw [krRedistRemove_fst, KrouteNode.settle, decide_eq_false (others kprio below kn inKprio),
        Bool.false_and]
    generalize KrouteNode.settle (nodes (first :: rest)) = settle at here there ⊢
    rw [nodes_cons, List.map_append, ← List.map_congr_left here, ← List.map_congr_left there,
      krRedistribute, nodes_cons]
    congr 1
    rw [nodes, nodes, List.flatMap_map, List.map_flatMap]
    rfl

/-- The routes of a prefix without their flags. -/
def shape (kprios : List KroutePriority) : List (UInt8 × List Kroute) :=
  kprios.map fun kprio => (kprio.priority, kprio.nexthops.map KrouteNode.toKroute)

/-- Flags do not matter for the order. -/
theorem Proper.congr {kprios' : List KroutePriority} (proper : Proper net kprios)
    (same : shape kprios' = shape kprios) : Proper net kprios' := by
  have twin : ∀ kprio' ∈ kprios', ∃ kprio ∈ kprios, kprio.priority = kprio'.priority ∧
      kprio.nexthops.map KrouteNode.toKroute = kprio'.nexthops.map KrouteNode.toKroute := by
    intro kprio' member
    have among : (kprio'.priority, kprio'.nexthops.map KrouteNode.toKroute) ∈ shape kprios := by
      rw [← same]
      exact List.mem_map_of_mem (f := fun kprio : KroutePriority =>
        (kprio.priority, kprio.nexthops.map KrouteNode.toKroute)) member
    obtain ⟨kprio, member', equal⟩ := List.mem_map.mp among
    exact ⟨kprio, member', congrArg Prod.fst equal, congrArg Prod.snd equal⟩
  refine ⟨?_, fun kprio' member => ?_, fun kprio' member => ?_, fun kprio' member kn' inKprio => ?_⟩
  · have sorted := proper.sorted
    have priorities := congrArg (List.map Prod.fst) same
    simp only [shape, List.map_map] at priorities
    exact (show kprios'.map KroutePriority.priority = kprios.map KroutePriority.priority from
      priorities) ▸ sorted
  · obtain ⟨kprio, member', -, equal⟩ := twin kprio' member
    intro empty
    rw [empty, List.map_nil, List.map_eq_nil_iff] at equal
    exact proper.filled kprio member' equal
  · obtain ⟨kprio, member', -, equal⟩ := twin kprio' member
    have distinct := proper.distinct kprio member'
    have nexthops := congrArg (List.map Kroute.nexthop) equal
    simp only [List.map_map] at nexthops
    exact (show kprio.nexthops.map (fun kn => kn.nexthop) = kprio'.nexthops.map (fun kn => kn.nexthop)
      from nexthops) ▸ distinct
  · obtain ⟨kprio, member', priority, equal⟩ := twin kprio' member
    have among : kn'.toKroute ∈ kprio.nexthops.map KrouteNode.toKroute := by
      rw [equal]
      exact List.mem_map_of_mem inKprio
    obtain ⟨kn, inKprio', same'⟩ := List.mem_map.mp among
    have placed := proper.placed kprio member' kn inKprio'
    rw [same', priority] at placed
    exact placed

theorem shape_krRedistribute (kprios : List KroutePriority) :
    shape (krRedistribute kprios).1 = shape kprios := by
  cases kprios with
  | nil => rfl
  | cons first rest =>
    simp only [krRedistribute, shape, KroutePriority.forNexthops, List.map_cons, List.map_map,
      Function.comp_def, krRedistRemove_fst, krRedistEval_fst, KrouteNode.mark_toKroute]

theorem Proper.krRedistribute (proper : Proper net kprios) : Proper net (krRedistribute kprios).1 :=
  proper.congr (shape_krRedistribute kprios)

/-! ### The tree -/

theorem Kr.getD_redistribute (kr : Kr) (net other : KroutePrefix) (kprios : List KroutePriority) :
    (kr.redistribute net kprios).krt.getD other [] =
      if net = other then (Ldpd.krRedistribute kprios).1 else kr.krt.getD other [] :=
  Tree.getD_insert ..

theorem Kr.getD_changeNode (kr : Kr) (route : Kroute) (change : KrouteNode → KrouteNode)
    (other : KroutePrefix) : (kr.changeNode route change).krt.getD other [] =
      if route.net = other then Ldpd.replaceNode (kr.krt.getD other []) route change
      else kr.krt.getD other [] :=
  Tree.getD_modify _ _ _ _ rfl

/-- What is left of a prefix when a node is taken out. -/
theorem getD_krouteRemove {kr : Kr} (found : krouteFind kr route = some kn) (other : KroutePrefix) :
    (krouteRemove kr route).krt.getD other [] =
      if route.net = other then (Ldpd.krRedistribute (Ldpd.eraseNode (kr.krt.getD route.net []) route)).1
      else kr.krt.getD other [] := by
  rw [krouteRemove, found]
  dsimp only
  split
  · rename_i empty
    have empty' : Ldpd.eraseNode (kr.krt.getD route.net []) route = [] := empty
    rw [empty']
    exact Tree.getD_erase ..
  · exact Kr.getD_redistribute ..

/-! ### Routing messages -/

/-- A routing message overwrites a node in place. -/
structure Overwrites (kr : Kr) (rtm : RtMsghdr) (kn : KrouteNode) : Prop where
  found : krouteFind kr rtm.kroute.toKroute = some kn
  updates : rtm.type ≠ .delete
  usable : ldpAddrisset rtm.nexthop = true ∨ rtm.kroute.flags.connected = true
  stays : rtm.type = .change → firstNexthop kr rtm.kroute.toKroute ≠ some kn

/-- `RTM_CHANGE` takes away the first nexthop of a priority. -/
theorem removeFirst_find {kr : Kr} (proper : ∀ net, Proper net (kr.krt.getD net []))
    (known : route.priority ≠ rtpAny) (first : firstNexthop kr route = some kn) :
    krouteFind kr kn.toKroute = some kn ∧ kn.net = route.net ∧ kn.priority = route.priority := by
  have first' : ((krouteFindPrio (kr.krt.getD route.net []) route.priority).bind fun kprio =>
      kprio.nexthops.head?) = some kn := by
    rw [firstNexthop] at first
    rw [Std.ExtTreeMap.getD_eq_getD_getElem?]
    cases present : kr.krt[route.net]? with
    | none =>
      rw [present] at first
      cases first
    | some kprios =>
      rw [present] at first
      exact first
  obtain ⟨kprio, found, head⟩ := Option.bind_eq_some_iff.mp first'
  have member := List.mem_of_find?_eq_some found
  have member' := List.mem_of_head? head
  obtain ⟨net, priority⟩ := (proper route.net).placed kprio member kn member'
  have equal : kprio.priority = route.priority := by
    simpa [KroutePriority.isPrio, known] using List.find?_some found
  refine ⟨?_, net, priority.trans equal⟩
  rw [krouteFind_eq]
  have known' : kn.priority ≠ rtpAny := by
    rw [priority, equal]
    exact known
  refine ((proper kn.net).findNode_eq_some known').mpr ⟨?_, rfl, rfl⟩
  rw [net]
  exact mem_nodes.mpr ⟨kprio, member, member'⟩

/-- The node that a message overwrites is a node of the tree before, and only its mark may have changed
when a first nexthop was taken away. -/
theorem overwrites_of_find {kr : Kr} (proper : ∀ net, Proper net (kr.krt.getD net [])) {rtm : RtMsghdr}
    (known : rtm.priority ≠ rtpAny) (updates : rtm.type ≠ .delete)
    (usable : ldpAddrisset rtm.nexthop = true ∨ rtm.kroute.flags.connected = true) {kn' : KrouteNode}
    (found : krouteFind (if rtm.type = .change then removeFirst kr rtm.kroute.toKroute else kr)
      rtm.kroute.toKroute = some kn') :
    ∃ kn, Overwrites kr rtm kn ∧ (∃ redistributed, kn' = kn.mark redistributed) ∧
      (Lowest ((if rtm.type = .change then removeFirst kr rtm.kroute.toKroute else kr).nodes kn'.net) kn' →
        Lowest (kr.nodes kn.net) kn) := by
  -- Nothing was taken away.
  have direct (found : krouteFind kr rtm.kroute.toKroute = some kn')
      (stays : rtm.type = .change → firstNexthop kr rtm.kroute.toKroute ≠ some kn') :
      ∃ kn, Overwrites kr rtm kn ∧ (∃ redistributed, kn' = kn.mark redistributed) ∧
        (Lowest (kr.nodes kn'.net) kn' → Lowest (kr.nodes kn.net) kn) :=
    ⟨kn', ⟨found, updates, usable, stays⟩, ⟨kn'.flags.redistributed, rfl⟩, fun lowest => lowest⟩
  by_cases change : rtm.type = .change
  case neg =>
    rw [if_neg change] at found ⊢
    exact direct found fun change' => absurd change' change
  rw [if_pos change] at found ⊢
  rw [removeFirst] at found ⊢
  cases first : firstNexthop kr rtm.kroute.toKroute with
  | none =>
    rw [first] at found
    refine direct found fun _ => ?_
    rw [first]
    exact (Option.some_ne_none kn').symm
  | some gone =>
    rw [first] at found
    dsimp only at found ⊢
    have known' : rtm.kroute.toKroute.priority ≠ rtpAny := known
    obtain ⟨found', net, priority⟩ := removeFirst_find proper known' first
    have spot := found'
    rw [krouteFind_eq] at spot
    obtain ⟨front, back, before, -, after⟩ := nodes_of_findNode spot
    have erased := (proper gone.net).eraseNode spot
    have tree := getD_krouteRemove found' gone.net
    rw [if_pos rfl] at tree
    have left : (krouteRemove kr gone.toKroute).nodes gone.net =
        (front ++ back).map (KrouteNode.settle (front ++ back)) := by
      rw [Kr.nodes, tree, nodes_krRedistribute erased, after]
    have proper' : Proper gone.net ((krouteRemove kr gone.toKroute).krt.getD gone.net []) := by
      rw [tree]
      exact erased.krRedistribute
    rw [krouteFind_eq, ← net] at found
    obtain ⟨member, equal, nexthop⟩ := (proper'.findNode_eq_some known').mp found
    have here := proper'.net_of_mem member
    have member' : kn' ∈ (krouteRemove kr gone.toKroute).nodes gone.net := member
    rw [left] at member'
    obtain ⟨kn, among, rfl⟩ := List.mem_map.mp member'
    have old : kn ∈ nodes (kr.krt.getD gone.net []) := by
      rw [before]
      exact List.mem_append.mpr ((List.mem_append.mp among).imp_right (List.mem_cons_of_mem _))
    have fresh := (proper gone.net).fresh before
    refine ⟨kn, ⟨?_, updates, usable, fun _ same => ?_⟩, ⟨_, rfl⟩, fun lowest => ?_⟩
    · rw [krouteFind_eq, ← net]
      exact ((proper gone.net).findNode_eq_some known').mpr ⟨old, equal, nexthop⟩
    · cases first.symm.trans same
      exact fresh (List.mem_map_of_mem (f := fun kn : KrouteNode => (kn.priority, kn.nexthop)) among)
    · have here' : kn.net = gone.net := here
      rw [here, left] at lowest
      have among' (other : KrouteNode) (member : other ∈ front ++ back) : kn.priority ≤ other.priority :=
        lowest (other.settle (front ++ back)) (List.mem_map_of_mem member)
      intro other member
      rw [here', Kr.nodes, before, List.mem_append, List.mem_cons] at member
      obtain early | rfl | late := member
      · exact among' other (List.mem_append_left _ early)
      · exact UInt8.le_of_eq (equal.trans priority.symm)
      · exact among' other (List.mem_append_right _ late)

end Nodes

end Ldpd
