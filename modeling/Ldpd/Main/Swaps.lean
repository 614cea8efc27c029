/-
This file is about the labels that the kernel puts on the packets it forwards. The entry
of a node has the remote label of the node. What the kernel knows of an entry is what the
last message about it says, and no two nodes have the same entry.
-/

import Ldpd.Main.Fib

namespace Ldpd

/-! ### What the kernel swaps a label for -/

/-- The entry that a message is about. -/
def RtRequest.about : RtRequest → Option MplsEntry
  | .mpls _ label nexthop priority _ => some ⟨label, nexthop, priority⟩
  | .inet .. => none

/-- What a message makes of the label that is pushed for an entry, if there is one. -/
def RtRequest.swap (entry : MplsEntry) (known : Option (Option UInt32)) (request : RtRequest) :
    Option (Option UInt32) :=
  if request.about = some entry then
    match request with
    | .mpls .delete .. | .inet .. => none
    | .mpls _ _ _ _ labelOut => some labelOut
  else known

/-- The label that the kernel pushes for an entry that it has. -/
def Kr.swap (kr : Kr) (entry : MplsEntry) : Option (Option UInt32) :=
  kr.toKernel.foldl (RtRequest.swap entry) none

/-- While the tables are coupled, the kernel pushes the remote labels of the nodes. -/
def Kr.Swaps (kr : Kr) : Prop :=
  kr.fibSync = true → ∀ net, ∀ kn ∈ kr.nodes net, kn.installed = true →
    kr.swap kn.entry = some (labelOut .change kn)

section Requests

variable {entry : MplsEntry} {requests : List RtRequest}

theorem RtRequest.swap_other {request : RtRequest} (other : request.about ≠ some entry)
    (known : Option (Option UInt32)) : request.swap entry known = known :=
  if_neg other

theorem foldl_swap_other (others : ∀ request ∈ requests, request.about ≠ some entry)
    (known : Option (Option UInt32)) : requests.foldl (RtRequest.swap entry) known = known := by
  induction requests generalizing known with
  | nil => rfl
  | cons request rest inductionHypothesis =>
    rw [List.foldl_cons, RtRequest.swap_other (others request List.mem_cons_self)]
    exact inductionHypothesis (fun other member => others other (List.mem_cons_of_mem _ member)) known

/-- Messages about routes are about no entry. -/
theorem about_sendRtmsgInet (fibSync : Bool) (action : RtmAction) (kn : KrouteNode) (test : Bool) :
    ∀ request ∈ (if test then sendRtmsgInet fibSync action kn else []), request.about = none := by
  intro request member
  split at member
  · rw [sendRtmsgInet] at member
    split at member
    · cases member
    · rw [List.mem_singleton.mp member]
      rfl
  · cases member

end Requests

/-! ### Steps -/

section Steps

variable {kr kr' : Kr} {route : Kroute} {kn : KrouteNode}

/-- No two nodes have the same entry. -/
theorem Kr.Mirrored.entry_inj (mirrored : kr.Mirrored) (on : kr.fibSync = true)
    {net net' : KroutePrefix} {kn kn' : KrouteNode} (member : kn ∈ kr.nodes net)
    (member' : kn' ∈ kr.nodes net') (installed : kn.installed = true)
    (installed' : kn'.installed = true) (same : kn.entry = kn'.entry) : net = net' ∧ kn = kn' := by
  have placed : net = net' := by
    by_contra different
    exact Set.disjoint_left.mp ((mirrored.coupled on).2 net) ⟨kn, member, installed, same⟩
      ⟨net', Ne.symm different, kn', member', installed', rfl⟩
  subst placed
  refine ⟨rfl, List.inj_on_of_nodup_map (mirrored.proper net).nodup member member' ?_⟩
  exact Prod.ext (congrArg MplsEntry.priority same) (congrArg MplsEntry.nexthop same)

/-- Every node is an old one that no message is about, or one whose label has been sent. -/
theorem Kr.Swaps.step (swaps : kr.Swaps) {requests : List RtRequest}
    (sent : kr'.toKernel = kr.toKernel ++ requests) (sync : kr'.fibSync = kr.fibSync)
    (follows : kr.fibSync = true → ∀ net, ∀ kn' ∈ kr'.nodes net, kn'.installed = true →
      (∃ kn ∈ kr.nodes net, kn.installed = true ∧ kn.entry = kn'.entry ∧
        kn.remoteLabel = kn'.remoteLabel ∧ ∀ request ∈ requests, request.about ≠ some kn'.entry) ∨
      ∀ known, requests.foldl (RtRequest.swap kn'.entry) known = some (labelOut .change kn')) :
    kr'.Swaps := by
  intro on net kn' member installed
  rw [sync] at on
  rw [Kr.swap, sent, List.foldl_append]
  rcases follows on net kn' member installed with
    ⟨kn, old, installed', same, label, others⟩ | new
  · rw [foldl_swap_other others, ← same]
    refine (swaps on net kn old installed').trans ?_
    rw [labelOut, label, labelOut]
  · exact new _

/-- An installed node of before that is still there, but for its marks. -/
def Stays (kr : Kr) (net : KroutePrefix) (kn kn' : KrouteNode) : Prop :=
  kn ∈ kr.nodes net ∧ kn.installed = true ∧ kn.entry = kn'.entry ∧ kn.remoteLabel = kn'.remoteLabel

/-- The routes of one prefix are redistributed. -/
theorem Kr.Swaps.redistribute (swaps : kr.Swaps) {net : KroutePrefix} {kprios : List KroutePriority}
    (proper : Proper net kprios) (same : kr.fibSync = true → ∀ kn' ∈ Ldpd.nodes kprios,
      kn'.installed = true → ∃ kn, Stays kr net kn kn') : (kr.redistribute net kprios).Swaps := by
  refine swaps.step (List.append_nil _).symm rfl fun on other kn' member installed => .inl ?_
  rw [Kr.nodes, kr.getD_redistribute] at member
  split_ifs at member with here
  · rw [nodes_krRedistribute proper] at member
    obtain ⟨settled, among, rfl⟩ := List.mem_map.mp member
    obtain ⟨kn, old, installed', entry, label⟩ := same on settled among installed
    exact ⟨kn, here ▸ old, installed', entry, label, fun _ none => absurd none List.not_mem_nil⟩
  · exact ⟨kn', member, installed, rfl, rfl, fun _ none => absurd none List.not_mem_nil⟩

/-- A node goes, and its entry is deleted. -/
theorem Kr.Swaps.uninstall (swaps : kr.Swaps) (mirrored : kr.Mirrored) {net : KroutePrefix}
    (member : kn ∈ kr.nodes net) {more : List RtRequest}
    (inert : ∀ request ∈ more, request.about = none)
    (sent : kr'.toKernel = kr.toKernel ++ (krouteUninstall kr.fibSync kn ++ more))
    (sync : kr'.fibSync = kr.fibSync)
    (left : ∀ net, ∀ kn' ∈ kr'.nodes net, kn'.installed = true → ∃ old, Stays kr net old kn' ∧
      old ≠ kn) : kr'.Swaps := by
  refine swaps.step sent sync fun on other kn' among installed => .inl ?_
  obtain ⟨old, ⟨old', installed', entry, label⟩, different⟩ := left other kn' among installed
  refine ⟨old, old', installed', entry, label, fun request sent about => different ?_⟩
  rcases List.mem_append.mp sent with sent | sent
  · rw [krouteUninstall] at sent
    split at sent
    · rename_i marked
      rw [sendRtmsgMpls_eq marked fun family => mirrored.labels on net kn member family marked] at sent
      split at sent
      · rename_i sends
        rw [List.mem_singleton.mp sent, ← entry] at about
        exact (mirrored.entry_inj on old' member installed' sends.2
          (Option.some_injective _ about).symm).2
      · cases sent
    · cases sent
  · cases (inert request sent).symm.trans about

/-- `kroute_remove`. -/
theorem Kr.Swaps.krouteRemove (swaps : kr.Swaps) (mirrored : kr.Mirrored) (route : Kroute) :
    (krouteRemove kr route).Swaps := by
  cases found : krouteFind kr route with
  | none =>
    rw [Ldpd.krouteRemove, found]
    exact swaps
  | some kn =>
    have spot := found
    rw [krouteFind_eq] at spot
    obtain ⟨front, back, middle, -, after⟩ := nodes_of_findNode spot
    have middle' : kr.nodes route.net = front ++ kn :: back := middle
    have member : kn ∈ kr.nodes route.net := middle' ▸ List.mem_append_right _ List.mem_cons_self
    have sent : (Ldpd.krouteRemove kr route).toKernel =
        kr.toKernel ++ (krouteUninstall kr.fibSync kn ++ []) := by
      rw [Ldpd.krouteRemove, found, List.append_nil]
      dsimp only
      split <;> rfl
    refine swaps.uninstall mirrored member (fun _ none => absurd none List.not_mem_nil) sent
      (Kr.Mirrored.krouteRemove_fibSync kr route) fun net kn' among installed => ?_
    rw [Kr.nodes, getD_krouteRemove found] at among
    split_ifs at among with here
    · subst here
      rw [nodes_krRedistribute ((mirrored.proper route.net).eraseNode spot), after] at among
      obtain ⟨old, old', rfl⟩ := List.mem_map.mp among
      refine ⟨old, ⟨?_, installed, rfl, rfl⟩, fun same => ?_⟩
      · rw [middle']
        exact List.perm_middle.mem_iff.mpr (List.mem_cons_of_mem _ old')
      · refine (mirrored.proper route.net).fresh middle ?_
        exact List.mem_map.mpr ⟨old, old', by rw [same]⟩
    · refine ⟨kn', ⟨among, installed, rfl, rfl⟩, fun same => here ?_⟩
      have placed := (mirrored.proper net).net_of_mem among
      rw [same, (mirrored.proper route.net).net_of_mem member] at placed
      exact placed

theorem mem_of_krouteFind (found : krouteFind kr route = some kn) : kn ∈ kr.nodes route.net := by
  rw [krouteFind_eq] at found
  obtain ⟨front, back, middle, -⟩ := nodes_of_findNode found
  rw [Kr.nodes, middle]
  exact List.mem_append_right _ List.mem_cons_self

/-- Where the nodes are after a node has been changed. -/
theorem mem_changeNode (proper : ∀ net, Proper net (kr.krt.getD net []))
    (found : krouteFind kr route = some kn) (change : KrouteNode → KrouteNode)
    (tree : kr'.krt = (kr.changeNode route change).krt) {net : KroutePrefix} {kn' : KrouteNode} :
    kn' ∈ kr'.nodes net → net = route.net ∧ kn' = change kn ∨ kn' ∈ kr.nodes net ∧ kn' ≠ kn := by
  intro member
  have spot := found
  rw [krouteFind_eq] at spot
  obtain ⟨front, back, middle, replaced, -⟩ := nodes_of_findNode spot
  have placed := (proper route.net).net_of_mem (middle ▸ List.mem_append_right _ List.mem_cons_self)
  rw [Kr.nodes, tree, Kr.getD_changeNode] at member
  split_ifs at member with here
  · subst here
    rw [replaced] at member
    rcases List.mem_cons.mp (List.perm_middle.mem_iff.mp member) with rfl | member
    · exact .inl ⟨rfl, rfl⟩
    · refine .inr ⟨?_, fun same => (proper route.net).fresh middle ?_⟩
      · show kn' ∈ Ldpd.nodes _
        rw [middle]
        exact List.perm_middle.mem_iff.mpr (List.mem_cons_of_mem _ member)
      · exact List.mem_map.mpr ⟨kn', member, by rw [same]⟩
  · refine .inr ⟨member, fun same => here ?_⟩
    have placed' := (proper net).net_of_mem member
    rw [same, placed] at placed'
    exact placed'

/-- `kr_delete`. -/
theorem Kr.Swaps.krDelete (swaps : kr.Swaps) (mirrored : kr.Mirrored) (route : Kroute) :
    (krDelete kr route).Swaps := by
  rw [Ldpd.krDelete]
  cases found : krouteFind kr route with
  | none => exact swaps
  | some kn =>
    dsimp only
    split
    case isFalse => exact swaps
    rename_i marked
    have member := mem_of_krouteFind found
    have sent : krouteUninstall kr.fibSync kn = sendRtmsgMpls kr.fibSync .delete kn := if_pos marked
    refine swaps.uninstall mirrored member (about_sendRtmsgInet kr.fibSync .change kn.unlabel
      kn.labelled) ?_ rfl
      fun net kn' among installed => ?_
    · rw [sent, ← List.append_assoc]
      rfl
    · rcases mem_changeNode mirrored.proper found KrouteNode.unlabel rfl among with
        ⟨-, rfl⟩ | ⟨old, different⟩
      · exact absurd installed (Kr.Mirrored.not_installed rfl)
      · exact ⟨kn', ⟨old, installed, rfl, rfl⟩, different⟩

/-- `kr_change`. -/
theorem Kr.Swaps.krChange (swaps : kr.Swaps) (mirrored : kr.Mirrored)
    (mirrored' : (krChange kr route).1.Mirrored)
    (free : ∀ kn, krouteFind kr route = some kn → kn.addr.af = .inet →
      route.localLabel ≠ mplsLabelReservedMax) : (krChange kr route).1.Swaps := by
  cases found : krouteFind kr route with
  | none =>
    rw [Ldpd.krChange, found]
    exact swaps
  | some kn =>
    have shape : ∃ action : RtmAction, action ≠ .delete ∧ ∃ more : List RtRequest,
        (∀ request ∈ more, request.about = none) ∧ (Ldpd.krChange kr route).1 =
          ((kr.changeNode route (KrouteNode.relabel route)).write
            (sendRtmsgMpls kr.fibSync action (kn.relabel route))).write more := by
      refine ⟨if kn.flags.ldpdInserted then .change else .add, by split <;> decide, _,
        about_sendRtmsgInet kr.fibSync .change (kn.relabel route) (kn.relabel route).labelled, ?_⟩
      rw [Ldpd.krChange, found]
      rfl
    obtain ⟨action, lasting, more, inert, shape⟩ := shape
    have out : labelOut action (kn.relabel route) = labelOut .change (kn.relabel route) := by
      simp [labelOut, lasting]
    have message (on : kr.fibSync = true) : sendRtmsgMpls kr.fibSync action (kn.relabel route) =
        if (kn.relabel route).installed = true then
          [.mpls action route.localLabel kn.nexthop kn.priority (labelOut .change (kn.relabel route))]
        else [] := by
      rw [sendRtmsgMpls_eq rfl (free kn found), out]
      exact if_congr (and_iff_right on) rfl rfl
    have there : kn.relabel route ∈ (Ldpd.krChange kr route).1.nodes route.net := by
      have spot := found
      rw [krouteFind_eq] at spot
      obtain ⟨front, back, -, replaced, -⟩ := nodes_of_findNode spot
      rw [shape, Kr.nodes]
      show _ ∈ Ldpd.nodes ((kr.changeNode route (KrouteNode.relabel route)).krt.getD route.net [])
      rw [Kr.getD_changeNode, if_pos rfl, replaced]
      exact List.mem_append_right _ List.mem_cons_self
    have tree : (Ldpd.krChange kr route).1.krt =
        (kr.changeNode route (KrouteNode.relabel route)).krt := by
      rw [shape]
      rfl
    have sync : (Ldpd.krChange kr route).1.fibSync = kr.fibSync := by
      rw [shape]
      rfl
    have sent : (Ldpd.krChange kr route).1.toKernel =
        kr.toKernel ++ (sendRtmsgMpls kr.fibSync action (kn.relabel route) ++ more) := by
      rw [shape, ← List.append_assoc]
      rfl
    refine swaps.step sent sync fun on net kn' among installed => ?_
    rw [message on]
    rcases mem_changeNode mirrored.proper found (KrouteNode.relabel route) tree among with
      ⟨-, rfl⟩ | ⟨old, different⟩
    · refine .inr fun known => ?_
      rw [if_pos installed, List.foldl_append,
        foldl_swap_other fun request member about => by cases (inert request member).symm.trans about]
      cases action with
      | delete => exact absurd rfl lasting
      | add | change => exact if_pos rfl
    · refine .inl ⟨kn', old, installed, rfl, rfl, fun request member about => ?_⟩
      rcases List.mem_append.mp member with member | member
      · split at member
        · rename_i installed'
          rw [List.mem_singleton.mp member] at about
          obtain ⟨rfl, rfl⟩ := mirrored'.entry_inj (sync.trans on) there among installed' installed
            (Option.some_injective _ about)
          exact different (List.inj_on_of_nodup_map (mirrored.proper route.net).nodup old
            (mem_of_krouteFind found) rfl)
        · cases member
      · cases (inert request member).symm.trans about

/-- `kroute_insert` of a route without labels. -/
theorem Kr.Swaps.krouteInsert (swaps : kr.Swaps) (mirrored : kr.Mirrored)
    (real : kn.priority ≠ rtpAny) (unmarked : kn.flags.ldpdInserted = false)
    (absent : krouteFind kr kn.toKroute = none) : (krouteInsert kr kn).Swaps := by
  rw [krouteFind_eq] at absent
  obtain ⟨proper, perm⟩ := (mirrored.proper kn.net).insertNode real rfl absent
  refine swaps.redistribute proper fun on kn' member installed => ?_
  rcases List.mem_cons.mp (perm.mem_iff.mp member) with rfl | old
  · exact absurd installed (Kr.Mirrored.not_installed unmarked)
  · exact ⟨kn', old, installed, rfl, rfl⟩

/-- A route is overwritten by one without labels. -/
theorem Kr.Swaps.overwrite (swaps : kr.Swaps) (mirrored : kr.Mirrored)
    (found : krouteFind kr route = some kn) {new : KrouteNode} (nexthop : new.nexthop = kn.nexthop)
    (placed : new.net = kn.net ∧ new.priority = kn.priority)
    (unmarked : new.flags.ldpdInserted = false) :
    (kr.redistribute route.net
      (replaceNode (kr.krt.getD route.net []) route fun _ => new)).Swaps := by
  rw [krouteFind_eq] at found
  obtain ⟨front, back, middle, replaced, -⟩ := nodes_of_findNode found
  refine swaps.redistribute ((mirrored.proper route.net).replaceNode found nexthop placed)
    fun on kn' member installed => ?_
  rw [replaced] at member
  rcases List.mem_cons.mp (List.perm_middle.mem_iff.mp member) with rfl | old
  · exact absurd installed (Kr.Mirrored.not_installed unmarked)
  · refine ⟨kn', ?_, installed, rfl, rfl⟩
    rw [Kr.nodes, middle]
    exact List.perm_middle.mem_iff.mpr (List.mem_cons_of_mem _ old)

/-- A routing message. -/
theorem Kr.Swaps.rtmsgProcessRoute (swaps : kr.Swaps) (mirrored : kr.Mirrored) {rtm : RtMsghdr}
    (known : rtm.priority ≠ rtpAny) : (rtmsgProcessRoute kr rtm).1.Swaps := by
  have first : (if rtm.type = .change then removeFirst kr rtm.kroute.toKroute else kr).Swaps ∧
      (if rtm.type = .change then removeFirst kr rtm.kroute.toKroute else kr).Mirrored := by
    split
    · rw [removeFirst]
      split
      · exact ⟨swaps, mirrored⟩
      · exact ⟨swaps.krouteRemove mirrored _, mirrored.krouteRemove _⟩
    · exact ⟨swaps, mirrored⟩
  rw [Ldpd.rtmsgProcessRoute]
  generalize (if rtm.type = .change then removeFirst kr rtm.kroute.toKroute else kr) = mid
    at first ⊢
  obtain ⟨swaps', mirrored'⟩ := first
  split
  · split
    · exact swaps'
    · exact swaps'.krouteRemove mirrored' _
  split
  · exact swaps'
  split
  · rename_i kn' found
    have spot := found
    rw [krouteFind_eq] at spot
    obtain ⟨member, priority, nexthop⟩ :=
      ((mirrored'.proper rtm.kroute.net).findNode_eq_some known).mp spot
    have net := (mirrored'.proper rtm.kroute.net).net_of_mem member
    exact swaps'.overwrite mirrored' found nexthop.symm ⟨net.symm, priority.symm⟩ rfl
  · rename_i absent
    exact swaps'.krouteInsert mirrored' known rfl absent

end Steps

end Ldpd
