/-
This file compares the label entries that the kernel has on behalf of the daemon with
the nodes that are marked with `F_LDPD_INSERTED`. The kernel carries out what it is asked
for. While the tables are coupled the two agree, and after `kr_fib_decouple` the kernel
has none, unless a routing message overwrites a marked node, a priority that is not the
first has marked nodes when the tables are coupled or decoupled, or the last reserved
label is used, which `send_rtmsg_v4` does not count as reserved.
-/

import Ldpd.Main.Nodes
import Ldpd.Library.Run

namespace Ldpd

/-! ### The kernel -/

/-- An entry of the kernel for a label. -/
structure MplsEntry where
  label : UInt32
  nexthop : LdpdAddr
  priority : UInt8
  deriving DecidableEq, Repr

/-- What the kernel makes of a message. A change of an entry that is missing is repeated as an
addition. -/
def RtRequest.apply (fib : Set MplsEntry) : RtRequest → Set MplsEntry
  | .mpls .delete label nexthop priority _ => fib \ {⟨label, nexthop, priority⟩}
  | .mpls _ label nexthop priority _ => insert ⟨label, nexthop, priority⟩ fib
  | .inet .. => fib

/-- The kernel can carry out a message. -/
def RtRequest.Accepted (fib : Set MplsEntry) : RtRequest → Prop
  | .mpls .add label nexthop priority _ => ⟨label, nexthop, priority⟩ ∉ fib
  | .mpls .delete label nexthop priority _ => ⟨label, nexthop, priority⟩ ∈ fib
  | _ => True

/-- The kernel has carried out all messages. -/
def Kr.Accepted (kr : Kr) : Prop :=
  Run.Allowed RtRequest.apply RtRequest.Accepted ∅ kr.toKernel

/-- The entries that were added and not deleted. -/
def Kr.fib (kr : Kr) : Set MplsEntry :=
  kr.toKernel.foldl RtRequest.apply ∅

/-! ### Nodes with entries -/

/-- The entry of a node. -/
def KrouteNode.entry (kn : KrouteNode) : MplsEntry :=
  ⟨kn.localLabel, kn.nexthop, kn.priority⟩

/-- An IPv4 route that is marked and has a label that is not reserved. -/
def KrouteNode.installed (kn : KrouteNode) : Bool :=
  kn.addr.af = .inet && kn.flags.ldpdInserted && mplsLabelReservedMax < kn.localLabel

/-- The entries of the nodes of a list. -/
def entries (list : List KrouteNode) : Set MplsEntry :=
  {entry | ∃ kn ∈ list, kn.installed = true ∧ kn.entry = entry}

/-- The entries of all nodes of the tree. -/
def Kr.installed (kr : Kr) : Set MplsEntry :=
  {entry | ∃ net, entry ∈ entries (kr.nodes net)}

/-! ### Steps -/

/-- What makes the process change its routes or their labels. -/
inductive KrInput where
  | change (kr : Kroute)
  | delete (kr : Kroute)
  | rtmsg (rtm : RtMsghdr)
  | couple
  | decouple
  | shutdown

/-- One handler. -/
def krStep (kr : Kr) : KrInput → Kr
  | .change route => (krChange kr route).1
  | .delete route => krDelete kr route
  | .rtmsg rtm => (rtmsgProcessRoute kr rtm).1
  | .couple => krFibCouple kr
  | .decouple => krFibDecouple kr
  | .shutdown => krShutdown kr

/-- All nodes with entries are of the lowest priority of their prefix. -/
def Kr.Foremost (kr : Kr) : Prop :=
  ∀ net, ∀ kn ∈ kr.nodes net, kn.installed = true → Lowest (kr.nodes net) kn

/-- No IPv4 node that is marked has the last reserved label. -/
def Kr.LastFree (kr : Kr) : Prop :=
  ∀ net, ∀ kn ∈ kr.nodes net, kn.addr.af = .inet → kn.flags.ldpdInserted = true →
    kn.localLabel ≠ mplsLabelReservedMax

/-- The local label of an installed route does not change, as the label decision engine guarantees.
While the tables are coupled, no IPv4 route gets the last reserved label, and a routing message
overwrites no node that has an entry; it always has the priority of a route. The tables are coupled and
decoupled while all nodes with entries are of the lowest priority, and coupled while no route has the
last reserved label. -/
def Mirrors (kr : Kr) : KrInput → Prop
  | .change route => ∀ kn, krouteFind kr route = some kn →
    (kn.flags.ldpdInserted = true → kn.localLabel = route.localLabel) ∧
      (kr.fibSync = true → kn.addr.af = .inet → route.localLabel ≠ mplsLabelReservedMax)
  | .delete _ => True
  | .rtmsg rtm => rtm.priority ≠ rtpAny ∧
    (kr.fibSync = true → ∀ kn, Overwrites kr rtm kn → kn.installed = false)
  | .couple => kr.fibSync = false → kr.Foremost ∧ kr.LastFree
  | .decouple | .shutdown => kr.fibSync = true → kr.Foremost

/-! ### Entries of lists -/

section Entries

variable {kn : KrouteNode} {front back : List KrouteNode}

theorem entries_cons (kn : KrouteNode) (rest : List KrouteNode) :
    entries (kn :: rest) = (if kn.installed then {kn.entry} else ∅) ∪ entries rest := by
  ext entry
  show (∃ other ∈ kn :: rest, _) ↔ _
  rw [List.exists_mem_cons_iff, Set.mem_union]
  refine or_congr ?_ Iff.rfl
  split
  · rename_i installed
    exact (and_iff_right installed).trans (eq_comm.trans Set.mem_singleton_iff.symm)
  · rename_i missing
    exact iff_of_false (fun both => missing both.1) (Set.notMem_empty entry)

theorem entries_perm {list list' : List KrouteNode} (perm : list.Perm list') :
    entries list = entries list' := by
  ext entry
  exact exists_congr fun kn => and_congr_left fun _ => perm.mem_iff

theorem entries_middle (kn : KrouteNode) (front back : List KrouteNode) :
    entries (front ++ kn :: back) =
      (if kn.installed then {kn.entry} else ∅) ∪ entries (front ++ back) := by
  rw [entries_perm List.perm_middle, entries_cons]

theorem entries_settle (list nodes : List KrouteNode) :
    entries (list.map (KrouteNode.settle nodes)) = entries list := by
  ext entry
  constructor
  · rintro ⟨kn', member, installed, same⟩
    obtain ⟨kn, member', rfl⟩ := List.mem_map.mp member
    exact ⟨kn, member', installed, same⟩
  · rintro ⟨kn, member, installed, same⟩
    exact ⟨kn.settle nodes, List.mem_map_of_mem member, installed, same⟩

/-- The entry of a node is not the entry of another node of the prefix. -/
theorem entry_notMem {net : KroutePrefix} {kprios : List KroutePriority} (proper : Proper net kprios)
    (middle : nodes kprios = front ++ kn :: back) : kn.entry ∉ entries (front ++ back) := by
  rintro ⟨other, among, -, same⟩
  refine proper.fresh middle (List.mem_map.mpr ⟨other, among, ?_⟩)
  exact Prod.ext (congrArg MplsEntry.priority same) (congrArg MplsEntry.nexthop same)

end Entries

/-! ### The mirror -/

/-- The entries of all prefixes but one. -/
def Kr.elsewhere (kr : Kr) (net : KroutePrefix) : Set MplsEntry :=
  {entry | ∃ other, other ≠ net ∧ entry ∈ entries (kr.nodes other)}

/-- The kernel has the entries of the nodes, and no two nodes have the same, while the tables are
coupled. It has none while they are not. -/
structure Kr.Mirrored (kr : Kr) : Prop where
  proper : ∀ net, Proper net (kr.krt.getD net [])
  labels : kr.fibSync = true → kr.LastFree
  coupled : kr.fibSync = true → kr.fib = kr.installed ∧
    ∀ net, Disjoint (entries (kr.nodes net)) (kr.elsewhere net)
  decoupled : kr.fibSync = false → kr.fib = ∅

section Mirror

variable {kr kr' : Kr} {net : KroutePrefix} {entry : MplsEntry}

theorem Kr.installed_eq (kr : Kr) (net : KroutePrefix) :
    kr.installed = entries (kr.nodes net) ∪ kr.elsewhere net := by
  ext entry
  constructor
  · rintro ⟨other, member⟩
    by_cases same : other = net
    · exact .inl (same ▸ member)
    · exact .inr ⟨other, same, member⟩
  · rintro (member | ⟨other, -, member⟩)
    · exact ⟨net, member⟩
    · exact ⟨other, member⟩

theorem elsewhere_congr (others : ∀ other, other ≠ net → kr'.nodes other = kr.nodes other) :
    kr'.elsewhere net = kr.elsewhere net := by
  ext entry
  refine exists_congr fun other => and_congr_right fun different => ?_
  rw [others other different]

/-- The entries of one prefix change, and are still in no other prefix. -/
theorem disjoint_of_change (others : ∀ other, other ≠ net → kr'.nodes other = kr.nodes other)
    (apart : ∀ net, Disjoint (entries (kr.nodes net)) (kr.elsewhere net))
    (here : Disjoint (entries (kr'.nodes net)) (kr.elsewhere net)) (other : KroutePrefix) :
    Disjoint (entries (kr'.nodes other)) (kr'.elsewhere other) := by
  by_cases same : other = net
  · rw [same, elsewhere_congr others]
    exact here
  · rw [others other same]
    refine Set.disjoint_left.mpr fun entry member elsewhere => ?_
    obtain ⟨third, different, member'⟩ := elsewhere
    by_cases same' : third = net
    · exact Set.disjoint_left.mp here (same' ▸ member') ⟨other, same, member⟩
    · rw [others third same'] at member'
      exact Set.disjoint_left.mp (apart other) member ⟨third, different, member'⟩

/-- The nodes of one prefix change. The kernel follows. -/
theorem Kr.Mirrored.change (mirrored : kr.Mirrored) (sync : kr'.fibSync = kr.fibSync)
    (proper : Proper net (kr'.krt.getD net []))
    (others : ∀ other, other ≠ net → kr'.krt.getD other [] = kr.krt.getD other [])
    (labels : kr.fibSync = true → ∀ kn ∈ kr'.nodes net, kn.addr.af = .inet →
      kn.flags.ldpdInserted = true → kn.localLabel ≠ mplsLabelReservedMax)
    (follows : kr.fibSync = true →
      entries (kr'.nodes net) = entries (kr.nodes net) ∧ kr'.fib = kr.fib ∨
      (∃ entry, entry ∉ kr.fib ∧ entries (kr'.nodes net) = insert entry (entries (kr.nodes net)) ∧
        kr'.fib = insert entry kr.fib) ∨
      ∃ entry ∈ entries (kr.nodes net), entries (kr'.nodes net) = entries (kr.nodes net) \ {entry} ∧
        kr'.fib = kr.fib \ {entry})
    (quiet : kr.fibSync = false → kr'.fib = kr.fib) : kr'.Mirrored := by
  have others' (other : KroutePrefix) (different : other ≠ net) : kr'.nodes other = kr.nodes other :=
    congrArg Ldpd.nodes (others other different)
  refine ⟨fun other => ?_, fun on other => ?_, fun on => ?_, fun off => ?_⟩
  · by_cases same : other = net
    · exact same ▸ proper
    · rw [others other same]
      exact mirrored.proper other
  · rw [sync] at on
    by_cases same : other = net
    · exact same ▸ labels on
    · rw [others' other same]
      exact mirrored.labels on other
  · rw [sync] at on
    obtain ⟨fib, apart⟩ := mirrored.coupled on
    have here := apart net
    rw [kr'.installed_eq net, elsewhere_congr others']
    rw [kr.installed_eq net] at fib
    obtain ⟨same, kept⟩ | ⟨entry, new, added, written⟩ | ⟨entry, known, removed, written⟩ := follows on
    · refine ⟨by rw [kept, fib, same], disjoint_of_change others' apart ?_⟩
      rw [same]
      exact here
    · refine ⟨by rw [written, fib, added, Set.insert_union], disjoint_of_change others' apart ?_⟩
      rw [added, Set.disjoint_insert_left]
      exact ⟨fun elsewhere => new (fib ▸ .inr elsewhere), here⟩
    · have absent : entry ∉ kr.elsewhere net := Set.disjoint_left.mp here known
      refine ⟨?_, disjoint_of_change others' apart ?_⟩
      · rw [written, fib, removed, Set.union_sdiff_distrib, Set.sdiff_singleton_eq_self absent]
      · rw [removed]
        exact here.mono_left Set.sdiff_subset
  · rw [sync] at off
    rw [quiet off]
    exact mirrored.decoupled off

end Mirror

/-! ### Messages -/

section Messages

variable {fib : Set MplsEntry} {kn : KrouteNode} {fibSync : Bool} {action : RtmAction}

theorem Kr.fib_write (kr : Kr) (requests : List RtRequest) :
    (kr.write requests).fib = requests.foldl RtRequest.apply kr.fib :=
  List.foldl_append ..

/-- Messages about routes do not matter for the entries of labels. -/
theorem foldl_sendRtmsgInet (test : Bool) (fib : Set MplsEntry) :
    (if test then sendRtmsgInet fibSync action kn else []).foldl RtRequest.apply fib = fib := by
  split
  · rw [sendRtmsgInet]
    split <;> rfl
  · rfl

/-- A message about the label of a node that is marked. -/
theorem sendRtmsgMpls_eq (marked : kn.flags.ldpdInserted = true)
    (label : kn.addr.af = .inet → kn.localLabel ≠ mplsLabelReservedMax) :
    sendRtmsgMpls fibSync action kn = if fibSync = true ∧ kn.installed = true then
      [.mpls action kn.localLabel kn.nexthop kn.priority (labelOut action kn)] else [] := by
  have installed : kn.installed = true ↔ kn.addr.af = .inet ∧ ¬kn.localLabel < mplsLabelReservedMax := by
    rw [KrouteNode.installed, marked, Bool.and_true, Bool.and_eq_true, decide_eq_true_eq, decide_eq_true_eq]
    refine and_congr_right fun family => ⟨fun less => UInt32.lt_asymm less, fun most => ?_⟩
    exact UInt32.lt_of_le_of_ne (UInt32.not_lt.mp most) (label family).symm
  rw [sendRtmsgMpls]
  by_cases sends : fibSync = true ∧ kn.installed = true
  · obtain ⟨family, most⟩ := installed.mp sends.2
    rw [if_pos sends, if_neg]
    rintro (six | off | less)
    · cases family.symm.trans six
    · cases sends.1.symm.trans off
    · exact most less
  · rw [if_neg sends, if_pos]
    by_contra other
    rw [not_or, not_or] at other
    refine sends ⟨(Bool.not_eq_false _).mp other.2.1, installed.mpr ⟨?_, other.2.2⟩⟩
    cases family : kn.addr.af with
    | inet => rfl
    | inet6 => exact absurd family other.1

end Messages

/-! ### Operations -/

namespace Kr.Mirrored

variable {kr : Kr} {route : Kroute} {kn : KrouteNode}

section Deleted

variable {net : KroutePrefix} {front back : List KrouteNode} {fib' : Set MplsEntry}

/-- The entry of one node is deleted, if it has one. -/
theorem follows_delete (mirrored : kr.Mirrored) (middle : kr.nodes net = front ++ kn :: back)
    (written : fib' = (krouteUninstall kr.fibSync kn).foldl RtRequest.apply kr.fib)
    (on : kr.fibSync = true) :
    entries (front ++ back) = entries (kr.nodes net) ∧ fib' = kr.fib ∨
      ∃ entry ∈ entries (kr.nodes net),
        entries (front ++ back) = entries (kr.nodes net) \ {entry} ∧ fib' = kr.fib \ {entry} := by
  have member : kn ∈ kr.nodes net := by simp [middle]
  have absent : kn.entry ∉ entries (front ++ back) := entry_notMem (mirrored.proper net) middle
  rw [krouteUninstall] at written
  rw [middle, entries_middle]
  split at written
  · rename_i marked
    rw [sendRtmsgMpls_eq marked fun family => mirrored.labels on net kn member family marked, on] at written
    by_cases installed : kn.installed = true
    · rw [if_pos ⟨rfl, installed⟩] at written
      rw [if_pos installed]
      refine .inr ⟨kn.entry, .inl rfl, ?_, written⟩
      rw [Set.union_sdiff_cancel_left]
      exact Set.disjoint_iff.mp (Set.disjoint_singleton_left.mpr absent)
    · rw [if_neg fun both => installed both.2] at written
      rw [if_neg installed, Set.empty_union]
      exact .inl ⟨rfl, written⟩
  · rename_i unmarked
    have missing : ¬kn.installed = true := by
      rw [KrouteNode.installed, Bool.eq_false_iff.mpr unmarked, Bool.and_false, Bool.false_and]
      exact Bool.false_ne_true
    rw [if_neg missing, Set.empty_union]
    exact .inl ⟨rfl, written⟩

theorem quiet_delete (written : fib' = (krouteUninstall kr.fibSync kn).foldl RtRequest.apply kr.fib)
    (off : kr.fibSync = false) : fib' = kr.fib := by
  have silent : sendRtmsgMpls kr.fibSync .delete kn = [] := if_pos (.inr (.inl off))
  rw [krouteUninstall] at written
  split at written
  · rw [silent] at written
    exact written
  · exact written

end Deleted

theorem krouteRemove_fibSync (kr : Kr) (route : Kroute) :
    (Ldpd.krouteRemove kr route).fibSync = kr.fibSync := by
  rw [Ldpd.krouteRemove]
  split
  · rfl
  · dsimp only
    split <;> rfl

/-- A node is taken out, and its entry is deleted. -/
theorem krouteRemove (mirrored : kr.Mirrored) (route : Kroute) : (krouteRemove kr route).Mirrored := by
  cases found : krouteFind kr route with
  | none =>
    rw [Ldpd.krouteRemove, found]
    exact mirrored
  | some kn =>
    have tree := getD_krouteRemove found
    have spot := found
    rw [krouteFind_eq] at spot
    obtain ⟨front, back, middle, -, after⟩ := nodes_of_findNode spot
    have erased := (mirrored.proper route.net).eraseNode spot
    have here := tree route.net
    rw [if_pos rfl] at here
    have left : (Ldpd.krouteRemove kr route).nodes route.net =
        (front ++ back).map (KrouteNode.settle (front ++ back)) := by
      rw [Kr.nodes, here, nodes_krRedistribute erased, after]
    have middle' : kr.nodes route.net = front ++ kn :: back := middle
    have written : (Ldpd.krouteRemove kr route).fib =
        (krouteUninstall kr.fibSync kn).foldl RtRequest.apply kr.fib := by
      rw [Ldpd.krouteRemove, found]
      dsimp only
      split <;> exact List.foldl_append ..
    refine mirrored.change (krouteRemove_fibSync kr route) (here ▸ erased.krRedistribute) (fun other different => ?_)
      (fun on other member family marked => ?_) (fun on => ?_) fun off => ?_
    · rw [tree, if_neg (Ne.symm different)]
    · rw [left] at member
      obtain ⟨old, among, rfl⟩ := List.mem_map.mp member
      refine mirrored.labels on route.net old ?_ family marked
      rw [middle']
      exact List.mem_append.mpr ((List.mem_append.mp among).imp_right (List.mem_cons_of_mem _))
    · rw [left, entries_settle]
      exact (mirrored.follows_delete middle' written on).imp_right .inr
    · exact quiet_delete written off

section Changed

variable {change : KrouteNode → KrouteNode} {front back : List KrouteNode}

/-- A node changes in its place, and keeps its nexthop and its priority. -/
theorem changeNode (mirrored : kr.Mirrored) (found : krouteFind kr route = some kn)
    (nexthop : (change kn).nexthop = kn.nexthop)
    (placed : (change kn).net = kn.net ∧ (change kn).priority = kn.priority)
    (label : kr.fibSync = true → (change kn).addr.af = .inet →
      (change kn).flags.ldpdInserted = true → (change kn).localLabel ≠ mplsLabelReservedMax)
    {kr' : Kr} (tree : kr'.krt = (kr.changeNode route change).krt) (sync : kr'.fibSync = kr.fibSync)
    (follows : ∀ front back, kr.nodes route.net = front ++ kn :: back → kr.fibSync = true →
      entries (front ++ change kn :: back) = entries (kr.nodes route.net) ∧ kr'.fib = kr.fib ∨
      (∃ entry, entry ∉ kr.fib ∧
        entries (front ++ change kn :: back) = insert entry (entries (kr.nodes route.net)) ∧
          kr'.fib = insert entry kr.fib) ∨
      ∃ entry ∈ entries (kr.nodes route.net),
        entries (front ++ change kn :: back) = entries (kr.nodes route.net) \ {entry} ∧
          kr'.fib = kr.fib \ {entry})
    (quiet : kr.fibSync = false → kr'.fib = kr.fib) : kr'.Mirrored := by
  rw [krouteFind_eq] at found
  obtain ⟨front, back, middle, replaced, -⟩ := nodes_of_findNode found
  have middle' : kr.nodes route.net = front ++ kn :: back := middle
  have here : kr'.krt.getD route.net [] = Ldpd.replaceNode (kr.krt.getD route.net []) route change := by
    rw [tree, Kr.getD_changeNode, if_pos rfl]
  have left : kr'.nodes route.net = front ++ change kn :: back := by
    rw [Kr.nodes, here, replaced]
  refine mirrored.change sync ?_ (fun other different => ?_) (fun on other member family marked => ?_)
    (fun on => left ▸ follows front back middle' on) quiet
  · rw [here]
    exact (mirrored.proper route.net).replaceNode found nexthop placed
  · rw [tree, Kr.getD_changeNode, if_neg (Ne.symm different)]
  · rw [left, List.mem_append, List.mem_cons] at member
    obtain early | rfl | late := member
    · exact mirrored.labels on route.net other (middle' ▸ List.mem_append_left _ early) family marked
    · exact label on family marked
    · exact mirrored.labels on route.net other
        (middle' ▸ List.mem_append_right _ (List.mem_cons_of_mem _ late)) family marked

end Changed

theorem not_installed (unmarked : kn.flags.ldpdInserted = false) : ¬kn.installed = true := by
  rw [KrouteNode.installed, unmarked, Bool.and_false, Bool.false_and]
  exact Bool.false_ne_true

/-- A node is marked and gets its labels. -/
theorem krChange (mirrored : kr.Mirrored)
    (legal : ∀ kn, krouteFind kr route = some kn →
      (kn.flags.ldpdInserted = true → kn.localLabel = route.localLabel) ∧
        (kr.fibSync = true → kn.addr.af = .inet → route.localLabel ≠ mplsLabelReservedMax))
    (accepted : (krChange kr route).1.Accepted) : (krChange kr route).1.Mirrored := by
  cases found : krouteFind kr route with
  | none =>
    rw [Ldpd.krChange, found]
    exact mirrored
  | some kn =>
    obtain ⟨fixed, free⟩ := legal kn found
    have sent (action : RtmAction) : sendRtmsgMpls kr.fibSync action (kn.relabel route) =
        if kr.fibSync = true ∧ (kn.relabel route).installed = true then
          [.mpls action route.localLabel kn.nexthop kn.priority (labelOut action (kn.relabel route))]
        else [] := by
      cases sync : kr.fibSync with
      | true => exact sendRtmsgMpls_eq rfl (free sync)
      | false =>
        rw [if_neg fun both => Bool.false_ne_true both.1]
        exact if_pos (.inr (.inl rfl))
    have result : ∃ more, (∀ fib, more.foldl RtRequest.apply fib = fib) ∧ (Ldpd.krChange kr route).1 =
        ((kr.changeNode route (KrouteNode.relabel route)).write (sendRtmsgMpls kr.fibSync
          (if kn.flags.ldpdInserted then .change else .add) (kn.relabel route))).write more := by
      rw [Ldpd.krChange, found]
      exact ⟨_, foldl_sendRtmsgInet _, rfl⟩
    obtain ⟨more, inert, result⟩ := result
    rw [result] at accepted ⊢
    have written : (((kr.changeNode route (KrouteNode.relabel route)).write (sendRtmsgMpls kr.fibSync
        (if kn.flags.ldpdInserted then .change else .add) (kn.relabel route))).write more).fib =
          (sendRtmsgMpls kr.fibSync (if kn.flags.ldpdInserted then .change else .add)
            (kn.relabel route)).foldl RtRequest.apply kr.fib := by
      rw [Kr.fib_write, inert]
      exact Kr.fib_write ..
    have allowed := (Run.allowed_append.mp (Run.allowed_append.mp accepted).1).2
    refine mirrored.changeNode found rfl ⟨rfl, rfl⟩ (fun on family _ => free on family) rfl rfl
      (fun front back middle on => ?_) fun off => ?_
    · rw [written]
      -- A node that is marked already keeps its label, and so its entry.
      have same (marked : kn.flags.ldpdInserted = true) :
          kn.installed = (kn.relabel route).installed ∧ kn.entry = (kn.relabel route).entry := by
        rw [KrouteNode.installed, KrouteNode.entry, marked, fixed marked]
        exact ⟨rfl, rfl⟩
      by_cases installed : (kn.relabel route).installed = true
      · rw [sent, if_pos ⟨on, installed⟩] at allowed ⊢
        cases marked : kn.flags.ldpdInserted with
        | true =>
          obtain ⟨same, equal⟩ := same marked
          have member : kn ∈ kr.nodes route.net := by simp [middle]
          have known : (kn.relabel route).entry ∈ kr.fib := by
            rw [(mirrored.coupled on).1]
            exact ⟨route.net, kn, member, same.trans installed, equal⟩
          refine .inl ⟨?_, Set.insert_eq_of_mem known⟩
          rw [middle, entries_middle, entries_middle, same, equal]
        | false =>
          rw [marked] at allowed
          refine .inr (.inl ⟨(kn.relabel route).entry, allowed.1, ?_, rfl⟩)
          rw [middle, entries_middle, entries_middle, if_pos installed, if_neg (not_installed marked),
            Set.empty_union]
          rfl
      · rw [sent, if_neg fun both => installed both.2]
        refine .inl ⟨?_, rfl⟩
        have missing : ¬kn.installed = true := by
          cases marked : kn.flags.ldpdInserted with
          | true => exact (same marked).1 ▸ installed
          | false => exact not_installed marked
        rw [middle, entries_middle, entries_middle, if_neg installed, if_neg missing]
    · rw [written, sent, if_neg fun both => Bool.false_ne_true (off.symm.trans both.1)]
      rfl

/-- A node loses its mark and its labels. -/
theorem krDelete (mirrored : kr.Mirrored) (route : Kroute) : (krDelete kr route).Mirrored := by
  rw [Ldpd.krDelete]
  cases found : krouteFind kr route with
  | none => exact mirrored
  | some kn =>
    dsimp only
    split
    case isFalse => exact mirrored
    rename_i marked
    have written : ((((kr.write (sendRtmsgMpls kr.fibSync .delete kn)).changeNode route
        KrouteNode.unlabel).write (if kn.labelled then sendRtmsgInet kr.fibSync .change kn.unlabel
          else [])).fib) = (krouteUninstall kr.fibSync kn).foldl RtRequest.apply kr.fib := by
      rw [Kr.fib_write, foldl_sendRtmsgInet, krouteUninstall, if_pos marked]
      exact Kr.fib_write ..
    refine mirrored.changeNode found rfl ⟨rfl, rfl⟩ (fun _ _ marked' => ?_) rfl rfl
      (fun front back middle on => ?_) fun off => ?_
    · cases marked'
    · rw [entries_middle, if_neg (not_installed rfl), Set.empty_union]
      exact (mirrored.follows_delete middle written on).imp_right .inr
    · exact quiet_delete written off

/-- The routes of one prefix are redistributed. Their entries stay. -/
theorem redistribute (mirrored : kr.Mirrored) {net : KroutePrefix} {kprios : List KroutePriority}
    (proper : Proper net kprios)
    (labels : kr.fibSync = true → ∀ kn ∈ Ldpd.nodes kprios, kn.addr.af = .inet →
      kn.flags.ldpdInserted = true → kn.localLabel ≠ mplsLabelReservedMax)
    (same : kr.fibSync = true → entries (Ldpd.nodes kprios) = entries (kr.nodes net)) :
    (kr.redistribute net kprios).Mirrored := by
  have tree := kr.getD_redistribute net
  have here : (kr.redistribute net kprios).nodes net =
      (Ldpd.nodes kprios).map (KrouteNode.settle (Ldpd.nodes kprios)) := by
    rw [Kr.nodes, tree, if_pos rfl, nodes_krRedistribute proper]
  have proper' : Proper net ((kr.redistribute net kprios).krt.getD net []) := by
    rw [tree, if_pos rfl]
    exact proper.krRedistribute
  refine mirrored.change rfl proper' (fun other different => ?_) (fun on kn member family marked => ?_)
    (fun on => .inl ⟨?_, rfl⟩) fun _ => rfl
  · rw [tree, if_neg (Ne.symm different)]
  · rw [here] at member
    obtain ⟨old, among, rfl⟩ := List.mem_map.mp member
    exact labels on old among family marked
  · rw [here, entries_settle]
    exact same on

/-- A route is inserted that has no labels yet. -/
theorem krouteInsert (mirrored : kr.Mirrored) (some : kn.priority ≠ rtpAny)
    (unmarked : kn.flags.ldpdInserted = false) (absent : krouteFind kr kn.toKroute = none) :
    (krouteInsert kr kn).Mirrored := by
  rw [krouteFind_eq] at absent
  obtain ⟨proper, perm⟩ := (mirrored.proper kn.net).insertNode some rfl absent
  refine mirrored.redistribute proper (fun on other member family marked => ?_) fun _ => ?_
  · obtain rfl | old := List.mem_cons.mp (perm.mem_iff.mp member)
    · cases unmarked.symm.trans marked
    · exact mirrored.labels on kn.net other old family marked
  · rw [entries_perm perm, entries_cons, if_neg (not_installed unmarked), Set.empty_union]
    rfl

/-- A node without an entry is overwritten. -/
theorem overwrite (mirrored : kr.Mirrored) (found : krouteFind kr route = some kn) {new : KrouteNode}
    (nexthop : new.nexthop = kn.nexthop) (placed : new.net = kn.net ∧ new.priority = kn.priority)
    (unmarked : new.flags.ldpdInserted = false)
    (missing : kr.fibSync = true → kn.installed = false) :
    (kr.redistribute route.net
      (replaceNode (kr.krt.getD route.net []) route fun _ => new)).Mirrored := by
  rw [krouteFind_eq] at found
  obtain ⟨front, back, middle, replaced, -⟩ := nodes_of_findNode found
  have middle' : kr.nodes route.net = front ++ kn :: back := middle
  refine mirrored.redistribute ((mirrored.proper route.net).replaceNode found nexthop placed)
    (fun on other member family marked => ?_) fun on => ?_
  · rw [replaced, List.mem_append, List.mem_cons] at member
    obtain early | rfl | late := member
    · exact mirrored.labels on route.net other (middle' ▸ List.mem_append_left _ early) family marked
    · cases unmarked.symm.trans marked
    · exact mirrored.labels on route.net other
        (middle' ▸ List.mem_append_right _ (List.mem_cons_of_mem _ late)) family marked
  · rw [replaced, middle', entries_middle, entries_middle, if_neg (not_installed unmarked),
      if_neg (Bool.eq_false_iff.mp (missing on))]

/-- A routing message. -/
theorem rtmsgProcessRoute (mirrored : kr.Mirrored) {rtm : RtMsghdr} (known : rtm.priority ≠ rtpAny)
    (keeps : kr.fibSync = true → ∀ kn, Overwrites kr rtm kn → kn.installed = false) :
    (rtmsgProcessRoute kr rtm).1.Mirrored := by
  rw [Ldpd.rtmsgProcessRoute]
  generalize removed : (if rtm.type = .change then removeFirst kr rtm.kroute.toKroute else kr) = kr'
  have mirrored' : kr'.Mirrored := by
    rw [← removed]
    split
    · rw [removeFirst]
      split
      · exact mirrored
      · exact mirrored.krouteRemove _
    · exact mirrored
  have sync : kr'.fibSync = kr.fibSync := by
    rw [← removed]
    split
    · rw [removeFirst]
      split
      · rfl
      · exact krouteRemove_fibSync ..
    · rfl
  split
  · split
    · exact mirrored'
    · exact mirrored'.krouteRemove _
  rename_i updates
  split
  · exact mirrored'
  rename_i usable
  have usable' : ldpAddrisset rtm.nexthop = true ∨ rtm.kroute.flags.connected = true := by
    rw [Bool.and_eq_true, not_and_or, Bool.not_eq_true', Bool.not_eq_true', Bool.not_eq_false,
      Bool.not_eq_false] at usable
    exact usable
  split
  · rename_i kn' found
    obtain ⟨kn, overwrites, ⟨redistributed, same⟩, -⟩ :=
      overwrites_of_find mirrored.proper known updates usable' (removed ▸ found)
    have spot := found
    rw [krouteFind_eq] at spot
    obtain ⟨member, priority, nexthop⟩ :=
      ((mirrored'.proper rtm.kroute.net).findNode_eq_some known).mp spot
    have net := (mirrored'.proper rtm.kroute.net).net_of_mem member
    refine mirrored'.overwrite found nexthop.symm ⟨net.symm, priority.symm⟩ rfl fun on => ?_
    have missing := keeps (sync.symm.trans on) kn overwrites
    rw [same]
    exact missing
  · rename_i absent
    exact mirrored'.krouteInsert known rfl absent

end Kr.Mirrored

/-! ### Coupling -/

section Coupling

variable {kr : Kr} {list : List KrouteNode} {fib : Set MplsEntry}

/-- Nodes that are marked, and none with the last reserved label. -/
def Marked (list : List KrouteNode) : Prop :=
  ∀ kn ∈ list, kn.flags.ldpdInserted = true ∧
    (kn.addr.af = .inet → kn.localLabel ≠ mplsLabelReservedMax)

/-- The entries of a list are deleted. -/
theorem foldl_delete (marked : Marked list) (labelOff : KrouteNode → KrouteNode) (fib : Set MplsEntry) :
    (list.flatMap fun kn => sendRtmsgMpls true .delete kn ++
      if kn.labelled then sendRtmsgInet true .change (labelOff kn) else []).foldl RtRequest.apply fib =
        fib \ entries list := by
  induction list generalizing fib with
  | nil =>
    have none : entries [] = ∅ := Set.eq_empty_of_forall_notMem fun entry among => by
      obtain ⟨kn, member, -⟩ := among
      cases member
    rw [none, Set.sdiff_empty]
    rfl
  | cons kn rest inductionHypothesis =>
    obtain ⟨here, later⟩ := List.forall_mem_cons.mp marked
    rw [List.flatMap_cons, List.foldl_append, List.foldl_append, foldl_sendRtmsgInet,
      inductionHypothesis later, entries_cons, ← Set.sdiff_sdiff, sendRtmsgMpls_eq here.1 here.2]
    congr 1
    by_cases installed : kn.installed = true
    · rw [if_pos ⟨rfl, installed⟩, if_pos installed]
      rfl
    · rw [if_neg fun both => installed both.2, if_neg installed]
      exact Set.sdiff_empty.symm

/-- The entries of a list are added. The kernel has had none of them, and no two are the same. -/
theorem foldl_add (marked : Marked list)
    (accepted : Run.Allowed RtRequest.apply RtRequest.Accepted fib (list.flatMap fun kn =>
      sendRtmsgMpls true .add kn ++ if kn.labelled then sendRtmsgInet true .change kn else [])) :
    (list.flatMap fun kn => sendRtmsgMpls true .add kn ++
      if kn.labelled then sendRtmsgInet true .change kn else []).foldl RtRequest.apply fib =
        fib ∪ entries list ∧ Disjoint fib (entries list) ∧
          ((list.filter KrouteNode.installed).map KrouteNode.entry).Nodup := by
  induction list generalizing fib with
  | nil =>
    have none : entries [] = ∅ := Set.eq_empty_of_forall_notMem fun entry among => by
      obtain ⟨kn, member, -⟩ := among
      cases member
    rw [none, Set.union_empty]
    exact ⟨rfl, Set.disjoint_empty fib, List.nodup_nil⟩
  | cons kn rest inductionHypothesis =>
    obtain ⟨here, later⟩ := List.forall_mem_cons.mp marked
    rw [List.flatMap_cons] at accepted
    obtain ⟨first, others⟩ := Run.allowed_append.mp accepted
    obtain ⟨first, -⟩ := Run.allowed_append.mp first
    rw [List.foldl_append, foldl_sendRtmsgInet] at others
    rw [List.flatMap_cons, List.foldl_append, List.foldl_append, foldl_sendRtmsgInet, entries_cons]
    rw [sendRtmsgMpls_eq here.1 here.2] at first others ⊢
    by_cases installed : kn.installed = true
    · rw [if_pos ⟨rfl, installed⟩] at first others ⊢
      obtain ⟨added, apart, nodup⟩ := inductionHypothesis later others
      have added' : (insert kn.entry fib : Set MplsEntry) ∪ entries rest = _ := added.symm
      have apart' : Disjoint (insert kn.entry fib) (entries rest) := apart
      rw [Set.disjoint_insert_left] at apart'
      rw [if_pos installed]
      refine ⟨?_, ?_, ?_⟩
      · rw [← added', Set.insert_union, Set.singleton_union, Set.union_insert]
      · rw [Set.singleton_union, Set.disjoint_insert_right]
        exact ⟨first.1, apart'.2⟩
      · rw [List.filter_cons_of_pos installed, List.map_cons, List.nodup_cons]
        refine ⟨fun known => apart'.1 ?_, nodup⟩
        obtain ⟨other, member, same⟩ := List.mem_map.mp known
        exact ⟨other, List.mem_of_mem_filter member, List.of_mem_filter member, same⟩
    · rw [if_neg fun both => installed both.2] at others ⊢
      rw [if_neg installed, Set.empty_union, List.filter_cons_of_neg installed]
      exact inductionHypothesis later others

/-- The nodes of the first priority of a prefix that are marked. -/
def firstMarked (kprios : List KroutePriority) : List KrouteNode :=
  match kprios with
  | [] => []
  | kprio :: _ => kprio.nexthops.filter fun kn => kn.flags.ldpdInserted

theorem firstInserted_eq (kr : Kr) :
    kr.firstInserted = kr.krt.toList.flatMap fun entry => firstMarked entry.2 := rfl

theorem mem_firstMarked {kprios : List KroutePriority} {kn : KrouteNode}
    (member : kn ∈ firstMarked kprios) : kn ∈ nodes kprios ∧ kn.flags.ldpdInserted = true := by
  cases kprios with
  | nil => cases member
  | cons kprio rest =>
    obtain ⟨inFirst, marked⟩ := List.mem_filter.mp member
    exact ⟨mem_nodes.mpr ⟨kprio, List.mem_cons_self, inFirst⟩, marked⟩

/-- Nodes of the lowest priority are in the first list. -/
theorem firstMarked_of_lowest {net : KroutePrefix} {kprios : List KroutePriority}
    (proper : Proper net kprios) {kn : KrouteNode} (member : kn ∈ nodes kprios)
    (marked : kn.flags.ldpdInserted = true) (lowest : Lowest (nodes kprios) kn) :
    kn ∈ firstMarked kprios := by
  obtain ⟨kprio, among, inKprio⟩ := mem_nodes.mp member
  cases kprios with
  | nil => cases among
  | cons first rest =>
    obtain rfl | below := List.mem_cons.mp among
    · exact List.mem_filter.mpr ⟨inKprio, marked⟩
    · exact absurd lowest (proper.lowest_iff.2 kprio below kn inKprio)

theorem mem_toList (kr : Kr) {net : KroutePrefix} {kn : KrouteNode}
    (member : kn ∈ nodes (kr.krt.getD net [])) : (net, kr.krt.getD net []) ∈ kr.krt.toList := by
  rw [Std.ExtTreeMap.mem_toList_iff_getElem?_eq_some]
  rw [Std.ExtTreeMap.getD_eq_getD_getElem?] at member ⊢
  cases present : kr.krt[net]? with
  | none =>
    rw [present] at member
    cases member
  | some kprios => rfl

namespace Kr.Mirrored

theorem getD_of_mem (kr : Kr) {entry : KroutePrefix × List KroutePriority}
    (member : entry ∈ kr.krt.toList) : kr.krt.getD entry.1 [] = entry.2 := by
  have present : kr.krt[entry.1]? = some entry.2 :=
    Std.ExtTreeMap.mem_toList_iff_getElem?_eq_some.mp member
  rw [Std.ExtTreeMap.getD_eq_getD_getElem?, present]
  rfl

theorem marked_firstInserted (free : kr.LastFree) : Marked kr.firstInserted := by
  intro kn member
  obtain ⟨entry, among, first⟩ := List.mem_flatMap.mp (firstInserted_eq kr ▸ member)
  obtain ⟨inNodes, marked⟩ := mem_firstMarked first
  refine ⟨marked, fun family => free entry.1 kn ?_ family marked⟩
  rw [Kr.nodes, getD_of_mem kr among]
  exact inNodes

/-- The list has all nodes with entries. -/
theorem entries_firstInserted (mirrored : kr.Mirrored) (foremost : kr.Foremost) :
    entries kr.firstInserted = kr.installed := by
  rw [firstInserted_eq]
  ext entry
  constructor
  · rintro ⟨kn, member, installed, same⟩
    obtain ⟨pair, among, first⟩ := List.mem_flatMap.mp member
    refine ⟨pair.1, kn, ?_, installed, same⟩
    rw [Kr.nodes, getD_of_mem kr among]
    exact (mem_firstMarked first).1
  · rintro ⟨net, kn, member, installed, same⟩
    have marked : kn.flags.ldpdInserted = true := by
      cases marked : kn.flags.ldpdInserted with
      | true => rfl
      | false => exact absurd installed (not_installed marked)
    have first := firstMarked_of_lowest (mirrored.proper net) member marked
      (foremost net kn member installed)
    exact ⟨kn, List.mem_flatMap.mpr ⟨_, mem_toList kr member, first⟩, installed, same⟩

/-- Nodes of different prefixes have different entries if no entry comes twice. -/
theorem disjoint_of_nodup (mirrored : kr.Mirrored) (foremost : kr.Foremost)
    (nodup : ((kr.firstInserted.filter KrouteNode.installed).map KrouteNode.entry).Nodup)
    (net : KroutePrefix) : Disjoint (entries (kr.nodes net)) (kr.elsewhere net) := by
  have first {net : KroutePrefix} {kn : KrouteNode} (member : kn ∈ kr.nodes net)
      (installed : kn.installed = true) : kn ∈ firstMarked (kr.krt.getD net []) := by
    cases marked : kn.flags.ldpdInserted with
    | true =>
      exact firstMarked_of_lowest (mirrored.proper net) member marked (foremost net kn member installed)
    | false => exact absurd installed (not_installed marked)
  refine Set.disjoint_left.mpr fun entry here elsewhere => ?_
  obtain ⟨kn, member, installed, same⟩ := here
  obtain ⟨other, different, kn', member', installed', same'⟩ := elsewhere
  rw [firstInserted_eq, List.filter_flatMap, List.map_flatMap, List.nodup_flatMap] at nodup
  have pairs : (net, kr.krt.getD net []) ≠ (other, kr.krt.getD other []) :=
    fun equal => different (congrArg Prod.fst equal).symm
  have symmetric : Std.Symm (Function.onFun List.Disjoint
      fun pair : KroutePrefix × List KroutePriority =>
        ((firstMarked pair.2).filter KrouteNode.installed).map KrouteNode.entry) :=
    ⟨fun _ _ disjoint => disjoint.symm⟩
  have apart := nodup.2.forall (mem_toList kr member) (mem_toList kr member') pairs
  refine apart (List.mem_map.mpr ⟨kn, List.mem_filter.mpr ⟨first member installed, installed⟩, same⟩)
    (List.mem_map.mpr ⟨kn', List.mem_filter.mpr ⟨first member' installed', installed'⟩, same'⟩)

/-- `kr_fib_couple`. -/
theorem krFibCouple (mirrored : kr.Mirrored)
    (ready : kr.fibSync = false → kr.Foremost ∧ kr.LastFree)
    (accepted : (krFibCouple kr).Accepted) : (krFibCouple kr).Mirrored := by
  rw [Ldpd.krFibCouple] at accepted ⊢
  split at accepted
  · rename_i on
    rw [if_pos on]
    exact mirrored
  rename_i off
  rw [if_neg off]
  have off := Bool.eq_false_iff.mpr off
  have empty := mirrored.decoupled off
  obtain ⟨-, writes⟩ := Run.allowed_append.mp accepted
  have fib : List.foldl RtRequest.apply ∅ kr.toKernel = ∅ := empty
  rw [fib] at writes
  obtain ⟨foremost, free⟩ := ready off
  obtain ⟨added, -, nodup⟩ := foldl_add (marked_firstInserted free) writes
  refine ⟨mirrored.proper, fun _ => free, fun _ => ⟨?_, fun net => ?_⟩, fun on => ?_⟩
  · rw [Kr.fib_write]
    show List.foldl RtRequest.apply kr.fib _ = _
    rw [empty, added, Set.empty_union, mirrored.entries_firstInserted foremost]
    rfl
  · exact mirrored.disjoint_of_nodup foremost nodup net
  · cases on

/-- `kr_fib_decouple`. -/
theorem krFibDecouple (mirrored : kr.Mirrored) (foremost : kr.fibSync = true → kr.Foremost) :
    (krFibDecouple kr).Mirrored := by
  rw [Ldpd.krFibDecouple]
  split
  case isFalse => exact mirrored
  rename_i on
  refine ⟨mirrored.proper, fun off => ?_, fun off => ?_, fun _ => ?_⟩
  · cases off
  · cases off
  · rw [Kr.fib_write, foldl_delete (marked_firstInserted (mirrored.labels on)),
      mirrored.entries_firstInserted (foremost on)]
    show kr.fib \ kr.installed = ∅
    rw [(mirrored.coupled on).1, Set.sdiff_self]

/-- `kr_shutdown`. -/
theorem krShutdown (mirrored : kr.Mirrored) (foremost : kr.fibSync = true → kr.Foremost) :
    (krShutdown kr).Mirrored := by
  have off : (Ldpd.krFibDecouple kr).fibSync = false := by
    rw [Ldpd.krFibDecouple]
    split
    · rfl
    · rename_i off
      exact Bool.eq_false_iff.mpr off
  have decoupled := (mirrored.krFibDecouple foremost).decoupled off
  rw [Ldpd.krShutdown]
  generalize Ldpd.krFibDecouple kr = kr at off decoupled ⊢
  have silent (kn : KrouteNode) : krouteUninstall kr.fibSync kn = [] := by
    rw [krouteUninstall]
    split
    · exact if_pos (.inr (.inl off))
    · rfl
  have empty (net : KroutePrefix) : (Ldpd.krouteClear kr).krt.getD net [] = [] :=
    Std.ExtTreeMap.getD_empty
  have nodes (net : KroutePrefix) : (Ldpd.krouteClear kr).nodes net = [] := by
    rw [Kr.nodes, empty]
    rfl
  refine ⟨fun net => ?_, fun _ net kn member => ?_, fun on => ?_, fun _ => ?_⟩
  · rw [empty]
    exact .nil net
  · rw [nodes] at member
    cases member
  · cases off.symm.trans on
  · rw [Kr.fib, krouteClear, List.flatMap_eq_nil_iff.mpr fun kn _ => silent _, List.append_nil]
    exact decoupled

end Kr.Mirrored

end Coupling

/-! ### Runs -/

theorem krouteRemove_toKernel (kr : Kr) (route : Kroute) :
    kr.toKernel <+: (krouteRemove kr route).toKernel := by
  rw [krouteRemove]
  split
  · exact List.prefix_rfl
  · dsimp only
    split <;> exact List.prefix_append ..

theorem rtmsgProcessRoute_toKernel (kr : Kr) (rtm : RtMsghdr) :
    kr.toKernel <+: (rtmsgProcessRoute kr rtm).1.toKernel := by
  have removed : kr.toKernel <+:
      (if rtm.type = .change then removeFirst kr rtm.kroute.toKroute else kr).toKernel := by
    split
    · rw [removeFirst]
      split
      · exact List.prefix_rfl
      · exact krouteRemove_toKernel ..
    · exact List.prefix_rfl
  rw [rtmsgProcessRoute]
  split
  · split
    · exact removed
    · exact removed.trans (krouteRemove_toKernel ..)
  · split
    · exact removed
    · split <;> exact removed

/-- What a handler writes comes after what was written before. -/
theorem krStep_toKernel (kr : Kr) (input : KrInput) : kr.toKernel <+: (krStep kr input).toKernel := by
  have decouple : kr.toKernel <+: (krFibDecouple kr).toKernel := by
    rw [krFibDecouple]
    split
    · exact List.prefix_append ..
    · exact List.prefix_rfl
  cases input with
  | change route =>
    rw [krStep, krChange]
    split
    · exact List.prefix_rfl
    · exact (List.prefix_append ..).trans (List.prefix_append ..)
  | delete route =>
    rw [krStep, krDelete]
    split
    · exact List.prefix_rfl
    · split
      · exact (List.prefix_append ..).trans (List.prefix_append ..)
      · exact List.prefix_rfl
  | rtmsg rtm => exact rtmsgProcessRoute_toKernel kr rtm
  | couple =>
    rw [krStep, krFibCouple]
    split
    · exact List.prefix_rfl
    · exact List.prefix_append ..
  | decouple => exact decouple
  | shutdown => exact decouple.trans (List.prefix_append ..)

theorem Kr.Accepted.of_prefix {kr kr' : Kr} (accepted : kr'.Accepted)
    (before : kr.toKernel <+: kr'.toKernel) : kr.Accepted := by
  obtain ⟨requests, more⟩ := before
  rw [Kr.Accepted, ← more] at accepted
  exact (Run.allowed_append.mp accepted).1

/-- One handler, when the kernel has carried out all messages. -/
theorem Kr.Mirrored.krStep {kr : Kr} {input : KrInput} (mirrored : kr.Mirrored)
    (mirrors : Mirrors kr input) (accepted : (krStep kr input).Accepted) : (krStep kr input).Mirrored := by
  cases input with
  | change route => exact mirrored.krChange mirrors accepted
  | delete route => exact mirrored.krDelete route
  | rtmsg rtm => exact mirrored.rtmsgProcessRoute mirrors.1 mirrors.2
  | couple => exact mirrored.krFibCouple mirrors accepted
  | decouple => exact mirrored.krFibDecouple mirrors
  | shutdown => exact mirrored.krShutdown mirrors

/-- In a run that the kernel has carried out and whose steps keep to the conditions, the kernel has the
entries of the nodes while the tables are coupled, and none while they are not. -/
theorem fib_eq_installed (fibSync : Bool) (inputs : List KrInput)
    (mirrors : Run.Allowed krStep Mirrors { fibSync } inputs)
    (accepted : (inputs.foldl krStep { fibSync }).Accepted) :
    (inputs.foldl krStep { fibSync }).fib =
      if (inputs.foldl krStep { fibSync }).fibSync then (inputs.foldl krStep { fibSync }).installed
      else ∅ := by
  have start : Kr.Mirrored { fibSync } := by
    have empty (net : KroutePrefix) : (∅ : Std.ExtTreeMap KroutePrefix (List KroutePriority)
        krouteCompare).getD net [] = [] := Std.ExtTreeMap.getD_empty
    have nodes (net : KroutePrefix) : Kr.nodes { fibSync } net = [] := by
      rw [Kr.nodes, empty]
      rfl
    refine ⟨fun net => ?_, fun _ net kn member => ?_, fun _ => ⟨?_, fun net => ?_⟩, fun _ => rfl⟩
    · rw [empty]
      exact .nil net
    · rw [nodes] at member
      cases member
    · refine (Set.eq_empty_of_forall_notMem fun entry installed => ?_).symm
      obtain ⟨net, kn, member, -⟩ := installed
      rw [nodes] at member
      cases member
    · refine Set.disjoint_left.mpr fun entry here _ => ?_
      obtain ⟨kn, member, -⟩ := here
      rw [nodes] at member
      cases member
  have mirrored := Run.foldl_of_allowed (fun kr => kr.Accepted → kr.Mirrored)
    (fun kr input before legal accepted =>
      (before (accepted.of_prefix (krStep_toKernel kr input))).krStep legal accepted)
    (fun _ => start) mirrors accepted
  split
  · rename_i on
    exact (mirrored.coupled on).1
  · rename_i off
    exact mirrored.decoupled (Bool.eq_false_iff.mpr off)

/-- A message about a route to 11.0.0.0/8 by way of 10.0.0.1. -/
def staticRoute : RtMsghdr where
  type := .add
  dst := .v4 0x0b000000
  prefixlen := 8
  gateway := .inet 0x0a000001
  static := true
  priority := 8

/-- The request of the label decision engine to install labels for that route. -/
def labelRequest : Kroute where
  addr := .v4 0x0b000000
  prefixlen := 8
  nexthop := .v4 0x0a000001
  localLabel := 16
  remoteLabel := 17
  priority := 8

/-- The messages that install the labels. -/
def labelMessages : List RtRequest :=
  [.mpls .add 16 (.v4 0x0a000001) 8 (some 17),
    .inet .change ⟨.v4 0x0b000000, 8⟩ (.v4 0x0a000001) 8 (some 17)]

theorem fib_eq_installed_label :
    ([KrInput.rtmsg staticRoute, .change labelRequest].foldl krStep { fibSync := true }).toKernel =
        labelMessages ∧
      ([KrInput.rtmsg staticRoute, .change labelRequest].foldl krStep { fibSync := true }).fib =
        ([KrInput.rtmsg staticRoute, .change labelRequest].foldl krStep { fibSync := true }).installed := by
  have sent : ([KrInput.rtmsg staticRoute, .change labelRequest].foldl krStep
      { fibSync := true }).toKernel = labelMessages := by decide +kernel
  refine ⟨sent, fib_eq_installed true _ ⟨⟨by decide, fun _ kn overwrites => ?_⟩, fun kn found => ?_,
    trivial⟩ ?_⟩
  · have absent : krouteFind { fibSync := true } staticRoute.kroute.toKroute = none := by decide +kernel
    cases absent.symm.trans overwrites.found
  · have present : (krouteFind (krStep { fibSync := true } (.rtmsg staticRoute)) labelRequest).map
        (fun kn => kn.flags.ldpdInserted) = some false := by decide +kernel
    rw [found] at present
    refine ⟨fun marked => ?_, fun _ _ => by decide⟩
    cases (Option.some.inj present).symm.trans marked
  · rw [Kr.Accepted, sent]
    exact ⟨Set.notMem_empty _, trivial, trivial⟩

/-- The route is announced again, and its node is not marked any more. -/
theorem staticRoute_twice :
    ([KrInput.rtmsg staticRoute, .change labelRequest, .rtmsg staticRoute].foldl krStep
        { fibSync := true }).Accepted ∧
      ([KrInput.rtmsg staticRoute, .change labelRequest, .rtmsg staticRoute].foldl krStep
        { fibSync := true }).fibSync = true ∧
      ([KrInput.rtmsg staticRoute, .change labelRequest, .rtmsg staticRoute].foldl krStep
        { fibSync := true }).fib ≠
        ([KrInput.rtmsg staticRoute, .change labelRequest, .rtmsg staticRoute].foldl krStep
          { fibSync := true }).installed := by
  have sent : ([KrInput.rtmsg staticRoute, .change labelRequest, .rtmsg staticRoute].foldl krStep
      { fibSync := true }).toKernel = labelMessages := by decide +kernel
  have routes : ([KrInput.rtmsg staticRoute, .change labelRequest, .rtmsg staticRoute].foldl krStep
      { fibSync := true }).krt.toList.map Prod.snd =
        [[⟨8, [staticRoute.kroute.mark true]⟩]] := by decide +kernel
  refine ⟨?_, by decide +kernel, fun same => ?_⟩
  · rw [Kr.Accepted, sent]
    exact ⟨Set.notMem_empty _, trivial, trivial⟩
  · have known : (⟨16, .v4 0x0a000001, 8⟩ : MplsEntry) ∈
        ([KrInput.rtmsg staticRoute, .change labelRequest, .rtmsg staticRoute].foldl krStep
          { fibSync := true }).fib := by
      rw [Kr.fib, sent]
      exact Set.mem_insert _ _
    rw [same] at known
    obtain ⟨net, kn, member, installed, -⟩ := known
    have among := List.mem_map_of_mem (f := Prod.snd) (mem_toList _ member)
    rw [routes, List.mem_singleton] at among
    dsimp only at among
    rw [Kr.nodes, among] at member
    rw [List.mem_singleton.mp (show kn ∈ [staticRoute.kroute.mark true] from member)] at installed
    cases installed

end Ldpd
