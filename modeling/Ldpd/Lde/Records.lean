/-
This file proves that the label database stays consistent: the trees of the neighbors and
the lists of the nodes hold the same mappings, every FEC of a mapping has a node, and a
pseudowire FEC with a nexthop has its pseudowire. So the garbage collector takes no node
that a mapping refers to, and no `NULL` pointer is followed. Only whether a FEC with a
nexthop has a label depends on the counter of labels, which one day comes to `NO_LABEL`.
-/

import Ldpd.Lde.Handlers
import Ldpd.Lde.Reserved

namespace Ldpd

/-! ### Routes and pseudowires -/

section Routes

variable {lde lde' : Lde}

/-- Whether pseudowires are backed can be read off the bindings. -/
theorem backed_of_bindings (same : lde'.bindings = lde.bindings) (backed : lde.Backed) :
    lde'.Backed := by
  intro fec pseudowire some
  have nexthops : lde'.nexthops fec = lde.nexthops fec := congrFun (congrArg Bindings.nexthops same) fec
  have data : lde'.data fec = lde.data fec := congrFun (congrArg Bindings.data same) fec
  rw [data]
  exact backed fec pseudowire (nexthops ▸ some)

/-- A route or a pseudowire that comes is backed, and all others stay as they were. -/
theorem Inserted.backed {fec : Fec} {nexthop : LdpdAddr} {priority : UInt8} {connected : Bool}
    {data : Option Nat} (inserted : Inserted lde fec nexthop priority connected data lde')
    (given : fec.af = none → data ≠ none) (backed : lde.Backed) : lde'.Backed := by
  intro other pseudowire some
  rw [inserted.data]
  split_ifs with same
  · exact given same.2
  · refine backed other pseudowire fun empty => some ?_
    have different : other ≠ fec := fun equal => same ⟨equal, equal ▸ pseudowire⟩
    have keys := inserted.keys other
    rw [if_neg different, empty] at keys
    exact (nexthopKeys_eq_nil _).mp keys

/-- When the last nexthop goes, the pseudowire goes with it. -/
theorem Removed.backed {fec : Fec} {nexthop : LdpdAddr} {priority : UInt8}
    (removed : Removed lde fec nexthop priority lde') (backed : lde.Backed) : lde'.Backed := by
  intro other pseudowire some
  have left : ¬(other = fec ∧ fec.af = none ∧ lde'.nexthops fec = []) :=
    fun all => some (all.1 ▸ all.2.2)
  rw [removed.data, if_neg left]
  refine backed other pseudowire fun empty => some ((nexthopKeys_eq_nil _).mp ?_)
  rw [removed.keys]
  split_ifs with same
  · rw [← same, empty]
    rfl
  · rw [empty]
    rfl

theorem EgressChanged.backed {af : Af} {done : Fec → Prop} (changed : EgressChanged af done lde lde')
    (backed : lde.Backed) : lde'.Backed := by
  intro fec pseudowire some
  rw [changed.data]
  refine backed fec pseudowire fun empty => some ((nexthopKeys_eq_nil _).mp ?_)
  rw [changed.keys, empty]
  rfl

theorem Edits.setData (lde : Lde) (fec : Fec) (data : Option Nat) : Edits lde (setData lde fec data) := by
  cases fec with
  | ipv4 | ipv6 => exact .refl lde
  | pwid => exact .updateNode lde _ fun _ _ => rfl

/-- A new label is told to every neighbor, whose record of it is kept in step. -/
theorem Edits.assignLocalLabel (lde : Lde) (fec : Fec) (connected : Bool) :
    Edits lde (assignLocalLabel lde fec connected) := by
  have told (lde : Lde) : Edits lde (lde.ldeNbrs.keys.foldl
      (fun lde peerid => Ldpd.ldeSendLabelmapping lde peerid fec true) lde) :=
    Edits.foldl_free _ (fun lde peerid => .ldeSendLabelmapping lde peerid fec true) _ lde
  have labelled (lde : Lde) (label : UInt32) : Edits lde
      (lde.updateNode fec fun fn => { fn with localLabel := label }) :=
    .updateNode lde fec fun _ _ => rfl
  rw [Ldpd.assignLocalLabel]
  dsimp only
  split
  · exact .fail lde rfl
  · cases connected with
    | true => exact .trans (labelled lde _) (told _)
    | false =>
      have counted : Edits lde (ldeAssignLabel lde).1 := .aside rfl rfl rfl
      exact counted.trans (.trans (labelled _ _) (told _))

/-- The nexthop of a pseudowire comes with it. -/
theorem data_insertNexthop (lde : Lde) {fec : Fec} {fn : FecNode} (node : lde.ft[fec]? = some fn)
    (nexthop : LdpdAddr) (priority : UInt8) (connected : Bool) (data : Option Nat) (other : Fec) :
    (insertNexthop lde fec fn nexthop priority connected data).data other =
      if other = fec ∧ fec.af = none then data else lde.data other :=
  (congrFun (congrArg Bindings.data (bindings_insertNexthop lde node nexthop priority connected data))
    other).trans (Bindings.setData_data lde.bindings fec other data)

/-- The pseudowire is in the node before its nexthop is. -/
theorem backed_insertNexthop (lde : Lde) (backed : lde.Backed) {fec : Fec} {fn : FecNode}
    (node : lde.ft[fec]? = some fn) (nexthop : LdpdAddr) (priority : UInt8) (connected : Bool)
    {data : Option Nat} (given : fec.af = none → data ≠ none) :
    (insertNexthop lde fec fn nexthop priority connected data).Backed := by
  intro other pseudowire some
  have nexthops := congrFun (congrArg Bindings.nexthops
    (bindings_insertNexthop lde node nexthop priority connected data)) other
  rw [Bindings.addNexthop_nexthops] at nexthops
  rw [data_insertNexthop lde node]
  split_ifs with same
  · exact given same.2
  · refine backed other pseudowire fun empty => some ?_
    rw [if_neg fun equal => same ⟨equal, equal ▸ pseudowire⟩] at nexthops
    exact nexthops.trans empty

/-- The nexthop is there when the kernel is told, with its pseudowire. -/
theorem Edits.insertNexthop (lde : Lde) (backed : lde.Backed) {fec : Fec} {fn : FecNode}
    (node : lde.ft[fec]? = some fn) (nexthop : LdpdAddr) (priority : UInt8) (connected : Bool)
    {data : Option Nat} (given : fec.af = none → data ≠ none) :
    Edits lde (insertNexthop lde fec fn nexthop priority connected data) := by
  have backed' := backed_insertNexthop lde backed node nexthop priority connected given
  have points := data_insertNexthop lde node nexthop priority connected data fec
  have labelled (lde : Lde) : Edits lde
      (if fn.localLabel = noLabel then Ldpd.assignLocalLabel lde fec connected else lde) := by
    split
    · exact .assignLocalLabel lde fec connected
    · exact .refl lde
  have kept (lde : Lde) : fec ∈ (if fn.localLabel = noLabel then Ldpd.assignLocalLabel lde fec connected
      else lde).ft ↔ fec ∈ lde.ft := by
    split
    · exact mem_assignLocalLabel lde fec fec connected
    · exact Iff.rfl
  rw [Ldpd.insertNexthop] at backed' points ⊢
  have listed : fec ∈ (fecNhAdd (if fn.localLabel = noLabel then
      Ldpd.assignLocalLabel (Ldpd.setData lde fec data) fec connected
      else Ldpd.setData lde fec data) fec nexthop priority).ft := by
    rw [fecNhAdd, mem_updateNode, kept, mem_setData]
    exact (Tree.mem_iff_getElem? _ _).mpr ⟨fn, node⟩
  have edits : Edits lde (fecNhAdd (if fn.localLabel = noLabel then
      Ldpd.assignLocalLabel (Ldpd.setData lde fec data) fec connected
      else Ldpd.setData lde fec data) fec nexthop priority) :=
    .trans (.setData lde fec data) (.trans (labelled _) (.updateNode _ fec fun _ _ => rfl))
  generalize fecNhAdd (if fn.localLabel = noLabel then
      Ldpd.assignLocalLabel (Ldpd.setData lde fec data) fec connected
      else Ldpd.setData lde fec data) fec nexthop priority = lde' at backed' points listed edits ⊢
  have same := bindings_ldeSendChangeKlabel lde' fec { nexthop, remoteLabel := noLabel, priority }
  have data' : lde'.data fec = (Ldpd.ldeSendChangeKlabel lde' fec _).data fec :=
    (congrFun (congrArg Bindings.data same) fec).symm
  refine edits.trans (.ldeSendChangeKlabel lde' (backed_of_bindings same.symm backed')
    ⟨listed, fun pseudowire => ?_⟩ _)
  rw [data', points, if_pos ⟨rfl, pseudowire⟩]
  exact given pseudowire

/-- The records stay in step when a route or a pseudowire comes. -/
theorem Edits.ldeKernelInsert (lde : Lde) (backed : lde.Backed) (fec : Fec) (nexthop : LdpdAddr)
    (priority : UInt8) (connected : Bool) {data : Option Nat} (given : fec.af = none → data ≠ none) :
    Edits lde (ldeKernelInsert lde fec nexthop priority connected data) := by
  have added := (FecsKept.fecAdd lde fec).backed backed
  have use (lde : Lde) (backed : lde.Backed) : Edits lde (useRecordedMapping lde fec nexthop) := by
    rw [useRecordedMapping]
    repeat' split
    all_goals first
      | exact .refl lde
      | exact .ldeCheckMapping lde backed _ _
  rw [Ldpd.ldeKernelInsert]
  refine .trans (.fecAdd lde fec) ?_
  split
  · exact .refl _
  rename_i fn node
  split
  · exact .refl _
  · exact .trans (.insertNexthop _ added node nexthop priority connected given)
      (use _ (backed_insertNexthop _ added node nexthop priority connected given))

/-- The withdraws of a FEC take the records of its mappings away again. -/
theorem Edits.ldeKernelRemove (lde : Lde) (backed : lde.Backed) (fec : Fec) (nexthop : LdpdAddr)
    (priority : UInt8) : Edits lde (ldeKernelRemove lde fec nexthop priority) := by
  rw [Ldpd.ldeKernelRemove]
  split
  · exact .refl lde
  rename_i fn node
  split
  · exact .refl lde
  rename_i fnh found
  have serves : lde.Serves fec := by
    refine backed.serves fun empty => ?_
    rw [lde.nexthops_eq_of_node node] at empty
    rw [fecNhFind, empty] at found
    cases found
  have unlisted : Edits lde (fecNhDel (Ldpd.ldeSendDeleteKlabel lde fec fnh) fec fnh) :=
    .trans (.ldeSendDeleteKlabel lde backed serves fnh) (.updateNode _ fec fun _ _ => rfl)
  dsimp only
  split
  · have unlabelled (lde : Lde) : Edits lde
        (lde.updateNode fec fun fn => { fn with localLabel := noLabel }) :=
      .updateNode lde fec fun _ _ => rfl
    exact unlisted.trans (.trans (.ldeSendLabelwithdrawAll _ fec noLabel)
      (.trans (unlabelled _) (.setData _ fec none)))
  · exact unlisted

theorem Edits.ldeChangeEgressLabel (lde : Lde) (af : Af) (wasImplicit : Bool) :
    Edits lde (ldeChangeEgressLabel lde af wasImplicit) := by
  have withdrawn (lde : Lde) (peerid : UInt32) (ln : LdeNbr) :
      Edits lde (withdrawEgress wasImplicit lde peerid ln) := by
    have either (lde : Lde) (enabled : Bool) (label : UInt32) : Edits lde
        (if enabled then Ldpd.ldeSendLabelwithdraw lde peerid none label none else lde) := by
      split
      · exact .ldeSendLabelwithdraw lde peerid none label none
      · exact .refl lde
    rw [withdrawEgress]
    split
    · exact .ldeSendLabelwithdraw lde peerid none mplsLabelImplnull none
    · exact .trans (either lde ln.v4Enabled mplsLabelIpv4null)
        (either _ ln.v6Enabled mplsLabelIpv6null)
  have changed (peerid : UInt32) (lde : Lde) (fec : Fec) :
      Edits lde (changeEgressFec af peerid lde fec) := by
    have labelled (label : UInt32) : Edits lde
        (lde.updateNode fec fun fn => { fn with localLabel := label }) :=
      .updateNode lde fec fun _ _ => rfl
    rw [changeEgressFec]
    repeat' split
    all_goals first
      | exact .refl lde
      | exact .fail lde rfl
      | exact (labelled _).trans (.ldeSendLabelmapping _ peerid fec false)
  refine Edits.foldl_free _ (fun lde peerid => ?_) _ lde
  rw [changeEgressNbr]
  split
  · exact .refl lde
  · exact .trans (withdrawn lde peerid _)
      (.trans (Edits.foldl_free _ (changed peerid) _ _) (.composeLdpe _ _))

end Routes

/-! ### Neighbors -/

section Neighbors

variable {lde lde' : Lde}

/-- A new neighbor starts without records, so no node refers to it. -/
theorem Lde.Linked.ldeNbrNew (linked : lde.Linked) (peerid : UInt32) (id : InAddr)
    (v4Enabled v6Enabled : Bool) : (ldeNbrNew lde peerid id v4Enabled v6Enabled).Linked := by
  rw [Ldpd.ldeNbrNew]
  split
  · have harmless : LdeFault.fatalx.null = false := rfl
    exact (Edits.fail lde harmless).linked linked
  rename_i fresh
  have absent : lde.ldeNbrs[peerid]? = none := Std.ExtTreeMap.getElem?_eq_none fresh
  generalize new : LdeNbr.mk id v4Enabled v6Enabled ∅ ∅ ∅ ∅ ∅ [] = ln
  have nothing (sent : Bool) (fec : Fec) : fec ∉ ln.records sent := by
    subst new
    cases sent <;> exact Std.ExtTreeMap.not_mem_empty
  have found (other : UInt32) : (lde.ldeNbrs.insert peerid ln)[other]? =
      if peerid = other then some ln else lde.ldeNbrs[other]? :=
    Tree.getElem?_insert lde.ldeNbrs peerid other ln
  have recorded : Lde.Recorded { lde with ldeNbrs := lde.ldeNbrs.insert peerid ln } = lde.Recorded := by
    funext sent other fec
    rw [Lde.Recorded, Lde.Recorded]
    dsimp only
    rw [found]
    split
    · rename_i same
      subst same
      rw [absent]
      refine propext (iff_of_false ?_ ?_)
      · rintro ⟨ln', same, member⟩
        cases same
        exact nothing sent fec member
      · rintro ⟨ln', same, -⟩
        cases same
    · rfl
  refine ⟨?_, ?_, fun other ln' there fec member => ?_, fun other ln' there fec member => ?_, linked.safe⟩
  · rw [recorded]
    exact linked.one
  · rw [recorded]
    exact linked.listed
  · rw [found] at there
    split at there
    · cases there
      exact absurd member (nothing false fec)
    · exact linked.own other ln' there fec member
  · rw [found] at there
    split at there
    · cases there
      subst new
      exact absurd member Std.ExtTreeMap.not_mem_empty
    · exact linked.answered other ln' there fec member

/-- What is left after the mappings of some FECs have been deleted. -/
theorem recorded_foldl_ldeMapDel (peerid : UInt32) (sent : Bool) (fecs : List Fec) (lde : Lde)
    (sent' : Bool) (other : UInt32) (fec : Fec) :
    (fecs.foldl (fun lde fec => ldeMapDel lde peerid fec sent) lde).Recorded sent' other fec ↔
      ¬(sent = sent' ∧ peerid = other ∧ fec ∈ fecs) ∧ lde.Recorded sent' other fec := by
  induction fecs generalizing lde with
  | nil => simp
  | cons first rest inductionHypothesis =>
    rw [List.foldl_cons, inductionHypothesis, recorded_remove (ldeNbrs_ldeMapDel lde peerid first sent),
      List.mem_cons]
    constructor
    · rintro ⟨others, this, before⟩
      refine ⟨fun all => ?_, before⟩
      rcases all.2.2 with same | member
      · exact this ⟨all.1, all.2.1, same.symm⟩
      · exact others ⟨all.1, all.2.1, member⟩
    · rintro ⟨none, before⟩
      exact ⟨fun all => none ⟨all.1, all.2.1, Or.inr all.2.2⟩,
        fun all => none ⟨all.1, all.2.1, Or.inl all.2.2.symm⟩, before⟩

theorem Touched.downNexthop (fec : Fec) (lde : Lde) (fnh : FecNh) :
    Touched lde (downNexthop fec lde fnh) := by
  have reset : Touched lde (resetPwOf lde fec) := by
    unfold resetPwOf
    split
    · exact .updatePw lde _ fun _ => rfl
    · exact .refl lde
  exact reset.trans (.uninstallNexthop fec _ fnh)

theorem resetPwOf_aside (lde : Lde) (fec : Fec) : Edits lde (resetPwOf lde fec) ∧
    Touched lde (resetPwOf lde fec) ∧ (resetPwOf lde fec).ldeNbrs = lde.ldeNbrs := by
  unfold resetPwOf
  split
  · exact ⟨.updatePw lde _ _, .updatePw lde _ fun _ => rfl, rfl⟩
  · exact ⟨.refl lde, .refl lde, rfl⟩

theorem Edits.downFec (ln : LdeNbr) (lde : Lde) (backed : lde.Backed) (fec : Fec) :
    Edits lde (downFec ln lde fec) := by
  refine Edits.foldl_nexthops _ (Touched.downNexthop fec) fec (fun lde backed serves fnh => ?_) _ lde
    backed fun some empty => ?_
  · obtain ⟨edits, touched, -⟩ := resetPwOf_aside lde fec
    exact edits.trans (.uninstallNexthop _ (touched.fecsKept.backed backed) (touched.serves serves) fnh)
  · rw [empty] at some
    exact some rfl

theorem ldeNbrs_downFec (ln : LdeNbr) (lde : Lde) (fec : Fec) :
    (downFec ln lde fec).ldeNbrs = lde.ldeNbrs := by
  refine ldeNbrs_foldl _ (fun lde fnh => ?_) _ lde
  rw [downNexthop, ldeNbrs_uninstallNexthop]
  exact (resetPwOf_aside lde fec).2.2

/-- A neighbor goes when all its mappings are gone. -/
theorem Lde.Linked.ldeNbrDel (linked : lde.Linked) (backed : lde.Backed) (peerid : UInt32) :
    (ldeNbrDel lde peerid).Linked := by
  rw [Ldpd.ldeNbrDel]
  split
  · exact linked
  rename_i ln nbr
  dsimp only
  have down : Edits lde (lde.ft.keys.foldl (downFec ln) lde) :=
    Edits.foldl_backed _ (Touched.downFec ln) _ (fun lde backed fec _ => .downFec ln lde backed fec) lde
      backed
  have nbrs := ldeNbrs_foldl _ (ldeNbrs_downFec ln) lde.ft.keys lde
  have removed (sent : Bool) (fecs : List Fec) (lde : Lde) : Edits lde
      (fecs.foldl (fun lde fec => ldeMapDel lde peerid fec sent) lde) :=
    Edits.foldl_free _ (fun lde fec => .mapDel lde peerid fec sent) fecs lde
  generalize lde.ft.keys.foldl (downFec ln) lde = lde₁ at down nbrs ⊢
  have linked' := ((down.trans (removed false ln.recvMap.keys lde₁)).trans
    (removed true ln.sentMap.keys _)).linked linked
  have unrecorded (sent : Bool) (fec : Fec) : ¬(ln.sentMap.keys.foldl
      (fun lde fec => ldeMapDel lde peerid fec true) (ln.recvMap.keys.foldl
        (fun lde fec => ldeMapDel lde peerid fec false) lde₁)).Recorded sent peerid fec := by
    rw [recorded_foldl_ldeMapDel, recorded_foldl_ldeMapDel]
    rintro ⟨sentGone, recvGone, ln', found, member⟩
    rw [nbrs, nbr] at found
    cases found
    cases sent with
    | false => exact recvGone ⟨rfl, rfl, Std.ExtTreeMap.mem_keys.mpr member⟩
    | true => exact sentGone ⟨rfl, rfl, Std.ExtTreeMap.mem_keys.mpr member⟩
  generalize ln.sentMap.keys.foldl (fun lde fec => ldeMapDel lde peerid fec true)
    (ln.recvMap.keys.foldl (fun lde fec => ldeMapDel lde peerid fec false) lde₁) = lde₂
    at linked' unrecorded ⊢
  have found (other : UInt32) : (lde₂.ldeNbrs.erase peerid)[other]? =
      if peerid = other then none else lde₂.ldeNbrs[other]? :=
    Tree.getElem?_erase lde₂.ldeNbrs peerid other
  refine linked'.tended rfl ?_ (fun other ln' there => ?_) fun fault member => Or.inl member
  · funext sent other fec
    rw [Lde.Recorded, Lde.Recorded]
    dsimp only
    rw [found]
    split
    · rename_i same
      subst same
      refine propext (iff_of_false ?_ (unrecorded sent fec))
      rintro ⟨ln', same, -⟩
      cases same
    · rfl
  · dsimp only at there
    rw [found] at there
    split at there
    · cases there
    · exact ⟨ln', there, .refl ln'⟩

/-! ### Garbage collection -/

/-- Only dead nodes are dropped, and no record refers to one. -/
theorem Lde.Linked.gcFec (linked : lde.Linked) (fec : Fec) : (gcFec lde fec).Linked := by
  rw [Ldpd.gcFec]
  split
  · exact linked
  rename_i fn node
  split
  case isFalse => exact linked
  rename_i dead
  simp only [FecNode.dead, Bool.and_eq_true, List.isEmpty_iff] at dead
  refine linked.tended ?_ rfl (fun peerid ln found => ⟨ln, found, .refl ln⟩) fun fault member => Or.inl member
  funext sent other
  rw [Lde.entries, Lde.entries]
  dsimp only
  rw [Tree.getElem?_erase]
  split
  · rename_i same
    rw [← same, node]
    cases sent with
    | false => exact dead.1.2.symm
    | true => exact dead.2.symm
  · rfl

theorem Lde.Linked.ldeGcTimer (linked : lde.Linked) : (ldeGcTimer lde).Linked :=
  List.foldlRecOn lde.ft.keys _ linked fun _ linked fec _ => linked.gcFec fec

end Neighbors

/-! ### Runs -/

/-- The label database is consistent, up to the local labels. -/
structure Lde.Consistent (lde : Lde) : Prop where
  idle : lde.Idle
  backed : lde.Backed
  linked : lde.Linked

section Runs

variable {lde : Lde}

/-- The lists of the configuration are no part of what is kept. -/
theorem Lde.Consistent.configure (consistent : lde.Consistent) (l2vpnList : List Nat)
    (l2vpns : Std.ExtTreeMap Nat L2vpn compare) (pws : Std.ExtTreeMap Nat L2vpnPw compare) :
    Lde.Consistent { lde with l2vpnList, l2vpns, pws } where
  idle := idle_configure consistent.idle l2vpnList l2vpns pws
  backed := consistent.backed
  linked :=
    have edits : Edits lde { lde with l2vpnList, l2vpns, pws } := .aside rfl rfl rfl
    edits.linked consistent.linked

theorem Lde.Consistent.ldeKernelInsert (consistent : lde.Consistent) (fec : Fec) (nexthop : LdpdAddr)
    (priority : UInt8) (connected : Bool) {data : Option Nat} (given : fec.af = none → data ≠ none) :
    (ldeKernelInsert lde fec nexthop priority connected data).Consistent := by
  have linked := (Edits.ldeKernelInsert lde consistent.backed fec nexthop priority connected
    given).linked consistent.linked
  rcases ldeKernelInsert_inserts lde fec nexthop priority connected data with
    ⟨-, kept⟩ | ⟨-, inserted⟩
  · exact ⟨kept.idle consistent.idle, kept.backed consistent.backed, linked⟩
  · exact ⟨inserted.idle consistent.idle, inserted.backed given consistent.backed, linked⟩

theorem Lde.Consistent.ldeKernelRemove (consistent : lde.Consistent) (fec : Fec) (nexthop : LdpdAddr)
    (priority : UInt8) : (ldeKernelRemove lde fec nexthop priority).Consistent := by
  have linked := (Edits.ldeKernelRemove lde consistent.backed fec nexthop priority).linked consistent.linked
  rcases ldeKernelRemove_removes lde fec nexthop priority with ⟨-, kept⟩ | ⟨-, removed⟩
  · exact ⟨kept.idle consistent.idle, kept.backed consistent.backed, linked⟩
  · exact ⟨removed.idle consistent.idle, removed.backed consistent.backed, linked⟩

theorem Lde.Consistent.l2vpnPwInit (consistent : lde.Consistent) (data : Nat) : (l2vpnPwInit lde data).Consistent := by
  rw [Ldpd.l2vpnPwInit]
  split
  · exact consistent
  · have reset : (lde.updatePw data l2vpnPwReset).Consistent := consistent.configure _ _ _
    exact reset.ldeKernelInsert _ _ _ _ fun _ => Option.some_ne_none data

theorem Lde.Consistent.l2vpnPwExit (consistent : lde.Consistent) (data : Nat) : (l2vpnPwExit lde data).Consistent := by
  rw [Ldpd.l2vpnPwExit]
  split
  · exact consistent
  · exact consistent.ldeKernelRemove _ _ _

theorem Lde.Consistent.mergeAf (consistent : lde.Consistent) (af : Af) (expNull : Bool) :
    (mergeAf lde af expNull).Consistent := by
  have idle := (mergeAf_quiet lde consistent.idle af expNull).1
  rw [Ldpd.mergeAf] at idle ⊢
  split
  · exact consistent
  rename_i toggled
  rw [if_neg toggled] at idle
  have set : Edits lde (lde.setExpNull af expNull) := by
    cases af <;> exact .aside rfl rfl rfl
  have backed : (lde.setExpNull af expNull).Backed := by
    cases af <;> exact consistent.backed
  exact ⟨idle, (egressChanged_ldeChangeEgressLabel _ af expNull).backed backed,
    (set.trans (.ldeChangeEgressLabel _ af expNull)).linked consistent.linked⟩

/-- One event, other than those about routes and pseudowires. -/
theorem Lde.Consistent.ldeStep_other (consistent : lde.Consistent) {event : LdeEvent}
    (other : event.changesFecs = false) : (ldeStep lde event).Consistent := by
  have kept := FecsKept.ldeStep lde consistent.idle other
  refine ⟨kept.idle consistent.idle, kept.backed consistent.backed, ?_⟩
  have done {lde' : Lde} (edits : Edits lde lde') : lde'.Linked := edits.linked consistent.linked
  cases event with
  | networkAdd | networkDel | pwNew | pwDel => cases other
  | labelMappingFull peerid =>
    rw [Ldpd.ldeStep]
    split
    · exact done (.fecSnap lde peerid)
    · exact consistent.linked
  | labelMapping peerid map => exact done (.ldeCheckMapping lde consistent.backed map peerid)
  | labelRequest peerid map => exact done (.ldeCheckRequest lde map peerid)
  | labelRelease peerid map => exact done (.dispatchRelease lde map peerid)
  | labelWithdraw peerid map => exact done (.dispatchWithdraw lde consistent.backed map peerid)
  | labelAbort => exact consistent.linked
  | addressAdd peerid addr => exact done (.ldeAddressAdd lde consistent.backed consistent.linked peerid addr)
  | addressDel peerid addr => exact done (.ldeAddressDel lde consistent.backed consistent.linked peerid addr)
  | notification peerid nm => exact done (.dispatchNotification lde consistent.backed nm peerid)
  | neighborUp peerid id v4Enabled v6Enabled => exact consistent.linked.ldeNbrNew peerid id v4Enabled v6Enabled
  | neighborDown peerid => exact consistent.linked.ldeNbrDel consistent.backed peerid
  | gcTimer => exact consistent.linked.ldeGcTimer

/-- Every operation keeps the database consistent. -/
theorem Lde.Consistent.ldeOp (consistent : lde.Consistent) (op : LdeOp) : (ldeOp lde op).Consistent := by
  have message (event : LdeEvent) (other : event.changesFecs = false) :
      (Ldpd.ldeOp lde (.event event)).Consistent := consistent.ldeStep_other other
  cases op with
  | mergeAf af expNull => exact consistent.mergeAf af expNull
  | configure l2vpnList l2vpns pws => exact consistent.configure l2vpnList l2vpns pws
  | pwInit data => exact consistent.l2vpnPwInit data
  | pwExit data => exact consistent.l2vpnPwExit data
  | event event =>
    cases event with
    | networkAdd kr =>
      refine consistent.ldeKernelInsert kr.fec kr.nexthop kr.priority kr.connected fun pseudowire => ?_
      cases (RouteMsg.fec_af kr).symm.trans pseudowire
    | networkDel kr => exact consistent.ldeKernelRemove kr.fec kr.nexthop kr.priority
    | pwNew data conf =>
      show (l2vpnPwAdd lde data conf).Consistent
      rw [l2vpnPwAdd]
      split
      · exact consistent
      · have entered := consistent.configure lde.l2vpnList (lde.l2vpns.modify conf.l2vpn fun l2vpn =>
          { l2vpn with pwList := data :: l2vpn.pwList }) (lde.pws.insert data conf.pw)
        exact entered.l2vpnPwInit data
    | pwDel data =>
      show (l2vpnPwDelete lde data).Consistent
      rw [l2vpnPwDelete]
      split
      · exact consistent
      · exact (consistent.l2vpnPwExit data).configure _ _ _
    | labelMappingFull | labelMapping | labelRequest | labelRelease | labelWithdraw | labelAbort
    | addressAdd | addressDel | notification | neighborUp | neighborDown | gcTimer =>
      exact message _ rfl

/-- The engine starts without nodes and neighbors. -/
theorem consistent_start (conf : LdeConf) : (Lde.start conf).Consistent where
  idle := (start_counted conf).idle
  backed fec _ some := absurd (start_nexthops conf fec) some
  linked := by
    have noNbr (peerid : UInt32) : (Lde.start conf).ldeNbrs[peerid]? = none :=
      Std.ExtTreeMap.getElem?_empty
    have unrecorded (sent : Bool) (peerid : UInt32) (fec : Fec) :
        ¬(Lde.start conf).Recorded sent peerid fec := by
      rintro ⟨ln, found, -⟩
      cases (noNbr peerid).symm.trans found
    refine ⟨fun sent peerid fec recorded => absurd recorded (unrecorded sent peerid fec), ?_, ?_, ?_, ?_⟩
    · intro sent peerid fec member
      rw [Lde.entries, start_node] at member
      cases member
    · intro peerid ln found
      cases (noNbr peerid).symm.trans found
    · intro peerid ln found
      cases (noNbr peerid).symm.trans found
    · exact fun fault member => absurd member List.not_mem_nil

/-- Every run of events and reloads keeps the database consistent. -/
theorem consistent_of_run (conf : LdeConf) (inputs : List LdeInput) :
    (inputs.foldl ldeInput (Lde.start conf)).Consistent := by
  obtain ⟨ops, run⟩ := inputs_ops inputs (Lde.start conf)
  rw [← run]
  exact List.foldlRecOn ops _ (consistent_start conf) fun _ consistent op _ => consistent.ldeOp op

end Runs

end Ldpd
