/-
This file says what `lde_kernel_insert` and `lde_kernel_remove` do to the FECs, to
their nexthops and local labels and to the counter of labels, and that they leave
everything else about the FECs and the configuration alone.
-/

import Ldpd.Lde.Frame
import Ldpd.Lde.Refinement

namespace Ldpd

/-! ### What changes -/

/-- A nexthop is one of a FEC. -/
def Lde.HasNexthop (lde : Lde) (fec : Fec) (nexthop : LdpdAddr) (priority : UInt8) : Prop :=
  (nexthop, priority) ∈ nexthopKeys (lde.nexthops fec)

instance (lde : Lde) (fec : Fec) (nexthop : LdpdAddr) (priority : UInt8) :
    Decidable (lde.HasNexthop fec nexthop priority) :=
  inferInstanceAs (Decidable ((nexthop, priority) ∈ nexthopKeys (lde.nexthops fec)))

/-- An insertion takes a label from the counter: the FEC has none and is not connected. -/
def Lde.TakesLabel (lde : Lde) (fec : Fec) (connected : Bool) : Prop :=
  lde.localLabel fec = noLabel ∧ connected = false

instance (lde : Lde) (fec : Fec) (connected : Bool) : Decidable (lde.TakesLabel fec connected) :=
  inferInstanceAs (Decidable (_ ∧ _))

/-- The engine after a nexthop has been added to a FEC. -/
structure Inserted (lde : Lde) (fec : Fec) (nexthop : LdpdAddr) (priority : UInt8)
    (connected : Bool) (data : Option Nat) (lde' : Lde) : Prop extends ConfKept lde lde' where
  localLabel : ∀ other, lde'.localLabel other =
    if other = fec then lde.insertLabel fec connected else lde.localLabel other
  keys : ∀ other, nexthopKeys (lde'.nexthops other) =
    if other = fec then (nexthop, priority) :: nexthopKeys (lde.nexthops fec)
    else nexthopKeys (lde.nexthops other)
  data : ∀ other, lde'.data other =
    if other = fec ∧ fec.af = none then data else lde.data other
  label : lde'.label = if lde.TakesLabel fec connected then lde.label + 1 else lde.label

/-- The engine after a nexthop has been taken from a FEC. -/
structure Removed (lde : Lde) (fec : Fec) (nexthop : LdpdAddr) (priority : UInt8) (lde' : Lde) :
    Prop extends ConfKept lde lde' where
  localLabel : ∀ other, lde'.localLabel other =
    if other = fec ∧ lde'.nexthops fec = [] then noLabel else lde.localLabel other
  keys : ∀ other, nexthopKeys (lde'.nexthops other) =
    if other = fec then (nexthopKeys (lde.nexthops fec)).filter (· ≠ (nexthop, priority))
    else nexthopKeys (lde.nexthops other)
  data : ∀ other, lde'.data other =
    if other = fec ∧ fec.af = none ∧ lde'.nexthops fec = [] then none else lde.data other
  label : lde'.label = lde.label

theorem lists_iff (lde : Lde) (fec : Fec) (nexthop : LdpdAddr) (priority : UInt8) :
    lde.bindings.Lists fec nexthop priority ↔ lde.HasNexthop fec nexthop priority := by
  rw [Bindings.Lists, Lde.HasNexthop, nexthopKeys, List.mem_map]
  refine exists_congr fun fnh => and_congr_right fun _ => ?_
  rw [Prod.mk.injEq]

theorem nexthopKeys_eq_nil (nexthops : List FecNh) : nexthopKeys nexthops = [] ↔ nexthops = [] := by
  rw [nexthopKeys, List.map_eq_nil_iff]

/-! ### The configuration -/

theorem confKept_updateNode (lde : Lde) (fec : Fec) (change : FecNode → FecNode) :
    ConfKept lde (lde.updateNode fec change) := ⟨rfl, rfl, rfl, rfl, fun _ => rfl⟩

theorem confKept_setData (lde : Lde) (fec : Fec) (data : Option Nat) :
    ConfKept lde (setData lde fec data) := by
  cases fec with
  | ipv4 | ipv6 => exact .refl lde
  | pwid => exact confKept_updateNode lde _ _

theorem FecsKept.foldl_ldeSendLabelmapping (lde : Lde) (peers : List UInt32) (fec : Fec) :
    FecsKept lde (peers.foldl (fun lde peerid => Ldpd.ldeSendLabelmapping lde peerid fec true) lde) :=
  (Touched.foldl _ (fun lde peerid => .ldeSendLabelmapping lde peerid fec true) peers lde).fecsKept

theorem confKept_assignLocalLabel (lde : Lde) (fec : Fec) (connected : Bool) :
    ConfKept lde (assignLocalLabel lde fec connected) := by
  have counted : ConfKept lde (ldeAssignLabel lde).1 := ⟨rfl, rfl, rfl, rfl, fun _ => rfl⟩
  rw [assignLocalLabel]
  dsimp only
  split
  · exact (FecsKept.fail lde _).toConfKept
  · refine .trans ?_ (FecsKept.foldl_ldeSendLabelmapping _ _ fec).toConfKept
    cases connected with
    | true => exact confKept_updateNode lde fec _
    | false => exact counted.trans (confKept_updateNode _ fec _)

theorem label_assignLocalLabel (lde : Lde) (fec : Fec) (connected : Bool) :
    (assignLocalLabel lde fec connected).label = if connected then lde.label else lde.label + 1 := by
  rw [assignLocalLabel]
  dsimp only
  cases connected with
  | true =>
    simp only [if_true]
    split
    · rfl
    · exact (FecsKept.foldl_ldeSendLabelmapping _ _ fec).label
  | false =>
    simp only [Bool.false_eq_true, if_false]
    exact (FecsKept.foldl_ldeSendLabelmapping _ _ fec).label

theorem label_setData (lde : Lde) (fec : Fec) (data : Option Nat) :
    (setData lde fec data).label = lde.label := by
  cases fec <;> rfl

/-- The configuration and the counter after a nexthop has been added. -/
theorem insertNexthop_kept (lde : Lde) {fec : Fec} {fn : FecNode} (node : lde.ft[fec]? = some fn)
    (nexthop : LdpdAddr) (priority : UInt8) (connected : Bool) (data : Option Nat) :
    ConfKept lde (insertNexthop lde fec fn nexthop priority connected data) ∧
      (insertNexthop lde fec fn nexthop priority connected data).label =
        if lde.TakesLabel fec connected then lde.label + 1 else lde.label := by
  have unlabelled : lde.localLabel fec = fn.localLabel := lde.localLabel_eq_of_node node
  have listed (lde : Lde) : ConfKept lde (ldeSendChangeKlabel (fecNhAdd lde fec nexthop priority) fec
      { nexthop, remoteLabel := noLabel, priority }) :=
    (confKept_updateNode lde fec _).trans (Touched.ldeSendChangeKlabel _ fec _).fecsKept.toConfKept
  have counted (lde : Lde) : (ldeSendChangeKlabel (fecNhAdd lde fec nexthop priority) fec
      { nexthop, remoteLabel := noLabel, priority }).label = lde.label :=
    (Touched.ldeSendChangeKlabel _ fec _).fecsKept.label
  rw [insertNexthop]
  refine ⟨((confKept_setData lde fec data).trans ?_).trans (listed _), (counted _).trans ?_⟩
  · split
    · exact confKept_assignLocalLabel _ fec connected
    · exact .refl _
  · split
    · rename_i none
      rw [label_assignLocalLabel, label_setData]
      cases connected with
      | true => exact (if_neg fun takes : lde.TakesLabel fec true => absurd takes.2 (by decide)).symm
      | false => exact (if_pos (⟨unlabelled.trans none, rfl⟩ : lde.TakesLabel fec false)).symm
    · rename_i some
      rw [label_setData]
      exact (if_neg fun takes : lde.TakesLabel fec connected =>
        some (unlabelled.symm.trans takes.1)).symm

/-! ### Insertion -/

theorem Touched.useRecordedMapping (lde : Lde) (fec : Fec) (nexthop : LdpdAddr) :
    Touched lde (useRecordedMapping lde fec nexthop) := by
  rw [Ldpd.useRecordedMapping]
  split
  · exact .refl lde
  split
  · exact .refl lde
  · exact .ldeCheckMapping lde _ _

theorem Inserted.trans {lde lde' lde'' : Lde} {fec : Fec} {nexthop : LdpdAddr} {priority : UInt8}
    {connected : Bool} {data : Option Nat}
    (inserted : Inserted lde fec nexthop priority connected data lde') (kept : FecsKept lde' lde'') :
    Inserted lde fec nexthop priority connected data lde'' where
  toConfKept := inserted.toConfKept.trans kept.toConfKept
  localLabel other := (kept.localLabel other).trans (inserted.localLabel other)
  keys other := (kept.keys other).trans (inserted.keys other)
  data other := (kept.data other).trans (inserted.data other)
  label := kept.label.trans inserted.label

/-- `lde_kernel_insert` does nothing for a nexthop that is there, and adds it otherwise. -/
theorem ldeKernelInsert_inserts (lde : Lde) (fec : Fec) (nexthop : LdpdAddr) (priority : UInt8)
    (connected : Bool) (data : Option Nat) :
    (lde.HasNexthop fec nexthop priority ∧
        FecsKept lde (ldeKernelInsert lde fec nexthop priority connected data)) ∨
      ¬lde.HasNexthop fec nexthop priority ∧
        Inserted lde fec nexthop priority connected data
          (ldeKernelInsert lde fec nexthop priority connected data) := by
  have visible := bindings_fecAdd lde fec
  have kept := FecsKept.fecAdd lde fec
  obtain ⟨fn, node⟩ : ∃ fn, (fecAdd lde fec).ft[fec]? = some fn := by
    rw [getElem?_fecAdd, if_pos rfl]
    exact ⟨_, rfl⟩
  have lists : lde.HasNexthop fec nexthop priority ↔ (fecNhFind fn nexthop priority).isSome := by
    rw [← lists_iff, ← visible, Bindings.Lists, fecNhFind_isSome_iff]
    rw [show (fecAdd lde fec).bindings.nexthops fec = fn.nexthops from
      (fecAdd lde fec).nexthops_eq_of_node node]
  unfold ldeKernelInsert
  simp only [node]
  rw [lists]
  split_ifs with known
  · exact Or.inl ⟨known, kept⟩
  · refine Or.inr ⟨known, Inserted.trans ?_ (Touched.useRecordedMapping _ fec nexthop).fecsKept⟩
    have bindings := bindings_insertNexthop _ node nexthop priority connected data
    rw [visible, insertLabel_fecAdd] at bindings
    obtain ⟨conf, counter⟩ := insertNexthop_kept _ node nexthop priority connected data
    refine ⟨kept.toConfKept.trans conf, fun other => ?_, fun other => ?_, fun other => ?_, ?_⟩
    · have same := congrFun (congrArg Bindings.localLabel bindings) other
      refine same.trans ?_
      show Function.update (lde.bindings.setData fec data).localLabel fec _ other = _
      rw [Bindings.setData_localLabel]
      split_ifs with equal
      · rw [equal, Function.update_self]
      · exact Function.update_of_ne equal _ _
    · have same := congrFun (congrArg Bindings.nexthops bindings) other
      rw [Bindings.addNexthop_nexthops] at same
      refine (congrArg nexthopKeys same).trans ?_
      split_ifs
      · rfl
      · rfl
    · have same := congrFun (congrArg Bindings.data bindings) other
      refine same.trans ?_
      exact Bindings.setData_data lde.bindings fec other data
    · have same : (fecAdd lde fec).TakesLabel fec connected ↔ lde.TakesLabel fec connected :=
        and_congr_left fun _ => by rw [kept.localLabel]
      rw [counter, kept.label]
      exact if_congr same rfl rfl

/-! ### Removal -/

theorem confKept_ldeKernelRemove (lde : Lde) (fec : Fec) (nexthop : LdpdAddr) (priority : UInt8) :
    ConfKept lde (ldeKernelRemove lde fec nexthop priority) ∧
      (ldeKernelRemove lde fec nexthop priority).label = lde.label := by
  rw [ldeKernelRemove]
  split
  · exact ⟨.refl lde, rfl⟩
  split
  · exact ⟨.refl lde, rfl⟩
  · rename_i fnh _
    have deleted := (Touched.ldeSendDeleteKlabel lde fec fnh).fecsKept
    have unlisted : ConfKept lde (fecNhDel (Ldpd.ldeSendDeleteKlabel lde fec fnh) fec fnh) :=
      deleted.toConfKept.trans (confKept_updateNode _ fec _)
    dsimp only
    split
    · have withdrawn := (Touched.ldeSendLabelwithdrawAll
        (fecNhDel (Ldpd.ldeSendDeleteKlabel lde fec fnh) fec fnh) fec noLabel).fecsKept
      refine ⟨unlisted.trans (withdrawn.toConfKept.trans
        ((confKept_updateNode _ fec _).trans (confKept_setData _ fec none))), ?_⟩
      rw [retireFec, label_setData]
      exact withdrawn.label.trans deleted.label
    · exact ⟨unlisted, deleted.label⟩

/-- `lde_kernel_remove` takes a nexthop that is there, and does nothing otherwise. -/
theorem ldeKernelRemove_removes (lde : Lde) (fec : Fec) (nexthop : LdpdAddr) (priority : UInt8) :
    (¬lde.HasNexthop fec nexthop priority ∧
        FecsKept lde (ldeKernelRemove lde fec nexthop priority)) ∨
      lde.HasNexthop fec nexthop priority ∧
        Removed lde fec nexthop priority (ldeKernelRemove lde fec nexthop priority) := by
  obtain ⟨conf, counter⟩ := confKept_ldeKernelRemove lde fec nexthop priority
  have refines := remove_refines lde fec nexthop priority
  generalize ldeKernelRemove lde fec nexthop priority = lde' at conf counter refines ⊢
  generalize seen : lde'.bindings = after at refines
  cases refines with
  | unlisted unknown =>
    refine Or.inl ⟨fun known => unknown ((lists_iff lde fec nexthop priority).mpr known),
      conf, fun other => ?_, fun other => ?_, fun other => ?_, counter⟩
    · exact congrFun (congrArg Bindings.localLabel seen) other
    · exact congrArg nexthopKeys (congrFun (congrArg Bindings.nexthops seen) other)
    · exact congrFun (congrArg Bindings.data seen) other
  | listed fnh member key =>
    have nexthops (other : Fec) : lde'.nexthops other =
        (lde.bindings.removeNexthop fec fnh).nexthops other :=
      congrFun (congrArg Bindings.nexthops seen) other
    refine Or.inr ⟨(lists_iff lde fec nexthop priority).mp ⟨fnh, member, key⟩,
      conf, fun other => ?_, fun other => ?_, fun other => ?_, counter⟩
    · rw [nexthops fec]
      exact (congrFun (congrArg Bindings.localLabel seen) other).trans
        (Bindings.removeNexthop_localLabel lde.bindings fec fnh other)
    · rw [nexthops other, Bindings.removeNexthop_nexthops]
      split_ifs
      · rw [nexthopKeys, nexthopKeys, List.filter_map]
        refine congrArg (List.map _) (List.filter_congr fun item _ => ?_)
        obtain ⟨rfl, rfl⟩ := key
        simp [sameNexthop]
      · rfl
    · rw [nexthops fec]
      exact (congrFun (congrArg Bindings.data seen) other).trans
        (Bindings.removeNexthop_data lde.bindings fec fnh other)

/-! ### Idle FECs -/

theorem Inserted.idle {lde lde' : Lde} {fec : Fec} {nexthop : LdpdAddr} {priority : UInt8}
    {connected : Bool} {data : Option Nat}
    (inserted : Inserted lde fec nexthop priority connected data lde') (idle : lde.Idle) :
    lde'.Idle := by
  have before (other : Fec) (empty : lde'.nexthops other = []) :
      other ≠ fec ∧ lde.nexthops other = [] := by
    have keys := inserted.keys other
    rw [empty] at keys
    split_ifs at keys with same
    · exact absurd keys (by simp [nexthopKeys])
    · exact ⟨same, (nexthopKeys_eq_nil _).mp keys.symm⟩
  constructor
  case localLabel =>
    intro other empty
    obtain ⟨different, unlisted⟩ := before other empty
    rw [inserted.localLabel, if_neg different]
    exact idle.localLabel other unlisted
  case data =>
    intro other empty
    obtain ⟨different, unlisted⟩ := before other empty
    rw [inserted.data, if_neg fun both => different both.1]
    exact idle.data other unlisted
  case route =>
    intro other family
    have passed : ¬(other = fec ∧ fec.af = none) := fun both => family (both.1 ▸ both.2)
    rw [inserted.data, if_neg passed]
    exact idle.route other family

theorem Removed.idle {lde lde' : Lde} {fec : Fec} {nexthop : LdpdAddr} {priority : UInt8}
    (removed : Removed lde fec nexthop priority lde') (idle : lde.Idle) : lde'.Idle := by
  have before (other : Fec) (different : other ≠ fec) (empty : lde'.nexthops other = []) :
      lde.nexthops other = [] := by
    have keys := removed.keys other
    rw [empty, if_neg different] at keys
    exact (nexthopKeys_eq_nil _).mp keys.symm
  have route (other : Fec) (family : other.af ≠ none) : lde'.data other = none := by
    have passed : ¬(other = fec ∧ fec.af = none ∧ lde'.nexthops fec = []) :=
      fun all => family (all.1 ▸ all.2.1)
    rw [removed.data, if_neg passed]
    exact idle.route other family
  constructor
  case localLabel =>
    intro other empty
    rw [removed.localLabel]
    split_ifs with last
    · rfl
    · exact idle.localLabel other (before other (fun same => last ⟨same, same ▸ empty⟩) empty)
  case data =>
    intro other empty
    by_cases family : other.af = none
    · rw [removed.data]
      split_ifs with last
      · rfl
      · refine idle.data other (before other (fun same => last ?_) empty)
        exact ⟨same, same ▸ family, same ▸ empty⟩
    · exact route other family
  case route => exact route

end Ldpd
