/-
This file says what a change of the explicit-null setting does to the local labels:
`lde_change_egress_label` gives every FEC of the address family that has a reserved
label the label of the new setting, as long as there is a neighbor. From that follows
when the reserved labels of the engine are those of its configuration.
-/

import Ldpd.Lde.Reload
import Ldpd.Lde.Routes
import Ldpd.Library.Run

namespace Ldpd

/-! ### The label of connected routes -/

/-- The label that the connected routes of an address family have under the configuration. -/
def Lde.egressOf (lde : Lde) : Af → UInt32
  | .inet => if lde.ipv4ExpNull then mplsLabelIpv4null else mplsLabelImplnull
  | .inet6 => if lde.ipv6ExpNull then mplsLabelIpv6null else mplsLabelImplnull

theorem egressLabel_eq (lde : Lde) {fec : Fec} {af : Af} (family : fec.af = some af) :
    egressLabel lde fec = some (lde.egressOf af) := by
  cases fec with
  | pwid => cases family
  | ipv4 | ipv6 =>
    cases family
    rfl

theorem egressOf_reserved (lde : Lde) (af : Af) : lde.egressOf af ≤ mplsLabelReservedMax := by
  cases af with
  | inet =>
    rw [Lde.egressOf]
    split <;> decide
  | inet6 =>
    rw [Lde.egressOf]
    split <;> decide

theorem egressOf_eq {lde lde' : Lde} (kept : ConfKept lde lde') (af : Af) :
    lde'.egressOf af = lde.egressOf af := by
  cases af with
  | inet => rw [Lde.egressOf, kept.ipv4ExpNull, Lde.egressOf]
  | inet6 => rw [Lde.egressOf, kept.ipv6ExpNull, Lde.egressOf]

/-- A FEC whose label depends on the setting of an address family. -/
def Lde.Egress (lde : Lde) (af : Af) (fec : Fec) : Prop :=
  fec.af = some af ∧ lde.localLabel fec ≤ mplsLabelReservedMax

instance (lde : Lde) (af : Af) (fec : Fec) : Decidable (lde.Egress af fec) :=
  inferInstanceAs (Decidable (_ ∧ _))

/-! ### Changing the labels -/

/-- Of the FECs whose label depends on the setting, some have the new label. -/
structure EgressChanged (af : Af) (done : Fec → Prop) (lde lde' : Lde) : Prop
    extends ConfKept lde lde' where
  changed : ∀ fec, done fec → lde.Egress af fec → lde'.localLabel fec = lde.egressOf af
  passed : ∀ fec, ¬(done fec ∧ lde.Egress af fec) → lde'.localLabel fec = lde.localLabel fec
  keys : ∀ fec, nexthopKeys (lde'.nexthops fec) = nexthopKeys (lde.nexthops fec)
  data : ∀ fec, lde'.data fec = lde.data fec
  label : lde'.label = lde.label

theorem FecsKept.egressChanged {lde lde' : Lde} (kept : FecsKept lde lde') (af : Af) :
    EgressChanged af (fun _ => False) lde lde' where
  toConfKept := kept.toConfKept
  changed _ none := none.elim
  passed fec _ := kept.localLabel fec
  keys := kept.keys
  data := kept.data
  label := kept.label

theorem EgressChanged.egress {af : Af} {done : Fec → Prop} {lde lde' : Lde}
    (first : EgressChanged af done lde lde') (fec : Fec) :
    lde'.Egress af fec ↔ lde.Egress af fec := by
  by_cases relabelled : done fec ∧ lde.Egress af fec
  · refine and_congr_right fun _ => ?_
    rw [first.changed fec relabelled.1 relabelled.2]
    exact iff_of_true (egressOf_reserved lde af) relabelled.2.2
  · rw [Lde.Egress, Lde.Egress, first.passed fec relabelled]

theorem EgressChanged.trans {af : Af} {done done' : Fec → Prop} {lde lde' lde'' : Lde}
    (first : EgressChanged af done lde lde') (second : EgressChanged af done' lde' lde'') :
    EgressChanged af (fun fec => done fec ∨ done' fec) lde lde'' where
  toConfKept := first.toConfKept.trans second.toConfKept
  changed fec either egress := by
    by_cases later : done' fec
    · rw [second.changed fec later ((first.egress fec).mpr egress), egressOf_eq first.toConfKept]
    · rw [second.passed fec fun both => later both.1]
      exact first.changed fec (either.resolve_right later) egress
  passed fec neither := by
    rw [second.passed fec fun both => neither ⟨Or.inr both.1, (first.egress fec).mp both.2⟩]
    exact first.passed fec fun both => neither ⟨Or.inl both.1, both.2⟩
  keys fec := (second.keys fec).trans (first.keys fec)
  data fec := (second.data fec).trans (first.data fec)
  label := second.label.trans first.label

theorem EgressChanged.congr {af : Af} {done done' : Fec → Prop} {lde lde' : Lde}
    (changed : EgressChanged af done lde lde')
    (same : ∀ fec, lde.Egress af fec → (done fec ↔ done' fec)) : EgressChanged af done' lde lde' where
  toConfKept := changed.toConfKept
  changed fec holds egress := changed.changed fec ((same fec egress).mpr holds) egress
  passed fec neither := changed.passed fec fun both => neither ⟨(same fec both.2).mp both.1, both.2⟩
  keys := changed.keys
  data := changed.data
  label := changed.label

theorem localLabel_setLocalLabel (lde : Lde) {fec : Fec} {fn : FecNode}
    (node : lde.ft[fec]? = some fn) (label : UInt32) (other : Fec) :
    (lde.updateNode fec fun fn => { fn with localLabel := label }).localLabel other =
      if other = fec then label else lde.localLabel other := by
  have present : fec ∈ lde.ft := (Tree.mem_iff_getElem? _ _).mpr ⟨fn, node⟩
  refine (congrFun (congrArg Bindings.localLabel (bindings_setLocalLabel lde present label)) other).trans ?_
  show Function.update lde.localLabel fec label other = _
  split_ifs with same
  · rw [same, Function.update_self]
  · exact Function.update_of_ne same _ _

theorem egressChanged_changeEgressFec (af : Af) (peerid : UInt32) (lde : Lde) (fec : Fec) :
    EgressChanged af (· = fec) lde (changeEgressFec af peerid lde fec) := by
  rw [changeEgressFec]
  have kept (notEgress : ¬lde.Egress af fec) : EgressChanged af (· = fec) lde lde :=
    ((FecsKept.refl lde).egressChanged af).congr fun other egress =>
      iff_of_false (fun never => never) fun same => notEgress (same ▸ egress)
  split
  · rename_i absent
    refine kept fun egress => ?_
    rw [Lde.Egress, Lde.localLabel, absent] at egress
    exact absurd egress.2 (by decide)
  · rename_i fn node
    have labelled : lde.localLabel fec = fn.localLabel := lde.localLabel_eq_of_node node
    split
    · rename_i free
      refine kept fun egress => ?_
      rw [Lde.Egress, labelled] at egress
      exact absurd free (UInt32.not_lt.mpr egress.2)
    split
    · rename_i reserved family
      rw [egressLabel_eq lde family]
      dsimp only
      have sent := (Touched.ldeSendLabelmapping
        (lde.updateNode fec fun fn => { fn with localLabel := lde.egressOf af }) peerid fec
          false).fecsKept
      refine ⟨(confKept_updateNode lde fec _).trans sent.toConfKept, fun other same egress => ?_,
        fun other different => ?_, fun other => ?_, fun other => ?_, sent.label⟩
      · rw [sent.localLabel, localLabel_setLocalLabel lde node, if_pos same]
      · rw [sent.localLabel, localLabel_setLocalLabel lde node, if_neg]
        intro same
        refine different ⟨same, ?_⟩
        rw [same]
        exact ⟨family, labelled ▸ UInt32.not_lt.mp reserved⟩
      · have nexthops : (lde.updateNode fec fun fn => { fn with localLabel := lde.egressOf af }).nexthops
            other = lde.nexthops other := by
          rw [Lde.nexthops_eq, Lde.nexthops_eq, field_updateNode_same]
          exact fun _ => rfl
        rw [sent.keys, nexthops]
      · have data : (lde.updateNode fec fun fn => { fn with localLabel := lde.egressOf af }).data
            other = lde.data other := by
          rw [Lde.data_eq, Lde.data_eq, field_updateNode_same]
          exact fun _ => rfl
        rw [sent.data, data]
    · rename_i other
      exact kept fun egress => other egress.1

theorem egressChanged_foldl (af : Af) (peerid : UInt32) (fecs : List Fec) (lde : Lde) :
    EgressChanged af (· ∈ fecs) lde (fecs.foldl (changeEgressFec af peerid) lde) := by
  induction fecs generalizing lde with
  | nil => exact ((FecsKept.refl lde).egressChanged af).congr fun fec _ => by simp
  | cons fec rest inductionHypothesis =>
    refine ((egressChanged_changeEgressFec af peerid lde fec).trans
      (inductionHypothesis _)).congr fun other _ => ?_
    rw [List.mem_cons]

theorem Touched.withdrawEgress (wasImplicit : Bool) (lde : Lde) (peerid : UInt32) (ln : LdeNbr) :
    Touched lde (withdrawEgress wasImplicit lde peerid ln) := by
  have withdrawn (lde : Lde) (enabled : Bool) (label : UInt32) :
      Touched lde (if enabled then Ldpd.ldeSendLabelwithdraw lde peerid none label none else lde) := by
    split
    · exact .ldeSendLabelwithdraw lde peerid none label none
    · exact .refl lde
  rw [Ldpd.withdrawEgress]
  split
  · exact .ldeSendLabelwithdraw lde peerid none mplsLabelImplnull none
  · exact .trans (withdrawn lde ln.v4Enabled mplsLabelIpv4null)
      (withdrawn _ ln.v6Enabled mplsLabelIpv6null)

/-- For a neighbor that is there, all FECs that depend on the setting get the new label. -/
theorem egressChanged_changeEgressNbr (af : Af) (wasImplicit : Bool) (lde : Lde) (peerid : UInt32) :
    EgressChanged af (fun _ => peerid ∈ lde.ldeNbrs) lde (changeEgressNbr af wasImplicit lde peerid) := by
  rw [changeEgressNbr]
  split
  · rename_i absent
    refine ((FecsKept.refl lde).egressChanged af).congr fun fec _ => iff_of_false (fun never => never) ?_
    rw [Tree.mem_iff_getElem?]
    rintro ⟨ln, present⟩
    exact nomatch absent.symm.trans present
  · rename_i ln present
    have withdrawn := (Touched.withdrawEgress wasImplicit lde peerid ln).fecsKept
    generalize Ldpd.withdrawEgress wasImplicit lde peerid ln = lde' at withdrawn ⊢
    have changed := (withdrawn.egressChanged af).trans
      ((egressChanged_foldl af peerid lde'.ft.keys lde').trans
        ((FecsKept.composeLdpe _ (.mappingAddEnd peerid)).egressChanged af))
    refine changed.congr fun fec egress => iff_of_true (Or.inr (Or.inl ?_))
      ((Tree.mem_iff_getElem? _ _).mpr ⟨ln, present⟩)
    have labelled := egress.2
    rw [← withdrawn.localLabel fec, Lde.localLabel] at labelled
    rw [Std.ExtTreeMap.mem_keys, Tree.mem_iff_getElem?]
    cases node : lde'.ft[fec]? with
    | none =>
      rw [node] at labelled
      exact absurd labelled (by decide)
    | some fn => exact ⟨fn, rfl⟩

/-- `lde_change_egress_label` gives the new label to all FECs that depend on the setting if there
is a neighbor, and to none otherwise. -/
theorem egressChanged_ldeChangeEgressLabel (lde : Lde) (af : Af) (wasImplicit : Bool) :
    EgressChanged af (fun _ => lde.ldeNbrs.keys ≠ []) lde (ldeChangeEgressLabel lde af wasImplicit) := by
  have more (peers : List UInt32) (lde : Lde) :
      ∃ done : Prop, EgressChanged af (fun _ => done) lde
        (peers.foldl (changeEgressNbr af wasImplicit) lde) := by
    induction peers generalizing lde with
    | nil => exact ⟨False, (FecsKept.refl lde).egressChanged af⟩
    | cons peerid rest inductionHypothesis =>
      obtain ⟨done, changed⟩ := inductionHypothesis (changeEgressNbr af wasImplicit lde peerid)
      exact ⟨_, (egressChanged_changeEgressNbr af wasImplicit lde peerid).trans changed⟩
  rw [ldeChangeEgressLabel]
  cases peers : lde.ldeNbrs.keys with
  | nil => exact ((FecsKept.refl lde).egressChanged af).congr fun _ _ => by simp
  | cons peerid rest =>
    have present : peerid ∈ lde.ldeNbrs := by
      rw [← Std.ExtTreeMap.mem_keys, peers]
      exact List.mem_cons_self
    obtain ⟨done, changed⟩ := more rest (changeEgressNbr af wasImplicit lde peerid)
    refine ((egressChanged_changeEgressNbr af wasImplicit lde peerid).trans changed).congr fun _ _ => ?_
    exact iff_of_true (Or.inl present) (by simp)

end Ldpd
