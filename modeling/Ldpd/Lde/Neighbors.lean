/-
This file says which neighbors the label decision engine knows: only the news that one
is up or down changes that.
-/

import Ldpd.Lde.Peer
import Ldpd.Lde.Egress

namespace Ldpd

/-! ### What is kept -/

/-- Two states with the same neighbors. -/
structure NbrsKept (lde lde' : Lde) : Prop where
  mem : ∀ peerid : UInt32, peerid ∈ lde'.ldeNbrs ↔ peerid ∈ lde.ldeNbrs

theorem NbrsKept.refl (lde : Lde) : NbrsKept lde lde := ⟨fun _ => Iff.rfl⟩

theorem NbrsKept.trans {lde lde' lde'' : Lde} (first : NbrsKept lde lde')
    (second : NbrsKept lde' lde'') : NbrsKept lde lde'' :=
  ⟨fun peerid => (second.mem peerid).trans (first.mem peerid)⟩

theorem NbrsKept.foldl {Item : Type} (body : Lde → Item → Lde)
    (keeps : ∀ lde item, NbrsKept lde (body lde item)) (items : List Item) (lde : Lde) :
    NbrsKept lde (items.foldl body lde) :=
  Run.foldl_related .refl .trans keeps items lde

theorem Touched.nbrsKept {lde lde' : Lde} (touched : Touched lde lde') : NbrsKept lde lde' := by
  induction touched with
  | trans _ _ first second => exact first.trans second
  | updateNbr lde peerid change => exact ⟨mem_updateNbr lde peerid change⟩
  | _ => exact ⟨fun _ => Iff.rfl⟩

section Kept

variable (lde : Lde)

theorem NbrsKept.updateNode (fec : Fec) (change : FecNode → FecNode) :
    NbrsKept lde (lde.updateNode fec change) := ⟨fun _ => Iff.rfl⟩

theorem NbrsKept.setData (fec : Fec) (data : Option Nat) : NbrsKept lde (setData lde fec data) := by
  cases fec with
  | ipv4 | ipv6 => exact .refl lde
  | pwid => exact .updateNode lde _ _

/-! ### Routes and pseudowires -/

theorem NbrsKept.assignLocalLabel (fec : Fec) (connected : Bool) :
    NbrsKept lde (assignLocalLabel lde fec connected) := by
  have counted : NbrsKept lde (ldeAssignLabel lde).1 := ⟨fun _ => Iff.rfl⟩
  have told (lde : Lde) : NbrsKept lde (lde.ldeNbrs.keys.foldl
      (fun lde peerid => ldeSendLabelmapping lde peerid fec true) lde) :=
    (Touched.foldl _ (fun lde peerid => .ldeSendLabelmapping lde peerid fec true) _ lde).nbrsKept
  rw [Ldpd.assignLocalLabel]
  dsimp only
  split
  · exact ⟨fun _ => Iff.rfl⟩
  · refine .trans ?_ (told _)
    cases connected with
    | true => exact .updateNode lde fec _
    | false => exact counted.trans (.updateNode _ fec _)

theorem NbrsKept.insertNexthop (fec : Fec) (fn : FecNode) (nexthop : LdpdAddr) (priority : UInt8)
    (connected : Bool) (data : Option Nat) :
    NbrsKept lde (insertNexthop lde fec fn nexthop priority connected data) := by
  have labelled (lde : Lde) : NbrsKept lde
      (if fn.localLabel = noLabel then Ldpd.assignLocalLabel lde fec connected else lde) := by
    split
    · exact .assignLocalLabel lde fec connected
    · exact .refl lde
  rw [Ldpd.insertNexthop]
  exact .trans (.setData lde fec data) (.trans (labelled _)
    (.trans (.updateNode _ fec _) (Touched.ldeSendChangeKlabel _ fec _).nbrsKept))

theorem NbrsKept.ldeKernelInsert (fec : Fec) (nexthop : LdpdAddr) (priority : UInt8)
    (connected : Bool) (data : Option Nat) :
    NbrsKept lde (ldeKernelInsert lde fec nexthop priority connected data) := by
  have added := (Touched.fecAdd lde fec).nbrsKept
  rw [Ldpd.ldeKernelInsert]
  split
  · exact added
  split
  · exact added
  · exact added.trans (.trans (.insertNexthop _ fec _ nexthop priority connected data)
      (Touched.useRecordedMapping _ fec nexthop).nbrsKept)

theorem NbrsKept.ldeKernelRemove (fec : Fec) (nexthop : LdpdAddr) (priority : UInt8) :
    NbrsKept lde (ldeKernelRemove lde fec nexthop priority) := by
  rw [Ldpd.ldeKernelRemove]
  split
  · exact .refl lde
  split
  · exact .refl lde
  · rename_i fnh _
    have unlisted : NbrsKept lde (fecNhDel (ldeSendDeleteKlabel lde fec fnh) fec fnh) :=
      (Touched.ldeSendDeleteKlabel lde fec fnh).nbrsKept.trans (.updateNode _ fec _)
    dsimp only
    split
    · exact unlisted.trans (.trans (Touched.ldeSendLabelwithdrawAll _ fec noLabel).nbrsKept
        (.trans (.updateNode _ fec _) (.setData _ fec none)))
    · exact unlisted

theorem NbrsKept.l2vpnPwInit (data : Nat) : NbrsKept lde (l2vpnPwInit lde data) := by
  rw [Ldpd.l2vpnPwInit]
  split
  · exact .refl lde
  · have reset : Touched lde (lde.updatePw data l2vpnPwReset) := .updatePw lde data fun _ => rfl
    exact reset.nbrsKept.trans (.ldeKernelInsert ..)

theorem NbrsKept.l2vpnPwExit (data : Nat) : NbrsKept lde (l2vpnPwExit lde data) := by
  rw [Ldpd.l2vpnPwExit]
  split
  · exact .refl lde
  · exact .ldeKernelRemove ..

theorem NbrsKept.ldeGcTimer : NbrsKept lde (ldeGcTimer lde) := by
  refine NbrsKept.foldl _ (fun lde fec => ?_) _ lde
  rw [gcFec]
  split
  · exact .refl lde
  split
  · exact ⟨fun _ => Iff.rfl⟩
  · exact .refl lde

/-! ### Reloads -/

theorem PwOps.nbrsKept {lde lde' : Lde} (ops : PwOps lde lde') : NbrsKept lde lde' := by
  obtain ⟨list, pws, rfl⟩ := ops
  induction list generalizing lde with
  | nil => exact .refl lde
  | cons op rest inductionHypothesis =>
    refine .trans ?_ (inductionHypothesis fun op member => pws op (List.mem_cons_of_mem _ member))
    have pw := pws op List.mem_cons_self
    cases op with
    | event | mergeAf => cases pw
    | configure => exact ⟨fun _ => Iff.rfl⟩
    | pwInit data => exact .l2vpnPwInit lde data
    | pwExit data => exact .l2vpnPwExit lde data

theorem NbrsKept.mergeAf (af : Af) (expNull : Bool) : NbrsKept lde (mergeAf lde af expNull) := by
  have set : NbrsKept lde (lde.setExpNull af expNull) := by
    cases af with
    | _ => exact ⟨fun _ => Iff.rfl⟩
  have changed (peerid : UInt32) (lde : Lde) (fec : Fec) :
      NbrsKept lde (changeEgressFec af peerid lde fec) := by
    rw [changeEgressFec]
    split
    · exact .refl lde
    split
    · exact .refl lde
    split
    · split
      · exact ⟨fun _ => Iff.rfl⟩
      · exact .trans (.updateNode lde fec _) (Touched.ldeSendLabelmapping ..).nbrsKept
    · exact .refl lde
  rw [Ldpd.mergeAf]
  split
  · exact .refl lde
  · refine set.trans (NbrsKept.foldl _ (fun lde peerid => ?_) _ _)
    rw [changeEgressNbr]
    split
    · exact .refl lde
    · exact .trans (Touched.withdrawEgress ..).nbrsKept
        (.trans (NbrsKept.foldl _ (changed peerid) _ _) (Touched.composeLdpe ..).nbrsKept)

theorem NbrsKept.mergeConfig (xconf : Xconf) : NbrsKept lde (mergeConfig lde xconf) :=
  .trans (.mergeAf lde .inet xconf.ipv4ExpNull) (.trans (.mergeAf _ .inet6 xconf.ipv6ExpNull)
    (PwOps.mergeL2vpns _ xconf.l2vpnList).nbrsKept)

end Kept

/-! ### Neighbors that come and go -/

/-- What the news of a neighbor makes of the set of known ones. -/
def registers (known : Set UInt32) : LdeEvent → Set UInt32
  | .neighborUp peerid .. => insert peerid known
  | .neighborDown peerid => known \ {peerid}
  | _ => known

/-- The neighbors that the engine knows. -/
def Lde.known (lde : Lde) : Set UInt32 :=
  { peerid | peerid ∈ lde.ldeNbrs }

theorem NbrsKept.known {lde lde' : Lde} (kept : NbrsKept lde lde') : lde'.known = lde.known :=
  Set.ext kept.mem

theorem known_ldeNbrNew (lde : Lde) (peerid : UInt32) (id : InAddr) (v4Enabled v6Enabled : Bool) :
    (ldeNbrNew lde peerid id v4Enabled v6Enabled).known = insert peerid lde.known := by
  rw [ldeNbrNew]
  split
  · rename_i present
    have known : peerid ∈ lde.known := present
    exact (Set.insert_eq_of_mem known).symm
  · ext other
    show other ∈ lde.ldeNbrs.insert peerid _ ↔ _
    rw [Tree.mem_iff_getElem?, Tree.getElem?_insert, Set.mem_insert_iff]
    by_cases same : peerid = other
    · simp [same]
    · rw [if_neg same, ← Tree.mem_iff_getElem?]
      exact (or_iff_right (Ne.symm same)).symm

theorem known_ldeNbrDel (lde : Lde) (peerid : UInt32) :
    (ldeNbrDel lde peerid).known = lde.known \ {peerid} := by
  rw [ldeNbrDel]
  split
  · rename_i absent
    refine (Set.sdiff_singleton_eq_self fun present => ?_).symm
    obtain ⟨ln, found⟩ := (Tree.mem_iff_getElem? _ _).mp present
    cases absent.symm.trans found
  · rename_i ln _
    rw [← (Touched.nbrDown lde peerid ln).nbrsKept.known]
    ext other
    show other ∈ (Lde.ldeNbrs _).erase peerid ↔ _
    rw [Tree.mem_iff_getElem?, Tree.getElem?_erase]
    by_cases same : peerid = other
    · simp [same]
    · rw [if_neg same, ← Tree.mem_iff_getElem?]
      exact (and_iff_left (Ne.symm same)).symm

/-- Only the news of neighbors changes what the engine knows of them. -/
theorem known_ldeStep (lde : Lde) (event : LdeEvent) :
    (ldeStep lde event).known = registers lde.known event := by
  cases event with
  | neighborUp peerid id v4Enabled v6Enabled => exact known_ldeNbrNew ..
  | neighborDown peerid => exact known_ldeNbrDel ..
  | networkAdd => exact (NbrsKept.ldeKernelInsert ..).known
  | networkDel => exact (NbrsKept.ldeKernelRemove ..).known
  | labelMappingFull peerid =>
    rw [ldeStep]
    split
    · exact (Touched.fecSnap lde peerid).nbrsKept.known
    · rfl
  | labelMapping => exact (Touched.ldeCheckMapping ..).nbrsKept.known
  | labelRequest => exact (Touched.ldeCheckRequest ..).nbrsKept.known
  | labelRelease => exact (Touched.dispatchRelease ..).nbrsKept.known
  | labelWithdraw => exact (Touched.dispatchWithdraw ..).nbrsKept.known
  | labelAbort => rfl
  | addressAdd => exact (Touched.ldeAddressAdd ..).nbrsKept.known
  | addressDel => exact (Touched.ldeAddressDel ..).nbrsKept.known
  | notification => exact (Touched.dispatchNotification ..).nbrsKept.known
  | gcTimer => exact (NbrsKept.ldeGcTimer lde).known
  | pwNew data conf => exact (PwOps.l2vpnPwAdd lde data conf).nbrsKept.known
  | pwDel data => exact (PwOps.l2vpnPwDelete lde data).nbrsKept.known

end Ldpd
