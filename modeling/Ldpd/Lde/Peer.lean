/-
This file is about what two engines know of each other: the mappings that one of them
has recorded from the other, and the messages that the other has queued for it. A label
message changes the record of a FEC in a way that only depends on the record and on the
message, whatever else the engine does with it.
-/

import Ldpd.Lde.Refinement
import Ldpd.Library.Run

namespace Ldpd

/-! ### Messages between engines -/

/-- The neighbor a message is for. -/
def LdpeImsg.peerid : LdpeImsg → UInt32
  | .mappingAdd peerid _ | .mappingAddEnd peerid | .withdrawAdd peerid _ | .withdrawAddEnd peerid
  | .releaseAdd peerid _ | .releaseAddEnd peerid | .notificationSend peerid _ => peerid

/-- The messages queued for a neighbor. -/
def Lde.toPeer (lde : Lde) (peerid : UInt32) : List LdpeImsg :=
  lde.toLdpe.filter fun imsg => imsg.peerid = peerid

/-- A message of a neighbor reaches the engine, which knows the neighbor under a peerid of its
own. -/
def deliver (self : UInt32) (lde : Lde) : LdpeImsg → Lde
  | .mappingAdd _ map => ldeCheckMapping lde map self
  | .withdrawAdd _ map => dispatchWithdraw lde map self
  | .releaseAdd _ map => dispatchRelease lde map self
  | .notificationSend _ nm => dispatchNotification lde nm self
  | .mappingAddEnd _ | .withdrawAddEnd _ | .releaseAddEnd _ => lde

/-- The label of the mapping that is recorded from a neighbor for a FEC. -/
def Lde.received (lde : Lde) (peerid : UInt32) (fec : Fec) : Option UInt32 :=
  (lde.ldeNbrs[peerid]?).bind fun ln => (ln.recvMap[fec]?).map Map.label

/-- What a message makes of the record of a route. -/
def heard (fec : Fec) (known : Option UInt32) : LdpeImsg → Option UInt32
  | .mappingAdd _ map => if ldeMap2fec map 0 = fec then some map.label else known
  | .withdrawAdd _ map =>
    if (map.fec = .wildcard ∨ ldeMap2fec map 0 = fec) ∧
        (map.label = noLabel ∨ known = some map.label) then none
    else known
  | _ => known

/-- The messages that advertise and withdraw labels, with their end markers. -/
def LdpeImsg.advertises : LdpeImsg → Bool
  | .mappingAdd .. | .mappingAddEnd _ | .withdrawAdd .. | .withdrawAddEnd _ => true
  | .releaseAdd .. | .releaseAddEnd _ | .notificationSend .. => false

/-! ### The record of a neighbor -/

/-- The neighbors whose mappings a FEC node lists. -/
def Lde.downstream (lde : Lde) (fec : Fec) : List UInt32 :=
  ((lde.ft[fec]?).map FecNode.downstream).getD []

/-- Every mapping that is recorded from a neighbor is in the list of the node of its FEC. -/
def Lde.Rooted (lde : Lde) (peerid : UInt32) : Prop :=
  ∀ fec, lde.received peerid fec ≠ none → peerid ∈ lde.downstream fec

theorem mem_ft_of_mem_downstream {lde : Lde} {peerid : UInt32} {fec : Fec}
    (listed : peerid ∈ lde.downstream fec) : fec ∈ lde.ft := by
  rw [Lde.downstream] at listed
  cases node : lde.ft[fec]? with
  | none =>
    rw [node] at listed
    exact absurd listed List.not_mem_nil
  | some fn => exact (Tree.mem_iff_getElem? _ _).mpr ⟨fn, node⟩

/-- Two states with the same record of a neighbor, the second one with no fewer nodes. -/
structure RecordKept (peerid : UInt32) (lde lde' : Lde) : Prop where
  nbr : lde'.bindings.nbr peerid = lde.bindings.nbr peerid
  downstream : ∀ fec, peerid ∈ lde'.downstream fec ↔ peerid ∈ lde.downstream fec
  node : ∀ fec, fec ∈ lde.ft → fec ∈ lde'.ft

section Record

variable {peerid : UInt32} {lde lde' lde'' : Lde}

theorem RecordKept.refl (peerid : UInt32) (lde : Lde) : RecordKept peerid lde lde :=
  ⟨rfl, fun _ => Iff.rfl, fun _ known => known⟩

theorem RecordKept.trans (first : RecordKept peerid lde lde') (second : RecordKept peerid lde' lde'') :
    RecordKept peerid lde lde'' :=
  ⟨second.nbr.trans first.nbr, fun fec => (second.downstream fec).trans (first.downstream fec),
    fun fec known => second.node fec (first.node fec known)⟩

theorem RecordKept.foldl {Item : Type} (body : Lde → Item → Lde)
    (keeps : ∀ lde item, RecordKept peerid lde (body lde item)) (items : List Item) (lde : Lde) :
    RecordKept peerid lde (items.foldl body lde) :=
  Run.foldl_related (.refl peerid) .trans keeps items lde

theorem received_eq (lde : Lde) (peerid : UInt32) (fec : Fec) :
    lde.received peerid fec =
      (lde.bindings.nbr peerid).bind fun ln => (ln.recvMap[fec]?).map Map.label := by
  show _ = ((lde.ldeNbrs[peerid]?).map LdeNbr.view).bind _
  rw [Lde.received]
  cases lde.ldeNbrs[peerid]? <;> rfl

theorem RecordKept.received (kept : RecordKept peerid lde lde') (fec : Fec) :
    lde'.received peerid fec = lde.received peerid fec := by
  rw [received_eq, kept.nbr, received_eq]

theorem RecordKept.rooted (kept : RecordKept peerid lde lde') (rooted : lde.Rooted peerid) :
    lde'.Rooted peerid := by
  intro fec known
  rw [kept.received] at known
  exact (kept.downstream fec).mpr (rooted fec known)

theorem RecordKept.mem (kept : RecordKept peerid lde lde') :
    peerid ∈ lde'.ldeNbrs ↔ peerid ∈ lde.ldeNbrs := by
  have present (lde : Lde) : peerid ∈ lde.ldeNbrs ↔ (lde.bindings.nbr peerid).isSome := by
    show _ ↔ ((lde.ldeNbrs[peerid]?).map LdeNbr.view).isSome
    rw [Option.isSome_map, Std.ExtTreeMap.mem_iff_isSome_getElem?]
  rw [present, present, kept.nbr]

theorem KernelOnly.recordKept (peerid : UInt32) (kernel : KernelOnly lde lde') :
    RecordKept peerid lde lde' := by
  refine ⟨?_, fun fec => ?_, fun fec known => kernel.ft ▸ known⟩
  · show (lde'.ldeNbrs[peerid]?).map LdeNbr.view = _
    rw [kernel.ldeNbrs]
    rfl
  · rw [Lde.downstream, Lde.downstream, kernel.ft]

theorem RecordKept.updateNode (peerid : UInt32) (lde : Lde) (fec : Fec)
    {change : FecNode → FecNode} (same : ∀ fn, (change fn).downstream = fn.downstream) :
    RecordKept peerid lde (lde.updateNode fec change) := by
  refine ⟨rfl, fun other => ?_, fun other known => (mem_updateNode lde fec other change).mpr known⟩
  rw [Lde.downstream, Lde.downstream, field_updateNode_same _ _ _ _ _ same]

theorem RecordKept.setRemoteLabel (peerid : UInt32) (lde : Lde) (fec : Fec) (fnh : FecNh)
    (label : UInt32) : RecordKept peerid lde (lde.setRemoteLabel fec fnh label) :=
  .updateNode peerid lde fec fun _ => rfl

theorem RecordKept.updatePw (peerid : UInt32) (lde : Lde) (data : Nat)
    (change : L2vpnPw → L2vpnPw) : RecordKept peerid lde (lde.updatePw data change) :=
  ⟨rfl, fun _ => Iff.rfl, fun _ known => known⟩

theorem RecordKept.composeLdpe (peerid : UInt32) (lde : Lde) (imsg : LdpeImsg) :
    RecordKept peerid lde (lde.composeLdpe imsg) :=
  ⟨rfl, fun _ => Iff.rfl, fun _ known => known⟩

theorem RecordKept.fecAdd (peerid : UInt32) (lde : Lde) (fec : Fec) :
    RecordKept peerid lde (fecAdd lde fec) := by
  refine ⟨rfl, fun other => ?_, fun other known => Std.ExtTreeMap.mem_insertIfNew.mpr (Or.inr known)⟩
  rw [Lde.downstream, Lde.downstream, getElem?_fecAdd]
  split_ifs with same
  · subst same
    cases lde.ft[fec]? with
    | none => simp
    | some fn => rfl
  · rfl

/-- A change of a neighbor that does not touch the mappings received from it. -/
theorem RecordKept.updateNbr (peerid : UInt32) (lde : Lde) (other : UInt32)
    {change : LdeNbr → LdeNbr} (same : ∀ ln, (change ln).view = ln.view) :
    RecordKept peerid lde (lde.updateNbr other change) :=
  ⟨congrFun (congrArg Bindings.nbr (bindings_updateNbr_same lde other change same)) peerid,
    fun _ => Iff.rfl, fun _ known => known⟩

theorem RecordKept.ldeMapAdd_sent (peerid : UInt32) (lde : Lde) (other : UInt32) (fec : Fec)
    (map : Map) : RecordKept peerid lde (ldeMapAdd lde other fec map true) := by
  refine .trans (.updateNode peerid lde fec ?_) (.updateNbr peerid _ other ?_)
  · exact fun _ => rfl
  · exact fun _ => rfl

/-! ### What does not touch the record -/

theorem RecordKept.ldeSendLabelmapping (peerid : UInt32) (lde : Lde) (other : UInt32) (fec : Fec)
    (single : Bool) : RecordKept peerid lde (ldeSendLabelmapping lde other fec single) := by
  have requested : RecordKept peerid lde (lde.updateNbr other fun ln =>
      { ln with recvReq := ln.recvReq.erase fec }) := .updateNbr peerid lde other fun _ => rfl
  rw [Ldpd.ldeSendLabelmapping]
  split
  · split
    · have recorded (lde : Lde) (ln : LdeNbr) (map : Map) :
          RecordKept peerid lde (recordSent lde other ln fec map) := by
        rw [recordSent]
        split
        · exact .updateNbr peerid lde other fun _ => rfl
        · exact .ldeMapAdd_sent peerid lde other fec map
      refine .trans ?_ (recorded _ _ _)
      split
      · exact requested.trans (.trans (.composeLdpe peerid _ _) (.composeLdpe peerid _ _))
      · exact requested.trans (.composeLdpe peerid _ _)
    · exact .refl peerid lde
  · exact .refl peerid lde

theorem RecordKept.ldeSendLabelwithdraw (peerid : UInt32) (lde : Lde) (other : UInt32)
    (fec : Option Fec) (label : UInt32) (st : Option MapStatus) :
    RecordKept peerid lde (ldeSendLabelwithdraw lde other fec label st) := by
  have recorded (label : UInt32) (lde : Lde) (fec : Fec) :
      RecordKept peerid lde (recordWdraw other label lde fec) :=
    .updateNbr peerid lde other fun _ => rfl
  unfold Ldpd.ldeSendLabelwithdraw
  split
  · exact .refl peerid lde
  split
  · exact .refl peerid lde
  · dsimp only
    split
    · exact .trans (.composeLdpe peerid lde _) (.trans (.composeLdpe peerid _ _) (recorded _ _ _))
    · exact .trans (.composeLdpe peerid lde _) (.trans (.composeLdpe peerid _ _)
        (.foldl _ (recorded _) _ _))

theorem RecordKept.ldeSendLabelrelease (peerid : UInt32) (lde : Lde) (other : UInt32)
    (fec : Option Fec) (label : UInt32) :
    RecordKept peerid lde (ldeSendLabelrelease lde other fec label) := by
  have sent (map : Map) : RecordKept peerid lde
      ((lde.composeLdpe (.releaseAdd other map)).composeLdpe (.releaseAddEnd other)) :=
    .trans (.composeLdpe peerid lde _) (.composeLdpe peerid _ _)
  unfold Ldpd.ldeSendLabelrelease
  dsimp only
  split
  · exact sent _
  split
  · split
    · exact sent _
    · exact .refl peerid lde
  · exact .refl peerid lde

theorem RecordKept.uninstallNexthops (peerid : UInt32) (lde : Lde) (fec : Fec)
    (test : FecNh → Bool) : RecordKept peerid lde (uninstallNexthops lde fec test) :=
  .foldl _ (fun lde fnh => ((kernelOnly_ldeSendDeleteKlabel lde fec fnh).recordKept peerid).trans
    (.setRemoteLabel peerid _ fec fnh noLabel)) _ lde

theorem RecordKept.installNexthop (peerid : UInt32) (map : Map) (ln : LdeNbr) (fec : Fec)
    (lde : Lde) (fnh : FecNh) : RecordKept peerid lde (installNexthop map ln fec lde fnh) := by
  have changed (lde : Lde) (fnh : FecNh) : RecordKept peerid lde (ldeSendChangeKlabel lde fec fnh) :=
    (kernelOnly_ldeSendChangeKlabel lde fec fnh).recordKept peerid
  have relabelled (lde : Lde) : RecordKept peerid lde (lde.setRemoteLabel fec fnh map.label) :=
    .setRemoteLabel peerid lde fec fnh map.label
  unfold Ldpd.installNexthop
  dsimp only
  split
  · split
    · exact (relabelled lde).trans (changed _ _)
    · exact .refl peerid lde
  · split
    · exact (relabelled lde).trans (changed _ _)
    · exact .refl peerid lde
  · split
    · exact .refl peerid lde
    split
    · exact ⟨rfl, fun _ => Iff.rfl, fun _ known => known⟩
    split
    · exact .trans (.updatePw peerid lde _ _) ((relabelled _).trans (changed _ _))
    · exact .trans (.updatePw peerid lde _ _) (relabelled _)

theorem RecordKept.negotiateStatus (peerid : UInt32) (lde : Lde) (data : Nat) (ln : LdeNbr)
    (fec : Fec) (map : Map) : RecordKept peerid lde (negotiateStatus lde data ln fec map) := by
  unfold Ldpd.negotiateStatus
  split
  · exact .updatePw peerid lde data _
  · exact .refl peerid lde

theorem RecordKept.negotiateMapping (peerid : UInt32) (lde : Lde) (other : UInt32) (ln : LdeNbr)
    (fec : Fec) (map : Map) : RecordKept peerid lde (negotiateMapping lde other ln fec map).1 := by
  have status (lde : Lde) (data : Nat) : RecordKept peerid lde (Ldpd.negotiateStatus lde data ln fec map) :=
    .negotiateStatus peerid lde data ln fec map
  have flagged (lde : Lde) (data : Nat) (change : PwFlags → PwFlags) :
      RecordKept peerid lde (lde.setPwFlags data change) := .updatePw peerid lde data _
  have again (data : Nat) : RecordKept peerid lde (renegotiateCword lde other data fec map) :=
    .trans (.ldeSendLabelwithdraw peerid lde other _ _ _)
      (.trans (flagged _ data _) (.ldeSendLabelmapping peerid _ other fec true))
  rw [Ldpd.negotiateMapping]
  split
  · rw [l2vpnPwNegotiate]
    repeat' split
    all_goals first
      | exact .refl peerid lde
      | exact (again _).trans (status _ _)
      | exact (flagged lde _ _).trans (status _ _)
      | exact status lde _
      | exact ⟨rfl, fun _ => Iff.rfl, fun _ known => known⟩
  · exact .refl peerid lde

theorem RecordKept.replaceLabel (peerid : UInt32) (lde : Lde) (other : UInt32) (ln : LdeNbr)
    (fec : Fec) (map : Map) (requested : Bool) :
    RecordKept peerid lde (replaceLabel lde other ln fec map requested) := by
  unfold Ldpd.replaceLabel
  split
  · exact .refl peerid lde
  split
  · exact .trans (.ldeSendLabelrelease peerid lde other _ _) (.uninstallNexthops peerid _ fec _)
  · exact .refl peerid lde

end Record

/-! ### What a message makes of the record -/

/-- The record of a neighbor changes route by route. -/
structure Hears (peerid : UInt32) (change : Fec → Option UInt32 → Option UInt32) (lde lde' : Lde) :
    Prop where
  mem : peerid ∈ lde'.ldeNbrs ↔ peerid ∈ lde.ldeNbrs
  rooted : lde'.Rooted peerid
  received : ∀ fec, fec.af ≠ none →
    lde'.received peerid fec = change fec (lde.received peerid fec)

theorem RecordKept.hears {self : UInt32} {lde lde' : Lde} (kept : RecordKept self lde lde')
    (rooted : lde.Rooted self) : Hears self (fun _ known => known) lde lde' :=
  ⟨kept.mem, kept.rooted rooted, fun fec _ => kept.received fec⟩

theorem Hears.trans {self : UInt32} {change change' : Fec → Option UInt32 → Option UInt32}
    {lde lde' lde'' : Lde} (first : Hears self change lde lde')
    (second : Hears self change' lde' lde'') :
    Hears self (fun fec known => change' fec (change fec known)) lde lde'' where
  mem := second.mem.trans first.mem
  rooted := second.rooted
  received fec family := by rw [second.received fec family, first.received fec family]

theorem Hears.congr {peerid : UInt32} {change change' : Fec → Option UInt32 → Option UInt32}
    {lde lde' : Lde} (hears : Hears peerid change lde lde')
    (same : ∀ fec, fec.af ≠ none →
      change fec (lde.received peerid fec) = change' fec (lde.received peerid fec)) :
    Hears peerid change' lde lde' where
  mem := hears.mem
  rooted := hears.rooted
  received fec family := (hears.received fec family).trans (same fec family)

theorem received_updateNbr (lde : Lde) {self : UInt32} {ln : LdeNbr}
    (found : lde.ldeNbrs[self]? = some ln) (change : LdeNbr → LdeNbr) (fec : Fec) :
    (lde.updateNbr self change).received self fec = ((change ln).recvMap[fec]?).map Map.label := by
  rw [Lde.received, getElem?_updateNbr, if_pos rfl, found]
  rfl

theorem mem_updateNbr (lde : Lde) (self : UInt32) (change : LdeNbr → LdeNbr) (other : UInt32) :
    other ∈ (lde.updateNbr self change).ldeNbrs ↔ other ∈ lde.ldeNbrs :=
  Std.ExtTreeMap.mem_modify

theorem downstream_updateNode (lde : Lde) (fec : Fec) (change : List UInt32 → List UInt32)
    (node : fec ∈ lde.ft) (other : Fec) :
    (lde.updateNode fec fun fn => { fn with downstream := change fn.downstream }).downstream other =
      if other = fec then change (lde.downstream fec) else lde.downstream other := by
  obtain ⟨fn, found⟩ := (Tree.mem_iff_getElem? _ _).mp node
  rw [Lde.downstream, field_updateNode]
  by_cases same : other = fec
  · subst same
    rw [if_pos rfl, if_pos rfl, Lde.downstream, found]
    rfl
  · rw [if_neg (Ne.symm same), if_neg same, Lde.downstream]

/-- A mapping is recorded. -/
theorem hears_recordReceived {self : UInt32} (lde : Lde) (rooted : lde.Rooted self)
    (present : self ∈ lde.ldeNbrs) {fec : Fec} (node : fec ∈ lde.ft) {known : Bool}
    (recorded : known = true ↔ lde.received self fec ≠ none) (map : Map) :
    Hears self (fun other label => if other = fec then some map.label else label) lde
      (recordReceived lde self known fec map) := by
  obtain ⟨ln, found⟩ := (Tree.mem_iff_getElem? _ _).mp present
  have before (other : Fec) : lde.received self other = (ln.recvMap[other]?).map Map.label := by
    rw [Lde.received, found]
    rfl
  have entered (other : Fec) : (((ln.recvMap.insert fec map)[other]?).map Map.label) =
      if other = fec then some map.label else lde.received self other := by
    rw [Tree.getElem?_insert, before]
    by_cases same : other = fec
    · rw [if_pos same.symm, if_pos same, Option.map_some]
    · rw [if_neg (Ne.symm same), if_neg same]
  unfold recordReceived
  split
  · rename_i listed
    have received (other : Fec) : (ldeMapSet lde self fec map false).received self other =
        if other = fec then some map.label else lde.received self other :=
      (received_updateNbr lde found _ other).trans (entered other)
    refine ⟨mem_updateNbr lde self _ self, fun other labelled => ?_, fun other _ => received other⟩
    rw [received] at labelled
    by_cases same : other = fec
    · exact rooted other (same ▸ recorded.mp listed)
    · rw [if_neg same] at labelled
      exact rooted other labelled
  · have received (other : Fec) : (ldeMapAdd lde self fec map false).received self other =
        if other = fec then some map.label else lde.received self other :=
      (received_updateNbr (lde.updateNode fec fun fn =>
        { fn with downstream := self :: fn.downstream }) found _ other).trans (entered other)
    refine ⟨mem_updateNbr _ self _ self, fun other labelled => ?_, fun other _ => received other⟩
    have listed : (ldeMapAdd lde self fec map false).downstream other =
        if other = fec then self :: lde.downstream fec else lde.downstream other :=
      downstream_updateNode lde fec (self :: ·) node other
    rw [listed]
    split
    · exact List.mem_cons_self
    · rename_i different
      rw [received, if_neg different] at labelled
      exact rooted other labelled

/-- What a withdraw of a label makes of the record of the FEC. -/
def withdrawn (label : UInt32) (known : Option UInt32) : Option UInt32 :=
  if label = noLabel ∨ known = some label then none else known

/-- The record of a mapping is removed. -/
theorem hears_forgetMapping {self : UInt32} (lde : Lde) (rooted : lde.Rooted self) (label : UInt32)
    (fec : Fec) :
    Hears self (fun other known => if other = fec then withdrawn label known else known) lde
      (forgetMapping self label lde fec) := by
  have kept (same : withdrawn label (lde.received self fec) = lde.received self fec) :
      Hears self (fun other known => if other = fec then withdrawn label known else known) lde lde := by
    refine ⟨Iff.rfl, rooted, fun other _ => ?_⟩
    split
    · rename_i equal
      rw [equal, same]
    · rfl
  unfold forgetMapping
  cases found : lde.ldeNbrs[self]? with
  | none =>
    refine kept ?_
    rw [Lde.received, found, withdrawn]
    simp
  | some ln =>
    rw [Option.bind_some]
    have before (other : Fec) : lde.received self other = (ln.recvMap[other]?).map Map.label := by
      rw [Lde.received, found]
      rfl
    cases recorded : ln.recvMap[fec]? with
    | none =>
      refine kept ?_
      rw [before, recorded, withdrawn]
      simp
    | some me =>
      dsimp only
      split
      · rename_i named
        have node : fec ∈ lde.ft := by
          refine mem_ft_of_mem_downstream (rooted fec ?_)
          rw [before, recorded]
          exact Option.some_ne_none _
        have gone : withdrawn label (lde.received self fec) = none := by
          rw [before, recorded, Option.map_some, withdrawn, if_pos]
          exact named.imp_right fun same => by rw [same]
        have received (other : Fec) : (ldeMapDel lde self fec false).received self other =
            if other = fec then withdrawn label (lde.received self other)
            else lde.received self other := by
          refine (received_updateNbr (lde.updateNode fec fun fn =>
            { fn with downstream := fn.downstream.erase self }) found _ other).trans ?_
          dsimp only
          rw [Tree.getElem?_erase]
          by_cases same : other = fec
          · rw [if_pos same.symm, if_pos same, same, gone, Option.map_none]
          · rw [if_neg (Ne.symm same), if_neg same, before]
        refine ⟨mem_updateNbr _ self _ self, fun other labelled => ?_, fun other _ => received other⟩
        have listed : (ldeMapDel lde self fec false).downstream other =
            if other = fec then (lde.downstream fec).erase self else lde.downstream other :=
          downstream_updateNode lde fec (·.erase self) node other
        rw [received] at labelled
        rw [listed]
        by_cases same : other = fec
        · rw [if_pos same, same, gone] at labelled
          exact absurd rfl labelled
        · rw [if_neg same] at labelled ⊢
          exact rooted other labelled
      · rename_i unnamed
        refine kept ?_
        rw [before, recorded, Option.map_some, withdrawn, if_neg]
        exact fun either => unnamed (either.imp_right fun same => (Option.some_inj.mp same).symm)

theorem withdrawn_withdrawn (label : UInt32) (known : Option UInt32) :
    withdrawn label (withdrawn label known) = withdrawn label known := by
  by_cases named : label = noLabel ∨ known = some label
  · rw [show withdrawn label known = none from if_pos named, withdrawn]
    split <;> rfl
  · rw [show withdrawn label known = known from if_neg named]
    exact if_neg named

theorem withdrawn_none (label : UInt32) : withdrawn label none = none := by
  rw [withdrawn]
  split <;> rfl

theorem ldeMap2fec_route (map : Map) (lsrId lsrId' : InAddr) {fec : Fec} (family : fec.af ≠ none) :
    ldeMap2fec map lsrId = fec ↔ ldeMap2fec map lsrId' = fec := by
  rw [ldeMap2fec, ldeMap2fec]
  cases map.fec with
  | wildcard => rfl
  | network addr => cases addr <;> rfl
  | pwid =>
    refine iff_of_false ?_ ?_
    all_goals
      rintro rfl
      exact family rfl

/-- A mapping is recorded, whatever its label replaces and wherever it is used. -/
theorem hears_acceptMapping {self : UInt32} (lde : Lde) (rooted : lde.Rooted self)
    (present : self ∈ lde.ldeNbrs) {fec : Fec} (node : fec ∈ lde.ft) {ln : LdeNbr}
    (recorded : fec ∈ ln.recvMap ↔ lde.received self fec ≠ none) (map : Map) :
    Hears self (fun other label => if other = fec then some map.label else label) lde
      (acceptMapping lde map self ln fec) := by
  rw [acceptMapping]
  have replaced := RecordKept.replaceLabel self lde self ln fec map (decide (fec ∈ ln.sentReq))
  generalize replaceLabel lde self ln fec map (decide (fec ∈ ln.sentReq)) = lde' at replaced
  have kept := replaced.trans
    (.foldl _ (RecordKept.installNexthop self map ln fec) (lde'.nexthops fec) lde')
  refine ((kept.hears rooted).trans (hears_recordReceived _ (kept.rooted rooted)
    (kept.mem.mpr present) (kept.node fec node) ?_ map))
  rw [decide_eq_true_iff, recorded, kept.received]

/-- A mapping is heard, unless it is for a pseudowire and the negotiation ignores it. -/
theorem hears_ldeCheckMapping {self : UInt32} (lde : Lde) (rooted : lde.Rooted self)
    (present : self ∈ lde.ldeNbrs) (map : Map) :
    Hears self (fun fec known => if ldeMap2fec map 0 = fec then some map.label else known) lde
      (ldeCheckMapping lde map self) := by
  obtain ⟨ln, found⟩ := (Tree.mem_iff_getElem? _ _).mp present
  unfold ldeCheckMapping
  simp only [found]
  generalize named : ldeMap2fec map ln.id = fec
  have cleared : RecordKept self lde (clearRequest lde self fec) :=
    .trans (.fecAdd self lde fec) (.updateNbr self _ self fun _ => rfl)
  have agreed := RecordKept.negotiateMapping self (clearRequest lde self fec) self ln fec map
  have negotiated := cleared.trans agreed
  have node : fec ∈ (clearRequest lde self fec).ft := by
    show fec ∈ lde.ft.insertIfNew fec _
    exact Std.ExtTreeMap.mem_insertIfNew_self
  split
  · rename_i ignored
    refine (negotiated.hears rooted).congr fun other family => ?_
    have pseudowire := af_of_negotiateMapping ignored 0
    rw [if_neg]
    rintro rfl
    exact family pseudowire
  · refine ((negotiated.hears rooted).trans (hears_acceptMapping _ (negotiated.rooted rooted)
      (negotiated.mem.mpr present) (agreed.node fec node) ?_ map)).congr fun other family => ?_
    · rw [negotiated.received, Lde.received, found, Option.bind_some, ne_eq, Option.map_eq_none_iff,
        ← ne_eq, Option.ne_none_iff_exists', Tree.mem_iff_getElem?]
    · rw [← named]
      exact if_congr (eq_comm.trans (ldeMap2fec_route map ln.id 0 family)) rfl rfl

/-- A withdraw of one FEC is heard, and one for a group of pseudowires is not for a route. -/
theorem hears_ldeCheckWithdraw {self : UInt32} (lde : Lde) (rooted : lde.Rooted self)
    (present : self ∈ lde.ldeNbrs) (map : Map) :
    Hears self (fun fec known => if ldeMap2fec map 0 = fec then withdrawn map.label known else known)
      lde (ldeCheckWithdraw lde map self) := by
  obtain ⟨ln, found⟩ := (Tree.mem_iff_getElem? _ _).mp present
  unfold ldeCheckWithdraw
  simp only [found]
  split
  · rename_i type _
    refine ((RecordKept.refl self lde).hears rooted).congr fun fec family => (if_neg ?_).symm
    rw [ldeMap2fec, type]
    rintro rfl
    exact family rfl
  · generalize named : ldeMap2fec map ln.id = fec
    have kept : RecordKept self lde (ldeSendLabelrelease (uninstallNexthops (fecAdd lde fec) fec
        (withdrawsNexthop ln fec (((fecAdd lde fec).ft[fec]?).bind FecNode.data).isSome)) self
          (some fec) map.label) :=
      .trans (.fecAdd self lde fec) (.trans (.uninstallNexthops self _ fec _)
        (.ldeSendLabelrelease self _ self (some fec) map.label))
    refine ((kept.hears rooted).trans (hears_forgetMapping _ (kept.rooted rooted) map.label
      fec)).congr fun other family => ?_
    rw [← named]
    exact if_congr (eq_comm.trans (ldeMap2fec_route map ln.id 0 family)) rfl rfl

/-- A wildcard withdraw is heard for every route. -/
theorem hears_ldeCheckWithdrawWcard {self : UInt32} (lde : Lde) (rooted : lde.Rooted self)
    (present : self ∈ lde.ldeNbrs) (map : Map) :
    Hears self (fun _ known => withdrawn map.label known) lde
      (ldeCheckWithdrawWcard lde map self) := by
  have loop (ln : LdeNbr) (fecs : List Fec) (lde : Lde) (rooted : lde.Rooted self) :
      Hears self (fun fec known => if fec ∈ fecs then withdrawn map.label known else known) lde
        (fecs.foldl (withdrawFec self ln map.label) lde) := by
    induction fecs generalizing lde with
    | nil => exact ((RecordKept.refl self lde).hears rooted).congr fun fec _ => by simp
    | cons fec rest inductionHypothesis =>
      have kept := RecordKept.uninstallNexthops self lde fec (ownsNexthop ln fec)
      have forgot := (kept.hears rooted).trans
        (hears_forgetMapping _ (kept.rooted rooted) map.label fec)
      refine (forgot.trans (inductionHypothesis _ forgot.rooted)).congr fun other _ => ?_
      by_cases same : other = fec
      · have listed : other ∈ fec :: rest := same ▸ List.mem_cons_self
        rw [if_pos same, if_pos listed, withdrawn_withdrawn, ite_self]
      · rw [if_neg same]
        exact if_congr (by rw [List.mem_cons, or_iff_right same]) rfl rfl
  obtain ⟨ln, found⟩ := (Tree.mem_iff_getElem? _ _).mp present
  unfold ldeCheckWithdrawWcard
  simp only [found]
  have kept := RecordKept.ldeSendLabelrelease self lde self none map.label
  refine ((kept.hears rooted).trans (loop ln _ _ (kept.rooted rooted))).congr fun fec _ => ?_
  split
  · rfl
  · rename_i unlisted
    have unknown : lde.received self fec = none := by
      by_contra known
      exact unlisted (Std.ExtTreeMap.mem_keys.mpr (mem_ft_of_mem_downstream (rooted fec known)))
    rw [unknown, withdrawn_none]

/-- What a neighbor advertises and withdraws is heard. -/
theorem hears_deliver {self : UInt32} (lde : Lde) (rooted : lde.Rooted self)
    (present : self ∈ lde.ldeNbrs) {imsg : LdpeImsg} (advertises : imsg.advertises = true) :
    Hears self (fun fec known => heard fec known imsg) lde (deliver self lde imsg) := by
  cases imsg with
  | releaseAdd | releaseAddEnd | notificationSend => cases advertises
  | mappingAddEnd | withdrawAddEnd => exact (RecordKept.refl self lde).hears rooted
  | mappingAdd _ map => exact hears_ldeCheckMapping lde rooted present map
  | withdrawAdd _ map =>
    show Hears self _ lde (dispatchWithdraw lde map self)
    unfold dispatchWithdraw
    split
    · rename_i wildcard
      refine (hears_ldeCheckWithdrawWcard lde rooted present map).congr fun fec _ => ?_
      rw [heard, withdrawn]
      exact if_congr (by simp [wildcard]) rfl rfl
    · rename_i specific
      refine (hears_ldeCheckWithdraw lde rooted present map).congr fun fec _ => ?_
      rw [heard, withdrawn]
      split_ifs <;> simp_all

theorem hears_foldl_deliver {self : UInt32} (imsgs : List LdpeImsg) (lde : Lde)
    (rooted : lde.Rooted self) (present : self ∈ lde.ldeNbrs)
    (advertise : ∀ imsg ∈ imsgs, imsg.advertises = true) :
    Hears self (fun fec known => imsgs.foldl (heard fec) known) lde
      (imsgs.foldl (deliver self) lde) := by
  induction imsgs generalizing lde with
  | nil => exact (RecordKept.refl self lde).hears rooted
  | cons imsg rest inductionHypothesis =>
    have hears := hears_deliver lde rooted present (advertise imsg List.mem_cons_self)
    exact hears.trans (inductionHypothesis _ hears.rooted (hears.mem.mpr present)
      fun other member => advertise other (List.mem_cons_of_mem imsg member))

end Ldpd
