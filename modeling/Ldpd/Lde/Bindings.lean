/-
This file is the abstract model of the label decision engine: what it knows about
labels, without the trees, the pipes and the kernel. `Lde.bindings` reads the
abstract state off the engine. Most of what a handler does is invisible there;
what is visible is one of a few operations on the table of nexthops and on the
records of the neighbors.
-/

import Ldpd.Lde.Engine

namespace Ldpd

/-! ### The abstract state -/

/-- What the bindings show of a neighbor. -/
structure NbrView where
  id : InAddr
  addrList : List LdpdAddr
  recvMap : FecTree Map

/-- The nexthops of every FEC with the labels in use, the pseudowire a FEC is for and its local
label, the FEC each pseudowire is for, and the recorded mappings of the neighbors. -/
@[ext]
structure Bindings where
  nexthops : Fec → List FecNh
  data : Fec → Option Nat
  localLabel : Fec → UInt32
  pwFec : Nat → Option Fec
  nbr : UInt32 → Option NbrView

/-- What the bindings show of a neighbor of the engine. -/
def LdeNbr.view (ln : LdeNbr) : NbrView where
  id := ln.id
  addrList := ln.addrList
  recvMap := ln.recvMap

/-- The pseudowire a FEC node holds. -/
def Lde.data (lde : Lde) (fec : Fec) : Option Nat :=
  (lde.ft[fec]?).bind FecNode.data

/-- The local label of a FEC. A FEC without a node has none. -/
def Lde.localLabel (lde : Lde) (fec : Fec) : UInt32 :=
  match lde.ft[fec]? with
  | some fn => fn.localLabel
  | none => noLabel

/-- The bindings of the engine. -/
def Lde.bindings (lde : Lde) : Bindings where
  nexthops := lde.nexthops
  data := lde.data
  localLabel := lde.localLabel
  pwFec := fun data => lde.pws[data]?.map (l2vpnPwFec lde)
  nbr := fun peerid => lde.ldeNbrs[peerid]?.map LdeNbr.view

/-! ### Operations -/

/-- Change the label of a nexthop that passes a test. -/
def relabelIf (test : FecNh → Bool) (label : UInt32) (fnh : FecNh) : FecNh :=
  if test fnh then { fnh with remoteLabel := label } else fnh

/-- The source finds a nexthop again by its address and priority. -/
def sameNexthop (fnh other : FecNh) : Bool :=
  other.nexthop = fnh.nexthop ∧ other.priority = fnh.priority

/-- A test of the nexthops of one FEC. -/
def only (fec : Fec) (test : FecNh → Bool) (other : Fec) (fnh : FecNh) : Bool :=
  other = fec && test fnh

/-- Change the label of the nexthops that pass a test, to a label for each FEC. -/
def Bindings.relabel (b : Bindings) (test : Fec → FecNh → Bool) (label : Fec → UInt32) :
    Bindings :=
  { b with nexthops := fun fec => (b.nexthops fec).map (relabelIf (test fec) (label fec)) }

/-- Change what is known of one neighbor. -/
def Bindings.updateNbr (b : Bindings) (peerid : UInt32) (change : NbrView → NbrView) : Bindings :=
  { b with nbr := Function.update b.nbr peerid ((b.nbr peerid).map change) }

/-- Record a received mapping. -/
def NbrView.record (fec : Fec) (map : Map) (ln : NbrView) : NbrView :=
  { ln with recvMap := ln.recvMap.insert fec map }

/-- Remove the record of a received mapping, if it has the label or the label is
`NO_LABEL`. -/
def NbrView.forget (fec : Fec) (label : UInt32) (ln : NbrView) : NbrView :=
  match ln.recvMap[fec]? with
  | none => ln
  | some me =>
    if label = noLabel ∨ label = me.label then { ln with recvMap := ln.recvMap.erase fec } else ln

/-- `ownsNexthop`, read off the view of a neighbor. -/
def NbrView.owns (ln : NbrView) (fec : Fec) (fnh : FecNh) : Bool :=
  match fec with
  | .ipv4 .. | .ipv6 .. => ln.addrList.contains fnh.nexthop
  | .pwid _ _ lsrId => lsrId = ln.id

theorem ownsNexthop_eq (ln : LdeNbr) (fec : Fec) (fnh : FecNh) :
    ownsNexthop ln fec fnh = ln.view.owns fec fnh := by
  cases fec <;> rfl

/-! ### Primitive updates of the engine -/

section Primitive

variable (lde : Lde)

theorem Lde.data_eq_of_node {fec : Fec} {fn : FecNode} (found : lde.ft[fec]? = some fn) :
    lde.data fec = fn.data := by
  rw [Lde.data, found, Option.bind_some]

theorem Lde.localLabel_eq_of_node {fec : Fec} {fn : FecNode} (found : lde.ft[fec]? = some fn) :
    lde.localLabel fec = fn.localLabel := by
  rw [Lde.localLabel, found]

theorem Lde.nexthops_eq_of_node {fec : Fec} {fn : FecNode} (found : lde.ft[fec]? = some fn) :
    lde.nexthops fec = fn.nexthops := by
  rw [Lde.nexthops, found]

theorem bindings_composeLdpe (imsg : LdpeImsg) :
    (lde.composeLdpe imsg).bindings = lde.bindings := rfl

theorem bindings_fail (fault : LdeFault) : (lde.fail fault).bindings = lde.bindings := rfl

theorem getElem?_updateNode (fec other : Fec) (change : FecNode → FecNode) :
    (lde.updateNode fec change).ft[other]? =
      if fec = other then (lde.ft[other]?).map change else lde.ft[other]? :=
  Tree.getElem?_modify lde.ft fec other change

/-- What a change of a node does to a field of it, where a FEC without a node has a value too. -/
theorem field_updateNode {Value : Type} (field : FecNode → Value) (absent : Value) (fec : Fec)
    (change : FecNode → FecNode) (other : Fec) :
    (((lde.updateNode fec change).ft[other]?).map field).getD absent =
      if fec = other then ((lde.ft[other]?).map (field ∘ change)).getD absent
      else ((lde.ft[other]?).map field).getD absent := by
  rw [getElem?_updateNode]
  split_ifs
  · rw [Option.map_map]
  · rfl

theorem Lde.nexthops_eq (fec : Fec) :
    lde.nexthops fec = ((lde.ft[fec]?).map FecNode.nexthops).getD [] := by
  unfold Lde.nexthops
  cases lde.ft[fec]? <;> rfl

theorem Lde.data_eq (fec : Fec) : lde.data fec = ((lde.ft[fec]?).map FecNode.data).getD none := by
  unfold Lde.data
  cases lde.ft[fec]? <;> rfl

theorem Lde.localLabel_eq (fec : Fec) :
    lde.localLabel fec = ((lde.ft[fec]?).map FecNode.localLabel).getD noLabel := by
  unfold Lde.localLabel
  cases lde.ft[fec]? <;> rfl

/-- A change that keeps a field of the node keeps it for every FEC. -/
theorem field_updateNode_same {Value : Type} (field : FecNode → Value) (absent : Value) (fec : Fec)
    (change : FecNode → FecNode) (keeps : ∀ fn, field (change fn) = field fn) (other : Fec) :
    (((lde.updateNode fec change).ft[other]?).map field).getD absent =
      ((lde.ft[other]?).map field).getD absent := by
  rw [field_updateNode, show field ∘ change = field from funext keeps, ite_self]

/-- A change that keeps the nexthops, the pseudowire and the label of a node does not show. -/
theorem bindings_updateNode_same (fec : Fec) (change : FecNode → FecNode)
    (nexthops : ∀ fn, (change fn).nexthops = fn.nexthops) (data : ∀ fn, (change fn).data = fn.data)
    (label : ∀ fn, (change fn).localLabel = fn.localLabel) :
    (lde.updateNode fec change).bindings = lde.bindings := by
  refine Bindings.ext (funext fun other => ?_) (funext fun other => ?_) (funext fun other => ?_)
    rfl rfl
  · show Lde.nexthops _ other = lde.nexthops other
    rw [Lde.nexthops_eq, Lde.nexthops_eq, field_updateNode_same lde _ _ fec change nexthops]
  · show Lde.data _ other = lde.data other
    rw [Lde.data_eq, Lde.data_eq, field_updateNode_same lde _ _ fec change data]
  · show Lde.localLabel _ other = lde.localLabel other
    rw [Lde.localLabel_eq, Lde.localLabel_eq, field_updateNode_same lde _ _ fec change label]

/-- A change of the nexthops of a node is a change of the table. -/
theorem bindings_updateNode_nexthops (fec : Fec) (change : FecNode → FecNode)
    (nexthops : List FecNh → List FecNh) (keeps : nexthops [] = [])
    (changes : ∀ fn, (change fn).nexthops = nexthops fn.nexthops)
    (data : ∀ fn, (change fn).data = fn.data)
    (label : ∀ fn, (change fn).localLabel = fn.localLabel) :
    (lde.updateNode fec change).bindings =
      { lde.bindings with
        nexthops := Function.update lde.nexthops fec (nexthops (lde.nexthops fec)) } := by
  refine Bindings.ext (funext fun other => ?_) (funext fun other => ?_) (funext fun other => ?_)
    rfl rfl
  · show Lde.nexthops _ other = Function.update lde.nexthops fec _ other
    rw [Lde.nexthops_eq, field_updateNode]
    by_cases same : fec = other
    · subst same
      rw [Function.update_self, if_pos rfl, Lde.nexthops_eq]
      cases lde.ft[fec]? with
      | none => exact keeps.symm
      | some fn => exact changes fn
    · rw [Function.update_of_ne (Ne.symm same), if_neg same, Lde.nexthops_eq]
  · show Lde.data _ other = lde.data other
    rw [Lde.data_eq, Lde.data_eq, field_updateNode_same lde _ _ fec change data]
  · show Lde.localLabel _ other = lde.localLabel other
    rw [Lde.localLabel_eq, Lde.localLabel_eq, field_updateNode_same lde _ _ fec change label]

theorem bindings_setRemoteLabel (fec : Fec) (fnh : FecNh) (label : UInt32) :
    (lde.setRemoteLabel fec fnh label).bindings =
      lde.bindings.relabel (only fec (sameNexthop fnh)) fun _ => label := by
  have changed : (lde.setRemoteLabel fec fnh label).bindings = _ :=
    bindings_updateNode_nexthops lde fec _ (List.map (relabelIf (sameNexthop fnh) label)) rfl
      (fun fn => List.map_congr_left fun other _ => by
        simp only [relabelIf, sameNexthop, decide_eq_true_eq])
      (fun _ => by rfl) fun _ => by rfl
  rw [changed]
  refine Bindings.ext (funext fun other => ?_) rfl rfl rfl rfl
  show Function.update lde.nexthops fec _ other = List.map _ (lde.nexthops other)
  by_cases same : other = fec
  · subst same
    rw [Function.update_self]
    exact List.map_congr_left fun item _ => by simp only [relabelIf, only, decide_true, Bool.true_and]
  · rw [Function.update_of_ne same]
    refine (List.map_id'' (fun item => ?_) _).symm
    simp only [relabelIf, only, decide_eq_false same, Bool.false_and, Bool.false_eq_true, if_false]

theorem getElem?_updateNbr (peerid other : UInt32) (change : LdeNbr → LdeNbr) :
    (lde.updateNbr peerid change).ldeNbrs[other]? =
      if peerid = other then (lde.ldeNbrs[other]?).map change else lde.ldeNbrs[other]? :=
  Tree.getElem?_modify lde.ldeNbrs peerid other change

theorem bindings_updateNbr (peerid : UInt32) (change : LdeNbr → LdeNbr)
    (view : NbrView → NbrView) (changes : ∀ ln, (change ln).view = view ln.view) :
    (lde.updateNbr peerid change).bindings = lde.bindings.updateNbr peerid view := by
  refine Bindings.ext rfl rfl rfl rfl (funext fun other => ?_)
  show ((lde.updateNbr peerid change).ldeNbrs[other]?).map LdeNbr.view =
    Function.update lde.bindings.nbr peerid _ other
  rw [getElem?_updateNbr]
  by_cases same : peerid = other
  · subst same
    rw [if_pos rfl, Function.update_self]
    show _ = Option.map view ((lde.ldeNbrs[peerid]?).map LdeNbr.view)
    cases lde.ldeNbrs[peerid]? with
    | none => rfl
    | some ln => exact congrArg some (changes ln)
  · rw [if_neg same, Function.update_of_ne (Ne.symm same)]
    rfl

/-- A change of a neighbor that keeps its view does not show. -/
theorem bindings_updateNbr_same (peerid : UInt32) (change : LdeNbr → LdeNbr)
    (view : ∀ ln, (change ln).view = ln.view) :
    (lde.updateNbr peerid change).bindings = lde.bindings := by
  rw [bindings_updateNbr lde peerid change id view]
  refine Bindings.ext rfl rfl rfl rfl ?_
  show Function.update lde.bindings.nbr peerid (Option.map id _) = lde.bindings.nbr
  rw [Option.map_id, id, Function.update_eq_self]

/-- A change of a pseudowire that keeps its FEC does not show. -/
theorem bindings_updatePw (data : Nat) (change : L2vpnPw → L2vpnPw)
    (keeps : ∀ pw, lde.pws[data]? = some pw → l2vpnPwFec lde (change pw) = l2vpnPwFec lde pw) :
    (lde.updatePw data change).bindings = lde.bindings := by
  refine Bindings.ext rfl rfl rfl (funext fun other => ?_) rfl
  show ((lde.pws.modify data change)[other]?).map (l2vpnPwFec lde) =
    (lde.pws[other]?).map (l2vpnPwFec lde)
  rw [Tree.getElem?_modify]
  split_ifs with same
  · subst same
    cases found : lde.pws[data]? with
    | none => rfl
    | some pw => exact congrArg some (keeps pw found)
  · rfl

theorem bindings_setPwFlags (data : Nat) (change : PwFlags → PwFlags) :
    (lde.setPwFlags data change).bindings = lde.bindings :=
  bindings_updatePw lde data _ fun _ _ => by rfl

theorem getElem?_fecAdd (fec other : Fec) :
    (fecAdd lde fec).ft[other]? =
      if fec = other then
        some ((lde.ft[other]?).getD
          { nexthops := [], downstream := [], upstream := [], localLabel := noLabel, data := none })
      else lde.ft[other]? :=
  Tree.getElem?_insertIfNew lde.ft fec other _

/-- A new node has no nexthops, no pseudowire and no label, so it does not show. -/
theorem bindings_fecAdd (fec : Fec) : (fecAdd lde fec).bindings = lde.bindings := by
  refine Bindings.ext (funext fun other => ?_) (funext fun other => ?_) (funext fun other => ?_)
    rfl rfl
  · show Lde.nexthops _ other = lde.nexthops other
    rw [Lde.nexthops, Lde.nexthops, getElem?_fecAdd]
    split_ifs
    · cases lde.ft[other]? <;> rfl
    · rfl
  · show Lde.data _ other = lde.data other
    rw [Lde.data, Lde.data, getElem?_fecAdd]
    split_ifs
    · cases lde.ft[other]? <;> rfl
    · rfl
  · show Lde.localLabel _ other = lde.localLabel other
    rw [Lde.localLabel, Lde.localLabel, getElem?_fecAdd]
    split_ifs
    · cases lde.ft[other]? <;> rfl
    · rfl

end Primitive

/-! ### What does not show -/

/-- A loop whose body does not show does not show. -/
theorem bindings_foldl_same {Item : Type} (body : Lde → Item → Lde)
    (same : ∀ lde item, (body lde item).bindings = lde.bindings) (items : List Item) (lde : Lde) :
    (items.foldl body lde).bindings = lde.bindings := by
  induction items generalizing lde with
  | nil => rfl
  | cons item rest inductionHypothesis =>
    rw [List.foldl_cons, inductionHypothesis, same]

section Invisible

variable (lde : Lde)

theorem pwRule_bindings : PwRule fun lde lde' => lde'.bindings = lde.bindings where
  refl _ := rfl
  trans first second := second.trans first
  fail _ _ := rfl
  setUp lde data up := bindings_setPwFlags lde data (PwFlags.setUp up)
  kpwlabelChange _ _ := rfl
  kpwlabelDelete _ _ := rfl

theorem bindings_ldeSendChangeKlabel (fec : Fec) (fnh : FecNh) :
    (ldeSendChangeKlabel lde fec fnh).bindings = lde.bindings :=
  pwRule_bindings.ldeSendChangeKlabel lde (fun _ _ => rfl) fec fnh

theorem bindings_ldeSendDeleteKlabel (fec : Fec) (fnh : FecNh) :
    (ldeSendDeleteKlabel lde fec fnh).bindings = lde.bindings :=
  pwRule_bindings.ldeSendDeleteKlabel lde (fun _ _ => rfl) fec fnh

theorem bindings_recordSent (peerid : UInt32) (ln : LdeNbr) (fec : Fec) (map : Map) :
    (recordSent lde peerid ln fec map).bindings = lde.bindings := by
  unfold recordSent ldeMapSet ldeMapAdd
  simp only [if_true]
  split
  · exact bindings_updateNbr_same lde peerid _ fun _ => by rfl
  · exact (bindings_updateNbr_same _ peerid _ fun _ => by rfl).trans
      (bindings_updateNode_same lde fec _ (fun _ => by rfl) (fun _ => by rfl) fun _ => by rfl)

theorem bindings_ldeSendLabelmapping (peerid : UInt32) (fec : Fec) (single : Bool) :
    (ldeSendLabelmapping lde peerid fec single).bindings = lde.bindings := by
  unfold ldeSendLabelmapping
  split
  · split
    · rw [bindings_recordSent]
      cases single
      · exact bindings_updateNbr_same lde peerid _ fun _ => by rfl
      · exact bindings_updateNbr_same lde peerid _ fun _ => by rfl
    · rfl
  · rfl

theorem bindings_recordWdraw (peerid label : UInt32) (fec : Fec) :
    (recordWdraw peerid label lde fec).bindings = lde.bindings :=
  bindings_updateNbr_same lde peerid _ fun _ => by rfl

theorem bindings_ldeSendLabelwithdraw (peerid : UInt32) (fec : Option Fec) (label : UInt32)
    (st : Option MapStatus) :
    (ldeSendLabelwithdraw lde peerid fec label st).bindings = lde.bindings := by
  unfold ldeSendLabelwithdraw
  split
  · rfl
  · split
    · rfl
    · cases fec with
      | none =>
        exact bindings_foldl_same _ (fun lde fec => bindings_recordWdraw lde peerid _ fec) _ _
      | some fec => exact bindings_recordWdraw _ peerid _ fec

theorem bindings_ldeSendLabelwithdrawAll (fec : Fec) (label : UInt32) :
    (ldeSendLabelwithdrawAll lde fec label).bindings = lde.bindings :=
  bindings_foldl_same _ (fun lde peerid => bindings_ldeSendLabelwithdraw lde peerid _ _ _) _ lde

theorem bindings_ldeSendLabelrelease (peerid : UInt32) (fec : Option Fec) (label : UInt32) :
    (ldeSendLabelrelease lde peerid fec label).bindings = lde.bindings := by
  unfold ldeSendLabelrelease
  cases fec with
  | none => rfl
  | some fec =>
    simp only
    repeat' split
    all_goals rfl

theorem bindings_negotiateStatus (data : Nat) (ln : LdeNbr) (fec : Fec) (map : Map) :
    (negotiateStatus lde data ln fec map).bindings = lde.bindings := by
  unfold negotiateStatus
  split
  · exact bindings_setPwFlags lde _ _
  · rfl

theorem bindings_renegotiateCword (peerid : UInt32) (data : Nat) (fec : Fec) (map : Map) :
    (renegotiateCword lde peerid data fec map).bindings = lde.bindings := by
  unfold renegotiateCword
  rw [bindings_ldeSendLabelmapping, bindings_setPwFlags, bindings_ldeSendLabelwithdraw]

theorem bindings_l2vpnPwNegotiate (peerid : UInt32) (ln : LdeNbr) (fec : Fec) (map : Map) :
    (l2vpnPwNegotiate lde peerid ln fec map).1.bindings = lde.bindings := by
  unfold l2vpnPwNegotiate
  repeat' split
  all_goals simp only [bindings_negotiateStatus, bindings_renegotiateCword, bindings_setPwFlags,
    bindings_fail]

theorem bindings_ldeMapDel_sent (peerid : UInt32) (fec : Fec) :
    (ldeMapDel lde peerid fec true).bindings = lde.bindings :=
  (bindings_updateNbr_same _ peerid _ fun _ => by rfl).trans
    (bindings_updateNode_same lde fec _ (fun _ => by rfl) (fun _ => by rfl) fun _ => by rfl)

theorem bindings_releaseFec (peerid label : UInt32) (fec : Fec) :
    (releaseFec peerid label lde fec).bindings = lde.bindings := by
  have wdraw (lde : Lde) : (lde.updateNbr peerid fun ln =>
      { ln with sentWdraw := ln.sentWdraw.erase fec }).bindings = lde.bindings :=
    bindings_updateNbr_same lde peerid _ fun _ => by rfl
  unfold releaseFec
  repeat' split
  all_goals simp only [wdraw, bindings_ldeMapDel_sent]

theorem bindings_ldeCheckRelease (map : Map) (peerid : UInt32) :
    (ldeCheckRelease lde map peerid).bindings = lde.bindings := by
  unfold ldeCheckRelease
  dsimp only
  repeat' split
  all_goals first
    | rfl
    | exact bindings_releaseFec lde _ _ _

theorem bindings_ldeCheckReleaseWcard (map : Map) (peerid : UInt32) :
    (ldeCheckReleaseWcard lde map peerid).bindings = lde.bindings :=
  bindings_foldl_same _ (fun lde fec => bindings_releaseFec lde _ _ fec) _ lde

theorem bindings_ldeCheckRequest (map : Map) (peerid : UInt32) :
    (ldeCheckRequest lde map peerid).bindings = lde.bindings := by
  unfold ldeCheckRequest
  dsimp only
  repeat' split
  all_goals first
    | rfl
    | exact (bindings_ldeSendLabelmapping _ _ _ _).trans
        (bindings_updateNbr_same lde peerid _ fun _ => by rfl)

theorem bindings_fecSnap (peerid : UInt32) : (fecSnap lde peerid).bindings = lde.bindings := by
  unfold fecSnap
  rw [bindings_composeLdpe]
  refine bindings_foldl_same _ (fun lde fec => ?_) _ lde
  repeat' split
  all_goals first
    | rfl
    | exact bindings_ldeSendLabelmapping lde _ _ _

theorem bindings_l2vpnRecvPwStatus (nm : NotifyMsg) (ln : LdeNbr) :
    (l2vpnRecvPwStatus lde nm ln).bindings = lde.bindings := by
  have status (lde : Lde) (data : Nat) : (lde.updatePw data fun pw =>
      { pw with remoteStatus := nm.pwStatus }).bindings = lde.bindings :=
    bindings_updatePw lde data _ fun _ _ => by rfl
  unfold l2vpnRecvPwStatus
  dsimp only
  repeat' split
  all_goals simp only [bindings_ldeSendChangeKlabel, bindings_ldeSendDeleteKlabel, status,
    bindings_fail]

theorem bindings_resetPwOf (fec : Fec) : (resetPwOf lde fec).bindings = lde.bindings := by
  unfold resetPwOf
  split
  · exact bindings_updatePw lde _ _ fun _ _ => by rfl
  · rfl

end Invisible

end Ldpd
