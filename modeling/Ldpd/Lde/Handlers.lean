/-
This file goes through the handlers of the label decision engine and shows that they are
made of the single updates: whatever a handler has read of a neighbor before is still
true when it enters a mapping, and a FEC whose label it removes from the kernel has a node,
with a pseudowire if it is the FEC of one.
-/

import Ldpd.Lde.Edits

namespace Ldpd

/-! ### Nodes that can be named to the kernel -/

/-- Every pseudowire FEC with a nexthop has a pseudowire. -/
def Lde.Backed (lde : Lde) : Prop :=
  ∀ fec, fec.af = none → lde.nexthops fec ≠ [] → lde.data fec ≠ none

/-- The FEC has a node, with a pseudowire if it is the FEC of one. -/
def Lde.Serves (lde : Lde) (fec : Fec) : Prop :=
  fec ∈ lde.ft ∧ (fec.af = none → lde.data fec ≠ none)

section Handlers

variable {lde lde' : Lde}

theorem Touched.mem_ft (touched : Touched lde lde') {fec : Fec} (node : fec ∈ lde.ft) :
    fec ∈ lde'.ft := by
  induction touched with
  | refl | composeLdpe | composeParent | fail | updateNbr | updatePw => exact node
  | trans _ _ first second => exact second (first node)
  | updateNode lde other => exact (mem_updateNode lde other fec _).mpr node
  | fecAdd lde other =>
    rw [Tree.mem_iff_getElem?, getElem?_fecAdd]
    split
    · exact ⟨_, rfl⟩
    · exact (Tree.mem_iff_getElem? _ _).mp node

theorem FecsKept.backed (kept : FecsKept lde lde') (backed : lde.Backed) : lde'.Backed := by
  intro fec pseudowire some
  rw [kept.data]
  exact backed fec pseudowire fun empty => some ((kept.nexthops_eq_nil fec).mpr empty)

theorem Touched.serves (touched : Touched lde lde') {fec : Fec} (serves : lde.Serves fec) :
    lde'.Serves fec := by
  refine ⟨touched.mem_ft serves.1, ?_⟩
  rw [touched.fecsKept.data]
  exact serves.2

/-- A FEC with a nexthop can be named. -/
theorem Lde.Backed.serves (backed : lde.Backed) {fec : Fec} (some : lde.nexthops fec ≠ []) :
    lde.Serves fec := by
  refine ⟨?_, fun pseudowire => backed fec pseudowire some⟩
  rw [Tree.mem_iff_getElem?]
  cases node : lde.ft[fec]? with
  | none =>
    rw [Lde.nexthops, node] at some
    exact absurd rfl some
  | some fn => exact ⟨fn, rfl⟩

/-! ### Loops -/

theorem Edits.foldl {Item : Type} (body : Lde → Item → Lde) (invariant : Lde → Prop)
    (keeps : ∀ lde item, invariant lde → Touched lde (body lde item) → invariant (body lde item))
    (touches : ∀ lde item, Touched lde (body lde item)) (items : List Item)
    (edits : ∀ lde, ∀ item ∈ items, invariant lde → Edits lde (body lde item)) (lde : Lde)
    (holds : invariant lde) : Edits lde (items.foldl body lde) := by
  induction items generalizing lde with
  | nil => exact .refl lde
  | cons item rest inductionHypothesis =>
    refine .trans (edits lde item List.mem_cons_self holds) (inductionHypothesis ?_ _ ?_)
    · exact fun lde other member => edits lde other (List.mem_cons_of_mem item member)
    · exact keeps lde item holds (touches lde item)

/-- A loop whose body relies on nothing but the pseudowires being there. -/
theorem Edits.foldl_backed {Item : Type} (body : Lde → Item → Lde)
    (touches : ∀ lde item, Touched lde (body lde item)) (items : List Item)
    (edits : ∀ lde : Lde, lde.Backed → ∀ item ∈ items, Edits lde (body lde item)) (lde : Lde)
    (backed : lde.Backed) : Edits lde (items.foldl body lde) :=
  .foldl body Lde.Backed (fun _ _ backed touched => touched.fecsKept.backed backed) touches items
    (fun lde item member backed => edits lde backed item member) lde backed

/-! ### Kernel messages -/

theorem Edits.composeLdpe (lde : Lde) (imsg : LdpeImsg) : Edits lde (lde.composeLdpe imsg) :=
  .aside rfl rfl rfl

theorem Edits.composeParent (lde : Lde) (imsg : ParentImsg) : Edits lde (lde.composeParent imsg) :=
  .aside rfl rfl rfl

theorem Edits.updatePw (lde : Lde) (data : Nat) (change : L2vpnPw → L2vpnPw) :
    Edits lde (lde.updatePw data change) :=
  .aside rfl rfl rfl

theorem Edits.setRemoteLabel (lde : Lde) (fec : Fec) (fnh : FecNh) (label : UInt32) :
    Edits lde (lde.setRemoteLabel fec fnh label) :=
  .updateNode lde fec fun _ _ => rfl

theorem Edits.failPw (lde : Lde) {fn : FecNode} (data : fn.data ≠ none) : Edits lde (lde.failPw fn) := by
  rw [Lde.failPw, if_neg data]
  exact .fail lde rfl

theorem Edits.ldeSendChangeKlabelPw (lde : Lde) (fec : Fec) {fn : FecNode} (fnh : FecNh)
    (data : fn.data ≠ none) : Edits lde (ldeSendChangeKlabelPw lde fec fn fnh) := by
  rw [Ldpd.ldeSendChangeKlabelPw]
  split
  · exact .refl lde
  split
  · exact .failPw lde data
  · exact .trans (.updatePw lde _ _) (.composeParent _ _)

theorem Edits.ldeSendDeleteKlabelPw (lde : Lde) (fec : Fec) {fn : FecNode} (fnh : FecNh)
    (data : fn.data ≠ none) : Edits lde (ldeSendDeleteKlabelPw lde fec fn fnh) := by
  rw [Ldpd.ldeSendDeleteKlabelPw]
  split
  · exact .failPw lde data
  split
  · exact .trans (.updatePw lde _ _) (.composeParent _ _)
  · exact .refl lde

theorem Edits.l2vpnSyncPws (lde : Lde) (backed : lde.Backed) (addr : LdpdAddr) :
    Edits lde (l2vpnSyncPws lde addr) := by
  refine Edits.foldl_backed _ (fun lde data => ?_) _ (fun lde backed data _ => ?_) lde backed
  · exact pwRule_touched.l2vpnSyncPw lde addr data
  rw [l2vpnSyncPw]
  split
  · exact .refl lde
  rename_i pw _
  split
  · exact .refl lde
  split
  · exact .refl lde
  rename_i fn node
  split
  · exact .refl lde
  rename_i fnh found
  have some : fn.data ≠ none := by
    rw [← lde.data_eq_of_node node]
    refine backed _ rfl fun empty => ?_
    rw [lde.nexthops_eq_of_node node] at empty
    rw [fecNhFind, empty] at found
    cases found
  split
  · exact .ldeSendChangeKlabelPw lde _ fnh some
  · exact .ldeSendDeleteKlabelPw lde _ fnh some

theorem Edits.klabel (lde : Lde) (backed : lde.Backed) (imsg : ParentImsg) (host : Prop)
    [Decidable host] (addr : LdpdAddr) :
    Edits lde (if host then Ldpd.l2vpnSyncPws (lde.composeParent imsg) addr
      else lde.composeParent imsg) := by
  split
  · exact (Edits.composeParent lde imsg).trans
      (.l2vpnSyncPws _ ((Touched.composeParent lde imsg).fecsKept.backed backed) addr)
  · exact .composeParent lde imsg

theorem Edits.ldeSendChangeKlabel (lde : Lde) (backed : lde.Backed) {fec : Fec}
    (serves : lde.Serves fec) (fnh : FecNh) : Edits lde (ldeSendChangeKlabel lde fec fnh) := by
  obtain ⟨fn, node⟩ := (Tree.mem_iff_getElem? _ _).mp serves.1
  rw [Ldpd.ldeSendChangeKlabel, node]
  cases fec with
  | ipv4 | ipv6 => exact .klabel lde backed _ _ _
  | pwid => exact .ldeSendChangeKlabelPw lde _ fnh (lde.data_eq_of_node node ▸ serves.2 rfl)

theorem Edits.ldeSendDeleteKlabel (lde : Lde) (backed : lde.Backed) {fec : Fec}
    (serves : lde.Serves fec) (fnh : FecNh) : Edits lde (ldeSendDeleteKlabel lde fec fnh) := by
  obtain ⟨fn, node⟩ := (Tree.mem_iff_getElem? _ _).mp serves.1
  rw [Ldpd.ldeSendDeleteKlabel, node]
  cases fec with
  | ipv4 | ipv6 => exact .klabel lde backed _ _ _
  | pwid => exact .ldeSendDeleteKlabelPw lde _ fnh (lde.data_eq_of_node node ▸ serves.2 rfl)

/-! ### Senders -/

/-- A neighbor is tended without its requests being touched, or with fewer of them left. -/
theorem Edits.tendNbr (lde : Lde) (peerid : UInt32) {change : LdeNbr → LdeNbr}
    (tended : ∀ ln, NbrTended ln (change ln)) : Edits lde (lde.updateNbr peerid change) :=
  .tend lde peerid fun ln _ => tended ln

theorem NbrTended.eraseRecvReq (ln : LdeNbr) (fec : Fec) :
    NbrTended ln { ln with recvReq := ln.recvReq.erase fec } :=
  ⟨rfl, rfl, rfl, fun _ member => Or.inl (Std.ExtTreeMap.mem_of_mem_erase member)⟩

/-- SL.5, with what was read of the neighbor before its request was deleted. -/
theorem Edits.recordSent (change : LdeNbr → LdeNbr) {ln : LdeNbr} {peerid : UInt32} {fec : Fec}
    (map : Map) (nbr : lde.ldeNbrs[peerid]? = some ln) (node : fec ∈ lde.ft)
    (same : (change ln).sentMap = ln.sentMap) (nbrs : lde'.ldeNbrs = (lde.updateNbr peerid change).ldeNbrs)
    (ft : lde'.ft = lde.ft) : Edits lde' (recordSent lde' peerid ln fec map) := by
  have kept : lde'.ldeNbrs[peerid]? = some (change ln) := by
    rw [nbrs, getElem?_updateNbr, if_pos rfl, nbr]
    rfl
  rw [Ldpd.recordSent]
  split
  · rename_i known
    refine .mapSet lde' map ⟨_, kept, ?_⟩
    show fec ∈ (change ln).sentMap
    rw [same]
    exact known
  · rename_i fresh
    refine .mapAdd lde' map (ft ▸ node) kept ?_ (fun received => absurd received (by decide))
    show fec ∉ (change ln).sentMap
    rw [same]
    exact fresh

theorem Edits.ldeSendLabelmapping (lde : Lde) (peerid : UInt32) (fec : Fec) (single : Bool) :
    Edits lde (ldeSendLabelmapping lde peerid fec single) := by
  rw [Ldpd.ldeSendLabelmapping]
  split
  · rename_i ln fn nbr node
    split
    · have present : fec ∈ lde.ft := (Tree.mem_iff_getElem? _ _).mpr ⟨fn, node⟩
      have tended := Edits.tendNbr lde peerid fun ln => NbrTended.eraseRecvReq ln fec
      dsimp only
      refine .trans ?_ (Edits.recordSent (fun ln => { ln with recvReq := ln.recvReq.erase fec }) _ nbr
        present rfl ?_ ?_)
      · split
        all_goals exact tended.trans (.aside rfl rfl rfl)
      · split
        all_goals rfl
      · split
        all_goals rfl
    · exact .refl lde
  · exact .refl lde

theorem Edits.recordWdraw (lde : Lde) (peerid label : UInt32) (fec : Fec) :
    Edits lde (recordWdraw peerid label lde fec) :=
  .tendNbr lde peerid fun _ => ⟨rfl, rfl, rfl, fun _ member => Or.inl member⟩

/-- A loop whose body relies on nothing. -/
theorem Edits.foldl_free {Item : Type} (body : Lde → Item → Lde)
    (edits : ∀ lde item, Edits lde (body lde item)) (items : List Item) (lde : Lde) :
    Edits lde (items.foldl body lde) := by
  induction items generalizing lde with
  | nil => exact .refl lde
  | cons item rest inductionHypothesis => exact (edits lde item).trans (inductionHypothesis _)

theorem Edits.ldeSendLabelwithdraw (lde : Lde) (peerid : UInt32) (fec : Option Fec) (label : UInt32)
    (st : Option MapStatus) : Edits lde (ldeSendLabelwithdraw lde peerid fec label st) := by
  have composed (map : Map) : Edits lde
      ((lde.composeLdpe (.withdrawAdd peerid map)).composeLdpe (.withdrawAddEnd peerid)) :=
    .aside rfl rfl rfl
  rw [Ldpd.ldeSendLabelwithdraw]
  split
  · exact .refl lde
  split
  · exact .refl lde
  · dsimp only
    split
    · exact .trans (composed _) (.recordWdraw _ peerid _ _)
    · exact .trans (composed _) (Edits.foldl_free _ (fun lde fec => .recordWdraw lde peerid _ fec) _ _)

theorem Edits.ldeSendLabelwithdrawAll (lde : Lde) (fec : Fec) (label : UInt32) :
    Edits lde (ldeSendLabelwithdrawAll lde fec label) :=
  Edits.foldl_free _ (fun lde peerid => .ldeSendLabelwithdraw lde peerid _ label none) _ lde

theorem Edits.ldeSendLabelrelease (lde : Lde) (peerid : UInt32) (fec : Option Fec) (label : UInt32) :
    Edits lde (ldeSendLabelrelease lde peerid fec label) := by
  unfold Ldpd.ldeSendLabelrelease
  repeat' split
  all_goals exact .aside rfl rfl rfl

/-! ### Label messages -/

/-- A loop over the nexthops of a FEC, which can be named as long as there is one. -/
theorem Edits.foldl_nexthops (body : Lde → FecNh → Lde)
    (touches : ∀ lde fnh, Touched lde (body lde fnh)) (fec : Fec)
    (edits : ∀ lde : Lde, lde.Backed → lde.Serves fec → ∀ fnh, Edits lde (body lde fnh))
    (items : List FecNh) (lde : Lde) (backed : lde.Backed)
    (some : items ≠ [] → lde.nexthops fec ≠ []) : Edits lde (items.foldl body lde) := by
  cases items with
  | nil => exact .refl lde
  | cons first rest =>
    refine Edits.foldl body (fun lde => lde.Backed ∧ lde.Serves fec) ?_ touches _ ?_ lde
      ⟨backed, backed.serves (some (List.cons_ne_nil first rest))⟩
    · exact fun _ _ holds touched => ⟨touched.fecsKept.backed holds.1, touched.serves holds.2⟩
    · exact fun lde fnh _ holds => edits lde holds.1 holds.2 fnh

theorem Touched.uninstallNexthop (fec : Fec) (lde : Lde) (fnh : FecNh) :
    Touched lde (uninstallNexthop fec lde fnh) :=
  .trans (.ldeSendDeleteKlabel lde fec fnh) (.setRemoteLabel _ fec fnh noLabel)

theorem Edits.uninstallNexthop (lde : Lde) (backed : lde.Backed) {fec : Fec} (serves : lde.Serves fec)
    (fnh : FecNh) : Edits lde (uninstallNexthop fec lde fnh) :=
  .trans (.ldeSendDeleteKlabel lde backed serves fnh) (.setRemoteLabel _ fec fnh noLabel)

theorem Edits.uninstallNexthops (lde : Lde) (backed : lde.Backed) (fec : Fec) (test : FecNh → Bool) :
    Edits lde (uninstallNexthops lde fec test) := by
  refine Edits.foldl_nexthops _ (Touched.uninstallNexthop fec) fec
    (fun lde backed serves fnh => .uninstallNexthop lde backed serves fnh) _ lde backed fun some empty => ?_
  rw [empty] at some
  exact some rfl

theorem Edits.negotiateMapping (lde : Lde) (peerid : UInt32) (ln : LdeNbr) (fec : Fec) (map : Map) :
    Edits lde (negotiateMapping lde peerid ln fec map).1 := by
  have status (lde : Lde) (data : Nat) : Edits lde (negotiateStatus lde data ln fec map) := by
    rw [negotiateStatus]
    split
    · exact .updatePw lde data _
    · exact .refl lde
  have again (data : Nat) : Edits lde (renegotiateCword lde peerid data fec map) :=
    .trans (.ldeSendLabelwithdraw lde peerid _ _ _)
      (.trans (.updatePw _ data _) (.ldeSendLabelmapping _ peerid fec true))
  rw [Ldpd.negotiateMapping]
  split
  · rw [l2vpnPwNegotiate]
    repeat' split
    all_goals first
      | exact .refl lde
      | exact .fail lde rfl
      | exact status lde _
      | exact .trans (again _) (status _ _)
      | exact .trans (.updatePw lde _ _) (status _ _)
  · exact .refl lde

theorem Edits.installNexthop (map : Map) (ln : LdeNbr) {fec : Fec} (lde : Lde) (backed : lde.Backed)
    (serves : lde.Serves fec) (fnh : FecNh) : Edits lde (installNexthop map ln fec lde fnh) := by
  have changed {lde' : Lde} (kept : Touched lde lde') (installed : FecNh) :
      Edits lde' (Ldpd.ldeSendChangeKlabel lde' fec installed) :=
    .ldeSendChangeKlabel lde' (kept.fecsKept.backed backed) (kept.serves serves) installed
  have learn (pw : L2vpnPw) : (pwLearn map pw).conf = pw.conf := by
    rw [pwLearn]
    split <;> rfl
  cases fec with
  | ipv4 | ipv6 =>
    simp only [Ldpd.installNexthop]
    split
    · exact .trans (.setRemoteLabel lde _ fnh map.label) (changed (.setRemoteLabel lde _ fnh map.label) _)
    · exact .refl lde
  | pwid type pwid lsrId =>
    simp only [Ldpd.installNexthop]
    split
    · exact .refl lde
    split
    · exact .fail lde rfl
    · rename_i data _ _ pw _
      have learned := (Edits.updatePw lde data (pwLearn map)).trans
        (.setRemoteLabel _ (.pwid type pwid lsrId) fnh map.label)
      split
      · refine learned.trans (changed ((Touched.updatePw lde data learn).trans ?_) _)
        exact .setRemoteLabel _ (.pwid type pwid lsrId) fnh map.label
      · exact learned

/-- What was read of the received mappings of a neighbor is still true after the negotiation. -/
theorem recvMap_of_bindings {peerid : UInt32} {ln ln' : LdeNbr} (same : lde'.bindings = lde.bindings)
    (nbr : lde.ldeNbrs[peerid]? = some ln) (nbr' : lde'.ldeNbrs[peerid]? = some ln') :
    ln'.recvMap = ln.recvMap ∧ ln'.id = ln.id := by
  have view := congrFun (congrArg Bindings.nbr same) peerid
  simp only [Lde.bindings, nbr, nbr', Option.map_some, Option.some_inj] at view
  exact ⟨congrArg NbrView.recvMap view, congrArg NbrView.id view⟩

theorem Fec.of_ldeMap2fec (map : Map) (id : InAddr) : (ldeMap2fec map id).Of id :=
  ldeMap2fec_remote map id

/-! ### Handlers that leave the neighbors alone -/

theorem ldeNbrs_foldl {Item : Type} (body : Lde → Item → Lde)
    (keeps : ∀ lde item, (body lde item).ldeNbrs = lde.ldeNbrs) (items : List Item) (lde : Lde) :
    (items.foldl body lde).ldeNbrs = lde.ldeNbrs := by
  induction items generalizing lde with
  | nil => rfl
  | cons item rest inductionHypothesis =>
    rw [List.foldl_cons, inductionHypothesis, keeps]

theorem ldeNbrs_uninstallNexthop (fec : Fec) (lde : Lde) (fnh : FecNh) :
    (uninstallNexthop fec lde fnh).ldeNbrs = lde.ldeNbrs :=
  (kernelOnly_ldeSendDeleteKlabel lde fec fnh).ldeNbrs

theorem ldeNbrs_uninstallNexthops (lde : Lde) (fec : Fec) (test : FecNh → Bool) :
    (uninstallNexthops lde fec test).ldeNbrs = lde.ldeNbrs :=
  ldeNbrs_foldl _ (ldeNbrs_uninstallNexthop fec) _ lde

theorem ldeNbrs_ldeSendLabelrelease (lde : Lde) (peerid : UInt32) (fec : Option Fec) (label : UInt32) :
    (ldeSendLabelrelease lde peerid fec label).ldeNbrs = lde.ldeNbrs := by
  unfold ldeSendLabelrelease
  repeat' split
  all_goals rfl

theorem ldeNbrs_replaceLabel (lde : Lde) (peerid : UInt32) (ln : LdeNbr) (fec : Fec) (map : Map)
    (requested : Bool) : (replaceLabel lde peerid ln fec map requested).ldeNbrs = lde.ldeNbrs := by
  rw [replaceLabel]
  split
  · rfl
  split
  · rw [ldeNbrs_uninstallNexthops, ldeNbrs_ldeSendLabelrelease]
  · rfl

theorem ldeNbrs_installNexthop (map : Map) (ln : LdeNbr) (fec : Fec) (lde : Lde) (fnh : FecNh) :
    (installNexthop map ln fec lde fnh).ldeNbrs = lde.ldeNbrs := by
  rw [installNexthop.eq_def]
  dsimp only
  repeat' split
  all_goals first
    | rfl
    | exact (kernelOnly_ldeSendChangeKlabel _ _ _).ldeNbrs

/-! ### Label Mapping -/

theorem Edits.replaceLabel (lde : Lde) (backed : lde.Backed) (peerid : UInt32) (ln : LdeNbr) (fec : Fec)
    (map : Map) (requested : Bool) : Edits lde (replaceLabel lde peerid ln fec map requested) := by
  rw [Ldpd.replaceLabel]
  split
  · exact .refl lde
  split
  · refine .trans (.ldeSendLabelrelease lde peerid _ _) (.uninstallNexthops _ ?_ fec _)
    exact (Touched.ldeSendLabelrelease lde peerid _ _).fecsKept.backed backed
  · exact .refl lde

theorem Touched.replaceLabel (lde : Lde) (peerid : UInt32) (ln : LdeNbr) (fec : Fec) (map : Map)
    (requested : Bool) : Touched lde (replaceLabel lde peerid ln fec map requested) := by
  rw [Ldpd.replaceLabel]
  split
  · exact .refl lde
  split
  · exact .trans (.ldeSendLabelrelease lde peerid _ _) (.uninstallNexthops _ fec _)
  · exact .refl lde

/-- The mapping is recorded as what was read of the neighbor says. -/
theorem Edits.acceptMapping (lde : Lde) (backed : lde.Backed) (map : Map) {peerid : UInt32}
    {ln ln' : LdeNbr} {fec : Fec} (node : fec ∈ lde.ft) (nbr : lde.ldeNbrs[peerid]? = some ln')
    (recvMap : ln'.recvMap = ln.recvMap) (own : fec.Of ln'.id) :
    Edits lde (acceptMapping lde map peerid ln fec) := by
  have replaced := Touched.replaceLabel lde peerid ln fec map (decide (fec ∈ ln.sentReq))
  have first := Edits.replaceLabel lde backed peerid ln fec map (decide (fec ∈ ln.sentReq))
  have nbrs := ldeNbrs_replaceLabel lde peerid ln fec map (decide (fec ∈ ln.sentReq))
  rw [Ldpd.acceptMapping]
  generalize Ldpd.replaceLabel lde peerid ln fec map (decide (fec ∈ ln.sentReq)) = lde₁
    at replaced first nbrs ⊢
  have installed : Touched lde₁ ((lde₁.nexthops fec).foldl (Ldpd.installNexthop map ln fec) lde₁) :=
    Touched.foldl _ (Touched.installNexthop map ln fec) _ lde₁
  have second : Edits lde₁ ((lde₁.nexthops fec).foldl (Ldpd.installNexthop map ln fec) lde₁) :=
    Edits.foldl_nexthops _ (Touched.installNexthop map ln fec) fec
      (fun lde backed serves fnh => .installNexthop map ln lde backed serves fnh) _ lde₁
      (replaced.fecsKept.backed backed) id
  have nbrs' := ldeNbrs_foldl _ (ldeNbrs_installNexthop map ln fec) (lde₁.nexthops fec) lde₁
  generalize (lde₁.nexthops fec).foldl (Ldpd.installNexthop map ln fec) lde₁ = lde₂
    at installed second nbrs' ⊢
  have present : lde₂.ldeNbrs[peerid]? = some ln' := by rw [nbrs', nbrs, nbr]
  refine first.trans (second.trans ?_)
  rw [recordReceived]
  split
  · rename_i known
    refine .mapSet lde₂ map ⟨ln', present, ?_⟩
    show fec ∈ ln'.recvMap
    rw [recvMap]
    exact of_decide_eq_true known
  · rename_i fresh
    refine .mapAdd lde₂ map (installed.mem_ft (replaced.mem_ft node)) present ?_ fun _ => own
    show fec ∉ ln'.recvMap
    rw [recvMap]
    exact fun known => fresh (decide_eq_true known)

theorem Touched.clearRequest (lde : Lde) (peerid : UInt32) (fec : Fec) :
    Touched lde (clearRequest lde peerid fec) :=
  .trans (.fecAdd lde fec) (.updateNbr _ peerid _)

theorem mem_clearRequest (lde : Lde) (peerid : UInt32) (fec : Fec) :
    fec ∈ (clearRequest lde peerid fec).ft := by
  show fec ∈ (fecAdd lde fec).ft
  rw [Tree.mem_iff_getElem?, getElem?_fecAdd, if_pos rfl]
  exact ⟨_, rfl⟩

theorem Edits.ldeCheckMapping (lde : Lde) (backed : lde.Backed) (map : Map) (peerid : UInt32) :
    Edits lde (ldeCheckMapping lde map peerid) := by
  rw [Ldpd.ldeCheckMapping]
  split
  · exact .refl lde
  rename_i ln nbr
  dsimp only
  have cleared := Touched.clearRequest lde peerid (ldeMap2fec map ln.id)
  have first : Edits lde (clearRequest lde peerid (ldeMap2fec map ln.id)) :=
    .trans (.fecAdd lde _) (.tendNbr _ peerid fun _ => ⟨rfl, rfl, rfl, fun _ member => Or.inl member⟩)
  have node := mem_clearRequest lde peerid (ldeMap2fec map ln.id)
  have visible := bindings_clearRequest lde peerid (ldeMap2fec map ln.id)
  generalize Ldpd.clearRequest lde peerid (ldeMap2fec map ln.id) = lde₁ at cleared first node visible ⊢
  have negotiated := Touched.negotiateMapping lde₁ peerid ln (ldeMap2fec map ln.id) map
  have second := Edits.negotiateMapping lde₁ peerid ln (ldeMap2fec map ln.id) map
  have visible' := (bindings_negotiateMapping lde₁ peerid ln (ldeMap2fec map ln.id) map).trans visible
  generalize Ldpd.negotiateMapping lde₁ peerid ln (ldeMap2fec map ln.id) map = result
    at negotiated second visible' ⊢
  have both := first.trans second
  split
  · exact both
  have present : peerid ∈ result.1.ldeNbrs :=
    ((cleared.trans negotiated).nbrsKept.mem peerid).mpr ((Tree.mem_iff_getElem? _ _).mpr ⟨ln, nbr⟩)
  obtain ⟨ln', nbr'⟩ := (Tree.mem_iff_getElem? _ _).mp present
  obtain ⟨recvMap, id⟩ := recvMap_of_bindings visible' nbr nbr'
  refine both.trans (.acceptMapping _ ((cleared.trans negotiated).fecsKept.backed backed) map
    (negotiated.mem_ft node) nbr' recvMap ?_)
  rw [id]
  exact Fec.of_ldeMap2fec map ln.id

/-! ### Label Request -/

/-- Two changes of a neighbor are one. -/
theorem updateNbr_updateNbr (lde : Lde) (peerid : UInt32) (first second : LdeNbr → LdeNbr) :
    (lde.updateNbr peerid first).updateNbr peerid second = lde.updateNbr peerid (second ∘ first) := by
  rw [Lde.updateNbr, Lde.updateNbr, Lde.updateNbr]
  congr 1
  refine Std.ExtTreeMap.ext_getElem? fun other => ?_
  rw [Tree.getElem?_modify, Tree.getElem?_modify, Tree.getElem?_modify]
  split
  · rw [Option.map_map]
  · rfl

/-- Record a request. -/
def LdeNbr.request (fec : Fec) (msgId : UInt32) (ln : LdeNbr) : LdeNbr :=
  { ln with recvReq := ln.recvReq.insert fec msgId }

/-- Delete the record of a request. -/
def LdeNbr.unrequest (fec : Fec) (ln : LdeNbr) : LdeNbr :=
  { ln with recvReq := ln.recvReq.erase fec }

theorem NbrTended.requestUnrequest (ln : LdeNbr) (fec : Fec) (msgId : UInt32) :
    NbrTended ln ((LdeNbr.unrequest fec ∘ LdeNbr.request fec msgId) ln) := by
  refine ⟨rfl, rfl, rfl, fun other member => Or.inl ?_⟩
  have both := Std.ExtTreeMap.mem_erase.mp member
  exact (Std.ExtTreeMap.mem_insert.mp both.2).resolve_left both.1

/-- A request whose family is enabled is answered, and its record deleted with that. -/
theorem Edits.requestEnabled {peerid : UInt32} {ln : LdeNbr} {fec : Fec} (msgId : UInt32)
    (nbr : lde.ldeNbrs[peerid]? = some ln) (node : fec ∈ lde.ft) (enabled : ln.enabled fec = true) :
    Edits lde (Ldpd.ldeSendLabelmapping (lde.updateNbr peerid (LdeNbr.request fec msgId)) peerid fec
      true) := by
  obtain ⟨fn, found⟩ := (Tree.mem_iff_getElem? _ _).mp node
  have recorded : (lde.updateNbr peerid (LdeNbr.request fec msgId)).ldeNbrs[peerid]? =
      some (ln.request fec msgId) := by
    rw [getElem?_updateNbr, if_pos rfl, nbr]
    rfl
  have answers (lde : Lde) : labelPeer lde (ln.request fec msgId) fn fec = true := by
    cases fec with
    | ipv4 | ipv6 => exact enabled
    | pwid => cases enabled
  have tended : Edits lde ((lde.updateNbr peerid (LdeNbr.request fec msgId)).updateNbr peerid
      (LdeNbr.unrequest fec)) := by
    rw [updateNbr_updateNbr]
    exact .tendNbr lde peerid fun ln => .requestUnrequest ln fec msgId
  have listed : (lde.updateNbr peerid (LdeNbr.request fec msgId)).ft[fec]? = some fn := found
  rw [Ldpd.ldeSendLabelmapping]
  simp only [recorded, listed, answers, if_true]
  refine .trans ?_ (Edits.recordSent (LdeNbr.unrequest fec) _ recorded node rfl ?_ ?_)
  · exact tended.trans (.aside rfl rfl rfl)
  · rfl
  · rfl

/-- A request that is kept is one whose family is not enabled. -/
theorem Edits.ldeCheckRequest (lde : Lde) (map : Map) (peerid : UInt32) :
    Edits lde (ldeCheckRequest lde map peerid) := by
  rw [Ldpd.ldeCheckRequest]
  split
  · exact .refl lde
  rename_i ln nbr
  dsimp only
  split_ifs with empty loops pending
  · exact .composeLdpe lde _
  · exact .composeLdpe lde _
  · exact .refl lde
  by_cases enabled : ln.enabled (ldeMap2fec map ln.id) = true
  · refine .requestEnabled map.msgId nbr ?_ enabled
    by_contra absent
    rw [Lde.nexthops, Std.ExtTreeMap.getElem?_eq_none absent] at empty
    exact empty rfl
  · refine .trans (.tend lde peerid fun other same => ?_) (.ldeSendLabelmapping _ peerid _ true)
    cases nbr.symm.trans same
    refine ⟨rfl, rfl, rfl, fun other member => ?_⟩
    rcases Std.ExtTreeMap.mem_insert.mp member with same | before
    · rw [← Std.LawfulEqCmp.compare_eq_iff_eq.mp same]
      exact Or.inr (Bool.eq_false_iff.mpr enabled)
    · exact Or.inl before

/-! ### Label Release and Label Withdraw -/

theorem Edits.releaseFec (peerid label : UInt32) (lde : Lde) (fec : Fec) :
    Edits lde (releaseFec peerid label lde fec) := by
  have settled (lde : Lde) : Edits lde
      (lde.updateNbr peerid fun ln => { ln with sentWdraw := ln.sentWdraw.erase fec }) :=
    .tendNbr lde peerid fun _ => ⟨rfl, rfl, rfl, fun _ member => Or.inl member⟩
  rw [Ldpd.releaseFec]
  split
  · exact .refl lde
  · dsimp only
    repeat' split
    all_goals first
      | exact .refl lde
      | exact settled lde
      | exact .mapDel lde peerid fec true
      | exact (settled lde).trans (.mapDel _ peerid fec true)

theorem Edits.dispatchRelease (lde : Lde) (map : Map) (peerid : UInt32) :
    Edits lde (dispatchRelease lde map peerid) := by
  rw [Ldpd.dispatchRelease]
  split
  · exact Edits.foldl_free _ (Edits.releaseFec peerid map.label) _ lde
  rw [ldeCheckRelease]
  dsimp only
  repeat' split
  all_goals first
    | exact .refl lde
    | exact .releaseFec peerid map.label lde _

theorem Edits.forgetMapping (peerid label : UInt32) (lde : Lde) (fec : Fec) :
    Edits lde (forgetMapping peerid label lde fec) := by
  rw [Ldpd.forgetMapping]
  split
  · exact .refl lde
  split
  · exact .mapDel lde peerid fec false
  · exact .refl lde

theorem Touched.withdrawFec (peerid : UInt32) (ln : LdeNbr) (label : UInt32) (lde : Lde) (fec : Fec) :
    Touched lde (withdrawFec peerid ln label lde fec) :=
  .trans (.uninstallNexthops lde fec _) (.forgetMapping peerid label _ fec)

theorem Edits.withdrawFec (peerid : UInt32) (ln : LdeNbr) (label : UInt32) (lde : Lde)
    (backed : lde.Backed) (fec : Fec) : Edits lde (withdrawFec peerid ln label lde fec) :=
  .trans (.uninstallNexthops lde backed fec _) (.forgetMapping peerid label _ fec)

theorem Edits.dispatchWithdraw (lde : Lde) (backed : lde.Backed) (map : Map) (peerid : UInt32) :
    Edits lde (dispatchWithdraw lde map peerid) := by
  rw [Ldpd.dispatchWithdraw]
  split
  · rw [ldeCheckWithdrawWcard]
    split
    · exact .refl lde
    rename_i ln _
    refine .trans (.ldeSendLabelrelease lde peerid none map.label) (Edits.foldl_backed _
      (Touched.withdrawFec peerid ln map.label) _
      (fun lde backed fec _ => .withdrawFec peerid ln map.label lde backed fec) _ ?_)
    exact (Touched.ldeSendLabelrelease lde peerid none map.label).fecsKept.backed backed
  · rw [ldeCheckWithdraw]
    split
    · exact .refl lde
    split
    · exact .refl lde
    · refine .trans (.fecAdd lde _) (.trans (.uninstallNexthops _ ?_ _ _)
        (.trans (.ldeSendLabelrelease _ peerid _ map.label) (.forgetMapping peerid map.label _ _)))
      exact (Touched.fecAdd lde _).fecsKept.backed backed

/-! ### Addresses, snapshots and notifications -/

theorem Touched.addrUpdateFec (addr : LdpdAddr) (removed : Bool) (lde : Lde) (entry : Fec × Map) :
    Touched lde (addrUpdateFec addr removed lde entry) := by
  rw [Ldpd.addrUpdateFec]
  repeat' split
  all_goals first
    | exact .refl lde
    | exact .fail lde _
    | exact .trans (.ldeSendDeleteKlabel lde _ _) (.setRemoteLabel _ _ _ noLabel)
    | exact .trans (.setRemoteLabel lde _ _ _) (.ldeSendChangeKlabel _ _ _)

/-- The FECs that a neighbor has sent a mapping for have a node. -/
theorem Edits.ldeNbrAddrUpdate (lde : Lde) (backed : lde.Backed) (ln : LdeNbr)
    (nodes : ∀ fec ∈ ln.recvMap, fec ∈ lde.ft) (addr : LdpdAddr) (removed : Bool) :
    Edits lde (ldeNbrAddrUpdate lde ln addr removed) := by
  refine Edits.foldl _ (fun lde => lde.Backed ∧ ∀ fec ∈ ln.recvMap, fec ∈ lde.ft)
    (fun _ _ holds touched => ⟨touched.fecsKept.backed holds.1, fun fec member =>
      touched.mem_ft (holds.2 fec member)⟩) (Touched.addrUpdateFec addr removed) _
    (fun lde entry member holds => ?_) lde ⟨backed, nodes⟩
  have known : entry.1 ∈ ln.recvMap :=
    (Tree.mem_iff_getElem? _ _).mpr ⟨entry.2, Std.ExtTreeMap.mem_toList_iff_getElem?_eq_some.mp member⟩
  rw [addrUpdateFec]
  split
  · rename_i family
    obtain ⟨fn, node⟩ := (Tree.mem_iff_getElem? _ _).mp (holds.2 entry.1 known)
    have serves : lde.Serves entry.1 := ⟨holds.2 entry.1 known, fun none => by
      rw [none] at family
      cases family⟩
    rw [node]
    dsimp only
    split
    · exact .refl lde
    rename_i fnh _
    split
    · exact .uninstallNexthop lde holds.1 serves fnh
    · have labelled := Touched.setRemoteLabel lde entry.1 fnh entry.2.label
      exact .trans (.setRemoteLabel lde entry.1 fnh entry.2.label)
        (.ldeSendChangeKlabel _ (labelled.fecsKept.backed holds.1) (labelled.serves serves) _)
  · exact .refl lde

/-- A FEC that a neighbor has a mapping of has a node. -/
theorem Lde.Linked.mem_ft (linked : lde.Linked) {sent : Bool} {peerid : UInt32} {fec : Fec}
    (recorded : lde.Recorded sent peerid fec) : fec ∈ lde.ft := by
  have count := linked.one sent peerid fec recorded
  by_contra absent
  rw [Lde.entries, Std.ExtTreeMap.getElem?_eq_none absent] at count
  cases count

theorem Lde.Linked.nodes (linked : lde.Linked) {peerid : UInt32} {ln : LdeNbr}
    (nbr : lde.ldeNbrs[peerid]? = some ln) : ∀ fec ∈ ln.recvMap, fec ∈ lde.ft := by
  intro fec member
  have recorded : lde.Recorded false peerid fec := ⟨ln, nbr, member⟩
  exact linked.mem_ft recorded

theorem Edits.ldeAddressAdd (lde : Lde) (backed : lde.Backed) (linked : lde.Linked) (peerid : UInt32)
    (addr : LdpdAddr) : Edits lde (ldeAddressAdd lde peerid addr) := by
  rw [Ldpd.ldeAddressAdd]
  split
  · exact .refl lde
  rename_i ln nbr
  split
  · exact .refl lde
  · have listed : Edits lde
        (lde.updateNbr peerid fun ln => { ln with addrList := ln.addrList ++ [addr] }) :=
      .tendNbr lde peerid fun _ => ⟨rfl, rfl, rfl, fun _ member => Or.inl member⟩
    refine listed.trans (.ldeNbrAddrUpdate _ ?_ ln ?_ addr false)
    · exact (Touched.updateNbr lde peerid _).fecsKept.backed backed
    · exact linked.nodes nbr

theorem Edits.ldeAddressDel (lde : Lde) (backed : lde.Backed) (linked : lde.Linked) (peerid : UInt32)
    (addr : LdpdAddr) : Edits lde (ldeAddressDel lde peerid addr) := by
  rw [Ldpd.ldeAddressDel]
  split
  · exact .refl lde
  rename_i ln nbr
  split
  · exact .trans (.ldeNbrAddrUpdate lde backed ln (linked.nodes nbr) addr true) (.tendNbr _ peerid fun _ => ⟨rfl, rfl, rfl, fun _ member => Or.inl member⟩)
  · exact .refl lde

theorem Edits.fecSnap (lde : Lde) (peerid : UInt32) : Edits lde (fecSnap lde peerid) := by
  refine .trans (Edits.foldl_free _ (fun lde fec => ?_) _ lde) (.composeLdpe _ _)
  repeat' split
  all_goals first
    | exact .refl lde
    | exact .ldeSendLabelmapping lde peerid fec false

theorem Edits.dispatchNotification (lde : Lde) (backed : lde.Backed) (nm : NotifyMsg)
    (peerid : UInt32) : Edits lde (dispatchNotification lde nm peerid) := by
  rw [Ldpd.dispatchNotification]
  split
  · exact .refl lde
  rename_i ln _
  split
  case isFalse => exact .refl lde
  rw [l2vpnRecvPwStatus]
  dsimp only
  split
  case isFalse => exact .refl lde
  split
  · exact .refl lde
  rename_i fn node
  split
  · exact .refl lde
  rename_i data points
  split
  · exact .refl lde
  · exact .fail lde rfl
  split
  · exact .refl lde
  have told : Touched lde (lde.updatePw data fun pw => { pw with remoteStatus := nm.pwStatus }) :=
    .updatePw lde data fun _ => rfl
  have serves : lde.Serves (ldeMap2fec nm.fec ln.id) := by
    refine ⟨(Tree.mem_iff_getElem? _ _).mpr ⟨fn, node⟩, fun _ => ?_⟩
    rw [lde.data_eq_of_node node, points]
    exact Option.some_ne_none data
  split
  · exact .trans (.updatePw lde data _)
      (.ldeSendChangeKlabel _ (told.fecsKept.backed backed) (told.serves serves) _)
  · exact .trans (.updatePw lde data _)
      (.ldeSendDeleteKlabel _ (told.fecsKept.backed backed) (told.serves serves) _)

end Handlers

end Ldpd
