/-
This file follows a change of the explicit-null setting to a peer. The engine withdraws
the old label with a wildcard and advertises the connected routes of the address family
again. The wildcard reaches both address families, so the peer ends up without the
labels of the other family's connected routes exactly if they have the withdrawn label.
-/

import Ldpd.Lde.Reserved
import Ldpd.Lde.Peer

namespace Ldpd

/-! ### What a neighbor is told -/

/-- The address families that are enabled for a neighbor. -/
def Lde.enabled (lde : Lde) (peerid : UInt32) (af : Af) : Bool :=
  (lde.ldeNbrs[peerid]?).any fun ln =>
    match af with
    | .inet => ln.v4Enabled
    | .inet6 => ln.v6Enabled

/-- The label of a route that a neighbor should know: the local one, if the address family is
enabled for it. -/
def Lde.advertised (lde : Lde) (peerid : UInt32) (fec : Fec) : Option UInt32 :=
  match fec.af with
  | none => none
  | some af =>
    if lde.enabled peerid af ∧ lde.localLabel fec ≠ noLabel then some (lde.localLabel fec) else none

/-- The messages queued for a neighbor since an earlier state. -/
def Lde.toldSince (lde' lde : Lde) (peerid : UInt32) : List LdpeImsg :=
  (lde'.toPeer peerid).drop (lde.toPeer peerid).length

/-- The messages that come to the queue of a neighbor change what it knows of the routes. -/
structure Tells (peerid : UInt32) (change : Fec → Option UInt32 → Option UInt32) (lde lde' : Lde) :
    Prop where
  enabled : lde'.enabled peerid = lde.enabled peerid
  mem : peerid ∈ lde'.ldeNbrs ↔ peerid ∈ lde.ldeNbrs
  told : ∃ imsgs, lde'.toPeer peerid = lde.toPeer peerid ++ imsgs ∧
    (∀ imsg ∈ imsgs, imsg.advertises = true) ∧
      ∀ fec, fec.af ≠ none → ∀ known, imsgs.foldl (heard fec) known = change fec known

section Tells

variable {peerid : UInt32} {change change' : Fec → Option UInt32 → Option UInt32}
  {lde lde' lde'' : Lde}

theorem Tells.trans (first : Tells peerid change lde lde') (second : Tells peerid change' lde' lde'') :
    Tells peerid (fun fec known => change' fec (change fec known)) lde lde'' := by
  refine ⟨second.enabled.trans first.enabled, second.mem.trans first.mem, ?_⟩
  obtain ⟨before, queued, advertise, hear⟩ := first.told
  obtain ⟨after, queued', advertise', hear'⟩ := second.told
  refine ⟨before ++ after, ?_, fun imsg member => ?_, fun fec family known => ?_⟩
  · rw [queued', queued, List.append_assoc]
  · exact (List.mem_append.mp member).elim (advertise imsg) (advertise' imsg)
  · rw [List.foldl_append, hear fec family, hear' fec family]

theorem Tells.congr (tells : Tells peerid change lde lde')
    (same : ∀ fec, fec.af ≠ none → ∀ known, change fec known = change' fec known) :
    Tells peerid change' lde lde' := by
  obtain ⟨imsgs, queued, advertise, hear⟩ := tells.told
  refine ⟨tells.enabled, tells.mem, imsgs, queued, advertise, fun fec family known => ?_⟩
  rw [hear fec family, same fec family]

theorem Tells.quiet (enabled : lde'.enabled peerid = lde.enabled peerid)
    (mem : peerid ∈ lde'.ldeNbrs ↔ peerid ∈ lde.ldeNbrs) (queued : lde'.toLdpe = lde.toLdpe) :
    Tells peerid (fun _ known => known) lde lde' := by
  refine ⟨enabled, mem, [], ?_, fun _ member => absurd member List.not_mem_nil, fun _ _ _ => rfl⟩
  rw [Lde.toPeer, queued, List.append_nil]
  rfl

theorem Tells.refl (peerid : UInt32) (lde : Lde) : Tells peerid (fun _ known => known) lde lde :=
  .quiet rfl Iff.rfl rfl

theorem Tells.updateNode (peerid : UInt32) (lde : Lde) (fec : Fec) (change : FecNode → FecNode) :
    Tells peerid (fun _ known => known) lde (lde.updateNode fec change) :=
  .quiet rfl Iff.rfl rfl

theorem Tells.updateNbr (peerid : UInt32) (lde : Lde) (other : UInt32) {change : LdeNbr → LdeNbr}
    (v4 : ∀ ln, (change ln).v4Enabled = ln.v4Enabled)
    (v6 : ∀ ln, (change ln).v6Enabled = ln.v6Enabled) :
    Tells peerid (fun _ known => known) lde (lde.updateNbr other change) := by
  refine .quiet (funext fun af => ?_) (mem_updateNbr lde other change peerid) rfl
  rw [Lde.enabled, Lde.enabled, getElem?_updateNbr]
  split_ifs
  · cases lde.ldeNbrs[peerid]? with
    | none => rfl
    | some ln =>
      cases af with
      | inet => exact v4 ln
      | inet6 => exact v6 ln
  · rfl

theorem Tells.composeLdpe (peerid : UInt32) (lde : Lde) {imsg : LdpeImsg}
    (advertises : imsg.advertises = true) :
    Tells peerid (fun fec known => if imsg.peerid = peerid then heard fec known imsg else known) lde
      (lde.composeLdpe imsg) := by
  refine ⟨rfl, Iff.rfl, if imsg.peerid = peerid then [imsg] else [], ?_, fun other member => ?_,
    fun fec _ known => ?_⟩
  · rw [Lde.toPeer, Lde.composeLdpe, List.filter_append, Lde.toPeer]
    by_cases same : imsg.peerid = peerid
    · rw [if_pos same, List.filter_singleton, decide_eq_true same]
      rfl
    · rw [if_neg same, List.filter_singleton, decide_eq_false same]
      rfl
  · split at member
    · rw [List.mem_singleton.mp member]
      exact advertises
    · exact absurd member List.not_mem_nil
  · split <;> rfl

/-- The end markers say nothing. -/
theorem Tells.mark (peerid : UInt32) (lde : Lde) {imsg : LdpeImsg}
    (advertises : imsg.advertises = true) (nothing : ∀ fec known, heard fec known imsg = known) :
    Tells peerid (fun _ known => known) lde (lde.composeLdpe imsg) :=
  (Tells.composeLdpe peerid lde advertises).congr fun fec _ known => by rw [nothing, ite_self]

end Tells

/-! ### Senders -/

theorem tells_recordSent (peerid : UInt32) (lde : Lde) (other : UInt32) (ln : LdeNbr) (fec : Fec)
    (map : Map) : Tells peerid (fun _ known => known) lde (recordSent lde other ln fec map) := by
  rw [recordSent]
  split
  · exact .updateNbr peerid lde other (fun _ => rfl) fun _ => rfl
  · have listed := Tells.updateNode peerid lde fec fun fn =>
      { fn with upstream := other :: fn.upstream }
    exact listed.trans (.updateNbr peerid _ other (fun _ => rfl) fun _ => rfl)

theorem ldeMap2fec_ldeFec2map {fec : Fec} (family : fec.af ≠ none) (lsrId : InAddr) :
    ldeMap2fec (ldeFec2map fec) lsrId = fec := by
  cases fec with
  | ipv4 | ipv6 => rfl
  | pwid => exact absurd rfl family

theorem composeLabelmapping_route (lde : Lde) {fec : Fec} (family : fec.af ≠ none) (fn : FecNode) :
    composeLabelmapping lde fec fn = { ldeFec2map fec with label := fn.localLabel } := by
  cases fec with
  | ipv4 | ipv6 => rfl
  | pwid => exact absurd rfl family

/-- A mapping for a route tells a neighbor the local label, if the family is enabled for it. -/
theorem tells_ldeSendLabelmapping (peerid : UInt32) (lde : Lde) (other : UInt32) {fec : Fec} {af : Af}
    (family : fec.af = some af) (node : fec ∈ lde.ft) (single : Bool) :
    Tells peerid
      (fun route known => if other = peerid ∧ route = fec ∧ lde.enabled peerid af
        then some (lde.localLabel fec) else known)
      lde (ldeSendLabelmapping lde other fec single) := by
  obtain ⟨fn, found⟩ := (Tree.mem_iff_getElem? _ _).mp node
  have route : fec.af ≠ none := by
    rw [family]
    exact Option.some_ne_none af
  unfold ldeSendLabelmapping
  cases neighbor : lde.ldeNbrs[other]? with
  | none =>
    refine (Tells.refl peerid lde).congr fun _ _ _ => (if_neg ?_).symm
    rintro ⟨rfl, -, enabled⟩
    rw [Lde.enabled, neighbor] at enabled
    exact absurd enabled (by simp)
  | some ln =>
    have family' : labelPeer lde ln fn fec = true ↔ lde.enabled other af = true := by
      rw [Lde.enabled, neighbor]
      cases fec with
      | ipv4 | ipv6 =>
        cases family
        rfl
      | pwid => cases family
    simp only [found]
    split
    · rename_i speaks
      have enabled := family'.mp speaks
      have cleared : Tells peerid (fun _ known => known) lde (lde.updateNbr other fun ln =>
          { ln with recvReq := ln.recvReq.erase fec }) :=
        .updateNbr peerid lde other (fun _ => rfl) fun _ => rfl
      have ended (lde : Lde) : Tells peerid (fun _ known => known) lde
          (if single then lde.composeLdpe (.mappingAddEnd other) else lde) := by
        split
        · exact .mark peerid lde rfl fun _ _ => rfl
        · exact .refl peerid lde
      have sent {map : Map} (spoken : ldeMap2fec map 0 = fec ∧ map.label = lde.localLabel fec) :=
        ((cleared.trans (.composeLdpe peerid _ (rfl : (LdpeImsg.mappingAdd other
          map).advertises = true))).trans ((ended _).trans
            (tells_recordSent peerid _ other ln fec map))).congr fun route' _ known =>
        show (if other = peerid then (if ldeMap2fec map 0 = route' then some map.label else known)
            else known) = if other = peerid ∧ route' = fec ∧ lde.enabled peerid af
              then some (lde.localLabel fec) else known by
          rw [spoken.1, spoken.2]
          by_cases mine : other = peerid
          · subst mine
            rw [if_pos rfl]
            exact if_congr (by simp [enabled, eq_comm]) rfl rfl
          · rw [if_neg mine, if_neg fun all => mine all.1]
      refine sent ?_
      rw [composeLabelmapping_route lde route, lde.localLabel_eq_of_node found]
      split
      · exact ⟨ldeMap2fec_ldeFec2map route 0, rfl⟩
      · exact ⟨ldeMap2fec_ldeFec2map route 0, rfl⟩
    · rename_i silent
      refine (Tells.refl peerid lde).congr fun _ _ _ => (if_neg ?_).symm
      rintro ⟨rfl, -, enabled⟩
      exact silent (family'.mpr enabled)

/-- A wildcard withdraw takes a label from all routes. -/
theorem tells_ldeSendLabelwithdraw (peerid : UInt32) (lde : Lde) {other : UInt32}
    (present : other ∈ lde.ldeNbrs) (label : UInt32) :
    Tells peerid (fun _ known => if other = peerid then withdrawn label known else known) lde
      (ldeSendLabelwithdraw lde other none label none) := by
  obtain ⟨ln, found⟩ := (Tree.mem_iff_getElem? _ _).mp present
  have loop (fecs : List Fec) (lde : Lde) :
      Tells peerid (fun _ known => known) lde (fecs.foldl (recordWdraw other label) lde) := by
    induction fecs generalizing lde with
    | nil => exact .refl peerid lde
    | cons fec rest inductionHypothesis =>
      have recorded : Tells peerid (fun _ known => known) lde (recordWdraw other label lde fec) :=
        .updateNbr peerid lde other (fun _ => rfl) fun _ => rfl
      exact recorded.trans (inductionHypothesis _)
  unfold ldeSendLabelwithdraw
  simp only [found, composeLabelwithdraw]
  have queued := Tells.composeLdpe peerid lde (rfl : (LdpeImsg.withdrawAdd other
    { fec := .wildcard, label }).advertises = true)
  refine ((queued.trans (.mark peerid _ (rfl : (LdpeImsg.withdrawAddEnd other).advertises = true)
    fun _ _ => rfl)).trans (loop _ _)).congr fun fec _ known => ?_
  show (if other = peerid then heard fec known (.withdrawAdd other { fec := .wildcard, label })
    else known) = _
  refine if_congr Iff.rfl ?_ rfl
  rw [heard, withdrawn]
  exact if_congr (by simp) rfl rfl

/-! ### The loops of `lde_change_egress_label` -/

theorem tells_changeEgressFec (peerid : UInt32) (af : Af) (other : UInt32) (lde : Lde) (fec : Fec) :
    Tells peerid
      (fun route known => if other = peerid ∧ route = fec ∧ lde.Egress af route ∧
        lde.enabled peerid af then some (lde.egressOf af) else known)
      lde (changeEgressFec af other lde fec) := by
  have kept (notEgress : ¬lde.Egress af fec) : Tells peerid
      (fun route known => if other = peerid ∧ route = fec ∧ lde.Egress af route ∧
        lde.enabled peerid af then some (lde.egressOf af) else known) lde lde :=
    (Tells.refl peerid lde).congr fun route _ known => (if_neg (by
      rintro ⟨-, rfl, egress, -⟩
      exact notEgress egress)).symm
  rw [changeEgressFec]
  split
  · rename_i absent
    refine kept fun egress => ?_
    rw [Lde.Egress, Lde.localLabel, absent] at egress
    exact absurd egress.2 (by decide)
  · rename_i fn node
    have labelled : lde.localLabel fec = fn.localLabel := lde.localLabel_eq_of_node node
    split
    · rename_i free
      refine kept fun egress => ?_
      rw [Lde.Egress, labelled] at egress
      exact absurd free (UInt32.not_lt.mpr egress.2)
    split
    · rename_i reserved family
      have egress : lde.Egress af fec := ⟨family, labelled ▸ UInt32.not_lt.mp reserved⟩
      rw [egressLabel_eq lde family]
      have relabelled := Tells.updateNode peerid lde fec fun fn =>
        { fn with localLabel := lde.egressOf af }
      have present : fec ∈ (lde.updateNode fec fun fn => { fn with localLabel := lde.egressOf af }).ft :=
        (mem_updateNode lde fec fec _).mpr ((Tree.mem_iff_getElem? _ _).mpr ⟨fn, node⟩)
      refine (relabelled.trans (tells_ldeSendLabelmapping peerid _ other family present false)).congr
        fun route _ known => ?_
      rw [localLabel_setLocalLabel lde node, if_pos rfl, relabelled.enabled]
      refine if_congr (and_congr_right fun _ => and_congr_right fun same => ?_) rfl rfl
      rw [same]
      exact (and_iff_right egress).symm
    · rename_i foreign
      exact kept fun egress => foreign egress.1

theorem tells_foldl_changeEgressFec (peerid : UInt32) (af : Af) (other : UInt32) (fecs : List Fec)
    (lde : Lde) :
    Tells peerid
      (fun route known => if other = peerid ∧ route ∈ fecs ∧ lde.Egress af route ∧
        lde.enabled peerid af then some (lde.egressOf af) else known)
      lde (fecs.foldl (changeEgressFec af other) lde) := by
  induction fecs generalizing lde with
  | nil => exact (Tells.refl peerid lde).congr fun _ _ _ => by simp
  | cons fec rest inductionHypothesis =>
    have told := tells_changeEgressFec peerid af other lde fec
    have changed := egressChanged_changeEgressFec af other lde fec
    refine (told.trans (inductionHypothesis _)).congr fun route _ known => ?_
    have egress := changed.egress route
    rw [told.enabled, egressOf_eq changed.toConfKept]
    by_cases later : other = peerid ∧ route ∈ rest ∧ lde.Egress af route ∧ lde.enabled peerid af
    · rw [if_pos ⟨later.1, later.2.1, egress.mpr later.2.2.1, later.2.2.2⟩,
        if_pos ⟨later.1, List.mem_cons_of_mem fec later.2.1, later.2.2⟩]
    · rw [if_neg fun all => later ⟨all.1, all.2.1, egress.mp all.2.2.1, all.2.2.2⟩]
      refine if_congr (and_congr_right fun mine => ?_) rfl rfl
      rw [List.mem_cons]
      exact ⟨fun now => ⟨Or.inl now.1, now.2⟩,
        fun either => ⟨either.1.resolve_right fun listed => later ⟨mine, listed, either.2⟩, either.2⟩⟩

/-- The labels that `lde_change_egress_label` withdraws from a neighbor. -/
def Lde.withdrawnLabels (lde : Lde) (peerid : UInt32) (wasImplicit : Bool) : List UInt32 :=
  if wasImplicit then [mplsLabelImplnull]
  else (if lde.enabled peerid .inet then [mplsLabelIpv4null] else []) ++
    if lde.enabled peerid .inet6 then [mplsLabelIpv6null] else []

/-- Some labels are withdrawn from all routes. -/
def withdrawnAll (labels : List UInt32) (known : Option UInt32) : Option UInt32 :=
  labels.foldl (fun known label => withdrawn label known) known

theorem withdrawnAll_none (labels : List UInt32) : withdrawnAll labels none = none := by
  induction labels with
  | nil => rfl
  | cons label rest inductionHypothesis =>
    rw [withdrawnAll, List.foldl_cons, withdrawn_none]
    exact inductionHypothesis

theorem withdrawnAll_some {labels : List UInt32} (none : noLabel ∉ labels) (label : UInt32) :
    withdrawnAll labels (some label) = if label ∈ labels then Option.none else some label := by
  induction labels with
  | nil => rfl
  | cons first rest inductionHypothesis =>
    have later := inductionHypothesis fun member => none (List.mem_cons_of_mem first member)
    have named : first ≠ noLabel := fun same => none (same ▸ List.mem_cons_self)
    rw [withdrawnAll, List.foldl_cons, withdrawn]
    by_cases same : label = first
    · rw [if_pos (Or.inr (congrArg some same)), if_pos (same ▸ List.mem_cons_self)]
      exact withdrawnAll_none rest
    · have kept : ¬(first = noLabel ∨ some label = some first) :=
        fun either => either.elim named fun equal => same (Option.some_inj.mp equal)
      rw [if_neg kept]
      refine later.trans (if_congr ?_ rfl rfl)
      rw [List.mem_cons, or_iff_right same]

theorem withdrawnLabels_null {lde : Lde} {peerid : UInt32} {wasImplicit : Bool} {label : UInt32}
    (member : label ∈ lde.withdrawnLabels peerid wasImplicit) : label ≤ mplsLabelReservedMax := by
  rw [Lde.withdrawnLabels] at member
  split at member
  · rw [List.mem_singleton.mp member]
    decide
  · rcases List.mem_append.mp member with first | second
    · split at first
      · rw [List.mem_singleton.mp first]
        decide
      · exact absurd first List.not_mem_nil
    · split at second
      · rw [List.mem_singleton.mp second]
        decide
      · exact absurd second List.not_mem_nil

theorem tells_withdrawEgress (peerid : UInt32) (wasImplicit : Bool) (lde : Lde) {other : UInt32}
    {ln : LdeNbr} (found : lde.ldeNbrs[other]? = some ln) :
    Tells peerid
      (fun _ known => if other = peerid then withdrawnAll (lde.withdrawnLabels peerid wasImplicit) known
        else known)
      lde (withdrawEgress wasImplicit lde other ln) := by
  have present : other ∈ lde.ldeNbrs := (Tree.mem_iff_getElem? _ _).mpr ⟨ln, found⟩
  have v4 : lde.enabled other .inet = ln.v4Enabled := by
    rw [Lde.enabled, found]
    rfl
  have v6 : lde.enabled other .inet6 = ln.v6Enabled := by
    rw [Lde.enabled, found]
    rfl
  have step (enabled : Bool) (label : UInt32) (lde : Lde) (present : other ∈ lde.ldeNbrs) :
      Tells peerid
        (fun _ known => if other = peerid then withdrawnAll (if enabled then [label] else []) known
          else known)
        lde (if enabled then ldeSendLabelwithdraw lde other none label none else lde) := by
    cases enabled with
    | true => exact tells_ldeSendLabelwithdraw peerid lde present label
    | false => exact (Tells.refl peerid lde).congr fun _ _ known => (ite_self known).symm
  rw [withdrawEgress]
  cases wasImplicit with
  | true => exact tells_ldeSendLabelwithdraw peerid lde present mplsLabelImplnull
  | false =>
    have first := step ln.v4Enabled mplsLabelIpv4null lde present
    have still : other ∈ (if ln.v4Enabled then ldeSendLabelwithdraw lde other none mplsLabelIpv4null none
        else lde).ldeNbrs := by
      split
      · exact (tells_ldeSendLabelwithdraw other lde present mplsLabelIpv4null).mem.mpr present
      · exact present
    refine (first.trans (step ln.v6Enabled mplsLabelIpv6null _ still)).congr fun _ _ known => ?_
    by_cases mine : other = peerid
    · subst mine
      rw [if_pos rfl, if_pos rfl, if_pos rfl, Lde.withdrawnLabels, if_neg Bool.false_ne_true, v4, v6,
        withdrawnAll, withdrawnAll, withdrawnAll, List.foldl_append]
    · rw [if_neg mine, if_neg mine, if_neg mine]

/-- What a neighbor knows of a route after a change of the setting of an address family. -/
def Lde.afterChange (lde : Lde) (peerid : UInt32) (af : Af) (wasImplicit : Bool) (fec : Fec)
    (known : Option UInt32) : Option UInt32 :=
  if lde.Egress af fec ∧ lde.enabled peerid af then some (lde.egressOf af)
  else withdrawnAll (lde.withdrawnLabels peerid wasImplicit) known

theorem mem_keys_of_egress {lde : Lde} {af : Af} {fec : Fec} (egress : lde.Egress af fec) :
    fec ∈ lde.ft.keys := by
  rw [Std.ExtTreeMap.mem_keys, Tree.mem_iff_getElem?]
  have reserved := egress.2
  rw [Lde.localLabel] at reserved
  cases node : lde.ft[fec]? with
  | none =>
    rw [node] at reserved
    exact absurd reserved (by decide)
  | some fn => exact ⟨fn, rfl⟩

theorem tells_changeEgressNbr (peerid : UInt32) (af : Af) (wasImplicit : Bool) (lde : Lde)
    {other : UInt32} (present : other ∈ lde.ldeNbrs) :
    Tells peerid
      (fun fec known => if other = peerid then lde.afterChange peerid af wasImplicit fec known
        else known)
      lde (changeEgressNbr af wasImplicit lde other) := by
  obtain ⟨ln, found⟩ := (Tree.mem_iff_getElem? _ _).mp present
  rw [changeEgressNbr, found]
  dsimp only
  have told := tells_withdrawEgress peerid wasImplicit lde found
  have kept := (Touched.withdrawEgress wasImplicit lde other ln).fecsKept
  generalize withdrawEgress wasImplicit lde other ln = lde' at told kept ⊢
  have ended := Tells.mark peerid (lde'.ft.keys.foldl (changeEgressFec af other) lde')
    (rfl : (LdpeImsg.mappingAddEnd other).advertises = true) fun _ _ => rfl
  refine ((told.trans (tells_foldl_changeEgressFec peerid af other lde'.ft.keys lde')).trans
    ended).congr fun fec _ known => ?_
  have egress : lde'.Egress af fec ↔ lde.Egress af fec := by
    rw [Lde.Egress, Lde.Egress, kept.localLabel]
  by_cases mine : other = peerid
  · rw [if_pos mine, if_pos mine, told.enabled, egressOf_eq kept.toConfKept, Lde.afterChange]
    refine if_congr ?_ rfl rfl
    rw [← egress]
    exact ⟨fun all => ⟨all.2.2.1, all.2.2.2⟩, fun both => ⟨mine, mem_keys_of_egress both.1, both⟩⟩
  · rw [if_neg mine, if_neg mine, if_neg fun all => mine all.1]

/-- What `lde_change_egress_label` tells a neighbor. -/
theorem tells_ldeChangeEgressLabel (peerid : UInt32) (lde : Lde) (present : peerid ∈ lde.ldeNbrs)
    (af : Af) (wasImplicit : Bool) :
    Tells peerid (lde.afterChange peerid af wasImplicit) lde
      (ldeChangeEgressLabel lde af wasImplicit) := by
  have loop (peers : List UInt32) (lde : Lde) (known : ∀ other ∈ peers, other ∈ lde.ldeNbrs)
      (distinct : peers.Nodup) :
      Tells peerid
        (fun fec known => if peerid ∈ peers then lde.afterChange peerid af wasImplicit fec known
          else known)
        lde (peers.foldl (changeEgressNbr af wasImplicit) lde) := by
    induction peers generalizing lde with
    | nil => exact (Tells.refl peerid lde).congr fun _ _ _ => by simp
    | cons other rest inductionHypothesis =>
      have here := known other List.mem_cons_self
      have told := tells_changeEgressNbr peerid af wasImplicit lde here
      have changed := egressChanged_changeEgressNbr af wasImplicit lde other
      have fresh := List.nodup_cons.mp distinct
      have later := inductionHypothesis (changeEgressNbr af wasImplicit lde other)
        (fun third member => (tells_changeEgressNbr third af wasImplicit lde here).mem.mpr
          (known third (List.mem_cons_of_mem other member))) fresh.2
      refine (told.trans later).congr fun fec _ heard => ?_
      by_cases mine : other = peerid
      · subst mine
        rw [if_neg fresh.1, if_pos rfl, if_pos List.mem_cons_self]
      · have same : (changeEgressNbr af wasImplicit lde other).afterChange peerid af wasImplicit fec heard
            = lde.afterChange peerid af wasImplicit fec heard := by
          rw [Lde.afterChange, Lde.afterChange, egressOf_eq changed.toConfKept, Lde.withdrawnLabels,
            Lde.withdrawnLabels, told.enabled]
          exact if_congr (and_congr_left fun _ => changed.egress fec) rfl rfl
        rw [if_neg mine, same]
        refine if_congr ?_ rfl rfl
        rw [List.mem_cons, or_iff_right (Ne.symm mine)]
  refine (loop lde.ldeNbrs.keys lde (fun other member => Std.ExtTreeMap.mem_keys.mp member)
    Std.ExtTreeMap.nodup_keys).congr fun fec _ known => ?_
  rw [if_pos (Std.ExtTreeMap.mem_keys.mpr present)]

/-! ### The peer -/

/-- A peer knows the labels of the routes that are advertised to it, and no others. -/
def PeerKnows (lde : Lde) (peerid : UInt32) (peer : Lde) (self : UInt32) : Prop :=
  ∀ fec, fec.af ≠ none → peer.received self fec = lde.advertised peerid fec

/-- None of the labels that are withdrawn from a neighbor is the one of a route of the other
address family that is advertised to it. -/
def OtherFamilySpared (lde : Lde) (peerid : UInt32) (af : Af) (wasImplicit : Bool) : Prop :=
  ∀ fec family, fec.af = some family → family ≠ af → lde.enabled peerid family = true →
    lde.localLabel fec ∉ lde.withdrawnLabels peerid wasImplicit

theorem advertised_eq (lde : Lde) (peerid : UInt32) {fec : Fec} {af : Af} (family : fec.af = some af) :
    lde.advertised peerid fec = if lde.enabled peerid af ∧ lde.localLabel fec ≠ noLabel
      then some (lde.localLabel fec) else none := by
  rw [Lde.advertised, family]

theorem noLabel_not_withdrawn (lde : Lde) (peerid : UInt32) (wasImplicit : Bool) :
    noLabel ∉ lde.withdrawnLabels peerid wasImplicit :=
  fun member => absurd (withdrawnLabels_null member) (by decide)

/-- The peer's knowledge of one route after the change. -/
theorem afterChange_iff (lde : Lde) {peerid : UInt32} (present : peerid ∈ lde.ldeNbrs) (af : Af)
    (wasImplicit : Bool) {fec : Fec} {family : Af} (route : fec.af = some family) :
    lde.afterChange peerid af wasImplicit fec (lde.advertised peerid fec) =
        (ldeChangeEgressLabel lde af wasImplicit).advertised peerid fec ↔
      (family ≠ af → lde.enabled peerid family = true →
        lde.localLabel fec ∉ lde.withdrawnLabels peerid wasImplicit) := by
  have changed := egressChanged_ldeChangeEgressLabel lde af wasImplicit
  have told := tells_ldeChangeEgressLabel peerid lde present af wasImplicit
  have someone : lde.ldeNbrs.keys ≠ [] :=
    List.ne_nil_of_mem (Std.ExtTreeMap.mem_keys.mpr present)
  rw [advertised_eq _ peerid route, advertised_eq _ peerid route, told.enabled, Lde.afterChange]
  by_cases egress : lde.Egress af fec
  · have same : family = af := Option.some_inj.mp (route.symm.trans egress.1)
    subst same
    have labelled : lde.localLabel fec ≠ noLabel := by
      intro unlabelled
      have reserved := egress.2
      rw [unlabelled] at reserved
      exact absurd reserved (by decide)
    have relabelled : lde.egressOf family ≠ noLabel := by
      intro unlabelled
      have reserved := egressOf_reserved lde family
      rw [unlabelled] at reserved
      exact absurd reserved (by decide)
    rw [changed.changed fec someone egress]
    refine iff_of_true ?_ fun different => absurd rfl different
    by_cases enabled : lde.enabled peerid family
    · rw [if_pos ⟨egress, enabled⟩, if_pos ⟨enabled, relabelled⟩]
    · rw [if_neg fun both => enabled both.2, if_neg fun both => enabled both.1,
        if_neg fun both => enabled both.1, withdrawnAll_none]
  · rw [if_neg fun both => egress both.1, changed.passed fec fun both => egress both.2]
    by_cases speaks : lde.enabled peerid family ∧ lde.localLabel fec ≠ noLabel
    · rw [if_pos speaks, withdrawnAll_some (noLabel_not_withdrawn lde peerid wasImplicit)]
      constructor
      · intro kept _ _ member
        rw [if_pos member] at kept
        exact nomatch kept
      · intro spared
        rw [if_neg]
        intro member
        refine spared ?_ speaks.1 member
        intro same
        exact egress ⟨same ▸ route, withdrawnLabels_null member⟩
    · rw [if_neg speaks, withdrawnAll_none]
      refine iff_of_true rfl fun _ enabled member => ?_
      have unlabelled : lde.localLabel fec = noLabel := by
        by_contra labelled
        exact speaks ⟨enabled, labelled⟩
      rw [unlabelled] at member
      exact noLabel_not_withdrawn lde peerid wasImplicit member

/-- A change of the explicit-null setting of one address family leaves a peer, which knew the labels
advertised before, with the labels of all routes exactly if no connected route of the other address
family has a label that is withdrawn. -/
theorem explicit_null_followed_iff (lde : Lde) {peerid : UInt32} (present : peerid ∈ lde.ldeNbrs)
    (af : Af) (wasImplicit : Bool) (peer : Lde) {self : UInt32} (joined : self ∈ peer.ldeNbrs)
    (rooted : peer.Rooted self) (knows : PeerKnows lde peerid peer self) :
    PeerKnows (ldeChangeEgressLabel lde af wasImplicit) peerid
        (((ldeChangeEgressLabel lde af wasImplicit).toldSince lde peerid).foldl (deliver self) peer)
        self ↔
      OtherFamilySpared lde peerid af wasImplicit := by
  obtain ⟨imsgs, queued, advertise, hear⟩ :=
    (tells_ldeChangeEgressLabel peerid lde present af wasImplicit).told
  have told : (ldeChangeEgressLabel lde af wasImplicit).toldSince lde peerid = imsgs := by
    rw [Lde.toldSince, queued, List.drop_left]
  have heard := hears_foldl_deliver imsgs peer rooted joined advertise
  have after (fec : Fec) (family : fec.af ≠ none) :
      (imsgs.foldl (deliver self) peer).received self fec =
        lde.afterChange peerid af wasImplicit fec (lde.advertised peerid fec) := by
    rw [heard.received fec family, hear fec family, knows fec family]
  rw [told, PeerKnows, OtherFamilySpared]
  refine forall_congr' fun fec => ?_
  cases route : fec.af with
  | none => exact iff_of_true (fun family => absurd rfl family) nofun
  | some family =>
    have routed : fec.af ≠ none := by
      rw [route]
      exact Option.some_ne_none family
    rw [after fec routed, forall_prop_of_true (Option.some_ne_none family),
      afterChange_iff lde present af wasImplicit route]
    constructor
    · intro spared other same
      rw [← Option.some_inj.mp same]
      exact spared
    · exact fun spared => spared family rfl

/-! ### A peer with both address families -/

/-- The route to the own network 2001::/16. -/
def connectedRoute6 : RouteMsg where
  addr := .v6 #v[0x20, 0x01, 0, 0, 0, 0, 0, 0, 0, 0, 0, 0, 0, 0, 0, 0]
  prefixlen := 16
  nexthop := .v6 #v[0x20, 0x01, 0, 0, 0, 0, 0, 0, 0, 0, 0, 0, 0, 0, 0, 1]
  priority := 4
  connected := true
  family := rfl

/-- An engine with a connected route of each address family and a neighbor that has both
enabled. -/
def dualStack : Lde :=
  [.neighborUp 1 9 true true, .networkAdd connectedRoute, .networkAdd connectedRoute6].foldl ldeStep
    (Lde.start {})

/-- The neighbor's engine before it hears anything. -/
def dualStackStart : Lde := ldeStep (Lde.start {}) (.neighborUp 2 8 true true)

/-- The neighbor's engine when it has heard everything. -/
def dualStackPeer : Lde := (dualStack.toPeer 1).foldl (deliver 2) dualStackStart

theorem dualStackPeer_hears :
    Hears 2 (fun fec known => (dualStack.toPeer 1).foldl (heard fec) known) dualStackStart
      dualStackPeer := by
  refine hears_foldl_deliver _ _ (fun fec known => ?_) ?_ (by decide +kernel)
  · exact absurd rfl known
  · exact Std.ExtTreeMap.mem_insert_self

theorem dualStack_toPeer : dualStack.toPeer 1 =
    [.mappingAdd 1 { ldeFec2map connectedRoute.fec with label := mplsLabelImplnull },
      .mappingAddEnd 1,
      .mappingAdd 1 { ldeFec2map connectedRoute6.fec with label := mplsLabelImplnull },
      .mappingAddEnd 1] := by
  decide +kernel

/-- The neighbor knows the labels of both routes. -/
theorem dualStackPeer_knows : PeerKnows dualStack 1 dualStackPeer 2 := by
  intro fec family
  rw [dualStackPeer_hears.received fec family, dualStack_toPeer]
  by_cases v4 : fec = connectedRoute.fec
  · rw [v4]
    decide +kernel
  by_cases v6 : fec = connectedRoute6.fec
  · rw [v6]
    decide +kernel
  have unlabelled : dualStack.localLabel fec = noLabel := by
    have keys : dualStack.ft.keys = [connectedRoute.fec, connectedRoute6.fec] := by decide +kernel
    have absent : fec ∉ dualStack.ft := by
      rw [← Std.ExtTreeMap.mem_keys, keys]
      simp [v4, v6]
    rw [Lde.localLabel, Std.ExtTreeMap.getElem?_eq_none absent]
  have unknown : dualStack.advertised 1 fec = none := by
    rw [Lde.advertised]
    split
    · rfl
    · exact if_neg fun both => both.2 unlabelled
  rw [unknown]
  show (if connectedRoute6.fec = fec then some mplsLabelImplnull
    else if connectedRoute.fec = fec then some mplsLabelImplnull else none) = none
  rw [if_neg (Ne.symm v6), if_neg (Ne.symm v4)]

/-- The equivalence, for the neighbor with both address families. -/
theorem explicit_null_followed_iff_dualStack :
    PeerKnows (ldeChangeEgressLabel dualStack .inet true) 1
        (((ldeChangeEgressLabel dualStack .inet true).toldSince dualStack 1).foldl (deliver 2)
          dualStackPeer) 2 ↔
      OtherFamilySpared dualStack 1 .inet true :=
  explicit_null_followed_iff dualStack (by decide +kernel) .inet true dualStackPeer
    (by decide +kernel) dualStackPeer_hears.rooted dualStackPeer_knows

/-- With implicit null for both address families, the change to explicit null for IPv4 leaves the
neighbor without the label of the IPv6 route. -/
theorem explicit_null_strands :
    (1 ∈ dualStack.ldeNbrs ∧ 2 ∈ dualStackPeer.ldeNbrs ∧ dualStackPeer.Rooted 2 ∧
        PeerKnows dualStack 1 dualStackPeer 2) ∧
      ¬PeerKnows (ldeChangeEgressLabel { dualStack with ipv4ExpNull := true } .inet true) 1
        (((ldeChangeEgressLabel { dualStack with ipv4ExpNull := true } .inet true).toldSince dualStack
          1).foldl (deliver 2) dualStackPeer) 2 := by
  refine ⟨⟨by decide +kernel, by decide +kernel, dualStackPeer_hears.rooted, dualStackPeer_knows⟩, ?_⟩
  intro knows
  exact absurd (knows connectedRoute6.fec (by decide)) (by decide +kernel)

end Ldpd
