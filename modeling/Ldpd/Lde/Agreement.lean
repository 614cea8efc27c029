/-
This file is about two engines at the two ends of a session. Each of them handles events of
its own at any time, and reads what the other has queued for it message by message and in
order. Whatever the interleaving, an end that has sent all its labels once and whose queue
has been read is known to the other end exactly as it is.
-/

import Ldpd.Library.Fifo
import Ldpd.Lde.Says
import Ldpd.Lde.Arrival
import Ldpd.Lde.Records

namespace Ldpd

/-! ### What keeps a neighbor right -/

/-- What a neighbor is told keeps it right: one that knows the advertised labels knows them
afterwards, and one that knows nothing of a route still knows nothing or its advertised label. -/
structure Honest (peerid : UInt32) (lde lde' : Lde) : Prop where
  mem : peerid ∈ lde'.ldeNbrs ↔ peerid ∈ lde.ldeNbrs
  said : ∃ imsgs, lde'.toPeer peerid = lde.toPeer peerid ++ imsgs ∧ ∀ fec, fec.af ≠ none →
    imsgs.foldl (heard fec) (lde.advertised peerid fec) = lde'.advertised peerid fec ∧
      (imsgs.foldl (heard fec) none = none ∨
        imsgs.foldl (heard fec) none = lde'.advertised peerid fec)

section Honest

variable {peerid : UInt32} {lde lde' lde'' : Lde}

theorem Says.honest {change : Fec → Option UInt32 → Option UInt32}
    (spoken : Says peerid change lde lde')
    (right : ∀ fec, fec.af ≠ none →
      change fec (lde.advertised peerid fec) = lde'.advertised peerid fec)
    (fresh : ∀ fec, fec.af ≠ none →
      change fec none = none ∨ change fec none = lde'.advertised peerid fec) :
    Honest peerid lde lde' := by
  obtain ⟨imsgs, queued, hear⟩ := spoken.said
  refine ⟨spoken.mem, imsgs, queued, fun fec family => ?_⟩
  rw [hear fec family, hear fec family]
  exact ⟨right fec family, fresh fec family⟩

theorem Honest.trans (first : Honest peerid lde lde') (second : Honest peerid lde' lde'') :
    Honest peerid lde lde'' := by
  obtain ⟨before, queued, hear⟩ := first.said
  obtain ⟨after, queued', hear'⟩ := second.said
  refine ⟨second.mem.trans first.mem, before ++ after, ?_, fun fec family => ?_⟩
  · rw [queued', queued, List.append_assoc]
  · obtain ⟨right, fresh⟩ := hear fec family
    obtain ⟨right', fresh'⟩ := hear' fec family
    rw [List.foldl_append, List.foldl_append, right]
    refine ⟨right', ?_⟩
    rcases fresh with still | known
    · rw [still]
      exact fresh'
    · rw [known]
      exact Or.inr right'

theorem advertised_congr (enabled : lde'.enabled peerid = lde.enabled peerid) {fec : Fec}
    (label : lde'.localLabel fec = lde.localLabel fec) :
    lde'.advertised peerid fec = lde.advertised peerid fec := by
  rw [Lde.advertised, Lde.advertised, enabled, label]

/-- A change that says nothing and keeps the labels. -/
theorem Mute.honest (mute : Mute peerid lde lde')
    (labels : ∀ fec, fec.af ≠ none → lde'.localLabel fec = lde.localLabel fec) :
    Honest peerid lde lde' :=
  Says.honest mute (fun fec family => (advertised_congr mute.enabled (labels fec family)).symm)
    fun _ _ => Or.inl rfl

theorem Mute.honest_of_bindings (mute : Mute peerid lde lde') (same : lde'.bindings = lde.bindings) :
    Honest peerid lde lde' :=
  mute.honest fun fec _ => congrFun (congrArg Bindings.localLabel same) fec

theorem Mute.honest_of_kept (mute : Mute peerid lde lde') (kept : FecsKept lde lde') :
    Honest peerid lde lde' :=
  mute.honest fun fec _ => kept.localLabel fec

theorem enabled_of_not_mem (absent : peerid ∉ lde.ldeNbrs) (af : Af) :
    lde.enabled peerid af = false :=
  enabled_of_none (Std.ExtTreeMap.getElem?_eq_none absent) af

theorem advertised_of_not_mem (absent : peerid ∉ lde.ldeNbrs) (fec : Fec) :
    lde.advertised peerid fec = none := by
  rw [Lde.advertised]
  split
  · rfl
  · rw [if_neg]
    rintro ⟨enabled, -⟩
    rw [enabled_of_not_mem absent] at enabled
    cases enabled

theorem advertised_of_unlabelled (peerid : UInt32) {fec : Fec}
    (unlabelled : lde.localLabel fec = noLabel) : lde.advertised peerid fec = none := by
  rw [Lde.advertised]
  split
  · rfl
  · exact if_neg fun both => both.2 unlabelled

theorem mem_ft_of_labelled {fec : Fec} (labelled : lde.localLabel fec ≠ noLabel) : fec ∈ lde.ft := by
  by_contra absent
  rw [Lde.localLabel, Std.ExtTreeMap.getElem?_eq_none absent] at labelled
  exact labelled rfl

/-- A neighbor that is offered a label knows what is advertised to it, if it knew that or nothing. -/
theorem offered_eq {fec : Fec} (labelled : lde.localLabel fec ≠ noLabel) :
    lde.offered peerid fec (lde.advertised peerid fec) = lde.advertised peerid fec ∧
      lde.offered peerid fec none = lde.advertised peerid fec := by
  have node := mem_ft_of_labelled labelled
  rw [Lde.offered, Lde.offered, Lde.advertised]
  cases fec.af with
  | none => exact ⟨rfl, rfl⟩
  | some af =>
    dsimp only
    by_cases enabled : lde.enabled peerid af = true
    · simp [node, enabled, labelled]
    · simp [enabled]

/-- A neighbor from which a label is taken back knows none, if it knew what was advertised. -/
theorem retracted_eq (fec : Fec) :
    lde.retracted peerid fec (lde.advertised peerid fec) = none ∧
      lde.retracted peerid fec none = none := by
  rw [Lde.retracted, Lde.retracted, Lde.advertised]
  cases fec.af with
  | none => exact ⟨rfl, rfl⟩
  | some af =>
    dsimp only
    refine ⟨?_, ?_⟩
    · by_cases speaks : lde.enabled peerid af = true ∧ lde.localLabel fec ≠ noLabel
      · rw [if_pos speaks, if_pos ⟨mem_ft_of_labelled speaks.2, speaks.1⟩, withdrawn,
          if_pos (Or.inr rfl)]
      · rw [if_neg speaks]
        split
        · exact withdrawn_none _
        · rfl
    · split
      · exact withdrawn_none _
      · rfl

end Honest

/-! ### Routes -/

section Routes

variable (peerid : UInt32) (lde : Lde)

theorem honest_setData (fec : Fec) (data : Option Nat) : Honest peerid lde (setData lde fec data) := by
  refine Mute.honest ?_ fun route _ => localLabel_setData lde fec route data
  cases fec with
  | ipv4 | ipv6 => exact .refl peerid lde
  | pwid => exact .updateNode peerid lde _ _

theorem newLabel_ne_noLabel {fec : Fec} (family : fec.af ≠ none) {connected : Bool}
    (left : connected = false → lde.label + 1 ≠ noLabel) : lde.newLabel fec connected ≠ noLabel := by
  cases connected with
  | false => exact left rfl
  | true =>
    obtain ⟨af, same⟩ := Option.ne_none_iff_exists'.mp family
    rw [Lde.newLabel, if_pos rfl, egressLabel_eq lde same, Option.getD_some]
    intro unlabelled
    have reserved := egressOf_reserved lde af
    rw [unlabelled] at reserved
    exact absurd reserved (by decide)

/-- All neighbors are told a new label, so they know it. -/
theorem honest_assignLocalLabel {fec : Fec} (present : fec ∈ lde.ft)
    (unlabelled : lde.localLabel fec = noLabel) (connected : Bool)
    (left : fec.af ≠ none → connected = false → lde.label + 1 ≠ noLabel) :
    Honest peerid lde (assignLocalLabel lde fec connected) := by
  have told := says_assignLocalLabel peerid lde fec connected
  have visible := bindings_assignLocalLabel lde present unlabelled connected
  generalize assignLocalLabel lde fec connected = lde' at told visible
  have labels (route : Fec) : lde'.localLabel route =
      Function.update lde.localLabel fec (lde.newLabel fec connected) route :=
    congrFun (congrArg Bindings.localLabel visible) route
  have unoffered (route : Fec) (apart : ¬(peerid ∈ lde.ldeNbrs ∧ route = fec)) :
      lde'.advertised peerid route = lde.advertised peerid route := by
    by_cases same : route = fec
    · have absent : peerid ∉ lde.ldeNbrs := fun member => apart ⟨member, same⟩
      rw [advertised_of_not_mem absent, advertised_of_not_mem (mt told.mem.mp absent)]
    · refine advertised_congr told.enabled ?_
      rw [labels, Function.update_of_ne same]
  have offered (family : fec.af ≠ none) :
      lde'.offered peerid fec none = lde'.advertised peerid fec := by
    refine (offered_eq ?_).2
    rw [labels, Function.update_self]
    exact newLabel_ne_noLabel lde family (left family)
  refine told.honest (fun route family => ?_) fun route family => ?_
  · by_cases both : peerid ∈ lde.ldeNbrs ∧ route = fec
    · obtain ⟨-, rfl⟩ := id both
      rw [if_pos both, advertised_of_unlabelled peerid unlabelled]
      exact offered family
    · rw [if_neg both]
      exact (unoffered route both).symm
  · by_cases both : peerid ∈ lde.ldeNbrs ∧ route = fec
    · obtain ⟨-, rfl⟩ := id both
      rw [if_pos both]
      exact Or.inr (offered family)
    · rw [if_neg both]
      exact Or.inl rfl

/-- All neighbors are asked to forget a label that goes. -/
theorem honest_retireFec {fec : Fec} (present : fec ∈ lde.ft) :
    Honest peerid lde (retireFec lde fec) := by
  have withdrawn := says_ldeSendLabelwithdrawAll peerid lde fec noLabel
  have kept := (Touched.ldeSendLabelwithdrawAll lde fec noLabel).fecsKept
  have node := (mem_ldeSendLabelwithdrawAll lde fec fec noLabel).mpr present
  rw [retireFec]
  generalize ldeSendLabelwithdrawAll lde fec noLabel = lde' at withdrawn kept node
  have told := withdrawn.trans
    (Mute.updateNode peerid lde' fec fun fn => { fn with localLabel := noLabel })
  have visible := bindings_setLocalLabel lde' node noLabel
  refine Honest.trans ?_ (honest_setData peerid _ fec none)
  generalize (lde'.updateNode fec fun fn => { fn with localLabel := noLabel }) = later
    at told visible
  have labels (route : Fec) : later.localLabel route =
      Function.update lde.localLabel fec noLabel route := by
    rw [← funext kept.localLabel]
    exact congrFun (congrArg Bindings.localLabel visible) route
  have gone : later.advertised peerid fec = none := by
    refine advertised_of_unlabelled peerid ?_
    rw [labels, Function.update_self]
  refine told.honest (fun route _ => ?_) fun route _ => ?_
  · by_cases same : route = fec
    · subst same
      rw [gone]
      by_cases member : peerid ∈ lde.ldeNbrs
      · rw [if_pos ⟨member, rfl⟩]
        exact (retracted_eq route).1
      · rw [if_neg fun both => member both.1]
        exact advertised_of_not_mem member route
    · rw [if_neg fun both => same both.2]
      refine (advertised_congr told.enabled ?_).symm
      rw [labels, Function.update_of_ne same]
  · split
    · rename_i both
      rw [both.2]
      exact Or.inl (retracted_eq fec).2
    · exact Or.inl rfl

theorem honest_useRecordedMapping (fec : Fec) (nexthop : LdpdAddr) :
    Honest peerid lde (useRecordedMapping lde fec nexthop) := by
  refine Mute.honest_of_kept ?_ (Touched.useRecordedMapping lde fec nexthop).fecsKept
  unfold useRecordedMapping
  split
  · exact .refl peerid lde
  split
  · exact .refl peerid lde
  · exact .ldeCheckMapping peerid lde _ _

theorem honest_insertNexthop {fec : Fec} {fn : FecNode} (node : lde.ft[fec]? = some fn)
    (nexthop : LdpdAddr) (priority : UInt8) (connected : Bool) (data : Option Nat)
    (left : fec.af ≠ none → lde.TakesLabel fec connected → lde.label + 1 ≠ noLabel) :
    Honest peerid lde (insertNexthop lde fec fn nexthop priority connected data) := by
  have present := (mem_setData lde fec fec data).mpr ((Tree.mem_iff_getElem? _ _).mpr ⟨fn, node⟩)
  have pointed := honest_setData peerid lde fec data
  have label : (setData lde fec data).localLabel fec = fn.localLabel := by
    rw [localLabel_setData, lde.localLabel_eq_of_node node]
  have counter : (setData lde fec data).label = lde.label := label_setData lde fec data
  have added (lde' : Lde) (known : fec ∈ lde'.ft) : Honest peerid lde'
      (ldeSendChangeKlabel (fecNhAdd lde' fec nexthop priority) fec
        { nexthop, remoteLabel := noLabel, priority }) := by
    have listed := (Mute.updateNode peerid lde' fec fun fn => { fn with
      nexthops := { nexthop, remoteLabel := noLabel, priority } :: fn.nexthops }).honest fun route _ =>
        congrFun (congrArg Bindings.localLabel (bindings_fecNhAdd lde' known nexthop priority)) route
    exact listed.trans ((kernelOnly_ldeSendChangeKlabel _ fec _).mute.honest_of_bindings
      (bindings_ldeSendChangeKlabel _ fec _))
  unfold insertNexthop
  dsimp only
  split_ifs with unlabelled
  · refine pointed.trans ((honest_assignLocalLabel peerid _ present (label.trans unlabelled) connected
      fun family far => ?_).trans (added _ ((mem_assignLocalLabel _ fec fec connected).mpr present)))
    rw [counter]
    exact left family ⟨(lde.localLabel_eq_of_node node).trans unlabelled, far⟩
  · exact pointed.trans (added _ present)

/-- A route that comes keeps the neighbors right, if the counter does not come to `NO_LABEL`. -/
theorem honest_ldeKernelInsert (fec : Fec) (nexthop : LdpdAddr) (priority : UInt8) (connected : Bool)
    (data : Option Nat) (left : fec.af ≠ none → ¬lde.HasNexthop fec nexthop priority →
      lde.TakesLabel fec connected → lde.label + 1 ≠ noLabel) :
    Honest peerid lde (ldeKernelInsert lde fec nexthop priority connected data) := by
  have known := (Mute.fecAdd peerid lde fec).honest_of_bindings (bindings_fecAdd lde fec)
  have visible := bindings_fecAdd lde fec
  obtain ⟨fn, node⟩ : ∃ fn, (fecAdd lde fec).ft[fec]? = some fn := by
    rw [getElem?_fecAdd, if_pos rfl]
    exact ⟨_, rfl⟩
  have lists : lde.HasNexthop fec nexthop priority ↔ (fecNhFind fn nexthop priority).isSome := by
    have nexthops : (fecAdd lde fec).bindings.nexthops fec = fn.nexthops :=
      (fecAdd lde fec).nexthops_eq_of_node node
    rw [← lists_iff, ← visible, Bindings.Lists, fecNhFind_isSome_iff, nexthops]
  unfold ldeKernelInsert
  simp only [node]
  split_ifs with listed
  · exact known
  · refine known.trans ((honest_insertNexthop peerid _ node nexthop priority connected data
      fun family takes => ?_).trans (honest_useRecordedMapping peerid _ fec nexthop))
    refine left family (mt lists.mp listed) ⟨?_, takes.2⟩
    exact (congrFun (congrArg Bindings.localLabel visible) fec).symm.trans takes.1

/-- A route that goes keeps the neighbors right. -/
theorem honest_ldeKernelRemove (fec : Fec) (nexthop : LdpdAddr) (priority : UInt8) :
    Honest peerid lde (ldeKernelRemove lde fec nexthop priority) := by
  have same : Honest peerid lde lde := (Mute.refl peerid lde).honest fun _ _ => rfl
  unfold ldeKernelRemove
  split
  · exact same
  split
  · exact same
  · rename_i fn node _ fnh _
    have deleted : Honest peerid lde (ldeSendDeleteKlabel lde fec fnh) :=
      (kernelOnly_ldeSendDeleteKlabel lde fec fnh).mute.honest_of_bindings
        (bindings_ldeSendDeleteKlabel lde fec fnh)
    have unlisted := (Mute.updateNode peerid (ldeSendDeleteKlabel lde fec fnh) fec fun fn =>
      { fn with nexthops := fn.nexthops.filter fun other =>
          ¬(other.nexthop = fnh.nexthop ∧ other.priority = fnh.priority) }).honest fun route _ =>
      congrFun (congrArg Bindings.localLabel (bindings_fecNhDel _ fec fnh)) route
    have removed : Honest peerid lde (fecNhDel (ldeSendDeleteKlabel lde fec fnh) fec fnh) :=
      deleted.trans unlisted
    dsimp only
    split
    · refine removed.trans (honest_retireFec peerid _ ?_)
      refine (mem_updateNode _ fec fec _).mpr ?_
      rw [(kernelOnly_ldeSendDeleteKlabel lde fec fnh).ft]
      exact (Tree.mem_iff_getElem? _ _).mpr ⟨fn, node⟩
    · exact removed

end Routes

/-! ### What one event tells a neighbor -/

/-- An event that neither starts nor ends the session with a neighbor. This program sends no label
requests. -/
def LdeEvent.InSession (peerid : UInt32) : LdeEvent → Prop
  | .neighborUp other .. | .neighborDown other | .labelRequest other _ => other ≠ peerid
  | _ => True

section Events

variable (peerid : UInt32) (lde : Lde)

theorem newLabel_of_left {event : LdeEvent} (left : LabelLeft lde (.event event)) {fec : Fec}
    (takes : lde.Takes (.event event) fec) : lde.label + 1 ≠ noLabel := by
  intro last
  have next := counter_succ (left fec takes)
  rw [last] at next
  have bound : lde.label.toNat < 1048575 := UInt32.lt_iff_toNat_lt.mp (left fec takes)
  have none : noLabel.toNat = 4294967295 := rfl
  omega

theorem honest_fecSnap (other : UInt32) : Honest peerid lde (fecSnap lde other) := by
  have told := says_fecSnap peerid lde other
  have kept := (Touched.fecSnap lde other).fecsKept
  have same (fec : Fec) : (fecSnap lde other).advertised peerid fec = lde.advertised peerid fec :=
    advertised_congr told.enabled (kept.localLabel fec)
  refine told.honest (fun fec _ => ?_) fun fec _ => ?_
  · rw [same]
    split
    · rename_i both
      exact (offered_eq both.2).1
    · rfl
  · rw [same]
    split
    · rename_i both
      exact Or.inr (offered_eq both.2).2
    · exact Or.inl rfl

/-- What starts a pseudowire says nothing about routes. -/
theorem honest_l2vpnPwInit (data : Nat) : Honest peerid lde (l2vpnPwInit lde data) := by
  unfold l2vpnPwInit
  split
  · exact (Mute.refl peerid lde).honest fun _ _ => rfl
  · rename_i pw _
    have reset : Honest peerid lde (lde.updatePw data l2vpnPwReset) :=
      (Mute.updatePw peerid lde data l2vpnPwReset).honest fun _ _ => rfl
    exact reset.trans (honest_ldeKernelInsert peerid _ _ _ 0 false _ fun family =>
      absurd rfl family)

theorem honest_l2vpnPwExit (data : Nat) : Honest peerid lde (l2vpnPwExit lde data) := by
  unfold l2vpnPwExit
  split
  · exact (Mute.refl peerid lde).honest fun _ _ => rfl
  · exact honest_ldeKernelRemove peerid lde _ _ 0

/-- Every event within a session keeps the neighbor right. -/
theorem honest_ldeStep (idle : lde.Idle) {event : LdeEvent} (inSession : event.InSession peerid)
    (left : LabelLeft lde (.event event)) : Honest peerid lde (ldeStep lde event) := by
  have kept (other : event.changesFecs = false) (mute : Mute peerid lde (ldeStep lde event)) :
      Honest peerid lde (ldeStep lde event) :=
    mute.honest_of_kept (FecsKept.ldeStep lde idle other)
  have aside {lde lde' : Lde} (nbrs : lde'.ldeNbrs = lde.ldeNbrs) (queued : lde'.toLdpe = lde.toLdpe)
      (ft : lde'.ft = lde.ft) : Honest peerid lde lde' :=
    (Mute.aside nbrs queued).honest fun fec _ => by rw [Lde.localLabel, ft, Lde.localLabel]
  cases event with
  | networkAdd kr =>
    refine honest_ldeKernelInsert peerid lde _ _ _ _ none fun _ fresh takes => ?_
    have taken : lde.Takes (.event (.networkAdd kr)) kr.fec :=
      ⟨⟨kr.fec, kr.nexthop, kr.priority, kr.connected⟩, rfl, rfl, fresh, takes⟩
    exact newLabel_of_left lde left taken
  | networkDel kr => exact honest_ldeKernelRemove peerid lde _ _ _
  | labelMappingFull other =>
    rw [ldeStep]
    split
    · exact honest_fecSnap peerid lde other
    · exact (Mute.refl peerid lde).honest fun _ _ => rfl
  | labelMapping other map => exact kept rfl (.ldeCheckMapping peerid lde map other)
  | labelRequest other map => exact kept rfl (.ldeCheckRequest peerid lde map inSession)
  | labelRelease other map => exact kept rfl (.dispatchRelease peerid lde map other)
  | labelWithdraw other map => exact kept rfl (.dispatchWithdraw peerid lde map other)
  | labelAbort other map => exact kept rfl (.refl peerid lde)
  | addressAdd other addr => exact kept rfl (.ldeAddressAdd peerid lde other addr)
  | addressDel other addr => exact kept rfl (.ldeAddressDel peerid lde other addr)
  | notification other nm => exact kept rfl (.dispatchNotification peerid lde nm other)
  | neighborUp other id v4Enabled v6Enabled =>
    exact kept rfl (.ldeNbrNew peerid lde inSession id v4Enabled v6Enabled)
  | neighborDown other => exact kept rfl (.ldeNbrDel peerid lde inSession)
  | gcTimer => exact kept rfl (.ldeGcTimer peerid lde)
  | pwNew data conf =>
    show Honest peerid lde (l2vpnPwAdd lde data conf)
    rw [l2vpnPwAdd]
    split
    · exact (Mute.refl peerid lde).honest fun _ _ => rfl
    · refine .trans ?_ (honest_l2vpnPwInit peerid _ data)
      exact aside rfl rfl rfl
  | pwDel data =>
    show Honest peerid lde (l2vpnPwDelete lde data)
    rw [l2vpnPwDelete]
    split
    · exact (Mute.refl peerid lde).honest fun _ _ => rfl
    · exact (honest_l2vpnPwExit peerid lde data).trans (aside rfl rfl rfl)

end Events

/-! ### What one event makes of the record of a neighbor -/

/-- An event that may change which mappings are recorded from a neighbor. -/
def LdeEvent.Teaches (self : UInt32) : LdeEvent → Prop
  | .labelMapping other _ | .labelWithdraw other _ | .neighborUp other .. | .neighborDown other =>
    other = self
  | _ => False

/-- The mappings that are recorded from a neighbor. -/
def Bindings.recvMap (b : Bindings) (self : UInt32) : Option (FecTree Map) :=
  (b.nbr self).map NbrView.recvMap

section Record

theorem Bindings.recvMap_updateNbr (b : Bindings) (peerid self : UInt32) {change : NbrView → NbrView}
    (apart : peerid ≠ self ∨ ∀ ln, (change ln).recvMap = ln.recvMap) :
    (b.updateNbr peerid change).recvMap self = b.recvMap self := by
  rw [Bindings.recvMap, Bindings.recvMap]
  show Option.map _ (Function.update b.nbr peerid _ self) = _
  by_cases same : self = peerid
  · subst same
    have keeps := apart.resolve_left (not_not_intro rfl)
    rw [Function.update_self, Option.map_map]
    exact congrArg (Option.map · (b.nbr self)) (funext keeps)
  · rw [Function.update_of_ne same]

theorem Bindings.recvMap_setNbr (b : Bindings) {peerid self : UInt32} (different : peerid ≠ self)
    (ln : Option NbrView) : (b.setNbr peerid ln).recvMap self = b.recvMap self :=
  congrArg (Option.map NbrView.recvMap) (Function.update_of_ne (Ne.symm different) _ _)

theorem Bindings.recvMap_unlearnAll (b : Bindings) {peerid self : UInt32} (different : peerid ≠ self)
    (ln : NbrView) (label : UInt32) (fecs : List Fec) :
    (b.unlearnAll peerid ln label fecs).recvMap self = b.recvMap self := by
  unfold Bindings.unlearnAll
  induction fecs generalizing b with
  | nil => rfl
  | cons fec rest inductionHypothesis =>
    refine (inductionHypothesis _).trans ?_
    exact (b.relabel _ _).recvMap_updateNbr peerid self (Or.inl different)

/-- A step that does not teach the record of a neighbor leaves it alone. -/
theorem Bindings.Step.recvMap {b b' : Bindings} {event : LdeEvent} (step : b.Step event b')
    (filed : b.Filed) {self : UInt32} (other : ¬event.Teaches self) :
    b'.recvMap self = b.recvMap self := by
  have of_nbr {b b' : Bindings} (same : b'.nbr = b.nbr) : b'.recvMap self = b.recvMap self := by
    rw [Bindings.recvMap, same, Bindings.recvMap]
  cases step with
  | invisible => rfl
  | networkAdd kr label _ _ inserted => exact of_nbr (inserted.nbr filed)
  | networkDel kr _ removed => exact of_nbr removed.nbr
  | learn peerid ln map | unlearn peerid ln map =>
    exact (b.relabel _ _).recvMap_updateNbr peerid self (Or.inl other)
  | unlearnAll peerid ln map _ _ fecs => exact b.recvMap_unlearnAll other ln map.label fecs
  | addressAdd peerid ln addr => exact b.recvMap_updateNbr peerid self (Or.inr fun _ => rfl)
  | addressDel peerid ln addr =>
    exact (b.relabel _ _).recvMap_updateNbr peerid self (Or.inr fun _ => rfl)
  | neighborUp peerid => exact b.recvMap_setNbr other _
  | neighborDown peerid ln => exact (b.relabel _ _).recvMap_setNbr other none
  | pwNew data conf pwType fresh label _ _ inserted =>
    have entered : (b.setPw data (some (.pwid pwType conf.pwid conf.lsrId))).Filed :=
      filed.of_nbr rfl
    exact of_nbr ((inserted.nbr entered).trans rfl)
  | pwDel data type pwid lsrId known middle removed => exact of_nbr removed.nbr

/-- What survives every change of labels survives the change of the addresses of a neighbor. -/
theorem ldeNbrAddrUpdate_keeps {property : Bindings → Prop}
    (closed : ∀ b test label, property b → property (b.relabel test label)) (lde : Lde) (ln : LdeNbr)
    (addr : LdpdAddr) (removed : Bool) (holds : property lde.bindings) :
    property (ldeNbrAddrUpdate lde ln addr removed).bindings := by
  refine List.foldlRecOn (motive := fun lde : Lde => property lde.bindings) _ _ holds
    fun lde holds entry _ => ?_
  unfold addrUpdateFec
  split
  · split
    · exact holds
    split
    · exact holds
    split
    · rw [bindings_uninstallNexthop]
      exact closed _ _ _ holds
    · rw [bindings_ldeSendChangeKlabel, bindings_setRemoteLabel]
      exact closed _ _ _ holds
  · exact holds

/-- What an event does to the neighbors is a step of the machine, and the bindings stay well formed,
also if the nexthop addresses have several priorities. -/
theorem ldeStep_nbr (lde : Lde) (wellFormed : lde.bindings.WellFormed) (event : LdeEvent) :
    (ldeStep lde event).bindings.WellFormed ∧
      ∃ b, lde.bindings.Step event b ∧ (ldeStep lde event).bindings.nbr = b.nbr := by
  have refined (other : ¬event.Readdresses) :
      (ldeStep lde event).bindings.WellFormed ∧
        ∃ b, lde.bindings.Step event b ∧ (ldeStep lde event).bindings.nbr = b.nbr := by
    have step := ldeStep_refines_of lde wellFormed event fun readdresses => absurd readdresses other
    exact ⟨step.wellFormed wellFormed, _, step, rfl⟩
  have closed (nbr : UInt32 → Option NbrView) (b : Bindings) (test : Fec → FecNh → Bool)
      (label : Fec → UInt32) (holds : b.WellFormed ∧ b.nbr = nbr) :
      (b.relabel test label).WellFormed ∧ (b.relabel test label).nbr = nbr :=
    ⟨holds.1.relabel test label, holds.2⟩
  cases event with
  | addressAdd peerid addr =>
    show (ldeAddressAdd lde peerid addr).bindings.WellFormed ∧ _
    rw [ldeStep, ldeAddressAdd]
    cases found : lde.ldeNbrs[peerid]? with
    | none => exact ⟨wellFormed, _, .invisible _, rfl⟩
    | some ln =>
      dsimp only
      split
      · exact ⟨wellFormed, _, .invisible _, rfl⟩
      · rename_i unlisted
        have visible := bindings_updateNbr lde peerid
          (fun ln => { ln with addrList := ln.addrList ++ [addr] }) (NbrView.readdress (· ++ [addr]))
          fun _ => rfl
        have fresh : addr ∉ ln.addrList := by
          simpa [ldeAddressFind] using unlisted
        obtain ⟨kept, nbr⟩ := ldeNbrAddrUpdate_keeps
          (closed (lde.bindings.updateNbr peerid (NbrView.readdress (· ++ [addr]))).nbr) _ ln addr false
          ⟨visible.symm ▸ wellFormed.updateNbr peerid _, congrArg Bindings.nbr visible⟩
        exact ⟨kept, _, .addressAdd peerid ln.view addr (bindings_nbr found) fresh, nbr⟩
  | addressDel peerid addr =>
    show (ldeAddressDel lde peerid addr).bindings.WellFormed ∧ _
    rw [ldeStep, ldeAddressDel]
    cases found : lde.ldeNbrs[peerid]? with
    | none => exact ⟨wellFormed, _, .invisible _, rfl⟩
    | some ln =>
      dsimp only
      split
      · rename_i listed
        obtain ⟨kept, nbr⟩ := ldeNbrAddrUpdate_keeps (closed lde.bindings.nbr) lde ln addr true
          ⟨wellFormed, rfl⟩
        have visible := bindings_updateNbr (ldeNbrAddrUpdate lde ln addr true) peerid
          (fun ln => { ln with addrList := ln.addrList.erase addr }) (NbrView.readdress (·.erase addr))
          fun _ => rfl
        have known : addr ∈ ln.addrList := by
          simpa [ldeAddressFind] using listed
        refine ⟨?_, _, .addressDel peerid ln.view addr (bindings_nbr found) known, ?_⟩
        · rw [visible]
          exact kept.updateNbr peerid _
        · rw [visible]
          show Function.update _ peerid _ = Function.update _ peerid _
          rw [nbr]
          rfl
      · exact ⟨wellFormed, _, .invisible _, rfl⟩
  | _ => exact refined id

end Record

/-! ### An end of a session -/

/-- An engine that is at an end of a session. -/
structure Lde.AtEnd (lde : Lde) (peerid : UInt32) : Prop where
  consistent : lde.Consistent
  wellFormed : lde.bindings.WellFormed
  filed : lde.bindings.Filed
  mem : peerid ∈ lde.ldeNbrs

theorem rooted_of_linked {lde : Lde} (linked : lde.Linked) (peerid : UInt32) : lde.Rooted peerid := by
  intro fec known
  have recorded : lde.Recorded false peerid fec := by
    rw [Lde.received] at known
    cases found : lde.ldeNbrs[peerid]? with
    | none =>
      rw [found] at known
      exact absurd rfl known
    | some ln =>
      rw [found, Option.bind_some, ne_eq, Option.map_eq_none_iff, ← ne_eq,
        Option.ne_none_iff_exists', ← Tree.mem_iff_getElem?] at known
      exact ⟨ln, found, known⟩
  have once := linked.one false peerid fec recorded
  exact List.count_pos_iff.mp (once ▸ Nat.one_pos)

theorem received_of_recvMap {lde lde' : Lde} {self : UInt32}
    (same : lde'.bindings.recvMap self = lde.bindings.recvMap self) (fec : Fec) :
    lde'.received self fec = lde.received self fec := by
  have by_recvMap (lde : Lde) : lde.received self fec =
      (lde.bindings.recvMap self).bind fun recvMap => (recvMap[fec]?).map Map.label := by
    rw [received_eq, Bindings.recvMap]
    cases lde.bindings.nbr self <;> rfl
  rw [by_recvMap, same, ← by_recvMap]

section End

variable {lde : Lde} {peerid : UInt32}

/-- An end stays one while the session lasts. -/
theorem Lde.AtEnd.ldeStep (atEnd : lde.AtEnd peerid) {event : LdeEvent}
    (inSession : event.InSession peerid) (left : LabelLeft lde (.event event)) :
    (ldeStep lde event).AtEnd peerid := by
  obtain ⟨wellFormed, b, step, nbr⟩ := ldeStep_nbr lde atEnd.wellFormed event
  exact ⟨atEnd.consistent.ldeOp (.event event), wellFormed, (step.filed atEnd.filed).of_nbr nbr,
    (honest_ldeStep peerid lde atEnd.consistent.idle inSession left).mem.mpr atEnd.mem⟩

/-- What does not teach the record of the other end leaves it alone. -/
theorem Lde.AtEnd.received (atEnd : lde.AtEnd peerid) {event : LdeEvent} {self : UInt32}
    (other : ¬event.Teaches self) (fec : Fec) :
    (Ldpd.ldeStep lde event).received self fec = lde.received self fec := by
  obtain ⟨-, b, step, nbr⟩ := ldeStep_nbr lde atEnd.wellFormed event
  refine received_of_recvMap (Eq.trans ?_ (step.recvMap atEnd.filed other)) fec
  rw [Bindings.recvMap, nbr, Bindings.recvMap]

/-- The event that a message of the other end is. -/
def LdpeImsg.event (self : UInt32) : LdpeImsg → Option LdeEvent
  | .mappingAdd _ map => some (.labelMapping self map)
  | .withdrawAdd _ map => some (.labelWithdraw self map)
  | .releaseAdd _ map => some (.labelRelease self map)
  | .notificationSend _ nm => some (.notification self nm)
  | .mappingAddEnd _ | .withdrawAddEnd _ | .releaseAddEnd _ => none

theorem deliver_eq (self : UInt32) (lde : Lde) (imsg : LdpeImsg) :
    deliver self lde imsg = (imsg.event self).elim lde (Ldpd.ldeStep lde) := by
  cases imsg <;> rfl

theorem event_quiet (lde : Lde) (peerid : UInt32) {self : UInt32} {imsg : LdpeImsg}
    {event : LdeEvent} (heard : imsg.event self = some event) :
    event.InSession peerid ∧ LabelLeft lde (.event event) := by
  cases imsg with
  | mappingAddEnd | withdrawAddEnd | releaseAddEnd => cases heard
  | mappingAdd | withdrawAdd | releaseAdd | notificationSend =>
    cases heard
    exact ⟨trivial, fun fec takes => absurd takes (not_takes rfl fec)⟩

/-- A message of the other end is heard. -/
theorem Lde.AtEnd.deliver (atEnd : lde.AtEnd peerid) (imsg : LdpeImsg) :
    (deliver peerid lde imsg).AtEnd peerid ∧
      Honest peerid lde (Ldpd.deliver peerid lde imsg) ∧
        ∀ fec, fec.af ≠ none →
          (Ldpd.deliver peerid lde imsg).received peerid fec = heard fec (lde.received peerid fec) imsg := by
  have rooted := rooted_of_linked atEnd.consistent.linked peerid
  refine ⟨?_, ?_, fun fec family => ?_⟩
  · rw [deliver_eq]
    cases means : imsg.event peerid with
    | none => exact atEnd
    | some event =>
      obtain ⟨inSession, left⟩ := event_quiet lde peerid means
      exact atEnd.ldeStep inSession left
  · rw [deliver_eq]
    cases means : imsg.event peerid with
    | none => exact (Mute.refl peerid lde).honest fun _ _ => rfl
    | some event =>
      obtain ⟨inSession, left⟩ := event_quiet lde peerid means
      exact honest_ldeStep peerid lde atEnd.consistent.idle inSession left
  · cases imsg with
    | mappingAdd | withdrawAdd | mappingAddEnd | withdrawAddEnd =>
      exact (hears_deliver lde rooted atEnd.mem rfl).received fec family
    | releaseAddEnd => rfl
    | releaseAdd _ map =>
      have quiet : ¬(LdeEvent.labelRelease peerid map).Teaches peerid := id
      exact atEnd.received quiet fec
    | notificationSend _ nm =>
      have quiet : ¬(LdeEvent.notification peerid nm).Teaches peerid := id
      exact atEnd.received quiet fec

/-- What the other end will know of a route when it has read everything. -/
theorem outcome_of_honest {lde' : Lde} (honest : Honest peerid lde lde') {read : Nat}
    (behind : read ≤ (lde.toPeer peerid).length) {fec : Fec} (family : fec.af ≠ none)
    (view : Option UInt32) :
    (Fifo.outcome (heard fec) (lde.toPeer peerid) read view = lde.advertised peerid fec →
        Fifo.outcome (heard fec) (lde'.toPeer peerid) read view = lde'.advertised peerid fec) ∧
      (Fifo.outcome (heard fec) (lde.toPeer peerid) read view = none →
        Fifo.outcome (heard fec) (lde'.toPeer peerid) read view = none ∨
          Fifo.outcome (heard fec) (lde'.toPeer peerid) read view = lde'.advertised peerid fec) := by
  obtain ⟨imsgs, queued, hear⟩ := honest.said
  obtain ⟨right, fresh⟩ := hear fec family
  rw [queued, Fifo.outcome_append _ behind]
  refine ⟨fun known => ?_, fun unknown => ?_⟩
  · rw [known]
    exact right
  · rw [unknown]
    exact fresh

/-- The snapshot of the labels makes up for what the other end does not know. -/
theorem outcome_of_snap (member : peerid ∈ lde.ldeNbrs) {read : Nat}
    (behind : read ≤ (lde.toPeer peerid).length) {fec : Fec} (family : fec.af ≠ none)
    {view : Option UInt32}
    (partly : Fifo.outcome (heard fec) (lde.toPeer peerid) read view = none ∨
      Fifo.outcome (heard fec) (lde.toPeer peerid) read view = lde.advertised peerid fec) :
    Fifo.outcome (heard fec) ((Ldpd.ldeStep lde (.labelMappingFull peerid)).toPeer peerid) read view =
      (Ldpd.ldeStep lde (.labelMappingFull peerid)).advertised peerid fec := by
  rw [Ldpd.ldeStep, if_pos member]
  have told := says_fecSnap peerid lde peerid
  have same : (fecSnap lde peerid).advertised peerid fec = lde.advertised peerid fec :=
    advertised_congr told.enabled ((Touched.fecSnap lde peerid).fecsKept.localLabel fec)
  obtain ⟨imsgs, queued, hear⟩ := told.said
  rw [queued, Fifo.outcome_append _ behind, hear fec family, same]
  by_cases labelled : lde.localLabel fec = noLabel
  · rw [if_neg fun both => both.2 labelled]
    rw [advertised_of_unlabelled peerid labelled] at partly ⊢
    exact partly.elim id id
  · rw [if_pos ⟨rfl, labelled⟩]
    rcases partly with unknown | known
    · rw [unknown]
      exact (offered_eq labelled).2
    · rw [known]
      exact (offered_eq labelled).1

end End

/-! ### Two ends -/

/-- Two engines at the ends of a session, and how many of the messages that the other end has
queued for it each of them has read. -/
structure Ends where
  lde : Bool → Lde
  read : Bool → Nat

/-- An end handles an event of its own, or reads the next message of the other end. -/
inductive EndsEvent where
  | own (side : Bool) (event : LdeEvent)
  | hear (side : Bool)

section Ends

variable (peerid : Bool → UInt32)

/-- What an end has queued for the other one, which it knows under a peerid. -/
def Ends.queue (ends : Ends) (side : Bool) : List LdpeImsg := (ends.lde side).toPeer (peerid side)

/-- One step at one of the ends. -/
def endsStep (ends : Ends) : EndsEvent → Ends
  | .own side event =>
    { ends with lde := Function.update ends.lde side (ldeStep (ends.lde side) event) }
  | .hear side =>
    match (ends.queue peerid !side)[ends.read side]? with
    | none => ends
    | some imsg =>
      { lde := Function.update ends.lde side (deliver (peerid side) (ends.lde side) imsg)
        read := Function.update ends.read side (ends.read side + 1) }

/-- An event that is no message of the engine of a neighbor and no end of the session with it. -/
def LdeEvent.Own (peerid : UInt32) : LdeEvent → Prop
  | .labelMapping other _ | .labelRequest other _ | .labelRelease other _ | .labelWithdraw other _
  | .labelAbort other _ | .notification other _ | .neighborUp other .. | .neighborDown other =>
    other ≠ peerid
  | _ => True

/-- An event of an end's own takes a label from the counter only if there is one left. -/
def EndsAllowed (ends : Ends) : EndsEvent → Prop
  | .own side event => event.Own (peerid side) ∧ LabelLeft (ends.lde side) (.event event)
  | .hear _ => True

/-- The session comes up at both ends. -/
def sessionUp (lde : Bool → Lde) (id : Bool → InAddr) (v4Enabled v6Enabled : Bool → Bool) : Ends :=
  let up (side : Bool) : Lde :=
    ldeStep (lde side) (.neighborUp (peerid side) (id side) (v4Enabled side) (v6Enabled side))
  { lde := up
    read := fun side => ((up !side).toPeer (peerid !side)).length }

/-- What the other end will know of a route of an end when it has read everything. -/
def Ends.willKnow (ends : Ends) (side : Bool) (fec : Fec) : Option UInt32 :=
  Fifo.outcome (heard fec) (ends.queue peerid side) (ends.read !side)
    ((ends.lde !side).received (peerid !side) fec)

/-- The two ends are in order: what one of them will know of a route of the other is what is
advertised to it, or nothing. -/
structure Ends.InOrder (ends : Ends) : Prop where
  atEnd : ∀ side, (ends.lde side).AtEnd (peerid side)
  behind : ∀ side, ends.read (!side) ≤ (ends.queue peerid side).length
  partly : ∀ side fec, fec.af ≠ none → ends.willKnow peerid side fec = none ∨
    ends.willKnow peerid side fec = (ends.lde side).advertised (peerid side) fec

/-- The other end will know all that an end advertises to it. -/
def Ends.Told (ends : Ends) (side : Bool) : Prop :=
  ∀ fec, fec.af ≠ none →
    ends.willKnow peerid side fec = (ends.lde side).advertised (peerid side) fec

/-- What a step does in each direction: the sender keeps the receiver right, and the receiver is in
the end told what it would have been told anyway. -/
structure Moved (ends next : Ends) : Prop where
  atEnd : ∀ side, (next.lde side).AtEnd (peerid side)
  honest : ∀ side, Honest (peerid side) (ends.lde side) (next.lde side)
  behind : ∀ side, next.read (!side) ≤ (ends.queue peerid side).length
  read : ∀ side fec, fec.af ≠ none →
    Fifo.outcome (heard fec) (ends.queue peerid side) (next.read !side)
      ((next.lde !side).received (peerid !side) fec) = ends.willKnow peerid side fec

variable {peerid}

theorem LdeEvent.Own.inSession {event : LdeEvent} {self : UInt32} (own : event.Own self) :
    event.InSession self := by
  cases event with
  | labelRequest | neighborUp | neighborDown => exact own
  | _ => trivial

theorem LdeEvent.Own.not_teaches {event : LdeEvent} {self : UInt32} (own : event.Own self) :
    ¬event.Teaches self := by
  cases event with
  | labelMapping | labelWithdraw | neighborUp | neighborDown => exact own
  | _ => exact id

theorem Honest.refl (self : UInt32) (lde : Lde) : Honest self lde lde :=
  (Mute.refl self lde).honest fun _ _ => rfl

theorem Ends.InOrder.moved_own {ends : Ends} (inOrder : ends.InOrder peerid) {actor : Bool}
    {event : LdeEvent} (own : event.Own (peerid actor))
    (left : LabelLeft (ends.lde actor) (.event event)) :
    Moved peerid ends (endsStep peerid ends (.own actor event)) := by
  have atEnd := inOrder.atEnd actor
  have mine : (endsStep peerid ends (.own actor event)).lde actor = ldeStep (ends.lde actor) event :=
    Function.update_self ..
  have other {side : Bool} (different : side ≠ actor) :
      (endsStep peerid ends (.own actor event)).lde side = ends.lde side :=
    Function.update_of_ne different ..
  constructor
  case atEnd =>
    intro side
    by_cases same : side = actor
    · subst same
      rw [mine]
      exact atEnd.ldeStep own.inSession left
    · rw [other same]
      exact inOrder.atEnd side
  case honest =>
    intro side
    by_cases same : side = actor
    · subst same
      rw [mine]
      exact honest_ldeStep _ _ atEnd.consistent.idle own.inSession left
    · rw [other same]
      exact .refl _ _
  case behind => exact inOrder.behind
  case read =>
    intro side fec _
    by_cases same : (!side) = actor
    · subst same
      rw [mine, atEnd.received own.not_teaches]
      rfl
    · rw [other same]
      rfl

theorem Ends.InOrder.moved_hear {ends : Ends} (inOrder : ends.InOrder peerid) (actor : Bool) :
    Moved peerid ends (endsStep peerid ends (.hear actor)) := by
  rw [endsStep]
  split
  · exact ⟨inOrder.atEnd, fun side => .refl _ _, inOrder.behind, fun _ _ _ => rfl⟩
  · rename_i imsg next
    obtain ⟨atEnd, honest, hears⟩ := (inOrder.atEnd actor).deliver imsg
    have bound : ends.read actor < (ends.queue peerid !actor).length :=
      (List.getElem?_eq_some_iff.mp next).1
    constructor
    case atEnd =>
      intro side
      by_cases same : side = actor
      · subst same
        dsimp only
        rw [Function.update_self]
        exact atEnd
      · dsimp only
        rw [Function.update_of_ne same]
        exact inOrder.atEnd side
    case honest =>
      intro side
      by_cases same : side = actor
      · subst same
        dsimp only
        rw [Function.update_self]
        exact honest
      · dsimp only
        rw [Function.update_of_ne same]
        exact .refl _ _
    case behind =>
      intro side
      by_cases same : (!side) = actor
      · subst same
        dsimp only
        rw [Function.update_self]
        rw [Bool.not_not] at bound
        exact bound
      · dsimp only
        rw [Function.update_of_ne same]
        exact inOrder.behind side
    case read =>
      intro side fec family
      by_cases same : (!side) = actor
      · subst same
        rw [Bool.not_not] at next
        dsimp only
        rw [Function.update_self, Function.update_self, hears fec family]
        exact Fifo.outcome_read (heard fec) next _
      · dsimp only
        rw [Function.update_of_ne same, Function.update_of_ne same]
        rfl

theorem Moved.inOrder {ends next : Ends} (moved : Moved peerid ends next)
    (inOrder : ends.InOrder peerid) : next.InOrder peerid := by
  refine ⟨moved.atEnd, fun side => ?_, fun side fec family => ?_⟩
  · obtain ⟨imsgs, queued, -⟩ := (moved.honest side).said
    rw [Ends.queue, queued, List.length_append]
    exact (moved.behind side).trans (Nat.le_add_right _ _)
  · obtain ⟨right, fresh⟩ := outcome_of_honest (moved.honest side) (moved.behind side) family
      ((next.lde !side).received (peerid !side) fec)
    have same := moved.read side fec family
    rcases inOrder.partly side fec family with unknown | known
    · exact fresh (same.trans unknown)
    · exact Or.inr (right (same.trans known))

theorem Moved.told {ends next : Ends} (moved : Moved peerid ends next) {side : Bool}
    (told : ends.Told peerid side) : next.Told peerid side := fun fec family =>
  (outcome_of_honest (moved.honest side) (moved.behind side) family _).1
    ((moved.read side fec family).trans (told fec family))

theorem Ends.InOrder.moved {ends : Ends} (inOrder : ends.InOrder peerid) {event : EndsEvent}
    (allowed : EndsAllowed peerid ends event) :
    Moved peerid ends (endsStep peerid ends event) := by
  cases event with
  | own actor event => exact inOrder.moved_own allowed.1 allowed.2
  | hear actor => exact inOrder.moved_hear actor

/-- The snapshot makes up for what the other end does not know yet. -/
theorem Ends.InOrder.told_of_snap {ends : Ends} (inOrder : ends.InOrder peerid) (side : Bool) :
    (endsStep peerid ends (.own side (.labelMappingFull (peerid side)))).Told peerid side := by
  intro fec family
  have mine : (endsStep peerid ends (.own side (.labelMappingFull (peerid side)))).lde side =
      ldeStep (ends.lde side) (.labelMappingFull (peerid side)) := Function.update_self ..
  have other : (endsStep peerid ends (.own side (.labelMappingFull (peerid side)))).lde (!side) =
      ends.lde !side := Function.update_of_ne (Bool.not_ne_self side) ..
  rw [Ends.willKnow, Ends.queue, mine, other]
  exact outcome_of_snap (inOrder.atEnd side).mem (inOrder.behind side) family
    (inOrder.partly side fec family)

theorem Ends.InOrder.run {events : List EndsEvent} {ends : Ends} (inOrder : ends.InOrder peerid)
    (allowed : Run.Allowed (endsStep peerid) (EndsAllowed peerid) ends events) :
    (events.foldl (endsStep peerid) ends).InOrder peerid ∧ ∀ side,
      ends.Told peerid side ∨ .own side (.labelMappingFull (peerid side)) ∈ events →
        (events.foldl (endsStep peerid) ends).Told peerid side := by
  induction events generalizing ends with
  | nil => exact ⟨inOrder, fun side told => told.resolve_right List.not_mem_nil⟩
  | cons event rest inductionHypothesis =>
    have moved := inOrder.moved allowed.1
    obtain ⟨inOrder', told'⟩ := inductionHypothesis (moved.inOrder inOrder) allowed.2
    refine ⟨inOrder', fun side told => told' side ?_⟩
    rcases told with already | member
    · exact Or.inl (moved.told already)
    · rcases List.mem_cons.mp member with rfl | later
      · exact Or.inl (inOrder.told_of_snap side)
      · exact Or.inr later

/-- The record of a neighbor is empty when the session with it comes up. -/
theorem received_neighborUp (lde : Lde) {self : UInt32} (stranger : self ∉ lde.ldeNbrs) (id : InAddr)
    (v4Enabled v6Enabled : Bool) :
    self ∈ (ldeStep lde (.neighborUp self id v4Enabled v6Enabled)).ldeNbrs ∧
      ∀ fec, (ldeStep lde (.neighborUp self id v4Enabled v6Enabled)).received self fec = none := by
  rw [ldeStep, ldeNbrNew, if_neg stranger]
  refine ⟨Std.ExtTreeMap.mem_insert_self, fun fec => ?_⟩
  rw [Lde.received, Tree.getElem?_insert, if_pos rfl]
  show (((∅ : FecTree Map)[fec]?).map Map.label) = none
  rw [Std.ExtTreeMap.getElem?_empty]
  rfl

/-- What a run of events leads to. -/
theorem standing_of_run (conf : LdeConf) (events : List LdeEvent) :
    (events.foldl ldeStep (Lde.start conf)).Consistent ∧
      (events.foldl ldeStep (Lde.start conf)).bindings.WellFormed ∧
        (events.foldl ldeStep (Lde.start conf)).bindings.Filed := by
  refine List.foldlRecOn (motive := fun lde : Lde => lde.Consistent ∧ lde.bindings.WellFormed ∧
    lde.bindings.Filed) events _ ?_ fun lde holds event _ => ?_
  · have strange (self : UInt32) (ln : NbrView)
        (found : (Lde.start conf).bindings.nbr self = some ln) : False := by
      rw [start_nbr] at found
      cases found
    exact ⟨consistent_start conf, start_wellFormed conf,
      fun self ln fec me found => (strange self ln found).elim,
      fun self ln found => (strange self ln found).elim⟩
  · obtain ⟨consistent, wellFormed, filed⟩ := holds
    obtain ⟨wellFormed', b, step, nbr⟩ := ldeStep_nbr lde wellFormed event
    exact ⟨consistent.ldeOp (.event event), wellFormed', (step.filed filed).of_nbr nbr⟩

/-- A session that comes up is in order. -/
theorem inOrder_sessionUp {lde : Bool → Lde}
    (standing : ∀ side, (lde side).Consistent ∧ (lde side).bindings.WellFormed ∧
      (lde side).bindings.Filed)
    (strangers : ∀ side, peerid side ∉ (lde side).ldeNbrs) (id : Bool → InAddr)
    (v4Enabled v6Enabled : Bool → Bool) :
    (sessionUp peerid lde id v4Enabled v6Enabled).InOrder peerid := by
  have drained (side : Bool) : (sessionUp peerid lde id v4Enabled v6Enabled).read (!side) =
      ((sessionUp peerid lde id v4Enabled v6Enabled).queue peerid side).length := by
    rw [sessionUp, Ends.queue]
    dsimp only
    rw [Bool.not_not]
  refine ⟨fun side => ?_, fun side => (drained side).le, fun side fec family => Or.inl ?_⟩
  · obtain ⟨consistent, wellFormed, filed⟩ := standing side
    obtain ⟨wellFormed', b, step, nbr⟩ := ldeStep_nbr (lde side) wellFormed
      (.neighborUp (peerid side) (id side) (v4Enabled side) (v6Enabled side))
    exact ⟨consistent.ldeOp (.event (.neighborUp _ _ _ _)), wellFormed',
      (step.filed filed).of_nbr nbr, (received_neighborUp (lde side) (strangers side) _ _ _).1⟩
  · rw [Ends.willKnow, Fifo.outcome_drained _ (drained side).ge]
    exact (received_neighborUp (lde !side) (strangers !side) _ _ _).2 fec

end Ends

/-- Two engines that have run for any time come to know each other in a session, whatever else
they handle meanwhile and however late they read: once an end has told the other all its labels,
what the other one knows of every route, with what it has not read yet, is the label that is
advertised to it or nothing, and without anything left to read it is what it has recorded. -/
theorem ends_agree (peerid : Bool → UInt32) (conf : Bool → LdeConf) (past : Bool → List LdeEvent)
    (strangers : ∀ side, peerid side ∉ ((past side).foldl ldeStep (Lde.start (conf side))).ldeNbrs)
    (id : Bool → InAddr) (v4Enabled v6Enabled : Bool → Bool) (events : List EndsEvent)
    (allowed : Run.Allowed (endsStep peerid) (EndsAllowed peerid)
      (sessionUp peerid (fun side => (past side).foldl ldeStep (Lde.start (conf side))) id v4Enabled
        v6Enabled) events)
    (side : Bool) (snapped : .own side (.labelMappingFull (peerid side)) ∈ events) (ends : Ends)
    (run : events.foldl (endsStep peerid)
      (sessionUp peerid (fun side => (past side).foldl ldeStep (Lde.start (conf side))) id v4Enabled
        v6Enabled) = ends) :
    (∀ fec, fec.af ≠ none →
        ends.willKnow peerid side fec = (ends.lde side).advertised (peerid side) fec) ∧
      (ends.read (!side) = (ends.queue peerid side).length →
        PeerKnows (ends.lde side) (peerid side) (ends.lde !side) (peerid !side)) := by
  have start := inOrder_sessionUp (fun side => standing_of_run (conf side) (past side)) strangers id
    v4Enabled v6Enabled
  have told := (start.run allowed).2 side (Or.inr snapped)
  rw [run] at told
  refine ⟨told, fun drained fec family => ?_⟩
  rw [← told fec family, Ends.willKnow, Fifo.outcome_drained _ drained.ge]

/-! ### A session -/

/-- The two ends know each other as 1 and 2. -/
def sessionPeerid (side : Bool) : UInt32 := if side then 2 else 1

/-- The session comes up between two engines without routes. -/
def freshSession : Ends :=
  sessionUp sessionPeerid (fun _ => Lde.start {}) (fun _ => 8) (fun _ => true) fun _ => true

/-- One end learns a route to 11.0.0.0/8 and tells all its labels, and the other end reads. -/
def oneRoute : List EndsEvent :=
  [.own false (.networkAdd (pathOver 0x0a000001)), .own false (.labelMappingFull 1),
    .hear true, .hear true, .hear true, .hear true]

theorem oneRoute_allowed :
    Run.Allowed (endsStep sessionPeerid) (EndsAllowed sessionPeerid) freshSession oneRoute := by
  have room : (freshSession.lde false).label < mplsLabelMax := by decide
  refine ⟨⟨trivial, fun _ _ => room⟩, ⟨trivial, fun fec takes => ?_⟩, trivial, trivial, trivial,
    trivial, trivial⟩
  exact absurd takes (not_takes rfl fec)

theorem ends_agree_oneRoute :
    PeerKnows ((oneRoute.foldl (endsStep sessionPeerid) freshSession).lde false) 1
        ((oneRoute.foldl (endsStep sessionPeerid) freshSession).lde true) 2 ∧
      ((oneRoute.foldl (endsStep sessionPeerid) freshSession).lde true).received 2
        (.ipv4 0x0b000000 8) = some 16 := by
  have agree := ends_agree sessionPeerid (fun _ => {}) (fun _ => [])
    (fun _ => Std.ExtTreeMap.not_mem_empty) (fun _ => 8) (fun _ => true) (fun _ => true) oneRoute
    oneRoute_allowed false (by simp [oneRoute, sessionPeerid]) _ rfl
  exact ⟨agree.2 (by decide +kernel), by decide +kernel⟩

end Ldpd
