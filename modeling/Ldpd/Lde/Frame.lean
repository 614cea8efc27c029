/-
This file says what the label messages, the addresses and the neighbors leave alone:
the FECs with their nexthops, their local labels and their pseudowires, the counter
of labels, and the configuration. Only routes, pseudowires and a new configuration
change those. The garbage collector drops nodes, but only such as nothing is known of.
-/

import Ldpd.Lde.Bindings
import Ldpd.Lde.Step
import Ldpd.Library.Run

namespace Ldpd

/-! ### What is kept -/

/-- What identifies the nexthops of a FEC. -/
def nexthopKeys (nexthops : List FecNh) : List (LdpdAddr × UInt8) :=
  nexthops.map fun fnh => (fnh.nexthop, fnh.priority)

/-- What the configuration says of a pseudowire, without what the two ends negotiate. -/
def L2vpnPw.conf (pw : L2vpnPw) : PwConf where
  l2vpn := pw.l2vpn
  lsrId := pw.lsrId
  addr := pw.addr
  pwid := pw.pwid
  ifindex := pw.ifindex
  statustlv := pw.flags.statustlvConf
  cword := pw.flags.cwordConf

/-- Two states with the same configuration. -/
structure ConfKept (lde lde' : Lde) : Prop where
  ipv4ExpNull : lde'.ipv4ExpNull = lde.ipv4ExpNull
  ipv6ExpNull : lde'.ipv6ExpNull = lde.ipv6ExpNull
  l2vpnList : lde'.l2vpnList = lde.l2vpnList
  l2vpns : lde'.l2vpns = lde.l2vpns
  pws : ∀ data : Nat, (lde'.pws[data]?).map L2vpnPw.conf = (lde.pws[data]?).map L2vpnPw.conf

theorem ConfKept.refl (lde : Lde) : ConfKept lde lde := ⟨rfl, rfl, rfl, rfl, fun _ => rfl⟩

theorem ConfKept.trans {lde lde' lde'' : Lde} (first : ConfKept lde lde')
    (second : ConfKept lde' lde'') : ConfKept lde lde'' where
  ipv4ExpNull := second.ipv4ExpNull.trans first.ipv4ExpNull
  ipv6ExpNull := second.ipv6ExpNull.trans first.ipv6ExpNull
  l2vpnList := second.l2vpnList.trans first.l2vpnList
  l2vpns := second.l2vpns.trans first.l2vpns
  pws data := (second.pws data).trans (first.pws data)

/-- Two states with the same FECs and the same configuration. -/
structure FecsKept (lde lde' : Lde) : Prop extends ConfKept lde lde' where
  localLabel : ∀ fec, lde'.localLabel fec = lde.localLabel fec
  keys : ∀ fec, nexthopKeys (lde'.nexthops fec) = nexthopKeys (lde.nexthops fec)
  data : ∀ fec, lde'.data fec = lde.data fec
  label : lde'.label = lde.label

theorem FecsKept.refl (lde : Lde) : FecsKept lde lde :=
  ⟨.refl lde, fun _ => rfl, fun _ => rfl, fun _ => rfl, rfl⟩

theorem FecsKept.trans {lde lde' lde'' : Lde} (first : FecsKept lde lde')
    (second : FecsKept lde' lde'') : FecsKept lde lde'' where
  toConfKept := first.toConfKept.trans second.toConfKept
  localLabel fec := (second.localLabel fec).trans (first.localLabel fec)
  keys fec := (second.keys fec).trans (first.keys fec)
  data fec := (second.data fec).trans (first.data fec)
  label := second.label.trans first.label

/-- A FEC without nexthops has no local label and no pseudowire, and a route never has one. -/
structure Lde.Idle (lde : Lde) : Prop where
  localLabel : ∀ fec, lde.nexthops fec = [] → lde.localLabel fec = noLabel
  data : ∀ fec, lde.nexthops fec = [] → lde.data fec = none
  route : ∀ fec, fec.af ≠ none → lde.data fec = none

section Kept

variable {base lde lde' : Lde}

theorem FecsKept.nexthops_eq_nil (kept : FecsKept base lde) (fec : Fec) :
    lde.nexthops fec = [] ↔ base.nexthops fec = [] := by
  have same := kept.keys fec
  rw [nexthopKeys, nexthopKeys] at same
  rw [← List.map_eq_nil_iff, same, List.map_eq_nil_iff]

theorem FecsKept.idle (kept : FecsKept base lde) (idle : base.Idle) : lde.Idle where
  localLabel fec empty :=
    (kept.localLabel fec).trans (idle.localLabel fec ((kept.nexthops_eq_nil fec).mp empty))
  data fec empty := (kept.data fec).trans (idle.data fec ((kept.nexthops_eq_nil fec).mp empty))
  route fec family := (kept.data fec).trans (idle.route fec family)

/-! ### Primitive updates -/

theorem FecsKept.composeLdpe (lde : Lde) (imsg : LdpeImsg) : FecsKept lde (lde.composeLdpe imsg) :=
  ⟨⟨rfl, rfl, rfl, rfl, fun _ => rfl⟩, fun _ => rfl, fun _ => rfl, fun _ => rfl, rfl⟩

theorem FecsKept.composeParent (lde : Lde) (imsg : ParentImsg) :
    FecsKept lde (lde.composeParent imsg) :=
  ⟨⟨rfl, rfl, rfl, rfl, fun _ => rfl⟩, fun _ => rfl, fun _ => rfl, fun _ => rfl, rfl⟩

theorem FecsKept.fail (lde : Lde) (fault : LdeFault) : FecsKept lde (lde.fail fault) :=
  ⟨⟨rfl, rfl, rfl, rfl, fun _ => rfl⟩, fun _ => rfl, fun _ => rfl, fun _ => rfl, rfl⟩

theorem FecsKept.updateNbr (lde : Lde) (peerid : UInt32) (change : LdeNbr → LdeNbr) :
    FecsKept lde (lde.updateNbr peerid change) :=
  ⟨⟨rfl, rfl, rfl, rfl, fun _ => rfl⟩, fun _ => rfl, fun _ => rfl, fun _ => rfl, rfl⟩

/-- A node keeps its label, its pseudowire and what identifies its nexthops. -/
theorem FecsKept.updateNode (lde : Lde) (fec : Fec) {change : FecNode → FecNode}
    (label : ∀ fn, (change fn).localLabel = fn.localLabel)
    (keys : ∀ fn, nexthopKeys (change fn).nexthops = nexthopKeys fn.nexthops)
    (data : ∀ fn, (change fn).data = fn.data) : FecsKept lde (lde.updateNode fec change) where
  localLabel other := by
    rw [Lde.localLabel_eq, Lde.localLabel_eq, field_updateNode_same]
    exact label
  keys other := by
    rw [Lde.nexthops_eq, Lde.nexthops_eq]
    have same := field_updateNode_same lde (fun fn => nexthopKeys fn.nexthops) [] fec change keys other
    have read (node : Option FecNode) : nexthopKeys ((node.map FecNode.nexthops).getD []) =
        (node.map fun fn => nexthopKeys fn.nexthops).getD [] := by
      cases node <;> rfl
    rw [read, read, same]
  data other := by
    rw [Lde.data_eq, Lde.data_eq, field_updateNode_same]
    exact data
  label := rfl
  ipv4ExpNull := rfl
  ipv6ExpNull := rfl
  l2vpnList := rfl
  l2vpns := rfl
  pws _ := rfl

theorem FecsKept.updatePw (lde : Lde) (data : Nat) {change : L2vpnPw → L2vpnPw}
    (conf : ∀ pw, (change pw).conf = pw.conf) : FecsKept lde (lde.updatePw data change) where
  localLabel _ := rfl
  keys _ := rfl
  data _ := rfl
  label := rfl
  ipv4ExpNull := rfl
  ipv6ExpNull := rfl
  l2vpnList := rfl
  l2vpns := rfl
  pws other := by
    rw [Lde.updatePw]
    dsimp only
    rw [Tree.getElem?_modify]
    split_ifs
    · rw [Option.map_map]
      exact congrArg (Option.map · _) (funext conf)
    · rfl

/-- A new node has nothing that counts. -/
theorem FecsKept.fecAdd (lde : Lde) (fec : Fec) : FecsKept lde (fecAdd lde fec) where
  localLabel other := congrFun (congrArg Bindings.localLabel (bindings_fecAdd lde fec)) other
  keys other := congrArg nexthopKeys
    (congrFun (congrArg Bindings.nexthops (bindings_fecAdd lde fec)) other)
  data other := congrFun (congrArg Bindings.data (bindings_fecAdd lde fec)) other
  label := rfl
  ipv4ExpNull := rfl
  ipv6ExpNull := rfl
  l2vpnList := rfl
  l2vpns := rfl
  pws _ := rfl

/-! ### What the handlers touch -/

/-- What the handlers of label messages, addresses and notifications do, one update after another:
they leave the label of a FEC, what identifies its nexthops and its pseudowire alone. -/
inductive Touched : Lde → Lde → Prop
  | refl (lde : Lde) : Touched lde lde
  | trans {lde lde' lde'' : Lde} (first : Touched lde lde') (second : Touched lde' lde'') :
      Touched lde lde''
  | composeLdpe (lde : Lde) (imsg : LdpeImsg) : Touched lde (lde.composeLdpe imsg)
  | composeParent (lde : Lde) (imsg : ParentImsg) : Touched lde (lde.composeParent imsg)
  | fail (lde : Lde) (fault : LdeFault) : Touched lde (lde.fail fault)
  | updateNbr (lde : Lde) (peerid : UInt32) (change : LdeNbr → LdeNbr) :
      Touched lde (lde.updateNbr peerid change)
  | updateNode (lde : Lde) (fec : Fec) {change : FecNode → FecNode}
      (label : ∀ fn, (change fn).localLabel = fn.localLabel)
      (keys : ∀ fn, nexthopKeys (change fn).nexthops = nexthopKeys fn.nexthops)
      (data : ∀ fn, (change fn).data = fn.data) : Touched lde (lde.updateNode fec change)
  | updatePw (lde : Lde) (data : Nat) {change : L2vpnPw → L2vpnPw}
      (conf : ∀ pw, (change pw).conf = pw.conf) : Touched lde (lde.updatePw data change)
  | fecAdd (lde : Lde) (fec : Fec) : Touched lde (fecAdd lde fec)

/-- Each single update keeps the FECs, so all of them do. -/
theorem Touched.fecsKept (touched : Touched lde lde') : FecsKept lde lde' := by
  induction touched with
  | refl lde => exact .refl lde
  | trans _ _ first second => exact first.trans second
  | composeLdpe lde imsg => exact .composeLdpe lde imsg
  | composeParent lde imsg => exact .composeParent lde imsg
  | fail lde fault => exact .fail lde fault
  | updateNbr lde peerid change => exact .updateNbr lde peerid change
  | updateNode lde fec label keys data => exact .updateNode lde fec label keys data
  | updatePw lde data conf => exact .updatePw lde data conf
  | fecAdd lde fec => exact .fecAdd lde fec

theorem Touched.foldl {Item : Type} (body : Lde → Item → Lde)
    (touches : ∀ lde item, Touched lde (body lde item)) (items : List Item) (lde : Lde) :
    Touched lde (items.foldl body lde) :=
  Run.foldl_related .refl .trans touches items lde

theorem Touched.setPwFlags (lde : Lde) (data : Nat) {change : PwFlags → PwFlags}
    (statustlv : ∀ flags, (change flags).statustlvConf = flags.statustlvConf)
    (cword : ∀ flags, (change flags).cwordConf = flags.cwordConf) :
    Touched lde (lde.setPwFlags data change) := by
  refine .updatePw lde data fun pw => ?_
  rw [L2vpnPw.conf, statustlv, cword]
  rfl

/-- The remote label is no part of what identifies a nexthop. -/
theorem Touched.setRemoteLabel (lde : Lde) (fec : Fec) (fnh : FecNh) (label : UInt32) :
    Touched lde (lde.setRemoteLabel fec fnh label) := by
  refine .updateNode lde fec (fun _ => rfl) (fun fn => ?_) fun _ => rfl
  rw [nexthopKeys, nexthopKeys, List.map_map]
  refine List.map_congr_left fun other _ => ?_
  rw [Function.comp_apply]
  split_ifs <;> rfl

/-- `lde_map_add` writes to a node and to a neighbor. -/
theorem Touched.ldeMapAdd (lde : Lde) (peerid : UInt32) (fec : Fec) (map : Map) (sent : Bool) :
    Touched lde (ldeMapAdd lde peerid fec map sent) := by
  rw [Ldpd.ldeMapAdd]
  split
  all_goals
    refine .trans (.updateNode lde fec ?_ ?_ ?_) (.updateNbr _ peerid _)
    all_goals exact fun _ => rfl

theorem Touched.ldeMapSet (lde : Lde) (peerid : UInt32) (fec : Fec) (map : Map) (sent : Bool) :
    Touched lde (ldeMapSet lde peerid fec map sent) := .updateNbr lde peerid _

theorem Touched.ldeMapDel (lde : Lde) (peerid : UInt32) (fec : Fec) (sent : Bool) :
    Touched lde (ldeMapDel lde peerid fec sent) := by
  rw [Ldpd.ldeMapDel]
  split
  all_goals
    refine .trans (.updateNode lde fec ?_ ?_ ?_) (.updateNbr _ peerid _)
    all_goals exact fun _ => rfl

/-! ### Kernel messages -/

/-- The kernel messages touch the flags of pseudowires and the queue of the parent process. -/
theorem pwRule_touched : PwRule Touched where
  refl := .refl
  trans := .trans
  fail := .fail
  setUp lde data _ := .setPwFlags lde data (fun _ => rfl) fun _ => rfl
  kpwlabelChange lde _ := .composeParent lde _
  kpwlabelDelete lde _ := .composeParent lde _

theorem Touched.ldeSendChangeKlabel (lde : Lde) (fec : Fec) (fnh : FecNh) :
    Touched lde (ldeSendChangeKlabel lde fec fnh) :=
  pwRule_touched.ldeSendChangeKlabel lde (fun lde _ => .composeParent lde _) fec fnh

theorem Touched.ldeSendDeleteKlabel (lde : Lde) (fec : Fec) (fnh : FecNh) :
    Touched lde (ldeSendDeleteKlabel lde fec fnh) :=
  pwRule_touched.ldeSendDeleteKlabel lde (fun lde _ => .composeParent lde _) fec fnh

/-! ### Senders -/

/-- A mapping leaves a record with the neighbor it is sent to. -/
theorem Touched.ldeSendLabelmapping (lde : Lde) (peerid : UInt32) (fec : Fec) (single : Bool) :
    Touched lde (ldeSendLabelmapping lde peerid fec single) := by
  rw [Ldpd.ldeSendLabelmapping]
  split
  · split
    · have recorded (lde : Lde) (ln : LdeNbr) (map : Map) :
          Touched lde (recordSent lde peerid ln fec map) := by
        rw [recordSent]
        split
        · exact .ldeMapSet lde peerid fec map true
        · exact .ldeMapAdd lde peerid fec map true
      refine .trans ?_ (recorded _ _ _)
      split
      · exact .trans (.updateNbr lde peerid _) (.trans (.composeLdpe _ _) (.composeLdpe _ _))
      · exact .trans (.updateNbr lde peerid _) (.composeLdpe _ _)
    · exact .refl lde
  · exact .refl lde

theorem Touched.ldeSendLabelwithdraw (lde : Lde) (peerid : UInt32) (fec : Option Fec)
    (label : UInt32) (st : Option MapStatus) :
    Touched lde (ldeSendLabelwithdraw lde peerid fec label st) := by
  rw [Ldpd.ldeSendLabelwithdraw]
  split
  · exact .refl lde
  split
  · exact .refl lde
  · dsimp only
    split
    · exact .trans (.composeLdpe lde _) (.trans (.composeLdpe _ _) (.updateNbr _ peerid _))
    · exact .trans (.composeLdpe lde _) (.trans (.composeLdpe _ _)
        (Touched.foldl _ (fun lde fec => .updateNbr lde peerid _) _ _))

theorem Touched.ldeSendLabelwithdrawAll (lde : Lde) (fec : Fec) (label : UInt32) :
    Touched lde (ldeSendLabelwithdrawAll lde fec label) :=
  Touched.foldl _ (fun lde peerid => .ldeSendLabelwithdraw lde peerid _ label none) _ lde

theorem Touched.ldeSendLabelrelease (lde : Lde) (peerid : UInt32) (fec : Option Fec)
    (label : UInt32) : Touched lde (ldeSendLabelrelease lde peerid fec label) := by
  unfold Ldpd.ldeSendLabelrelease
  repeat' split
  all_goals first
    | exact .refl lde
    | exact .trans (.composeLdpe lde _) (.composeLdpe _ _)

/-! ### Label messages -/

theorem Touched.uninstallNexthops (lde : Lde) (fec : Fec) (test : FecNh → Bool) :
    Touched lde (uninstallNexthops lde fec test) :=
  Touched.foldl _ (fun lde fnh => .trans (.ldeSendDeleteKlabel lde fec fnh)
    (.setRemoteLabel _ fec fnh noLabel)) _ lde

theorem Touched.negotiateStatus (lde : Lde) (data : Nat) (ln : LdeNbr) (fec : Fec) (map : Map) :
    Touched lde (negotiateStatus lde data ln fec map) := by
  rw [Ldpd.negotiateStatus]
  split
  · exact .setPwFlags lde data (fun _ => rfl) fun _ => rfl
  · exact .refl lde

theorem Touched.negotiateMapping (lde : Lde) (peerid : UInt32) (ln : LdeNbr) (fec : Fec)
    (map : Map) : Touched lde (negotiateMapping lde peerid ln fec map).1 := by
  have cword (lde : Lde) (data : Nat) (cword : Bool) :
      Touched lde (lde.setPwFlags data fun flags => { flags with cword }) :=
    .setPwFlags lde data (fun _ => rfl) fun _ => rfl
  have again (data : Nat) : Touched lde (renegotiateCword lde peerid data fec map) :=
    .trans (.ldeSendLabelwithdraw lde peerid _ _ _)
      (.trans (cword _ data false) (.ldeSendLabelmapping _ peerid fec true))
  rw [Ldpd.negotiateMapping]
  split
  · rw [l2vpnPwNegotiate]
    repeat' split
    all_goals first
      | exact .refl lde
      | exact .fail lde _
      | exact .negotiateStatus lde _ _ _ _
      | exact .trans (again _) (.negotiateStatus _ _ _ _ _)
      | exact .trans (cword lde _ _) (.negotiateStatus _ _ _ _ _)
  · exact .refl lde

/-- A nexthop gets the label of a mapping. -/
theorem Touched.installNexthop (map : Map) (ln : LdeNbr) (fec : Fec) (lde : Lde) (fnh : FecNh) :
    Touched lde (installNexthop map ln fec lde fnh) := by
  have learn (pw : L2vpnPw) : (pwLearn map pw).conf = pw.conf := by
    rw [pwLearn]
    split <;> rfl
  cases fec with
  | ipv4 | ipv6 =>
    simp only [Ldpd.installNexthop]
    split
    · exact .trans (.setRemoteLabel lde _ fnh map.label) (.ldeSendChangeKlabel _ _ _)
    · exact .refl lde
  | pwid type pwid lsrId =>
    simp only [Ldpd.installNexthop]
    split
    · exact .refl lde
    split
    · exact .fail lde _
    · rename_i data _ _ pw _
      have learned := (Touched.updatePw lde data learn).trans
        (.setRemoteLabel _ (.pwid type pwid lsrId) fnh map.label)
      split
      · exact learned.trans (.ldeSendChangeKlabel _ _ _)
      · exact learned

theorem Touched.acceptMapping (lde : Lde) (map : Map) (peerid : UInt32) (ln : LdeNbr) (fec : Fec) :
    Touched lde (acceptMapping lde map peerid ln fec) := by
  have replaced (requested : Bool) : Touched lde (replaceLabel lde peerid ln fec map requested) := by
    rw [replaceLabel]
    split
    · exact .refl lde
    split
    · exact .trans (.ldeSendLabelrelease lde peerid _ _) (.uninstallNexthops _ fec _)
    · exact .refl lde
  have recorded (lde : Lde) (known : Bool) : Touched lde (recordReceived lde peerid known fec map) := by
    rw [recordReceived]
    split
    · exact .ldeMapSet lde peerid fec map false
    · exact .ldeMapAdd lde peerid fec map false
  exact .trans (replaced _)
    (.trans (Touched.foldl _ (Touched.installNexthop map ln fec) _ _) (recorded _ _))

/-- The handler of mappings, with all its ways to ignore one. -/
theorem Touched.ldeCheckMapping (lde : Lde) (map : Map) (peerid : UInt32) :
    Touched lde (ldeCheckMapping lde map peerid) := by
  rw [Ldpd.ldeCheckMapping]
  split
  · exact .refl lde
  · rename_i ln _
    have cleared : Touched lde (clearRequest lde peerid (ldeMap2fec map ln.id)) :=
      .trans (.fecAdd lde _) (.updateNbr _ peerid _)
    have negotiated := cleared.trans (.negotiateMapping _ peerid ln (ldeMap2fec map ln.id) map)
    dsimp only
    split
    · exact negotiated
    · exact negotiated.trans (.acceptMapping _ map peerid ln _)

theorem Touched.ldeCheckRequest (lde : Lde) (map : Map) (peerid : UInt32) :
    Touched lde (ldeCheckRequest lde map peerid) := by
  rw [Ldpd.ldeCheckRequest]
  split
  · exact .refl lde
  dsimp only
  repeat' split
  all_goals first
    | exact .refl lde
    | exact .composeLdpe lde _
    | exact .trans (.updateNbr lde peerid _) (.ldeSendLabelmapping _ peerid _ true)

theorem Touched.releaseFec (peerid label : UInt32) (lde : Lde) (fec : Fec) :
    Touched lde (releaseFec peerid label lde fec) := by
  rw [Ldpd.releaseFec]
  split
  · exact .refl lde
  · rename_i ln _
    dsimp only
    repeat' split
    all_goals first
      | exact .refl lde
      | exact .updateNbr lde peerid _
      | exact .ldeMapDel lde peerid fec true
      | exact (Touched.updateNbr lde peerid _).trans (.ldeMapDel _ peerid fec true)

/-- The handlers of releases, for one FEC and for all. -/
theorem Touched.dispatchRelease (lde : Lde) (map : Map) (peerid : UInt32) :
    Touched lde (dispatchRelease lde map peerid) := by
  rw [Ldpd.dispatchRelease]
  split
  · exact Touched.foldl _ (Touched.releaseFec peerid map.label) _ lde
  rw [ldeCheckRelease]
  dsimp only
  repeat' split
  all_goals first
    | exact .refl lde
    | exact .releaseFec peerid map.label lde _

theorem Touched.forgetMapping (peerid label : UInt32) (lde : Lde) (fec : Fec) :
    Touched lde (forgetMapping peerid label lde fec) := by
  rw [Ldpd.forgetMapping]
  split
  · exact .refl lde
  split
  · exact .ldeMapDel lde peerid fec false
  · exact .refl lde

/-- The handlers of withdraws, for one FEC and for all. -/
theorem Touched.dispatchWithdraw (lde : Lde) (map : Map) (peerid : UInt32) :
    Touched lde (dispatchWithdraw lde map peerid) := by
  rw [Ldpd.dispatchWithdraw]
  split
  · rw [ldeCheckWithdrawWcard]
    split
    · exact .refl lde
    · refine .trans (.ldeSendLabelrelease lde peerid none map.label) (Touched.foldl _ (fun lde fec => ?_) _ _)
      exact .trans (.uninstallNexthops lde fec _) (.forgetMapping peerid map.label _ fec)
  · rw [ldeCheckWithdraw]
    split
    · exact .refl lde
    split
    · exact .refl lde
    · exact .trans (.fecAdd lde _) (.trans (.uninstallNexthops _ _ _)
        (.trans (.ldeSendLabelrelease _ peerid _ map.label) (.forgetMapping peerid map.label _ _)))

/-! ### Addresses, snapshots and notifications -/

theorem Touched.ldeNbrAddrUpdate (lde : Lde) (ln : LdeNbr) (addr : LdpdAddr) (removed : Bool) :
    Touched lde (ldeNbrAddrUpdate lde ln addr removed) := by
  refine Touched.foldl _ (fun lde entry => ?_) _ lde
  rw [addrUpdateFec]
  repeat' split
  all_goals first
    | exact .refl lde
    | exact .fail lde _
    | exact .trans (.ldeSendDeleteKlabel lde _ _) (.setRemoteLabel _ _ _ noLabel)
    | exact .trans (.setRemoteLabel lde _ _ _) (.ldeSendChangeKlabel _ _ _)

theorem Touched.ldeAddressAdd (lde : Lde) (peerid : UInt32) (addr : LdpdAddr) :
    Touched lde (ldeAddressAdd lde peerid addr) := by
  rw [Ldpd.ldeAddressAdd]
  repeat' split
  all_goals first
    | exact .refl lde
    | exact .trans (.updateNbr lde peerid _) (.ldeNbrAddrUpdate _ _ addr false)

theorem Touched.ldeAddressDel (lde : Lde) (peerid : UInt32) (addr : LdpdAddr) :
    Touched lde (ldeAddressDel lde peerid addr) := by
  rw [Ldpd.ldeAddressDel]
  repeat' split
  all_goals first
    | exact .refl lde
    | exact .trans (.ldeNbrAddrUpdate lde _ addr true) (.updateNbr _ peerid _)

/-- What a lost neighbor leaves in one node. -/
theorem Touched.downFec (ln : LdeNbr) (lde : Lde) (fec : Fec) : Touched lde (downFec ln lde fec) := by
  have reset (lde : Lde) : Touched lde (resetPwOf lde fec) := by
    unfold resetPwOf
    split
    · exact .updatePw lde _ fun _ => rfl
    · exact .refl lde
  exact Touched.foldl _ (fun lde fnh => .trans (reset lde)
    (.trans (.ldeSendDeleteKlabel _ fec fnh) (.setRemoteLabel _ fec fnh noLabel))) _ lde

theorem Touched.fecSnap (lde : Lde) (peerid : UInt32) : Touched lde (fecSnap lde peerid) := by
  refine .trans (Touched.foldl _ (fun lde fec => ?_) _ lde) (.composeLdpe _ _)
  repeat' split
  all_goals first
    | exact .refl lde
    | exact .ldeSendLabelmapping lde peerid fec false

theorem Touched.dispatchNotification (lde : Lde) (nm : NotifyMsg) (peerid : UInt32) :
    Touched lde (dispatchNotification lde nm peerid) := by
  rw [Ldpd.dispatchNotification]
  split
  · exact .refl lde
  split
  · have told (data : Nat) : Touched lde
        (lde.updatePw data fun pw => { pw with remoteStatus := nm.pwStatus }) :=
      .updatePw lde data fun _ => rfl
    rw [l2vpnRecvPwStatus]
    dsimp only
    repeat' split
    all_goals first
      | exact .refl lde
      | exact .fail lde _
      | exact (told _).trans (.ldeSendChangeKlabel _ _ _)
      | exact (told _).trans (.ldeSendDeleteKlabel _ _ _)
  · exact .refl lde

/-- What `lde_nbr_del` does before the neighbor itself goes. -/
theorem Touched.nbrDown (lde : Lde) (peerid : UInt32) (ln : LdeNbr) : Touched lde
    (ln.sentMap.keys.foldl (fun lde fec => Ldpd.ldeMapDel lde peerid fec true)
      (ln.recvMap.keys.foldl (fun lde fec => Ldpd.ldeMapDel lde peerid fec false)
        (lde.ft.keys.foldl (Ldpd.downFec ln) lde))) :=
  .trans (.foldl _ (Touched.downFec ln) _ lde)
    (.trans (.foldl _ (fun lde fec => .ldeMapDel lde peerid fec false) _ _)
      (.foldl _ (fun lde fec => .ldeMapDel lde peerid fec true) _ _))

/-! ### Neighbors -/

/-- Neighbors are kept apart from the FECs. -/
theorem FecsKept.ldeNbrNew (lde : Lde) (peerid : UInt32) (id : InAddr) (v4Enabled v6Enabled : Bool) :
    FecsKept lde (ldeNbrNew lde peerid id v4Enabled v6Enabled) := by
  rw [Ldpd.ldeNbrNew]
  split
  · exact .fail lde _
  · exact ⟨⟨rfl, rfl, rfl, rfl, fun _ => rfl⟩, fun _ => rfl, fun _ => rfl, fun _ => rfl, rfl⟩

theorem FecsKept.ldeNbrDel (lde : Lde) (peerid : UInt32) : FecsKept lde (ldeNbrDel lde peerid) := by
  rw [Ldpd.ldeNbrDel]
  split
  · exact .refl lde
  · rename_i ln _
    have sent := (Touched.nbrDown lde peerid ln).fecsKept
    exact ⟨⟨sent.ipv4ExpNull, sent.ipv6ExpNull, sent.l2vpnList, sent.l2vpns, sent.pws⟩,
      sent.localLabel, sent.keys, sent.data, sent.label⟩

/-! ### Garbage collection -/

/-- A node that is dropped has no nexthops, and an idle one has nothing else either. -/
theorem FecsKept.gcFec (lde : Lde) (idle : lde.Idle) (fec : Fec) : FecsKept lde (gcFec lde fec) := by
  rw [Ldpd.gcFec]
  split
  · exact .refl lde
  · rename_i fn node
    split
    · rename_i dead
      have empty : lde.nexthops fec = [] := by
        simp only [FecNode.dead, Bool.and_eq_true, List.isEmpty_iff] at dead
        rw [lde.nexthops_eq_of_node node]
        exact dead.1.1
      have erased (other : Fec) : (lde.ft.erase fec)[other]? =
          if fec = other then none else lde.ft[other]? := Tree.getElem?_erase lde.ft fec other
      refine ⟨⟨rfl, rfl, rfl, rfl, fun _ => rfl⟩, fun other => ?_, fun other => ?_, fun other => ?_, rfl⟩
      · rw [Lde.localLabel, erased]
        split_ifs with same
        · rw [← same, idle.localLabel fec empty]
        · rw [Lde.localLabel]
      · rw [Lde.nexthops, erased]
        split_ifs with same
        · rw [← same, empty]
        · rw [Lde.nexthops]
      · rw [Lde.data, erased]
        split_ifs with same
        · rw [← same, idle.data fec empty, Option.bind_none]
        · rw [Lde.data]
    · exact .refl lde

theorem FecsKept.ldeGcTimer (lde : Lde) (idle : lde.Idle) : FecsKept lde (ldeGcTimer lde) := by
  rw [Ldpd.ldeGcTimer]
  generalize lde.ft.keys = fecs
  induction fecs generalizing lde with
  | nil => exact .refl lde
  | cons fec rest inductionHypothesis =>
    have kept := FecsKept.gcFec lde idle fec
    exact kept.trans (inductionHypothesis _ (kept.idle idle))

end Kept

/-! ### Events -/

/-- The events that bring or take a route or a pseudowire. -/
def LdeEvent.changesFecs : LdeEvent → Bool
  | .networkAdd _ | .networkDel _ | .pwNew .. | .pwDel _ => true
  | _ => false

/-- All other events leave the FECs and the configuration alone. -/
theorem FecsKept.ldeStep (lde : Lde) (idle : lde.Idle) {event : LdeEvent}
    (other : event.changesFecs = false) : FecsKept lde (ldeStep lde event) := by
  cases event with
  | networkAdd | networkDel | pwNew | pwDel => cases other
  | labelMappingFull peerid =>
    rw [Ldpd.ldeStep]
    split
    · exact (Touched.fecSnap lde peerid).fecsKept
    · exact .refl lde
  | labelMapping peerid map => exact (Touched.ldeCheckMapping lde map peerid).fecsKept
  | labelRequest peerid map => exact (Touched.ldeCheckRequest lde map peerid).fecsKept
  | labelRelease peerid map => exact (Touched.dispatchRelease lde map peerid).fecsKept
  | labelWithdraw peerid map => exact (Touched.dispatchWithdraw lde map peerid).fecsKept
  | labelAbort => exact .refl lde
  | addressAdd peerid addr => exact (Touched.ldeAddressAdd lde peerid addr).fecsKept
  | addressDel peerid addr => exact (Touched.ldeAddressDel lde peerid addr).fecsKept
  | notification peerid nm => exact (Touched.dispatchNotification lde nm peerid).fecsKept
  | neighborUp peerid id v4Enabled v6Enabled => exact .ldeNbrNew lde peerid id v4Enabled v6Enabled
  | neighborDown peerid => exact .ldeNbrDel lde peerid
  | gcTimer => exact .ldeGcTimer lde idle

end Ldpd
