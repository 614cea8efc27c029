/-
This file models a new configuration as the label decision engine takes it over:
`merge_af` with `lde_change_egress_label`, and `merge_l2vpns` with what it starts and
stops in `l2vpn.c`. What `kr_change_egress_label` does to the routes of the parent
process is here too, since the same reload drives both.

The new configuration is data of its own; a pseudowire or an L2VPN of it that enters
the running configuration gets a pointer that is not in use. The interfaces of an
L2VPN, its type and its bridge play no part in the engine and are left out.
-/

import Ldpd.Lde.Step
import Ldpd.Library.Run

namespace Ldpd

/-! ### The new configuration -/

/-- A `struct l2vpn_pw` of the new configuration. -/
structure XconfPw where
  lsrId : InAddr
  addr : LdpdAddr
  pwid : UInt32
  ifindex : UInt32
  statustlv : Bool
  cword : Bool
  deriving DecidableEq, Repr

/-- A `struct l2vpn` of the new configuration. -/
structure XconfL2vpn where
  name : String
  pwType : UInt16
  mtu : UInt16
  pwList : List XconfPw
  deriving DecidableEq, Repr

/-- What the engine reads of a new `struct ldpd_conf`: the `F_LDPD_AF_EXPNULL` bits of the two
address families and the L2VPNs. -/
structure Xconf where
  ipv4ExpNull : Bool
  ipv6ExpNull : Bool
  l2vpnList : List XconfL2vpn
  deriving DecidableEq, Repr

/-- A pseudowire of the new configuration that goes to an L2VPN of the running one. -/
def XconfPw.conf (xp : XconfPw) (l2vpn : Nat) : PwConf where
  l2vpn := l2vpn
  lsrId := xp.lsrId
  addr := xp.addr
  pwid := xp.pwid
  ifindex := xp.ifindex
  statustlv := xp.statustlv
  cword := xp.cword

/-! ### Explicit null -/

/-- The `F_LDPD_AF_EXPNULL` bit of an address family. -/
def Lde.expNull (lde : Lde) : Af → Bool
  | .inet => lde.ipv4ExpNull
  | .inet6 => lde.ipv6ExpNull

/-- Change the `F_LDPD_AF_EXPNULL` bit of an address family. -/
def Lde.setExpNull (lde : Lde) (af : Af) (expNull : Bool) : Lde :=
  match af with
  | .inet => { lde with ipv4ExpNull := expNull }
  | .inet6 => { lde with ipv6ExpNull := expNull }

/-- The body of the inner loop of `lde_change_egress_label`. -/
def changeEgressFec (af : Af) (peerid : UInt32) (lde : Lde) (fec : Fec) : Lde :=
  match lde.ft[fec]? with
  | none => lde
  | some fn =>
    if mplsLabelReservedMax < fn.localLabel then lde
    else if fec.af = some af then
      match egressLabel lde fec with
      | none => lde.fail .fatalx
      | some label =>
        ldeSendLabelmapping (lde.updateNode fec fun fn => { fn with localLabel := label }) peerid fec
          false
    else lde

/-- The explicit withdraws of `lde_change_egress_label` for one neighbor. -/
def withdrawEgress (wasImplicit : Bool) (lde : Lde) (peerid : UInt32) (ln : LdeNbr) : Lde :=
  if wasImplicit then ldeSendLabelwithdraw lde peerid none mplsLabelImplnull none
  else
    let lde := if ln.v4Enabled then ldeSendLabelwithdraw lde peerid none mplsLabelIpv4null none
      else lde
    if ln.v6Enabled then ldeSendLabelwithdraw lde peerid none mplsLabelIpv6null none else lde

/-- The body of the outer loop of `lde_change_egress_label`. -/
def changeEgressNbr (af : Af) (wasImplicit : Bool) (lde : Lde) (peerid : UInt32) : Lde :=
  match lde.ldeNbrs[peerid]? with
  | none => lde
  | some ln =>
    let lde := withdrawEgress wasImplicit lde peerid ln
    -- advertise new label of connected prefixes
    let lde := lde.ft.keys.foldl (changeEgressFec af peerid) lde
    lde.composeLdpe (.mappingAddEnd peerid)

/-- `lde_change_egress_label`. -/
def ldeChangeEgressLabel (lde : Lde) (af : Af) (wasImplicit : Bool) : Lde :=
  lde.ldeNbrs.keys.foldl (changeEgressNbr af wasImplicit) lde

/-- `merge_af`, in the label decision engine. -/
def mergeAf (lde : Lde) (af : Af) (expNull : Bool) : Lde :=
  if lde.expNull af = expNull then lde
  else ldeChangeEgressLabel (lde.setExpNull af expNull) af expNull

/-- `kr_change_egress_label` of the parent process, for one of its routes. -/
def krChangeEgressLabel (af : Af) (wasImplicit : Bool) (kr : Kroute) : Kroute :=
  if kr.addr.af ≠ af then kr
  else if mplsLabelReservedMax < kr.localLabel then kr
  else if wasImplicit then
    { kr with
      localLabel := match kr.addr with
        | .v4 _ => mplsLabelIpv4null
        | .v6 _ => mplsLabelIpv6null }
  else { kr with localLabel := mplsLabelImplnull }

/-! ### L2VPNs -/

/-- A pointer that is not in use. -/
def freshKey {Entry : Type} (table : Std.ExtTreeMap Nat Entry compare) : Nat :=
  table.keys.foldl max 0 + 1

/-- `l2vpn_find` in the running configuration. -/
def l2vpnFind (lde : Lde) (name : String) : Option Nat :=
  lde.l2vpnList.find? fun l2vpn => (lde.l2vpns.getD l2vpn default).name = name

/-- `l2vpn_pw_find` in the running configuration. -/
def l2vpnPwFind (lde : Lde) (l2vpn : Nat) (ifindex : UInt32) : Option Nat :=
  (lde.l2vpns.getD l2vpn default).pwList.find? fun data =>
    (lde.pws[data]?).any fun pw => pw.ifindex = ifindex

/-- `l2vpn_pw_find` in the new configuration, where only the answer counts. -/
def XconfL2vpn.hasPw (xl : XconfL2vpn) (ifindex : UInt32) : Bool :=
  xl.pwList.any fun xp => xp.ifindex = ifindex

/-- Change the two parameters of an L2VPN. -/
def Lde.setL2vpnParams (lde : Lde) (l2vpn : Nat) (pwType mtu : UInt16) : Lde :=
  { lde with l2vpns := lde.l2vpns.modify l2vpn fun l2vpn => { l2vpn with pwType, mtu } }

/-- Find deleted l2vpns: the body of the first loop of `merge_l2vpns`, with `l2vpn_exit` and
`l2vpn_del`. -/
def sweepL2vpn (xls : List XconfL2vpn) (lde : Lde) (l2vpn : Nat) : Lde :=
  let old := lde.l2vpns.getD l2vpn default
  if xls.any fun xl => xl.name = old.name then lde
  else
    let lde := { lde with l2vpnList := lde.l2vpnList.erase l2vpn }
    let lde := old.pwList.foldl l2vpnPwExit lde
    { lde with
      l2vpns := lde.l2vpns.erase l2vpn
      pws := old.pwList.foldl (fun pws data => pws.erase data) lde.pws }

/-- A new pseudowire enters the tables, without being started. -/
def enterPw (l2vpn : Nat) (lde : Lde) (xp : XconfPw) : Lde :=
  let data := freshKey lde.pws
  { lde with pws := lde.pws.insert data (xp.conf l2vpn).pw }.updatePwList l2vpn (· ++ [data])

/-- Find new l2vpns: the new one enters the running configuration with its pseudowires, and
`l2vpn_init` starts them. -/
def l2vpnAdd (lde : Lde) (xl : XconfL2vpn) : Lde :=
  let l2vpn := freshKey lde.l2vpns
  let lde := { lde with
    l2vpnList := l2vpn :: lde.l2vpnList
    l2vpns := lde.l2vpns.insert l2vpn {
      name := xl.name, pwType := xl.pwType, mtu := xl.mtu, pwList := [] } }
  let lde := xl.pwList.foldl (enterPw l2vpn) lde
  (lde.l2vpns.getD l2vpn default).pwList.foldl l2vpnPwInit lde

/-- Find deleted pseudowires: the body of the first loop over pseudowires of `merge_l2vpn`. -/
def sweepPw (xl : XconfL2vpn) (lde : Lde) (data : Nat) : Lde :=
  match lde.pws[data]? with
  | none => lde
  | some pw => if xl.hasPw pw.ifindex then lde else l2vpnPwDelete lde data

/-- The changes of a pseudowire that require a session restart, `reset_nbr`. -/
def resetNbr (pw : L2vpnPw) (xp : XconfPw) : Bool :=
  pw.flags.statustlvConf ≠ xp.statustlv ∨ pw.flags.cwordConf ≠ xp.cword

/-- The changes of a pseudowire that require its FEC to be installed again,
`reinstall_pwfec`. -/
def reinstallPwfec (l2vpn : L2vpn) (xl : XconfL2vpn) (pw : L2vpnPw) (xp : XconfPw) : Bool :=
  l2vpn.pwType ≠ xl.pwType ∨ l2vpn.mtu ≠ xl.mtu ∨ pw.pwid ≠ xp.pwid ∨ pw.addr ≠ xp.addr ∨
    resetNbr pw xp ∨ pw.lsrId ≠ xp.lsrId

/-- The fields that `merge_l2vpn` copies to a pseudowire. -/
def L2vpnPw.merge (xp : XconfPw) (pw : L2vpnPw) : L2vpnPw :=
  { pw with
    lsrId := xp.lsrId
    addr := xp.addr
    pwid := xp.pwid
    ifindex := xp.ifindex
    flags := { pw.flags with cwordConf := xp.cword, statustlvConf := xp.statustlv } }

/-- Update existing pseudowire. -/
def updateExistingPw (l2vpn : Nat) (xl : XconfL2vpn) (lde : Lde) (xp : XconfPw) (data : Nat)
    (pw : L2vpnPw) : Lde :=
  let previous := lde.l2vpns.getD l2vpn default
  if reinstallPwfec previous xl pw xp ∧ ¬resetNbr pw xp then
    let lde := (l2vpnPwExit lde data).updatePw data (L2vpnPw.merge xp)
    let lde := l2vpnPwInit (lde.setL2vpnParams l2vpn xl.pwType xl.mtu) data
    lde.setL2vpnParams l2vpn previous.pwType previous.mtu
  else lde.updatePw data (L2vpnPw.merge xp)

/-- The body of the second loop over pseudowires of `merge_l2vpn`. -/
def mergePw (l2vpn : Nat) (xl : XconfL2vpn) (lde : Lde) (xp : XconfPw) : Lde :=
  match l2vpnPwFind lde l2vpn xp.ifindex with
  | none => l2vpnPwAdd lde (freshKey lde.pws) (xp.conf l2vpn)
  | some data =>
    match lde.pws[data]? with
    | none => lde.fail .freedPw
    | some pw => updateExistingPw l2vpn xl lde xp data pw

/-- `merge_l2vpn`. -/
def mergeL2vpn (lde : Lde) (l2vpn : Nat) (xl : XconfL2vpn) : Lde :=
  let lde := (lde.l2vpns.getD l2vpn default).pwList.foldl (sweepPw xl) lde
  let lde := xl.pwList.foldl (mergePw l2vpn xl) lde
  lde.setL2vpnParams l2vpn xl.pwType xl.mtu

/-- The body of the second loop of `merge_l2vpns`. -/
def mergeXl (lde : Lde) (xl : XconfL2vpn) : Lde :=
  match l2vpnFind lde xl.name with
  | none => l2vpnAdd lde xl
  | some l2vpn => mergeL2vpn lde l2vpn xl

/-- `merge_l2vpns`, in the label decision engine. -/
def mergeL2vpns (lde : Lde) (xls : List XconfL2vpn) : Lde :=
  xls.foldl mergeXl (lde.l2vpnList.foldl (sweepL2vpn xls) lde)

/-! ### The event loop -/

/-- `merge_config`, in the label decision engine. -/
def mergeConfig (lde : Lde) (xconf : Xconf) : Lde :=
  mergeL2vpns (mergeAf (mergeAf lde .inet xconf.ipv4ExpNull) .inet6 xconf.ipv6ExpNull)
    xconf.l2vpnList

/-- What the engine reacts to: one of its events, or the end of a new configuration. -/
inductive LdeInput where
  | event (event : LdeEvent)
  | reload (xconf : Xconf)

/-- One event or one reload. -/
def ldeInput (lde : Lde) : LdeInput → Lde
  | .event event => ldeStep lde event
  | .reload xconf => mergeConfig lde xconf

/-! ### Single operations -/

/-- What the engine does one thing at a time: an event, the change of one address family, and of
the rest of a reload the tables of the configuration that are written and the pseudowires that are
started and stopped. -/
inductive LdeOp where
  | event (event : LdeEvent)
  | mergeAf (af : Af) (expNull : Bool)
  | configure (l2vpnList : List Nat) (l2vpns : Std.ExtTreeMap Nat L2vpn compare)
      (pws : Std.ExtTreeMap Nat L2vpnPw compare)
  | pwInit (data : Nat)
  | pwExit (data : Nat)

/-- One operation. -/
def ldeOp (lde : Lde) : LdeOp → Lde
  | .event event => ldeStep lde event
  | .mergeAf af expNull => mergeAf lde af expNull
  | .configure l2vpnList l2vpns pws => { lde with l2vpnList, l2vpns, pws }
  | .pwInit data => l2vpnPwInit lde data
  | .pwExit data => l2vpnPwExit lde data

/-- The operations of `merge_l2vpns`. -/
def LdeOp.forPws : LdeOp → Bool
  | .configure .. | .pwInit _ | .pwExit _ => true
  | .event _ | .mergeAf .. => false

/-- An engine that operations on pseudowires lead to. -/
def PwOps (lde lde' : Lde) : Prop :=
  ∃ ops : List LdeOp, (∀ op ∈ ops, op.forPws = true) ∧ ops.foldl ldeOp lde = lde'

theorem PwOps.refl (lde : Lde) : PwOps lde lde :=
  ⟨[], fun _ member => absurd member List.not_mem_nil, rfl⟩

theorem PwOps.trans {lde lde' lde'' : Lde} (first : PwOps lde lde') (second : PwOps lde' lde'') :
    PwOps lde lde'' := by
  obtain ⟨before, pws, rfl⟩ := first
  obtain ⟨after, pws', rfl⟩ := second
  refine ⟨before ++ after, fun op member => ?_, List.foldl_append ..⟩
  exact (List.mem_append.mp member).elim (pws op) (pws' op)

theorem PwOps.op (lde : Lde) (op : LdeOp) (pw : op.forPws = true) : PwOps lde (ldeOp lde op) := by
  refine ⟨[op], fun other member => ?_, rfl⟩
  rw [List.mem_singleton.mp member]
  exact pw

theorem PwOps.configure (lde : Lde) (l2vpnList : List Nat)
    (l2vpns : Std.ExtTreeMap Nat L2vpn compare) (pws : Std.ExtTreeMap Nat L2vpnPw compare) :
    PwOps lde { lde with l2vpnList, l2vpns, pws } :=
  .op lde (.configure l2vpnList l2vpns pws) rfl

theorem PwOps.init (lde : Lde) (data : Nat) : PwOps lde (l2vpnPwInit lde data) :=
  .op lde (.pwInit data) rfl

theorem PwOps.exit (lde : Lde) (data : Nat) : PwOps lde (l2vpnPwExit lde data) :=
  .op lde (.pwExit data) rfl

theorem PwOps.foldl {Item : Type} (body : Lde → Item → Lde)
    (steps : ∀ lde item, PwOps lde (body lde item)) (items : List Item) (lde : Lde) :
    PwOps lde (items.foldl body lde) :=
  Run.foldl_related .refl .trans steps items lde

theorem PwOps.sweepL2vpn (xls : List XconfL2vpn) (lde : Lde) (l2vpn : Nat) :
    PwOps lde (sweepL2vpn xls lde l2vpn) := by
  rw [Ldpd.sweepL2vpn]
  dsimp only
  split
  · exact .refl lde
  · refine .trans (.configure lde (lde.l2vpnList.erase l2vpn) lde.l2vpns lde.pws) ?_
    exact .trans (PwOps.foldl _ PwOps.exit _ _) (.configure _ (Lde.l2vpnList _) _ _)

theorem PwOps.l2vpnAdd (lde : Lde) (xl : XconfL2vpn) : PwOps lde (l2vpnAdd lde xl) := by
  have enters (l2vpn : Nat) (lde : Lde) (xp : XconfPw) : PwOps lde (enterPw l2vpn lde xp) :=
    .configure lde lde.l2vpnList _ _
  rw [Ldpd.l2vpnAdd]
  exact .trans (.configure lde (freshKey lde.l2vpns :: lde.l2vpnList) _ lde.pws)
    (.trans (PwOps.foldl _ (enters _) xl.pwList _) (PwOps.foldl _ PwOps.init _ _))

theorem PwOps.l2vpnPwDelete (lde : Lde) (data : Nat) : PwOps lde (l2vpnPwDelete lde data) := by
  rw [Ldpd.l2vpnPwDelete]
  split
  · exact .refl lde
  · exact .trans (.exit lde data) (.configure _ (Lde.l2vpnList _) _ _)

theorem PwOps.l2vpnPwAdd (lde : Lde) (data : Nat) (conf : PwConf) :
    PwOps lde (l2vpnPwAdd lde data conf) := by
  rw [Ldpd.l2vpnPwAdd]
  split
  · exact .refl lde
  · exact .trans (.configure lde lde.l2vpnList _ _) (.init _ data)

theorem PwOps.mergePw (l2vpn : Nat) (xl : XconfL2vpn) (lde : Lde) (xp : XconfPw) :
    PwOps lde (mergePw l2vpn xl lde xp) := by
  have merged (lde : Lde) (data : Nat) : PwOps lde (lde.updatePw data (L2vpnPw.merge xp)) :=
    .configure lde lde.l2vpnList lde.l2vpns _
  have params (lde : Lde) (pwType mtu : UInt16) : PwOps lde (lde.setL2vpnParams l2vpn pwType mtu) :=
    .configure lde lde.l2vpnList _ lde.pws
  rw [Ldpd.mergePw]
  split
  · exact .l2vpnPwAdd lde _ _
  rename_i data located
  have found := List.find?_some located
  split
  · rename_i missing
    rw [missing] at found
    exact absurd found (by simp)
  · rename_i pw _
    rw [updateExistingPw]
    dsimp only
    split
    · exact .trans (.exit lde data) (.trans (merged _ data)
        (.trans (params _ xl.pwType xl.mtu) (.trans (.init _ data) (params _ _ _))))
    · exact merged lde data

theorem PwOps.mergeL2vpns (lde : Lde) (xls : List XconfL2vpn) : PwOps lde (mergeL2vpns lde xls) := by
  refine .trans (PwOps.foldl _ (PwOps.sweepL2vpn xls) _ lde) (PwOps.foldl _ (fun lde xl => ?_) _ _)
  rw [mergeXl]
  split
  · exact .l2vpnAdd lde xl
  · rename_i l2vpn _
    refine .trans (PwOps.foldl _ (fun lde data => ?_) _ lde)
      (.trans (PwOps.foldl _ (PwOps.mergePw l2vpn xl) _ _) (.configure _ (Lde.l2vpnList _) _ (Lde.pws _)))
    rw [sweepPw]
    split
    · exact .refl lde
    split
    · exact .refl lde
    · exact .l2vpnPwDelete lde data

/-- A reload is a sequence of operations. -/
theorem mergeConfig_ops (lde : Lde) (xconf : Xconf) :
    ∃ ops : List LdeOp, ops.foldl ldeOp lde = mergeConfig lde xconf := by
  obtain ⟨ops, -, run⟩ := PwOps.mergeL2vpns
    (mergeAf (mergeAf lde .inet xconf.ipv4ExpNull) .inet6 xconf.ipv6ExpNull) xconf.l2vpnList
  exact ⟨.mergeAf .inet xconf.ipv4ExpNull :: .mergeAf .inet6 xconf.ipv6ExpNull :: ops, run⟩

/-- Every run of events and reloads is a run of operations. -/
theorem inputs_ops (inputs : List LdeInput) (lde : Lde) :
    ∃ ops : List LdeOp, ops.foldl ldeOp lde = inputs.foldl ldeInput lde := by
  induction inputs generalizing lde with
  | nil => exact ⟨[], rfl⟩
  | cons input rest inductionHypothesis =>
    obtain ⟨first, step⟩ : ∃ ops : List LdeOp, ops.foldl ldeOp lde = ldeInput lde input := by
      cases input with
      | event event => exact ⟨[.event event], rfl⟩
      | reload xconf => exact mergeConfig_ops lde xconf
    obtain ⟨later, run⟩ := inductionHypothesis (ldeInput lde input)
    refine ⟨first ++ later, ?_⟩
    rw [List.foldl_append, step, run, List.foldl_cons]

end Ldpd
