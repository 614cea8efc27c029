/-
This file models what the label decision engine tells the kernel, and the part
of `l2vpn.c` that it reaches from there. A change of the label of a host route
re-evaluates every pseudowire whose remote address the route leads to, so
`lde_send_change_klabel` and `lde_send_delete_klabel` call `l2vpn_sync_pws`,
which calls them back for pseudowire FECs only. The pseudowire branch of the two
functions therefore comes first, under a name of its own.
-/

import Ldpd.Lde.State
import Ldpd.Library.Run

namespace Ldpd

/-! ### Pseudowires -/

/-- The L2VPN a pseudowire belongs to. -/
def Lde.l2vpnOf (lde : Lde) (pw : L2vpnPw) : L2vpn :=
  lde.l2vpns.getD pw.l2vpn default

/-- `l2vpn_pw_fec`. -/
def l2vpnPwFec (lde : Lde) (pw : L2vpnPw) : Fec :=
  .pwid (lde.l2vpnOf pw).pwType pw.pwid pw.lsrId

/-- `l2vpn_pw_reset`. -/
def l2vpnPwReset (pw : L2vpnPw) : L2vpnPw :=
  { pw with
    remoteGroup := 0
    remoteMtu := 0
    remoteStatus := 0
    flags := { pw.flags with
      cword := pw.flags.cwordConf
      statustlv := pw.flags.statustlvConf } }

/-- The FEC of the host route to an address. -/
def hostFec : LdpdAddr → Fec
  | .v4 addr => .ipv4 addr 32
  | .v6 addr => .ipv6 addr 128

/-- The last check of `l2vpn_pw_ok`: a working LSP to the remote end of the pseudowire, with a
label binding for all nexthops. -/
def lspOk (lde : Lde) (addr : LdpdAddr) : Bool :=
  match lde.ft[hostFec addr]? with
  | none => false
  | some fn => fn.localLabel ≠ noLabel && fn.nexthops.all fun fnh => fnh.remoteLabel ≠ noLabel

/-- `l2vpn_pw_ok`. -/
def l2vpnPwOk (lde : Lde) (pw : L2vpnPw) (fnh : FecNh) : Bool :=
  -- check for a remote label
  fnh.remoteLabel ≠ noLabel &&
  -- MTUs must match
  (lde.l2vpnOf pw).mtu = pw.remoteMtu &&
  -- check pw status if applicable
  !(pw.flags.statustlv && pw.remoteStatus ≠ pwForwarding) &&
  lspOk lde pw.addr

/-! ### Kernel label messages of pseudowires -/

/-- The `struct kpw` of a pseudowire and one nexthop of its FEC. -/
def kpwOf (fec : Fec) (fn : FecNode) (fnh : FecNh) (pw : L2vpnPw) : Kpw where
  ifindex := pw.ifindex
  pwType := match fec with
    | .pwid type _ _ => type
    | _ => 0
  nexthop := pw.addr
  localLabel := fn.localLabel
  remoteLabel := fnh.remoteLabel
  flags := pw.flags

/-- The pseudowire a FEC node points to, with the pointer. -/
def Lde.derefPw (lde : Lde) (fn : FecNode) : Option (Nat × L2vpnPw) :=
  fn.data.bind fun data => lde.pws[data]?.map fun pw => (data, pw)

/-- `F_PW_STATUS_UP` set or cleared. -/
def PwFlags.setUp (up : Bool) (flags : PwFlags) : PwFlags :=
  { flags with statusUp := up }

/-- The `FEC_TYPE_PWID` case of `lde_send_change_klabel`. -/
def ldeSendChangeKlabelPw (lde : Lde) (fec : Fec) (fn : FecNode) (fnh : FecNh) : Lde :=
  if fn.localLabel = noLabel ∨ fnh.remoteLabel = noLabel then lde
  else
    match lde.derefPw fn with
    | none => lde.failPw fn
    | some (data, pw) =>
      (lde.setPwFlags data (PwFlags.setUp true)).composeParent
        (.kpwlabelChange (kpwOf fec fn fnh { pw with flags := pw.flags.setUp true }))

/-- The `FEC_TYPE_PWID` case of `lde_send_delete_klabel`. -/
def ldeSendDeleteKlabelPw (lde : Lde) (fec : Fec) (fn : FecNode) (fnh : FecNh) : Lde :=
  match lde.derefPw fn with
  | none => lde.failPw fn
  | some (data, pw) =>
    if pw.flags.statusUp then
      (lde.setPwFlags data (PwFlags.setUp false)).composeParent
        (.kpwlabelDelete (kpwOf fec fn fnh { pw with flags := pw.flags.setUp false }))
    else lde

/-- The pseudowires of the configuration, in the order of its lists. -/
def Lde.configuredPws (lde : Lde) : List Nat :=
  lde.l2vpnList.flatMap fun l2vpn => (lde.l2vpns.getD l2vpn default).pwList

/-- The body of the inner loop of `l2vpn_sync_pws`. -/
def l2vpnSyncPw (addr : LdpdAddr) (lde : Lde) (data : Nat) : Lde :=
  match lde.pws[data]? with
  | none => lde
  | some pw =>
    if pw.addr ≠ addr then lde
    else
      match lde.ft[l2vpnPwFec lde pw]? with
      | none => lde
      | some fn =>
        match fecNhFind fn (.v4 pw.lsrId) 0 with
        | none => lde
        | some fnh =>
          if l2vpnPwOk lde pw fnh then ldeSendChangeKlabelPw lde (l2vpnPwFec lde pw) fn fnh
          else ldeSendDeleteKlabelPw lde (l2vpnPwFec lde pw) fn fnh

/-- `l2vpn_sync_pws`. -/
def l2vpnSyncPws (lde : Lde) (addr : LdpdAddr) : Lde :=
  lde.configuredPws.foldl (l2vpnSyncPw addr) lde

/-! ### Kernel label messages -/

/-- The `struct kroute` of a FEC and one of its nexthops. -/
def krouteOf (addr : LdpdAddr) (prefixlen : UInt8) (fn : FecNode) (fnh : FecNh) : Kroute where
  addr := addr
  prefixlen := prefixlen
  nexthop := fnh.nexthop
  localLabel := fn.localLabel
  remoteLabel := fnh.remoteLabel
  priority := fnh.priority

/-- `lde_send_change_klabel`. -/
def ldeSendChangeKlabel (lde : Lde) (fec : Fec) (fnh : FecNh) : Lde :=
  match lde.ft[fec]? with
  | none => lde.fail .nullFec
  | some fn =>
    match fec with
    | .ipv4 addr prefixlen =>
      let lde := lde.composeParent (.klabelChange (krouteOf (.v4 addr) prefixlen fn fnh))
      if prefixlen = 32 then l2vpnSyncPws lde (.v4 addr) else lde
    | .ipv6 addr prefixlen =>
      let lde := lde.composeParent (.klabelChange (krouteOf (.v6 addr) prefixlen fn fnh))
      if prefixlen = 128 then l2vpnSyncPws lde (.v6 addr) else lde
    | .pwid .. => ldeSendChangeKlabelPw lde fec fn fnh

/-- `lde_send_delete_klabel`. -/
def ldeSendDeleteKlabel (lde : Lde) (fec : Fec) (fnh : FecNh) : Lde :=
  match lde.ft[fec]? with
  | none => lde.fail .nullFec
  | some fn =>
    match fec with
    | .ipv4 addr prefixlen =>
      let lde := lde.composeParent (.klabelDelete (krouteOf (.v4 addr) prefixlen fn fnh))
      if prefixlen = 32 then l2vpnSyncPws lde (.v4 addr) else lde
    | .ipv6 addr prefixlen =>
      let lde := lde.composeParent (.klabelDelete (krouteOf (.v6 addr) prefixlen fn fnh))
      if prefixlen = 128 then l2vpnSyncPws lde (.v6 addr) else lde
    | .pwid .. => ldeSendDeleteKlabelPw lde fec fn fnh

/-! ### What the kernel messages do -/

/-- A relation between two states of the engine that the steps of the messages about pseudowires
keep. Everything that is said of the kernel messages is an instance of it. -/
structure PwRule (related : Lde → Lde → Prop) : Prop where
  refl : ∀ lde, related lde lde
  trans : ∀ {first second third}, related first second → related second third → related first third
  fail : ∀ lde fault, related lde (lde.fail fault)
  setUp : ∀ lde data up, related lde (lde.setPwFlags data (PwFlags.setUp up))
  kpwlabelChange : ∀ lde kpw, related lde (lde.composeParent (.kpwlabelChange kpw))
  kpwlabelDelete : ∀ lde kpw, related lde (lde.composeParent (.kpwlabelDelete kpw))

namespace PwRule

variable {related : Lde → Lde → Prop} (rule : PwRule related) (lde : Lde)
include rule

theorem ldeSendChangeKlabelPw (fec : Fec) (fn : FecNode) (fnh : FecNh) :
    related lde (ldeSendChangeKlabelPw lde fec fn fnh) := by
  rw [Ldpd.ldeSendChangeKlabelPw]
  split
  · exact rule.refl lde
  split
  · exact rule.fail lde _
  · exact rule.trans (rule.setUp lde _ true) (rule.kpwlabelChange _ _)

theorem ldeSendDeleteKlabelPw (fec : Fec) (fn : FecNode) (fnh : FecNh) :
    related lde (ldeSendDeleteKlabelPw lde fec fn fnh) := by
  rw [Ldpd.ldeSendDeleteKlabelPw]
  split
  · exact rule.fail lde _
  split
  · exact rule.trans (rule.setUp lde _ false) (rule.kpwlabelDelete _ _)
  · exact rule.refl lde

theorem l2vpnSyncPw (addr : LdpdAddr) (data : Nat) : related lde (l2vpnSyncPw addr lde data) := by
  rw [Ldpd.l2vpnSyncPw]
  repeat' split
  all_goals first
    | exact rule.refl lde
    | exact rule.ldeSendChangeKlabelPw lde _ _ _
    | exact rule.ldeSendDeleteKlabelPw lde _ _ _

theorem l2vpnSyncPws (addr : LdpdAddr) : related lde (l2vpnSyncPws lde addr) :=
  Run.foldl_related rule.refl rule.trans (fun lde data => rule.l2vpnSyncPw lde addr data) _ lde

/-- The label of a route, and the pseudowires behind it if it is the route to a host. -/
theorem klabel {imsg : ParentImsg} (told : related lde (lde.composeParent imsg)) (host : Prop)
    [Decidable host] (addr : LdpdAddr) :
    related lde (if host then Ldpd.l2vpnSyncPws (lde.composeParent imsg) addr
      else lde.composeParent imsg) := by
  split
  · exact rule.trans told (rule.l2vpnSyncPws _ addr)
  · exact told

theorem ldeSendChangeKlabel (told : ∀ lde kr, related lde (lde.composeParent (.klabelChange kr)))
    (fec : Fec) (fnh : FecNh) : related lde (ldeSendChangeKlabel lde fec fnh) := by
  rw [Ldpd.ldeSendChangeKlabel]
  split
  · exact rule.fail lde _
  · cases fec with
    | ipv4 | ipv6 => exact rule.klabel lde (told lde _) _ _
    | pwid => exact rule.ldeSendChangeKlabelPw lde _ _ _

theorem ldeSendDeleteKlabel (told : ∀ lde kr, related lde (lde.composeParent (.klabelDelete kr)))
    (fec : Fec) (fnh : FecNh) : related lde (ldeSendDeleteKlabel lde fec fnh) := by
  rw [Ldpd.ldeSendDeleteKlabel]
  split
  · exact rule.fail lde _
  · cases fec with
    | ipv4 | ipv6 => exact rule.klabel lde (told lde _) _ _
    | pwid => exact rule.ldeSendDeleteKlabelPw lde _ _ _

end PwRule


/-- Two states of the engine that differ only in the pseudowires and in what the parent
process has been told. -/
structure KernelOnly (lde lde' : Lde) : Prop where
  ft : lde'.ft = lde.ft
  ldeNbrs : lde'.ldeNbrs = lde.ldeNbrs
  label : lde'.label = lde.label
  ipv4ExpNull : lde'.ipv4ExpNull = lde.ipv4ExpNull
  ipv6ExpNull : lde'.ipv6ExpNull = lde.ipv6ExpNull
  l2vpnList : lde'.l2vpnList = lde.l2vpnList
  l2vpns : lde'.l2vpns = lde.l2vpns
  toLdpe : lde'.toLdpe = lde.toLdpe

theorem KernelOnly.refl (lde : Lde) : KernelOnly lde lde := ⟨rfl, rfl, rfl, rfl, rfl, rfl, rfl, rfl⟩

theorem KernelOnly.trans {lde lde' lde'' : Lde} (first : KernelOnly lde lde')
    (second : KernelOnly lde' lde'') : KernelOnly lde lde'' where
  ft := second.ft.trans first.ft
  ldeNbrs := second.ldeNbrs.trans first.ldeNbrs
  label := second.label.trans first.label
  ipv4ExpNull := second.ipv4ExpNull.trans first.ipv4ExpNull
  ipv6ExpNull := second.ipv6ExpNull.trans first.ipv6ExpNull
  l2vpnList := second.l2vpnList.trans first.l2vpnList
  l2vpns := second.l2vpns.trans first.l2vpns
  toLdpe := second.toLdpe.trans first.toLdpe

theorem kernelOnly_composeParent (lde : Lde) (imsg : ParentImsg) :
    KernelOnly lde (lde.composeParent imsg) := ⟨rfl, rfl, rfl, rfl, rfl, rfl, rfl, rfl⟩

theorem pwRule_kernelOnly : PwRule KernelOnly where
  refl := KernelOnly.refl
  trans := KernelOnly.trans
  fail _ _ := ⟨rfl, rfl, rfl, rfl, rfl, rfl, rfl, rfl⟩
  setUp _ _ _ := ⟨rfl, rfl, rfl, rfl, rfl, rfl, rfl, rfl⟩
  kpwlabelChange lde _ := kernelOnly_composeParent lde _
  kpwlabelDelete lde _ := kernelOnly_composeParent lde _

theorem kernelOnly_ldeSendChangeKlabel (lde : Lde) (fec : Fec) (fnh : FecNh) :
    KernelOnly lde (ldeSendChangeKlabel lde fec fnh) :=
  pwRule_kernelOnly.ldeSendChangeKlabel lde (fun lde _ => kernelOnly_composeParent lde _) fec fnh

theorem kernelOnly_ldeSendDeleteKlabel (lde : Lde) (fec : Fec) (fnh : FecNh) :
    KernelOnly lde (ldeSendDeleteKlabel lde fec fnh) :=
  pwRule_kernelOnly.ldeSendDeleteKlabel lde (fun lde _ => kernelOnly_composeParent lde _) fec fnh

end Ldpd
