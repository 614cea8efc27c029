/-
This file is the configuration of the daemon, `struct ldpd_conf`, and `merge_config`, which
all three processes call with a new one. The five lists of the configuration, and the two
lists of each L2VPN, are brought up to date by the same pair of loops, with functions of
their own for what goes, what comes and what stays.

What a process does besides changing its configuration is listed in the order in which it
does it. The length of a password goes without saying, and the type of an L2VPN is always
the same; both are left out, and so is what the merges neither read nor write.
-/

import Ldpd.Lde.State
import Ldpd.Ldpe.Pfkey
import Ldpd.Library.Reconcile

namespace Ldpd

/-! ### The configuration -/

/-- `ldpd_process`. -/
inductive LdpdProcess where
  | main
  | ldpEngine
  | ldeEngine
  deriving DecidableEq, Repr

/-- The bits of the `flags` of `struct ldpd_af_conf`. -/
structure AfFlags where
  enabled : Bool := false
  thelloAccept : Bool := false
  expnull : Bool := false
  noGtsm : Bool := false
  deriving DecidableEq, Repr

/-- `struct ldpd_af_conf`, with the member of the transport address that its family uses. -/
structure LdpdAfConf (Addr : Type) where
  keepalive : UInt16 := 0
  thelloHoldtime : UInt16 := 0
  thelloInterval : UInt16 := 0
  transAddr : Addr
  flags : AfFlags := {}
  deriving DecidableEq, Repr

/-- What a configuration says in a `struct iface_af`. -/
structure ConfIfaceAf where
  enabled : Bool := false
  helloHoldtime : UInt16 := 0
  helloInterval : UInt16 := 0
  deriving DecidableEq, Repr

/-- What a configuration says in a `struct iface`. -/
structure ConfIface where
  name : String
  ifindex : UInt32
  ipv4 : ConfIfaceAf := {}
  ipv6 : ConfIfaceAf := {}
  deriving DecidableEq, Repr

/-- `struct tnbr`, without its adjacency and its state. -/
structure ConfTnbr where
  addr : LdpdAddr
  helloHoldtime : UInt16 := 0
  helloInterval : UInt16 := 0
  pwCount : UInt16 := 0
  configured : Bool := false
  dynamic : Bool := false
  deriving DecidableEq, Repr

/-- `struct l2vpn_if`. -/
structure ConfL2vpnIf where
  ifname : String
  ifindex : UInt32
  deriving DecidableEq, Repr

/-- `struct l2vpn_pw`. -/
structure ConfPw where
  lsrId : InAddr
  addr : LdpdAddr
  pwid : UInt32
  ifname : String
  ifindex : UInt32
  flags : PwFlags := {}
  deriving DecidableEq, Repr

/-- `struct l2vpn`. -/
structure ConfL2vpn where
  name : String
  pwType : Int
  mtu : Int
  brIfname : String := ""
  brIfindex : UInt32 := 0
  ifList : List ConfL2vpnIf := []
  pwList : List ConfPw := []
  deriving DecidableEq, Repr

/-- The bits of the `flags` of `struct ldpd_conf`. -/
structure ConfFlags where
  noFibUpdate : Bool := false
  dsCiscoInterop : Bool := false
  deriving DecidableEq, Repr

/-- `struct ldpd_conf`. -/
structure LdpdConf where
  rtrId : InAddr := 0
  ipv4 : LdpdAfConf InAddr := { transAddr := 0 }
  ipv6 : LdpdAfConf In6Addr := { transAddr := Vector.replicate 16 0 }
  ifaceList : List ConfIface := []
  tnbrList : List ConfTnbr := []
  nbrpList : List NbrParams := []
  l2vpnList : List ConfL2vpn := []
  transPref : UInt16 := 0
  flags : ConfFlags := {}
  deriving DecidableEq, Repr

/-! ### Effects -/

/-- What a merge does to a neighbor, if there is one with the id. -/
inductive NbrCall where
  | sessionShutdown
  | shutdownIfOper
  | pfkeyRemove
  | pfkeyEstablish (nbrp : NbrParams)
  | establishIfActive
  deriving DecidableEq, Repr

/-- What a merge does besides changing the configuration. -/
inductive MergeEffect where
  | resetNbrs (af : Af)
  | resetDsNbrs
  | updateAll
  | stopInitBackoff (af : Af)
  | removeDynamicTnbrs (af : Af)
  | changeEgressLabel (af : Af) (wasImplicit : Bool)
  | closeSockets (af : Af)
  | ifExit (ifindex : UInt32)
  | ifUpdate (ifindex : UInt32) (af : Af)
  | kifRedistribute (name : String)
  | tnbrUpdate (addr : LdpdAddr)
  | tnbrDel (addr : LdpdAddr)
  | nbr (lsrId : InAddr) (calls : List NbrCall)
  | pwInit (pwType mtu : Int) (pw : ConfPw)
  | pwExit (pwType : Int) (pw : ConfPw)
  | tnbrInit (addr : LdpdAddr)
  | tnbrExit (addr : LdpdAddr)
  deriving DecidableEq, Repr

/-- Something happens only if a condition holds. -/
def effectsIf (condition : Bool) (effects : List MergeEffect) : List MergeEffect :=
  if condition then effects else []

namespace LdpdConf

variable (process : LdpdProcess)

/-! ### Settings -/

/-- `merge_global`. -/
def mergeGlobal (xconf conf : LdpdConf) : LdpdConf × List MergeEffect :=
  let ldpe := process == .ldpEngine
  ({ conf with rtrId := xconf.rtrId, transPref := xconf.transPref, flags := xconf.flags },
    -- change of router-id requires resetting all neighborships
    effectsIf (conf.rtrId != xconf.rtrId && ldpe) ([.resetNbrs .inet, .resetNbrs .inet6] ++
      effectsIf (conf.rtrId == 0 || xconf.rtrId == 0) [.updateAll]) ++
    effectsIf (conf.transPref != xconf.transPref && ldpe) [.resetDsNbrs] ++
    effectsIf (conf.flags.dsCiscoInterop != xconf.flags.dsCiscoInterop && ldpe) [.resetDsNbrs])

/-- What `merge_af` does besides changing the settings of the family. -/
def afEffects {Addr : Type} [DecidableEq Addr] (af : Af) (xa afConf : LdpdAfConf Addr) :
    List MergeEffect :=
  let ldpe := process == .ldpEngine
  let gtsmChanged := afConf.flags.noGtsm != xa.flags.noGtsm
  let egressLabelChanged := afConf.flags.expnull != xa.flags.expnull
  let updateSockets := gtsmChanged && af = .inet6 || afConf.transAddr ≠ xa.transAddr
  effectsIf (afConf.keepalive != xa.keepalive && ldpe) [.stopInitBackoff af] ++
    effectsIf (ldpe && afConf.flags.thelloAccept && !xa.flags.thelloAccept)
      [.removeDynamicTnbrs af] ++
    -- for LDPv4 just resetting the neighbors is enough
    effectsIf (gtsmChanged && af = .inet && ldpe) [.resetNbrs af] ++
    effectsIf (egressLabelChanged && !ldpe) [.changeEgressLabel af xa.flags.expnull] ++
    effectsIf (process == .main && updateSockets) [.closeSockets af]

/-- `tnbr_check`: what is left of the targeted neighbor. -/
def tnbrCheck (tnbr : ConfTnbr) : Option ConfTnbr × List MergeEffect :=
  if !tnbr.configured && !tnbr.dynamic && tnbr.pwCount == 0 then (none, [.tnbrDel tnbr.addr])
  else (some tnbr, [])

/-- `ldpe_remove_dynamic_tnbrs`. -/
def removeDynamicTnbrs (af : Af) (tnbrs : List ConfTnbr) : List ConfTnbr :=
  tnbrs.filterMap fun tnbr =>
    if tnbr.addr.af = af then (tnbrCheck { tnbr with dynamic := false }).1 else some tnbr

/-- The targeted neighbors after the flags of a family changed in `merge_af`. -/
def thelloAcceptTnbrs (af : Af) (xflags flags : AfFlags) (tnbrs : List ConfTnbr) : List ConfTnbr :=
  if process = .ldpEngine ∧ flags.thelloAccept ∧ !xflags.thelloAccept then
    removeDynamicTnbrs af tnbrs
  else tnbrs

/-- `merge_af` for IPv4. -/
def mergeIpv4 (xconf conf : LdpdConf) : LdpdConf × List MergeEffect :=
  ({ conf with
     ipv4 := xconf.ipv4
     tnbrList := thelloAcceptTnbrs process .inet xconf.ipv4.flags conf.ipv4.flags conf.tnbrList },
    afEffects process .inet xconf.ipv4 conf.ipv4)

/-- `merge_af` for IPv6. -/
def mergeIpv6 (xconf conf : LdpdConf) : LdpdConf × List MergeEffect :=
  ({ conf with
     ipv6 := xconf.ipv6
     tnbrList := thelloAcceptTnbrs process .inet6 xconf.ipv6.flags conf.ipv6.flags conf.tnbrList },
    afEffects process .inet6 xconf.ipv6 conf.ipv6)

/-! ### Interfaces -/

/-- What `merge_iface_af` does besides changing the settings. -/
def ifaceAfEffects (ifindex : UInt32) (af : Af) (xi ia : ConfIfaceAf) : List MergeEffect :=
  effectsIf (ia.enabled != xi.enabled && process == .ldpEngine) [.ifUpdate ifindex af]

/-- The loops of `merge_ifaces`. -/
def ifaceRules : Reconcile.Rules ConfIface UInt32 MergeEffect where
  key := ConfIface.ifindex
  drop iface := (none, effectsIf (process == .ldpEngine) [.ifExit iface.ifindex])
  add xi := (xi, effectsIf (process == .main) [.kifRedistribute xi.name])
  update iface xi := ({ iface with ipv4 := xi.ipv4, ipv6 := xi.ipv6 },
    ifaceAfEffects process iface.ifindex .inet xi.ipv4 iface.ipv4 ++
      ifaceAfEffects process iface.ifindex .inet6 xi.ipv6 iface.ipv6)

/-- `merge_ifaces`. -/
def mergeIfaces (xconf conf : LdpdConf) : LdpdConf × List MergeEffect :=
  let merged := Reconcile.merge (ifaceRules process) conf.ifaceList xconf.ifaceList
  ({ conf with ifaceList := merged.1 }, merged.2)

/-! ### Targeted neighbors -/

/-- The loops of `merge_tnbrs`. -/
def tnbrRules : Reconcile.Rules ConfTnbr LdpdAddr MergeEffect where
  key := ConfTnbr.addr
  drop tnbr :=
    if !tnbr.configured then (some tnbr, [])
    else if process = .ldpEngine then tnbrCheck { tnbr with configured := false }
    else (none, [])
  add xt := (xt, effectsIf (process == .ldpEngine) [.tnbrUpdate xt.addr])
  update tnbr xt := ({ tnbr with configured := true, helloHoldtime := xt.helloHoldtime
                                 helloInterval := xt.helloInterval }, [])

/-- `merge_tnbrs`. -/
def mergeTnbrs (xconf conf : LdpdConf) : LdpdConf × List MergeEffect :=
  let merged := Reconcile.merge (tnbrRules process) conf.tnbrList xconf.tnbrList
  ({ conf with tnbrList := merged.1 }, merged.2)

/-! ### Neighbor parameters -/

/-- `nbrp_changed`. -/
def nbrpChanged (xn nbrp : NbrParams) : Bool :=
  nbrp.flags != xn.flags || nbrp.keepalive != xn.keepalive ||
    nbrp.gtsmEnabled != xn.gtsmEnabled || nbrp.gtsmHops != xn.gtsmHops ||
    nbrp.method != xn.method || nbrp.md5key != xn.md5key

/-- An existing `struct nbr_params` is given the values of a new one. -/
def nbrpMerge (xn nbrp : NbrParams) : NbrParams :=
  { nbrp with
    keepalive := xn.keepalive, gtsmEnabled := xn.gtsmEnabled, gtsmHops := xn.gtsmHops
    method := xn.method, md5key := xn.md5key, flags := xn.flags }

/-- The loops of `merge_nbrps`. -/
def nbrpRules : Reconcile.Rules NbrParams InAddr MergeEffect where
  key := NbrParams.lsrId
  drop nbrp := (none, effectsIf (process == .ldpEngine)
    [.nbr nbrp.lsrId [.sessionShutdown, .pfkeyRemove, .establishIfActive]])
  add xn := (xn, effectsIf (process == .ldpEngine)
    [.nbr xn.lsrId [.sessionShutdown, .pfkeyEstablish xn, .establishIfActive]])
  update nbrp xn := (nbrpMerge xn nbrp, effectsIf (process == .ldpEngine && nbrpChanged xn nbrp)
    [.nbr nbrp.lsrId [.sessionShutdown, .pfkeyRemove, .pfkeyEstablish (nbrpMerge xn nbrp),
      .establishIfActive]])

/-- `merge_nbrps`. -/
def mergeNbrps (xconf conf : LdpdConf) : LdpdConf × List MergeEffect :=
  let merged := Reconcile.merge (nbrpRules process) conf.nbrpList xconf.nbrpList
  ({ conf with nbrpList := merged.1 }, merged.2)

/-! ### Layer 2 VPNs -/

/-- `l2vpn_pw_init` or `ldpe_l2vpn_pw_init`, as the process has it. -/
def pwInitCall (pwType mtu : Int) (pw : ConfPw) : List MergeEffect :=
  match process with
  | .ldeEngine => [.pwInit pwType mtu pw]
  | .ldpEngine => [.tnbrInit pw.addr]
  | .main => []

/-- `l2vpn_pw_exit` or `ldpe_l2vpn_pw_exit`, as the process has it. -/
def pwExitCall (pwType : Int) (pw : ConfPw) : List MergeEffect :=
  match process with
  | .ldeEngine => [.pwExit pwType pw]
  | .ldpEngine => [.tnbrExit pw.addr]
  | .main => []

/-- An existing `struct l2vpn_pw` is given the values of a new one. -/
def pwMerge (xp pw : ConfPw) : ConfPw :=
  { pw with
    lsrId := xp.lsrId, addr := xp.addr, pwid := xp.pwid, ifname := xp.ifname, ifindex := xp.ifindex
    flags := { pw.flags with
               cwordConf := xp.flags.cwordConf, statustlvConf := xp.flags.statustlvConf } }

/-- What `merge_l2vpn` does when it updates a pseudowire. -/
def pwEffects (l2vpn xl : ConfL2vpn) (xp pw : ConfPw) : List MergeEffect :=
  let reinstallTnbr := pw.addr != xp.addr
  -- changes that require a session restart
  let resetNbr := pw.flags.statustlvConf != xp.flags.statustlvConf ||
    pw.flags.cwordConf != xp.flags.cwordConf
  let reinstallPwfec := l2vpn.pwType != xl.pwType || l2vpn.mtu != xl.mtu || pw.pwid != xp.pwid ||
    reinstallTnbr || resetNbr || pw.lsrId != xp.lsrId
  match process with
  | .ldpEngine =>
    effectsIf reinstallTnbr [.tnbrExit pw.addr] ++
      effectsIf resetNbr [.nbr pw.lsrId [.shutdownIfOper]] ++
      effectsIf reinstallTnbr [.tnbrInit xp.addr]
  | .ldeEngine =>
    effectsIf (!resetNbr && reinstallPwfec)
      [.pwExit l2vpn.pwType pw, .pwInit xl.pwType xl.mtu (pwMerge xp pw)]
  | .main => []

/-- The loops of `merge_l2vpn` over the interfaces. -/
def l2vpnIfRules : Reconcile.Rules ConfL2vpnIf UInt32 MergeEffect where
  key := ConfL2vpnIf.ifindex
  drop _ := (none, [])
  add xf := (xf, [])
  update lif _ := (lif, [])

/-- The loops of `merge_l2vpn` over the pseudowires. -/
def pwRules (l2vpn xl : ConfL2vpn) : Reconcile.Rules ConfPw UInt32 MergeEffect where
  key := ConfPw.ifindex
  drop pw := (none, pwExitCall process l2vpn.pwType pw)
  add xp := (xp, pwInitCall process l2vpn.pwType l2vpn.mtu xp)
  update pw xp := (pwMerge xp pw, pwEffects process l2vpn xl xp pw)

/-- `merge_l2vpn`. -/
def mergeL2vpn (l2vpn xl : ConfL2vpn) : ConfL2vpn × List MergeEffect :=
  let ifs := Reconcile.merge l2vpnIfRules l2vpn.ifList xl.ifList
  let pws := Reconcile.merge (pwRules process l2vpn xl) l2vpn.pwList xl.pwList
  ({ l2vpn with
     pwType := xl.pwType, mtu := xl.mtu, brIfname := xl.brIfname, brIfindex := xl.brIfindex
     ifList := ifs.1, pwList := pws.1 }, pws.2)

/-- The loops of `merge_l2vpns`. -/
def l2vpnRules : Reconcile.Rules ConfL2vpn String MergeEffect where
  key := ConfL2vpn.name
  drop l2vpn := (none, l2vpn.pwList.flatMap (pwExitCall process l2vpn.pwType))
  add xl := (xl, xl.pwList.flatMap (pwInitCall process xl.pwType xl.mtu))
  update l2vpn xl := mergeL2vpn process l2vpn xl

/-- The targeted neighbors after an `ldpe_l2vpn_pw_init` or an `ldpe_l2vpn_pw_exit`. -/
def pwTnbrs (conf : LdpdConf) (tnbrs : List ConfTnbr) : MergeEffect → List ConfTnbr
  | .tnbrInit addr =>
    match Reconcile.find (tnbrRules .ldpEngine) addr tnbrs with
    | some tnbr => Reconcile.put (tnbrRules .ldpEngine) { tnbr with pwCount := tnbr.pwCount + 1 } tnbrs
    | none =>
      { addr, pwCount := 1
        helloHoldtime := match addr.af with
          | .inet => conf.ipv4.thelloHoldtime
          | .inet6 => conf.ipv6.thelloHoldtime
        helloInterval := match addr.af with
          | .inet => conf.ipv4.thelloInterval
          | .inet6 => conf.ipv6.thelloInterval } :: tnbrs
  | .tnbrExit addr =>
    match Reconcile.find (tnbrRules .ldpEngine) addr tnbrs with
    | some tnbr =>
      match (tnbrCheck { tnbr with pwCount := tnbr.pwCount - 1 }).1 with
      | some tnbr => Reconcile.put (tnbrRules .ldpEngine) tnbr tnbrs
      | none => tnbrs.eraseP fun other => other.addr = addr
    | none => tnbrs
  | _ => tnbrs

/-- `merge_l2vpns`. -/
def mergeL2vpns (xconf conf : LdpdConf) : LdpdConf × List MergeEffect :=
  let merged := Reconcile.merge (l2vpnRules process) conf.l2vpnList xconf.l2vpnList
  ({ conf with l2vpnList := merged.1, tnbrList := merged.2.foldl (pwTnbrs conf) conf.tnbrList },
    merged.2)

/-! ### The merge -/

/-- One part of `merge_config` after another. -/
def mergePart (so : LdpdConf × List MergeEffect)
    (part : LdpdConf → LdpdConf × List MergeEffect) : LdpdConf × List MergeEffect :=
  ((part so.1).1, so.2 ++ (part so.1).2)

/-- The parts of `merge_config`. -/
def mergeParts (xconf : LdpdConf) : List (LdpdConf → LdpdConf × List MergeEffect) :=
  [mergeGlobal process xconf, mergeIpv4 process xconf, mergeIpv6 process xconf,
    mergeIfaces process xconf, mergeTnbrs process xconf, mergeNbrps process xconf,
    mergeL2vpns process xconf]

/-- `merge_config`: the configuration, and what the process did. -/
def mergeConfig (conf xconf : LdpdConf) : LdpdConf × List MergeEffect :=
  (mergeParts process xconf).foldl mergePart (conf, [])

end LdpdConf

end Ldpd
