/-
This file is the event loop of the label decision engine: the messages of
`lde_dispatch_parent` and `lde_dispatch_imsg`, the garbage collector, and the
pseudowires that a new configuration brings and takes.
-/

import Ldpd.Lde.Engine

namespace Ldpd

/-- The `struct kroute` of `IMSG_NETWORK_ADD` and `IMSG_NETWORK_DEL`. It has one address
family, for the network and for the nexthop. -/
structure RouteMsg where
  addr : LdpdAddr
  prefixlen : UInt8
  nexthop : LdpdAddr
  priority : UInt8
  connected : Bool
  family : nexthop.af = addr.af

/-- The FEC of a route. -/
def RouteMsg.fec (kr : RouteMsg) : Fec :=
  match kr.addr with
  | .v4 addr => .ipv4 addr kr.prefixlen
  | .v6 addr => .ipv6 addr kr.prefixlen

/-- The configuration of a pseudowire. -/
structure PwConf where
  l2vpn : Nat
  lsrId : InAddr
  addr : LdpdAddr
  pwid : UInt32
  ifindex : UInt32
  statustlv : Bool
  cword : Bool

/-- The pseudowire of a configuration, before it is started. -/
def PwConf.pw (conf : PwConf) : L2vpnPw where
  l2vpn := conf.l2vpn
  lsrId := conf.lsrId
  addr := conf.addr
  pwid := conf.pwid
  ifindex := conf.ifindex
  flags := { statustlvConf := conf.statustlv, cwordConf := conf.cword }

/-- What the engine reacts to. -/
inductive LdeEvent where
  | networkAdd (kr : RouteMsg)
  | networkDel (kr : RouteMsg)
  | labelMappingFull (peerid : UInt32)
  | labelMapping (peerid : UInt32) (map : Map)
  | labelRequest (peerid : UInt32) (map : Map)
  | labelRelease (peerid : UInt32) (map : Map)
  | labelWithdraw (peerid : UInt32) (map : Map)
  | labelAbort (peerid : UInt32) (map : Map)
  | addressAdd (peerid : UInt32) (addr : LdpdAddr)
  | addressDel (peerid : UInt32) (addr : LdpdAddr)
  | notification (peerid : UInt32) (nm : NotifyMsg)
  | neighborUp (peerid : UInt32) (id : InAddr) (v4Enabled v6Enabled : Bool)
  | neighborDown (peerid : UInt32)
  | gcTimer
  | pwNew (pw : Nat) (conf : PwConf)
  | pwDel (pw : Nat)

/-- Change the list of pseudowires of an L2VPN. -/
def Lde.updatePwList (lde : Lde) (l2vpn : Nat) (change : List Nat → List Nat) : Lde :=
  { lde with
    l2vpns := lde.l2vpns.modify l2vpn fun l2vpn => { l2vpn with pwList := change l2vpn.pwList } }

/-- A new pseudowire enters the list of its L2VPN, as in `merge_l2vpn`, and is started. -/
def l2vpnPwAdd (lde : Lde) (data : Nat) (conf : PwConf) : Lde :=
  if data ∈ lde.pws ∨ conf.l2vpn ∉ lde.l2vpns then lde
  else
    l2vpnPwInit
      ({ lde with pws := lde.pws.insert data conf.pw }.updatePwList conf.l2vpn (data :: ·)) data

/-- A deleted pseudowire is stopped, as in `merge_l2vpn`, and leaves the list of its L2VPN. -/
def l2vpnPwDelete (lde : Lde) (data : Nat) : Lde :=
  match lde.pws[data]? with
  | none => lde
  | some pw =>
    let lde := (l2vpnPwExit lde data).updatePwList pw.l2vpn (·.erase data)
    { lde with pws := lde.pws.erase data }

/-- `IMSG_LABEL_RELEASE`. -/
def dispatchRelease (lde : Lde) (map : Map) (peerid : UInt32) : Lde :=
  if map.fec = .wildcard then ldeCheckReleaseWcard lde map peerid
  else ldeCheckRelease lde map peerid

/-- `IMSG_LABEL_WITHDRAW`. -/
def dispatchWithdraw (lde : Lde) (map : Map) (peerid : UInt32) : Lde :=
  if map.fec = .wildcard then ldeCheckWithdrawWcard lde map peerid
  else ldeCheckWithdraw lde map peerid

/-- `IMSG_NOTIFICATION`. -/
def dispatchNotification (lde : Lde) (nm : NotifyMsg) (peerid : UInt32) : Lde :=
  match lde.ldeNbrs[peerid]? with
  | none => lde
  | some ln => if nm.statusCode = sPwStatus then l2vpnRecvPwStatus lde nm ln else lde

/-- One event. A message from a neighbor the engine does not know is dropped. -/
def ldeStep (lde : Lde) : LdeEvent → Lde
  | .networkAdd kr => ldeKernelInsert lde kr.fec kr.nexthop kr.priority kr.connected none
  | .networkDel kr => ldeKernelRemove lde kr.fec kr.nexthop kr.priority
  | .labelMappingFull peerid => if peerid ∈ lde.ldeNbrs then fecSnap lde peerid else lde
  | .labelMapping peerid map => ldeCheckMapping lde map peerid
  | .labelRequest peerid map => ldeCheckRequest lde map peerid
  | .labelRelease peerid map => dispatchRelease lde map peerid
  | .labelWithdraw peerid map => dispatchWithdraw lde map peerid
  | .labelAbort _ _ => lde
  | .addressAdd peerid addr => ldeAddressAdd lde peerid addr
  | .addressDel peerid addr => ldeAddressDel lde peerid addr
  | .notification peerid nm => dispatchNotification lde nm peerid
  | .neighborUp peerid id v4Enabled v6Enabled => ldeNbrNew lde peerid id v4Enabled v6Enabled
  | .neighborDown peerid => ldeNbrDel lde peerid
  | .gcTimer => ldeGcTimer lde
  | .pwNew data conf => l2vpnPwAdd lde data conf
  | .pwDel data => l2vpnPwDelete lde data

end Ldpd
