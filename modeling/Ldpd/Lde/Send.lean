/-
This file models how the label decision engine advertises, withdraws and releases
labels: it composes a `struct map` for one neighbor, writes it on the pipe to the
LDP engine and keeps a record of what was sent.
-/

import Ldpd.Lde.Klabel

namespace Ldpd

/-! ### FECs and label records -/

/-- `lde_fec2map`. -/
def ldeFec2map : Fec → Map
  | .ipv4 addr prefixlen => { fec := .network (.v4 addr) prefixlen }
  | .ipv6 addr prefixlen => { fec := .network (.v6 addr) prefixlen }
  | .pwid type pwid _ => { fec := .pwid type pwid 0 0, flags := { pwId := true } }

/-- `lde_map2fec`. A wildcard fills in nothing, so the cleared `struct fec` stays: an IPv4
FEC of prefix length zero. -/
def ldeMap2fec (map : Map) (lsrId : InAddr) : Fec :=
  match map.fec with
  | .wildcard => .ipv4 0 0
  | .network (.v4 addr) prefixlen => .ipv4 addr prefixlen
  | .network (.v6 addr) prefixlen => .ipv6 addr prefixlen
  | .pwid type pwid _ _ => .pwid type pwid lsrId

/-- The pseudowire of a FEC node, when it has one. -/
def Lde.pwOf (lde : Lde) (fn : FecNode) : Option L2vpnPw :=
  fn.data.bind fun data => lde.pws[data]?

/-- The check at the head of the three senders: the address family is enabled for the
neighbor, or the neighbor is the remote end of the pseudowire. -/
def labelPeer (lde : Lde) (ln : LdeNbr) (fn : FecNode) : Fec → Bool
  | .ipv4 .. => ln.v4Enabled
  | .ipv6 .. => ln.v6Enabled
  | .pwid .. =>
    match lde.pwOf fn with
    | none => false
    | some pw => pw.lsrId = ln.id

/-- The mapping of a FEC that `lde_send_labelmapping` composes, before it looks for a
pending request. VPLS are always up, so the status is always `PW_FORWARDING`. -/
def composeLabelmapping (lde : Lde) (fec : Fec) (fn : FecNode) : Map :=
  match fec, lde.pwOf fn with
  | .pwid type pwid _, some pw =>
    { fec := .pwid type pwid 0 (lde.l2vpnOf pw).mtu
      label := fn.localLabel
      pwStatus := pwForwarding
      flags := {
        pwId := true
        pwIfmtu := true
        pwCword := pw.flags.cword
        pwStatus := pw.flags.statustlv } }
  | _, _ => { ldeFec2map fec with label := fn.localLabel }

/-- The withdraw or release of a FEC, with the control word bit of its pseudowire. -/
def composeLabelrecord (lde : Lde) (fec : Fec) (fn : FecNode) (label : UInt32) : Map :=
  let map := ldeFec2map fec
  match fec, lde.pwOf fn with
  | .pwid .., some pw =>
    { map with label, flags := { map.flags with pwCword := pw.flags.cword } }
  | _, _ => { map with label }

/-! ### Label Mapping -/

/-- SL.5: record the sent label mapping. -/
def recordSent (lde : Lde) (peerid : UInt32) (ln : LdeNbr) (fec : Fec) (map : Map) : Lde :=
  if fec ∈ ln.sentMap then ldeMapSet lde peerid fec map true
  else ldeMapAdd lde peerid fec map true

/-- `lde_send_labelmapping`. -/
def ldeSendLabelmapping (lde : Lde) (peerid : UInt32) (fec : Fec) (single : Bool) : Lde :=
  match lde.ldeNbrs[peerid]?, lde.ft[fec]? with
  | some ln, some fn =>
    if labelPeer lde ln fn fec then
      let map := composeLabelmapping lde fec fn
      -- SL.6: is there a pending request for this mapping?
      let map := match ln.recvReq[fec]? with
        | some msgId => { map with requestid := msgId, flags := { reqId := true } }
        | none => map
      -- SL.7: delete record of pending request
      let lde := lde.updateNbr peerid fun ln => { ln with recvReq := ln.recvReq.erase fec }
      let lde := lde.composeLdpe (.mappingAdd peerid map)
      let lde := if single then lde.composeLdpe (.mappingAddEnd peerid) else lde
      recordSent lde peerid ln fec map
    else lde
  | _, _ => lde

/-! ### Label Withdraw -/

/-- The withdraw that `lde_send_labelwithdraw` composes for one FEC or, without a FEC, for
all of them. -/
def composeLabelwithdraw (lde : Lde) (ln : LdeNbr) (fec : Option Fec) (label : UInt32) :
    Option Map :=
  match fec with
  | none => some { fec := .wildcard, label }
  | some fec =>
    match lde.ft[fec]? with
    | none => none
    | some fn =>
      if labelPeer lde ln fn fec then some (composeLabelrecord lde fec fn fn.localLabel) else none

/-- SWd.2: record the label withdraw. -/
def recordWdraw (peerid : UInt32) (label : UInt32) (lde : Lde) (fec : Fec) : Lde :=
  lde.updateNbr peerid fun ln => { ln with sentWdraw := ln.sentWdraw.insert fec label }

/-- `lde_send_labelwithdraw`. -/
def ldeSendLabelwithdraw (lde : Lde) (peerid : UInt32) (fec : Option Fec) (label : UInt32)
    (st : Option MapStatus) : Lde :=
  match lde.ldeNbrs[peerid]? with
  | none => lde
  | some ln =>
    match composeLabelwithdraw lde ln fec label with
    | none => lde
    | some map =>
      let map := match st with
        | none => map
        | some st => { map with st, flags := { map.flags with status := true } }
      let lde := lde.composeLdpe (.withdrawAdd peerid map)
      let lde := lde.composeLdpe (.withdrawAddEnd peerid)
      match fec with
      | some fec => recordWdraw peerid map.label lde fec
      | none => lde.ft.keys.foldl (recordWdraw peerid map.label) lde

/-- `lde_send_labelwithdraw_all`. -/
def ldeSendLabelwithdrawAll (lde : Lde) (fec : Fec) (label : UInt32) : Lde :=
  lde.ldeNbrs.keys.foldl (fun lde peerid => ldeSendLabelwithdraw lde peerid (some fec) label none)
    lde

/-! ### Label Release and Notification -/

/-- `lde_send_labelrelease`. -/
def ldeSendLabelrelease (lde : Lde) (peerid : UInt32) (fec : Option Fec) (label : UInt32) : Lde :=
  let send (map : Map) : Lde :=
    (lde.composeLdpe (.releaseAdd peerid map)).composeLdpe (.releaseAddEnd peerid)
  match fec with
  | none => send { fec := .wildcard, label }
  | some fec =>
    match lde.ldeNbrs[peerid]?, lde.ft[fec]? with
    | some ln, some fn =>
      if labelPeer lde ln fn fec then send (composeLabelrecord lde fec fn label) else lde
    | _, _ => lde

/-- `lde_send_notification`. -/
def ldeSendNotification (lde : Lde) (peerid : UInt32) (statusCode msgId : UInt32)
    (msgType : UInt16) : Lde :=
  lde.composeLdpe (.notificationSend peerid { statusCode, msgId, msgType })

end Ldpd
