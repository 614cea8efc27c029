/-
This file models the handlers of the label decision engine and its event loop:
the route events of `lde_kernel_insert` and `lde_kernel_remove`, the five label
messages of RFC 5036 appendix A, the address lists and the life of the neighbors,
the pseudowire half of `l2vpn.c`, and the garbage collector.

A loop of the source over the nexthops of a FEC is a fold over the nexthops the
node has when the loop starts; the body writes through to the state, so what a
pseudowire sees of the route it depends on is what the source shows it at that
moment.
-/

import Ldpd.Lde.Send

namespace Ldpd

/-! ### Ownership of a nexthop -/

/-- The test of the label handlers: whose nexthop it is. A nexthop of a route belongs to the
neighbors that list its address, the nexthop of a pseudowire to the neighbor at its remote
end. -/
def ownsNexthop (ln : LdeNbr) (fec : Fec) (fnh : FecNh) : Bool :=
  match fec with
  | .ipv4 .. | .ipv6 .. => ldeAddressFind ln fnh.nexthop
  | .pwid _ _ lsrId => lsrId = ln.id

/-- `lde_send_delete_klabel(fn, fnh); fnh->remote_label = NO_LABEL`. -/
def uninstallNexthop (fec : Fec) (lde : Lde) (fnh : FecNh) : Lde :=
  (ldeSendDeleteKlabel lde fec fnh).setRemoteLabel fec fnh noLabel

/-- Remove the label of every nexthop that passes the test from forwarding use. -/
def uninstallNexthops (lde : Lde) (fec : Fec) (test : FecNh → Bool) : Lde :=
  ((lde.nexthops fec).filter test).foldl (uninstallNexthop fec) lde

/-! ### Label Mapping -/

/-- RFC4447 - Section 5.4.3: pseudowire status negotiation, the end of
`l2vpn_pw_negotiate`. -/
def negotiateStatus (lde : Lde) (data : Nat) (ln : LdeNbr) (fec : Fec) (map : Map) : Lde :=
  if fec ∉ ln.recvMap ∧ ¬map.flags.pwStatus then
    lde.setPwFlags data fun flags => { flags with statustlv := false }
  else lde

/-- The peer has our mapping with a control word and has sent one without it: withdraw ours
with a "Wrong C-bit" status code, and advertise again without the control word. -/
def renegotiateCword (lde : Lde) (peerid : UInt32) (data : Nat) (fec : Fec) (map : Map) : Lde :=
  let st : MapStatus := {
    statusCode := sWrongCbit
    msgId := map.msgId
    msgType := msgTypeLabelmapping }
  let lde := ldeSendLabelwithdraw lde peerid (some fec) noLabel (some st)
  let lde := lde.setPwFlags data fun flags => { flags with cword := false }
  ldeSendLabelmapping lde peerid fec true

/-- `l2vpn_pw_negotiate`: the engine after it, and whether the mapping is ignored. -/
def l2vpnPwNegotiate (lde : Lde) (peerid : UInt32) (ln : LdeNbr) (fec : Fec) (map : Map) :
    Lde × Bool :=
  match (lde.ft[fec]?).bind FecNode.data with
  | none => (lde, false)
  | some data =>
    match lde.pws[data]? with
    | none => (lde.fail .freedPw, true)
    | some pw =>
      -- RFC4447 - Section 6.2: control word negotiation
      if fec ∈ ln.sentMap then
        if map.flags.pwCword ∧ ¬pw.flags.cwordConf then (lde, true)
        else if ¬map.flags.pwCword ∧ pw.flags.cwordConf then
          (negotiateStatus (renegotiateCword lde peerid data fec map) data ln fec map, false)
        else (negotiateStatus lde data ln fec map, false)
      else if map.flags.pwCword then
        if pw.flags.cwordConf then
          let lde := lde.setPwFlags data fun flags => { flags with cword := true }
          (negotiateStatus lde data ln fec map, false)
        else (lde, true)
      else
        let lde := lde.setPwFlags data fun flags => { flags with cword := false }
        (negotiateStatus lde data ln fec map, false)

/-- What a mapping tells about the remote end of the pseudowire. -/
def pwLearn (map : Map) (pw : L2vpnPw) : L2vpnPw :=
  match map.fec with
  | .pwid _ _ groupId ifmtu =>
    { pw with
      remoteGroup := groupId
      remoteMtu := if map.flags.pwIfmtu then ifmtu else pw.remoteMtu
      remoteStatus := if map.flags.pwStatus then map.pwStatus else pw.remoteStatus }
  | _ => pw

/-- LMp.15: install FEC in FIB, for one nexthop. -/
def installNexthop (map : Map) (ln : LdeNbr) (fec : Fec) (lde : Lde) (fnh : FecNh) : Lde :=
  let installed : FecNh := { fnh with remoteLabel := map.label }
  match fec with
  | .ipv4 .. | .ipv6 .. =>
    if ldeAddressFind ln fnh.nexthop then
      ldeSendChangeKlabel (lde.setRemoteLabel fec fnh map.label) fec installed
    else lde
  | .pwid .. =>
    match (lde.ft[fec]?).bind FecNode.data with
    | none => lde
    | some data =>
      match lde.pws[data]? with
      | none => lde.fail .freedPw
      | some pw =>
        let lde := (lde.updatePw data (pwLearn map)).setRemoteLabel fec fnh map.label
        if l2vpnPwOk lde (pwLearn map pw) installed then ldeSendChangeKlabel lde fec installed
        else lde

/-- LMp.13 and LMp.16: record the mapping from this peer. -/
def recordReceived (lde : Lde) (peerid : UInt32) (known : Bool) (fec : Fec) (map : Map) : Lde :=
  if known then ldeMapSet lde peerid fec map false else ldeMapAdd lde peerid fec map false

/-- LMp.9 and LMp.10: a label that replaces another one. The old label is released and no
longer used. -/
def replaceLabel (lde : Lde) (peerid : UInt32) (ln : LdeNbr) (fec : Fec) (map : Map)
    (requested : Bool) : Lde :=
  match ln.recvMap[fec]? with
  | none => lde
  | some me =>
    if me.label ≠ map.label ∧ ¬requested then
      uninstallNexthops (ldeSendLabelrelease lde peerid (some fec) me.label) fec
        fun fnh => ldeAddressFind ln fnh.nexthop
    else lde

/-- The node of the FEC of a message, and LMp.2: delete record of outstanding label request. -/
def clearRequest (lde : Lde) (peerid : UInt32) (fec : Fec) : Lde :=
  (fecAdd lde fec).updateNbr peerid fun ln => { ln with sentReq := ln.sentReq.erase fec }

/-- RFC 4447 control word and status tlv negotiation, of a mapping for a pseudowire. -/
def negotiateMapping (lde : Lde) (peerid : UInt32) (ln : LdeNbr) (fec : Fec) (map : Map) :
    Lde × Bool :=
  match map.fec with
  | .pwid .. => l2vpnPwNegotiate lde peerid ln fec map
  | _ => (lde, false)

/-- LMp.9 to LMp.16: use the label of a mapping and record it. -/
def acceptMapping (lde : Lde) (map : Map) (peerid : UInt32) (ln : LdeNbr) (fec : Fec) : Lde :=
  let lde := replaceLabel lde peerid ln fec map (decide (fec ∈ ln.sentReq))
  let lde := (lde.nexthops fec).foldl (installNexthop map ln fec) lde
  recordReceived lde peerid (decide (fec ∈ ln.recvMap)) fec map

/-- `lde_check_mapping`. -/
def ldeCheckMapping (lde : Lde) (map : Map) (peerid : UInt32) : Lde :=
  match lde.ldeNbrs[peerid]? with
  | none => lde
  | some ln =>
    let fec := ldeMap2fec map ln.id
    let negotiated := negotiateMapping (clearRequest lde peerid fec) peerid ln fec map
    if negotiated.2 then negotiated.1 else acceptMapping negotiated.1 map peerid ln fec

/-! ### Routes -/

/-- `lde_nbr_find_by_addr`. -/
def ldeNbrFindByAddr (lde : Lde) (addr : LdpdAddr) : Option (UInt32 × LdeNbr) :=
  lde.ldeNbrs.toList.find? fun entry => ldeAddressFind entry.2 addr

/-- `lde_nbr_find_by_lsrid`. -/
def ldeNbrFindByLsrid (lde : Lde) (lsrId : InAddr) : Option (UInt32 × LdeNbr) :=
  lde.ldeNbrs.toList.find? fun entry => entry.2.id = lsrId

/-- A label for a FEC that has none, and FEC.1: perform lsr label distribution procedure. -/
def assignLocalLabel (lde : Lde) (fec : Fec) (connected : Bool) : Lde :=
  let assigned := if connected then (lde, egressLabel lde fec)
    else ((ldeAssignLabel lde).1, some (ldeAssignLabel lde).2)
  match assigned.2 with
  | none => lde.fail .fatalx
  | some label =>
    let lde := assigned.1.updateNode fec fun fn => { fn with localLabel := label }
    lde.ldeNbrs.keys.foldl (fun lde peerid => ldeSendLabelmapping lde peerid fec true) lde

/-- The neighbor that `lde_kernel_insert` asks for a mapping of the FEC. -/
def ldeNbrFindOwner (lde : Lde) (fec : Fec) (nexthop : LdpdAddr) : Option (UInt32 × LdeNbr) :=
  match fec with
  | .ipv4 .. | .ipv6 .. => ldeNbrFindByAddr lde nexthop
  | .pwid _ _ lsrId => ldeNbrFindByLsrid lde lsrId

/-- FEC.2 and FEC.5: the neighbor a new nexthop belongs to may already have sent a mapping. -/
def useRecordedMapping (lde : Lde) (fec : Fec) (nexthop : LdpdAddr) : Lde :=
  match ldeNbrFindOwner lde fec nexthop with
  | none => lde
  | some (peerid, ln) =>
    match ln.recvMap[fec]? with
    | none => lde
    | some me => ldeCheckMapping lde me peerid

/-- `fn->data = data`, which is only done for a pseudowire. -/
def setData (lde : Lde) (fec : Fec) (data : Option Nat) : Lde :=
  match fec with
  | .pwid .. => lde.updateNode fec fun fn => { fn with data }
  | _ => lde

/-- The part of `lde_kernel_insert` that adds the nexthop. -/
def insertNexthop (lde : Lde) (fec : Fec) (fn : FecNode) (nexthop : LdpdAddr) (priority : UInt8)
    (connected : Bool) (data : Option Nat) : Lde :=
  let lde := setData lde fec data
  let lde := if fn.localLabel = noLabel then assignLocalLabel lde fec connected else lde
  let lde := fecNhAdd lde fec nexthop priority
  ldeSendChangeKlabel lde fec { nexthop, remoteLabel := noLabel, priority }

/-- `lde_kernel_insert`. -/
def ldeKernelInsert (lde : Lde) (fec : Fec) (nexthop : LdpdAddr) (priority : UInt8)
    (connected : Bool) (data : Option Nat) : Lde :=
  let lde := fecAdd lde fec
  match lde.ft[fec]? with
  | none => lde
  | some fn =>
    if (fecNhFind fn nexthop priority).isSome then lde
    else
      useRecordedMapping (insertNexthop lde fec fn nexthop priority connected data) fec nexthop

/-- The part of `lde_kernel_remove` for a FEC that has lost its last nexthop. -/
def retireFec (lde : Lde) (fec : Fec) : Lde :=
  let lde := ldeSendLabelwithdrawAll lde fec noLabel
  let lde := lde.updateNode fec fun fn => { fn with localLabel := noLabel }
  setData lde fec none

/-- `lde_kernel_remove`. -/
def ldeKernelRemove (lde : Lde) (fec : Fec) (nexthop : LdpdAddr) (priority : UInt8) : Lde :=
  match lde.ft[fec]? with
  | none => lde
  | some fn =>
    match fecNhFind fn nexthop priority with
    | none => lde
    | some fnh =>
      let lde := fecNhDel (ldeSendDeleteKlabel lde fec fnh) fec fnh
      if lde.nexthops fec = [] then retireFec lde fec else lde

/-! ### Label Request -/

/-- `lde_check_request`. -/
def ldeCheckRequest (lde : Lde) (map : Map) (peerid : UInt32) : Lde :=
  match lde.ldeNbrs[peerid]? with
  | none => lde
  | some ln =>
    let fec := ldeMap2fec map ln.id
    -- LRq.2: is there a next hop for fec?
    if lde.nexthops fec = [] then
      ldeSendNotification lde peerid sNoRoute map.msgId msgTypeLabelrequest
    else
      let loops := match fec with
        | .pwid .. => false
        | _ => (lde.nexthops fec).any fun fnh => ldeAddressFind ln fnh.nexthop
      -- LRq.3: is MsgSource the next hop?
      if loops then ldeSendNotification lde peerid sLoopDetected map.msgId msgTypeLabelrequest
      -- LRq.7: duplicate request
      else if fec ∈ ln.recvReq then lde
      else
        -- LRq.8: record label request
        let lde := lde.updateNbr peerid fun ln =>
          { ln with recvReq := ln.recvReq.insert fec map.msgId }
        ldeSendLabelmapping lde peerid fec true

/-! ### Label Release -/

/-- LRl.3 to LRl.6 for one FEC of the tree. -/
def releaseFec (peerid : UInt32) (label : UInt32) (lde : Lde) (fec : Fec) : Lde :=
  match lde.ldeNbrs[peerid]? with
  | none => lde
  | some ln =>
    -- LRl.4: delete record of outstanding label withdraw
    let lde := match ln.sentWdraw[fec]? with
      | some pending =>
        if label = noLabel ∨ (pending ≠ noLabel ∧ label = pending) then
          lde.updateNbr peerid fun ln => { ln with sentWdraw := ln.sentWdraw.erase fec }
        else lde
      | none => lde
    -- LRl.6: check sent map list and remove it if available
    match ln.sentMap[fec]? with
    | some me =>
      if label = noLabel ∨ label = me.label then ldeMapDel lde peerid fec true else lde
    | none => lde

/-- `lde_check_release`. -/
def ldeCheckRelease (lde : Lde) (map : Map) (peerid : UInt32) : Lde :=
  match lde.ldeNbrs[peerid]? with
  | none => lde
  | some ln =>
    match map.fec, map.flags.pwId with
    | .pwid .., false => lde
    | _, _ =>
      let fec := ldeMap2fec map ln.id
      -- LRl.1: does FEC match a known FEC?
      if fec ∈ lde.ft then releaseFec peerid map.label lde fec else lde

/-- `lde_check_release_wcard`. -/
def ldeCheckReleaseWcard (lde : Lde) (map : Map) (peerid : UInt32) : Lde :=
  lde.ft.keys.foldl (releaseFec peerid map.label) lde

/-! ### Label Withdraw -/

/-- LWd.3 and LWd.4: check previously received label mapping and remove its record. -/
def forgetMapping (peerid : UInt32) (label : UInt32) (lde : Lde) (fec : Fec) : Lde :=
  match (lde.ldeNbrs[peerid]?).bind fun ln => ln.recvMap[fec]? with
  | none => lde
  | some me => if label = noLabel ∨ label = me.label then ldeMapDel lde peerid fec false else lde

/-- The test of LWd.1 in `lde_check_withdraw`, which asks a pseudowire only to be
configured. -/
def withdrawsNexthop (ln : LdeNbr) (fec : Fec) (configured : Bool) (fnh : FecNh) : Bool :=
  match fec with
  | .ipv4 .. | .ipv6 .. => ldeAddressFind ln fnh.nexthop
  | .pwid .. => configured

/-- `lde_check_withdraw`. -/
def ldeCheckWithdraw (lde : Lde) (map : Map) (peerid : UInt32) : Lde :=
  match lde.ldeNbrs[peerid]? with
  | none => lde
  | some ln =>
    match map.fec, map.flags.pwId with
    | .pwid .., false => lde
    | _, _ =>
      let fec := ldeMap2fec map ln.id
      let lde := fecAdd lde fec
      let configured := ((lde.ft[fec]?).bind FecNode.data).isSome
      -- LWd.1: remove label from forwarding/switching use
      let lde := uninstallNexthops lde fec (withdrawsNexthop ln fec configured)
      -- LWd.2: send label release
      let lde := ldeSendLabelrelease lde peerid (some fec) map.label
      forgetMapping peerid map.label lde fec

/-- The body of the loop of `lde_check_withdraw_wcard`. -/
def withdrawFec (peerid : UInt32) (ln : LdeNbr) (label : UInt32) (lde : Lde) (fec : Fec) : Lde :=
  forgetMapping peerid label (uninstallNexthops lde fec (ownsNexthop ln fec)) fec

/-- `lde_check_withdraw_wcard`. -/
def ldeCheckWithdrawWcard (lde : Lde) (map : Map) (peerid : UInt32) : Lde :=
  match lde.ldeNbrs[peerid]? with
  | none => lde
  | some ln =>
    let lde := ldeSendLabelrelease lde peerid none map.label
    lde.ft.keys.foldl (withdrawFec peerid ln map.label) lde

/-! ### Addresses -/

/-- The body of the loop of `lde_nbr_addr_update`. Only the first nexthop with the address is
looked at. -/
def addrUpdateFec (addr : LdpdAddr) (removed : Bool) (lde : Lde) (entry : Fec × Map) : Lde :=
  if entry.1.af = some addr.af then
    match lde.ft[entry.1]? with
    | none => lde.fail .nullFec
    | some fn =>
      match fn.nexthops.find? fun fnh => fnh.nexthop = addr with
      | none => lde
      | some fnh =>
        if removed then uninstallNexthop entry.1 lde fnh
        else
          ldeSendChangeKlabel (lde.setRemoteLabel entry.1 fnh entry.2.label) entry.1
            { fnh with remoteLabel := entry.2.label }
  else lde

/-- `lde_nbr_addr_update`. -/
def ldeNbrAddrUpdate (lde : Lde) (ln : LdeNbr) (addr : LdpdAddr) (removed : Bool) : Lde :=
  ln.recvMap.toList.foldl (addrUpdateFec addr removed) lde

/-- `lde_address_add`. -/
def ldeAddressAdd (lde : Lde) (peerid : UInt32) (addr : LdpdAddr) : Lde :=
  match lde.ldeNbrs[peerid]? with
  | none => lde
  | some ln =>
    if ldeAddressFind ln addr then lde
    else
      let lde := lde.updateNbr peerid fun ln => { ln with addrList := ln.addrList ++ [addr] }
      ldeNbrAddrUpdate lde ln addr false

/-- `lde_address_del`. -/
def ldeAddressDel (lde : Lde) (peerid : UInt32) (addr : LdpdAddr) : Lde :=
  match lde.ldeNbrs[peerid]? with
  | none => lde
  | some ln =>
    if ldeAddressFind ln addr then
      let lde := ldeNbrAddrUpdate lde ln addr true
      lde.updateNbr peerid fun ln => { ln with addrList := ln.addrList.erase addr }
    else lde

/-! ### Neighbors -/

/-- `lde_nbr_new`. -/
def ldeNbrNew (lde : Lde) (peerid : UInt32) (id : InAddr) (v4Enabled v6Enabled : Bool) : Lde :=
  if peerid ∈ lde.ldeNbrs then lde.fail .fatalx
  else
    { lde with
      ldeNbrs := lde.ldeNbrs.insert peerid {
        id, v4Enabled, v6Enabled
        recvReq := ∅
        sentReq := ∅
        recvMap := ∅
        sentMap := ∅
        sentWdraw := ∅
        addrList := [] } }

/-- `l2vpn_pw_reset` of the pseudowire of a node, when it has one. -/
def resetPwOf (lde : Lde) (fec : Fec) : Lde :=
  match fec, (lde.ft[fec]?).bind FecNode.data with
  | .pwid .., some data => lde.updatePw data l2vpnPwReset
  | _, _ => lde

/-- Uninstall received mappings: the body of the inner loop of `lde_nbr_del`. -/
def downNexthop (fec : Fec) (lde : Lde) (fnh : FecNh) : Lde :=
  uninstallNexthop fec (resetPwOf lde fec) fnh

/-- Uninstall received mappings: the body of the outer loop of `lde_nbr_del`. -/
def downFec (ln : LdeNbr) (lde : Lde) (fec : Fec) : Lde :=
  ((lde.nexthops fec).filter (ownsNexthop ln fec)).foldl (downNexthop fec) lde

/-- `lde_nbr_del`. The lists of the FEC nodes lose the mappings of the neighbor before the
neighbor itself goes. -/
def ldeNbrDel (lde : Lde) (peerid : UInt32) : Lde :=
  match lde.ldeNbrs[peerid]? with
  | none => lde
  | some ln =>
    let lde := lde.ft.keys.foldl (downFec ln) lde
    let lde := ln.recvMap.keys.foldl (fun lde fec => ldeMapDel lde peerid fec false) lde
    let lde := ln.sentMap.keys.foldl (fun lde fec => ldeMapDel lde peerid fec true) lde
    { lde with ldeNbrs := lde.ldeNbrs.erase peerid }

/-- `fec_snap`. -/
def fecSnap (lde : Lde) (peerid : UInt32) : Lde :=
  let lde := lde.ft.keys.foldl (fun lde fec =>
    match lde.ft[fec]? with
    | some fn => if fn.localLabel = noLabel then lde else ldeSendLabelmapping lde peerid fec false
    | none => lde) lde
  lde.composeLdpe (.mappingAddEnd peerid)

/-! ### Pseudowires -/

/-- `l2vpn_recv_pw_status`. -/
def l2vpnRecvPwStatus (lde : Lde) (nm : NotifyMsg) (ln : LdeNbr) : Lde :=
  if nm.fec.flags.pwId then
    let fec := ldeMap2fec nm.fec ln.id
    match lde.ft[fec]? with
    | none => lde
    | some fn =>
      match fn.data with
      | none => lde
      | some data =>
        match fecNhFind fn (.v4 ln.id) 0, lde.pws[data]? with
        | none, _ => lde
        | some _, none => lde.fail .freedPw
        | some fnh, some pw =>
          if pw.remoteStatus = nm.pwStatus then lde
          else
            let lde := lde.updatePw data fun pw => { pw with remoteStatus := nm.pwStatus }
            if l2vpnPwOk lde { pw with remoteStatus := nm.pwStatus } fnh then ldeSendChangeKlabel lde fec fnh
            else ldeSendDeleteKlabel lde fec fnh
  else lde

/-- `l2vpn_pw_init`. -/
def l2vpnPwInit (lde : Lde) (data : Nat) : Lde :=
  match lde.pws[data]? with
  | none => lde
  | some pw =>
    ldeKernelInsert (lde.updatePw data l2vpnPwReset) (l2vpnPwFec lde pw) (.v4 pw.lsrId) 0 false
      (some data)

/-- `l2vpn_pw_exit`. -/
def l2vpnPwExit (lde : Lde) (data : Nat) : Lde :=
  match lde.pws[data]? with
  | none => lde
  | some pw => ldeKernelRemove lde (l2vpnPwFec lde pw) (.v4 pw.lsrId) 0

/-! ### Garbage collection -/

/-- The test of `lde_gc_timer`: nothing refers to the node any more. -/
def FecNode.dead (fn : FecNode) : Bool :=
  fn.nexthops.isEmpty && fn.downstream.isEmpty && fn.upstream.isEmpty

/-- The body of the loop of `lde_gc_timer`. -/
def gcFec (lde : Lde) (fec : Fec) : Lde :=
  match lde.ft[fec]? with
  | none => lde
  | some fn => if fn.dead then { lde with ft := lde.ft.erase fec } else lde

/-- `lde_gc_timer`. -/
def ldeGcTimer (lde : Lde) : Lde :=
  lde.ft.keys.foldl gcFec lde

end Ldpd
