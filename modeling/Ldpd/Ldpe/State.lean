/-
This file is the LDP engine as one of its sessions sees it: the neighbor at the other
end with its connection and its timers, the parts of the configuration the session
reads, and the two ways out, the buffers queued for the peer and the pipe to the
label decision engine.

What the engine writes on that pipe is what the label decision engine reacts to, so
the pipe carries the events of the latter.
-/

import Ldpd.Lde.Step
import Ldpd.Ldpe.Wire

namespace Ldpd

open Bytes

/-! ### Records -/

/-- The states of a neighbor, `NBR_STA_PRESENT` to `NBR_STA_OPER`. -/
inductive NbrState where
  | present
  | initial
  | openrec
  | opensent
  | oper
  deriving DecidableEq, Repr

/-- `struct tcp_conn`: the bytes that have been read from the connection and not yet been used,
the first `wpos` bytes of its read buffer. -/
structure TcpConn where
  rbuf : List UInt8 := []

/-- `struct nbr`: what the session functions use of it. A timer is whether it is pending. -/
structure Nbr where
  tcp : Option TcpConn
  peerid : UInt32
  af : Af
  v4Enabled : Bool
  v6Enabled : Bool
  id : InAddr
  state : NbrState
  idtimerCnt : Nat
  keepalive : UInt16
  maxPduLen : UInt16
  keepaliveTimer : Bool
  keepaliveTimeout : Bool
  initTimeout : Bool
  initdelayTimer : Bool

/-- The LDP engine, seen from one neighbor. `peercnt` and `msgcnt` are static counters, `peerids`
the ids of the other neighbors, and `addrList` the addresses of the interfaces. -/
structure Ldpe where
  rtrId : InAddr
  nbrKeepalive : Option UInt16
  afKeepalive : Af → UInt16
  addrList : List LdpdAddr
  peercnt : UInt32
  peerids : List UInt32
  msgcnt : UInt32
  nbr : Nbr
  sent : List (List UInt8)
  toLde : List LdeEvent
  fault : Bool

/-- Change the neighbor in place. -/
def Ldpe.updateNbr (ldpe : Ldpe) (change : Nbr → Nbr) : Ldpe :=
  { ldpe with nbr := change ldpe.nbr }

/-- `ldpe_imsg_compose_lde`. -/
def Ldpe.composeLde (ldpe : Ldpe) (imsg : LdeEvent) : Ldpe :=
  { ldpe with toLde := ldpe.toLde ++ [imsg] }

/-- `evbuf_enqueue(&nbr->tcp->wbuf, buf)`. -/
def Ldpe.enqueue (ldpe : Ldpe) (buf : Ibuf) : Ldpe :=
  match ldpe.nbr.tcp with
  | none => { ldpe with fault := true }
  | some _ => { ldpe with sent := ldpe.sent ++ [buf.bytes] }

/-- `ibuf_open` of a size, and the two headers in front of a message: one PDU with one message
that fills it. The counter of messages moves on. -/
def Ldpe.openMessage (ldpe : Ldpe) (type size : UInt16) : Ldpe × Ibuf :=
  let id := ldpe.msgcnt + 1
  let buf := genLdpHdr ldpe.rtrId size { size := size.toNat }
  ({ ldpe with msgcnt := id }, genMsgHdr id type (size - 10) buf)

/-! ### Senders -/

/-- `nbr_get_keepalive`, for the neighbor of the session. -/
def nbrGetKeepalive (ldpe : Ldpe) : UInt16 :=
  ldpe.nbrKeepalive.getD (ldpe.afKeepalive ldpe.nbr.af)

/-- `gen_init_prms_tlv`. -/
def genInitPrmsTlv (ldpe : Ldpe) (buf : Ibuf) : Ibuf :=
  buf.add (put16 tlvTypeCommonsession ++ put16 14 ++ put16 ldpVersion ++
    put16 (nbrGetKeepalive ldpe) ++ [0, 0] ++ put16 0 ++ put32 ldpe.nbr.id ++ put16 0)

/-- `send_init`. -/
def sendInit (ldpe : Ldpe) : Ldpe :=
  let opened := ldpe.openMessage msgTypeInit 36
  let buf := genInitPrmsTlv ldpe opened.2
  if buf.err then opened.1 else opened.1.enqueue buf

/-- `send_keepalive`. -/
def sendKeepalive (ldpe : Ldpe) : Ldpe :=
  let opened := ldpe.openMessage msgTypeKeepalive 18
  opened.1.enqueue opened.2

/-- The room that `send_notification_full` computes for a notification. -/
def notificationSize (nm : NotifyMsg) : Nat :=
  ldpHdrSize + ldpMsgSize + statusSize + (if nm.hasPwStatus then pwStatusTlvSize else 0) +
    if nm.hasFec then
      tlvHdrSize + match nm.fec.fec with
        | .pwid .. => fecPwidElmMinLen + if nm.fec.flags.pwId then 4 else 0
        | _ => 0
    else 0

/-- `send_notification_full`, on the connection of the neighbor. -/
def sendNotificationFull (ldpe : Ldpe) (nm : NotifyMsg) : Ldpe :=
  let opened := ldpe.openMessage msgTypeNotification (UInt16.ofNat (notificationSize nm))
  let buf := genStatusTlv nm.statusCode nm.msgId nm.msgType opened.2
  let buf := if nm.hasPwStatus then genPwStatusTlv nm.pwStatus buf else buf
  let buf := if nm.hasFec then genFecTlv nm.fec buf else buf
  if buf.err then opened.1 else opened.1.enqueue buf

/-- The size of an address. -/
def Af.addrSize : Af → Nat
  | .inet => 4
  | .inet6 => 16

/-- `gen_address_list_tlv` for the addresses it writes. -/
def genAddressListTlv (size : UInt16) (af : Af) (addrs : List LdpdAddr) (buf : Ibuf) : Ibuf :=
  addrs.foldl (fun buf addr => buf.add addr.bytes)
    (buf.add (put16 tlvTypeAddrlist ++ put16 (size - 4) ++ put16 af.family))

/-- The addresses that one round of `send_address` writes and removes. The counter is decremented
before it is compared with zero, so a count of zero stands for all of them. -/
def addressBatch (maxPduLen : UInt16) (af : Af) (addrs : List LdpdAddr) : Nat :=
  let size := ldpHdrSize + ldpMsgSize + addrListSize
  let count := if size + addrs.length * af.addrSize ≤ maxPduLen.toNat then addrs.length
    else (maxPduLen.toNat - size) / af.addrSize
  if count = 0 then addrs.length else count

/-- `send_address` before it tells the state machine, with `addr_count` the number of addresses
left. A round takes at least one address, so there are no more rounds than addresses. -/
def sendAddressRounds (af : Af) (withdraw : Bool) : Nat → List LdpdAddr → Ldpe → Ldpe
  | 0, _, ldpe => ldpe
  | _ + 1, [], ldpe => ldpe
  | rounds + 1, addr :: rest, ldpe =>
    let addrs := addr :: rest
    let count := addressBatch ldpe.nbr.maxPduLen af addrs
    let size := ldpHdrSize + ldpMsgSize + addrListSize + count * af.addrSize
    let type := if withdraw then msgTypeAddrwithdraw else msgTypeAddr
    let opened := ldpe.openMessage type (UInt16.ofNat size)
    let buf := genAddressListTlv (UInt16.ofNat (size - 18)) af (addrs.take count) opened.2
    if buf.err then opened.1
    else sendAddressRounds af withdraw rounds (addrs.drop count) (opened.1.enqueue buf)

end Ldpd
