/-
This file models how the bytes of a connection become messages: `session_get_pdu`
cuts the read buffer into PDUs, and `session_read` walks the messages of each PDU and
hands them to the parsers.
-/

import Ldpd.Ldpe.Decode

namespace Ldpd

open Bytes Code

/-! ### What a session does -/

/-- A stretch of a PDU, given by how many bytes are left of the PDU at its start and at its end. -/
structure Stretch where
  top : Nat
  after : Nat
  deriving DecidableEq, Repr

/-- What happens while a session reads: an access to the PDU while a stretch of it is being looked
at, or a message that is handed to its parser. -/
inductive SessionEvent where
  | access (stretch : Stretch) (access : Access)
  | dispatch (message : List UInt8)
  deriving DecidableEq, Repr

/-- A function of the session layer. To give up is to `return` early. -/
abbrev Session := Code SessionEvent Ldpe

/-- Run a parser on a stretch of a PDU. -/
def within {Value : Type} (stretch : Stretch) (parser : Parser Value) : Session Value :=
  mapEvents (SessionEvent.access stretch) parser

/-! ### Messages -/

/-- Check for error conditions earlier: the states in which a message of a type is welcome. -/
def messageAllowed (state : NbrState) (type : UInt16) : Bool :=
  if type = msgTypeInit then state = .initial ∨ state = .opensent
  else if type = msgTypeKeepalive then state ≠ .initial ∧ state ≠ .opensent
  else if type ∈ [msgTypeAddr, msgTypeAddrwithdraw, msgTypeLabelmapping, msgTypeLabelrequest,
      msgTypeLabelwithdraw, msgTypeLabelrelease, msgTypeLabelabortreq] then state = .oper
  else true

/-- The message types that `recv_labelmessage` receives. -/
def labelTypes : List UInt16 :=
  [msgTypeLabelmapping, msgTypeLabelrequest, msgTypeLabelwithdraw, msgTypeLabelrelease,
    msgTypeLabelabortreq]

/-- Switch LDP packet type. -/
def recvMessage (fuel : Nat) (msg : LdpMsg) (buf : List UInt8) (size : Nat) : Parser Unit :=
  if msg.type = msgTypeNotification then recvNotification fuel buf size
  else if msg.type = msgTypeInit then recvInit fuel buf size
  else if msg.type = msgTypeKeepalive then recvKeepalive buf size
  else if msg.type = msgTypeAddr ∨ msg.type = msgTypeAddrwithdraw then recvAddress fuel buf size
  else if msg.type ∈ labelTypes then recvLabelmessage fuel buf size msg.type
  else if msg.type &&& unknownFlag = 0 then notify sUnknownMsg msg
  else pure ()

/-- The locals of the loop over the messages of a PDU. -/
structure MsgLocals where
  pdu : List UInt8
  len : Nat
  pduLen : Nat

/-- One round of the loop over the messages of a PDU. -/
def messageRound (fuel : Nat) (locals : MsgLocals) : Session (MsgLocals ⊕ Nat) := do
  let left := locals.pdu.length
  if locals.len < ldpMsgSize then return .inr locals.len
  else
    let header : Stretch := ⟨left, left - ldpMsgSize⟩
    let msg ← within header (readMem 8 getLdpMsg locals.pdu)
    if msg.length.toNat < ldpMsgLen ∨ locals.pduLen < msg.length.toNat + ldpMsgDeadLen then
      within header (shutdown sBadTlvLen msg)
    else
      let size := msg.length.toNat + ldpMsgDeadLen
      let message : Stretch := ⟨left, left - size⟩
      let pduLen ← within message (subtract 16 locals.pduLen size)
      let ldpe ← look
      if messageAllowed ldpe.nbr.state msg.type then
        log (.dispatch (locals.pdu.take size))
        within message (recvMessage fuel msg locals.pdu size)
        return .inl { pdu := locals.pdu.drop size, len := locals.len - size, pduLen }
      else within message (shutdown sShutdown msg)

/-! ### PDUs -/

/-- `session_get_pdu`: the first PDU of the read buffer, if it is complete, and what follows it.
The memory for it is taken to be there. -/
def sessionGetPdu (rbuf : List UInt8) : Option (List UInt8 × List UInt8) :=
  if rbuf.length < ldpHdrSize then none
  else
    let dlen := (get16 (rbuf.drop 2)).toNat + ldpHdrDeadLen
    if rbuf.length < dlen then none else some (rbuf.take dlen, rbuf.drop dlen)

/-- `session_shutdown(nbr, status, 0, 0); return`. -/
def sessionFail (pdu : Stretch) (status : UInt32) : Session Unit :=
  within pdu (shutdown status ⟨0, 0, 0⟩)

/-- The body of the loop of `session_read`, for one PDU. -/
def sessionPdu (fuel : Nat) (pdu : List UInt8) : Session Unit := do
  let whole : Stretch := ⟨pdu.length, 0⟩
  let (version, length) ← within whole
    (readMem 4 (fun bytes => (get16 bytes, get16 (bytes.drop 2))) pdu)
  if version ≠ ldpVersion then sessionFail whole sBadProtoVer
  else
    let ldpe ← look
    let maxPduLen := if ldpe.nbr.state = .oper then ldpe.nbr.maxPduLen else ldpMaxLen
    if length.toNat < ldpHdrPduLen + ldpMsgSize ∨ maxPduLen < length then
      sessionFail whole sBadPduLen
    else
      let pduLen ← within whole (subtract 16 length.toNat ldpHdrPduLen)
      let (lsrId, lspaceId) ← within whole
        (readMem 6 (fun bytes => (get32 bytes, get16 (bytes.drop 4))) (pdu.drop 4))
      if lsrId ≠ ldpe.nbr.id ∨ lspaceId ≠ 0 then sessionFail whole sBadLdpId
      else
        change fun ldpe => nbrFsm ldpe .pduRcvd
        let left ← loop (messageRound fuel) fuel {
          pdu := pdu.drop ldpHdrSize
          len := pdu.length - ldpHdrSize
          pduLen }
        if left ≠ 0 then sessionFail whole sBadPduLen else return ()

/-- Change the read buffer of the connection in place. -/
def Ldpe.setRbuf (ldpe : Ldpe) (rbuf : List UInt8) : Ldpe :=
  ldpe.updateNbr fun nbr => { nbr with tcp := some { rbuf } }

/-- One round of the loop of `session_read`. -/
def pduRound (fuel : Nat) (_ : Unit) : Session (Unit ⊕ Unit) := do
  let ldpe ← look
  match ldpe.nbr.tcp with
  | none => within ⟨0, 0⟩ undefinedBehaviour
  | some tcp =>
    match sessionGetPdu tcp.rbuf with
    | none => return .inr ()
    | some (pdu, rest) =>
      change fun ldpe => ldpe.setRbuf rest
      sessionPdu fuel pdu
      return .inl ()

/-! ### The connection -/

/-- What `read` on the connection comes back with: it is to be tried again, it has failed or the
peer has closed the connection, or there is data. -/
inductive ReadResult where
  | again
  | closed
  | data (bytes : List UInt8)

/-- `session_read`. -/
def sessionRead (fuel : Nat) : ReadResult → Session Unit
  | .again => return ()
  | .closed => change fun ldpe => nbrFsm ldpe .closeSession
  | .data bytes => returned do
    let ldpe ← look
    match ldpe.nbr.tcp with
    | none => within ⟨0, 0⟩ undefinedBehaviour
    | some tcp =>
      change fun ldpe => ldpe.setRbuf (tcp.rbuf ++ bytes)
      loop (pduRound fuel) fuel ()

/-! ### A session -/

/-- An operational session with a neighbor that takes both families. -/
def operSession : Ldpe where
  rtrId := 0x0a000001
  nbrKeepalive := none
  afKeepalive _ := 180
  addrList := []
  peercnt := 1
  peerids := []
  msgcnt := 0
  nbr := {
    tcp := some {}
    peerid := 1
    af := .inet
    v4Enabled := true
    v6Enabled := true
    id := 0x0a000002
    state := .oper
    idtimerCnt := 0
    keepalive := 180
    maxPduLen := ldpMaxLen
    keepaliveTimer := true
    keepaliveTimeout := true
    initTimeout := false
    initdelayTimer := false }
  sent := []
  toLde := []
  fault := false

end Ldpd
