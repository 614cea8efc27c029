/-
This file models `send_labelmessage`: the maps that are queued for a neighbor are
written one after the other into PDUs of the length that was negotiated, and every
PDU that is full is queued on the connection.

The loop of the source goes round again when a message does not fit what is left of a
PDU, so a message that fits no PDU at all keeps it going forever.
-/

import Ldpd.Ldpe.Decode

namespace Ldpd

open Bytes Code

/-! ### Messages -/

/-- `struct mapping_entry`. The peerid is that of the imsg that brought the map. -/
structure MappingEntry where
  peerid : UInt32
  map : Map
  deriving DecidableEq, Repr

/-- The size that `send_labelmessage` computes for a message. -/
def labelMsgSize (map : Map) : Nat :=
  ldpMsgSize + tlvHdrSize +
    (match map.fec with
      | .wildcard => fecElmWcardLen
      | .network _ prefixlen => fecElmPrefixMinLen + prefixSize prefixlen
      | .pwid .. => fecPwidElmMinLen + pwLen map.flags +
          if map.flags.pwStatus then pwStatusTlvSize else 0) +
    (if map.label ≠ noLabel then labelTlvSize else 0) +
    (if map.flags.reqId then reqidTlvSize else 0) +
    if map.flags.status then statusSize else 0

/-- Append message and TLVs. -/
def genLabelmessage (id : UInt32) (type : UInt16) (map : Map) (buf : Ibuf) : Ibuf :=
  let buf := genMsgHdr id type (UInt16.ofNat (labelMsgSize map)) buf
  let buf := genFecTlv map buf
  let buf := if map.label ≠ noLabel then genLabelTlv map.label buf else buf
  let buf := if map.flags.reqId then genReqidTlv map.requestid buf else buf
  let buf := if map.flags.pwStatus then genPwStatusTlv map.pwStatus buf else buf
  if map.flags.status then genStatusTlv map.st.statusCode map.st.msgId map.st.msgType buf else buf

/-! ### PDUs -/

/-- A PDU that is being written, and its size as it stands in the header in the end. -/
structure OpenPdu where
  buf : Ibuf
  size : Nat

/-- The PDU that a round of the loop starts with when `first` is set. -/
def openPdu (ldpe : Ldpe) : OpenPdu where
  buf := genLdpHdr ldpe.rtrId 0 { size := ldpe.nbr.maxPduLen.toNat + ldpHdrDeadLen }
  size := ldpHdrPduLen

/-- `enqueue_pdu`. -/
def enqueuePdu (ldpe : Ldpe) (pdu : OpenPdu) : Ldpe :=
  ldpe.enqueue { pdu.buf with
    bytes := pdu.buf.bytes.take 2 ++ put16 (UInt16.ofNat pdu.size) ++ pdu.buf.bytes.drop 4 }

/-! ### The loop -/

/-- A function that sends the maps of a list. Its trace has the maps that it has written. -/
abbrev Sender := Code MappingEntry Ldpe

/-- The locals of the loop: the list, and the PDU unless `first` is set. -/
structure SendLocals where
  mh : List MappingEntry
  pdu : Option OpenPdu := none

/-- One round of the loop. When the list is empty the loop is left with the last PDU. -/
def labelRound (type : UInt16) (locals : SendLocals) : Sender (SendLocals ⊕ Option OpenPdu) := do
  match locals.mh with
  | [] => return .inr locals.pdu
  | me :: rest =>
    let ldpe ← look
    let pdu := locals.pdu.getD (openPdu ldpe)
    let msgSize := labelMsgSize me.map
    if ldpe.nbr.maxPduLen.toNat < pdu.size + msgSize then
      change fun ldpe => enqueuePdu ldpe pdu
      return .inl { mh := locals.mh }
    else
      change fun ldpe => { ldpe with msgcnt := ldpe.msgcnt + 1 }
      let buf := genLabelmessage (ldpe.msgcnt + 1) type me.map pdu.buf
      if buf.err then giveUp
      else
        log me
        return .inl { mh := rest, pdu := some { buf, size := pdu.size + msgSize } }

/-- `send_labelmessage`. Whichever way it returns, the list is empty then. -/
def sendLabelmessage (fuel : Nat) (type : UInt16) (mh : List MappingEntry) : Sender Unit :=
  if mh = [] then return ()
  else returned do
    let pdu ← loop (labelRound type) fuel { mh }
    change fun ldpe => nbrFsm ((pdu.map (enqueuePdu ldpe)).getD ldpe) .pduSent

/-! ### Rounds -/

/-- What a round does with the next map: the PDU is full, or there is no room in its buffer, or the
map is written. -/
theorem labelRound_cons (type : UInt16) (me : MappingEntry) (rest : List MappingEntry)
    (opened : Option OpenPdu) (ldpe : Ldpe) :
    labelRound type { mh := me :: rest, pdu := opened } ldpe =
      let pdu := opened.getD (openPdu ldpe)
      let buf := genLabelmessage (ldpe.msgcnt + 1) type me.map pdu.buf
      let counted := { ldpe with msgcnt := ldpe.msgcnt + 1 }
      if ldpe.nbr.maxPduLen.toNat < pdu.size + labelMsgSize me.map then
        ⟨[], .ret (some (.inl { mh := me :: rest }), enqueuePdu ldpe pdu)⟩
      else if buf.err then ⟨[], .ret (none, counted)⟩
      else ⟨[me], .ret (some (.inl
        { mh := rest, pdu := some { buf, size := pdu.size + labelMsgSize me.map } }), counted)⟩ := by
  show (look >>= fun ldpe => _) ldpe = _
  rw [bind_ret rfl, Execution.prepend_nil]
  dsimp only
  split
  · rfl
  · rw [bind_ret rfl, Execution.prepend_nil]
    split
    · rfl
    · rfl

end Ldpd
