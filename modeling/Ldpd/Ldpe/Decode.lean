/-
This file models the parsers of session messages: the FEC elements and the label TLV,
and the functions that receive label, notification, address, initialization and
keepalive messages.

A pointer into the message is the rest of the PDU from there on, so that a read past
the end of the message is seen to be one, and a read past the end of the PDU, which
is a buffer of its own, has no meaning. Lengths are numbers below the modulus of
their C type, and every subtraction from one is recorded.
-/

import Ldpd.Ldpe.Neighbor
import Ldpd.Library.Code

namespace Ldpd

open Bytes Code

/-! ### Memory -/

/-- What a parser does that could go wrong: it reads some bytes where so many are left of the PDU,
takes an amount off a length, or copies and masks a prefix that is longer than an address. -/
inductive Access where
  | read (left size : Nat)
  | subtract (counter amount : Nat)
  | overlong (prefixlen : UInt8)
  deriving DecidableEq, Repr

/-- A parser of session messages. To give up is to `return (-1)`. -/
abbrev Parser := Code Access Ldpe

/-- `memcpy(&value, buf, size)`, with what the bytes stand for. -/
def readMem {Value : Type} (size : Nat) (decode : List UInt8 → Value) (buf : List UInt8) :
    Parser Value := fun ldpe =>
  ⟨[.read buf.length size],
    if size ≤ buf.length then .ret (some (decode buf), ldpe) else .undefined⟩

/-- `counter -= amount`, for an unsigned counter of the given width. -/
def subtract (width counter amount : Nat) : Parser Nat := fun ldpe =>
  ⟨[.subtract counter amount],
    .ret (some ((counter + 2 ^ width - amount % 2 ^ width) % 2 ^ width), ldpe)⟩

/-- `counter -= amount`, for an `int` that is only compared with zero afterwards. -/
def subtractInt (counter amount : Nat) : Parser Nat := fun ldpe =>
  ⟨[.subtract counter amount], .ret (some (counter - amount), ldpe)⟩

/-- Behaviour that C leaves undefined. -/
def undefinedBehaviour {Value : Type} : Parser Value := fun _ => ⟨[], .undefined⟩

/-! ### Headers -/

/-- `struct ldp_msg`. -/
structure LdpMsg where
  type : UInt16
  length : UInt16
  id : UInt32
  deriving DecidableEq, Repr

/-- `struct tlv`. -/
structure Tlv where
  type : UInt16
  length : UInt16
  deriving DecidableEq, Repr

/-- `struct subtlv`. -/
structure Subtlv where
  type : UInt8
  length : UInt8
  deriving DecidableEq, Repr

def getLdpMsg (bytes : List UInt8) : LdpMsg :=
  ⟨get16 bytes, get16 (bytes.drop 2), get32 (bytes.drop 4)⟩

def getTlv (bytes : List UInt8) : Tlv :=
  ⟨get16 bytes, get16 (bytes.drop 2)⟩

def getSubtlv (bytes : List UInt8) : Subtlv :=
  ⟨get8 bytes, get8 (bytes.drop 1)⟩

/-! ### Replies -/

/-- What a parser does about a message before it has come to its end: `session_shutdown`,
`send_notification_nbr`, or pass an address on to the label decision engine. -/
inductive Reply where
  | shutdown (status : UInt32) (msg : LdpMsg)
  | notify (status : UInt32) (msg : LdpMsg)
  | address (msg : LdpMsg) (addr : LdpdAddr)
  deriving DecidableEq, Repr

/-- Carry out a reply. -/
def say (ldpe : Ldpe) : Reply → Ldpe
  | .shutdown status msg => sessionShutdown ldpe status msg.id msg.type
  | .notify status msg => sendNotificationNbr ldpe status msg.id msg.type
  | .address msg addr =>
    ldpe.composeLde (if msg.type = msgTypeAddr then .addressAdd ldpe.nbr.peerid addr
      else .addressDel ldpe.nbr.peerid addr)

/-- `session_shutdown(nbr, status, msg.id, msg.type); return (-1)`. -/
def shutdown {Value : Type} (status : UInt32) (msg : LdpMsg) : Parser Value :=
  (change fun ldpe => say ldpe (.shutdown status msg)) >>= fun _ => giveUp

/-- `send_notification_nbr(nbr, status, msg.id, msg.type); return (-1)`. -/
def refuse {Value : Type} (status : UInt32) (msg : LdpMsg) : Parser Value :=
  (change fun ldpe => say ldpe (.notify status msg)) >>= fun _ => giveUp

/-- `send_notification_nbr(nbr, status, msg.id, msg.type)`. -/
def notify (status : UInt32) (msg : LdpMsg) : Parser Unit :=
  change fun ldpe => say ldpe (.notify status msg)

/-! ### FEC elements -/

/-- The part of a `struct map` that `tlv_decode_fec_elm` writes. The two last fields are the bytes
of the union where a pseudowire has its id and its MTU, which an element may leave as they are. -/
structure FecBuf where
  fec : MapFec := .wildcard
  flags : MapFlags := {}
  pwid : UInt32 := 0
  ifmtu : UInt16 := 0
  deriving DecidableEq, Repr

/-- The address family of a number on the wire. -/
def afOfFamily (family : UInt16) : Option Af :=
  if family = afIpv4 then some .inet else if family = afIpv6 then some .inet6 else none

/-- A prefix in the union. The address lies over the id and the MTU of a pseudowire, on a
little-endian host. -/
def FecBuf.setPrefix (old : FecBuf) (addr : LdpdAddr) (prefixlen : UInt8) : FecBuf :=
  { old with
    fec := .network addr prefixlen
    pwid := get32 (addr.bytes.take 4).reverse
    ifmtu := get16 ((addr.bytes.drop 8).take 2).reverse }

/-- A prefix that has been copied into the union from the given bytes. A mask for IPv4 leaves those
behind the address as they are. -/
def FecBuf.setCopied (old : FecBuf) (addr : LdpdAddr) (prefixlen : UInt8) (bytes : List UInt8) :
    FecBuf :=
  match addr with
  | .v4 _ =>
    { old.setPrefix addr prefixlen with ifmtu := get16 ((bytes.drop 8).take 2).reverse }
  | .v6 _ => old.setPrefix addr prefixlen

/-- A pseudowire in the union, with the id and the MTU that are there. -/
def FecBuf.setPwid (old : FecBuf) (type : UInt16) (groupId : UInt32) : FecBuf :=
  { old with fec := .pwid type old.pwid groupId old.ifmtu }

/-- Leave a note of a prefix that is longer than an address. -/
def noteOverlong (af : Af) (prefixlen : UInt8) : Parser Unit :=
  if af.maxPrefixlen < prefixlen then log (.overlong prefixlen) else pure ()

/-- The prefix length that is in the union after the bytes of a prefix have been copied there. It
lies behind the sixteen bytes of the address, where the copy of a longer prefix overwrites it. -/
def copiedPrefixlen (prefixlen : UInt8) (bytes : List UInt8) : UInt8 :=
  if 16 < prefixSize prefixlen then get8 (bytes.drop 16) else prefixlen

/-- The `MAP_TYPE_PREFIX` case of `tlv_decode_fec_elm`. There is no check of the prefix length. A
prefix longer than an address runs over its end or has no mask, which C leaves undefined; what is
done then is what the machine does, with the shift of a word modulo its width. -/
def decodePrefixElm (msg : LdpMsg) (buf : List UInt8) (len : Nat) (old : FecBuf) :
    Parser (Nat × FecBuf) := do
  if len < fecElmPrefixMinLen then shutdown sBadTlvLen msg
  else
    let family ← readMem 2 get16 (buf.drop 1)
    match afOfFamily family with
    | none => refuse sUnsupAddr msg
    | some af =>
      let prefixlen ← readMem 1 get8 (buf.drop 3)
      if len < fecElmPrefixMinLen + prefixSize prefixlen then shutdown sBadTlvLen msg
      else
        let bytes ← readMem (prefixSize prefixlen) (List.take (prefixSize prefixlen)) (buf.drop 4)
        noteOverlong af prefixlen
        let prefixlen := copiedPrefixlen prefixlen bytes
        let addr := ldpApplymask (addrOfBytes af bytes) prefixlen
        return (fecElmPrefixMinLen + prefixSize prefixlen, old.setCopied addr prefixlen bytes)

/-- The locals of the loop over the interface parameters. -/
structure SubtlvLocals where
  buf : List UInt8
  off : Nat
  pwLen : Nat
  flags : MapFlags
  ifmtu : UInt16

/-- One round of the loop over the interface parameters. -/
def subtlvRound (msg : LdpMsg) (locals : SubtlvLocals) :
    Parser (SubtlvLocals ⊕ SubtlvLocals) := do
  if locals.pwLen = 0 then return .inr locals
  else if locals.pwLen < subtlvHdrSize then shutdown sBadTlvLen msg
  else
    let stlv ← readMem 2 getSubtlv locals.buf
    if locals.pwLen < stlv.length.toNat then shutdown sBadTlvLen msg
    else if stlv.type = subtlvIfmtu then
      if stlv.length.toNat ≠ fecSubtlvIfmtuSize then shutdown sBadTlvLen msg
      else
        let ifmtu ← readMem 2 get16 (locals.buf.drop subtlvHdrSize)
        let pwLen ← subtract 8 locals.pwLen stlv.length.toNat
        return .inl {
          buf := locals.buf.drop stlv.length.toNat
          off := locals.off + stlv.length.toNat
          pwLen
          flags := { locals.flags with pwIfmtu := true }
          ifmtu }
    else
      let pwLen ← subtract 8 locals.pwLen stlv.length.toNat
      return .inl {
        locals with
        buf := locals.buf.drop stlv.length.toNat
        off := locals.off + stlv.length.toNat
        pwLen }

/-- The `MAP_TYPE_PWID` case of `tlv_decode_fec_elm`. -/
def decodePwidElm (fuel : Nat) (msg : LdpMsg) (buf : List UInt8) (len : Nat) (old : FecBuf) :
    Parser (Nat × FecBuf) := do
  if len < fecPwidElmMinLen then shutdown sBadTlvLen msg
  else
    let type ← readMem 2 get16 (buf.drop 1)
    let pwLen ← readMem 1 get8 (buf.drop 3)
    if len ≠ fecPwidElmMinLen + pwLen.toNat then shutdown sBadTlvLen msg
    else
      let groupId ← readMem 4 get32 (buf.drop 4)
      let flags := if type &&& controlWordFlag ≠ 0 then { old.flags with pwCword := true }
        else old.flags
      let type := type &&& ~~~controlWordFlag
      if pwLen = 0 then return (fecPwidElmMinLen, { old with flags }.setPwid type groupId)
      else if pwLen.toNat < 4 then shutdown sBadTlvLen msg
      else
        let pwid ← readMem 4 get32 (buf.drop 8)
        let pwLen ← subtract 8 pwLen.toNat 4
        let locals ← loop (subtlvRound msg) fuel {
          buf := buf.drop 12
          off := 12
          pwLen
          flags := { flags with pwId := true }
          ifmtu := old.ifmtu }
        return (locals.off,
          { old with flags := locals.flags, pwid, ifmtu := locals.ifmtu }.setPwid type groupId)

/-- `tlv_decode_fec_elm`: the bytes it has used, and what it has filled in. -/
def tlvDecodeFecElm (fuel : Nat) (msg : LdpMsg) (buf : List UInt8) (len : Nat) (old : FecBuf) :
    Parser (Nat × FecBuf) := do
  let type ← readMem 1 get8 buf
  if type = mapTypeWildcard then
    if len = fecElmWcardLen then return (1, { old with fec := .wildcard })
    else shutdown sBadTlvVal msg
  else if type = mapTypePrefix then decodePrefixElm msg buf len old
  else if type = mapTypePwid then decodePwidElm fuel msg buf len old
  else refuse sUnknownFec msg

/-! ### TLVs -/

/-- The locals of a loop over TLVs. -/
structure TlvLocals (Found : Type) where
  buf : List UInt8
  len : Nat
  found : Found

/-- One round of the loop over the optional parameters, which three of the parsers have. They
differ in what they do with one TLV, whose value starts at the pointer. -/
def tlvRound {Found : Type} (msg : LdpMsg) (handle : Tlv → List UInt8 → Found → Parser Found)
    (locals : TlvLocals Found) : Parser (TlvLocals Found ⊕ Found) := do
  if locals.len = 0 then return .inr locals.found
  else if locals.len < tlvHdrSize then shutdown sBadTlvLen msg
  else
    let tlv ← readMem 4 getTlv locals.buf
    if locals.len < tlv.length.toNat + tlvHdrSize then shutdown sBadTlvLen msg
    else
      let len ← subtract 16 locals.len tlvHdrSize
      let found ← handle tlv (locals.buf.drop tlvHdrSize) locals.found
      let len ← subtract 16 len tlv.length.toNat
      return .inl {
        buf := locals.buf.drop (tlvHdrSize + tlv.length.toNat)
        len
        found }

/-- An unknown TLV is ignored, and answered unless it has the U bit. -/
def unknownTlv (msg : LdpMsg) (tlv : Tlv) : Parser Unit :=
  if tlv.type &&& unknownFlag = 0 then notify sUnknownTlv msg else pure ()

/-- A label that `tlv_decode_label` takes. -/
def labelOk (label : UInt32) : Bool :=
  label ≤ mplsLabelMax ∧
    (mplsLabelReservedMax < label ∨ label = mplsLabelIpv4null ∨ label = mplsLabelIpv6null ∨
      label = mplsLabelImplnull)

/-- `tlv_decode_label`. It uses the eight bytes of the TLV. -/
def tlvDecodeLabel (msg : LdpMsg) (buf : List UInt8) (len : Nat) : Parser UInt32 := do
  if len < labelTlvSize then shutdown sBadTlvLen msg
  else
    let (tlv, label) ← readMem 8 (fun bytes => (getTlv bytes, get32 (bytes.drop 4))) buf
    if tlv.type &&& tlvTypeGenericlabel = 0 then refuse sMissMsg msg
    else if tlv.type = tlvTypeGenericlabel then
      if tlv.length.toNat ≠ labelTlvLen then shutdown sBadTlvLen msg
      else if labelOk label then return label
      else shutdown sBadTlvVal msg
    else shutdown sBadTlvVal msg

/-! ### Label messages -/

/-- The locals of the loop over the FEC elements. -/
structure FecLocals where
  buf : List UInt8
  len : Nat
  feclen : Nat
  maps : List FecBuf

/-- The wildcard FEC element can be used only in the Label Withdraw and Label Release messages. -/
def wildcardMisplaced (type : UInt16) (fec : MapFec) : Bool :=
  fec = .wildcard ∧ (type = msgTypeLabelmapping ∨ type = msgTypeLabelrequest ∨
    type = msgTypeLabelabortreq)

/-- `map.type == MAP_TYPE_PWID`. -/
def MapFec.isPwid : MapFec → Bool
  | .pwid .. => true
  | _ => false

/-- Only a Label Withdraw or a Label Release may leave out the id of a pseudowire. -/
def pwidMissing (type : UInt16) (map : FecBuf) : Bool :=
  map.fec.isPwid ∧ ¬map.flags.pwId ∧ type ≠ msgTypeLabelwithdraw ∧ type ≠ msgTypeLabelrelease

/-- One round of the loop over the FEC elements. -/
def fecRound (fuel : Nat) (msg : LdpMsg) (type : UInt16) (locals : FecLocals) :
    Parser (FecLocals ⊕ FecLocals) := do
  let (tlen, map) ← tlvDecodeFecElm fuel msg locals.buf locals.feclen {}
  if pwidMissing type map then refuse sMissMsg msg
  else if wildcardMisplaced type map.fec then shutdown sUnknownFec msg
  else if type ≠ msgTypeLabelmapping ∧ tlen ≠ locals.feclen then shutdown sBadTlvVal msg
  else
    let len ← subtract 16 locals.len tlen
    let feclen ← subtractInt locals.feclen tlen
    let next : FecLocals := {
      buf := locals.buf.drop tlen
      len
      feclen
      maps := locals.maps ++ [map] }
    return if 0 < feclen then .inl next else .inr next

/-- What the label TLV and the optional parameters of a label message say. -/
structure LabelParams where
  label : UInt32 := noLabel
  reqid : UInt32 := 0
  pwStatus : UInt32 := 0
  hasReqid : Bool := false
  hasPwStatus : Bool := false
  deriving DecidableEq, Repr

/-- One optional parameter of a label message. -/
def labelTlv (msg : LdpMsg) (type : UInt16) (tlv : Tlv) (buf : List UInt8) (found : LabelParams) :
    Parser LabelParams := do
  if tlv.type = tlvTypeLabelrequest then
    if type = msgTypeLabelmapping ∨ type = msgTypeLabelrequest then
      if tlv.length.toNat ≠ reqidTlvLen then shutdown sBadTlvLen msg
      else
        let reqid ← readMem 4 get32 buf
        return { found with reqid, hasReqid := true }
    else return found
  else if tlv.type = tlvTypeHopcount ∨ tlv.type = tlvTypePathvector then return found
  else if tlv.type = tlvTypeGenericlabel then
    if type = msgTypeLabelwithdraw ∨ type = msgTypeLabelrelease then
      if tlv.length.toNat ≠ labelTlvLen then shutdown sBadTlvLen msg
      else
        let label ← readMem 4 get32 buf
        return { found with label }
    else return found
  else if tlv.type = tlvTypeAtmlabel ∨ tlv.type = tlvTypeFrlabel then
    if type = msgTypeLabelwithdraw ∨ type = msgTypeLabelrelease then shutdown sBadTlvVal msg
    else return found
  else if tlv.type = tlvTypeStatus then
    if tlv.length.toNat ≠ statusTlvLen then shutdown sBadTlvLen msg else return found
  else if tlv.type = tlvTypePwStatus then
    if type = msgTypeLabelmapping then
      if tlv.length.toNat ≠ pwStatusTlvLen then shutdown sBadTlvLen msg
      else
        let pwStatus ← readMem 4 get32 buf
        return { found with pwStatus, hasPwStatus := true }
    else return found
  else
    unknownTlv msg tlv
    return found

/-- The `struct map` of a FEC element and the parameters of its message. -/
def labelMap (msg : LdpMsg) (params : LabelParams) (map : FecBuf) : Map where
  fec := map.fec
  msgId := msg.id
  label := params.label
  requestid := if map.flags.reqId || params.hasReqid then params.reqid else 0
  pwStatus := match map.fec with
    | .pwid .. => if map.flags.pwStatus || params.hasPwStatus then params.pwStatus else 0
    | _ => 0
  flags := { map.flags with
    reqId := map.flags.reqId || params.hasReqid
    pwStatus := map.flags.pwStatus || params.hasPwStatus }

/-- A label that the FEC of a map cannot have. -/
def labelMisplaced (label : UInt32) : MapFec → Bool
  | .wildcard => false
  | .network addr _ =>
    match addr.af with
    | .inet => label = mplsLabelIpv6null
    | .inet6 => label = mplsLabelIpv4null
  | .pwid .. => label ≤ mplsLabelReservedMax

/-- Whether the neighbor takes labels for the FEC of a map. -/
def familyEnabled (nbr : Nbr) : MapFec → Bool
  | .network addr _ =>
    match addr.af with
    | .inet => nbr.v4Enabled
    | .inet6 => nbr.v6Enabled
  | _ => true

/-- The message to the label decision engine that a label message type stands for. -/
def labelImsg (type : UInt16) (peerid : UInt32) (map : Map) : LdeEvent :=
  if type = msgTypeLabelmapping then .labelMapping peerid map
  else if type = msgTypeLabelrequest then .labelRequest peerid map
  else if type = msgTypeLabelwithdraw then .labelWithdraw peerid map
  else if type = msgTypeLabelrelease then .labelRelease peerid map
  else .labelAbort peerid map

/-- Notify lde about the received message: the last loop of `recv_labelmessage`. -/
def notifyLde (msg : LdpMsg) (type : UInt16) (params : LabelParams) :
    List FecBuf → Ldpe → Option Unit × Ldpe
  | [], ldpe => (some (), ldpe)
  | map :: rest, ldpe =>
    if labelMisplaced params.label map.fec then (none, say ldpe (.shutdown sBadTlvVal msg))
    else if familyEnabled ldpe.nbr map.fec then
      notifyLde msg type params rest
        (ldpe.composeLde (labelImsg type ldpe.nbr.peerid (labelMap msg params map)))
    else notifyLde msg type params rest ldpe

/-- The mandatory label TLV of a Label Mapping, and what follows it. -/
def mandatoryLabel (msg : LdpMsg) (type : UInt16) (buf : List UInt8) (len : Nat) :
    Parser (TlvLocals LabelParams) := do
  if type = msgTypeLabelmapping then
    let label ← tlvDecodeLabel msg buf len
    let len ← subtract 16 len labelTlvSize
    return { buf := buf.drop labelTlvSize, len, found := { label } }
  else return { buf, len, found := {} }

/-- `recv_labelmessage` up to its last loop: the FEC elements and the parameters. -/
def parseLabelmessage (fuel : Nat) (msg : LdpMsg) (type : UInt16) (buf : List UInt8) (len : Nat) :
    Parser (List FecBuf × LabelParams) := do
  if len < tlvHdrSize then shutdown sBadTlvLen msg
  else
    let ft ← readMem 4 getTlv buf
    if ft.type ≠ tlvTypeFec then refuse sMissMsg msg
    else if len - tlvHdrSize < ft.length.toNat then shutdown sBadTlvLen msg
    else
      let len ← subtract 16 len tlvHdrSize
      let locals ← loop (fecRound fuel msg type) fuel {
        buf := buf.drop tlvHdrSize
        len
        feclen := ft.length.toNat
        maps := [] }
      let start ← mandatoryLabel msg type locals.buf locals.len
      let params ← loop (tlvRound msg (labelTlv msg type)) fuel start
      return (locals.maps, params)

/-- `recv_labelmessage`. -/
def recvLabelmessage (fuel : Nat) (buf : List UInt8) (len : Nat) (type : UInt16) : Parser Unit := do
  let msg ← readMem 8 getLdpMsg buf
  let len ← subtract 16 len ldpMsgSize
  let parsed ← parseLabelmessage fuel msg type (buf.drop ldpMsgSize) len
  act (notifyLde msg type parsed.2 parsed.1)

/-! ### Notification messages -/

/-- The optional parameters of a notification, as they are gathered in `nm`. -/
structure NotifyParams where
  pwStatus : UInt32 := 0
  fec : FecBuf := {}
  hasPwStatus : Bool := false
  hasFec : Bool := false
  deriving DecidableEq, Repr

/-- One optional parameter of a notification. -/
def notificationTlv (fuel : Nat) (msg : LdpMsg) (tlv : Tlv) (buf : List UInt8)
    (found : NotifyParams) : Parser NotifyParams := do
  if tlv.type = tlvTypeExtstatus ∨ tlv.type = tlvTypeReturnedpdu ∨ tlv.type = tlvTypeReturnedmsg then
    return found
  else if tlv.type = tlvTypePwStatus then
    if tlv.length.toNat ≠ 4 then shutdown sBadTlvLen msg
    else
      let pwStatus ← readMem 4 get32 buf
      return { found with pwStatus, hasPwStatus := true }
  else if tlv.type = tlvTypeFec then
    let (tlen, fec) ← tlvDecodeFecElm fuel msg buf tlv.length.toNat found.fec
    if tlen ≠ tlv.length.toNat then shutdown sBadTlvVal msg
    else return { found with fec, hasFec := true }
  else
    unknownTlv msg tlv
    return found

/-- The `struct notify_msg` of a notification. -/
def notifyMsg (statusCode : UInt32) (found : NotifyParams) : NotifyMsg where
  statusCode := statusCode
  pwStatus := found.pwStatus
  fec := { fec := found.fec.fec, flags := found.fec.flags }
  hasPwStatus := found.hasPwStatus
  hasFec := found.hasFec

/-- `recv_notification` up to the end of its loop: the status code and the parameters. -/
def parseNotification (fuel : Nat) (msg : LdpMsg) (buf : List UInt8) (len : Nat) :
    Parser NotifyMsg := do
  if len < statusSize then shutdown sBadMsgLen msg
  else
    let (st, statusCode) ← readMem 14 (fun bytes => (getTlv bytes, get32 (bytes.drop 4))) buf
    if statusSize - tlvHdrSize < st.length.toNat ∨ len - tlvHdrSize < st.length.toNat then
      shutdown sBadTlvLen msg
    else
      let len ← subtract 16 len statusSize
      let found ← loop (tlvRound msg (notificationTlv fuel msg)) fuel {
        buf := buf.drop statusSize
        len
        found := {} }
      return notifyMsg statusCode found

/-- A pseudowire status notification that lacks what it is about. -/
def pwStatusIncomplete (nm : NotifyMsg) : Bool :=
  nm.statusCode = sPwStatus ∧ ¬nm.hasPwStatus ∧ ¬nm.hasFec

/-- A pseudowire status notification that is not about a pseudowire. -/
def pwStatusMisplaced (nm : NotifyMsg) : Bool :=
  nm.statusCode = sPwStatus ∧ ¬nm.fec.fec.isPwid

/-- The end of `recv_notification`. -/
def finishNotification (msg : LdpMsg) (nm : NotifyMsg) (ldpe : Ldpe) : Option Unit × Ldpe :=
  if pwStatusIncomplete nm then (none, say ldpe (.notify sMissMsg msg))
  else if pwStatusMisplaced nm then (none, say ldpe (.notify sBadTlvVal msg))
  else if nm.statusCode &&& statusFatal ≠ 0 then
    (none, nbrFsm (if ldpe.nbr.state = .opensent then nbrStartIdtimer ldpe else ldpe) .closeSession)
  else if nm.statusCode = sPwStatus then
    (some (), ldpe.composeLde (.notification ldpe.nbr.peerid nm))
  else (some (), ldpe)

/-- `recv_notification`. -/
def recvNotification (fuel : Nat) (buf : List UInt8) (len : Nat) : Parser Unit := do
  let msg ← readMem 8 getLdpMsg buf
  let len ← subtract 16 len ldpMsgSize
  let nm ← parseNotification fuel msg (buf.drop ldpMsgSize) len
  act (finishNotification msg nm)

/-! ### Address messages -/

/-- The locals of the loop over the addresses. -/
structure AddrLocals where
  buf : List UInt8
  len : Nat

/-- One round of the loop over the addresses. -/
def addrRound (msg : LdpMsg) (af : Af) (locals : AddrLocals) : Parser (AddrLocals ⊕ Unit) := do
  if locals.len = 0 then return .inr ()
  else if locals.len < af.addrSize then shutdown sBadTlvLen msg
  else
    let addr ← readMem af.addrSize (addrOfBytes af) locals.buf
    let len ← subtract 16 locals.len af.addrSize
    change fun ldpe => say ldpe (.address msg addr)
    return .inl { buf := locals.buf.drop af.addrSize, len }

/-- Whether the neighbor takes addresses of a family. -/
def Nbr.takes (nbr : Nbr) : Af → Bool
  | .inet => nbr.v4Enabled
  | .inet6 => nbr.v6Enabled

/-- `recv_address` without its header. -/
def parseAddress (fuel : Nat) (msg : LdpMsg) (buf : List UInt8) (len : Nat) : Parser Unit := do
  if len < addrListSize then shutdown sBadMsgLen msg
  else
    let alt ← readMem 6 (fun bytes => (getTlv bytes, get16 (bytes.drop 4))) buf
    if alt.1.length.toNat ≠ len - tlvHdrSize then shutdown sBadTlvLen msg
    else if alt.1.type ≠ tlvTypeAddrlist then shutdown sUnknownTlv msg
    else
      match afOfFamily alt.2 with
      | none => refuse sUnsupAddr msg
      | some af =>
        let ldpe ← look
        if ldpe.nbr.takes af then
          let len ← subtract 16 len addrListSize
          loop (addrRound msg af) fuel { buf := buf.drop addrListSize, len }
        else return ()

/-- `recv_address`. -/
def recvAddress (fuel : Nat) (buf : List UInt8) (len : Nat) : Parser Unit := do
  let msg ← readMem 8 getLdpMsg buf
  let len ← subtract 16 len ldpMsgSize
  parseAddress fuel msg (buf.drop ldpMsgSize) len

/-! ### Initialization and keepalive messages -/

/-- `struct sess_prms_tlv`: what `recv_init` uses of it. -/
structure SessPrms where
  length : UInt16
  protoVersion : UInt16
  keepaliveTime : UInt16
  maxPduLen : UInt16
  lsrId : InAddr
  lspaceId : UInt16
  deriving DecidableEq, Repr

def getSessPrms (bytes : List UInt8) : SessPrms where
  length := get16 (bytes.drop 2)
  protoVersion := get16 (bytes.drop 4)
  keepaliveTime := get16 (bytes.drop 6)
  maxPduLen := get16 (bytes.drop 10)
  lsrId := get32 (bytes.drop 12)
  lspaceId := get16 (bytes.drop 16)

/-- One optional parameter of an initialization message. -/
def initTlv (msg : LdpMsg) (tlv : Tlv) (_ : List UInt8) (_ : Unit) : Parser Unit :=
  if tlv.type = tlvTypeAtmsessionpar ∨ tlv.type = tlvTypeFrsession then shutdown sBadTlvVal msg
  else unknownTlv msg tlv

/-- `recv_init` up to the end of its loop. -/
def parseInit (fuel : Nat) (rtrId : InAddr) (msg : LdpMsg) (buf : List UInt8) (len : Nat) :
    Parser SessPrms := do
  if len < sessPrmsSize then shutdown sBadMsgLen msg
  else
    let sess ← readMem 18 getSessPrms buf
    if sess.length.toNat ≠ sessPrmsLen then shutdown sBadTlvLen msg
    else if sess.protoVersion ≠ ldpVersion then shutdown sBadProtoVer msg
    else if sess.keepaliveTime < minKeepalive then shutdown sKeepaliveBad msg
    else if sess.lsrId ≠ rtrId ∨ sess.lspaceId ≠ 0 then shutdown sNoHello msg
    else
      let len ← subtract 16 len sessPrmsSize
      loop (tlvRound msg (initTlv msg)) fuel { buf := buf.drop sessPrmsSize, len, found := () }
      return sess

/-- The end of `recv_init`: the parameters of the session. -/
def finishInit (ldpe : Ldpe) (sess : SessPrms) : Ldpe :=
  let maxPduLen := if sess.maxPduLen ≤ 255 then ldpMaxLen else sess.maxPduLen
  let ldpe := ldpe.updateNbr fun nbr =>
    { nbr with
      keepalive := min (nbrGetKeepalive ldpe) sess.keepaliveTime
      maxPduLen := min maxPduLen ldpMaxLen }
  nbrFsm ldpe .initRcvd

/-- `recv_init`. -/
def recvInit (fuel : Nat) (buf : List UInt8) (len : Nat) : Parser Unit := do
  let msg ← readMem 8 getLdpMsg buf
  let len ← subtract 16 len ldpMsgSize
  let ldpe ← look
  let sess ← parseInit fuel ldpe.rtrId msg (buf.drop ldpMsgSize) len
  act fun ldpe => (some (), finishInit ldpe sess)

/-- The end of `recv_keepalive`. -/
def finishKeepalive (ldpe : Ldpe) : Ldpe :=
  if ldpe.nbr.state = .oper then ldpe else nbrFsm ldpe .keepaliveRcvd

/-- `recv_keepalive`. -/
def recvKeepalive (buf : List UInt8) (len : Nat) : Parser Unit := do
  let msg ← readMem 8 getLdpMsg buf
  if len ≠ ldpMsgSize then shutdown sBadMsgLen msg
  else act fun ldpe => (some (), finishKeepalive ldpe)

end Ldpd
