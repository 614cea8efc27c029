/-
This file says what whole session messages mean, in the terms of the readings of their
parts, and proves that `recv_labelmessage` and `recv_notification` follow that up to
the point where they act on what they have read.
-/

import Ldpd.Ldpe.Reading

namespace Ldpd

open Bytes Code

/-! ### Readings -/

/-- The TLVs that are still to be read, up to the end of the message, and what the others have
said. -/
structure Tlvs (Found : Type) where
  left : List UInt8
  found : Found

/-- The first TLV. -/
def readTlv {Found : Type} (msg : LdpMsg) (handle : Tlv → List UInt8 → Found → Said Found)
    (tlvs : Tlvs Found) : Said (Tlvs Found ⊕ Found) :=
  let tlv := getTlv tlvs.left
  if tlvs.left.length = 0 then pure (.inr tlvs.found)
  else if tlvs.left.length < tlvHdrSize ∨ tlvs.left.length < tlv.length.toNat + tlvHdrSize then
    endWith sBadTlvLen msg
  else do
    let found ← handle tlv (tlvs.left.drop tlvHdrSize) tlvs.found
    return .inl ⟨tlvs.left.drop (tlvHdrSize + tlv.length.toNat), found⟩

/-- The TLVs up to the end of the message. -/
def readTlvs {Found : Type} (msg : LdpMsg) (handle : Tlv → List UInt8 → Found → Said Found)
    (tlvs : Tlvs Found) : Said Found :=
  Reading.iterate (readTlv msg handle) (fun tlvs => tlvs.left.length) tlvs

/-- A TLV of an unknown type. -/
def readUnknown (msg : LdpMsg) (tlv : Tlv) : Said Unit :=
  if tlv.type &&& unknownFlag = 0 then
    { replies := [.notify sUnknownTlv msg], verdict := .accept () }
  else pure ()

/-- The label TLV of a Label Mapping. -/
def readLabel (msg : LdpMsg) (left : List UInt8) : Said UInt32 :=
  let tlv := getTlv left
  let label := get32 (left.drop 4)
  if left.length < labelTlvSize then endWith sBadTlvLen msg
  else if tlv.type &&& tlvTypeGenericlabel = 0 then refuseWith sMissMsg msg
  else if tlv.type = tlvTypeGenericlabel then
    if tlv.length.toNat ≠ labelTlvLen then endWith sBadTlvLen msg
    else if labelOk label then pure label
    else endWith sBadTlvVal msg
  else endWith sBadTlvVal msg

/-- The FEC elements that are still to be read, with what follows them in the message. -/
structure Fecs where
  left : List UInt8
  feclen : Nat
  maps : List FecBuf

/-- The first FEC element. -/
def readFec (msg : LdpMsg) (type : UInt16) (beyond : List UInt8) (fecs : Fecs) :
    Said (Fecs ⊕ Fecs) := do
  let (tlen, map) ← readFecElm msg beyond fecs.left fecs.feclen {}
  if pwidMissing type map then refuseWith sMissMsg msg
  else if wildcardMisplaced type map.fec then endWith sUnknownFec msg
  else if type ≠ msgTypeLabelmapping ∧ tlen ≠ fecs.feclen then endWith sBadTlvVal msg
  else
    let next : Fecs := {
      left := fecs.left.drop tlen
      feclen := fecs.feclen - tlen
      maps := fecs.maps ++ [map] }
    return if 0 < next.feclen then .inl next else .inr next

/-- The FEC elements of a label message. -/
def readFecs (msg : LdpMsg) (type : UInt16) (beyond : List UInt8) (fecs : Fecs) : Said Fecs :=
  Reading.iterate (readFec msg type beyond) Fecs.feclen fecs

/-- An optional parameter of a label message. -/
def readLabelTlv (msg : LdpMsg) (type : UInt16) (tlv : Tlv) (value : List UInt8)
    (found : LabelParams) : Said LabelParams :=
  if tlv.type = tlvTypeLabelrequest then
    if type = msgTypeLabelmapping ∨ type = msgTypeLabelrequest then
      if tlv.length.toNat ≠ reqidTlvLen then endWith sBadTlvLen msg
      else pure { found with reqid := get32 value, hasReqid := true }
    else pure found
  else if tlv.type = tlvTypeHopcount ∨ tlv.type = tlvTypePathvector then pure found
  else if tlv.type = tlvTypeGenericlabel then
    if type = msgTypeLabelwithdraw ∨ type = msgTypeLabelrelease then
      if tlv.length.toNat ≠ labelTlvLen then endWith sBadTlvLen msg
      else pure { found with label := get32 value }
    else pure found
  else if tlv.type = tlvTypeAtmlabel ∨ tlv.type = tlvTypeFrlabel then
    if type = msgTypeLabelwithdraw ∨ type = msgTypeLabelrelease then endWith sBadTlvVal msg
    else pure found
  else if tlv.type = tlvTypeStatus then
    if tlv.length.toNat ≠ statusTlvLen then endWith sBadTlvLen msg else pure found
  else if tlv.type = tlvTypePwStatus then
    if type = msgTypeLabelmapping then
      if tlv.length.toNat ≠ pwStatusTlvLen then endWith sBadTlvLen msg
      else pure { found with pwStatus := get32 value, hasPwStatus := true }
    else pure found
  else do
    readUnknown msg tlv
    return found

/-- The mandatory label TLV of a Label Mapping, and what follows it. -/
def readMandatory (msg : LdpMsg) (type : UInt16) (left : List UInt8) : Said (Tlvs LabelParams) :=
  if type = msgTypeLabelmapping then do
    let label ← readLabel msg left
    return ⟨left.drop labelTlvSize, { label }⟩
  else pure ⟨left, {}⟩

/-- The body of a label message, with what comes after it: its FEC elements and its parameters. -/
def readLabelmessage (msg : LdpMsg) (type : UInt16) (beyond body : List UInt8) :
    Said (List FecBuf × LabelParams) :=
  let ft := getTlv body
  if body.length < tlvHdrSize then endWith sBadTlvLen msg
  else if ft.type ≠ tlvTypeFec then refuseWith sMissMsg msg
  else if body.length - tlvHdrSize < ft.length.toNat then endWith sBadTlvLen msg
  else do
    let fecs ← readFecs msg type beyond ⟨body.drop tlvHdrSize, ft.length.toNat, []⟩
    let tlvs ← readMandatory msg type fecs.left
    let params ← readTlvs msg (readLabelTlv msg type) tlvs
    return (fecs.maps, params)

/-- An optional parameter of a notification. -/
def readNotificationTlv (msg : LdpMsg) (beyond : List UInt8) (tlv : Tlv) (value : List UInt8)
    (found : NotifyParams) : Said NotifyParams :=
  if tlv.type = tlvTypeExtstatus ∨ tlv.type = tlvTypeReturnedpdu ∨ tlv.type = tlvTypeReturnedmsg then
    pure found
  else if tlv.type = tlvTypePwStatus then
    if tlv.length.toNat ≠ 4 then endWith sBadTlvLen msg
    else pure { found with pwStatus := get32 value, hasPwStatus := true }
  else if tlv.type = tlvTypeFec then do
    let (tlen, fec) ← readFecElm msg beyond value tlv.length.toNat found.fec
    if tlen ≠ tlv.length.toNat then endWith sBadTlvVal msg
    else return { found with fec, hasFec := true }
  else do
    readUnknown msg tlv
    return found

/-- The body of a notification, with what comes after it. -/
def readNotification (msg : LdpMsg) (beyond body : List UInt8) : Said NotifyMsg :=
  let st := getTlv body
  if body.length < statusSize then endWith sBadMsgLen msg
  else if statusSize - tlvHdrSize < st.length.toNat ∨ body.length - tlvHdrSize < st.length.toNat then
    endWith sBadTlvLen msg
  else do
    let found ← readTlvs msg (readNotificationTlv msg beyond) ⟨body.drop statusSize, {}⟩
    return notifyMsg (get32 (body.drop 4)) found

/-- An address for the label decision engine. -/
def passOn (msg : LdpMsg) (addr : LdpdAddr) : Said Unit :=
  { replies := [.address msg addr], verdict := .accept () }

/-- The first of the addresses that are still to be read. -/
def readAddr (msg : LdpMsg) (af : Af) (left : List UInt8) : Said (List UInt8 ⊕ Unit) :=
  if left.length = 0 then pure (.inr ())
  else if left.length < af.addrSize then endWith sBadTlvLen msg
  else do
    passOn msg (addrOfBytes af left)
    return .inl (left.drop af.addrSize)

/-- The addresses of an address message. -/
def readAddrs (msg : LdpMsg) (af : Af) (left : List UInt8) : Said Unit :=
  Reading.iterate (readAddr msg af) List.length left

/-- The body of an address message, for a neighbor that takes some of the families. -/
def readAddress (takes : Af → Bool) (msg : LdpMsg) (body : List UInt8) : Said Unit :=
  let alt := getTlv body
  if body.length < addrListSize then endWith sBadMsgLen msg
  else if alt.length.toNat ≠ body.length - tlvHdrSize then endWith sBadTlvLen msg
  else if alt.type ≠ tlvTypeAddrlist then endWith sUnknownTlv msg
  else
    match afOfFamily (get16 (body.drop 4)) with
    | none => refuseWith sUnsupAddr msg
    | some af => if takes af then readAddrs msg af (body.drop addrListSize) else pure ()

/-- An optional parameter of an initialization message. -/
def readInitTlv (msg : LdpMsg) (tlv : Tlv) (_ : List UInt8) (_ : Unit) : Said Unit :=
  if tlv.type = tlvTypeAtmsessionpar ∨ tlv.type = tlvTypeFrsession then endWith sBadTlvVal msg
  else readUnknown msg tlv

/-- The body of an initialization message. -/
def readInit (rtrId : InAddr) (msg : LdpMsg) (body : List UInt8) : Said SessPrms :=
  let sess := getSessPrms body
  if body.length < sessPrmsSize then endWith sBadMsgLen msg
  else if sess.length.toNat ≠ sessPrmsLen then endWith sBadTlvLen msg
  else if sess.protoVersion ≠ ldpVersion then endWith sBadProtoVer msg
  else if sess.keepaliveTime < minKeepalive then endWith sKeepaliveBad msg
  else if sess.lsrId ≠ rtrId ∨ sess.lspaceId ≠ 0 then endWith sNoHello msg
  else do
    readTlvs msg (readInitTlv msg) ⟨body.drop sessPrmsSize, ()⟩
    return sess

/-! ### TLVs -/

section Follows

variable {stretch : Stretch} {beyond : List UInt8} {enough : Prop}

/-- A loop over TLVs and the TLVs that are left agree. -/
def TlvAt (stretch : Stretch) (beyond : List UInt8) {Found : Type} (locals : TlvLocals Found)
    (tlvs : Tlvs Found) : Prop :=
  Spans stretch beyond locals.buf tlvs.left ∧ locals.len = tlvs.left.length ∧ locals.len < 2 ^ 16 ∧
    locals.found = tlvs.found

theorem obeys_tlvRound {Found : Type} {msg : LdpMsg}
    {handle : Tlv → List UInt8 → Found → Parser Found}
    {handle' : Tlv → List UInt8 → Found → Said Found}
    (obeys : ∀ tlv buf value found, Spans stretch beyond buf value → tlv.length.toNat ≤ value.length →
      Obeys stretch enough Eq (handle tlv buf found) (handle' tlv value found))
    (locals : TlvLocals Found) (tlvs : Tlvs Found) (place : TlvAt stretch beyond locals tlvs)
    (silent : Prop) :
    Obeys stretch enough
      (RoundAgrees (fun tlvs => tlvs.left.length) (TlvAt stretch beyond) Eq locals tlvs silent)
      (tlvRound msg handle locals) (readTlv msg handle' tlvs) := by
  obtain ⟨spans, len, small, found⟩ := place
  rw [tlvRound, readTlv, len, found]
  rw [len] at small
  by_cases empty : tlvs.left.length = 0
  · simp only [if_pos empty]
    exact follows_pure rfl
  by_cases short : tlvs.left.length < tlvHdrSize
  · simp only [if_neg empty, if_pos short, if_pos (Or.inl short)]
    exact obeys_shutdown _ _
  simp only [if_neg empty, if_neg short, or_iff_right short]
  have four : 4 ≤ tlvs.left.length := Nat.le_of_not_lt short
  refine obeys_readMem_bind spans.holds four local_getTlv ?_
  generalize getTlv tlvs.left = tlv
  by_cases overlong : tlvs.left.length < tlv.length.toNat + tlvHdrSize
  · simp only [if_pos overlong]
    exact obeys_shutdown _ _
  simp only [if_neg overlong]
  have fits : tlv.length.toNat + 4 ≤ tlvs.left.length := Nat.le_of_not_lt overlong
  refine obeys_subtract_bind four small ?_
  refine (obeys tlv _ _ _ (spans.drop 4 four) ?_).bind ?_
  · rw [List.length_drop]
    omega
  · rintro found' read - rfl
    refine obeys_subtract_bind (Nat.le_sub_of_add_le fits)
      (Nat.lt_of_le_of_lt (Nat.sub_le _ _) small) ?_
    have left : (tlvs.left.drop (tlvHdrSize + tlv.length.toNat)).length =
        tlvs.left.length - tlvHdrSize - tlv.length.toNat := by
      rw [List.length_drop, Nat.sub_sub]
    have shorter : tlvs.left.length - tlvHdrSize - tlv.length.toNat < tlvs.left.length := by
      show tlvs.left.length - 4 - _ < _
      omega
    refine follows_pure (Or.inl ⟨⟨?_, left.symm, ?_, rfl⟩, ?_⟩)
    · refine spans.drop _ ?_
      show 4 + _ ≤ _
      omega
    · exact Nat.lt_trans shorter small
    · show (tlvs.left.drop (tlvHdrSize + tlv.length.toNat)).length < tlvs.left.length
      rw [left]
      exact shorter

/-- A loop over TLVs, with fuel for one round for each byte of the longest message. -/
theorem obeys_tlvs {Found : Type} {msg : LdpMsg} {handle : Tlv → List UInt8 → Found → Parser Found}
    {handle' : Tlv → List UInt8 → Found → Said Found} {fuel : Nat}
    (obeys : ∀ tlv buf value found, Spans stretch beyond buf value → tlv.length.toNat ≤ value.length →
      Obeys stretch (2 ^ 16 ≤ fuel) Eq (handle tlv buf found) (handle' tlv value found))
    {locals : TlvLocals Found} {tlvs : Tlvs Found} (place : TlvAt stretch beyond locals tlvs) :
    Obeys stretch (2 ^ 16 ≤ fuel) Eq (loop (tlvRound msg handle) fuel locals)
      (readTlvs msg handle' tlvs) := by
  have rounds : Obeys stretch (2 ^ 16 ≤ fuel ∧ tlvs.left.length < fuel) Eq
      (loop (tlvRound msg handle) fuel locals) (readTlvs msg handle' tlvs) :=
    follows_loop _ (TlvAt stretch beyond) (fun locals tlvs place =>
      obeys_tlvRound obeys locals tlvs place _) fuel place
  refine rounds.mono fun plenty => ⟨plenty, ?_⟩
  obtain ⟨-, len, small, -⟩ := place
  rw [len] at small
  exact Nat.lt_of_lt_of_le small plenty

theorem obeys_unknownTlv (msg : LdpMsg) (tlv : Tlv) :
    Obeys stretch enough (fun _ _ => True) (unknownTlv msg tlv) (readUnknown msg tlv) := by
  rw [unknownTlv, readUnknown]
  split
  · exact follows_reply _
  · exact follows_pure trivial

/-- A parameter that is one 32-bit word. -/
theorem obeys_word {Found : Type} {msg : LdpMsg} {tlv : Tlv} {buf value : List UInt8} {size : Nat}
    (spans : Spans stretch beyond buf value) (long : tlv.length.toNat ≤ value.length)
    (four : size = 4) (store : UInt32 → Found) :
    Obeys stretch enough Eq
      (if tlv.length.toNat ≠ size then shutdown sBadTlvLen msg
        else readMem 4 get32 buf >>= fun word => pure (store word))
      (if tlv.length.toNat ≠ size then endWith sBadTlvLen msg else pure (store (get32 value))) := by
  refine obeys_ite (fun _ => obeys_shutdown _ _) fun exactly => ?_
  refine obeys_readMem_bind spans.holds ?_ local_get32 (follows_pure rfl)
  have length := not_not.mp exactly
  omega

theorem obeys_labelTlv (msg : LdpMsg) (type : UInt16) (tlv : Tlv) (buf value : List UInt8)
    (found : LabelParams) (spans : Spans stretch beyond buf value)
    (long : tlv.length.toNat ≤ value.length) :
    Obeys stretch enough Eq (labelTlv msg type tlv buf found)
      (readLabelTlv msg type tlv value found) := by
  rw [labelTlv, readLabelTlv]
  refine obeys_ite (fun _ => ?_) fun _ => ?_
  · refine obeys_ite (fun _ => ?_) fun _ => follows_pure rfl
    exact obeys_word spans long rfl fun reqid => { found with reqid, hasReqid := true }
  refine obeys_ite (fun _ => follows_pure rfl) fun _ => ?_
  refine obeys_ite (fun _ => ?_) fun _ => ?_
  · refine obeys_ite (fun _ => ?_) fun _ => follows_pure rfl
    exact obeys_word spans long rfl fun label => { found with label }
  refine obeys_ite (fun _ => ?_) fun _ => ?_
  · exact obeys_ite (fun _ => obeys_shutdown _ _) fun _ => follows_pure rfl
  refine obeys_ite (fun _ => ?_) fun _ => ?_
  · exact obeys_ite (fun _ => obeys_shutdown _ _) fun _ => follows_pure rfl
  refine obeys_ite (fun _ => ?_) fun _ => ?_
  · refine obeys_ite (fun _ => ?_) fun _ => follows_pure rfl
    exact obeys_word spans long rfl fun pwStatus => { found with pwStatus, hasPwStatus := true }
  · exact (obeys_unknownTlv msg tlv).bind fun _ _ _ _ => follows_pure rfl

theorem obeys_tlvDecodeLabel {buf left : List UInt8} (msg : LdpMsg) (spans : Spans stretch beyond buf left) :
    Obeys stretch enough Eq (tlvDecodeLabel msg buf left.length) (readLabel msg left) := by
  rw [tlvDecodeLabel, readLabel]
  refine obeys_ite (fun _ => obeys_shutdown _ _) fun long => ?_
  refine obeys_readMem_bind spans.holds (Nat.le_of_not_lt long) local_getTlv_get32 ?_
  refine obeys_ite (fun _ => obeys_refuse _ _) fun _ => ?_
  refine obeys_ite (fun _ => ?_) fun _ => obeys_shutdown _ _
  refine obeys_ite (fun _ => obeys_shutdown _ _) fun _ => ?_
  exact obeys_ite (fun _ => follows_pure rfl) fun _ => obeys_shutdown _ _

theorem obeys_mandatoryLabel {buf left : List UInt8} (msg : LdpMsg) (type : UInt16)
    (spans : Spans stretch beyond buf left) (small : left.length < 2 ^ 16) :
    Obeys stretch enough (TlvAt stretch beyond) (mandatoryLabel msg type buf left.length)
      (readMandatory msg type left) := by
  rw [mandatoryLabel, readMandatory]
  refine obeys_ite (fun _ => ?_) fun _ => follows_pure ⟨spans, rfl, small, rfl⟩
  refine (obeys_tlvDecodeLabel msg spans).bind ?_
  rintro label read accepts rfl
  have long : 8 ≤ left.length := Nat.le_of_not_lt (accepts_unless_ended.mp accepts).1
  refine obeys_subtract_bind long small (follows_pure ⟨spans.drop 8 long, ?_, ?_, rfl⟩)
  · exact (List.length_drop ..).symm
  · exact Nat.lt_of_le_of_lt (Nat.sub_le _ _) small

/-! ### FEC elements -/

/-- The loop over the FEC elements and the elements that are left agree. -/
def FecAt (stretch : Stretch) (beyond : List UInt8) (locals : FecLocals) (fecs : Fecs) : Prop :=
  Spans stretch beyond locals.buf fecs.left ∧ locals.len = fecs.left.length ∧ locals.len < 2 ^ 16 ∧
    locals.feclen = fecs.feclen ∧ fecs.feclen ≤ fecs.left.length ∧ locals.maps = fecs.maps

theorem obeys_fecRound (fuel : Nat) (msg : LdpMsg) (type : UInt16) (locals : FecLocals)
    (fecs : Fecs) (place : FecAt stretch beyond locals fecs) (silent : Prop) :
    Obeys stretch (256 ≤ fuel)
      (RoundAgrees Fecs.feclen (FecAt stretch beyond) (FecAt stretch beyond) locals fecs silent)
      (fecRound fuel msg type locals) (readFec msg type beyond fecs) := by
  obtain ⟨spans, len, small, feclen, fits, maps⟩ := place
  rw [fecRound, readFec, feclen]
  refine (obeys_tlvDecodeFecElm fuel msg {} spans fits).bind ?_
  rintro ⟨tlen, map⟩ read accepts rfl
  obtain ⟨positive, within⟩ := readFecElm_size accepts
  refine obeys_ite (fun _ => obeys_refuse _ _) fun _ => ?_
  refine obeys_ite (fun _ => obeys_shutdown _ _) fun _ => ?_
  refine obeys_ite (fun _ => obeys_shutdown _ _) fun _ => ?_
  rw [len, maps]
  rw [len] at small
  refine obeys_subtract_bind (Nat.le_trans within fits) small ?_
  refine obeys_bind_pure (obeys_subtractInt within) ?_
  have next : FecAt stretch beyond
      { buf := locals.buf.drop tlen
        len := fecs.left.length - tlen
        feclen := fecs.feclen - tlen
        maps := fecs.maps ++ [map] }
      { left := fecs.left.drop tlen
        feclen := fecs.feclen - tlen
        maps := fecs.maps ++ [map] } := by
    refine ⟨spans.drop tlen (Nat.le_trans within fits), ?_, ?_, rfl, ?_, rfl⟩
    · exact (List.length_drop ..).symm
    · exact Nat.lt_of_le_of_lt (Nat.sub_le _ _) small
    · rw [List.length_drop]
      exact Nat.sub_le_sub_right fits tlen
  by_cases more : 0 < fecs.feclen - tlen
  · simp only [if_pos more]
    refine follows_pure (Or.inl ⟨next, ?_⟩)
    show fecs.feclen - tlen < fecs.feclen
    omega
  · simp only [if_neg more]
    exact follows_pure next

theorem obeys_fecs (fuel : Nat) (msg : LdpMsg) (type : UInt16) {locals : FecLocals} {fecs : Fecs}
    (place : FecAt stretch beyond locals fecs) :
    Obeys stretch (2 ^ 16 ≤ fuel) (FecAt stretch beyond) (loop (fecRound fuel msg type) fuel locals)
      (readFecs msg type beyond fecs) := by
  have rounds : Obeys stretch (256 ≤ fuel ∧ fecs.feclen < fuel) (FecAt stretch beyond)
      (loop (fecRound fuel msg type) fuel locals) (readFecs msg type beyond fecs) :=
    follows_loop _ (FecAt stretch beyond) (fun locals fecs place =>
      obeys_fecRound fuel msg type locals fecs place _) fuel place
  refine rounds.mono fun plenty => ⟨Nat.le_trans (by decide) plenty, ?_⟩
  obtain ⟨-, len, small, -, fits, -⟩ := place
  rw [len] at small
  exact Nat.lt_of_lt_of_le (Nat.lt_of_le_of_lt fits small) plenty

/-! ### Messages -/

/-- The parser of label messages follows the reading of their body. Sixteen bits of fuel are
enough for every message. -/
theorem obeys_parseLabelmessage {buf body : List UInt8} (fuel : Nat) (msg : LdpMsg) (type : UInt16)
    (spans : Spans stretch beyond buf body) (small : body.length < 2 ^ 16) :
    Obeys stretch (2 ^ 16 ≤ fuel) Eq (parseLabelmessage fuel msg type buf body.length)
      (readLabelmessage msg type beyond body) := by
  rw [parseLabelmessage, readLabelmessage]
  refine obeys_ite (fun _ => obeys_shutdown _ _) fun long => ?_
  have four : 4 ≤ body.length := Nat.le_of_not_lt long
  refine obeys_readMem_bind spans.holds four local_getTlv ?_
  refine obeys_ite (fun _ => obeys_refuse _ _) fun _ => ?_
  refine obeys_ite (fun _ => obeys_shutdown _ _) fun room => ?_
  refine obeys_subtract_bind four small ?_
  have left : (body.drop 4).length = body.length - 4 := List.length_drop ..
  have place : FecAt stretch beyond
      { buf := buf.drop tlvHdrSize
        len := body.length - tlvHdrSize
        feclen := (getTlv body).length.toNat
        maps := [] }
      { left := body.drop tlvHdrSize, feclen := (getTlv body).length.toNat, maps := [] } := by
    refine ⟨spans.drop 4 four, left.symm, ?_, rfl, ?_, rfl⟩
    · exact Nat.lt_of_le_of_lt (Nat.sub_le _ _) small
    · exact Nat.le_trans (Nat.le_of_not_lt room) (Nat.le_of_eq left.symm)
  refine (obeys_fecs fuel msg type place).bind ?_
  rintro locals fecs - ⟨spans', len, small', -, -, maps⟩
  rw [len] at small' ⊢
  refine (obeys_mandatoryLabel msg type spans' small').bind ?_
  rintro start tlvs - place'
  refine (obeys_tlvs (obeys_labelTlv msg type) place').bind ?_
  rintro params read - rfl
  rw [maps]
  exact follows_pure rfl

theorem obeys_notificationTlv (fuel : Nat) (msg : LdpMsg) (tlv : Tlv) (buf value : List UInt8)
    (found : NotifyParams) (spans : Spans stretch beyond buf value)
    (long : tlv.length.toNat ≤ value.length) :
    Obeys stretch (2 ^ 16 ≤ fuel) Eq (notificationTlv fuel msg tlv buf found)
      (readNotificationTlv msg beyond tlv value found) := by
  rw [notificationTlv, readNotificationTlv]
  refine obeys_ite (fun _ => follows_pure rfl) fun _ => ?_
  refine obeys_ite (fun _ => ?_) fun _ => ?_
  · exact obeys_word spans long rfl fun pwStatus => { found with pwStatus, hasPwStatus := true }
  refine obeys_ite (fun _ => ?_) fun _ => ?_
  · refine ((obeys_tlvDecodeFecElm fuel msg found.fec spans long).mono
      (Nat.le_trans (by decide))).bind ?_
    rintro ⟨tlen, fec⟩ read - rfl
    exact obeys_ite (fun _ => obeys_shutdown _ _) fun _ => follows_pure rfl
  · exact (obeys_unknownTlv msg tlv).bind fun _ _ _ _ => follows_pure rfl

/-- The parser of notifications follows the reading of their body. -/
theorem obeys_parseNotification {buf body : List UInt8} (fuel : Nat) (msg : LdpMsg)
    (spans : Spans stretch beyond buf body) (small : body.length < 2 ^ 16) :
    Obeys stretch (2 ^ 16 ≤ fuel) Eq (parseNotification fuel msg buf body.length)
      (readNotification msg beyond body) := by
  rw [parseNotification, readNotification]
  refine obeys_ite (fun _ => obeys_shutdown _ _) fun long => ?_
  have fourteen : 14 ≤ body.length := Nat.le_of_not_lt long
  refine obeys_readMem_bind spans.holds fourteen (local_getTlv_get32.mono (by decide)) ?_
  refine obeys_ite (fun _ => obeys_shutdown _ _) fun _ => ?_
  refine obeys_subtract_bind fourteen small ?_
  have place : TlvAt stretch beyond
      ⟨buf.drop statusSize, body.length - statusSize, ({} : NotifyParams)⟩
      ⟨body.drop statusSize, {}⟩ := by
    refine ⟨spans.drop 14 fourteen, (List.length_drop ..).symm, ?_, rfl⟩
    exact Nat.lt_of_le_of_lt (Nat.sub_le _ _) small
  refine (obeys_tlvs (obeys_notificationTlv fuel msg) place).bind ?_
  rintro found read - rfl
  exact follows_pure rfl

/-- The addresses that the loop has in front of it. -/
def AddrAt (stretch : Stretch) (beyond : List UInt8) (locals : AddrLocals) (left : List UInt8) :
    Prop :=
  Spans stretch beyond locals.buf left ∧ locals.len = left.length ∧ locals.len < 2 ^ 16

theorem local_addrOfBytes (af : Af) : Local af.addrSize (addrOfBytes af) := by
  intro bytes more long
  cases af with
  | inet => exact congrArg LdpdAddr.v4 (get32_append more long)
  | inet6 =>
    refine congrArg LdpdAddr.v6 (Vector.ext fun i inside => ?_)
    rw [Vector.getElem_ofFn, Vector.getElem_ofFn, List.getD_eq_getElem?_getD,
      List.getD_eq_getElem?_getD, List.getElem?_append_left (Nat.lt_of_lt_of_le inside long)]

theorem addrSize_pos (af : Af) : 0 < af.addrSize := by
  cases af <;> decide

theorem obeys_addrRound (msg : LdpMsg) (af : Af) (locals : AddrLocals) (left : List UInt8)
    (place : AddrAt stretch beyond locals left) (silent : Prop) :
    Obeys stretch enough (RoundAgrees List.length (AddrAt stretch beyond) Eq locals left silent)
      (addrRound msg af locals) (readAddr msg af left) := by
  obtain ⟨spans, len, small⟩ := place
  rw [addrRound, readAddr, len]
  rw [len] at small
  refine obeys_ite (fun _ => follows_pure rfl) fun some' => ?_
  refine obeys_ite (fun _ => obeys_shutdown _ _) fun long => ?_
  have fits : af.addrSize ≤ left.length := Nat.le_of_not_lt long
  refine obeys_readMem_bind spans.holds fits (local_addrOfBytes af) ?_
  refine obeys_subtract_bind fits small ?_
  have positive := addrSize_pos af
  have dropped : (left.drop af.addrSize).length = left.length - af.addrSize := List.length_drop ..
  refine (follows_reply _).bind fun _ _ _ _ => follows_pure (Or.inl ⟨⟨?_, ?_, ?_⟩, ?_⟩)
  · exact spans.drop _ fits
  · exact dropped.symm
  · exact Nat.lt_of_le_of_lt (Nat.sub_le _ _) small
  · rw [dropped]
    omega

theorem obeys_addrs (fuel : Nat) (msg : LdpMsg) (af : Af) {locals : AddrLocals} {left : List UInt8}
    (place : AddrAt stretch beyond locals left) :
    Obeys stretch (2 ^ 16 ≤ fuel) Eq (loop (addrRound msg af) fuel locals)
      (readAddrs msg af left) := by
  have rounds : Obeys stretch (True ∧ left.length < fuel) Eq (loop (addrRound msg af) fuel locals)
      (readAddrs msg af left) :=
    follows_loop _ (AddrAt stretch beyond) (fun locals left place =>
      obeys_addrRound msg af locals left place _) fuel place
  refine rounds.mono fun plenty => ⟨trivial, ?_⟩
  obtain ⟨-, len, small⟩ := place
  rw [len] at small
  exact Nat.lt_of_lt_of_le small plenty

theorem local_getSessPrms : Local 18 getSessPrms := by
  intro bytes more long
  have word : ∀ n, n + 2 ≤ 18 → get16 ((bytes ++ more).drop n) = get16 (bytes.drop n) :=
    fun n inside => (local_get16.drop n) bytes more (Nat.le_trans inside long)
  have lsrId : get32 ((bytes ++ more).drop 12) = get32 (bytes.drop 12) :=
    (local_get32.drop 12) bytes more (Nat.le_trans (by decide) long)
  rw [getSessPrms, word 2 (by decide), word 4 (by decide), word 6 (by decide), word 10 (by decide),
    lsrId, word 16 (by decide), getSessPrms]

theorem obeys_initTlv (msg : LdpMsg) (tlv : Tlv) (buf value : List UInt8) (found : Unit)
    (_ : Spans stretch beyond buf value) (_ : tlv.length.toNat ≤ value.length) :
    Obeys stretch enough Eq (initTlv msg tlv buf found) (readInitTlv msg tlv value found) := by
  rw [initTlv, readInitTlv]
  refine obeys_ite (fun _ => obeys_shutdown _ _) fun _ => ?_
  exact (obeys_unknownTlv msg tlv).weaken fun _ _ _ _ => rfl

/-- The parser of initialization messages follows the reading of their body. -/
theorem obeys_parseInit {buf body : List UInt8} (fuel : Nat) (rtrId : InAddr) (msg : LdpMsg)
    (spans : Spans stretch beyond buf body) (small : body.length < 2 ^ 16) :
    Obeys stretch (2 ^ 16 ≤ fuel) Eq (parseInit fuel rtrId msg buf body.length)
      (readInit rtrId msg body) := by
  rw [parseInit, readInit]
  refine obeys_ite (fun _ => obeys_shutdown _ _) fun long => ?_
  have eighteen : 18 ≤ body.length := Nat.le_of_not_lt long
  refine obeys_readMem_bind spans.holds eighteen local_getSessPrms ?_
  refine obeys_ite (fun _ => obeys_shutdown _ _) fun _ => ?_
  refine obeys_ite (fun _ => obeys_shutdown _ _) fun _ => ?_
  refine obeys_ite (fun _ => obeys_shutdown _ _) fun _ => ?_
  refine obeys_ite (fun _ => obeys_shutdown _ _) fun _ => ?_
  refine obeys_subtract_bind eighteen small ?_
  have place : TlvAt stretch beyond ⟨buf.drop sessPrmsSize, body.length - sessPrmsSize, ()⟩
      ⟨body.drop sessPrmsSize, ()⟩ := by
    refine ⟨spans.drop 18 eighteen, (List.length_drop ..).symm, ?_, rfl⟩
    exact Nat.lt_of_le_of_lt (Nat.sub_le _ _) small
  exact (obeys_tlvs (obeys_initTlv msg) place).bind fun _ _ _ _ => follows_pure rfl

/-! ### Whole messages -/

/-- What is to be done about a message, with what comes after it, as the engine stands: the rest of
its body is read, and then acted on. -/
def readMessage (ldpe : Ldpe) (beyond message : List UInt8) : Said (Ldpe → Option Unit × Ldpe) :=
  let msg := getLdpMsg message
  let body := message.drop ldpMsgSize
  if msg.type = msgTypeNotification then do
    let nm ← readNotification msg beyond body
    return finishNotification msg nm
  else if msg.type = msgTypeInit then do
    let sess ← readInit ldpe.rtrId msg body
    return fun ldpe => (some (), finishInit ldpe sess)
  else if msg.type = msgTypeKeepalive then
    if message.length ≠ ldpMsgSize then endWith sBadMsgLen msg
    else pure fun ldpe => (some (), finishKeepalive ldpe)
  else if msg.type = msgTypeAddr ∨ msg.type = msgTypeAddrwithdraw then do
    readAddress ldpe.nbr.takes msg body
    return fun ldpe => (some (), ldpe)
  else if msg.type ∈ labelTypes then do
    let parsed ← readLabelmessage msg msg.type beyond body
    return notifyLde msg msg.type parsed.2 parsed.1
  else if msg.type &&& unknownFlag = 0 then
    { replies := [.notify sUnknownMsg msg], verdict := .accept fun ldpe => (some (), ldpe) }
  else pure fun ldpe => (some (), ldpe)

/-- A parser that acts on what it has read of a stretch. -/
abbrev ObeysAt (stretch : Stretch) (enough : Prop) (ldpe : Ldpe) (parser : Parser Unit)
    (said : Said (Ldpe → Option Unit × Ldpe)) : Prop :=
  ActsAt (Access.Inside stretch) Access.Meant say enough ldpe parser said

theorem local_getLdpMsg : Local 8 getLdpMsg := by
  intro bytes more long
  have first : get16 (bytes ++ more) = get16 bytes :=
    local_get16 bytes more (Nat.le_trans (by decide) long)
  have second : get16 ((bytes ++ more).drop 2) = get16 (bytes.drop 2) :=
    (local_get16.drop 2) bytes more (Nat.le_trans (by decide) long)
  have third : get32 ((bytes ++ more).drop 4) = get32 (bytes.drop 4) :=
    (local_get32.drop 4) bytes more long
  rw [getLdpMsg, first, second, third, getLdpMsg]

theorem length_drop_lt {bytes : List UInt8} {bound : Nat} (small : bytes.length < bound) (n : Nat) :
    (bytes.drop n).length < bound := by
  rw [List.length_drop]
  exact Nat.lt_of_le_of_lt (Nat.sub_le _ _) small

/-- The header of a message and the length of its body. -/
theorem obeysAt_header {buf message : List UInt8} {ldpe : Ldpe}
    {next : LdpMsg → Nat → Parser Unit} {said : Said (Ldpe → Option Unit × Ldpe)}
    (spans : Spans stretch beyond buf message) (long : 8 ≤ message.length)
    (small : message.length < 2 ^ 16)
    (rest : ObeysAt stretch enough ldpe
      (next (getLdpMsg message) (message.drop ldpMsgSize).length) said) :
    ObeysAt stretch enough ldpe
      (readMem 8 getLdpMsg buf >>= fun msg =>
        subtract 16 message.length ldpMsgSize >>= fun len => next msg len) said := by
  refine (obeys_readMem spans.holds long local_getLdpMsg ldpe).then ?_
  refine (obeys_subtract long small ldpe).then ?_
  rw [List.length_drop] at rest
  exact rest

theorem obeysAt_recvLabelmessage {buf message : List UInt8} (fuel : Nat) (type : UInt16) (ldpe : Ldpe)
    (spans : Spans stretch beyond buf message) (long : 8 ≤ message.length)
    (small : message.length < 2 ^ 16) :
    ObeysAt stretch (2 ^ 16 ≤ fuel) ldpe (recvLabelmessage fuel buf message.length type)
      (readLabelmessage (getLdpMsg message) type beyond (message.drop ldpMsgSize) >>= fun parsed =>
        pure (notifyLde (getLdpMsg message) type parsed.2 parsed.1)) := by
  refine obeysAt_header spans long small ?_
  refine (obeys_parseLabelmessage fuel _ type (spans.drop 8 long) ?_ ldpe).act _
  exact length_drop_lt small _

theorem obeysAt_recvNotification {buf message : List UInt8} (fuel : Nat) (ldpe : Ldpe)
    (spans : Spans stretch beyond buf message) (long : 8 ≤ message.length)
    (small : message.length < 2 ^ 16) :
    ObeysAt stretch (2 ^ 16 ≤ fuel) ldpe (recvNotification fuel buf message.length)
      (readNotification (getLdpMsg message) beyond (message.drop ldpMsgSize) >>= fun nm =>
        pure (finishNotification (getLdpMsg message) nm)) := by
  refine obeysAt_header spans long small ?_
  refine (obeys_parseNotification fuel _ (spans.drop 8 long) ?_ ldpe).act _
  exact length_drop_lt small _

theorem obeysAt_recvInit {buf message : List UInt8} (fuel : Nat) (ldpe : Ldpe)
    (spans : Spans stretch beyond buf message) (long : 8 ≤ message.length)
    (small : message.length < 2 ^ 16) :
    ObeysAt stretch (2 ^ 16 ≤ fuel) ldpe (recvInit fuel buf message.length)
      (readInit ldpe.rtrId (getLdpMsg message) (message.drop ldpMsgSize) >>= fun sess =>
        pure fun ldpe => (some (), finishInit ldpe sess)) := by
  refine obeysAt_header spans long small ?_
  refine (obeys_parseInit fuel ldpe.rtrId _ (spans.drop 8 long) ?_ ldpe).act _
  exact length_drop_lt small _

theorem obeysAt_recvKeepalive {buf message : List UInt8} (ldpe : Ldpe)
    (spans : Spans stretch beyond buf message) (long : 8 ≤ message.length) :
    ObeysAt stretch enough ldpe (recvKeepalive buf message.length)
      (if message.length ≠ ldpMsgSize then endWith sBadMsgLen (getLdpMsg message)
        else pure fun ldpe => (some (), finishKeepalive ldpe)) := by
  refine (obeys_readMem spans.holds long local_getLdpMsg ldpe).then ?_
  split
  · exact Or.inr ⟨iff_of_true (clean_nil _) rfl, defined_ret _, rfl⟩
  · exact Or.inr ⟨iff_of_true (clean_nil _) rfl, defined_ret _, rfl⟩

/-- The addresses of a message that is for a neighbor that takes some families. -/
theorem followsAt_addresses {buf body : List UInt8} (fuel : Nat) (msg : LdpMsg) (ldpe : Ldpe)
    (spans : Spans stretch beyond buf body) (small : body.length < 2 ^ 16) :
    FollowsAt (Access.Inside stretch) Access.Meant say (2 ^ 16 ≤ fuel) Eq ldpe
      (parseAddress fuel msg buf body.length) (readAddress ldpe.nbr.takes msg body) := by
  rw [parseAddress, readAddress]
  refine followsAt_ite (fun _ => obeys_shutdown _ _ ldpe) fun long => ?_
  have six : 6 ≤ body.length := Nat.le_of_not_lt long
  refine (obeys_readMem spans.holds six local_getTlv_get16 ldpe).bind_pure ?_
  refine followsAt_ite (fun _ => obeys_shutdown _ _ ldpe) fun _ => ?_
  refine followsAt_ite (fun _ => obeys_shutdown _ _ ldpe) fun _ => ?_
  cases family : afOfFamily (get16 (body.drop 4)) with
  | none => exact obeys_refuse _ _ ldpe
  | some af =>
    refine followsAt_look (followsAt_ite (fun _ => ?_) fun _ => follows_pure rfl ldpe)
    refine (obeys_subtract six small ldpe).bind_pure ?_
    refine obeys_addrs fuel msg af ⟨spans.drop 6 six, (List.length_drop ..).symm, ?_⟩ ldpe
    exact Nat.lt_of_le_of_lt (Nat.sub_le _ _) small

theorem obeysAt_recvAddress {buf message : List UInt8} (fuel : Nat) (ldpe : Ldpe)
    (spans : Spans stretch beyond buf message) (long : 8 ≤ message.length)
    (small : message.length < 2 ^ 16) :
    ObeysAt stretch (2 ^ 16 ≤ fuel) ldpe (recvAddress fuel buf message.length)
      (readAddress ldpe.nbr.takes (getLdpMsg message) (message.drop ldpMsgSize) >>= fun _ =>
        pure fun ldpe => (some (), ldpe)) := by
  refine obeysAt_header spans long small ?_
  rw [← bind_act_some (parseAddress fuel _ _ _)]
  exact (followsAt_addresses fuel _ ldpe (spans.drop 8 long) (length_drop_lt small _)).act _

/-- The parser of a message does what the message says is to be done about it, and keeps within
the message unless the message leads astray. -/
theorem obeysAt_recvMessage {buf message : List UInt8} (fuel : Nat) (ldpe : Ldpe)
    (spans : Spans stretch beyond buf message) (long : 8 ≤ message.length)
    (small : message.length < 2 ^ 16) :
    ObeysAt stretch (2 ^ 16 ≤ fuel) ldpe
      (recvMessage fuel (getLdpMsg message) buf message.length) (readMessage ldpe beyond message) := by
  rw [recvMessage, readMessage]
  refine actsAt_ite (fun _ => obeysAt_recvNotification fuel ldpe spans long small) fun _ => ?_
  refine actsAt_ite (fun _ => obeysAt_recvInit fuel ldpe spans long small) fun _ => ?_
  refine actsAt_ite (fun _ => obeysAt_recvKeepalive ldpe spans long) fun _ => ?_
  refine actsAt_ite (fun _ => obeysAt_recvAddress fuel ldpe spans long small) fun _ => ?_
  refine actsAt_ite (fun _ => obeysAt_recvLabelmessage fuel _ ldpe spans long small) fun _ => ?_
  exact actsAt_ite (fun _ => actsAt_reply _ ldpe) fun _ => actsAt_pure () ldpe

end Follows

end Ldpd
