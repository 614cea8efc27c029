/-
This file follows `session_read` through one PDU: which messages it hands to their
parsers and in which state, what a round of its loop comes to, and which of the
messages it hands over do harm.
-/

import Ldpd.Ldpe.Prefixes

namespace Ldpd

open Bytes Code Reading

/-! ### The flaws of messages -/

/-- The flaws of a message, with what comes after it in the PDU. -/
def MessageFlaw (beyond message : List UInt8) (flaw : Flaw) : Prop :=
  (getLdpMsg message).type = msgTypeNotification ∧
      NotificationFlaw beyond (message.drop ldpMsgSize) flaw ∨
    (getLdpMsg message).type ∈ labelTypes ∧
      LabelFlaw (getLdpMsg message).type beyond (message.drop ldpMsgSize) flaw

theorem not_has_readInit (rtrId : InAddr) (msg : LdpMsg) (body : List UInt8) (flaw : Flaw) :
    ¬(readInit rtrId msg body).Has flaw := by
  rw [readInit]
  refine not_has_unless_ended (not_has_unless_ended (not_has_unless_ended (not_has_unless_ended
    (not_has_unless_ended ?_))))
  rw [bind_has]
  rintro (flawed | ⟨_, -, flawed⟩)
  · rw [readTlvs, iterate_has] at flawed
    refine walk_never (fun tlvs spoils => ?_) _ flawed
    refine absurd ((readTlv_spoils _ _ _ _).mp spoils).2 ?_
    rw [readInitTlv]
    exact not_has_unless_ended (not_has_readUnknown _ _ _)
  · exact not_has_pure _ _ flawed

theorem not_has_readAddrs (msg : LdpMsg) (af : Af) (left : List UInt8) (flaw : Flaw) :
    ¬(readAddrs msg af left).Has flaw := by
  rw [readAddrs, iterate_has]
  refine walk_never (fun left => ?_) left
  rw [Spoils, readAddr]
  split
  · rintro (flawed | ⟨-, _, accepts, -⟩)
    · exact not_has_pure _ _ flawed
    · cases accepts
  split
  · rintro (flawed | ⟨-, _, accepts, -⟩)
    · exact not_has_endWith _ _ _ flawed
    · cases accepts
  · rename_i some' long
    rintro (flawed | ⟨-, again, accepts, stays⟩)
    · obtain flawed | ⟨_, -, flawed⟩ := bind_has.mp flawed
      · exact not_has_accept _ _ _ flawed
      · exact not_has_pure _ _ flawed
    · obtain ⟨_, -, accepts⟩ := bind_accepts.mp accepts
      cases accepts
      have size : 0 < af.addrSize := by cases af <;> decide
      rw [List.length_drop] at stays
      omega

theorem not_has_readAddress (takes : Af → Bool) (msg : LdpMsg) (body : List UInt8) (flaw : Flaw) :
    ¬(readAddress takes msg body).Has flaw := by
  rw [readAddress]
  refine not_has_unless_ended (not_has_unless_ended (not_has_unless_ended ?_))
  cases afOfFamily (get16 (body.drop 4)) with
  | none => exact not_has_refuseWith _ _ _
  | some af => exact not_has_ite (not_has_readAddrs _ _ _ _) (not_has_pure _ _)

/-- A message does the harm it can be seen to do. -/
theorem readMessage_has (ldpe : Ldpe) (beyond message : List UInt8) (flaw : Flaw) :
    (readMessage ldpe beyond message).Has flaw ↔ MessageFlaw beyond message flaw := by
  rw [readMessage, MessageFlaw]
  by_cases notification : (getLdpMsg message).type = msgTypeNotification
  · have other : (getLdpMsg message).type ∉ labelTypes := by
      rw [notification]
      decide
    rw [if_pos notification, bind_pure_has, readNotification_has, and_iff_right notification]
    exact (or_iff_left fun label => other label.1).symm
  rw [if_neg notification]
  refine Iff.trans ?_ (or_iff_right fun both => notification both.1).symm
  by_cases label : (getLdpMsg message).type ∈ labelTypes
  · have other {type : UInt16} (unlisted : type ∉ labelTypes) : (getLdpMsg message).type ≠ type :=
      fun same => unlisted (same ▸ label)
    have notInit := other (show msgTypeInit ∉ labelTypes by decide)
    have notKeepalive := other (show msgTypeKeepalive ∉ labelTypes by decide)
    have notAddr : ¬((getLdpMsg message).type = msgTypeAddr ∨
        (getLdpMsg message).type = msgTypeAddrwithdraw) :=
      not_or.mpr ⟨other (by decide), other (by decide)⟩
    rw [if_neg notInit, if_neg notKeepalive, if_neg notAddr, if_pos label, bind_pure_has,
      readLabelmessage_has, and_iff_right label]
  · refine iff_of_false ?_ fun both => label both.1
    refine not_has_ite ?_ (not_has_ite ?_ (not_has_ite ?_ ?_))
    · rw [bind_pure_has]
      exact not_has_readInit _ _ _ _
    · exact not_has_unless_ended (not_has_pure _ _)
    · rw [bind_pure_has]
      exact not_has_readAddress _ _ _ _
    · rw [if_neg label]
      exact not_has_ite (not_has_accept _ _ _) (not_has_pure _ _)

/-! ### The messages of a PDU -/

/-- What of the engine decides what becomes of the messages of a session. -/
structure Standing where
  rtrId : InAddr
  id : InAddr
  v4Enabled : Bool
  v6Enabled : Bool
  state : NbrState
  maxPduLen : UInt16
  deriving DecidableEq

/-- The standing of the session of an engine. -/
def Ldpe.standing (ldpe : Ldpe) : Standing where
  rtrId := ldpe.rtrId
  id := ldpe.nbr.id
  v4Enabled := ldpe.nbr.v4Enabled
  v6Enabled := ldpe.nbr.v6Enabled
  state := ldpe.nbr.state
  maxPduLen := ldpe.nbr.maxPduLen

/-- The size of the first message of the rest of a PDU, as its header has it. -/
def messageSize (rest : List UInt8) : Nat :=
  (getLdpMsg rest).length.toNat + ldpMsgDeadLen

/-- The first message of the rest of a PDU. -/
def firstMessage (rest : List UInt8) : List UInt8 :=
  rest.take (messageSize rest)

/-- What follows the first message of the rest of a PDU. -/
def afterMessage (rest : List UInt8) : List UInt8 :=
  rest.drop (messageSize rest)

/-- The rest of a PDU starts with a message that has a header and is all there. -/
def MessageWhole (rest : List UInt8) : Prop :=
  ldpMsgSize ≤ rest.length ∧ ldpMsgSize ≤ messageSize rest ∧ messageSize rest ≤ rest.length

instance (rest : List UInt8) : Decidable (MessageWhole rest) :=
  inferInstanceAs (Decidable (_ ∧ _))

/-- The rest of a PDU starts with a message that is all there and welcome. -/
def Welcome (standing : Standing) (rest : List UInt8) : Prop :=
  MessageWhole rest ∧ messageAllowed standing.state (getLdpMsg rest).type = true

instance (standing : Standing) (rest : List UInt8) : Decidable (Welcome standing rest) :=
  inferInstanceAs (Decidable (_ ∧ _))

/-- The part of a PDU that its first message takes up. -/
def messageStretch (rest : List UInt8) : Stretch :=
  ⟨rest.length, rest.length - messageSize rest⟩

/-- The locals of the loop over the messages, with the rest of a PDU in front of them. -/
def messagesLeft (rest : List UInt8) : MsgLocals :=
  ⟨rest, rest.length, rest.length⟩

theorem MessageWhole.length {rest : List UInt8} (whole : MessageWhole rest) :
    (firstMessage rest).length = messageSize rest :=
  List.length_take_of_le whole.2.2

theorem MessageWhole.header {rest : List UInt8} (whole : MessageWhole rest) :
    getLdpMsg (firstMessage rest) = getLdpMsg rest := by
  have looks := local_getLdpMsg (firstMessage rest) (afterMessage rest) (by
    rw [whole.length]
    exact whole.2.1)
  rw [firstMessage, afterMessage, List.take_append_drop] at looks
  exact looks.symm

theorem MessageWhole.shorter {rest : List UInt8} (whole : MessageWhole rest) :
    (afterMessage rest).length < rest.length := by
  obtain ⟨long, positive, fits⟩ := whole
  have eight : 8 ≤ messageSize rest := positive
  rw [afterMessage, List.length_drop]
  omega

/-- The parser of the first message of the rest of a PDU. -/
theorem obeysAt_message {rest : List UInt8} (whole : MessageWhole rest)
    (small : rest.length < 2 ^ 16) (fuel : Nat) (ldpe : Ldpe) :
    ObeysAt (messageStretch rest) (2 ^ 16 ≤ fuel) ldpe
      (recvMessage fuel (getLdpMsg rest) rest (messageSize rest))
      (readMessage ldpe (afterMessage rest) (firstMessage rest)) := by
  have obeys := obeysAt_recvMessage fuel ldpe (spans_take rest (messageSize rest))
    (by rw [← firstMessage, whole.length]; exact whole.2.1)
    (by rw [← firstMessage, whole.length]; exact Nat.lt_of_le_of_lt whole.2.2 small)
  rw [← firstMessage, whole.length, whole.header] at obeys
  exact obeys

/-! ### Rounds -/

/-- What happens in a round before the message is handed over. -/
def roundStart (rest : List UInt8) : List SessionEvent :=
  [.access ⟨rest.length, rest.length - ldpMsgSize⟩ (.read rest.length 8),
    .access (messageStretch rest) (.subtract rest.length (messageSize rest)),
    .dispatch (firstMessage rest)]

/-- An event that keeps within the stretch it is about. -/
def SessionEvent.Inside : SessionEvent → Prop
  | .access stretch touched => touched.Inside stretch
  | .dispatch _ => True

/-- The messages that are handed over. -/
def dispatched (trace : List SessionEvent) : List (List UInt8) :=
  trace.filterMap fun
    | .access _ _ => none
    | .dispatch message => some message

theorem header_run {rest : List UInt8} (long : ldpMsgSize ≤ rest.length) (ldpe : Ldpe) :
    within ⟨rest.length, rest.length - ldpMsgSize⟩ (readMem 8 getLdpMsg rest) ldpe =
      ⟨[.access ⟨rest.length, rest.length - ldpMsgSize⟩ (.read rest.length 8)],
        .ret (some (getLdpMsg rest), ldpe)⟩ := by
  have eight : 8 ≤ rest.length := long
  rw [within, mapEvents, readMem, if_pos eight]
  rfl

theorem pduLen_run {rest : List UInt8} (fits : messageSize rest ≤ rest.length)
    (small : rest.length < 2 ^ 16) (ldpe : Ldpe) :
    within (messageStretch rest) (subtract 16 rest.length (messageSize rest)) ldpe =
      ⟨[.access (messageStretch rest) (.subtract rest.length (messageSize rest))],
        .ret (some (rest.length - messageSize rest), ldpe)⟩ := by
  have left : rest.length + 2 ^ 16 - messageSize rest % 2 ^ 16 =
      rest.length - messageSize rest + 2 ^ 16 := by
    rw [Nat.mod_eq_of_lt (by omega : messageSize rest < 2 ^ 16)]
    omega
  rw [within, mapEvents, subtract, left, Nat.add_mod_right, Nat.mod_eq_of_lt (by omega)]
  rfl

theorem look_run (ldpe : Ldpe) : (look : Session Ldpe) ldpe = ⟨[], .ret (some ldpe, ldpe)⟩ := rfl

/-- A round that hands a message over. -/
theorem messageRound_welcome {ldpe : Ldpe} {rest : List UInt8} (welcome : Welcome ldpe.standing rest)
    (small : rest.length < 2 ^ 16) (fuel : Nat) :
    messageRound fuel (messagesLeft rest) ldpe = Execution.prepend (roundStart rest)
      ((within (messageStretch rest) (recvMessage fuel (getLdpMsg rest) rest (messageSize rest)) >>=
        fun _ => pure (.inl (messagesLeft (afterMessage rest)))) ldpe) := by
  obtain ⟨⟨long, positive, fits⟩, allowed⟩ := welcome
  change messageAllowed ldpe.nbr.state (getLdpMsg rest).type = true at allowed
  have header := header_run long ldpe
  have pduLen := pduLen_run fits small ldpe
  have sized : ¬((getLdpMsg rest).length.toNat < ldpMsgLen ∨
      rest.length < (getLdpMsg rest).length.toNat + ldpMsgDeadLen) := by
    have four : 8 ≤ (getLdpMsg rest).length.toNat + 4 := positive
    have whole : (getLdpMsg rest).length.toNat + 4 ≤ rest.length := fits
    show ¬(_ < 4 ∨ _ < _ + 4)
    omega
  have logged : (log (.dispatch (firstMessage rest)) : Session Unit) ldpe =
      ⟨[.dispatch (firstMessage rest)], .ret (some (), ldpe)⟩ := rfl
  have after : messagesLeft (afterMessage rest) =
      ⟨afterMessage rest, rest.length - messageSize rest, rest.length - messageSize rest⟩ := by
    rw [messagesLeft, afterMessage, List.length_drop]
  rw [messageRound, messagesLeft]
  simp only
  rw [if_neg (Nat.not_lt.mpr long), bind_ret header, if_neg sized, ← messageSize, ← messageStretch,
    ← firstMessage, ← afterMessage, bind_ret pduLen, bind_ret (look_run ldpe), if_pos allowed,
    bind_ret logged, after, Execution.prepend_nil, Execution.prepend_prepend,
    Execution.prepend_prepend]
  rfl

/-- A round that comes to the end of the PDU. -/
theorem messageRound_end {rest : List UInt8} (short : rest.length < ldpMsgSize) (fuel : Nat)
    (ldpe : Ldpe) :
    messageRound fuel (messagesLeft rest) ldpe = ⟨[], .ret (some (.inr rest.length), ldpe)⟩ := by
  rw [messageRound, messagesLeft]
  simp only
  rw [if_pos short]
  rfl

/-- A round that comes to a message that is not welcome. -/
theorem messageRound_unwelcome {ldpe : Ldpe} {rest : List UInt8} (long : ldpMsgSize ≤ rest.length)
    (small : rest.length < 2 ^ 16) (unwelcome : ¬Welcome ldpe.standing rest) (fuel : Nat) :
    ∃ trace status, (∀ event ∈ trace, event.Inside) ∧ dispatched trace = [] ∧
      status &&& statusFatal ≠ 0 ∧ messageRound fuel (messagesLeft rest) ldpe =
        ⟨trace, .ret (none, say ldpe (.shutdown status (getLdpMsg rest)))⟩ := by
  have header := header_run long ldpe
  have inside : SessionEvent.Inside
      (.access ⟨rest.length, rest.length - ldpMsgSize⟩ (.read rest.length 8)) := by
    have eight : 8 ≤ rest.length := long
    show rest.length ≤ rest.length ∧ rest.length - 8 + 8 ≤ rest.length
    omega
  rw [messageRound, messagesLeft]
  simp only
  rw [if_neg (Nat.not_lt.mpr long), bind_ret header]
  by_cases sized : (getLdpMsg rest).length.toNat < ldpMsgLen ∨
      rest.length < (getLdpMsg rest).length.toNat + ldpMsgDeadLen
  · rw [if_pos sized]
    refine ⟨_, sBadTlvLen, ?_, ?_, by decide, rfl⟩
    · exact List.forall_mem_singleton.mpr inside
    · rfl
  · have whole : MessageWhole rest := by
      refine ⟨long, ?_, ?_⟩
      · show 8 ≤ _ + 4
        have four : ¬_ < 4 := (not_or.mp sized).1
        omega
      · exact Nat.le_of_not_lt (not_or.mp sized).2
    have allowed : ¬messageAllowed ldpe.nbr.state (getLdpMsg rest).type = true :=
      fun allowed => unwelcome ⟨whole, allowed⟩
    have pduLen := pduLen_run whole.2.2 small ldpe
    rw [if_neg sized, ← messageSize, ← messageStretch, bind_ret pduLen, bind_ret (look_run ldpe),
      if_neg allowed]
    refine ⟨_, sShutdown, ?_, ?_, by decide, rfl⟩
    · exact List.forall_mem_cons.mpr ⟨inside, List.forall_mem_singleton.mpr whole.2.2⟩
    · rfl

/-! ### The header of a PDU -/

/-- The length field of a PDU. -/
def pduLength (pdu : List UInt8) : UInt16 :=
  get16 (pdu.drop 2)

/-- A PDU that is all there and no more. -/
def PduWhole (pdu : List UInt8) : Prop :=
  pdu.length = (pduLength pdu).toNat + ldpHdrDeadLen

theorem pduWhole_of_get {rbuf pdu rest : List UInt8} (get : sessionGetPdu rbuf = some (pdu, rest)) :
    PduWhole pdu := by
  rw [sessionGetPdu] at get
  split at get
  · cases get
  · rename_i long
    simp only at get
    split at get
    · cases get
    · rename_i fits
      cases get
      have ten : 10 ≤ rbuf.length := Nat.le_of_not_lt long
      have length : (get16 (rbuf.drop 2)).toNat + ldpHdrDeadLen ≤ rbuf.length :=
        Nat.le_of_not_lt fits
      have four : 2 + 2 ≤ (rbuf.take ((get16 (rbuf.drop 2)).toNat + ldpHdrDeadLen)).length := by
        rw [List.length_take_of_le length]
        exact Nat.le_add_left _ _
      have field := (local_get16.drop 2) _ (rbuf.drop ((get16 (rbuf.drop 2)).toNat + ldpHdrDeadLen))
        four
      simp only [List.take_append_drop] at field
      rw [PduWhole, pduLength, ← field, List.length_take_of_le length]

/-- The longest PDU that the session takes. -/
def maxPduLen (standing : Standing) : UInt16 :=
  if standing.state = .oper then standing.maxPduLen else ldpMaxLen

/-- The header of a PDU is that of the session. -/
def HeaderGood (standing : Standing) (pdu : List UInt8) : Prop :=
  get16 pdu = ldpVersion ∧ ldpHdrPduLen + ldpMsgSize ≤ (pduLength pdu).toNat ∧
    pduLength pdu ≤ maxPduLen standing ∧ get32 (pdu.drop 4) = standing.id ∧ get16 (pdu.drop 8) = 0

instance (standing : Standing) (pdu : List UInt8) : Decidable (HeaderGood standing pdu) :=
  inferInstanceAs (Decidable (_ ∧ _))

/-- A PDU as a whole. -/
def pduStretch (pdu : List UInt8) : Stretch :=
  ⟨pdu.length, 0⟩

/-- What `session_read` reads of the header of a PDU. -/
def headerReads (pdu : List UInt8) : List SessionEvent :=
  [.access (pduStretch pdu) (.read pdu.length 4),
    .access (pduStretch pdu) (.subtract (pduLength pdu).toNat ldpHdrPduLen),
    .access (pduStretch pdu) (.read (pdu.drop 4).length 6)]

/-- The messages of a PDU. -/
def pduBody (pdu : List UInt8) : List UInt8 :=
  pdu.drop ldpHdrSize

/-- What `session_read` does with the messages of a PDU. -/
def sessionMessages (fuel : Nat) (pdu : List UInt8) : Session Unit :=
  loop (messageRound fuel) fuel (messagesLeft (pduBody pdu)) >>= fun left =>
    if left ≠ 0 then sessionFail (pduStretch pdu) sBadPduLen else return ()

/-- `sessionPdu`, in the words of this file. -/
theorem sessionPdu_eq (fuel : Nat) (pdu : List UInt8) :
    sessionPdu fuel pdu =
      within (pduStretch pdu) (readMem 4 (fun bytes => (get16 bytes, get16 (bytes.drop 2))) pdu) >>=
        fun header =>
        if header.1 ≠ ldpVersion then sessionFail (pduStretch pdu) sBadProtoVer
        else look >>= fun ldpe =>
          if header.2.toNat < ldpHdrPduLen + ldpMsgSize ∨ maxPduLen ldpe.standing < header.2 then
            sessionFail (pduStretch pdu) sBadPduLen
          else within (pduStretch pdu) (subtract 16 header.2.toNat ldpHdrPduLen) >>= fun pduLen =>
            within (pduStretch pdu)
              (readMem 6 (fun bytes => (get32 bytes, get16 (bytes.drop 4))) (pdu.drop 4)) >>= fun id =>
            if id.1 ≠ ldpe.nbr.id ∨ id.2 ≠ 0 then sessionFail (pduStretch pdu) sBadLdpId
            else (change fun ldpe => nbrFsm ldpe .pduRcvd) >>= fun _ =>
              loop (messageRound fuel) fuel ⟨pduBody pdu, pdu.length - ldpHdrSize, pduLen⟩ >>= fun left =>
                if left ≠ 0 then sessionFail (pduStretch pdu) sBadPduLen else return () :=
  rfl

section Header

variable {ldpe : Ldpe} {pdu : List UInt8} (whole : PduWhole pdu)
include whole

theorem fields_run (ldpe : Ldpe) :
    within (pduStretch pdu) (readMem 4 (fun bytes => (get16 bytes, get16 (bytes.drop 2))) pdu) ldpe =
      ⟨[.access (pduStretch pdu) (.read pdu.length 4)],
        .ret (some (get16 pdu, pduLength pdu), ldpe)⟩ := by
  have four : 4 ≤ pdu.length := whole ▸ Nat.le_add_left _ _
  rw [within, mapEvents, readMem, if_pos four]
  rfl

theorem length_run (long : ldpHdrPduLen ≤ (pduLength pdu).toNat) (ldpe : Ldpe) :
    within (pduStretch pdu) (subtract 16 (pduLength pdu).toNat ldpHdrPduLen) ldpe =
      ⟨[.access (pduStretch pdu) (.subtract (pduLength pdu).toNat ldpHdrPduLen)],
        .ret (some (pduBody pdu).length, ldpe)⟩ := by
  have bound := (pduLength pdu).toNat_lt
  have body : (pduBody pdu).length = (pduLength pdu).toNat - ldpHdrPduLen := by
    rw [pduBody, List.length_drop, whole]
    show _ + 4 - 10 = _ - 6
    omega
  have six : 6 ≤ (pduLength pdu).toNat := long
  have left : (pduLength pdu).toNat + 2 ^ 16 - ldpHdrPduLen % 2 ^ 16 =
      (pduLength pdu).toNat - ldpHdrPduLen + 2 ^ 16 := by
    show _ + 2 ^ 16 - 6 = _ - 6 + 2 ^ 16
    omega
  rw [within, mapEvents, subtract, left, Nat.add_mod_right, ← body, Nat.mod_eq_of_lt (by omega)]
  rfl

theorem id_run (long : ldpHdrPduLen ≤ (pduLength pdu).toNat) (ldpe : Ldpe) :
    within (pduStretch pdu)
        (readMem 6 (fun bytes => (get32 bytes, get16 (bytes.drop 4))) (pdu.drop 4)) ldpe =
      ⟨[.access (pduStretch pdu) (.read (pdu.drop 4).length 6)],
        .ret (some (get32 (pdu.drop 4), get16 (pdu.drop 8)), ldpe)⟩ := by
  have six : 6 ≤ (pdu.drop 4).length := by
    rw [List.length_drop, whole]
    exact long
  rw [within, mapEvents, readMem, if_pos six, List.drop_drop]
  rfl

theorem fields_inside : SessionEvent.Inside (.access (pduStretch pdu) (.read pdu.length 4)) := by
  have length : pdu.length = (pduLength pdu).toNat + 4 := whole
  show pdu.length ≤ pdu.length ∧ 0 + 4 ≤ pdu.length
  omega

theorem headerReads_inside (long : ldpHdrPduLen ≤ (pduLength pdu).toNat) :
    ∀ event ∈ headerReads pdu, event.Inside := by
  have length : pdu.length = (pduLength pdu).toNat + 4 := whole
  have six : 6 ≤ (pduLength pdu).toNat := long
  refine List.forall_mem_cons.mpr ⟨fields_inside whole, List.forall_mem_cons.mpr ⟨long, ?_⟩⟩
  refine List.forall_mem_singleton.mpr ?_
  show (pdu.drop 4).length ≤ pdu.length ∧ 0 + 6 ≤ (pdu.drop 4).length
  rw [List.length_drop]
  omega

/-- A PDU of the session is read message by message. -/
theorem sessionPdu_good (good : HeaderGood ldpe.standing pdu) (fuel : Nat) :
    sessionPdu fuel pdu ldpe = Execution.prepend (headerReads pdu)
      (sessionMessages fuel pdu (nbrFsm ldpe .pduRcvd)) := by
  obtain ⟨version, long, short, id, space⟩ := good
  have six : ldpHdrPduLen ≤ (pduLength pdu).toNat := Nat.le_trans (Nat.le_add_right _ _) long
  have changed : (change fun ldpe => nbrFsm ldpe .pduRcvd : Session Unit) ldpe =
      ⟨[], .ret (some (), nbrFsm ldpe .pduRcvd)⟩ := rfl
  have sized : ¬((pduLength pdu).toNat < ldpHdrPduLen + ldpMsgSize ∨
      maxPduLen ldpe.standing < pduLength pdu) :=
    not_or.mpr ⟨Nat.not_lt.mpr long, UInt16.not_lt.mpr short⟩
  have same : ¬(get32 (pdu.drop 4) ≠ ldpe.nbr.id ∨ get16 (pdu.drop 8) ≠ 0) :=
    not_or.mpr ⟨not_not.mpr id, not_not.mpr space⟩
  have body : pdu.length - ldpHdrSize = (pduBody pdu).length := List.length_drop.symm
  rw [sessionPdu_eq, body, bind_ret (fields_run whole ldpe), if_neg (not_not.mpr version),
    bind_ret (look_run ldpe), if_neg sized, bind_ret (length_run whole six ldpe),
    bind_ret (id_run whole six ldpe), if_neg same, bind_ret changed, Execution.prepend_nil,
    Execution.prepend_nil, Execution.prepend_prepend, Execution.prepend_prepend]
  rfl

/-- A PDU that is not of the session ends it. -/
theorem sessionPdu_bad (bad : ¬HeaderGood ldpe.standing pdu) (fuel : Nat) :
    ∃ trace status, (∀ event ∈ trace, event.Inside) ∧ dispatched trace = [] ∧
      status &&& statusFatal ≠ 0 ∧
        sessionPdu fuel pdu ldpe = ⟨trace, .ret (none, say ldpe (.shutdown status ⟨0, 0, 0⟩))⟩ := by
  have fields := fields_inside whole
  rw [sessionPdu_eq, bind_ret (fields_run whole ldpe)]
  by_cases version : get16 pdu ≠ ldpVersion
  · rw [if_pos version]
    exact ⟨_, _, List.forall_mem_singleton.mpr fields, rfl, by decide, rfl⟩
  rw [if_neg version, bind_ret (look_run ldpe)]
  by_cases sized : (pduLength pdu).toNat < ldpHdrPduLen + ldpMsgSize ∨
      maxPduLen ldpe.standing < pduLength pdu
  · rw [if_pos sized]
    exact ⟨_, _, List.forall_mem_singleton.mpr fields, rfl, by decide, rfl⟩
  obtain ⟨long, short⟩ := not_or.mp sized
  have long' := Nat.le_of_not_lt long
  have six : ldpHdrPduLen ≤ (pduLength pdu).toNat := Nat.le_trans (Nat.le_add_right _ _) long'
  rw [if_neg sized, bind_ret (length_run whole six ldpe), bind_ret (id_run whole six ldpe)]
  by_cases same : get32 (pdu.drop 4) ≠ ldpe.nbr.id ∨ get16 (pdu.drop 8) ≠ 0
  · rw [if_pos same]
    refine ⟨headerReads pdu, _, ?_, rfl, ?_, rfl⟩
    swap
    · decide
    exact headerReads_inside whole six
  · obtain ⟨id, space⟩ := not_or.mp same
    exact absurd ⟨not_not.mp version, long', UInt16.not_lt.mp short, not_not.mp id,
      not_not.mp space⟩ bad

end Header

end Ldpd
