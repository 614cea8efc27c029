/-
This file has the rules for what a session leaves of the engine. A parser changes the
engine only by its replies until it has read the whole message, so a property that the
replies keep is kept by every parser up to the point where it acts on what it has read,
and one that these actions and the state machine keep is kept by `session_read`.
-/

import Ldpd.Ldpe.Session

namespace Ldpd

open Bytes Code

/-- A property that the replies of a parser keep, and another one that they lead to when the parser
gives up. -/
structure Replies (property gaveUp : Ldpe → Prop) : Prop where
  weaker : ∀ ldpe, property ldpe → gaveUp ldpe
  notify : ∀ ldpe status msg, property ldpe → property (say ldpe (.notify status msg))
  shutdown : ∀ ldpe status msg, property ldpe → gaveUp (say ldpe (.shutdown status msg))

section Parsers

variable {property gaveUp : Ldpe → Prop} {Value : Type}

/-! ### Steps of a parser -/

theorem keeps_readMem (size : Nat) (decode : List UInt8 → Value) (buf : List UInt8) :
    Keeps property gaveUp (readMem size decode buf) where
  returns := by
    intro ldpe value ldpe' holds same
    rw [readMem] at same
    split at same
    · cases same
      exact holds
    · cases same
  givesUp := by
    intro ldpe ldpe' holds same
    rw [readMem] at same
    split at same
    · exact absurd same.symm gaveUp_ne_returned
    · cases same

/-- What is read is what the memory holds. -/
theorem triple_readMem (size : Nat) (decode : List UInt8 → Value) (buf : List UInt8) :
    Triple property (fun value ldpe => value = decode buf ∧ property ldpe) gaveUp
      (readMem size decode buf) where
  returns := by
    intro ldpe value ldpe' holds same
    rw [readMem] at same
    split at same
    · cases same
      exact ⟨rfl, holds⟩
    · cases same
  givesUp := (keeps_readMem size decode buf).givesUp

theorem keeps_subtract (width counter amount : Nat) :
    Keeps property gaveUp (subtract width counter amount) :=
  triple_of_outcome (fun _ => rfl) fun _ holds => holds

theorem keeps_subtractInt (counter amount : Nat) :
    Keeps property gaveUp (subtractInt counter amount) :=
  triple_of_outcome (fun _ => rfl) fun _ holds => holds

theorem keeps_undefined {pre : Ldpe → Prop} {post : Value → Ldpe → Prop} :
    Triple pre post gaveUp (undefinedBehaviour : Parser Value) :=
  ⟨nofun, nofun⟩

theorem keeps_noteOverlong (af : Af) (prefixlen : UInt8) :
    Keeps property gaveUp (noteOverlong af prefixlen) :=
  keeps_ite (keeps_log _) (keeps_pure _)

section

variable (replies : Replies property gaveUp)

include replies

theorem Replies.keeps_shutdown {post : Value → Ldpe → Prop} (status : UInt32) (msg : LdpMsg) :
    Triple property post gaveUp (Ldpd.shutdown status msg : Parser Value) :=
  triple_act fun ldpe holds => replies.shutdown ldpe status msg holds

theorem Replies.keeps_refuse {post : Value → Ldpe → Prop} (status : UInt32) (msg : LdpMsg) :
    Triple property post gaveUp (refuse status msg : Parser Value) :=
  triple_act fun ldpe holds => replies.weaker _ (replies.notify ldpe status msg holds)

theorem Replies.keeps_notify (status : UInt32) (msg : LdpMsg) :
    Keeps property gaveUp (Ldpd.notify status msg) :=
  keeps_change fun ldpe holds => replies.notify ldpe status msg holds

/-! ### FEC elements and TLVs -/

theorem Replies.keeps_decodePrefixElm (msg : LdpMsg) (buf : List UInt8) (len : Nat) (old : FecBuf) :
    Keeps property gaveUp (decodePrefixElm msg buf len old) := by
  rw [decodePrefixElm]
  refine keeps_ite (replies.keeps_shutdown _ _) (keeps_bind (keeps_readMem ..) fun family => ?_)
  cases afOfFamily family with
  | none => exact replies.keeps_refuse _ _
  | some af =>
    refine keeps_bind (keeps_readMem ..) fun prefixlen => ?_
    refine keeps_ite (replies.keeps_shutdown _ _) (keeps_bind (keeps_readMem ..) fun bytes => ?_)
    exact keeps_bind (keeps_noteOverlong ..) fun _ => keeps_pure _

theorem Replies.keeps_subtlvRound (msg : LdpMsg) (locals : SubtlvLocals) :
    Keeps property gaveUp (subtlvRound msg locals) := by
  rw [subtlvRound]
  refine keeps_ite (keeps_pure _) (keeps_ite (replies.keeps_shutdown _ _) ?_)
  refine keeps_bind (keeps_readMem ..) fun stlv => keeps_ite (replies.keeps_shutdown _ _) ?_
  refine keeps_ite (keeps_ite (replies.keeps_shutdown _ _) ?_) ?_
  · refine keeps_bind (keeps_readMem ..) fun ifmtu => ?_
    exact keeps_bind (keeps_subtract ..) fun pwLen => keeps_pure _
  · exact keeps_bind (keeps_subtract ..) fun pwLen => keeps_pure _

theorem Replies.keeps_decodePwidElm (fuel : Nat) (msg : LdpMsg) (buf : List UInt8) (len : Nat)
    (old : FecBuf) : Keeps property gaveUp (decodePwidElm fuel msg buf len old) := by
  rw [decodePwidElm]
  refine keeps_ite (replies.keeps_shutdown _ _) (keeps_bind (keeps_readMem ..) fun type => ?_)
  refine keeps_bind (keeps_readMem ..) fun pwLen => keeps_ite (replies.keeps_shutdown _ _) ?_
  refine keeps_bind (keeps_readMem ..) fun groupId => keeps_ite (keeps_pure _) ?_
  refine keeps_ite (replies.keeps_shutdown _ _) (keeps_bind (keeps_readMem ..) fun pwid => ?_)
  refine keeps_bind (keeps_subtract ..) fun pwLen => ?_
  exact keeps_bind (keeps_loop (replies.keeps_subtlvRound msg) _ _) fun locals => keeps_pure _

theorem Replies.keeps_tlvDecodeFecElm (fuel : Nat) (msg : LdpMsg) (buf : List UInt8) (len : Nat)
    (old : FecBuf) : Keeps property gaveUp (tlvDecodeFecElm fuel msg buf len old) := by
  rw [tlvDecodeFecElm]
  refine keeps_bind (keeps_readMem ..) fun type => ?_
  refine keeps_ite (keeps_ite (keeps_pure _) (replies.keeps_shutdown _ _)) ?_
  refine keeps_ite (replies.keeps_decodePrefixElm ..)
    (keeps_ite (replies.keeps_decodePwidElm ..) ?_)
  exact replies.keeps_refuse _ _

omit replies in
theorem Replies.keeps_tlvRound (replies : Replies property gaveUp) {Found : Type} (msg : LdpMsg)
    {handle : Tlv → List UInt8 → Found → Parser Found}
    (keeps : ∀ tlv buf found, Keeps property gaveUp (handle tlv buf found))
    (locals : TlvLocals Found) : Keeps property gaveUp (tlvRound msg handle locals) := by
  rw [tlvRound]
  refine keeps_ite (keeps_pure _) (keeps_ite (replies.keeps_shutdown _ _) ?_)
  refine keeps_bind (keeps_readMem ..) fun tlv => keeps_ite (replies.keeps_shutdown _ _) ?_
  refine keeps_bind (keeps_subtract ..) fun len => keeps_bind (keeps _ _ _) fun found => ?_
  exact keeps_bind (keeps_subtract ..) fun len => keeps_pure _

theorem Replies.keeps_unknownTlv (msg : LdpMsg) (tlv : Tlv) :
    Keeps property gaveUp (unknownTlv msg tlv) :=
  keeps_ite (replies.keeps_notify _ _) (keeps_pure _)

/-- A parameter that is one 32-bit word. -/
theorem Replies.keeps_word {Found : Type} {msg : LdpMsg} {buf : List UInt8} {condition : Prop}
    [Decidable condition] (store : UInt32 → Found) :
    Keeps property gaveUp (if condition then Ldpd.shutdown sBadTlvLen msg
      else readMem 4 get32 buf >>= fun word => pure (store word)) :=
  keeps_ite (replies.keeps_shutdown _ _) (keeps_bind (keeps_readMem ..) fun _ => keeps_pure _)

theorem Replies.keeps_labelTlv (msg : LdpMsg) (type : UInt16) (tlv : Tlv) (buf : List UInt8)
    (found : LabelParams) : Keeps property gaveUp (labelTlv msg type tlv buf found) := by
  rw [labelTlv]
  refine keeps_ite (keeps_ite (replies.keeps_word _) (keeps_pure _)) ?_
  refine keeps_ite (keeps_pure _) ?_
  refine keeps_ite (keeps_ite (replies.keeps_word _) (keeps_pure _)) ?_
  refine keeps_ite (keeps_ite (replies.keeps_shutdown _ _) (keeps_pure _)) ?_
  refine keeps_ite (keeps_ite (replies.keeps_shutdown _ _) (keeps_pure _)) ?_
  refine keeps_ite (keeps_ite (replies.keeps_word _) (keeps_pure _)) ?_
  exact keeps_bind (replies.keeps_unknownTlv _ _) fun _ => keeps_pure _

theorem Replies.keeps_mandatoryLabel (msg : LdpMsg) (type : UInt16) (buf : List UInt8) (len : Nat) :
    Keeps property gaveUp (mandatoryLabel msg type buf len) := by
  rw [mandatoryLabel, tlvDecodeLabel]
  refine keeps_ite (keeps_bind ?_ fun label => ?_) (keeps_pure _)
  · refine keeps_ite (replies.keeps_shutdown _ _) (keeps_bind (keeps_readMem ..) fun both => ?_)
    refine keeps_ite (replies.keeps_refuse _ _) (keeps_ite ?_ (replies.keeps_shutdown _ _))
    exact keeps_ite (replies.keeps_shutdown _ _)
      (keeps_ite (keeps_pure _) (replies.keeps_shutdown _ _))
  · exact keeps_bind (keeps_subtract ..) fun len => keeps_pure _

theorem Replies.keeps_fecRound (fuel : Nat) (msg : LdpMsg) (type : UInt16) (locals : FecLocals) :
    Keeps property gaveUp (fecRound fuel msg type locals) := by
  rw [fecRound]
  refine keeps_bind (replies.keeps_tlvDecodeFecElm ..) fun both => ?_
  refine keeps_ite (replies.keeps_refuse _ _) (keeps_ite (replies.keeps_shutdown _ _) ?_)
  refine keeps_ite (replies.keeps_shutdown _ _) (keeps_bind (keeps_subtract ..) fun len => ?_)
  exact keeps_bind (keeps_subtractInt ..) fun feclen => keeps_pure _

/-! ### Messages -/

theorem Replies.keeps_parseLabelmessage (fuel : Nat) (msg : LdpMsg) (type : UInt16)
    (buf : List UInt8) (len : Nat) :
    Keeps property gaveUp (parseLabelmessage fuel msg type buf len) := by
  rw [parseLabelmessage]
  refine keeps_ite (replies.keeps_shutdown _ _) (keeps_bind (keeps_readMem ..) fun ft => ?_)
  refine keeps_ite (replies.keeps_refuse _ _) (keeps_ite (replies.keeps_shutdown _ _) ?_)
  refine keeps_bind (keeps_subtract ..) fun len => ?_
  refine keeps_bind (keeps_loop (replies.keeps_fecRound fuel msg type) _ _) fun locals => ?_
  refine keeps_bind (replies.keeps_mandatoryLabel ..) fun start => ?_
  refine keeps_bind (keeps_loop (replies.keeps_tlvRound msg fun tlv buf found => ?_) _ _)
    fun params => keeps_pure _
  exact replies.keeps_labelTlv ..

omit replies in
/-- The label decision engine is told of a label message FEC by FEC. -/
theorem Replies.leaves_notifyLde (replies : Replies property gaveUp) (msg : LdpMsg) (type : UInt16)
    (params : LabelParams)
    (told : ∀ ldpe map, property ldpe → property (ldpe.composeLde (labelImsg type ldpe.nbr.peerid map)))
    (maps : List FecBuf) (ldpe : Ldpe) (holds : property ldpe) :
    Leaves (fun _ => property) gaveUp (notifyLde msg type params maps ldpe) := by
  induction maps generalizing ldpe with
  | nil => exact holds
  | cons map rest inductionHypothesis =>
    rw [notifyLde]
    split
    · exact replies.shutdown _ _ _ holds
    split
    · exact inductionHypothesis _ (told _ _ holds)
    · exact inductionHypothesis _ holds

theorem Replies.keeps_recvLabelmessage (fuel : Nat) (buf : List UInt8) (len : Nat) (type : UInt16)
    (told : ∀ ldpe map, property ldpe →
      property (ldpe.composeLde (labelImsg type ldpe.nbr.peerid map))) :
    Keeps property gaveUp (recvLabelmessage fuel buf len type) := by
  rw [recvLabelmessage]
  refine keeps_bind (keeps_readMem ..) fun msg => keeps_bind (keeps_subtract ..) fun len => ?_
  refine keeps_bind (replies.keeps_parseLabelmessage ..) fun parsed => triple_act fun ldpe holds => ?_
  exact replies.leaves_notifyLde msg type parsed.2 told parsed.1 ldpe holds

theorem Replies.keeps_notificationTlv (fuel : Nat) (msg : LdpMsg) (tlv : Tlv) (buf : List UInt8)
    (found : NotifyParams) : Keeps property gaveUp (notificationTlv fuel msg tlv buf found) := by
  rw [notificationTlv]
  refine keeps_ite (keeps_pure _) (keeps_ite (replies.keeps_word _) (keeps_ite ?_ ?_))
  · refine keeps_bind (replies.keeps_tlvDecodeFecElm ..) fun both => ?_
    exact keeps_ite (replies.keeps_shutdown _ _) (keeps_pure _)
  · exact keeps_bind (replies.keeps_unknownTlv _ _) fun _ => keeps_pure _

theorem Replies.keeps_recvNotification (fuel : Nat) (buf : List UInt8) (len : Nat)
    (finish : ∀ msg nm ldpe, property ldpe →
      Leaves (fun _ => property) gaveUp (finishNotification msg nm ldpe)) :
    Keeps property gaveUp (recvNotification fuel buf len) := by
  rw [recvNotification]
  refine keeps_bind (keeps_readMem ..) fun msg => keeps_bind (keeps_subtract ..) fun len => ?_
  refine keeps_bind ?_ fun nm => triple_act fun ldpe holds => finish msg nm ldpe holds
  rw [parseNotification]
  refine keeps_ite (replies.keeps_shutdown _ _) (keeps_bind (keeps_readMem ..) fun both => ?_)
  refine keeps_ite (replies.keeps_shutdown _ _) (keeps_bind (keeps_subtract ..) fun len => ?_)
  refine keeps_bind (keeps_loop (replies.keeps_tlvRound msg fun tlv buf found => ?_) _ _)
    fun found => keeps_pure _
  exact replies.keeps_notificationTlv ..

theorem Replies.keeps_recvAddress (fuel : Nat) (buf : List UInt8) (len : Nat)
    (told : ∀ ldpe msg addr, property ldpe → property (say ldpe (.address msg addr))) :
    Keeps property gaveUp (recvAddress fuel buf len) := by
  rw [recvAddress]
  refine keeps_bind (keeps_readMem ..) fun msg => keeps_bind (keeps_subtract ..) fun len => ?_
  rw [parseAddress]
  refine keeps_ite (replies.keeps_shutdown _ _) (keeps_bind (keeps_readMem ..) fun alt => ?_)
  refine keeps_ite (replies.keeps_shutdown _ _) (keeps_ite (replies.keeps_shutdown _ _) ?_)
  cases afOfFamily alt.2 with
  | none => exact replies.keeps_refuse _ _
  | some af =>
    refine keeps_bind keeps_look fun ldpe => keeps_ite ?_ (keeps_pure _)
    refine keeps_bind (keeps_subtract ..) fun len => keeps_loop (fun locals => ?_) _ _
    rw [addrRound]
    refine keeps_ite (keeps_pure _) (keeps_ite (replies.keeps_shutdown _ _) ?_)
    refine keeps_bind (keeps_readMem ..) fun addr => ?_
    refine keeps_bind (keeps_subtract ..) fun len => keeps_bind ?_ fun _ => keeps_pure _
    exact keeps_change fun ldpe holds => told ldpe msg addr holds

/-- An Initialization message is acted upon with the parameters it has. -/
theorem Replies.triple_recvInit {post : Ldpe → Prop} (fuel : Nat) (buf : List UInt8) (len : Nat)
    (finish : ∀ ldpe, minKeepalive ≤ (getSessPrms (buf.drop ldpMsgSize)).keepaliveTime → property ldpe →
      post (finishInit ldpe (getSessPrms (buf.drop ldpMsgSize)))) :
    Triple property (fun _ => post) gaveUp (recvInit fuel buf len) := by
  rw [recvInit]
  refine keeps_bind (keeps_readMem ..) fun msg => keeps_bind (keeps_subtract ..) fun len => ?_
  refine keeps_bind keeps_look fun ldpe => ?_
  refine triple_bind (fun sess ldpe => sess = getSessPrms (buf.drop ldpMsgSize) ∧
    minKeepalive ≤ sess.keepaliveTime ∧ property ldpe) ?_
    fun sess => triple_act fun ldpe all => ?_
  · rw [parseInit]
    refine keeps_ite (replies.keeps_shutdown _ _) (triple_bind _ (triple_readMem ..) fun sess => ?_)
    refine triple_of_fact fun same => ?_
    refine keeps_ite (replies.keeps_shutdown _ _) (keeps_ite (replies.keeps_shutdown _ _) ?_)
    refine triple_ite (fun _ => replies.keeps_shutdown _ _) fun long => ?_
    refine keeps_ite (replies.keeps_shutdown _ _) ?_
    refine keeps_bind (keeps_subtract ..) fun len => ?_
    refine keeps_bind (keeps_loop (replies.keeps_tlvRound msg fun tlv buf found => ?_) _ _)
      fun _ => triple_pure _ fun ldpe holds => ⟨same, UInt16.not_lt.mp long, holds⟩
    exact keeps_ite (replies.keeps_shutdown _ _) (replies.keeps_unknownTlv _ _)
  · obtain ⟨rfl, long, holds⟩ := all
    exact finish ldpe long holds

/-- The parameters of an Initialization message that is taken. -/
theorem Replies.keeps_recvInit (fuel : Nat) (buf : List UInt8) (len : Nat)
    (finish : ∀ ldpe sess, minKeepalive ≤ sess.keepaliveTime → property ldpe →
      property (finishInit ldpe sess)) :
    Keeps property gaveUp (recvInit fuel buf len) :=
  replies.triple_recvInit fuel buf len fun ldpe long holds => finish ldpe _ long holds

theorem Replies.triple_recvKeepalive {post : Ldpe → Prop} (buf : List UInt8) (len : Nat)
    (finish : ∀ ldpe, property ldpe → post (finishKeepalive ldpe)) :
    Triple property (fun _ => post) gaveUp (recvKeepalive buf len) := by
  rw [recvKeepalive]
  refine keeps_bind (keeps_readMem ..) fun msg => keeps_ite (replies.keeps_shutdown _ _) ?_
  exact triple_act fun ldpe holds => finish ldpe holds

end

end Parsers

/-! ### Reading from the connection -/

/-- A property that everything keeps that `session_read` does to the engine. -/
structure SessionRules (property : Ldpe → Prop) : Prop where
  replies : Replies property property
  message : ∀ fuel msg buf size ldpe, property ldpe →
    messageAllowed ldpe.nbr.state msg.type = true →
      Triple (· = ldpe) (fun _ => property) property (recvMessage fuel msg buf size)
  pduRcvd : ∀ ldpe, property ldpe → property (nbrFsm ldpe .pduRcvd)
  setRbuf : ∀ ldpe rbuf, property ldpe → ldpe.nbr.tcp ≠ none → property (ldpe.setRbuf rbuf)
  closeSession : ∀ ldpe, property ldpe → property (nbrFsm ldpe .closeSession)

section Session

variable {property : Ldpe → Prop} (rules : SessionRules property)

include rules

theorem SessionRules.keeps_messageRound (fuel : Nat) (locals : MsgLocals) :
    Keeps property property (messageRound fuel locals) := by
  have replies := rules.replies
  rw [messageRound]
  refine keeps_ite (keeps_pure _) ?_
  refine keeps_bind (keeps_readMem ..).mapEvents fun msg => ?_
  refine keeps_ite (replies.keeps_shutdown _ _).mapEvents ?_
  refine keeps_bind (keeps_subtract ..).mapEvents fun pduLen => triple_look_bind fun ldpe holds => ?_
  refine triple_ite (fun welcome => ?_) fun _ => ?_
  · refine triple_bind (fun _ => (· = ldpe)) (keeps_log _) fun _ => ?_
    refine triple_bind (fun _ => property) ?_ fun _ => keeps_pure _
    exact (rules.message fuel msg _ _ ldpe holds welcome).mapEvents
  · have refused : Triple property (fun _ => property) property
        (shutdown sShutdown msg : Parser (MsgLocals ⊕ Nat)) := replies.keeps_shutdown _ _
    refine Triple.mapEvents (refused.weaken (fun after same => ?_) fun _ _ kept => kept)
    rw [same]
    exact holds

theorem SessionRules.keeps_sessionFail (pdu : Stretch) (status : UInt32) :
    Keeps property property (sessionFail pdu status) :=
  (rules.replies.keeps_shutdown _ _).mapEvents

theorem SessionRules.keeps_sessionPdu (fuel : Nat) (pdu : List UInt8) :
    Keeps property property (sessionPdu fuel pdu) := by
  rw [sessionPdu]
  refine keeps_bind (keeps_readMem ..).mapEvents fun header => ?_
  refine keeps_ite (rules.keeps_sessionFail _ _) (keeps_bind keeps_look fun ldpe => ?_)
  refine keeps_ite (rules.keeps_sessionFail _ _) ?_
  refine keeps_bind (keeps_subtract ..).mapEvents fun pduLen => ?_
  refine keeps_bind (keeps_readMem ..).mapEvents fun ids => ?_
  refine keeps_ite (rules.keeps_sessionFail _ _) ?_
  refine keeps_bind (keeps_change rules.pduRcvd) fun _ => ?_
  refine keeps_bind (keeps_loop (rules.keeps_messageRound fuel) _ _) fun left => ?_
  exact keeps_ite (rules.keeps_sessionFail _ _) (keeps_pure _)

theorem SessionRules.keeps_pduRound (fuel : Nat) (start : Unit) :
    Keeps property property (pduRound fuel start) := by
  rw [pduRound]
  refine triple_look_bind fun ldpe holds => ?_
  cases connection : ldpe.nbr.tcp with
  | none => exact Triple.mapEvents keeps_undefined
  | some tcp =>
    dsimp only
    cases sessionGetPdu tcp.rbuf with
    | none =>
      refine triple_pure _ fun after same => ?_
      rw [same]
      exact holds
    | some both =>
      have attached : ldpe.nbr.tcp ≠ none := by
        rw [connection]
        exact Option.some_ne_none tcp
      refine triple_bind (fun _ => property) (triple_act fun _ same => ?_) fun _ => ?_
      · rw [same]
        exact rules.setRbuf ldpe both.2 holds attached
      · exact keeps_bind (rules.keeps_sessionPdu fuel both.1) fun _ => keeps_pure _

/-- What the rules are for. -/
theorem SessionRules.keeps_sessionRead (fuel : Nat) (result : ReadResult) :
    Keeps property property (sessionRead fuel result) := by
  cases result with
  | again => exact keeps_pure _
  | closed => exact keeps_change rules.closeSession
  | data bytes =>
    refine Triple.returned (triple_look_bind fun ldpe holds => ?_)
    cases connection : ldpe.nbr.tcp with
    | none => exact Triple.mapEvents keeps_undefined
    | some tcp =>
      have attached : ldpe.nbr.tcp ≠ none := by
        rw [connection]
        exact Option.some_ne_none tcp
      refine triple_bind (fun _ => property) (triple_act fun _ same => ?_) fun _ => ?_
      · rw [same]
        exact rules.setRbuf ldpe _ holds attached
      · exact keeps_loop (rules.keeps_pduRound fuel) _ _

end Session

end Ldpd
