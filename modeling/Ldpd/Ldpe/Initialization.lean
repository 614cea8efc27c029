/-
This file settles which Initialization messages `recv_init` accepts. The grammar wants
a Common Session Parameters TLV with values that can be agreed on, and complete TLVs
behind it; the parser looks at the length and the values of the first TLV, but not at
its type, and so does what the grammar says exactly when it is not given another TLV
in its place.
-/

import Ldpd.Ldpe.Answers

namespace Ldpd

open Bytes Code Reading

/-! ### The grammar -/

/-- An optional parameter of an Initialization message that is not for ATM or Frame Relay. -/
def InitTlvGood (tlv : Tlv) (_ : List UInt8) : Prop :=
  tlv.type ≠ tlvTypeAtmsessionpar ∧ tlv.type ≠ tlvTypeFrsession

/-- The body of an Initialization message for a router has session parameters that can be agreed on
in its first TLV, whatever the type of that, and good TLVs behind it. -/
structure InitShape (rtrId : InAddr) (body : List UInt8) : Prop where
  size : sessPrmsSize ≤ body.length
  length : (getSessPrms body).length.toNat = sessPrmsLen
  protoVersion : (getSessPrms body).protoVersion = ldpVersion
  keepaliveTime : minKeepalive ≤ (getSessPrms body).keepaliveTime
  lsrId : (getSessPrms body).lsrId = rtrId
  lspaceId : (getSessPrms body).lspaceId = 0
  options : TlvsGood InitTlvGood (body.drop sessPrmsSize)

/-- The grammar of Initialization messages: the first TLV is the Common Session Parameters TLV. -/
def InitGrammar (rtrId : InAddr) (body : List UInt8) : Prop :=
  (getTlv body).type = tlvTypeCommonsession ∧ InitShape rtrId body

theorem readInitTlv_accepts (msg : LdpMsg) (tlv : Tlv) (value : List UInt8) (found : Unit)
    (_ : tlv.length.toNat ≤ value.length) :
    (∃ found', (readInitTlv msg tlv value found).verdict = .accept found') ↔ InitTlvGood tlv value := by
  rw [readInitTlv, InitTlvGood, ← not_or]
  split
  · rename_i unsupported
    refine iff_of_false ?_ (not_not.mpr unsupported)
    rintro ⟨_, accepts⟩
    cases accepts
  · rename_i supported
    refine iff_of_true ⟨(), ?_⟩ supported
    rw [readUnknown]
    split
    · rfl
    · rfl

/-- What the reading of an Initialization message accepts. -/
theorem readInit_accepts (rtrId : InAddr) (msg : LdpMsg) (body : List UInt8) (sess : SessPrms) :
    (readInit rtrId msg body).verdict = .accept sess ↔
      InitShape rtrId body ∧ sess = getSessPrms body := by
  rw [readInit]
  simp only [accepts_unless_ended, bind_accepts, not_lt, UInt16.not_lt, not_not, not_or, ne_eq]
  have options := @readTlvs_accepts _ msg _ _ (readInitTlv_accepts msg) ⟨body.drop sessPrmsSize, ()⟩
  constructor
  · rintro ⟨size, length, version, keepalive, ⟨lsrId, lspaceId⟩, found, first, ends⟩
    cases ends
    exact ⟨⟨size, length, version, keepalive, lsrId, lspaceId, options.mp ⟨found, first⟩⟩, rfl⟩
  · rintro ⟨shape, rfl⟩
    obtain ⟨found, first⟩ := options.mpr shape.options
    exact ⟨shape.size, shape.length, shape.protoVersion, shape.keepaliveTime,
      ⟨shape.lsrId, shape.lspaceId⟩, found, first, rfl⟩

/-- Whatever the reading of an Initialization message rejects ends the session, with a fatal status. -/
theorem rejects_readInit (rtrId : InAddr) (msg : LdpMsg) (body : List UInt8) :
    Rejects (fun reply => ∃ status, status &&& statusFatal ≠ 0 ∧ reply = .shutdown status msg)
      (readInit rtrId msg body) := by
  have ends {Read : Type} {status : UInt32} (fatal : status &&& statusFatal ≠ 0) :
      Rejects (fun reply => ∃ status, status &&& statusFatal ≠ 0 ∧ reply = .shutdown status msg)
        (endWith status msg : Said Read) :=
    rejects_endWith ⟨status, fatal, rfl⟩
  rw [readInit]
  refine rejects_ite (ends (by decide)) (rejects_ite (ends (by decide)) (rejects_ite (ends (by decide))
    (rejects_ite (ends (by decide)) (rejects_ite (ends (by decide)) ?_))))
  refine (rejects_readTlvs ⟨sBadTlvLen, by decide, rfl⟩ (fun tlv value found => ?_) _).bind
    fun _ _ => rejects_pure _
  exact rejects_ite (ends (by decide)) (rejects_readUnknown tlv)

/-! ### Accepted messages -/

/-- The length of PDUs that a proposal leads to: 255 or less stands for the default. -/
def agreedPduLen (proposal : UInt16) : UInt16 :=
  if proposal ≤ 255 then ldpMaxLen else min proposal ldpMaxLen

/-- `recv_init` does what the grammar says: it returns, accepts what the grammar does and moves on
with the length of PDUs that was proposed, and closes the session otherwise. -/
structure InitHandled (ldpe : Ldpe) (buf : List UInt8) (size : Nat) : Prop where
  returns : Returns fun fuel => recvInit fuel buf size ldpe
  accepts : ∀ fuel result ldpe', (recvInit fuel buf size ldpe).outcome = .ret (result, ldpe') →
    (result = some () ↔ InitGrammar ldpe.rtrId ((buf.take size).drop ldpMsgSize))
  taken : ∀ fuel ldpe', (recvInit fuel buf size ldpe).outcome = .ret (some (), ldpe') →
    ldpe'.nbr.state = .openrec ∧ ldpe'.nbr.maxPduLen =
      agreedPduLen (getSessPrms ((buf.take size).drop ldpMsgSize)).maxPduLen
  refused : ∀ fuel ldpe', (recvInit fuel buf size ldpe).outcome = .ret (none, ldpe') →
    ldpe'.nbr.keepalive = ldpe.nbr.keepalive ∧ ldpe'.nbr.maxPduLen = ldpe.nbr.maxPduLen ∧
      ldpe'.nbr.state = .present ∧ ldpe'.nbr.tcp = none

/-- An Initialization message that is acted upon moves the session on. -/
theorem finishInit_nbr {ldpe : Ldpe} (start : ldpe.nbr.state = .initial ∨ ldpe.nbr.state = .opensent)
    (sess : SessPrms) : (finishInit ldpe sess).nbr.state = .openrec ∧
      (finishInit ldpe sess).nbr.maxPduLen = agreedPduLen sess.maxPduLen := by
  have length : min (if sess.maxPduLen ≤ 255 then ldpMaxLen else sess.maxPduLen) ldpMaxLen =
      agreedPduLen sess.maxPduLen := by
    rw [agreedPduLen]
    split
    · rfl
    · rfl
  rw [finishInit, length]
  generalize seen : ldpe.updateNbr _ = started
  have state : started.nbr.state = ldpe.nbr.state := by rw [← seen]; rfl
  have size : started.nbr.maxPduLen = agreedPduLen sess.maxPduLen := by rw [← seen]; rfl
  rcases start with initial | opensent
  · have row : nbrFsmRow started.nbr.state .initRcvd =
        some ⟨[.initial], .initRcvd, .passiveInit, some .openrec⟩ := by
      rw [state, initial]
      rfl
    rw [nbrFsm_of_row row (by decide), nbrAct, nbr_sendKeepalive, nbr_sendInit]
    exact ⟨rfl, size⟩
  · have row : nbrFsmRow started.nbr.state .initRcvd =
        some ⟨[.opensent], .initRcvd, .keepaliveSend, some .openrec⟩ := by
      rw [state, opensent]
      rfl
    rw [nbrFsm_of_row row (by decide), nbrAct, nbr_sendKeepalive]
    exact ⟨rfl, size⟩

section Message

variable {ldpe : Ldpe} {buf : List UInt8} {size : Nat} (attached : ldpe.nbr.tcp ≠ none)
  (start : ldpe.nbr.state = .initial ∨ ldpe.nbr.state = .opensent) (long : ldpMsgSize ≤ size)
  (fits : size ≤ buf.length) (small : size < 2 ^ 16)
include long fits small

section Session

include attached start

/-- How `recv_init` returns. -/
theorem recvInit_returned {fuel : Nat} {result : Option Unit} {ldpe' : Ldpe}
    (returns : (recvInit fuel buf size ldpe).outcome = .ret (result, ldpe')) :
    (InitShape ldpe.rtrId ((buf.take size).drop ldpMsgSize) ∧ result = some () ∧
      ldpe'.nbr.state = .openrec ∧ ldpe'.nbr.maxPduLen =
        agreedPduLen (getSessPrms ((buf.take size).drop ldpMsgSize)).maxPduLen) ∨
    (¬InitShape ldpe.rtrId ((buf.take size).drop ldpMsgSize) ∧ result = none ∧
      ldpe'.nbr.keepalive = ldpe.nbr.keepalive ∧ ldpe'.nbr.maxPduLen = ldpe.nbr.maxPduLen ∧
      ldpe'.nbr.state = .present ∧ ldpe'.nbr.tcp = none) := by
  have length : (buf.take size).length = size := List.length_take_of_le fits
  have acts := obeysAt_recvInit fuel ldpe (spans_take buf size) (by rw [length]; exact long)
    (by rw [length]; exact small)
  rw [length] at acts
  have advises := advises_replies (answers_readInit (getLdpMsg (buf.take size)) ldpe.rtrId
    ((buf.take size).drop ldpMsgSize)) attached
  have session : ldpe.nbr.state ≠ .present := by
    rcases start with initial | opensent
    · rw [initial]
      decide
    · rw [opensent]
      decide
  have meaning := not_has_readInit ldpe.rtrId (getLdpMsg (buf.take size))
    ((buf.take size).drop ldpMsgSize) .undefined
  rcases acts.returned (fun undefined => absurd undefined meaning) returns with ⟨sess, accepts, ends⟩ | ⟨reply, rejects, rfl, rfl⟩
  · obtain ⟨shape, rfl⟩ := (readInit_accepts _ _ _ _).mp accepts
    cases ends
    refine Or.inl ⟨shape, rfl, finishInit_nbr ?_ _⟩
    rw [advises.state]
    exact start
  · refine Or.inr ⟨fun shape => ?_, rfl, ?_⟩
    · rw [(readInit_accepts _ _ _ _).mpr ⟨shape, rfl⟩] at rejects
      cases rejects
    · obtain ⟨status, -, rfl⟩ := rejects_readInit _ _ _ reply rejects
      obtain ⟨between, notified, closed⟩ := closed_shutdown (by rw [advises.tcp]; exact attached)
        (by rw [advises.state]; exact session) status (getLdpMsg (buf.take size))
      obtain ⟨_, _, _, _, -, rfl⟩ := notified
      refine ⟨closed.keepalive.trans ?_, closed.maxPduLen.trans ?_, closed.state, closed.tcp⟩
      · obtain ⟨_, _, _, _, -, same⟩ := advises
        rw [same]
      · obtain ⟨_, _, _, _, -, same⟩ := advises
        rw [same]

end Session

theorem recvInit_returns (ldpe : Ldpe) : Returns fun fuel => recvInit fuel buf size ldpe := by
  have length : (buf.take size).length = size := List.length_take_of_le fits
  have acts := fun fuel => obeysAt_recvInit fuel ldpe (spans_take buf size) (by rw [length]; exact long)
    (by rw [length]; exact small)
  rw [length] at acts
  rw [Returns, returns_iff acts, bind_pure_has, bind_pure_has]
  exact ⟨not_has_readInit _ _ _ _, not_has_readInit _ _ _ _⟩

include attached start

/-- An Initialization message is handled as the grammar says exactly when its first TLV is the
Common Session Parameters TLV or something else is wrong with it. -/
theorem init_handled_iff : InitHandled ldpe buf size ↔
    (InitShape ldpe.rtrId ((buf.take size).drop ldpMsgSize) →
      (getTlv ((buf.take size).drop ldpMsgSize)).type = tlvTypeCommonsession) := by
  constructor
  · intro handled shape
    obtain ⟨fuel, ⟨result, ldpe'⟩, returns, -⟩ := handled.returns
    rcases recvInit_returned attached start long fits small returns with ⟨-, taken, -⟩ | ⟨misshapen, -⟩
    · exact ((handled.accepts fuel result ldpe' returns).mp taken).1
    · exact absurd shape misshapen
  · intro named
    refine ⟨recvInit_returns long fits small ldpe, fun fuel result ldpe' returns => ?_,
      fun fuel ldpe' returns => ?_, fun fuel ldpe' returns => ?_⟩
    · rcases recvInit_returned attached start long fits small returns with
        ⟨shape, rfl, -⟩ | ⟨misshapen, rfl, -⟩
      · exact iff_of_true rfl ⟨named shape, shape⟩
      · exact iff_of_false (Option.some_ne_none ()).symm fun grammar => misshapen grammar.2
    · rcases recvInit_returned attached start long fits small returns with ⟨-, -, moved⟩ | ⟨-, gaveUp, -⟩
      · exact moved
      · cases gaveUp
    · rcases recvInit_returned attached start long fits small returns with ⟨-, taken, -⟩ | ⟨-, -, closed⟩
      · cases taken
      · exact closed

end Message

/-! ### Messages -/

/-- A session that has not yet seen an Initialization message. -/
def newSession : Ldpe :=
  { operSession with nbr := { operSession.nbr with state := .initial } }

/-- An Initialization message for `newSession`, with a first TLV of some type. -/
def initMessage (type : UInt16) : List UInt8 :=
  message msgTypeInit 1 (put16 type ++ (initPrms newSession.rtrId 180).drop 2)

theorem init_handled_iff_commonsession :
    InitHandled newSession (initMessage tlvTypeCommonsession) 26 :=
  (init_handled_iff (by decide) (Or.inl rfl) (by decide) (by decide) (by decide)).mpr fun _ => by decide

/-- The session parameters come in a TLV that has the type of a label, and are taken. -/
theorem misnamed_init_taken : ¬InitHandled newSession (initMessage tlvTypeGenericlabel) 26 := by
  intro handled
  obtain ⟨fuel, ⟨result, ldpe'⟩, returns, -⟩ := handled.returns
  have shape : InitShape newSession.rtrId (((initMessage tlvTypeGenericlabel).take 26).drop ldpMsgSize) :=
    ⟨by decide, by decide, by decide, by decide, by decide, by decide, .here (by decide)⟩
  rcases recvInit_returned (by decide) (Or.inl rfl) (by decide) (by decide) (by decide) returns with
    ⟨-, taken, -⟩ | ⟨misshapen, -⟩
  · exact absurd ((handled.accepts fuel result ldpe' returns).mp taken).1 (by decide)
  · exact misshapen shape

end Ldpd
