/-
This file is about the answers that a peer gets to its messages. A notification is
queued for the peer and starts a timer at most; shutting a session down sends one and
closes the session, which the label decision engine is told. On the way to its
verdict the reading of a message answers unknown TLVs and nothing else.
-/

import Ldpd.Ldpe.Written

namespace Ldpd

open Bytes Code Reading

/-! ### Notifications -/

/-- The PDU of `send_notification_nbr`. -/
def notificationPdu (rtrId : InAddr) (id status msgId : UInt32) (msgType : UInt16) : List UInt8 :=
  pduOf rtrId [message msgTypeNotification id
    (notificationParams { statusCode := status, msgId, msgType })].flatten

theorem sendNotificationFull_eq {ldpe : Ldpe} (attached : ldpe.nbr.tcp ≠ none)
    (status msgId : UInt32) (msgType : UInt16) :
    sendNotificationFull ldpe { statusCode := status, msgId, msgType } = { ldpe with
      msgcnt := ldpe.msgcnt + 1
      sent := ldpe.sent ++ [notificationPdu ldpe.rtrId (ldpe.msgcnt + 1) status msgId msgType] } := by
  have wrote := (wrote_openMessage ldpe msgTypeNotification 32).add
    (put16 tlvTypeStatus ++ put16 10 ++ put32 status ++ put32 msgId ++ put16 msgType)
  have bytes : (genStatusTlv status msgId msgType (ldpe.openMessage msgTypeNotification 32).2).bytes =
      notificationPdu ldpe.rtrId (ldpe.msgcnt + 1) status msgId msgType :=
    pdu_of_wrote wrote rfl rfl
  obtain ⟨tcp, open'⟩ := Option.ne_none_iff_exists'.mp attached
  show Ldpe.enqueue (ldpe.openMessage msgTypeNotification 32).1
    (genStatusTlv status msgId msgType (ldpe.openMessage msgTypeNotification 32).2) = _
  rw [Ldpe.enqueue, nbr_openMessage, open']
  dsimp only
  rw [bytes]
  rfl

/-- A PDU is a notification of a status. -/
def Notifies (pdu : List UInt8) (status : UInt32) : Prop :=
  ∃ rtrId id msgId msgType, pdu = notificationPdu rtrId id status msgId msgType

/-- Nothing has happened but that the peer was notified, in this order. -/
def Advises (statuses : List UInt32) (ldpe ldpe' : Ldpe) : Prop :=
  ∃ initTimeout keepaliveTimer msgcnt pdus, List.Forall₂ Notifies pdus statuses ∧
    ldpe' = { ldpe with
      nbr := { ldpe.nbr with initTimeout, keepaliveTimer }
      msgcnt
      sent := ldpe.sent ++ pdus }

section Advises

variable {statuses more : List UInt32} {ldpe ldpe' ldpe'' : Ldpe}

theorem Advises.refl (ldpe : Ldpe) : Advises [] ldpe ldpe :=
  ⟨ldpe.nbr.initTimeout, ldpe.nbr.keepaliveTimer, ldpe.msgcnt, [], .nil, by rw [List.append_nil]⟩

theorem Advises.trans (first : Advises statuses ldpe ldpe') (second : Advises more ldpe' ldpe'') :
    Advises (statuses ++ more) ldpe ldpe'' := by
  obtain ⟨_, _, _, pdus, notify, rfl⟩ := first
  obtain ⟨initTimeout, keepaliveTimer, msgcnt, pdus', notify', rfl⟩ := second
  refine ⟨initTimeout, keepaliveTimer, msgcnt, pdus ++ pdus', List.rel_append notify notify', ?_⟩
  rw [List.append_assoc]

theorem Advises.tcp (advises : Advises statuses ldpe ldpe') : ldpe'.nbr.tcp = ldpe.nbr.tcp := by
  obtain ⟨_, _, _, _, -, rfl⟩ := advises
  rfl

theorem Advises.state (advises : Advises statuses ldpe ldpe') : ldpe'.nbr.state = ldpe.nbr.state := by
  obtain ⟨_, _, _, _, -, rfl⟩ := advises
  rfl

theorem Advises.peerid (advises : Advises statuses ldpe ldpe') :
    ldpe'.nbr.peerid = ldpe.nbr.peerid := by
  obtain ⟨_, _, _, _, -, rfl⟩ := advises
  rfl

theorem Advises.toLde (advises : Advises statuses ldpe ldpe') : ldpe'.toLde = ldpe.toLde := by
  obtain ⟨_, _, _, _, -, rfl⟩ := advises
  rfl

theorem advises_sendNotificationNbr (attached : ldpe.nbr.tcp ≠ none) (status msgId : UInt32)
    (msgType : UInt16) : Advises [status] ldpe (sendNotificationNbr ldpe status msgId msgType) := by
  rw [sendNotificationNbr, sendNotificationFull_eq attached]
  obtain ⟨initTimeout, keepaliveTimer, timers⟩ := nbrFsm_pduSent { ldpe with
    msgcnt := ldpe.msgcnt + 1
    sent := ldpe.sent ++ [notificationPdu ldpe.rtrId (ldpe.msgcnt + 1) status msgId msgType] }
  rw [timers]
  exact ⟨initTimeout, keepaliveTimer, _, _, .cons ⟨_, _, _, _, rfl⟩ .nil, rfl⟩

end Advises

/-! ### Replies -/

/-- The reply to an unknown TLV. -/
def Advisory (msg : LdpMsg) (reply : Reply) : Prop :=
  reply = .notify sUnknownTlv msg

/-- Replies to unknown TLVs leave the session as it is. -/
theorem advises_replies {msg : LdpMsg} {replies : List Reply}
    (advisory : ∀ reply ∈ replies, Advisory msg reply) {ldpe : Ldpe} (attached : ldpe.nbr.tcp ≠ none) :
    Advises (List.replicate replies.length sUnknownTlv) ldpe (replies.foldl say ldpe) := by
  induction replies generalizing ldpe with
  | nil => exact .refl ldpe
  | cons reply rest inductionHypothesis =>
    obtain ⟨first, others⟩ := List.forall_mem_cons.mp advisory
    have notified : Advises [sUnknownTlv] ldpe (say ldpe reply) := by
      rw [first]
      exact advises_sendNotificationNbr attached _ _ _
    rw [List.foldl_cons]
    exact notified.trans (inductionHypothesis others (by rw [notified.tcp]; exact attached))

/-- How a parser returns that answers unknown TLVs on its way: it has acted on what it read, or given
up with a last reply. -/
theorem returned_advised {allowed meant : Access → Prop} {enough : Prop} {msg : LdpMsg} {Read : Type}
    {parser : Parser Unit} {said : Said Read} {action : Read → Ldpe → Option Unit × Ldpe}
    {ldpe ldpe' : Ldpe} {result : Option Unit}
    (acts : ActsAt allowed meant say enough ldpe parser (said >>= fun read => pure (action read)))
    (advisory : Answers (Advisory msg) said)
    (defined : said.verdict = .undefined → Defined meant (parser ldpe))
    (attached : ldpe.nbr.tcp ≠ none) (returns : (parser ldpe).outcome = .ret (result, ldpe')) :
    ∃ between, Advises (List.replicate said.replies.length sUnknownTlv) ldpe between ∧
      ((∃ read, said.verdict = .accept read ∧ action read between = (result, ldpe')) ∨
        ∃ reply, said.verdict = .reject reply ∧ result = none ∧ ldpe' = say between reply) :=
  ⟨_, advises_replies advisory attached, acts.returned defined returns⟩

/-- A session that is closed, and the label decision engine that is told so. -/
structure Closed (ldpe ldpe' : Ldpe) : Prop where
  state : ldpe'.nbr.state = .present
  tcp : ldpe'.nbr.tcp = none
  keepalive : ldpe'.nbr.keepalive = ldpe.nbr.keepalive
  maxPduLen : ldpe'.nbr.maxPduLen = ldpe.nbr.maxPduLen
  toLde : ldpe'.toLde = ldpe.toLde ++ [.neighborDown ldpe.nbr.peerid]
  sent : ldpe'.sent = ldpe.sent

theorem closed_closeSession {ldpe : Ldpe} (session : ldpe.nbr.state ≠ .present) :
    Closed ldpe (nbrFsm ldpe .closeSession) := by
  rw [nbrFsm_close session]
  exact ⟨rfl, rfl, rfl, rfl, rfl, rfl⟩

/-- The session is closed, with the timer for the next one started before if it has not got far. -/
theorem closed_startIdtimer {ldpe : Ldpe} (session : ldpe.nbr.state ≠ .present) :
    Closed ldpe (nbrFsm (if ldpe.nbr.state = .opensent then nbrStartIdtimer ldpe else ldpe)
      .closeSession) := by
  split
  · have closed := closed_closeSession (show (nbrStartIdtimer ldpe).nbr.state ≠ .present from session)
    exact ⟨closed.state, closed.tcp, closed.keepalive, closed.maxPduLen, closed.toLde, closed.sent⟩
  · exact closed_closeSession session

/-- Shutting a session down is to notify the peer and to close the session. -/
theorem closed_shutdown {ldpe : Ldpe} (attached : ldpe.nbr.tcp ≠ none)
    (session : ldpe.nbr.state ≠ .present) (status : UInt32) (msg : LdpMsg) :
    ∃ between, Advises [status] ldpe between ∧ Closed between (say ldpe (.shutdown status msg)) := by
  have advises := advises_sendNotificationNbr attached status msg.id msg.type
  refine ⟨_, advises, ?_⟩
  show Closed _ (sessionShutdown ldpe status msg.id msg.type)
  rw [sessionShutdown, if_neg session]
  exact closed_closeSession (by rw [advises.state]; exact session)

/-! ### Readings -/

section Readings

variable {msg : LdpMsg}

theorem answers_readUnknown (msg : LdpMsg) (tlv : Tlv) : Answers (Advisory msg) (readUnknown msg tlv) := by
  rw [readUnknown]
  refine answers_ite (fun reply member => ?_) (answers_of_verdict _ _)
  exact List.mem_singleton.mp member

theorem answers_readTlvs {allowed : Reply → Prop} {Found : Type}
    {handle : Tlv → List UInt8 → Found → Said Found}
    (replies : ∀ tlv value found, Answers allowed (handle tlv value found)) (tlvs : Tlvs Found) :
    Answers allowed (readTlvs msg handle tlvs) := by
  refine answers_iterate (fun tlvs => ?_) tlvs
  rcases readTlv_cases msg handle tlvs with ⟨-, reads⟩ | ⟨-, reads⟩ | ⟨-, reads⟩
  · rw [reads]
    exact answers_of_verdict _ _
  · rw [reads]
    exact (replies _ _ _).bind fun _ _ => answers_of_verdict _ _
  · rw [reads]
    exact answers_of_verdict _ _

theorem answers_readPrefix {allowed : Reply → Prop} (elm : List UInt8) (len : Nat) (old : FecBuf) :
    Answers allowed (readPrefix msg elm len old) := by
  rcases readPrefix_cases msg elm len old with ⟨-, reply, reads⟩ | ⟨_, _, -, -, ⟨-, reads⟩ | ⟨-, reads⟩⟩
  all_goals
    rw [reads]
    exact answers_of_verdict _ _

theorem answers_readParams {allowed : Reply → Prop} (params : PwParams) :
    Answers allowed (readParams msg params) := by
  refine answers_iterate (fun params => ?_) params
  rw [readParam]
  refine answers_ite (answers_of_verdict _ _) (answers_ite (answers_of_verdict _ _) ?_)
  refine answers_ite (answers_of_verdict _ _) (answers_ite (answers_of_verdict _ _) ?_)
  exact answers_of_verdict _ _

theorem answers_readPwid {allowed : Reply → Prop} (elm : List UInt8) (len : Nat) (old : FecBuf) :
    Answers allowed (readPwid msg elm len old) := by
  rw [readPwid]
  refine answers_ite (answers_of_verdict _ _) (answers_ite (answers_of_verdict _ _) ?_)
  refine answers_ite (answers_of_verdict _ _) (answers_ite (answers_of_verdict _ _) ?_)
  exact (answers_readParams _).bind fun _ _ => answers_of_verdict _ _

/-- The reading of a FEC element answers at most with its verdict. -/
theorem answers_readFecElm {allowed : Reply → Prop} (beyond elm : List UInt8) (len : Nat)
    (old : FecBuf) : Answers allowed (readFecElm msg beyond elm len old) := by
  have type : Answers allowed (readType elm beyond) := by
    rw [readType]
    cases elm ++ beyond with
    | nil => exact answers_of_verdict _ _
    | cons type _ => exact answers_of_verdict _ _
  refine type.bind fun type _ => ?_
  refine answers_ite (answers_ite (answers_of_verdict _ _) (answers_of_verdict _ _)) ?_
  refine answers_ite (answers_readPrefix elm len old) ?_
  exact answers_ite (answers_readPwid elm len old) (answers_of_verdict _ _)

theorem answers_readFecs {allowed : Reply → Prop} (type : UInt16) (beyond : List UInt8) (fecs : Fecs) :
    Answers allowed (readFecs msg type beyond fecs) := by
  refine answers_iterate (fun fecs => ?_) fecs
  refine (answers_readFecElm _ _ _ _).bind fun _ _ => ?_
  refine answers_ite (answers_of_verdict _ _) (answers_ite (answers_of_verdict _ _) ?_)
  exact answers_ite (answers_of_verdict _ _) (answers_of_verdict _ _)

theorem answers_readLabelTlv (type : UInt16) (tlv : Tlv) (value : List UInt8) (found : LabelParams) :
    Answers (Advisory msg) (readLabelTlv msg type tlv value found) := by
  have plain (strays : Bool) (verdict : Verdict Reply LabelParams) :
      Answers (Advisory msg) ⟨[], strays, verdict⟩ := answers_of_verdict strays verdict
  rw [readLabelTlv]
  refine answers_ite (answers_ite (answers_ite (plain _ _) (plain _ _)) (plain _ _)) ?_
  refine answers_ite (plain _ _) ?_
  refine answers_ite (answers_ite (answers_ite (plain _ _) (plain _ _)) (plain _ _)) ?_
  refine answers_ite (answers_ite (plain _ _) (plain _ _)) ?_
  refine answers_ite (answers_ite (plain _ _) (plain _ _)) ?_
  refine answers_ite (answers_ite (answers_ite (plain _ _) (plain _ _)) (plain _ _)) ?_
  exact (answers_readUnknown msg tlv).bind fun _ _ => plain _ _

theorem answers_readLabel {allowed : Reply → Prop} (left : List UInt8) :
    Answers allowed (readLabel msg left) := by
  rw [readLabel]
  refine answers_ite (answers_of_verdict _ _) (answers_ite (answers_of_verdict _ _) ?_)
  refine answers_ite (answers_ite (answers_of_verdict _ _) ?_) (answers_of_verdict _ _)
  exact answers_ite (answers_of_verdict _ _) (answers_of_verdict _ _)

theorem answers_readLabelmessage (msg : LdpMsg) (type : UInt16) (beyond body : List UInt8) :
    Answers (Advisory msg) (readLabelmessage msg type beyond body) := by
  rw [readLabelmessage]
  refine answers_ite (answers_of_verdict _ _) (answers_ite (answers_of_verdict _ _) ?_)
  refine answers_ite (answers_of_verdict _ _) ((answers_readFecs _ _ _).bind fun fecs _ => ?_)
  have mandatory : Answers (Advisory msg) (readMandatory msg type fecs.left) := by
    rw [readMandatory]
    refine answers_ite ((answers_readLabel _).bind fun _ _ => answers_of_verdict _ _) ?_
    exact answers_of_verdict _ _
  refine mandatory.bind fun tlvs _ => ?_
  exact (answers_readTlvs (answers_readLabelTlv type) _).bind fun _ _ => answers_of_verdict _ _

theorem answers_readNotification (msg : LdpMsg) (beyond body : List UInt8) :
    Answers (Advisory msg) (readNotification msg beyond body) := by
  rw [readNotification]
  refine answers_ite (answers_of_verdict _ _) (answers_ite (answers_of_verdict _ _) ?_)
  refine (answers_readTlvs (fun tlv value found => ?_) _).bind fun _ _ => answers_of_verdict _ _
  rw [readNotificationTlv]
  refine answers_ite (answers_of_verdict _ _) (answers_ite ?_ (answers_ite ?_ ?_))
  · exact answers_ite (answers_of_verdict _ _) (answers_of_verdict _ _)
  · refine (answers_readFecElm _ _ _ _).bind fun _ _ => ?_
    exact answers_ite (answers_of_verdict _ _) (answers_of_verdict _ _)
  · exact (answers_readUnknown msg tlv).bind fun _ _ => answers_of_verdict _ _

theorem answers_readInit (msg : LdpMsg) (rtrId : InAddr) (body : List UInt8) :
    Answers (Advisory msg) (readInit rtrId msg body) := by
  have fine : ∀ status, Answers (Advisory msg) (endWith status msg : Said SessPrms) :=
    fun status => answers_of_verdict _ _
  rw [readInit]
  refine answers_ite (fine _) (answers_ite (fine _) (answers_ite (fine _)
    (answers_ite (fine _) (answers_ite (fine _) ?_))))
  refine (answers_readTlvs (fun tlv value found => ?_) _).bind fun _ _ => answers_of_verdict _ _
  exact answers_ite (answers_of_verdict _ _) (answers_readUnknown msg tlv)

end Readings

/-! ### Lists of TLVs -/

/-- What follows the first TLV, if that is all there and good. -/
def TlvNext (Good : Tlv → List UInt8 → Prop) (tlvs rest : List UInt8) : Prop :=
  TlvWhole tlvs ∧ Good (getTlv tlvs) (tlvs.drop tlvHdrSize) ∧
    tlvs.drop (tlvHdrSize + (getTlv tlvs).length.toNat) = rest

/-- Complete and good TLVs up to the end of the message. -/
def TlvsGood (Good : Tlv → List UInt8 → Prop) : List UInt8 → Prop :=
  Walk (TlvNext Good) (· = [])

section Tlvs

variable {Found : Type} {msg : LdpMsg} {handle : Tlv → List UInt8 → Found → Said Found}
  {Good : Tlv → List UInt8 → Prop}
  (accepts : ∀ tlv value found, tlv.length.toNat ≤ value.length →
    ((∃ found', (handle tlv value found).verdict = .accept found') ↔ Good tlv value))

include accepts

theorem readTlv_next (tlvs : Tlvs Found) (rest : List UInt8) :
    TlvNext Good tlvs.left rest ↔
      ∃ next, GoesOn (readTlv msg handle) (fun tlvs => tlvs.left.length) tlvs next ∧
        next.left = rest := by
  rcases readTlv_cases msg handle tlvs with ⟨empty, reads⟩ | ⟨whole, reads⟩ | ⟨part, reads⟩
  · refine iff_of_false ?_ ?_
    · rw [empty]
      exact fun next => not_tlvWhole_nil next.1
    · rintro ⟨next, ⟨goesOn, -⟩, -⟩
      rw [reads] at goesOn
      cases goesOn
  · have good := accepts (getTlv tlvs.left) (tlvs.left.drop tlvHdrSize) tlvs.found whole.value
    constructor
    · rintro ⟨-, fine, rfl⟩
      obtain ⟨found, first⟩ := good.mpr fine
      refine ⟨⟨_, found⟩, ⟨?_, whole.shorter⟩, rfl⟩
      rw [reads, bind_accepts]
      exact ⟨found, first, rfl⟩
    · rintro ⟨next, ⟨goesOn, -⟩, rfl⟩
      rw [reads, bind_accepts] at goesOn
      obtain ⟨found, first, goesOn⟩ := goesOn
      cases goesOn
      exact ⟨whole, good.mp ⟨found, first⟩, rfl⟩
  · refine iff_of_false (fun next => part next.1) ?_
    rintro ⟨next, ⟨goesOn, -⟩, -⟩
    rw [reads] at goesOn
    cases goesOn

/-- TLVs are accepted when all of them are good and complete. -/
theorem readTlvs_accepts (tlvs : Tlvs Found) :
    (∃ found, (readTlvs msg handle tlvs).verdict = .accept found) ↔ TlvsGood Good tlvs.left := by
  rw [readTlvs, iterate_accepts]
  refine walk_iff Tlvs.left (fun _ => True) (fun _ _ _ _ => trivial)
    (fun tlvs rest _ => readTlv_next accepts tlvs rest) (fun tlvs _ => ?_) trivial
  rcases readTlv_cases msg handle tlvs with ⟨empty, reads⟩ | ⟨whole, reads⟩ | ⟨part, reads⟩
  · rw [reads]
    exact iff_of_true ⟨_, rfl⟩ empty
  · refine iff_of_false ?_ fun empty => not_tlvWhole_nil (empty ▸ whole)
    rintro ⟨found, ends⟩
    rw [reads, bind_accepts] at ends
    obtain ⟨_, -, ends⟩ := ends
    cases ends
  · refine iff_of_false ?_ fun empty => ?_
    · rintro ⟨found, ends⟩
      rw [reads] at ends
      cases ends
    · rw [readTlv, empty] at reads
      cases reads

end Tlvs

/-- The places of a message at which its TLVs start, at most so many, each with all that follows. -/
def tlvPlacesFrom : Nat → List UInt8 → List (List UInt8)
  | 0, _ => []
  | bound + 1, tlvs =>
    if TlvWhole tlvs then
      tlvs :: tlvPlacesFrom bound (tlvs.drop (tlvHdrSize + (getTlv tlvs).length.toNat))
    else []

@[inherit_doc tlvPlacesFrom]
def tlvPlaces (tlvs : List UInt8) : List (List UInt8) :=
  tlvPlacesFrom tlvs.length tlvs

theorem tlvPlacesFrom_eq {bound bound' : Nat} {tlvs : List UInt8} (enough : tlvs.length ≤ bound)
    (enough' : tlvs.length ≤ bound') : tlvPlacesFrom bound tlvs = tlvPlacesFrom bound' tlvs := by
  induction bound generalizing bound' tlvs with
  | zero =>
    obtain rfl := List.length_eq_zero_iff.mp (Nat.le_zero.mp enough)
    cases bound' with
    | zero => rfl
    | succ bound' => exact (if_neg not_tlvWhole_nil).symm
  | succ bound inductionHypothesis =>
    cases bound' with
    | zero =>
      obtain rfl := List.length_eq_zero_iff.mp (Nat.le_zero.mp enough')
      exact if_neg not_tlvWhole_nil
    | succ bound' =>
      rw [tlvPlacesFrom, tlvPlacesFrom]
      split
      · rename_i whole
        have shorter := whole.shorter
        rw [inductionHypothesis (by omega) (show _ ≤ bound' by omega)]
      · rfl

theorem tlvPlaces_whole {tlvs : List UInt8} (whole : TlvWhole tlvs) :
    tlvPlaces tlvs =
      tlvs :: tlvPlaces (tlvs.drop (tlvHdrSize + (getTlv tlvs).length.toNat)) := by
  have shorter := whole.shorter
  rw [tlvPlaces]
  cases size : tlvs.length with
  | zero => omega
  | succ bound =>
    rw [tlvPlacesFrom, if_pos whole, tlvPlaces, tlvPlacesFrom_eq (Nat.le_refl _)]
    omega

theorem tlvPlaces_part {tlvs : List UInt8} (part : ¬TlvWhole tlvs) : tlvPlaces tlvs = [] := by
  rw [tlvPlaces]
  cases tlvs.length with
  | zero => rfl
  | succ bound => exact if_neg part

theorem tlvsGood_places {Good : Tlv → List UInt8 → Prop} {tlvs : List UInt8} (good : TlvsGood Good tlvs)
    {place : List UInt8} (member : place ∈ tlvPlaces tlvs) :
    TlvWhole place ∧ Good (getTlv place) (place.drop tlvHdrSize) := by
  induction good with
  | here empty =>
    rw [empty, tlvPlaces_part not_tlvWhole_nil] at member
    exact absurd member List.not_mem_nil
  | later next _ inductionHypothesis =>
    obtain ⟨whole, fine, rfl⟩ := next
    rw [tlvPlaces_whole whole] at member
    rcases List.mem_cons.mp member with rfl | later
    · exact ⟨whole, fine⟩
    · exact inductionHypothesis later

/-- What is kept of what accepted TLVs have said, one after the other. -/
theorem readTlvs_foldl {Found Kept : Type} {msg : LdpMsg}
    {handle : Tlv → List UInt8 → Found → Said Found} (view : Found → Kept)
    {step : Kept → List UInt8 → Kept}
    (steps : ∀ place found found', TlvWhole place →
      (handle (getTlv place) (place.drop tlvHdrSize) found).verdict = .accept found' →
      view found' = step (view found) place)
    {tlvs : Tlvs Found} {found : Found} (accepts : (readTlvs msg handle tlvs).verdict = .accept found) :
    view found = (tlvPlaces tlvs.left).foldl step (view tlvs.found) := by
  have again : ∀ rest next : Tlvs Found,
      (tlvPlaces rest.left).foldl step (view rest.found) =
        (tlvPlaces tlvs.left).foldl step (view tlvs.found) →
      (readTlv msg handle rest).verdict = .accept (.inl next) →
      (tlvPlaces next.left).foldl step (view next.found) =
        (tlvPlaces tlvs.left).foldl step (view tlvs.found) := by
    intro rest next same goesOn
    rcases readTlv_cases msg handle rest with ⟨-, reads⟩ | ⟨whole, reads⟩ | ⟨-, reads⟩
    · rw [reads] at goesOn
      cases goesOn
    · rw [reads, bind_accepts] at goesOn
      obtain ⟨found', first, goesOn⟩ := goesOn
      cases goesOn
      rw [← same, tlvPlaces_whole whole, List.foldl_cons, steps _ _ _ whole first]
    · rw [reads] at goesOn
      cases goesOn
  have done : ∀ (rest : Tlvs Found) (value : Found),
      (tlvPlaces rest.left).foldl step (view rest.found) =
        (tlvPlaces tlvs.left).foldl step (view tlvs.found) →
      (readTlv msg handle rest).verdict = .accept (.inr value) →
      view value = (tlvPlaces tlvs.left).foldl step (view tlvs.found) := by
    intro rest value same ends
    rcases readTlv_cases msg handle rest with ⟨empty, reads⟩ | ⟨-, reads⟩ | ⟨-, reads⟩
    · rw [reads] at ends
      cases ends
      rw [← same, empty, tlvPlaces_part not_tlvWhole_nil, List.foldl_nil]
    · rw [reads, bind_accepts] at ends
      obtain ⟨_, -, ends⟩ := ends
      cases ends
    · rw [reads] at ends
      cases ends
  exact iterate_induct again done rfl accepts

/-! ### Rejections -/

section Rejections

variable {msg : LdpMsg}

theorem rejects_endWith {allowed : Reply → Prop} {Read : Type} {status : UInt32}
    (fine : allowed (.shutdown status msg)) : Rejects allowed (endWith status msg : Said Read) :=
  rejects_reject fine

theorem rejects_refuseWith {allowed : Reply → Prop} {Read : Type} {status : UInt32}
    (fine : allowed (.notify status msg)) : Rejects allowed (refuseWith status msg : Said Read) :=
  rejects_reject fine

theorem rejects_readUnknown {allowed : Reply → Prop} (tlv : Tlv) :
    Rejects allowed (readUnknown msg tlv) := by
  rw [readUnknown]
  exact rejects_ite (rejects_of_accept rfl) (rejects_pure ())

theorem rejects_readTlvs {allowed : Reply → Prop} {Found : Type}
    {handle : Tlv → List UInt8 → Found → Said Found} (cut : allowed (.shutdown sBadTlvLen msg))
    (rejects : ∀ tlv value found, Rejects allowed (handle tlv value found)) (tlvs : Tlvs Found) :
    Rejects allowed (readTlvs msg handle tlvs) := by
  refine rejects_iterate (fun tlvs => ?_) tlvs
  rcases readTlv_cases msg handle tlvs with ⟨-, reads⟩ | ⟨-, reads⟩ | ⟨-, reads⟩
  · rw [reads]
    exact rejects_pure _
  · rw [reads]
    exact (rejects _ _ _).bind fun _ _ => rejects_pure _
  · rw [reads]
    exact rejects_endWith cut

/-- A last reply about a message that closes the session just when its status is fatal. -/
inductive Apt (msg : LdpMsg) : Reply → Prop
  | shutdown {status : UInt32} (fatal : status &&& statusFatal ≠ 0) : Apt msg (.shutdown status msg)
  | notify {status : UInt32} (advisory : status &&& statusFatal = 0) : Apt msg (.notify status msg)

/-- The label decision engine hears of an end of the session at most. -/
theorem Apt.toLde {reply : Reply} (apt : Apt msg reply) {ldpe : Ldpe} (attached : ldpe.nbr.tcp ≠ none)
    (session : ldpe.nbr.state ≠ .present) : (say ldpe reply).toLde = ldpe.toLde ∨
      (say ldpe reply).toLde = ldpe.toLde ++ [.neighborDown ldpe.nbr.peerid] := by
  cases apt with
  | @shutdown status _ =>
    obtain ⟨between, advises, closed⟩ := closed_shutdown attached session status msg
    refine Or.inr (closed.toLde.trans ?_)
    obtain ⟨_, _, _, _, -, rfl⟩ := advises
    rfl
  | notify => exact Or.inl (advises_sendNotificationNbr attached _ _ _).toLde

theorem rejects_readPrefix (elm : List UInt8) (len : Nat) (old : FecBuf) :
    Rejects (Apt msg) (readPrefix msg elm len old) := by
  rw [readPrefix]
  refine rejects_ite (rejects_endWith (.shutdown (by decide))) ?_
  split
  · exact rejects_refuseWith (.notify (by decide))
  · refine rejects_ite (rejects_endWith (.shutdown (by decide))) ?_
    refine rejects_ite (fun _ rejects => ?_) (rejects_pure _)
    cases rejects

theorem rejects_readPwid {allowed : Reply → Prop} (fine : allowed (.shutdown sBadTlvLen msg))
    (elm : List UInt8) (len : Nat) (old : FecBuf) : Rejects allowed (readPwid msg elm len old) := by
  have short {Read : Type} : Rejects allowed (endWith sBadTlvLen msg : Said Read) :=
    rejects_endWith fine
  have params (params : PwParams) : Rejects allowed (readParams msg params) := by
    refine rejects_iterate (fun params => ?_) params
    rw [readParam]
    refine rejects_ite (rejects_pure _) (rejects_ite short (rejects_ite (rejects_pure _) ?_))
    exact rejects_ite short (rejects_pure _)
  rw [readPwid]
  refine rejects_ite short (rejects_ite short (rejects_ite (rejects_pure _) (rejects_ite short ?_)))
  exact (params _).bind fun _ _ => rejects_pure _

/-- The reading of a FEC element ends the session just with a fatal status. -/
theorem rejects_readFecElm (beyond elm : List UInt8) (len : Nat) (old : FecBuf) :
    Rejects (Apt msg) (readFecElm msg beyond elm len old) := by
  have type : Rejects (Apt msg) (readType elm beyond) := by
    rw [readType]
    intro reply rejects
    split at rejects
    · cases rejects
    · cases rejects
  refine type.bind fun type _ => ?_
  refine rejects_ite (rejects_ite (rejects_pure _) (rejects_endWith (.shutdown (by decide)))) ?_
  refine rejects_ite (rejects_readPrefix elm len old) (rejects_ite ?_ ?_)
  · exact rejects_readPwid (.shutdown (by decide)) elm len old
  · exact rejects_refuseWith (.notify (by decide))

theorem rejects_readNotification (msg : LdpMsg) (beyond body : List UInt8) :
    Rejects (Apt msg) (readNotification msg beyond body) := by
  have ends {Read : Type} {status : UInt32} (fatal : status &&& statusFatal ≠ 0) :
      Rejects (Apt msg) (endWith status msg : Said Read) := rejects_endWith (.shutdown fatal)
  rw [readNotification]
  refine rejects_ite (ends (by decide)) (rejects_ite (ends (by decide)) ?_)
  refine (rejects_readTlvs (.shutdown (by decide)) (fun tlv value found => ?_) _).bind
    fun _ _ => rejects_pure _
  rw [readNotificationTlv]
  refine rejects_ite (rejects_pure _) (rejects_ite ?_ (rejects_ite ?_ ?_))
  · exact rejects_ite (ends (by decide)) (rejects_pure _)
  · refine (rejects_readFecElm _ _ _ _).bind fun _ _ => ?_
    exact rejects_ite (ends (by decide)) (rejects_pure _)
  · exact (rejects_readUnknown tlv).bind fun _ _ => rejects_pure _

end Rejections

end Ldpd
