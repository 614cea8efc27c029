/-
This file is about the severity of notifications. The status of a notification says
whether it is fatal, and what is said should be done: the session is closed right
after a fatal notification and after no other. Of the many ways in which a message can
be wrong, three are answered otherwise; and the session may also end for another
reason right after a notification about an unknown TLV.
-/

import Ldpd.Ldpe.Stream

namespace Ldpd

open Bytes Code Reading

/-! ### Notifications that are sent -/

/-- The status that a PDU notifies of, if it is a notification. -/
def noticeOf (pdu : List UInt8) : Option UInt32 :=
  if get16 (pdu.drop ldpHdrSize) = msgTypeNotification then
    some (get32 (pdu.drop (ldpHdrSize + ldpMsgSize + tlvHdrSize)))
  else none

theorem noticeOf_pduOf (rtrId : InAddr) (type : UInt16) (id : UInt32) (params : List UInt8) :
    noticeOf (pduOf rtrId [message type id params].flatten) =
      if type = msgTypeNotification then some (get32 (params.drop tlvHdrSize)) else none := by
  have body : (pduOf rtrId [message type id params].flatten).drop ldpHdrSize = message type id params := by
    rw [List.flatten_singleton]
    exact pduBody_pduOf rtrId _
  have named : get16 (message type id params) = type := type_message type id params
  have fields : (message type id params).drop ldpMsgSize = params := rfl
  rw [noticeOf, ← List.drop_drop, ← List.drop_drop, body, named, fields]

theorem Notifies.notice {pdu : List UInt8} {status : UInt32} (notifies : Notifies pdu status) :
    noticeOf pdu = some status := by
  obtain ⟨rtrId, id, msgId, msgType, rfl⟩ := notifies
  rw [notificationPdu, noticeOf_pduOf, if_pos rfl]
  exact congrArg some (get32_put32 status _)

/-- Of what has been sent since, the notifications are fatal just when the session has been closed
right after them. -/
def Matched (before after : Ldpe) : Prop :=
  ∀ earlier pdu later status, after.sent = before.sent ++ (earlier ++ pdu :: later) →
    noticeOf pdu = some status →
      (status &&& statusFatal ≠ 0 ↔ later = [] ∧ after.nbr.state = .present)

section Matched

variable {before after : Ldpe} {pdus : List (List UInt8)} {statuses : List UInt32}

/-- The session goes on, and no notification is fatal. -/
theorem matched_open (sent : after.sent = before.sent ++ pdus) (goesOn : after.nbr.state ≠ .present)
    (advisory : ∀ pdu ∈ pdus, ∀ status, noticeOf pdu = some status → status &&& statusFatal = 0) :
    Matched before after := by
  intro earlier pdu later status same notice
  rw [sent, List.append_cancel_left_eq] at same
  subst same
  refine iff_of_false (fun fatal => fatal (advisory pdu ?_ status notice)) fun closed => goesOn closed.2
  exact List.mem_append_right _ List.mem_cons_self

/-- The session is closed, and the last notification is the only fatal one. -/
theorem matched_closed {last : List UInt8} {status : UInt32}
    (sent : after.sent = before.sent ++ (pdus ++ [last])) (closed : after.nbr.state = .present)
    (notice : noticeOf last = some status) (fatal : status &&& statusFatal ≠ 0)
    (advisory : ∀ pdu ∈ pdus, ∀ status, noticeOf pdu = some status → status &&& statusFatal = 0) :
    Matched before after := by
  intro earlier pdu later status' same notice'
  rw [sent, List.append_cancel_left_eq] at same
  rcases List.eq_nil_or_concat later with rfl | ⟨others, other, rfl⟩
  · obtain ⟨-, single⟩ := List.append_inj' same rfl
    cases single
    rw [notice] at notice'
    cases notice'
    exact iff_of_true fatal ⟨rfl, closed⟩
  · rw [List.concat_eq_append] at same ⊢
    rw [← List.cons_append, ← List.append_assoc] at same
    obtain ⟨rfl, -⟩ := List.append_inj' same rfl
    have early : pdu ∈ earlier ++ pdu :: others := List.mem_append_right _ List.mem_cons_self
    refine iff_of_false (fun severe => severe (advisory pdu early status' notice')) fun none' => ?_
    exact List.concat_ne_nil other others none'.1

/-- The last notification is fatal and the session goes on, or the other way round. -/
theorem not_matched {last : List UInt8} {status : UInt32}
    (sent : after.sent = before.sent ++ (pdus ++ [last])) (notice : noticeOf last = some status)
    (differs : ¬(status &&& statusFatal ≠ 0 ↔ after.nbr.state = .present)) : ¬Matched before after := by
  intro matched
  refine differs ((matched pdus last [] status sent notice).trans ?_)
  exact and_iff_right rfl

end Matched

/-! ### Replies -/

theorem notices_of_replicate {pdus : List (List UInt8)} {count : Nat} {status : UInt32}
    (notify : List.Forall₂ Notifies pdus (List.replicate count status)) :
    ∀ pdu ∈ pdus, noticeOf pdu = some status := by
  induction count generalizing pdus with
  | zero =>
    cases notify
    exact fun pdu member => absurd member List.not_mem_nil
  | succ count inductionHypothesis =>
    rw [List.replicate_succ] at notify
    cases notify with
    | cons first rest => exact List.forall_mem_cons.mpr ⟨first.notice, inductionHypothesis rest⟩

/-- One notification is one PDU. -/
theorem Advises.single {status : UInt32} {ldpe ldpe' : Ldpe} (advises : Advises [status] ldpe ldpe') :
    ∃ pdu, ldpe'.sent = ldpe.sent ++ [pdu] ∧ noticeOf pdu = some status := by
  obtain ⟨_, _, _, pdus, notify, rfl⟩ := advises
  cases notify with
  | cons first rest =>
    cases rest
    exact ⟨_, rfl, first.notice⟩

/-- No notification that has been sent since is fatal. -/
def Mild (before between : Ldpe) : Prop :=
  ∃ pdus, between.sent = before.sent ++ pdus ∧
    ∀ pdu ∈ pdus, ∀ status, noticeOf pdu = some status → status &&& statusFatal = 0

theorem Mild.refl (ldpe : Ldpe) : Mild ldpe ldpe :=
  ⟨[], (List.append_nil _).symm, fun _ member => absurd member List.not_mem_nil⟩

theorem Mild.composeAll {before between : Ldpe} (mild : Mild before between) (events : List LdeEvent) :
    Mild before (between.composeAll events) :=
  mild

/-- Notifications about unknown TLVs are one PDU each. -/
theorem advised_sent {before between : Ldpe} {count : Nat}
    (advised : Advises (List.replicate count sUnknownTlv) before between) :
    ∃ pdus, between.sent = before.sent ++ pdus ∧ pdus.length = count ∧
      ∀ pdu ∈ pdus, noticeOf pdu = some sUnknownTlv := by
  obtain ⟨_, _, _, pdus, notify, rfl⟩ := advised
  exact ⟨pdus, rfl, notify.length_eq.trans List.length_replicate, notices_of_replicate notify⟩

theorem mild_of_advised {before between : Ldpe} {count : Nat}
    (advised : Advises (List.replicate count sUnknownTlv) before between) : Mild before between := by
  obtain ⟨pdus, all, -, notices⟩ := advised_sent advised
  refine ⟨pdus, all, fun pdu member status notice => ?_⟩
  rw [notices pdu member] at notice
  cases notice
  decide

section Replies

variable {before between : Ldpe} (mild : Mild before between)
include mild

/-- What is sent besides is no notification, and the session goes on. -/
theorem matched_goesOn {after : Ldpe} {kind : List UInt8 → Prop} (sends : Sends kind between after)
    (other : ∀ pdu, kind pdu → noticeOf pdu = none) (goesOn : after.nbr.state ≠ .present) :
    Matched before after := by
  obtain ⟨pdus, all, advisory⟩ := mild
  obtain ⟨more, all', kinds⟩ := sends
  refine matched_open (by rw [all', all, List.append_assoc]) goesOn fun pdu member status notice => ?_
  rcases List.mem_append.mp member with among | among
  · exact advisory pdu among status notice
  · rw [other pdu (kinds pdu among)] at notice
    cases notice

/-- Nothing more is sent, and the session goes on. -/
theorem matched_silent {after : Ldpe} (sent : after.sent = between.sent)
    (goesOn : after.nbr.state ≠ .present) : Matched before after :=
  have none' : Sends (fun _ => False) between after := .of_eq sent
  matched_goesOn mild none' (fun _ other => other.elim) goesOn

section Session

variable (attached : between.nbr.tcp ≠ none) (session : between.nbr.state ≠ .present) {msg : LdpMsg}
  {status : UInt32}
include attached session

/-- What shutting the session down sends, and how it ends. -/
theorem shutdown_sent (status : UInt32) : ∃ pdus pdu,
    (say between (.shutdown status msg)).sent = before.sent ++ (pdus ++ [pdu]) ∧
      noticeOf pdu = some status ∧ (say between (.shutdown status msg)).nbr.state = .present ∧
        ∀ pdu ∈ pdus, ∀ status, noticeOf pdu = some status → status &&& statusFatal = 0 := by
  obtain ⟨pdus, all, advisory⟩ := mild
  obtain ⟨last, notified, closed⟩ := closed_shutdown attached session status msg
  obtain ⟨pdu, sent, notice⟩ := notified.single
  exact ⟨pdus, pdu, by rw [closed.sent, sent, all, List.append_assoc], notice, closed.state, advisory⟩

/-- What a notification sends, and how it ends. -/
theorem notify_sent (status : UInt32) : ∃ pdus pdu,
    (say between (.notify status msg)).sent = before.sent ++ (pdus ++ [pdu]) ∧
      noticeOf pdu = some status ∧ (say between (.notify status msg)).nbr.state ≠ .present ∧
        ∀ pdu ∈ pdus, ∀ status, noticeOf pdu = some status → status &&& statusFatal = 0 := by
  obtain ⟨pdus, all, advisory⟩ := mild
  have notified : Advises [status] between (say between (.notify status msg)) :=
    advises_sendNotificationNbr attached status msg.id msg.type
  obtain ⟨pdu, sent, notice⟩ := notified.single
  refine ⟨pdus, pdu, by rw [sent, all, List.append_assoc], notice, ?_, advisory⟩
  rw [notified.state]
  exact session

/-- An apt reply matches what is done. -/
theorem matched_apt {reply : Reply} (apt : Apt msg reply) : Matched before (say between reply) := by
  cases apt with
  | shutdown fatal =>
    obtain ⟨pdus, pdu, sent, notice, closed, advisory⟩ := shutdown_sent mild attached session _
    exact matched_closed sent closed notice fatal advisory
  | @notify status slight =>
    obtain ⟨pdus, pdu, sent, notice, goesOn, advisory⟩ := notify_sent mild attached session status
    refine matched_open sent goesOn fun other member status' notice' => ?_
    rcases List.mem_append.mp member with among | last
    · exact advisory other among status' notice'
    · rw [List.mem_singleton.mp last, notice] at notice'
      cases notice'
      exact slight

/-- To shut the session down with a status that is not fatal does not match. -/
theorem not_matched_shutdown (slight : status &&& statusFatal = 0) :
    ¬Matched before (say between (.shutdown status msg)) := by
  obtain ⟨pdus, pdu, sent, notice, closed, -⟩ := shutdown_sent mild attached session status
  exact not_matched sent notice fun same => same.mpr closed slight

/-- Nor does it to notify of a fatal status and to go on. -/
theorem not_matched_notify (fatal : status &&& statusFatal ≠ 0) :
    ¬Matched before (say between (.notify status msg)) := by
  obtain ⟨pdus, pdu, sent, notice, goesOn, -⟩ := notify_sent mild attached session status
  exact not_matched sent notice fun same => goesOn (same.mp fatal)

end Session

end Replies

/-! ### Label messages -/

section Message

variable {ldpe : Ldpe} {buf : List UInt8} {size : Nat} (attached : ldpe.nbr.tcp ≠ none)
  (session : ldpe.nbr.state ≠ .present) (long : ldpMsgSize ≤ size) (fits : size ≤ buf.length)
  (small : size < 2 ^ 16)
include attached session long fits small

/-- Of the label messages, those with a wildcard element that they cannot have are answered amiss. -/
theorem recvLabelmessage_matched {fuel : Nat} {type : UInt16} {result : Option Unit} {ldpe' : Ldpe}
    (defined : Defined Access.Meant (recvLabelmessage fuel buf size type ldpe))
    (returns : (recvLabelmessage fuel buf size type ldpe).outcome = .ret (result, ldpe')) :
    Matched ldpe ldpe' ↔ ¬WildcardMet type ((buf.take size).drop ldpMsgSize) := by
  have length : (buf.take size).length = size := List.length_take_of_le fits
  have acts := obeysAt_recvLabelmessage fuel type ldpe (spans_take buf size)
    (by rw [length]; exact long) (by rw [length]; exact small)
  rw [length] at acts
  obtain ⟨between, advises, ends⟩ :=
    returned_advised acts (answers_readLabelmessage _ _ _ _) (fun _ => defined) attached returns
  have mild := mild_of_advised advises
  rw [← advises.tcp] at attached
  rw [← advises.state] at session
  rcases ends with ⟨⟨maps, params⟩, accepts, ends⟩ | ⟨reply, rejects, rfl, rfl⟩
  · refine iff_of_true ?_ fun met => ?_
    · rcases notifyLde_cases maps between with ⟨-, told⟩ | ⟨-, first, -, -, told⟩
      · cases ends.symm.trans told
        exact matched_silent mild rfl session
      · cases ends.symm.trans told
        exact matched_apt (mild.composeAll _) attached session (.shutdown (by decide))
    · cases accepts.symm.trans (readLabelmessage_wildcard _ _ _ met)
  · rcases rejects_readLabelmessage _ _ _ _ reply rejects with apt | ⟨rfl, met⟩
    · refine iff_of_true (matched_apt mild attached session apt) fun met => ?_
      cases rejects.symm.trans (readLabelmessage_wildcard _ _ _ met)
      cases apt with
      | shutdown fatal => exact fatal (by decide)
    · exact iff_of_false (not_matched_shutdown mild attached session (by decide)) fun none' => none' met

end Message

/-! ### Address messages -/

section Message

variable {ldpe : Ldpe} {buf : List UInt8} {size : Nat} (attached : ldpe.nbr.tcp ≠ none)
  (session : ldpe.nbr.state ≠ .present) (long : ldpMsgSize ≤ size) (fits : size ≤ buf.length)
  (small : size < 2 ^ 16)
include attached session long fits small

/-- Of the address messages, those with a TLV of another type are answered amiss. -/
theorem recvAddress_matched {fuel : Nat} {result : Option Unit} {ldpe' : Ldpe}
    (returns : (recvAddress fuel buf size ldpe).outcome = .ret (result, ldpe')) :
    Matched ldpe ldpe' ↔ ¬ListMistyped ((buf.take size).drop ldpMsgSize) := by
  have length : (buf.take size).length = size := List.length_take_of_le fits
  have acts := obeysAt_recvAddress fuel ldpe (spans_take buf size) (by rw [length]; exact long)
    (by rw [length]; exact small)
  rw [length] at acts
  have ends := acts.returned (fun bad => absurd bad (not_has_readAddress _ _ _ .undefined)) returns
  have goesOn (events : List LdeEvent) : Matched ldpe (ldpe.composeAll events) :=
    matched_silent (.refl ldpe) rfl session
  rcases readAddress_shape ldpe.nbr.takes (getLdpMsg (buf.take size)) ((buf.take size).drop ldpMsgSize)
    with ⟨-, status, reads, kind⟩ | ⟨shape, -, reads⟩ | ⟨shape, af, -, reads⟩
  · rw [reads] at ends
    rcases ends with ⟨_, accepts, -⟩ | ⟨reply', rejects, rfl, rfl⟩
    · cases accepts
    cases rejects
    rcases kind with ⟨mistyped, rfl⟩ | ⟨typed, fatal⟩
    · exact iff_of_false (not_matched_shutdown (.refl ldpe) attached session (by decide))
        fun none' => none' mistyped
    · exact iff_of_true (matched_apt (.refl ldpe) attached session (.shutdown fatal)) typed
  · rw [reads] at ends
    rcases ends with ⟨_, accepts, -⟩ | ⟨reply', rejects, rfl, rfl⟩
    · cases accepts
    · cases rejects
      exact iff_of_true (matched_apt (.refl ldpe) attached session (.notify (by decide)))
        fun mistyped => mistyped.2.2 shape.type
  · refine iff_of_true ?_ fun mistyped => mistyped.2.2 shape.type
    rw [reads] at ends
    by_cases takes : ldpe.nbr.takes af = true
    · rw [if_pos takes] at ends
      rcases readAddrs_cases (getLdpMsg (buf.take size)) af
          (((buf.take size).drop ldpMsgSize).drop addrListSize) with
        ⟨accepts, replies⟩ | ⟨rejects, part, -, replies⟩
      · rw [accepts, replies, foldl_say_addresses] at ends
        rcases ends with ⟨_, -, ends⟩ | ⟨_, impossible, -⟩
        · cases ends
          exact goesOn _
        · cases impossible
      · rw [rejects, replies, foldl_say_addresses] at ends
        rcases ends with ⟨_, impossible, -⟩ | ⟨_, same, rfl, rfl⟩
        · cases impossible
        · cases same
          exact matched_apt ((Mild.refl ldpe).composeAll _) attached session (.shutdown (by decide))
    · rw [if_neg takes] at ends
      rcases ends with ⟨_, -, ends⟩ | ⟨_, impossible, -⟩
      · cases ends
        exact goesOn []
      · cases impossible

end Message

/-! ### Notifications -/

/-- Accepted TLVs are answered when one of them is. -/
theorem readTlvs_quiet {Found : Type} {msg : LdpMsg} {handle : Tlv → List UInt8 → Found → Said Found}
    {Quiet : List UInt8 → Prop} (steps : ∀ place found found',
      (handle (getTlv place) (place.drop tlvHdrSize) found).verdict = .accept found' →
        ((handle (getTlv place) (place.drop tlvHdrSize) found).replies = [] ↔ Quiet place))
    {tlvs : Tlvs Found} {found : Found} (accepts : (readTlvs msg handle tlvs).verdict = .accept found) :
    (readTlvs msg handle tlvs).replies = [] ↔ ∀ place ∈ tlvPlaces tlvs.left, Quiet place := by
  induction size : tlvs.left.length using Nat.strongRecOn generalizing tlvs with
  | ind size inductionHypothesis =>
    subst size
    rw [readTlvs, iterate_eq] at accepts ⊢
    rcases readTlv_cases msg handle tlvs with ⟨empty, reads⟩ | ⟨whole, reads⟩ | ⟨-, reads⟩
    · rw [reads, empty, tlvPlaces_part not_tlvWhole_nil]
      exact iff_of_true rfl fun _ member => absurd member List.not_mem_nil
    · rw [reads] at accepts ⊢
      obtain ⟨next, first, accepts⟩ := bind_accepts.mp accepts
      obtain ⟨found', handled, first⟩ := bind_accepts.mp first
      cases first
      have shorter := whole.shorter
      rw [bind_accept handled, bind_accept rfl]
      simp only [if_pos shorter] at accepts ⊢
      rw [tlvPlaces_whole whole, List.forall_mem_cons, ← steps tlvs.left _ _ handled,
        ← inductionHypothesis _ shorter accepts rfl]
      show (_ ++ []) ++ _ = [] ↔ _
      rw [List.append_nil, List.append_eq_nil_iff]
      rfl
    · rw [reads] at accepts
      cases accepts

/-- The TLV at a place is none of those that a notification may have, and should be answered. -/
def UnknownAt (place : List UInt8) : Prop :=
  (getTlv place).type ∉ [tlvTypeExtstatus, tlvTypeReturnedpdu, tlvTypeReturnedmsg, tlvTypePwStatus,
    tlvTypeFec] ∧ (getTlv place).type &&& unknownFlag = 0

/-- A notification that is answered amiss: it is well formed, and either it is about the status of
something that is no pseudowire, or it is fatal and has an unknown TLV. -/
def NotificationMismatch (msg : LdpMsg) (body : List UInt8) : Prop :=
  NotificationGood body ∧
    (get32 (body.drop 4) = sPwStatus ∧ (notificationPlaces tlvTypePwStatus body ≠ [] ∨
        notificationPlaces tlvTypeFec body ≠ []) ∧ ¬(gatheredFec msg body).fec.isPwid = true ∨
      get32 (body.drop 4) &&& statusFatal ≠ 0 ∧ ∃ place ∈ tlvPlaces (body.drop statusSize), UnknownAt place)

/-- A TLV of a notification is answered when it is unknown. -/
theorem readNotificationTlv_quiet {msg : LdpMsg} {beyond place : List UInt8} {found found' : NotifyParams}
    (accepts : (readNotificationTlv msg beyond (getTlv place) (place.drop tlvHdrSize) found).verdict =
      .accept found') :
    (readNotificationTlv msg beyond (getTlv place) (place.drop tlvHdrSize) found).replies = [] ↔
      ¬UnknownAt place := by
  rw [readNotificationTlv] at accepts ⊢
  rw [UnknownAt]
  generalize type : (getTlv place).type = tlvType at accepts ⊢
  by_cases ignored : tlvType = tlvTypeExtstatus ∨ tlvType = tlvTypeReturnedpdu ∨
      tlvType = tlvTypeReturnedmsg
  · rw [if_pos ignored]
    refine iff_of_true rfl fun unknown => unknown.1 ?_
    rcases ignored with rfl | rfl | rfl <;> decide
  rw [if_neg ignored] at accepts ⊢
  by_cases status : tlvType = tlvTypePwStatus
  · rw [if_pos status] at accepts ⊢
    rw [if_neg (accepts_unless_ended.mp accepts).1]
    refine iff_of_true rfl fun unknown => unknown.1 ?_
    rw [status]
    decide
  rw [if_neg status] at accepts ⊢
  by_cases fec : tlvType = tlvTypeFec
  · rw [if_pos fec] at accepts ⊢
    obtain ⟨⟨tlen, element⟩, first, accepts⟩ := bind_accepts.mp accepts
    have plain : Answers (fun _ => False) (readFecElm msg beyond (place.drop tlvHdrSize)
        (getTlv place).length.toNat found.fec) := answers_readFecElm _ _ _ _
    rw [bind_accept first, List.eq_nil_iff_forall_not_mem.mpr plain]
    simp only [if_neg (accepts_unless_ended.mp accepts).1]
    refine iff_of_true rfl fun unknown => unknown.1 ?_
    rw [fec]
    decide
  rw [if_neg fec, readUnknown, type]
  have unlisted : tlvType ∉ [tlvTypeExtstatus, tlvTypeReturnedpdu, tlvTypeReturnedmsg, tlvTypePwStatus,
      tlvTypeFec] := by
    simp only [List.mem_cons, List.not_mem_nil, or_false, not_or] at ignored ⊢
    exact ⟨ignored.1, ignored.2.1, ignored.2.2, status, fec⟩
  by_cases flag : tlvType &&& unknownFlag = 0
  · rw [if_pos flag]
    exact iff_of_false (List.cons_ne_nil _ _) fun known => known ⟨unlisted, flag⟩
  · rw [if_neg flag]
    exact iff_of_true rfl fun unknown => flag unknown.2

theorem readNotification_quiet {msg : LdpMsg} {beyond body : List UInt8} {nm : NotifyMsg}
    (accepts : (readNotification msg beyond body).verdict = .accept nm) :
    (readNotification msg beyond body).replies = [] ↔
      ∀ place ∈ tlvPlaces (body.drop statusSize), ¬UnknownAt place := by
  rw [readNotification] at accepts ⊢
  obtain ⟨long, accepts⟩ := accepts_unless_ended.mp accepts
  obtain ⟨length, accepts⟩ := accepts_unless_ended.mp accepts
  obtain ⟨found, options, -⟩ := bind_accepts.mp accepts
  simp only [if_neg long, if_neg length]
  rw [bind_accept options]
  show _ ++ [] = [] ↔ _
  rw [List.append_nil]
  exact readTlvs_quiet (fun _ _ _ step => readNotificationTlv_quiet step) options

/-- The end of `recv_notification` does what matches, unless the notification is about the status of
what is no pseudowire, or is fatal and has been answered. -/
theorem finishNotification_matched {ldpe between after : Ldpe} {count : Nat}
    (advised : Advises (List.replicate count sUnknownTlv) ldpe between)
    (attached : between.nbr.tcp ≠ none) (session : between.nbr.state ≠ .present) (msg : LdpMsg)
    {nm : NotifyMsg} {result : Option Unit} (ends : finishNotification msg nm between = (result, after)) :
    Matched ldpe after ↔ ¬(nm.statusCode = sPwStatus ∧ (nm.hasPwStatus = true ∨ nm.hasFec = true) ∧
        ¬nm.fec.fec.isPwid = true ∨ nm.statusCode &&& statusFatal ≠ 0 ∧ count ≠ 0) := by
  have mild := mild_of_advised advised
  have notFatal (status : nm.statusCode = sPwStatus) : ¬nm.statusCode &&& statusFatal ≠ 0 := by
    rw [status]
    decide
  rw [finishNotification] at ends
  by_cases incomplete : pwStatusIncomplete nm = true
  · rw [if_pos incomplete] at ends
    cases ends
    obtain ⟨status, noStatus, noFec⟩ := (pwStatusIncomplete_iff nm).mp incomplete
    refine iff_of_true (matched_apt mild attached session (.notify (by decide))) ?_
    rintro (⟨-, has | has, -⟩ | ⟨fatal, -⟩)
    · exact noStatus has
    · exact noFec has
    · exact notFatal status fatal
  rw [if_neg incomplete] at ends
  by_cases misplaced : pwStatusMisplaced nm = true
  · rw [if_pos misplaced] at ends
    cases ends
    obtain ⟨status, other⟩ := (pwStatusMisplaced_iff nm).mp misplaced
    refine iff_of_false (not_matched_notify mild attached session (by decide)) fun fine => fine (Or.inl ?_)
    refine ⟨status, ?_, other⟩
    by_contra neither
    exact incomplete ((pwStatusIncomplete_iff nm).mpr ⟨status, not_or.mp neither⟩)
  rw [if_neg misplaced] at ends
  have placed : ¬(nm.statusCode = sPwStatus ∧ (nm.hasPwStatus = true ∨ nm.hasFec = true) ∧
      ¬nm.fec.fec.isPwid = true) :=
    fun wrong => misplaced ((pwStatusMisplaced_iff nm).mpr ⟨wrong.1, wrong.2.2⟩)
  rw [or_iff_right placed]
  by_cases fatal : nm.statusCode &&& statusFatal ≠ 0
  · rw [if_pos fatal] at ends
    cases ends
    have closed := closed_startIdtimer session
    obtain ⟨pdus, sent, length, notices⟩ := advised_sent advised
    rw [← closed.sent] at sent
    rw [and_iff_right fatal, not_not, ← length]
    rcases List.eq_nil_or_concat pdus with rfl | ⟨others, last, rfl⟩
    · refine iff_of_true (fun earlier pdu later status same notice => ?_) rfl
      rw [sent, List.append_cancel_left_eq] at same
      exact absurd same.symm (List.append_ne_nil_of_right_ne_nil _ (List.cons_ne_nil _ _))
    · rw [List.concat_eq_append] at sent notices
      refine iff_of_false (not_matched sent (notices last ?_) ?_) ?_
      · exact List.mem_append_right _ (List.mem_singleton_self _)
      · exact fun same => same.mpr closed.state (by decide)
      · rw [List.length_concat]
        exact Nat.succ_ne_zero _
  rw [if_neg fatal] at ends
  refine iff_of_true ?_ fun wrong => fatal wrong.1
  split at ends
  · cases ends
    exact matched_silent mild rfl session
  · cases ends
    exact matched_silent mild rfl session

section Message

variable {ldpe : Ldpe} {buf : List UInt8} {size : Nat} (attached : ldpe.nbr.tcp ≠ none)
  (session : ldpe.nbr.state ≠ .present) (long : ldpMsgSize ≤ size) (fits : size ≤ buf.length)
  (small : size < 2 ^ 16)
include attached session long fits small

/-- Of the notifications, those about the status of what is no pseudowire are answered amiss, and
fatal ones with an unknown TLV. -/
theorem recvNotification_matched {fuel : Nat} {result : Option Unit} {ldpe' : Ldpe}
    (defined : Defined Access.Meant (recvNotification fuel buf size ldpe))
    (returns : (recvNotification fuel buf size ldpe).outcome = .ret (result, ldpe')) :
    Matched ldpe ldpe' ↔
      ¬NotificationMismatch (getLdpMsg (buf.take size)) ((buf.take size).drop ldpMsgSize) := by
  have length : (buf.take size).length = size := List.length_take_of_le fits
  have acts := obeysAt_recvNotification fuel ldpe (spans_take buf size) (by rw [length]; exact long)
    (by rw [length]; exact small)
  rw [length] at acts
  obtain ⟨between, advises, ends⟩ :=
    returned_advised acts (answers_readNotification _ _ _) (fun _ => defined) attached returns
  have mild := mild_of_advised advises
  rw [← advises.tcp] at attached
  rw [← advises.state] at session
  rw [NotificationMismatch]
  rcases ends with ⟨nm, accepts, ends⟩ | ⟨reply, rejects, rfl, rfl⟩
  swap
  · refine iff_of_true (matched_apt mild attached session (rejects_readNotification _ _ _ reply rejects))
      fun mismatch => ?_
    obtain ⟨nm, accepts⟩ := (accepts_iff_notificationGood (getLdpMsg (buf.take size)) (buf.drop size)
      _).mpr mismatch.1
    cases accepts.symm.trans rejects
  rw [and_iff_right ((accepts_iff_notificationGood _ _ _).mp ⟨nm, accepts⟩)]
  have quiet := readNotification_quiet accepts
  have same : nm = gathered (getLdpMsg (buf.take size)) ((buf.take size).drop ldpMsgSize) :=
    notifyMsg_of_accepts accepts
  have answered : (readNotification (getLdpMsg (buf.take size)) (buf.drop size)
      ((buf.take size).drop ldpMsgSize)).replies.length ≠ 0 ↔
        ∃ place ∈ tlvPlaces (((buf.take size).drop ldpMsgSize).drop statusSize), UnknownAt place := by
    rw [ne_eq, List.length_eq_zero_iff, quiet]
    simp only [not_forall, not_not, exists_prop]
  rw [finishNotification_matched advises attached session _ ends, same, answered, hasPwStatus_gathered,
    hasFec_gathered, fec_gathered]
  rfl

end Message

/-! ### Messages that move the session on -/

/-- A PDU that is no notification. -/
def NoNotice (pdu : List UInt8) : Prop :=
  noticeOf pdu = none

/-- What is written to a buffer that was opened for another message is no notification. -/
theorem noNotice_of_wrote {ldpe : Ldpe} {type size : UInt16} {data : List UInt8} {buf : Ibuf}
    (other : type ≠ msgTypeNotification)
    (wrote : Wrote { size := size.toNat } (put16 ldpVersion ++ put16 (size - 4) ++ put32 ldpe.rtrId ++
      put16 0 ++ (put16 type ++ put16 (size - 10 - 4) ++ put32 (ldpe.msgcnt + 1)) ++ data) buf)
    (fine : buf.err = false) : NoNotice buf.bytes := by
  have body : ((put16 ldpVersion ++ put16 (size - 4) ++ put32 ldpe.rtrId ++ put16 0 ++
      (put16 type ++ put16 (size - 10 - 4) ++ put32 (ldpe.msgcnt + 1)) ++ data).drop ldpHdrSize) =
        put16 type ++ (put16 (size - 10 - 4) ++ (put32 (ldpe.msgcnt + 1) ++ data)) := by
    simp only [List.append_assoc]
    rfl
  rw [NoNotice, (wrote.bytes fine).2]
  show noticeOf _ = none
  rw [noticeOf, List.nil_append, body, get16_put16]
  exact if_neg other

theorem sends_sendKeepalive (ldpe : Ldpe) : Sends NoNotice ldpe (sendKeepalive ldpe) :=
  (Sends.of_eq (sent_openMessage ldpe _ _)).trans
    (.enqueue (noNotice_of_wrote (by decide) (wrote_openMessage ldpe msgTypeKeepalive 18).skip rfl))

theorem sends_sendInit (ldpe : Ldpe) : Sends NoNotice ldpe (sendInit ldpe) := by
  rw [sendInit]
  refine .ite (fun _ => .of_eq rfl) fun fine => ?_
  have wrote := wrote_openMessage ldpe msgTypeInit 36
  refine (Sends.of_eq (sent_openMessage ldpe _ _)).trans (.enqueue ?_)
  exact noNotice_of_wrote (by decide) (wrote.add _) (Bool.eq_false_iff.mpr fine)

theorem sends_sendAddressAll (ldpe : Ldpe) (af : Af) : Sends NoNotice ldpe (sendAddressAll ldpe af) := by
  have rounds (withdraw : Bool) (rounds : Nat) (addrs : List LdpdAddr) (ldpe : Ldpe) :
      Sends NoNotice ldpe (sendAddressRounds af withdraw rounds addrs ldpe) := by
    induction rounds generalizing addrs ldpe with
    | zero => exact .of_eq rfl
    | succ rounds inductionHypothesis =>
      cases addrs with
      | nil => exact .of_eq rfl
      | cons addr rest =>
        have other : (if withdraw then msgTypeAddrwithdraw else msgTypeAddr) ≠ msgTypeNotification := by
          cases withdraw with
          | _ => decide
        rw [sendAddressRounds]
        generalize (if withdraw then msgTypeAddrwithdraw else msgTypeAddr) = type at other ⊢
        generalize addressBatch ldpe.nbr.maxPduLen af (addr :: rest) = batch
        generalize ldpHdrSize + ldpMsgSize + addrListSize + batch * af.addrSize = size
        have wrote := ((wrote_openMessage ldpe type (UInt16.ofNat size)).add (put16 tlvTypeAddrlist ++
          put16 (UInt16.ofNat (size - 18) - 4) ++ put16 af.family)).addresses ((addr :: rest).take batch)
        rw [List.append_assoc] at wrote
        refine .ite (fun _ => .of_eq rfl) fun fine => ?_
        refine (Sends.trans (Sends.of_eq (sent_openMessage ldpe _ _)) (.enqueue ?_)).trans
          (inductionHypothesis _ _)
        exact noNotice_of_wrote other wrote (Bool.eq_false_iff.mpr fine)
  rw [sendAddressAll, sendAddress]
  generalize (ldpe.addrList.filter fun addr => addr.af = af).reverse = addrs
  refine .ite (fun _ => .of_eq rfl) fun _ => (rounds false addrs.length addrs ldpe).trans ?_
  rw [nbrFsmPduSent_eq]
  obtain ⟨_, _, same⟩ := nbrFsm_pduSent (sendAddressRounds af false addrs.length addrs ldpe)
  rw [same]
  exact .of_eq rfl

/-- An Initialization message that is acted upon leads to no notification. -/
theorem sends_finishInit {ldpe : Ldpe} (start : ldpe.nbr.state = .initial ∨ ldpe.nbr.state = .opensent)
    (sess : SessPrms) : Sends NoNotice ldpe (finishInit ldpe sess) := by
  rw [finishInit]
  generalize seen : ldpe.updateNbr _ = started
  have sent : started.sent = ldpe.sent := by rw [← seen]; rfl
  have state : started.nbr.state = ldpe.nbr.state := by rw [← seen]; rfl
  refine (Sends.of_eq sent).trans ?_
  rcases start with initial | opensent
  · have row : nbrFsmRow started.nbr.state .initRcvd =
        some ⟨[.initial], .initRcvd, .passiveInit, some .openrec⟩ := by
      rw [state, initial]
      rfl
    have enters : Sends NoNotice started (nbrEnter started (some .openrec)) := .of_eq rfl
    rw [nbrFsm_of_row row (by decide), nbrAct]
    exact (enters.trans (sends_sendInit _)).trans (sends_sendKeepalive _)
  · have row : nbrFsmRow started.nbr.state .initRcvd =
        some ⟨[.opensent], .initRcvd, .keepaliveSend, some .openrec⟩ := by
      rw [state, opensent]
      rfl
    have enters : Sends NoNotice started ((nbrEnter started (some .openrec)).updateNbr fun nbr =>
        { nbr with keepaliveTimeout := true }) := .of_eq rfl
    rw [nbrFsm_of_row row (by decide), nbrAct]
    exact enters.trans (sends_sendKeepalive _)

/-- Nor does a KeepAlive message, and the session goes on. -/
theorem sends_finishKeepalive {ldpe : Ldpe} (session : ldpe.nbr.state ≠ .present) :
    Sends NoNotice ldpe (finishKeepalive ldpe) ∧ (finishKeepalive ldpe).nbr.state ≠ .present := by
  rw [finishKeepalive]
  by_cases oper : ldpe.nbr.state = .oper
  · rw [if_pos oper]
    exact ⟨.of_eq rfl, session⟩
  rw [if_neg oper]
  by_cases openrec : ldpe.nbr.state = .openrec
  · have row : nbrFsmRow ldpe.nbr.state .keepaliveRcvd =
        some ⟨[.openrec], .keepaliveRcvd, .sessionEst, some .oper⟩ := by
      rw [openrec]
      rfl
    rw [nbrFsm_of_row row (by decide)]
    refine ⟨?_, ?_⟩
    · have addresses (enabled : Bool) (ldpe' : Ldpe) (af : Af) : Sends NoNotice ldpe'
          (if enabled = true then sendAddressAll ldpe' af else ldpe') :=
        .ite (fun _ => sends_sendAddressAll ldpe' af) fun _ => .of_eq rfl
      let timers := (nbrActSessionOperational (nbrEnter ldpe (some .oper))).updateNbr fun nbr =>
        { nbr with keepaliveTimer := true, keepaliveTimeout := true }
      have enters : Sends NoNotice ldpe timers := .of_eq rfl
      let first := if timers.nbr.v4Enabled = true then sendAddressAll timers .inet else timers
      let second := if first.nbr.v6Enabled = true then sendAddressAll first .inet6 else first
      have sent : Sends NoNotice ldpe second :=
        (enters.trans (addresses timers.nbr.v4Enabled timers .inet)).trans
          (addresses first.nbr.v6Enabled first .inet6)
      have told : Sends NoNotice second (second.composeLde (.labelMappingFull second.nbr.peerid)) :=
        .of_eq rfl
      exact sent.trans told
    · have writes := writes_sessionEst ldpe
      rw [writes.nbr]
      exact NbrState.noConfusion
  · have row : nbrFsmRow ldpe.nbr.state .keepaliveRcvd = none := by
      cases state : ldpe.nbr.state with
      | oper => exact absurd state oper
      | openrec => exact absurd state openrec
      | _ => rfl
    have same : nbrFsm ldpe .keepaliveRcvd = ldpe := by rw [nbrFsm, row]
    rw [same]
    exact ⟨.of_eq rfl, session⟩

section Message

variable {ldpe : Ldpe} {buf : List UInt8} {size : Nat} (attached : ldpe.nbr.tcp ≠ none)
  (long : ldpMsgSize ≤ size) (fits : size ≤ buf.length) (small : size < 2 ^ 16)
include attached long fits

/-- Initialization messages are answered as they should be. -/
theorem recvInit_matched {fuel : Nat} {result : Option Unit} {ldpe' : Ldpe} (small : size < 2 ^ 16)
    (start : ldpe.nbr.state = .initial ∨ ldpe.nbr.state = .opensent)
    (returns : (recvInit fuel buf size ldpe).outcome = .ret (result, ldpe')) : Matched ldpe ldpe' := by
  have length : (buf.take size).length = size := List.length_take_of_le fits
  have acts := obeysAt_recvInit fuel ldpe (spans_take buf size) (by rw [length]; exact long)
    (by rw [length]; exact small)
  rw [length] at acts
  obtain ⟨between, advises, ends⟩ := returned_advised acts (answers_readInit _ _ _)
    (fun bad => absurd bad (not_has_readInit _ _ _ .undefined)) attached returns
  have mild := mild_of_advised advises
  rw [← advises.tcp] at attached
  rw [← advises.state] at start
  have session : between.nbr.state ≠ .present := by
    rcases start with initial | opensent
    · rw [initial]
      decide
    · rw [opensent]
      decide
  rcases ends with ⟨sess, -, ends⟩ | ⟨reply, rejects, rfl, rfl⟩
  · cases ends
    refine matched_goesOn mild (sends_finishInit start sess) (fun _ other => other) ?_
    rw [(finishInit_nbr start sess).1]
    decide
  · obtain ⟨status, fatal, rfl⟩ := rejects_readInit _ _ _ reply rejects
    exact matched_apt mild attached session (.shutdown fatal)

/-- And so are KeepAlive messages. -/
theorem recvKeepalive_matched {result : Option Unit} {ldpe' : Ldpe} (session : ldpe.nbr.state ≠ .present)
    (returns : (recvKeepalive buf size ldpe).outcome = .ret (result, ldpe')) : Matched ldpe ldpe' := by
  have length : (buf.take size).length = size := List.length_take_of_le fits
  have acts : ObeysAt _ True ldpe _ _ :=
    obeysAt_recvKeepalive ldpe (spans_take buf size) (by rw [length]; exact long)
  rw [length] at acts
  by_cases sized : size ≠ ldpMsgSize
  · rw [if_pos sized] at acts
    have acts' : ObeysAt _ True ldpe (recvKeepalive buf size) ((endWith sBadMsgLen (getLdpMsg
        (buf.take size)) : Said Unit) >>= fun _ => pure fun ldpe => (some (), finishKeepalive ldpe)) := acts
    rcases acts'.returned nofun returns with ⟨_, accepts, -⟩ | ⟨reply, rejects, rfl, rfl⟩
    · cases accepts
    · cases rejects
      exact matched_apt (.refl ldpe) attached session (.shutdown (by decide))
  · rw [if_neg sized] at acts
    have acts' : ObeysAt _ True ldpe (recvKeepalive buf size) ((pure () : Said Unit) >>= fun _ =>
        pure fun ldpe => (some (), finishKeepalive ldpe)) := acts
    rcases acts'.returned nofun returns with ⟨_, -, ends⟩ | ⟨reply, rejects, -⟩
    · cases ends
      obtain ⟨sends, goesOn⟩ := sends_finishKeepalive session
      exact matched_goesOn (.refl ldpe) sends (fun _ other => other) goesOn
    · cases rejects

end Message

/-! ### Rounds -/

/-- An event that C gives a meaning to. -/
def SessionEvent.Meant : SessionEvent → Prop
  | .access _ touched => touched.Meant
  | .dispatch _ => True

theorem SessionEvent.Inside.meant {event : SessionEvent} (inside : event.Inside) : event.Meant := by
  cases event with
  | access stretch touched => exact Access.Inside.meant inside
  | dispatch message => trivial

/-- A welcome message that is answered amiss. -/
def Mismatch (msg : LdpMsg) (body : List UInt8) : Prop :=
  msg.type = msgTypeNotification ∧ NotificationMismatch msg body ∨
    (msg.type = msgTypeAddr ∨ msg.type = msgTypeAddrwithdraw) ∧ ListMistyped body ∨
      msg.type ∈ labelTypes ∧ WildcardMet msg.type body

section Round

variable {before : Ldpe} {rest : List UInt8} (attached : before.nbr.tcp ≠ none)
  (session : before.nbr.state ≠ .present) (small : rest.length < 2 ^ 16)
include attached session small

/-- The parsers answer a welcome message as they should, unless it is one of those. -/
theorem recvMessage_matched (welcome : Welcome before.standing rest) {fuel : Nat}
    {result : Option Unit} {after : Ldpe}
    (defined : Defined Access.Meant (recvMessage fuel (getLdpMsg rest) rest (messageSize rest) before))
    (returns : (recvMessage fuel (getLdpMsg rest) rest (messageSize rest) before).outcome =
      .ret (result, after)) :
    Matched before after ↔ ¬Mismatch (getLdpMsg rest) ((firstMessage rest).drop ldpMsgSize) := by
  obtain ⟨whole, allowed⟩ := welcome
  change messageAllowed before.nbr.state _ = true at allowed
  have header : getLdpMsg (rest.take (messageSize rest)) = getLdpMsg rest := whole.header
  obtain ⟨-, long, fits⟩ := whole
  have small' := Nat.lt_of_le_of_lt fits small
  rw [Mismatch]
  generalize type : (getLdpMsg rest).type = msgType at allowed ⊢
  rw [recvMessage, type] at returns defined
  by_cases notification : msgType = msgTypeNotification
  · rw [if_pos notification] at returns defined
    rw [recvNotification_matched attached session long fits small' defined returns, header]
    refine not_congr ⟨fun mismatch => Or.inl ⟨notification, mismatch⟩, ?_⟩
    rw [notification]
    rintro (⟨-, mismatch⟩ | ⟨wrong, -⟩ | ⟨wrong, -⟩)
    · exact mismatch
    · exact absurd wrong (by decide)
    · exact absurd wrong (by decide)
  rw [if_neg notification] at returns defined
  by_cases init : msgType = msgTypeInit
  · rw [if_pos init] at returns
    rw [messageAllowed, if_pos init, decide_eq_true_iff] at allowed
    refine iff_of_true (recvInit_matched attached long fits small' allowed returns) ?_
    rw [init]
    rintro (⟨wrong, -⟩ | ⟨wrong, -⟩ | ⟨wrong, -⟩)
    all_goals exact absurd wrong (by decide)
  rw [if_neg init] at returns defined
  by_cases keepalive : msgType = msgTypeKeepalive
  · rw [if_pos keepalive] at returns
    refine iff_of_true (recvKeepalive_matched attached long fits session returns) ?_
    rw [keepalive]
    rintro (⟨wrong, -⟩ | ⟨wrong, -⟩ | ⟨wrong, -⟩)
    all_goals exact absurd wrong (by decide)
  rw [if_neg keepalive] at returns defined
  by_cases addresses : msgType = msgTypeAddr ∨ msgType = msgTypeAddrwithdraw
  · rw [if_pos addresses] at returns
    rw [recvAddress_matched attached session long fits small' returns]
    refine not_congr ⟨fun mistyped => Or.inr (Or.inl ⟨addresses, mistyped⟩), ?_⟩
    rintro (⟨wrong, -⟩ | ⟨-, mistyped⟩ | ⟨wrong, -⟩)
    · exact absurd wrong notification
    · exact mistyped
    · rcases addresses with addr | withdraw
      · rw [addr] at wrong
        exact absurd wrong (by decide)
      · rw [withdraw] at wrong
        exact absurd wrong (by decide)
  rw [if_neg addresses] at returns defined
  by_cases labels : msgType ∈ labelTypes
  · rw [if_pos labels] at returns defined
    rw [recvLabelmessage_matched attached session long fits small' defined returns]
    refine not_congr ⟨fun met => Or.inr (Or.inr ⟨labels, met⟩), ?_⟩
    rintro (⟨wrong, -⟩ | ⟨wrong, -⟩ | ⟨-, met⟩)
    · exact absurd wrong notification
    · exact absurd wrong addresses
    · exact met
  rw [if_neg labels] at returns
  refine iff_of_true ?_ ?_
  · split at returns
    · cases returns
      exact matched_apt (.refl before) attached session (.notify (by decide))
    · cases returns
      exact matched_silent (.refl before) rfl session
  · rintro (⟨wrong, -⟩ | ⟨wrong, -⟩ | ⟨wrong, -⟩)
    · exact notification wrong
    · exact addresses wrong
    · exact labels wrong

omit attached session in
/-- The parser of a message that is answered amiss returns. -/
theorem recvMessage_mismatch (welcome : Welcome before.standing rest)
    (mismatch : Mismatch (getLdpMsg rest) ((firstMessage rest).drop ldpMsgSize)) :
    ∃ fuel result, (recvMessage fuel (getLdpMsg rest) rest (messageSize rest) before).outcome =
        .ret result ∧
      Defined Access.Meant (recvMessage fuel (getLdpMsg rest) rest (messageSize rest) before) := by
  have acts := fun fuel => obeysAt_message welcome.1 small fuel before
  refine (returns_iff acts).mpr ?_
  have header : getLdpMsg (firstMessage rest) = getLdpMsg rest := welcome.1.header
  have settled : (∃ action, (readMessage before (afterMessage rest) (firstMessage rest)).verdict =
      .accept action) ∨ ∃ reply, (readMessage before (afterMessage rest) (firstMessage rest)).verdict =
        .reject reply := by
    rw [readMessage, header]
    rcases mismatch with ⟨notification, good, -⟩ | ⟨addresses, mistyped⟩ | ⟨labels, met⟩
    · obtain ⟨nm, accepts⟩ := (accepts_iff_notificationGood (getLdpMsg rest) (afterMessage rest) _).mpr good
      simp only [if_pos notification]
      exact Or.inl ⟨_, bind_accepts.mpr ⟨nm, accepts, rfl⟩⟩
    · have others : ∀ type, type = msgTypeAddr ∨ type = msgTypeAddrwithdraw →
          type ≠ msgTypeNotification ∧ type ≠ msgTypeInit ∧ type ≠ msgTypeKeepalive := by
        rintro type (rfl | rfl)
        · decide
        · decide
      obtain ⟨notification, init, keepalive⟩ := others _ addresses
      simp only [if_neg notification, if_neg init, if_neg keepalive, if_pos addresses]
      refine Or.inr ⟨.shutdown sUnknownTlv (getLdpMsg rest), bind_rejects.mpr (Or.inl ?_)⟩
      rcases readAddress_shape before.nbr.takes (getLdpMsg rest)
        ((firstMessage rest).drop ldpMsgSize) with ⟨-, status, reads, ⟨-, rfl⟩ | ⟨typed, -⟩⟩ |
          ⟨shape, -, -⟩ | ⟨shape, -, -, -⟩
      · rw [reads]
        rfl
      · exact absurd mistyped typed
      · exact absurd shape.type mistyped.2.2
      · exact absurd shape.type mistyped.2.2
    · have others : ∀ type ∈ labelTypes, type ≠ msgTypeNotification ∧ type ≠ msgTypeInit ∧
          type ≠ msgTypeKeepalive ∧ ¬(type = msgTypeAddr ∨ type = msgTypeAddrwithdraw) := by
        rw [labelTypes]
        simp only [List.forall_mem_cons]
        exact ⟨by decide, by decide, by decide, by decide, by decide, fun _ none' =>
          absurd none' List.not_mem_nil⟩
      obtain ⟨notification, init, keepalive, addresses⟩ := others _ labels
      simp only [if_neg notification, if_neg init, if_neg keepalive, if_neg addresses, if_pos labels]
      exact Or.inr ⟨_, bind_rejects.mpr (Or.inl (readLabelmessage_wildcard _ _ _ met))⟩
  rcases settled with ⟨action, accepts⟩ | ⟨reply, rejects⟩
  · refine ⟨fun endless => ?_, fun undefined => ?_⟩
    · cases accepts.symm.trans endless
    · cases accepts.symm.trans undefined
  · refine ⟨fun endless => ?_, fun undefined => ?_⟩
    · cases rejects.symm.trans endless
    · cases rejects.symm.trans undefined

/-- A round in which a message is answered amiss. -/
theorem round_unmatched (welcome : Welcome before.standing rest)
    (mismatch : Mismatch (getLdpMsg rest) ((firstMessage rest).drop ldpMsgSize)) :
    ∃ fuel result after, (messageRound fuel (messagesLeft rest) before).outcome = .ret (result, after) ∧
      ¬Matched before after := by
  obtain ⟨fuel, ⟨result, after⟩, returns, defined⟩ := recvMessage_mismatch small welcome mismatch
  have unmatched : ¬Matched before after := fun matched =>
    (recvMessage_matched attached session small welcome defined returns).mp matched mismatch
  cases run : recvMessage fuel (getLdpMsg rest) rest (messageSize rest) before with
  | mk accesses outcome =>
    rw [run] at returns
    cases returns
    cases result with
    | some _ => exact ⟨fuel, _, after, by rw [messageRound_taken welcome small run], unmatched⟩
    | none => exact ⟨fuel, _, after, by rw [messageRound_refused welcome small run], unmatched⟩

omit attached session in
/-- A round that hands a message over has a meaning when the parser of the message has one. -/
theorem defined_messageRound (welcome : Welcome before.standing rest) (fuel : Nat) :
    Defined SessionEvent.Meant (messageRound fuel (messagesLeft rest) before) ↔
      Defined Access.Meant (recvMessage fuel (getLdpMsg rest) rest (messageSize rest) before) := by
  rw [messageRound_welcome welcome small, defined_prepend fun event member =>
    (roundStart_inside welcome.1 event member).meant, defined_bind]
  refine (and_iff_left fun _ _ _ => defined_ret _).trans ?_
  exact and_congr List.forall_mem_map Iff.rfl

/-- The processing of a message has a meaning, and every notification that is sent in it is fatal
just when the session is closed right after it, unless the message is one of those that are answered
amiss or has no meaning to its parser. -/
theorem severity_matches_iff (long : ldpMsgSize ≤ rest.length) :
    (∀ fuel, Defined SessionEvent.Meant (messageRound fuel (messagesLeft rest) before) ∧
      ∀ result after, (messageRound fuel (messagesLeft rest) before).outcome = .ret (result, after) →
        Matched before after) ↔
    (Welcome before.standing rest →
      ¬Mismatch (getLdpMsg rest) ((firstMessage rest).drop ldpMsgSize) ∧
        ¬MessageFlaw (afterMessage rest) (firstMessage rest) .undefined) := by
  by_cases welcome : Welcome before.standing rest
  swap
  · refine iff_of_true (fun fuel => ?_) fun welcome' => absurd welcome' welcome
    obtain ⟨trace, status, inside, -, fatal, run⟩ := messageRound_unwelcome long small welcome fuel
    rw [run]
    refine ⟨⟨fun event member => (inside event member).meant, nofun⟩, fun result after returns => ?_⟩
    cases returns
    exact matched_apt (.refl before) attached session (.shutdown fatal)
  rw [forall_prop_of_true welcome]
  have acts := fun fuel => obeysAt_message welcome.1 small fuel before
  have meaning := defined_iff acts
  rw [readMessage_has] at meaning
  constructor
  · intro matched
    refine ⟨fun mismatch => ?_, meaning.mp fun fuel => ?_⟩
    · obtain ⟨fuel, result, after, returns, unmatched⟩ :=
        round_unmatched attached session small welcome mismatch
      exact unmatched ((matched fuel).2 result after returns)
    · exact (defined_messageRound small welcome fuel).mp (matched fuel).1
  · rintro ⟨fine, unflawed⟩ fuel
    have defined := meaning.mpr unflawed fuel
    refine ⟨(defined_messageRound small welcome fuel).mpr defined, fun result after returns => ?_⟩
    cases run : recvMessage fuel (getLdpMsg rest) rest (messageSize rest) before with
    | mk accesses outcome =>
      cases outcome with
      | ret ended =>
        obtain ⟨value, after'⟩ := ended
        have matches' :=
          (recvMessage_matched attached session small welcome defined (by rw [run])).mpr fine
        cases value with
        | some _ =>
          rw [messageRound_taken welcome small run] at returns
          cases returns
          exact matches'
        | none =>
          rw [messageRound_refused welcome small run] at returns
          cases returns
          exact matches'
      | undefined =>
        rw [run] at defined
        exact absurd rfl defined.2
      | outOfFuel =>
        rw [messageRound_welcome welcome small, bind_apply, Code.andThen, within, mapEvents, run] at returns
        cases returns

end Round

/-- The messages of `busyPdu` from the Label Mapping on. -/
def busyRest : List UInt8 :=
  afterMessage (pduBody busyPdu)

theorem severity_matches_iff_busy : operSession.nbr.tcp ≠ none ∧ ∀ fuel,
    Defined SessionEvent.Meant (messageRound fuel (messagesLeft busyRest) operSession) ∧
      ∀ result after,
        (messageRound fuel (messagesLeft busyRest) operSession).outcome = .ret (result, after) →
          Matched operSession after := by
  refine ⟨by decide, (severity_matches_iff (show operSession.nbr.tcp ≠ none by decide) (by decide)
    (show busyRest.length < 2 ^ 16 by decide) (by decide)).mpr fun _ => ⟨?_, fun flawed => ?_⟩⟩
  · rintro (⟨wrong, -⟩ | ⟨wrong, -⟩ | ⟨-, met⟩)
    · exact absurd wrong (by decide)
    · exact absurd wrong (by decide)
    · have stopped := @readLabelmessage_wildcard ⟨0, 0, 0⟩ _ [] _ met
      cases stopped
  · exact nomatch (readMessage_has operSession _ _ .undefined).mpr flawed

/-- A Label Mapping for all FECs. -/
def mappingAll : List UInt8 :=
  message msgTypeLabelmapping 1 [0x01, 0x00, 0x00, 0x01, 0x01]

/-- The session is closed after a notification that is not fatal. -/
theorem mappingAll_unmatched : ¬∀ fuel result after,
    (messageRound fuel (messagesLeft mappingAll) operSession).outcome = .ret (result, after) →
      Matched operSession after := by
  intro matched
  have met : WildcardMet msgTypeLabelmapping ((firstMessage mappingAll).drop ldpMsgSize) :=
    ⟨Or.inl rfl, by decide, by decide, .here ⟨by decide, by decide, by decide⟩⟩
  obtain ⟨fuel, result, after, returns, unmatched⟩ := round_unmatched
    (show operSession.nbr.tcp ≠ none by decide) (by decide) (show mappingAll.length < 2 ^ 16 by decide)
    (by decide) (Or.inr (Or.inr ⟨by decide, met⟩))
  exact unmatched (matched fuel result after returns)

end Ldpd
