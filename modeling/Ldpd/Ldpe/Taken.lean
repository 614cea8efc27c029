/-
This file says what becomes of a message that is handed over, in terms of its bytes and
of the standing of the session: it is taken, and moves the session on as its type
says; it is refused, and the session goes on as it was; or the session is closed. None
of this depends on what the engine has done before.
-/

import Ldpd.Ldpe.Initialization
import Ldpd.Ldpe.Labels

namespace Ldpd

open Bytes Code Reading

/-! ### What messages are about -/

/-- Whether the neighbor takes addresses of a family. -/
def Standing.takes (standing : Standing) : Af → Bool
  | .inet => standing.v4Enabled
  | .inet6 => standing.v6Enabled

/-- The body of a notification that is taken: it is well formed and not fatal, and names a pseudowire
if it is about the status of one. -/
def NotificationTaken (msg : LdpMsg) (body : List UInt8) : Prop :=
  NotificationGood body ∧ get32 (body.drop 4) &&& statusFatal = 0 ∧
    (get32 (body.drop 4) = sPwStatus → (gatheredFec msg body).fec.isPwid = true)

/-- The first optional parameter of a notification is a FEC that is not known. -/
def NotificationTlvUnknown (beyond tlvs : List UInt8) : Prop :=
  TlvWhole tlvs ∧ (getTlv tlvs).type = tlvTypeFec ∧
    FecUnknown beyond (tlvs.drop tlvHdrSize) (getTlv tlvs).length.toNat

/-- The body of a notification that is refused, with what comes after it: its optional parameters are
well formed up to a FEC that is not known, or all are, and it is about the status of a pseudowire but
names none. -/
def NotificationRefused (msg : LdpMsg) (beyond body : List UInt8) : Prop :=
  (statusSize ≤ body.length ∧ (getTlv body).length.toNat ≤ statusTlvLen ∧
      Walk NotificationTlvNext (NotificationTlvUnknown beyond) (body.drop statusSize)) ∨
    NotificationGood body ∧ get32 (body.drop 4) = sPwStatus ∧
      ¬(gatheredFec msg body).fec.isPwid = true

/-- The body of an address message is one TLV, an address list. -/
structure AddressShape (body : List UInt8) : Prop where
  size : addrListSize ≤ body.length
  length : (getTlv body).length.toNat = body.length - tlvHdrSize
  type : (getTlv body).type = tlvTypeAddrlist

/-- The body of an address message is one TLV, of another type. -/
def ListMistyped (body : List UInt8) : Prop :=
  addrListSize ≤ body.length ∧ (getTlv body).length.toNat = body.length - tlvHdrSize ∧
    (getTlv body).type ≠ tlvTypeAddrlist

/-- The body of an address message that is taken: the family is known, and none of the addresses is
cut short if the neighbor takes them. -/
def AddressTaken (standing : Standing) (body : List UInt8) : Prop :=
  AddressShape body ∧ ∃ af, afOfFamily (get16 (body.drop 4)) = some af ∧
    (standing.takes af = true → af.addrSize ∣ (body.drop addrListSize).length)

/-- The body of an address message that is refused, for its family. -/
def AddressRefused (body : List UInt8) : Prop :=
  AddressShape body ∧ afOfFamily (get16 (body.drop 4)) = none

/-- A message that is taken. -/
def MessageTaken (standing : Standing) (message : List UInt8) : Prop :=
  let msg := getLdpMsg message
  let body := message.drop ldpMsgSize
  if msg.type = msgTypeNotification then NotificationTaken msg body
  else if msg.type = msgTypeInit then InitShape standing.rtrId body
  else if msg.type = msgTypeKeepalive then message.length = ldpMsgSize
  else if msg.type = msgTypeAddr ∨ msg.type = msgTypeAddrwithdraw then AddressTaken standing body
  else if msg.type ∈ labelTypes then LabelMessageTaken msg.type body
  else True

/-- A message that is refused while the session goes on, with what comes after it. -/
def MessageRefused (beyond message : List UInt8) : Prop :=
  let msg := getLdpMsg message
  let body := message.drop ldpMsgSize
  if msg.type = msgTypeNotification then NotificationRefused msg beyond body
  else if msg.type = msgTypeAddr ∨ msg.type = msgTypeAddrwithdraw then AddressRefused body
  else if msg.type ∈ labelTypes then LabelMessageRefused msg.type beyond body
  else False

/-- The standing of the session after a message that is taken. -/
def Standing.after (standing : Standing) (message : List UInt8) : Standing :=
  if (getLdpMsg message).type = msgTypeInit then
    { standing with
      state := .openrec
      maxPduLen := agreedPduLen (getSessPrms (message.drop ldpMsgSize)).maxPduLen }
  else if (getLdpMsg message).type = msgTypeKeepalive ∧ standing.state = .openrec then
    { standing with state := .oper }
  else standing

/-! ### Standing -/

section Standing

variable {ldpe ldpe' : Ldpe}

theorem takes_standing (ldpe : Ldpe) : ldpe.nbr.takes = ldpe.standing.takes := by
  funext af
  cases af <;> rfl

theorem Writes.standing (writes : Writes ldpe ldpe') : ldpe'.standing = ldpe.standing := by
  obtain ⟨_, _, _, rfl⟩ := writes
  rfl

theorem standing_pduSent (ldpe : Ldpe) : (nbrFsm ldpe .pduSent).standing = ldpe.standing := by
  obtain ⟨_, _, same⟩ := nbrFsm_pduSent ldpe
  rw [same]
  rfl

theorem standing_pduRcvd (ldpe : Ldpe) : (nbrFsm ldpe .pduRcvd).standing = ldpe.standing := by
  have step := nbrFsm_step ldpe .pduRcvd
  generalize nbrFsm ldpe .pduRcvd = ldpe' at step
  cases step with
  | ignored => rfl
  | rstKtimeout => rfl
  | stays => rfl

/-- A reply on the way to the verdict: a notification, or an address that is passed on. -/
inductive Quiet : Reply → Prop
  | notify (status : UInt32) (msg : LdpMsg) : Quiet (.notify status msg)
  | address (msg : LdpMsg) (addr : LdpdAddr) : Quiet (.address msg addr)

theorem standing_notify (ldpe : Ldpe) (status : UInt32) (msg : LdpMsg) :
    (say ldpe (.notify status msg)).standing = ldpe.standing :=
  (standing_pduSent _).trans (writes_sendNotificationFull ldpe _).standing

theorem Quiet.standing {reply : Reply} (quiet : Quiet reply) (ldpe : Ldpe) :
    (say ldpe reply).standing = ldpe.standing := by
  cases quiet with
  | notify status msg => exact standing_notify ldpe status msg
  | address => rfl

theorem Quiet.attached {reply : Reply} (quiet : Quiet reply) {rbuf : List UInt8}
    (attached : Attached rbuf ldpe) : Attached rbuf (say ldpe reply) := by
  cases quiet with
  | notify status msg => exact attached.notify status msg
  | address => exact attached.of_nbr (nbr_composeLde ..)

/-- The replies on the way to the verdict leave the session where it stands. -/
theorem foldl_quiet {replies : List Reply} (quiet : ∀ reply ∈ replies, Quiet reply) (ldpe : Ldpe) :
    (replies.foldl say ldpe).standing = ldpe.standing ∧
      ∀ rbuf, Attached rbuf ldpe → Attached rbuf (replies.foldl say ldpe) := by
  induction replies generalizing ldpe with
  | nil => exact ⟨rfl, fun _ attached => attached⟩
  | cons reply rest inductionHypothesis =>
    obtain ⟨first, others⟩ := List.forall_mem_cons.mp quiet
    obtain ⟨standing, attached⟩ := inductionHypothesis others (say ldpe reply)
    exact ⟨standing.trans (first.standing ldpe), fun rbuf start =>
      attached rbuf (first.attached start)⟩

/-- What an Initialization message makes of the standing of a session. -/
theorem standing_finishInit (start : ldpe.nbr.state = .initial ∨ ldpe.nbr.state = .opensent)
    (sess : SessPrms) : (finishInit ldpe sess).standing =
      { ldpe.standing with state := .openrec, maxPduLen := agreedPduLen sess.maxPduLen } := by
  have moved := finishInit_nbr start sess
  rw [finishInit] at moved ⊢
  generalize seen : ldpe.updateNbr _ = started at moved ⊢
  have step := nbrFsm_step started .initRcvd
  generalize nbrFsm started .initRcvd = ldpe' at step moved ⊢
  have rest : ldpe'.standing = { ldpe.standing with
      state := ldpe'.nbr.state, maxPduLen := ldpe'.nbr.maxPduLen } := by
    subst seen
    cases step with
    | ignored => rfl
    | stays => rfl
    | passiveInit _ writes =>
      obtain ⟨_, _, _, rfl⟩ := writes
      rfl
    | keepaliveSend _ writes =>
      obtain ⟨_, _, _, rfl⟩ := writes
      rfl
  rw [rest, moved.1, moved.2]

/-- What a KeepAlive message makes of it. -/
theorem standing_finishKeepalive (ldpe : Ldpe) : (finishKeepalive ldpe).standing =
    if ldpe.nbr.state = .openrec then { ldpe.standing with state := .oper } else ldpe.standing := by
  rw [finishKeepalive]
  by_cases openrec : ldpe.nbr.state = .openrec
  · have row : nbrFsmRow ldpe.nbr.state .keepaliveRcvd =
        some ⟨[.openrec], .keepaliveRcvd, .sessionEst, some .oper⟩ := by
      rw [openrec]
      rfl
    rw [if_pos openrec, if_neg (by rw [openrec]; decide), nbrFsm_of_row row (by decide),
      (writes_sessionEst ldpe).standing]
    rfl
  rw [if_neg openrec]
  split
  · rfl
  · have step := nbrFsm_step ldpe .keepaliveRcvd
    generalize nbrFsm ldpe .keepaliveRcvd = ldpe' at step
    cases step with
    | ignored => rfl
    | sessionEst state => exact absurd state openrec
    | stays => rfl

end Standing

/-! ### How messages end -/

/-- How a message ends that is acted on as it is read: taken, with the session in another standing;
refused, with nothing but a notification; with the end of the session; or not well. -/
inductive Ending (standing next : Standing) (taken refused : Prop)
    (said : Said (Ldpe → Option Unit × Ldpe)) : Prop
  | taken (good : taken) (action : Ldpe → Option Unit × Ldpe) (accepts : said.verdict = .accept action)
      (moves : ∀ ldpe, ldpe.standing = standing →
        (action ldpe).1 = some () ∧ (action ldpe).2.standing = next ∧
          ∀ rbuf, Attached rbuf ldpe → Attached rbuf (action ldpe).2)
  | refused (bad : ¬taken) (holds : refused) (notifies : Refuses said ∨ ∃ action,
      said.verdict = .accept action ∧
        ∀ ldpe, ∃ status msg, action ldpe = (none, say ldpe (.notify status msg)))
  | closed (bad : ¬taken) (fails : ¬refused)
      (closes : (∃ status msg, said.verdict = .reject (.shutdown status msg)) ∨ ∃ action,
        said.verdict = .accept action ∧ ∀ ldpe, (action ldpe).1 = none ∧
          ∀ rbuf, Attached rbuf ldpe → Detached (action ldpe).2)
  | flawed (bad : ¬taken) (fails : ¬refused) (flaw : said.Has .endless ∨ said.Has .undefined)

section Ending

variable {standing next : Standing} {taken refused : Prop} {msg : LdpMsg}

/-- A reading that is acted on when it has accepted. -/
theorem ends_act {Read : Type} {said : Said Read} {action : Read → Ldpe → Option Unit × Ldpe}
    (accepted : ∀ read, said.verdict = .accept read →
      Ending standing next taken refused (pure (action read)))
    (untaken : taken → ∃ read, said.verdict = .accept read)
    (refuses : (∀ read, said.verdict ≠ .accept read) → (refused ↔ Refuses said))
    (rejects : Rejects (Parting msg) said) :
    Ending standing next taken refused (said >>= fun read => pure (action read)) := by
  cases verdict : said.verdict with
  | accept read =>
    have same : (said >>= fun read => (pure (action read) : Said (Ldpe → Option Unit × Ldpe))).verdict =
        .accept (action read) := bind_accepts.mpr ⟨read, verdict, rfl⟩
    cases accepted read verdict with
    | taken good action accepts moves =>
      cases accepts
      exact .taken good _ same moves
    | refused bad holds notifies =>
      rcases notifies with ⟨_, _, stopped⟩ | ⟨action, accepts, notifies⟩
      · cases stopped
      · cases accepts
        exact .refused bad holds (Or.inr ⟨_, same, notifies⟩)
    | closed bad fails closes =>
      rcases closes with ⟨_, _, stopped⟩ | ⟨action, accepts, closes⟩
      · cases stopped
      · cases accepts
        exact .closed bad fails (Or.inr ⟨_, same, closes⟩)
    | flawed bad fails flaw => exact absurd flaw (not_or.mpr ⟨not_has_pure _ _, not_has_pure _ _⟩)
  | reject reply =>
    have silent : ∀ read, said.verdict ≠ .accept read := fun read accepts =>
      nomatch verdict.symm.trans accepts
    have bad : ¬taken := fun good => (untaken good).elim silent
    have stopped : (said >>= fun read => (pure (action read) : Said (Ldpe → Option Unit × Ldpe))).verdict =
        .reject reply := bind_rejects.mpr (Or.inl verdict)
    cases rejects reply verdict with
    | shutdown status =>
      refine .closed bad (fun holds => ?_) (Or.inl ⟨status, msg, stopped⟩)
      obtain ⟨_, _, other⟩ := (refuses silent).mp holds
      cases verdict.symm.trans other
    | notify status =>
      exact .refused bad ((refuses silent).mpr ⟨status, msg, verdict⟩) (Or.inl ⟨status, msg, stopped⟩)
  | undefined =>
    have silent : ∀ read, said.verdict ≠ .accept read := fun read accepts =>
      nomatch verdict.symm.trans accepts
    refine .flawed (fun good => (untaken good).elim silent) (fun holds => ?_)
      (Or.inr (bind_pure_has.mpr verdict))
    obtain ⟨_, _, other⟩ := (refuses silent).mp holds
    cases verdict.symm.trans other
  | endless =>
    have silent : ∀ read, said.verdict ≠ .accept read := fun read accepts =>
      nomatch verdict.symm.trans accepts
    refine .flawed (fun good => (untaken good).elim silent) (fun holds => ?_)
      (Or.inl (bind_pure_has.mpr verdict))
    obtain ⟨_, _, other⟩ := (refuses silent).mp holds
    cases verdict.symm.trans other

/-- A message that cannot be refused is given up with the end of the session. -/
theorem refuses_iff_false {Read : Type} {said : Said Read}
    (rejects : Rejects (fun reply => ∃ status, reply = .shutdown status msg) said) :
    False ↔ Refuses said :=
  iff_of_false not_false (not_refuses_of_rejects rejects)

/-! ### Notifications -/

theorem readTlv_refuses {Found : Type} {handle : Tlv → List UInt8 → Found → Said Found}
    {tlvs : Tlvs Found} : Refuses (readTlv msg handle tlvs) ↔ TlvWhole tlvs.left ∧
      Refuses (handle (getTlv tlvs.left) (tlvs.left.drop tlvHdrSize) tlvs.found) := by
  rcases readTlv_cases msg handle tlvs with ⟨empty, reads⟩ | ⟨whole, reads⟩ | ⟨part, reads⟩
  · rw [reads, empty]
    exact iff_of_false (not_refuses_accept rfl) fun both => not_tlvWhole_nil both.1
  · rw [reads, and_iff_right whole, refuses_bind]
    refine or_iff_left ?_
    rintro ⟨found, -, refuses⟩
    exact not_refuses_accept rfl refuses
  · rw [reads]
    refine iff_of_false ?_ fun both => part both.1
    rintro ⟨_, _, stopped⟩
    cases stopped

theorem readNotificationTlv_refuses {beyond value : List UInt8} {tlv : Tlv} {found : NotifyParams}
    (long : tlv.length.toNat ≤ value.length) :
    Refuses (readNotificationTlv msg beyond tlv value found) ↔
      tlv.type = tlvTypeFec ∧ FecUnknown beyond value tlv.length.toNat := by
  rw [readNotificationTlv]
  by_cases fec : tlv.type = tlvTypeFec
  · rw [if_neg (by rw [fec]; decide), if_neg (by rw [fec]; decide), if_pos fec, and_iff_right fec,
      refuses_bind, readFecElm_refuses long]
    refine or_iff_left ?_
    rintro ⟨⟨tlen, map⟩, -, refuses⟩
    exact not_refuses_accept rfl (refuses_unless_ended.mp refuses).2
  have ends {condition : Prop} [Decidable condition] {found' : NotifyParams} :
      ¬Refuses (if condition then endWith sBadTlvLen msg else (pure found' : Said NotifyParams)) :=
    fun refuses => not_refuses_accept rfl (refuses_unless_ended.mp refuses).2
  refine iff_of_false (fun refuses => ?_) fun both => fec both.1
  rw [if_neg fec] at refuses
  split at refuses
  · exact not_refuses_accept rfl refuses
  split at refuses
  · exact ends refuses
  rcases refuses_bind.mp refuses with unknown | ⟨_, -, refuses⟩
  · rw [readUnknown] at unknown
    split at unknown
    · exact not_refuses_accept rfl unknown
    · exact not_refuses_accept rfl unknown
  · exact not_refuses_accept rfl refuses

theorem readNotification_refuses {beyond body : List UInt8} :
    Refuses (readNotification msg beyond body) ↔ statusSize ≤ body.length ∧
      (getTlv body).length.toNat ≤ statusTlvLen ∧
        Walk NotificationTlvNext (NotificationTlvUnknown beyond) (body.drop statusSize) := by
  have walk : Refuses (readTlvs msg (readNotificationTlv msg beyond) ⟨body.drop statusSize, {}⟩) ↔
      Walk NotificationTlvNext (NotificationTlvUnknown beyond) (body.drop statusSize) := by
    rw [readTlvs, refuses_iterate]
    refine walk_iff Tlvs.left (fun _ => True) (fun _ _ _ _ => trivial)
      (fun tlvs rest _ => readNotification_next msg beyond tlvs rest) (fun tlvs _ => ?_) trivial
    rw [readTlv_refuses, NotificationTlvUnknown]
    exact and_congr_right fun whole => readNotificationTlv_refuses whole.value
  rw [readNotification]
  simp only [refuses_unless_ended, refuses_bind, walk, Nat.not_lt]
  refine and_congr_right fun size => and_congr ?_ (or_iff_left ?_)
  · have fourteen : 14 ≤ body.length := size
    show ¬(14 - 4 < _ ∨ body.length - 4 < _) ↔ _ ≤ 10
    omega
  · rintro ⟨found, -, refuses⟩
    exact not_refuses_accept rfl refuses

/-- How a notification ends that has been read. -/
theorem ends_finishNotification (standing : Standing) {beyond body : List UInt8}
    (good : NotificationGood body) :
    Ending standing standing (NotificationTaken msg body) (NotificationRefused msg beyond body)
      (pure (finishNotification msg (gathered msg body))) := by
  have code : (gathered msg body).statusCode = get32 (body.drop 4) := rfl
  have fec : (gathered msg body).fec.fec = (gatheredFec msg body).fec := by rw [fec_gathered]
  -- the first way to be refused is not to be read
  have known : NotificationRefused msg beyond body ↔ get32 (body.drop 4) = sPwStatus ∧
      ¬(gatheredFec msg body).fec.isPwid = true := by
    rw [NotificationRefused, ← @readNotification_refuses msg, and_iff_right good]
    obtain ⟨nm, accepts⟩ := (accepts_iff_notificationGood msg beyond body).mpr good
    exact or_iff_right (not_refuses_accept accepts)
  rw [← code, ← fec] at known
  by_cases refused : NotificationRefused msg beyond body
  · obtain ⟨status, named⟩ := known.mp refused
    refine .refused (fun taken => ?_) refused (Or.inr ⟨_, rfl, fun ldpe => ?_⟩)
    · rw [code] at status
      rw [fec] at named
      exact named (taken.2.2 status)
    · rw [finishNotification]
      split
      · exact ⟨_, _, rfl⟩
      · rw [if_pos ((pwStatusMisplaced_iff _).mpr ⟨status, named⟩)]
        exact ⟨_, _, rfl⟩
  have placed : ¬pwStatusMisplaced (gathered msg body) = true := fun misplaced =>
    refused (known.mpr ((pwStatusMisplaced_iff _).mp misplaced))
  have complete : ¬pwStatusIncomplete (gathered msg body) = true := by
    intro incomplete
    obtain ⟨status, -, noFec⟩ := (pwStatusIncomplete_iff _).mp incomplete
    by_cases named : (gathered msg body).fec.fec.isPwid = true
    · rw [code] at status
      rw [fec] at named
      exact ((passedOn_gathered msg body).mpr ⟨status, named⟩).2.1.elim
        (((pwStatusIncomplete_iff _).mp incomplete).2.1) noFec
    · exact refused (known.mpr ⟨status, named⟩)
  by_cases fatal : (gathered msg body).statusCode &&& statusFatal ≠ 0
  · refine .closed (fun taken => fatal taken.2.1) refused (Or.inr ⟨_, rfl, fun ldpe => ?_⟩)
    rw [finishNotification, if_neg complete, if_neg placed, if_pos fatal]
    refine ⟨rfl, fun rbuf attached => ?_⟩
    split
    · exact (attached.updateNbr rfl rfl).close
    · exact attached.close
  · have taken : NotificationTaken msg body := by
      refine ⟨good, not_not.mp fatal, fun status => ?_⟩
      by_contra named
      rw [← code] at status
      rw [← fec] at named
      exact refused (known.mpr ⟨status, named⟩)
    refine .taken taken _ rfl fun ldpe standing => ?_
    rw [finishNotification, if_neg complete, if_neg placed, if_neg fatal]
    split
    · exact ⟨rfl, standing, fun rbuf attached => attached.of_nbr (nbr_composeLde ..)⟩
    · exact ⟨rfl, standing, fun rbuf attached => attached⟩

/-- How a notification ends. -/
theorem ends_notification (standing : Standing) (msg : LdpMsg) (beyond body : List UInt8) :
    Ending standing standing (NotificationTaken msg body) (NotificationRefused msg beyond body)
      (readNotification msg beyond body >>= fun nm => pure (finishNotification msg nm)) := by
  have good := accepts_iff_notificationGood msg beyond body
  have rejects : Rejects (Parting msg) (readNotification msg beyond body) := fun reply stopped =>
    (rejects_readNotification _ _ _ reply stopped).parting
  refine ends_act (fun nm accepts => ?_) (fun taken => good.mpr taken.1) (fun silent => ?_) rejects
  · obtain rfl := notifyMsg_of_accepts accepts
    exact ends_finishNotification standing (good.mp ⟨_, accepts⟩)
  · rw [readNotification_refuses]
    exact or_iff_left fun named => (good.mpr named.1).elim silent

/-! ### Address messages -/

/-- Addresses are read to the end when none of them is cut short. -/
theorem readAddrs_accepts (msg : LdpMsg) (af : Af) (list : List UInt8) :
    (∃ read, (readAddrs msg af list).verdict = .accept read) ↔ af.addrSize ∣ list.length := by
  have positive := addrSize_pos af
  induction size : list.length using Nat.strongRecOn generalizing list with
  | ind size inductionHypothesis =>
    subst size
    rw [readAddrs, iterate_eq, readAddr]
    by_cases empty : list.length = 0
    · rw [if_pos empty, empty]
      exact iff_of_true ⟨(), rfl⟩ (dvd_zero _)
    rw [if_neg empty]
    by_cases short : list.length < af.addrSize
    · rw [if_pos short]
      refine iff_of_false ?_ fun whole => ?_
      · rintro ⟨_, accepts⟩
        cases accepts
      · exact absurd (Nat.le_of_dvd (Nat.pos_of_ne_zero empty) whole) (Nat.not_le.mpr short)
    rw [if_neg short]
    have less : (list.drop af.addrSize).length < list.length := by
      rw [List.length_drop]
      omega
    have step : (passOn msg (addrOfBytes af list) >>= fun _ => pure (.inl (list.drop af.addrSize)) :
        Said (List UInt8 ⊕ Unit)) =
          ⟨[.address msg (addrOfBytes af list)], false, .accept (.inl (list.drop af.addrSize))⟩ := rfl
    rw [step, bind_accept rfl]
    simp only [if_pos less]
    have rest := inductionHypothesis _ less (list.drop af.addrSize) rfl
    rw [readAddrs] at rest
    refine rest.trans ?_
    rw [List.length_drop, Nat.dvd_sub_iff_left (Nat.le_of_not_lt short) (Nat.dvd_refl _)]

/-- An address message is read as its shape and its family say. -/
theorem readAddress_shape (takes : Af → Bool) (msg : LdpMsg) (body : List UInt8) :
    (¬AddressShape body ∧ ∃ status, readAddress takes msg body = endWith status msg ∧
      (ListMistyped body ∧ status = sUnknownTlv ∨
        ¬ListMistyped body ∧ status &&& statusFatal ≠ 0)) ∨
    (AddressShape body ∧ afOfFamily (get16 (body.drop 4)) = none ∧
      readAddress takes msg body = refuseWith sUnsupAddr msg) ∨
    (AddressShape body ∧ ∃ af, afOfFamily (get16 (body.drop 4)) = some af ∧
      readAddress takes msg body =
        if takes af then readAddrs msg af (body.drop addrListSize) else pure ()) := by
  rw [readAddress]
  by_cases short : body.length < addrListSize
  · exact Or.inl ⟨fun shape => absurd shape.size (Nat.not_le.mpr short), _, if_pos short,
      Or.inr ⟨fun mistyped => absurd mistyped.1 (Nat.not_le.mpr short), by decide⟩⟩
  simp only [if_neg short]
  by_cases length : (getTlv body).length.toNat ≠ body.length - tlvHdrSize
  · exact Or.inl ⟨fun shape => length shape.length, _, if_pos length,
      Or.inr ⟨fun mistyped => length mistyped.2.1, by decide⟩⟩
  simp only [if_neg length]
  by_cases type : (getTlv body).type ≠ tlvTypeAddrlist
  · exact Or.inl ⟨fun shape => type shape.type, _, if_pos type,
      Or.inl ⟨⟨Nat.le_of_not_lt short, not_not.mp length, type⟩, rfl⟩⟩
  simp only [if_neg type]
  have shape : AddressShape body := ⟨Nat.le_of_not_lt short, not_not.mp length, not_not.mp type⟩
  refine Or.inr ?_
  cases afOfFamily (get16 (body.drop 4)) with
  | none => exact Or.inl ⟨shape, rfl, rfl⟩
  | some af => exact Or.inr ⟨shape, af, rfl, rfl⟩

theorem quiet_readAddress (takes : Af → Bool) (msg : LdpMsg) (body : List UInt8) :
    Answers Quiet (readAddress takes msg body) := by
  rcases readAddress_shape takes msg body with ⟨-, status, reads, -⟩ | ⟨-, -, reads⟩ | ⟨-, af, -, reads⟩
  · rw [reads]
    exact answers_of_verdict _ _
  · rw [reads]
    exact answers_of_verdict _ _
  · rw [reads]
    refine answers_ite (answers_iterate (fun list => ?_) _) (answers_of_verdict _ _)
    rw [readAddr]
    refine answers_ite (answers_of_verdict _ _) (answers_ite (answers_of_verdict _ _) ?_)
    refine Answers.bind (fun reply member => ?_) fun _ _ => answers_of_verdict _ _
    rw [List.mem_singleton.mp member]
    exact .address _ _

theorem rejects_readAddrs (msg : LdpMsg) (af : Af) (list : List UInt8) :
    Rejects (fun reply => ∃ status, reply = .shutdown status msg) (readAddrs msg af list) := by
  intro reply rejects
  rcases readAddrs_cases msg af list with ⟨accepts, -⟩ | ⟨ends, -⟩
  · cases accepts.symm.trans rejects
  · cases ends.symm.trans rejects
    exact ⟨_, rfl⟩

/-- How an address message ends. -/
theorem ends_address (standing : Standing) (msg : LdpMsg) (body : List UInt8) :
    Ending standing standing (AddressTaken standing body) (AddressRefused body)
      (readAddress standing.takes msg body >>= fun _ => pure fun ldpe => (some (), ldpe)) := by
  have taken : AddressTaken standing body ↔
      ∃ read, (readAddress standing.takes msg body).verdict = .accept read := by
    rw [AddressTaken]
    rcases readAddress_shape standing.takes msg body with ⟨bad, status, reads, -⟩ | ⟨-, other, reads⟩ |
      ⟨shape, af, family, reads⟩
    · rw [reads]
      exact iff_of_false (fun taken => bad taken.1) fun accepts => nomatch accepts
    · rw [reads, other]
      exact iff_of_false (fun taken => nomatch taken.2) fun accepts => nomatch accepts
    · rw [reads, family, and_iff_right shape]
      simp only [Option.some_inj, exists_eq_left']
      split
      · rename_i takes
        rw [forall_prop_of_true takes, readAddrs_accepts]
      · rename_i other
        exact iff_of_true (fun takes => absurd takes other) ⟨(), rfl⟩
  have refused : AddressRefused body ↔ Refuses (readAddress standing.takes msg body) := by
    rw [AddressRefused]
    rcases readAddress_shape standing.takes msg body with ⟨bad, status, reads, -⟩ | ⟨shape, other, reads⟩ |
      ⟨shape, af, family, reads⟩
    · rw [reads]
      refine iff_of_false (fun refused => bad refused.1) ?_
      rintro ⟨_, _, stopped⟩
      cases stopped
    · rw [reads]
      exact iff_of_true ⟨shape, other⟩ ⟨_, _, rfl⟩
    · rw [reads, family]
      have rejects : Rejects (fun reply => ∃ status, reply = .shutdown status msg)
          (if standing.takes af then readAddrs msg af (body.drop addrListSize) else pure ()) :=
        rejects_ite (rejects_readAddrs _ _ _) (rejects_pure _)
      exact iff_of_false (fun refused => nomatch refused.2) (not_refuses_of_rejects rejects)
  have rejects : Rejects (Parting msg) (readAddress standing.takes msg body) := by
    rcases readAddress_shape standing.takes msg body with ⟨-, status, reads, -⟩ | ⟨-, -, reads⟩ |
      ⟨-, af, -, reads⟩
    · rw [reads]
      exact rejects_endWith (.shutdown status)
    · rw [reads]
      exact rejects_refuseWith (.notify _)
    · rw [reads]
      refine rejects_ite (fun reply stopped => ?_) (rejects_pure _)
      obtain ⟨status, rfl⟩ := rejects_readAddrs _ _ _ reply stopped
      exact .shutdown status
  refine ends_act (fun read accepts => ?_) taken.mp (fun _ => refused) rejects
  exact .taken (taken.mpr ⟨read, accepts⟩) _ rfl fun ldpe same => ⟨rfl, same, fun _ attached => attached⟩

/-! ### Other messages -/

/-- How an Initialization message ends that is welcome. -/
theorem ends_init {standing : Standing} (start : standing.state = .initial ∨ standing.state = .opensent)
    (msg : LdpMsg) (body : List UInt8) :
    Ending standing
      { standing with state := .openrec, maxPduLen := agreedPduLen (getSessPrms body).maxPduLen }
      (InitShape standing.rtrId body) False
      (readInit standing.rtrId msg body >>= fun sess => pure fun ldpe =>
        (some (), finishInit ldpe sess)) := by
  have rejects : Rejects (fun reply => ∃ status, reply = .shutdown status msg)
      (readInit standing.rtrId msg body) := by
    intro reply stopped
    obtain ⟨status, -, same⟩ := rejects_readInit _ _ _ reply stopped
    exact ⟨status, same⟩
  have parting : Rejects (Parting msg) (readInit standing.rtrId msg body) := by
    intro reply stopped
    obtain ⟨status, rfl⟩ := rejects reply stopped
    exact .shutdown status
  refine ends_act (fun sess accepts => ?_) (fun shape => ⟨_, (readInit_accepts _ _ _ _).mpr ⟨shape, rfl⟩⟩)
    (fun _ => refuses_iff_false rejects) parting
  obtain ⟨shape, rfl⟩ := (readInit_accepts _ _ _ _).mp accepts
  refine .taken shape _ rfl fun ldpe same => ⟨rfl, ?_, fun rbuf attached => ?_⟩
  · subst same
    exact standing_finishInit start _
  · exact Attached.nbrFsm (attached.updateNbr rfl rfl) (by decide)

/-- How a KeepAlive message ends. -/
theorem ends_keepalive (standing : Standing) (msg : LdpMsg) (message : List UInt8) :
    Ending standing (if standing.state = .openrec then { standing with state := .oper } else standing)
      (message.length = ldpMsgSize) False
      (if message.length ≠ ldpMsgSize then endWith sBadMsgLen msg
        else pure fun ldpe => (some (), finishKeepalive ldpe)) := by
  by_cases sized : message.length = ldpMsgSize
  · rw [if_neg (not_not.mpr sized)]
    refine .taken sized _ rfl fun ldpe same => ⟨rfl, ?_, fun rbuf attached => ?_⟩
    · subst same
      exact standing_finishKeepalive ldpe
    · show Attached rbuf (finishKeepalive ldpe)
      rw [finishKeepalive]
      split
      · exact attached
      · exact attached.nbrFsm (by decide)
  · rw [if_pos sized]
    exact .closed sized not_false (Or.inl ⟨_, _, rfl⟩)

/-- How a label message ends. -/
theorem ends_label (standing : Standing) (msg : LdpMsg) (type : UInt16) (beyond body : List UInt8) :
    Ending standing standing (LabelMessageTaken type body) (LabelMessageRefused type beyond body)
      (readLabelmessage msg type beyond body >>= fun parsed =>
        pure (notifyLde msg type parsed.2 parsed.1)) := by
  have taken := @labelMessageTaken_iff msg type beyond body
  have refused := @labelMessageRefused_iff msg type beyond body
  have rejects : Rejects (Parting msg) (readLabelmessage msg type beyond body) := by
    intro reply stopped
    rcases rejects_readLabelmessage _ _ _ _ reply stopped with apt | ⟨rfl, -⟩
    · exact apt.parting
    · exact .shutdown _
  refine ends_act (fun read accepts => ?_) (fun good => ?_) (fun _ => refused) rejects
  swap
  · obtain ⟨maps, params, accepts, -⟩ := taken.mp good
    exact ⟨_, accepts⟩
  obtain ⟨maps, params⟩ := read
  have unrefused : ¬LabelMessageRefused type beyond body := fun holds =>
    not_refuses_accept accepts (refused.mp holds)
  by_cases placed : ∀ map ∈ maps, ¬labelMisplaced params.label map.fec = true
  · refine .taken (taken.mpr ⟨maps, params, accepts, placed⟩) _ rfl fun ldpe same => ?_
    rcases notifyLde_cases maps ldpe with ⟨-, told⟩ | ⟨⟨map, member, wrong⟩, -⟩
    · rw [told]
      exact ⟨rfl, same, fun rbuf attached => attached⟩
    · exact absurd wrong (placed map member)
  · refine .closed (fun good => ?_) unrefused (Or.inr ⟨_, rfl, fun ldpe => ?_⟩)
    · obtain ⟨maps', params', accepts', placed'⟩ := taken.mp good
      cases accepts.symm.trans accepts'
      exact placed placed'
    · rcases notifyLde_cases maps ldpe with ⟨placed', -⟩ | ⟨-, first, -, -, told⟩
      · exact absurd placed' placed
      · rw [told]
        have goesOn {rbuf : List UInt8} (attached : Attached rbuf ldpe) :
            Attached rbuf (ldpe.composeAll (fecEvents ldpe.nbr msg type params first)) := attached
        exact ⟨rfl, fun rbuf attached => (goesOn attached).shutdown _ _⟩

end Ending

/-! ### Messages that are handed over -/

theorem after_of_type {standing : Standing} {message : List UInt8}
    (init : (getLdpMsg message).type ≠ msgTypeInit)
    (keepalive : (getLdpMsg message).type ≠ msgTypeKeepalive) :
    standing.after message = standing := by
  rw [Standing.after, if_neg init, if_neg fun both => keepalive both.1]

/-- How a welcome message ends. -/
theorem ends_message {ldpe : Ldpe} {message : List UInt8} (beyond : List UInt8)
    (allowed : messageAllowed ldpe.nbr.state (getLdpMsg message).type = true) :
    Ending ldpe.standing (ldpe.standing.after message) (MessageTaken ldpe.standing message)
      (MessageRefused beyond message) (readMessage ldpe beyond message) := by
  rw [readMessage, MessageTaken, MessageRefused]
  by_cases notification : (getLdpMsg message).type = msgTypeNotification
  · rw [if_pos notification, if_pos notification, if_pos notification,
      after_of_type (by rw [notification]; decide) (by rw [notification]; decide)]
    exact ends_notification _ _ _ _
  rw [if_neg notification, if_neg notification, if_neg notification]
  by_cases init : (getLdpMsg message).type = msgTypeInit
  · have start : ldpe.standing.state = .initial ∨ ldpe.standing.state = .opensent := by
      rw [messageAllowed, if_pos init] at allowed
      exact of_decide_eq_true allowed
    have unlisted : (getLdpMsg message).type ∉ labelTypes := by
      rw [init]
      decide
    rw [if_pos init, if_pos init, if_neg (by rw [init]; decide), if_neg unlisted, Standing.after,
      if_pos init]
    exact ends_init start _ _
  rw [if_neg init, if_neg init]
  by_cases keepalive : (getLdpMsg message).type = msgTypeKeepalive
  · have unlisted : (getLdpMsg message).type ∉ labelTypes := by
      rw [keepalive]
      decide
    have moves : ldpe.standing.after message =
        if ldpe.standing.state = .openrec then { ldpe.standing with state := .oper }
          else ldpe.standing := by
      rw [Standing.after, if_neg init]
      exact if_congr (and_iff_right keepalive) rfl rfl
    rw [if_pos keepalive, if_pos keepalive, if_neg (by rw [keepalive]; decide), if_neg unlisted, moves]
    exact ends_keepalive _ _ _
  rw [if_neg keepalive, if_neg keepalive, after_of_type init keepalive]
  by_cases address : (getLdpMsg message).type = msgTypeAddr ∨
      (getLdpMsg message).type = msgTypeAddrwithdraw
  · rw [if_pos address, if_pos address, if_pos address, takes_standing]
    exact ends_address _ _ _
  rw [if_neg address, if_neg address, if_neg address]
  by_cases label : (getLdpMsg message).type ∈ labelTypes
  · rw [if_pos label, if_pos label, if_pos label]
    exact ends_label _ _ _ _ _
  -- a message of another type is taken as it is
  rw [if_neg label, if_neg label, if_neg label]
  split
  · exact .taken trivial _ rfl fun _ same => ⟨rfl, same, fun _ attached => attached⟩
  · exact .taken trivial _ rfl fun _ same => ⟨rfl, same, fun _ attached => attached⟩

theorem quiet_of_advisory {Read : Type} {msg : LdpMsg} {said : Said Read}
    (replies : Answers (Advisory msg) said) : Answers Quiet said := by
  intro reply member
  rw [replies reply member]
  exact .notify _ _

/-- On the way to the verdict there are only such replies. -/
theorem quiet_readMessage (ldpe : Ldpe) (beyond message : List UInt8) :
    Answers Quiet (readMessage ldpe beyond message) := by
  rw [readMessage]
  refine answers_ite ((quiet_of_advisory (answers_readNotification _ _ _)).bind fun _ _ =>
    answers_of_verdict _ _) ?_
  refine answers_ite ((quiet_of_advisory (answers_readInit _ _ _)).bind fun _ _ =>
    answers_of_verdict _ _) ?_
  refine answers_ite (answers_ite (answers_of_verdict _ _) (answers_of_verdict _ _)) ?_
  refine answers_ite ((quiet_readAddress _ _ _).bind fun _ _ => answers_of_verdict _ _) ?_
  refine answers_ite ((quiet_of_advisory (answers_readLabelmessage _ _ _ _)).bind fun _ _ =>
    answers_of_verdict _ _) ?_
  refine answers_ite (fun reply member => ?_) (answers_of_verdict _ _)
  rw [List.mem_singleton.mp member]
  exact .notify _ _

section Parsed

variable {ldpe ldpe' : Ldpe} {rest : List UInt8} {fuel : Nat} {result : Option Unit}

/-- What a message does to the session it is welcome in, with what is returned for it. -/
inductive Parsed (ldpe : Ldpe) (rest : List UInt8) : Option Unit → Ldpe → Prop
  | taken {ldpe' : Ldpe} (taken : MessageTaken ldpe.standing (firstMessage rest))
      (standing : ldpe'.standing = ldpe.standing.after (firstMessage rest))
      (attached : ∀ rbuf, Attached rbuf ldpe → Attached rbuf ldpe') : Parsed ldpe rest (some ()) ldpe'
  | refused {ldpe' : Ldpe} (refused : MessageRefused (afterMessage rest) (firstMessage rest))
      (standing : ldpe'.standing = ldpe.standing)
      (attached : ∀ rbuf, Attached rbuf ldpe → Attached rbuf ldpe') : Parsed ldpe rest none ldpe'
  | closed {ldpe' : Ldpe} (detached : ∀ rbuf, Attached rbuf ldpe → Detached ldpe') :
      Parsed ldpe rest none ldpe'

/-- The parser of a message that is welcome does what the message calls for. -/
theorem recvMessage_returned (welcome : Welcome ldpe.standing rest) (small : rest.length < 2 ^ 16)
    (defined : ¬MessageFlaw (afterMessage rest) (firstMessage rest) .undefined)
    (returns : (recvMessage fuel (getLdpMsg rest) rest (messageSize rest) ldpe).outcome =
      .ret (result, ldpe')) : Parsed ldpe rest result ldpe' := by
  have meaning : (readMessage ldpe (afterMessage rest) (firstMessage rest)).verdict ≠ .undefined :=
    fun undefined => defined ((readMessage_has ldpe _ _ .undefined).mp undefined)
  have ends := @ends_message ldpe (firstMessage rest) (afterMessage rest)
    (by rw [welcome.1.header]; exact welcome.2)
  have quiet := foldl_quiet (quiet_readMessage ldpe (afterMessage rest) (firstMessage rest)) ldpe
  have acts := (obeysAt_message welcome.1 small fuel ldpe).settled (fun bad => absurd bad meaning) returns
  generalize readMessage ldpe (afterMessage rest) (firstMessage rest) = said at ends quiet acts meaning
  obtain ⟨standing, attached⟩ := quiet
  cases ends with
  | taken good action accepts moves =>
    rcases acts with ⟨action', accepts', acted⟩ | ⟨_, rejects, -⟩
    · cases accepts.symm.trans accepts'
      obtain ⟨returned, next, stays⟩ := moves _ standing
      rw [acted] at returned next stays
      cases returned
      exact .taken good next fun rbuf start => stays rbuf (attached rbuf start)
    · cases accepts.symm.trans rejects
  | refused _ holds notifies =>
    have notified {status : UInt32} {msg : LdpMsg}
        (same : ldpe' = say (said.replies.foldl say ldpe) (.notify status msg)) :
        Parsed ldpe rest none ldpe' := by
      subst same
      exact .refused holds ((standing_notify _ status msg).trans standing) fun rbuf start =>
        (attached rbuf start).notify status msg
    rcases acts with ⟨action, accepts, acted⟩ | ⟨reply, rejects, rfl, same⟩
    · rcases notifies with ⟨_, _, other⟩ | ⟨action', accepts', notifies⟩
      · cases accepts.symm.trans other
      · cases accepts.symm.trans accepts'
        obtain ⟨status, msg, same⟩ := notifies (said.replies.foldl say ldpe)
        cases acted.symm.trans same
        exact notified rfl
    · rcases notifies with ⟨status, msg, other⟩ | ⟨_, other, -⟩
      · cases rejects.symm.trans other
        exact notified same
      · cases rejects.symm.trans other
  | closed _ _ closes =>
    rcases acts with ⟨action, accepts, acted⟩ | ⟨reply, rejects, rfl, same⟩
    · rcases closes with ⟨_, _, other⟩ | ⟨action', accepts', closes⟩
      · cases accepts.symm.trans other
      · cases accepts.symm.trans accepts'
        obtain ⟨returned, detached⟩ := closes (said.replies.foldl say ldpe)
        rw [acted] at returned detached
        cases returned
        exact .closed fun rbuf start => detached rbuf (attached rbuf start)
    · rcases closes with ⟨status, msg, other⟩ | ⟨_, other, -⟩
      · cases rejects.symm.trans other
        subst same
        exact .closed fun rbuf start => (attached rbuf start).shutdown status msg
      · cases rejects.symm.trans other
  | flawed _ _ flaw =>
    rcases flaw with endless | undefined
    · rw [Has] at endless
      rcases acts with ⟨_, accepts, -⟩ | ⟨_, rejects, -⟩
      · cases endless.symm.trans accepts
      · cases endless.symm.trans rejects
    · exact absurd undefined meaning

/-- The parser of a message that is taken takes it, given the time. -/
theorem recvMessage_taken (welcome : Welcome ldpe.standing rest) (small : rest.length < 2 ^ 16)
    (taken : MessageTaken ldpe.standing (firstMessage rest)) (plenty : 2 ^ 16 ≤ fuel) :
    ∃ ldpe', (recvMessage fuel (getLdpMsg rest) rest (messageSize rest) ldpe).outcome =
      .ret (some (), ldpe') ∧ ldpe'.standing = ldpe.standing.after (firstMessage rest) := by
  have ends := @ends_message ldpe (firstMessage rest) (afterMessage rest)
    (by rw [welcome.1.header]; exact welcome.2)
  have quiet := foldl_quiet (quiet_readMessage ldpe (afterMessage rest) (firstMessage rest)) ldpe
  rcases obeysAt_message welcome.1 small fuel ldpe with ⟨-, -, short⟩ | ⟨-, settles⟩
  · exact absurd plenty short
  cases ends with
  | taken _ action accepts moves =>
    rw [Settles, accepts] at settles
    obtain ⟨returned, next, -⟩ := moves _ quiet.1
    exact ⟨_, settles.2.trans (congrArg Outcome.ret (Prod.ext returned rfl)), next⟩
  | refused bad => exact absurd taken bad
  | closed bad => exact absurd taken bad
  | flawed bad => exact absurd taken bad

end Parsed

end Ldpd
