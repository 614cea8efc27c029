/-
This file is about the notifications of pseudowire statuses. They are forwarded to the
label decision engine, where an engine takes the status zero for forwarding. A
notification should be forwarded only with the status and the pseudowire of two of
its TLVs; the parser asks for one of the two instead of both, and reads every FEC TLV
into the buffer of the one before it.
-/

import Ldpd.Ldpe.Answers
import Ldpd.Lde.Frame

namespace Ldpd

open Bytes Code Reading

/-! ### What a notification contains -/

/-- The TLV at a place has the given type. -/
def typed (type : UInt16) (place : List UInt8) : Bool :=
  (getTlv place).type = type

/-- The TLVs of one type in the body of a notification. -/
def notificationPlaces (type : UInt16) (body : List UInt8) : List (List UInt8) :=
  (tlvPlaces (body.drop statusSize)).filter (typed type)

/-- The one FEC element of the TLV at a place, read into a buffer that may hold another one. -/
def readFecAt (msg : LdpMsg) (old : FecBuf) (place : List UInt8) : Said (Nat × FecBuf) :=
  readFecElm msg [] (place.drop tlvHdrSize) (getTlv place).length.toNat old

/-- What the FEC TLV at a place leaves in the buffer. -/
def fecAt (msg : LdpMsg) (old : FecBuf) (place : List UInt8) : FecBuf :=
  match (readFecAt msg old place).verdict with
  | .accept (_, fec) => fec
  | _ => old

/-- What all FEC TLVs together leave in the buffer. -/
def gatheredFec (msg : LdpMsg) (body : List UInt8) : FecBuf :=
  (notificationPlaces tlvTypeFec body).foldl (fecAt msg) {}

/-- The body of a notification is well formed. -/
structure NotificationGood (body : List UInt8) : Prop where
  size : statusSize ≤ body.length
  length : (getTlv body).length.toNat ≤ statusTlvLen
  options : TlvsGood NotificationTlvGood (body.drop statusSize)

/-- One TLV of a notification. -/
def gather (msg : LdpMsg) (found : NotifyParams) (place : List UInt8) : NotifyParams :=
  if (getTlv place).type = tlvTypePwStatus then
    { found with pwStatus := get32 (place.drop tlvHdrSize), hasPwStatus := true }
  else if (getTlv place).type = tlvTypeFec then
    { found with fec := fecAt msg found.fec place, hasFec := true }
  else found

theorem gather_of_accepts {msg : LdpMsg} {beyond place : List UInt8} {found found' : NotifyParams}
    (whole : TlvWhole place)
    (accepts : (readNotificationTlv msg beyond (getTlv place) (place.drop tlvHdrSize) found).verdict =
      .accept found') : found' = gather msg found place := by
  rw [readNotificationTlv] at accepts
  rw [gather]
  by_cases fec : (getTlv place).type = tlvTypeFec
  · rw [if_neg (by rw [fec]; decide), if_neg (by rw [fec]; decide), if_pos fec] at accepts
    rw [if_neg (by rw [fec]; decide), if_pos fec]
    obtain ⟨⟨tlen, element⟩, first, accepts⟩ := bind_accepts.mp accepts
    cases (accepts_unless_ended.mp accepts).2
    have some' : place.drop tlvHdrSize ≠ [] := by
      intro empty
      have value := whole.value
      have size := readFecElm_size first
      rw [empty, List.length_nil] at value
      omega
    have reads : (readFecAt msg found.fec place).verdict = .accept (tlen, element) := by
      rw [readFecAt, readFecElm_eq msg [] _ _ some', ← first, readFecElm_eq msg beyond _ _ some']
    rw [fecAt, reads]
  rw [if_neg fec] at accepts
  by_cases status : (getTlv place).type = tlvTypePwStatus
  · rw [if_neg (by rw [status]; decide), if_pos status] at accepts
    cases (accepts_unless_ended.mp accepts).2
    rw [if_pos status]
  rw [if_neg status] at accepts
  rw [if_neg status, if_neg fec]
  split at accepts
  · cases accepts
    rfl
  · obtain ⟨_, -, accepts⟩ := bind_accepts.mp accepts
    cases accepts
    rfl

/-- The FEC that the TLVs leave is that of the FEC TLVs. -/
theorem foldl_gather_fec (msg : LdpMsg) (places : List (List UInt8)) (found : NotifyParams) :
    (places.foldl (gather msg) found).fec =
      (places.filter (typed tlvTypeFec)).foldl (fecAt msg) found.fec := by
  induction places generalizing found with
  | nil => rfl
  | cons place rest inductionHypothesis =>
    rw [List.foldl_cons, inductionHypothesis, gather]
    by_cases fec : (getTlv place).type = tlvTypeFec
    · have listed : typed tlvTypeFec place = true := decide_eq_true fec
      rw [List.filter_cons_of_pos listed, List.foldl_cons, if_neg (by rw [fec]; decide), if_pos fec]
    · have unlisted : ¬typed tlvTypeFec place = true := fun listed => fec (of_decide_eq_true listed)
      rw [List.filter_cons_of_neg unlisted, if_neg fec]
      split
      · rfl
      · rfl

theorem foldl_gather_hasFec (msg : LdpMsg) (places : List (List UInt8)) (found : NotifyParams) :
    (places.foldl (gather msg) found).hasFec =
      (found.hasFec || !(places.filter (typed tlvTypeFec)).isEmpty) := by
  induction places generalizing found with
  | nil => exact (Bool.or_false _).symm
  | cons place rest inductionHypothesis =>
    rw [List.foldl_cons, inductionHypothesis, gather]
    by_cases fec : (getTlv place).type = tlvTypeFec
    · have listed : typed tlvTypeFec place = true := decide_eq_true fec
      rw [List.filter_cons_of_pos listed, if_neg (by rw [fec]; decide), if_pos fec, List.isEmpty_cons,
        Bool.not_false, Bool.or_true, Bool.true_or]
    · have unlisted : ¬typed tlvTypeFec place = true := fun listed => fec (of_decide_eq_true listed)
      rw [List.filter_cons_of_neg unlisted, if_neg fec]
      split
      · rfl
      · rfl

theorem foldl_gather_hasPwStatus (msg : LdpMsg) (places : List (List UInt8)) (found : NotifyParams) :
    (places.foldl (gather msg) found).hasPwStatus =
      (found.hasPwStatus || !(places.filter (typed tlvTypePwStatus)).isEmpty) := by
  induction places generalizing found with
  | nil => exact (Bool.or_false _).symm
  | cons place rest inductionHypothesis =>
    rw [List.foldl_cons, inductionHypothesis, gather]
    by_cases status : (getTlv place).type = tlvTypePwStatus
    · have listed : typed tlvTypePwStatus place = true := decide_eq_true status
      rw [List.filter_cons_of_pos listed, if_pos status, List.isEmpty_cons, Bool.not_false, Bool.or_true,
        Bool.true_or]
    · have unlisted : ¬typed tlvTypePwStatus place = true :=
        fun listed => status (of_decide_eq_true listed)
      rw [List.filter_cons_of_neg unlisted, if_neg status]
      split
      · rfl
      · rfl

/-- The status that the TLVs leave is that of one of them. -/
theorem foldl_gather_status (msg : LdpMsg) (places : List (List UInt8)) (found : NotifyParams) :
    (∀ place ∈ places, (getTlv place).type ≠ tlvTypePwStatus) ∧
        (places.foldl (gather msg) found).pwStatus = found.pwStatus ∨
      ∃ place ∈ places, (getTlv place).type = tlvTypePwStatus ∧
        (places.foldl (gather msg) found).pwStatus = get32 (place.drop tlvHdrSize) := by
  induction places generalizing found with
  | nil => exact Or.inl ⟨fun _ member => absurd member List.not_mem_nil, rfl⟩
  | cons place rest inductionHypothesis =>
    rw [List.foldl_cons]
    rcases inductionHypothesis (gather msg found place) with ⟨none', same⟩ | ⟨later, member, type, same⟩
    · rw [same, gather]
      by_cases status : (getTlv place).type = tlvTypePwStatus
      · rw [if_pos status]
        exact Or.inr ⟨place, List.mem_cons_self, status, rfl⟩
      · rw [if_neg status]
        refine Or.inl ⟨List.forall_mem_cons.mpr ⟨status, none'⟩, ?_⟩
        split
        · rfl
        · rfl
    · exact Or.inr ⟨later, List.mem_cons_of_mem place member, type, same⟩

/-- A notification is accepted when it is well formed. -/
theorem accepts_iff_notificationGood (msg : LdpMsg) (beyond body : List UInt8) :
    (∃ nm, (readNotification msg beyond body).verdict = .accept nm) ↔ NotificationGood body := by
  have options := @readTlvs_accepts _ msg (readNotificationTlv msg beyond) _
    (fun tlv value found long => readNotificationTlv_accepts msg beyond found long)
    ⟨body.drop statusSize, {}⟩
  have sizes (size : statusSize ≤ body.length) : (¬(statusSize - tlvHdrSize < (getTlv body).length.toNat ∨
      body.length - tlvHdrSize < (getTlv body).length.toNat)) ↔
        (getTlv body).length.toNat ≤ statusTlvLen := by
    have fourteen : 14 ≤ body.length := size
    show ¬(14 - 4 < _ ∨ body.length - 4 < _) ↔ _ ≤ 10
    omega
  rw [readNotification]
  simp only [accepts_unless_ended, bind_accepts]
  constructor
  · rintro ⟨nm, long, length, found, first, -⟩
    have size := Nat.le_of_not_lt long
    exact ⟨size, (sizes size).mp length, options.mp ⟨found, first⟩⟩
  · rintro ⟨size, length, good⟩
    obtain ⟨found, first⟩ := options.mpr good
    exact ⟨_, Nat.not_lt.mpr size, (sizes size).mpr length, found, first, rfl⟩

/-- What an accepted notification amounts to. -/
theorem notifyMsg_of_accepts {msg : LdpMsg} {beyond body : List UInt8} {nm : NotifyMsg}
    (accepts : (readNotification msg beyond body).verdict = .accept nm) :
    nm = notifyMsg (get32 (body.drop 4)) ((tlvPlaces (body.drop statusSize)).foldl (gather msg) {}) := by
  rw [readNotification] at accepts
  simp only [accepts_unless_ended, bind_accepts] at accepts
  obtain ⟨-, -, found, first, ends⟩ := accepts
  cases ends
  have all := readTlvs_foldl id (fun place found found' whole step => gather_of_accepts whole step) first
  rw [id, id] at all
  rw [all]

/-! ### What is forwarded -/

/-- A notification that is passed on to the label decision engine. -/
def PassedOn (nm : NotifyMsg) : Prop :=
  nm.statusCode = sPwStatus ∧ (nm.hasPwStatus = true ∨ nm.hasFec = true) ∧ nm.fec.fec.isPwid = true

theorem pwStatusIncomplete_iff (nm : NotifyMsg) : pwStatusIncomplete nm = true ↔
    nm.statusCode = sPwStatus ∧ ¬nm.hasPwStatus = true ∧ ¬nm.hasFec = true := by
  rw [pwStatusIncomplete, decide_eq_true_iff]

theorem pwStatusMisplaced_iff (nm : NotifyMsg) : pwStatusMisplaced nm = true ↔
    nm.statusCode = sPwStatus ∧ ¬nm.fec.fec.isPwid = true := by
  rw [pwStatusMisplaced, decide_eq_true_iff]

theorem finishNotification_toLde {ldpe : Ldpe} (attached : ldpe.nbr.tcp ≠ none)
    (session : ldpe.nbr.state ≠ .present) (msg : LdpMsg) (nm : NotifyMsg) :
    (PassedOn nm ∧ finishNotification msg nm ldpe =
      (some (), ldpe.composeLde (.notification ldpe.nbr.peerid nm))) ∨
    (¬PassedOn nm ∧ ((finishNotification msg nm ldpe).2.toLde = ldpe.toLde ∨
      (finishNotification msg nm ldpe).2.toLde = ldpe.toLde ++ [.neighborDown ldpe.nbr.peerid])) := by
  have notified (status : UInt32) : (say ldpe (.notify status msg)).toLde = ldpe.toLde :=
    (advises_sendNotificationNbr attached status msg.id msg.type).toLde
  rw [finishNotification]
  by_cases incomplete : pwStatusIncomplete nm = true
  · rw [if_pos incomplete]
    refine Or.inr ⟨fun passed => ?_, Or.inl (notified sMissMsg)⟩
    obtain ⟨-, noStatus, noFec⟩ := (pwStatusIncomplete_iff nm).mp incomplete
    exact passed.2.1.elim (fun has => noStatus has) fun has => noFec has
  rw [if_neg incomplete]
  by_cases misplaced : pwStatusMisplaced nm = true
  · rw [if_pos misplaced]
    exact Or.inr ⟨fun passed => ((pwStatusMisplaced_iff nm).mp misplaced).2 passed.2.2,
      Or.inl (notified sBadTlvVal)⟩
  rw [if_neg misplaced]
  by_cases status : nm.statusCode = sPwStatus
  · rw [if_neg (by rw [status]; decide), if_pos status]
    refine Or.inl ⟨⟨status, ?_, ?_⟩, rfl⟩
    · by_contra neither
      exact incomplete ((pwStatusIncomplete_iff nm).mpr ⟨status, not_or.mp neither⟩)
    · by_contra other
      exact misplaced ((pwStatusMisplaced_iff nm).mpr ⟨status, other⟩)
  rw [if_neg status]
  refine Or.inr ⟨fun passed => status passed.1, ?_⟩
  split
  · exact Or.inr (closed_startIdtimer session).toLde
  · exact Or.inl rfl

/-- The status and the pseudowire of a forwarded notification are those of two TLVs in the body of
the message, the second of which is a FEC TLV with one element. -/
def Explicit (msg : LdpMsg) (body : List UInt8) (nm : NotifyMsg) : Prop :=
  (∃ place ∈ notificationPlaces tlvTypePwStatus body, get32 (place.drop tlvHdrSize) = nm.pwStatus) ∧
    ∃ place ∈ notificationPlaces tlvTypeFec body, ∃ element,
      (readFecAt msg {} place).verdict = .accept ((getTlv place).length.toNat, element) ∧
        element.fec.isPwid = true ∧ nm.fec = { fec := element.fec, flags := element.flags }

/-- A notification that is well formed and about the status of a pseudowire has a PW Status TLV, and
its FEC TLVs together read as one of them alone. -/
def StatusClear (msg : LdpMsg) (body : List UInt8) : Prop :=
  NotificationGood body → get32 (body.drop 4) = sPwStatus → (gatheredFec msg body).fec.isPwid = true →
    notificationPlaces tlvTypePwStatus body ≠ [] ∧ ∃ place ∈ notificationPlaces tlvTypeFec body,
      (fecAt msg {} place).fec = (gatheredFec msg body).fec ∧
        (fecAt msg {} place).flags = (gatheredFec msg body).flags

/-- The notification that the TLVs of a body amount to. -/
def gathered (msg : LdpMsg) (body : List UInt8) : NotifyMsg :=
  notifyMsg (get32 (body.drop 4)) ((tlvPlaces (body.drop statusSize)).foldl (gather msg) {})

theorem fec_gathered (msg : LdpMsg) (body : List UInt8) : (gathered msg body).fec =
    { fec := (gatheredFec msg body).fec, flags := (gatheredFec msg body).flags } := by
  rw [gathered, notifyMsg, foldl_gather_fec]
  rfl

theorem hasFec_gathered (msg : LdpMsg) (body : List UInt8) :
    (gathered msg body).hasFec = true ↔ notificationPlaces tlvTypeFec body ≠ [] := by
  show ((tlvPlaces (body.drop statusSize)).foldl (gather msg) {}).hasFec = true ↔ _
  rw [foldl_gather_hasFec, Bool.false_or, Bool.not_eq_true', List.isEmpty_eq_false_iff]
  rfl

theorem hasPwStatus_gathered (msg : LdpMsg) (body : List UInt8) :
    (gathered msg body).hasPwStatus = true ↔ notificationPlaces tlvTypePwStatus body ≠ [] := by
  show ((tlvPlaces (body.drop statusSize)).foldl (gather msg) {}).hasPwStatus = true ↔ _
  rw [foldl_gather_hasPwStatus, Bool.false_or, Bool.not_eq_true', List.isEmpty_eq_false_iff]
  rfl

/-- The notifications of pseudowires are passed on. -/
theorem passedOn_gathered (msg : LdpMsg) (body : List UInt8) : PassedOn (gathered msg body) ↔
    get32 (body.drop 4) = sPwStatus ∧ (gatheredFec msg body).fec.isPwid = true := by
  rw [PassedOn, fec_gathered]
  refine ⟨fun passed => ⟨passed.1, passed.2.2⟩, fun both => ⟨both.1, Or.inr ?_, both.2⟩⟩
  rw [hasFec_gathered]
  intro none'
  have wildcard : (gatheredFec msg body).fec = .wildcard := by
    rw [gatheredFec, none']
    rfl
  rw [wildcard] at both
  exact absurd both.2 Bool.false_ne_true

/-- What is passed on of a well-formed notification is explicit when the notification is clear. -/
theorem explicit_gathered {msg : LdpMsg} {body : List UInt8} (good : NotificationGood body)
    (passed : PassedOn (gathered msg body)) :
    Explicit msg body (gathered msg body) ↔ StatusClear msg body := by
  obtain ⟨status, pwid⟩ := (passedOn_gathered msg body).mp passed
  have own {place : List UInt8} (member : place ∈ notificationPlaces tlvTypeFec body) :
      (readFecAt msg {} place).verdict =
        .accept ((getTlv place).length.toNat, fecAt msg {} place) := by
    obtain ⟨listed, type⟩ := List.mem_filter.mp member
    have fine := (tlvsGood_places good.options listed).2.2 (of_decide_eq_true type)
    obtain ⟨element, reads⟩ := (readFecElm_accepts msg [] _ {} fine.1).mpr fine.2
    rw [fecAt, readFecAt, reads]
  constructor
  · rintro ⟨⟨place, member, -⟩, fec, fecMember, element, reads, -, same⟩ - - -
    refine ⟨List.ne_nil_of_mem member, fec, fecMember, ?_⟩
    rw [own fecMember] at reads
    cases reads
    rw [fec_gathered] at same
    exact ⟨(congrArg Map.fec same).symm, (congrArg Map.flags same).symm⟩
  · intro clear
    obtain ⟨some', fec, fecMember, sameFec, sameFlags⟩ := clear good status pwid
    refine ⟨?_, fec, fecMember, _, own fecMember, by rw [sameFec]; exact pwid, ?_⟩
    · rcases foldl_gather_status msg (tlvPlaces (body.drop statusSize)) {} with
        ⟨none', -⟩ | ⟨place, member, type, same⟩
      · refine absurd (List.filter_eq_nil_iff.mpr fun place member typed => ?_) some'
        exact none' place member (of_decide_eq_true typed)
      · exact ⟨place, List.mem_filter.mpr ⟨member, decide_eq_true type⟩, same.symm⟩
    · rw [fec_gathered, sameFec, sameFlags]

/-! ### The label decision engine -/

/-- The status of the remote end of a pseudowire. -/
def Lde.remoteStatus (lde : Lde) (data : Nat) : Option UInt32 :=
  (lde.pws[data]?).map L2vpnPw.remoteStatus

/-- Two engines in which the remote ends of all pseudowires have the same status. -/
def StatusKept (lde lde' : Lde) : Prop :=
  ∀ data, lde'.remoteStatus data = lde.remoteStatus data

theorem StatusKept.trans {lde lde' lde'' : Lde} (first : StatusKept lde lde')
    (second : StatusKept lde' lde'') : StatusKept lde lde'' :=
  fun data => (second data).trans (first data)

theorem remoteStatus_updatePw (lde : Lde) (other : Nat) (change : L2vpnPw → L2vpnPw) (data : Nat) :
    (lde.updatePw other change).remoteStatus data =
      if other = data then (lde.pws[data]?).map fun pw => (change pw).remoteStatus
      else lde.remoteStatus data := by
  rw [Lde.remoteStatus, Lde.updatePw, Tree.getElem?_modify]
  split_ifs
  · rw [Option.map_map]
    rfl
  · rfl

theorem statusKept_setPwFlags (lde : Lde) (other : Nat) (change : PwFlags → PwFlags) :
    StatusKept lde (lde.setPwFlags other change) := by
  intro data
  rw [Lde.setPwFlags, remoteStatus_updatePw]
  split
  · rfl
  · rfl

theorem pwRule_statusKept : PwRule StatusKept where
  refl _ _ := rfl
  trans := StatusKept.trans
  fail _ _ _ := rfl
  setUp lde data up := statusKept_setPwFlags lde data (PwFlags.setUp up)
  kpwlabelChange _ _ _ := rfl
  kpwlabelDelete _ _ _ := rfl

theorem statusKept_ldeSendChangeKlabel (lde : Lde) (fec : Fec) (fnh : FecNh) :
    StatusKept lde (ldeSendChangeKlabel lde fec fnh) :=
  pwRule_statusKept.ldeSendChangeKlabel lde (fun _ _ _ => rfl) fec fnh

theorem statusKept_ldeSendDeleteKlabel (lde : Lde) (fec : Fec) (fnh : FecNh) :
    StatusKept lde (ldeSendDeleteKlabel lde fec fnh) :=
  pwRule_statusKept.ldeSendDeleteKlabel lde (fun _ _ _ => rfl) fec fnh

/-- A notification changes the status of a remote end to the one it has, if it is about a status. -/
theorem remoteStatus_dispatchNotification (lde : Lde) (nm : NotifyMsg) (peerid : UInt32)
    (data : Nat) : (dispatchNotification lde nm peerid).remoteStatus data = lde.remoteStatus data ∨
      nm.statusCode = sPwStatus ∧
        (dispatchNotification lde nm peerid).remoteStatus data = some nm.pwStatus := by
  rw [dispatchNotification]
  split
  · exact Or.inl rfl
  split
  swap
  · exact Or.inl rfl
  rename_i status
  have told {lde' : Lde} {other : Nat} (kept : StatusKept
      (lde.updatePw other fun pw => { pw with remoteStatus := nm.pwStatus }) lde') :
      lde'.remoteStatus data = lde.remoteStatus data ∨
        nm.statusCode = sPwStatus ∧ lde'.remoteStatus data = some nm.pwStatus := by
    rw [kept data, remoteStatus_updatePw]
    split
    · cases pw : lde.pws[data]? with
      | none => exact Or.inl (by rw [Lde.remoteStatus, pw]; rfl)
      | some _ => exact Or.inr ⟨status, rfl⟩
    · exact Or.inl rfl
  rw [l2vpnRecvPwStatus]
  dsimp only
  split
  swap
  · exact Or.inl rfl
  split
  · exact Or.inl rfl
  split
  · exact Or.inl rfl
  split
  · exact Or.inl rfl
  · exact Or.inl rfl
  split
  · exact Or.inl rfl
  split
  · exact told (statusKept_ldeSendChangeKlabel _ _ _)
  · exact told (statusKept_ldeSendDeleteKlabel _ _ _)

/-! ### Notifications of pseudowires -/

/-- A notification does not make up a status: it is processed without undefined behaviour, what is
forwarded of it is explicit, and a remote end comes to be forwarding only if the notification says
so. -/
structure StatusSaid (ldpe : Ldpe) (buf : List UInt8) (size : Nat) : Prop where
  defined : ∀ fuel, Defined Access.Meant (recvNotification fuel buf size ldpe)
  forwarded : ∀ fuel result ldpe' imsgs peerid nm,
    (recvNotification fuel buf size ldpe).outcome = .ret (result, ldpe') →
      ldpe'.toLde = ldpe.toLde ++ imsgs → .notification peerid nm ∈ imsgs →
        nm.statusCode = sPwStatus →
          Explicit (getLdpMsg (buf.take size)) ((buf.take size).drop ldpMsgSize) nm
  forwarding : ∀ fuel result ldpe' imsgs peerid nm,
    (recvNotification fuel buf size ldpe).outcome = .ret (result, ldpe') →
      ldpe'.toLde = ldpe.toLde ++ imsgs → .notification peerid nm ∈ imsgs → ∀ lde data,
        lde.remoteStatus data ≠ some pwForwarding →
        (ldeStep lde (.notification peerid nm)).remoteStatus data = some pwForwarding →
          ∃ place ∈ notificationPlaces tlvTypePwStatus ((buf.take size).drop ldpMsgSize),
            get32 (place.drop tlvHdrSize) = pwForwarding

section Message

variable {ldpe : Ldpe} {buf : List UInt8} {size : Nat} (attached : ldpe.nbr.tcp ≠ none)
  (session : ldpe.nbr.state ≠ .present) (long : ldpMsgSize ≤ size) (fits : size ≤ buf.length)
  (small : size < 2 ^ 16)
include attached session long fits small

/-- What `recv_notification` forwards. -/
theorem recvNotification_forwards {fuel : Nat} {result : Option Unit} {ldpe' : Ldpe}
    {imsgs : List LdeEvent} {peerid : UInt32} {nm : NotifyMsg}
    (defined : Defined Access.Meant (recvNotification fuel buf size ldpe))
    (returns : (recvNotification fuel buf size ldpe).outcome = .ret (result, ldpe'))
    (told : ldpe'.toLde = ldpe.toLde ++ imsgs) (member : .notification peerid nm ∈ imsgs) :
    NotificationGood ((buf.take size).drop ldpMsgSize) ∧ PassedOn nm ∧
      nm = gathered (getLdpMsg (buf.take size)) ((buf.take size).drop ldpMsgSize) := by
  have length : (buf.take size).length = size := List.length_take_of_le fits
  have acts := obeysAt_recvNotification fuel ldpe (spans_take buf size) (by rw [length]; exact long)
    (by rw [length]; exact small)
  rw [length] at acts
  obtain ⟨between, advises, ends⟩ :=
    returned_advised acts (answers_readNotification _ _ _) (fun _ => defined) attached returns
  rw [← advises.tcp] at attached
  rw [← advises.state] at session
  rw [← advises.toLde] at told
  -- nothing but a notification that is passed on brings one
  have silent (closing : ldpe'.toLde = between.toLde ∨
      ldpe'.toLde = between.toLde ++ [.neighborDown between.nbr.peerid]) : False := by
    rw [told, List.append_cancel_left_eq, List.append_right_eq_self] at closing
    rcases closing with rfl | rfl
    · exact absurd member List.not_mem_nil
    · cases List.mem_singleton.mp member
  rcases ends with ⟨read, accepts, ends⟩ | ⟨reply, rejects, rfl, rfl⟩
  · obtain rfl := notifyMsg_of_accepts accepts
    rcases finishNotification_toLde attached session (getLdpMsg (buf.take size)) _ with
      ⟨passed, finished⟩ | ⟨-, closing⟩
    · have same := ends.symm.trans finished
      cases same
      rw [Ldpe.composeLde, List.append_cancel_left_eq] at told
      rw [← told] at member
      cases List.mem_singleton.mp member
      exact ⟨(accepts_iff_notificationGood _ _ _).mp ⟨_, accepts⟩, passed, rfl⟩
    · rw [ends] at closing
      exact (silent closing).elim
  · exact (silent ((rejects_readNotification _ _ _ reply rejects).toLde attached session)).elim

/-- A clear notification of a pseudowire is forwarded. -/
theorem recvNotification_passes (good : NotificationGood ((buf.take size).drop ldpMsgSize))
    (passed : PassedOn (gathered (getLdpMsg (buf.take size)) ((buf.take size).drop ldpMsgSize))) :
    ∃ fuel ldpe', (recvNotification fuel buf size ldpe).outcome = .ret (some (), ldpe') ∧
      ldpe'.toLde = ldpe.toLde ++ [.notification ldpe.nbr.peerid
        (gathered (getLdpMsg (buf.take size)) ((buf.take size).drop ldpMsgSize))] := by
  have length : (buf.take size).length = size := List.length_take_of_le fits
  have acts := fun fuel => obeysAt_recvNotification fuel ldpe (spans_take buf size)
    (by rw [length]; exact long) (by rw [length]; exact small)
  rw [length] at acts
  obtain ⟨nm, accepts⟩ :=
    (accepts_iff_notificationGood (getLdpMsg (buf.take size)) (buf.drop size) _).mpr good
  have flawless (flaw : Flaw) (gone : flaw ≠ .stray) : ¬(readNotification (getLdpMsg (buf.take size))
      (buf.drop size) ((buf.take size).drop ldpMsgSize) >>= fun read =>
        (pure (finishNotification (getLdpMsg (buf.take size)) read) : Said _)).Has flaw := by
    rw [bind_pure_has]
    intro flawed
    cases flaw with
    | stray => exact gone rfl
    | undefined => cases accepts.symm.trans flawed
    | endless => cases accepts.symm.trans flawed
  obtain ⟨fuel, ⟨result, ldpe'⟩, returns, defined⟩ :=
    (returns_iff acts).mpr ⟨flawless .endless (by decide), flawless .undefined (by decide)⟩
  obtain ⟨between, advises, ends⟩ :=
    returned_advised (acts fuel) (answers_readNotification _ _ _) (fun _ => defined) attached returns
  rw [← advises.toLde, ← advises.peerid]
  rw [← advises.tcp] at attached
  rw [← advises.state] at session
  rcases ends with ⟨read, accepted, ends⟩ | ⟨reply, rejects, -, -⟩
  · obtain rfl := notifyMsg_of_accepts accepted
    rcases finishNotification_toLde attached session (getLdpMsg (buf.take size)) _ with
      ⟨-, finished⟩ | ⟨other, -⟩
    · cases ends.symm.trans finished
      exact ⟨fuel, _, returns, rfl⟩
    · exact absurd passed other
  · cases accepts.symm.trans rejects

omit attached session in
/-- A notification is processed without undefined behaviour unless it has an element that asks for
it. -/
theorem recvNotification_defined :
    (∀ fuel, Defined Access.Meant (recvNotification fuel buf size ldpe)) ↔
      ¬NotificationFlaw (buf.drop size) ((buf.take size).drop ldpMsgSize) .undefined := by
  have length : (buf.take size).length = size := List.length_take_of_le fits
  have acts := fun fuel => obeysAt_recvNotification fuel ldpe (spans_take buf size)
    (by rw [length]; exact long) (by rw [length]; exact small)
  rw [length] at acts
  rw [defined_iff acts, bind_pure_has, readNotification_has]

/-- A notification makes up no status exactly when it is clear and has no element that leads to
undefined behaviour. -/
theorem status_said_iff : StatusSaid ldpe buf size ↔
    StatusClear (getLdpMsg (buf.take size)) ((buf.take size).drop ldpMsgSize) ∧
      ¬NotificationFlaw (buf.drop size) ((buf.take size).drop ldpMsgSize) .undefined := by
  rw [← recvNotification_defined long fits small]
  constructor
  · refine fun said => ⟨fun good status pwid => ?_, said.defined⟩
    have passed := (passedOn_gathered _ _).mpr ⟨status, pwid⟩
    obtain ⟨fuel, ldpe', returns, told⟩ :=
      recvNotification_passes attached session long fits small good passed
    have explicit := said.forwarded fuel _ ldpe' _ _ _ returns told (List.mem_singleton_self _) passed.1
    exact (explicit_gathered good passed).mp explicit good status pwid
  · rintro ⟨clear, defined⟩
    have explicit {fuel : Nat} {result : Option Unit} {ldpe' : Ldpe} {imsgs : List LdeEvent}
        {peerid : UInt32} {nm : NotifyMsg}
        (returns : (recvNotification fuel buf size ldpe).outcome = .ret (result, ldpe'))
        (told : ldpe'.toLde = ldpe.toLde ++ imsgs) (member : .notification peerid nm ∈ imsgs) :
        Explicit (getLdpMsg (buf.take size)) ((buf.take size).drop ldpMsgSize) nm := by
      obtain ⟨good, passed, rfl⟩ :=
        recvNotification_forwards attached session long fits small (defined fuel) returns told member
      exact (explicit_gathered good passed).mpr clear
    refine ⟨defined, fun fuel result ldpe' imsgs peerid nm returns told member _ =>
      explicit returns told member,
      fun fuel result ldpe' imsgs peerid nm returns told member lde data before after => ?_⟩
    obtain ⟨⟨place, listed, same⟩, -⟩ := explicit returns told member
    rcases remoteStatus_dispatchNotification lde nm peerid data with kept | ⟨-, changed⟩
    · exact absurd (kept.symm.trans after) before
    · refine ⟨place, listed, same.trans ?_⟩
      exact Option.some_inj.mp (changed.symm.trans after)

end Message

/-! ### Messages -/

/-- A notification of a status, for a pseudowire with the identifier 100, with further TLVs. -/
def pwNotification (tlvs : List UInt8) : List UInt8 :=
  message msgTypeNotification 1 (notificationParams { statusCode := sPwStatus, msgId := 0, msgType := 0 } ++
    tlvs ++ [0x01, 0x00, 0x00, 0x0c, 0x80, 0x00, 0x05, 0x04, 0, 0, 0, 0, 0, 0, 0, 100])

/-- A PW Status TLV which says that the pseudowire is not forwarding. -/
def notForwardingTlv : List UInt8 :=
  put16 tlvTypePwStatus ++ put16 4 ++ put32 1

theorem status_said_iff_notForwarding : StatusSaid operSession (pwNotification notForwardingTlv) 46 := by
  refine (status_said_iff (by decide) (by decide) (by decide) (by decide) (by decide)).mpr
    ⟨fun _ _ _ => ⟨by decide, ?_⟩, fun flawed => ?_⟩
  · exact ⟨_, List.mem_singleton_self _, by decide, by decide⟩
  · nomatch (readNotification_has (getLdpMsg (pwNotification notForwardingTlv)) _ _ .undefined).mpr flawed

/-- A notification without a PW Status TLV is forwarded with the status zero. -/
theorem unsaid_status_forwarded : ¬StatusSaid operSession (pwNotification []) 38 := by
  intro said
  obtain ⟨fuel, ldpe', returns, told⟩ := recvNotification_passes
    (show operSession.nbr.tcp ≠ none by decide) (by decide) (show ldpMsgSize ≤ 38 by decide)
    (show 38 ≤ (pwNotification []).length by decide) (by decide)
    ((accepts_iff_notificationGood (getLdpMsg ((pwNotification []).take 38)) [] _).mp ⟨_, rfl⟩)
    ⟨by decide, Or.inr (by decide), by decide⟩
  obtain ⟨⟨place, listed, -⟩, -⟩ :=
    said.forwarded fuel _ ldpe' _ _ _ returns told (List.mem_singleton_self _) (by decide)
  rw [show notificationPlaces tlvTypePwStatus (((pwNotification []).take 38).drop ldpMsgSize) = [] by
    decide] at listed
  exact List.not_mem_nil listed

end Ldpd
