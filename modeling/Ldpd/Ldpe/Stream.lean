/-
This file follows a session through everything that arrives on its connection. The
messages of a stream are defined without regard to how TCP cuts it; `session_read`
hands all of them over, in order and once, as long as it does not come to one that is
refused without closing the session: then it leaves the rest of the PDU and the PDUs
behind it alone. Whether it comes to such a message is told by the bytes of the stream
and by where the session stands at first.
-/

import Ldpd.Ldpe.Inside
import Ldpd.Library.Frames

namespace Ldpd

open Bytes Code Reading

/-! ### The messages of a stream -/

theorem local_messageSize : Local 8 messageSize := by
  intro bytes more long
  rw [messageSize, local_getLdpMsg bytes more long, messageSize]

/-- The messages that follow each other in a PDU. -/
def messageFraming : Framing UInt8 where
  cut rest := if MessageWhole rest then some (firstMessage rest, afterMessage rest) else none
  whole := by
    intro rest message after cut
    split at cut
    · cases cut
      exact List.take_append_drop ..
    · cases cut
  positive := by
    intro rest message after cut
    split at cut
    · rename_i whole
      cases cut
      have eight : 8 ≤ messageSize rest := whole.2.1
      refine List.ne_nil_of_length_pos ?_
      rw [whole.length]
      omega
    · cases cut
  extend := by
    intro rest message after more cut
    split at cut
    · rename_i whole
      cases cut
      obtain ⟨long, positive, fits⟩ := whole
      have size := local_messageSize rest more long
      have whole' : MessageWhole (rest ++ more) := by
        rw [MessageWhole, size, List.length_append]
        exact ⟨Nat.le_add_right_of_le long, positive, Nat.le_add_right_of_le fits⟩
      rw [if_pos whole', firstMessage, afterMessage, size, List.take_append_of_le_length fits,
        List.drop_append_of_le_length fits]
      rfl
    · cases cut

theorem sessionGetPdu_whole {stream pdu rest : List UInt8}
    (cut : sessionGetPdu stream = some (pdu, rest)) : pdu ++ rest = stream := by
  rw [sessionGetPdu] at cut
  split at cut
  · cases cut
  · simp only at cut
    split at cut
    · cases cut
    · cases cut
      exact List.take_append_drop ..

theorem sessionGetPdu_positive {stream pdu rest : List UInt8}
    (cut : sessionGetPdu stream = some (pdu, rest)) : pdu ≠ [] := by
  have length := pduWhole_of_get cut
  refine List.ne_nil_of_length_pos ?_
  rw [length]
  exact Nat.add_pos_right _ (by decide)

theorem sessionGetPdu_extend {stream pdu rest : List UInt8} (more : List UInt8)
    (cut : sessionGetPdu stream = some (pdu, rest)) :
    sessionGetPdu (stream ++ more) = some (pdu, rest ++ more) := by
  rw [sessionGetPdu] at cut ⊢
  split at cut
  · cases cut
  · rename_i long
    have ten : 10 ≤ stream.length := Nat.le_of_not_lt long
    have field : get16 ((stream ++ more).drop 2) = get16 (stream.drop 2) :=
      (local_get16.drop 2) stream more (Nat.le_trans (by decide) ten)
    simp only at cut ⊢
    split at cut
    · cases cut
    · rename_i fits
      cases cut
      have fits' := Nat.le_of_not_lt fits
      rw [field, List.length_append, if_neg (by show ¬_ < 10; omega), if_neg (by omega),
        List.take_append_of_le_length fits', List.drop_append_of_le_length fits']

/-- The PDUs that follow each other in a stream. -/
def pduFraming : Framing UInt8 where
  cut := sessionGetPdu
  whole := sessionGetPdu_whole
  positive := sessionGetPdu_positive
  extend := sessionGetPdu_extend

/-- The messages of a PDU. -/
def pduMessages (pdu : List UInt8) : List (List UInt8) :=
  messageFraming.frames (pduBody pdu)

/-- The messages of the complete PDUs of a stream. -/
def streamMessages (stream : List UInt8) : List (List UInt8) :=
  (pduFraming.frames stream).flatMap pduMessages

theorem messageFraming_cut {rest : List UInt8} (whole : MessageWhole rest) :
    messageFraming.cut rest = some (firstMessage rest, afterMessage rest) :=
  if_pos whole

theorem messageFraming_cut_none {rest : List UInt8} (part : ¬MessageWhole rest) :
    messageFraming.cut rest = none :=
  if_neg part

/-! ### Trouble -/

/-- The next message is welcome and refused. -/
def RefusedAt (place : Standing × List UInt8) : Prop :=
  Welcome place.1 place.2 ∧ MessageRefused (afterMessage place.2) (firstMessage place.2)

/-- The next message has a flaw that keeps its parser from a good end, or it is refused and something
comes after it: another message of the PDU, or more PDUs. -/
def Trouble (more : Prop) (place : Standing × List UInt8) : Prop :=
  HandsFlaw .endless place ∨ HandsFlaw .undefined place ∨
    RefusedAt place ∧ (MessageWhole (afterMessage place.2) ∨ more)

/-- A PDU of the session in which there is trouble. -/
def PduTrouble (more : Prop) (standing : Standing) (pdu : List UInt8) : Prop :=
  HeaderGood standing pdu ∧ Walk HandsOn (Trouble more) (standing, pduBody pdu)

/-- How a stream goes on after a PDU: the PDU is complete, and all of its messages are taken. -/
def PduOn (place next : Standing × List UInt8) : Prop :=
  ∃ pdu, sessionGetPdu place.2 = some (pdu, next.2) ∧ HeaderGood place.1 pdu ∧
    Relation.ReflTransGen HandsOn (place.1, pduBody pdu) (next.1, [])

/-- The next PDU is complete, and there is trouble in it. -/
def PduTroubleAt (place : Standing × List UInt8) : Prop :=
  ∃ pdu rest, sessionGetPdu place.2 = some (pdu, rest) ∧
    PduTrouble ((sessionGetPdu rest).isSome = true) place.1 pdu

/-- A read in which there is no trouble, with what is then in the read buffer. -/
def Smooth (standing : Standing) (rbuf : List UInt8) : Prop :=
  ¬Walk PduOn PduTroubleAt (standing, rbuf)

/-- Where a session stands after a read that leaves it open: all complete PDUs have been taken, or
the last of them up to a message that is refused. -/
inductive ReadOn : Standing × List UInt8 → Standing → Prop
  | done {place : Standing × List UInt8} (nothing : sessionGetPdu place.2 = none) :
      ReadOn place place.1
  | refused {place next : Standing × List UInt8} {pdu rest : List UInt8}
      (get : sessionGetPdu place.2 = some (pdu, rest)) (good : HeaderGood place.1 pdu)
      (path : Relation.ReflTransGen HandsOn (place.1, pduBody pdu) next) (refused : RefusedAt next) :
      ReadOn place next.1
  | later {place next : Standing × List UInt8} {standing : Standing} (goesOn : PduOn place next)
      (rest : ReadOn next standing) : ReadOn place standing

/-! ### What is handed over -/

theorem dispatched_append (first second : List SessionEvent) :
    dispatched (first ++ second) = dispatched first ++ dispatched second :=
  List.filterMap_append

theorem dispatched_accesses (stretch : Stretch) (accesses : List Access) :
    dispatched (accesses.map (SessionEvent.access stretch)) = [] := by
  rw [dispatched, List.filterMap_map]
  exact List.filterMap_eq_nil_iff.mpr fun _ _ => rfl

/-- What happens in a round that hands a message over. -/
def roundTrace (rest : List UInt8) (accesses : List Access) : List SessionEvent :=
  roundStart rest ++ accesses.map (SessionEvent.access (messageStretch rest))

theorem dispatched_roundTrace (rest : List UInt8) (accesses : List Access) :
    dispatched (roundTrace rest accesses) = [firstMessage rest] := by
  rw [roundTrace, dispatched_append, dispatched_accesses]
  rfl

section Welcome

variable {ldpe ldpe' : Ldpe} {rest : List UInt8} (welcome : Welcome ldpe.standing rest)
  (small : rest.length < 2 ^ 16) {fuel : Nat} {accesses : List Access}
include welcome small

theorem messageRound_taken
    (run : recvMessage fuel (getLdpMsg rest) rest (messageSize rest) ldpe =
      ⟨accesses, .ret (some (), ldpe')⟩) :
    messageRound fuel (messagesLeft rest) ldpe =
      ⟨roundTrace rest accesses, .ret (some (.inl (messagesLeft (afterMessage rest))), ldpe')⟩ := by
  have inner : within (messageStretch rest)
      (recvMessage fuel (getLdpMsg rest) rest (messageSize rest)) ldpe =
      ⟨accesses.map (SessionEvent.access (messageStretch rest)), .ret (some (), ldpe')⟩ := by
    rw [within, mapEvents, run]
  rw [messageRound_welcome welcome small, bind_ret inner, Execution.prepend_prepend]
  show Execution.mk (roundTrace rest accesses ++ []) _ = _
  rw [List.append_nil]
  rfl

theorem messageRound_refused
    (run : recvMessage fuel (getLdpMsg rest) rest (messageSize rest) ldpe =
      ⟨accesses, .ret (none, ldpe')⟩) :
    messageRound fuel (messagesLeft rest) ldpe =
      ⟨roundTrace rest accesses, .ret (none, ldpe')⟩ := by
  have inner : within (messageStretch rest)
      (recvMessage fuel (getLdpMsg rest) rest (messageSize rest)) ldpe =
      ⟨accesses.map (SessionEvent.access (messageStretch rest)), .ret (none, ldpe')⟩ := by
    rw [within, mapEvents, run]
  rw [messageRound_welcome welcome small, bind_gaveUp inner]
  rfl

/-- The parser of a message that is no trouble returns, with what the message calls for. -/
theorem recvMessage_returns {more : Prop} (fine : ¬Trouble more (ldpe.standing, rest))
    (plenty : 2 ^ 16 ≤ fuel) : ∃ accesses result ldpe',
      recvMessage fuel (getLdpMsg rest) rest (messageSize rest) ldpe =
        ⟨accesses, .ret (result, ldpe')⟩ ∧ Parsed ldpe rest result ldpe' := by
  have acts := fun fuel => obeysAt_message welcome.1 small fuel ldpe
  have notEndless : ¬MessageFlaw (afterMessage rest) (firstMessage rest) .endless :=
    fun flawed => fine (Or.inl ⟨welcome, flawed⟩)
  have defined : ¬MessageFlaw (afterMessage rest) (firstMessage rest) .undefined :=
    fun flawed => fine (Or.inr (Or.inl ⟨welcome, flawed⟩))
  obtain ⟨fuel', ⟨result, ldpe'⟩, returns, meaning⟩ := (returns_iff acts).mpr
    ⟨fun flawed => notEndless ((readMessage_has ..).mp flawed),
      fun flawed => defined ((readMessage_has ..).mp flawed)⟩
  have outcome := (returns_of_le acts returns meaning plenty).1
  exact ⟨_, result, ldpe', by rw [← outcome], recvMessage_returned welcome small defined outcome⟩

end Welcome

/-- What becomes of the messages of a PDU: all are handed over, or the session is closed. -/
theorem messages_run {rest rbuf : List UInt8} {ldpe : Ldpe} {more : Prop} {fuel rounds : Nat}
    (small : rest.length < 2 ^ 16) (attached : Attached rbuf ldpe)
    (fine : ¬Walk HandsOn (Trouble more) (ldpe.standing, rest)) (plenty : 2 ^ 16 ≤ fuel)
    (enough : rest.length < rounds) :
    ∃ trace ldpe',
      (loop (messageRound fuel) rounds (messagesLeft rest) ldpe =
          ⟨trace, .ret (some (messageFraming.leftover rest).length, ldpe')⟩ ∧
        Attached rbuf ldpe' ∧ dispatched trace = messageFraming.frames rest ∧
        Relation.ReflTransGen HandsOn (ldpe.standing, rest)
          (ldpe'.standing, messageFraming.leftover rest)) ∨
      (loop (messageRound fuel) rounds (messagesLeft rest) ldpe = ⟨trace, .ret (none, ldpe')⟩ ∧
        (Detached ldpe' ∨
          Attached rbuf ldpe' ∧ ¬more ∧ dispatched trace = messageFraming.frames rest ∧
          ∃ rest', Relation.ReflTransGen HandsOn (ldpe.standing, rest) (ldpe'.standing, rest') ∧
            RefusedAt (ldpe'.standing, rest'))) := by
  induction rounds generalizing rest ldpe with
  | zero => exact absurd enough (Nat.not_lt_zero _)
  | succ rounds inductionHypothesis =>
    by_cases welcome : Welcome ldpe.standing rest
    swap
    · by_cases short : rest.length < ldpMsgSize
      · have part : ¬MessageWhole rest := fun whole => Nat.not_le.mpr short whole.1
        have left : messageFraming.leftover rest = rest :=
          Framing.leftover_of_none (messageFraming_cut_none part)
        refine ⟨[], ldpe, Or.inl ⟨?_, attached, ?_, ?_⟩⟩
        · rw [loop_done (messageRound_end short fuel ldpe), left]
        · rw [Framing.frames_of_none (messageFraming_cut_none part)]
          rfl
        · rw [left]
      · obtain ⟨trace, status, -, -, -, run⟩ :=
          messageRound_unwelcome (Nat.le_of_not_lt short) small welcome fuel
        exact ⟨trace, _, Or.inr ⟨loop_gaveUp run rounds, Or.inl (attached.shutdown _ _)⟩⟩
    have whole := welcome.1
    have cut := messageFraming_cut whole
    obtain ⟨accesses, result, ldpe', run, parsed⟩ :=
      recvMessage_returns welcome small (fun trouble => fine (.here trouble)) plenty
    cases parsed with
    | taken good moved open' =>
      have shorter := whole.shorter
      have goesOn : HandsOn (ldpe.standing, rest) (ldpe'.standing, afterMessage rest) :=
        ⟨welcome, good, by rw [moved]⟩
      obtain ⟨trace, ldpe'', onward⟩ := inductionHypothesis (Nat.lt_trans shorter small)
        (open' rbuf attached) (fun walk => fine (.later goesOn walk))
        (Nat.lt_of_lt_of_le shorter (Nat.le_of_lt_succ enough))
      refine ⟨roundTrace rest accesses ++ trace, ldpe'', ?_⟩
      rw [loop_again (messageRound_taken welcome small run), Framing.leftover_of_some cut,
        Framing.frames_of_some cut, dispatched_append, dispatched_roundTrace]
      refine onward.imp (fun ⟨run', open'', all, path⟩ => ⟨?_, open'', ?_, .head goesOn path⟩)
        fun ⟨run', ends⟩ => ⟨?_, ?_⟩
      · rw [run']
        rfl
      · rw [all]
        rfl
      · rw [run']
        rfl
      · refine ends.imp_right fun ⟨open'', last, all, rest', path, refused⟩ =>
          ⟨open'', last, ?_, rest', .head goesOn path, refused⟩
        rw [all]
        rfl
    | refused holds same open' =>
      refine ⟨roundTrace rest accesses, ldpe', Or.inr ⟨?_, Or.inr ⟨open' rbuf attached, ?_⟩⟩⟩
      · exact loop_gaveUp (messageRound_refused welcome small run) rounds
      have last : ¬(MessageWhole (afterMessage rest) ∨ more) := fun follows =>
        fine (.here (Or.inr (Or.inr ⟨⟨welcome, holds⟩, follows⟩)))
      refine ⟨fun follows => last (Or.inr follows), ?_, rest, ?_⟩
      · rw [dispatched_roundTrace, Framing.frames_of_some cut,
          Framing.frames_of_none (messageFraming_cut_none fun whole => last (Or.inl whole))]
      · rw [same]
        exact ⟨.refl, welcome, holds⟩
    | closed detached =>
      refine ⟨roundTrace rest accesses, ldpe', Or.inr ⟨?_, Or.inl (detached rbuf attached)⟩⟩
      exact loop_gaveUp (messageRound_refused welcome small run) rounds

/-! ### PDUs -/

/-- What becomes of a PDU: all of its messages are handed over, or the session is closed. -/
theorem pdu_run {pdu rbuf : List UInt8} {ldpe : Ldpe} {more : Prop} {fuel : Nat}
    (whole : PduWhole pdu) (attached : Attached rbuf ldpe)
    (fine : ¬PduTrouble more ldpe.standing pdu) (plenty : 2 ^ 16 ≤ fuel) :
    ∃ trace ldpe',
      (sessionPdu fuel pdu ldpe = ⟨trace, .ret (some (), ldpe')⟩ ∧ Attached rbuf ldpe' ∧
        dispatched trace = pduMessages pdu ∧ HeaderGood ldpe.standing pdu ∧
        Relation.ReflTransGen HandsOn (ldpe.standing, pduBody pdu) (ldpe'.standing, [])) ∨
      (sessionPdu fuel pdu ldpe = ⟨trace, .ret (none, ldpe')⟩ ∧
        (Detached ldpe' ∨ Attached rbuf ldpe' ∧ ¬more ∧ dispatched trace = pduMessages pdu ∧
          HeaderGood ldpe.standing pdu ∧ ∃ rest,
            Relation.ReflTransGen HandsOn (ldpe.standing, pduBody pdu) (ldpe'.standing, rest) ∧
              RefusedAt (ldpe'.standing, rest))) := by
  by_cases good : HeaderGood ldpe.standing pdu
  swap
  · obtain ⟨trace, status, -, -, -, run⟩ := sessionPdu_bad whole good fuel
    exact ⟨trace, _, Or.inr ⟨run, Or.inl (attached.shutdown _ _)⟩⟩
  have small := length_pduBody pdu whole
  have start := standing_pduRcvd ldpe
  have received : Attached rbuf (nbrFsm ldpe .pduRcvd) := attached.nbrFsm (by decide)
  obtain ⟨trace, ldpe', runs⟩ := messages_run small received
    (fun walk => fine ⟨good, by rw [← start]; exact walk⟩) plenty (Nat.lt_of_lt_of_le small plenty)
  have header : dispatched (headerReads pdu ++ trace) = dispatched trace := dispatched_append _ _
  rw [sessionPdu_good whole good]
  rw [start] at runs
  rcases runs with ⟨run, open', all, path⟩ | ⟨run, ends⟩
  · by_cases left : (messageFraming.leftover (pduBody pdu)).length ≠ 0
    · refine ⟨headerReads pdu ++ (trace ++ []), _, Or.inr ⟨?_, Or.inl (open'.shutdown sBadPduLen ⟨0, 0, 0⟩)⟩⟩
      rw [sessionMessages, bind_ret run, if_pos left]
      rfl
    · have nothing := List.eq_nil_of_length_eq_zero (not_not.mp left)
      rw [nothing] at path
      refine ⟨headerReads pdu ++ trace, ldpe', Or.inl ⟨?_, open', ?_, good, path⟩⟩
      · rw [sessionMessages, bind_ret run, if_neg left]
        show Execution.mk (headerReads pdu ++ (trace ++ [])) _ = _
        rw [List.append_nil]
        rfl
      · rw [header, all, pduMessages]
  · refine ⟨headerReads pdu ++ trace, ldpe', Or.inr ⟨?_, ?_⟩⟩
    · rw [sessionMessages, bind_gaveUp run]
      rfl
    · rw [header]
      refine ends.imp_right ?_
      rintro ⟨open', last, all, path⟩
      exact ⟨open', last, all, good, path⟩

/-! ### Reads -/

theorem attached_setRbuf {rbuf : List UInt8} {ldpe : Ldpe} (attached : Attached rbuf ldpe)
    (rbuf' : List UInt8) : Attached rbuf' (ldpe.setRbuf rbuf') :=
  ⟨rfl, attached.2⟩

theorem pduRound_done {rbuf : List UInt8} {ldpe : Ldpe} (attached : Attached rbuf ldpe)
    (get : sessionGetPdu rbuf = none) (fuel : Nat) :
    pduRound fuel () ldpe = ⟨[], .ret (some (.inr ()), ldpe)⟩ := by
  rw [pduRound, bind_ret (look_run ldpe), attached.1]
  simp only [get]
  rfl

theorem pduRound_pdu {rbuf pdu rest : List UInt8} {ldpe : Ldpe} (attached : Attached rbuf ldpe)
    (get : sessionGetPdu rbuf = some (pdu, rest)) (fuel : Nat) :
    pduRound fuel () ldpe =
      (sessionPdu fuel pdu >>= fun _ => pure (.inl ())) (ldpe.setRbuf rest) := by
  rw [pduRound, bind_ret (look_run ldpe), attached.1]
  simp only [get]
  rfl

/-- What becomes of the read buffer: the messages of all complete PDUs are handed over and what is
left over stays, or the session is closed. -/
theorem buffer_run {rbuf : List UInt8} {ldpe : Ldpe} {fuel rounds : Nat}
    (attached : Attached rbuf ldpe) (fine : Smooth ldpe.standing rbuf)
    (plenty : 2 ^ 16 ≤ fuel) (enough : rbuf.length < rounds) :
    ∃ trace result ldpe', loop (pduRound fuel) rounds () ldpe = ⟨trace, .ret (result, ldpe')⟩ ∧
      (Detached ldpe' ∨ Attached (pduFraming.leftover rbuf) ldpe' ∧
        dispatched trace = streamMessages rbuf ∧ ReadOn (ldpe.standing, rbuf) ldpe'.standing) := by
  induction rounds generalizing rbuf ldpe with
  | zero => exact absurd enough (Nat.not_lt_zero _)
  | succ rounds inductionHypothesis =>
    cases get : sessionGetPdu rbuf with
    | none =>
      refine ⟨[], some (), ldpe, loop_done (pduRound_done attached get fuel) rounds,
        Or.inr ⟨?_, ?_, .done get⟩⟩
      · rw [Framing.leftover_of_none get]
        exact attached
      · rw [streamMessages, Framing.frames_of_none get]
        rfl
    | some both =>
      obtain ⟨pdu, rest⟩ := both
      have whole := pduWhole_of_get get
      have attached' := attached_setRbuf attached rest
      have messages : streamMessages rbuf = pduMessages pdu ++ streamMessages rest := by
        rw [streamMessages, Framing.frames_of_some get, List.flatMap_cons, streamMessages]
      have round := pduRound_pdu attached get fuel
      obtain ⟨trace, ldpe', ⟨run, open', all, good, path⟩ | ⟨run, ends⟩⟩ := pdu_run whole attached'
        (fun trouble => fine (.here ⟨pdu, rest, get, trouble⟩)) plenty
      · have goesOn : PduOn (ldpe.standing, rbuf) (ldpe'.standing, rest) := ⟨pdu, get, good, path⟩
        obtain ⟨trace', result, ldpe'', onward, ends⟩ := inductionHypothesis open'
          (fun walk => fine (.later goesOn walk))
          (Nat.lt_of_lt_of_le (pduFraming.shorter get) (Nat.le_of_lt_succ enough))
        have taken : pduRound fuel () ldpe = ⟨trace, .ret (some (.inl ()), ldpe')⟩ := by
          rw [round, bind_ret run]
          show Execution.mk (trace ++ []) _ = _
          rw [List.append_nil]
          rfl
        refine ⟨trace ++ trace', result, ldpe'', ?_, ?_⟩
        · rw [loop_again taken, onward]
          rfl
        · rw [Framing.leftover_of_some get, messages, dispatched_append, all]
          exact ends.imp_right fun ⟨open'', all', later⟩ =>
            ⟨open'', by rw [all'], .later goesOn later⟩
      · have gaveUp : pduRound fuel () ldpe = ⟨trace, .ret (none, ldpe')⟩ := by
          rw [round, bind_gaveUp run]
        refine ⟨trace, none, ldpe', loop_gaveUp gaveUp rounds, ?_⟩
        refine ends.imp_right fun ⟨open', last, all, good, rest', path, refused⟩ => ?_
        have nothing : sessionGetPdu rest = none := Option.not_isSome_iff_eq_none.mp last
        rw [Framing.leftover_of_some get, Framing.leftover_of_none nothing, messages, all,
          streamMessages, Framing.frames_of_none nothing]
        exact ⟨open', (List.append_nil _).symm, .refused get good path refused⟩

/-- What becomes of a read. -/
theorem read_run {rbuf chunk : List UInt8} {ldpe : Ldpe} {fuel : Nat} (attached : Attached rbuf ldpe)
    (smooth : Smooth ldpe.standing (rbuf ++ chunk)) (plenty : 2 ^ 16 ≤ fuel)
    (enough : (rbuf ++ chunk).length < fuel) :
    ∃ trace ldpe', sessionRead fuel (.data chunk) ldpe = ⟨trace, .ret (some (), ldpe')⟩ ∧
      (Detached ldpe' ∨ Attached (pduFraming.leftover (rbuf ++ chunk)) ldpe' ∧
        dispatched trace = streamMessages (rbuf ++ chunk) ∧
        ReadOn (ldpe.standing, rbuf ++ chunk) ldpe'.standing) := by
  obtain ⟨trace, result, ldpe', run, ends⟩ :=
    buffer_run (attached_setRbuf attached (rbuf ++ chunk)) smooth plenty enough
  refine ⟨trace, ldpe', ?_, ends⟩
  rw [sessionRead, returned, bind_ret (look_run ldpe), attached.1]
  simp only
  have filled : ((change fun ldpe => ldpe.setRbuf (rbuf ++ chunk)) >>= fun _ =>
      loop (pduRound fuel) fuel () : Session Unit) ldpe = ⟨trace, .ret (result, ldpe')⟩ :=
    run
  rw [filled]
  rfl

/-! ### Runs -/

/-- A session reads chunk after chunk, as long as there is a connection. -/
def sessionChunks (fuel : Nat) : List (List UInt8) → Session Unit
  | [] => return ()
  | chunk :: chunks => do
    let ldpe ← look
    if ldpe.nbr.tcp.isNone then return ()
    else
      sessionRead fuel (.data chunk)
      sessionChunks fuel chunks

/-- Reads without trouble in any of them, from where a session stands on. -/
def SmoothReads : Standing → List UInt8 → List (List UInt8) → Prop
  | _, _, [] => True
  | standing, rbuf, chunk :: chunks => Smooth standing (rbuf ++ chunk) ∧
    ∀ standing', ReadOn (standing, rbuf ++ chunk) standing' →
      SmoothReads standing' (pduFraming.leftover (rbuf ++ chunk)) chunks

theorem streamMessages_append (stream more : List UInt8) :
    streamMessages (stream ++ more) =
      streamMessages stream ++ streamMessages (pduFraming.leftover stream ++ more) := by
  rw [streamMessages, Framing.frames_append, List.flatMap_append, streamMessages, streamMessages]

theorem chunks_detached {ldpe : Ldpe} (detached : Detached ldpe) (fuel : Nat)
    (chunks : List (List UInt8)) :
    sessionChunks fuel chunks ldpe = ⟨[], .ret (some (), ldpe)⟩ := by
  cases chunks with
  | nil => rfl
  | cons chunk chunks =>
    have none' : ldpe.nbr.tcp.isNone = true := by rw [detached]; rfl
    rw [sessionChunks, bind_ret (look_run ldpe), if_pos none']
    rfl

theorem chunks_attached {rbuf : List UInt8} {ldpe : Ldpe} (attached : Attached rbuf ldpe)
    (fuel : Nat) (chunk : List UInt8) (chunks : List (List UInt8)) :
    sessionChunks fuel (chunk :: chunks) ldpe =
      (sessionRead fuel (.data chunk) >>= fun _ => sessionChunks fuel chunks) ldpe := by
  have some' : ¬ldpe.nbr.tcp.isNone = true := by rw [attached.1]; exact Bool.false_ne_true
  rw [sessionChunks, bind_ret (look_run ldpe), if_neg some']
  rfl

/-- What becomes of a run of reads. -/
theorem chunks_run {rbuf : List UInt8} {ldpe : Ldpe} {fuel : Nat} {chunks : List (List UInt8)}
    (attached : Attached rbuf ldpe) (pending : sessionGetPdu rbuf = none)
    (smooth : SmoothReads ldpe.standing rbuf chunks) (plenty : 2 ^ 16 ≤ fuel)
    (enough : (rbuf ++ chunks.flatten).length < fuel) :
    ∃ trace ldpe', sessionChunks fuel chunks ldpe = ⟨trace, .ret (some (), ldpe')⟩ ∧
      (Detached ldpe' ∨ dispatched trace = streamMessages (rbuf ++ chunks.flatten)) := by
  induction chunks generalizing rbuf ldpe with
  | nil =>
    refine ⟨[], ldpe, rfl, Or.inr ?_⟩
    rw [List.flatten_nil, List.append_nil, streamMessages, Framing.frames_of_none pending]
    rfl
  | cons chunk chunks inductionHypothesis =>
    obtain ⟨fine, later⟩ := smooth
    have split : rbuf ++ (chunk :: chunks).flatten = rbuf ++ chunk ++ chunks.flatten := by
      rw [List.flatten_cons, List.append_assoc]
    rw [split] at enough ⊢
    have short : (rbuf ++ chunk).length < fuel := by
      rw [List.length_append] at enough
      omega
    obtain ⟨trace, ldpe', run, ends⟩ := read_run attached fine plenty short
    rw [chunks_attached attached, bind_ret run]
    rcases ends with detached | ⟨attached', all, moved⟩
    · rw [chunks_detached detached]
      exact ⟨trace ++ [], ldpe', rfl, Or.inl detached⟩
    · have less : (pduFraming.leftover (rbuf ++ chunk) ++ chunks.flatten).length < fuel := by
        have left := pduFraming.length_leftover_le (rbuf ++ chunk)
        rw [List.length_append] at enough ⊢
        omega
      obtain ⟨trace', ldpe'', run', ends'⟩ := inductionHypothesis attached'
        (pduFraming.cut_leftover _) (later _ moved) less
      refine ⟨trace ++ trace', ldpe'', by rw [run']; rfl, ends'.imp_right fun all' => ?_⟩
      rw [dispatched_append, all, all', streamMessages_append (rbuf ++ chunk)]

/-- However the stream of a session is cut into reads, in a run without trouble the messages handed
over are those of all complete PDUs of the stream, unless the session has been closed; so they are
the same for every other such way to cut it. -/
theorem session_dispatches_all {ldpe : Ldpe} {chunks : List (List UInt8)} (fresh : Attached [] ldpe)
    (smooth : SmoothReads ldpe.standing [] chunks) :
    ∃ enough, ∀ fuel, enough ≤ fuel → ∃ trace ldpe',
      sessionChunks fuel chunks ldpe = ⟨trace, .ret (some (), ldpe')⟩ ∧
      (¬Detached ldpe' → dispatched trace = streamMessages chunks.flatten) ∧
      ∀ chunks' trace' ldpe'', chunks'.flatten = chunks.flatten →
        SmoothReads ldpe.standing [] chunks' →
        sessionChunks fuel chunks' ldpe = ⟨trace', .ret (some (), ldpe'')⟩ →
        ¬Detached ldpe' → ¬Detached ldpe'' → dispatched trace' = dispatched trace := by
  have pending : sessionGetPdu [] = none := rfl
  refine ⟨2 ^ 16 + chunks.flatten.length + 1, fun fuel plenty => ?_⟩
  have run : ∀ {cut}, SmoothReads ldpe.standing [] cut → cut.flatten = chunks.flatten → ∃ trace ldpe',
      sessionChunks fuel cut ldpe = ⟨trace, .ret (some (), ldpe')⟩ ∧
        (¬Detached ldpe' → dispatched trace = streamMessages chunks.flatten) := by
    intro cut smooth same
    have less : ([] ++ cut.flatten).length < fuel := by
      rw [List.nil_append, same]
      omega
    obtain ⟨trace, ldpe', run, ends⟩ := chunks_run fresh pending smooth (by omega) less
    rw [List.nil_append, same] at ends
    exact ⟨trace, ldpe', run, fun open' => ends.resolve_left open'⟩
  obtain ⟨trace, ldpe', first, all⟩ := run smooth rfl
  refine ⟨trace, ldpe', first, all, fun chunks' trace' ldpe'' same smooth' second open' open'' => ?_⟩
  obtain ⟨trace₂, ldpe₂, second', all'⟩ := run smooth' same
  rw [second] at second'
  cases second'
  rw [all open', all' open'']

/-- A PDU with a KeepAlive message, and a Label Mapping behind it that lacks its FEC TLV. -/
def lastPdu : List UInt8 :=
  [0x00, 0x01, 0x00, 0x1a, 0x0a, 0x00, 0x00, 0x02, 0x00, 0x00,
    0x02, 0x01, 0x00, 0x04, 0x00, 0x00, 0x00, 0x04,
    0x04, 0x00, 0x00, 0x08, 0x00, 0x00, 0x00, 0x05, 0x02, 0x00, 0x00, 0x00]

/-- A message with a good end that is not refused, or not followed by anything, is no trouble. -/
theorem not_trouble {more : Prop} {standing : Standing} {rest : List UInt8}
    (ends : ¬(readMessage operSession (afterMessage rest) (firstMessage rest)).Has .endless)
    (defined : ¬(readMessage operSession (afterMessage rest) (firstMessage rest)).Has .undefined)
    (last : MessageRefused (afterMessage rest) (firstMessage rest) →
      ¬(MessageWhole (afterMessage rest) ∨ more)) : ¬Trouble more (standing, rest) := by
  rintro (⟨-, flawed⟩ | ⟨-, flawed⟩ | ⟨⟨-, refused⟩, follows⟩)
  · exact ends ((readMessage_has ..).mpr flawed)
  · exact defined ((readMessage_has ..).mpr flawed)
  · exact last refused follows

/-- At the end of a PDU there is no trouble any more. -/
theorem not_trouble_nil {more : Prop} {standing : Standing} :
    ¬Walk HandsOn (Trouble more) (standing, []) := by
  have part : ¬Welcome standing [] := fun welcome => absurd welcome.1 (by decide)
  rintro ((⟨welcome, -⟩ | ⟨welcome, -⟩ | ⟨⟨welcome, -⟩, -⟩) | ⟨⟨welcome, -⟩, -⟩) <;>
    exact part welcome

/-- The messages of `busyPdu` are all taken. -/
theorem not_trouble_busy (more : Prop) (standing : Standing) :
    ¬Walk HandsOn (Trouble more) (standing, pduBody busyPdu) := by
  refine not_walk_handsOn (not_trouble (fun bad => nomatch bad) (fun bad => nomatch bad) fun refused => ?_)
    (not_walk_handsOn (not_trouble (fun bad => nomatch bad) (fun bad => nomatch bad) fun refused => ?_)
      (not_walk_handsOn (not_trouble (fun bad => nomatch bad) (fun bad => nomatch bad) fun refused => ?_)
        not_trouble_nil))
  · rw [MessageRefused, if_neg (by decide), if_pos (by decide)] at refused
    exact absurd refused.2 (by decide)
  · rw [MessageRefused, if_neg (by decide), if_neg (by decide), if_pos (by decide)] at refused
    obtain ⟨_, _, stopped⟩ := (@labelMessageRefused_iff ⟨0, 0, 0⟩ _ _ _).mp refused
    cases stopped
  · rw [MessageRefused, if_neg (by decide), if_neg (by decide), if_neg (by decide)] at refused
    exact refused.elim

/-- The last message of `lastPdu` may be refused. -/
theorem not_trouble_last {more : Prop} (nothing : ¬more) (standing : Standing) :
    ¬Walk HandsOn (Trouble more) (standing, pduBody lastPdu) := by
  refine not_walk_handsOn (not_trouble (fun bad => nomatch bad) (fun bad => nomatch bad) fun refused => ?_)
    (not_walk_handsOn (not_trouble (fun bad => nomatch bad) (fun bad => nomatch bad) fun _ => ?_)
      not_trouble_nil)
  · rw [MessageRefused, if_neg (by decide), if_neg (by decide), if_neg (by decide)] at refused
    exact refused.elim
  · exact not_or.mpr ⟨by decide, nothing⟩

/-- A buffer without a complete PDU makes no trouble. -/
theorem smooth_of_none {standing : Standing} {rbuf : List UInt8} (get : sessionGetPdu rbuf = none) :
    Smooth standing rbuf := by
  rintro (⟨_, _, other, -⟩ | ⟨⟨_, other, -⟩, -⟩)
  · cases get.symm.trans other
  · cases get.symm.trans other

theorem smooth_busy (standing : Standing) : Smooth standing (busyPdu ++ lastPdu) := by
  have first : sessionGetPdu (busyPdu ++ lastPdu) = some (busyPdu, lastPdu) := rfl
  have second : sessionGetPdu lastPdu = some (lastPdu, []) := rfl
  rintro (⟨_, _, get, -, walk⟩ | @⟨-, next, ⟨_, get, -⟩, walk⟩)
  · cases first.symm.trans get
    exact not_trouble_busy _ _ walk
  obtain ⟨standing', rbuf⟩ := next
  cases first.symm.trans get
  rcases walk with ⟨_, _, get, -, walk⟩ | @⟨-, next, ⟨_, get, -⟩, walk⟩
  · cases second.symm.trans get
    exact not_trouble_last (by decide) _ walk
  · obtain ⟨standing'', rbuf⟩ := next
    cases second.symm.trans get
    exact smooth_of_none rfl walk

theorem session_dispatches_all_cut : (streamMessages (busyPdu ++ lastPdu)).length = 5 ∧
    ∃ enough, ∀ fuel, enough ≤ fuel → ∃ trace ldpe',
      sessionChunks fuel [busyPdu.take 20, busyPdu.drop 20 ++ lastPdu] operSession =
        ⟨trace, .ret (some (), ldpe')⟩ ∧
      (¬Detached ldpe' → dispatched trace = streamMessages (busyPdu ++ lastPdu)) ∧
      ∀ trace' ldpe'',
        sessionChunks fuel [busyPdu ++ lastPdu] operSession = ⟨trace', .ret (some (), ldpe'')⟩ →
        ¬Detached ldpe' → ¬Detached ldpe'' → dispatched trace' = dispatched trace := by
  have fresh : Attached [] operSession := ⟨rfl, by decide⟩
  have part : sessionGetPdu (busyPdu.take 20) = none := rfl
  have smooth : SmoothReads operSession.standing [] [busyPdu.take 20, busyPdu.drop 20 ++ lastPdu] := by
    refine ⟨smooth_of_none part, fun standing _ => ⟨?_, fun _ _ => trivial⟩⟩
    rw [List.nil_append, Framing.leftover_of_none part]
    exact smooth_busy standing
  have smooth' : SmoothReads operSession.standing [] [busyPdu ++ lastPdu] :=
    ⟨smooth_busy _, fun _ _ => trivial⟩
  obtain ⟨enough, runs⟩ := session_dispatches_all fresh smooth
  refine ⟨by decide, enough, fun fuel plenty => ?_⟩
  obtain ⟨trace, ldpe', run, all, same⟩ := runs fuel plenty
  exact ⟨trace, ldpe', run, all, fun trace' ldpe'' => same _ trace' ldpe'' rfl smooth'⟩

/-! ### A message that is followed by others -/

/-- A PDU with a Label Mapping that lacks its FEC TLV, and a KeepAlive message behind it. -/
def refusedPdu : List UInt8 :=
  [0x00, 0x01, 0x00, 0x1a, 0x0a, 0x00, 0x00, 0x02, 0x00, 0x00,
    0x04, 0x00, 0x00, 0x08, 0x00, 0x00, 0x00, 0x01, 0x02, 0x00, 0x00, 0x00,
    0x02, 0x01, 0x00, 0x04, 0x00, 0x00, 0x00, 0x02]

theorem session_skips : ∃ fuel trace ldpe',
    sessionChunks fuel [refusedPdu] operSession = ⟨trace, .ret (some (), ldpe')⟩ ∧
      ¬Detached ldpe' ∧ dispatched trace ≠ streamMessages [refusedPdu].flatten := by
  refine ⟨4, _, _, rfl, ?_, ?_⟩
  · exact nofun
  · decide

end Ldpd
