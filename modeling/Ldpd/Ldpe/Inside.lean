/-
This file settles when the session layer stays inside the message it is decoding. A FEC
TLV without elements at the end of a message makes `tlv_decode_fec_elm` look at the
byte behind the message, and a prefix that is longer than an address makes it copy and
mask more than there is; no other message leads it, or any of the other parsers,
astray, and no length is ever taken below zero. Which messages are reached is told by
the bytes in front of them.
-/

import Ldpd.Ldpe.Taken

namespace Ldpd

open Bytes Code Reading

/-! ### The messages that are reached -/

/-- How a PDU goes on after a message: the message is welcome and taken, the session has moved on,
and the next message is looked at. -/
def HandsOn (place next : Standing × List UInt8) : Prop :=
  Welcome place.1 place.2 ∧ MessageTaken place.1 (firstMessage place.2) ∧
    next = (place.1.after (firstMessage place.2), afterMessage place.2)

/-- The next message is welcome and has a flaw. -/
def HandsFlaw (flaw : Flaw) (place : Standing × List UInt8) : Prop :=
  Welcome place.1 place.2 ∧ MessageFlaw (afterMessage place.2) (firstMessage place.2) flaw

/-- A PDU of the session in which a message with a flaw is reached. -/
def PduFlaw (standing : Standing) (pdu : List UInt8) (flaw : Flaw) : Prop :=
  HeaderGood standing pdu ∧ Walk HandsOn (HandsFlaw flaw) (standing, pduBody pdu)

instance (event : SessionEvent) : Decidable event.Inside :=
  match event with
  | .access stretch touched => inferInstanceAs (Decidable (touched.Inside stretch))
  | .dispatch _ => inferInstanceAs (Decidable True)

/-! ### Rounds -/

theorem clean_within {Value : Type} (stretch : Stretch) (parser : Parser Value) (ldpe : Ldpe) :
    Clean SessionEvent.Inside (within stretch parser ldpe) ↔
      Clean (Access.Inside stretch) (parser ldpe) :=
  List.forall_mem_map

theorem roundStart_inside {rest : List UInt8} (whole : MessageWhole rest) :
    ∀ event ∈ roundStart rest, event.Inside := by
  obtain ⟨long, -, fits⟩ := whole
  have eight : 8 ≤ rest.length := long
  refine List.forall_mem_cons.mpr ⟨?_, List.forall_mem_cons.mpr ⟨fits, ?_⟩⟩
  · show rest.length ≤ rest.length ∧ rest.length - 8 + 8 ≤ rest.length
    omega
  · exact List.forall_mem_singleton.mpr trivial

section Welcome

variable {ldpe ldpe' : Ldpe} {rest : List UInt8} (welcome : Welcome ldpe.standing rest)
  (small : rest.length < 2 ^ 16) (fuel : Nat)
include welcome small

/-- A round that hands a message over stays inside when the parser of the message does. -/
theorem clean_messageRound :
    Clean SessionEvent.Inside (messageRound fuel (messagesLeft rest) ldpe) ↔
      Clean (Access.Inside (messageStretch rest))
        (recvMessage fuel (getLdpMsg rest) rest (messageSize rest) ldpe) := by
  rw [messageRound_welcome welcome small, clean_prepend,
    and_iff_right (roundStart_inside welcome.1), clean_bind, clean_within]
  exact and_iff_left fun _ _ _ => clean_nil _

/-- A round that hands a message over goes on when the parser takes the message. -/
theorem messageRound_returns {value : MsgLocals ⊕ Nat} :
    (messageRound fuel (messagesLeft rest) ldpe).outcome = .ret (some value, ldpe') ↔
      (recvMessage fuel (getLdpMsg rest) rest (messageSize rest) ldpe).outcome =
        .ret (some (), ldpe') ∧ value = .inl (messagesLeft (afterMessage rest)) := by
  rw [messageRound_welcome welcome small, Execution.prepend_outcome, bind_returns]
  constructor
  · rintro ⟨_, state, first, second⟩
    cases second
    exact ⟨first, rfl⟩
  · rintro ⟨first, rfl⟩
    exact ⟨(), ldpe', first, rfl⟩

end Welcome

/-! ### Runs -/

/-- A message without meaning leads astray. -/
theorem straight_defined {ldpe : Ldpe} {rest : List UInt8} (welcome : Welcome ldpe.standing rest)
    (small : rest.length < 2 ^ 16)
    (straight : ¬MessageFlaw (afterMessage rest) (firstMessage rest) .stray) :
    ¬MessageFlaw (afterMessage rest) (firstMessage rest) .undefined := by
  intro undefined
  have meaningless := (readMessage_has ldpe _ _ .undefined).mpr undefined
  rw [Has] at meaningless
  rcases obeysAt_message welcome.1 small (2 ^ 16) ldpe with ⟨-, -, short⟩ | ⟨-, settles⟩
  · exact short (Nat.le_refl _)
  · rw [Settles, meaningless] at settles
    exact straight ((readMessage_has ldpe _ _ .stray).mp settles.1)

/-- The loop over messages stays inside as long as none of them leads it astray. -/
theorem clean_messages {rest : List UInt8} (small : rest.length < 2 ^ 16) (fuel rounds : Nat)
    {ldpe : Ldpe} (straight : ¬Walk HandsOn (HandsFlaw .stray) (ldpe.standing, rest)) :
    Clean SessionEvent.Inside (loop (messageRound fuel) rounds (messagesLeft rest) ldpe) := by
  induction rounds generalizing rest ldpe with
  | zero => exact clean_nil _
  | succ rounds inductionHypothesis =>
    rw [loop, clean_bind]
    by_cases welcome : Welcome ldpe.standing rest
    · have unflawed : ¬MessageFlaw (afterMessage rest) (firstMessage rest) .stray :=
        fun flawed => straight (.here ⟨welcome, flawed⟩)
      refine ⟨?_, fun value ldpe' returns => ?_⟩
      · rw [clean_messageRound welcome small]
        refine (clean_iff fun fuel => obeysAt_message welcome.1 small fuel ldpe).mpr ?_ fuel
        rw [readMessage_has]
        exact unflawed
      · obtain ⟨parsed, rfl⟩ := (messageRound_returns welcome small fuel).mp returns
        cases recvMessage_returned welcome small (straight_defined welcome small unflawed) parsed with
        | taken good moved =>
          refine inductionHypothesis (Nat.lt_trans welcome.1.shorter small) fun stray => ?_
          rw [moved] at stray
          exact straight (.later ⟨welcome, good, rfl⟩ stray)
    by_cases short : rest.length < ldpMsgSize
    · rw [messageRound_end short]
      refine ⟨clean_nil _, fun value ldpe' returns => ?_⟩
      cases returns
      exact clean_nil _
    · obtain ⟨trace, status, inside, -, -, run⟩ :=
        messageRound_unwelcome (Nat.le_of_not_lt short) small welcome fuel
      rw [run]
      exact ⟨inside, fun value ldpe' returns => absurd returns gaveUp_ne_returned⟩

/-- The loop over messages goes astray where one of them leads it astray. -/
theorem not_clean_messages {place : Standing × List UInt8} (small : place.2.length < 2 ^ 16)
    {fuel : Nat} (plenty : 2 ^ 16 ≤ fuel) (stray : Walk HandsOn (HandsFlaw .stray) place)
    {rounds : Nat} (enough : place.2.length < rounds) {ldpe : Ldpe} (start : ldpe.standing = place.1) :
    ¬Clean SessionEvent.Inside (loop (messageRound fuel) rounds (messagesLeft place.2) ldpe) := by
  induction stray generalizing rounds ldpe with
  | @here place found =>
    obtain ⟨welcome, flawed⟩ := found
    rw [← start] at welcome
    cases rounds with
    | zero => exact absurd enough (Nat.not_lt_zero _)
    | succ rounds =>
      rw [loop, clean_bind, clean_messageRound welcome small]
      rintro ⟨clean, -⟩
      rcases obeysAt_message welcome.1 small fuel ldpe with ⟨-, -, short⟩ | ⟨inside, -⟩
      · exact short plenty
      · have strays := (readMessage_has ldpe _ _ .stray).mpr flawed
        rw [Has, inside.mp clean] at strays
        cases strays
  | @later place next goesOn _ inductionHypothesis =>
    obtain ⟨welcome, taken, rfl⟩ := goesOn
    rw [← start] at welcome taken inductionHypothesis
    have shorter := welcome.1.shorter
    cases rounds with
    | zero => exact absurd enough (Nat.not_lt_zero _)
    | succ rounds =>
      rw [loop, clean_bind]
      rintro ⟨-, clean⟩
      obtain ⟨ldpe', parsed, moved⟩ := recvMessage_taken welcome small taken plenty
      have onward := clean _ _ ((messageRound_returns welcome small fuel).mpr ⟨parsed, rfl⟩)
      exact inductionHypothesis (Nat.lt_trans shorter small)
        (Nat.lt_of_lt_of_le shorter (Nat.le_of_lt_succ enough)) moved onward

theorem length_pduBody (pdu : List UInt8) (whole : PduWhole pdu) : (pduBody pdu).length < 2 ^ 16 := by
  have bound := (pduLength pdu).toNat_lt
  have length : pdu.length = (pduLength pdu).toNat + 4 := whole
  rw [pduBody, List.length_drop]
  show pdu.length - 10 < 2 ^ 16
  omega

/-- While `session_read` walks the messages of a PDU, every byte it or a parser reads lies inside
the current message, and no length is taken below zero, exactly when it does not reach a message
that leads astray. -/
theorem session_inside_iff {rbuf pdu after : List UInt8} (ldpe : Ldpe)
    (get : sessionGetPdu rbuf = some (pdu, after)) :
    (∀ fuel, Clean SessionEvent.Inside (sessionPdu fuel pdu ldpe)) ↔
      ¬PduFlaw ldpe.standing pdu .stray := by
  have whole := pduWhole_of_get get
  by_cases good : HeaderGood ldpe.standing pdu
  swap
  · refine iff_of_true (fun fuel => ?_) fun flawed => good flawed.1
    obtain ⟨trace, status, inside, -, -, run⟩ := sessionPdu_bad whole good fuel
    rw [run]
    exact inside
  have header : ldpHdrPduLen ≤ (pduLength pdu).toNat :=
    Nat.le_trans (Nat.le_add_right _ _) good.2.1
  have reads := headerReads_inside whole header
  have small := length_pduBody pdu whole
  have start := standing_pduRcvd ldpe
  have clean : ∀ fuel, Clean SessionEvent.Inside (sessionPdu fuel pdu ldpe) ↔
      Clean SessionEvent.Inside (loop (messageRound fuel) fuel (messagesLeft (pduBody pdu))
        (nbrFsm ldpe .pduRcvd)) := fun fuel => by
    rw [sessionPdu_good whole good, clean_prepend, and_iff_right reads, sessionMessages, clean_bind]
    refine and_iff_left fun left ldpe' _ => ?_
    split
    · exact (clean_within _ _ _).mpr (clean_nil _)
    · exact clean_nil _
  simp only [clean]
  rw [PduFlaw, and_iff_right good]
  constructor
  · intro always stray
    exact not_clean_messages small (Nat.le_refl _) stray small start (always (2 ^ 16))
  · intro straight fuel
    rw [← start] at straight
    exact clean_messages small fuel fuel straight

/-- A walk along the messages of a PDU, one message at a time. -/
theorem not_walk_handsOn {goal : Standing × List UInt8 → Prop} {standing : Standing}
    {rest : List UInt8} (here : ¬goal (standing, rest))
    (later : ¬Walk HandsOn goal (standing.after (firstMessage rest), afterMessage rest)) :
    ¬Walk HandsOn goal (standing, rest) := by
  rintro (found | ⟨⟨-, -, rfl⟩, walk⟩)
  · exact here found
  · exact later walk

/-- A PDU with an Address message, a Label Mapping for 10.0.0.0/8 and 192.0.2.0/24, and a KeepAlive
message. -/
def busyPdu : List UInt8 :=
  [0x00, 0x01, 0x00, 0x40, 0x0a, 0x00, 0x00, 0x02, 0x00, 0x00,
    0x03, 0x00, 0x00, 0x0e, 0x00, 0x00, 0x00, 0x01,
    0x01, 0x01, 0x00, 0x06, 0x00, 0x01, 0x0a, 0x00, 0x00, 0x02,
    0x04, 0x00, 0x00, 0x1c, 0x00, 0x00, 0x00, 0x02,
    0x01, 0x00, 0x00, 0x0c, 0x02, 0x00, 0x01, 0x08, 0x0a, 0x02, 0x00, 0x01, 0x18, 0xc0, 0x00, 0x02,
    0x02, 0x00, 0x00, 0x04, 0x00, 0x00, 0x00, 0x10,
    0x02, 0x01, 0x00, 0x04, 0x00, 0x00, 0x00, 0x03]

theorem session_inside_iff_busy : sessionGetPdu busyPdu = some (busyPdu, []) ∧
    ∀ fuel, Clean SessionEvent.Inside (sessionPdu fuel busyPdu operSession) := by
  have get : sessionGetPdu busyPdu = some (busyPdu, []) := rfl
  have straight {standing : Standing} {rest : List UInt8}
      (stays : (readMessage operSession (afterMessage rest) (firstMessage rest)).strays = false) :
      ¬HandsFlaw .stray (standing, rest) := by
    rintro ⟨-, flawed⟩
    exact absurd ((readMessage_has operSession _ _ .stray).mpr flawed)
      (ne_of_eq_of_ne stays Bool.false_ne_true)
  refine ⟨get, (session_inside_iff operSession get).mpr ?_⟩
  rintro ⟨-, walk⟩
  refine not_walk_handsOn (straight (by decide)) (not_walk_handsOn (straight (by decide))
    (not_walk_handsOn (straight (by decide)) ?_)) walk
  have part {standing : Standing} : ¬Welcome standing [] := fun welcome =>
    absurd welcome.1 (by decide)
  rintro (⟨welcome, -⟩ | ⟨⟨welcome, -⟩, -⟩)
  · exact part welcome
  · exact part welcome

/-! ### A message that leads astray -/

/-- A PDU with a Label Withdraw whose FEC TLV has no elements. -/
def emptyFecPdu : List UInt8 :=
  [0x00, 0x01, 0x00, 0x12, 0x0a, 0x00, 0x00, 0x02, 0x00, 0x00,
    0x04, 0x02, 0x00, 0x08, 0x00, 0x00, 0x00, 0x01, 0x01, 0x00, 0x00, 0x00]

theorem session_strays : sessionGetPdu emptyFecPdu = some (emptyFecPdu, []) ∧
    ¬∀ fuel, Clean SessionEvent.Inside (sessionPdu fuel emptyFecPdu operSession) := by
  refine ⟨rfl, fun always => ?_⟩
  have read : SessionEvent.access ⟨12, 0⟩ (.read 0 1) ∈
      (sessionPdu 2 emptyFecPdu operSession).trace := by
    decide +kernel
  exact absurd (always 2 _ read) (by decide)

end Ldpd
