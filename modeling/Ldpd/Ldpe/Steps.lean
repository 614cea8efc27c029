/-
This file says what a step of the LDP engine can do: which part of the table it touches
and which handler of a neighbor it runs. The rules at the end carry a property through
the functions of a session that send or receive.
-/

import Ldpd.Ldpe.Fsm
import Ldpd.Ldpe.Engine
import Ldpd.Library.Run
import Ldpd.Library.Tree

namespace Ldpd

open Code

/-! ### The table -/

section Table

variable {engine : LdpEngine} {id : InAddr} {entry : NbrEntry}

theorem store_nbrs (ldpe : Ldpe) (other : InAddr) :
    (engine.store id entry ldpe).nbrs[other]? =
      if id = other then some { entry with nbr := ldpe.nbr, sent := ldpe.sent }
      else engine.nbrs[other]? :=
  Tree.getElem?_insert ..

theorem nbrFindPeerid_eq_some {peerid : UInt32}
    (found : engine.nbrFindPeerid peerid = some (id, entry)) :
    engine.nbrs[id]? = some entry ∧ entry.nbr.peerid = peerid ∧ peerid ≠ 0 := by
  have listed := List.mem_of_find?_eq_some found
  rw [LdpEngine.nbrFindPeerid] at found
  have fits := List.find?_some found
  rw [decide_eq_true_eq] at fits
  exact ⟨Std.ExtTreeMap.mem_toList_iff_getElem?_eq_some.mp listed, fits⟩

/-- The peerids of the other neighbors. -/
theorem mem_peerids {peerid : UInt32} : peerid ∈ engine.peerids id ↔
    peerid ≠ 0 ∧ ∃ other entry, other ≠ id ∧ engine.nbrs[other]? = some entry ∧
      entry.nbr.peerid = peerid := by
  rw [LdpEngine.peerids, List.mem_map]
  constructor
  · rintro ⟨⟨other, entry⟩, member, rfl⟩
    obtain ⟨listed, fits⟩ := List.mem_filter.mp member
    obtain ⟨different, assigned⟩ := of_decide_eq_true fits
    exact ⟨assigned, other, entry, different,
      Std.ExtTreeMap.mem_toList_iff_getElem?_eq_some.mp listed, rfl⟩
  · rintro ⟨assigned, other, entry, different, listed, rfl⟩
    exact ⟨(other, entry), List.mem_filter.mpr
      ⟨Std.ExtTreeMap.mem_toList_iff_getElem?_eq_some.mpr listed,
        decide_eq_true ⟨different, assigned⟩⟩, rfl⟩

end Table

/-! ### Steps -/

/-- The engine after an imsg that ends a list of maps. -/
def sentEngine (engine : LdpEngine) (id : InAddr) (entry : NbrEntry) (fuel : Nat) (list : LabelList)
    (ldpe' : Ldpe) : LdpEngine :=
  let run := sendLabelmessage fuel list.type (entry.lists list)
  { engine.store id
      { entry with lists := fun other => if other = list then [] else entry.lists other } ldpe' with
    written := engine.written ++
      (run (engine.view id entry)).trace.map (Written.mk entry.nbr.peerid) }

/-- What a step of the engine can do. -/
inductive EngineStep (engine : LdpEngine) : LdpeInput → LdpEngine → Prop
  | idle (input : LdpeInput) : EngineStep engine input engine
  | conf (conf : LdpeConf) : EngineStep engine (.conf conf) { engine with conf }
  | nbrNew {id : InAddr} (af : Af) (dsTlv pending : Bool) (absent : engine.nbrs[id]? = none)
      {entry : NbrEntry} (fresh : entry = ⟨.fresh id af dsTlv, fun _ => [], []⟩) :
      EngineStep engine (.nbrNew id af dsTlv pending)
        (engine.store id entry (sessionAccept (engine.view id entry) pending))
  | nbrDel {id : InAddr} {entry : NbrEntry} (present : engine.nbrs[id]? = some entry) :
      EngineStep engine (.nbrDel id)
        { engine.store id entry (nbrFsm (engine.view id entry) .closeSession) with
          nbrs := (engine.store id entry
            (nbrFsm (engine.view id entry) .closeSession)).nbrs.erase id }
  | nbr {id : InAddr} {entry : NbrEntry} (present : engine.nbrs[id]? = some entry) {input : NbrInput}
      {ldpe' : Ldpe} (leads : nbrInput (engine.view id entry) input = some ldpe') :
      EngineStep engine (.nbr id input) (engine.store id entry ldpe')
  | add {imsg : LdpeImsg} {fuel : Nat} {id : InAddr} {entry : NbrEntry}
      (present : engine.nbrs[id]? = some entry) (oper : entry.nbr.state = .oper) (list : LabelList)
      (map : Map) :
      EngineStep engine (.imsg imsg fuel) { engine with
        nbrs := engine.nbrs.insert id
          { entry with lists := mappingListAdd entry.lists list ⟨entry.nbr.peerid, map⟩ } }
  | addEnd {imsg : LdpeImsg} {fuel : Nat} {id : InAddr} {entry : NbrEntry}
      (present : engine.nbrs[id]? = some entry) (oper : entry.nbr.state = .oper) (list : LabelList)
      {ldpe' : Ldpe}
      (leads : returnedState (sendLabelmessage fuel list.type (entry.lists list))
        (engine.view id entry) = some ldpe') :
      EngineStep engine (.imsg imsg fuel) (sentEngine engine id entry fuel list ldpe')
  | notificationSend {imsg : LdpeImsg} {fuel : Nat} {id : InAddr} {entry : NbrEntry}
      (present : engine.nbrs[id]? = some entry) (oper : entry.nbr.state = .oper) (nm : NotifyMsg) :
      EngineStep engine (.imsg imsg fuel)
        (engine.store id entry (sendNotificationFull (engine.view id entry) nm))

section Steps

variable {engine engine' : LdpEngine} {imsg : LdpeImsg} {fuel : Nat}

theorem engineStep_ldpeAdd (list : LabelList) (peerid : UInt32) (map : Map) :
    EngineStep engine (.imsg imsg fuel) (ldpeAdd engine list peerid map) := by
  rw [ldpeAdd]
  split
  · exact .idle _
  · rename_i id entry found
    obtain ⟨present, rfl, _⟩ := nbrFindPeerid_eq_some found
    split
    · rename_i oper
      exact .add present oper list map
    · exact .idle _

theorem engineStep_ldpeAddEnd {list : LabelList} {peerid : UInt32}
    (leads : ldpeAddEnd engine fuel list peerid = some engine') :
    EngineStep engine (.imsg imsg fuel) engine' := by
  rw [ldpeAddEnd] at leads
  split at leads
  · cases leads
    exact .idle _
  · rename_i id entry found
    obtain ⟨present, rfl, _⟩ := nbrFindPeerid_eq_some found
    split at leads
    · rename_i oper
      obtain ⟨ldpe', returned, rfl⟩ := Option.map_eq_some_iff.mp leads
      exact .addEnd present oper list returned
    · cases leads
      exact .idle _

theorem engineStep_ldpeNotificationSend (peerid : UInt32) (nm : NotifyMsg) :
    EngineStep engine (.imsg imsg fuel) (ldpeNotificationSend engine peerid nm) := by
  rw [ldpeNotificationSend]
  split
  · exact .idle _
  · rename_i id entry found
    obtain ⟨present, rfl, _⟩ := nbrFindPeerid_eq_some found
    split
    · rename_i oper
      exact .notificationSend present oper nm
    · exact .idle _

/-- The list is complete. -/
theorem engineStep_of_ldpeStep {input : LdpeInput} (leads : ldpeStep engine input = some engine') :
    EngineStep engine input engine' := by
  cases input with
  | conf conf =>
    cases leads
    exact .conf conf
  | nbrNew id af dsTlv pending =>
    change nbrNew engine id af dsTlv pending = some engine' at leads
    rw [nbrNew] at leads
    split at leads
    · cases leads
    · rename_i absent
      cases leads
      exact .nbrNew af dsTlv pending (Std.ExtTreeMap.getElem?_eq_none absent) rfl
  | nbrDel id =>
    cases leads
    rw [nbrDel]
    split
    · exact .idle _
    · rename_i entry present
      exact .nbrDel present
  | nbr id input =>
    change ldpeNbrStep engine id input = some engine' at leads
    rw [ldpeNbrStep] at leads
    split at leads
    · cases leads
      exact .idle _
    · rename_i entry present
      obtain ⟨ldpe', leads', rfl⟩ := Option.map_eq_some_iff.mp leads
      exact .nbr present leads'
  | imsg imsg fuel =>
    cases imsg with
    | mappingAdd | withdrawAdd | releaseAdd =>
      cases leads
      exact engineStep_ldpeAdd ..
    | mappingAddEnd | withdrawAddEnd | releaseAddEnd => exact engineStep_ldpeAddEnd leads
    | notificationSend peerid nm =>
      cases leads
      exact engineStep_ldpeNotificationSend ..

end Steps

/-! ### Sending and receiving -/

/-- The neighbor whose session a label message or an address is from. -/
def LdeEvent.peer : LdeEvent → Option UInt32
  | .labelMappingFull peerid | .labelMapping peerid _ | .labelRequest peerid _
  | .labelRelease peerid _ | .labelWithdraw peerid _ | .labelAbort peerid _
  | .addressAdd peerid _ | .addressDel peerid _ => some peerid
  | _ => none

section Properties

variable {property : Ldpe → Prop} {ldpe ldpe' : Ldpe}

theorem property_ite {condition : Prop} [Decidable condition] {yes no : Ldpe}
    (taken : condition → property yes) (passed : property no) :
    property (if condition then yes else no) := by
  split
  · rename_i holds
    exact taken holds
  · exact passed

/-- A property that a function keeps holds in the state it returns in. -/
theorem returnedState_of_keeps {Event : Type} {code : Code Event Ldpe Unit}
    (keeps : Keeps property property code) (holds : property ldpe)
    (leads : returnedState code ldpe = some ldpe') : property ldpe' := by
  rw [returnedState] at leads
  split at leads
  · rename_i value _ outcome
    cases leads
    cases value with
    | some _ => exact keeps.returns holds outcome
    | none => exact keeps.givesUp holds outcome
  · cases leads

theorem keeps_labelRound (unwritten : Unwritten property) (type : UInt16) (locals : SendLocals) :
    Keeps property property (labelRound type locals) := by
  rw [labelRound]
  split
  · exact keeps_pure _
  · refine keeps_bind keeps_look fun ldpe => keeps_ite ?_ ?_
    · refine keeps_bind (keeps_change fun ldpe holds => ?_) fun _ => keeps_pure _
      exact unwritten _ _ (writes_enqueue ..) holds
    · refine keeps_bind (keeps_change fun ldpe holds => ?_) fun _ => ?_
      · exact unwritten _ _ ⟨_, _, _, rfl⟩ holds
      · exact keeps_ite (triple_giveUp fun _ holds => holds)
          (keeps_bind (keeps_log _) fun _ => keeps_pure _)

/-- What `send_labelmessage` does besides writing to the peer is to tell the state machine. -/
theorem keeps_sendLabelmessage (unwritten : Unwritten property)
    (pduSent : ∀ ldpe, property ldpe → property (nbrFsm ldpe .pduSent)) (fuel : Nat) (type : UInt16)
    (mh : List MappingEntry) : Keeps property property (sendLabelmessage fuel type mh) := by
  rw [sendLabelmessage]
  refine keeps_ite (keeps_pure _) (Triple.returned ?_)
  refine keeps_bind (keeps_loop (keeps_labelRound unwritten type) _ _) fun pdu => ?_
  refine keeps_change fun ldpe holds => pduSent _ ?_
  cases pdu with
  | none => exact holds
  | some pdu => exact unwritten _ _ (writes_enqueue ..) holds

/-- A read keeps what the rules for sessions say. -/
theorem SessionRules.nbrInput_read (rules : SessionRules property) (holds : property ldpe) {fuel : Nat}
    {result : ReadResult} (leads : nbrInput ldpe (.read fuel result) = some ldpe') : property ldpe' := by
  rw [nbrInput] at leads
  split at leads
  · exact returnedState_of_keeps (rules.keeps_sessionRead fuel result) holds leads
  · cases leads
    exact holds

/-! ### Reading from the connection -/

/-- A property that what is written to the peer does not touch, and that the events keep which come
with every PDU and with every error. -/
structure MachineRules (property : Ldpe → Prop) : Prop where
  unwritten : Unwritten property
  quiet : ∀ ldpe event, event ∈ [NbrEvent.closeSession, .pduRcvd, .pduSent] → property ldpe →
    property (nbrFsm ldpe event)

theorem sendNotificationNbr_state (ldpe : Ldpe) (statusCode msgId : UInt32) (msgType : UInt16) :
    (sendNotificationNbr ldpe statusCode msgId msgType).nbr.state = ldpe.nbr.state := by
  have writes := writes_sendNotificationFull ldpe { statusCode, msgId, msgType }
  obtain ⟨_, _, sent⟩ := nbrFsm_pduSent (sendNotificationFull ldpe { statusCode, msgId, msgType })
  rw [sendNotificationNbr, sent, Ldpe.updateNbr, writes.nbr]

theorem MachineRules.sendNotificationNbr (rules : MachineRules property) (holds : property ldpe)
    (statusCode msgId : UInt32) (msgType : UInt16) :
    property (sendNotificationNbr ldpe statusCode msgId msgType) :=
  rules.quiet _ _ (by decide) (rules.unwritten _ _ (writes_sendNotificationFull ..) holds)

theorem MachineRules.sessionShutdown (rules : MachineRules property) (holds : property ldpe)
    (status msgId : UInt32) (msgType : UInt16) :
    property (sessionShutdown ldpe status msgId msgType) := by
  rw [Ldpd.sessionShutdown]
  split
  · exact holds
  · exact rules.quiet _ _ (by decide) (rules.sendNotificationNbr holds status msgId msgType)

theorem MachineRules.replies (rules : MachineRules property) : Replies property property where
  weaker _ holds := holds
  notify _ _ _ holds := rules.sendNotificationNbr holds ..
  shutdown _ _ _ holds := rules.sessionShutdown holds ..

/-- The notifications that follow a message leave a session operational. -/
theorem MachineRules.replies_oper (rules : MachineRules property) :
    Replies (fun ldpe => property ldpe ∧ ldpe.nbr.state = .oper) property where
  weaker _ both := both.1
  notify ldpe status msg both := by
    refine ⟨rules.sendNotificationNbr both.1 .., ?_⟩
    rw [say, sendNotificationNbr_state]
    exact both.2
  shutdown _ _ _ both := rules.sessionShutdown both.1 ..

theorem labelImsg_peer (type : UInt16) (peerid : UInt32) (map : Map) :
    (labelImsg type peerid map).peer = some peerid := by
  rw [labelImsg]
  split
  · rfl
  split
  · rfl
  split
  · rfl
  split
  · rfl
  · rfl

/-- Label messages and addresses are welcome in an operational session only. -/
theorem oper_of_messageAllowed {state : NbrState} {type : UInt16}
    (allowed : messageAllowed state type = true)
    (kind : type = msgTypeAddr ∨ type = msgTypeAddrwithdraw ∨ type ∈ labelTypes) : state = .oper := by
  have listed : type ∈ [msgTypeAddr, msgTypeAddrwithdraw, msgTypeLabelmapping, msgTypeLabelrequest,
      msgTypeLabelwithdraw, msgTypeLabelrelease, msgTypeLabelabortreq] := by
    rcases kind with same | same | member
    · simp [same]
    · simp [same]
    · exact List.mem_cons_of_mem _ (List.mem_cons_of_mem _ member)
  have other : type ≠ msgTypeInit ∧ type ≠ msgTypeKeepalive := by
    constructor
    · rintro rfl
      exact absurd listed (by decide)
    · rintro rfl
      exact absurd listed (by decide)
  rw [messageAllowed, if_neg other.1, if_neg other.2, if_pos listed] at allowed
  exact of_decide_eq_true allowed

/-- What is left to show when the errors are taken care of: what the messages are for. -/
theorem MachineRules.sessionRules (rules : MachineRules property)
    (delayed : ∀ ldpe, property ldpe → ldpe.nbr.state = .opensent →
      property (nbrFsm (nbrStartIdtimer ldpe) .closeSession))
    (notified : ∀ ldpe nm, property ldpe →
      property (ldpe.composeLde (.notification ldpe.nbr.peerid nm)))
    (init : ∀ ldpe sess, minKeepalive ≤ sess.keepaliveTime → property ldpe →
      property (finishInit ldpe sess))
    (keepalive : ∀ ldpe, property ldpe → property (nbrFsm ldpe .keepaliveRcvd))
    (told : ∀ ldpe imsg, ldpe.nbr.state = .oper → imsg.peer = some ldpe.nbr.peerid →
      property ldpe → property (ldpe.composeLde imsg))
    (setRbuf : ∀ ldpe rbuf, property ldpe → ldpe.nbr.tcp ≠ none → property (ldpe.setRbuf rbuf)) :
    SessionRules property where
  replies := rules.replies
  pduRcvd _ holds := rules.quiet _ _ (by decide) holds
  closeSession _ holds := rules.quiet _ _ (by decide) holds
  setRbuf := setRbuf
  message := by
    intro fuel msg buf size ldpe holds allowed
    have finish (msg : LdpMsg) (nm : NotifyMsg) (ldpe : Ldpe) (holds : property ldpe) :
        Leaves (fun _ => property) property (finishNotification msg nm ldpe) := by
      rw [finishNotification]
      split
      · exact rules.sendNotificationNbr holds ..
      split
      · exact rules.sendNotificationNbr holds ..
      split
      · split
        · rename_i waiting
          exact delayed ldpe holds waiting
        · exact rules.quiet _ _ (by decide) holds
      split
      · exact notified ldpe nm holds
      · exact holds
    -- what is for the label decision engine comes in an operational session
    have operational {parser : Parser Unit}
        (kind : msg.type = msgTypeAddr ∨ msg.type = msgTypeAddrwithdraw ∨ msg.type ∈ labelTypes)
        (keeps : Keeps (fun ldpe => property ldpe ∧ ldpe.nbr.state = .oper) property parser) :
        Triple (· = ldpe) (fun _ => property) property parser :=
      keeps.weaken (fun after same => same ▸ ⟨holds, oper_of_messageAllowed allowed kind⟩)
        fun _ _ both => both.1
    have always {parser : Parser Unit} (keeps : Keeps property property parser) :
        Triple (· = ldpe) (fun _ => property) property parser :=
      keeps.weaken (fun after same => same ▸ holds) fun _ _ kept => kept
    rw [recvMessage]
    refine triple_ite (fun _ => always (rules.replies.keeps_recvNotification _ _ _ finish)) fun _ => ?_
    refine triple_ite (fun _ => always (rules.replies.keeps_recvInit _ _ _ init)) fun _ => ?_
    refine triple_ite (fun _ => always (rules.replies.triple_recvKeepalive _ _ ?_)) fun _ => ?_
    · intro ldpe holds
      rw [finishKeepalive]
      exact property_ite (fun _ => holds) (keepalive ldpe holds)
    refine triple_ite (fun kind => operational (kind.imp_right .inl) ?_) fun _ => ?_
    · refine rules.replies_oper.keeps_recvAddress _ _ _ fun ldpe msg addr both => ?_
      exact ⟨told ldpe _ both.2 (by split <;> rfl) both.1, both.2⟩
    refine triple_ite (fun kind => operational (.inr (.inr kind)) ?_) fun _ => ?_
    · refine rules.replies_oper.keeps_recvLabelmessage _ _ _ _ fun ldpe map both => ?_
      exact ⟨told ldpe _ both.2 (labelImsg_peer ..) both.1, both.2⟩
    exact always (keeps_ite (rules.replies.keeps_notify _ _) (keeps_pure _))

/-! ### Sending addresses -/

/-- A message to the peer with addresses, and the state machine told. -/
theorem property_sendAddress (unwritten : Unwritten property)
    (pduSent : ∀ ldpe, property ldpe → property (nbrFsm ldpe .pduSent)) (holds : property ldpe)
    (af : Af) (addrs : List LdpdAddr) (withdraw : Bool) :
    property (sendAddress ldpe af addrs withdraw) := by
  rw [sendAddress]
  split
  · exact holds
  · rw [nbrFsmPduSent_eq]
    exact pduSent _ (unwritten _ _ (writes_sendAddressRounds ..) holds)

/-! ### Handlers -/

/-- A handler that takes up a connection, if the neighbor has none. -/
def NbrInput.connects : NbrInput → Bool
  | .accept admitted => admitted
  | .connectUp => true
  | .idtimer connected => connected
  | _ => false

/-- A handler keeps what reading and every error keep and what does not depend on the connection and
on timers, but for one that may hold it back. The events that take up a connection are apart. -/
theorem property_nbrInput (reading : SessionRules property) (rules : MachineRules property)
    (timers : ∀ ldpe tcp keepaliveTimer keepaliveTimeout initTimeout initdelayTimer,
      (initdelayTimer = true → ldpe.nbr.initdelayTimer = true) → property ldpe →
        property (ldpe.updateNbr fun nbr =>
          { nbr with tcp, keepaliveTimer, keepaliveTimeout, initTimeout, initdelayTimer }))
    {input : NbrInput}
    (connected : input.connects → ∀ ldpe event, event = .matchAdj ∨ event = .connectUp →
      property ldpe → property (nbrFsm ldpe event))
    (holds : property ldpe) (leads : nbrInput ldpe input = some ldpe') : property ldpe' := by
  have closed (ldpe : Ldpe) (holds : property ldpe) : property (nbrFsm ldpe .closeSession) :=
    rules.quiet ldpe _ (by decide) holds
  have stopped (ldpe : Ldpe) (holds : property ldpe) :
      property (ldpe.updateNbr fun nbr => { nbr with initdelayTimer := false }) :=
    timers ldpe _ _ _ _ false (fun wrong => absurd wrong Bool.false_ne_true) holds
  cases input with
  | read fuel result => exact reading.nbrInput_read holds leads
  | accept admitted =>
    cases leads
    refine property_ite (fun taken => ?_) holds
    exact connected taken.2 _ _ (.inl rfl) (timers _ _ _ _ _ _ id holds)
  | connectUp =>
    cases leads
    exact connected rfl _ _ (.inr rfl) holds
  | writeError =>
    cases leads
    exact property_ite (fun _ => closed _ holds) holds
  | ktimer =>
    cases leads
    refine property_ite (fun _ => timers _ _ _ _ _ _ id ?_) holds
    exact rules.unwritten _ _ (writes_sendKeepalive _) (timers _ _ _ _ _ _ id holds)
  | ktimeout =>
    cases leads
    exact property_ite (fun _ => rules.sessionShutdown (timers _ _ _ _ _ _ id holds) ..) holds
  | itimeout =>
    cases leads
    exact property_ite (fun _ => closed _ (timers _ _ _ _ _ _ id holds)) holds
  | idtimer isConnected =>
    cases leads
    refine property_ite (fun _ => property_ite (fun taken => connected taken _ _ (.inr rfl) ?_) ?_) holds
    · exact stopped _ holds
    · exact stopped _ holds
  | stopIdtimer =>
    cases leads
    exact stopped _ holds
  | shutdown status msgId msgType =>
    cases leads
    exact rules.sessionShutdown holds ..
  | address addr withdraw =>
    cases leads
    refine property_ite (fun _ => ?_) holds
    exact property_sendAddress rules.unwritten (fun ldpe holds => rules.quiet ldpe _ (by decide) holds) holds ..

end Properties

end Ldpd
