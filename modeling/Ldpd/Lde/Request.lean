/-
This file compares what the label decision engine answers to a Label Request with what it
advertises on its own: an answer should be the unsolicited mapping with the id of the
request added to it.
-/

import Ldpd.Lde.Records

namespace Ldpd

/-! ### Answers -/

/-- A request for a route of a family that is enabled, or for a pseudowire with its id. -/
def Map.requests (map : Map) (ln : LdeNbr) : Bool :=
  match map.fec with
  | .wildcard => false
  | .network (.v4 _) _ => ln.v4Enabled
  | .network (.v6 _) _ => ln.v6Enabled
  | .pwid .. => map.flags.pwId

/-- A mapping with the id of a request and the flag for it. -/
def Map.answering (map : Map) (msgId : UInt32) : Map :=
  { map with requestid := msgId, flags := { map.flags with reqId := true } }

/-- Between two states these messages have been sent. -/
def Sent (lde lde' : Lde) (imsgs : List LdpeImsg) : Prop :=
  lde'.toLdpe = lde.toLdpe ++ imsgs

/-- What `lde_send_labelmapping` sends of a FEC when no request waits for it. -/
def Unsolicited (lde : Lde) (peerid : UInt32) (fec : Fec) (map : Map) : Prop :=
  Sent lde (ldeSendLabelmapping (lde.updateNbr peerid (LdeNbr.unrequest fec)) peerid fec true)
    [.mappingAdd peerid map, .mappingAddEnd peerid]

/-- The neighbor owns a nexthop of a route. -/
def Lde.Loops (lde : Lde) (ln : LdeNbr) (fec : Fec) : Prop :=
  fec.af ≠ none ∧ ∃ fnh ∈ lde.nexthops fec, ldeAddressFind ln fnh.nexthop = true

/-- The notification of a status that answers a request. -/
def refusal (statusCode : UInt32) (map : Map) : NotifyMsg where
  statusCode := statusCode
  msgId := map.msgId
  msgType := msgTypeLabelrequest

/-- The one answer to a request for a FEC: No Route, Loop Detected, or the unsolicited mapping with the
id of the request. -/
inductive Answer (lde : Lde) (peerid : UInt32) (ln : LdeNbr) (map : Map) (fec : Fec) :
    List LdpeImsg → Prop
  | noRoute (empty : lde.nexthops fec = []) :
      Answer lde peerid ln map fec [.notificationSend peerid (refusal sNoRoute map)]
  | loopDetected (some : lde.nexthops fec ≠ []) (loops : lde.Loops ln fec) :
      Answer lde peerid ln map fec [.notificationSend peerid (refusal sLoopDetected map)]
  | mapping (some : lde.nexthops fec ≠ []) (clear : ¬lde.Loops ln fec) {unsolicited : Map}
      (sends : Unsolicited lde peerid fec unsolicited) :
      Answer lde peerid ln map fec
        [.mappingAdd peerid (unsolicited.answering map.msgId), .mappingAddEnd peerid]

/-- `lde_check_request` sends exactly one answer. -/
def RequestAnswered (lde : Lde) (peerid : UInt32) (ln : LdeNbr) (map : Map) : Prop :=
  ∃ imsgs, Answer lde peerid ln map (ldeMap2fec map ln.id) imsgs ∧
    Sent lde (ldeCheckRequest lde map peerid) imsgs

/-- The neighbor waits for no answer. -/
def Lde.NonePending (lde : Lde) (peerid : UInt32) : Prop :=
  ∀ ln, lde.ldeNbrs[peerid]? = some ln → ∀ fec, fec ∉ ln.recvReq

/-! ### What is sent -/

/-- What `lde_send_labelmapping` makes of a mapping when it looks for a pending request. -/
def Map.withPending (map : Map) : Option UInt32 → Map
  | some msgId => { map with requestid := msgId, flags := { reqId := true } }
  | none => map

section Sending

variable {lde : Lde} {peerid : UInt32} {ln : LdeNbr} {fec : Fec} {fn : FecNode}

theorem toLdpe_recordSent (lde : Lde) (peerid : UInt32) (ln : LdeNbr) (fec : Fec) (map : Map) :
    (recordSent lde peerid ln fec map).toLdpe = lde.toLdpe := by
  rw [recordSent]
  split
  · rfl
  · rfl

theorem recvReq_recordSent (lde : Lde) (peerid : UInt32) (known : LdeNbr) (fec : Fec) (map : Map)
    {ln' : LdeNbr} (found : (recordSent lde peerid known fec map).ldeNbrs[peerid]? = some ln') :
    ∃ ln, lde.ldeNbrs[peerid]? = some ln ∧ ln'.recvReq = ln.recvReq := by
  rw [recordSent] at found
  split at found
  all_goals
    obtain ⟨ln, present, changed⟩ := getElem?_updateNbr_of _ _ _ found
    rw [if_pos rfl] at changed
    exact ⟨ln, present, changed ▸ rfl⟩

/-- A mapping is sent to a neighbor that is a peer for its FEC, with the id of the request that waits. -/
theorem sent_ldeSendLabelmapping (nbr : lde.ldeNbrs[peerid]? = some ln) (node : lde.ft[fec]? = some fn)
    (peer : labelPeer lde ln fn fec = true) :
    Sent lde (ldeSendLabelmapping lde peerid fec true)
      [.mappingAdd peerid ((composeLabelmapping lde fec fn).withPending ln.recvReq[fec]?),
        .mappingAddEnd peerid] := by
  rw [Sent, ldeSendLabelmapping, nbr, node]
  simp only [peer, if_true, toLdpe_recordSent]
  exact List.append_assoc _ _ _

/-- No request for the FEC is left when a mapping has been sent. -/
theorem recvReq_ldeSendLabelmapping (nbr : lde.ldeNbrs[peerid]? = some ln)
    (node : lde.ft[fec]? = some fn) (peer : labelPeer lde ln fn fec = true) {ln' : LdeNbr}
    (found : (ldeSendLabelmapping lde peerid fec true).ldeNbrs[peerid]? = some ln') :
    ln'.recvReq = ln.recvReq.erase fec := by
  rw [ldeSendLabelmapping, nbr, node] at found
  simp only [peer, if_true] at found
  obtain ⟨sender, present, same⟩ := recvReq_recordSent _ _ _ _ _ found
  obtain ⟨before, known, changed⟩ := getElem?_updateNbr_of lde peerid _ present
  rw [if_pos rfl] at changed
  cases nbr.symm.trans known
  rw [same, changed]

theorem ldeSendLabelmapping_other (nbr : lde.ldeNbrs[peerid]? = some ln)
    (node : lde.ft[fec]? = some fn) (other : labelPeer lde ln fn fec = false) :
    ldeSendLabelmapping lde peerid fec true = lde := by
  rw [ldeSendLabelmapping, nbr, node]
  simp only [other, Bool.false_eq_true, if_false]

/-- The unsolicited mapping is what `lde_send_labelmapping` composes. -/
theorem unsolicited_iff (nbr : lde.ldeNbrs[peerid]? = some ln) (node : lde.ft[fec]? = some fn)
    (map : Map) : Unsolicited lde peerid fec map ↔
      labelPeer lde ln fn fec = true ∧ map = composeLabelmapping lde fec fn := by
  have cleared := getElem?_updateNbr_self nbr (LdeNbr.unrequest fec)
  have none : (ln.unrequest fec).recvReq[fec]? = none := Std.ExtTreeMap.getElem?_erase_self
  cases peer : labelPeer lde ln fn fec with
  | true =>
    have sent := sent_ldeSendLabelmapping cleared node peer
    have composed : (composeLabelmapping lde fec fn).withPending (ln.unrequest fec).recvReq[fec]? =
        composeLabelmapping lde fec fn := by
      rw [none]
      rfl
    have answer := congrArg (LdpeImsg.mappingAdd peerid) composed
    rw [Unsolicited, Sent, sent]
    show lde.toLdpe ++ _ = _ ↔ _
    rw [List.append_cancel_left_eq]
    simp only [List.cons.injEq, LdpeImsg.mappingAdd.injEq, true_and, and_true]
    exact ⟨fun same => same.symm.trans composed, fun same => composed.trans same.symm⟩
  | false =>
    rw [Unsolicited, ldeSendLabelmapping_other cleared node peer]
    simp [Sent, Lde.updateNbr]

end Sending

/-! ### Answers to requests -/

section Answering

variable {lde : Lde} {peerid : UInt32} {ln : LdeNbr} {map : Map}

theorem loops_iff (lde : Lde) (ln : LdeNbr) (fec : Fec) (family : fec.af ≠ none) :
    lde.Loops ln fec ↔ ((lde.nexthops fec).any fun fnh => ldeAddressFind ln fnh.nexthop) = true := by
  rw [Lde.Loops, List.any_eq_true]
  exact and_iff_right family

/-- The four ways through `lde_check_request`. -/
theorem ldeCheckRequest_cases (nbr : lde.ldeNbrs[peerid]? = some ln) {fec : Fec}
    (requested : ldeMap2fec map ln.id = fec) :
    (lde.nexthops fec = [] ∧ ldeCheckRequest lde map peerid =
      lde.composeLdpe (.notificationSend peerid (refusal sNoRoute map))) ∨
    (lde.nexthops fec ≠ [] ∧ lde.Loops ln fec ∧ ldeCheckRequest lde map peerid =
      lde.composeLdpe (.notificationSend peerid (refusal sLoopDetected map))) ∨
    (lde.nexthops fec ≠ [] ∧ ¬lde.Loops ln fec ∧ fec ∈ ln.recvReq ∧
      ldeCheckRequest lde map peerid = lde) ∨
    (lde.nexthops fec ≠ [] ∧ ¬lde.Loops ln fec ∧ fec ∉ ln.recvReq ∧ ldeCheckRequest lde map peerid =
      ldeSendLabelmapping (lde.updateNbr peerid (LdeNbr.request fec map.msgId)) peerid fec true) := by
  rw [ldeCheckRequest, nbr]
  dsimp only
  rw [requested]
  clear requested
  have loops := loops_iff lde ln fec
  cases fec with
  | pwid type pwid lsrId =>
    have clear : ¬lde.Loops ln (.pwid type pwid lsrId) := fun loops => loops.1 rfl
    rw [if_neg Bool.false_ne_true]
    split_ifs with empty pending
    · exact Or.inl ⟨empty, rfl⟩
    · exact Or.inr (Or.inr (Or.inl ⟨empty, clear, pending, rfl⟩))
    · exact Or.inr (Or.inr (Or.inr ⟨empty, clear, pending, rfl⟩))
  | ipv4 addr prefixlen | ipv6 addr prefixlen =>
    have loops := loops (Option.some_ne_none _)
    split_ifs with empty looping pending
    · exact Or.inl ⟨empty, rfl⟩
    · exact Or.inr (Or.inl ⟨empty, loops.mpr looping, rfl⟩)
    · exact Or.inr (Or.inr (Or.inl ⟨empty, mt loops.mp looping, pending, rfl⟩))
    · exact Or.inr (Or.inr (Or.inr ⟨empty, mt loops.mp looping, pending, rfl⟩))

/-- Nobody else waits once an answer has been sent. -/
theorem nonePending_iff (nbr : lde.ldeNbrs[peerid]? = some ln) :
    lde.NonePending peerid ↔ ∀ fec, fec ∉ ln.recvReq := by
  refine ⟨fun pending => pending ln nbr, fun pending ln' found => ?_⟩
  cases nbr.symm.trans found
  exact pending

theorem node_of_nexthops {fec : Fec} (filled : lde.nexthops fec ≠ []) :
    ∃ fn, lde.ft[fec]? = some fn := by
  cases found : lde.ft[fec]? with
  | none =>
    rw [Lde.nexthops, found] at filled
    exact absurd rfl filled
  | some fn => exact ⟨fn, rfl⟩

/-- The answer to a request that has been recorded: the mapping with only the flag of the request. -/
theorem sent_requested (nbr : lde.ldeNbrs[peerid]? = some ln) {fec : Fec} {fn : FecNode}
    (node : lde.ft[fec]? = some fn) (msgId : UInt32) (peer : labelPeer lde ln fn fec = true) :
    Sent lde (ldeSendLabelmapping (lde.updateNbr peerid (LdeNbr.request fec msgId)) peerid fec true)
      [.mappingAdd peerid ((composeLabelmapping lde fec fn).withPending (some msgId)),
        .mappingAddEnd peerid] := by
  have recorded := getElem?_updateNbr_self nbr (LdeNbr.request fec msgId)
  have waiting : (ln.request fec msgId).recvReq[fec]? = some msgId :=
    Std.ExtTreeMap.getElem?_insert_self
  have sent := sent_ldeSendLabelmapping recorded node peer
  rw [waiting] at sent
  exact sent

/-- A request for a route of an enabled family is answered. -/
theorem requested_route (linked : lde.Linked) (nbr : lde.ldeNbrs[peerid]? = some ln) {fec : Fec}
    (requested : ldeMap2fec map ln.id = fec) (enabled : ln.enabled fec = true) :
    RequestAnswered lde peerid ln map := by
  rw [RequestAnswered, requested]
  obtain ⟨empty, after⟩ | ⟨filled, loops, after⟩ | ⟨-, -, pending, -⟩ | ⟨filled, clear, -, after⟩ :=
    ldeCheckRequest_cases nbr requested
  · exact ⟨_, .noRoute empty, congrArg Lde.toLdpe after⟩
  · exact ⟨_, .loopDetected filled loops, congrArg Lde.toLdpe after⟩
  · cases enabled.symm.trans (linked.answered peerid ln nbr fec pending)
  · obtain ⟨fn, node⟩ := node_of_nexthops filled
    have peer : labelPeer lde ln fn fec = true := by
      cases fec with
      | ipv4 | ipv6 => exact enabled
      | pwid => cases enabled
    have sends := (unsolicited_iff nbr node _).mpr ⟨peer, rfl⟩
    refine ⟨_, .mapping filled clear sends, ?_⟩
    rw [Sent, after, sent_requested nbr node map.msgId peer]
    cases fec with
    | ipv4 | ipv6 => rfl
    | pwid => cases enabled

theorem pwId_composeLabelmapping (lde : Lde) (type : UInt16) (pwid : UInt32) (lsrId : InAddr)
    (fn : FecNode) : (composeLabelmapping lde (.pwid type pwid lsrId) fn).flags.pwId = true := by
  unfold composeLabelmapping
  split
  · rename_i same _
    cases same
    rfl
  · rfl

/-- The answer for a pseudowire has lost the flags of the unsolicited mapping. -/
theorem requested_pwid (nbr : lde.ldeNbrs[peerid]? = some ln) {type : UInt16} {pwid : UInt32}
    {lsrId : InAddr} (requested : ldeMap2fec map ln.id = .pwid type pwid lsrId) :
    RequestAnswered lde peerid ln map ↔ lde.nexthops (.pwid type pwid lsrId) = [] := by
  rw [RequestAnswered, requested]
  obtain ⟨empty, after⟩ | ⟨-, loops, -⟩ | ⟨filled, clear, -, after⟩ | ⟨filled, clear, -, after⟩ :=
    ldeCheckRequest_cases nbr requested
  · exact iff_of_true ⟨_, .noRoute empty, congrArg Lde.toLdpe after⟩ empty
  · exact absurd rfl loops.1
  · refine iff_of_false ?_ filled
    rintro ⟨imsgs, answer, sent⟩
    rw [after, Sent, List.self_eq_append_right] at sent
    subst sent
    cases answer
  · refine iff_of_false ?_ filled
    rintro ⟨imsgs, answer, sent⟩
    obtain ⟨fn, node⟩ := node_of_nexthops filled
    cases answer with
    | noRoute empty => exact filled empty
    | loopDetected _ loops => exact clear loops
    | mapping _ _ sends =>
      obtain ⟨peer, rfl⟩ := (unsolicited_iff nbr node _).mp sends
      have answer := sent_requested nbr node map.msgId peer
      rw [Sent, after, answer, List.append_cancel_left_eq] at sent
      have same := congrArg Map.flags (LdpeImsg.mappingAdd.inj (List.cons.inj sent).1).2
      exact Bool.false_ne_true ((congrArg MapFlags.pwId same).trans
        (pwId_composeLabelmapping lde type pwid lsrId fn))

/-- No request is left behind by a request that is answered, if none waited before. -/
theorem nonePending_ldeCheckRequest (nbr : lde.ldeNbrs[peerid]? = some ln)
    (answered : RequestAnswered lde peerid ln map) :
    (ldeCheckRequest lde map peerid).NonePending peerid ↔ lde.NonePending peerid := by
  obtain ⟨imsgs, answer, sent⟩ := answered
  obtain ⟨-, after⟩ | ⟨-, -, after⟩ | ⟨-, -, -, after⟩ | ⟨filled, clear, fresh, after⟩ :=
    ldeCheckRequest_cases nbr (rfl : ldeMap2fec map ln.id = _)
  · rw [after]
    rfl
  · rw [after]
    rfl
  · rw [after]
  · obtain ⟨fn, node⟩ := node_of_nexthops filled
    cases answer with
    | noRoute empty => exact absurd empty filled
    | loopDetected _ loops => exact absurd loops clear
    | mapping _ _ sends =>
      have peer := ((unsolicited_iff nbr node _).mp sends).1
      have kept := (Touched.ldeCheckRequest lde map peerid).nbrsKept.mem peerid
      obtain ⟨ln', nbr'⟩ := (Tree.mem_iff_getElem? _ _).mp
        (kept.mpr ((Tree.mem_iff_getElem? _ _).mpr ⟨ln, nbr⟩))
      have recorded := getElem?_updateNbr_self nbr (LdeNbr.request (ldeMap2fec map ln.id) map.msgId)
      have erased := recvReq_ldeSendLabelmapping recorded node peer (after ▸ nbr')
      rw [nonePending_iff nbr, nonePending_iff nbr', erased]
      refine forall_congr' fun fec => not_congr ?_
      show fec ∈ (ln.recvReq.insert _ _).erase _ ↔ _
      rw [Std.ExtTreeMap.mem_erase, Std.ExtTreeMap.mem_insert]
      refine ⟨fun both => both.2.resolve_left both.1, fun pending => ⟨fun same => ?_, Or.inr pending⟩⟩
      exact fresh (Std.LawfulEqCmp.compare_eq_iff_eq.mp same ▸ pending)

/-- A request is for a route whose family is enabled, or for a pseudowire. -/
theorem Map.requests_cases (requests : map.requests ln = true) :
    ln.enabled (ldeMap2fec map ln.id) = true ∨
      ∃ type pwid, ldeMap2fec map ln.id = .pwid type pwid ln.id := by
  unfold Map.requests at requests
  unfold ldeMap2fec
  generalize map.fec = fec at requests ⊢
  cases fec with
  | wildcard => cases requests
  | network addr prefixlen =>
    cases addr with
    | v4 addr => exact Or.inl requests
    | v6 addr => exact Or.inl requests
  | pwid type pwid groupId ifmtu => exact Or.inr ⟨_, _, rfl⟩

theorem enabled_af {fec : Fec} (enabled : ln.enabled fec = true) : fec.af ≠ none := by
  cases fec with
  | ipv4 | ipv6 => exact Option.some_ne_none _
  | pwid => cases enabled

/-- In every run a request is answered as it should be if and only if it is for a route or for a
pseudowire without a nexthop, and it leaves no request behind if and only if none waited before. -/
theorem request_answered_iff (conf : LdeConf) (inputs : List LdeInput) {lde : Lde}
    (reached : inputs.foldl ldeInput (Lde.start conf) = lde) {peerid : UInt32} {ln : LdeNbr}
    (nbr : lde.ldeNbrs[peerid]? = some ln) {map : Map} (requests : map.requests ln = true) :
    (RequestAnswered lde peerid ln map ↔
      (ldeMap2fec map ln.id).af ≠ none ∨ lde.nexthops (ldeMap2fec map ln.id) = []) ∧
    (RequestAnswered lde peerid ln map ∧ (ldeCheckRequest lde map peerid).NonePending peerid ↔
      ((ldeMap2fec map ln.id).af ≠ none ∨ lde.nexthops (ldeMap2fec map ln.id) = []) ∧
        lde.NonePending peerid) := by
  have linked : lde.Linked := reached ▸ (consistent_of_run conf inputs).linked
  have answered : RequestAnswered lde peerid ln map ↔
      (ldeMap2fec map ln.id).af ≠ none ∨ lde.nexthops (ldeMap2fec map ln.id) = [] := by
    rcases map.requests_cases requests with enabled | ⟨type, pwid, requested⟩
    · exact iff_of_true (requested_route linked nbr rfl enabled) (Or.inl (enabled_af enabled))
    · rw [requested_pwid nbr requested, requested]
      exact ⟨Or.inr, fun either => either.resolve_left fun family => family rfl⟩
  refine ⟨answered, ?_⟩
  rw [← answered]
  exact and_congr_right fun answer => nonePending_ldeCheckRequest nbr answer

end Answering

/-! ### A request for a route and one for a pseudowire -/

theorem distantRoute_family : (LdpdAddr.v4 0x0a000003).af = (LdpdAddr.v4 0x0b000000).af := rfl

/-- The route to 11.0.0.0/8 over a router that is no neighbor. -/
def distantRoute : RouteMsg where
  addr := .v4 0x0b000000
  prefixlen := 8
  nexthop := .v4 0x0a000003
  priority := 8
  connected := false
  family := distantRoute_family

/-- An L2VPN with one pseudowire, to 10.0.0.2. -/
def servedWire : Xconf where
  ipv4ExpNull := false
  ipv6ExpNull := false
  l2vpnList := [{
    name := "red"
    pwType := 5
    mtu := 1500
    pwList := [{
      lsrId := 0x0a000002
      addr := .v4 0x0a000002
      pwid := 100
      ifindex := 7
      statustlv := true
      cword := false }] }]

/-- The route and the pseudowire are there when the neighbor 10.0.0.2 comes up. -/
def served : List LdeInput :=
  [.event (.networkAdd distantRoute), .reload servedWire, .event (.neighborUp 1 0x0a000002 true false)]

/-- A request for the route. -/
def routeRequest : Map where
  fec := .network (.v4 0x0b000000) 8
  msgId := 42

/-- A request for the pseudowire. -/
def wireRequest : Map where
  fec := .pwid 5 100 0 0
  msgId := 42
  flags := { pwId := true }

/-- The route is mapped to the neighbor with the id of its request. -/
theorem request_answered_route :
    ∃ ln, (served.foldl ldeInput (Lde.start {})).ldeNbrs[(1 : UInt32)]? = some ln ∧
      RequestAnswered (served.foldl ldeInput (Lde.start {})) 1 ln routeRequest := by
  obtain ⟨ln, nbr, requests⟩ := Option.map_eq_some_iff.mp (show
    (served.foldl ldeInput (Lde.start {})).ldeNbrs[(1 : UInt32)]?.map routeRequest.requests =
      some true by decide +kernel)
  exact ⟨ln, nbr, (request_answered_iff {} served rfl nbr requests).1.mpr
    (Or.inl (Option.some_ne_none _))⟩

/-- The answer for the pseudowire is a mapping without a pwid, an interface MTU and a status. -/
theorem request_wire_not_answered :
    ∃ ln, (served.foldl ldeInput (Lde.start {})).ldeNbrs[(1 : UInt32)]? = some ln ∧
      wireRequest.requests ln = true ∧ ¬RequestAnswered (served.foldl ldeInput (Lde.start {})) 1 ln wireRequest := by
  obtain ⟨ln, nbr, id⟩ := Option.map_eq_some_iff.mp (show
    (served.foldl ldeInput (Lde.start {})).ldeNbrs[(1 : UInt32)]?.map LdeNbr.id = some 0x0a000002 by
      decide +kernel)
  have requested : ldeMap2fec wireRequest ln.id = .pwid 5 100 0x0a000002 := by
    rw [id]
    rfl
  refine ⟨ln, nbr, rfl, fun answered => ?_⟩
  exact absurd ((requested_pwid nbr requested).mp answered) (by decide +kernel)

end Ldpd
