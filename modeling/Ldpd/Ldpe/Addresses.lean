/-
This file says what a peer makes of the Address and Address Withdraw messages of a
session, and when that is the addresses of the router: it keeps a set of addresses,
while the router keeps entries, which may have one address in common. The address of
an entry that goes is withdrawn, whether another entry still has it or not.
-/

import Ldpd.Ldpe.Interfaces

namespace Ldpd

/-! ### The peer -/

/-- What an address of a message does to the addresses that the peer knows. -/
def learnAddr (withdraw : Bool) (known : Finset LdpdAddr) (addr : LdpdAddr) : Finset LdpdAddr :=
  if withdraw then known.erase addr else insert addr known

/-- What a message does to them. -/
def AddressMsg.learn (known : Finset LdpdAddr) (msg : AddressMsg) : Finset LdpdAddr :=
  msg.addrs.foldl (learnAddr msg.withdraw) known

/-- The addresses that the peer knows after the messages of the session. -/
def AddrNbr.known (nbr : AddrNbr) : Finset LdpdAddr :=
  nbr.sent.foldl AddressMsg.learn ∅

theorem addressBatch_pos {maxPduLen : UInt16} {af : Af} {addrs : List LdpdAddr} (some' : addrs ≠ []) :
    0 < addressBatch maxPduLen af addrs := by
  have positive (count : Nat) : 0 < if count = 0 then addrs.length else count := by
    split
    · exact List.length_pos_of_ne_nil some'
    · rename_i nonzero
      exact Nat.pos_of_ne_zero nonzero
  exact positive _

/-- However the addresses are spread over messages, all of them arrive. -/
theorem learn_addressRounds (maxPduLen : UInt16) (af : Af) (withdraw : Bool) {rounds : Nat}
    {addrs : List LdpdAddr} (enough : addrs.length ≤ rounds) (known : Finset LdpdAddr) :
    (addressRounds maxPduLen af withdraw rounds addrs).foldl AddressMsg.learn known =
      addrs.foldl (learnAddr withdraw) known := by
  induction rounds generalizing addrs known with
  | zero =>
    rw [List.length_eq_zero_iff.mp (Nat.le_zero.mp enough)]
    rfl
  | succ rounds inductionHypothesis =>
    cases addrs with
    | nil => rfl
    | cons addr rest =>
      have positive : 0 < addressBatch maxPduLen af (addr :: rest) :=
        addressBatch_pos (List.cons_ne_nil addr rest)
      have fewer : ((addr :: rest).drop (addressBatch maxPduLen af (addr :: rest))).length ≤ rounds := by
        rw [List.length_drop]
        omega
      rw [addressRounds, List.foldl_cons, inductionHypothesis fewer, AddressMsg.learn,
        ← List.foldl_append, List.take_append_drop]

/-- What the peer knows after `send_address`. -/
theorem known_sendAddress (nbr : AddrNbr) (af : Af) (addrs : List LdpdAddr) (withdraw : Bool) :
    (nbr.sendAddress af addrs withdraw).known = addrs.foldl (learnAddr withdraw) nbr.known := by
  rw [AddrNbr.known, AddrNbr.sendAddress, List.foldl_append]
  exact learn_addressRounds _ _ _ le_rfl _

theorem mem_foldl_learnAddr {addrs : List LdpdAddr} {known : Finset LdpdAddr} {addr : LdpdAddr} :
    addr ∈ addrs.foldl (learnAddr false) known ↔ addr ∈ addrs ∨ addr ∈ known := by
  induction addrs generalizing known with
  | nil => exact (or_iff_right List.not_mem_nil).symm
  | cons first rest inductionHypothesis =>
    rw [List.foldl_cons, inductionHypothesis, learnAddr, if_neg Bool.false_ne_true, Finset.mem_insert,
      List.mem_cons, or_left_comm, or_assoc]

/-! ### Lists of entries -/

/-- An address occurs in an entry. -/
def Listed (addrList : List IfAddr) (addr : LdpdAddr) : Prop :=
  ∃ ifAddr ∈ addrList, ifAddr.addr = addr

/-- The entry that is found goes, and all others stay. -/
theorem listed_of_lookup {addrList : List IfAddr} {ka found : IfAddr}
    (lookup : ifAddrLookup addrList ka = some found) (addr : LdpdAddr) :
    Listed addrList addr ↔ addr = found.addr ∨ Listed (addrList.eraseP ka.matches) addr := by
  obtain ⟨same, before, after, rfl, others⟩ := List.find?_eq_some_iff_append.mp lookup
  have kept : (before ++ found :: after).eraseP ka.matches = before ++ after := by
    rw [List.eraseP_append_right _ fun ifAddr member => by simpa using others ifAddr member,
      List.eraseP_cons_of_pos same]
  rw [kept]
  simp only [Listed, List.mem_append, List.mem_cons]
  constructor
  · rintro ⟨ifAddr, first | rfl | last, rfl⟩
    · exact .inr ⟨ifAddr, .inl first, rfl⟩
    · exact .inl rfl
    · exact .inr ⟨ifAddr, .inr last, rfl⟩
  · rintro (rfl | ⟨ifAddr, first | last, rfl⟩)
    · exact ⟨found, .inr (.inl rfl), rfl⟩
    · exact ⟨ifAddr, .inl first, rfl⟩
    · exact ⟨ifAddr, .inr (.inr last), rfl⟩

/-! ### Who is informed -/

/-- The peer of an operational session knows the addresses of the families that are enabled. -/
def AddrNbr.Informed (addrList : List IfAddr) (nbr : AddrNbr) : Prop :=
  nbr.oper → ∀ addr : LdpdAddr, nbr.enabled addr.af → (addr ∈ nbr.known ↔ Listed addrList addr)

/-- All peers are. -/
def Discovery.Informed (state : Discovery) : Prop :=
  ∀ nbr ∈ state.nbrs, nbr.Informed state.addrList

/-- The session is told of an address. -/
def AddrNbr.listens (nbr : AddrNbr) (addr : LdpdAddr) : Prop :=
  nbr.oper ∧ nbr.enabled addr.af

instance (nbr : AddrNbr) (addr : LdpdAddr) : Decidable (nbr.listens addr) :=
  inferInstanceAs (Decidable (_ ∧ _))

/-- An entry that is deleted while a session is told of it is the only one with its address. -/
def Lone (state : Discovery) : DiscoveryInput → Prop
  | .deladdr ka => ∀ found, ifAddrLookup state.addrList ka.toIfAddr = some found →
    Listed (state.addrList.eraseP ka.matches) found.addr →
      ∀ nbr ∈ state.nbrs, ¬nbr.listens found.addr
  | _ => True

section Sessions

variable {state : Discovery} {nbr : AddrNbr} {addrList : List IfAddr}

theorem AddrNbr.tell_oper (ifAddr : IfAddr) (withdraw : Bool) :
    (nbr.tell ifAddr withdraw).oper = nbr.oper := by
  rw [AddrNbr.tell]
  split
  · rfl
  · rfl

theorem AddrNbr.tell_enabled (ifAddr : IfAddr) (withdraw : Bool) :
    (nbr.tell ifAddr withdraw).enabled = nbr.enabled := by
  rw [AddrNbr.tell]
  split
  · rfl
  · rfl

/-- What is told is learnt, by who listens. -/
theorem AddrNbr.mem_known_tell (ifAddr : IfAddr) (withdraw : Bool) (addr : LdpdAddr) :
    addr ∈ (nbr.tell ifAddr withdraw).known ↔
      if addr = ifAddr.addr ∧ nbr.listens ifAddr.addr then withdraw = false else addr ∈ nbr.known := by
  rw [AddrNbr.tell]
  by_cases listens : nbr.listens ifAddr.addr
  · rw [if_pos (show nbr.oper ∧ nbr.enabled ifAddr.addr.af from listens), known_sendAddress,
      List.foldl_cons, List.foldl_nil]
    by_cases same : addr = ifAddr.addr
    · rw [if_pos (And.intro same listens)]
      cases withdraw with
      | false => simp [learnAddr, same]
      | true => simp [learnAddr, same]
    · rw [if_neg (fun both : addr = ifAddr.addr ∧ nbr.listens ifAddr.addr => same both.1)]
      cases withdraw with
      | false => simp [learnAddr, same]
      | true => simp [learnAddr, same]
  · rw [if_neg (show ¬(nbr.oper ∧ nbr.enabled ifAddr.addr.af) from listens),
      if_neg fun both => listens both.2]

/-- A new entry. -/
theorem AddrNbr.Informed.add (informed : nbr.Informed addrList) (ifAddr : IfAddr) :
    (nbr.tell ifAddr false).Informed (ifAddr :: addrList) := by
  intro oper addr enabled
  rw [AddrNbr.tell_oper] at oper
  rw [AddrNbr.tell_enabled] at enabled
  have listed : Listed (ifAddr :: addrList) addr ↔ addr = ifAddr.addr ∨ Listed addrList addr :=
    (List.exists_mem_cons_iff ..).trans (or_congr_left eq_comm)
  rw [AddrNbr.mem_known_tell, listed]
  by_cases same : addr = ifAddr.addr
  · subst same
    rw [if_pos ⟨rfl, oper, enabled⟩]
    exact iff_of_true rfl (.inl rfl)
  · rw [if_neg fun both => same both.1, or_iff_right same]
    exact informed oper addr enabled

/-- An entry that goes. -/
theorem AddrNbr.Informed.del_iff (informed : nbr.Informed addrList) {ka found : IfAddr}
    (lookup : ifAddrLookup addrList ka = some found) :
    (nbr.tell found true).Informed (addrList.eraseP ka.matches) ↔
      (Listed (addrList.eraseP ka.matches) found.addr → ¬nbr.listens found.addr) := by
  constructor
  · intro informed' listed listens
    have oper : (nbr.tell found true).oper := (AddrNbr.tell_oper found true).trans listens.1
    have enabled : (nbr.tell found true).enabled = nbr.enabled := AddrNbr.tell_enabled found true
    have known := (informed' oper found.addr (enabled ▸ listens.2)).mpr listed
    rw [AddrNbr.mem_known_tell, if_pos ⟨rfl, listens⟩] at known
    cases known
  · intro lone oper addr enabled
    rw [AddrNbr.tell_oper] at oper
    rw [AddrNbr.tell_enabled] at enabled
    rw [AddrNbr.mem_known_tell]
    by_cases same : addr = found.addr
    · subst same
      rw [if_pos ⟨rfl, oper, enabled⟩]
      exact iff_of_false (by decide) fun listed => lone listed ⟨oper, enabled⟩
    · rw [if_neg fun both => same both.1, informed oper addr enabled, listed_of_lookup lookup,
        or_iff_right same]

/-- A session that comes up. -/
theorem Discovery.informed_sessionUp (state : Discovery) (proposed : UInt16) (nbr : AddrNbr) :
    (state.sessionUp proposed nbr).Informed state.addrList := by
  have all (nbr : AddrNbr) (enabled : Bool) (af : Af) (addr : LdpdAddr) :
      addr ∈ (if enabled then state.sendAddressAll nbr af else nbr).known ↔
        enabled ∧ addr.af = af ∧ Listed state.addrList addr ∨ addr ∈ nbr.known := by
    cases enabled with
    | false => simp
    | true =>
      rw [if_pos rfl, Discovery.sendAddressAll, known_sendAddress, mem_foldl_learnAddr,
        List.mem_reverse, List.mem_map]
      refine or_congr_left ?_
      simp only [true_and, List.mem_filter, decide_eq_true_eq, Listed]
      constructor
      · rintro ⟨ifAddr, ⟨member, rfl⟩, rfl⟩
        exact ⟨rfl, ifAddr, member, rfl⟩
      · rintro ⟨rfl, ifAddr, member, rfl⟩
        exact ⟨ifAddr, ⟨member, rfl⟩, rfl⟩
  have same (nbr : AddrNbr) (enabled : Bool) (af : Af) :
      (if enabled then state.sendAddressAll nbr af else nbr).enabled = nbr.enabled ∧
        (if enabled then state.sendAddressAll nbr af else nbr).v6Enabled = nbr.v6Enabled := by
    cases enabled with
    | false => exact ⟨rfl, rfl⟩
    | true => exact ⟨rfl, rfl⟩
  intro _ addr enabled
  rw [Discovery.sessionUp] at enabled ⊢
  simp only [(same _ _ _).1, (same _ _ _).2] at enabled ⊢
  have nothing (maxPduLen : UInt16) :
      addr ∉ { nbr with oper := true, maxPduLen, sent := [] }.known := Finset.notMem_empty addr
  rw [all, all, or_iff_left (nothing _)]
  cases family : addr.af with
  | inet =>
    rw [family] at enabled
    simp [show nbr.v4Enabled = true from enabled]
  | inet6 =>
    rw [family] at enabled
    simp [show nbr.v6Enabled = true from enabled]

end Sessions

/-! ### Runs -/

/-- Nothing changes that the sessions are told of. -/
structure Untold (before after : Discovery) : Prop where
  addrList : after.addrList = before.addrList
  nbrs : after.nbrs = before.nbrs

section Runs

variable {state state' : Discovery}

theorem Untold.trans {before between after : Discovery} (first : Untold before between)
    (second : Untold between after) : Untold before after where
  addrList := second.addrList.trans first.addrList
  nbrs := second.nbrs.trans first.nbrs

theorem Untold.informed_iff (untold : Untold state state') : state'.Informed ↔ state.Informed := by
  rw [Discovery.Informed, Discovery.Informed, untold.addrList, untold.nbrs]

theorem Untold.foldl {Item : Type} {step : Discovery → Item → Discovery}
    (each : ∀ state item, Untold state (step state item)) (items : List Item)
    (untold : Untold state state') : Untold state (items.foldl step state') := by
  induction items generalizing state' with
  | nil => exact untold
  | cons item rest inductionHypothesis => exact inductionHypothesis (untold.trans (each state' item))

theorem Untold.ite {condition : Prop} [Decidable condition] {first second : Discovery}
    (yes : Untold state first) (no : Untold state second) :
    Untold state (if condition then first else second) := by
  split
  · exact yes
  · exact no

theorem untold_mergeConfig (state : Discovery) (conf : DiscoveryConf) :
    Untold state (state.mergeConfig conf) := by
  have kept (state : Discovery) : Untold state state := ⟨rfl, rfl⟩
  have global : Untold state (state.mergeGlobal conf) := by
    refine .ite (kept state) ?_
    exact (Untold.ite ⟨rfl, rfl⟩ (kept state) : Untold state
      (if state.rtrId = 0 ∨ conf.rtrId = 0 then state.updateAllUnspec else state)).trans ⟨rfl, rfl⟩
  have family (state : Discovery) (af : Af) : Untold state (.mergeAf conf state af) :=
    (Untold.ite ⟨rfl, rfl⟩ (kept state) : Untold state (if state.thelloAccept af ∧ !conf.thelloAccept af
      then state.removeDynamicTnbrs af else state)).trans ⟨rfl, rfl⟩
  have ifaces (state : Discovery) : Untold state (state.mergeIfaces conf) := by
    refine .foldl (fun state xi => ?_) _ ⟨rfl, rfl⟩
    exact Untold.ite ⟨rfl, rfl⟩ ⟨rfl, rfl⟩
  have tnbrs (state : Discovery) : Untold state (state.mergeTnbrs conf) := by
    refine .foldl (fun state addr => ?_) _ ⟨rfl, rfl⟩
    rw [Discovery.mergeTnbr]
    split
    · exact ⟨rfl, rfl⟩
    · exact ⟨rfl, rfl⟩
  have pws (state : Discovery) : Untold state (conf.pws.foldl Discovery.pwCall state) := by
    refine .foldl (fun state call => ?_) _ ⟨rfl, rfl⟩
    cases call with
    | init addr =>
      rw [Discovery.pwCall, Discovery.pwInit]
      cases state.tnbrFind addr with
      | none => exact ⟨rfl, rfl⟩
      | some tnbr => exact ⟨rfl, rfl⟩
    | exit addr => exact ⟨rfl, rfl⟩
  exact global.trans ((family _ .inet).trans ((family _ .inet6).trans
    ((ifaces _).trans ((tnbrs _).trans (pws _)))))

theorem untold_targetedHello (state : Discovery) (src : LdpdAddr) (request : Bool) :
    Untold state (state.targetedHello src request) := by
  have dropped : Untold state (if request then state else state.updateTnbr src fun tnbr =>
      if tnbr.dynamic then Discovery.tnbrCheck { tnbr with dynamic := false } else some tnbr) :=
    .ite ⟨rfl, rfl⟩ ⟨rfl, rfl⟩
  refine dropped.trans ?_
  rw [Discovery.targetedHello]
  generalize (if request then state else _ : Discovery) = state'
  split
  · exact ⟨rfl, rfl⟩
  · exact .ite ⟨rfl, rfl⟩ ⟨rfl, rfl⟩

/-- One step leaves all peers informed if and only if it deletes no entry that shares its address. -/
theorem Discovery.Informed.step_iff (informed : state.Informed) (input : DiscoveryInput) :
    (discoveryStep state input).Informed ↔ Lone state input := by
  have quiet {state' : Discovery} (untold : Untold state state') : state'.Informed :=
    untold.informed_iff.mpr informed
  cases input with
  | ifstatus | closeSockets | setupSockets | targetedExpired =>
    exact iff_of_true (quiet ⟨rfl, rfl⟩) trivial
  | reload conf => exact iff_of_true (quiet (untold_mergeConfig state conf)) trivial
  | targetedHello src request => exact iff_of_true (quiet (untold_targetedHello state src request)) trivial
  | newaddr ka =>
    refine iff_of_true ?_ trivial
    rw [discoveryStep, Discovery.ifAddrAdd]
    cases ifAddrLookup state.addrList ka.toIfAddr with
    | some found => exact quiet ⟨rfl, rfl⟩
    | none => exact List.forall_mem_map.mpr fun nbr member => (informed nbr member).add ka.toIfAddr
  | deladdr ka =>
    have lookup' : ifAddrLookup (state.updateIface ka.ifindex (state.ifaceAddrDel ka.toIfAddr)).addrList
        ka.toIfAddr = ifAddrLookup state.addrList ka.toIfAddr := rfl
    rw [discoveryStep, Discovery.ifAddrDel, lookup']
    cases lookup : ifAddrLookup state.addrList ka.toIfAddr with
    | none =>
      refine iff_of_true (quiet ⟨rfl, rfl⟩) fun found other => ?_
      cases lookup.symm.trans other
    | some found =>
      refine List.forall_mem_map.trans ⟨fun told other known listed nbr member => ?_,
        fun lone nbr member => ?_⟩
      · cases lookup.symm.trans known
        exact ((informed nbr member).del_iff lookup).mp (told nbr member) listed
      · exact ((informed nbr member).del_iff lookup).mpr fun listed =>
          lone found lookup listed nbr member
  | nbrNew id v4Enabled v6Enabled =>
    refine iff_of_true ?_ trivial
    rw [discoveryStep, Discovery.nbrNew]
    split
    · exact informed
    · refine List.forall_mem_cons.mpr ⟨fun oper => ?_, informed⟩
      cases oper
  | nbrDel id =>
    refine iff_of_true (fun nbr member => informed nbr ?_) trivial
    exact (List.mem_filter.mp member).1
  | sessionUp id maxPduLen =>
    refine iff_of_true (List.forall_mem_map.mpr fun nbr member => ?_) trivial
    split
    · exact Discovery.informed_sessionUp state maxPduLen nbr
    · exact informed nbr member
  | sessionDown id =>
    refine iff_of_true (List.forall_mem_map.mpr fun nbr member => ?_) trivial
    split
    · intro oper
      cases oper
    · exact informed nbr member

end Runs

/-- In a run, the peers of all operational sessions know exactly the addresses of the router, of the
families that are enabled, after every step, if and only if no entry is deleted that shares its address
with another one, while a session is told of it. -/
theorem informed_iff_lone (inputs : List DiscoveryInput) :
    Run.Allowed discoveryStep (fun state input => (discoveryStep state input).Informed) {} inputs ↔
      Run.Allowed discoveryStep Lone {} inputs := by
  refine Run.allowed_congr Discovery.Informed (fun state input informed => informed.step_iff input)
    (fun state input _ informed => informed) fun nbr member => ?_
  cases member

/-- One of the addresses of an unnumbered link to another router. -/
def unnumbered (remote : InAddr) : Kaddr where
  addr := .v4 0x0a000001
  prefixlen := 32
  dstbrd := .v4 remote
  family := rfl
  ifindex := 1

/-- Two links with one address, of which one is taken down. -/
def unnumberedLinks : List DiscoveryInput :=
  [.newaddr (unnumbered 0x0a000002), .newaddr (unnumbered 0x0a000003), .nbrNew 0x0a000002 true false,
    .sessionUp 0x0a000002 0, .deladdr (unnumbered 0x0a000003)]

/-- The address is withdrawn that the other link still has. -/
theorem unnumberedLinks_withdrawn : ¬(unnumberedLinks.foldl discoveryStep {}).Informed := by
  intro informed
  have evaluated : ((unnumberedLinks.foldl discoveryStep {}).nbrs.map fun nbr =>
      (nbr.oper, nbr.v4Enabled, nbr.sent)) =
        [(true, true, [⟨false, [.v4 0x0a000001, .v4 0x0a000001]⟩, ⟨true, [.v4 0x0a000001]⟩])] := by
    decide +kernel
  have left : ((unnumberedLinks.foldl discoveryStep {}).addrList.map IfAddr.addr) =
      [.v4 0x0a000001] := by
    decide +kernel
  obtain ⟨nbr, nbrs, same⟩ := List.map_eq_singleton_iff.mp evaluated
  obtain ⟨ifAddr, addrList, addr⟩ := List.map_eq_singleton_iff.mp left
  obtain ⟨oper, enabled, sent⟩ : nbr.oper = true ∧ nbr.v4Enabled = true ∧ nbr.sent = _ := by
    simpa using same
  have listed : Listed (unnumberedLinks.foldl discoveryStep {}).addrList (.v4 0x0a000001) := by
    rw [addrList]
    exact ⟨ifAddr, List.mem_singleton_self ifAddr, addr⟩
  have known := (informed nbr (by rw [nbrs]; exact List.mem_singleton_self nbr) oper
    (.v4 0x0a000001) enabled).mpr listed
  rw [AddrNbr.known, sent] at known
  exact absurd known (by decide)

end Ldpd
