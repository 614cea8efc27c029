/-
This file is about the order in which routes, addresses and mappings arrive while the
network comes up. Each of the three handlers completes the join of the three pieces when
its own piece is the last one, so what the engine knows in the end depends on what has
arrived and not on the order: the records of the neighbors, the nexthops of the FECs and
the labels in use.
-/

import Ldpd.Lde.Peer
import Ldpd.Lde.Retention
import Ldpd.Lde.Routes

namespace Ldpd

/-! ### What arrives -/

/-- A route, an address of a neighbor, or the mapping of a route. -/
def LdeEvent.Arrives : LdeEvent → Prop
  | .networkAdd _ | .addressAdd .. => True
  | .labelMapping _ map => (ldeMap2fec map 0).af ≠ none
  | _ => False

/-- There are no routes, and the neighbors have sent no addresses and no mappings of routes. -/
structure Lde.Quiet (lde : Lde) : Prop where
  routes : ∀ fec, fec.af ≠ none → lde.nexthops fec = []
  addresses : ∀ (peerid : UInt32) (ln : LdeNbr), lde.ldeNbrs[peerid]? = some ln →
    ln.addrList = []
  mappings : ∀ (peerid : UInt32) (ln : LdeNbr), lde.ldeNbrs[peerid]? = some ln →
    ∀ fec : Fec, fec.af ≠ none → ln.recvMap[fec]? = none

/-- Events that go together: no address belongs to two neighbors, a FEC has one entry for a
nexthop address, and a neighbor maps a FEC to one label. -/
structure Compatible (events : Set LdeEvent) : Prop where
  arrives : ∀ event ∈ events, event.Arrives
  owner : ∀ peerid other addr, LdeEvent.addressAdd peerid addr ∈ events →
    LdeEvent.addressAdd other addr ∈ events → peerid = other
  entry : ∀ kr kr', LdeEvent.networkAdd kr ∈ events → LdeEvent.networkAdd kr' ∈ events →
    kr.fec = kr'.fec → kr.nexthop = kr'.nexthop → kr.priority = kr'.priority
  label : ∀ peerid map map', LdeEvent.labelMapping peerid map ∈ events →
    LdeEvent.labelMapping peerid map' ∈ events → ldeMap2fec map 0 = ldeMap2fec map' 0 →
      map.label = map'.label

theorem Compatible.mono {events more : Set LdeEvent} (compatible : Compatible more)
    (subset : events ⊆ more) : Compatible events where
  arrives event member := compatible.arrives event (subset member)
  owner peerid other addr first second :=
    compatible.owner peerid other addr (subset first) (subset second)
  entry kr kr' first second := compatible.entry kr kr' (subset first) (subset second)
  label peerid map map' first second :=
    compatible.label peerid map map' (subset first) (subset second)

/-! ### What the engine knows of the arrivals -/

/-- The record of a neighbor for a FEC. -/
def Bindings.record (b : Bindings) (peerid : UInt32) (fec : Fec) : Option Map :=
  (b.nbr peerid).bind fun ln => ln.recvMap[fec]?

/-- The bindings hold what has arrived, and otherwise what they held before. -/
structure Arrived (base : Bindings) (past : Set LdeEvent) (b : Bindings) : Prop where
  routes : ∀ fec, fec.af ≠ none → ∀ nexthop priority, b.Lists fec nexthop priority ↔
    ∃ kr, LdeEvent.networkAdd kr ∈ past ∧ kr.fec = fec ∧ kr.nexthop = nexthop ∧
      kr.priority = priority
  pseudowires : ∀ fec, fec.af = none → b.nexthops fec = base.nexthops fec
  neighbors : ∀ peerid, (b.nbr peerid).isSome = (base.nbr peerid).isSome
  addresses : ∀ peerid ln, b.nbr peerid = some ln → ∀ addr, addr ∈ ln.addrList ↔
    LdeEvent.addressAdd peerid addr ∈ past
  mapped : ∀ peerid fec, fec.af ≠ none → ∀ me, b.record peerid fec = some me →
    LdeEvent.labelMapping peerid me ∈ past ∧ ldeMap2fec me 0 = fec
  recorded : ∀ peerid map, LdeEvent.labelMapping peerid map ∈ past → (b.nbr peerid).isSome →
    (b.record peerid (ldeMap2fec map 0)).isSome
  others : ∀ peerid fec, fec.af = none → b.record peerid fec = base.record peerid fec

section Relabelled

variable (b : Bindings) (test : Fec → FecNh → Bool) (label : Fec → UInt32)

theorem Bindings.lists_relabel (fec : Fec) (nexthop : LdpdAddr) (priority : UInt8) :
    (b.relabel test label).Lists fec nexthop priority ↔ b.Lists fec nexthop priority := by
  constructor
  · rintro ⟨fnh, member, key⟩
    obtain ⟨origin, listed, rfl⟩ := List.mem_map.mp member
    rw [relabelIf_nexthop, relabelIf_priority] at key
    exact ⟨origin, listed, key⟩
  · rintro ⟨fnh, member, key⟩
    refine ⟨_, List.mem_map_of_mem member, ?_⟩
    rw [relabelIf_nexthop, relabelIf_priority]
    exact key

variable {test}

theorem Bindings.nexthops_relabel_of_false {fec : Fec}
    (passed : ∀ fnh, test fec fnh = false) :
    (b.relabel test label).nexthops fec = b.nexthops fec := by
  refine (List.map_congr_left fun fnh _ => ?_).trans (List.map_id _)
  rw [relabelIf, passed]
  rfl

end Relabelled

theorem Bindings.lists_learn (b : Bindings) (peerid : UInt32) (ln : NbrView) (fec : Fec) (map : Map)
    (other : Fec) (nexthop : LdpdAddr) (priority : UInt8) :
    (b.learn peerid ln fec map).Lists other nexthop priority ↔ b.Lists other nexthop priority :=
  Bindings.lists_relabel b (only fec (ln.owns fec)) (fun _ => map.label) other nexthop priority

theorem Bindings.nexthops_learn_of_ne (b : Bindings) (peerid : UInt32) (ln : NbrView) {fec : Fec}
    (map : Map) {other : Fec} (different : other ≠ fec) :
    (b.learn peerid ln fec map).nexthops other = b.nexthops other :=
  Bindings.nexthops_relabel_of_false b (fun _ => map.label) fun fnh => by
    rw [only, decide_eq_false different, Bool.false_and]

theorem Bindings.record_updateNbr_of_ne (b : Bindings) {peerid other : UInt32}
    (different : other ≠ peerid) (change : NbrView → NbrView) (fec : Fec) :
    (b.updateNbr peerid change).record other fec = b.record other fec := by
  rw [Bindings.record, Bindings.updateNbr_nbr_of_ne b different, Bindings.record]

theorem Bindings.isSome_updateNbr (b : Bindings) (peerid other : UInt32)
    (change : NbrView → NbrView) :
    ((b.updateNbr peerid change).nbr other).isSome = (b.nbr other).isSome := by
  by_cases same : other = peerid
  · subst same
    show (Function.update b.nbr other _ other).isSome = _
    rw [Function.update_self, Option.isSome_map]
  · rw [Bindings.updateNbr_nbr_of_ne b same]

theorem ldeMap2fec_of_af {map : Map} {lsrId lsrId' : InAddr}
    (family : (ldeMap2fec map lsrId).af ≠ none) : ldeMap2fec map lsrId' = ldeMap2fec map lsrId :=
  (ldeMap2fec_route map lsrId' lsrId family).mpr rfl

namespace Arrived

variable {base b : Bindings} {past : Set LdeEvent}

/-- A message from a neighbor that the engine does not know, or that tells it nothing new. -/
theorem unheard (arrived : Arrived base past b) {event : LdeEvent}
    (route : ∀ kr, event ≠ .networkAdd kr)
    (address : ∀ peerid ln addr, event = .addressAdd peerid addr → b.nbr peerid = some ln →
      addr ∈ ln.addrList)
    (mapping : ∀ peerid map, event = .labelMapping peerid map → b.nbr peerid = none) :
    Arrived base (insert event past) b where
  routes fec family nexthop priority := by
    refine (arrived.routes fec family nexthop priority).trans (exists_congr fun kr => ?_)
    rw [Set.mem_insert_iff, or_iff_right (route kr).symm]
  pseudowires := arrived.pseudowires
  neighbors := arrived.neighbors
  addresses peerid ln found addr := by
    rw [arrived.addresses peerid ln found, Set.mem_insert_iff]
    refine ⟨Or.inr, ?_⟩
    rintro (rfl | before)
    · exact (arrived.addresses peerid ln found addr).mp (address peerid ln addr rfl found)
    · exact before
  mapped peerid fec family me record := by
    obtain ⟨before, same⟩ := arrived.mapped peerid fec family me record
    exact ⟨Set.mem_insert_of_mem _ before, same⟩
  recorded peerid map told known := by
    rcases told with same | before
    · rw [mapping peerid map same.symm] at known
      exact absurd known (by simp)
    · exact arrived.recorded peerid map before known
  others := arrived.others

/-- A new address, with the labels it brings into use. -/
theorem address (arrived : Arrived base past b) {peerid : UInt32} {ln : NbrView}
    (found : b.nbr peerid = some ln) (addr : LdpdAddr) :
    Arrived base (insert (.addressAdd peerid addr) past)
      ((b.updateNbr peerid (NbrView.readdress (· ++ [addr]))).relabel
        (fun fec fnh => decide (fec ∈ ln.recvMap) && atAddress addr fec fnh)
        (ln.labelOf false)) := by
  have record (other : UInt32) (fec : Fec) :
      (b.updateNbr peerid (NbrView.readdress (· ++ [addr]))).record other fec =
        b.record other fec := by
    by_cases same : other = peerid
    · subst same
      rw [Bindings.record, Bindings.updateNbr_nbr_self found, Bindings.record, found]
      rfl
    · exact Bindings.record_updateNbr_of_ne b same _ fec
  constructor
  case routes =>
    intro fec family nexthop priority
    rw [Bindings.lists_relabel]
    refine (arrived.routes fec family nexthop priority).trans (exists_congr fun kr => ?_)
    rw [Set.mem_insert_iff, or_iff_right (by simp)]
  case pseudowires =>
    intro fec family
    rw [Bindings.nexthops_relabel_of_false _ _ fun fnh => by simp [atAddress, family]]
    exact arrived.pseudowires fec family
  case neighbors =>
    intro other
    exact (Bindings.isSome_updateNbr b peerid other _).trans (arrived.neighbors other)
  case addresses =>
    intro other view found' item
    rw [Set.mem_insert_iff, LdeEvent.addressAdd.injEq]
    rcases Bindings.nbr_updateNbr_cases (b := b) found' with
      ⟨rfl, origin, present, rfl⟩ | ⟨different, present⟩
    · show item ∈ origin.addrList ++ [addr] ↔ _
      rw [List.mem_append, List.mem_singleton, arrived.addresses other origin present]
      simp only [true_and]
      exact or_comm
    · rw [arrived.addresses other view present, or_iff_right fun both => different both.1]
  case mapped =>
    intro other fec family me known
    obtain ⟨before, same⟩ := arrived.mapped other fec family me ((record other fec).symm.trans known)
    exact ⟨Set.mem_insert_of_mem _ before, same⟩
  case recorded =>
    intro other map told known
    have before := told.resolve_left (by simp)
    have known' := (Bindings.isSome_updateNbr b peerid other _).symm.trans known
    exact (congrArg Option.isSome (record other _)).trans (arrived.recorded other map before known')
  case others =>
    intro other fec family
    exact (record other fec).trans (arrived.others other fec family)

/-- A mapping of a route, with the nexthops it is used at. -/
theorem mapping (arrived : Arrived base past b) {peerid : UInt32} {ln : NbrView}
    (found : b.nbr peerid = some ln) {map : Map} (family : (ldeMap2fec map ln.id).af ≠ none) :
    Arrived base (insert (.labelMapping peerid map) past)
      (b.learn peerid ln (ldeMap2fec map ln.id) map) := by
  have at' : ldeMap2fec map 0 = ldeMap2fec map ln.id := ldeMap2fec_of_af family
  have self (fec : Fec) : (b.learn peerid ln (ldeMap2fec map ln.id) map).record peerid fec =
      if fec = ldeMap2fec map ln.id then some map else b.record peerid fec := by
    have changed : (b.learn peerid ln (ldeMap2fec map ln.id) map).nbr peerid =
        some (ln.record (ldeMap2fec map ln.id) map) := Bindings.updateNbr_nbr_self found _
    rw [Bindings.record, changed, Bindings.record, found]
    split_ifs with same
    · rw [same]
      exact recvMap_record_self _ map ln
    · exact recvMap_record_of_ne same map ln
  have other {peer : UInt32} (different : peer ≠ peerid) (fec : Fec) :
      (b.learn peerid ln (ldeMap2fec map ln.id) map).record peer fec = b.record peer fec :=
    Bindings.record_updateNbr_of_ne (b.relabel _ _) different _ fec
  constructor
  case routes =>
    intro fec family' nexthop priority
    rw [Bindings.lists_learn]
    refine (arrived.routes fec family' nexthop priority).trans (exists_congr fun kr => ?_)
    rw [Set.mem_insert_iff, or_iff_right (by simp)]
  case pseudowires =>
    intro fec none
    have different : fec ≠ ldeMap2fec map ln.id := fun same => family (same ▸ none)
    rw [Bindings.nexthops_learn_of_ne b peerid ln map different]
    exact arrived.pseudowires fec none
  case neighbors =>
    intro peer
    exact (Bindings.isSome_updateNbr (b.relabel _ _) peerid peer _).trans (arrived.neighbors peer)
  case addresses =>
    intro peer view found' addr
    rw [Set.mem_insert_iff, or_iff_right (by simp)]
    rcases Bindings.nbr_updateNbr_cases (b := b.relabel _ _) found' with
      ⟨rfl, origin, present, rfl⟩ | ⟨different, present⟩
    · exact arrived.addresses peer origin present addr
    · exact arrived.addresses peer view present addr
  case mapped =>
    intro peer fec family' me known
    by_cases same : peer = peerid
    · subst same
      rw [self] at known
      split_ifs at known with own
      · rw [← Option.some_inj.mp known, own]
        exact ⟨Set.mem_insert _ _, at'⟩
      · obtain ⟨before, filed⟩ := arrived.mapped peer fec family' me known
        exact ⟨Set.mem_insert_of_mem _ before, filed⟩
    · rw [other same] at known
      obtain ⟨before, filed⟩ := arrived.mapped peer fec family' me known
      exact ⟨Set.mem_insert_of_mem _ before, filed⟩
  case recorded =>
    intro peer told' told known
    have known' := (Bindings.isSome_updateNbr (b.relabel _ _) peerid peer _).symm.trans known
    by_cases same : peer = peerid
    · subst same
      rw [self]
      split_ifs with own
      · rfl
      · refine arrived.recorded peer told' (told.resolve_left fun equal => own ?_) known'
        rw [(LdeEvent.labelMapping.inj equal).2]
        exact at'
    · rw [other same]
      refine arrived.recorded peer told' (told.resolve_left fun equal => same ?_) known'
      exact (LdeEvent.labelMapping.inj equal).1
  case others =>
    intro peer fec none
    by_cases same : peer = peerid
    · subst same
      have different : fec ≠ ldeMap2fec map ln.id := fun own => family (own ▸ none)
      rw [self, if_neg different]
      exact arrived.others peer fec none
    · rw [other same]
      exact arrived.others peer fec none

end Arrived

/-- A record that is learned again does not change. -/
theorem NbrView.record_self {ln : NbrView} {fec : Fec} {me : Map}
    (recorded : ln.recvMap[fec]? = some me) : ln.record fec me = ln := by
  rw [NbrView.record]
  congr 1
  refine Std.ExtTreeMap.ext_getElem? fun other => ?_
  rw [Tree.getElem?_insert]
  split_ifs with same
  · rw [← same]
    exact recorded.symm
  · rfl

theorem Bindings.Insert.nbr {b b' : Bindings} (filed : b.Filed) {fec : Fec} {nexthop : LdpdAddr}
    {priority : UInt8} {data : Option Nat} {label : UInt32}
    (inserted : b.Insert fec nexthop priority data label b') : b'.nbr = b.nbr := by
  cases inserted with
  | listed => rfl
  | unowned | unmapped | ignored => exact Bindings.addNexthop_nbr b ..
  | mapped fresh peerid ln me found owned recorded =>
    refine (funext fun other => ?_ : _ = (b.addNexthop fec nexthop priority data label).nbr).trans
      (Bindings.addNexthop_nbr b ..)
    have found' : (b.addNexthop fec nexthop priority data label).nbr peerid = some ln :=
      (congrFun (Bindings.addNexthop_nbr b ..) peerid).trans found
    by_cases same : other = peerid
    · subst same
      refine (Bindings.updateNbr_nbr_self (b := (b.addNexthop ..).relabel _ _) found' _).trans ?_
      rw [filed.recorded other ln fec me found recorded, NbrView.record_self recorded]
      exact found'.symm
    · exact Bindings.updateNbr_nbr_of_ne ((b.addNexthop ..).relabel _ _) same _

/-- An insertion leaves the nexthops of the other FECs alone. -/
theorem Bindings.Insert.nexthops {b b' : Bindings} (filed : b.Filed) {fec : Fec}
    {nexthop : LdpdAddr} {priority : UInt8} {data : Option Nat} {label : UInt32}
    (inserted : b.Insert fec nexthop priority data label b') {other : Fec} (different : other ≠ fec) :
    b'.nexthops other = b.nexthops other := by
  have added : (b.addNexthop fec nexthop priority data label).nexthops other = b.nexthops other := by
    rw [Bindings.addNexthop_nexthops, if_neg different]
  cases inserted with
  | listed => rfl
  | unowned | unmapped | ignored => exact added
  | mapped fresh peerid ln me found owned recorded =>
    rw [filed.recorded peerid ln fec me found recorded,
      Bindings.nexthops_learn_of_ne _ peerid ln me different]
    exact added

/-- After an insertion the nexthop is listed, and nothing else that was not. -/
theorem Bindings.Insert.lists {b b' : Bindings} {fec : Fec} {nexthop : LdpdAddr} {priority : UInt8}
    {data : Option Nat} {label : UInt32} (inserted : b.Insert fec nexthop priority data label b')
    (other : Fec) (nexthop' : LdpdAddr) (priority' : UInt8) :
    b'.Lists other nexthop' priority' ↔ b.Lists other nexthop' priority' ∨
      (fec = other ∧ nexthop = nexthop' ∧ priority = priority') := by
  have added : (b.addNexthop fec nexthop priority data label).Lists other nexthop' priority' ↔
      b.Lists other nexthop' priority' ∨
        (fec = other ∧ nexthop = nexthop' ∧ priority = priority') := by
    rw [Bindings.Lists, Bindings.addNexthop_nexthops]
    split_ifs with same
    · subst same
      rw [List.exists_mem_cons_iff]
      simp only [newNexthop, true_and]
      exact or_comm
    · rw [or_iff_left fun both => same both.1.symm]
      rfl
  cases inserted with
  | listed known =>
    refine (or_iff_left_of_imp ?_).symm
    rintro ⟨rfl, rfl, rfl⟩
    exact known
  | unowned | unmapped | ignored => exact added
  | mapped => exact (Bindings.lists_learn ..).trans added

/-- A route, with the label its neighbor may have sent before. -/
theorem Arrived.route {base b b' : Bindings} {past : Set LdeEvent} (arrived : Arrived base past b)
    (filed : b.Filed) {kr : RouteMsg} {label : UInt32}
    (inserted : b.Insert kr.fec kr.nexthop kr.priority none label b') :
    Arrived base (insert (.networkAdd kr) past) b' := by
  have nbr := inserted.nbr filed
  have record (peerid : UInt32) (fec : Fec) : b'.record peerid fec = b.record peerid fec := by
    rw [Bindings.record, nbr, Bindings.record]
  constructor
  case routes =>
    intro fec family nexthop priority
    rw [inserted.lists, arrived.routes fec family]
    simp only [Set.mem_insert_iff, LdeEvent.networkAdd.injEq, or_and_right, exists_or,
      exists_eq_left]
    exact or_comm
  case pseudowires =>
    intro fec none
    refine (inserted.nexthops filed fun same => ?_).trans (arrived.pseudowires fec none)
    rw [same, kr.fec_af] at none
    exact absurd none (by simp)
  case neighbors =>
    intro peerid
    rw [nbr]
    exact arrived.neighbors peerid
  case addresses =>
    intro peerid ln found addr
    rw [Set.mem_insert_iff, or_iff_right (by simp)]
    exact arrived.addresses peerid ln (nbr ▸ found) addr
  case mapped =>
    intro peerid fec family me known
    obtain ⟨before, same⟩ := arrived.mapped peerid fec family me ((record peerid fec).symm.trans known)
    exact ⟨Set.mem_insert_of_mem _ before, same⟩
  case recorded =>
    intro peerid map told known
    rw [record]
    exact arrived.recorded peerid map (told.resolve_left (by simp)) (nbr ▸ known)
  case others =>
    intro peerid fec none
    exact (record peerid fec).trans (arrived.others peerid fec none)

/-! ### Runs of arrivals -/

namespace Arrived

variable {base b b' : Bindings} {past : Set LdeEvent}

theorem ldeStep {lde : Lde} (arrived : Arrived base past lde.bindings)
    (wellFormed : lde.bindings.WellFormed) (onePriority : lde.bindings.OnePriority)
    (filed : lde.bindings.Filed) {event : LdeEvent} (arrives : event.Arrives) :
    Arrived base (insert event past) (ldeStep lde event).bindings := by
  cases event with
  | networkAdd kr =>
    exact arrived.route filed
      (insert_refines lde wellFormed _ _ _ kr.connected none (kr.insertable lde.bindings))
  | addressAdd peerid addr =>
    show Arrived base _ (ldeAddressAdd lde peerid addr).bindings
    cases found : lde.ldeNbrs[peerid]? with
    | none =>
      have unknown : lde.bindings.nbr peerid = none := congrArg (Option.map LdeNbr.view) found
      rw [ldeAddressAdd, found]
      refine arrived.unheard (by simp) (fun peer ln item same present => ?_) (by simp)
      rw [← (LdeEvent.addressAdd.inj same).1, unknown] at present
      exact absurd present (by simp)
    | some ln =>
      cases known : ldeAddressFind ln addr with
      | true =>
        have kept : ldeAddressAdd lde peerid addr = lde := by
          simp only [ldeAddressAdd, found, known, if_true]
        rw [kept]
        refine arrived.unheard (by simp) (fun peer view item same present => ?_) (by simp)
        obtain ⟨rfl, rfl⟩ := LdeEvent.addressAdd.inj same
        rw [bindings_nbr found, Option.some_inj] at present
        rw [← present]
        exact List.contains_iff_mem.mp known
      | false =>
        rw [bindings_ldeAddressAdd lde onePriority found known]
        exact arrived.address (bindings_nbr found) addr
  | labelMapping peerid map =>
    show Arrived base _ (ldeCheckMapping lde map peerid).bindings
    cases found : lde.ldeNbrs[peerid]? with
    | none =>
      rw [ldeCheckMapping, found]
      refine arrived.unheard (by simp) (by simp) fun peer told same => ?_
      rw [← (LdeEvent.labelMapping.inj same).1]
      exact congrArg (Option.map LdeNbr.view) found
    | some ln =>
      have family : (ldeMap2fec map ln.id).af ≠ none := by
        rw [ldeMap2fec_of_af arrives]
        exact arrives
      rw [(bindings_ldeCheckMapping lde wellFormed map found).resolve_left fun both => family both.1]
      exact arrived.mapping (bindings_nbr found) family
  | _ => exact absurd arrives id

theorem onePriority (arrived : Arrived base past b) (wellFormed : b.WellFormed)
    (compatible : Compatible past) : b.OnePriority := by
  intro fec fnh member other member' same
  by_cases family : fec.af = none
  · cases fec with
    | pwid type pwid lsrId =>
      exact (wellFormed.remote type pwid lsrId fnh member).2.trans
        (wellFormed.remote type pwid lsrId other member').2.symm
    | ipv4 | ipv6 => exact absurd family (by simp [Fec.af])
  · obtain ⟨kr, came, at', nexthop, priority⟩ :=
      (arrived.routes fec family _ _).mp ⟨fnh, member, rfl, rfl⟩
    obtain ⟨kr', came', at'', nexthop', priority'⟩ :=
      (arrived.routes fec family _ _).mp ⟨other, member', rfl, rfl⟩
    rw [← priority, ← priority']
    exact compatible.entry kr kr' came came' (at'.trans at''.symm)
      (nexthop.trans (same.trans nexthop'.symm))

theorem disjoint (arrived : Arrived base past b) (compatible : Compatible past) :
    b.DisjointAddrs := by
  intro peerid other ln ln' found found' addr listed listed'
  exact compatible.owner peerid other addr ((arrived.addresses peerid ln found addr).mp listed)
    ((arrived.addresses other ln' found' addr).mp listed')

end Arrived

/-- The bindings are sound: well formed, with labels in use that are recorded, and records that
are filed and in use. -/
structure Bindings.Sound (b : Bindings) : Prop where
  wellFormed : b.WellFormed
  noStale : b.NoStale
  filed : b.Filed
  used : b.Used

/-- Whatever arrives after a state that is sound, the bindings hold it and are sound. -/
theorem arrived_foldl {base : Bindings} (events : List LdeEvent) {past : Set LdeEvent} {lde : Lde}
    (arrived : Arrived base past lde.bindings) (sound : lde.bindings.Sound)
    (compatible : Compatible (past ∪ {event | event ∈ events})) :
    Arrived base (past ∪ {event | event ∈ events}) (events.foldl ldeStep lde).bindings ∧
      (events.foldl ldeStep lde).bindings.Sound := by
  induction events generalizing past lde with
  | nil =>
    have same : past ∪ {event | event ∈ ([] : List LdeEvent)} = past := by simp
    rw [same]
    exact ⟨arrived, sound⟩
  | cons event rest inductionHypothesis =>
    have same : past ∪ {item | item ∈ event :: rest} = insert event past ∪ {item | item ∈ rest} := by
      ext item
      simp only [Set.mem_union, Set.mem_ofPred_eq, List.mem_cons, Set.mem_insert_iff]
      tauto
    rw [same] at compatible ⊢
    have soFar := compatible.mono Set.subset_union_left
    have onePriority := arrived.onePriority sound.wellFormed (soFar.mono (Set.subset_insert _ _))
    have next := arrived.ldeStep sound.wellFormed onePriority sound.filed
      (soFar.arrives event (Set.mem_insert _ _))
    have step := ldeStep_refines lde sound.wellFormed onePriority event
    have named : lde.bindings.WithdrawNames event := by
      have arrives := soFar.arrives event (Set.mem_insert _ _)
      cases event with
      | labelWithdraw => exact absurd arrives id
      | _ => exact trivial
    exact inductionHypothesis next
      { wellFormed := step.wellFormed sound.wellFormed
        noStale := step.noStale sound.wellFormed sound.noStale
        filed := step.filed sound.filed
        used := step.used sound.wellFormed sound.filed
          (arrived.disjoint (soFar.mono (Set.subset_insert _ _))) (next.disjoint soFar) named
          sound.used } compatible

/-! ### Two orders -/

namespace Arrived

variable {base b b' : Bindings} {past : Set LdeEvent}

/-- A neighbor has a record of a route exactly when it is known and has sent a mapping. -/
theorem isSome_record_iff (arrived : Arrived base past b) {peerid : UInt32} {fec : Fec} (family : fec.af ≠ none) :
    (b.record peerid fec).isSome ↔ (base.nbr peerid).isSome ∧
      ∃ map, LdeEvent.labelMapping peerid map ∈ past ∧ ldeMap2fec map 0 = fec := by
  constructor
  · intro known
    obtain ⟨me, recorded⟩ := Option.isSome_iff_exists.mp known
    refine ⟨?_, me, arrived.mapped peerid fec family me recorded⟩
    rw [← arrived.neighbors]
    obtain ⟨ln, found, -⟩ := Option.bind_eq_some_iff.mp recorded
    rw [found]
    rfl
  · rintro ⟨known, map, told, rfl⟩
    exact arrived.recorded peerid map told ((arrived.neighbors peerid).trans known)

/-- What is recorded of the mappings does not depend on the order, when it only depends on what
the mappings of one neighbor and FEC have in common. -/
theorem record_congr {Shown : Type} (shows : Map → Shown) (arrived : Arrived base past b)
    (arrived' : Arrived base past b')
    (common : ∀ peerid map map', LdeEvent.labelMapping peerid map ∈ past →
      LdeEvent.labelMapping peerid map' ∈ past → ldeMap2fec map 0 = ldeMap2fec map' 0 →
        shows map = shows map') (peerid : UInt32) (fec : Fec) :
    (b.record peerid fec).map shows = (b'.record peerid fec).map shows := by
  by_cases family : fec.af = none
  · rw [arrived.others peerid fec family, arrived'.others peerid fec family]
  · have both : (b.record peerid fec).isSome ↔ (b'.record peerid fec).isSome :=
      (arrived.isSome_record_iff family).trans (arrived'.isSome_record_iff family).symm
    cases known : b.record peerid fec with
    | none =>
      cases known' : b'.record peerid fec with
      | none => rfl
      | some me' =>
        rw [known, known'] at both
        exact absurd (both.mpr rfl) (by simp)
    | some me =>
      obtain ⟨me', known'⟩ := Option.isSome_iff_exists.mp (both.mp (by rw [known]; rfl))
      obtain ⟨told, at'⟩ := arrived.mapped peerid fec family me known
      obtain ⟨told', at''⟩ := arrived'.mapped peerid fec family me' known'
      rw [known', Option.map_some, Option.map_some,
        common peerid me me' told told' (at'.trans at''.symm)]

/-- A label that one order brings into use at a nexthop is in use there after the other. -/
theorem remoteLabel_eq (arrived : Arrived base past b) (arrived' : Arrived base past b')
    (compatible : Compatible past) (sound : b.Sound) (sound' : b'.Sound) {fec : Fec}
    (family : fec.af ≠ none) {fnh fnh' : FecNh} (member : fnh ∈ b.nexthops fec)
    (member' : fnh' ∈ b'.nexthops fec) (same : fnh'.nexthop = fnh.nexthop)
    (inUse : fnh.remoteLabel ≠ noLabel) : fnh'.remoteLabel = fnh.remoteLabel := by
  obtain ⟨af, network⟩ := Option.ne_none_iff_exists'.mp family
  obtain ⟨peerid, ln, me, found, owned, recorded, label⟩ := sound.noStale fec fnh member inUse
  have known : b.record peerid fec = some me := by
    rw [Bindings.record, found]
    exact recorded
  have labels := arrived.record_congr Map.label arrived' compatible.label peerid fec
  rw [known, Option.map_some] at labels
  obtain ⟨me', known', label'⟩ := Option.map_eq_some_iff.mp labels.symm
  obtain ⟨ln', found', recorded'⟩ := Option.bind_eq_some_iff.mp known'
  have listed : fnh.nexthop ∈ ln'.addrList := by
    rw [arrived'.addresses peerid ln' found', ← arrived.addresses peerid ln found]
    exact mem_addrList_of_owns network owned
  have owned' : ln'.owns fec fnh' = true := owns_of_mem_addrList network (same ▸ listed)
  rw [sound'.used fec af network fnh' member' peerid ln' me' found' owned' recorded', label', label]

theorem mem_nexthops (arrived : Arrived base past b) (arrived' : Arrived base past b')
    (compatible : Compatible past) (sound : b.Sound) (sound' : b'.Sound) {fec : Fec} {fnh : FecNh}
    (member : fnh ∈ b.nexthops fec) : fnh ∈ b'.nexthops fec := by
  by_cases family : fec.af = none
  · rw [arrived'.pseudowires fec family, ← arrived.pseudowires fec family]
    exact member
  · obtain ⟨fnh', member', nexthop, priority⟩ := (arrived'.routes fec family _ _).mpr
      ((arrived.routes fec family _ _).mp ⟨fnh, member, rfl, rfl⟩)
    have label : fnh'.remoteLabel = fnh.remoteLabel := by
      by_cases inUse : fnh.remoteLabel = noLabel
      · by_contra differ
        refine differ (arrived'.remoteLabel_eq arrived compatible sound' sound family member' member
          nexthop.symm fun none => differ (none.trans inUse.symm)).symm
      · exact arrived.remoteLabel_eq arrived' compatible sound sound' family member member' nexthop
          inUse
    have equal : fnh' = fnh := by
      cases fnh
      cases fnh'
      simp_all
    exact equal ▸ member'

end Arrived

/-- A quiet state holds nothing that has arrived. -/
theorem arrived_quiet {lde : Lde} (quiet : lde.Quiet) : Arrived lde.bindings ∅ lde.bindings where
  routes fec family nexthop priority := by
    refine iff_of_false ?_ (by simp)
    rintro ⟨fnh, member, -⟩
    have empty : lde.bindings.nexthops fec = [] := quiet.routes fec family
    rw [empty] at member
    exact absurd member (by simp)
  pseudowires _ _ := rfl
  neighbors _ := rfl
  addresses peerid view found addr := by
    obtain ⟨ln, present, rfl⟩ := Option.map_eq_some_iff.mp found
    refine iff_of_false (fun listed => ?_) (by simp)
    have empty : ln.view.addrList = [] := quiet.addresses peerid ln present
    rw [empty] at listed
    exact absurd listed (by simp)
  mapped peerid fec family me known := by
    obtain ⟨view, found, recorded⟩ := Option.bind_eq_some_iff.mp known
    obtain ⟨ln, present, rfl⟩ := Option.map_eq_some_iff.mp found
    have empty : ln.view.recvMap[fec]? = none := quiet.mappings peerid ln present fec family
    rw [empty] at recorded
    exact absurd recorded (by simp)
  recorded _ _ told := absurd told (by simp)
  others _ _ _ := rfl

/-- A quiet state that a run with one priority of every nexthop address leads to is sound. -/
theorem sound_quiet (conf : LdeConf) (past : List LdeEvent)
    (onePriority : Run.Allowed ldeStep OnePriorityStep (Lde.start conf) past)
    (quiet : (past.foldl ldeStep (Lde.start conf)).Quiet) :
    (past.foldl ldeStep (Lde.start conf)).bindings.Sound := by
  have invariant : (fun b : Bindings => b.WellFormed ∧ b.OnePriority ∧ b.NoStale ∧ b.Filed)
      (past.foldl ldeStep (Lde.start conf)).bindings := by
    refine Run.foldl_of_allowed (fun lde => (fun b : Bindings =>
      b.WellFormed ∧ b.OnePriority ∧ b.NoStale ∧ b.Filed) lde.bindings) ?_ ?_ onePriority
    · rintro lde event ⟨wellFormed, single, noStale, filed⟩ allowed
      have step := ldeStep_refines lde wellFormed single event
      exact ⟨step.wellFormed wellFormed, allowed, step.noStale wellFormed noStale,
        step.filed filed⟩
    · refine ⟨start_wellFormed conf, start_onePriority conf, start_noStale conf, ?_, ?_⟩
      · intro peerid ln fec me found
        exact absurd ((start_nbr conf peerid).symm.trans found) (by simp)
      · intro peerid ln found
        exact absurd ((start_nbr conf peerid).symm.trans found) (by simp)
  obtain ⟨wellFormed, -, noStale, filed⟩ := invariant
  refine ⟨wellFormed, noStale, filed, fun fec af family fnh member => ?_⟩
  have empty : (past.foldl ldeStep (Lde.start conf)).bindings.nexthops fec = [] :=
    quiet.routes fec (by rw [family]; simp)
  rw [empty] at member
  exact absurd member (by simp)

/-- The order of arrival does not matter: two runs from the same quiet state that bring the same
routes, addresses and mappings, in any order and any number of times, leave the same labels on
record for every neighbor and FEC and the same nexthops with the same labels in use. If a neighbor
sends one mapping of a FEC, the whole records are the same. -/
theorem arrival_order (conf : LdeConf) (past : List LdeEvent)
    (onePriority : Run.Allowed ldeStep OnePriorityStep (Lde.start conf) past)
    (quiet : (past.foldl ldeStep (Lde.start conf)).Quiet) (events events' : List LdeEvent)
    (same : ∀ event, event ∈ events ↔ event ∈ events')
    (compatible : Compatible {event | event ∈ events}) :
    let before := past.foldl ldeStep (Lde.start conf)
    let after := events.foldl ldeStep before
    let after' := events'.foldl ldeStep before
    (∀ peerid fec, after.received peerid fec = after'.received peerid fec) ∧
    (∀ fec fnh, fnh ∈ after.nexthops fec ↔ fnh ∈ after'.nexthops fec) ∧
    ((∀ peerid map map', .labelMapping peerid map ∈ events → .labelMapping peerid map' ∈ events →
      ldeMap2fec map 0 = ldeMap2fec map' 0 → map = map') →
        ∀ peerid fec, after.bindings.record peerid fec = after'.bindings.record peerid fec) := by
  intro before after after'
  have set : {event | event ∈ events'} = {event | event ∈ events} :=
    Set.ext fun event => (same event).symm
  have sound := sound_quiet conf past onePriority quiet
  have first := arrived_foldl events (arrived_quiet quiet) sound (by rwa [Set.empty_union])
  have second := arrived_foldl events' (arrived_quiet quiet) sound
    (by rwa [Set.empty_union, set])
  rw [Set.empty_union] at first second
  rw [set] at second
  refine ⟨fun peerid fec => ?_, fun fec fnh => ⟨?_, ?_⟩, fun unique peerid fec => ?_⟩
  · rw [received_eq, received_eq]
    have labels := first.1.record_congr Map.label second.1 compatible.label peerid fec
    rw [Bindings.record, Bindings.record, Option.map_bind, Option.map_bind] at labels
    exact labels
  · exact first.1.mem_nexthops second.1 compatible first.2 second.2
  · exact second.1.mem_nexthops first.1 compatible second.2 first.2
  · have whole := first.1.record_congr id second.1 unique peerid fec
    rwa [Option.map_id, id_eq, id_eq] at whole

theorem Lde.quiet_of_checked {lde : Lde} (routes : ∀ entry ∈ lde.ft.toList, entry.2.nexthops = [])
    (neighbors : ∀ entry ∈ lde.ldeNbrs.toList,
      entry.2.addrList = [] ∧ entry.2.recvMap.toList = []) : lde.Quiet := by
  have listed {peerid : UInt32} {ln : LdeNbr} (found : lde.ldeNbrs[peerid]? = some ln) :=
    neighbors (peerid, ln) (Std.ExtTreeMap.mem_toList_iff_getElem?_eq_some.mpr found)
  refine ⟨fun fec _ => ?_, fun peerid ln found => (listed found).1, fun peerid ln found fec _ => ?_⟩
  · exact (forall_nexthops_iff lde (· = []) rfl).mpr routes fec
  · by_contra known
    obtain ⟨me, recorded⟩ := Option.ne_none_iff_exists'.mp known
    have member := Std.ExtTreeMap.mem_toList_iff_getElem?_eq_some.mpr recorded
    rw [(listed found).2] at member
    exact absurd member (by simp)

/-- Two neighbors that are up. -/
def twoNeighbors : List LdeEvent :=
  [.neighborUp 1 0x01010101 true true, .neighborUp 2 0x02020202 true true]

theorem pathOver_family (nexthop : InAddr) :
    (LdpdAddr.v4 nexthop).af = (LdpdAddr.v4 0x0b000000).af := rfl

/-- A route to 11.0.0.0/8 over a nexthop. -/
def pathOver (nexthop : InAddr) : RouteMsg where
  addr := .v4 0x0b000000
  prefixlen := 8
  nexthop := .v4 nexthop
  priority := 32
  connected := false
  family := pathOver_family nexthop

/-- A route to 11.0.0.0/8 over both neighbors, with their addresses and mappings. -/
def multipath : List LdeEvent :=
  [.networkAdd (pathOver 0x0a000001), .networkAdd (pathOver 0x0a000002),
    .addressAdd 1 (.v4 0x0a000001), .addressAdd 2 (.v4 0x0a000002),
    .labelMapping 1 { fec := .network (.v4 0x0b000000) 8, label := 100 },
    .labelMapping 2 { fec := .network (.v4 0x0b000000) 8, label := 200 }]

theorem multipath_compatible : Compatible {event | event ∈ multipath} where
  arrives event member := by
    simp only [multipath, Set.mem_ofPred_eq, List.mem_cons, List.not_mem_nil, or_false] at member
    rcases member with rfl | rfl | rfl | rfl | rfl | rfl
    all_goals simp [LdeEvent.Arrives, ldeMap2fec, Fec.af]
  owner peerid other addr first second := by
    simp [multipath] at first second
    grind
  entry kr kr' first second _ _ := by
    simp [multipath] at first second
    grind [pathOver]
  label peerid map map' first second _ := by
    simp [multipath] at first second
    grind

theorem arrival_order_multipath :
    let after' := multipath.reverse.foldl ldeStep (twoNeighbors.foldl ldeStep (Lde.start {}))
    (⟨.v4 0x0a000001, 100, 32⟩ : FecNh) ∈ after'.nexthops (.ipv4 0x0b000000 8) ∧
      (⟨.v4 0x0a000002, 200, 32⟩ : FecNh) ∈ after'.nexthops (.ipv4 0x0b000000 8) := by
  have orders := arrival_order {} twoNeighbors (by decide)
    (Lde.quiet_of_checked (by decide) (by decide)) multipath multipath.reverse
    (fun _ => List.mem_reverse.symm) multipath_compatible
  exact ⟨(orders.2.1 _ _).mp (by decide), (orders.2.1 _ _).mp (by decide)⟩

end Ldpd
