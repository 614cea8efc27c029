/-
This file says what each handler of the label decision engine does to the bindings:
a mapping is learned, a withdraw gives it up, an address of a neighbor brings its
recorded labels into use or takes them out of it, and a route adds or removes one
nexthop.
-/

import Ldpd.Lde.Relabel

namespace Ldpd

/-! ### Well-formed bindings -/

/-- What holds of the bindings whatever the neighbors send: a FEC node points to a pseudowire
exactly as long as it is a pseudowire FEC in use, and the pointer leads to a pseudowire of
that FEC; a FEC without nexthops has no local label; a route has nexthops of its own family, a
pseudowire only its remote end; and a nexthop is listed once. -/
structure Bindings.WellFormed (b : Bindings) : Prop where
  data : ∀ fec, (b.data fec).isSome ↔ fec.af = none ∧ b.nexthops fec ≠ []
  live : ∀ fec data, b.data fec = some data → b.pwFec data = some fec
  idle : ∀ fec, b.nexthops fec = [] → b.localLabel fec = noLabel
  network : ∀ fec af, fec.af = some af → ∀ fnh ∈ b.nexthops fec, fnh.nexthop.af = af
  remote : ∀ type pwid lsrId, ∀ fnh ∈ b.nexthops (.pwid type pwid lsrId),
    fnh.nexthop = .v4 lsrId ∧ fnh.priority = 0
  distinct : ∀ fec, (b.nexthops fec).Pairwise fun fnh other => ¬sameNexthop fnh other

theorem Bindings.WellFormed.relabel {b : Bindings} (wellFormed : b.WellFormed)
    (test : Fec → FecNh → Bool) (label : Fec → UInt32) : (b.relabel test label).WellFormed where
  data fec := by
    show _ ↔ _ ∧ List.map _ (b.nexthops fec) ≠ []
    rw [ne_eq, List.map_eq_nil_iff]
    exact wellFormed.data fec
  live := wellFormed.live
  idle fec empty := wellFormed.idle fec (List.map_eq_nil_iff.mp empty)
  network fec af family fnh member := by
    obtain ⟨origin, known, rfl⟩ := List.mem_map.mp member
    rw [relabelIf_nexthop]
    exact wellFormed.network fec af family origin known
  remote type pwid lsrId fnh member := by
    obtain ⟨origin, known, rfl⟩ := List.mem_map.mp member
    rw [relabelIf_nexthop, relabelIf_priority]
    exact wellFormed.remote type pwid lsrId origin known
  distinct fec := by
    refine List.Pairwise.map _ (fun fnh other different => ?_) (wellFormed.distinct fec)
    rw [sameNexthop, relabelIf_nexthop, relabelIf_nexthop, relabelIf_priority, relabelIf_priority]
    exact different

theorem Bindings.WellFormed.updateNbr {b : Bindings} (wellFormed : b.WellFormed) (peerid : UInt32)
    (change : NbrView → NbrView) : (b.updateNbr peerid change).WellFormed :=
  ⟨wellFormed.data, wellFormed.live, wellFormed.idle, wellFormed.network, wellFormed.remote,
    wellFormed.distinct⟩

/-- A pseudowire FEC that points to no pseudowire has no nexthops. -/
theorem Bindings.WellFormed.nexthops_eq_nil {b : Bindings} (wellFormed : b.WellFormed) {fec : Fec}
    (pseudowire : fec.af = none) (unused : b.data fec = none) : b.nexthops fec = [] := by
  by_contra used
  have present := (wellFormed.data fec).mpr ⟨pseudowire, used⟩
  rw [unused] at present
  exact absurd present (by simp)

/-! ### Label Mapping -/

theorem bindings_installNexthop_network (map : Map) (ln : LdeNbr) {fec : Fec} {af : Af}
    (family : fec.af = some af) (lde : Lde) (fnh : FecNh)
    (owned : ln.view.owns fec fnh = true) :
    (installNexthop map ln fec lde fnh).bindings =
      lde.bindings.relabel (only fec (sameNexthop fnh)) fun _ => map.label := by
  cases fec with
  | pwid => exact absurd family (by simp [Fec.af])
  | ipv4 addr prefixlen | ipv6 addr prefixlen =>
    have address : ldeAddressFind ln fnh.nexthop = true := owned
    simp only [installNexthop]
    rw [if_pos address, bindings_ldeSendChangeKlabel, bindings_setRemoteLabel]

theorem installNexthop_network_other (map : Map) (ln : LdeNbr) {fec : Fec} {af : Af}
    (family : fec.af = some af) (lde : Lde) (fnh : FecNh)
    (other : ¬ln.view.owns fec fnh = true) : installNexthop map ln fec lde fnh = lde := by
  cases fec with
  | pwid => exact absurd family (by simp [Fec.af])
  | ipv4 addr prefixlen | ipv6 addr prefixlen => exact if_neg other

theorem bindings_installNexthop_pw (map : Map) (ln : LdeNbr) {fec : Fec} {data : Nat}
    (pseudowire : fec.af = none) (lde : Lde) (points : lde.bindings.data fec = some data)
    (live : lde.bindings.pwFec data = some fec) (fnh : FecNh) :
    (installNexthop map ln fec lde fnh).bindings =
      lde.bindings.relabel (only fec (sameNexthop fnh)) fun _ => map.label := by
  cases fec with
  | ipv4 | ipv6 => exact absurd pseudowire (by simp [Fec.af])
  | pwid type pwid lsrId =>
    have node : (lde.ft[Fec.pwid type pwid lsrId]?).bind FecNode.data = some data := points
    have learn (lde : Lde) : (lde.updatePw data (pwLearn map)).bindings = lde.bindings := by
      refine bindings_updatePw lde data _ fun pw _ => ?_
      unfold pwLearn l2vpnPwFec
      split <;> rfl
    simp only [installNexthop, node]
    cases found : lde.pws[data]? with
    | none =>
      have missing : lde.bindings.pwFec data = none := congrArg (Option.map _) found
      exact absurd (missing.symm.trans live) (by simp)
    | some pw =>
      dsimp only
      split_ifs
      · rw [bindings_ldeSendChangeKlabel, bindings_setRemoteLabel, learn]
      · rw [bindings_setRemoteLabel, learn]

/-- The loop of `lde_check_mapping` writes the label to every nexthop of the neighbor. -/
theorem bindings_install (map : Map) (ln : LdeNbr) (fec : Fec)
    (remote : ∀ type pwid lsrId, fec = .pwid type pwid lsrId → lsrId = ln.id) (lde : Lde)
    (wellFormed : lde.bindings.WellFormed) :
    ((lde.nexthops fec).foldl (installNexthop map ln fec) lde).bindings =
      lde.bindings.relabel (only fec (ln.view.owns fec)) fun _ => map.label := by
  cases family : fec.af with
  | some af =>
    have skips : (lde.nexthops fec).foldl (installNexthop map ln fec) lde =
        ((lde.nexthops fec).filter (ln.view.owns fec)).foldl (installNexthop map ln fec) lde := by
      rw [List.foldl_filter]
      refine congrArg (fun body => (lde.nexthops fec).foldl body lde) (funext fun lde => ?_)
      refine funext fun fnh => ?_
      split_ifs with owned
      · rfl
      · exact installNexthop_network_other map ln family lde fnh owned
    rw [skips]
    exact bindings_foldl_filter (fun _ => True) (fun _ _ _ _ => trivial) (keyTest_owns ln.view fec)
      fec map.label _
      (fun lde _ fnh owned => bindings_installNexthop_network map ln family lde fnh owned) lde trivial
  | none =>
    have owned : ∀ fnh, ln.view.owns fec fnh = true := by
      intro fnh
      cases fec with
      | ipv4 | ipv6 => exact absurd family (by simp [Fec.af])
      | pwid type pwid lsrId =>
        simp only [NbrView.owns, remote type pwid lsrId rfl, LdeNbr.view, decide_true]
    have all : lde.nexthops fec = (lde.nexthops fec).filter (ln.view.owns fec) :=
      (List.filter_eq_self.mpr fun fnh _ => owned fnh).symm
    cases points : lde.bindings.data fec with
    | none =>
      have unused : lde.nexthops fec = [] := wellFormed.nexthops_eq_nil family points
      rw [Bindings.relabel_only_nil _ unused, unused, List.foldl_nil]
    | some data =>
      have live := wellFormed.live fec data points
      rw [all]
      exact bindings_foldl_filter (fun b => b.data fec = some data ∧ b.pwFec data = some fec)
        (fun _ _ _ => id) (keyTest_owns ln.view fec) fec map.label _
        (fun lde legal fnh _ => bindings_installNexthop_pw map ln family lde legal.1 legal.2 fnh) lde
        ⟨points, live⟩

/-- The FEC of a label record names the neighbor that sent it, if it names any. -/
theorem ldeMap2fec_remote (map : Map) (lsrId : InAddr) (type : UInt16) (pwid : UInt32)
    (remote : InAddr) (same : ldeMap2fec map lsrId = .pwid type pwid remote) : remote = lsrId := by
  unfold ldeMap2fec at same
  split at same <;> simp_all

/-- The test of the handlers that only ask for the address covers no nexthop of another
neighbor. -/
theorem owns_of_ldeAddressFind {ln : LdeNbr} {fec : Fec}
    (remote : ∀ type pwid lsrId, fec = .pwid type pwid lsrId → lsrId = ln.id) {fnh : FecNh}
    (address : ldeAddressFind ln fnh.nexthop = true) : ln.view.owns fec fnh = true := by
  cases fec with
  | ipv4 | ipv6 => exact address
  | pwid type pwid lsrId =>
    simp only [NbrView.owns, remote type pwid lsrId rfl, LdeNbr.view, decide_true]

theorem keyTest_ldeAddressFind (ln : LdeNbr) :
    KeyTest fun fnh => ldeAddressFind ln fnh.nexthop := by
  intro fnh other same
  have address : other.nexthop = fnh.nexthop := (of_decide_eq_true same).1
  simp only [address]

theorem bindings_replaceLabel (lde : Lde) (peerid : UInt32) (ln : LdeNbr) (fec : Fec) (map : Map)
    (requested : Bool) :
    (replaceLabel lde peerid ln fec map requested).bindings = lde.bindings ∨
      (replaceLabel lde peerid ln fec map requested).bindings =
        lde.bindings.relabel (only fec fun fnh => ldeAddressFind ln fnh.nexthop)
          fun _ => noLabel := by
  unfold replaceLabel
  split
  · exact Or.inl rfl
  · split_ifs
    · refine Or.inr ?_
      rw [bindings_uninstallNexthops _ _ (keyTest_ldeAddressFind ln), bindings_ldeSendLabelrelease]
    · exact Or.inl rfl

/-- Learn a mapping: use its label at every nexthop of the neighbor, and record it. -/
def Bindings.learn (b : Bindings) (peerid : UInt32) (ln : NbrView) (fec : Fec) (map : Map) :
    Bindings :=
  (b.relabel (only fec (ln.owns fec)) fun _ => map.label).updateNbr peerid (NbrView.record fec map)

theorem bindings_clearRequest (lde : Lde) (peerid : UInt32) (fec : Fec) :
    (clearRequest lde peerid fec).bindings = lde.bindings := by
  rw [clearRequest, bindings_updateNbr_same _ peerid _ fun _ => by rfl, bindings_fecAdd]

theorem bindings_negotiateMapping (lde : Lde) (peerid : UInt32) (ln : LdeNbr) (fec : Fec)
    (map : Map) : (negotiateMapping lde peerid ln fec map).1.bindings = lde.bindings := by
  unfold negotiateMapping
  split
  · exact bindings_l2vpnPwNegotiate lde peerid ln fec map
  · rfl

/-- Only a mapping for a pseudowire can be ignored. -/
theorem af_of_negotiateMapping {lde : Lde} {peerid : UInt32} {ln : LdeNbr} {fec : Fec} {map : Map}
    (ignored : (negotiateMapping lde peerid ln fec map).2 = true) (lsrId : InAddr) :
    (ldeMap2fec map lsrId).af = none := by
  unfold negotiateMapping at ignored
  split at ignored
  · rename_i type
    rw [ldeMap2fec, type]
    rfl
  · exact absurd ignored (by simp)

theorem bindings_acceptMapping (lde : Lde) (wellFormed : lde.bindings.WellFormed) (map : Map)
    (peerid : UInt32) (ln : LdeNbr) (fec : Fec)
    (remote : ∀ type pwid lsrId, fec = .pwid type pwid lsrId → lsrId = ln.id) :
    (acceptMapping lde map peerid ln fec).bindings =
      lde.bindings.learn peerid ln.view fec map := by
  have covered : ∀ other fnh, only fec (fun fnh => ldeAddressFind ln fnh.nexthop) other fnh = true →
      only fec (ln.view.owns fec) other fnh = true := by
    intro other fnh both
    rw [only, Bool.and_eq_true] at both ⊢
    exact ⟨both.1, owns_of_ldeAddressFind remote both.2⟩
  rw [acceptMapping, bindings_recordReceived]
  rcases bindings_replaceLabel lde peerid ln fec map (decide (fec ∈ ln.sentReq)) with
    kept | replaced
  · rw [bindings_install map ln fec remote _ (by rw [kept]; exact wellFormed), kept]
    rfl
  · rw [bindings_install map ln fec remote _ (by rw [replaced]; exact wellFormed.relabel _ _),
      replaced, Bindings.relabel_override _ (labelBlind_only (labelBlind_owns ln.view fec) fec)
        covered]
    rfl

/-- A mapping is learned, unless pseudowire negotiation ignores it. -/
theorem bindings_ldeCheckMapping (lde : Lde) (wellFormed : lde.bindings.WellFormed) (map : Map)
    {peerid : UInt32} {ln : LdeNbr} (found : lde.ldeNbrs[peerid]? = some ln) :
    ((ldeMap2fec map ln.id).af = none ∧ (ldeCheckMapping lde map peerid).bindings = lde.bindings) ∨
      (ldeCheckMapping lde map peerid).bindings =
        lde.bindings.learn peerid ln.view (ldeMap2fec map ln.id) map := by
  have remote := ldeMap2fec_remote map ln.id
  have same : (negotiateMapping (clearRequest lde peerid (ldeMap2fec map ln.id)) peerid ln
      (ldeMap2fec map ln.id) map).1.bindings = lde.bindings := by
    rw [bindings_negotiateMapping, bindings_clearRequest]
  unfold ldeCheckMapping
  simp only [found]
  split_ifs with ignored
  · exact Or.inl ⟨af_of_negotiateMapping ignored ln.id, same⟩
  · refine Or.inr ?_
    rw [bindings_acceptMapping _ (by rw [same]; exact wellFormed) map peerid ln _ remote, same]

/-! ### Label Withdraw -/

/-- Give up a mapping: use no label at the nexthops of the neighbor, and remove the record if
it has the label given. -/
def Bindings.unlearn (b : Bindings) (peerid : UInt32) (ln : NbrView) (fec : Fec)
    (label : UInt32) : Bindings :=
  (b.relabel (only fec (ln.owns fec)) fun _ => noLabel).updateNbr peerid
    (NbrView.forget fec label)

theorem keyTest_withdrawsNexthop (ln : LdeNbr) (fec : Fec) (configured : Bool) :
    KeyTest (withdrawsNexthop ln fec configured) := by
  intro fnh other same
  cases fec with
  | ipv4 | ipv6 => exact keyTest_ldeAddressFind ln fnh other same
  | pwid => rfl

/-- A withdraw of one FEC gives up the mapping. -/
theorem bindings_ldeCheckWithdraw_fec (lde : Lde)
    (backed : ∀ fec, fec.af = none → lde.nexthops fec ≠ [] → (lde.data fec).isSome) {map : Map}
    (single : (∃ type pwid group ifmtu, map.fec = .pwid type pwid group ifmtu) → map.flags.pwId = true)
    {peerid : UInt32} {ln : LdeNbr} (found : lde.ldeNbrs[peerid]? = some ln) :
    (ldeCheckWithdraw lde map peerid).bindings =
      lde.bindings.unlearn peerid ln.view (ldeMap2fec map ln.id) map.label := by
  unfold ldeCheckWithdraw
  simp only [found]
  split
  · rename_i type group
    cases group.symm.trans (single ⟨_, _, _, _, type⟩)
  · have remote := ldeMap2fec_remote map ln.id
    generalize ldeMap2fec map ln.id = fec at remote ⊢
    generalize pointed : (((fecAdd lde fec).ft[fec]?).bind FecNode.data).isSome = configured
    have points : (lde.bindings.data fec).isSome = configured := by
      rw [← bindings_fecAdd lde fec]
      exact pointed
    rw [bindings_forgetMapping, bindings_ldeSendLabelrelease,
      bindings_uninstallNexthops _ _ (keyTest_withdrawsNexthop ln fec configured), bindings_fecAdd]
    refine congrArg (Bindings.updateNbr · _ _) (Bindings.relabel_congr _ fun other fnh member => ?_)
    by_cases same : other = fec
    · subst same
      cases other with
      | ipv4 | ipv6 => rfl
      | pwid type pwid lsrId =>
        rw [show (lde.bindings.data _).isSome = true from backed _ rfl (List.ne_nil_of_mem member)]
          at points
        simp only [relabelIf, only, withdrawsNexthop, ← points, NbrView.owns, LdeNbr.view,
          remote type pwid lsrId rfl, decide_true]
    · simp only [relabelIf, only, decide_eq_false same, Bool.false_and]

/-- A withdraw gives up the mapping, unless it is for a group of pseudowires. -/
theorem bindings_ldeCheckWithdraw (lde : Lde) (wellFormed : lde.bindings.WellFormed) (map : Map)
    {peerid : UInt32} {ln : LdeNbr} (found : lde.ldeNbrs[peerid]? = some ln) :
    ((ldeMap2fec map ln.id).af = none ∧
        (ldeCheckWithdraw lde map peerid).bindings = lde.bindings) ∨
      (ldeCheckWithdraw lde map peerid).bindings =
        lde.bindings.unlearn peerid ln.view (ldeMap2fec map ln.id) map.label := by
  by_cases single : (∃ type pwid group ifmtu, map.fec = .pwid type pwid group ifmtu) →
      map.flags.pwId = true
  · exact Or.inr (bindings_ldeCheckWithdraw_fec lde
      (fun fec pseudowire filled => (wellFormed.data fec).mpr ⟨pseudowire, filled⟩) single found)
  · rw [Classical.not_imp, Bool.not_eq_true] at single
    obtain ⟨⟨type, pwid, group, ifmtu, given⟩, flag⟩ := single
    refine Or.inl ⟨?_, ?_⟩
    · rw [ldeMap2fec, given]
      rfl
    · unfold ldeCheckWithdraw
      simp only [found, given, flag]

/-- One round of the loop of a wildcard withdraw gives up one mapping. -/
theorem bindings_withdrawFec (lde : Lde) (peerid : UInt32) (ln : LdeNbr) (label : UInt32)
    (fec : Fec) :
    (withdrawFec peerid ln label lde fec).bindings =
      lde.bindings.unlearn peerid ln.view fec label := by
  have owns : ownsNexthop ln fec = ln.view.owns fec := funext (ownsNexthop_eq ln fec)
  rw [withdrawFec, bindings_forgetMapping, owns,
    bindings_uninstallNexthops _ _ (keyTest_owns ln.view fec)]
  rfl

/-! ### Addresses -/

/-- The route process redistributes one priority of a prefix at a time, so a FEC never has two
nexthop entries with the same address and different priorities. -/
def Bindings.OnePriority (b : Bindings) : Prop :=
  ∀ fec, ∀ fnh ∈ b.nexthops fec, ∀ other ∈ b.nexthops fec,
    fnh.nexthop = other.nexthop → fnh.priority = other.priority

theorem Bindings.OnePriority.relabel {b : Bindings} (onePriority : b.OnePriority)
    (test : Fec → FecNh → Bool) (label : Fec → UInt32) : (b.relabel test label).OnePriority := by
  intro fec fnh member other member' same
  obtain ⟨origin, known, rfl⟩ := List.mem_map.mp member
  obtain ⟨origin', known', rfl⟩ := List.mem_map.mp member'
  rw [relabelIf_nexthop, relabelIf_nexthop] at same
  rw [relabelIf_priority, relabelIf_priority]
  exact onePriority fec origin known origin' known' same

/-- The nexthops an address of a neighbor stands for: those of the routes of its family. -/
def atAddress (addr : LdpdAddr) (fec : Fec) (fnh : FecNh) : Bool :=
  fec.af = some addr.af && fnh.nexthop = addr

theorem labelBlind_atAddress (addr : LdpdAddr) (fec : Fec) : LabelBlind (atAddress addr fec) :=
  fun _ _ => rfl

/-- The only nexthop with an address is the first one. -/
theorem sameNexthop_of_find? {items : List FecNh} {addr : LdpdAddr} {fnh : FecNh}
    (priority : ∀ fnh ∈ items, ∀ other ∈ items,
      fnh.nexthop = other.nexthop → fnh.priority = other.priority)
    (found : items.find? (fun fnh => fnh.nexthop = addr) = some fnh) {other : FecNh}
    (member : other ∈ items) : sameNexthop fnh other = decide (other.nexthop = addr) := by
  have address : fnh.nexthop = addr := by simpa using List.find?_some found
  have listed := List.mem_of_find?_eq_some found
  rw [sameNexthop, address, decide_eq_decide]
  refine ⟨And.left, fun same => ⟨same, ?_⟩⟩
  exact priority other member fnh listed (same.trans address.symm)

/-- One round of `lde_nbr_addr_update` relabels the nexthop with the address. -/
theorem bindings_addrUpdateFec (addr : LdpdAddr) (removed : Bool) (lde : Lde)
    (onePriority : lde.bindings.OnePriority) (entry : Fec × Map) :
    (addrUpdateFec addr removed lde entry).bindings =
      lde.bindings.relabel (only entry.1 (atAddress addr entry.1))
        fun _ => if removed then noLabel else entry.2.label := by
  obtain ⟨fec, map⟩ := entry
  unfold addrUpdateFec
  dsimp only
  by_cases family : fec.af = some addr.af
  · rw [if_pos family]
    cases node : lde.ft[fec]? with
    | none =>
      have empty : lde.bindings.nexthops fec = [] := by
        show lde.nexthops fec = []
        rw [Lde.nexthops, node]
      exact (Bindings.relabel_only_nil lde.bindings empty _ _).symm
    | some fn =>
      have listed : lde.bindings.nexthops fec = fn.nexthops := lde.nexthops_eq_of_node node
      dsimp only
      cases first : fn.nexthops.find? fun fnh => fnh.nexthop = addr with
      | none =>
        refine (Bindings.relabel_none _ _ _ fun other fnh member => ?_).symm
        rw [only, Bool.and_eq_false_iff]
        by_cases same : other = fec
        · subst same
          rw [listed] at member
          have different := List.find?_eq_none.mp first fnh member
          simp_all [atAddress]
        · exact Or.inl (decide_eq_false same)
      | some fnh =>
        have single (label : UInt32) :
            lde.bindings.relabel (only fec (sameNexthop fnh)) (fun _ => label) =
              lde.bindings.relabel (only fec (atAddress addr fec)) fun _ => label := by
          refine Bindings.relabel_congr _ fun other item member => ?_
          by_cases same : other = fec
          · subst same
            have key := sameNexthop_of_find? (onePriority other) (listed ▸ first) member
            simp only [relabelIf, only, key, atAddress, family, decide_true, Bool.true_and]
          · simp only [relabelIf, only, decide_eq_false same, Bool.false_and]
        dsimp only
        cases removed with
        | true => exact (bindings_uninstallNexthop lde fec fnh).trans (single noLabel)
        | false =>
          rw [if_neg Bool.false_ne_true, bindings_ldeSendChangeKlabel, bindings_setRemoteLabel]
          exact single map.label
  · rw [if_neg family]
    refine (Bindings.relabel_none _ _ _ fun other fnh _ => ?_).symm
    simp [only, atAddress, family]

/-- The label the update of an address brings into use. -/
def NbrView.labelOf (ln : NbrView) (removed : Bool) (fec : Fec) : UInt32 :=
  if removed then noLabel else ((ln.recvMap[fec]?).map Map.label).getD noLabel

/-- `lde_nbr_addr_update` relabels the nexthops with the address, for every FEC the neighbor
has sent a mapping for. -/
theorem bindings_ldeNbrAddrUpdate (lde : Lde) (ln : LdeNbr) (addr : LdpdAddr) (removed : Bool)
    (onePriority : lde.bindings.OnePriority) :
    (ldeNbrAddrUpdate lde ln addr removed).bindings =
      lde.bindings.relabel (fun fec fnh => decide (fec ∈ ln.recvMap) && atAddress addr fec fnh)
        (ln.view.labelOf removed) := by
  rw [ldeNbrAddrUpdate, bindings_foldl_relabel Bindings.OnePriority
    (fun _ test label legal => legal.relabel test label)
    (fun entry : Fec × Map => only entry.1 (atAddress addr entry.1))
    (fun entry fec => labelBlind_only (labelBlind_atAddress addr entry.1) entry.1 fec)
    (ln.view.labelOf removed) _ _ ?_ lde onePriority]
  · refine congrArg (lde.bindings.relabel · _) (funext fun fec => funext fun fnh => ?_)
    rw [Bool.eq_iff_iff, List.any_eq_true, Bool.and_eq_true, decide_eq_true_eq]
    constructor
    · rintro ⟨entry, listed, both⟩
      rw [only, Bool.and_eq_true, decide_eq_true_eq] at both
      obtain ⟨rfl, at_⟩ := both
      have recorded := Std.ExtTreeMap.mem_toList_iff_getElem?_eq_some.mp listed
      exact ⟨(Tree.mem_iff_getElem? _ _).mpr ⟨entry.2, recorded⟩, at_⟩
    · rintro ⟨known, at_⟩
      obtain ⟨map, recorded⟩ := (Tree.mem_iff_getElem? _ _).mp known
      refine ⟨(fec, map), Std.ExtTreeMap.mem_toList_iff_getElem?_eq_some.mpr recorded, ?_⟩
      simp only [only, at_, decide_true, Bool.true_and]
  · intro current legal entry listed
    have recorded := Std.ExtTreeMap.mem_toList_iff_getElem?_eq_some.mp listed
    rw [bindings_addrUpdateFec addr removed current legal entry]
    refine Bindings.relabel_congr _ fun fec fnh _ => ?_
    by_cases same : fec = entry.1
    · subst same
      have label : ln.view.labelOf removed entry.1 = if removed then noLabel else entry.2.label := by
        rw [NbrView.labelOf, LdeNbr.view, recorded]
        rfl
      rw [label]
    · simp only [relabelIf, only, decide_eq_false same, Bool.false_and, Bool.false_eq_true, if_false]

/-- The addresses of a neighbor change. -/
def NbrView.readdress (change : List LdpdAddr → List LdpdAddr) (ln : NbrView) : NbrView :=
  { ln with addrList := change ln.addrList }

/-- A new address of a neighbor brings the labels it has sent into use at the nexthop. -/
theorem bindings_ldeAddressAdd (lde : Lde) (onePriority : lde.bindings.OnePriority)
    {peerid : UInt32} {ln : LdeNbr} (found : lde.ldeNbrs[peerid]? = some ln) {addr : LdpdAddr}
    (fresh : ldeAddressFind ln addr = false) :
    (ldeAddressAdd lde peerid addr).bindings =
      (lde.bindings.updateNbr peerid (NbrView.readdress (· ++ [addr]))).relabel
        (fun fec fnh => decide (fec ∈ ln.recvMap) && atAddress addr fec fnh)
        (ln.view.labelOf false) := by
  have listed : (lde.updateNbr peerid fun ln =>
      { ln with addrList := ln.addrList ++ [addr] }).bindings =
      lde.bindings.updateNbr peerid (NbrView.readdress (· ++ [addr])) :=
    bindings_updateNbr lde peerid _ _ fun _ => by rfl
  unfold ldeAddressAdd
  simp only [found, fresh, Bool.false_eq_true, if_false]
  rw [bindings_ldeNbrAddrUpdate _ ln addr false (by rw [listed]; exact onePriority), listed]

/-- An address that a neighbor withdraws takes its labels out of use at the nexthop. -/
theorem bindings_ldeAddressDel (lde : Lde) (onePriority : lde.bindings.OnePriority)
    {peerid : UInt32} {ln : LdeNbr} (found : lde.ldeNbrs[peerid]? = some ln) {addr : LdpdAddr}
    (known : ldeAddressFind ln addr = true) :
    (ldeAddressDel lde peerid addr).bindings =
      (lde.bindings.relabel
        (fun fec fnh => decide (fec ∈ ln.recvMap) && atAddress addr fec fnh)
        fun _ => noLabel).updateNbr peerid (NbrView.readdress (·.erase addr)) := by
  unfold ldeAddressDel
  simp only [found, known, if_true]
  rw [bindings_updateNbr _ peerid _ (NbrView.readdress (·.erase addr)) fun _ => by rfl,
    bindings_ldeNbrAddrUpdate lde ln addr true onePriority]
  rfl

/-! ### Neighbors -/

/-- A neighbor comes or goes. -/
def Bindings.setNbr (b : Bindings) (peerid : UInt32) (ln : Option NbrView) : Bindings :=
  { b with nbr := Function.update b.nbr peerid ln }

theorem Bindings.WellFormed.setNbr {b : Bindings} (wellFormed : b.WellFormed) (peerid : UInt32)
    (ln : Option NbrView) : (b.setNbr peerid ln).WellFormed :=
  ⟨wellFormed.data, wellFormed.live, wellFormed.idle, wellFormed.network, wellFormed.remote,
    wellFormed.distinct⟩

theorem Bindings.setNbr_updateNbr (b : Bindings) (peerid : UInt32) (change : NbrView → NbrView)
    (ln : Option NbrView) : (b.updateNbr peerid change).setNbr peerid ln = b.setNbr peerid ln :=
  Bindings.ext rfl rfl rfl rfl (Function.update_idem _ _ _)

theorem bindings_ldeNbrNew (lde : Lde) {peerid : UInt32} (fresh : peerid ∉ lde.ldeNbrs)
    (id : InAddr) (v4Enabled v6Enabled : Bool) :
    (ldeNbrNew lde peerid id v4Enabled v6Enabled).bindings =
      lde.bindings.setNbr peerid (some { id, addrList := [], recvMap := ∅ }) := by
  rw [ldeNbrNew, if_neg fresh]
  refine Bindings.ext rfl rfl rfl rfl (funext fun other => ?_)
  show ((lde.ldeNbrs.insert peerid _)[other]?).map LdeNbr.view =
    Function.update lde.bindings.nbr peerid _ other
  rw [Tree.getElem?_insert]
  by_cases same : peerid = other
  · subst same
    rw [if_pos rfl, Function.update_self]
    rfl
  · rw [if_neg same, Function.update_of_ne (Ne.symm same)]
    rfl

theorem bindings_downFec (ln : LdeNbr) (lde : Lde) (fec : Fec) :
    (downFec ln lde fec).bindings =
      lde.bindings.relabel (only fec (ln.view.owns fec)) fun _ => noLabel := by
  have owns : ownsNexthop ln fec = ln.view.owns fec := funext (ownsNexthop_eq ln fec)
  rw [downFec, owns]
  refine bindings_foldl_filter (fun _ => True) (fun _ _ _ _ => trivial) (keyTest_owns ln.view fec)
    fec noLabel _ (fun lde _ fnh _ => ?_) lde trivial
  rw [downNexthop, bindings_uninstallNexthop, bindings_resetPwOf]

theorem mem_keys_of_mem_nexthops {lde : Lde} {fec : Fec} {fnh : FecNh}
    (member : fnh ∈ lde.nexthops fec) : fec ∈ lde.ft.keys := by
  rw [Std.ExtTreeMap.mem_keys, Tree.mem_iff_getElem?]
  unfold Lde.nexthops at member
  split at member
  · rename_i fn node
    exact ⟨fn, node⟩
  · exact absurd member (by simp)

/-- The records of a neighbor that goes do not show once it is gone. -/
theorem setNbr_foldl_ldeMapDel (peerid : UInt32) (sent : Bool) (fecs : List Fec) (lde : Lde) :
    (fecs.foldl (fun lde fec => ldeMapDel lde peerid fec sent) lde).bindings.setNbr peerid none =
      lde.bindings.setNbr peerid none := by
  induction fecs generalizing lde with
  | nil => rfl
  | cons fec rest inductionHypothesis =>
    rw [List.foldl_cons, inductionHypothesis]
    cases sent with
    | true => rw [bindings_ldeMapDel_sent]
    | false => rw [bindings_ldeMapDel_received, Bindings.setNbr_updateNbr]

/-- A neighbor that goes takes the labels of its nexthops with it. -/
theorem bindings_ldeNbrDel (lde : Lde) {peerid : UInt32} {ln : LdeNbr}
    (found : lde.ldeNbrs[peerid]? = some ln) :
    (ldeNbrDel lde peerid).bindings =
      (lde.bindings.relabel ln.view.owns fun _ => noLabel).setNbr peerid none := by
  have gone (lde : Lde) : ({ lde with ldeNbrs := lde.ldeNbrs.erase peerid } : Lde).bindings =
      lde.bindings.setNbr peerid none := by
    refine Bindings.ext rfl rfl rfl rfl (funext fun other => ?_)
    show ((lde.ldeNbrs.erase peerid)[other]?).map LdeNbr.view =
    Function.update lde.bindings.nbr peerid _ other
    rw [Tree.getElem?_erase]
    by_cases same : peerid = other
    · subst same
      rw [if_pos rfl, Function.update_self]
      rfl
    · rw [if_neg same, Function.update_of_ne (Ne.symm same)]
      rfl
  have down : (lde.ft.keys.foldl (downFec ln) lde).bindings =
      lde.bindings.relabel ln.view.owns fun _ => noLabel := by
    rw [bindings_foldl_relabel (fun _ => True) (fun _ _ _ _ => trivial)
      (fun fec => only fec (ln.view.owns fec))
      (fun fec => labelBlind_only (labelBlind_owns ln.view fec) fec) (fun _ => noLabel) _ _
      (fun lde _ fec _ => bindings_downFec ln lde fec) lde trivial]
    refine Bindings.relabel_congr _ fun fec fnh member => ?_
    have covers : (lde.ft.keys.any fun item => only item (ln.view.owns item) fec fnh) =
        ln.view.owns fec fnh := by
      rw [Bool.eq_iff_iff, List.any_eq_true]
      constructor
      · rintro ⟨item, -, both⟩
        rw [only, Bool.and_eq_true, decide_eq_true_eq] at both
        rw [both.1]
        exact both.2
      · intro owned
        refine ⟨fec, mem_keys_of_mem_nexthops member, ?_⟩
        simp only [only, owned, decide_true, Bool.and_true]
    simp only [relabelIf, covers]
  unfold ldeNbrDel
  simp only [found]
  rw [gone, setNbr_foldl_ldeMapDel, setNbr_foldl_ldeMapDel, down]

/-! ### Routes -/

/-- A FEC gets other nexthops. -/
def Bindings.setNexthops (b : Bindings) (fec : Fec) (nexthops : List FecNh) : Bindings :=
  { b with nexthops := Function.update b.nexthops fec nexthops }

/-- A FEC gets another local label. -/
def Bindings.setLocalLabel (b : Bindings) (fec : Fec) (label : UInt32) : Bindings :=
  { b with localLabel := Function.update b.localLabel fec label }

/-- A pseudowire FEC gets another pseudowire. -/
def Bindings.setData (b : Bindings) (fec : Fec) (data : Option Nat) : Bindings :=
  if fec.af = none then { b with data := Function.update b.data fec data } else b

theorem mem_updateNode (lde : Lde) (fec other : Fec) (change : FecNode → FecNode) :
    other ∈ (lde.updateNode fec change).ft ↔ other ∈ lde.ft := by
  rw [Tree.mem_iff_getElem?, Tree.mem_iff_getElem?, getElem?_updateNode]
  split_ifs
  · cases lde.ft[other]? <;> simp
  · rfl

theorem mem_recordSent (lde : Lde) (peerid : UInt32) (ln : LdeNbr) (fec other : Fec) (map : Map) :
    other ∈ (recordSent lde peerid ln fec map).ft ↔ other ∈ lde.ft := by
  unfold recordSent ldeMapSet ldeMapAdd
  simp only [if_true]
  split_ifs
  · rfl
  · exact mem_updateNode lde fec other _

theorem mem_ldeSendLabelmapping (lde : Lde) (peerid : UInt32) (fec other : Fec) (single : Bool) :
    other ∈ (ldeSendLabelmapping lde peerid fec single).ft ↔ other ∈ lde.ft := by
  unfold ldeSendLabelmapping
  split
  · split
    · rw [mem_recordSent]
      cases single <;> rfl
    · rfl
  · rfl

theorem mem_foldl_ldeSendLabelmapping (fec other : Fec) (single : Bool) (peers : List UInt32)
    (lde : Lde) :
    other ∈ (peers.foldl (fun lde peerid => ldeSendLabelmapping lde peerid fec single) lde).ft ↔
      other ∈ lde.ft := by
  induction peers generalizing lde with
  | nil => rfl
  | cons peerid rest inductionHypothesis =>
    rw [List.foldl_cons, inductionHypothesis, mem_ldeSendLabelmapping]

theorem mem_assignLocalLabel (lde : Lde) (fec other : Fec) (connected : Bool) :
    other ∈ (assignLocalLabel lde fec connected).ft ↔ other ∈ lde.ft := by
  unfold assignLocalLabel
  dsimp only
  split
  · rfl
  · rw [mem_foldl_ldeSendLabelmapping, mem_updateNode]
    cases connected <;> rfl

theorem bindings_setLocalLabel (lde : Lde) {fec : Fec} (present : fec ∈ lde.ft) (label : UInt32) :
    (lde.updateNode fec fun fn => { fn with localLabel := label }).bindings =
      lde.bindings.setLocalLabel fec label := by
  obtain ⟨fn, node⟩ := (Tree.mem_iff_getElem? _ _).mp present
  refine Bindings.ext (funext fun other => ?_) (funext fun other => ?_) (funext fun other => ?_)
    rfl rfl
  · show Lde.nexthops _ other = lde.nexthops other
    rw [Lde.nexthops_eq, Lde.nexthops_eq, field_updateNode_same]
    exact fun _ => rfl
  · show Lde.data _ other = lde.data other
    rw [Lde.data_eq, Lde.data_eq, field_updateNode_same]
    exact fun _ => rfl
  · show Lde.localLabel _ other = Function.update lde.localLabel fec label other
    rw [Lde.localLabel_eq, field_updateNode]
    split_ifs with same
    · rw [← same, Function.update_self, node]
      rfl
    · rw [Function.update_of_ne (Ne.symm same), Lde.localLabel_eq]

/-- The label that a FEC without one gets. -/
def Lde.newLabel (lde : Lde) (fec : Fec) (connected : Bool) : UInt32 :=
  if connected then (egressLabel lde fec).getD noLabel else lde.label + 1

theorem bindings_assignLocalLabel (lde : Lde) {fec : Fec} (present : fec ∈ lde.ft)
    (unlabelled : lde.localLabel fec = noLabel) (connected : Bool) :
    (assignLocalLabel lde fec connected).bindings =
      lde.bindings.setLocalLabel fec (lde.newLabel fec connected) := by
  unfold assignLocalLabel Lde.newLabel
  cases connected with
  | true =>
    simp only [if_true]
    cases egress : egressLabel lde fec with
    | none =>
      refine Bindings.ext rfl rfl ?_ rfl rfl
      show lde.localLabel = Function.update lde.localLabel fec noLabel
      rw [← unlabelled, Function.update_eq_self]
    | some label =>
      dsimp only
      rw [bindings_foldl_same _ (fun lde peerid => bindings_ldeSendLabelmapping lde peerid fec true),
        bindings_setLocalLabel lde present]
      rfl
  | false =>
    simp only [Bool.false_eq_true, if_false]
    rw [bindings_foldl_same _ (fun lde peerid => bindings_ldeSendLabelmapping lde peerid fec true)]
    exact bindings_setLocalLabel (ldeAssignLabel lde).1 present _

theorem mem_setData (lde : Lde) (fec other : Fec) (data : Option Nat) :
    other ∈ (setData lde fec data).ft ↔ other ∈ lde.ft := by
  cases fec with
  | ipv4 | ipv6 => rfl
  | pwid => exact mem_updateNode lde _ other _

theorem bindings_setData (lde : Lde) {fec : Fec} (present : fec ∈ lde.ft) (data : Option Nat) :
    (setData lde fec data).bindings = lde.bindings.setData fec data := by
  obtain ⟨fn, node⟩ := (Tree.mem_iff_getElem? _ _).mp present
  cases fec with
  | ipv4 | ipv6 => exact (if_neg (by simp [Fec.af])).symm
  | pwid type pwid lsrId =>
    have pseudowire : (Fec.pwid type pwid lsrId).af = none := rfl
    rw [Bindings.setData, if_pos pseudowire]
    refine Bindings.ext (funext fun other => ?_) (funext fun other => ?_) (funext fun other => ?_)
      rfl rfl
    · show Lde.nexthops _ other = lde.nexthops other
      rw [Lde.nexthops_eq, Lde.nexthops_eq, setData, field_updateNode_same]
      exact fun _ => rfl
    · show Lde.data _ other = Function.update lde.data _ data other
      rw [Lde.data_eq, setData, field_updateNode]
      split_ifs with same
      · rw [← same, Function.update_self, node]
        rfl
      · rw [Function.update_of_ne (Ne.symm same), Lde.data_eq]
    · show Lde.localLabel _ other = lde.localLabel other
      rw [Lde.localLabel_eq, Lde.localLabel_eq, setData, field_updateNode_same]
      exact fun _ => rfl

theorem bindings_fecNhAdd (lde : Lde) {fec : Fec} (present : fec ∈ lde.ft) (nexthop : LdpdAddr)
    (priority : UInt8) :
    (fecNhAdd lde fec nexthop priority).bindings =
      lde.bindings.setNexthops fec
        ({ nexthop, remoteLabel := noLabel, priority } :: lde.bindings.nexthops fec) := by
  obtain ⟨fn, node⟩ := (Tree.mem_iff_getElem? _ _).mp present
  have listed : lde.bindings.nexthops fec = fn.nexthops := lde.nexthops_eq_of_node node
  rw [listed]
  refine Bindings.ext (funext fun other => ?_) (funext fun other => ?_) (funext fun other => ?_)
    rfl rfl
  · show Lde.nexthops _ other = Function.update lde.nexthops fec _ other
    rw [Lde.nexthops_eq, fecNhAdd, field_updateNode]
    split_ifs with same
    · rw [← same, Function.update_self, node]
      rfl
    · rw [Function.update_of_ne (Ne.symm same), Lde.nexthops_eq]
  · show Lde.data _ other = lde.data other
    rw [Lde.data_eq, Lde.data_eq, fecNhAdd, field_updateNode_same]
    exact fun _ => rfl
  · show Lde.localLabel _ other = lde.localLabel other
    rw [Lde.localLabel_eq, Lde.localLabel_eq, fecNhAdd, field_updateNode_same]
    exact fun _ => rfl

/-- A new nexthop of a FEC, without a label yet. The FEC has the local label given. -/
def Bindings.addNexthop (b : Bindings) (fec : Fec) (nexthop : LdpdAddr) (priority : UInt8)
    (data : Option Nat) (label : UInt32) : Bindings :=
  ((b.setData fec data).setLocalLabel fec label).setNexthops fec
    ({ nexthop, remoteLabel := noLabel, priority } :: b.nexthops fec)

/-- The local label of a FEC after a nexthop is added: the old one or, if there is none, a new
one. -/
def Lde.insertLabel (lde : Lde) (fec : Fec) (connected : Bool) : UInt32 :=
  if lde.localLabel fec = noLabel then lde.newLabel fec connected else lde.localLabel fec

theorem newLabel_setData (lde : Lde) (fec other : Fec) (data : Option Nat) (connected : Bool) :
    (setData lde fec data).newLabel other connected = lde.newLabel other connected := by
  cases fec <;> cases other <;> rfl

theorem localLabel_setData (lde : Lde) (fec other : Fec) (data : Option Nat) :
    (setData lde fec data).localLabel other = lde.localLabel other := by
  cases fec with
  | ipv4 | ipv6 => rfl
  | pwid =>
    rw [Lde.localLabel_eq, Lde.localLabel_eq, setData, field_updateNode_same]
    exact fun _ => rfl

theorem bindings_insertNexthop (lde : Lde) {fec : Fec} {fn : FecNode}
    (node : lde.ft[fec]? = some fn) (nexthop : LdpdAddr) (priority : UInt8) (connected : Bool)
    (data : Option Nat) :
    (insertNexthop lde fec fn nexthop priority connected data).bindings =
      lde.bindings.addNexthop fec nexthop priority data (lde.insertLabel fec connected) := by
  have present : fec ∈ lde.ft := (Tree.mem_iff_getElem? _ _).mpr ⟨fn, node⟩
  have pointed : fec ∈ (setData lde fec data).ft := (mem_setData lde fec fec data).mpr present
  have label : lde.localLabel fec = fn.localLabel := lde.localLabel_eq_of_node node
  have keeps : (lde.bindings.setData fec data).nexthops = lde.bindings.nexthops := by
    unfold Bindings.setData
    split_ifs <;> rfl
  have added (lde' : Lde) (present : fec ∈ lde'.ft)
      (same : lde'.bindings = (lde.bindings.setData fec data).setLocalLabel fec
        (lde.insertLabel fec connected)) :
      (ldeSendChangeKlabel (fecNhAdd lde' fec nexthop priority) fec
        { nexthop, remoteLabel := noLabel, priority }).bindings =
          lde.bindings.addNexthop fec nexthop priority data (lde.insertLabel fec connected) := by
    have listed : lde'.bindings.nexthops fec = lde.bindings.nexthops fec := by
      rw [same, ← keeps]
      rfl
    rw [bindings_ldeSendChangeKlabel, bindings_fecNhAdd lde' present, listed, same]
    rfl
  unfold insertNexthop
  dsimp only
  split_ifs with unlabelled
  · refine added _ ((mem_assignLocalLabel _ fec fec connected).mpr pointed) ?_
    rw [← label] at unlabelled
    rw [bindings_assignLocalLabel _ pointed ((localLabel_setData lde fec fec data).trans unlabelled),
      bindings_setData lde present, newLabel_setData, Lde.insertLabel, if_pos unlabelled]
  · refine added _ pointed ?_
    rw [← label] at unlabelled
    rw [bindings_setData lde present, Lde.insertLabel, if_neg unlabelled]
    refine Bindings.ext rfl rfl ?_ rfl rfl
    have kept : (lde.bindings.setData fec data).localLabel = lde.localLabel := by
      unfold Bindings.setData
      split_ifs <;> rfl
    show _ = Function.update (lde.bindings.setData fec data).localLabel fec _
    rw [kept, Function.update_eq_self]

/-- Take a nexthop from a FEC. The last one takes the local label and the pseudowire along. -/
def Bindings.removeNexthop (b : Bindings) (fec : Fec) (fnh : FecNh) : Bindings :=
  let nexthops := (b.nexthops fec).filter fun other => ¬sameNexthop fnh other
  let b := b.setNexthops fec nexthops
  if nexthops = [] then (b.setLocalLabel fec noLabel).setData fec none else b

theorem bindings_fecNhDel (lde : Lde) (fec : Fec) (fnh : FecNh) :
    (fecNhDel lde fec fnh).bindings =
      lde.bindings.setNexthops fec
        ((lde.bindings.nexthops fec).filter fun other => ¬sameNexthop fnh other) :=
  bindings_updateNode_nexthops lde fec _
    (fun items => items.filter fun other => ¬sameNexthop fnh other) rfl
    (fun fn => List.filter_congr fun other _ => by simp [sameNexthop]) (fun _ => by rfl)
    fun _ => by rfl

theorem mem_ldeSendLabelwithdraw (lde : Lde) (peerid : UInt32) (fec other : Fec) (label : UInt32)
    (st : Option MapStatus) :
    other ∈ (ldeSendLabelwithdraw lde peerid (some fec) label st).ft ↔ other ∈ lde.ft := by
  unfold ldeSendLabelwithdraw
  split
  · rfl
  · split <;> rfl

theorem mem_ldeSendLabelwithdrawAll (lde : Lde) (fec other : Fec) (label : UInt32) :
    other ∈ (ldeSendLabelwithdrawAll lde fec label).ft ↔ other ∈ lde.ft := by
  unfold ldeSendLabelwithdrawAll
  induction lde.ldeNbrs.keys generalizing lde with
  | nil => rfl
  | cons peerid rest inductionHypothesis =>
    rw [List.foldl_cons, inductionHypothesis, mem_ldeSendLabelwithdraw]

/-- A route that goes takes its nexthop with it, and the last one the pseudowire too. -/
theorem bindings_ldeKernelRemove (lde : Lde) {fec : Fec} {fn : FecNode}
    (node : lde.ft[fec]? = some fn) {nexthop : LdpdAddr} {priority : UInt8} {fnh : FecNh}
    (found : fecNhFind fn nexthop priority = some fnh) :
    (ldeKernelRemove lde fec nexthop priority).bindings = lde.bindings.removeNexthop fec fnh := by
  have present : fec ∈ (fecNhDel (ldeSendDeleteKlabel lde fec fnh) fec fnh).ft := by
    rw [fecNhDel, mem_updateNode, (kernelOnly_ldeSendDeleteKlabel lde fec fnh).ft,
      Tree.mem_iff_getElem?]
    exact ⟨fn, node⟩
  have deleted := bindings_fecNhDel (ldeSendDeleteKlabel lde fec fnh) fec fnh
  rw [bindings_ldeSendDeleteKlabel] at deleted
  have left : (fecNhDel (ldeSendDeleteKlabel lde fec fnh) fec fnh).nexthops fec =
      (lde.bindings.nexthops fec).filter fun other => ¬sameNexthop fnh other := by
    show Bindings.nexthops (Lde.bindings _) fec = _
    rw [deleted]
    exact Function.update_self _ _ _
  unfold ldeKernelRemove Bindings.removeNexthop
  simp only [node, found, left]
  split_ifs
  · have kept := (mem_ldeSendLabelwithdrawAll (fecNhDel (ldeSendDeleteKlabel lde fec fnh) fec fnh)
      fec fec noLabel).mpr present
    rw [retireFec, bindings_setData _ ((mem_updateNode _ fec fec _).mpr kept),
      bindings_setLocalLabel _ kept, bindings_ldeSendLabelwithdrawAll, deleted]
  · exact deleted

/-! ### Garbage collection -/

/-- The garbage collector only removes what does not show. -/
theorem bindings_gcFec (lde : Lde) (wellFormed : lde.bindings.WellFormed) (fec : Fec) :
    (gcFec lde fec).bindings = lde.bindings := by
  unfold gcFec
  split
  · rfl
  · rename_i fn node
    split_ifs with dead
    · have empty : lde.bindings.nexthops fec = [] := by
        rw [show lde.bindings.nexthops fec = fn.nexthops from lde.nexthops_eq_of_node node]
        simp only [FecNode.dead, Bool.and_eq_true, List.isEmpty_iff] at dead
        exact dead.1.1
      have unused : lde.bindings.data fec = none := by
        rw [← Option.not_isSome_iff_eq_none, wellFormed.data]
        exact fun both => both.2 empty
      refine Bindings.ext (funext fun other => ?_) (funext fun other => ?_)
        (funext fun other => ?_) rfl rfl
      · show Lde.nexthops _ other = lde.nexthops other
        rw [Lde.nexthops, Tree.getElem?_erase]
        split_ifs with same
        · subst same
          exact empty.symm
        · rfl
      · show Lde.data _ other = lde.data other
        rw [Lde.data, Tree.getElem?_erase]
        split_ifs with same
        · subst same
          exact unused.symm
        · rfl
      · show Lde.localLabel _ other = lde.localLabel other
        rw [Lde.localLabel, Tree.getElem?_erase]
        split_ifs with same
        · subst same
          exact (wellFormed.idle fec empty).symm
        · rfl
    · rfl

theorem bindings_ldeGcTimer (lde : Lde) (wellFormed : lde.bindings.WellFormed) :
    (ldeGcTimer lde).bindings = lde.bindings := by
  unfold ldeGcTimer
  induction lde.ft.keys generalizing lde with
  | nil => rfl
  | cons fec rest inductionHypothesis =>
    have same := bindings_gcFec lde wellFormed fec
    rw [List.foldl_cons, inductionHypothesis _ (by rw [same]; exact wellFormed), same]

end Ldpd
