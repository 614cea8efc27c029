/-
This file is about the keys of an accepted configuration. Each list is guarded by a check
when something is added to it, and nothing changes a key later. Only the names of the
L2VPNs can coincide: a name is looked up as it is in the file, and stored cut off.
-/

import Ldpd.Main.Merge
import Ldpd.Main.Process

namespace Ldpd

/-! ### Keys -/

/-- What the checks of the parser are about. A name stands beside the one that is stored. -/
structure Keys where
  ifaces : List UInt32
  l2vpnIfs : List UInt32
  pws : List UInt32
  tnbrs : List (LdpdAddr × Bool)
  nbrps : List InAddr
  pointers : List Nat
  names : List (String × String)

def Statics.keys (s : Statics) : Keys where
  ifaces := s.conf.ifaceList.map ConfIface.ifindex
  l2vpnIfs := s.l2vpns.flatMap fun l2vpn => l2vpn.ifList.map ConfL2vpnIf.ifindex
  pws := s.l2vpns.flatMap fun l2vpn => l2vpn.pwList.map ParsePw.ifindex
  tnbrs := s.conf.tnbrList.map fun tnbr => (tnbr.addr, tnbr.configured)
  nbrps := s.conf.nbrpList.map NbrParams.lsrId
  pointers := s.l2vpns.map ParseL2vpn.pointer
  names := s.l2vpns.map fun l2vpn => (l2vpn.given, l2vpn.name)

/-- What the checks guarantee. -/
structure Keys.Checked (keys : Keys) : Prop where
  ifaces : (keys.ifaces ++ keys.l2vpnIfs).Nodup
  pws : keys.pws.Nodup
  tnbrs : (keys.tnbrs.map Prod.fst).Nodup
  configured : ∀ tnbr ∈ keys.tnbrs, tnbr.2 = true
  nbrps : keys.nbrps.Nodup
  pointers : keys.pointers = (List.range keys.pointers.length).reverse
  names : keys.names.Pairwise fun later earlier => earlier.2 ≠ later.1
  stored : ∀ name ∈ keys.names, name.2 = Parse.shortName name.1

/-! ### Lists -/

section Lists

variable {α κ : Type} {items : α → List κ} {chosen : α → Prop} [DecidablePred chosen]
  {change : α → α} {list : List α}

theorem map_change {key : α → κ} (same : ∀ value, key (change value) = key value) :
    (list.map fun value => if chosen value then change value else value).map key = list.map key := by
  rw [List.map_map]
  refine List.map_congr_left fun value _ => ?_
  rw [Function.comp_apply]
  split
  · exact same value
  · rfl

theorem flatMap_change (same : ∀ value, items (change value) = items value) :
    (list.map fun value => if chosen value then change value else value).flatMap items =
      list.flatMap items := by
  rw [List.flatMap_def, List.flatMap_def, map_change same]

/-- One item more in at most one of the lists. -/
theorem flatMap_insert {item : κ} (single : list.Pairwise fun one other => ¬(chosen one ∧ chosen other))
    (adds : ∀ value, items (change value) = item :: items value) :
    (list.map fun value => if chosen value then change value else value).flatMap items =
        list.flatMap items ∨
      ((list.map fun value => if chosen value then change value else value).flatMap items).Perm
        (item :: list.flatMap items) := by
  induction list with
  | nil => exact .inl rfl
  | cons first rest inductionHypothesis =>
    rw [List.map_cons, List.flatMap_cons, List.flatMap_cons]
    have single' := List.pairwise_cons.mp single
    by_cases here : chosen first
    · have others : (rest.map fun value => if chosen value then change value else value) = rest := by
        refine (List.map_congr_left fun value member => ?_).trans (List.map_id rest)
        exact if_neg fun there => single'.1 value member ⟨here, there⟩
      rw [if_pos here, others, adds]
      exact .inr (.refl _)
    · rw [if_neg here]
      rcases inductionHypothesis single'.2 with same | more
      · exact .inl (by rw [same])
      · exact .inr ((more.append_left _).trans List.perm_middle)

end Lists

/-! ### The actions -/

variable {s : Statics} {action : Action} {level level' : Level}

theorem ifindex_changeIfaceAf (change : ConfIfaceAf → ConfIfaceAf) (iface : ConfIface) (af : Af) :
    (Parse.changeIfaceAf change iface af).ifindex = iface.ifindex := by
  cases af <;> rfl

theorem changeIa_cases (change : ConfIfaceAf → ConfIfaceAf) (s : Statics) :
    ∃ ifaceList, Parse.changeIa change s = { s.conf with ifaceList } ∧
      ifaceList.map ConfIface.ifindex = s.conf.ifaceList.map ConfIface.ifindex := by
  rw [Parse.changeIa]
  split
  · exact ⟨s.conf.ifaceList, rfl, rfl⟩
  · rename_i ifindex af _
    exact ⟨_, rfl, map_change fun iface => ifindex_changeIfaceAf change iface af⟩

theorem setAfConf_cases (s : Statics) :
    ∃ ipv4 ipv6, Parse.setAfConf s = { s.conf with ipv4, ipv6 } := by
  rw [Parse.setAfConf]
  split
  · exact ⟨s.conf.ipv4, s.conf.ipv6, rfl⟩
  · exact ⟨_, s.conf.ipv6, rfl⟩
  · exact ⟨s.conf.ipv4, _, rfl⟩

theorem setTransAddr_cases (conf : LdpdConf) (addr : LdpdAddr) :
    ∃ ipv4 ipv6, Parse.setTransAddr conf addr = { conf with ipv4, ipv6 } := by
  cases addr with
  | v4 addr => exact ⟨_, conf.ipv6, rfl⟩
  | v6 addr => exact ⟨conf.ipv4, _, rfl⟩

theorem keys_eq {s' : Statics}
    (ifaces : s'.conf.ifaceList.map ConfIface.ifindex = s.conf.ifaceList.map ConfIface.ifindex)
    (tnbrs : (s'.conf.tnbrList.map fun tnbr => (tnbr.addr, tnbr.configured)) =
      s.conf.tnbrList.map fun tnbr => (tnbr.addr, tnbr.configured))
    (nbrps : s'.conf.nbrpList.map NbrParams.lsrId = s.conf.nbrpList.map NbrParams.lsrId)
    (l2vpnIfs : (s'.l2vpns.flatMap fun l2vpn => l2vpn.ifList.map ConfL2vpnIf.ifindex) =
      s.l2vpns.flatMap fun l2vpn => l2vpn.ifList.map ConfL2vpnIf.ifindex)
    (pws : (s'.l2vpns.flatMap fun l2vpn => l2vpn.pwList.map ParsePw.ifindex) =
      s.l2vpns.flatMap fun l2vpn => l2vpn.pwList.map ParsePw.ifindex)
    (pointers : s'.l2vpns.map ParseL2vpn.pointer = s.l2vpns.map ParseL2vpn.pointer)
    (names : (s'.l2vpns.map fun l2vpn => (l2vpn.given, l2vpn.name)) =
      s.l2vpns.map fun l2vpn => (l2vpn.given, l2vpn.name)) : s'.keys = s.keys := by
  rw [Statics.keys, ifaces, tnbrs, nbrps, l2vpnIfs, pws, pointers, names]
  rfl

theorem keys_changePw (change : ParsePw → ParsePw) (same : ∀ pw, (change pw).ifindex = pw.ifindex)
    (s : Statics) : (Parse.changePw change s).keys = s.keys := by
  refine keys_eq rfl rfl rfl ?_ ?_ ?_ ?_
  · rw [Parse.changePw, List.flatMap_map]
  · rw [Parse.changePw, List.flatMap_map]
    exact List.flatMap_congr fun l2vpn _ => map_change same
  · exact List.map_map.trans rfl
  · exact List.map_map.trans rfl

/-- The actions that add something with a key. -/
def Action.Adds : Action → Prop
  | .enterInterface .. | .beginTneighbor _ | .beginNeighbor _ | .beginL2vpn _ | .addL2vpnIf _
  | .beginPw _ => True
  | _ => False

/-- All other actions leave the keys alone. -/
theorem keys_change (allowed : action.Allowed s) (adds : ¬action.Adds) :
    (action.change s).keys = s.keys := by
  cases action with
  | enterInterface | beginTneighbor | beginNeighbor | beginL2vpn | addL2vpnIf | beginPw =>
    exact absurd trivial adds
  | transportAddress addr =>
    obtain ⟨ipv4, ipv6, same⟩ := setTransAddr_cases s.conf addr
    rw [Action.change, same]
    rfl
  | put setting =>
    rw [Action.change, Statics.put, Statics.setCurrent]
    cases s.defs <;> rfl
  | endFamily =>
    obtain ⟨ipv4, ipv6, same⟩ := setAfConf_cases s
    rw [Action.change, Parse.endFamily, same]
    rfl
  | beginInterface =>
    obtain ⟨ifaceList, same, ifaces⟩ := changeIa_cases (fun ia => { ia with enabled := true }) s
    rw [Action.change, Parse.beginInterface, same]
    exact keys_eq ifaces rfl rfl rfl rfl rfl rfl
  | endInterface =>
    obtain ⟨ifaceList, same, ifaces⟩ := changeIa_cases (fun ia =>
      { ia with
        helloHoldtime := s.current.lhelloHoldtime
        helloInterval := s.current.lhelloInterval }) s
    rw [Action.change, Parse.endInterface, same]
    exact keys_eq ifaces rfl rfl rfl rfl rfl rfl
  | endTneighbor => exact keys_eq rfl (map_change fun _ => rfl) rfl rfl rfl rfl rfl
  | changeNbrp change => exact keys_eq rfl rfl (map_change allowed) rfl rfl rfl rfl
  | changeL2vpn change =>
    refine keys_eq rfl rfl rfl (flatMap_change fun l2vpn => ?_) (flatMap_change fun l2vpn => ?_)
      (map_change fun l2vpn => (allowed l2vpn).1) (map_change fun l2vpn => ?_)
    · rw [(allowed l2vpn).2.2.2.1]
    · rw [(allowed l2vpn).2.2.2.2.1]
    · rw [(allowed l2vpn).2.1, (allowed l2vpn).2.2.1]
  | changePw change => exact keys_changePw change (fun pw => (allowed pw).1) s
  | endPw =>
    exact keys_changePw (fun pw =>
      { pw with addr := some (pw.addr.getD (.v4 pw.lsrId)), flags := s.current.pwflags })
      (fun _ => rfl) s
  | _ => rfl

theorem Keys.Checked.pairwise_pointer (checked : s.keys.Checked) :
    s.l2vpns.Pairwise fun one other => ¬(s.l2vpn = some one.pointer ∧ s.l2vpn = some other.pointer) := by
  have distinct : (s.l2vpns.map ParseL2vpn.pointer).Nodup := by
    have pointers : s.l2vpns.map ParseL2vpn.pointer =
        (List.range (s.l2vpns.map ParseL2vpn.pointer).length).reverse := checked.pointers
    rw [pointers]
    exact List.nodup_reverse.mpr List.nodup_range
  refine (List.pairwise_map.mp distinct).imp fun differ both => ?_
  exact differ (Option.some.inj (both.1.symm.trans both.2))

theorem notMem_l2vpnIfs {ifindex : UInt32} (fresh : Parse.inL2vpn s ifindex = false) :
    ifindex ∉ s.keys.l2vpnIfs := by
  intro member
  obtain ⟨l2vpn, there, member⟩ := List.mem_flatMap.mp member
  obtain ⟨lif, among, same⟩ := List.mem_map.mp member
  rw [Parse.inL2vpn, List.any_eq_false] at fresh
  exact fresh l2vpn there (List.any_eq_true.mpr ⟨lif, among, beq_iff_eq.mpr same⟩)

theorem checked_addIface (checked : s.keys.Checked) {kif : ParseKif}
    (fresh : Parse.inL2vpn s kif.ifindex.toUInt32 = false) :
    (Parse.addIface kif s).keys.Checked := by
  rw [Parse.addIface]
  split
  · exact checked
  · rename_i new
    refine ⟨List.nodup_cons.mpr ⟨fun member => ?_, checked.ifaces⟩, checked.pws, checked.tnbrs,
      checked.configured, checked.nbrps, checked.pointers, checked.names, checked.stored⟩
    rcases List.mem_append.mp member with member | member
    · obtain ⟨iface, there, same⟩ := List.mem_map.mp member
      exact new (List.any_eq_true.mpr ⟨iface, there, beq_iff_eq.mpr same⟩)
    · exact notMem_l2vpnIfs fresh member

theorem checked_beginL2vpn (checked : s.keys.Checked) {name : String}
    (fresh : ∀ l2vpn ∈ s.l2vpns, l2vpn.name ≠ name) :
    (Parse.beginL2vpn name s).keys.Checked := by
  refine ⟨checked.ifaces, checked.pws, checked.tnbrs, checked.configured, checked.nbrps, ?_,
    List.pairwise_cons.mpr ⟨?_, checked.names⟩, ?_⟩
  · have pointers : s.l2vpns.map ParseL2vpn.pointer =
        (List.range (s.l2vpns.map ParseL2vpn.pointer).length).reverse := checked.pointers
    rw [List.length_map] at pointers
    show s.l2vpns.length :: s.l2vpns.map ParseL2vpn.pointer =
      (List.range (s.l2vpns.map ParseL2vpn.pointer).length.succ).reverse
    rw [List.range_succ, List.reverse_append, List.length_map, pointers]
    rfl
  · intro earlier member
    obtain ⟨l2vpn, there, rfl⟩ := List.mem_map.mp member
    exact fresh l2vpn there
  · intro stored member
    rcases List.mem_cons.mp member with rfl | member
    · rfl
    · exact checked.stored stored member

/-- Something new of an L2VPN. -/
theorem Keys.Checked.changeL2vpn (checked : s.keys.Checked) {change : ParseL2vpn → ParseL2vpn}
    (same : ∀ l2vpn, (change l2vpn).pointer = l2vpn.pointer ∧
      ((change l2vpn).given, (change l2vpn).name) = (l2vpn.given, l2vpn.name))
    (ifaces : ((Parse.changeL2vpn change s).keys.ifaces ++
      (Parse.changeL2vpn change s).keys.l2vpnIfs).Nodup)
    (pws : (Parse.changeL2vpn change s).keys.pws.Nodup) :
    (Parse.changeL2vpn change s).keys.Checked := by
  have pointers : (Parse.changeL2vpn change s).keys.pointers = s.keys.pointers :=
    map_change fun l2vpn => (same l2vpn).1
  have names : (Parse.changeL2vpn change s).keys.names = s.keys.names :=
    map_change fun l2vpn => (same l2vpn).2
  refine ⟨ifaces, pws, checked.tnbrs, checked.configured, checked.nbrps, ?_, ?_, ?_⟩
  · rw [pointers]
    exact checked.pointers
  · rw [names]
    exact checked.names
  · rw [names]
    exact checked.stored

theorem checked_addL2vpnIf (checked : s.keys.Checked) {kif : ParseKif}
    (fresh : Parse.inL2vpn s kif.ifindex.toUInt32 = false)
    (unused : ∀ iface ∈ s.conf.ifaceList, iface.ifindex ≠ kif.ifindex.toUInt32) :
    (Parse.addL2vpnIf kif s).keys.Checked := by
  have inserted : (Parse.addL2vpnIf kif s).keys.l2vpnIfs = s.keys.l2vpnIfs ∨
      (Parse.addL2vpnIf kif s).keys.l2vpnIfs.Perm (kif.ifindex.toUInt32 :: s.keys.l2vpnIfs) :=
    flatMap_insert checked.pairwise_pointer fun l2vpn => rfl
  have pws : (Parse.addL2vpnIf kif s).keys.pws = s.keys.pws := flatMap_change fun l2vpn => rfl
  refine checked.changeL2vpn (fun l2vpn => ⟨rfl, rfl⟩) ?_ (pws ▸ checked.pws)
  rcases inserted with same | more
  · exact same ▸ checked.ifaces
  · refine ((more.append_left _).trans List.perm_middle).nodup_iff.mpr ?_
    refine List.nodup_cons.mpr ⟨fun member => ?_, checked.ifaces⟩
    rcases List.mem_append.mp member with member | member
    · obtain ⟨iface, there, same⟩ := List.mem_map.mp member
      exact unused iface there same
    · exact notMem_l2vpnIfs fresh member

theorem checked_addPw (checked : s.keys.Checked) {kif : ParseKif}
    (fresh : ∀ pw ∈ Parse.allPws s, pw.ifindex ≠ kif.ifindex.toUInt32) :
    (Parse.addPw kif s).keys.Checked := by
  have inserted : (Parse.addPw kif s).keys.pws = s.keys.pws ∨
      (Parse.addPw kif s).keys.pws.Perm (kif.ifindex.toUInt32 :: s.keys.pws) :=
    flatMap_insert checked.pairwise_pointer fun l2vpn => rfl
  have ifs : (Parse.addPw kif s).keys.l2vpnIfs = s.keys.l2vpnIfs := flatMap_change fun l2vpn => rfl
  refine checked.changeL2vpn (fun l2vpn => ⟨rfl, rfl⟩) (ifs ▸ checked.ifaces) ?_
  rcases inserted with same | more
  · exact same ▸ checked.pws
  · refine more.nodup_iff.mpr (List.nodup_cons.mpr ⟨fun member => ?_, checked.pws⟩)
    obtain ⟨l2vpn, there, member⟩ := List.mem_flatMap.mp member
    obtain ⟨pw, among, same⟩ := List.mem_map.mp member
    exact fresh pw (List.mem_flatMap.mpr ⟨l2vpn, there, among⟩) same

theorem checked_change (checked : s.keys.Checked) (allowed : action.Allowed s) :
    (action.change s).keys.Checked := by
  by_cases adds : action.Adds
  · cases action with
    | enterInterface kif af => exact checked_addIface checked allowed
    | beginTneighbor addr =>
      refine ⟨checked.ifaces, checked.pws, List.nodup_cons.mpr ⟨fun member => ?_, checked.tnbrs⟩,
        fun tnbr member => ?_, checked.nbrps, checked.pointers, checked.names, checked.stored⟩
      · obtain ⟨pair, paired, rfl⟩ := List.mem_map.mp member
        obtain ⟨tnbr, there, rfl⟩ := List.mem_map.mp paired
        exact allowed tnbr there rfl
      · rcases List.mem_cons.mp member with rfl | member
        · rfl
        · exact checked.configured tnbr member
    | beginNeighbor lsrId =>
      refine ⟨checked.ifaces, checked.pws, checked.tnbrs, checked.configured,
        List.nodup_cons.mpr ⟨fun member => ?_, checked.nbrps⟩, checked.pointers, checked.names,
        checked.stored⟩
      obtain ⟨nbrp, there, same⟩ := List.mem_map.mp member
      exact allowed nbrp there same
    | beginL2vpn name => exact checked_beginL2vpn checked allowed
    | addL2vpnIf kif => exact checked_addL2vpnIf checked allowed.1 allowed.2
    | beginPw kif => exact checked_addPw checked allowed
    | _ => exact adds.elim
  · rw [keys_change allowed adds]
    exact checked

/-! ### Accepted configurations -/

theorem sound_checked : Sound fun _ s => s.keys.Checked where
  reading checked _ _ := checked
  acts checked _ allowed := checked_change checked allowed

theorem checked_opens (s : Statics) (file : ParseFile) : (s.opens file).keys.Checked where
  ifaces := .nil
  pws := .nil
  tnbrs := .nil
  configured := fun tnbr member => by cases member
  nbrps := .nil
  pointers := rfl
  names := .nil
  stored := fun name member => by cases member

/-- No key occurs twice. -/
structure LdpdConf.UniqueKeys (conf : LdpdConf) : Prop where
  ifaces : (conf.ifaceList.map ConfIface.ifindex ++
    conf.l2vpnList.flatMap fun l2vpn => l2vpn.ifList.map ConfL2vpnIf.ifindex).Nodup
  pws : (conf.l2vpnList.flatMap fun l2vpn => l2vpn.pwList.map ConfPw.ifindex).Nodup
  tnbrs : (conf.tnbrList.map ConfTnbr.addr).Nodup
  nbrps : (conf.nbrpList.map NbrParams.lsrId).Nodup
  l2vpns : (conf.l2vpnList.map ConfL2vpn.name).Nodup

/-- The names of the L2VPNs in a file, the last first: no name that is too long to be stored begins
like an earlier one. -/
def ToldApart (names : List String) : Prop :=
  names.Pairwise fun later earlier =>
    ¬(31 < later.length ∧ Parse.shortName later = Parse.shortName earlier)

variable {s' : Statics} {macros : List (String × String)} {host : ParseHost} {fuel : Nat}
  {filename : String} {conf : LdpdConf}

theorem shortName_of_short {name : String} (short : name.length ≤ 31) : Parse.shortName name = name := by
  rw [Parse.shortName, List.take_of_length_le short, String.ofList_toList]

/-- The names that are stored differ if all names can be told apart. -/
theorem Keys.Checked.toldApart {keys : Keys} (checked : keys.Checked) :
    (keys.names.map Prod.snd).Nodup ↔ ToldApart (keys.names.map Prod.fst) := by
  rw [ToldApart, List.Nodup, List.pairwise_map, List.pairwise_map]
  have each : ∀ later ∈ keys.names, ∀ earlier ∈ keys.names, earlier.2 ≠ later.1 →
      (later.2 ≠ earlier.2 ↔
        ¬(31 < later.1.length ∧ Parse.shortName later.1 = Parse.shortName earlier.1)) := by
    intro later there earlier before differ
    rw [checked.stored later there, checked.stored earlier before]
    rw [checked.stored earlier before] at differ
    refine not_congr ⟨fun same => ⟨?_, same⟩, fun both => both.2⟩
    by_contra short
    rw [shortName_of_short (Nat.le_of_not_lt short)] at same
    exact differ same.symm
  constructor
  · intro unique
    exact (checked.names.and unique).imp_of_mem fun there before both =>
      (each _ there _ before both.1).mp both.2
  · intro apart
    exact (checked.names.and apart).imp_of_mem fun there before both =>
      (each _ there _ before both.1).mpr both.2

/-- The keys of an accepted configuration are unique if and only if the names of its L2VPNs can be
told apart when they are stored. -/
theorem unique_keys_iff (process : Process macros s)
    (parsed : parseConfig host fuel filename s = some (some conf, s')) :
    conf.UniqueKeys ↔ ToldApart (s'.l2vpns.map ParseL2vpn.given) := by
  obtain ⟨t, checked, rfl, rfl⟩ := sound_checked.always process.idle (checked_opens s) parsed
  have l2vpns : (t.result host).l2vpnList.map ConfL2vpn.name = t.keys.names.map Prod.snd := by
    show (t.l2vpns.map ParseL2vpn.conf).map ConfL2vpn.name =
      (t.l2vpns.map fun l2vpn => (l2vpn.given, l2vpn.name)).map Prod.snd
    rw [List.map_map, List.map_map]
    rfl
  have givens : t.cleanUp.l2vpns.map ParseL2vpn.given = t.keys.names.map Prod.fst := by
    show t.l2vpns.map ParseL2vpn.given =
      (t.l2vpns.map fun l2vpn => (l2vpn.given, l2vpn.name)).map Prod.fst
    rw [List.map_map]
    rfl
  have l2vpnIfs : ((t.result host).l2vpnList.flatMap fun l2vpn =>
      l2vpn.ifList.map ConfL2vpnIf.ifindex) = t.keys.l2vpnIfs :=
    List.flatMap_map ..
  have pws : ((t.result host).l2vpnList.flatMap fun l2vpn => l2vpn.pwList.map ConfPw.ifindex) =
      t.keys.pws :=
    (List.flatMap_map ..).trans (List.flatMap_congr fun l2vpn _ => List.map_map)
  have tnbrs : (t.result host).tnbrList.map ConfTnbr.addr = t.keys.tnbrs.map Prod.fst := by
    show t.conf.tnbrList.map ConfTnbr.addr =
      (t.conf.tnbrList.map fun tnbr => (tnbr.addr, tnbr.configured)).map Prod.fst
    rw [List.map_map]
    rfl
  rw [givens, ← checked.toldApart, ← l2vpns]
  refine ⟨LdpdConf.UniqueKeys.l2vpns, fun unique => ⟨?_, ?_, ?_, checked.nbrps, unique⟩⟩
  · rw [l2vpnIfs]
    exact checked.ifaces
  · rw [pws]
    exact checked.pws
  · rw [tnbrs]
    exact checked.tnbrs

/-- A system with some interfaces, on which every name is a file that says the same. -/
def oneFile (text : String) : ParseHost where
  openFile := fun _ => some text.toList
  kifFindname := fun name =>
    if name = "em0" then some { ifname := name, ifindex := 1, ifType := .other }
    else if name = "mpw0" then some { ifname := name, ifindex := 2, ifType := .mplstunnel }
    else if name = "mpw1" then some { ifname := name, ifindex := 3, ifType := .mplstunnel }
    else none
  inetAton := fun name => if name = "10.0.0.2" then some 0x0a000002 else none
  inetPton := fun name af =>
    if name = "10.0.0.2" ∧ af = .inet then some (.v4 0x0a000002) else none
  getRtrId := 0x0a000001

/-- Two L2VPNs whose names of 32 characters differ in the last one only. -/
def longNames : String :=
  "l2vpn abcdefghijklmnopqrstuvwxyz012345 type vpls\n" ++
    "l2vpn abcdefghijklmnopqrstuvwxyz012346 type vpls\n"

/-- They are accepted, and get the same name. -/
theorem longNames_coincide : ∃ conf s, parseConfig (oneFile longNames) 300 "" (.start []) = some (some conf, s) ∧
    ¬conf.UniqueKeys := by
  have parsed : (parseConfig (oneFile longNames) 300 "" (.start [])).map
      (fun both => both.1.map fun conf => conf.l2vpnList.map ConfL2vpn.name) =
        some (some ["abcdefghijklmnopqrstuvwxyz01234", "abcdefghijklmnopqrstuvwxyz01234"]) := by
    decide +kernel
  obtain ⟨⟨result, s⟩, returned, accepted⟩ := Option.map_eq_some_iff.mp parsed
  obtain ⟨conf, rfl, names⟩ := Option.map_eq_some_iff.mp accepted
  refine ⟨conf, s, returned, fun unique => ?_⟩
  have distinct := unique.l2vpns
  rw [names] at distinct
  exact absurd distinct (by decide)

/-- Two L2VPNs with long names that can be told apart, before a zero byte. -/
def otherNames : String :=
  "l2vpn abcdefghijklmnopqrstuvwxyz012345 type vpls\n" ++
    "l2vpn 012345abcdefghijklmnopqrstuvwxyz type vpls\n\x00l2vpn"

theorem unique_keys_iff_otherNames :
    ∃ conf s, parseConfig (oneFile otherNames) 300 "" (.start []) = some (some conf, s) ∧
      conf.UniqueKeys := by
  have parsed : (parseConfig (oneFile otherNames) 300 "" (.start [])).map
      (fun both => (both.1.isSome, both.2.l2vpns.map ParseL2vpn.given)) =
        some (true, ["012345abcdefghijklmnopqrstuvwxyz", "abcdefghijklmnopqrstuvwxyz012345"]) := by
    decide +kernel
  obtain ⟨⟨result, s⟩, returned, accepted⟩ := Option.map_eq_some_iff.mp parsed
  obtain ⟨some', givens⟩ := Prod.mk.inj accepted
  obtain ⟨conf, rfl⟩ := Option.isSome_iff_exists.mp some'
  refine ⟨conf, s, returned, (unique_keys_iff (show Process [] _ from .start) returned).mpr ?_⟩
  rw [givens]
  have apart : Parse.shortName "012345abcdefghijklmnopqrstuvwxyz" ≠
      Parse.shortName "abcdefghijklmnopqrstuvwxyz012345" := by decide
  exact List.pairwise_pair.mpr fun both => apart both.2

end Ldpd
