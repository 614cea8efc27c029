/-
This file follows the pseudowires through reloads. The FEC of a pseudowire is computed
from the pseudowire and from its L2VPN each time it is started or stopped, and a reload
changes the two at different moments. Between them, the type that a pseudowire was
started with need not be that of its L2VPN.
-/

import Ldpd.Lde.Labels

namespace Ldpd

/-! ### Where pseudowires are installed -/

/-- What a pseudowire leaves under its FEC. -/
def Fec.pwKeys : Fec → List (LdpdAddr × UInt8)
  | .pwid _ _ lsrId => [(.v4 lsrId, 0)]
  | _ => []

/-- The nodes that refer to a pseudowire are those that the pseudowires are said to be under, each
with its one nexthop. -/
structure Lde.Installs (lde : Lde) (place : Nat → Option Fec) : Prop where
  idle : lde.Idle
  installed : ∀ data fec, place data = some fec →
    lde.data fec = some data ∧ nexthopKeys (lde.nexthops fec) = fec.pwKeys
  owned : ∀ fec data, lde.data fec = some data → place data = some fec

section Installs

variable {lde lde' : Lde} {place place' : Nat → Option Fec} {data : Nat} {pw : L2vpnPw}

theorem Lde.Installs.congr (installs : lde.Installs place) (same : ∀ data, place' data = place data) :
    lde.Installs place' where
  idle := installs.idle
  installed data fec placed := installs.installed data fec ((same data).symm.trans placed)
  owned fec data owned := (same data).trans (installs.owned fec data owned)

theorem Lde.Installs.kept (installs : lde.Installs place) (idle : lde'.Idle)
    (keys : ∀ fec, nexthopKeys (lde'.nexthops fec) = nexthopKeys (lde.nexthops fec))
    (same : ∀ fec, lde'.data fec = lde.data fec) : lde'.Installs place where
  idle := idle
  installed data fec placed := by
    rw [same, keys]
    exact installs.installed data fec placed
  owned fec data owned := installs.owned fec data ((same fec).symm.trans owned)

/-- The tables of the configuration are something else. -/
theorem Lde.Installs.configure (installs : lde.Installs place) (l2vpnList : List Nat)
    (l2vpns : Std.ExtTreeMap Nat L2vpn compare) (pws : Std.ExtTreeMap Nat L2vpnPw compare) :
    Lde.Installs { lde with l2vpnList, l2vpns, pws } place :=
  installs.kept (idle_configure installs.idle l2vpnList l2vpns pws) (fun _ => rfl) fun _ => rfl

/-- A pseudowire that is started under a FEC that nothing is under. -/
theorem Lde.Installs.init (installs : lde.Installs place) (known : lde.pws[data]? = some pw)
    (waiting : place data = none) (free : lde.nexthops (l2vpnPwFec lde pw) = []) :
    ConfKept lde (l2vpnPwInit lde data) ∧
      (l2vpnPwInit lde data).Installs (Function.update place data (some (l2vpnPwFec lde pw))) ∧
        ∀ fec, fec ≠ l2vpnPwFec lde pw → lde.nexthops fec = [] →
          (l2vpnPwInit lde data).nexthops fec = [] := by
  have reset : FecsKept lde (lde.updatePw data l2vpnPwReset) := .updatePw lde data fun _ => rfl
  have absent : ¬(lde.updatePw data l2vpnPwReset).HasNexthop (l2vpnPwFec lde pw) (.v4 pw.lsrId) 0 := by
    rw [Lde.HasNexthop, reset.keys, free]
    exact List.not_mem_nil
  have run : l2vpnPwInit lde data = ldeKernelInsert (lde.updatePw data l2vpnPwReset)
      (l2vpnPwFec lde pw) (.v4 pw.lsrId) 0 false (some data) := by
    rw [l2vpnPwInit, known]
  have inserted := ((ldeKernelInsert_inserts (lde.updatePw data l2vpnPwReset) (l2vpnPwFec lde pw)
    (.v4 pw.lsrId) 0 false (some data)).resolve_left fun both => absent both.1).2
  rw [← run] at inserted
  have keys (fec : Fec) : nexthopKeys ((l2vpnPwInit lde data).nexthops fec) =
      if fec = l2vpnPwFec lde pw then (l2vpnPwFec lde pw).pwKeys
      else nexthopKeys (lde.nexthops fec) := by
    rw [inserted.keys, reset.keys, reset.keys, free]
    rfl
  have owner (fec : Fec) : (l2vpnPwInit lde data).data fec =
      if fec = l2vpnPwFec lde pw then some data else lde.data fec := by
    rw [inserted.data, reset.data]
    refine if_congr (and_iff_left rfl) rfl rfl
  refine ⟨reset.toConfKept.trans inserted.toConfKept,
    ⟨inserted.idle (reset.idle installs.idle), fun other fec placed => ?_, fun fec other owned => ?_⟩,
    fun fec different empty => ?_⟩
  · rw [owner, keys]
    by_cases same : other = data
    · subst same
      rw [Function.update_self] at placed
      cases placed
      exact ⟨if_pos rfl, if_pos rfl⟩
    · rw [Function.update_of_ne same] at placed
      have before := installs.installed other fec placed
      have different : fec ≠ l2vpnPwFec lde pw := by
        rintro rfl
        rw [installs.idle.data _ free] at before
        cases before.1
      rw [if_neg different, if_neg different]
      exact before
  · rw [owner] at owned
    split at owned
    · rename_i same
      cases owned
      rw [Function.update_self, same]
    · have placed := installs.owned fec other owned
      have different : other ≠ data := by
        rintro rfl
        cases waiting.symm.trans placed
      rw [Function.update_of_ne different]
      exact placed
  · rw [← nexthopKeys_eq_nil, keys, if_neg different, nexthopKeys_eq_nil]
    exact empty

/-- A pseudowire that is stopped under the FEC that it is under. -/
theorem Lde.Installs.exit (installs : lde.Installs place) (known : lde.pws[data]? = some pw)
    (placed : place data = some (l2vpnPwFec lde pw)) :
    ConfKept lde (l2vpnPwExit lde data) ∧
      (l2vpnPwExit lde data).Installs (Function.update place data none) ∧
        (l2vpnPwExit lde data).nexthops (l2vpnPwFec lde pw) = [] ∧
          ∀ fec, lde.nexthops fec = [] → (l2vpnPwExit lde data).nexthops fec = [] := by
  obtain ⟨own, listed⟩ := installs.installed data _ placed
  have present : lde.HasNexthop (l2vpnPwFec lde pw) (.v4 pw.lsrId) 0 := by
    rw [Lde.HasNexthop, listed]
    exact List.mem_cons_self
  have run : l2vpnPwExit lde data = ldeKernelRemove lde (l2vpnPwFec lde pw) (.v4 pw.lsrId) 0 := by
    rw [l2vpnPwExit, known]
  have removed := ((ldeKernelRemove_removes lde (l2vpnPwFec lde pw) (.v4 pw.lsrId) 0).resolve_left
    fun both => both.1 present).2
  rw [← run] at removed
  have keys (fec : Fec) : nexthopKeys ((l2vpnPwExit lde data).nexthops fec) =
      if fec = l2vpnPwFec lde pw then [] else nexthopKeys (lde.nexthops fec) := by
    rw [removed.keys, listed]
    refine if_congr Iff.rfl ?_ rfl
    show List.filter _ [((LdpdAddr.v4 pw.lsrId), (0 : UInt8))] = []
    simp
  have empty : (l2vpnPwExit lde data).nexthops (l2vpnPwFec lde pw) = [] := by
    rw [← nexthopKeys_eq_nil, keys, if_pos rfl]
  have owner (fec : Fec) : (l2vpnPwExit lde data).data fec =
      if fec = l2vpnPwFec lde pw then none else lde.data fec := by
    rw [removed.data]
    exact if_congr (and_iff_left ⟨rfl, empty⟩) rfl rfl
  refine ⟨removed.toConfKept, ⟨removed.idle installs.idle, fun other fec placed' => ?_,
    fun fec other owned => ?_⟩, empty, fun fec bare => ?_⟩
  · have different : other ≠ data := by
      rintro rfl
      rw [Function.update_self] at placed'
      cases placed'
    rw [Function.update_of_ne different] at placed'
    have before := installs.installed other fec placed'
    have apart : fec ≠ l2vpnPwFec lde pw := by
      rintro rfl
      exact different (Option.some.inj (before.1.symm.trans own))
    rw [owner, keys, if_neg apart, if_neg apart]
    exact before
  · rw [owner] at owned
    split at owned
    · cases owned
    · rename_i apart
      have placed' := installs.owned fec other owned
      have different : other ≠ data := by
        rintro rfl
        exact apart (Option.some.inj (placed'.symm.trans placed))
      rw [Function.update_of_ne different]
      exact placed'
  · rw [← nexthopKeys_eq_nil, keys]
    split
    · rfl
    · exact (nexthopKeys_eq_nil _).mpr bare

end Installs

/-! ### The tables of the configuration -/

/-- What is configured of a pseudowire. -/
def Lde.pwConf (lde : Lde) (data : Nat) : Option PwConf := (lde.pws[data]?).map L2vpnPw.conf

/-- The pseudowires of an L2VPN. -/
def Lde.pwList (lde : Lde) (l2vpn : Nat) : List Nat := (lde.l2vpns.getD l2vpn default).pwList

/-- The type of the pseudowires of an L2VPN. -/
def Lde.pwType (lde : Lde) (l2vpn : Nat) : UInt16 := (lde.l2vpns.getD l2vpn default).pwType

/-- The FEC of a pseudowire, for a type. -/
def PwConf.fec (conf : PwConf) (pwType : UInt16) : Fec := .pwid pwType conf.pwid conf.lsrId

/-- The tables fit together: the pseudowires are those in the lists of the L2VPNs, each in that of
its own, and no two of one L2VPN are for the same interface. -/
structure Lde.Configured (lde : Lde) : Prop where
  unique : lde.l2vpnList.Nodup
  listed : ∀ l2vpn, l2vpn ∈ lde.l2vpnList ↔ l2vpn ∈ lde.l2vpns
  nodup : ∀ l2vpn, (lde.pwList l2vpn).Nodup
  member : ∀ l2vpn data, data ∈ lde.pwList l2vpn ↔
    ∃ conf, lde.pwConf data = some conf ∧ conf.l2vpn = l2vpn
  distinct : ∀ data other conf conf', lde.pwConf data = some conf → lde.pwConf other = some conf' →
    conf.l2vpn = conf'.l2vpn → conf.ifindex = conf'.ifindex → data = other

section Tables

variable {lde lde' : Lde}

theorem ConfKept.pwConf (kept : ConfKept lde lde') (data : Nat) : lde'.pwConf data = lde.pwConf data :=
  kept.pws data

theorem ConfKept.pwList (kept : ConfKept lde lde') (l2vpn : Nat) :
    lde'.pwList l2vpn = lde.pwList l2vpn := by
  rw [Lde.pwList, Lde.pwList, kept.l2vpns]

theorem ConfKept.pwType (kept : ConfKept lde lde') (l2vpn : Nat) :
    lde'.pwType l2vpn = lde.pwType l2vpn := by
  rw [Lde.pwType, Lde.pwType, kept.l2vpns]

theorem Lde.Configured.kept (configured : lde.Configured) (kept : ConfKept lde lde') :
    lde'.Configured where
  unique := by
    rw [kept.l2vpnList]
    exact configured.unique
  listed l2vpn := by
    rw [kept.l2vpnList, kept.l2vpns]
    exact configured.listed l2vpn
  nodup l2vpn := by
    rw [kept.pwList]
    exact configured.nodup l2vpn
  member l2vpn data := by
    rw [kept.pwList, kept.pwConf]
    exact configured.member l2vpn data
  distinct data other conf conf' := by
    rw [kept.pwConf, kept.pwConf]
    exact configured.distinct data other conf conf'

/-- The FEC of a pseudowire of the table. -/
theorem Lde.exists_pw {data : Nat} {conf : PwConf} (known : lde.pwConf data = some conf) :
    ∃ pw, lde.pws[data]? = some pw ∧ pw.conf = conf ∧
      l2vpnPwFec lde pw = conf.fec (lde.pwType conf.l2vpn) := by
  obtain ⟨pw, found, rfl⟩ := Option.map_eq_some_iff.mp known
  exact ⟨pw, found, rfl, rfl⟩

/-- An L2VPN after one has been changed. -/
theorem getD_modify {table : Std.ExtTreeMap Nat L2vpn compare} {l2vpn : Nat} (known : l2vpn ∈ table)
    (other : Nat) (change : L2vpn → L2vpn) : (table.modify l2vpn change).getD other default =
      if l2vpn = other then change (table.getD l2vpn default) else table.getD other default := by
  obtain ⟨old, found⟩ := (Tree.mem_iff_getElem? table l2vpn).mp known
  rw [Std.ExtTreeMap.getD_eq_getD_getElem?, Std.ExtTreeMap.getD_eq_getD_getElem?,
    Std.ExtTreeMap.getD_eq_getD_getElem?, Tree.getElem?_modify]
  by_cases same : l2vpn = other
  · subst same
    rw [if_pos rfl, if_pos rfl, found]
    rfl
  · rw [if_neg same, if_neg same]

/-- An L2VPN that has pseudowires is there. -/
theorem mem_l2vpns_of_pwList {l2vpn data : Nat} (member : data ∈ lde.pwList l2vpn) :
    l2vpn ∈ lde.l2vpns := by
  by_contra absent
  rw [Lde.pwList, Std.ExtTreeMap.getD_eq_getD_getElem?, Std.ExtTreeMap.getElem?_eq_none absent] at member
  exact absurd member List.not_mem_nil

theorem freshKey_not_mem {Entry : Type} (table : Std.ExtTreeMap Nat Entry compare) :
    freshKey table ∉ table := by
  have below (keys : List Nat) (start : Nat) :
      start ≤ keys.foldl max start ∧ ∀ key ∈ keys, key ≤ keys.foldl max start := by
    induction keys generalizing start with
    | nil => exact ⟨Nat.le_refl _, fun _ member => absurd member List.not_mem_nil⟩
    | cons key rest inductionHypothesis =>
      obtain ⟨least, others⟩ := inductionHypothesis (max start key)
      refine ⟨Nat.le_trans (Nat.le_max_left _ _) least, fun other member => ?_⟩
      rcases List.mem_cons.mp member with rfl | member
      · exact Nat.le_trans (Nat.le_max_right _ _) least
      · exact others other member
  intro member
  have bound := (below table.keys 0).2 _ (Std.ExtTreeMap.mem_keys.mpr member)
  rw [freshKey] at bound
  exact absurd bound (Nat.not_succ_le_self _)

end Tables

/-! ### Following the pseudowires -/

/-- The FEC of a pseudowire, for the type that it was started with. -/
def Lde.fecBy (lde : Lde) (type : PwConf → UInt16) (data : Nat) : Option Fec :=
  (lde.pwConf data).map fun conf => conf.fec (type conf)

/-- Every pseudowire is under its FEC. -/
def Lde.Settled (lde : Lde) : Prop :=
  lde.Configured ∧ lde.Installs (lde.fecBy fun conf => lde.pwType conf.l2vpn)

section Following

variable {lde lde' : Lde} {place : Nat → Option Fec}

/-- Pseudowires that are stopped one after the other. -/
theorem Lde.Installs.exits (installs : lde.Installs place) {items : List Nat} (nodup : items.Nodup)
    (placed : ∀ data ∈ items, ∃ conf, lde.pwConf data = some conf ∧
      place data = some (conf.fec (lde.pwType conf.l2vpn))) :
    ConfKept lde (items.foldl l2vpnPwExit lde) ∧
      (items.foldl l2vpnPwExit lde).Installs fun data => if data ∈ items then none else place data := by
  induction items generalizing lde place with
  | nil => exact ⟨.refl lde, installs.congr fun data => if_neg List.not_mem_nil⟩
  | cons data rest inductionHypothesis =>
    obtain ⟨conf, known, under⟩ := placed data List.mem_cons_self
    obtain ⟨pw, found, rfl, fec⟩ := Lde.exists_pw known
    obtain ⟨kept, stopped, -⟩ := installs.exit found (under.trans (congrArg some fec.symm))
    have fresh := List.nodup_cons.mp nodup
    obtain ⟨kept', stopped'⟩ := inductionHypothesis stopped fresh.2 fun other member => by
      obtain ⟨conf', known', under'⟩ := placed other (List.mem_cons_of_mem data member)
      refine ⟨conf', (kept.pwConf other).trans known', ?_⟩
      have different : other ≠ data := by
        rintro rfl
        exact fresh.1 member
      rw [Function.update_of_ne different, kept.pwType]
      exact under'
    refine ⟨kept.trans kept', stopped'.congr fun other => ?_⟩
    by_cases same : other = data
    · subst same
      rw [if_pos List.mem_cons_self, Function.update_self, ite_self]
    · rw [Function.update_of_ne same]
      refine if_congr ?_ rfl rfl
      rw [List.mem_cons, or_iff_right same]

/-- Pseudowires that are started one after the other. -/
theorem Lde.Installs.inits (installs : lde.Installs place) {items : List Nat} (nodup : items.Nodup)
    (under : Nat → Fec)
    (waiting : ∀ data ∈ items, place data = none ∧ lde.nexthops (under data) = [] ∧
      ∃ conf, lde.pwConf data = some conf ∧ under data = conf.fec (lde.pwType conf.l2vpn))
    (distinct : ∀ data ∈ items, ∀ other ∈ items, under data = under other → data = other) :
    ConfKept lde (items.foldl l2vpnPwInit lde) ∧
      (items.foldl l2vpnPwInit lde).Installs fun data =>
        if data ∈ items then some (under data) else place data := by
  induction items generalizing lde place with
  | nil => exact ⟨.refl lde, installs.congr fun data => if_neg List.not_mem_nil⟩
  | cons data rest inductionHypothesis =>
    obtain ⟨idle, free, conf, known, fec⟩ := waiting data List.mem_cons_self
    obtain ⟨pw, found, rfl, fec'⟩ := Lde.exists_pw known
    have same : l2vpnPwFec lde pw = under data := fec'.trans fec.symm
    obtain ⟨kept, started, others⟩ := installs.init found idle (same ▸ free)
    rw [same] at started others
    have fresh := List.nodup_cons.mp nodup
    have different {other : Nat} (member : other ∈ rest) : other ≠ data := by
      rintro rfl
      exact fresh.1 member
    obtain ⟨kept', started'⟩ := inductionHypothesis started fresh.2
      (fun other member => by
        obtain ⟨idle', free', conf', known', fec''⟩ := waiting other (List.mem_cons_of_mem data member)
        refine ⟨?_, others _ (fun equal => different member ?_) free', conf',
          (kept.pwConf other).trans known', ?_⟩
        · rw [Function.update_of_ne (different member)]
          exact idle'
        · exact distinct other (List.mem_cons_of_mem data member) data List.mem_cons_self equal
        · rw [kept.pwType]
          exact fec'')
      fun first member second member' => distinct first (List.mem_cons_of_mem data member) second
        (List.mem_cons_of_mem data member')
    refine ⟨kept.trans kept', started'.congr fun other => ?_⟩
    by_cases equal : other = data
    · subst equal
      rw [if_pos List.mem_cons_self, Function.update_self, ite_self]
    · rw [Function.update_of_ne equal]
      refine if_congr ?_ rfl rfl
      rw [List.mem_cons, or_iff_right equal]

/-- A pseudowire of a list is known. -/
theorem Lde.Configured.placed (configured : lde.Configured) (type : PwConf → UInt16) {l2vpn data : Nat}
    (member : data ∈ lde.pwList l2vpn) : ∃ conf, lde.pwConf data = some conf ∧ conf.l2vpn = l2vpn ∧
      lde.fecBy type data = some (conf.fec (type conf)) := by
  obtain ⟨conf, known, own⟩ := (configured.member l2vpn data).mp member
  refine ⟨conf, known, own, ?_⟩
  rw [Lde.fecBy, known]
  rfl

/-- Pseudowires that are stopped leave the tables, and with them maybe their L2VPN. -/
theorem Lde.Settled.remove (settled : lde.Settled) {gone : List Nat}
    (stopped : lde'.Installs fun data => if data ∈ gone then none
      else lde.fecBy (fun conf => lde.pwType conf.l2vpn) data)
    (unique : lde'.l2vpnList.Nodup) (listed : ∀ l2vpn, l2vpn ∈ lde'.l2vpnList ↔ l2vpn ∈ lde'.l2vpns)
    (nodup : ∀ l2vpn, (lde'.pwList l2vpn).Nodup)
    (member : ∀ l2vpn data, data ∈ lde'.pwList l2vpn ↔ data ∈ lde.pwList l2vpn ∧ data ∉ gone)
    (conf : ∀ data, lde'.pwConf data = if data ∈ gone then none else lde.pwConf data)
    (type : ∀ data conf, data ∉ gone → lde.pwConf data = some conf →
      lde'.pwType conf.l2vpn = lde.pwType conf.l2vpn) : lde'.Settled := by
  have remains {data : Nat} {conf' : PwConf} (known : lde'.pwConf data = some conf') :
      data ∉ gone ∧ lde.pwConf data = some conf' := by
    rw [conf] at known
    split at known
    · cases known
    · rename_i left
      exact ⟨left, known⟩
  refine ⟨⟨unique, listed, nodup, fun l2vpn data => ?_, ?_⟩, stopped.congr fun data => ?_⟩
  · rw [member, settled.1.member]
    constructor
    · rintro ⟨⟨conf', known, own⟩, left⟩
      exact ⟨conf', (conf data).trans ((if_neg left).trans known), own⟩
    · rintro ⟨conf', known, own⟩
      exact ⟨⟨conf', (remains known).2, own⟩, (remains known).1⟩
  · intro data other conf₁ conf₂ known₁ known₂
    exact settled.1.distinct data other conf₁ conf₂ (remains known₁).2 (remains known₂).2
  · rw [Lde.fecBy, conf]
    by_cases left : data ∈ gone
    · rw [if_pos left, if_pos left]
      rfl
    · rw [if_neg left, if_neg left, Lde.fecBy]
      cases known : lde.pwConf data with
      | none => rfl
      | some conf' => exact congrArg (fun type => some (conf'.fec type)) (type data conf' left known)

theorem getElem?_foldl_erase (pws : Std.ExtTreeMap Nat L2vpnPw compare) (items : List Nat) (data : Nat) :
    (items.foldl (fun pws data => pws.erase data) pws)[data]? =
      if data ∈ items then none else pws[data]? := by
  induction items generalizing pws with
  | nil => rw [List.foldl_nil, if_neg List.not_mem_nil]
  | cons item rest inductionHypothesis =>
    rw [List.foldl_cons, inductionHypothesis, Tree.getElem?_erase]
    by_cases same : item = data
    · rw [if_pos same, ite_self, if_pos (same ▸ List.mem_cons_self)]
    · rw [if_neg same]
      refine if_congr ?_ rfl rfl
      rw [List.mem_cons, or_iff_right (Ne.symm same)]

theorem getD_erase (table : Std.ExtTreeMap Nat L2vpn compare) (l2vpn other : Nat) :
    (table.erase l2vpn).getD other default =
      if l2vpn = other then default else table.getD other default := by
  rw [Std.ExtTreeMap.getD_eq_getD_getElem?, Tree.getElem?_erase, Std.ExtTreeMap.getD_eq_getD_getElem?]
  split
  · rfl
  · rfl

/-- An L2VPN leaves the tables, with its pseudowires stopped. -/
theorem Lde.Settled.removeL2vpn (settled : lde.Settled) {l2vpn : Nat}
    (kept : ConfKept { lde with l2vpnList := lde.l2vpnList.erase l2vpn } lde')
    (stopped : lde'.Installs fun data => if data ∈ lde.pwList l2vpn then none
      else lde.fecBy (fun conf => lde.pwType conf.l2vpn) data) :
    Lde.Settled { lde' with
      l2vpns := lde'.l2vpns.erase l2vpn
      pws := (lde.pwList l2vpn).foldl (fun pws data => pws.erase data) lde'.pws } := by
  have configured := settled.1
  have l2vpns : lde'.l2vpns = lde.l2vpns := kept.l2vpns
  have lists : lde'.l2vpnList = lde.l2vpnList.erase l2vpn := kept.l2vpnList
  have left {other data : Nat} (member : data ∈ lde.pwList other) (different : l2vpn ≠ other) :
      data ∉ lde.pwList l2vpn := by
    intro member'
    obtain ⟨conf, known, own⟩ := (configured.member other data).mp member
    obtain ⟨conf', known', own'⟩ := (configured.member l2vpn data).mp member'
    cases known.symm.trans known'
    exact different (own'.symm.trans own)
  refine settled.remove (stopped.configure _ _ _) ?_ (fun other => ?_) (fun other => ?_)
    (fun other data => ?_) (fun data => ?_) fun data conf here known => ?_
  · rw [lists]
    exact configured.unique.erase l2vpn
  · show other ∈ lde'.l2vpnList ↔ other ∈ lde'.l2vpns.erase l2vpn
    rw [lists, l2vpns, configured.unique.mem_erase_iff, configured.listed, Tree.mem_iff_getElem?,
      Tree.mem_iff_getElem?, Tree.getElem?_erase]
    by_cases same : l2vpn = other
    · simp [same]
    · rw [if_neg same, and_iff_right (Ne.symm same)]
  · show ((lde'.l2vpns.erase l2vpn).getD other default).pwList.Nodup
    rw [l2vpns, getD_erase]
    split
    · exact List.nodup_nil
    · exact configured.nodup other
  · show data ∈ ((lde'.l2vpns.erase l2vpn).getD other default).pwList ↔ _
    rw [l2vpns, getD_erase]
    split
    · rename_i same
      subst same
      exact iff_of_false List.not_mem_nil fun both => both.2 both.1
    · rename_i different
      exact (and_iff_left_of_imp fun member => left member different).symm
  · show (((lde.pwList l2vpn).foldl (fun pws data => pws.erase data) lde'.pws)[data]?).map _ = _
    rw [getElem?_foldl_erase]
    split
    · rfl
    · exact kept.pws data
  · show ((lde'.l2vpns.erase l2vpn).getD conf.l2vpn default).pwType = _
    rw [l2vpns, getD_erase, if_neg]
    · rfl
    · intro same
      exact here ((configured.member l2vpn data).mpr ⟨conf, known, same.symm⟩)

/-- An L2VPN that is gone from the configuration. -/
theorem Lde.Settled.sweepL2vpn (settled : lde.Settled) (xls : List XconfL2vpn) (l2vpn : Nat) :
    (sweepL2vpn xls lde l2vpn).Settled := by
  rw [Ldpd.sweepL2vpn]
  dsimp only
  split
  · exact settled
  have unlisted : Lde.Installs { lde with l2vpnList := lde.l2vpnList.erase l2vpn } _ :=
    settled.2.configure (lde.l2vpnList.erase l2vpn) lde.l2vpns lde.pws
  obtain ⟨kept, stopped⟩ := unlisted.exits (settled.1.nodup l2vpn) fun data member => by
    obtain ⟨conf, known, _, placed⟩ := settled.1.placed _ member
    exact ⟨conf, known, placed⟩
  exact settled.removeL2vpn kept stopped

/-- A pseudowire leaves the tables, stopped. -/
theorem Lde.Settled.removePw (settled : lde.Settled) {data : Nat} {conf : PwConf}
    (known : lde.pwConf data = some conf) (kept : ConfKept lde lde')
    (stopped : lde'.Installs fun other => if other ∈ [data] then none
      else lde.fecBy (fun conf => lde.pwType conf.l2vpn) other) :
    Lde.Settled { lde'.updatePwList conf.l2vpn (·.erase data) with pws := lde'.pws.erase data } := by
  have configured := settled.1
  have listed : data ∈ lde.pwList conf.l2vpn := (configured.member _ _).mpr ⟨conf, known, rfl⟩
  have present : conf.l2vpn ∈ lde'.l2vpns := by
    rw [kept.l2vpns]
    exact mem_l2vpns_of_pwList listed
  have table (other : Nat) : (lde'.l2vpns.modify conf.l2vpn fun l2vpn =>
      { l2vpn with pwList := l2vpn.pwList.erase data }).getD other default =
        if conf.l2vpn = other then { lde.l2vpns.getD conf.l2vpn default with
          pwList := (lde.pwList conf.l2vpn).erase data } else lde.l2vpns.getD other default := by
    rw [getD_modify present, kept.l2vpns]
    rfl
  refine settled.remove (stopped.configure _ _ _) ?_ (fun other => ?_) (fun other => ?_)
    (fun other data' => ?_) (fun data' => ?_) fun data' conf' _ _ => ?_
  · show lde'.l2vpnList.Nodup
    rw [kept.l2vpnList]
    exact configured.unique
  · show other ∈ lde'.l2vpnList ↔ other ∈ lde'.l2vpns.modify _ _
    rw [Std.ExtTreeMap.mem_modify, kept.l2vpnList, kept.l2vpns]
    exact configured.listed other
  · show ((lde'.l2vpns.modify _ _).getD other default).pwList.Nodup
    rw [table]
    split
    · exact (configured.nodup _).erase data
    · exact configured.nodup other
  · show data' ∈ ((lde'.l2vpns.modify _ _).getD other default).pwList ↔ _
    rw [table, List.mem_singleton]
    split
    · rename_i same
      subst same
      exact (configured.nodup _).mem_erase_iff.trans and_comm
    · rename_i different
      refine (and_iff_left_of_imp fun member => ?_).symm
      rintro rfl
      obtain ⟨conf', known', own⟩ := (configured.member other data').mp member
      cases known.symm.trans known'
      exact different own
  · show ((lde'.pws.erase data)[data']?).map L2vpnPw.conf = _
    rw [Tree.getElem?_erase]
    by_cases same : data = data'
    · rw [if_pos same, if_pos (same ▸ List.mem_cons_self)]
      rfl
    · rw [if_neg same, if_neg fun member => same (List.mem_singleton.mp member).symm]
      exact kept.pws data'
  · show ((lde'.l2vpns.modify _ _).getD conf'.l2vpn default).pwType = _
    rw [table]
    split
    · rename_i same
      rw [← same]
      rfl
    · rfl

/-- A pseudowire that is gone from the configuration. -/
theorem Lde.Settled.l2vpnPwDelete (settled : lde.Settled) (data : Nat) :
    (l2vpnPwDelete lde data).Settled := by
  rw [Ldpd.l2vpnPwDelete]
  split
  · exact settled
  · rename_i pw found
    have known : lde.pwConf data = some pw.conf := by
      rw [Lde.pwConf, found]
      rfl
    obtain ⟨kept, stopped⟩ := settled.2.exits (show [data].Nodup by simp) fun other member => by
      rw [List.mem_singleton.mp member]
      refine ⟨pw.conf, known, ?_⟩
      rw [Lde.fecBy, known]
      rfl
    exact settled.removePw known kept stopped

end Following

/-! ### What a reload may change -/

/-- The FEC of a pseudowire of the new configuration. -/
def XconfPw.fec (xp : XconfPw) (pwType : UInt16) : Fec := .pwid pwType xp.pwid xp.lsrId

/-- What `merge_l2vpn` can do right with a pseudowire. One that is new has the type of the L2VPN as it
was, and its FEC is free. One that is there keeps its FEC, or gets one that is free and needs no
session restart. -/
def PwMergeable (l2vpn : Nat) (xl : XconfL2vpn) (lde : Lde) (xp : XconfPw) : Prop :=
  match l2vpnPwFind lde l2vpn xp.ifindex with
  | none => lde.pwType l2vpn = xl.pwType ∧ lde.nexthops (xp.fec xl.pwType) = []
  | some data =>
    match lde.pws[data]? with
    | none => True
    | some pw => l2vpnPwFec lde pw = xp.fec xl.pwType ∨
        resetNbr pw xp = false ∧ lde.nexthops (xp.fec xl.pwType) = []

/-- What `merge_l2vpns` can do right with an L2VPN. The pseudowires of a new one have FECs that are
free. -/
def XlMergeable (lde : Lde) (xl : XconfL2vpn) : Prop :=
  match l2vpnFind lde xl.name with
  | none => ∀ xp ∈ xl.pwList, lde.nexthops (xp.fec xl.pwType) = []
  | some l2vpn => Run.Allowed (mergePw l2vpn xl) (PwMergeable l2vpn xl)
      ((lde.pwList l2vpn).foldl (sweepPw xl) lde) xl.pwList

/-- What `merge_l2vpns` can do right. -/
def Mergeable (lde : Lde) (xls : List XconfL2vpn) : Prop :=
  Run.Allowed mergeXl XlMergeable (lde.l2vpnList.foldl (sweepL2vpn xls) lde) xls

instance (l2vpn : Nat) (xl : XconfL2vpn) (lde : Lde) (xp : XconfPw) :
    Decidable (PwMergeable l2vpn xl lde xp) :=
  match found : l2vpnPwFind lde l2vpn xp.ifindex with
  | none => decidable_of_iff (lde.pwType l2vpn = xl.pwType ∧ lde.nexthops (xp.fec xl.pwType) = [])
      (by rw [PwMergeable, found])
  | some data =>
    match known : lde.pws[data]? with
    | none => .isTrue (by simp only [PwMergeable, found, known])
    | some pw => decidable_of_iff (l2vpnPwFec lde pw = xp.fec xl.pwType ∨
        resetNbr pw xp = false ∧ lde.nexthops (xp.fec xl.pwType) = [])
          (by simp only [PwMergeable, found, known])

instance (lde : Lde) (xl : XconfL2vpn) : Decidable (XlMergeable lde xl) :=
  match found : l2vpnFind lde xl.name with
  | none => decidable_of_iff (∀ xp ∈ xl.pwList, lde.nexthops (xp.fec xl.pwType) = [])
      (by rw [XlMergeable, found])
  | some l2vpn => decidable_of_iff (Run.Allowed (mergePw l2vpn xl) (PwMergeable l2vpn xl)
      ((lde.pwList l2vpn).foldl (sweepPw xl) lde) xl.pwList) (by rw [XlMergeable, found])

instance (lde : Lde) (xls : List XconfL2vpn) : Decidable (Mergeable lde xls) :=
  inferInstanceAs (Decidable (Run.Allowed mergeXl XlMergeable _ xls))

/-! ### Pseudowires of an L2VPN that is there -/

/-- The type that a pseudowire was started with: the new one, once its L2VPN is being changed and its
turn has come. -/
def mergedType (l2vpn : Nat) (xl : XconfL2vpn) (done : List UInt32) (lde : Lde) (conf : PwConf) : UInt16 :=
  if conf.l2vpn = l2vpn ∧ conf.ifindex ∈ done then xl.pwType else lde.pwType conf.l2vpn

/-- In the middle of `merge_l2vpn`: the pseudowires whose turn has come are under their new FECs, and
all that are left are in the new configuration. -/
structure Merging (l2vpn : Nat) (xl : XconfL2vpn) (done : List UInt32) (lde : Lde) : Prop where
  present : l2vpn ∈ lde.l2vpns
  configured : lde.Configured
  installs : lde.Installs (lde.fecBy (mergedType l2vpn xl done lde))
  wanted : ∀ data conf, lde.pwConf data = some conf → conf.l2vpn = l2vpn →
    conf.ifindex ∈ xl.pwList.map XconfPw.ifindex

section Merging

variable {lde lde' : Lde} {l2vpn data : Nat} {xl : XconfL2vpn} {xp : XconfPw} {done : List UInt32}

theorem pwType_setL2vpnParams (present : l2vpn ∈ lde.l2vpns) (pwType mtu : UInt16) (other : Nat) :
    (lde.setL2vpnParams l2vpn pwType mtu).pwType other =
      if l2vpn = other then pwType else lde.pwType other := by
  rw [Lde.pwType, Lde.setL2vpnParams]
  dsimp only
  rw [getD_modify present]
  split
  · rfl
  · rfl

theorem pwList_setL2vpnParams (present : l2vpn ∈ lde.l2vpns) (pwType mtu : UInt16) (other : Nat) :
    (lde.setL2vpnParams l2vpn pwType mtu).pwList other = lde.pwList other := by
  rw [Lde.pwList, Lde.setL2vpnParams]
  dsimp only
  rw [getD_modify present]
  split
  · rename_i same
    rw [← same]
    rfl
  · rfl

/-- Another configuration for a pseudowire, and nothing else. -/
structure PwReplaced (lde : Lde) (data : Nat) (conf : PwConf) (lde' : Lde) : Prop where
  l2vpnList : lde'.l2vpnList = lde.l2vpnList
  present : ∀ l2vpn, l2vpn ∈ lde'.l2vpns ↔ l2vpn ∈ lde.l2vpns
  pwList : ∀ l2vpn, lde'.pwList l2vpn = lde.pwList l2vpn
  pwType : ∀ l2vpn, lde'.pwType l2vpn = lde.pwType l2vpn
  pwConf : ∀ other, lde'.pwConf other = if other = data then some conf else lde.pwConf other

theorem PwReplaced.configured {conf conf' : PwConf} (replaced : PwReplaced lde data conf' lde')
    (configured : lde.Configured) (known : lde.pwConf data = some conf)
    (own : conf'.l2vpn = conf.l2vpn) (interface : conf'.ifindex = conf.ifindex) : lde'.Configured := by
  have before {other : Nat} {conf₁ : PwConf} (known₁ : lde'.pwConf other = some conf₁) :
      ∃ conf₂, lde.pwConf other = some conf₂ ∧ conf₁.l2vpn = conf₂.l2vpn ∧
        conf₁.ifindex = conf₂.ifindex := by
    rw [replaced.pwConf] at known₁
    split at known₁
    · rename_i same
      cases known₁
      exact ⟨conf, same ▸ known, own, interface⟩
    · exact ⟨conf₁, known₁, rfl, rfl⟩
  constructor
  · rw [replaced.l2vpnList]
    exact configured.unique
  · intro other
    rw [replaced.l2vpnList, replaced.present]
    exact configured.listed other
  · intro other
    rw [replaced.pwList]
    exact configured.nodup other
  · intro other data'
    rw [replaced.pwList, configured.member]
    constructor
    · rintro ⟨conf₂, known₂, rfl⟩
      by_cases same : data' = data
      · subst same
        cases known.symm.trans known₂
        exact ⟨conf', (replaced.pwConf data').trans (if_pos rfl), own⟩
      · exact ⟨conf₂, (replaced.pwConf data').trans ((if_neg same).trans known₂), rfl⟩
    · rintro ⟨conf₁, known₁, rfl⟩
      obtain ⟨conf₂, known₂, own₂, _⟩ := before known₁
      exact ⟨conf₂, known₂, own₂.symm⟩
  · intro first second conf₁ conf₂ known₁ known₂ same interface'
    obtain ⟨conf₁', known₁', own₁, interface₁⟩ := before known₁
    obtain ⟨conf₂', known₂', own₂, interface₂⟩ := before known₂
    exact configured.distinct first second conf₁' conf₂' known₁' known₂'
      (own₁.symm.trans (same.trans own₂)) (interface₁.symm.trans (interface'.trans interface₂))

/-- The pseudowire whose turn it is, is under its new FEC. -/
theorem Merging.replaced (merging : Merging l2vpn xl done lde) {conf : PwConf}
    (known : lde.pwConf data = some conf) (own : conf.l2vpn = l2vpn)
    (interface : conf.ifindex = xp.ifindex) (replaced : PwReplaced lde data (xp.conf l2vpn) lde')
    (installs : lde'.Installs (Function.update (lde.fecBy (mergedType l2vpn xl done lde)) data
      (some (xp.fec xl.pwType)))) : Merging l2vpn xl (xp.ifindex :: done) lde' where
  present := (replaced.present l2vpn).mpr merging.present
  configured := replaced.configured merging.configured known own.symm interface.symm
  installs := by
    refine installs.congr fun other => ?_
    rw [Lde.fecBy, replaced.pwConf]
    by_cases same : other = data
    · subst same
      rw [if_pos rfl, Function.update_self, Option.map_some, mergedType,
        if_pos ⟨rfl, List.mem_cons_self⟩]
      rfl
    · rw [if_neg same, Function.update_of_ne same, Lde.fecBy]
      cases known' : lde.pwConf other with
      | none => rfl
      | some conf' =>
        rw [Option.map_some, Option.map_some, mergedType, mergedType, replaced.pwType]
        refine congrArg (fun type => some (conf'.fec type)) (if_congr ?_ rfl rfl)
        refine and_congr_right fun own' => ?_
        rw [List.mem_cons, or_iff_right]
        intro interface'
        exact same (merging.configured.distinct other data conf' conf known' known
          (own'.trans own.symm) (interface'.trans interface.symm))
  wanted := by
    intro other conf' known' own'
    rw [replaced.pwConf] at known'
    split at known'
    · cases known'
      show xp.ifindex ∈ _
      rw [← interface]
      exact merging.wanted data conf known own
    · exact merging.wanted other conf' known' own'

theorem pwConf_updatePw (lde : Lde) (data other : Nat) (change : L2vpnPw → L2vpnPw) :
    (lde.updatePw data change).pwConf other =
      if other = data then (lde.pws[data]?).map fun pw => (change pw).conf else lde.pwConf other := by
  show ((lde.pws.modify data change)[other]?).map L2vpnPw.conf = _
  rw [Tree.getElem?_modify]
  by_cases same : data = other
  · subst same
    rw [if_pos rfl, if_pos rfl, Option.map_map]
    rfl
  · rw [if_neg same, if_neg (Ne.symm same)]
    rfl

theorem merge_conf (xp : XconfPw) {pw : L2vpnPw} (own : pw.l2vpn = l2vpn) :
    (pw.merge xp).conf = xp.conf l2vpn := by
  subst own
  rfl

/-- What does not ask for a FEC to be installed again does not change it. -/
theorem fec_of_not_reinstall {pw : L2vpnPw} (own : pw.l2vpn = l2vpn)
    (same : reinstallPwfec (lde.l2vpns.getD l2vpn default) xl pw xp = false) :
    l2vpnPwFec lde pw = xp.fec xl.pwType := by
  rw [reinstallPwfec, decide_eq_false_iff_not] at same
  have type : (lde.l2vpns.getD l2vpn default).pwType = xl.pwType := by
    by_contra other
    exact same (.inl other)
  have pwid : pw.pwid = xp.pwid := by
    by_contra other
    exact same (.inr (.inr (.inl other)))
  have lsrId : pw.lsrId = xp.lsrId := by
    by_contra other
    exact same (.inr (.inr (.inr (.inr (.inr other)))))
  rw [l2vpnPwFec, Lde.l2vpnOf, own, type, pwid, lsrId]
  rfl

/-- Before its turn, a pseudowire is under its old FEC. -/
theorem fecBy_before_turn (l2vpn : Nat) (xl : XconfL2vpn) {pw : L2vpnPw}
    (found : lde.pws[data]? = some pw) (interface : pw.ifindex = xp.ifindex) (turn : xp.ifindex ∉ done) :
    lde.fecBy (mergedType l2vpn xl done lde) data = some (l2vpnPwFec lde pw) := by
  rw [Lde.fecBy, Lde.pwConf, found, Option.map_some, Option.map_some, mergedType, if_neg]
  · rfl
  · intro both
    exact turn (interface ▸ both.2)

/-- A pseudowire that is stopped under its old FEC and started under its new one. -/
theorem Merging.reinstall (merging : Merging l2vpn xl done lde) {pw : L2vpnPw}
    (found : lde.pws[data]? = some pw) (own : pw.l2vpn = l2vpn) (interface : pw.ifindex = xp.ifindex)
    (turn : xp.ifindex ∉ done)
    (free : l2vpnPwFec lde pw = xp.fec xl.pwType ∨ lde.nexthops (xp.fec xl.pwType) = [])
    {pwType mtu : UInt16} (previous : lde.pwType l2vpn = pwType) :
    Merging l2vpn xl (xp.ifindex :: done)
      ((l2vpnPwInit (((l2vpnPwExit lde data).updatePw data (L2vpnPw.merge xp)).setL2vpnParams l2vpn
        xl.pwType xl.mtu) data).setL2vpnParams l2vpn pwType mtu) := by
  have known : lde.pwConf data = some pw.conf := by
    rw [Lde.pwConf, found]
    rfl
  obtain ⟨kept, stopped, emptied, empty⟩ := merging.installs.exit found
    (fecBy_before_turn l2vpn xl found interface turn)
  generalize l2vpnPwExit lde data = lde₁ at kept stopped emptied empty ⊢
  have present₁ : l2vpn ∈ lde₁.l2vpns := by
    rw [kept.l2vpns]
    exact merging.present
  obtain ⟨pw₁, found₁, conf₁⟩ : ∃ pw₁, lde₁.pws[data]? = some pw₁ ∧ pw₁.conf = pw.conf :=
    Option.map_eq_some_iff.mp ((kept.pws data).trans known)
  have own₁ : pw₁.l2vpn = l2vpn := (congrArg PwConf.l2vpn conf₁).trans own
  have present₂ : l2vpn ∈ (lde₁.updatePw data (L2vpnPw.merge xp)).l2vpns := present₁
  -- the tables when the pseudowire is started
  let lde₂ := (lde₁.updatePw data (L2vpnPw.merge xp)).setL2vpnParams l2vpn xl.pwType xl.mtu
  have conf₂ (other : Nat) : lde₂.pwConf other =
      if other = data then some (xp.conf l2vpn) else lde.pwConf other := by
    show (lde₁.updatePw data (L2vpnPw.merge xp)).pwConf other = _
    rw [pwConf_updatePw, found₁, Option.map_some, merge_conf xp own₁, kept.pwConf]
  have type₂ : lde₂.pwType l2vpn = xl.pwType := by
    exact (pwType_setL2vpnParams present₂ _ _ _).trans (if_pos rfl)
  obtain ⟨pw₂, found₂, _, fec₂⟩ := Lde.exists_pw ((conf₂ data).trans (if_pos rfl))
  have fec : l2vpnPwFec lde₂ pw₂ = xp.fec xl.pwType := by
    rw [fec₂]
    show (xp.conf l2vpn).fec (lde₂.pwType l2vpn) = _
    rw [type₂]
    rfl
  have free₂ : lde₂.nexthops (l2vpnPwFec lde₂ pw₂) = [] := by
    rw [fec]
    show lde₁.nexthops _ = []
    rcases free with same | unused
    · rw [← same]
      exact emptied
    · exact empty _ unused
  have stopped₂ : lde₂.Installs (Function.update (lde.fecBy (mergedType l2vpn xl done lde)) data none) :=
    stopped.configure lde₁.l2vpnList _ _
  obtain ⟨kept₃, started, _⟩ := stopped₂.init found₂ (Function.update_self ..) free₂
  rw [fec, Function.update_idem] at started
  have present₃ : l2vpn ∈ (l2vpnPwInit lde₂ data).l2vpns := by
    rw [kept₃.l2vpns]
    exact Std.ExtTreeMap.mem_modify.mpr present₁
  refine merging.replaced known own interface ⟨?_, fun other => ?_, fun other => ?_, fun other => ?_,
    fun other => ?_⟩ (started.configure (l2vpnPwInit lde₂ data).l2vpnList _ (l2vpnPwInit lde₂ data).pws)
  · exact kept₃.l2vpnList.trans kept.l2vpnList
  · refine Std.ExtTreeMap.mem_modify.trans ?_
    rw [kept₃.l2vpns]
    refine Std.ExtTreeMap.mem_modify.trans ?_
    show other ∈ lde₁.l2vpns ↔ _
    rw [kept.l2vpns]
  · exact (pwList_setL2vpnParams present₃ _ _ other).trans ((kept₃.pwList other).trans
      ((pwList_setL2vpnParams present₂ _ _ other).trans (kept.pwList other)))
  · refine (pwType_setL2vpnParams present₃ _ _ other).trans ?_
    by_cases same : l2vpn = other
    · subst same
      rw [if_pos rfl, previous]
    · rw [if_neg same, kept₃.pwType]
      exact ((pwType_setL2vpnParams present₂ _ _ other).trans (if_neg same)).trans (kept.pwType other)
  · exact (kept₃.pwConf other).trans (conf₂ other)

/-- The turn of a pseudowire that is there. -/
theorem Merging.updateExistingPw (merging : Merging l2vpn xl done lde) {pw : L2vpnPw}
    (found : lde.pws[data]? = some pw) (own : pw.l2vpn = l2vpn) (interface : pw.ifindex = xp.ifindex)
    (turn : xp.ifindex ∉ done)
    (mergeable : l2vpnPwFec lde pw = xp.fec xl.pwType ∨
      resetNbr pw xp = false ∧ lde.nexthops (xp.fec xl.pwType) = []) :
    Merging l2vpn xl (xp.ifindex :: done) (updateExistingPw l2vpn xl lde xp data pw) := by
  rw [Ldpd.updateExistingPw]
  dsimp only
  split
  · exact merging.reinstall found own interface turn (mergeable.imp_right And.right) rfl
  · rename_i stays
    have same : l2vpnPwFec lde pw = xp.fec xl.pwType := by
      rcases mergeable with same | ⟨quiet, _⟩
      · exact same
      · refine fec_of_not_reinstall own (Bool.eq_false_iff.mpr fun again => stays ⟨again, ?_⟩)
        rw [quiet]
        exact Bool.false_ne_true
    have known : lde.pwConf data = some pw.conf := by
      rw [Lde.pwConf, found]
      rfl
    have placed := fecBy_before_turn l2vpn xl found interface turn
    have replaced : PwReplaced lde data (xp.conf l2vpn) (lde.updatePw data (L2vpnPw.merge xp)) := by
      refine ⟨rfl, fun _ => Iff.rfl, fun _ => rfl, fun _ => rfl, fun other => ?_⟩
      rw [pwConf_updatePw, found, Option.map_some, merge_conf xp own]
    refine merging.replaced known own interface replaced ?_
    rw [← same, ← placed, Function.update_eq_self]
    exact merging.installs.configure lde.l2vpnList lde.l2vpns _

/-! ### New pseudowires -/

/-- A pseudowire in the tables that was not there. -/
def Lde.withPw (lde : Lde) (data : Nat) (pw : L2vpnPw) (change : List Nat → List Nat) : Lde :=
  Lde.updatePwList { lde with pws := lde.pws.insert data pw } pw.l2vpn change

theorem pwConf_withPw (lde : Lde) (data other : Nat) (pw : L2vpnPw) (change : List Nat → List Nat) :
    (lde.withPw data pw change).pwConf other =
      if other = data then some pw.conf else lde.pwConf other := by
  show ((lde.pws.insert data pw)[other]?).map L2vpnPw.conf = _
  rw [Tree.getElem?_insert]
  by_cases same : data = other
  · rw [if_pos same, if_pos same.symm]
    rfl
  · rw [if_neg same, if_neg (Ne.symm same)]
    rfl

section Entering

variable {pw : L2vpnPw} {change : List Nat → List Nat}

theorem pwType_withPw (present : pw.l2vpn ∈ lde.l2vpns) (other : Nat) :
    (lde.withPw data pw change).pwType other = lde.pwType other := by
  show ((lde.l2vpns.modify pw.l2vpn _).getD other default).pwType = _
  rw [getD_modify present]
  split
  · rename_i same
    rw [← same]
    rfl
  · rfl

theorem pwList_withPw (present : pw.l2vpn ∈ lde.l2vpns) (other : Nat) :
    (lde.withPw data pw change).pwList other =
      if pw.l2vpn = other then change (lde.pwList pw.l2vpn) else lde.pwList other := by
  show ((lde.l2vpns.modify pw.l2vpn _).getD other default).pwList = _
  rw [getD_modify present]
  split
  · rfl
  · rfl

theorem Lde.Configured.withPw (configured : lde.Configured) (fresh : lde.pwConf data = none)
    (present : pw.l2vpn ∈ lde.l2vpns)
    (enters : ∀ list, data ∉ list → list.Nodup →
      (change list).Nodup ∧ ∀ other, other ∈ change list ↔ other = data ∨ other ∈ list)
    (alone : ∀ other conf, lde.pwConf other = some conf → conf.l2vpn = pw.l2vpn →
      conf.ifindex ≠ pw.ifindex) : (lde.withPw data pw change).Configured := by
  have unlisted (other : Nat) : data ∉ lde.pwList other := by
    intro member
    obtain ⟨conf, known, _⟩ := (configured.member other data).mp member
    exact nomatch fresh.symm.trans known
  obtain ⟨nodup, members⟩ := enters (lde.pwList pw.l2vpn) (unlisted _) (configured.nodup _)
  constructor
  · exact configured.unique
  · intro other
    refine (configured.listed other).trans ?_
    exact Std.ExtTreeMap.mem_modify.symm
  · intro other
    rw [pwList_withPw present]
    split
    · exact nodup
    · exact configured.nodup other
  · intro other data'
    rw [pwList_withPw present, pwConf_withPw]
    by_cases same : data' = data
    · subst same
      rw [if_pos rfl]
      split
      · rename_i own
        exact iff_of_true ((members data').mpr (.inl rfl)) ⟨pw.conf, rfl, own⟩
      · rename_i different
        refine iff_of_false (unlisted other) ?_
        rintro ⟨_, ⟨⟩, own⟩
        exact different own
    · rw [if_neg same, ← configured.member]
      split
      · rename_i own
        rw [members, or_iff_right same, own]
      · exact Iff.rfl
  · intro first second conf₁ conf₂ known₁ known₂ own interface
    rw [pwConf_withPw] at known₁ known₂
    split at known₁
    · rename_i same₁
      cases known₁
      split at known₂
      · rename_i same₂
        exact same₁.trans same₂.symm
      · exact absurd interface.symm (alone second conf₂ known₂ own.symm)
    · split at known₂
      · cases known₂
        exact absurd interface (alone first conf₁ known₁ own)
      · exact configured.distinct first second conf₁ conf₂ known₁ known₂ own interface

end Entering

/-- No pseudowire is found exactly if none of the L2VPN has the interface. -/
theorem alone_of_l2vpnPwFind {ifindex : UInt32} (configured : lde.Configured)
    (absent : l2vpnPwFind lde l2vpn ifindex = none) (other : Nat) (conf : PwConf)
    (known : lde.pwConf other = some conf) (own : conf.l2vpn = l2vpn) : conf.ifindex ≠ ifindex := by
  intro same
  obtain ⟨pw, found, rfl, _⟩ := Lde.exists_pw known
  have member : other ∈ lde.pwList l2vpn := (configured.member _ _).mpr ⟨pw.conf, known, own⟩
  have unequal := List.find?_eq_none.mp absent other member
  rw [found] at unequal
  exact unequal (decide_eq_true same)

/-- The turn of a pseudowire that is new. -/
theorem Merging.l2vpnPwAdd (merging : Merging l2vpn xl done lde)
    (absent : l2vpnPwFind lde l2vpn xp.ifindex = none) (listed : xp ∈ xl.pwList)
    (type : lde.pwType l2vpn = xl.pwType) (free : lde.nexthops (xp.fec xl.pwType) = []) :
    Merging l2vpn xl (xp.ifindex :: done)
      (l2vpnPwAdd lde (freshKey lde.pws) (xp.conf l2vpn)) := by
  have unused := freshKey_not_mem lde.pws
  generalize freshKey lde.pws = data at unused ⊢
  have fresh : lde.pwConf data = none := by
    rw [Lde.pwConf, Std.ExtTreeMap.getElem?_eq_none unused]
    rfl
  have present : (xp.conf l2vpn).pw.l2vpn ∈ lde.l2vpns := merging.present
  have types (conf : PwConf) (done : List UInt32) :
      mergedType l2vpn xl done lde conf = lde.pwType conf.l2vpn := by
    rw [mergedType]
    split
    · rename_i both
      rw [both.1, type]
    · rfl
  have configured : (lde.withPw data (xp.conf l2vpn).pw (data :: ·)).Configured := by
    refine merging.configured.withPw fresh present (fun list unlisted nodup => ?_)
      (alone_of_l2vpnPwFind merging.configured absent)
    exact ⟨List.nodup_cons.mpr ⟨unlisted, nodup⟩, fun other => List.mem_cons⟩
  have entered : (lde.withPw data (xp.conf l2vpn).pw (data :: ·)).Installs _ :=
    merging.installs.configure lde.l2vpnList _ _
  have conf (other : Nat) := pwConf_withPw lde data other (xp.conf l2vpn).pw (data :: ·)
  obtain ⟨pw, found, same, fec⟩ := Lde.exists_pw ((conf data).trans (if_pos rfl))
  have fec' : l2vpnPwFec (lde.withPw data (xp.conf l2vpn).pw (data :: ·)) pw = xp.fec xl.pwType := by
    rw [fec, pwType_withPw present]
    show (xp.conf l2vpn).fec (lde.pwType l2vpn) = _
    rw [type]
    rfl
  obtain ⟨kept, started, _⟩ := entered.init found (by rw [Lde.fecBy, fresh]; rfl) (fec' ▸ free)
  rw [Ldpd.l2vpnPwAdd, if_neg]
  · refine ⟨?_, configured.kept kept, started.congr fun other => ?_, fun other conf' known own => ?_⟩
    · show l2vpn ∈ Lde.l2vpns (l2vpnPwInit (lde.withPw data (xp.conf l2vpn).pw (data :: ·)) data)
      rw [kept.l2vpns]
      exact Std.ExtTreeMap.mem_modify.mpr merging.present
    · show Lde.fecBy (l2vpnPwInit (lde.withPw data (xp.conf l2vpn).pw (data :: ·)) data) _ other = _
      rw [Lde.fecBy, kept.pwConf, conf]
      by_cases equal : other = data
      · subst equal
        rw [if_pos rfl, Function.update_self, Option.map_some, fec', mergedType,
          if_pos ⟨rfl, List.mem_cons_self⟩]
        rfl
      · rw [if_neg equal, Function.update_of_ne equal, Lde.fecBy]
        refine congrFun (congrArg Option.map (funext fun conf' => ?_)) _
        rw [types conf' done, mergedType]
        split
        · rename_i both
          rw [both.1, type]
        · exact congrArg conf'.fec ((kept.pwType _).trans (pwType_withPw present _))
    · have known' : (lde.withPw data (xp.conf l2vpn).pw (data :: ·)).pwConf other = some conf' :=
        (kept.pwConf other).symm.trans known
      rw [conf] at known'
      split at known'
      · cases known'
        exact List.mem_map_of_mem listed
      · exact merging.wanted other conf' known' own
  · exact not_or.mpr ⟨unused, not_not.mpr merging.present⟩

/-- The turn of a pseudowire. -/
theorem Merging.mergePw (merging : Merging l2vpn xl done lde) (listed : xp ∈ xl.pwList)
    (turn : xp.ifindex ∉ done) (mergeable : PwMergeable l2vpn xl lde xp) :
    Merging l2vpn xl (xp.ifindex :: done) (mergePw l2vpn xl lde xp) := by
  rw [PwMergeable] at mergeable
  rw [Ldpd.mergePw]
  split
  · rename_i absent
    rw [absent] at mergeable
    exact merging.l2vpnPwAdd absent listed mergeable.1 mergeable.2
  · rename_i data located
    have member := List.mem_of_find?_eq_some located
    have interface := List.find?_some located
    rw [located] at mergeable
    obtain ⟨conf, known, own⟩ := (merging.configured.member l2vpn data).mp member
    obtain ⟨pw, found, rfl, _⟩ := Lde.exists_pw known
    simp only [found] at mergeable interface ⊢
    exact merging.updateExistingPw found own (of_decide_eq_true interface) turn mergeable

/-- All of them in turn. -/
theorem Merging.foldl_mergePw (merging : Merging l2vpn xl done lde) {xps : List XconfPw}
    (listed : xps ⊆ xl.pwList) (turn : ∀ xp ∈ xps, xp.ifindex ∉ done)
    (nodup : (xps.map XconfPw.ifindex).Nodup)
    (allowed : Run.Allowed (Ldpd.mergePw l2vpn xl) (PwMergeable l2vpn xl) lde xps) :
    ∃ done', Merging l2vpn xl done' (xps.foldl (Ldpd.mergePw l2vpn xl) lde) ∧
      ∀ ifindex, ifindex ∈ done' ↔ ifindex ∈ done ∨ ifindex ∈ xps.map XconfPw.ifindex := by
  induction xps generalizing lde done with
  | nil => exact ⟨done, merging, fun _ => by simp⟩
  | cons xp rest inductionHypothesis =>
    rw [List.map_cons, List.nodup_cons] at nodup
    have step := merging.mergePw (listed List.mem_cons_self) (turn xp List.mem_cons_self) allowed.1
    obtain ⟨done', merged, all⟩ := inductionHypothesis step
      (fun other member => listed (List.mem_cons_of_mem xp member))
      (fun other member => by
        rw [List.mem_cons, not_or]
        refine ⟨fun same => nodup.1 (same ▸ List.mem_map_of_mem member), ?_⟩
        exact turn other (List.mem_cons_of_mem xp member)) nodup.2 allowed.2
    refine ⟨done', merged, fun ifindex => ?_⟩
    rw [all, List.mem_cons, List.map_cons, List.mem_cons]
    tauto

/-! ### L2VPNs -/

/-- What is left of the tables after a pseudowire has been looked at. -/
theorem sweepPw_tables (lde : Lde) (xl : XconfL2vpn) (data : Nat) :
    (∀ other conf, (sweepPw xl lde data).pwConf other = some conf →
      lde.pwConf other = some conf ∧ (other = data → xl.hasPw conf.ifindex = true)) ∧
      ∀ other, other ∈ (sweepPw xl lde data).l2vpns ↔ other ∈ lde.l2vpns := by
  rw [sweepPw]
  split
  · rename_i absent
    refine ⟨fun other conf known => ⟨known, ?_⟩, fun _ => Iff.rfl⟩
    rintro rfl
    rw [Lde.pwConf, absent] at known
    cases known
  · rename_i pw found
    split
    · rename_i wanted
      refine ⟨fun other conf known => ⟨known, ?_⟩, fun _ => Iff.rfl⟩
      rintro rfl
      rw [Lde.pwConf, found] at known
      cases known
      exact wanted
    · have kept : ConfKept lde (l2vpnPwExit lde data) := by
        rw [l2vpnPwExit, found]
        exact (confKept_ldeKernelRemove ..).1
      rw [l2vpnPwDelete, found]
      refine ⟨fun other conf known => ?_, fun other => ?_⟩
      · change (((l2vpnPwExit lde data).pws.erase data)[other]?).map L2vpnPw.conf = some conf at known
        rw [Tree.getElem?_erase] at known
        split at known
        · cases known
        · rename_i different
          exact ⟨(kept.pws other).symm.trans known, fun same => absurd same.symm different⟩
      · refine Std.ExtTreeMap.mem_modify.trans ?_
        rw [kept.l2vpns]

/-- Pseudowires that are not in the new configuration are gone once their turn has come. -/
theorem Lde.Settled.foldl_sweepPw (settled : lde.Settled) (xl : XconfL2vpn) (items : List Nat) :
    (items.foldl (sweepPw xl) lde).Settled ∧
      (∀ other conf, (items.foldl (sweepPw xl) lde).pwConf other = some conf →
        lde.pwConf other = some conf ∧ (other ∈ items → xl.hasPw conf.ifindex = true)) ∧
      ∀ other, other ∈ (items.foldl (sweepPw xl) lde).l2vpns ↔ other ∈ lde.l2vpns := by
  induction items generalizing lde with
  | nil =>
    exact ⟨settled, fun _ _ known => ⟨known, fun member => absurd member List.not_mem_nil⟩,
      fun _ => Iff.rfl⟩
  | cons data rest inductionHypothesis =>
    have step : (sweepPw xl lde data).Settled := by
      rw [sweepPw]
      split
      · exact settled
      split
      · exact settled
      · exact settled.l2vpnPwDelete data
    obtain ⟨tables, present⟩ := sweepPw_tables lde xl data
    obtain ⟨swept, remains, present'⟩ := inductionHypothesis step
    refine ⟨swept, fun other conf known => ?_, fun other => (present' other).trans (present other)⟩
    obtain ⟨known', wanted⟩ := remains other conf known
    obtain ⟨before, looked⟩ := tables other conf known'
    refine ⟨before, fun member => ?_⟩
    rcases List.mem_cons.mp member with same | member
    · exact looked same
    · exact wanted member

/-- An L2VPN that is there, with what has changed. -/
theorem Lde.Settled.mergeL2vpn (settled : lde.Settled) (present : l2vpn ∈ lde.l2vpns)
    (nodup : (xl.pwList.map XconfPw.ifindex).Nodup)
    (allowed : Run.Allowed (Ldpd.mergePw l2vpn xl) (PwMergeable l2vpn xl)
      ((lde.pwList l2vpn).foldl (sweepPw xl) lde) xl.pwList) : (mergeL2vpn lde l2vpn xl).Settled := by
  obtain ⟨swept, remains, known⟩ := settled.foldl_sweepPw xl (lde.pwList l2vpn)
  have start : Merging l2vpn xl [] ((lde.pwList l2vpn).foldl (sweepPw xl) lde) := by
    refine ⟨(known l2vpn).mpr present, swept.1, swept.2.congr fun data => ?_, ?_⟩
    · refine congrFun (congrArg Option.map (funext fun conf => ?_)) _
      rw [mergedType, if_neg fun both => List.not_mem_nil both.2]
    · intro data conf found own
      obtain ⟨before, wanted⟩ := remains data conf found
      have listed : data ∈ lde.pwList l2vpn := (settled.1.member _ _).mpr ⟨conf, before, own⟩
      obtain ⟨xp, member, same⟩ := List.any_eq_true.mp (wanted listed)
      exact List.mem_map.mpr ⟨xp, member, of_decide_eq_true same⟩
  obtain ⟨done, merged, all⟩ := start.foldl_mergePw (List.Subset.refl _)
    (fun _ _ => List.not_mem_nil) nodup allowed
  rw [Ldpd.mergeL2vpn]
  show Lde.Settled ((xl.pwList.foldl (Ldpd.mergePw l2vpn xl)
    ((lde.pwList l2vpn).foldl (sweepPw xl) lde)).setL2vpnParams l2vpn xl.pwType xl.mtu)
  generalize xl.pwList.foldl (Ldpd.mergePw l2vpn xl) ((lde.pwList l2vpn).foldl (sweepPw xl) lde) = lde'
    at merged ⊢
  have configured := merged.configured
  refine ⟨⟨configured.unique, fun other => ?_, fun other => ?_, fun other data => ?_, ?_⟩, ?_⟩
  · exact (configured.listed other).trans Std.ExtTreeMap.mem_modify.symm
  · rw [pwList_setL2vpnParams merged.present]
    exact configured.nodup other
  · rw [pwList_setL2vpnParams merged.present]
    exact configured.member other data
  · exact configured.distinct
  · refine (merged.installs.configure lde'.l2vpnList _ lde'.pws).congr fun data => ?_
    show (lde'.pwConf data).map _ = (lde'.pwConf data).map _
    cases found : lde'.pwConf data with
    | none => rfl
    | some conf =>
      refine congrArg (fun type => some (conf.fec type)) ?_
      dsimp only
      rw [pwType_setL2vpnParams merged.present, mergedType]
      by_cases own : conf.l2vpn = l2vpn
      · have turned : conf.ifindex ∈ done := (all _).mpr (.inr (merged.wanted data conf found own))
        rw [if_pos own.symm, if_pos ⟨own, turned⟩]
      · rw [if_neg (Ne.symm own), if_neg fun both => own both.1]

/-- In the middle of a new L2VPN: its pseudowires are in the tables and nothing else has changed. -/
structure Entering (start : Lde) (l2vpn : Nat) (xl : XconfL2vpn) (xps : List XconfPw) (lde : Lde) : Prop where
  present : l2vpn ∈ lde.l2vpns
  configured : lde.Configured
  pwType : ∀ other, lde.pwType other = if l2vpn = other then xl.pwType else start.pwType other
  entered : ∀ data ∈ lde.pwList l2vpn, start.pwConf data = none ∧
    ∃ xp ∈ xps, lde.pwConf data = some (xp.conf l2vpn)
  others : ∀ data, data ∉ lde.pwList l2vpn → lde.pwConf data = start.pwConf data
  ft : lde.ft = start.ft

theorem Entering.enterPw {start : Lde} {xps : List XconfPw} (entering : Entering start l2vpn xl xps lde)
    (alone : xp.ifindex ∉ xps.map XconfPw.ifindex) :
    Entering start l2vpn xl (xps ++ [xp]) (enterPw l2vpn lde xp) := by
  have unused := freshKey_not_mem lde.pws
  have fresh : lde.pwConf (freshKey lde.pws) = none := by
    rw [Lde.pwConf, Std.ExtTreeMap.getElem?_eq_none unused]
    rfl
  have present : (xp.conf l2vpn).pw.l2vpn ∈ lde.l2vpns := entering.present
  have unlisted : freshKey lde.pws ∉ lde.pwList l2vpn := by
    intro member
    obtain ⟨_, _, _, known⟩ := entering.entered _ member
    exact nomatch fresh.symm.trans known
  show Entering start l2vpn xl (xps ++ [xp])
    (lde.withPw (freshKey lde.pws) (xp.conf l2vpn).pw (· ++ [freshKey lde.pws]))
  generalize freshKey lde.pws = data at fresh unlisted ⊢
  have listed (other : Nat) : other ∈ (lde.withPw data (xp.conf l2vpn).pw (· ++ [data])).pwList l2vpn ↔
      other ∈ lde.pwList l2vpn ∨ other = data := by
    rw [pwList_withPw present]
    show other ∈ (if l2vpn = l2vpn then lde.pwList l2vpn ++ [data] else _) ↔ _
    rw [if_pos rfl, List.mem_append, List.mem_singleton]
  constructor
  · exact Std.ExtTreeMap.mem_modify.mpr entering.present
  · refine entering.configured.withPw fresh present (fun list unlisted nodup => ?_) ?_
    · refine ⟨List.nodup_append.mpr ⟨nodup, by simp, fun first member second member' => ?_⟩,
        fun other => ?_⟩
      · rw [List.mem_singleton.mp member']
        rintro rfl
        exact unlisted member
      · rw [List.mem_append, List.mem_singleton, or_comm]
    · intro other conf known own
      have member : other ∈ lde.pwList l2vpn := (entering.configured.member _ _).mpr ⟨conf, known, own⟩
      obtain ⟨_, xp', member', known'⟩ := entering.entered other member
      cases known.symm.trans known'
      exact fun same => alone (List.mem_map.mpr ⟨xp', member', same⟩)
  · intro other
    rw [pwType_withPw present]
    exact entering.pwType other
  · intro other member
    rw [pwConf_withPw]
    rcases (listed other).mp member with earlier | rfl
    · obtain ⟨unknown, xp', member', known'⟩ := entering.entered other earlier
      refine ⟨unknown, xp', List.mem_append_left _ member', ?_⟩
      rw [if_neg]
      · exact known'
      · rintro rfl
        exact unlisted earlier
    · refine ⟨(entering.others other unlisted).symm.trans fresh, xp,
        List.mem_append_right _ List.mem_cons_self, ?_⟩
      rw [if_pos rfl]
      rfl
  · intro other absent
    rw [listed, not_or] at absent
    rw [pwConf_withPw, if_neg absent.2]
    exact entering.others other absent.1
  · exact entering.ft

theorem Entering.foldl_enterPw {start : Lde} {xps : List XconfPw}
    (entering : Entering start l2vpn xl xps lde) {rest : List XconfPw}
    (nodup : ((xps ++ rest).map XconfPw.ifindex).Nodup) :
    Entering start l2vpn xl (xps ++ rest) (rest.foldl (Ldpd.enterPw l2vpn) lde) := by
  induction rest generalizing lde xps with
  | nil =>
    rw [List.append_nil]
    exact entering
  | cons xp rest inductionHypothesis =>
    have alone : xp.ifindex ∉ xps.map XconfPw.ifindex := by
      intro member
      rw [List.map_append, List.map_cons] at nodup
      exact (List.nodup_append.mp nodup).2.2 _ member _ List.mem_cons_self rfl
    have later := inductionHypothesis (entering.enterPw alone) (by simpa using nodup)
    rw [List.append_assoc, List.singleton_append] at later
    exact later

/-- A new L2VPN, before its pseudowires come. -/
theorem Lde.Configured.entering (configured : lde.Configured) (unused : l2vpn ∉ lde.l2vpns)
    (xl : XconfL2vpn) :
    Entering lde l2vpn xl [] { lde with
      l2vpnList := l2vpn :: lde.l2vpnList
      l2vpns := lde.l2vpns.insert l2vpn ⟨xl.name, xl.pwType, xl.mtu, []⟩ } := by
  have table (other : Nat) : (lde.l2vpns.insert l2vpn ⟨xl.name, xl.pwType, xl.mtu, []⟩).getD other
      default = if l2vpn = other then ⟨xl.name, xl.pwType, xl.mtu, []⟩
        else lde.l2vpns.getD other default := by
    rw [Std.ExtTreeMap.getD_eq_getD_getElem?, Tree.getElem?_insert, Std.ExtTreeMap.getD_eq_getD_getElem?]
    split
    · rfl
    · rfl
  refine ⟨Std.ExtTreeMap.mem_insert_self, ⟨?_, fun other => ?_, fun other => ?_,
    fun other data => ?_, configured.distinct⟩, fun other => ?_, fun data member => ?_,
    fun _ _ => rfl, rfl⟩
  · exact List.nodup_cons.mpr ⟨fun member => unused ((configured.listed l2vpn).mp member),
      configured.unique⟩
  · show other ∈ l2vpn :: lde.l2vpnList ↔ other ∈ lde.l2vpns.insert l2vpn _
    rw [List.mem_cons, configured.listed, Tree.mem_iff_getElem?, Tree.mem_iff_getElem?,
      Tree.getElem?_insert]
    by_cases same : l2vpn = other
    · simp [same]
    · rw [if_neg same, or_iff_right (Ne.symm same)]
  · show ((lde.l2vpns.insert l2vpn _).getD other default).pwList.Nodup
    rw [table]
    split
    · exact List.nodup_nil
    · exact configured.nodup other
  · show data ∈ ((lde.l2vpns.insert l2vpn _).getD other default).pwList ↔ _
    refine Iff.trans ?_ (configured.member other data)
    rw [table]
    split
    · rename_i same
      subst same
      exact iff_of_false List.not_mem_nil fun member => unused (mem_l2vpns_of_pwList member)
    · exact Iff.rfl
  · show ((lde.l2vpns.insert l2vpn _).getD other default).pwType = _
    rw [table]
    split
    · rfl
    · rfl
  · change data ∈ ((lde.l2vpns.insert l2vpn _).getD l2vpn default).pwList at member
    rw [table, if_pos rfl] at member
    exact absurd member List.not_mem_nil

/-- Only the configuration has changed so far. -/
theorem Entering.installs {start : Lde} {xps : List XconfPw} (entering : Entering start l2vpn xl xps lde)
    (settled : start.Settled) :
    lde.Installs (start.fecBy fun conf => start.pwType conf.l2vpn) := by
  have same (fec : Fec) : lde.data fec = start.data fec ∧ lde.nexthops fec = start.nexthops fec := by
    rw [Lde.data, Lde.data, Lde.nexthops, Lde.nexthops, entering.ft]
    exact ⟨rfl, rfl⟩
  have idle : lde.Idle := by
    refine ⟨fun fec empty => ?_, fun fec empty => ?_, fun fec family => ?_⟩
    · rw [Lde.localLabel, entering.ft]
      exact settled.2.idle.localLabel fec ((same fec).2.symm.trans empty)
    · exact (same fec).1.trans (settled.2.idle.data fec ((same fec).2.symm.trans empty))
    · exact (same fec).1.trans (settled.2.idle.route fec family)
  exact settled.2.kept idle (fun fec => by rw [(same fec).2]) fun fec => (same fec).1

/-- A new L2VPN whose pseudowires have FECs of their own that are free. -/
theorem Lde.Settled.l2vpnAdd (settled : lde.Settled) (nodup : (xl.pwList.map XconfPw.ifindex).Nodup)
    (distinct : (xl.pwList.map fun xp => xp.fec xl.pwType).Nodup)
    (free : ∀ xp ∈ xl.pwList, lde.nexthops (xp.fec xl.pwType) = []) : (l2vpnAdd lde xl).Settled := by
  have unused := freshKey_not_mem lde.l2vpns
  rw [Ldpd.l2vpnAdd]
  generalize freshKey lde.l2vpns = l2vpn at unused ⊢
  have entered := (settled.1.entering unused xl).foldl_enterPw nodup
  rw [List.nil_append] at entered
  generalize xl.pwList.foldl (Ldpd.enterPw l2vpn) _ = lde₁ at entered ⊢
  show ((lde₁.pwList l2vpn).foldl l2vpnPwInit lde₁).Settled
  have waiting := entered.installs settled
  have nexthops (fec : Fec) : lde₁.nexthops fec = lde.nexthops fec := by
    rw [Lde.nexthops, Lde.nexthops, entered.ft]
  let under (data : Nat) : Fec := ((lde₁.pwConf data).map fun conf => conf.fec xl.pwType).getD (.pwid 0 0 0)
  have own (data : Nat) (member : data ∈ lde₁.pwList l2vpn) : ∃ xp ∈ xl.pwList,
      lde₁.pwConf data = some (xp.conf l2vpn) ∧ under data = xp.fec xl.pwType := by
    obtain ⟨_, xp, listed, known⟩ := entered.entered data member
    refine ⟨xp, listed, known, ?_⟩
    show ((lde₁.pwConf data).map fun conf => conf.fec xl.pwType).getD (.pwid 0 0 0) = _
    rw [known]
    rfl
  have apart : ∀ first ∈ lde₁.pwList l2vpn, ∀ second ∈ lde₁.pwList l2vpn,
      under first = under second → first = second := by
    intro first member second member' equal
    obtain ⟨xp, listed, known, fec⟩ := own first member
    obtain ⟨xp', listed', known', fec'⟩ := own second member'
    have one : xp = xp' :=
      List.inj_on_of_nodup_map distinct listed listed' (fec.symm.trans (equal.trans fec'))
    exact entered.configured.distinct first second _ _ known known' rfl (one ▸ rfl)
  obtain ⟨kept, started⟩ := waiting.inits (entered.configured.nodup l2vpn) under
    (fun data member => by
      obtain ⟨xp, listed, known, fec⟩ := own data member
      refine ⟨?_, ?_, xp.conf l2vpn, known, ?_⟩
      · rw [Lde.fecBy, (entered.entered data member).1]
        rfl
      · rw [fec, nexthops]
        exact free xp listed
      · rw [fec, entered.pwType]
        show _ = (xp.conf l2vpn).fec (if l2vpn = l2vpn then _ else _)
        rw [if_pos rfl]
        rfl) apart
  refine ⟨entered.configured.kept kept, started.congr fun data => ?_⟩
  rw [Lde.fecBy, kept.pwConf]
  by_cases member : data ∈ lde₁.pwList l2vpn
  · obtain ⟨xp, _, known, fec⟩ := own data member
    rw [if_pos member, known, fec, Option.map_some, kept.pwType, entered.pwType]
    show some ((xp.conf l2vpn).fec (if l2vpn = l2vpn then _ else _)) = _
    rw [if_pos rfl]
    rfl
  · rw [if_neg member, Lde.fecBy, entered.others data member]
    cases known : lde.pwConf data with
    | none => rfl
    | some conf =>
      refine congrArg (fun type => some (conf.fec type)) ?_
      show (Lde.pwType _ conf.l2vpn) = _
      rw [kept.pwType, entered.pwType, if_neg]
      rintro rfl
      exact unused (mem_l2vpns_of_pwList ((settled.1.member _ _).mpr ⟨conf, known, rfl⟩))

end Merging

/-! ### Reloads -/

/-- What the parser makes sure of, and that no two pseudowires denote the same FEC. -/
structure XconfL2vpn.Parsed (xl : XconfL2vpn) : Prop where
  interfaces : (xl.pwList.map XconfPw.ifindex).Nodup
  fecs : (xl.pwList.map fun xp => xp.fec xl.pwType).Nodup

section Reloads

variable {lde lde' : Lde}

theorem Lde.Settled.mergeXl (settled : lde.Settled) {xl : XconfL2vpn} (parsed : xl.Parsed)
    (mergeable : XlMergeable lde xl) : (mergeXl lde xl).Settled := by
  rw [XlMergeable] at mergeable
  rw [Ldpd.mergeXl]
  split
  · rename_i absent
    rw [absent] at mergeable
    exact settled.l2vpnAdd parsed.interfaces parsed.fecs mergeable
  · rename_i l2vpn located
    rw [located] at mergeable
    have present := (settled.1.listed l2vpn).mp (List.mem_of_find?_eq_some located)
    exact settled.mergeL2vpn present parsed.interfaces mergeable

theorem Lde.Settled.mergeL2vpns (settled : lde.Settled) {xls : List XconfL2vpn}
    (parsed : ∀ xl ∈ xls, xl.Parsed) (mergeable : Mergeable lde xls) :
    (mergeL2vpns lde xls).Settled := by
  have swept (items : List Nat) : ∀ lde : Lde, lde.Settled →
      (items.foldl (Ldpd.sweepL2vpn xls) lde).Settled := by
    induction items with
    | nil => exact fun lde settled => settled
    | cons l2vpn rest inductionHypothesis =>
      exact fun lde settled => inductionHypothesis _ (settled.sweepL2vpn xls l2vpn)
  have merged (items : List XconfL2vpn) (within : items ⊆ xls) : ∀ lde : Lde, lde.Settled →
      Run.Allowed Ldpd.mergeXl XlMergeable lde items → (items.foldl Ldpd.mergeXl lde).Settled := by
    induction items with
    | nil => exact fun lde settled _ => settled
    | cons xl rest inductionHypothesis =>
      intro lde settled allowed
      refine inductionHypothesis (fun other member => within (List.mem_cons_of_mem xl member)) _ ?_
        allowed.2
      exact settled.mergeXl (parsed xl (within List.mem_cons_self)) allowed.1
  exact merged xls (List.Subset.refl xls) _ (swept lde.l2vpnList lde settled) mergeable

/-- What leaves the FECs and the configuration alone. -/
theorem Lde.Settled.kept (settled : lde.Settled) (kept : ConfKept lde lde') (idle : lde'.Idle)
    (keys : ∀ fec, nexthopKeys (lde'.nexthops fec) = nexthopKeys (lde.nexthops fec))
    (data : ∀ fec, lde'.data fec = lde.data fec) : lde'.Settled := by
  refine ⟨settled.1.kept kept, (settled.2.kept idle keys data).congr fun other => ?_⟩
  rw [Lde.fecBy, Lde.fecBy, kept.pwConf]
  refine congrFun (congrArg Option.map (funext fun conf => ?_)) _
  rw [kept.pwType]

theorem Lde.Settled.mergeAf (settled : lde.Settled) (af : Af) (expNull : Bool) :
    (mergeAf lde af expNull).Settled := by
  have idle := (mergeAf_quiet lde settled.2.idle af expNull).1
  rw [Ldpd.mergeAf] at idle ⊢
  split
  · exact settled
  · rename_i changes
    rw [if_neg changes] at idle
    have changed := egressChanged_ldeChangeEgressLabel (lde.setExpNull af expNull) af expNull
    have set : (lde.setExpNull af expNull).Settled := by
      cases af with
      | _ => exact ⟨⟨settled.1.unique, settled.1.listed, settled.1.nodup, settled.1.member,
          settled.1.distinct⟩, settled.2.kept ⟨settled.2.idle.localLabel, settled.2.idle.data,
            settled.2.idle.route⟩ (fun _ => rfl) fun _ => rfl⟩
    exact set.kept changed.toConfKept idle changed.keys changed.data

/-- A route is no pseudowire. -/
theorem Lde.Settled.route (settled : lde.Settled) (kept : ConfKept lde lde') (idle : lde'.Idle)
    {fec : Fec} (family : fec.af ≠ none)
    (keys : ∀ other, other ≠ fec → nexthopKeys (lde'.nexthops other) = nexthopKeys (lde.nexthops other))
    (data : ∀ other, lde'.data other = lde.data other) : lde'.Settled := by
  have installs : lde'.Installs (lde.fecBy fun conf => lde.pwType conf.l2vpn) := by
    refine ⟨idle, fun other fec' placed => ?_, fun fec' other owned => ?_⟩
    · obtain ⟨own, listed⟩ := settled.2.installed other fec' placed
      have different : fec' ≠ fec := by
        rintro rfl
        rw [settled.2.idle.route _ family] at own
        cases own
      rw [data, keys _ different]
      exact ⟨own, listed⟩
    · exact settled.2.owned fec' other ((data fec').symm.trans owned)
  refine ⟨settled.1.kept kept, installs.congr fun other => ?_⟩
  rw [Lde.fecBy, Lde.fecBy, kept.pwConf]
  refine congrFun (congrArg Option.map (funext fun conf => ?_)) _
  rw [kept.pwType]

theorem Lde.Settled.ldeKernelInsert (settled : lde.Settled) {fec : Fec} (family : fec.af ≠ none)
    (nexthop : LdpdAddr) (priority : UInt8) (connected : Bool) (data : Option Nat) :
    (ldeKernelInsert lde fec nexthop priority connected data).Settled := by
  rcases ldeKernelInsert_inserts lde fec nexthop priority connected data with ⟨-, kept⟩ | ⟨-, inserted⟩
  · exact settled.kept kept.toConfKept (kept.idle settled.2.idle) kept.keys kept.data
  · refine settled.route inserted.toConfKept (inserted.idle settled.2.idle) family
      (fun other different => ?_) fun other => ?_
    · rw [inserted.keys, if_neg different]
    · rw [inserted.data, if_neg fun both => family both.2]

theorem Lde.Settled.ldeKernelRemove (settled : lde.Settled) {fec : Fec} (family : fec.af ≠ none)
    (nexthop : LdpdAddr) (priority : UInt8) : (ldeKernelRemove lde fec nexthop priority).Settled := by
  rcases ldeKernelRemove_removes lde fec nexthop priority with ⟨-, kept⟩ | ⟨-, removed⟩
  · exact settled.kept kept.toConfKept (kept.idle settled.2.idle) kept.keys kept.data
  · refine settled.route removed.toConfKept (removed.idle settled.2.idle) family
      (fun other different => ?_) fun other => ?_
    · rw [removed.keys, if_neg different]
    · rw [removed.data, if_neg fun all => family all.2.1]

end Reloads

/-! ### Runs -/

/-- The pseudowires track the configuration: every pseudowire of the configuration is under its FEC,
and every pseudowire that a FEC refers to is one of the configuration, under its FEC. -/
structure Lde.Tracks (lde : Lde) : Prop where
  installed : ∀ data ∈ lde.configuredPws, ∃ pw fn, lde.pws[data]? = some pw ∧
    lde.ft[l2vpnPwFec lde pw]? = some fn ∧ fn.nexthops ≠ [] ∧ fn.data = some data
  owned : ∀ (fec : Fec) (fn : FecNode) (data : Nat), lde.ft[fec]? = some fn → fn.data = some data →
    data ∈ lde.configuredPws ∧ ∃ pw, lde.pws[data]? = some pw ∧ l2vpnPwFec lde pw = fec

/-- What the engine reacts to besides the steps of a reload, and reloads with what the parser makes
sure of: no two pseudowires of an L2VPN are for the same interface. No two denote the same FEC. -/
def LdeInput.Proper : LdeInput → Prop
  | .event (.pwNew ..) | .event (.pwDel _) => False
  | .event _ => True
  | .reload xconf => ∀ xl ∈ xconf.l2vpnList, xl.Parsed

/-- What the engine can do right: everything, but for reloads. -/
def Reloadable (lde : Lde) : LdeInput → Prop
  | .event _ => True
  | .reload xconf =>
    Mergeable (mergeAf (mergeAf lde .inet xconf.ipv4ExpNull) .inet6 xconf.ipv6ExpNull) xconf.l2vpnList

instance (lde : Lde) : (input : LdeInput) → Decidable (Reloadable lde input)
  | .event _ => .isTrue trivial
  | .reload xconf => inferInstanceAs (Decidable (Mergeable _ xconf.l2vpnList))

theorem Lde.Settled.ldeInput {lde : Lde} (settled : lde.Settled) {input : LdeInput}
    (proper : input.Proper) (reloadable : Reloadable lde input) : (ldeInput lde input).Settled := by
  cases input with
  | reload xconf =>
    exact ((settled.mergeAf .inet _).mergeAf .inet6 _).mergeL2vpns proper reloadable
  | event event =>
    have other (quiet : event.changesFecs = false) : (ldeStep lde event).Settled := by
      have kept := FecsKept.ldeStep lde settled.2.idle quiet
      exact settled.kept kept.toConfKept (kept.idle settled.2.idle) kept.keys kept.data
    have family (kr : RouteMsg) : kr.fec.af ≠ none := by
      rw [RouteMsg.fec_af]
      exact Option.some_ne_none _
    cases event with
    | pwNew | pwDel => exact proper.elim
    | networkAdd kr => exact settled.ldeKernelInsert (family kr) ..
    | networkDel kr => exact settled.ldeKernelRemove (family kr) ..
    | _ => exact other rfl

theorem Lde.Settled.tracks {lde : Lde} (settled : lde.Settled) : lde.Tracks where
  installed data configured := by
    obtain ⟨l2vpn, _, member⟩ := List.mem_flatMap.mp configured
    obtain ⟨conf, known, _, placed⟩ := settled.1.placed (fun conf => lde.pwType conf.l2vpn) member
    obtain ⟨pw, found, rfl, fec⟩ := Lde.exists_pw known
    obtain ⟨own, listed⟩ := settled.2.installed data _ placed
    obtain ⟨fn, node, owner⟩ := Option.bind_eq_some_iff.mp own
    refine ⟨pw, fn, found, node, fun empty => ?_, owner⟩
    rw [lde.nexthops_eq_of_node node, empty] at listed
    cases listed
  owned fec fn data node owner := by
    have placed := settled.2.owned fec data ((lde.data_eq_of_node node).trans owner)
    obtain ⟨conf, known, same⟩ := Option.map_eq_some_iff.mp placed
    obtain ⟨pw, found, rfl, fec'⟩ := Lde.exists_pw known
    have member : data ∈ lde.pwList pw.conf.l2vpn := (settled.1.member _ _).mpr ⟨pw.conf, known, rfl⟩
    refine ⟨List.mem_flatMap.mpr ⟨pw.conf.l2vpn, ?_, member⟩, pw, found, fec'.trans same⟩
    exact (settled.1.listed _).mpr (mem_l2vpns_of_pwList member)

theorem start_settled : (Lde.start {}).Settled := by
  have known (data : Nat) : (Lde.start {}).pwConf data = none := rfl
  have bare (l2vpn : Nat) : (Lde.start {}).pwList l2vpn = [] := by
    rw [Lde.pwList, Std.ExtTreeMap.getD_eq_getD_getElem?]
    rfl
  refine ⟨⟨List.nodup_nil, fun l2vpn => ?_, fun l2vpn => ?_, fun l2vpn data => ?_, ?_⟩,
    (start_counted {}).idle, fun data fec placed => (nomatch placed), fun fec data owned => ?_⟩
  · exact iff_of_false List.not_mem_nil Std.ExtTreeMap.not_mem_empty
  · rw [bare]
    exact List.nodup_nil
  · rw [bare]
    refine iff_of_false List.not_mem_nil ?_
    rintro ⟨conf, found, _⟩
    exact nomatch (known data).symm.trans found
  · intro data other conf conf' found
    exact nomatch (known data).symm.trans found
  · rw [Lde.data, start_node] at owned
    cases owned

/-- In every run of reloads, with any other events in between, the pseudowires track the configuration
as long as every reload is one that the engine can do right. -/
theorem tracks_of_run (inputs : List LdeInput) (proper : ∀ input ∈ inputs, input.Proper)
    (reloadable : Run.Allowed ldeInput Reloadable (Lde.start {}) inputs) :
    (inputs.foldl ldeInput (Lde.start {})).Tracks := by
  have settled : ∀ (items : List LdeInput) (lde : Lde), lde.Settled → (∀ input ∈ items, input.Proper) →
      Run.Allowed ldeInput Reloadable lde items → (items.foldl ldeInput lde).Settled := by
    intro items
    induction items with
    | nil => exact fun lde settled _ _ => settled
    | cons input rest inductionHypothesis =>
      intro lde settled proper allowed
      refine inductionHypothesis _ (settled.ldeInput (proper input List.mem_cons_self) allowed.1)
        (fun other member => proper other (List.mem_cons_of_mem input member)) allowed.2
  exact (settled inputs _ start_settled proper reloadable).tracks

/-- An L2VPN with one pseudowire, to 10.0.0.2. -/
def oneWire (pwid : UInt32) (cword : Bool) : Xconf where
  ipv4ExpNull := false
  ipv6ExpNull := false
  l2vpnList := [{
    name := "red"
    pwType := 5
    mtu := 1500
    pwList := [{
      lsrId := 0x0a000002
      addr := .v4 0x0a000002
      pwid := pwid
      ifindex := 7
      statustlv := true
      cword := cword }] }]

theorem oneWire_proper (pwid : UInt32) (cword : Bool) :
    (LdeInput.reload (oneWire pwid cword)).Proper := by
  intro xl member
  rw [oneWire, List.mem_singleton] at member
  subst member
  exact ⟨List.nodup_singleton _, List.nodup_singleton _⟩

/-- The pseudowire is configured and then gets another pwid. -/
def renumbered (cword : Bool) : List LdeInput :=
  [.reload (oneWire 100 false), .reload (oneWire 101 cword)]

theorem renumbered_proper (cword : Bool) : ∀ input ∈ renumbered cword, input.Proper := by
  intro input member
  rcases List.mem_pair.mp member with rfl | rfl
  · exact oneWire_proper 100 false
  · exact oneWire_proper 101 cword

theorem tracks_of_run_renumbered : ((renumbered false).foldl ldeInput (Lde.start {})).Tracks :=
  tracks_of_run (renumbered false) (renumbered_proper false) (by decide +kernel)

/-- The pseudowire gets another pwid in the same reload that turns its control word on: it is not
started again, and nothing is under its FEC. -/
theorem renumbered_not_tracks : (∀ input ∈ renumbered true, input.Proper) ∧
    ¬((renumbered true).foldl ldeInput (Lde.start {})).Tracks := by
  refine ⟨renumbered_proper true, fun tracks => ?_⟩
  have absent : ((renumbered true).foldl ldeInput (Lde.start {})).pws[1]?.any (fun pw =>
      (((renumbered true).foldl ldeInput (Lde.start {})).ft[l2vpnPwFec
        ((renumbered true).foldl ldeInput (Lde.start {})) pw]?).isNone) = true := by
    decide +kernel
  obtain ⟨pw, fn, found, node, -⟩ := tracks.installed 1 (by decide +kernel)
  rw [found, Option.any_some, node] at absent
  cases absent

end Ldpd
