/-
This file is about how long a targeted neighbor stays. It is there for the configuration,
for a Hello, or for the pseudowires that count on it; `merge_l2vpns` counts them up and
down one at a time, in `uint16_t pw_count`. The count is right as long as no more than
65535 pseudowires are counted for one address at any moment of a reload.
-/

import Ldpd.Ldpe.Activation
import Ldpd.Main.Merge

namespace Ldpd

/-! ### The engine -/

/-- The call for a pseudowire that an effect of `merge_l2vpns` is. -/
def MergeEffect.pwCall : MergeEffect → Option PwCall
  | .tnbrInit addr => some (.init addr)
  | .tnbrExit addr => some (.exit addr)
  | _ => none

/-- The calls that `merge_l2vpns` makes for pseudowires in the LDP engine. -/
def pwCalls (l2vpns xls : List ConfL2vpn) : List PwCall :=
  (Reconcile.merge (LdpdConf.l2vpnRules .ldpEngine) l2vpns xls).2.filterMap MergeEffect.pwCall

/-- The part of the engine that finds neighbors, with the L2VPNs of `leconf` and the targeted
neighbors of the last configuration. -/
structure Targets where
  discovery : Discovery := {}
  l2vpns : List ConfL2vpn := []
  configured : List LdpdAddr := []

/-- What happens: a reload, with the L2VPNs of the new configuration, or anything else. -/
inductive TargetsInput where
  | reload (conf : DiscoveryConf) (xls : List ConfL2vpn)
  | event (input : DiscoveryInput) (other : ∀ conf, input ≠ .reload conf)

/-- One input. -/
def targetsStep (state : Targets) : TargetsInput → Targets
  | .reload conf xls =>
    { discovery := state.discovery.mergeConfig { conf with pws := pwCalls state.l2vpns xls }
      l2vpns := (Reconcile.merge (LdpdConf.l2vpnRules .ldpEngine) state.l2vpns xls).1
      configured := conf.tnbrs }
  | .event input _ => { state with discovery := discoveryStep state.discovery input }

/-! ### Pseudowires -/

/-- The addresses of the pseudowires of an L2VPN. -/
def ConfL2vpn.targets (l2vpn : ConfL2vpn) : Multiset LdpdAddr :=
  (l2vpn.pwList.map ConfPw.addr : List LdpdAddr)

/-- The addresses of all pseudowires. -/
def pwTargets (l2vpns : List ConfL2vpn) : Multiset LdpdAddr :=
  Reconcile.total ConfL2vpn.targets l2vpns

/-- The number of pseudowires with an address. -/
def Targets.references (state : Targets) (addr : LdpdAddr) : Nat :=
  ((state.l2vpns.flatMap ConfL2vpn.pwList).map ConfPw.addr).count addr

/-- The addresses of the pseudowires after a call, which ends only what has begun. -/
def countCall (targets : Multiset LdpdAddr) : PwCall → Option (Multiset LdpdAddr)
  | .init addr => some (addr ::ₘ targets)
  | .exit addr => if addr ∈ targets then some (targets.erase addr) else none

/-- The same for an effect of a merge. -/
def countEffect (targets : Multiset LdpdAddr) (effect : MergeEffect) :
    Option (Multiset LdpdAddr) :=
  match effect.pwCall with
  | some call => countCall targets call
  | none => some targets

theorem references_eq (state : Targets) (addr : LdpdAddr) :
    state.references addr = (pwTargets state.l2vpns).count addr := by
  rw [Targets.references, pwTargets]
  induction state.l2vpns with
  | nil => rfl
  | cons l2vpn rest inductionHypothesis =>
    rw [List.flatMap_cons, List.map_append, List.count_append, inductionHypothesis,
      Reconcile.total_cons, Multiset.count_add, ConfL2vpn.targets, Multiset.coe_count]

theorem foldlM_countEffect (effects : List MergeEffect) (targets : Multiset LdpdAddr) :
    (effects.filterMap MergeEffect.pwCall).foldlM countCall targets =
      effects.foldlM countEffect targets := by
  induction effects generalizing targets with
  | nil => rfl
  | cons effect rest inductionHypothesis =>
    rw [List.foldlM_cons, List.filterMap_cons, countEffect]
    cases effect.pwCall with
    | none => exact inductionHypothesis targets
    | some call =>
      simp only [List.foldlM_cons]
      congr 1
      funext targets
      exact inductionHypothesis targets

theorem countEffect_exit (addr : LdpdAddr) (targets : Multiset LdpdAddr) :
    countEffect (addr ::ₘ targets) (.tnbrExit addr) = some targets := by
  simp [countEffect, MergeEffect.pwCall, countCall]

theorem countEffect_init (addr : LdpdAddr) (targets : Multiset LdpdAddr) :
    countEffect targets (.tnbrInit addr) = some (addr ::ₘ targets) := rfl

theorem balanced_pwEffects (l2vpn xl : ConfL2vpn) (xp pw : ConfPw) (other : Multiset LdpdAddr) :
    (LdpdConf.pwEffects .ldpEngine l2vpn xl xp pw).foldlM countEffect (pw.addr ::ₘ other) =
      some (xp.addr ::ₘ other) := by
  have reset (condition : Bool) (targets : Multiset LdpdAddr) :
      (effectsIf condition [.nbr pw.lsrId [.shutdownIfOper]]).foldlM countEffect targets =
        some targets := by
    cases condition <;> rfl
  by_cases same : pw.addr = xp.addr
  · rw [LdpdConf.pwEffects]
    simp only [same, bne_self_eq_false, List.foldlM_append, reset, bind]
    rfl
  · have differ : (pw.addr != xp.addr) = true := by simpa using same
    rw [LdpdConf.pwEffects]
    simp only [differ, List.foldlM_append, effectsIf, if_true, List.foldlM_cons, List.foldlM_nil,
      countEffect_exit, bind, Option.bind_some, pure]
    exact congrArg (Option.bind · _) (reset _ other)

/-- The calls for an L2VPN that stays are for its pseudowires. -/
theorem balanced_pwRules (l2vpn xl : ConfL2vpn) :
    (LdpdConf.pwRules .ldpEngine l2vpn xl).Balanced countEffect fun pw => {pw.addr} where
  drop pw other := by
    simp [LdpdConf.pwRules, LdpdConf.pwExitCall, countEffect_exit, Reconcile.total]
  add pw other := by
    simp [LdpdConf.pwRules, LdpdConf.pwInitCall, countEffect_init]
  update pw xp other := by
    simpa [LdpdConf.pwRules, LdpdConf.pwMerge] using balanced_pwEffects l2vpn xl xp pw other

theorem total_addr (pws : List ConfPw) :
    Reconcile.total (fun pw => {pw.addr}) pws = (pws.map ConfPw.addr : Multiset LdpdAddr) := by
  induction pws with
  | nil => rfl
  | cons pw rest inductionHypothesis =>
    rw [Reconcile.total_cons, inductionHypothesis]
    rfl

theorem map_addr_cons (pw : ConfPw) (rest : List ConfPw) (other : Multiset LdpdAddr) :
    ((pw :: rest).map ConfPw.addr : Multiset LdpdAddr) + other =
      pw.addr ::ₘ ((rest.map ConfPw.addr : Multiset LdpdAddr) + other) := by
  rw [List.map_cons, ← Multiset.cons_coe, Multiset.cons_add]

theorem foldlM_exits (pwType : Int) (pws : List ConfPw) (other : Multiset LdpdAddr) :
    (pws.flatMap (LdpdConf.pwExitCall .ldpEngine pwType)).foldlM countEffect
      ((pws.map ConfPw.addr : Multiset LdpdAddr) + other) = some other := by
  induction pws with
  | nil => exact congrArg some (zero_add other)
  | cons pw rest inductionHypothesis =>
    rw [List.flatMap_cons, List.foldlM_append, map_addr_cons]
    simp only [LdpdConf.pwExitCall, List.foldlM_cons, List.foldlM_nil, countEffect_exit, bind,
      Option.bind_some, pure]
    exact inductionHypothesis

theorem foldlM_inits (pwType mtu : Int) (pws : List ConfPw) (other : Multiset LdpdAddr) :
    (pws.flatMap (LdpdConf.pwInitCall .ldpEngine pwType mtu)).foldlM countEffect other =
      some ((pws.map ConfPw.addr : Multiset LdpdAddr) + other) := by
  induction pws generalizing other with
  | nil => exact congrArg some (zero_add other).symm
  | cons pw rest inductionHypothesis =>
    rw [List.flatMap_cons, List.foldlM_append]
    simp only [LdpdConf.pwInitCall, List.foldlM_cons, List.foldlM_nil, countEffect_init, bind,
      Option.bind_some, pure]
    rw [inductionHypothesis, map_addr_cons, Multiset.add_cons]

theorem balanced_l2vpnRules :
    (LdpdConf.l2vpnRules .ldpEngine).Balanced countEffect ConfL2vpn.targets where
  drop l2vpn other := by
    refine (foldlM_exits l2vpn.pwType l2vpn.pwList other).trans (congrArg some ?_)
    exact (zero_add other).symm
  add xl other := foldlM_inits xl.pwType xl.mtu xl.pwList other
  update l2vpn xl other := by
    have merged := Reconcile.foldlM_merge (LdpdConf.lawful_pwRules .ldpEngine l2vpn xl)
      (balanced_pwRules l2vpn xl) l2vpn.pwList xl.pwList other
    rw [total_addr, total_addr] at merged
    exact merged

/-- The calls of a merge lead from the pseudowires there were to those there are. -/
theorem foldlM_pwCalls (l2vpns xls : List ConfL2vpn) :
    (pwCalls l2vpns xls).foldlM countCall (pwTargets l2vpns) =
      some (pwTargets (Reconcile.merge (LdpdConf.l2vpnRules .ldpEngine) l2vpns xls).1) := by
  have merged := Reconcile.foldlM_merge (LdpdConf.lawful_l2vpnRules .ldpEngine)
    balanced_l2vpnRules l2vpns xls 0
  rw [add_zero, add_zero] at merged
  rw [pwCalls, foldlM_countEffect]
  exact merged

/-! ### One address -/

/-- What there should be for an address, given the pseudowires that count on it. -/
def Slot (references : Nat) (configured : Prop) : Option Tnbr → Prop
  | none => references = 0 ∧ ¬configured
  | some tnbr => tnbr.pwCount.toNat = references ∧ (tnbr.configured ↔ configured) ∧
      (tnbr.configured ∨ tnbr.dynamic ∨ 0 < references)

variable {references : Nat} {configured : Prop} {tnbr : Tnbr}

theorem slot_tnbrCheck (count : tnbr.pwCount.toNat = references)
    (flag : tnbr.configured ↔ configured) :
    Slot references configured (Discovery.tnbrCheck tnbr) := by
  have zero : tnbr.pwCount = 0 ↔ references = 0 := by
    rw [← count]
    exact UInt16.toNat_inj.symm
  rw [Discovery.tnbrCheck]
  split
  · rename_i useless
    simp only [Bool.and_eq_true, Bool.not_eq_true', beq_iff_eq] at useless
    refine ⟨zero.mp useless.2, fun now => ?_⟩
    rw [flag.mpr now] at useless
    cases useless.1.1
  · rename_i useful
    refine ⟨count, flag, ?_⟩
    by_contra unused
    simp only [not_or, Nat.not_lt, Nat.le_zero, Bool.not_eq_true] at unused
    simp [unused, zero] at useful

theorem Slot.hello {found : Option Tnbr} (slot : Slot references configured found) :
    Slot references configured (found.bind fun tnbr =>
      if tnbr.dynamic then Discovery.tnbrCheck { tnbr with dynamic := false } else some tnbr) := by
  cases found with
  | none => exact slot
  | some tnbr =>
    rw [Option.bind_some]
    split
    · exact slot_tnbrCheck slot.1 slot.2.1
    · exact slot

theorem Slot.expired {found : Option Tnbr} (slot : Slot references configured found) :
    Slot references configured (found.bind fun tnbr =>
      if !tnbr.configured && tnbr.pwCount == 0 then none else some tnbr) := by
  cases found with
  | none => exact slot
  | some tnbr =>
    rw [Option.bind_some]
    split
    · rename_i unused
      simp only [Bool.and_eq_true, Bool.not_eq_true', beq_iff_eq] at unused
      obtain ⟨count, flag, -⟩ := slot
      rw [unused.2] at count
      rw [unused.1] at flag
      exact ⟨count.symm, fun now => absurd (flag.mpr now) Bool.false_ne_true⟩
    · exact slot

theorem Slot.init {found : Option Tnbr} (slot : Slot references configured found)
    (fits : references + 1 < 65536) (fresh : Tnbr) (unconfigured : fresh.configured = false)
    (unused : fresh.pwCount = 0) :
    Slot (references + 1) configured (some { found.getD fresh with
      pwCount := (found.getD fresh).pwCount + 1 }) := by
  have more {count : UInt16} (same : count.toNat = references) :
      (count + 1).toNat = references + 1 := by
    rw [UInt16.toNat_add, same, UInt16.toNat_one, Nat.mod_eq_of_lt fits]
  cases found with
  | none =>
    obtain ⟨rfl, absent⟩ := slot
    refine ⟨more (by rw [Option.getD_none, unused]; rfl), ?_, .inr (.inr (Nat.succ_pos 0))⟩
    exact iff_of_false (by simp [unconfigured]) absent
  | some tnbr => exact ⟨more slot.1, slot.2.1, .inr (.inr (Nat.succ_pos references))⟩

theorem Slot.exit {found : Option Tnbr} (slot : Slot (references + 1) configured found) :
    Slot references configured (found.bind fun tnbr =>
      Discovery.tnbrCheck { tnbr with pwCount := tnbr.pwCount - 1 }) := by
  cases found with
  | none => exact absurd slot.1 (Nat.succ_ne_zero references)
  | some tnbr =>
    refine slot_tnbrCheck ?_ slot.2.1
    have enough : (1 : UInt16) ≤ tnbr.pwCount := by
      rw [UInt16.le_iff_toNat_le, slot.1]
      exact Nat.le_add_left 1 references
    rw [UInt16.toNat_sub_of_le _ _ enough, slot.1]
    rfl

/-! ### The list of targeted neighbors -/

/-- The targeted neighbor that `tnbr_find` finds in a list. -/
def tnbrIn (tnbrs : List Tnbr) (addr : LdpdAddr) : Option Tnbr :=
  tnbrs.find? fun tnbr => tnbr.addr = addr

theorem tnbrIn_cons (first : Tnbr) (rest : List Tnbr) (addr : LdpdAddr) :
    tnbrIn (first :: rest) addr = if first.addr = addr then some first else tnbrIn rest addr := by
  rw [tnbrIn, List.find?_cons]
  by_cases same : first.addr = addr
  · simp [same]
  · simp [same, tnbrIn]

theorem tnbrIn_eq_none {tnbrs : List Tnbr} {addr : LdpdAddr} :
    tnbrIn tnbrs addr = none ↔ addr ∉ tnbrs.map Tnbr.addr := by
  simp [tnbrIn]

theorem tnbrIn_of_mem {tnbrs : List Tnbr} (unique : (tnbrs.map Tnbr.addr).Nodup) {tnbr : Tnbr}
    (member : tnbr ∈ tnbrs) : tnbrIn tnbrs tnbr.addr = some tnbr := by
  induction tnbrs with
  | nil => cases member
  | cons first rest inductionHypothesis =>
    obtain ⟨absent, unique⟩ := List.nodup_cons.mp unique
    rw [tnbrIn_cons]
    rcases List.mem_cons.mp member with rfl | member
    · exact if_pos rfl
    · rw [if_neg, inductionHypothesis unique member]
      intro same
      exact absent (same ▸ List.mem_map_of_mem member)

section Change

variable {tnbrs : List Tnbr} {change : Tnbr → Option Tnbr}
  (keeps : ∀ tnbr tnbr', change tnbr = some tnbr' → tnbr'.addr = tnbr.addr)

include keeps

theorem addrs_filterMap : ((tnbrs.filterMap change).map Tnbr.addr).Sublist (tnbrs.map Tnbr.addr) := by
  induction tnbrs with
  | nil => exact List.Sublist.slnil
  | cons first rest inductionHypothesis =>
    rw [List.filterMap_cons]
    cases changed : change first with
    | none => exact inductionHypothesis.cons _
    | some stays =>
      simp only [List.map_cons, keeps first stays changed]
      exact inductionHypothesis.cons_cons _

theorem tnbrIn_filterMap (unique : (tnbrs.map Tnbr.addr).Nodup) (addr : LdpdAddr) :
    tnbrIn (tnbrs.filterMap change) addr = (tnbrIn tnbrs addr).bind change := by
  induction tnbrs with
  | nil => rfl
  | cons first rest inductionHypothesis =>
    obtain ⟨absent, unique⟩ := List.nodup_cons.mp unique
    rw [List.filterMap_cons, tnbrIn_cons]
    by_cases same : first.addr = addr
    · subst same
      have gone : tnbrIn (rest.filterMap change) first.addr = none := by
        rw [inductionHypothesis unique, tnbrIn_eq_none.mpr absent, Option.bind_none]
      rw [if_pos rfl, Option.bind_some]
      cases changed : change first with
      | none => exact gone
      | some stays =>
        simp only
        rw [tnbrIn_cons, if_pos (keeps first stays changed)]
    · rw [if_neg same, ← inductionHypothesis unique]
      cases changed : change first with
      | none => rfl
      | some stays =>
        simp only
        rw [tnbrIn_cons, keeps first stays changed, if_neg same]

omit keeps in
theorem updateFirst_eq_filterMap (unique : (tnbrs.map Tnbr.addr).Nodup) (addr : LdpdAddr) :
    updateFirst (fun tnbr => tnbr.addr = addr) change tnbrs =
      tnbrs.filterMap fun tnbr => if tnbr.addr = addr then change tnbr else some tnbr := by
  induction tnbrs with
  | nil => rfl
  | cons first rest inductionHypothesis =>
    obtain ⟨absent, unique⟩ := List.nodup_cons.mp unique
    rw [updateFirst, List.filterMap_cons]
    by_cases same : first.addr = addr
    · have others : rest.filterMap (fun tnbr => if tnbr.addr = addr then change tnbr else some tnbr) =
          rest := by
        refine (List.filterMap_congr fun tnbr member => ?_).trans List.filterMap_some
        refine if_neg fun other => absent ?_
        rw [same, ← other]
        exact List.mem_map_of_mem member
      simp only [same, decide_true, if_true, others]
      cases change first <;> rfl
    · simp only [same, decide_false, Bool.false_eq_true, if_false]
      rw [inductionHypothesis unique]

end Change

/-- For each address there is what there should be. -/
structure Counts (tnbrs : List Tnbr) (targets : Multiset LdpdAddr) (configured : LdpdAddr → Prop) :
    Prop where
  unique : (tnbrs.map Tnbr.addr).Nodup
  slot : ∀ addr, Slot (targets.count addr) (configured addr) (tnbrIn tnbrs addr)

namespace Counts

variable {tnbrs : List Tnbr} {targets : Multiset LdpdAddr} {configured : LdpdAddr → Prop}

theorem congr (counts : Counts tnbrs targets configured) {configured' : LdpdAddr → Prop}
    (same : ∀ addr, configured addr ↔ configured' addr) : Counts tnbrs targets configured' := by
  obtain rfl : configured = configured' := funext fun addr => propext (same addr)
  exact counts

/-- A change of every targeted neighbor. -/
theorem filterMap (counts : Counts tnbrs targets configured) {targets' : Multiset LdpdAddr}
    {configured' : LdpdAddr → Prop} {change : Tnbr → Option Tnbr}
    (keeps : ∀ tnbr tnbr', change tnbr = some tnbr' → tnbr'.addr = tnbr.addr)
    (slots : ∀ addr, Slot (targets.count addr) (configured addr) (tnbrIn tnbrs addr) →
      Slot (targets'.count addr) (configured' addr) ((tnbrIn tnbrs addr).bind change)) :
    Counts (tnbrs.filterMap change) targets' configured' where
  unique := counts.unique.sublist (addrs_filterMap keeps)
  slot addr := by
    rw [tnbrIn_filterMap keeps counts.unique]
    exact slots addr (counts.slot addr)

/-- A change of one targeted neighbor. -/
theorem update (counts : Counts tnbrs targets configured) {targets' : Multiset LdpdAddr}
    {configured' : LdpdAddr → Prop} {change : Tnbr → Option Tnbr} {addr : LdpdAddr}
    (keeps : ∀ tnbr tnbr', change tnbr = some tnbr' → tnbr'.addr = tnbr.addr)
    (others : ∀ other ≠ addr, targets'.count other = targets.count other ∧
      (configured other ↔ configured' other))
    (slot : Slot (targets.count addr) (configured addr) (tnbrIn tnbrs addr) →
      Slot (targets'.count addr) (configured' addr) ((tnbrIn tnbrs addr).bind change)) :
    Counts (updateFirst (fun tnbr => tnbr.addr = addr) change tnbrs) targets' configured' := by
  rw [updateFirst_eq_filterMap counts.unique]
  refine counts.filterMap (fun tnbr tnbr' changed => ?_) fun other before => ?_
  · split at changed
    · exact keeps tnbr tnbr' changed
    · rw [Option.some_inj.mp changed]
  · cases found : tnbrIn tnbrs other with
    | none =>
      by_cases same : other = addr
      · subst same
        have after := slot before
        rw [found] at after
        exact after
      · rw [Option.bind_none, (others other same).1, ← propext (others other same).2, ← found]
        exact before
    | some tnbr =>
      have named : tnbr.addr = other := by simpa using List.find?_some found
      rw [Option.bind_some]
      by_cases same : other = addr
      · subst same
        have after := slot before
        rw [found] at after
        rw [if_pos named]
        exact after
      · rw [if_neg fun here => same (named.symm.trans here), (others other same).1,
          ← propext (others other same).2, ← found]
        exact before

/-- A new targeted neighbor. -/
theorem insert (counts : Counts tnbrs targets configured) {targets' : Multiset LdpdAddr}
    {configured' : LdpdAddr → Prop} {tnbr : Tnbr} (absent : tnbrIn tnbrs tnbr.addr = none)
    (others : ∀ other ≠ tnbr.addr, targets'.count other = targets.count other ∧
      (configured other ↔ configured' other))
    (slot : Slot (targets'.count tnbr.addr) (configured' tnbr.addr) (some tnbr)) :
    Counts (tnbr :: tnbrs) targets' configured' where
  unique := List.nodup_cons.mpr ⟨tnbrIn_eq_none.mp absent, counts.unique⟩
  slot addr := by
    rw [tnbrIn_cons]
    split
    · rename_i same
      subst same
      exact slot
    · rename_i different
      obtain ⟨count, flag⟩ := others addr (Ne.symm different)
      rw [count, ← propext flag]
      exact counts.slot addr

/-- A change of nothing but the state of the targeted neighbors. -/
theorem mapUpdate (counts : Counts tnbrs targets configured) {change : Tnbr → Tnbr}
    (keeps : ∀ tnbr, ∃ active, change tnbr = { tnbr with active }) :
    Counts (tnbrs.map change) targets configured := by
  rw [← List.filterMap_eq_map]
  refine counts.filterMap (fun tnbr tnbr' changed => ?_) fun addr slot => ?_
  · obtain ⟨active, same⟩ := keeps tnbr
    rw [← Option.some_inj.mp changed, same]
  · cases found : tnbrIn tnbrs addr with
    | none =>
      rw [found] at slot
      exact slot
    | some tnbr =>
      rw [found] at slot
      obtain ⟨active, same⟩ := keeps tnbr
      rw [Option.bind_some, Function.comp_apply, same]
      exact slot

end Counts

/-! ### Steps -/

namespace Discovery

variable {state : Discovery} {targets : Multiset LdpdAddr} {configured : LdpdAddr → Prop}

theorem counts_updateAllUnspec (counts : Counts state.tnbrs targets configured) :
    Counts state.updateAllUnspec.tnbrs targets configured :=
  counts.mapUpdate fun tnbr => ⟨_, tnbrUpdate_eq state tnbr⟩

theorem counts_updateAll (counts : Counts state.tnbrs targets configured) (af : Af) :
    Counts (state.updateAll af).tnbrs targets configured := by
  refine counts.mapUpdate fun tnbr => ?_
  split
  · exact ⟨_, tnbrUpdate_eq state tnbr⟩
  · exact ⟨tnbr.active, rfl⟩

theorem counts_tnbrInsert (counts : Counts state.tnbrs targets configured)
    {configured' : LdpdAddr → Prop} {tnbr : Tnbr} (absent : state.tnbrFind tnbr.addr = none)
    (fresh : tnbr.pwCount = 0) (others : ∀ other ≠ tnbr.addr, configured other ↔ configured' other)
    (flag : tnbr.configured ↔ configured' tnbr.addr) (needed : tnbr.configured ∨ tnbr.dynamic) :
    Counts (state.tnbrInsert tnbr).tnbrs targets configured' := by
  have before := counts.slot tnbr.addr
  rw [show tnbrIn state.tnbrs tnbr.addr = none from absent] at before
  rw [tnbrInsert, tnbrUpdate_eq]
  refine counts.insert absent (fun other different => ⟨rfl, others other different⟩) ⟨?_, flag, ?_⟩
  · rw [before.1, fresh]
    rfl
  · rcases needed with now | now
    · exact .inl now
    · exact .inr (.inl now)

theorem counts_targetedHello (counts : Counts state.tnbrs targets configured) (src : LdpdAddr)
    (request : Bool) : Counts (state.targetedHello src request).tnbrs targets configured := by
  have dropped : Counts (if request then state else state.updateTnbr src fun tnbr =>
      if tnbr.dynamic then tnbrCheck { tnbr with dynamic := false } else some tnbr).tnbrs targets
      configured := by
    split
    · exact counts
    · refine counts.update (fun tnbr tnbr' left => ?_) (fun _ _ => ⟨rfl, Iff.rfl⟩) Slot.hello
      split at left
      · rw [tnbrCheck_eq left]
      · rw [Option.some_inj.mp left]
  rw [targetedHello]
  generalize (if request then state else _ : Discovery) = state' at dropped ⊢
  split
  · exact dropped
  · rename_i absent
    split
    · have unconfigured := dropped.slot src
      rw [show tnbrIn state'.tnbrs src = none from absent] at unconfigured
      exact counts_tnbrInsert dropped absent rfl (fun _ _ => Iff.rfl)
        (iff_of_false Bool.false_ne_true unconfigured.2) (.inr rfl)
    · exact dropped

theorem counts_targetedExpired (counts : Counts state.tnbrs targets configured) (addr : LdpdAddr) :
    Counts (state.targetedExpired addr).tnbrs targets configured := by
  refine counts.update (fun tnbr tnbr' left => ?_) (fun _ _ => ⟨rfl, Iff.rfl⟩) Slot.expired
  split at left
  · cases left
  · rw [Option.some_inj.mp left]

theorem counts_removeDynamicTnbrs (counts : Counts state.tnbrs targets configured) (af : Af) :
    Counts (state.removeDynamicTnbrs af).tnbrs targets configured := by
  refine counts.filterMap (fun tnbr tnbr' left => ?_) fun addr slot => ?_
  · split at left
    · rw [tnbrCheck_eq left]
    · rw [Option.some_inj.mp left]
  · cases found : tnbrIn state.tnbrs addr with
    | none =>
      rw [found] at slot
      exact slot
    | some tnbr =>
      rw [found] at slot
      rw [Option.bind_some]
      split
      · exact slot_tnbrCheck slot.1 slot.2.1
      · exact slot

theorem counts_mergeAf (counts : Counts state.tnbrs targets configured) (conf : DiscoveryConf)
    (af : Af) : Counts (mergeAf conf state af).tnbrs targets configured := by
  rw [mergeAf]
  split
  · exact counts_removeDynamicTnbrs counts af
  · exact counts

theorem counts_mergeGlobal (counts : Counts state.tnbrs targets configured) (conf : DiscoveryConf) :
    Counts (state.mergeGlobal conf).tnbrs targets configured := by
  rw [mergeGlobal]
  split
  · exact counts
  · split
    · exact counts_updateAllUnspec counts
    · exact counts

theorem tnbrs_mergeIfaces (conf : DiscoveryConf) : (state.mergeIfaces conf).tnbrs = state.tnbrs := by
  rw [mergeIfaces]
  refine List.foldlRecOn conf.ifaces mergeIface (motive := fun state' => state'.tnbrs = state.tnbrs)
    ?_ fun state' same xi _ => ?_
  · rfl
  · rw [mergeIface]
    split
    · exact same
    · exact same

theorem counts_mergeTnbr (counts : Counts state.tnbrs targets configured) (addr : LdpdAddr) :
    Counts (state.mergeTnbr addr).tnbrs targets fun other => configured other ∨ other = addr := by
  have others : ∀ other ≠ addr, configured other ↔ configured other ∨ other = addr :=
    fun other different => (or_iff_left different).symm
  rw [mergeTnbr]
  split
  · rename_i absent
    exact counts_tnbrInsert counts absent rfl others (iff_of_true rfl (.inr rfl)) (.inl rfl)
  · rename_i found
    refine counts.update (fun tnbr tnbr' changed => ?_) (fun other different =>
      ⟨rfl, others other different⟩) fun slot => ?_
    · rw [← Option.some_inj.mp changed]
    · rw [show tnbrIn state.tnbrs addr = some _ from found] at slot ⊢
      exact ⟨slot.1, iff_of_true rfl (.inr rfl), .inl rfl⟩

theorem counts_foldl_mergeTnbr (addrs : List LdpdAddr)
    (counts : Counts state.tnbrs targets configured) :
    Counts (addrs.foldl mergeTnbr state).tnbrs targets
      fun other => configured other ∨ other ∈ addrs := by
  induction addrs generalizing state configured with
  | nil => exact counts.congr fun other => (or_iff_left List.not_mem_nil).symm
  | cons addr rest inductionHypothesis =>
    refine (inductionHypothesis (counts_mergeTnbr counts addr)).congr fun other => ?_
    rw [List.mem_cons, or_assoc]

theorem counts_mergeTnbrs (counts : Counts state.tnbrs targets configured) (conf : DiscoveryConf) :
    Counts (state.mergeTnbrs conf).tnbrs targets fun other => other ∈ conf.tnbrs := by
  have swept : Counts (state.tnbrs.filterMap fun tnbr =>
      if tnbr.configured ∧ tnbr.addr ∉ conf.tnbrs then tnbrCheck { tnbr with configured := false }
      else some tnbr) targets fun other => configured other ∧ other ∈ conf.tnbrs := by
    refine counts.filterMap (fun tnbr tnbr' left => ?_) fun addr slot => ?_
    · split at left
      · rw [tnbrCheck_eq left]
      · rw [Option.some_inj.mp left]
    · cases found : tnbrIn state.tnbrs addr with
      | none =>
        rw [found] at slot
        exact ⟨slot.1, fun now => slot.2 now.1⟩
      | some tnbr =>
        have named : tnbr.addr = addr := by simpa using List.find?_some found
        rw [found] at slot
        rw [Option.bind_some, named]
        split
        · rename_i goes
          exact slot_tnbrCheck slot.1 (iff_of_false Bool.false_ne_true fun now => goes.2 now.2)
        · rename_i stays
          refine ⟨slot.1, ?_, slot.2.2⟩
          rw [slot.2.1] at stays ⊢
          exact ⟨fun now => ⟨now, not_not.mp fun absent => stays ⟨now, absent⟩⟩, And.left⟩
  refine (counts_foldl_mergeTnbr conf.tnbrs swept).congr fun other => ?_
  exact or_iff_right_of_imp And.right

theorem counts_pwInit (counts : Counts state.tnbrs targets configured) {addr : LdpdAddr}
    (fits : (addr ::ₘ targets).count addr < 65536) :
    Counts (state.pwInit addr).tnbrs (addr ::ₘ targets) configured := by
  have others : ∀ other ≠ addr, (addr ::ₘ targets).count other = targets.count other ∧
      (configured other ↔ configured other) :=
    fun other different => ⟨Multiset.count_cons_of_ne different targets, Iff.rfl⟩
  have slot := counts.slot addr
  rw [Multiset.count_cons_self] at fits
  rw [pwInit]
  cases found : state.tnbrFind addr with
  | none =>
    rw [show tnbrIn state.tnbrs addr = none from found] at slot
    simp only [tnbrInsert, tnbrUpdate_eq, updateTnbr, updateFirst, decide_true, if_true,
      Option.toList_some, List.singleton_append]
    refine counts.insert found others ?_
    rw [Multiset.count_cons_self]
    exact slot.init fits { addr, active := _ } rfl rfl
  | some tnbr =>
    refine counts.update (fun tnbr tnbr' changed => ?_) others fun slot => ?_
    · rw [← Option.some_inj.mp changed]
    · rw [show tnbrIn state.tnbrs addr = some tnbr from found] at slot ⊢
      rw [Multiset.count_cons_self]
      exact slot.init fits { addr } rfl rfl

theorem counts_pwExit (counts : Counts state.tnbrs targets configured) {addr : LdpdAddr}
    (present : addr ∈ targets) : Counts (state.pwExit addr).tnbrs (targets.erase addr) configured := by
  obtain ⟨rest, rfl⟩ := Multiset.exists_cons_of_mem present
  rw [Multiset.erase_cons_head]
  refine counts.update (fun tnbr tnbr' left => ?_) (fun other different => ?_) fun slot => ?_
  · rw [tnbrCheck_eq left]
  · exact ⟨(Multiset.count_cons_of_ne different rest).symm, Iff.rfl⟩
  · rw [Multiset.count_cons_self] at slot
    exact slot.exit

/-- The calls of a reload, one after the other. -/
theorem counts_foldl_pwCall (calls : List PwCall) (counts : Counts state.tnbrs targets configured)
    {targets' : Multiset LdpdAddr} (leads : calls.foldlM countCall targets = some targets')
    (fits : ∀ done between, done <+: calls → done.foldlM countCall targets = some between →
      ∀ addr, between.count addr < 65536) :
    Counts (calls.foldl pwCall state).tnbrs targets' configured := by
  induction calls generalizing state targets with
  | nil =>
    obtain rfl := Option.some_inj.mp leads
    exact counts
  | cons call rest inductionHypothesis =>
    rw [List.foldlM_cons] at leads
    obtain ⟨next, first, others⟩ := Option.bind_eq_some_iff.mp leads
    refine inductionHypothesis ?_ others fun done between part leads => ?_
    · have small := fits [call] next (List.prefix_append [call] rest) (by simp [first])
      cases call with
      | init addr =>
        obtain rfl := Option.some_inj.mp first
        exact counts_pwInit counts (small addr)
      | exit addr =>
        rw [countCall] at first
        split at first
        · rename_i present
          obtain rfl := Option.some_inj.mp first
          exact counts_pwExit counts present
        · cases first
    · refine fits (call :: done) between (List.cons_prefix_cons.mpr ⟨rfl, part⟩) ?_
      rw [List.foldlM_cons, first]
      exact leads

theorem counts_mergeConfig (counts : Counts state.tnbrs targets configured) (conf : DiscoveryConf)
    {targets' : Multiset LdpdAddr} (leads : conf.pws.foldlM countCall targets = some targets')
    (fits : ∀ done between, done <+: conf.pws → done.foldlM countCall targets = some between →
      ∀ addr, between.count addr < 65536) :
    Counts (state.mergeConfig conf).tnbrs targets' fun addr => addr ∈ conf.tnbrs := by
  have families := counts_mergeAf (counts_mergeAf (counts_mergeGlobal counts conf) conf .inet) conf
    .inet6
  rw [← tnbrs_mergeIfaces conf] at families
  exact counts_foldl_pwCall conf.pws (counts_mergeTnbrs families conf) leads fits

theorem counts_discoveryStep (counts : Counts state.tnbrs targets configured)
    {input : DiscoveryInput} (other : ∀ conf, input ≠ .reload conf) :
    Counts (discoveryStep state input).tnbrs targets configured := by
  cases input with
  | newaddr ka =>
    rw [Ldpd.discoveryStep, ifAddrAdd]
    split
    · exact counts
    · exact counts
  | deladdr ka =>
    rw [Ldpd.discoveryStep, ifAddrDel]
    split
    · exact counts
    · exact counts
  | closeSockets af =>
    rw [Ldpd.discoveryStep, closeSockets]
    refine counts_updateAll ?_ af
    exact counts
  | setupSockets af =>
    rw [Ldpd.discoveryStep, setupSockets]
    refine counts_updateAll ?_ af
    exact counts
  | reload conf => exact absurd rfl (other conf)
  | targetedHello src request => exact counts_targetedHello counts src request
  | targetedExpired addr => exact counts_targetedExpired counts addr
  | nbrNew id v4Enabled v6Enabled =>
    rw [Ldpd.discoveryStep, nbrNew]
    split
    · exact counts
    · exact counts
  | ifstatus | nbrDel | sessionUp | sessionDown => exact counts

end Discovery

/-! ### Runs -/

/-- The targeted neighbors are those that are needed, each once, and count their pseudowires. -/
structure Targets.Exact (state : Targets) : Prop where
  unique : (state.discovery.tnbrs.map Tnbr.addr).Nodup
  count : ∀ tnbr ∈ state.discovery.tnbrs, tnbr.pwCount.toNat = state.references tnbr.addr
  present : ∀ addr, 0 < state.references addr ∨ addr ∈ state.configured →
    ∃ tnbr ∈ state.discovery.tnbrs, tnbr.addr = addr
  needed : ∀ tnbr ∈ state.discovery.tnbrs,
    tnbr.addr ∈ state.configured ∨ tnbr.dynamic ∨ 0 < state.references tnbr.addr

/-- At no moment of a reload are there more than 65535 pseudowires with one address: those that
were there and are not yet gone, and those that are there already. -/
def Fits (state : Targets) : TargetsInput → Prop
  | .reload _ xls => ∀ done between, done <+: pwCalls state.l2vpns xls →
      done.foldlM countCall (pwTargets state.l2vpns) = some between →
        ∀ addr, between.count addr < 65536
  | .event _ _ => True

/-- The invariant of a run. -/
def Targets.Counted (state : Targets) : Prop :=
  Counts state.discovery.tnbrs (pwTargets state.l2vpns) fun addr => addr ∈ state.configured

theorem Targets.Counted.exact {state : Targets} (counted : state.Counted) : state.Exact := by
  have slot {tnbr : Tnbr} (member : tnbr ∈ state.discovery.tnbrs) :
      Slot (state.references tnbr.addr) (tnbr.addr ∈ state.configured) (some tnbr) := by
    rw [references_eq, ← tnbrIn_of_mem counted.unique member]
    exact counted.slot tnbr.addr
  refine ⟨counted.unique, fun tnbr member => (slot member).1, fun addr needed => ?_,
    fun tnbr member => ?_⟩
  · cases found : tnbrIn state.discovery.tnbrs addr with
    | none =>
      have absent := counted.slot addr
      rw [found, ← references_eq] at absent
      rcases needed with some' | configured
      · exact absurd absent.1 some'.ne'
      · exact absurd configured absent.2
    | some tnbr => exact ⟨tnbr, List.mem_of_find?_eq_some found, by simpa using List.find?_some found⟩
  · rw [← (slot member).2.1]
    exact (slot member).2.2

theorem Targets.Counted.step {state : Targets} (counted : state.Counted) {input : TargetsInput}
    (fits : Fits state input) : (targetsStep state input).Counted := by
  cases input with
  | reload conf xls =>
    exact Discovery.counts_mergeConfig counted { conf with pws := pwCalls state.l2vpns xls }
      (foldlM_pwCalls state.l2vpns xls) fits
  | event input other =>
    exact Discovery.counts_discoveryStep counted other

/-- In every run in which no reload counts more than 65535 pseudowires for one address at any
moment, the targeted neighbors are exact in every state that is reached. -/
theorem exact_of_fits (inputs : List TargetsInput) (fits : Run.Allowed targetsStep Fits {} inputs) :
    (inputs.foldl targetsStep {}).Exact := by
  refine (Run.foldl_of_allowed Targets.Counted (fun state input counted => counted.step) ?_
    fits).exact
  exact ⟨List.nodup_nil, fun addr => ⟨rfl, List.not_mem_nil⟩⟩

/-! ### Examples -/

theorem card_foldlM_countCall {calls : List PwCall} {targets between : Multiset LdpdAddr}
    (leads : calls.foldlM countCall targets = some between) :
    between.card ≤ targets.card + calls.length := by
  induction calls generalizing targets with
  | nil => exact (congrArg Multiset.card (Option.some_inj.mp leads)).ge
  | cons call rest inductionHypothesis =>
    rw [List.foldlM_cons] at leads
    obtain ⟨next, first, others⟩ := Option.bind_eq_some_iff.mp leads
    have one : next.card ≤ targets.card + 1 := by
      cases call with
      | init addr =>
        rw [← Option.some_inj.mp first, Multiset.card_cons]
      | exit addr =>
        rw [countCall] at first
        split at first
        · rw [← Option.some_inj.mp first]
          exact (Multiset.card_erase_le).trans (Nat.le_succ _)
        · cases first
    have more := inductionHypothesis others
    rw [List.length_cons]
    omega

/-- A reload fits if there are few pseudowires before and few calls. -/
theorem fits_of_few {state : Targets} {conf : DiscoveryConf} {xls : List ConfL2vpn}
    (few : (pwTargets state.l2vpns).card + (pwCalls state.l2vpns xls).length < 65536) :
    Fits state (.reload conf xls) := by
  intro done between part leads addr
  have count := Multiset.count_le_card addr between
  have card := card_foldlM_countCall leads
  have length := part.length_le
  omega

/-- A configuration without interfaces. -/
def bareConf (tnbrs : List LdpdAddr) : DiscoveryConf where
  rtrId := 0x0a000001
  thelloAccept _ := true
  ifaces := []
  tnbrs := tnbrs
  pws := []

/-- Pseudowires to the neighbor 10.0.0.2. -/
def crowd (many : Nat) : List ConfPw :=
  (List.range many).map fun number =>
    { lsrId := 0x0a000002, addr := .v4 0x0a000002, pwid := .ofNat (number + 1)
      ifname := "mpw" ++ number.repr, ifindex := .ofNat (number + 1) }

def vpnOf (name : String) (pwList : List ConfPw) : ConfL2vpn where
  name := name
  pwType := 5
  mtu := 1500
  pwList := pwList

/-- Pseudowires move from one L2VPN to another, which comes first in the new configuration. -/
def crowdMoves (many : Nat) (tnbrs : List LdpdAddr) : List TargetsInput :=
  [.reload (bareConf tnbrs) [vpnOf "a" (crowd many)],
    .reload (bareConf tnbrs) [vpnOf "b" (crowd many), vpnOf "a" []]]

theorem exact_of_fits_crowdMoves :
    ((crowdMoves 2 [.v4 0x0a000003]).foldl targetsStep {}).Exact ∧
      ((crowdMoves 2 [.v4 0x0a000003]).foldl targetsStep {}).discovery.tnbrs.map
        (fun tnbr => (tnbr.addr, tnbr.pwCount, tnbr.configured)) =
          [(.v4 0x0a000002, 2, false), (.v4 0x0a000003, 0, true)] := by
  refine ⟨exact_of_fits _ ⟨fits_of_few ?_, fits_of_few ?_, trivial⟩, by decide +kernel⟩
  · decide +kernel
  · decide +kernel

/-! ### Too many pseudowires -/

section Crowd

variable {state : Discovery} {many : Nat}

/-- The only targeted neighbor is there for so many pseudowires. -/
def Discovery.Only (state : Discovery) (many : Nat) : Prop :=
  ∃ active, state.tnbrs = [{ addr := .v4 0x0a000002, active, pwCount := .ofNat many }]

theorem Discovery.Only.init (only : state.Only many) : (state.pwInit (.v4 0x0a000002)).Only (many + 1) := by
  obtain ⟨active, tnbrs⟩ := only
  refine ⟨active, ?_⟩
  simp [pwInit, tnbrFind, tnbrs, updateTnbr, updateFirst, UInt16.ofNat_add]

theorem Discovery.only_init (none' : state.tnbrs = []) : (state.pwInit (.v4 0x0a000002)).Only 1 := by
  refine ⟨state.ediscSocket .inet && state.rtrId != 0, ?_⟩
  simp [pwInit, tnbrFind, none', updateTnbr, updateFirst, tnbrInsert, tnbrUpdate_eq, LdpdAddr.af]

theorem Discovery.Only.exit (only : state.Only (many + 1)) (left : UInt16.ofNat many ≠ 0) :
    (state.pwExit (.v4 0x0a000002)).Only many := by
  obtain ⟨active, tnbrs⟩ := only
  refine ⟨active, ?_⟩
  simp [pwExit, tnbrs, updateTnbr, updateFirst, tnbrCheck, UInt16.ofNat_add, left]

/-- The count is zero again, and the targeted neighbor goes. -/
theorem Discovery.Only.exit_last (only : state.Only (many + 1)) (wrapped : UInt16.ofNat many = 0) :
    (state.pwExit (.v4 0x0a000002)).tnbrs = [] := by
  obtain ⟨active, tnbrs⟩ := only
  simp [pwExit, tnbrs, updateTnbr, updateFirst, tnbrCheck, UInt16.ofNat_add, wrapped]

theorem Discovery.Only.inits (only : state.Only many) (more : Nat) :
    ((List.replicate more (PwCall.init (.v4 0x0a000002))).foldl Discovery.pwCall state).Only (many + more) := by
  induction more generalizing state many with
  | zero => exact only
  | succ more inductionHypothesis =>
    rw [List.replicate_succ, List.foldl_cons, Nat.add_comm more, ← Nat.add_assoc]
    exact inductionHypothesis only.init

theorem Discovery.exits_of_none (none' : state.tnbrs = []) (more : Nat) :
    ((List.replicate more (PwCall.exit (.v4 0x0a000002))).foldl Discovery.pwCall state).tnbrs = [] := by
  induction more generalizing state with
  | zero => exact none'
  | succ more inductionHypothesis =>
    refine inductionHypothesis ?_
    simp [Discovery.pwCall, Discovery.pwExit, updateTnbr, none', updateFirst]

theorem Discovery.rtrId_mergeGlobal (state : Discovery) (conf : DiscoveryConf) :
    (state.mergeGlobal conf).rtrId = conf.rtrId := by
  rw [mergeGlobal]
  split
  · assumption
  · rfl

/-- What a reload changes besides the pseudowires, when nothing else is configured. -/
theorem Discovery.tnbrs_bareConf (unconfigured : ∀ tnbr ∈ state.tnbrs, tnbr.configured = false)
    (named : (state.mergeGlobal (bareConf [])).tnbrs = state.tnbrs) (pws : List PwCall) :
    ∃ before : Discovery, before.tnbrs = state.tnbrs ∧ before.rtrId = (bareConf []).rtrId ∧
      state.mergeConfig { bareConf [] with pws } = pws.foldl Discovery.pwCall before := by
  -- The configured pseudowires do not show before their calls.
  have global : state.mergeGlobal { bareConf [] with pws } = state.mergeGlobal (bareConf []) := rfl
  refine ⟨_, ?_, ?_, rfl⟩
  · rw [global]
    have kept : (state.mergeGlobal (bareConf [])).tnbrs.filterMap (fun tnbr =>
        if tnbr.configured then tnbrCheck { tnbr with configured := false } else some tnbr) =
          state.tnbrs := by
      rw [named]
      refine (List.filterMap_congr fun tnbr member => ?_).trans List.filterMap_some
      rw [if_neg]
      simp [unconfigured tnbr member]
    simpa [mergeTnbrs, mergeIfaces, bareConf, mergeAf] using kept
  · rw [global]
    have rtrId := state.rtrId_mergeGlobal (bareConf [])
    simpa [mergeTnbrs, mergeIfaces, bareConf, mergeAf] using rtrId

theorem flatMap_init_crowd (pwType mtu : Int) (many : Nat) :
    (crowd many).flatMap (LdpdConf.pwInitCall .ldpEngine pwType mtu) =
      List.replicate many (.tnbrInit (.v4 0x0a000002)) := by
  rw [List.eq_replicate_iff]
  simp [crowd, LdpdConf.pwInitCall, Function.comp_def]

theorem flatMap_exit_crowd (pwType : Int) (many : Nat) :
    (crowd many).flatMap (LdpdConf.pwExitCall .ldpEngine pwType) =
      List.replicate many (.tnbrExit (.v4 0x0a000002)) := by
  rw [List.eq_replicate_iff]
  simp [crowd, LdpdConf.pwExitCall, Function.comp_def]

theorem sweep_nil (l2vpn xl : ConfL2vpn) (pws : List ConfPw) :
    Reconcile.sweep (LdpdConf.pwRules .ldpEngine l2vpn xl) [] pws =
      ([], pws.flatMap (LdpdConf.pwExitCall .ldpEngine l2vpn.pwType)) := by
  induction pws with
  | nil => rfl
  | cons pw rest inductionHypothesis =>
    rw [Reconcile.sweep, inductionHypothesis]
    rfl

theorem merge_first (many : Nat) :
    Reconcile.merge (LdpdConf.l2vpnRules .ldpEngine) [] [vpnOf "a" (crowd many)] =
      ([vpnOf "a" (crowd many)], List.replicate many (.tnbrInit (.v4 0x0a000002))) := by
  simp [Reconcile.merge, Reconcile.sweep, Reconcile.take, Reconcile.find, LdpdConf.l2vpnRules, vpnOf,
    flatMap_init_crowd]

theorem merge_second (many : Nat) :
    Reconcile.merge (LdpdConf.l2vpnRules .ldpEngine) [vpnOf "a" (crowd many)]
        [vpnOf "b" (crowd many), vpnOf "a" []] =
      ([vpnOf "b" (crowd many), vpnOf "a" []],
        List.replicate many (.tnbrInit (.v4 0x0a000002)) ++ List.replicate many (.tnbrExit (.v4 0x0a000002))) := by
  have emptied : LdpdConf.mergeL2vpn .ldpEngine (vpnOf "a" (crowd many)) (vpnOf "a" []) =
      (vpnOf "a" [], List.replicate many (.tnbrExit (.v4 0x0a000002))) := by
    simp [LdpdConf.mergeL2vpn, Reconcile.merge, vpnOf, sweep_nil, flatMap_exit_crowd, Reconcile.sweep]
  simp only [vpnOf] at emptied
  simp [Reconcile.merge, Reconcile.sweep, Reconcile.take, Reconcile.find, Reconcile.put,
    LdpdConf.l2vpnRules, vpnOf, flatMap_init_crowd, emptied]

theorem pwCalls_first (many : Nat) :
    pwCalls [] [vpnOf "a" (crowd many)] = List.replicate many (.init (.v4 0x0a000002)) := by
  rw [pwCalls, merge_first]
  exact List.filterMap_replicate_of_some rfl

theorem pwCalls_second (many : Nat) :
    pwCalls [vpnOf "a" (crowd many)] [vpnOf "b" (crowd many), vpnOf "a" []] =
      List.replicate many (.init (.v4 0x0a000002)) ++ List.replicate many (.exit (.v4 0x0a000002)) := by
  rw [pwCalls, merge_second, List.filterMap_append]
  exact congrArg₂ _ (List.filterMap_replicate_of_some rfl) (List.filterMap_replicate_of_some rfl)

theorem Discovery.rtrId_foldl_pwCall (calls : List PwCall) (state : Discovery) :
    (calls.foldl Discovery.pwCall state).rtrId = state.rtrId := by
  refine List.foldlRecOn calls Discovery.pwCall (motive := fun other => other.rtrId = state.rtrId)
    rfl fun other same call _ => ?_
  cases call with
  | init addr =>
    rw [Discovery.pwCall, pwInit]
    split
    · exact same
    · exact same
  | exit addr => exact same

/-- The first reload makes the targeted neighbor count all pseudowires. -/
theorem only_crowd (many : Nat) (some' : 0 < many) :
    (targetsStep {} (.reload (bareConf []) [vpnOf "a" (crowd many)])).discovery.Only many ∧
      (targetsStep {} (.reload (bareConf []) [vpnOf "a" (crowd many)])).discovery.rtrId =
        (bareConf []).rtrId := by
  obtain ⟨rest, rfl⟩ := Nat.exists_eq_succ_of_ne_zero some'.ne'
  obtain ⟨before, tnbrs, rtrId, merged⟩ := @Discovery.tnbrs_bareConf {} (by simp) rfl
    (pwCalls [] [vpnOf "a" (crowd (rest + 1))])
  rw [targetsStep]
  simp only [merged]
  refine ⟨?_, (Discovery.rtrId_foldl_pwCall _ before).trans rtrId⟩
  rw [pwCalls_first, List.replicate_succ, List.foldl_cons, Nat.succ_eq_add_one, Nat.add_comm]
  exact (Discovery.only_init tnbrs).inits rest

/-- The second reload counts them twice, and goes past zero when it counts down. -/
theorem tnbrs_crowdMoves (many : Nat) (wraps : many + many = 65538) :
    ((crowdMoves many []).foldl targetsStep {}).discovery.tnbrs = [] := by
  obtain ⟨rest, enough⟩ : ∃ rest, many = rest + 2 := ⟨many - 2, by omega⟩
  obtain ⟨only, rtrId⟩ := only_crowd many (by omega)
  have l2vpns : (targetsStep {} (.reload (bareConf []) [vpnOf "a" (crowd many)])).l2vpns =
      [vpnOf "a" (crowd many)] := congrArg Prod.fst (merge_first many)
  rw [crowdMoves, List.foldl_cons]
  generalize targetsStep {} (.reload (bareConf []) [vpnOf "a" (crowd many)]) = state at *
  have unconfigured : ∀ tnbr ∈ state.discovery.tnbrs, tnbr.configured = false := by
    obtain ⟨active, tnbrs⟩ := only
    rw [tnbrs]
    simp
  have named : (state.discovery.mergeGlobal (bareConf [])).tnbrs = state.discovery.tnbrs := by
    rw [Discovery.mergeGlobal, if_pos rtrId]
  obtain ⟨before, tnbrs, -, merged⟩ := Discovery.tnbrs_bareConf unconfigured named
    (pwCalls state.l2vpns [vpnOf "b" (crowd many), vpnOf "a" []])
  have again : before.Only many := by
    rw [Discovery.Only, tnbrs]
    exact only
  rw [List.foldl_cons, List.foldl_nil, targetsStep]
  simp only [merged]
  rw [l2vpns, pwCalls_second, List.foldl_append]
  have full := again.inits many
  rw [wraps] at full
  generalize (List.replicate many (PwCall.init (.v4 0x0a000002))).foldl Discovery.pwCall before = crowded at *
  rw [enough, List.replicate_succ, List.replicate_succ, List.foldl_cons, List.foldl_cons]
  refine Discovery.exits_of_none ?_ rest
  exact (full.exit (by decide)).exit_last (by decide)

theorem references_crowdMoves (many : Nat) (some' : 0 < many) :
    0 < ((crowdMoves many []).foldl targetsStep {}).references (.v4 0x0a000002) := by
  have l2vpns : ((crowdMoves many []).foldl targetsStep {}).l2vpns =
      [vpnOf "b" (crowd many), vpnOf "a" []] := by
    have first : (targetsStep {} (.reload (bareConf []) [vpnOf "a" (crowd many)])).l2vpns =
        [vpnOf "a" (crowd many)] := congrArg Prod.fst (merge_first many)
    rw [crowdMoves, List.foldl_cons, List.foldl_cons, List.foldl_nil, targetsStep, first]
    exact congrArg Prod.fst (merge_second many)
  rw [Targets.references, l2vpns, List.count_pos_iff]
  simp only [List.flatMap_cons, List.map_append, List.mem_append, vpnOf, crowd, List.map_map]
  exact .inl (List.mem_map.mpr ⟨0, List.mem_range.mpr some', rfl⟩)

/-- Members of the crowd have different values where their numbers give different ones. -/
theorem nodup_crowd {Value : Type} {field : ConfPw → Value} {value : Nat → Value} {many : Nat}
    (read : (crowd many).map field = (List.range many).map value)
    (distinct : ∀ first < many, ∀ second < many, value first = value second → first = second) :
    ((crowd many).map field).Nodup := by
  rw [read]
  refine List.nodup_range.map_on fun first member second member' same => ?_
  rw [List.mem_range] at member member'
  exact distinct first member second member' same

theorem ofNat_distinct {many : Nat} (few : many < 65536) :
    ∀ first < many, ∀ second < many, UInt32.ofNat (first + 1) = .ofNat (second + 1) → first = second := by
  intro first below second below' same
  have equal := congrArg UInt32.toNat same
  simp only [UInt32.toNat_ofNat'] at equal
  omega

/-- The pseudowires of the crowd have interfaces and identifiers of their own. -/
theorem distinct_crowd {many : Nat} (few : many < 65536) :
    ((crowd many).map ConfPw.ifname).Nodup ∧ ((crowd many).map ConfPw.ifindex).Nodup ∧
      ((crowd many).map ConfPw.pwid).Nodup := by
  refine ⟨nodup_crowd List.map_map fun first _ second _ same => ?_,
    nodup_crowd List.map_map (ofNat_distinct few), nodup_crowd List.map_map (ofNat_distinct few)⟩
  exact Nat.repr_injective (String.append_right_inj "mpw" |>.mp same)

end Crowd

/-- With 32769 pseudowires that move to another L2VPN, the targeted neighbor that they count on is
gone. -/
theorem crowdMoves_not_exact :
    (((crowd 32769).map ConfPw.ifname).Nodup ∧ ((crowd 32769).map ConfPw.ifindex).Nodup ∧
        ((crowd 32769).map ConfPw.pwid).Nodup) ∧
      ¬((crowdMoves 32769 []).foldl targetsStep {}).Exact := by
  refine ⟨distinct_crowd (by decide), fun exact' => ?_⟩
  obtain ⟨tnbr, member, -⟩ := exact'.present (.v4 0x0a000002)
    (.inl (references_crowdMoves 32769 (by decide)))
  rw [tnbrs_crowdMoves 32769 rfl] at member
  cases member

end Ldpd
