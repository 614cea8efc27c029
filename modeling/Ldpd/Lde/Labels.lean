/-
This file is about the labels that `lde_assign_label` hands out. Its counter never looks
at what is in use and never at the end of the label space, so the labels of the FECs are
valid and distinct exactly as long as the counter stays inside it.
-/

import Ldpd.Lde.Egress

namespace Ldpd

/-! ### Which operations take a label -/

/-- What an operation asks `lde_kernel_insert` for. -/
structure Insertion where
  fec : Fec
  nexthop : LdpdAddr
  priority : UInt8
  connected : Bool

/-- The insertion of a pseudowire. -/
def pwInsertion (lde : Lde) (pw : L2vpnPw) : Insertion where
  fec := l2vpnPwFec lde pw
  nexthop := .v4 pw.lsrId
  priority := 0
  connected := false

/-- The insertion an operation makes, if it makes one. -/
def LdeOp.insertion (lde : Lde) : LdeOp → Option Insertion
  | .event (.networkAdd kr) => some ⟨kr.fec, kr.nexthop, kr.priority, kr.connected⟩
  | .event (.pwNew data conf) =>
    if data ∈ lde.pws ∨ conf.l2vpn ∉ lde.l2vpns then none else some (pwInsertion lde conf.pw)
  | .pwInit data => (lde.pws[data]?).map (pwInsertion lde)
  | _ => none

/-- An operation takes a label from the counter for a FEC: the nexthop is new, the FEC has no
label, and it is not connected. -/
def Lde.Takes (lde : Lde) (op : LdeOp) (fec : Fec) : Prop :=
  ∃ insertion, op.insertion lde = some insertion ∧ insertion.fec = fec ∧
    ¬lde.HasNexthop insertion.fec insertion.nexthop insertion.priority ∧
    lde.TakesLabel insertion.fec insertion.connected

/-- The counter moves on, and the FEC has its new value as label. -/
structure LabelTaken (fec : Fec) (lde lde' : Lde) : Prop where
  label : lde'.label = lde.label + 1
  unlabelled : lde.localLabel fec = noLabel
  taken : lde'.localLabel fec = lde.label + 1
  others : ∀ other, other ≠ fec → lde'.localLabel other = lde.localLabel other

/-- The counter stays, and a FEC that gets another label gets none or a reserved one. -/
structure LabelsQuiet (lde lde' : Lde) : Prop where
  label : lde'.label = lde.label
  labels : ∀ fec, lde'.localLabel fec = lde.localLabel fec ∨ lde'.localLabel fec = noLabel ∨
    lde'.localLabel fec ≤ mplsLabelReservedMax

theorem FecsKept.quiet {lde lde' : Lde} (kept : FecsKept lde lde') : LabelsQuiet lde lde' :=
  ⟨kept.label, fun fec => Or.inl (kept.localLabel fec)⟩

theorem Removed.quiet {lde lde' : Lde} {fec : Fec} {nexthop : LdpdAddr} {priority : UInt8}
    (removed : Removed lde fec nexthop priority lde') : LabelsQuiet lde lde' := by
  refine ⟨removed.label, fun other => ?_⟩
  rw [removed.localLabel]
  split
  · exact Or.inr (Or.inl rfl)
  · exact Or.inl rfl

theorem EgressChanged.quiet {af : Af} {done : Fec → Prop} {lde lde' : Lde}
    (changed : EgressChanged af done lde lde') : LabelsQuiet lde lde' := by
  refine ⟨changed.label, fun fec => ?_⟩
  by_cases relabelled : done fec ∧ lde.Egress af fec
  · rw [changed.changed fec relabelled.1 relabelled.2]
    exact Or.inr (Or.inr (egressOf_reserved lde af))
  · exact Or.inl (changed.passed fec relabelled)

theorem EgressChanged.idle {af : Af} {done : Fec → Prop} {lde lde' : Lde}
    (changed : EgressChanged af done lde lde') (idle : lde.Idle) : lde'.Idle := by
  have before (fec : Fec) (empty : lde'.nexthops fec = []) : lde.nexthops fec = [] := by
    have keys := changed.keys fec
    rw [empty] at keys
    exact (nexthopKeys_eq_nil _).mp keys.symm
  constructor
  case localLabel =>
    intro fec empty
    have unlabelled := idle.localLabel fec (before fec empty)
    rw [changed.passed fec, unlabelled]
    rintro ⟨-, -, reserved⟩
    rw [unlabelled] at reserved
    exact absurd reserved (by decide)
  case data => exact fun fec empty => (changed.data fec).trans (idle.data fec (before fec empty))
  case route => exact fun fec family => (changed.data fec).trans (idle.route fec family)

/-! ### What one operation does -/

/-- The effect of one operation on the labels. -/
def LabelEffect (lde : Lde) (takes : Fec → Prop) (lde' : Lde) : Prop :=
  (∃ fec, takes fec ∧ LabelTaken fec lde lde') ∨ (∀ fec, ¬takes fec) ∧ LabelsQuiet lde lde'

/-- An insertion takes the label of the counter or none from it. -/
theorem insertion_effect (lde : Lde) (idle : lde.Idle) (insertion : Insertion) (data : Option Nat)
    (family : insertion.connected = true → insertion.fec.af ≠ none) :
    (ldeKernelInsert lde insertion.fec insertion.nexthop insertion.priority insertion.connected
        data).Idle ∧
      LabelEffect lde
        (fun fec => insertion.fec = fec ∧
          ¬lde.HasNexthop insertion.fec insertion.nexthop insertion.priority ∧
          lde.TakesLabel insertion.fec insertion.connected)
        (ldeKernelInsert lde insertion.fec insertion.nexthop insertion.priority insertion.connected
          data) := by
  obtain ⟨fec, nexthop, priority, connected⟩ := insertion
  dsimp only at family ⊢
  rcases ldeKernelInsert_inserts lde fec nexthop priority connected data with
    ⟨known, kept⟩ | ⟨fresh, inserted⟩
  · exact ⟨kept.idle idle, Or.inr ⟨fun _ takes => takes.2.1 known, kept.quiet⟩⟩
  refine ⟨inserted.idle idle, ?_⟩
  by_cases takes : lde.TakesLabel fec connected
  · have taken : lde.insertLabel fec connected = lde.label + 1 := by
      rw [Lde.insertLabel, if_pos takes.1, Lde.newLabel, takes.2]
      rfl
    refine Or.inl ⟨fec, ⟨rfl, fresh, takes⟩, ?_, takes.1, ?_, fun other different => ?_⟩
    · rw [inserted.label, if_pos takes]
    · rw [inserted.localLabel, if_pos rfl, taken]
    · rw [inserted.localLabel, if_neg different]
  · refine Or.inr ⟨fun _ both => takes both.2.2, ?_, fun other => ?_⟩
    · rw [inserted.label, if_neg takes]
    rw [inserted.localLabel]
    split
    · rename_i same
      rw [Lde.insertLabel]
      split
      · rename_i unlabelled
        have egress : connected = true := by
          cases connected with
          | true => rfl
          | false => exact absurd ⟨unlabelled, rfl⟩ takes
        obtain ⟨af, route⟩ := Option.ne_none_iff_exists'.mp (family egress)
        rw [Lde.newLabel, if_pos egress, egressLabel_eq lde route]
        exact Or.inr (Or.inr (egressOf_reserved lde af))
      · rw [same]
        exact Or.inl rfl
    · exact Or.inl rfl

theorem LabelEffect.congr {lde lde' : Lde} {takes takes' : Fec → Prop}
    (effect : LabelEffect lde takes lde') (same : ∀ fec, takes fec ↔ takes' fec) :
    LabelEffect lde takes' lde' := by
  rcases effect with ⟨fec, holds, taken⟩ | ⟨none, quiet⟩
  · exact Or.inl ⟨fec, (same fec).mp holds, taken⟩
  · exact Or.inr ⟨fun fec holds => none fec ((same fec).mpr holds), quiet⟩

/-- Where an operation starts from only matters for the labels. -/
theorem LabelEffect.rebase {base lde lde' : Lde} {takes : Fec → Prop}
    (effect : LabelEffect base takes lde') (label : base.label = lde.label)
    (labels : base.localLabel = lde.localLabel) : LabelEffect lde takes lde' := by
  rcases effect with ⟨fec, holds, taken⟩ | ⟨none, quiet⟩
  · refine Or.inl ⟨fec, holds, label ▸ taken.label, labels ▸ taken.unlabelled, label ▸ taken.taken, ?_⟩
    exact labels ▸ taken.others
  · exact Or.inr ⟨none, label ▸ quiet.label, labels ▸ quiet.labels⟩

/-- What an operation takes, by the insertion it makes. -/
theorem takes_iff {lde : Lde} {op : LdeOp} {insertion : Insertion}
    (makes : op.insertion lde = some insertion) (fec : Fec) :
    (insertion.fec = fec ∧ ¬lde.HasNexthop insertion.fec insertion.nexthop insertion.priority ∧
      lde.TakesLabel insertion.fec insertion.connected) ↔ lde.Takes op fec := by
  rw [Lde.Takes]
  constructor
  · exact fun takes => ⟨insertion, makes, takes⟩
  · rintro ⟨other, makes', takes⟩
    rw [makes, Option.some_inj] at makes'
    exact makes' ▸ takes

theorem not_takes {lde : Lde} {op : LdeOp} (makes : op.insertion lde = none) (fec : Fec) :
    ¬lde.Takes op fec := by
  rintro ⟨insertion, makes', -⟩
  exact nomatch makes.symm.trans makes'

/-- The labels of a pseudowire that is started, in a state that only differs in its tables. -/
theorem l2vpnPwInit_effect (lde : Lde) (idle : lde.Idle) {data : Nat} {pw : L2vpnPw}
    (known : lde.pws[data]? = some pw) :
    (l2vpnPwInit lde data).Idle ∧
      LabelEffect lde
        (fun fec => (pwInsertion lde pw).fec = fec ∧
          ¬lde.HasNexthop (pwInsertion lde pw).fec (.v4 pw.lsrId) 0 ∧
          lde.TakesLabel (pwInsertion lde pw).fec false) (l2vpnPwInit lde data) := by
  have reset : FecsKept lde (lde.updatePw data l2vpnPwReset) := .updatePw lde data fun _ => rfl
  obtain ⟨idle', effect⟩ := insertion_effect _ (reset.idle idle) (pwInsertion lde pw) (some data) nofun
  have run : l2vpnPwInit lde data = ldeKernelInsert (lde.updatePw data l2vpnPwReset)
      (l2vpnPwFec lde pw) (.v4 pw.lsrId) 0 false (some data) := by
    rw [l2vpnPwInit, known]
  rw [run]
  exact ⟨idle', effect.rebase rfl rfl⟩

theorem idle_configure {lde : Lde} (idle : lde.Idle) (l2vpnList : List Nat)
    (l2vpns : Std.ExtTreeMap Nat L2vpn compare) (pws : Std.ExtTreeMap Nat L2vpnPw compare) :
    Lde.Idle { lde with l2vpnList, l2vpns, pws } :=
  ⟨idle.localLabel, idle.data, idle.route⟩

theorem ldeKernelRemove_quiet (lde : Lde) (idle : lde.Idle) (fec : Fec) (nexthop : LdpdAddr)
    (priority : UInt8) : (ldeKernelRemove lde fec nexthop priority).Idle ∧
      LabelsQuiet lde (ldeKernelRemove lde fec nexthop priority) := by
  rcases ldeKernelRemove_removes lde fec nexthop priority with ⟨-, kept⟩ | ⟨-, removed⟩
  · exact ⟨kept.idle idle, kept.quiet⟩
  · exact ⟨removed.idle idle, removed.quiet⟩

theorem l2vpnPwExit_quiet (lde : Lde) (idle : lde.Idle) (data : Nat) :
    (l2vpnPwExit lde data).Idle ∧ LabelsQuiet lde (l2vpnPwExit lde data) := by
  rw [l2vpnPwExit]
  split
  · exact ⟨idle, (FecsKept.refl lde).quiet⟩
  · exact ldeKernelRemove_quiet lde idle _ _ 0

theorem mergeAf_quiet (lde : Lde) (idle : lde.Idle) (af : Af) (expNull : Bool) :
    (mergeAf lde af expNull).Idle ∧ LabelsQuiet lde (mergeAf lde af expNull) := by
  rw [mergeAf]
  split
  · exact ⟨idle, (FecsKept.refl lde).quiet⟩
  · have changed := egressChanged_ldeChangeEgressLabel (lde.setExpNull af expNull) af expNull
    have same : (lde.setExpNull af expNull).Idle := by
      cases af <;> exact ⟨idle.localLabel, idle.data, idle.route⟩
    refine ⟨changed.idle same, ?_⟩
    have quiet := changed.quiet
    cases af <;> exact ⟨quiet.label, quiet.labels⟩

/-- One operation takes the label of the counter for one FEC, or leaves the counter alone. -/
theorem ldeOp_effect (lde : Lde) (idle : lde.Idle) (op : LdeOp) :
    (ldeOp lde op).Idle ∧ LabelEffect lde (lde.Takes op) (ldeOp lde op) := by
  have quiet (makes : op.insertion lde = none)
      (kept : (ldeOp lde op).Idle ∧ LabelsQuiet lde (ldeOp lde op)) :
      (ldeOp lde op).Idle ∧ LabelEffect lde (lde.Takes op) (ldeOp lde op) :=
    ⟨kept.1, Or.inr ⟨not_takes makes, kept.2⟩⟩
  cases op with
  | mergeAf af expNull => exact quiet rfl (mergeAf_quiet lde idle af expNull)
  | configure l2vpnList l2vpns pws =>
    exact quiet rfl ⟨idle_configure idle l2vpnList l2vpns pws, rfl, fun _ => Or.inl rfl⟩
  | pwExit data => exact quiet rfl (l2vpnPwExit_quiet lde idle data)
  | pwInit data =>
    cases known : lde.pws[data]? with
    | none =>
      have same : ldeOp lde (.pwInit data) = lde := by
        rw [ldeOp, l2vpnPwInit, known]
      rw [same] at quiet ⊢
      exact quiet (by rw [LdeOp.insertion, known, Option.map_none]) ⟨idle, (FecsKept.refl lde).quiet⟩
    | some pw =>
      obtain ⟨idle', effect⟩ := l2vpnPwInit_effect lde idle known
      refine ⟨idle', effect.congr fun fec => ?_⟩
      exact takes_iff (by rw [LdeOp.insertion, known, Option.map_some]) fec
  | event event =>
    have kept (other : event.changesFecs = false) :
        (ldeStep lde event).Idle ∧ LabelsQuiet lde (ldeStep lde event) :=
      ⟨(FecsKept.ldeStep lde idle other).idle idle, (FecsKept.ldeStep lde idle other).quiet⟩
    cases event with
    | networkAdd kr =>
      obtain ⟨idle', effect⟩ := insertion_effect lde idle
        ⟨kr.fec, kr.nexthop, kr.priority, kr.connected⟩ none fun _ => by
          rw [RouteMsg.fec_af]
          exact Option.some_ne_none _
      exact ⟨idle', effect.congr fun fec => takes_iff rfl fec⟩
    | networkDel kr => exact quiet rfl (ldeKernelRemove_quiet lde idle _ _ _)
    | pwDel data =>
      refine quiet rfl ?_
      show (l2vpnPwDelete lde data).Idle ∧ LabelsQuiet lde (l2vpnPwDelete lde data)
      rw [l2vpnPwDelete]
      split
      · exact ⟨idle, (FecsKept.refl lde).quiet⟩
      · obtain ⟨idle', stopped⟩ := l2vpnPwExit_quiet lde idle data
        exact ⟨⟨idle'.localLabel, idle'.data, idle'.route⟩, stopped.label, stopped.labels⟩
    | pwNew data conf =>
      by_cases refused : data ∈ lde.pws ∨ conf.l2vpn ∉ lde.l2vpns
      · have same : ldeOp lde (.event (.pwNew data conf)) = lde := if_pos refused
        rw [same] at quiet ⊢
        exact quiet (if_pos refused) ⟨idle, (FecsKept.refl lde).quiet⟩
      · have makes : (LdeOp.event (.pwNew data conf)).insertion lde = some (pwInsertion lde conf.pw) :=
          if_neg refused
        have added : ldeOp lde (.event (.pwNew data conf)) = l2vpnPwInit (({ lde with
            pws := lde.pws.insert data conf.pw } : Lde).updatePwList conf.l2vpn (data :: ·)) data :=
          if_neg refused
        generalize entered : ({ lde with pws := lde.pws.insert data conf.pw } : Lde).updatePwList
          conf.l2vpn (data :: ·) = listed at added
        have known : listed.pws[data]? = some conf.pw := by
          rw [← entered]
          exact (Tree.getElem?_insert lde.pws data data conf.pw).trans (if_pos rfl)
        have fec : pwInsertion listed conf.pw = pwInsertion lde conf.pw := by
          rw [pwInsertion, ← entered, l2vpnPwFec_updatePwList]
          rfl
        have same : listed.Idle := by
          rw [← entered]
          exact ⟨idle.localLabel, idle.data, idle.route⟩
        obtain ⟨idle', effect⟩ := l2vpnPwInit_effect listed same known
        rw [added]
        refine ⟨idle', LabelEffect.congr ?_ fun fec => takes_iff makes fec⟩
        rw [fec] at effect
        subst entered
        exact effect.rebase rfl rfl
    | labelMappingFull | labelMapping | labelRequest | labelRelease | labelWithdraw | labelAbort
    | addressAdd | addressDel | notification | neighborUp | neighborDown | gcTimer =>
      exact quiet rfl (kept rfl)

/-! ### Valid labels -/

/-- A label that a FEC holds and that is not reserved. -/
def Lde.Holds (lde : Lde) (fec : Fec) : Prop :=
  lde.localLabel fec ≠ noLabel ∧ mplsLabelReservedMax < lde.localLabel fec

/-- No two FECs hold the same label that is not reserved. -/
def Lde.DistinctLabels (lde : Lde) : Prop :=
  ∀ fec other, lde.Holds fec → lde.localLabel other = lde.localLabel fec → other = fec

/-- A step after which the label that it took, if it took one, is inside the label space, and the
labels of the FECs are distinct. -/
def ValidLabels (lde : Lde) (op : LdeOp) : Prop :=
  (∀ fec, lde.Takes op fec → mplsLabelReservedMax < (ldeOp lde op).localLabel fec ∧
    (ldeOp lde op).localLabel fec ≤ mplsLabelMax) ∧ (ldeOp lde op).DistinctLabels

/-- A step that takes a label only if the counter has not come to the end of the label space. -/
def LabelLeft (lde : Lde) (op : LdeOp) : Prop :=
  ∀ fec, lde.Takes op fec → lde.label < mplsLabelMax

/-- The counter is inside the label space, and no FEC holds a label above it. -/
structure Lde.Counted (lde : Lde) : Prop where
  idle : lde.Idle
  low : mplsLabelReservedMax ≤ lde.label
  high : lde.label ≤ mplsLabelMax
  used : ∀ fec, lde.localLabel fec ≠ noLabel → lde.localLabel fec ≤ lde.label
  distinct : lde.DistinctLabels

theorem LabelsQuiet.counted {lde lde' : Lde} (quiet : LabelsQuiet lde lde') (idle : lde'.Idle)
    (counted : lde.Counted) : lde'.Counted where
  idle := idle
  low := quiet.label ▸ counted.low
  high := quiet.label ▸ counted.high
  used fec labelled := by
    rw [quiet.label]
    rcases quiet.labels fec with same | none | reserved
    · rw [same] at labelled ⊢
      exact counted.used fec labelled
    · exact absurd none labelled
    · exact UInt32.le_trans reserved counted.low
  distinct fec other holds equal := by
    have kept : ∀ fec, lde'.Holds fec → lde'.localLabel fec = lde.localLabel fec := by
      intro fec holds
      rcases quiet.labels fec with same | none | reserved
      · exact same
      · exact absurd none holds.1
      · exact absurd holds.2 (UInt32.not_lt.mpr reserved)
    have holds' : lde'.Holds other := by
      rw [Lde.Holds, equal]
      exact holds
    refine counted.distinct fec other ?_ ?_
    · rw [Lde.Holds, ← kept fec holds]
      exact holds
    · rw [← kept fec holds, ← kept other holds', equal]

theorem counter_succ {label : UInt32} (left : label < mplsLabelMax) :
    (label + 1).toNat = label.toNat + 1 := by
  have bound : label.toNat < 1048575 := UInt32.lt_iff_toNat_lt.mp left
  rw [UInt32.toNat_add]
  exact Nat.mod_eq_of_lt (by simp only [UInt32.toNat_one]; omega)

theorem LabelTaken.counted {lde lde' : Lde} {fec : Fec} (taken : LabelTaken fec lde lde')
    (idle : lde'.Idle) (counted : lde.Counted) (left : lde.label < mplsLabelMax) : lde'.Counted := by
  have next := counter_succ left
  have bound : lde.label.toNat < 1048575 := UInt32.lt_iff_toNat_lt.mp left
  have low : 15 ≤ lde.label.toNat := UInt32.le_iff_toNat_le.mp counted.low
  have grown : lde.label ≤ lde'.label := by
    rw [UInt32.le_iff_toNat_le, taken.label, next]
    exact Nat.le_succ _
  have above (other : Fec) (different : other ≠ fec) (equal : lde'.localLabel other = lde.label + 1) :
      False := by
    rw [taken.others other different] at equal
    by_cases labelled : lde.localLabel other = noLabel
    · rw [labelled] at equal
      have value := congrArg UInt32.toNat equal
      rw [next] at value
      have none : noLabel.toNat = 4294967295 := rfl
      omega
    · have value := UInt32.le_iff_toNat_le.mp (counted.used other labelled)
      rw [equal, next] at value
      exact absurd value (Nat.not_succ_le_self _)
  refine ⟨idle, UInt32.le_trans counted.low grown, ?_, fun other labelled => ?_, ?_⟩
  · rw [UInt32.le_iff_toNat_le, taken.label, next]
    exact bound
  · by_cases same : other = fec
    · rw [same, taken.taken, taken.label]
      exact UInt32.le_refl _
    · rw [taken.others other same] at labelled ⊢
      exact UInt32.le_trans (counted.used other labelled) grown
  · intro first second holds equal
    by_cases one : first = fec
    · subst one
      rw [taken.taken] at equal
      by_contra different
      exact above second different equal
    · by_cases two : second = fec
      · subst two
        rw [taken.taken] at equal
        exact (above first one equal.symm).elim
      · rw [Lde.Holds, taken.others first one] at holds
        rw [taken.others first one, taken.others second two] at equal
        exact counted.distinct first second holds equal

/-- As long as there is a label left when one is taken, the labels stay valid. -/
theorem counted_ldeOp {lde : Lde} (counted : lde.Counted) {op : LdeOp} (left : LabelLeft lde op) :
    (ldeOp lde op).Counted := by
  obtain ⟨idle, ⟨fec, takes, taken⟩ | ⟨-, quiet⟩⟩ := ldeOp_effect lde counted.idle op
  · exact taken.counted idle counted (left fec takes)
  · exact quiet.counted idle counted

/-- A step leaves the labels valid exactly if there is a label left when it takes one. -/
theorem validLabels_iff {lde : Lde} (counted : lde.Counted) (op : LdeOp) :
    ValidLabels lde op ↔ LabelLeft lde op := by
  constructor
  · intro valid fec takes
    obtain ⟨-, ⟨other, takes', taken⟩ | ⟨none, -⟩⟩ := ldeOp_effect lde counted.idle op
    · by_contra full
      have last : lde.label = mplsLabelMax :=
        UInt32.le_antisymm counted.high (UInt32.not_lt.mp full)
      have inside := (valid.1 other takes').2
      rw [taken.taken, last] at inside
      exact absurd inside (by decide)
    · exact absurd takes (none fec)
  · intro left
    refine ⟨fun fec takes => ?_, (counted_ldeOp counted left).distinct⟩
    obtain ⟨-, ⟨other, takes', taken⟩ | ⟨none, -⟩⟩ := ldeOp_effect lde counted.idle op
    · have same : fec = other := by
        obtain ⟨insertion, makes, rfl, -⟩ := takes
        obtain ⟨insertion', makes', rfl, -⟩ := takes'
        rw [makes, Option.some_inj] at makes'
        rw [makes']
      have next := counter_succ (left fec takes)
      have bound : lde.label.toNat < 1048575 := UInt32.lt_iff_toNat_lt.mp (left fec takes)
      have low : 15 ≤ lde.label.toNat := UInt32.le_iff_toNat_le.mp counted.low
      have reserved : mplsLabelReservedMax.toNat = 15 := rfl
      have last : mplsLabelMax.toNat = 1048575 := rfl
      rw [same, taken.taken, UInt32.lt_iff_toNat_lt, UInt32.le_iff_toNat_le, next]
      omega
    · exact absurd takes (none fec)

theorem start_counted (conf : LdeConf) : (Lde.start conf).Counted := by
  have unlabelled (fec : Fec) : (Lde.start conf).localLabel fec = noLabel := by
    rw [Lde.localLabel, start_node]
  have unused (fec : Fec) : (Lde.start conf).data fec = none := by
    rw [Lde.data, start_node, Option.bind_none]
  refine ⟨⟨fun fec _ => unlabelled fec, fun fec _ => unused fec, fun fec _ => unused fec⟩, ?_, ?_,
    fun fec labelled => absurd (unlabelled fec) labelled, fun fec _ holds => ?_⟩
  · exact UInt32.le_refl mplsLabelReservedMax
  · show mplsLabelReservedMax ≤ mplsLabelMax
    decide
  · exact absurd (unlabelled fec) holds.1

/-- Local label allocation: in a run of any length, every label that is taken from the counter lies
inside the label space and the labels of the FECs stay distinct, exactly if no label is taken once
the counter has come to the end of the label space. -/
theorem labels_valid_iff (conf : LdeConf) (ops : List LdeOp) :
    Run.Allowed ldeOp ValidLabels (Lde.start conf) ops ↔
      Run.Allowed ldeOp LabelLeft (Lde.start conf) ops :=
  Run.allowed_congr Lde.Counted (fun _ op counted => validLabels_iff counted op)
    (fun _ op counted valid => counted_ldeOp counted ((validLabels_iff counted op).mp valid))
    (start_counted conf)

/-! ### A route that comes and goes -/

theorem flappingRoute_family : (LdpdAddr.v4 0x0a000001).af = (LdpdAddr.v4 0x0b000000).af := rfl

/-- A route to 11.0.0.0/8 over 10.0.0.1. -/
def flappingRoute : RouteMsg where
  addr := .v4 0x0b000000
  prefixlen := 8
  nexthop := .v4 0x0a000001
  priority := 32
  connected := false
  family := flappingRoute_family

/-- The route comes and goes a number of times. -/
def flaps : Nat → List LdeOp
  | 0 => []
  | times + 1 => .event (.networkAdd flappingRoute) :: .event (.networkDel flappingRoute) :: flaps times

/-- The route is gone, and the counter has a value. -/
structure Flapped (label : Nat) (lde : Lde) : Prop where
  counted : lde.Counted
  gone : lde.nexthops flappingRoute.fec = []
  label : lde.label.toNat = label

theorem Flapped.takes {label : Nat} {lde : Lde} (flapped : Flapped label lde) :
    lde.Takes (.event (.networkAdd flappingRoute)) flappingRoute.fec := by
  refine ⟨_, rfl, rfl, ?_, flapped.counted.idle.localLabel _ flapped.gone, rfl⟩
  show ¬lde.HasNexthop flappingRoute.fec _ _
  rw [Lde.HasNexthop, flapped.gone]
  exact List.not_mem_nil

/-- The route comes, and takes the next label. -/
theorem flap_up {lde : Lde} (idle : lde.Idle) (gone : lde.nexthops flappingRoute.fec = []) :
    nexthopKeys ((ldeOp lde (.event (.networkAdd flappingRoute))).nexthops flappingRoute.fec) =
        [(flappingRoute.nexthop, flappingRoute.priority)] ∧
      (ldeOp lde (.event (.networkAdd flappingRoute))).localLabel flappingRoute.fec = lde.label + 1 ∧
      (ldeOp lde (.event (.networkAdd flappingRoute))).label = lde.label + 1 := by
  have takes : lde.TakesLabel flappingRoute.fec flappingRoute.connected :=
    ⟨idle.localLabel _ gone, rfl⟩
  rcases ldeKernelInsert_inserts lde flappingRoute.fec flappingRoute.nexthop flappingRoute.priority
    flappingRoute.connected none with ⟨known, -⟩ | ⟨-, inserted⟩
  · rw [Lde.HasNexthop, gone] at known
    exact absurd known List.not_mem_nil
  have listed := inserted.keys flappingRoute.fec
  have labelled := inserted.localLabel flappingRoute.fec
  rw [if_pos rfl, gone] at listed
  rw [if_pos rfl, Lde.insertLabel, if_pos takes.1] at labelled
  exact ⟨listed, labelled, inserted.label.trans (if_pos takes)⟩

/-- Every time the route comes and goes, it has taken a label. -/
theorem flap_once {lde : Lde} (idle : lde.Idle) (gone : lde.nexthops flappingRoute.fec = []) :
    (ldeOp (ldeOp lde (.event (.networkAdd flappingRoute))) (.event (.networkDel flappingRoute))).nexthops
        flappingRoute.fec = [] ∧
      (ldeOp (ldeOp lde (.event (.networkAdd flappingRoute)))
        (.event (.networkDel flappingRoute))).label = lde.label + 1 := by
  obtain ⟨listed, -, label⟩ := flap_up idle gone
  rcases ldeKernelRemove_removes (ldeOp lde (.event (.networkAdd flappingRoute))) flappingRoute.fec
    flappingRoute.nexthop flappingRoute.priority with ⟨unknown, -⟩ | ⟨-, removed⟩
  · refine absurd ?_ unknown
    rw [Lde.HasNexthop, listed]
    exact List.mem_singleton_self _
  · have keys := removed.keys flappingRoute.fec
    rw [if_pos rfl, listed] at keys
    exact ⟨(nexthopKeys_eq_nil _).mp (keys.trans (by rfl)), removed.label.trans label⟩

theorem Flapped.flap {label : Nat} {lde : Lde} (flapped : Flapped label lde)
    (left : label < 1048575) :
    Flapped (label + 1) (ldeOp (ldeOp lde (.event (.networkAdd flappingRoute)))
      (.event (.networkDel flappingRoute))) := by
  have room : lde.label < mplsLabelMax := by
    rw [UInt32.lt_iff_toNat_lt, flapped.label]
    exact left
  have came := counted_ldeOp flapped.counted
    (fun _ _ => room : LabelLeft lde (.event (.networkAdd flappingRoute)))
  have went := counted_ldeOp came
    (fun fec takes => (not_takes rfl fec takes).elim :
      LabelLeft _ (.event (.networkDel flappingRoute)))
  obtain ⟨gone, counter⟩ := flap_once flapped.counted.idle flapped.gone
  refine ⟨went, gone, ?_⟩
  rw [counter, counter_succ room, flapped.label]

theorem flapped_flaps (times : Nat) {label : Nat} {lde : Lde} (flapped : Flapped label lde)
    (left : label + times ≤ 1048575) : Flapped (label + times) ((flaps times).foldl ldeOp lde) := by
  induction times generalizing label lde with
  | zero => exact flapped
  | succ times inductionHypothesis =>
    have next := inductionHypothesis (flapped.flap (by omega)) (by omega)
    rw [show label + (times + 1) = label + 1 + times by omega]
    exact next

/-- After 1048560 times the label space is used up, and the next label lies outside of it. -/
theorem flaps_not_valid :
    ¬Run.Allowed ldeOp ValidLabels (Lde.start {})
      (flaps 1048560 ++ [.event (.networkAdd flappingRoute)]) := by
  intro allowed
  have start : Flapped 15 (Lde.start {}) := ⟨start_counted {}, start_nexthops {} flappingRoute.fec, rfl⟩
  have flapped := flapped_flaps 1048560 start (by omega)
  have last := ((Run.allowed_append.mp allowed).2).1
  have left := (validLabels_iff flapped.counted _).mp last _ flapped.takes
  rw [UInt32.lt_iff_toNat_lt, flapped.label] at left
  exact absurd left (by decide)

end Ldpd
