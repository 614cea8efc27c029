/-
This file is about the reserved labels of connected routes over runs of events and
reloads. They are the ones of the configuration unless a reload changes the setting of
an address family while no neighbor is there: `lde_change_egress_label` changes the
labels inside its loop over the neighbors, whereas `kr_change_egress_label` of the
parent process changes its routes in any case.
-/

import Ldpd.Lde.Labels

namespace Ldpd

/-! ### Pseudowires leave the routes alone -/

/-- Two states whose routes have the same labels and settings. -/
structure RoutesKept (lde lde' : Lde) : Prop where
  egressOf : lde'.egressOf = lde.egressOf
  localLabel : ∀ fec, fec.af ≠ none → lde'.localLabel fec = lde.localLabel fec
  idle : lde.Idle → lde'.Idle

theorem RoutesKept.refl (lde : Lde) : RoutesKept lde lde := ⟨rfl, fun _ _ => rfl, fun idle => idle⟩

theorem RoutesKept.trans {lde lde' lde'' : Lde} (first : RoutesKept lde lde')
    (second : RoutesKept lde' lde'') : RoutesKept lde lde'' where
  egressOf := second.egressOf.trans first.egressOf
  localLabel fec family := (second.localLabel fec family).trans (first.localLabel fec family)
  idle idle := second.idle (first.idle idle)

theorem FecsKept.routesKept {lde lde' : Lde} (kept : FecsKept lde lde') : RoutesKept lde lde' :=
  ⟨funext (egressOf_eq kept.toConfKept), fun fec _ => kept.localLabel fec, kept.idle⟩

theorem routesKept_l2vpnPwInit (lde : Lde) (data : Nat) : RoutesKept lde (l2vpnPwInit lde data) := by
  rw [l2vpnPwInit]
  split
  · exact .refl lde
  · rename_i pw _
    have reset : FecsKept lde (lde.updatePw data l2vpnPwReset) := .updatePw lde data fun _ => rfl
    refine reset.routesKept.trans ?_
    rcases ldeKernelInsert_inserts (lde.updatePw data l2vpnPwReset) (l2vpnPwFec lde pw) (.v4 pw.lsrId)
      0 false (some data) with ⟨-, kept⟩ | ⟨-, inserted⟩
    · exact kept.routesKept
    · refine ⟨funext (egressOf_eq inserted.toConfKept), fun fec family => ?_, inserted.idle⟩
      rw [inserted.localLabel, if_neg fun same : fec = l2vpnPwFec lde pw => family (same ▸ rfl)]

theorem routesKept_l2vpnPwExit (lde : Lde) (data : Nat) : RoutesKept lde (l2vpnPwExit lde data) := by
  rw [l2vpnPwExit]
  split
  · exact .refl lde
  · rename_i pw _
    rcases ldeKernelRemove_removes lde (l2vpnPwFec lde pw) (.v4 pw.lsrId) 0 with
      ⟨-, kept⟩ | ⟨-, removed⟩
    · exact kept.routesKept
    · refine ⟨funext (egressOf_eq removed.toConfKept), fun fec family => ?_, removed.idle⟩
      have passed : ¬(fec = l2vpnPwFec lde pw ∧
          (ldeKernelRemove lde (l2vpnPwFec lde pw) (.v4 pw.lsrId) 0).nexthops
            (l2vpnPwFec lde pw) = []) := fun both => family (both.1 ▸ rfl)
      rw [removed.localLabel, if_neg passed]

/-- No operation on pseudowires touches the routes. -/
theorem PwOps.routesKept {lde lde' : Lde} (ops : PwOps lde lde') : RoutesKept lde lde' := by
  obtain ⟨ops, forPws, rfl⟩ := ops
  induction ops generalizing lde with
  | nil => exact .refl lde
  | cons op rest inductionHypothesis =>
    refine .trans ?_ (inductionHypothesis fun other member =>
      forPws other (List.mem_cons_of_mem op member))
    have forPw := forPws op List.mem_cons_self
    cases op with
    | event | mergeAf => cases forPw
    | configure l2vpnList l2vpns pws =>
      exact ⟨funext fun af => by cases af <;> rfl, fun _ _ => rfl,
        fun idle => idle_configure idle l2vpnList l2vpns pws⟩
    | pwInit data => exact routesKept_l2vpnPwInit lde data
    | pwExit data => exact routesKept_l2vpnPwExit lde data

/-! ### Reserved labels -/

/-- The reserved labels of the routes are those of the configuration. -/
def Lde.EgressRight (lde : Lde) : Prop :=
  ∀ fec af, lde.Egress af fec → lde.localLabel fec = lde.egressOf af

theorem RoutesKept.egressRight {lde lde' : Lde} (kept : RoutesKept lde lde')
    (right : lde.EgressRight) : lde'.EgressRight := by
  intro fec af egress
  have label := kept.localLabel fec (by rw [egress.1]; exact Option.some_ne_none af)
  have egress' : lde.Egress af fec := ⟨egress.1, label ▸ egress.2⟩
  rw [label, kept.egressOf]
  exact right fec af egress'

/-- The `F_LDPD_AF_EXPNULL` bit of an address family in a new configuration. -/
def Xconf.expNull (xconf : Xconf) : Af → Bool
  | .inet => xconf.ipv4ExpNull
  | .inet6 => xconf.ipv6ExpNull

/-- A reload changes the setting of an address family only while there is a neighbor, or no FEC
whose label depends on it. -/
def ReloadHeard (lde : Lde) (xconf : Xconf) : Prop :=
  ∀ af, xconf.expNull af ≠ lde.expNull af → lde.ldeNbrs.keys ≠ [] ∨ ∀ fec, ¬lde.Egress af fec

/-- What every step of a run has to meet: a label that is taken from the counter is not a
reserved one, and the neighbors hear of a new setting. -/
def EgressStep (lde : Lde) : LdeInput → Prop
  | .event (.networkAdd kr) => ¬lde.HasNexthop kr.fec kr.nexthop kr.priority →
      lde.TakesLabel kr.fec kr.connected → mplsLabelReservedMax < lde.label + 1
  | .event _ => True
  | .reload xconf => ReloadHeard lde xconf

theorem egressRight_networkAdd {lde : Lde} (right : lde.EgressRight) {kr : RouteMsg}
    (free : ¬lde.HasNexthop kr.fec kr.nexthop kr.priority → lde.TakesLabel kr.fec kr.connected →
      mplsLabelReservedMax < lde.label + 1) : (ldeStep lde (.networkAdd kr)).EgressRight := by
  rcases ldeKernelInsert_inserts lde kr.fec kr.nexthop kr.priority kr.connected none with
    ⟨-, kept⟩ | ⟨fresh, inserted⟩
  · exact kept.routesKept.egressRight right
  · rintro fec af ⟨family, reserved⟩
    have conf := egressOf_eq inserted.toConfKept af
    have label := inserted.localLabel fec
    show (ldeKernelInsert _ _ _ _ _ _).localLabel fec = (ldeKernelInsert _ _ _ _ _ _).egressOf af
    have reserved' : (ldeKernelInsert lde kr.fec kr.nexthop kr.priority kr.connected none).localLabel
      fec ≤ mplsLabelReservedMax := reserved
    rw [conf]
    rw [label] at reserved' ⊢
    split at reserved'
    · rename_i same
      rw [if_pos same]
      rw [Lde.insertLabel] at reserved' ⊢
      split at reserved'
      · rename_i unlabelled
        rw [if_pos unlabelled]
        rw [Lde.newLabel] at reserved' ⊢
        split at reserved'
        · rename_i connected
          rw [if_pos connected, ← same, egressLabel_eq lde family]
          rfl
        · rename_i distant
          have distant' : kr.connected = false := Bool.not_eq_true _ ▸ distant
          exact absurd (free fresh ⟨unlabelled, distant'⟩) (UInt32.not_lt.mpr reserved')
      · rename_i labelled
        rw [if_neg labelled, ← same]
        rw [← same] at reserved'
        exact right fec af ⟨family, reserved'⟩
    · rename_i different
      rw [if_neg different]
      exact right fec af ⟨family, reserved'⟩

theorem egressRight_networkDel {lde : Lde} (right : lde.EgressRight) (kr : RouteMsg) :
    (ldeStep lde (.networkDel kr)).EgressRight := by
  rcases ldeKernelRemove_removes lde kr.fec kr.nexthop kr.priority with ⟨-, kept⟩ | ⟨-, removed⟩
  · exact kept.routesKept.egressRight right
  · rintro fec af ⟨family, reserved⟩
    have label := removed.localLabel fec
    have reserved' : (ldeKernelRemove lde kr.fec kr.nexthop kr.priority).localLabel fec ≤
      mplsLabelReservedMax := reserved
    show (ldeKernelRemove _ _ _ _).localLabel fec = (ldeKernelRemove _ _ _ _).egressOf af
    rw [egressOf_eq removed.toConfKept af, label]
    rw [label] at reserved'
    split at reserved'
    · exact absurd reserved' (by decide)
    · rename_i kept
      rw [if_neg kept]
      exact right fec af ⟨family, reserved'⟩

/-! ### Reloads -/

theorem nbr_changeEgressFec (af : Af) (peerid : UInt32) (lde : Lde) (fec : Fec) :
    (changeEgressFec af peerid lde fec).bindings.nbr = lde.bindings.nbr := by
  rw [changeEgressFec]
  split
  · rfl
  split
  · rfl
  split
  · split
    · rfl
    · rw [bindings_ldeSendLabelmapping]
      rfl
  · rfl

theorem nbr_ldeChangeEgressLabel (lde : Lde) (af : Af) (wasImplicit : Bool) :
    (ldeChangeEgressLabel lde af wasImplicit).bindings.nbr = lde.bindings.nbr := by
  have fecs (peerid : UInt32) (fecs : List Fec) (lde : Lde) :
      (fecs.foldl (changeEgressFec af peerid) lde).bindings.nbr = lde.bindings.nbr := by
    induction fecs generalizing lde with
    | nil => rfl
    | cons fec rest inductionHypothesis =>
      rw [List.foldl_cons, inductionHypothesis, nbr_changeEgressFec]
  have withdrawn (lde : Lde) (peerid : UInt32) (ln : LdeNbr) :
      (withdrawEgress wasImplicit lde peerid ln).bindings = lde.bindings := by
    rw [withdrawEgress]
    split
    · exact bindings_ldeSendLabelwithdraw lde peerid none _ none
    · dsimp only
      split <;> split <;> simp only [bindings_ldeSendLabelwithdraw]
  rw [ldeChangeEgressLabel]
  generalize lde.ldeNbrs.keys = peers
  induction peers generalizing lde with
  | nil => rfl
  | cons peerid rest inductionHypothesis =>
    rw [List.foldl_cons, inductionHypothesis, changeEgressNbr]
    split
    · rfl
    · rw [bindings_composeLdpe, fecs, withdrawn]

theorem keys_ne_nil_iff (lde : Lde) :
    lde.ldeNbrs.keys ≠ [] ↔ ∃ peerid, lde.bindings.nbr peerid ≠ none := by
  rw [← List.length_pos_iff, List.length_pos_iff_exists_mem]
  refine exists_congr fun peerid => ?_
  rw [Std.ExtTreeMap.mem_keys, Tree.mem_iff_getElem?, ← Option.ne_none_iff_exists']
  exact not_congr Option.map_eq_none_iff.symm

theorem keys_mergeAf (lde : Lde) (af : Af) (expNull : Bool) :
    (mergeAf lde af expNull).ldeNbrs.keys ≠ [] ↔ lde.ldeNbrs.keys ≠ [] := by
  rw [mergeAf]
  split
  · rfl
  · rw [keys_ne_nil_iff, keys_ne_nil_iff, nbr_ldeChangeEgressLabel]
    cases af <;> rfl

/-- The setting of one address family does not touch the routes of the other one. -/
theorem mergeAf_other (lde : Lde) (af other : Af) (expNull : Bool) (different : other ≠ af) :
    (mergeAf lde af expNull).expNull other = lde.expNull other ∧
      ∀ fec, fec.af = some other → (mergeAf lde af expNull).localLabel fec = lde.localLabel fec := by
  rw [mergeAf]
  split
  · exact ⟨rfl, fun _ _ => rfl⟩
  · have changed := egressChanged_ldeChangeEgressLabel (lde.setExpNull af expNull) af expNull
    refine ⟨?_, fun fec family => ?_⟩
    · cases af <;> cases other
      · exact absurd rfl different
      · exact changed.ipv6ExpNull
      · exact changed.ipv4ExpNull
      · exact absurd rfl different
    · rw [changed.passed fec fun both => different ?_]
      · cases af <;> rfl
      · exact Option.some_inj.mp (family.symm.trans both.2.1)

theorem egressRight_mergeAf {lde : Lde} (right : lde.EgressRight) (af : Af) (expNull : Bool)
    (heard : expNull ≠ lde.expNull af → lde.ldeNbrs.keys ≠ [] ∨ ∀ fec, ¬lde.Egress af fec) :
    (mergeAf lde af expNull).EgressRight := by
  intro fec family egress
  by_cases same : family = af
  · subst same
    revert egress
    rw [mergeAf]
    split
    · exact right fec family
    · rename_i toggled
      have changed := egressChanged_ldeChangeEgressLabel (lde.setExpNull family expNull) family expNull
      intro egress
      have before := (changed.egress fec).mp egress
      have known : (lde.setExpNull family expNull).localLabel = lde.localLabel := by
        cases family <;> rfl
      have neighbors : (lde.setExpNull family expNull).ldeNbrs = lde.ldeNbrs := by
        cases family <;> rfl
      rw [egressOf_eq changed.toConfKept]
      refine changed.changed fec ?_ before
      rw [neighbors]
      refine (heard (Ne.symm toggled)).resolve_right fun none => none fec ?_
      exact ⟨before.1, known ▸ before.2⟩
  · obtain ⟨conf, labels⟩ := mergeAf_other lde af family expNull same
    have setting : (mergeAf lde af expNull).egressOf family = lde.egressOf family := by
      cases family with
      | inet =>
        show (if Lde.expNull _ Af.inet then _ else _) = if lde.expNull .inet then _ else _
        rw [conf]
      | inet6 =>
        show (if Lde.expNull _ Af.inet6 then _ else _) = if lde.expNull .inet6 then _ else _
        rw [conf]
    have label := labels fec egress.1
    rw [setting, label]
    exact right fec family ⟨egress.1, label ▸ egress.2⟩

theorem egressRight_mergeConfig {lde : Lde} (right : lde.EgressRight) (xconf : Xconf)
    (heard : ReloadHeard lde xconf) : (mergeConfig lde xconf).EgressRight := by
  refine (PwOps.mergeL2vpns _ xconf.l2vpnList).routesKept.egressRight ?_
  refine egressRight_mergeAf (egressRight_mergeAf right .inet xconf.ipv4ExpNull (heard .inet)) .inet6
    xconf.ipv6ExpNull ?_
  obtain ⟨conf, labels⟩ := mergeAf_other lde .inet .inet6 xconf.ipv4ExpNull (by decide)
  rw [conf, keys_mergeAf]
  intro toggled
  refine (heard .inet6 toggled).imp_right fun none fec egress => none fec ⟨egress.1, ?_⟩
  exact labels fec egress.1 ▸ egress.2

/-! ### Runs -/

theorem idle_ldeInput {lde : Lde} (idle : lde.Idle) (input : LdeInput) :
    (ldeInput lde input).Idle := by
  obtain ⟨ops, run⟩ := inputs_ops [input] lde
  rw [show ldeInput lde input = ops.foldl ldeOp lde from run.symm]
  clear run
  induction ops generalizing lde with
  | nil => exact idle
  | cons op rest inductionHypothesis => exact inductionHypothesis (ldeOp_effect lde idle op).1

theorem egressRight_ldeInput {lde : Lde} (idle : lde.Idle) (right : lde.EgressRight)
    {input : LdeInput} (step : EgressStep lde input) : (ldeInput lde input).EgressRight := by
  cases input with
  | reload xconf => exact egressRight_mergeConfig right xconf step
  | event event =>
    have kept (other : event.changesFecs = false) : (ldeStep lde event).EgressRight :=
      (FecsKept.ldeStep lde idle other).routesKept.egressRight right
    cases event with
    | networkAdd kr => exact egressRight_networkAdd right step
    | networkDel kr => exact egressRight_networkDel right kr
    | pwNew data conf => exact (PwOps.l2vpnPwAdd lde data conf).routesKept.egressRight right
    | pwDel data => exact (PwOps.l2vpnPwDelete lde data).routesKept.egressRight right
    | labelMappingFull | labelMapping | labelRequest | labelRelease | labelWithdraw | labelAbort
    | addressAdd | addressDel | notification | neighborUp | neighborDown | gcTimer =>
      exact kept rfl

/-- The label of a connected route, in the engine and in the parent process: every node of a route
that has a nexthop and a reserved label has the label of `egress_label`, and that is the one
`kr_change_egress_label` gives to a route of the address family under the same setting. -/
def Lde.EgressFollows (lde : Lde) : Prop :=
  ∀ fec fn af, lde.ft[fec]? = some fn → fec.af = some af → fn.nexthops ≠ [] →
    fn.localLabel ≤ mplsLabelReservedMax →
      egressLabel lde fec = some fn.localLabel ∧
        ∀ kr : Kroute, kr.addr.af = af → kr.localLabel ≤ mplsLabelReservedMax →
          (krChangeEgressLabel af (lde.expNull af) kr).localLabel = fn.localLabel

theorem krChangeEgressLabel_eq (lde : Lde) {af : Af} {kr : Kroute} (family : kr.addr.af = af)
    (reserved : kr.localLabel ≤ mplsLabelReservedMax) :
    (krChangeEgressLabel af (lde.expNull af) kr).localLabel = lde.egressOf af := by
  rw [krChangeEgressLabel, if_neg (not_not_intro family), if_neg (UInt32.not_lt.mpr reserved)]
  cases address : kr.addr with
  | v4 =>
    rw [address] at family
    subst family
    show (if lde.ipv4ExpNull then _ else _ : Kroute).localLabel = if lde.ipv4ExpNull then _ else _
    split <;> rfl
  | v6 =>
    rw [address] at family
    subst family
    show (if lde.ipv6ExpNull then _ else _ : Kroute).localLabel = if lde.ipv6ExpNull then _ else _
    split <;> rfl

theorem Lde.EgressRight.follows {lde : Lde} (right : lde.EgressRight) : lde.EgressFollows := by
  intro fec fn af node family _ reserved
  have labelled : lde.localLabel fec = fn.localLabel := lde.localLabel_eq_of_node node
  have label := right fec af ⟨family, labelled ▸ reserved⟩
  rw [labelled] at label
  rw [egressLabel_eq lde family, label]
  exact ⟨rfl, fun kr family' reserved' => krChangeEgressLabel_eq lde family' reserved'⟩

/-- Egress labels follow the configuration: in every run of events and reloads in which the
neighbors hear of every new setting and the counter hands out no reserved label, the reserved
labels of the routes are those of the configuration. -/
theorem egress_labels_follow (conf : LdeConf) (inputs : List LdeInput)
    (allowed : Run.Allowed ldeInput EgressStep (Lde.start conf) inputs) :
    (inputs.foldl ldeInput (Lde.start conf)).EgressFollows := by
  have start : (Lde.start conf).Idle ∧ (Lde.start conf).EgressRight := by
    refine ⟨(start_counted conf).idle, fun fec af egress => ?_⟩
    have reserved := egress.2
    rw [Lde.localLabel, start_node] at reserved
    exact absurd reserved (by decide)
  have run := Run.foldl_of_allowed (fun lde => lde.Idle ∧ lde.EgressRight)
    (fun lde input both step => ⟨idle_ldeInput both.1 input, egressRight_ldeInput both.1 both.2 step⟩)
    start allowed
  exact run.2.follows

/-! ### A reload without neighbors -/

theorem connectedRoute_family : (LdpdAddr.v4 0x0a000001).af = (LdpdAddr.v4 0x0a000000).af := rfl

/-- The route to the own network 10.0.0.0/8. -/
def connectedRoute : RouteMsg where
  addr := .v4 0x0a000000
  prefixlen := 8
  nexthop := .v4 0x0a000001
  priority := 4
  connected := true
  family := connectedRoute_family

/-- A configuration with explicit null for IPv4. -/
def explicitNull : Xconf where
  ipv4ExpNull := true
  ipv6ExpNull := false
  l2vpnList := []

/-- With a neighbor the new setting reaches the label of the route. -/
theorem egress_labels_follow_neighbor :
    ([.event (.neighborUp 1 7 true false), .event (.networkAdd connectedRoute),
      .reload explicitNull].foldl ldeInput (Lde.start {})).EgressFollows := by
  refine egress_labels_follow {} _ ⟨trivial, ?_, ?_, trivial⟩
  · exact fun _ takes => nomatch takes.2
  · exact fun _ _ => Or.inl (by decide +kernel)

/-- Without one it does not, and the route keeps the label of implicit null. -/
theorem egress_label_stale :
    ¬([.event (.networkAdd connectedRoute), .reload explicitNull].foldl ldeInput
      (Lde.start {})).EgressFollows := by
  intro follows
  have node : ([LdeInput.event (.networkAdd connectedRoute), .reload explicitNull].foldl ldeInput
      (Lde.start {})).ft[connectedRoute.fec]? =
        some ⟨[⟨.v4 0x0a000001, noLabel, 4⟩], [], [], mplsLabelImplnull, none⟩ := by
    decide +kernel
  have egress := (follows _ _ .inet node rfl (by simp) (by decide)).1
  exact absurd egress (by decide +kernel)

end Ldpd
