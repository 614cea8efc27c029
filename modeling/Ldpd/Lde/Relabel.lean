/-
This file is the theory of relabelling. A loop over nexthops that writes one label
is a single relabelling: the tests of its rounds look at the address and the
priority of a nexthop and never at its label, so the rounds do not disturb one
another. The loops that take labels out of use, and the updates of the recorded
mappings, follow.
-/

import Ldpd.Lde.Bindings

namespace Ldpd

/-! ### Relabelling -/

/-- A test that does not look at the label of a nexthop. -/
def LabelBlind (test : FecNh → Bool) : Prop :=
  ∀ fnh label, test { fnh with remoteLabel := label } = test fnh

theorem labelBlind_sameNexthop (fnh : FecNh) : LabelBlind (sameNexthop fnh) := fun _ _ => rfl

theorem labelBlind_owns (ln : NbrView) (fec : Fec) : LabelBlind (ln.owns fec) := by
  intro fnh label
  cases fec <;> rfl

theorem relabelIf_nexthop (test : FecNh → Bool) (label : UInt32) (fnh : FecNh) :
    (relabelIf test label fnh).nexthop = fnh.nexthop := by
  unfold relabelIf
  split_ifs <;> rfl

theorem relabelIf_priority (test : FecNh → Bool) (label : UInt32) (fnh : FecNh) :
    (relabelIf test label fnh).priority = fnh.priority := by
  unfold relabelIf
  split_ifs <;> rfl

theorem relabelIf_blind {other : FecNh → Bool} (blind : LabelBlind other) (test : FecNh → Bool)
    (label : UInt32) (fnh : FecNh) : other (relabelIf test label fnh) = other fnh := by
  unfold relabelIf
  split_ifs
  · exact blind fnh label
  · rfl

/-- The last label written stays. -/
theorem relabelIf_relabelIf {second : FecNh → Bool} (blind : LabelBlind second)
    (first : FecNh → Bool) (label : UInt32) (fnh : FecNh) :
    relabelIf second label (relabelIf first label fnh) =
      relabelIf (fun fnh => first fnh || second fnh) label fnh := by
  have seen : second (relabelIf first label fnh) = second fnh := relabelIf_blind blind _ _ _
  rw [relabelIf, seen]
  unfold relabelIf
  by_cases passFirst : first fnh <;> by_cases passSecond : second fnh <;>
    simp [passFirst, passSecond]

theorem relabelIf_override {first second : FecNh → Bool} (blind : LabelBlind second)
    (covered : ∀ fnh, first fnh = true → second fnh = true) (old label : UInt32) (fnh : FecNh) :
    relabelIf second label (relabelIf first old fnh) = relabelIf second label fnh := by
  have seen : second (relabelIf first old fnh) = second fnh := relabelIf_blind blind _ _ _
  rw [relabelIf, seen]
  unfold relabelIf
  by_cases passFirst : first fnh = true
  · rw [if_pos (covered fnh passFirst), if_pos (covered fnh passFirst), if_pos passFirst]
  · rw [if_neg passFirst]

/-- The nexthops of one FEC change in the bindings as the list of them does. -/
theorem Bindings.relabel_congr (b : Bindings) {test test' : Fec → FecNh → Bool}
    {label label' : Fec → UInt32}
    (same : ∀ fec, ∀ fnh ∈ b.nexthops fec,
      relabelIf (test fec) (label fec) fnh = relabelIf (test' fec) (label' fec) fnh) :
    b.relabel test label = b.relabel test' label' :=
  Bindings.ext (funext fun fec => List.map_congr_left (same fec)) rfl rfl rfl rfl

theorem Bindings.relabel_none (b : Bindings) (test : Fec → FecNh → Bool) (label : Fec → UInt32)
    (none : ∀ fec, ∀ fnh ∈ b.nexthops fec, test fec fnh = false) : b.relabel test label = b := by
  refine Bindings.ext (funext fun fec => ?_) rfl rfl rfl rfl
  refine (List.map_congr_left fun fnh member => ?_).trans (List.map_id _)
  rw [relabelIf, none fec fnh member]
  rfl

theorem only_self (fec : Fec) (test : FecNh → Bool) (fnh : FecNh) :
    only fec test fec fnh = test fnh := by
  simp [only]

/-- A FEC without nexthops has nothing to relabel. -/
theorem Bindings.relabel_only_nil (b : Bindings) {fec : Fec} (empty : b.nexthops fec = [])
    (test : FecNh → Bool) (label : Fec → UInt32) : b.relabel (only fec test) label = b := by
  refine Bindings.relabel_none _ _ _ fun other fnh member => ?_
  rw [only, Bool.and_eq_false_iff, decide_eq_false_iff_not]
  refine Or.inl fun same => ?_
  rw [same, empty] at member
  exact absurd member (by simp)

theorem labelBlind_only {test : FecNh → Bool} (blind : LabelBlind test) (fec other : Fec) :
    LabelBlind (only fec test other) := by
  intro fnh label
  rw [only, only, blind]

theorem Bindings.relabel_relabel (b : Bindings) (first : Fec → FecNh → Bool)
    {second : Fec → FecNh → Bool} (blind : ∀ fec, LabelBlind (second fec)) (label : Fec → UInt32) :
    (b.relabel first label).relabel second label =
      b.relabel (fun fec fnh => first fec fnh || second fec fnh) label := by
  refine Bindings.ext (funext fun fec => ?_) rfl rfl rfl rfl
  show List.map _ (List.map _ (b.nexthops fec)) = List.map _ (b.nexthops fec)
  rw [List.map_map]
  exact List.map_congr_left fun fnh _ => relabelIf_relabelIf (blind fec) _ _ fnh

theorem Bindings.relabel_override (b : Bindings) {first second : Fec → FecNh → Bool}
    (blind : ∀ fec, LabelBlind (second fec))
    (covered : ∀ fec fnh, first fec fnh = true → second fec fnh = true)
    (old label : Fec → UInt32) :
    (b.relabel first old).relabel second label = b.relabel second label := by
  refine Bindings.ext (funext fun fec => ?_) rfl rfl rfl rfl
  show List.map _ (List.map _ (b.nexthops fec)) = List.map _ (b.nexthops fec)
  rw [List.map_map]
  exact List.map_congr_left fun fnh _ => relabelIf_override (blind fec) (covered fec) _ _ fnh

/-! ### Loops over nexthops -/

section Loops

variable {Item : Type} (valid : Bindings → Prop)
  (closed : ∀ b test label, valid b → valid (b.relabel test label))

include closed

/-- A loop whose rounds relabel is one relabelling. What the rounds rely on may be any
property that labels do not touch. -/
theorem bindings_foldl_relabel (test : Item → Fec → FecNh → Bool)
    (blind : ∀ item fec, LabelBlind (test item fec)) (label : Fec → UInt32)
    (body : Lde → Item → Lde) (items : List Item)
    (each : ∀ lde : Lde, valid lde.bindings → ∀ item ∈ items,
      (body lde item).bindings = lde.bindings.relabel (test item) label)
    (lde : Lde) (start : valid lde.bindings) :
    (items.foldl body lde).bindings =
      lde.bindings.relabel (fun fec fnh => items.any fun item => test item fec fnh) label := by
  induction items generalizing lde with
  | nil => exact (Bindings.relabel_none _ _ _ fun _ _ _ => rfl).symm
  | cons item rest inductionHypothesis =>
    have first := each lde start item List.mem_cons_self
    have next : valid (body lde item).bindings := by
      rw [first]
      exact closed _ _ _ start
    have blindRest : ∀ fec, LabelBlind fun fnh => rest.any fun item => test item fec fnh := by
      intro fec fnh label
      simp only [blind _ fec fnh label]
    rw [List.foldl_cons, inductionHypothesis (fun lde legal other member =>
        each lde legal other (List.mem_cons_of_mem _ member)) _ next, first,
      Bindings.relabel_relabel _ _ blindRest]
    simp only [List.any_cons]

end Loops

/-- A test that only looks at the address and the priority of a nexthop. -/
def KeyTest (test : FecNh → Bool) : Prop :=
  ∀ fnh other, sameNexthop fnh other = true → test fnh = test other

theorem keyTest_owns (ln : NbrView) (fec : Fec) : KeyTest (ln.owns fec) := by
  intro fnh other same
  have address : other.nexthop = fnh.nexthop := (of_decide_eq_true same).1
  cases fec <;> simp only [NbrView.owns, address]

theorem any_filter_sameNexthop {test : FecNh → Bool} (keyTest : KeyTest test) (items : List FecNh)
    {fnh : FecNh} (member : fnh ∈ items) :
    ((items.filter test).any fun item => sameNexthop item fnh) = test fnh := by
  rw [Bool.eq_iff_iff, List.any_eq_true]
  constructor
  · rintro ⟨item, chosen, same⟩
    rw [← keyTest item fnh same]
    exact (List.mem_filter.mp chosen).2
  · intro passes
    exact ⟨fnh, List.mem_filter.mpr ⟨member, passes⟩, by simp [sameNexthop]⟩

/-- A loop that writes one label to the nexthops of a FEC that pass a test. -/
theorem bindings_foldl_filter (valid : Bindings → Prop)
    (closed : ∀ b test label, valid b → valid (b.relabel test label)) {test : FecNh → Bool}
    (keyTest : KeyTest test) (fec : Fec) (label : UInt32) (body : Lde → FecNh → Lde)
    (each : ∀ lde : Lde, valid lde.bindings → ∀ fnh, test fnh = true → (body lde fnh).bindings =
      lde.bindings.relabel (only fec (sameNexthop fnh)) fun _ => label)
    (lde : Lde) (start : valid lde.bindings) :
    (((lde.nexthops fec).filter test).foldl body lde).bindings =
      lde.bindings.relabel (only fec test) fun _ => label := by
  rw [bindings_foldl_relabel valid closed (fun fnh => only fec (sameNexthop fnh))
    (fun fnh other => labelBlind_only (labelBlind_sameNexthop fnh) fec other) (fun _ => label) body
    _ (fun lde legal fnh member => each lde legal fnh (List.mem_filter.mp member).2) lde start]
  refine Bindings.relabel_congr _ fun other fnh member => ?_
  by_cases same : other = fec
  · subst same
    have chosen : ((lde.nexthops other).filter test).any (fun item => sameNexthop item fnh) =
        test fnh := any_filter_sameNexthop keyTest _ member
    simp only [relabelIf, only, decide_true, Bool.true_and, chosen]
  · simp [relabelIf, only, same]

theorem bindings_uninstallNexthop (lde : Lde) (fec : Fec) (fnh : FecNh) :
    (uninstallNexthop fec lde fnh).bindings =
      lde.bindings.relabel (only fec (sameNexthop fnh)) fun _ => noLabel := by
  rw [uninstallNexthop, bindings_setRemoteLabel, bindings_ldeSendDeleteKlabel]

theorem bindings_uninstallNexthops (lde : Lde) (fec : Fec) {test : FecNh → Bool}
    (keyTest : KeyTest test) :
    (uninstallNexthops lde fec test).bindings =
      lde.bindings.relabel (only fec test) fun _ => noLabel :=
  bindings_foldl_filter (fun _ => True) (fun _ _ _ _ => trivial) keyTest fec noLabel _
    (fun lde _ fnh _ => bindings_uninstallNexthop lde fec fnh) lde trivial

/-! ### Recorded mappings -/

theorem bindings_ldeMapSet_received (lde : Lde) (peerid : UInt32) (fec : Fec) (map : Map) :
    (ldeMapSet lde peerid fec map false).bindings =
      lde.bindings.updateNbr peerid (NbrView.record fec map) :=
  bindings_updateNbr lde peerid _ _ fun _ => by rfl

theorem bindings_ldeMapAdd_received (lde : Lde) (peerid : UInt32) (fec : Fec) (map : Map) :
    (ldeMapAdd lde peerid fec map false).bindings =
      lde.bindings.updateNbr peerid (NbrView.record fec map) := by
  have node := bindings_updateNode_same lde fec
    (fun fn => { fn with downstream := peerid :: fn.downstream }) (fun _ => by rfl)
    (fun _ => by rfl) fun _ => by rfl
  rw [← node]
  exact bindings_updateNbr _ peerid _ _ fun _ => by rfl

theorem bindings_recordReceived (lde : Lde) (peerid : UInt32) (known : Bool) (fec : Fec)
    (map : Map) :
    (recordReceived lde peerid known fec map).bindings =
      lde.bindings.updateNbr peerid (NbrView.record fec map) := by
  unfold recordReceived
  split_ifs
  · exact bindings_ldeMapSet_received lde peerid fec map
  · exact bindings_ldeMapAdd_received lde peerid fec map

theorem bindings_ldeMapDel_received (lde : Lde) (peerid : UInt32) (fec : Fec) :
    (ldeMapDel lde peerid fec false).bindings =
      lde.bindings.updateNbr peerid fun ln => { ln with recvMap := ln.recvMap.erase fec } := by
  have node := bindings_updateNode_same lde fec
    (fun fn => { fn with downstream := fn.downstream.erase peerid }) (fun _ => by rfl)
    (fun _ => by rfl) fun _ => by rfl
  rw [← node]
  exact bindings_updateNbr _ peerid _ _ fun _ => by rfl

/-- Two changes of a neighbor that agree on what is known of it agree. -/
theorem Bindings.updateNbr_congr (b : Bindings) (peerid : UInt32) {change change' : NbrView → NbrView}
    (same : ∀ ln, b.nbr peerid = some ln → change ln = change' ln) :
    b.updateNbr peerid change = b.updateNbr peerid change' := by
  refine Bindings.ext rfl rfl rfl rfl ?_
  show Function.update b.nbr peerid _ = Function.update b.nbr peerid _
  cases found : b.nbr peerid with
  | none => rfl
  | some ln => rw [Option.map_some, Option.map_some, same ln found]

theorem Bindings.updateNbr_id (b : Bindings) (peerid : UInt32) {change : NbrView → NbrView}
    (same : ∀ ln, b.nbr peerid = some ln → change ln = ln) : b.updateNbr peerid change = b := by
  have unchanged : b.updateNbr peerid change = b.updateNbr peerid id :=
    Bindings.updateNbr_congr b peerid same
  rw [unchanged]
  refine Bindings.ext rfl rfl rfl rfl ?_
  show Function.update b.nbr peerid (Option.map id _) = b.nbr
  rw [Option.map_id, id, Function.update_eq_self]

theorem bindings_forgetMapping (lde : Lde) (peerid label : UInt32) (fec : Fec) :
    (forgetMapping peerid label lde fec).bindings =
      lde.bindings.updateNbr peerid (NbrView.forget fec label) := by
  have view : lde.bindings.nbr peerid = (lde.ldeNbrs[peerid]?).map LdeNbr.view := rfl
  unfold forgetMapping
  cases found : lde.ldeNbrs[peerid]? with
  | none =>
    refine (Bindings.updateNbr_id lde.bindings _ fun ln present => ?_).symm
    rw [view, found] at present
    exact absurd present (by simp)
  | some ln =>
    rw [found, Option.map_some] at view
    rw [Option.bind_some]
    have looked : ln.view.recvMap[fec]? = ln.recvMap[fec]? := rfl
    cases recorded : ln.recvMap[fec]? with
    | none =>
      refine (Bindings.updateNbr_id lde.bindings _ fun other present => ?_).symm
      rw [view, Option.some_inj] at present
      rw [← present, NbrView.forget, looked, recorded]
    | some me =>
      have forget : NbrView.forget fec label ln.view =
          if label = noLabel ∨ label = me.label
          then { ln.view with recvMap := ln.recvMap.erase fec } else ln.view := by
        rw [NbrView.forget, looked, recorded]
        rfl
      dsimp only
      split_ifs with named
      · rw [bindings_ldeMapDel_received]
        refine Bindings.updateNbr_congr _ _ fun other present => ?_
        rw [view, Option.some_inj] at present
        rw [← present, forget]
        exact (if_pos named).symm
      · refine (Bindings.updateNbr_id _ _ fun other present => ?_).symm
        rw [view, Option.some_inj] at present
        rw [← present, forget]
        exact if_neg named

end Ldpd
