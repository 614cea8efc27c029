/-
This file is the representation invariant of the label database: mappings in the trees of
the neighbors and entries in the lists of the FEC nodes, local labels and nexthops,
pseudowires and their FECs belong together in every run, until the label counter comes
around to the value that stands for no label.
-/

import Ldpd.Lde.Records

namespace Ldpd

/-! ### Labels of FECs with nexthops -/

/-- Every FEC with a nexthop has a local label. -/
def Lde.Labelled (lde : Lde) : Prop :=
  ∀ fec, lde.nexthops fec ≠ [] → lde.localLabel fec ≠ noLabel

/-- The counter does not hand out the value that stands for no label. -/
def CounterValid (lde : Lde) (op : LdeOp) : Prop :=
  ∀ fec, lde.Takes op fec → lde.label + 1 ≠ noLabel

section Labels

variable {lde lde' : Lde}

theorem FecsKept.labelled (kept : FecsKept lde lde') (labelled : lde.Labelled) : lde'.Labelled := by
  intro fec filled
  rw [kept.localLabel]
  exact labelled fec fun empty => filled ((kept.nexthops_eq_nil fec).mpr empty)

theorem Removed.labelled {fec : Fec} {nexthop : LdpdAddr} {priority : UInt8}
    (removed : Removed lde fec nexthop priority lde') (labelled : lde.Labelled) : lde'.Labelled := by
  intro other filled
  have left : ¬(other = fec ∧ lde'.nexthops fec = []) := fun both => filled (both.1 ▸ both.2)
  rw [removed.localLabel, if_neg left]
  refine labelled other fun empty => filled ((nexthopKeys_eq_nil _).mp ?_)
  rw [removed.keys]
  split_ifs with same
  · rw [← same, empty]
    rfl
  · rw [empty]
    rfl

theorem egressOf_ne_noLabel (lde : Lde) (af : Af) : lde.egressOf af ≠ noLabel := by
  intro same
  have reserved := egressOf_reserved lde af
  rw [same] at reserved
  exact absurd reserved (by decide)

theorem EgressChanged.labelled {af : Af} {done : Fec → Prop} (changed : EgressChanged af done lde lde')
    (labelled : lde.Labelled) : lde'.Labelled := by
  intro fec filled
  by_cases relabelled : done fec ∧ lde.Egress af fec
  · rw [changed.changed fec relabelled.1 relabelled.2]
    exact egressOf_ne_noLabel lde af
  · rw [changed.passed fec relabelled]
    refine labelled fec fun empty => filled ((nexthopKeys_eq_nil _).mp ?_)
    rw [changed.keys, empty]
    rfl

/-- A nexthop that is added finds a label or is given a valid one. -/
theorem Lde.Labelled.ldeKernelInsert (labelled : lde.Labelled) (fec : Fec) (nexthop : LdpdAddr)
    (priority : UInt8) (connected : Bool) (data : Option Nat)
    (family : connected = true → fec.af ≠ none)
    (valid : ¬lde.HasNexthop fec nexthop priority → lde.TakesLabel fec connected →
      lde.label + 1 ≠ noLabel) :
    (ldeKernelInsert lde fec nexthop priority connected data).Labelled := by
  rcases ldeKernelInsert_inserts lde fec nexthop priority connected data with
    ⟨-, kept⟩ | ⟨fresh, inserted⟩
  · exact kept.labelled labelled
  intro other filled
  rw [inserted.localLabel]
  split_ifs with same
  · rw [Lde.insertLabel]
    split_ifs with unlabelled
    · cases connected with
      | true =>
        obtain ⟨af, route⟩ := Option.ne_none_iff_exists'.mp (family rfl)
        rw [Lde.newLabel, if_pos rfl, egressLabel_eq lde route]
        exact egressOf_ne_noLabel lde af
      | false => exact valid fresh ⟨unlabelled, rfl⟩
    · exact unlabelled
  · refine labelled other fun empty => filled ((nexthopKeys_eq_nil _).mp ?_)
    rw [inserted.keys, if_neg same, empty]
    rfl

theorem Lde.Labelled.ldeKernelRemove (labelled : lde.Labelled) (fec : Fec) (nexthop : LdpdAddr)
    (priority : UInt8) : (ldeKernelRemove lde fec nexthop priority).Labelled := by
  rcases ldeKernelRemove_removes lde fec nexthop priority with ⟨-, kept⟩ | ⟨-, removed⟩
  · exact kept.labelled labelled
  · exact removed.labelled labelled

theorem Lde.Labelled.l2vpnPwExit (labelled : lde.Labelled) (data : Nat) :
    (l2vpnPwExit lde data).Labelled := by
  rw [Ldpd.l2vpnPwExit]
  split
  · exact labelled
  · exact labelled.ldeKernelRemove _ _ 0

theorem Lde.Labelled.l2vpnPwInit (labelled : lde.Labelled) {data : Nat} {pw : L2vpnPw}
    (known : lde.pws[data]? = some pw)
    (valid : ¬lde.HasNexthop (l2vpnPwFec lde pw) (.v4 pw.lsrId) 0 →
      lde.TakesLabel (l2vpnPwFec lde pw) false → lde.label + 1 ≠ noLabel) :
    (l2vpnPwInit lde data).Labelled := by
  have reset : (lde.updatePw data l2vpnPwReset).Labelled := labelled
  rw [Ldpd.l2vpnPwInit, known]
  exact reset.ldeKernelInsert _ _ 0 false _ (fun connected => (Bool.false_ne_true connected).elim) valid

theorem Lde.Labelled.mergeAf (labelled : lde.Labelled) (af : Af) (expNull : Bool) :
    (mergeAf lde af expNull).Labelled := by
  rw [Ldpd.mergeAf]
  split
  · exact labelled
  · have set : (lde.setExpNull af expNull).Labelled := by
      cases af <;> exact labelled
    exact (egressChanged_ldeChangeEgressLabel _ af expNull).labelled set

/-- Every operation that takes a valid label or none keeps FECs with nexthops labelled. -/
theorem Lde.Labelled.ldeOp (labelled : lde.Labelled) (idle : lde.Idle) {op : LdeOp}
    (valid : CounterValid lde op) : (ldeOp lde op).Labelled := by
  have inserts {insertion : Insertion} (makes : op.insertion lde = some insertion)
      (fresh : ¬lde.HasNexthop insertion.fec insertion.nexthop insertion.priority)
      (takes : lde.TakesLabel insertion.fec insertion.connected) : lde.label + 1 ≠ noLabel :=
    valid insertion.fec ((takes_iff makes _).mp ⟨rfl, fresh, takes⟩)
  cases op with
  | mergeAf af expNull => exact labelled.mergeAf af expNull
  | configure => exact labelled
  | pwExit data => exact labelled.l2vpnPwExit data
  | pwInit data =>
    cases known : lde.pws[data]? with
    | none =>
      rw [Ldpd.ldeOp, Ldpd.l2vpnPwInit, known]
      exact labelled
    | some pw =>
      have makes : (LdeOp.pwInit data).insertion lde = some (pwInsertion lde pw) := by
        rw [LdeOp.insertion, known, Option.map_some]
      exact labelled.l2vpnPwInit known (inserts makes)
  | event event =>
    have message (other : event.changesFecs = false) : (Ldpd.ldeOp lde (.event event)).Labelled :=
      (FecsKept.ldeStep lde idle other).labelled labelled
    cases event with
    | networkAdd kr =>
      refine labelled.ldeKernelInsert _ _ _ _ none (fun _ => ?_) (inserts rfl)
      rw [RouteMsg.fec_af]
      exact Option.some_ne_none _
    | networkDel kr => exact labelled.ldeKernelRemove _ _ _
    | pwDel data =>
      show (l2vpnPwDelete lde data).Labelled
      rw [l2vpnPwDelete]
      split
      · exact labelled
      · exact labelled.l2vpnPwExit data
    | pwNew data conf =>
      show (l2vpnPwAdd lde data conf).Labelled
      rw [l2vpnPwAdd]
      split_ifs with refused
      · exact labelled
      · have makes : (LdeOp.event (.pwNew data conf)).insertion lde = some (pwInsertion lde conf.pw) :=
          if_neg refused
        have entered : (({ lde with pws := lde.pws.insert data conf.pw } : Lde).updatePwList conf.l2vpn
          (data :: ·)).Labelled := labelled
        refine entered.l2vpnPwInit ((Tree.getElem?_insert lde.pws data data conf.pw).trans
          (if_pos rfl)) ?_
        rw [l2vpnPwFec_updatePwList]
        exact inserts makes
    | labelMappingFull | labelMapping | labelRequest | labelRelease | labelWithdraw | labelAbort
    | addressAdd | addressDel | notification | neighborUp | neighborDown | gcTimer =>
      exact message rfl

end Labels

/-! ### The representation invariant -/

/-- The label database fits together. The last two fields say what follows from that: the garbage
collector keeps every node that a mapping refers to, and no `NULL` pointer has been followed. -/
structure Lde.Represents (lde : Lde) : Prop where
  records : ∀ sent (peerid : UInt32) ln, lde.ldeNbrs[peerid]? = some ln → ∀ fec,
    fec ∈ ln.records sent ↔ peerid ∈ lde.entries sent fec
  once : ∀ sent fec, (lde.entries sent fec).Nodup
  known : ∀ sent fec, ∀ peerid ∈ lde.entries sent fec, peerid ∈ lde.ldeNbrs
  nodes : ∀ sent (peerid : UInt32) ln, lde.ldeNbrs[peerid]? = some ln → ∀ fec ∈ ln.records sent,
    fec ∈ lde.ft
  label : ∀ (fec : Fec) fn, lde.ft[fec]? = some fn → (fn.localLabel ≠ noLabel ↔ fn.nexthops ≠ [])
  data : ∀ (fec : Fec) fn, lde.ft[fec]? = some fn → fec.af = none →
    (fn.data ≠ none ↔ fn.nexthops ≠ [])
  collected : ∀ sent (peerid : UInt32) ln, lde.ldeNbrs[peerid]? = some ln → ∀ fec ∈ ln.records sent,
    (ldeGcTimer lde).ft[fec]? = lde.ft[fec]?
  safe : ∀ fault ∈ lde.faults, fault.null = false

section Representation

variable {lde : Lde}

theorem Lde.Linked.nodup (linked : lde.Linked) (sent : Bool) (fec : Fec) :
    (lde.entries sent fec).Nodup := by
  rw [List.nodup_iff_count_le_one]
  intro peerid
  by_cases member : peerid ∈ lde.entries sent fec
  · exact (linked.one sent peerid fec (linked.listed sent peerid fec member)).le
  · rw [List.count_eq_zero_of_not_mem member]
    exact Nat.zero_le 1

theorem Lde.Linked.mem_entries (linked : lde.Linked) {sent : Bool} {peerid : UInt32} {ln : LdeNbr}
    (nbr : lde.ldeNbrs[peerid]? = some ln) (fec : Fec) :
    fec ∈ ln.records sent ↔ peerid ∈ lde.entries sent fec := by
  refine ⟨fun member => ?_, fun member => ?_⟩
  · have one := linked.one sent peerid fec ⟨ln, nbr, member⟩
    exact List.count_pos_iff.mp (one ▸ Nat.one_pos)
  · obtain ⟨ln', nbr', recorded⟩ := linked.listed sent peerid fec member
    cases nbr.symm.trans nbr'
    exact recorded

/-- The garbage collector keeps a node that is not dead. -/
theorem getElem?_ldeGcTimer {fec : Fec} {fn : FecNode} (node : lde.ft[fec]? = some fn)
    (live : fn.dead = false) : (ldeGcTimer lde).ft[fec]? = some fn := by
  refine List.foldlRecOn (motive := fun (after : Lde) => after.ft[fec]? = some fn) lde.ft.keys gcFec
    node fun before kept other _ => ?_
  rw [gcFec]
  split
  · exact kept
  rename_i fn' found
  split_ifs with dead
  · have different : other ≠ fec := by
      rintro rfl
      cases found.symm.trans kept
      exact Bool.false_ne_true (live.symm.trans dead)
    exact (Tree.getElem?_erase before.ft other fec).trans ((if_neg different).trans kept)
  · exact kept

theorem dead_eq_false {fec : Fec} {fn : FecNode} (node : lde.ft[fec]? = some fn) {sent : Bool}
    {peerid : UInt32} (member : peerid ∈ lde.entries sent fec) : fn.dead = false := by
  rw [Lde.entries, node] at member
  have filled : fn.entries sent ≠ [] := List.ne_nil_of_mem member
  rw [FecNode.dead, Bool.and_eq_false_iff, Bool.and_eq_false_iff]
  cases sent with
  | false => exact Or.inl (Or.inr (Bool.eq_false_iff.mpr fun empty => filled (List.isEmpty_iff.mp empty)))
  | true => exact Or.inr (Bool.eq_false_iff.mpr fun empty => filled (List.isEmpty_iff.mp empty))

theorem Lde.Consistent.represents (consistent : lde.Consistent) (labelled : lde.Labelled) :
    lde.Represents where
  records _ _ _ nbr fec := consistent.linked.mem_entries nbr fec
  once := consistent.linked.nodup
  known sent fec peerid member := by
    obtain ⟨ln, nbr, -⟩ := consistent.linked.listed sent peerid fec member
    exact (Tree.mem_iff_getElem? _ _).mpr ⟨ln, nbr⟩
  nodes _ _ ln nbr _ member := consistent.linked.mem_ft ⟨ln, nbr, member⟩
  label fec fn node := by
    have filled := labelled fec
    have empty := consistent.idle.localLabel fec
    rw [lde.nexthops_eq_of_node node, lde.localLabel_eq_of_node node] at filled empty
    exact ⟨mt empty, filled⟩
  data fec fn node pseudowire := by
    have filled := consistent.backed fec pseudowire
    have empty := consistent.idle.data fec
    rw [lde.nexthops_eq_of_node node, lde.data_eq_of_node node] at filled empty
    exact ⟨mt empty, filled⟩
  collected sent peerid ln nbr fec member := by
    obtain ⟨fn, node⟩ := (Tree.mem_iff_getElem? _ _).mp (consistent.linked.mem_ft ⟨ln, nbr, member⟩)
    have live := dead_eq_false node ((consistent.linked.mem_entries nbr fec).mp member)
    rw [getElem?_ldeGcTimer node live, node]
  safe := consistent.linked.safe

end Representation

/-- In every run of single operations in which the counter hands out no `NO_LABEL`, the label database
fits together. -/
theorem represents_of_run (conf : LdeConf) (ops : List LdeOp)
    (valid : Run.Allowed ldeOp CounterValid (Lde.start conf) ops) :
    (ops.foldl ldeOp (Lde.start conf)).Represents := by
  have start : (Lde.start conf).Consistent ∧ (Lde.start conf).Labelled :=
    ⟨consistent_start conf, fun fec filled => absurd (start_nexthops conf fec) filled⟩
  have run := Run.foldl_of_allowed (fun lde => lde.Consistent ∧ lde.Labelled)
    (fun lde op both step => ⟨both.1.ldeOp op, both.2.ldeOp both.1.idle step⟩) start valid
  exact run.1.represents run.2

/-- A route with its label and a mapping of it, explicit-null, and then the end of the route and of
the neighbor. -/
def routeLife : List LdeOp :=
  [.event (.neighborUp 1 7 true false), .event (.networkAdd flappingRoute),
    .event (.addressAdd 1 flappingRoute.nexthop),
    .event (.labelMapping 1 {
      fec := .network flappingRoute.addr flappingRoute.prefixlen
      msgId := 1
      label := 20
      requestid := 0
      flags := {} }),
    .mergeAf .inet true, .event (.networkDel flappingRoute), .event (.neighborDown 1), .event .gcTimer]

theorem represents_of_run_route : (routeLife.foldl ldeOp (Lde.start {})).Represents := by
  refine represents_of_run {} _ ⟨?_, fun _ _ => by decide +kernel, ?_, ?_, ?_, ?_, ?_, ?_, trivial⟩
  all_goals exact fun fec takes => (not_takes rfl fec takes).elim

/-! ### A counter that comes around -/

/-- The route is gone, and the counter has a value. -/
structure CameAround (label : Nat) (lde : Lde) : Prop where
  consistent : lde.Consistent
  gone : lde.nexthops flappingRoute.fec = []
  label : lde.label.toNat = label

theorem CameAround.flap {label : Nat} {lde : Lde} (around : CameAround label lde)
    (left : label + 1 < 2 ^ 32) :
    CameAround (label + 1) (ldeOp (ldeOp lde (.event (.networkAdd flappingRoute)))
      (.event (.networkDel flappingRoute))) := by
  obtain ⟨gone, counter⟩ := flap_once around.consistent.idle around.gone
  refine ⟨(around.consistent.ldeOp _).ldeOp _, gone, ?_⟩
  rw [counter, UInt32.toNat_add, around.label]
  exact Nat.mod_eq_of_lt left

theorem cameAround_flaps (times : Nat) {label : Nat} {lde : Lde} (around : CameAround label lde)
    (left : label + times < 2 ^ 32) : CameAround (label + times) ((flaps times).foldl ldeOp lde) := by
  induction times generalizing label lde with
  | zero => exact around
  | succ times inductionHypothesis =>
    have next := inductionHypothesis (around.flap (by omega)) (by omega)
    rw [show label + (times + 1) = label + 1 + times by omega]
    exact next

/-- The label of the route that comes next is none. -/
theorem CameAround.not_represents {lde : Lde} (around : CameAround 4294967294 lde) :
    ¬(ldeOp lde (.event (.networkAdd flappingRoute))).Represents := by
  intro represents
  obtain ⟨listed, label, -⟩ := flap_up around.consistent.idle around.gone
  have full : lde.label + 1 = noLabel := by
    refine UInt32.toNat_inj.mp ?_
    rw [UInt32.toNat_add, around.label]
    rfl
  have filled : (ldeOp lde (.event (.networkAdd flappingRoute))).nexthops flappingRoute.fec ≠ [] := by
    intro empty
    rw [empty] at listed
    cases listed
  cases node : (ldeOp lde (.event (.networkAdd flappingRoute))).ft[flappingRoute.fec]? with
  | none => exact filled (by rw [Lde.nexthops, node])
  | some fn =>
    rw [Lde.nexthops_eq_of_node _ node] at filled
    rw [Lde.localLabel_eq_of_node _ node, full] at label
    exact (represents.label _ fn node).mpr filled label

theorem not_represents_flaps {times : Nat} (around : 15 + times = 4294967294) :
    ¬((flaps times ++ [LdeOp.event (.networkAdd flappingRoute)]).foldl ldeOp
      (Lde.start {})).Represents := by
  have start : CameAround 15 (Lde.start {}) :=
    ⟨consistent_start {}, start_nexthops {} flappingRoute.fec, rfl⟩
  have last := cameAround_flaps times start (by omega)
  rw [around] at last
  rw [List.foldl_append]
  exact last.not_represents

/-- The route comes and goes until the counter comes around, and then its label is none. -/
theorem flaps_not_represents :
    ¬((flaps 4294967279 ++ [LdeOp.event (.networkAdd flappingRoute)]).foldl ldeOp
      (Lde.start {})).Represents :=
  not_represents_flaps (by decide)

end Ldpd
