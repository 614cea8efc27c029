/-
This file compares the wildcard forms of Label Withdraw and Label Release with the same
message for one FEC, repeated. The withdraw does the same to the mappings received and to
the labels in use; the release also deletes what was sent for the pseudowires of others.
-/

import Ldpd.Lde.Records
import Ldpd.Lde.Refinement

namespace Tree

variable {Key Value : Type} {cmp : Key → Key → Ordering} [Std.TransCmp cmp] [Std.LawfulEqCmp cmp]
  [DecidableEq Key]

/-- Remove an entry that passes a test. -/
def eraseIf (test : Value → Bool) (tree : Std.ExtTreeMap Key Value cmp) (key : Key) :
    Std.ExtTreeMap Key Value cmp :=
  if tree[key]?.any test then tree.erase key else tree

theorem getElem?_eraseIf (test : Value → Bool) (tree : Std.ExtTreeMap Key Value cmp) (key other : Key) :
    (eraseIf test tree key)[other]? =
      if key = other ∧ tree[other]?.any test = true then none else tree[other]? := by
  rw [eraseIf]
  split_ifs with passes both both
  · rw [getElem?_erase, if_pos both.1]
  · rw [getElem?_erase, if_neg fun same => both ⟨same, same ▸ passes⟩]
  · exact absurd (both.1 ▸ both.2) passes
  · rfl

/-- The entries left when those that pass a test have been removed at some keys. -/
theorem getElem?_foldl_eraseIf (test : Value → Bool) (keys : List Key)
    (tree : Std.ExtTreeMap Key Value cmp) (other : Key) :
    (keys.foldl (eraseIf test) tree)[other]? =
      if other ∈ keys ∧ tree[other]?.any test = true then none else tree[other]? := by
  induction keys generalizing tree with
  | nil => simp
  | cons key rest inductionHypothesis =>
    rw [List.foldl_cons, inductionHypothesis, getElem?_eraseIf]
    by_cases same : key = other
    · subst same
      by_cases passes : tree[key]?.any test = true
      · simp [passes]
      · simp [passes]
    · have different : other ≠ key := fun same' => same same'.symm
      simp [same, different]

end Tree

namespace Ldpd

/-! ### One FEC after another -/

/-- A pseudowire FEC is one of the router with this id. -/
def Fec.isOf (id : InAddr) : Fec → Bool
  | .pwid _ _ lsrId => lsrId = id
  | .ipv4 .. | .ipv6 .. => true

/-- The FECs a wildcard of a neighbor stands for, in the order of the tree: every route, and the
pseudowires of the neighbor. -/
def Lde.wcardFecs (lde : Lde) (ln : LdeNbr) : List Fec :=
  lde.ft.keys.filter (Fec.isOf ln.id)

/-- The message for one FEC. -/
def fecMessage (label : UInt32) (fec : Fec) : Map :=
  { ldeFec2map fec with label }

/-- `lde_check_withdraw` for one FEC after another. -/
def withdrawEach (lde : Lde) (peerid label : UInt32) (fecs : List Fec) : Lde :=
  fecs.foldl (fun lde fec => ldeCheckWithdraw lde (fecMessage label fec) peerid) lde

/-- `lde_check_release` for one FEC after another. -/
def releaseEach (lde : Lde) (peerid label : UInt32) (fecs : List Fec) : Lde :=
  fecs.foldl (fun lde fec => ldeCheckRelease lde (fecMessage label fec) peerid) lde

/-- A field of a neighbor. -/
def Lde.nbrField {Value : Type} (lde : Lde) (peerid : UInt32) (field : LdeNbr → Value) :
    Option Value :=
  lde.ldeNbrs[peerid]?.map field

/-- A withdraw and a release of a wildcard leave what the messages for the single FECs leave: the same
mappings received, the same labels at the nexthops, the same mappings sent, and the same pending
withdraws except those for pseudowires of others. -/
structure WcardRepeats (lde : Lde) (peerid : UInt32) (ln : LdeNbr) (map : Map) : Prop where
  recvMap : (ldeCheckWithdrawWcard lde map peerid).nbrField peerid LdeNbr.recvMap =
    (withdrawEach lde peerid map.label (lde.wcardFecs ln)).nbrField peerid LdeNbr.recvMap
  remoteLabels : (ldeCheckWithdrawWcard lde map peerid).nexthops =
    (withdrawEach lde peerid map.label (lde.wcardFecs ln)).nexthops
  sentMap : (ldeCheckReleaseWcard lde map peerid).nbrField peerid LdeNbr.sentMap =
    (releaseEach lde peerid map.label (lde.wcardFecs ln)).nbrField peerid LdeNbr.sentMap
  sentWdraw : ∀ fec : Fec, fec.Of ln.id →
    (ldeCheckReleaseWcard lde map peerid).nbrField peerid (fun ln => ln.sentWdraw[fec]?) =
      (releaseEach lde peerid map.label (lde.wcardFecs ln)).nbrField peerid fun ln => ln.sentWdraw[fec]?

/-- A mapping was sent for a pseudowire of another router, and a release with this label would delete
it. -/
def LdeNbr.SentStray (ln : LdeNbr) (label : UInt32) : Prop :=
  ∃ (fec : Fec) (me : Map), ln.sentMap[fec]? = some me ∧ ¬fec.Of ln.id ∧ (label = noLabel ∨ label = me.label)

theorem Fec.isOf_iff (fec : Fec) (id : InAddr) : fec.isOf id = true ↔ fec.Of id := by
  cases fec with
  | ipv4 | ipv6 => exact iff_of_true rfl fun _ _ _ same => Fec.noConfusion same
  | pwid type pwid lsrId =>
    rw [Fec.isOf, decide_eq_true_iff]
    refine ⟨fun same _ _ _ given => ?_, fun own => own type pwid lsrId rfl⟩
    cases given
    exact same

/-- The message for a FEC is for that FEC. -/
theorem ldeMap2fec_fecMessage {fec : Fec} {id : InAddr} (own : fec.Of id) (label : UInt32) :
    ldeMap2fec (fecMessage label fec) id = fec := by
  cases fec with
  | ipv4 | ipv6 => rfl
  | pwid type pwid lsrId => rw [own type pwid lsrId rfl]; rfl

theorem fecMessage_single (label : UInt32) (fec : Fec) :
    (∃ type pwid group ifmtu, (fecMessage label fec).fec = .pwid type pwid group ifmtu) →
      (fecMessage label fec).flags.pwId = true := by
  rintro ⟨type, pwid, group, ifmtu, given⟩
  cases fec with
  | ipv4 | ipv6 => cases given
  | pwid => rfl

/-! ### Withdraws -/

section Withdraws

variable {lde : Lde} {peerid : UInt32} {view : NbrView}

/-- Every pseudowire with a nexthop is configured. -/
def Bindings.WireBacked (b : Bindings) : Prop :=
  ∀ fec, fec.af = none → b.nexthops fec ≠ [] → (b.data fec).isSome

theorem Bindings.WireBacked.unlearn {b : Bindings} (backed : b.WireBacked) (peerid : UInt32) (ln : NbrView)
    (fec : Fec) (label : UInt32) : (b.unlearn peerid ln fec label).WireBacked := by
  intro other pseudowire filled
  exact backed other pseudowire fun empty => filled (List.map_eq_nil_iff.mpr empty)

/-- Two neighbors with the same id and addresses own the same nexthops. -/
theorem NbrView.owns_congr {ln ln' : NbrView} (id : ln'.id = ln.id) (addrList : ln'.addrList = ln.addrList) :
    ln'.owns = ln.owns := by
  funext fec fnh
  cases fec with
  | ipv4 | ipv6 => rw [NbrView.owns, NbrView.owns, addrList]
  | pwid => rw [NbrView.owns, NbrView.owns, id]

theorem NbrView.forget_id (fec : Fec) (label : UInt32) (ln : NbrView) :
    (ln.forget fec label).id = ln.id ∧ (ln.forget fec label).addrList = ln.addrList := by
  unfold NbrView.forget
  split
  · exact ⟨rfl, rfl⟩
  · split_ifs
    · exact ⟨rfl, rfl⟩
    · exact ⟨rfl, rfl⟩

theorem Bindings.unlearn_nbr (b : Bindings) (peerid : UInt32) (ln : NbrView) (fec : Fec)
    (label : UInt32) :
    (b.unlearn peerid ln fec label).nbr peerid = (b.nbr peerid).map (NbrView.forget fec label) :=
  Function.update_self _ _ _

/-- Withdraws of single FECs give up their mappings one after another. -/
theorem bindings_withdrawEach (label : UInt32) (fecs : List Fec) (lde : Lde)
    (backed : lde.bindings.WireBacked) {ln : LdeNbr} (nbr : lde.ldeNbrs[peerid]? = some ln)
    (id : ln.id = view.id) (addrList : ln.addrList = view.addrList)
    (own : ∀ fec ∈ fecs, fec.Of view.id) : (withdrawEach lde peerid label fecs).bindings =
      lde.bindings.unlearnAll peerid view label fecs := by
  rw [withdrawEach, Bindings.unlearnAll]
  induction fecs generalizing lde ln with
  | nil => rfl
  | cons fec rest inductionHypothesis =>
    have first : (ldeCheckWithdraw lde (fecMessage label fec) peerid).bindings =
        lde.bindings.unlearn peerid view fec label := by
      have given := bindings_ldeCheckWithdraw_fec lde backed (fecMessage_single label fec) nbr
      rw [ldeMap2fec_fecMessage (id ▸ own fec List.mem_cons_self)] at given
      rw [given, Bindings.unlearn, NbrView.owns_congr id addrList]
      rfl
    have after := congrFun (congrArg Bindings.nbr first) peerid
    rw [Bindings.unlearn_nbr, bindings_nbr nbr] at after
    obtain ⟨ln', nbr', same⟩ := Option.map_eq_some_iff.mp after
    have kept := NbrView.forget_id fec label ln.view
    rw [List.foldl_cons, List.foldl_cons, ← first]
    refine inductionHypothesis _ ?_ nbr' ?_ ?_ fun other member => own other (List.mem_cons_of_mem _ member)
    · rw [first]
      exact backed.unlearn peerid view fec label
    · exact ((congrArg NbrView.id same).trans kept.1).trans id
    · exact ((congrArg NbrView.addrList same).trans kept.2).trans addrList

/-- The neighbor has sent mappings only for routes and for its own pseudowires. -/
def Bindings.OwnMappings (b : Bindings) (peerid : UInt32) (id : InAddr) : Prop :=
  ∀ ln, b.nbr peerid = some ln → ∀ fec ∈ ln.recvMap, fec.isOf id = true

theorem NbrView.mem_forget {fec other : Fec} {label : UInt32} {ln : NbrView}
    (member : other ∈ (ln.forget fec label).recvMap) : other ∈ ln.recvMap := by
  unfold NbrView.forget at member
  split at member
  · exact member
  · split_ifs at member
    · exact (Std.ExtTreeMap.mem_erase.mp member).2
    · exact member

theorem Bindings.OwnMappings.unlearn {b : Bindings} {id : InAddr} (own : b.OwnMappings peerid id)
    (ln : NbrView) (fec : Fec) (label : UInt32) :
    (b.unlearn peerid ln fec label).OwnMappings peerid id := by
  intro after found other member
  rw [Bindings.unlearn_nbr] at found
  obtain ⟨before, present, rfl⟩ := Option.map_eq_some_iff.mp found
  exact own before present other (NbrView.mem_forget member)

/-- Nothing is given up with a pseudowire of another router. -/
theorem Bindings.unlearn_stray {b : Bindings} (own : b.OwnMappings peerid view.id) {fec : Fec}
    (stray : fec.isOf view.id = false) (label : UInt32) : b.unlearn peerid view fec label = b := by
  rw [Bindings.unlearn, Bindings.relabel_none]
  · refine Bindings.updateNbr_id b peerid fun ln found => ?_
    have absent : ln.recvMap[fec]? = none := by
      refine Std.ExtTreeMap.getElem?_eq_none fun member => ?_
      cases stray.symm.trans (own ln found fec member)
    rw [NbrView.forget, absent]
  · intro other fnh _
    rw [only, Bool.and_eq_false_iff]
    cases fec with
    | ipv4 | ipv6 => cases stray
    | pwid => exact Or.inr stray

/-- A wildcard gives up what its FECs give up. -/
theorem Bindings.unlearnAll_filter {b : Bindings} (own : b.OwnMappings peerid view.id) (label : UInt32)
    (fecs : List Fec) : b.unlearnAll peerid view label fecs =
      b.unlearnAll peerid view label (fecs.filter (Fec.isOf view.id)) := by
  rw [Bindings.unlearnAll, Bindings.unlearnAll]
  induction fecs generalizing b with
  | nil => rfl
  | cons fec rest inductionHypothesis =>
    cases given : fec.isOf view.id with
    | true =>
      rw [List.filter_cons_of_pos given, List.foldl_cons, List.foldl_cons]
      exact inductionHypothesis (own.unlearn view fec label)
    | false =>
      rw [List.filter_cons_of_neg (Bool.eq_false_iff.mp given), List.foldl_cons,
        Bindings.unlearn_stray own given]
      exact inductionHypothesis own

/-- A wildcard withdraw does to the bindings what the withdraws of its FECs do. -/
theorem bindings_wcardWithdraw (consistent : lde.Consistent) {ln : LdeNbr}
    (nbr : lde.ldeNbrs[peerid]? = some ln) (map : Map) :
    (ldeCheckWithdrawWcard lde map peerid).bindings =
      (withdrawEach lde peerid map.label (lde.wcardFecs ln)).bindings := by
  have backed : lde.bindings.WireBacked := fun fec pseudowire filled =>
    Option.isSome_iff_ne_none.mpr (consistent.backed fec pseudowire filled)
  have own : lde.bindings.OwnMappings peerid ln.view.id := by
    intro view found fec member
    rw [bindings_nbr nbr] at found
    cases found
    exact (fec.isOf_iff ln.id).mpr (consistent.linked.own peerid ln nbr fec member)
  rw [bindings_ldeCheckWithdrawWcard lde map nbr, Bindings.unlearnAll_filter own]
  refine (bindings_withdrawEach map.label _ lde backed nbr rfl rfl fun fec member => ?_).symm
  exact (fec.isOf_iff _).mp (List.mem_filter.mp member).2

end Withdraws

/-! ### Releases -/

section Releases

variable {lde : Lde} {peerid : UInt32} {ln : LdeNbr}

/-- A pending withdraw that a release with this label answers. -/
def answersWdraw (label pending : UInt32) : Bool :=
  label = noLabel ∨ (pending ≠ noLabel ∧ label = pending)

/-- A mapping that a release or withdraw with this label is for. -/
def matchesMap (label : UInt32) (me : Map) : Bool :=
  label = noLabel ∨ label = me.label

/-- What a release of a FEC does to the neighbor that sends it. -/
def LdeNbr.release (label : UInt32) (ln : LdeNbr) (fec : Fec) : LdeNbr :=
  { ln with
    sentWdraw := Tree.eraseIf (answersWdraw label) ln.sentWdraw fec
    sentMap := Tree.eraseIf (matchesMap label) ln.sentMap fec }

theorem getElem?_releaseFec (nbr : lde.ldeNbrs[peerid]? = some ln) (label : UInt32) (fec : Fec) :
    (releaseFec peerid label lde fec).ldeNbrs[peerid]? = some (ln.release label fec) := by
  rw [releaseFec, nbr]
  dsimp only
  rw [LdeNbr.release, Tree.eraseIf, Tree.eraseIf]
  cases ln.sentWdraw[fec]? with
  | none =>
    cases ln.sentMap[fec]? with
    | none => exact nbr
    | some me =>
      simp only [Option.any_none, Option.any_some, matchesMap, decide_eq_true_iff,
        Bool.false_eq_true, if_false]
      split_ifs
      · exact getElem?_updateNbr_self nbr _
      · exact nbr
  | some pending =>
    have settled := getElem?_updateNbr_self nbr fun ln =>
      { ln with sentWdraw := ln.sentWdraw.erase fec }
    cases ln.sentMap[fec]? with
    | none =>
      simp only [Option.any_none, Option.any_some, answersWdraw, decide_eq_true_iff,
        Bool.false_eq_true, if_false]
      split_ifs
      · exact settled
      · exact nbr
    | some me =>
      simp only [Option.any_some, answersWdraw, matchesMap, decide_eq_true_iff]
      split_ifs
      · exact getElem?_updateNbr_self settled _
      · exact getElem?_updateNbr_self nbr _
      · exact settled
      · exact nbr

/-- Releases of FECs, as the loop of `lde_check_release_wcard` does them. -/
theorem getElem?_foldl_releaseFec (nbr : lde.ldeNbrs[peerid]? = some ln) (label : UInt32)
    (fecs : List Fec) : (fecs.foldl (releaseFec peerid label) lde).ldeNbrs[peerid]? =
      some (fecs.foldl (LdeNbr.release label) ln) := by
  induction fecs generalizing lde ln with
  | nil => exact nbr
  | cons fec rest inductionHypothesis => exact inductionHypothesis (getElem?_releaseFec nbr label fec)

/-- A release of a FEC that has a node. -/
theorem ldeCheckRelease_fecMessage (nbr : lde.ldeNbrs[peerid]? = some ln) {fec : Fec}
    (node : fec ∈ lde.ft) (own : fec.Of ln.id) (label : UInt32) :
    ldeCheckRelease lde (fecMessage label fec) peerid = releaseFec peerid label lde fec := by
  rw [ldeCheckRelease, nbr]
  dsimp only
  rw [ldeMap2fec_fecMessage own, if_pos node]
  cases fec with
  | ipv4 | ipv6 => rfl
  | pwid => rfl

theorem releaseEach_eq (nbr : lde.ldeNbrs[peerid]? = some ln) (label : UInt32) (fecs : List Fec)
    (nodes : ∀ fec ∈ fecs, fec ∈ lde.ft) (own : ∀ fec ∈ fecs, fec.Of ln.id) :
    releaseEach lde peerid label fecs = fecs.foldl (releaseFec peerid label) lde := by
  rw [releaseEach]
  induction fecs generalizing lde ln with
  | nil => rfl
  | cons fec rest inductionHypothesis =>
    rw [List.foldl_cons, List.foldl_cons, ldeCheckRelease_fecMessage nbr
      (nodes fec List.mem_cons_self) (own fec List.mem_cons_self)]
    refine inductionHypothesis (getElem?_releaseFec nbr label fec) (fun other member => ?_)
      fun other member => own other (List.mem_cons_of_mem fec member)
    exact (Touched.releaseFec peerid label lde fec).mem_ft (nodes other (List.mem_cons_of_mem fec member))

theorem sentMap_foldl_release (label : UInt32) (fecs : List Fec) (ln : LdeNbr) :
    (fecs.foldl (LdeNbr.release label) ln).sentMap =
      fecs.foldl (Tree.eraseIf (matchesMap label)) ln.sentMap :=
  (List.foldl_hom LdeNbr.sentMap fun _ _ => rfl).symm

theorem sentWdraw_foldl_release (label : UInt32) (fecs : List Fec) (ln : LdeNbr) :
    (fecs.foldl (LdeNbr.release label) ln).sentWdraw =
      fecs.foldl (Tree.eraseIf (answersWdraw label)) ln.sentWdraw :=
  (List.foldl_hom LdeNbr.sentWdraw fun _ _ => rfl).symm

/-- The neighbor after a wildcard release and after the releases of its FECs. -/
theorem wcardRelease_nbr (nbr : lde.ldeNbrs[peerid]? = some ln) (map : Map) :
    (ldeCheckReleaseWcard lde map peerid).ldeNbrs[peerid]? =
        some (lde.ft.keys.foldl (LdeNbr.release map.label) ln) ∧
      (releaseEach lde peerid map.label (lde.wcardFecs ln)).ldeNbrs[peerid]? =
        some ((lde.wcardFecs ln).foldl (LdeNbr.release map.label) ln) := by
  refine ⟨getElem?_foldl_releaseFec nbr map.label _, ?_⟩
  rw [releaseEach_eq nbr map.label _ (fun fec member => ?_) fun fec member => ?_]
  · exact getElem?_foldl_releaseFec nbr map.label _
  · exact Std.ExtTreeMap.mem_keys.mp (List.mem_filter.mp member).1
  · exact (fec.isOf_iff _).mp (List.mem_filter.mp member).2

theorem mem_wcardFecs (lde : Lde) (ln : LdeNbr) (fec : Fec) :
    fec ∈ lde.wcardFecs ln ↔ fec ∈ lde.ft ∧ fec.Of ln.id := by
  rw [Lde.wcardFecs, List.mem_filter, Std.ExtTreeMap.mem_keys, Fec.isOf_iff]

/-- The mappings sent are the same unless one goes that was sent for a pseudowire of another. -/
theorem wcardRelease_sentMap (linked : lde.Linked) (nbr : lde.ldeNbrs[peerid]? = some ln) (map : Map) :
    (ldeCheckReleaseWcard lde map peerid).nbrField peerid LdeNbr.sentMap =
        (releaseEach lde peerid map.label (lde.wcardFecs ln)).nbrField peerid LdeNbr.sentMap ↔
      ¬ln.SentStray map.label := by
  obtain ⟨all, each⟩ := wcardRelease_nbr nbr map
  rw [Lde.nbrField, Lde.nbrField, all, each, Option.map_some, Option.map_some, Option.some_inj,
    sentMap_foldl_release, sentMap_foldl_release]
  constructor
  · rintro same ⟨fec, me, sent, stray, label⟩
    have recorded : lde.Recorded true peerid fec :=
      ⟨ln, nbr, (Tree.mem_iff_getElem? _ _).mpr ⟨me, sent⟩⟩
    have node : fec ∈ lde.ft.keys := Std.ExtTreeMap.mem_keys.mpr (linked.mem_ft recorded)
    have passes : ln.sentMap[fec]?.any (matchesMap map.label) = true := by
      rw [sent]
      exact decide_eq_true label
    have left : (lde.ft.keys.foldl (Tree.eraseIf (matchesMap map.label)) ln.sentMap)[fec]? = none := by
      rw [Tree.getElem?_foldl_eraseIf, if_pos ⟨node, passes⟩]
    rw [same, Tree.getElem?_foldl_eraseIf,
      if_neg fun both => stray ((mem_wcardFecs lde ln fec).mp both.1).2, sent] at left
    exact Option.some_ne_none me left
  · intro clean
    refine Std.ExtTreeMap.ext_getElem? fun fec => ?_
    rw [Tree.getElem?_foldl_eraseIf, Tree.getElem?_foldl_eraseIf]
    refine if_congr (and_congr_left fun passes => ?_) rfl rfl
    rw [Std.ExtTreeMap.mem_keys, mem_wcardFecs]
    refine (and_iff_left ?_).symm
    by_contra stray
    obtain ⟨me, sent, label⟩ := (Option.any_eq_true _ _).mp passes
    exact clean ⟨fec, me, sent, stray, of_decide_eq_true label⟩

/-- The pending withdraws are the same except those for pseudowires of others. -/
theorem wcardRelease_sentWdraw (nbr : lde.ldeNbrs[peerid]? = some ln) (map : Map) {fec : Fec}
    (own : fec.Of ln.id) :
    (ldeCheckReleaseWcard lde map peerid).nbrField peerid (fun ln => ln.sentWdraw[fec]?) =
      (releaseEach lde peerid map.label (lde.wcardFecs ln)).nbrField peerid
        fun ln => ln.sentWdraw[fec]? := by
  obtain ⟨all, each⟩ := wcardRelease_nbr nbr map
  rw [Lde.nbrField, Lde.nbrField, all, each, Option.map_some, Option.map_some, Option.some_inj,
    sentWdraw_foldl_release, sentWdraw_foldl_release, Tree.getElem?_foldl_eraseIf,
    Tree.getElem?_foldl_eraseIf]
  refine if_congr (and_congr_left fun _ => ?_) rfl rfl
  rw [Std.ExtTreeMap.mem_keys, mem_wcardFecs]
  exact (and_iff_left own).symm

end Releases

/-! ### Wildcards in every run -/

/-- In every state that can be reached, a withdraw and a release of a wildcard repeat the messages for its
FECs if and only if no mapping goes that was sent for a pseudowire of another router. -/
theorem wcard_repeats_iff (conf : LdeConf) (inputs : List LdeInput) {lde : Lde}
    (reached : inputs.foldl ldeInput (Lde.start conf) = lde) {peerid : UInt32} {ln : LdeNbr}
    (nbr : lde.ldeNbrs[peerid]? = some ln) (map : Map) :
    WcardRepeats lde peerid ln map ↔ ¬ln.SentStray map.label := by
  have consistent : lde.Consistent := reached ▸ consistent_of_run conf inputs
  have sent := wcardRelease_sentMap consistent.linked nbr map
  refine ⟨fun repeats => sent.mp repeats.sentMap, fun clean => ?_⟩
  have bindings := bindings_wcardWithdraw consistent nbr map
  refine ⟨?_, congrArg Bindings.nexthops bindings, sent.mpr clean, fun fec own =>
    wcardRelease_sentWdraw nbr map own⟩
  have views := congrArg (Option.map NbrView.recvMap) (congrFun (congrArg Bindings.nbr bindings) peerid)
  have view (lde : Lde) : lde.nbrField peerid LdeNbr.recvMap =
      (lde.bindings.nbr peerid).map NbrView.recvMap := by
    show _ = Option.map _ (Option.map _ _)
    rw [Option.map_map]
    rfl
  rw [view, view, views]

/-! ### A pseudowire that moves to another router -/

/-- An L2VPN with one pseudowire. -/
def wireTo (lsrId : InAddr) (cword : Bool) : Xconf where
  ipv4ExpNull := false
  ipv6ExpNull := false
  l2vpnList := [{
    name := "red"
    pwType := 5
    mtu := 1500
    pwList := [{
      lsrId := lsrId
      addr := .v4 lsrId
      pwid := 100
      ifindex := 7
      statustlv := true
      cword := cword }] }]

/-- The pseudowire moves from 10.0.0.2 to 10.0.0.3, which then comes up. -/
def movedWire (cword : Bool) : List LdeInput :=
  [.reload (wireTo 0x0a000002 false), .reload (wireTo 0x0a000003 cword),
    .event (.neighborUp 1 0x0a000003 true false), .event (.labelMappingFull 1)]

/-- A pseudowire that is started again with its new FEC. -/
theorem wcard_repeats_moved :
    ∃ ln, ((movedWire false).foldl ldeInput (Lde.start {})).ldeNbrs[(1 : UInt32)]? = some ln ∧
      WcardRepeats ((movedWire false).foldl ldeInput (Lde.start {})) 1 ln
        { fec := .wildcard, label := noLabel } := by
  obtain ⟨ln, nbr, clean⟩ := Option.map_eq_some_iff.mp (show
    ((movedWire false).foldl ldeInput (Lde.start {})).ldeNbrs[(1 : UInt32)]?.map (fun ln =>
      ln.sentMap.keys.all (Fec.isOf ln.id)) = some true by decide +kernel)
  refine ⟨ln, nbr, (wcard_repeats_iff {} (movedWire false) rfl nbr _).mpr ?_⟩
  rintro ⟨fec, me, sent, stray, -⟩
  have member : fec ∈ ln.sentMap.keys :=
    Std.ExtTreeMap.mem_keys.mpr ((Tree.mem_iff_getElem? _ _).mpr ⟨me, sent⟩)
  exact stray ((fec.isOf_iff ln.id).mp (List.all_eq_true.mp clean fec member))

/-- When the control word changes with the neighbor, the pseudowire keeps its old FEC: its mapping is
sent to the new neighbor, and only the release of the wildcard deletes the record of that. -/
theorem wcard_not_repeats_moved :
    ∃ ln, ((movedWire true).foldl ldeInput (Lde.start {})).ldeNbrs[(1 : UInt32)]? = some ln ∧
      ¬WcardRepeats ((movedWire true).foldl ldeInput (Lde.start {})) 1 ln
        { fec := .wildcard, label := noLabel } := by
  obtain ⟨ln, nbr, some⟩ := Option.map_eq_some_iff.mp (show
    ((movedWire true).foldl ldeInput (Lde.start {})).ldeNbrs[(1 : UInt32)]?.map (fun ln =>
      ln.sentMap.keys.any fun fec => !fec.isOf ln.id) = some true by decide +kernel)
  obtain ⟨fec, member, stray⟩ := List.any_eq_true.mp some
  obtain ⟨me, sent⟩ := (Tree.mem_iff_getElem? _ _).mp (Std.ExtTreeMap.mem_keys.mp member)
  have other : ¬fec.Of ln.id := fun own => by
    rw [(fec.isOf_iff ln.id).mpr own] at stray
    cases stray
  have linked := (consistent_of_run {} (movedWire true)).linked
  exact ⟨ln, nbr, fun repeats => (wcardRelease_sentMap linked nbr _).mp repeats.sentMap
    ⟨fec, me, sent, other, Or.inl rfl⟩⟩

end Ldpd
