/-
This file proves that the engine never forwards with a stale label: in every state
it reaches, a label in use at a nexthop is one that a live neighbor behind that
nexthop has sent for the FEC and has not taken back.
-/

import Ldpd.Lde.Refinement
import Ldpd.Library.Run

namespace Ldpd

/-! ### Labels and the records behind them -/

/-- A recorded mapping of a neighbor behind the nexthop has the label of the nexthop. -/
def Bindings.Backed (b : Bindings) (fec : Fec) (fnh : FecNh) : Prop :=
  ∃ peerid ln me, b.nbr peerid = some ln ∧ ln.owns fec fnh = true ∧
    ln.recvMap[fec]? = some me ∧ me.label = fnh.remoteLabel

/-- Every label in use is backed. -/
def Bindings.NoStale (b : Bindings) : Prop :=
  ∀ fec, ∀ fnh ∈ b.nexthops fec, fnh.remoteLabel ≠ noLabel → b.Backed fec fnh

theorem Bindings.updateNbr_nbr_self {b : Bindings} {peerid : UInt32} {ln : NbrView}
    (found : b.nbr peerid = some ln) (change : NbrView → NbrView) :
    (b.updateNbr peerid change).nbr peerid = some (change ln) := by
  show Function.update b.nbr peerid _ peerid = _
  rw [Function.update_self, found]
  rfl

theorem Bindings.updateNbr_nbr_of_ne (b : Bindings) {peerid other : UInt32}
    (different : other ≠ peerid) (change : NbrView → NbrView) :
    (b.updateNbr peerid change).nbr other = b.nbr other :=
  Function.update_of_ne different _ _

/-- A change of a neighbor that keeps its record of a FEC and its nexthops keeps what they
back. -/
theorem Bindings.Backed.updateNbr {b : Bindings} {fec : Fec} {fnh : FecNh}
    (backed : b.Backed fec fnh) (peerid : UInt32) (change : NbrView → NbrView)
    (keeps : ∀ ln, b.nbr peerid = some ln → ln.owns fec fnh = true →
      (change ln).owns fec fnh = true ∧ (change ln).recvMap[fec]? = ln.recvMap[fec]?) :
    (b.updateNbr peerid change).Backed fec fnh := by
  obtain ⟨other, ln, me, found, owned, recorded, label⟩ := backed
  by_cases same : other = peerid
  · subst same
    obtain ⟨owns, record⟩ := keeps ln found owned
    exact ⟨other, change ln, me, Bindings.updateNbr_nbr_self found change, owns,
      record.trans recorded, label⟩
  · exact ⟨other, ln, me, (Bindings.updateNbr_nbr_of_ne b same change).trans found, owned,
      recorded, label⟩

theorem Bindings.Backed.relabel {b : Bindings} {fec : Fec} {fnh : FecNh}
    (backed : b.Backed fec fnh) (test : Fec → FecNh → Bool) (label : Fec → UInt32) :
    (b.relabel test label).Backed fec fnh := backed

/-- A nexthop that a relabelling has passed is an old one, or has the new label. -/
theorem Bindings.mem_relabel {b : Bindings} {test : Fec → FecNh → Bool} {label : Fec → UInt32}
    {fec : Fec} {fnh : FecNh} (member : fnh ∈ (b.relabel test label).nexthops fec) :
    (fnh ∈ b.nexthops fec ∧ test fec fnh = false) ∨
      ∃ origin ∈ b.nexthops fec, test fec origin = true ∧
        fnh = { origin with remoteLabel := label fec } := by
  obtain ⟨origin, known, rfl⟩ := List.mem_map.mp member
  unfold relabelIf
  cases passes : test fec origin with
  | true =>
    rw [if_pos rfl]
    exact Or.inr ⟨origin, known, passes, rfl⟩
  | false =>
    rw [if_neg Bool.false_ne_true]
    exact Or.inl ⟨known, passes⟩

/-! ### The steps of the machine -/

theorem recvMap_record_self (fec : Fec) (map : Map) (ln : NbrView) :
    (ln.record fec map).recvMap[fec]? = some map := by
  rw [NbrView.record, Tree.getElem?_insert, if_pos rfl]

theorem recvMap_record_of_ne {fec other : Fec} (different : other ≠ fec) (map : Map)
    (ln : NbrView) : (ln.record fec map).recvMap[other]? = ln.recvMap[other]? := by
  rw [NbrView.record, Tree.getElem?_insert, if_neg (Ne.symm different)]

theorem owns_record (fec : Fec) (map : Map) (ln : NbrView) (other : Fec) (fnh : FecNh) :
    (ln.record fec map).owns other fnh = ln.owns other fnh := by
  cases other <;> rfl

theorem Bindings.NoStale.learn {b : Bindings} (noStale : b.NoStale) {peerid : UInt32} {ln : NbrView}
    (found : b.nbr peerid = some ln) (fec : Fec) (map : Map) :
    (b.learn peerid ln fec map).NoStale := by
  intro other fnh member inUse
  have member' : fnh ∈ (b.relabel (only fec (ln.owns fec)) fun _ => map.label).nexthops other := member
  rcases Bindings.mem_relabel member' with ⟨old, kept⟩ | ⟨origin, -, passes, rfl⟩
  · refine ((noStale other fnh old inUse).relabel (only fec (ln.owns fec))
      fun _ => map.label).updateNbr peerid _ fun ln' found' owned => ⟨?_, ?_⟩
    · rw [owns_record]
      exact owned
    · refine recvMap_record_of_ne (fun same => ?_) map ln'
      -- a nexthop of the neighbor would have been relabelled
      subst same
      have equal : some ln = some ln' := found.symm.trans found'
      rw [Option.some_inj] at equal
      rw [only_self, equal, owned] at kept
      exact absurd kept (by simp)
  · rw [only, Bool.and_eq_true, decide_eq_true_eq] at passes
    obtain ⟨rfl, owned⟩ := passes
    refine ⟨peerid, ln.record other map, map, Bindings.updateNbr_nbr_self found _, ?_,
      recvMap_record_self other map ln, rfl⟩
    rw [owns_record, labelBlind_owns]
    exact owned

theorem owns_forget (fec : Fec) (label : UInt32) (ln : NbrView) (other : Fec) (fnh : FecNh) :
    (ln.forget fec label).owns other fnh = ln.owns other fnh := by
  unfold NbrView.forget
  repeat' split
  all_goals rfl

theorem recvMap_forget_of_ne {fec other : Fec} (different : other ≠ fec) (label : UInt32)
    (ln : NbrView) : (ln.forget fec label).recvMap[other]? = ln.recvMap[other]? := by
  unfold NbrView.forget
  split
  · rfl
  · split_ifs
    · exact (Tree.getElem?_erase _ _ _).trans (if_neg (Ne.symm different))
    · rfl

/-- The neighbor as it was when a wildcard withdraw arrived still says whose nexthops are
whose. -/
def NbrView.SameOwner (ln ln' : NbrView) : Prop :=
  ln.id = ln'.id ∧ ln.addrList = ln'.addrList

theorem NbrView.SameOwner.owns {ln ln' : NbrView} (same : ln.SameOwner ln') (fec : Fec)
    (fnh : FecNh) : ln.owns fec fnh = ln'.owns fec fnh := by
  cases fec <;> simp only [NbrView.owns, same.1, same.2]

theorem sameOwner_forget (fec : Fec) (label : UInt32) (ln : NbrView) :
    ln.SameOwner (ln.forget fec label) := by
  unfold NbrView.forget
  repeat' split
  all_goals exact ⟨rfl, rfl⟩

theorem Bindings.NoStale.unlearn {b : Bindings} (noStale : b.NoStale) {peerid : UInt32}
    {ln : NbrView} (owner : ∀ ln', b.nbr peerid = some ln' → ln.SameOwner ln') (fec : Fec)
    (label : UInt32) : (b.unlearn peerid ln fec label).NoStale := by
  intro other fnh member inUse
  have member' : fnh ∈ (b.relabel (only fec (ln.owns fec)) fun _ => noLabel).nexthops other := member
  rcases Bindings.mem_relabel member' with ⟨old, kept⟩ | ⟨origin, -, -, rfl⟩
  · refine ((noStale other fnh old inUse).relabel (only fec (ln.owns fec))
      fun _ => noLabel).updateNbr peerid _ fun ln' found owned => ⟨?_, ?_⟩
    · rw [owns_forget]
      exact owned
    · refine recvMap_forget_of_ne (fun same => ?_) label ln'
      subst same
      rw [only_self, (owner ln' found).owns, owned] at kept
      exact absurd kept (by simp)
  · exact absurd rfl inUse

theorem Bindings.NoStale.unlearnAll {b : Bindings} (noStale : b.NoStale) {peerid : UInt32}
    {ln : NbrView} (owner : ∀ ln', b.nbr peerid = some ln' → ln.SameOwner ln') (label : UInt32)
    (fecs : List Fec) : (b.unlearnAll peerid ln label fecs).NoStale := by
  unfold Bindings.unlearnAll
  induction fecs generalizing b with
  | nil => exact noStale
  | cons fec rest inductionHypothesis =>
    refine inductionHypothesis (noStale.unlearn owner fec label) fun ln' found => ?_
    cases present : b.nbr peerid with
    | none =>
      have gone : (b.unlearn peerid ln fec label).nbr peerid = none := by
        show Function.update b.nbr peerid ((b.nbr peerid).map _) peerid = none
        rw [Function.update_self, present]
        rfl
      exact absurd (gone.symm.trans found) (by simp)
    | some origin =>
      have changed : (b.unlearn peerid ln fec label).nbr peerid = some (origin.forget fec label) :=
        Bindings.updateNbr_nbr_self (b := b.relabel _ _) present _
      rw [changed, Option.some_inj] at found
      have same := owner origin present
      have kept := sameOwner_forget fec label origin
      rw [← found]
      exact ⟨same.1.trans kept.1, same.2.trans kept.2⟩

theorem Bindings.NoStale.addressAdd {b : Bindings} (noStale : b.NoStale) {peerid : UInt32}
    {ln : NbrView} (found : b.nbr peerid = some ln) (addr : LdpdAddr) :
    ((b.updateNbr peerid (NbrView.readdress (· ++ [addr]))).relabel
      (fun fec fnh => decide (fec ∈ ln.recvMap) && atAddress addr fec fnh)
      (ln.labelOf false)).NoStale := by
  intro fec fnh member inUse
  rcases Bindings.mem_relabel member with ⟨old, -⟩ | ⟨origin, -, passes, rfl⟩
  · refine (Bindings.Backed.updateNbr (noStale fec fnh old inUse) peerid _
      fun ln' _ owned => ⟨?_, rfl⟩)
    cases fec with
    | ipv4 | ipv6 =>
      simp only [NbrView.owns, NbrView.readdress, List.contains_iff_mem, List.mem_append] at owned ⊢
      exact Or.inl owned
    | pwid => exact owned
  · rw [Bool.and_eq_true, decide_eq_true_eq] at passes
    obtain ⟨known, at_⟩ := passes
    obtain ⟨me, recorded⟩ := (Tree.mem_iff_getElem? _ _).mp known
    rw [atAddress, Bool.and_eq_true, decide_eq_true_eq, decide_eq_true_eq] at at_
    refine ⟨peerid, _, me, Bindings.updateNbr_nbr_self found _, ?_, recorded, ?_⟩
    · cases fec with
      | ipv4 | ipv6 => simp [NbrView.owns, NbrView.readdress, at_.2]
      | pwid => exact absurd at_.1 (by simp [Fec.af])
    · show me.label = ln.labelOf false fec
      rw [NbrView.labelOf, recorded]
      rfl

theorem Bindings.NoStale.addressDel {b : Bindings} (noStale : b.NoStale)
    (wellFormed : b.WellFormed) {peerid : UInt32} {ln : NbrView} (found : b.nbr peerid = some ln)
    (addr : LdpdAddr) :
    ((b.relabel (fun fec fnh => decide (fec ∈ ln.recvMap) && atAddress addr fec fnh)
      fun _ => noLabel).updateNbr peerid (NbrView.readdress (·.erase addr))).NoStale := by
  intro fec fnh member inUse
  have member' : fnh ∈ (b.relabel (fun fec fnh =>
    decide (fec ∈ ln.recvMap) && atAddress addr fec fnh) fun _ => noLabel).nexthops fec := member
  rcases Bindings.mem_relabel member' with ⟨old, kept⟩ | ⟨origin, -, -, rfl⟩
  · obtain ⟨other, ln', me, found', owned, recorded, label⟩ := noStale fec fnh old inUse
    by_cases same : other = peerid
    · subst same
      have equal : some ln' = some ln := found'.symm.trans found
      rw [Option.some_inj] at equal
      subst equal
      refine ⟨other, _, me, Bindings.updateNbr_nbr_self (b := b.relabel _ _) found' _, ?_, recorded,
        label⟩
      cases family : fec.af with
      | none =>
        cases fec with
        | ipv4 | ipv6 => exact absurd family (by simp [Fec.af])
        | pwid => exact owned
      | some af =>
        -- the address that goes is not the one of this nexthop, or it would have no label
        have different : fnh.nexthop ≠ addr := by
          rintro rfl
          have sameFamily := wellFormed.network fec af family fnh old
          have known : fec ∈ ln'.recvMap := (Tree.mem_iff_getElem? _ _).mpr ⟨me, recorded⟩
          simp [atAddress, family, sameFamily, known] at kept
        cases fec with
        | ipv4 | ipv6 =>
          simp only [NbrView.owns, NbrView.readdress, List.contains_iff_mem] at owned ⊢
          exact (List.mem_erase_of_ne different).mpr owned
        | pwid => exact absurd family (by simp [Fec.af])
    · exact ⟨other, ln', me, (Bindings.updateNbr_nbr_of_ne (b.relabel _ _) same _).trans found',
        owned, recorded, label⟩
  · exact absurd rfl inUse

theorem Bindings.NoStale.setNbr_of_none {b : Bindings} (noStale : b.NoStale) {peerid : UInt32}
    (fresh : b.nbr peerid = none) (ln : Option NbrView) : (b.setNbr peerid ln).NoStale := by
  intro fec fnh member inUse
  obtain ⟨other, ln', me, found, rest⟩ := noStale fec fnh member inUse
  refine ⟨other, ln', me, ?_, rest⟩
  have different : other ≠ peerid := by
    rintro rfl
    exact absurd (fresh.symm.trans found) (by simp)
  exact (Function.update_of_ne different _ _).trans found

theorem Bindings.NoStale.neighborDown {b : Bindings} (noStale : b.NoStale) {peerid : UInt32}
    {ln : NbrView} (found : b.nbr peerid = some ln) :
    ((b.relabel ln.owns fun _ => noLabel).setNbr peerid none).NoStale := by
  intro fec fnh member inUse
  have member' : fnh ∈ (b.relabel ln.owns fun _ => noLabel).nexthops fec := member
  rcases Bindings.mem_relabel member' with ⟨old, kept⟩ | ⟨origin, -, -, rfl⟩
  · obtain ⟨other, ln', me, found', owned, rest⟩ := noStale fec fnh old inUse
    refine ⟨other, ln', me, ?_, owned, rest⟩
    have different : other ≠ peerid := by
      rintro rfl
      have equal : some ln = some ln' := found.symm.trans found'
      rw [Option.some_inj] at equal
      rw [equal, owned] at kept
      exact absurd kept (by simp)
    exact (Function.update_of_ne different _ _).trans found'
  · exact absurd rfl inUse

theorem Bindings.NoStale.addNexthop {b : Bindings} (noStale : b.NoStale) (fec : Fec)
    (nexthop : LdpdAddr) (priority : UInt8) (data : Option Nat) (label : UInt32) :
    (b.addNexthop fec nexthop priority data label).NoStale := by
  have backed {other : Fec} {fnh : FecNh} (held : b.Backed other fnh) :
      (b.addNexthop fec nexthop priority data label).Backed other fnh := by
    obtain ⟨peerid, ln, me, found, rest⟩ := held
    exact ⟨peerid, ln, me, (congrFun (Bindings.addNexthop_nbr b ..) peerid).trans found, rest⟩
  intro other fnh member inUse
  rw [Bindings.addNexthop_nexthops] at member
  split_ifs at member with same
  · subst same
    rcases List.mem_cons.mp member with rfl | old
    · exact absurd rfl inUse
    · exact backed (noStale other fnh old inUse)
  · exact backed (noStale other fnh member inUse)

theorem Bindings.Insert.noStale {b b' : Bindings} (noStale : b.NoStale) {fec : Fec}
    {nexthop : LdpdAddr} {priority : UInt8} {data : Option Nat} {label : UInt32}
    (inserted : b.Insert fec nexthop priority data label b') : b'.NoStale := by
  cases inserted with
  | listed => exact noStale
  | unowned | unmapped | ignored => exact noStale.addNexthop fec nexthop priority data label
  | mapped fresh peerid ln me found =>
    refine (noStale.addNexthop fec nexthop priority data label).learn ?_ _ me
    exact (congrFun (Bindings.addNexthop_nbr b ..) peerid).trans found

theorem Bindings.Remove.noStale {b b' : Bindings} (noStale : b.NoStale) {fec : Fec}
    {nexthop : LdpdAddr} {priority : UInt8} (removed : b.Remove fec nexthop priority b') :
    b'.NoStale := by
  cases removed with
  | unlisted => exact noStale
  | listed fnh =>
    intro other item member inUse
    obtain ⟨peerid, ln, me, found, rest⟩ :=
      noStale other item (Bindings.mem_of_mem_removeNexthop member) inUse
    exact ⟨peerid, ln, me, (congrFun (Bindings.removeNexthop_nbr b fec fnh) peerid).trans found, rest⟩

/-- No step of the machine leaves a stale label behind. -/
theorem Bindings.Step.noStale {b b' : Bindings} {event : LdeEvent} (step : b.Step event b')
    (wellFormed : b.WellFormed) (noStale : b.NoStale) : b'.NoStale := by
  have owner {peerid : UInt32} {ln : NbrView} (found : b.nbr peerid = some ln) (ln' : NbrView)
      (found' : b.nbr peerid = some ln') : ln.SameOwner ln' := by
    rw [found, Option.some_inj] at found'
    rw [found']
    exact ⟨rfl, rfl⟩
  cases step with
  | invisible => exact noStale
  | networkAdd kr label _ _ inserted => exact inserted.noStale noStale
  | networkDel kr _ removed => exact removed.noStale noStale
  | learn peerid ln map found => exact noStale.learn found _ map
  | unlearn peerid ln map found => exact noStale.unlearn (owner found) _ map.label
  | unlearnAll peerid ln map found _ fecs => exact noStale.unlearnAll (owner found) map.label fecs
  | addressAdd peerid ln addr found => exact noStale.addressAdd found addr
  | addressDel peerid ln addr found => exact noStale.addressDel wellFormed found addr
  | neighborUp peerid id _ _ fresh => exact noStale.setNbr_of_none fresh _
  | neighborDown peerid ln found => exact noStale.neighborDown found
  | pwNew data conf pwType fresh label _ _ inserted =>
    exact inserted.noStale (b := b.setPw data _) noStale
  | pwDel data type pwid lsrId known middle removed =>
    have kept : middle.NoStale := removed.noStale noStale
    exact kept

/-! ### Runs -/

/-- A step that leaves no FEC with two priorities of one nexthop address. -/
def OnePriorityStep (lde : Lde) (event : LdeEvent) : Prop :=
  (ldeStep lde event).bindings.OnePriority

theorem start_noStale (conf : LdeConf) : (Lde.start conf).bindings.NoStale := by
  intro fec fnh member
  rw [start_nexthops] at member
  exact absurd member (by simp)

/-- No stale outgoing label: after any sequence of events, every nexthop with a label is backed
by a mapping recorded from a live neighbor. The neighbor lists the nexthop among its addresses,
or is the remote end of the pseudowire, and its mapping for the FEC has the label. -/
theorem no_stale_label (conf : LdeConf) (events : List LdeEvent)
    (onePriority : Run.Allowed ldeStep OnePriorityStep (Lde.start conf) events) (fec : Fec)
    (fnh : FecNh) (member : fnh ∈ (events.foldl ldeStep (Lde.start conf)).nexthops fec)
    (inUse : fnh.remoteLabel ≠ noLabel) :
    ∃ (peerid : UInt32) (ln : LdeNbr) (me : Map),
      (events.foldl ldeStep (Lde.start conf)).ldeNbrs[peerid]? = some ln ∧
      (match fec with
        | .ipv4 .. | .ipv6 .. => fnh.nexthop ∈ ln.addrList
        | .pwid _ _ lsrId => ln.id = lsrId) ∧
      ln.recvMap[fec]? = some me ∧ me.label = fnh.remoteLabel := by
  have invariant : (events.foldl ldeStep (Lde.start conf)).bindings.WellFormed ∧
      (events.foldl ldeStep (Lde.start conf)).bindings.OnePriority ∧
      (events.foldl ldeStep (Lde.start conf)).bindings.NoStale := by
    refine Run.foldl_of_allowed (fun lde =>
      lde.bindings.WellFormed ∧ lde.bindings.OnePriority ∧ lde.bindings.NoStale) ?_ ?_ onePriority
    · rintro lde event ⟨wellFormed, single, noStale⟩ allowed
      have step := ldeStep_refines lde wellFormed single event
      exact ⟨step.wellFormed wellFormed, allowed, step.noStale wellFormed noStale⟩
    · exact ⟨start_wellFormed conf, start_onePriority conf, start_noStale conf⟩
  obtain ⟨peerid, view, me, found, owned, recorded, label⟩ := invariant.2.2 fec fnh member inUse
  obtain ⟨ln, present, rfl⟩ := Option.map_eq_some_iff.mp found
  refine ⟨peerid, ln, me, present, ?_, recorded, label⟩
  cases fec with
  | ipv4 | ipv6 => exact List.contains_iff_mem.mp owned
  | pwid => exact (of_decide_eq_true owned).symm

instance (lde : Lde) (event : LdeEvent) : Decidable (OnePriorityStep lde event) :=
  inferInstanceAs (Decidable (ldeStep lde event).bindings.OnePriority)

/-- A neighbor comes up at 10.0.0.1, a route to 11.0.0.0/8 leads to it, and it advertises
label 100 for that network. -/
def learnedRun : List LdeEvent :=
  [.neighborUp 1 0x01010101 true true,
    .addressAdd 1 (.v4 0x0a000001),
    .networkAdd {
      addr := .v4 0x0b000000, prefixlen := 8, nexthop := .v4 0x0a000001, priority := 32,
      connected := false, family := rfl },
    .labelMapping 1 { fec := .network (.v4 0x0b000000) 8, label := 100 }]

theorem no_stale_label_learnedRun :
    ∃ (peerid : UInt32) (ln : LdeNbr) (me : Map),
      (learnedRun.foldl ldeStep (Lde.start {})).ldeNbrs[peerid]? = some ln ∧
      (.v4 0x0a000001 : LdpdAddr) ∈ ln.addrList ∧
      ln.recvMap[Fec.ipv4 0x0b000000 8]? = some me ∧ me.label = 100 :=
  no_stale_label {} learnedRun (by decide) (.ipv4 0x0b000000 8) ⟨.v4 0x0a000001, 100, 32⟩
    (by decide) (by decide)

end Ldpd
