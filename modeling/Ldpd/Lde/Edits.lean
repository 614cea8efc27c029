/-
This file takes the handlers of the label decision engine apart into single updates and
says what each of them may rely on: a mapping is entered where there is a node and no
entry, replaced where there is one, and the only pointers that lead nowhere are those to
a pseudowire that has been freed.
-/

import Ldpd.Lde.Labels
import Ldpd.Lde.Neighbors

namespace Ldpd

/-! ### Entries and records -/

/-- The list of a node, of the mappings sent or of those received. -/
def FecNode.entries (fn : FecNode) (sent : Bool) : List UInt32 :=
  if sent then fn.upstream else fn.downstream

/-- The tree of a neighbor, of the mappings sent or of those received. -/
def LdeNbr.records (ln : LdeNbr) (sent : Bool) : FecTree Map :=
  if sent then ln.sentMap else ln.recvMap

/-- The neighbors that the node of a FEC lists. -/
def Lde.entries (lde : Lde) (sent : Bool) (fec : Fec) : List UInt32 :=
  ((lde.ft[fec]?).map fun fn => fn.entries sent).getD []

/-- A neighbor has a mapping of a FEC in its tree. -/
def Lde.Recorded (lde : Lde) (sent : Bool) (peerid : UInt32) (fec : Fec) : Prop :=
  ∃ ln, lde.ldeNbrs[peerid]? = some ln ∧ fec ∈ ln.records sent

/-- A pseudowire FEC is one of the router with this id. -/
def Fec.Of (fec : Fec) (id : InAddr) : Prop :=
  ∀ type pwid lsrId, fec = .pwid type pwid lsrId → lsrId = id

/-- The address family of a route is enabled for the neighbor. -/
def LdeNbr.enabled (ln : LdeNbr) : Fec → Bool
  | .ipv4 .. => ln.v4Enabled
  | .ipv6 .. => ln.v6Enabled
  | .pwid .. => false

/-- A pointer that is `NULL`. -/
def LdeFault.null : LdeFault → Bool
  | .nullFec | .nullPw => true
  | .fatalx | .freedPw => false

/-! ### Single updates -/

/-- What is done to a neighbor besides its mappings. A request that comes is kept only if its family is
not enabled. -/
structure NbrTended (ln ln' : LdeNbr) : Prop where
  id : ln'.id = ln.id
  enabled : ln'.enabled = ln.enabled
  records : ln'.records = ln.records
  recvReq : ∀ fec ∈ ln'.recvReq, fec ∈ ln.recvReq ∨ ln.enabled fec = false

/-- What the handlers do, one update after another. -/
inductive Edits : Lde → Lde → Prop
  | refl (lde : Lde) : Edits lde lde
  | trans {lde lde' lde'' : Lde} (first : Edits lde lde') (second : Edits lde' lde'') : Edits lde lde''
  | aside {lde lde' : Lde} (ft : lde'.ft = lde.ft) (ldeNbrs : lde'.ldeNbrs = lde.ldeNbrs)
      (faults : lde'.faults = lde.faults) : Edits lde lde'
  | fail (lde : Lde) {fault : LdeFault} (harmless : fault.null = false) : Edits lde (lde.fail fault)
  | tend (lde : Lde) (peerid : UInt32) {change : LdeNbr → LdeNbr}
      (tended : ∀ ln, lde.ldeNbrs[peerid]? = some ln → NbrTended ln (change ln)) :
      Edits lde (lde.updateNbr peerid change)
  | updateNode (lde : Lde) (fec : Fec) {change : FecNode → FecNode}
      (entries : ∀ fn sent, (change fn).entries sent = fn.entries sent) :
      Edits lde (lde.updateNode fec change)
  | fecAdd (lde : Lde) (fec : Fec) : Edits lde (fecAdd lde fec)
  | mapAdd (lde : Lde) {peerid : UInt32} {fec : Fec} (map : Map) {sent : Bool} {ln : LdeNbr}
      (node : fec ∈ lde.ft) (nbr : lde.ldeNbrs[peerid]? = some ln) (fresh : fec ∉ ln.records sent)
      (own : sent = false → fec.Of ln.id) : Edits lde (ldeMapAdd lde peerid fec map sent)
  | mapSet (lde : Lde) {peerid : UInt32} {fec : Fec} (map : Map) {sent : Bool}
      (recorded : lde.Recorded sent peerid fec) : Edits lde (ldeMapSet lde peerid fec map sent)
  | mapDel (lde : Lde) (peerid : UInt32) (fec : Fec) (sent : Bool) :
      Edits lde (ldeMapDel lde peerid fec sent)

/-! ### What the updates keep -/

/-- The trees of the neighbors and the lists of the nodes hold the same mappings, a pseudowire that a
neighbor has sent a mapping for is one of its own, no request waits for an enabled family, and no `NULL`
pointer has been followed. -/
structure Lde.Linked (lde : Lde) : Prop where
  one : ∀ sent peerid fec, lde.Recorded sent peerid fec → (lde.entries sent fec).count peerid = 1
  listed : ∀ sent peerid fec, peerid ∈ lde.entries sent fec → lde.Recorded sent peerid fec
  own : ∀ (peerid : UInt32) ln, lde.ldeNbrs[peerid]? = some ln → ∀ fec ∈ ln.recvMap, fec.Of ln.id
  answered : ∀ (peerid : UInt32) ln, lde.ldeNbrs[peerid]? = some ln → ∀ fec ∈ ln.recvReq,
    ln.enabled fec = false
  safe : ∀ fault ∈ lde.faults, fault.null = false

section Updates

variable {lde lde' : Lde}

theorem entries_updateNode (lde : Lde) (fec : Fec) (change : FecNode → FecNode) (sent : Bool)
    (other : Fec) : (lde.updateNode fec change).entries sent other =
      if fec = other then ((lde.ft[other]?).map fun fn => (change fn).entries sent).getD []
      else lde.entries sent other :=
  field_updateNode lde (fun fn => fn.entries sent) [] fec change other

theorem entries_updateNode_same (lde : Lde) (fec : Fec) {change : FecNode → FecNode}
    (keeps : ∀ fn sent, (change fn).entries sent = fn.entries sent) :
    (lde.updateNode fec change).entries = lde.entries := by
  funext sent other
  exact field_updateNode_same lde (fun fn => fn.entries sent) [] fec change (fun fn => keeps fn sent) other

theorem entries_fecAdd (lde : Lde) (fec : Fec) : (fecAdd lde fec).entries = lde.entries := by
  funext sent other
  rw [Lde.entries, Lde.entries, getElem?_fecAdd]
  split
  · cases lde.ft[other]? with
    | none => cases sent <;> rfl
    | some fn => rfl
  · rfl

/-- A neighbor after it has changed. -/
theorem getElem?_updateNbr_self {peerid : UInt32} {ln : LdeNbr} (nbr : lde.ldeNbrs[peerid]? = some ln)
    (change : LdeNbr → LdeNbr) :
    (lde.updateNbr peerid change).ldeNbrs[peerid]? = some (change ln) := by
  rw [getElem?_updateNbr, if_pos rfl, nbr]
  rfl

/-- A neighbor after another one, or the same, has changed. -/
theorem getElem?_updateNbr_of (lde : Lde) (peerid : UInt32) (change : LdeNbr → LdeNbr) {other : UInt32}
    {ln' : LdeNbr} (found : (lde.updateNbr peerid change).ldeNbrs[other]? = some ln') :
    ∃ ln, lde.ldeNbrs[other]? = some ln ∧ ln' = if peerid = other then change ln else ln := by
  rw [getElem?_updateNbr] at found
  split at found
  · rename_i same
    obtain ⟨ln, present, changed⟩ := Option.map_eq_some_iff.mp found
    exact ⟨ln, present, changed.symm.trans (if_pos same).symm⟩
  · rename_i different
    exact ⟨ln', found, (if_neg different).symm⟩

/-- A change of a neighbor that keeps its trees keeps what is recorded. -/
theorem recorded_updateNbr_same (lde : Lde) (peerid : UInt32) {change : LdeNbr → LdeNbr}
    (keeps : ∀ ln, lde.ldeNbrs[peerid]? = some ln → (change ln).records = ln.records) :
    (lde.updateNbr peerid change).Recorded = lde.Recorded := by
  funext sent other fec
  rw [Lde.Recorded, Lde.Recorded, getElem?_updateNbr]
  split
  · rename_i same
    subst same
    cases present : lde.ldeNbrs[peerid]? with
    | none => rfl
    | some ln =>
      refine propext ⟨?_, ?_⟩
      · rintro ⟨ln', changed, member⟩
        cases changed
        rw [keeps ln present] at member
        exact ⟨ln, rfl, member⟩
      · rintro ⟨ln', same, member⟩
        cases same
        refine ⟨change ln, rfl, ?_⟩
        rw [keeps ln present]
        exact member
  · rfl

theorem NbrTended.refl (ln : LdeNbr) : NbrTended ln ln := ⟨rfl, rfl, rfl, fun _ member => Or.inl member⟩

theorem Lde.Linked.tended (linked : lde.Linked) (entries : lde'.entries = lde.entries)
    (recorded : lde'.Recorded = lde.Recorded)
    (nbrs : ∀ (peerid : UInt32) ln', lde'.ldeNbrs[peerid]? = some ln' →
      ∃ ln, lde.ldeNbrs[peerid]? = some ln ∧ NbrTended ln ln')
    (faults : ∀ fault ∈ lde'.faults, fault ∈ lde.faults ∨ fault.null = false) : lde'.Linked where
  one := by
    rw [entries, recorded]
    exact linked.one
  listed := by
    rw [entries, recorded]
    exact linked.listed
  own peerid ln' found fec member := by
    obtain ⟨ln, present, tended⟩ := nbrs peerid ln' found
    rw [tended.id]
    refine linked.own peerid ln present fec ?_
    show fec ∈ ln.records false
    rw [← tended.records]
    exact member
  answered peerid ln' found fec member := by
    obtain ⟨ln, present, tended⟩ := nbrs peerid ln' found
    rw [tended.enabled]
    exact (tended.recvReq fec member).elim (linked.answered peerid ln present fec) id
  safe fault member := (faults fault member).elim (linked.safe fault) id

/-- What becomes of the trees of one neighbor. -/
theorem Lde.Linked.recordsChanged (linked : lde.Linked) {peerid : UInt32} {change : LdeNbr → LdeNbr}
    (nbrs : lde'.ldeNbrs = (lde.updateNbr peerid change).ldeNbrs) (faults : lde'.faults = lde.faults)
    (id : ∀ ln, (change ln).id = ln.id) (enabled : ∀ ln, (change ln).enabled = ln.enabled)
    (recvReq : ∀ ln, (change ln).recvReq = ln.recvReq)
    (own : ∀ ln, lde.ldeNbrs[peerid]? = some ln → ∀ fec ∈ (change ln).recvMap,
      fec ∈ ln.recvMap ∨ fec.Of ln.id)
    (one : ∀ sent peerid fec, lde'.Recorded sent peerid fec → (lde'.entries sent fec).count peerid = 1)
    (listed : ∀ sent peerid fec, peerid ∈ lde'.entries sent fec → lde'.Recorded sent peerid fec) :
    lde'.Linked where
  one := one
  listed := listed
  own other ln' found fec member := by
    rw [nbrs] at found
    obtain ⟨ln, present, rfl⟩ := getElem?_updateNbr_of lde peerid change found
    split at member
    · rename_i same
      subst same
      rw [if_pos rfl, id]
      exact (own ln present fec member).elim (linked.own peerid ln present fec) fun own => own
    · rename_i different
      rw [if_neg different]
      exact linked.own other ln present fec member
  answered other ln' found fec member := by
    rw [nbrs] at found
    obtain ⟨ln, present, rfl⟩ := getElem?_updateNbr_of lde peerid change found
    split at member
    · rename_i same
      rw [if_pos same, enabled]
      rw [recvReq] at member
      exact linked.answered other ln present fec member
    · rename_i different
      rw [if_neg different]
      exact linked.answered other ln present fec member
  safe fault member := linked.safe fault (faults ▸ member)

end Updates

/-! ### Mappings that come and go -/

section Mappings

variable (lde : Lde) (peerid : UInt32) (fec : Fec) (map : Map) (sent : Bool)

/-- Enter a mapping into a tree of a neighbor. -/
def LdeNbr.enter (ln : LdeNbr) : LdeNbr :=
  if sent then { ln with sentMap := ln.sentMap.insert fec map }
  else { ln with recvMap := ln.recvMap.insert fec map }

/-- Remove a mapping from a tree of a neighbor. -/
def LdeNbr.remove (ln : LdeNbr) : LdeNbr :=
  if sent then { ln with sentMap := ln.sentMap.erase fec }
  else { ln with recvMap := ln.recvMap.erase fec }

theorem mem_records_enter (ln : LdeNbr) (sent' : Bool) (other : Fec) :
    other ∈ (ln.enter fec map sent).records sent' ↔ sent = sent' ∧ fec = other ∨ other ∈ ln.records sent' := by
  have inserted (tree : FecTree Map) : other ∈ tree.insert fec map ↔ fec = other ∨ other ∈ tree := by
    rw [Std.ExtTreeMap.mem_insert, Std.LawfulEqCmp.compare_eq_iff_eq]
  cases sent <;> cases sent' <;> simp [LdeNbr.enter, LdeNbr.records, inserted]

theorem mem_records_remove (ln : LdeNbr) (sent' : Bool) (other : Fec) :
    other ∈ (ln.remove fec sent).records sent' ↔ ¬(sent = sent' ∧ fec = other) ∧ other ∈ ln.records sent' := by
  have erased (tree : FecTree Map) : other ∈ tree.erase fec ↔ fec ≠ other ∧ other ∈ tree := by
    rw [Std.ExtTreeMap.mem_erase, ne_eq, Std.LawfulEqCmp.compare_eq_iff_eq]
  cases sent <;> cases sent' <;> simp [LdeNbr.remove, LdeNbr.records, erased]

theorem ldeMapSet_eq : ldeMapSet lde peerid fec map sent =
    lde.updateNbr peerid (LdeNbr.enter fec map sent) := rfl

theorem ldeNbrs_ldeMapAdd : (ldeMapAdd lde peerid fec map sent).ldeNbrs =
    (lde.updateNbr peerid (LdeNbr.enter fec map sent)).ldeNbrs := by
  cases sent <;> rfl

theorem ldeNbrs_ldeMapDel : (ldeMapDel lde peerid fec sent).ldeNbrs =
    (lde.updateNbr peerid (LdeNbr.remove fec sent)).ldeNbrs := by
  cases sent <;> rfl

theorem entries_ldeMapAdd (node : fec ∈ lde.ft) (sent' : Bool) (other : Fec) :
    (ldeMapAdd lde peerid fec map sent).entries sent' other =
      if sent = sent' ∧ fec = other then peerid :: lde.entries sent' other
      else lde.entries sent' other := by
  obtain ⟨fn, found⟩ := (Tree.mem_iff_getElem? _ _).mp node
  have listed (change : FecNode → FecNode) : (lde.updateNode fec change).entries sent' other =
      if fec = other then (change fn).entries sent' else lde.entries sent' other := by
    rw [entries_updateNode]
    split
    · rename_i same
      rw [← same, found]
      rfl
    · rfl
  have before : lde.entries sent' fec = fn.entries sent' := by
    rw [Lde.entries, found]
    rfl
  by_cases same : fec = other
  · subst same
    rw [before]
    cases sent <;> cases sent' <;> refine (listed _).trans ?_ <;> simp [FecNode.entries]
  · rw [if_neg fun both => same both.2]
    cases sent <;> refine (listed _).trans (if_neg same)

theorem entries_ldeMapDel (sent' : Bool) (other : Fec) :
    (ldeMapDel lde peerid fec sent).entries sent' other =
      if sent = sent' ∧ fec = other then (lde.entries sent' other).erase peerid
      else lde.entries sent' other := by
  by_cases same : fec = other
  · subst same
    cases sent <;> cases sent' <;> refine (entries_updateNode lde fec _ _ fec).trans ?_ <;>
      cases present : lde.ft[fec]? <;> simp [FecNode.entries, Lde.entries, present]
  · rw [if_neg fun both => same both.2]
    cases sent <;> exact (entries_updateNode lde fec _ _ other).trans (if_neg same)

/-- A change of the trees of one neighbor, seen from all of them. -/
theorem recorded_of_updateNbr {lde' : Lde} {change : LdeNbr → LdeNbr}
    (nbrs : lde'.ldeNbrs = (lde.updateNbr peerid change).ldeNbrs) (sent' : Bool) (other : UInt32)
    (fec' : Fec) : lde'.Recorded sent' other fec' ↔ ∃ ln, lde.ldeNbrs[other]? = some ln ∧
      fec' ∈ (if peerid = other then change ln else ln).records sent' := by
  rw [Lde.Recorded, nbrs]
  constructor
  · rintro ⟨ln', found, member⟩
    obtain ⟨ln, present, rfl⟩ := getElem?_updateNbr_of lde peerid change found
    exact ⟨ln, present, member⟩
  · rintro ⟨ln, present, member⟩
    refine ⟨_, ?_, member⟩
    rw [getElem?_updateNbr, present]
    split <;> rfl

variable {lde peerid fec sent}

theorem recorded_enter {lde' : Lde} (nbr : peerid ∈ lde.ldeNbrs)
    (nbrs : lde'.ldeNbrs = (lde.updateNbr peerid (LdeNbr.enter fec map sent)).ldeNbrs) (sent' : Bool)
    (other : UInt32) (fec' : Fec) : lde'.Recorded sent' other fec' ↔
      (sent = sent' ∧ peerid = other ∧ fec = fec') ∨ lde.Recorded sent' other fec' := by
  obtain ⟨ln, present⟩ := (Tree.mem_iff_getElem? _ _).mp nbr
  rw [recorded_of_updateNbr lde peerid nbrs]
  by_cases same : peerid = other
  · subst same
    simp only [if_true, mem_records_enter, Lde.Recorded, present, true_and]
    constructor
    · rintro ⟨ln', found, entered | member⟩
      · exact Or.inl entered
      · exact Or.inr ⟨ln', found, member⟩
    · rintro (entered | ⟨ln', found, member⟩)
      · exact ⟨ln, rfl, Or.inl entered⟩
      · exact ⟨ln', found, Or.inr member⟩
  · simp only [same, false_and, and_false, false_or]
    rfl

theorem recorded_remove {lde' : Lde}
    (nbrs : lde'.ldeNbrs = (lde.updateNbr peerid (LdeNbr.remove fec sent)).ldeNbrs) (sent' : Bool)
    (other : UInt32) (fec' : Fec) : lde'.Recorded sent' other fec' ↔
      ¬(sent = sent' ∧ peerid = other ∧ fec = fec') ∧ lde.Recorded sent' other fec' := by
  rw [recorded_of_updateNbr lde peerid nbrs]
  by_cases same : peerid = other
  · subst same
    simp only [if_true, mem_records_remove, Lde.Recorded, true_and]
    constructor
    · rintro ⟨ln, present, kept, member⟩
      exact ⟨kept, ln, present, member⟩
    · rintro ⟨kept, ln, present, member⟩
      exact ⟨ln, present, kept, member⟩
  · simp only [same, false_and, and_false, not_false_iff, true_and]
    rfl

theorem Lde.Linked.mapAdd (linked : lde.Linked) {ln : LdeNbr} (node : fec ∈ lde.ft)
    (nbr : lde.ldeNbrs[peerid]? = some ln) (fresh : fec ∉ ln.records sent)
    (own : sent = false → fec.Of ln.id) : (ldeMapAdd lde peerid fec map sent).Linked := by
  have nbrs := ldeNbrs_ldeMapAdd lde peerid fec map sent
  have recorded := recorded_enter map ((Tree.mem_iff_getElem? _ _).mpr ⟨ln, nbr⟩) nbrs
  have entries := entries_ldeMapAdd lde peerid fec map sent node
  have unlisted : peerid ∉ lde.entries sent fec := by
    intro member
    obtain ⟨ln', present, member⟩ := linked.listed sent peerid fec member
    cases nbr.symm.trans present
    exact fresh member
  refine linked.recordsChanged nbrs ?_ ?_ ?_ ?_ ?_ ?_ ?_
  · cases sent <;> rfl
  · cases sent <;> exact fun _ => rfl
  · cases sent <;> exact fun _ => rfl
  · cases sent <;> exact fun _ => rfl
  · intro ln' present other member
    cases nbr.symm.trans present
    refine ((mem_records_enter fec map sent ln false other).mp member).symm.imp id fun entered => ?_
    rw [← entered.2]
    exact own entered.1
  · intro sent' other fec' holds
    rw [entries]
    rcases (recorded sent' other fec').mp holds with ⟨rfl, rfl, rfl⟩ | before
    · rw [if_pos ⟨rfl, rfl⟩, List.count_cons_self, List.count_eq_zero_of_not_mem unlisted]
    · have count := linked.one sent' other fec' before
      split
      · rename_i same
        obtain ⟨rfl, rfl⟩ := same
        have different : peerid ≠ other := by
          rintro rfl
          exact unlisted (List.count_pos_iff.mp (count ▸ Nat.one_pos))
        rw [List.count_cons_of_ne different, count]
      · exact count
  · intro sent' other fec' member
    rw [entries] at member
    rw [recorded]
    split at member
    · rename_i same
      rcases List.mem_cons.mp member with rfl | before
      · exact Or.inl ⟨same.1, rfl, same.2⟩
      · exact Or.inr (linked.listed sent' other fec' before)
    · exact Or.inr (linked.listed sent' other fec' member)

theorem Lde.Linked.mapSet (linked : lde.Linked) (recorded : lde.Recorded sent peerid fec) :
    (ldeMapSet lde peerid fec map sent).Linked := by
  obtain ⟨ln, present, known⟩ := recorded
  have same (sent' : Bool) (other : UInt32) (fec' : Fec) :
      (ldeMapSet lde peerid fec map sent).Recorded sent' other fec' ↔ lde.Recorded sent' other fec' := by
    rw [ldeMapSet_eq, recorded_enter map ((Tree.mem_iff_getElem? _ _).mpr ⟨ln, present⟩) rfl]
    refine or_iff_right_of_imp ?_
    rintro ⟨rfl, rfl, rfl⟩
    exact ⟨ln, present, known⟩
  refine linked.recordsChanged rfl rfl ?_ ?_ ?_ ?_ (fun sent' other fec' holds => ?_)
    fun sent' other fec' member => ?_
  · cases sent <;> exact fun _ => rfl
  · cases sent <;> exact fun _ => rfl
  · cases sent <;> exact fun _ => rfl
  · intro ln' present' other member
    cases present.symm.trans present'
    refine ((mem_records_enter fec map sent ln false other).mp member).symm.imp id fun entered => ?_
    obtain ⟨rfl, rfl⟩ := entered
    exact linked.own peerid ln present fec known
  · exact linked.one sent' other fec' ((same sent' other fec').mp holds)
  · exact (same sent' other fec').mpr (linked.listed sent' other fec' member)

theorem Lde.Linked.mapDel (linked : lde.Linked) : (ldeMapDel lde peerid fec sent).Linked := by
  have nbrs := ldeNbrs_ldeMapDel lde peerid fec sent
  have recorded := recorded_remove nbrs
  have entries := entries_ldeMapDel lde peerid fec sent
  refine linked.recordsChanged nbrs ?_ ?_ ?_ ?_ ?_ ?_ ?_
  · cases sent <;> rfl
  · cases sent <;> exact fun _ => rfl
  · cases sent <;> exact fun _ => rfl
  · cases sent <;> exact fun _ => rfl
  · intro ln present other member
    exact Or.inl ((mem_records_remove fec sent ln false other).mp member).2
  · intro sent' other fec' holds
    obtain ⟨kept, before⟩ := (recorded sent' other fec').mp holds
    have count := linked.one sent' other fec' before
    rw [entries]
    split
    · rename_i same
      rw [List.count_erase_of_ne, count]
      exact fun equal => kept ⟨same.1, equal.symm, same.2⟩
    · exact count
  · intro sent' other fec' member
    rw [entries] at member
    rw [recorded]
    split at member
    · rename_i same
      have before := linked.listed sent' other fec' (List.mem_of_mem_erase member)
      refine ⟨?_, before⟩
      rintro ⟨-, rfl, -⟩
      have count := linked.one sent' peerid fec' before
      have gone : ((lde.entries sent' fec').erase peerid).count peerid = 0 := by
        rw [List.count_erase_self, count]
      exact List.count_eq_zero.mp gone member
    · rename_i different
      exact ⟨fun all => different ⟨all.1, all.2.2⟩, linked.listed sent' other fec' member⟩

end Mappings

section Edited

variable {lde lde' : Lde}

theorem Edits.linked (edits : Edits lde lde') (linked : lde.Linked) : lde'.Linked := by
  induction edits with
  | refl => exact linked
  | trans _ _ first second => exact second (first linked)
  | @aside lde lde' ft ldeNbrs faults =>
    have entries : lde'.entries = lde.entries := by
      funext sent fec
      rw [Lde.entries, ft]
      rfl
    have recorded : lde'.Recorded = lde.Recorded := by
      funext sent peerid fec
      rw [Lde.Recorded, ldeNbrs]
      rfl
    refine linked.tended entries recorded (fun peerid ln found => ⟨ln, ldeNbrs ▸ found, .refl ln⟩) ?_
    exact fun fault member => Or.inl (faults ▸ member)
  | fail lde harmless =>
    refine linked.tended rfl rfl (fun peerid ln found => ⟨ln, found, .refl ln⟩) fun fault member => ?_
    refine (List.mem_append.mp member).imp id fun last => ?_
    rw [List.mem_singleton.mp last]
    exact harmless
  | tend lde peerid tended =>
    refine linked.tended rfl
      (recorded_updateNbr_same lde peerid fun ln present => (tended ln present).records)
      (fun other ln' found => ?_) fun fault member => Or.inl member
    obtain ⟨ln, present, rfl⟩ := getElem?_updateNbr_of lde peerid _ found
    refine ⟨ln, present, ?_⟩
    split
    · rename_i same
      subst same
      exact tended ln present
    · exact .refl ln
  | updateNode lde fec entries =>
    exact linked.tended (entries_updateNode_same lde fec entries) rfl
      (fun peerid ln found => ⟨ln, found, .refl ln⟩) fun fault member => Or.inl member
  | fecAdd lde fec =>
    exact linked.tended (entries_fecAdd lde fec) rfl
      (fun peerid ln found => ⟨ln, found, .refl ln⟩) fun fault member => Or.inl member
  | mapAdd lde map node nbr fresh own => exact linked.mapAdd map node nbr fresh own
  | mapSet lde map recorded => exact linked.mapSet map recorded
  | mapDel lde peerid fec sent => exact linked.mapDel

end Edited

end Ldpd
