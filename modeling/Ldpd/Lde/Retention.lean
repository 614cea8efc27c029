/-
This file is about liberal label retention: a mapping that the engine has recorded
from a neighbor is the one it forwards with, at every nexthop of that neighbor.

Both withdraw handlers take the label out of use whatever label the withdraw
carries, but remove the record only if the withdraw names its label or none. A
withdraw that names another label therefore leaves a record that is no longer
used. As long as no such withdraw arrives, every record is used.
-/

import Ldpd.Lde.NoStale

namespace Ldpd

/-! ### Records that are used -/

/-- A mapping recorded from a neighbor behind a nexthop of a route is the label in use
there. -/
def Bindings.Used (b : Bindings) : Prop :=
  ∀ fec af, fec.af = some af → ∀ fnh ∈ b.nexthops fec, ∀ peerid ln me, b.nbr peerid = some ln →
    ln.owns fec fnh = true → ln.recvMap[fec]? = some me → fnh.remoteLabel = me.label

/-- The same, leaving out the mapping of one neighbor for one FEC. -/
def Bindings.UsedExcept (b : Bindings) (exempt : UInt32) (exemptFec : Fec) : Prop :=
  ∀ fec af, fec.af = some af → ∀ fnh ∈ b.nexthops fec, ∀ peerid ln me, b.nbr peerid = some ln →
    ln.owns fec fnh = true → ln.recvMap[fec]? = some me → ¬(peerid = exempt ∧ fec = exemptFec) →
      fnh.remoteLabel = me.label

theorem Bindings.Used.except {b : Bindings} (used : b.Used) (peerid : UInt32) (fec : Fec) :
    b.UsedExcept peerid fec :=
  fun other af family fnh member peer ln me found owned record _ =>
    used other af family fnh member peer ln me found owned record

/-- No two neighbors advertise the same address. -/
def Bindings.DisjointAddrs (b : Bindings) : Prop :=
  ∀ peerid other ln ln', b.nbr peerid = some ln → b.nbr other = some ln' →
    ∀ addr ∈ ln.addrList, addr ∈ ln'.addrList → peerid = other

/-- A label is the one recorded from a neighbor for a FEC, or no label, or the record is not in
use anyway because no nexthop leads to the neighbor. -/
def Bindings.Names (b : Bindings) (peerid label : UInt32) (fec : Fec) : Prop :=
  ∀ ln, b.nbr peerid = some ln → ∀ fnh ∈ b.nexthops fec, ln.owns fec fnh = true →
    ∀ me, ln.recvMap[fec]? = some me → label = noLabel ∨ label = me.label

/-- A withdraw names the label of every route it takes a label from. -/
def Bindings.WithdrawNames (b : Bindings) : LdeEvent → Prop
  | .labelWithdraw peerid map =>
    ∀ ln, b.nbr peerid = some ln → ∀ fec af, fec.af = some af →
      (map.fec = .wildcard ∨ fec = ldeMap2fec map ln.id) → b.Names peerid map.label fec
  | _ => True

/-- What the records are like, besides being used: each is for the FEC it is filed under, and
a neighbor lists an address once. -/
structure Bindings.Filed (b : Bindings) : Prop where
  recorded : ∀ peerid ln fec me, b.nbr peerid = some ln → ln.recvMap[fec]? = some me →
    ldeMap2fec me ln.id = fec
  nodup : ∀ peerid ln, b.nbr peerid = some ln → ln.addrList.Nodup

/-- In the family of routes, a nexthop belongs to one neighbor. -/
theorem Bindings.DisjointAddrs.eq_of_owns {b : Bindings} (disjoint : b.DisjointAddrs)
    {peerid other : UInt32} {ln ln' : NbrView} (found : b.nbr peerid = some ln)
    (found' : b.nbr other = some ln') {fec : Fec} {af : Af} (family : fec.af = some af)
    {fnh : FecNh} (owned : ln.owns fec fnh = true) (owned' : ln'.owns fec fnh = true) :
    peerid = other := by
  cases fec with
  | ipv4 | ipv6 =>
    exact disjoint peerid other ln ln' found found' fnh.nexthop (List.contains_iff_mem.mp owned)
      (List.contains_iff_mem.mp owned')
  | pwid => exact absurd family (by simp [Fec.af])

theorem Bindings.nbr_updateNbr_cases {b : Bindings} {peerid : UInt32} {change : NbrView → NbrView}
    {other : UInt32} {ln : NbrView} (found : (b.updateNbr peerid change).nbr other = some ln) :
    (other = peerid ∧ ∃ origin, b.nbr peerid = some origin ∧ ln = change origin) ∨
      (other ≠ peerid ∧ b.nbr other = some ln) := by
  by_cases same : other = peerid
  · subst same
    refine Or.inl ⟨rfl, ?_⟩
    cases present : b.nbr other with
    | none =>
      have missing : (b.updateNbr other change).nbr other = none := by
        show Function.update b.nbr other ((b.nbr other).map change) other = none
        rw [Function.update_self, present]
        rfl
      exact absurd (missing.symm.trans found) (by simp)
    | some origin =>
      rw [Bindings.updateNbr_nbr_self present, Option.some_inj] at found
      exact ⟨origin, rfl, found.symm⟩
  · exact Or.inr ⟨same, (Bindings.updateNbr_nbr_of_ne b same change).symm.trans found⟩

/-! ### The records of the machine -/

theorem Bindings.Filed.updateNbr {b : Bindings} (filed : b.Filed) (peerid : UInt32)
    (change : NbrView → NbrView)
    (recorded : ∀ ln fec me, b.nbr peerid = some ln → (change ln).recvMap[fec]? = some me →
      ldeMap2fec me (change ln).id = fec)
    (nodup : ∀ ln, b.nbr peerid = some ln → (change ln).addrList.Nodup) :
    (b.updateNbr peerid change).Filed where
  recorded other ln fec me found record := by
    rcases Bindings.nbr_updateNbr_cases found with ⟨-, origin, present, rfl⟩ | ⟨-, present⟩
    · exact recorded origin fec me present record
    · exact filed.recorded other ln fec me present record
  nodup other ln found := by
    rcases Bindings.nbr_updateNbr_cases found with ⟨-, origin, present, rfl⟩ | ⟨-, present⟩
    · exact nodup origin present
    · exact filed.nodup other ln present

theorem Bindings.Filed.relabel {b : Bindings} (filed : b.Filed) (test : Fec → FecNh → Bool)
    (label : Fec → UInt32) : (b.relabel test label).Filed :=
  ⟨filed.recorded, filed.nodup⟩

theorem Bindings.Filed.learn {b : Bindings} (filed : b.Filed) {peerid : UInt32} {ln : NbrView}
    (found : b.nbr peerid = some ln) (map : Map) :
    (b.learn peerid ln (ldeMap2fec map ln.id) map).Filed := by
  refine (filed.relabel _ _).updateNbr peerid _ (fun origin fec me present record => ?_)
    fun origin present => filed.nodup peerid origin present
  have same : some ln = some origin := found.symm.trans present
  rw [Option.some_inj] at same
  subst same
  by_cases equal : fec = ldeMap2fec map ln.id
  · subst equal
    rw [recvMap_record_self, Option.some_inj] at record
    rw [← record]
    rfl
  · rw [recvMap_record_of_ne equal] at record
    exact filed.recorded peerid ln fec me found record

theorem recvMap_of_forget {fec other : Fec} {label : UInt32} {ln : NbrView} {me : Map}
    (record : (ln.forget fec label).recvMap[other]? = some me) : ln.recvMap[other]? = some me := by
  by_cases same : other = fec
  · subst same
    unfold NbrView.forget at record
    split at record
    · exact record
    · split_ifs at record
      · rw [Tree.getElem?_erase, if_pos rfl] at record
        exact absurd record (by simp)
      · exact record
  · rw [recvMap_forget_of_ne same] at record
    exact record

theorem Bindings.Filed.unlearn {b : Bindings} (filed : b.Filed) (peerid : UInt32) (ln : NbrView)
    (fec : Fec) (label : UInt32) : (b.unlearn peerid ln fec label).Filed := by
  refine (filed.relabel _ _).updateNbr peerid _ (fun origin other me present record => ?_)
    fun origin present => ?_
  · rw [← (sameOwner_forget fec label origin).1]
    exact filed.recorded peerid origin other me present (recvMap_of_forget record)
  · rw [← (sameOwner_forget fec label origin).2]
    exact filed.nodup peerid origin present

theorem Bindings.Filed.unlearnAll {b : Bindings} (filed : b.Filed) (peerid : UInt32) (ln : NbrView)
    (label : UInt32) (fecs : List Fec) : (b.unlearnAll peerid ln label fecs).Filed := by
  unfold Bindings.unlearnAll
  induction fecs generalizing b with
  | nil => exact filed
  | cons fec rest inductionHypothesis => exact inductionHypothesis (filed.unlearn peerid ln fec label)

theorem Bindings.Filed.setNbr {b : Bindings} (filed : b.Filed) (peerid : UInt32)
    (ln : Option NbrView) (recorded : ∀ ln', ln = some ln' → ∀ fec : Fec, ln'.recvMap[fec]? = none)
    (nodup : ∀ ln', ln = some ln' → ln'.addrList.Nodup) : (b.setNbr peerid ln).Filed := by
  have cases {other : UInt32} {ln' : NbrView} (found : (b.setNbr peerid ln).nbr other = some ln') :
      ln = some ln' ∨ b.nbr other = some ln' := by
    by_cases same : other = peerid
    · subst same
      have self : (b.setNbr other ln).nbr other = ln := Function.update_self _ _ _
      exact Or.inl (self.symm.trans found)
    · have kept : (b.setNbr peerid ln).nbr other = b.nbr other := Function.update_of_ne same _ _
      exact Or.inr (kept.symm.trans found)
  constructor
  · intro other ln' fec me found record
    rcases cases found with fresh | present
    · exact absurd ((recorded ln' fresh fec).symm.trans record) (by simp)
    · exact filed.recorded other ln' fec me present record
  · intro other ln' found
    rcases cases found with fresh | present
    · exact nodup ln' fresh
    · exact filed.nodup other ln' present

theorem Bindings.Filed.of_nbr {b b' : Bindings} (filed : b.Filed) (same : b'.nbr = b.nbr) :
    b'.Filed where
  recorded peerid ln fec me found := filed.recorded peerid ln fec me (same ▸ found)
  nodup peerid ln found := filed.nodup peerid ln (same ▸ found)

theorem Bindings.Insert.filed {b b' : Bindings} (filed : b.Filed) {fec : Fec}
    {nexthop : LdpdAddr} {priority : UInt8} {data : Option Nat} {label : UInt32}
    (inserted : b.Insert fec nexthop priority data label b') : b'.Filed := by
  have added : (b.addNexthop fec nexthop priority data label).Filed :=
    filed.of_nbr (Bindings.addNexthop_nbr b ..)
  cases inserted with
  | listed => exact filed
  | unowned | unmapped | ignored => exact added
  | mapped fresh peerid ln me found =>
    exact added.learn ((congrFun (Bindings.addNexthop_nbr b ..) peerid).trans found) me

theorem Bindings.Remove.nbr {b b' : Bindings} {fec : Fec} {nexthop : LdpdAddr} {priority : UInt8}
    (removed : b.Remove fec nexthop priority b') : b'.nbr = b.nbr := by
  cases removed with
  | unlisted => rfl
  | listed fnh => exact Bindings.removeNexthop_nbr b fec fnh

theorem Bindings.Step.filed {b b' : Bindings} {event : LdeEvent} (step : b.Step event b')
    (filed : b.Filed) : b'.Filed := by
  cases step with
  | invisible => exact filed
  | networkAdd kr label _ _ inserted => exact inserted.filed filed
  | networkDel kr _ removed => exact filed.of_nbr removed.nbr
  | learn peerid ln map found => exact filed.learn found map
  | unlearn peerid ln map => exact filed.unlearn peerid ln _ map.label
  | unlearnAll peerid ln map _ _ fecs => exact filed.unlearnAll peerid ln map.label fecs
  | addressAdd peerid ln addr found fresh =>
    refine (filed.updateNbr peerid _ (fun origin fec me present => ?_) fun origin present => ?_).relabel
      _ _
    · exact filed.recorded peerid origin fec me present
    · have same : some ln = some origin := found.symm.trans present
      rw [Option.some_inj] at same
      subst same
      exact List.nodup_append.mpr ⟨filed.nodup peerid ln found, by simp,
        fun item listed other single same => fresh (by simp_all)⟩
  | addressDel peerid ln addr =>
    refine (filed.relabel _ _).updateNbr peerid _ (fun origin fec me present => ?_)
      fun origin present => ?_
    · exact filed.recorded peerid origin fec me present
    · exact (filed.nodup peerid origin present).erase addr
  | neighborUp peerid id =>
    refine filed.setNbr peerid _ (fun ln' same fec => ?_) fun ln' same => ?_
    · rw [← Option.some_inj.mp same]
      exact Std.ExtTreeMap.getElem?_empty
    · rw [← Option.some_inj.mp same]
      exact List.nodup_nil
  | neighborDown peerid ln =>
    exact (filed.relabel _ _).setNbr peerid none (fun _ none => absurd none (by simp))
      fun _ none => absurd none (by simp)
  | pwNew data conf pwType fresh label _ _ inserted =>
    have entered : (b.setPw data (some (.pwid pwType conf.pwid conf.lsrId))).Filed :=
      filed.of_nbr rfl
    exact inserted.filed entered
  | pwDel data type pwid lsrId known middle removed => exact filed.of_nbr removed.nbr

/-! ### The labels of the machine -/

/-- Learning a mapping puts its label to use at the nexthops of the neighbor, and leaves the
nexthops of the other neighbors alone. -/
theorem Bindings.UsedExcept.learn {b : Bindings} {peerid : UInt32} {fec : Fec}
    (used : b.UsedExcept peerid fec) (disjoint : b.DisjointAddrs) {ln : NbrView}
    (found : b.nbr peerid = some ln) (map : Map) : (b.learn peerid ln fec map).Used := by
  intro other af family fnh member peer ln' me found' owned record
  have member' : fnh ∈ (b.relabel (only fec (ln.owns fec)) fun _ => map.label).nexthops other := member
  rcases Bindings.nbr_updateNbr_cases (b := b.relabel _ _) found' with
    ⟨rfl, origin, present, rfl⟩ | ⟨different, present⟩
  · have same : some ln = some origin := found.symm.trans present
    rw [Option.some_inj] at same
    subst same
    rw [owns_record] at owned
    rcases Bindings.mem_relabel member' with ⟨old, kept⟩ | ⟨origin, -, passes, rfl⟩
    · have apart : other ≠ fec := by
        rintro rfl
        rw [only_self, owned] at kept
        exact absurd kept (by simp)
      rw [recvMap_record_of_ne apart] at record
      exact used other af family fnh old peer ln me found owned record fun both => apart both.2
    · rw [only, Bool.and_eq_true, decide_eq_true_eq] at passes
      obtain ⟨rfl, -⟩ := passes
      rw [recvMap_record_self, Option.some_inj] at record
      rw [← record]
  · rcases Bindings.mem_relabel member' with ⟨old, -⟩ | ⟨origin, -, passes, rfl⟩
    · exact used other af family fnh old peer ln' me present owned record
        fun both => different both.1
    · rw [only, Bool.and_eq_true, decide_eq_true_eq] at passes
      obtain ⟨rfl, owner⟩ := passes
      rw [labelBlind_owns] at owned
      exact absurd (disjoint.eq_of_owns present found family owned owner) different

/-- Giving up a mapping that is recorded with the label named, or with any label if none is
named, takes it out of use together with its record. -/
theorem Bindings.Used.unlearn {b : Bindings} (used : b.Used) (disjoint : b.DisjointAddrs)
    {peerid : UInt32} {ln origin : NbrView} (found : b.nbr peerid = some origin)
    (owner : ln.SameOwner origin) (fec : Fec) (label : UInt32)
    (names : ∀ af, fec.af = some af → b.Names peerid label fec) : (b.unlearn peerid ln fec label).Used := by
  intro other af family fnh member peer ln' me found' owned record
  have member' : fnh ∈ (b.relabel (only fec (ln.owns fec)) fun _ => noLabel).nexthops other := member
  rcases Bindings.nbr_updateNbr_cases (b := b.relabel _ _) found' with
    ⟨rfl, origin', present, rfl⟩ | ⟨different, present⟩
  · have same : some origin = some origin' := found.symm.trans present
    rw [Option.some_inj] at same
    subst same
    rw [owns_forget] at owned
    rcases Bindings.mem_relabel member' with ⟨old, -⟩ | ⟨item, listed, passes, rfl⟩
    · exact used other af family fnh old peer origin me found owned (recvMap_of_forget record)
    · -- the record of a nexthop that has lost its label is gone
      rw [only, Bool.and_eq_true, decide_eq_true_eq] at passes
      obtain ⟨rfl, -⟩ := passes
      rw [labelBlind_owns] at owned
      have recorded := recvMap_of_forget record
      have named := names af family origin found item listed owned me recorded
      rw [NbrView.forget, recorded] at record
      dsimp only at record
      rw [if_pos named] at record
      rw [Tree.getElem?_erase, if_pos rfl] at record
      exact absurd record (by simp)
  · rcases Bindings.mem_relabel member' with ⟨old, -⟩ | ⟨item, -, passes, rfl⟩
    · exact used other af family fnh old peer ln' me present owned record
    · rw [only, Bool.and_eq_true, decide_eq_true_eq] at passes
      obtain ⟨rfl, holder⟩ := passes
      rw [labelBlind_owns] at owned
      rw [owner.owns] at holder
      exact absurd (disjoint.eq_of_owns present found family owned holder) different

theorem Bindings.DisjointAddrs.unlearn {b : Bindings} (disjoint : b.DisjointAddrs) (peerid : UInt32)
    (ln : NbrView) (fec : Fec) (label : UInt32) :
    (b.unlearn peerid ln fec label).DisjointAddrs := by
  have origin {other : UInt32} {ln' : NbrView}
      (found : (b.unlearn peerid ln fec label).nbr other = some ln') :
      ∃ old, b.nbr other = some old ∧ old.addrList = ln'.addrList := by
    rcases Bindings.nbr_updateNbr_cases (b := b.relabel _ _) found with
      ⟨rfl, old, present, rfl⟩ | ⟨-, present⟩
    · exact ⟨old, present, (sameOwner_forget fec label old).2⟩
    · exact ⟨ln', present, rfl⟩
  intro first second ln₁ ln₂ found₁ found₂ addr listed₁ listed₂
  obtain ⟨old₁, present₁, same₁⟩ := origin found₁
  obtain ⟨old₂, present₂, same₂⟩ := origin found₂
  exact disjoint first second old₁ old₂ present₁ present₂ addr (same₁ ▸ listed₁) (same₂ ▸ listed₂)

/-- Giving up one mapping does not change what the withdraw names for the others. -/
theorem Bindings.Names.unlearn {b : Bindings} {peerid label : UInt32} {fec : Fec}
    (names : b.Names peerid label fec) (ln : NbrView) (other : Fec) :
    (b.unlearn peerid ln other label).Names peerid label fec := by
  intro ln' found fnh member owned me record
  have member' : fnh ∈ (b.relabel (only other (ln.owns other)) fun _ => noLabel).nexthops fec := member
  rcases Bindings.nbr_updateNbr_cases (b := b.relabel _ _) found with
    ⟨-, origin, present, rfl⟩ | ⟨different, -⟩
  · rw [owns_forget] at owned
    have recorded := recvMap_of_forget record
    rcases Bindings.mem_relabel member' with ⟨old, -⟩ | ⟨item, old, -, rfl⟩
    · exact names origin present fnh old owned me recorded
    · rw [labelBlind_owns] at owned
      exact names origin present item old owned me recorded
  · exact absurd rfl different

theorem Bindings.Used.unlearnAll {b : Bindings} (used : b.Used) (disjoint : b.DisjointAddrs)
    {peerid : UInt32} {ln origin : NbrView} (found : b.nbr peerid = some origin)
    (owner : ln.SameOwner origin) (label : UInt32) (fecs : List Fec)
    (names : ∀ fec af, fec.af = some af → b.Names peerid label fec) :
    (b.unlearnAll peerid ln label fecs).Used := by
  unfold Bindings.unlearnAll
  induction fecs generalizing b origin with
  | nil => exact used
  | cons fec rest inductionHypothesis =>
    have changed : (b.unlearn peerid ln fec label).nbr peerid = some (origin.forget fec label) :=
      Bindings.updateNbr_nbr_self (b := b.relabel _ _) found _
    have kept := sameOwner_forget fec label origin
    exact inductionHypothesis (used.unlearn disjoint found owner fec label (names fec))
      (disjoint.unlearn peerid ln fec label) changed
      ⟨owner.1.trans kept.1, owner.2.trans kept.2⟩
      fun other af family => (names other af family).unlearn ln fec

/-- In the family of routes, a neighbor owns the nexthops at its addresses. -/
theorem mem_addrList_of_owns {ln : NbrView} {fec : Fec} {af : Af} (family : fec.af = some af)
    {fnh : FecNh} (owned : ln.owns fec fnh = true) : fnh.nexthop ∈ ln.addrList := by
  cases fec with
  | ipv4 | ipv6 => exact List.contains_iff_mem.mp owned
  | pwid => exact absurd family (by simp [Fec.af])

theorem owns_of_mem_addrList {ln : NbrView} {fec : Fec} {af : Af} (family : fec.af = some af)
    {fnh : FecNh} (listed : fnh.nexthop ∈ ln.addrList) : ln.owns fec fnh = true := by
  cases fec with
  | ipv4 | ipv6 => exact List.contains_iff_mem.mpr listed
  | pwid => exact absurd family (by simp [Fec.af])

theorem Bindings.Used.addressAdd {b : Bindings} (used : b.Used) (wellFormed : b.WellFormed)
    {peerid : UInt32} {ln : NbrView} (found : b.nbr peerid = some ln) (addr : LdpdAddr)
    (disjoint : ((b.updateNbr peerid (NbrView.readdress (· ++ [addr]))).relabel
      (fun fec fnh => decide (fec ∈ ln.recvMap) && atAddress addr fec fnh)
      (ln.labelOf false)).DisjointAddrs) :
    ((b.updateNbr peerid (NbrView.readdress (· ++ [addr]))).relabel
      (fun fec fnh => decide (fec ∈ ln.recvMap) && atAddress addr fec fnh)
      (ln.labelOf false)).Used := by
  intro fec af family fnh member peer ln' me found' owned record
  have listed := mem_addrList_of_owns family owned
  rcases Bindings.mem_relabel member with ⟨old, kept⟩ | ⟨origin, old, passes, rfl⟩
  · rcases Bindings.nbr_updateNbr_cases (b := b) found' with
      ⟨rfl, origin, present, rfl⟩ | ⟨different, present⟩
    · have same : some ln = some origin := found.symm.trans present
      rw [Option.some_inj] at same
      subst same
      have recorded : ln.recvMap[fec]? = some me := record
      rcases List.mem_append.mp listed with before | new
      · exact used fec af family fnh old peer ln me found (owns_of_mem_addrList family before) recorded
      · -- a nexthop at the new address would have been relabelled
        have address : fnh.nexthop = addr := List.mem_singleton.mp new
        have sameFamily := wellFormed.network fec af family fnh old
        have known : fec ∈ ln.recvMap := (Tree.mem_iff_getElem? _ _).mpr ⟨me, recorded⟩
        simp [atAddress, family, ← address, sameFamily, known] at kept
    · exact used fec af family fnh old peer ln' me present owned record
  · rw [Bool.and_eq_true, decide_eq_true_eq, atAddress, Bool.and_eq_true, decide_eq_true_eq,
      decide_eq_true_eq] at passes
    have changed : (b.updateNbr peerid (NbrView.readdress (· ++ [addr]))).nbr peerid =
        some (ln.readdress (· ++ [addr])) := Bindings.updateNbr_nbr_self found _
    have same : peer = peerid := by
      refine disjoint peer peerid ln' _ found' changed origin.nexthop listed ?_
      rw [passes.2.2]
      exact List.mem_append.mpr (Or.inr (List.mem_singleton.mpr rfl))
    rw [same] at found'
    have equal : ln' = ln.readdress (· ++ [addr]) := Option.some_inj.mp (found'.symm.trans changed)
    have recorded : ln.recvMap[fec]? = some me := by
      rw [equal] at record
      exact record
    show ln.labelOf false fec = me.label
    rw [NbrView.labelOf, recorded]
    rfl

theorem Bindings.Used.addressDel {b : Bindings} (used : b.Used) (disjoint : b.DisjointAddrs)
    (filed : b.Filed) {peerid : UInt32} {ln : NbrView} (found : b.nbr peerid = some ln)
    {addr : LdpdAddr} (known : addr ∈ ln.addrList) :
    ((b.relabel (fun fec fnh => decide (fec ∈ ln.recvMap) && atAddress addr fec fnh)
      fun _ => noLabel).updateNbr peerid (NbrView.readdress (·.erase addr))).Used := by
  intro fec af family fnh member peer ln' me found' owned record
  have member' : fnh ∈ (b.relabel (fun fec fnh =>
    decide (fec ∈ ln.recvMap) && atAddress addr fec fnh) fun _ => noLabel).nexthops fec := member
  have listed := mem_addrList_of_owns family owned
  rcases Bindings.nbr_updateNbr_cases (b := b.relabel _ _) found' with
    ⟨rfl, origin, present, rfl⟩ | ⟨different, present⟩
  · have same : some ln = some origin := found.symm.trans present
    rw [Option.some_inj] at same
    subst same
    have remains := (filed.nodup peer ln found).mem_erase_iff.mp listed
    rcases Bindings.mem_relabel member' with ⟨old, -⟩ | ⟨origin, old, passes, rfl⟩
    · exact used fec af family fnh old peer ln me found (owns_of_mem_addrList family remains.2) record
    · rw [Bool.and_eq_true, atAddress, Bool.and_eq_true] at passes
      exact absurd (of_decide_eq_true passes.2.2) remains.1
  · rcases Bindings.mem_relabel member' with ⟨old, -⟩ | ⟨origin, old, passes, rfl⟩
    · exact used fec af family fnh old peer ln' me present owned record
    · rw [Bool.and_eq_true, atAddress, Bool.and_eq_true] at passes
      have address : origin.nexthop = addr := of_decide_eq_true passes.2.2
      exact absurd (disjoint peer peerid ln' ln present found addr (address ▸ listed) known) different

theorem Bindings.Used.neighborUp {b : Bindings} (used : b.Used) (peerid : UInt32) (id : InAddr) :
    (b.setNbr peerid (some { id, addrList := [], recvMap := ∅ })).Used := by
  intro fec af family fnh member peer ln me found owned record
  by_cases same : peer = peerid
  · subst same
    have self : (b.setNbr peer (some { id, addrList := [], recvMap := ∅ })).nbr peer =
        some { id, addrList := [], recvMap := ∅ } := Function.update_self _ _ _
    rw [self, Option.some_inj] at found
    rw [← found] at record
    exact absurd (Std.ExtTreeMap.getElem?_empty.symm.trans record) (by simp)
  · have kept : (b.setNbr peerid (some { id, addrList := [], recvMap := ∅ })).nbr peer =
        b.nbr peer := Function.update_of_ne same _ _
    exact used fec af family fnh member peer ln me (kept.symm.trans found) owned record

theorem Bindings.Used.neighborDown {b : Bindings} (used : b.Used) (disjoint : b.DisjointAddrs)
    {peerid : UInt32} {ln : NbrView} (found : b.nbr peerid = some ln) :
    ((b.relabel ln.owns fun _ => noLabel).setNbr peerid none).Used := by
  intro fec af family fnh member peer ln' me found' owned record
  have different : peer ≠ peerid := by
    rintro rfl
    have gone : ((b.relabel ln.owns fun _ => noLabel).setNbr peer none).nbr peer = none :=
      Function.update_self _ _ _
    exact absurd (gone.symm.trans found') (by simp)
  have kept : ((b.relabel ln.owns fun _ => noLabel).setNbr peerid none).nbr peer = b.nbr peer :=
    Function.update_of_ne different _ _
  have present := kept.symm.trans found'
  have member' : fnh ∈ (b.relabel ln.owns fun _ => noLabel).nexthops fec := member
  rcases Bindings.mem_relabel member' with ⟨old, -⟩ | ⟨origin, old, owner, rfl⟩
  · exact used fec af family fnh old peer ln' me present owned record
  · rw [labelBlind_owns] at owned
    exact absurd (disjoint.eq_of_owns present found family owned owner) different

/-- Until the mapping of its neighbor is looked at, only the new nexthop can lack a label. -/
theorem Bindings.Used.addNexthop {b : Bindings} (used : b.Used) {fec : Fec} {nexthop : LdpdAddr}
    {priority : UInt8} {data : Option Nat} {label : UInt32} (exempt : UInt32)
    (owner : ∀ af, fec.af = some af → ∀ peerid ln, b.nbr peerid = some ln →
      ln.owns fec (newNexthop nexthop priority) = true → peerid = exempt) :
    (b.addNexthop fec nexthop priority data label).UsedExcept exempt fec := by
  intro other af family fnh member peer ln me found owned record apart
  have present : b.nbr peer = some ln :=
    (congrFun (Bindings.addNexthop_nbr b ..) peer).symm.trans found
  rw [Bindings.addNexthop_nexthops] at member
  split_ifs at member with same
  · subst same
    rcases List.mem_cons.mp member with rfl | old
    · exact absurd ⟨owner af family peer ln present owned, rfl⟩ apart
    · exact used other af family fnh old peer ln me present owned record
  · exact used other af family fnh member peer ln me present owned record

/-- A neighbor that has sent no mapping for a FEC needs no exemption. -/
theorem Bindings.UsedExcept.used {b : Bindings} {exempt : UInt32} {fec : Fec}
    (used : b.UsedExcept exempt fec)
    (unmapped : ∀ af, fec.af = some af → ∀ ln, b.nbr exempt = some ln → ∀ fnh ∈ b.nexthops fec,
      ln.owns fec fnh = true → ln.recvMap[fec]? = none) : b.Used := by
  intro other af family fnh member peer ln me found owned record
  by_cases both : peer = exempt ∧ other = fec
  · obtain ⟨rfl, rfl⟩ := both
    rw [unmapped af family ln found fnh member owned] at record
    exact absurd record (by simp)
  · exact used other af family fnh member peer ln me found owned record both

theorem Bindings.DisjointAddrs.of_nbr {b b' : Bindings} (disjoint : b.DisjointAddrs)
    (same : b'.nbr = b.nbr) : b'.DisjointAddrs := by
  intro peerid other ln ln' found found'
  exact disjoint peerid other ln ln' (same ▸ found) (same ▸ found')

theorem Bindings.Insert.used {b b' : Bindings} (used : b.Used) (disjoint : b.DisjointAddrs)
    (filed : b.Filed) {fec : Fec} {nexthop : LdpdAddr} {priority : UInt8} {data : Option Nat} {label : UInt32}
    (inserted : b.Insert fec nexthop priority data label b') : b'.Used := by
  have nbr := Bindings.addNexthop_nbr b fec nexthop priority data label
  cases inserted with
  | listed => exact used
  | unowned fresh strange =>
    -- no neighbor is behind the nexthop, so any of them may be left out
    intro other af family fnh member peer ln me found owned record
    obtain ⟨exempt, different⟩ : ∃ exempt : UInt32, peer ≠ exempt := by
      by_cases zero : peer = 0
      · exact ⟨1, by rw [zero]; decide⟩
      · exact ⟨0, zero⟩
    have apart : (b.addNexthop fec nexthop priority data label).UsedExcept exempt fec :=
      used.addNexthop exempt fun af family peerid ln found owned =>
        absurd (owned.symm.trans (strange peerid ln found)) (by simp)
    exact apart other af family fnh member peer ln me found owned record
      fun both => different both.1
  | unmapped fresh peerid ln found owned unrecorded =>
    refine (used.addNexthop peerid fun af family other ln' found' owned' =>
      disjoint.eq_of_owns found' found family owned' owned).used ?_
    intro af family ln' found' fnh _ _
    have same : some ln = some ln' := found.symm.trans ((congrFun nbr peerid).symm.trans found')
    rw [← Option.some_inj.mp same]
    exact unrecorded
  | ignored fresh peerid ln me found recorded pseudowire =>
    have family := filed.recorded peerid ln fec me found recorded
    rw [family] at pseudowire
    refine (used.addNexthop peerid fun af network => ?_).used fun af network => ?_
    all_goals exact absurd (pseudowire.symm.trans network) (by simp)
  | mapped fresh peerid ln me found owned recorded =>
    have same := filed.recorded peerid ln fec me found recorded
    rw [same]
    refine (used.addNexthop peerid fun af family other ln' found' owned' =>
      disjoint.eq_of_owns found' found family owned' owned).learn (disjoint.of_nbr nbr) ?_ me
    exact (congrFun nbr peerid).trans found

theorem Bindings.Remove.used {b b' : Bindings} (used : b.Used) {fec : Fec} {nexthop : LdpdAddr}
    {priority : UInt8} (removed : b.Remove fec nexthop priority b') : b'.Used := by
  have nbr := removed.nbr
  intro other af family item member peer ln me found
  cases removed with
  | unlisted => exact used other af family item member peer ln me found
  | listed fnh =>
    exact used other af family item (Bindings.mem_of_mem_removeNexthop member) peer ln me
      (nbr ▸ found)

/-- A step of the machine keeps the records in use, if a withdraw names the labels it takes. -/
theorem Bindings.Step.used {b b' : Bindings} {event : LdeEvent} (step : b.Step event b')
    (wellFormed : b.WellFormed) (filed : b.Filed) (disjoint : b.DisjointAddrs)
    (disjoint' : b'.DisjointAddrs) (names : b.WithdrawNames event) (used : b.Used) : b'.Used := by
  cases step with
  | invisible => exact used
  | networkAdd kr label _ _ inserted => exact inserted.used used disjoint filed
  | networkDel kr _ removed => exact removed.used used
  | learn peerid ln map found => exact (used.except peerid _).learn disjoint found map
  | unlearn peerid ln map found =>
    exact used.unlearn disjoint found ⟨rfl, rfl⟩ _ map.label fun af family =>
      names ln found _ af family (Or.inr rfl)
  | unlearnAll peerid ln map found wildcard fecs =>
    exact used.unlearnAll disjoint found ⟨rfl, rfl⟩ map.label fecs fun fec af family =>
      names ln found fec af family (Or.inl wildcard)
  | addressAdd peerid ln addr found => exact used.addressAdd wellFormed found addr disjoint'
  | addressDel peerid ln addr found known => exact used.addressDel disjoint filed found known
  | neighborUp peerid id => exact used.neighborUp peerid id
  | neighborDown peerid ln found => exact used.neighborDown disjoint found
  | pwNew data conf pwType fresh label _ _ inserted =>
    exact inserted.used (b := b.setPw data _) used disjoint (filed.of_nbr rfl)
  | pwDel data type pwid lsrId known middle removed =>
    have kept : middle.Used := removed.used used
    exact kept

/-! ### Runs -/

/-- A step that keeps the two promises of the rest of the network: one priority of a nexthop
address, and no address of two neighbors. -/
def PromisedStep (lde : Lde) (event : LdeEvent) : Prop :=
  (ldeStep lde event).bindings.OnePriority ∧ (ldeStep lde event).bindings.DisjointAddrs

/-- A step that keeps the promises and whose withdraw, if it is one, names the labels it
takes. -/
def RetainingStep (lde : Lde) (event : LdeEvent) : Prop :=
  PromisedStep lde event ∧ lde.bindings.WithdrawNames event

theorem start_nbr (conf : LdeConf) (peerid : UInt32) :
    (Lde.start conf).bindings.nbr peerid = none := by
  have empty : (Lde.start conf).ldeNbrs[peerid]? = none := Std.ExtTreeMap.getElem?_empty
  exact congrArg (Option.map LdeNbr.view) empty

/-- Recorded mappings are used: after any sequence of events in which every withdraw names the
labels it takes, a mapping recorded from a neighbor is the label of every nexthop of the FEC
that is at one of its addresses. -/
theorem recorded_mapping_used (conf : LdeConf) (events : List LdeEvent)
    (retaining : Run.Allowed ldeStep RetainingStep (Lde.start conf) events) (fec : Fec)
    (network : fec.af ≠ none) (fnh : FecNh)
    (member : fnh ∈ (events.foldl ldeStep (Lde.start conf)).nexthops fec) (peerid : UInt32)
    (ln : LdeNbr) (found : (events.foldl ldeStep (Lde.start conf)).ldeNbrs[peerid]? = some ln)
    (listed : fnh.nexthop ∈ ln.addrList) (me : Map) (recorded : ln.recvMap[fec]? = some me) :
    fnh.remoteLabel = me.label := by
  have invariant : (fun b : Bindings => b.WellFormed ∧ b.OnePriority ∧ b.Filed ∧ b.DisjointAddrs ∧
      b.Used) (events.foldl ldeStep (Lde.start conf)).bindings := by
    refine Run.foldl_of_allowed (fun lde => (fun b : Bindings => b.WellFormed ∧ b.OnePriority ∧
      b.Filed ∧ b.DisjointAddrs ∧ b.Used) lde.bindings) ?_ ?_ retaining
    · rintro lde event ⟨wellFormed, single, filed, disjoint, used⟩ ⟨⟨single', disjoint'⟩, names⟩
      have step := ldeStep_refines lde wellFormed single event
      exact ⟨step.wellFormed wellFormed, single', step.filed filed, disjoint',
        step.used wellFormed filed disjoint disjoint' names used⟩
    · refine ⟨start_wellFormed conf, start_onePriority conf, ⟨?_, ?_⟩, ?_, ?_⟩
      · intro peerid ln fec me found
        exact absurd ((start_nbr conf peerid).symm.trans found) (by simp)
      · intro peerid ln found
        exact absurd ((start_nbr conf peerid).symm.trans found) (by simp)
      · intro peerid other ln ln' found
        exact absurd ((start_nbr conf peerid).symm.trans found) (by simp)
      · intro fec af _ fnh member
        rw [start_nexthops] at member
        exact absurd member (by simp)
  obtain ⟨af, family⟩ := Option.ne_none_iff_exists'.mp network
  exact invariant.2.2.2.2 fec af family fnh member peerid ln.view me (bindings_nbr found)
    (owns_of_mem_addrList family listed) recorded

theorem disjointAddrs_iff (lde : Lde) :
    lde.bindings.DisjointAddrs ↔ ∀ entry ∈ lde.ldeNbrs.toList, ∀ other ∈ lde.ldeNbrs.toList,
      ∀ addr ∈ entry.2.addrList, addr ∈ other.2.addrList → entry.1 = other.1 := by
  constructor
  · intro disjoint entry listed other listed'
    have found := Std.ExtTreeMap.mem_toList_iff_getElem?_eq_some.mp listed
    have found' := Std.ExtTreeMap.mem_toList_iff_getElem?_eq_some.mp listed'
    exact disjoint entry.1 other.1 entry.2.view other.2.view (bindings_nbr found)
      (bindings_nbr found')
  · intro all peerid other view view' found found'
    obtain ⟨ln, present, rfl⟩ := Option.map_eq_some_iff.mp found
    obtain ⟨ln', present', rfl⟩ := Option.map_eq_some_iff.mp found'
    exact all (peerid, ln) (Std.ExtTreeMap.mem_toList_iff_getElem?_eq_some.mpr present) (other, ln')
      (Std.ExtTreeMap.mem_toList_iff_getElem?_eq_some.mpr present')

instance (lde : Lde) : Decidable lde.bindings.DisjointAddrs :=
  decidable_of_iff _ (disjointAddrs_iff lde).symm

instance (lde : Lde) (event : LdeEvent) : Decidable (PromisedStep lde event) :=
  inferInstanceAs (Decidable (_ ∧ _))

theorem recorded_mapping_used_learnedRun :
    ⟨.v4 0x0a000001, 100, 32⟩ ∈
        (learnedRun.foldl ldeStep (Lde.start {})).nexthops (.ipv4 0x0b000000 8) ∧
      (100 : UInt32) = ({ fec := .network (.v4 0x0b000000) 8, label := 100 } : Map).label :=
  ⟨by decide, recorded_mapping_used {} learnedRun
    ⟨⟨by decide, trivial⟩, ⟨by decide, trivial⟩, ⟨by decide, trivial⟩, ⟨by decide, trivial⟩, trivial⟩
    (.ipv4 0x0b000000 8) (by decide) ⟨.v4 0x0a000001, 100, 32⟩ (by decide) 1
    (((learnedRun.foldl ldeStep (Lde.start {})).ldeNbrs[(1 : UInt32)]?).get (by decide))
    (Option.some_get _).symm (by decide) { fec := .network (.v4 0x0b000000) 8, label := 100 }
    (by decide)⟩

/-- The neighbor of `learnedRun` withdraws label 101, which it has not advertised. -/
def strayWithdrawRun : List LdeEvent :=
  learnedRun ++ [.labelWithdraw 1 { fec := .network (.v4 0x0b000000) 8, label := 101 }]

/-- After `strayWithdrawRun` the engine no longer uses label 100 and still has it on record. -/
theorem recorded_mapping_unused :
    ¬∀ (conf : LdeConf) (events : List LdeEvent),
      Run.Allowed ldeStep PromisedStep (Lde.start conf) events → ∀ fec : Fec, fec.af ≠ none →
        ∀ fnh ∈ (events.foldl ldeStep (Lde.start conf)).nexthops fec, ∀ (peerid : UInt32)
          (ln : LdeNbr), (events.foldl ldeStep (Lde.start conf)).ldeNbrs[peerid]? = some ln →
            fnh.nexthop ∈ ln.addrList → ∀ me : Map, ln.recvMap[fec]? = some me →
              fnh.remoteLabel = me.label := by
  intro used
  have same := used {} strayWithdrawRun (by decide) (.ipv4 0x0b000000 8) (by decide)
    ⟨.v4 0x0a000001, noLabel, 32⟩ (by decide) 1
    (((strayWithdrawRun.foldl ldeStep (Lde.start {})).ldeNbrs[(1 : UInt32)]?).get (by decide))
    (Option.some_get _).symm (by decide)
    { fec := .network (.v4 0x0b000000) 8, label := 100 } (by decide)
  exact absurd same (by decide)

end Ldpd
