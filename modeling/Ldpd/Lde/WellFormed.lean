/-
This file proves that the operations on the bindings keep them well formed. Labels,
records and addresses do not matter to that; nexthops that come and go do.
-/

import Ldpd.Lde.Effects

namespace Ldpd

/-! ### Nexthops that come and go -/

/-- A pseudowire is attached to a FEC and leaves its nexthops alone. -/
theorem Bindings.setData_nexthops (b : Bindings) (fec : Fec) (data : Option Nat) :
    (b.setData fec data).nexthops = b.nexthops := by
  unfold Bindings.setData
  split_ifs <;> rfl

theorem Bindings.setData_pwFec (b : Bindings) (fec : Fec) (data : Option Nat) :
    (b.setData fec data).pwFec = b.pwFec := by
  unfold Bindings.setData
  split_ifs <;> rfl

theorem Bindings.setData_nbr (b : Bindings) (fec : Fec) (data : Option Nat) :
    (b.setData fec data).nbr = b.nbr := by
  unfold Bindings.setData
  split_ifs <;> rfl

theorem Bindings.setData_data (b : Bindings) (fec other : Fec) (data : Option Nat) :
    (b.setData fec data).data other =
      if other = fec ∧ fec.af = none then data else b.data other := by
  unfold Bindings.setData
  by_cases pseudowire : fec.af = none
  · rw [if_pos pseudowire]
    by_cases same : other = fec
    · rw [if_pos ⟨same, pseudowire⟩, same]
      exact Function.update_self _ _ _
    · rw [if_neg fun both => same both.1]
      exact Function.update_of_ne same _ _
  · rw [if_neg pseudowire, if_neg fun both => pseudowire both.2]

theorem Bindings.setData_localLabel (b : Bindings) (fec : Fec) (data : Option Nat) :
    (b.setData fec data).localLabel = b.localLabel := by
  unfold Bindings.setData
  split_ifs <;> rfl

/-- A nexthop that is being added. -/
def newNexthop (nexthop : LdpdAddr) (priority : UInt8) : FecNh :=
  { nexthop, remoteLabel := noLabel, priority }

/-- A new nexthop goes to the front of the list, without a remote label. -/
theorem Bindings.addNexthop_nexthops (b : Bindings) (fec : Fec) (nexthop : LdpdAddr)
    (priority : UInt8) (data : Option Nat) (label : UInt32) (other : Fec) :
    (b.addNexthop fec nexthop priority data label).nexthops other =
      if other = fec then newNexthop nexthop priority :: b.nexthops fec else b.nexthops other := by
  show Function.update (b.setData fec data).nexthops fec _ other = _
  rw [Bindings.setData_nexthops]
  split_ifs with same
  · rw [same, Function.update_self]
    rfl
  · exact Function.update_of_ne same _ _

theorem Bindings.addNexthop_nbr (b : Bindings) (fec : Fec) (nexthop : LdpdAddr) (priority : UInt8)
    (data : Option Nat) (label : UInt32) :
    (b.addNexthop fec nexthop priority data label).nbr = b.nbr :=
  Bindings.setData_nbr b fec data

/-- What `lde_kernel_insert` is told about a nexthop: a route comes with a nexthop of its
family, a pseudowire with its remote end and itself. -/
structure Bindings.Insertable (b : Bindings) (fec : Fec) (nexthop : LdpdAddr) (priority : UInt8)
    (data : Option Nat) : Prop where
  fresh : ∀ fnh ∈ b.nexthops fec, ¬(fnh.nexthop = nexthop ∧ fnh.priority = priority)
  network : ∀ af, fec.af = some af → nexthop.af = af
  remote : ∀ type pwid lsrId, fec = .pwid type pwid lsrId → nexthop = .v4 lsrId ∧ priority = 0
  pseudowire : fec.af = none → ∃ pw, data = some pw ∧ b.pwFec pw = some fec

/-- Adding a nexthop keeps the bindings well formed, and it is here that a pseudowire enters its
FEC. -/
theorem Bindings.WellFormed.addNexthop {b : Bindings} (wellFormed : b.WellFormed) {fec : Fec}
    {nexthop : LdpdAddr} {priority : UInt8} {data : Option Nat}
    (insertable : b.Insertable fec nexthop priority data) (label : UInt32) :
    (b.addNexthop fec nexthop priority data label).WellFormed := by
  have nexthops (other : Fec) : (b.addNexthop fec nexthop priority data label).nexthops other =
      if other = fec then newNexthop nexthop priority :: b.nexthops fec else b.nexthops other :=
    Bindings.addNexthop_nexthops b fec nexthop priority data label other
  have points (other : Fec) : (b.addNexthop fec nexthop priority data label).data other =
      if other = fec ∧ fec.af = none then data else b.data other :=
    Bindings.setData_data b fec other data
  constructor
  case idle =>
    intro other empty
    rw [nexthops] at empty
    split_ifs at empty with same
    have kept : (b.addNexthop fec nexthop priority data label).localLabel other =
        b.localLabel other :=
      (Function.update_of_ne same _ _).trans (congrFun (Bindings.setData_localLabel b fec data) other)
    rw [kept]
    exact wellFormed.idle other empty
  case data =>
    intro other
    rw [points, nexthops]
    by_cases same : other = fec
    · subst same
      rw [if_pos rfl]
      by_cases pseudowire : other.af = none
      · obtain ⟨pw, given, -⟩ := insertable.pseudowire pseudowire
        simp [pseudowire, given]
      · have := wellFormed.data other
        simp_all
    · rw [if_neg (fun both => same both.1), if_neg same]
      exact wellFormed.data other
  case live =>
    intro other pw
    rw [points]
    show _ → (b.setData fec data).pwFec pw = some other
    rw [Bindings.setData_pwFec]
    split_ifs with both
    · obtain ⟨given, eq, live⟩ := insertable.pseudowire both.2
      rintro rfl
      rw [Option.some_inj] at eq
      rw [eq, both.1]
      exact live
    · exact wellFormed.live other pw
  case network =>
    intro other af family fnh member
    rw [nexthops] at member
    split_ifs at member with same
    · subst same
      rcases List.mem_cons.mp member with rfl | old
      · exact insertable.network af family
      · exact wellFormed.network other af family fnh old
    · exact wellFormed.network other af family fnh member
  case remote =>
    intro type pwid lsrId fnh member
    rw [nexthops] at member
    split_ifs at member with same
    · rcases List.mem_cons.mp member with rfl | old
      · exact insertable.remote type pwid lsrId same.symm
      · exact wellFormed.remote type pwid lsrId fnh (same ▸ old)
    · exact wellFormed.remote type pwid lsrId fnh member
  case distinct =>
    intro other
    rw [nexthops]
    split_ifs with same
    · refine List.pairwise_cons.mpr ⟨fun fnh member equal => ?_, wellFormed.distinct fec⟩
      exact insertable.fresh fnh member (of_decide_eq_true equal)
    · exact wellFormed.distinct other

/-- All copies of the nexthop go, under its own FEC. -/
theorem Bindings.removeNexthop_nexthops (b : Bindings) (fec : Fec) (fnh : FecNh) (other : Fec) :
    (b.removeNexthop fec fnh).nexthops other =
      if other = fec then (b.nexthops fec).filter fun item => ¬sameNexthop fnh item
      else b.nexthops other := by
  have updated : (b.setNexthops fec ((b.nexthops fec).filter fun item =>
      ¬sameNexthop fnh item)).nexthops other =
        if other = fec then (b.nexthops fec).filter fun item => ¬sameNexthop fnh item
        else b.nexthops other := by
    split_ifs with same
    · rw [same]
      exact Function.update_self _ _ _
    · exact Function.update_of_ne same _ _
  unfold Bindings.removeNexthop
  dsimp only
  split
  · rw [Bindings.setData_nexthops]
    exact updated
  · exact updated

/-- What is left was there before. -/
theorem Bindings.mem_of_mem_removeNexthop {b : Bindings} {fec : Fec} {fnh : FecNh} {other : Fec}
    {item : FecNh} (member : item ∈ (b.removeNexthop fec fnh).nexthops other) :
    item ∈ b.nexthops other := by
  rw [Bindings.removeNexthop_nexthops] at member
  split_ifs at member with same
  · rw [same]
    exact (List.mem_filter.mp member).1
  · exact member

theorem Bindings.removeNexthop_nbr (b : Bindings) (fec : Fec) (fnh : FecNh) :
    (b.removeNexthop fec fnh).nbr = b.nbr := by
  unfold Bindings.removeNexthop
  dsimp only
  split
  · exact Bindings.setData_nbr _ _ _
  · rfl

theorem Bindings.removeNexthop_pwFec (b : Bindings) (fec : Fec) (fnh : FecNh) :
    (b.removeNexthop fec fnh).pwFec = b.pwFec := by
  unfold Bindings.removeNexthop
  dsimp only
  split
  · exact Bindings.setData_pwFec _ _ _
  · rfl

/-- The local label goes with the last nexthop. -/
theorem Bindings.removeNexthop_localLabel (b : Bindings) (fec : Fec) (fnh : FecNh) (other : Fec) :
    (b.removeNexthop fec fnh).localLabel other =
      if other = fec ∧ (b.removeNexthop fec fnh).nexthops fec = [] then noLabel
      else b.localLabel other := by
  rw [Bindings.removeNexthop_nexthops, if_pos rfl]
  unfold Bindings.removeNexthop
  dsimp only
  by_cases empty : ((b.nexthops fec).filter fun item => ¬sameNexthop fnh item) = []
  · rw [if_pos empty, Bindings.setData_localLabel]
    by_cases same : other = fec
    · rw [if_pos ⟨same, empty⟩, same]
      exact Function.update_self _ _ _
    · rw [if_neg fun both => same both.1]
      exact Function.update_of_ne same _ _
  · rw [if_neg empty, if_neg fun both => empty both.2]
    rfl

/-- The pseudowire goes with the last nexthop. -/
theorem Bindings.removeNexthop_data (b : Bindings) (fec : Fec) (fnh : FecNh) (other : Fec) :
    (b.removeNexthop fec fnh).data other =
      if other = fec ∧ fec.af = none ∧ (b.removeNexthop fec fnh).nexthops fec = [] then none
      else b.data other := by
  rw [Bindings.removeNexthop_nexthops, if_pos rfl]
  unfold Bindings.removeNexthop
  dsimp only
  split_ifs with empty gone kept
  · rw [Bindings.setData_data, if_pos ⟨gone.1, gone.2.1⟩]
  · rw [Bindings.setData_data, if_neg fun both => gone ⟨both.1, both.2, empty⟩]
    rfl
  · exact absurd kept.2.2 empty
  · rfl

/-- Removing a nexthop keeps the bindings well formed. -/
theorem Bindings.WellFormed.removeNexthop {b : Bindings} (wellFormed : b.WellFormed) (fec : Fec)
    (fnh : FecNh) : (b.removeNexthop fec fnh).WellFormed where
  idle other empty := by
    rw [Bindings.removeNexthop_localLabel]
    split_ifs with gone
    · rfl
    · refine wellFormed.idle other ?_
      rw [Bindings.removeNexthop_nexthops] at empty
      by_cases same : other = fec
      · subst same
        rw [Bindings.removeNexthop_nexthops, if_pos rfl] at gone
        rw [if_pos rfl] at empty
        exact absurd ⟨rfl, empty⟩ gone
      · rw [if_neg same] at empty
        exact empty
  data other := by
    have origin := wellFormed.data other
    rw [Bindings.removeNexthop_data]
    by_cases same : other = fec
    · subst same
      by_cases empty : (b.removeNexthop other fnh).nexthops other = []
      · by_cases pseudowire : other.af = none <;> simp_all
      · have nonempty : b.nexthops other ≠ [] := by
          intro nil
          rw [Bindings.removeNexthop_nexthops, if_pos rfl, nil] at empty
          exact empty rfl
        simp_all
    · rw [if_neg fun all => same all.1, Bindings.removeNexthop_nexthops, if_neg same]
      exact origin
  live other pw points := by
    rw [Bindings.removeNexthop_data] at points
    rw [Bindings.removeNexthop_pwFec]
    split_ifs at points
    exact wellFormed.live other pw points
  network other af family item member :=
    wellFormed.network other af family item (Bindings.mem_of_mem_removeNexthop member)
  remote type pwid lsrId item member :=
    wellFormed.remote type pwid lsrId item (Bindings.mem_of_mem_removeNexthop member)
  distinct other := by
    rw [Bindings.removeNexthop_nexthops]
    split_ifs
    · exact (wellFormed.distinct fec).filter _
    · exact wellFormed.distinct other

end Ldpd
