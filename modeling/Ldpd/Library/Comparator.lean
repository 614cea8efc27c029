/-
This file is about comparators that return a number whose sign is the order of two keys:
when they are lawful, that a tree with a lawful comparator is a finite map, and for which
keys the difference of two words, read as a signed number, is a lawful comparator.
-/

import Mathlib

namespace Comparator

/-! ### Lawful comparators -/

/-- On some keys a comparator returns zero exactly for those that mean the same, changes its sign when
its arguments are swapped, and is transitive. -/
structure LawfulOn {Key Meaning : Type} (keys : Set Key) (compare : Key → Key → Int)
    (meaning : Key → Meaning) : Prop where
  zero_iff : ∀ a ∈ keys, ∀ b ∈ keys, compare a b = 0 ↔ meaning a = meaning b
  antisymm : ∀ a ∈ keys, ∀ b ∈ keys, (compare a b).sign = -(compare b a).sign
  trans : ∀ a ∈ keys, ∀ b ∈ keys, ∀ c ∈ keys, compare a b ≤ 0 → compare b c ≤ 0 → compare a c ≤ 0

/-- The order that a comparator says. -/
def ordering {Key : Type} (compare : Key → Key → Int) (a b : Key) : Ordering :=
  Ord.compare (compare a b) 0

section Lawful

variable {Key Meaning Image : Type} {keys : Set Key} {compare : Key → Key → Int}
  {meaning : Key → Meaning}

theorem LawfulOn.nonneg_iff (lawful : LawfulOn keys compare meaning) {a b : Key} (first : a ∈ keys)
    (second : b ∈ keys) : 0 ≤ compare a b ↔ compare b a ≤ 0 := by
  have swapped := lawful.antisymm a first b second
  rw [← Int.sign_nonneg_iff, swapped, Int.neg_nonneg, Int.sign_nonpos_iff]

theorem LawfulOn.mono {others : Set Key} (lawful : LawfulOn keys compare meaning)
    (subset : others ⊆ keys) : LawfulOn others compare meaning :=
  ⟨fun a first b second => lawful.zero_iff a (subset first) b (subset second),
    fun a first b second => lawful.antisymm a (subset first) b (subset second),
    fun a first b second c third => lawful.trans a (subset first) b (subset second) c (subset third)⟩

theorem lawfulOn_congr {Other : Type} {meaning' : Key → Other}
    (same : ∀ a b, meaning a = meaning b ↔ meaning' a = meaning' b) :
    LawfulOn keys compare meaning ↔ LawfulOn keys compare meaning' :=
  ⟨fun lawful => ⟨fun a first b second => (lawful.zero_iff a first b second).trans (same a b),
      lawful.antisymm, lawful.trans⟩,
    fun lawful => ⟨fun a first b second => (lawful.zero_iff a first b second).trans (same a b).symm,
      lawful.antisymm, lawful.trans⟩⟩

/-- Keys may be compared by an image of them. -/
theorem lawfulOn_image_iff {compare : Image → Image → Int} {meaning : Image → Meaning}
    (image : Key → Image) :
    LawfulOn (image '' keys) compare meaning ↔
      LawfulOn keys (fun a b => compare (image a) (image b)) (meaning ∘ image) := by
  constructor
  · intro lawful
    have member {a : Key} (known : a ∈ keys) := Set.mem_image_of_mem image known
    exact ⟨fun a first b second => lawful.zero_iff _ (member first) _ (member second),
      fun a first b second => lawful.antisymm _ (member first) _ (member second),
      fun a first b second c third =>
        lawful.trans _ (member first) _ (member second) _ (member third)⟩
  · intro lawful
    refine ⟨?_, ?_, ?_⟩
    · rintro _ ⟨a, first, rfl⟩ _ ⟨b, second, rfl⟩
      exact lawful.zero_iff a first b second
    · rintro _ ⟨a, first, rfl⟩ _ ⟨b, second, rfl⟩
      exact lawful.antisymm a first b second
    · rintro _ ⟨a, first, rfl⟩ _ ⟨b, second, rfl⟩ _ ⟨c, third, rfl⟩
      exact lawful.trans a first b second c third

theorem ordering_eq_eq {a b : Key} : ordering compare a b = .eq ↔ compare a b = 0 :=
  Std.LawfulEqOrd.compare_eq_iff_eq

theorem isLE_ordering {a b : Key} : (ordering compare a b).isLE = true ↔ compare a b ≤ 0 :=
  Std.isLE_compare

theorem ordering_eq_swap_iff {a b : Key} :
    ordering compare a b = (ordering compare b a).swap ↔ (compare a b).sign = -(compare b a).sign := by
  rw [ordering, ordering]
  rcases Int.lt_trichotomy (compare a b) 0 with first | first | first <;>
    rcases Int.lt_trichotomy (compare b a) 0 with second | second | second <;>
      simp [Int.sign_eq_neg_one_of_neg, Int.sign_eq_one_of_pos, Std.compare_eq_lt.mpr,
        Std.compare_eq_gt.mpr, first, second]

/-- A comparator that gives the order of what keys mean is lawful. -/
theorem lawfulOn_of_ordering {order : Meaning → Meaning → Ordering} [Std.TransCmp order]
    [Std.LawfulEqCmp order] (same : ∀ a b, ordering compare a b = order (meaning a) (meaning b)) :
    LawfulOn Set.univ compare meaning := by
  refine ⟨fun a _ b _ => ?_, fun a _ b _ => ?_, fun a _ b _ c _ first second => ?_⟩
  · rw [← ordering_eq_eq, same, Std.LawfulEqCmp.compare_eq_iff_eq]
  · rw [← ordering_eq_swap_iff, same, same]
    exact Std.OrientedCmp.eq_swap
  · rw [← isLE_ordering, same] at first second ⊢
    exact Std.TransCmp.isLE_trans first second

theorem LawfulOn.transCmp (lawful : LawfulOn Set.univ compare meaning) :
    Std.TransCmp (ordering compare) where
  eq_swap := ordering_eq_swap_iff.mpr (lawful.antisymm _ trivial _ trivial)
  isLE_trans first second := isLE_ordering.mpr
    (lawful.trans _ trivial _ trivial _ trivial (isLE_ordering.mp first) (isLE_ordering.mp second))

end Lawful

/-! ### Trees -/

/-- A tree with a comparator is a finite map of what its keys mean: inserting a key that is not there,
removing a key and looking a key up. -/
structure FiniteMap {Key Meaning : Type} [DecidableEq Meaning] (compare : Key → Key → Int)
    (meaning : Key → Meaning) : Prop where
  empty : ∀ (Value : Type) (key : Key), (∅ : Std.TreeMap Key Value (ordering compare))[key]? = none
  find : ∀ (Value : Type) (tree : Std.TreeMap Key Value (ordering compare)) (key other : Key),
    meaning key = meaning other → tree[key]? = tree[other]?
  insert : ∀ (Value : Type) (tree : Std.TreeMap Key Value (ordering compare)) (key other : Key)
    (value : Value), (tree.insertIfNew key value)[other]? =
      if meaning key = meaning other ∧ tree[key]? = none then some value else tree[other]?
  remove : ∀ (Value : Type) (tree : Std.TreeMap Key Value (ordering compare)) (key other : Key),
    (tree.erase key)[other]? = if meaning key = meaning other then none else tree[other]?

theorem LawfulOn.finiteMap {Key Meaning : Type} [DecidableEq Meaning] {compare : Key → Key → Int}
    {meaning : Key → Meaning} (lawful : LawfulOn Set.univ compare meaning) :
    FiniteMap compare meaning := by
  have := lawful.transCmp
  have same (key other : Key) : ordering compare key other = .eq ↔ meaning key = meaning other :=
    ordering_eq_eq.trans (lawful.zero_iff key trivial other trivial)
  refine ⟨fun Value key => Std.TreeMap.getElem?_emptyc, fun Value tree key other equal => ?_,
    fun Value tree key other value => ?_, fun Value tree key other => ?_⟩
  · exact Std.TreeMap.getElem?_congr ((same key other).mpr equal)
  · rw [Std.TreeMap.getElem?_insertIfNew]
    refine if_congr (and_congr (same key other) ?_) rfl rfl
    rw [Std.TreeMap.mem_iff_isSome_getElem?, Bool.not_eq_true, Option.isSome_eq_false_iff,
      Option.isNone_iff_eq_none]
  · rw [Std.TreeMap.getElem?_erase]
    exact if_congr (same key other) rfl rfl

/-! ### Differences of words -/

section Differences

variable {width : Nat}

/-- The difference of two words, read as a signed number. -/
def difference (a b : BitVec width) : Int :=
  (a - b).toInt

/-- A difference is not negative if its highest bit is not set. -/
theorem difference_nonneg_iff (positive : 0 < width) (a b : BitVec width) :
    0 ≤ difference a b ↔ (a - b).toNat < 2 ^ (width - 1) := by
  have double : 2 ^ width = 2 * 2 ^ (width - 1) := by
    rw [← Nat.pow_succ', Nat.succ_eq_add_one, Nat.sub_add_cancel positive]
  have less := (a - b).isLt
  rw [difference, BitVec.toInt_eq_toNat_cond]
  split
  · omega
  · omega

/-- Within a half of all words the difference is that of the distances from its start. -/
theorem difference_eq (positive : 0 < width) {a b base : BitVec width}
    (first : (a - base).toNat < 2 ^ (width - 1)) (second : (b - base).toNat < 2 ^ (width - 1)) :
    difference a b = (a - base).toNat - (b - base).toNat := by
  have double : 2 ^ width = 2 * 2 ^ (width - 1) := by
    rw [← Nat.pow_succ', Nat.succ_eq_add_one, Nat.sub_add_cancel positive]
  have toInt {word : BitVec width} (small : word.toNat < 2 ^ (width - 1)) :
      word.toInt = word.toNat := by
    rw [BitVec.toInt_eq_toNat_cond, if_pos]
    omega
  have distances : a - b = (a - base) - (b - base) := (sub_sub_sub_cancel_right a b base).symm
  rw [difference, distances, BitVec.toInt_sub, toInt first, toInt second, Int.bmod_eq_of_le_mul_two]
  · omega
  · omega

/-- Of keys that are lawfully compared one is the least. -/
theorem LawfulOn.exists_least {Key Meaning : Type} {compare : Key → Key → Int}
    {meaning : Key → Meaning} {keys : List Key} (lawful : LawfulOn {key | key ∈ keys} compare meaning)
    (some : keys ≠ []) : ∃ least ∈ keys, ∀ key ∈ keys, compare least key ≤ 0 := by
  induction keys with
  | nil => exact absurd rfl some
  | cons first rest inductionHypothesis =>
    have zero : compare first first ≤ 0 :=
      Int.le_of_eq ((lawful.zero_iff first List.mem_cons_self first List.mem_cons_self).mpr rfl)
    by_cases single : rest = []
    · subst single
      exact ⟨first, List.mem_cons_self, List.forall_mem_singleton.mpr zero⟩
    obtain ⟨least, among, below⟩ := inductionHypothesis
      (lawful.mono fun key member => List.mem_cons_of_mem first member) single
    have among' := List.mem_cons_of_mem first among
    by_cases less : compare first least ≤ 0
    · refine ⟨first, List.mem_cons_self, List.forall_mem_cons.mpr ⟨zero, fun key member => ?_⟩⟩
      exact lawful.trans first List.mem_cons_self least among' key (List.mem_cons_of_mem first member)
        less (below key member)
    · refine ⟨least, among', List.forall_mem_cons.mpr ⟨?_, below⟩⟩
      exact (lawful.nonneg_iff List.mem_cons_self among').mp (Int.le_of_lt (Int.not_le.mp less))

/-- Differences compare keys lawfully exactly when the keys lie within one half of all words. -/
theorem lawfulOn_difference_iff (positive : 0 < width) (keys : List (BitVec width)) :
    LawfulOn {key | key ∈ keys} difference id ↔
      ∃ base, ∀ key ∈ keys, (key - base).toNat < 2 ^ (width - 1) := by
  constructor
  · intro lawful
    by_cases some : keys = []
    · subst some
      exact ⟨0, fun key member => absurd member List.not_mem_nil⟩
    obtain ⟨least, among, below⟩ := lawful.exists_least some
    refine ⟨least, fun key member => ?_⟩
    exact (difference_nonneg_iff positive key least).mp
      ((lawful.nonneg_iff member among).mpr (below key member))
  · rintro ⟨base, near⟩
    have distance {a b : BitVec width} (first : a ∈ keys) (second : b ∈ keys) :=
      difference_eq positive (near a first) (near b second)
    refine ⟨fun a first b second => ?_, fun a first b second => ?_,
      fun a first b second c third less less' => ?_⟩
    · rw [distance first second, Int.sub_eq_zero, Int.natCast_inj, BitVec.toNat_inj, sub_left_inj]
      rfl
    · rw [distance first second, distance second first, ← Int.sign_neg, Int.neg_sub]
    · rw [distance first second] at less
      rw [distance second third] at less'
      rw [distance first third]
      omega

end Differences

end Comparator
