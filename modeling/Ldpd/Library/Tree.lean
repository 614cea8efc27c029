/-
This file reads lookups in an ordered map whose comparator equates only equal
keys: after an insertion, a removal or an update in place, a lookup depends on
whether the keys are equal, not on what the comparator says.
-/

import Mathlib

namespace Tree

variable {Key Value : Type} {cmp : Key → Key → Ordering} [Std.TransCmp cmp] [Std.LawfulEqCmp cmp]
  [DecidableEq Key]

/-- An update in place is seen under its own key only. -/
theorem getElem?_modify (tree : Std.ExtTreeMap Key Value cmp) (key other : Key)
    (change : Value → Value) :
    (tree.modify key change)[other]? =
      if key = other then (tree[other]?).map change else tree[other]? := by
  simp only [Std.ExtTreeMap.getElem?_modify, Std.LawfulEqCmp.compare_eq_iff_eq]
  split_ifs with same
  · rw [same]
  · rfl

theorem getElem?_insert (tree : Std.ExtTreeMap Key Value cmp) (key other : Key) (value : Value) :
    (tree.insert key value)[other]? = if key = other then some value else tree[other]? := by
  simp only [Std.ExtTreeMap.getElem?_insert, Std.LawfulEqCmp.compare_eq_iff_eq]

/-- A key that is there keeps its value. -/
theorem getElem?_insertIfNew (tree : Std.ExtTreeMap Key Value cmp) (key other : Key)
    (value : Value) :
    (tree.insertIfNew key value)[other]? =
      if key = other then some ((tree[other]?).getD value) else tree[other]? := by
  simp only [Std.ExtTreeMap.getElem?_insertIfNew, Std.LawfulEqCmp.compare_eq_iff_eq]
  by_cases same : key = other
  · subst same
    by_cases present : key ∈ tree
    · rw [if_neg (fun both => both.2 present), if_pos rfl, Std.ExtTreeMap.getElem?_eq_some_getElem present]
      rfl
    · rw [if_pos ⟨rfl, present⟩, if_pos rfl, Std.ExtTreeMap.getElem?_eq_none present]
      rfl
  · rw [if_neg (fun both => same both.1), if_neg same]

/-- A removed key is looked up in vain. -/
theorem getElem?_erase (tree : Std.ExtTreeMap Key Value cmp) (key other : Key) :
    (tree.erase key)[other]? = if key = other then none else tree[other]? := by
  simp only [Std.ExtTreeMap.getElem?_erase, Std.LawfulEqCmp.compare_eq_iff_eq]

theorem getD_insert (tree : Std.ExtTreeMap Key Value cmp) (key other : Key) (value default : Value) :
    (tree.insert key value).getD other default = if key = other then value else tree.getD other default := by
  simp only [Std.ExtTreeMap.getD_insert, Std.LawfulEqCmp.compare_eq_iff_eq]

theorem getD_erase (tree : Std.ExtTreeMap Key Value cmp) (key other : Key) (default : Value) :
    (tree.erase key).getD other default = if key = other then default else tree.getD other default := by
  simp only [Std.ExtTreeMap.getD_erase, Std.LawfulEqCmp.compare_eq_iff_eq]

/-- The update must not touch the default, which stands for a key that is not there. -/
theorem getD_modify (tree : Std.ExtTreeMap Key Value cmp) (key other : Key) (change : Value → Value)
    {default : Value} (fixed : change default = default) :
    (tree.modify key change).getD other default =
      if key = other then change (tree.getD other default) else tree.getD other default := by
  simp only [Std.ExtTreeMap.getD_eq_getD_getElem?, getElem?_modify]
  split_ifs with same
  · cases tree[other]? with
    | none => exact fixed.symm
    | some value => rfl
  · rfl

omit [Std.LawfulEqCmp cmp] [DecidableEq Key] in
/-- Where only the lookup is needed, the comparator need not be lawful. -/
theorem mem_iff_getElem? (tree : Std.ExtTreeMap Key Value cmp) (key : Key) :
    key ∈ tree ↔ ∃ value, tree[key]? = some value := by
  rw [Std.ExtTreeMap.mem_iff_isSome_getElem?, Option.isSome_iff_exists]

end Tree
