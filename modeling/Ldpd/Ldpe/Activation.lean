/-
This file says when an interface or a targeted neighbor is active. Whatever changes
one of the conditions has to look at the interfaces and targeted neighbors again,
after the change. Two do not: `merge_global` does so before it stores the new router
id, and the link-local address that an interface remembers is forgotten when it goes,
although there may be another one.
-/

import Ldpd.Ldpe.Addresses

namespace Ldpd

/-! ### What should be active -/

/-- The interface has an address that a family can do with. -/
def Iface.HasAddr (iface : Iface) : Af → Prop
  | .inet => ∃ ifAddr ∈ iface.addrList, ifAddr.addr.af = .inet
  | .inet6 => ∃ addr, isLinklocal addr ∧ Listed iface.addrList (.v6 addr)

/-- Everything is there that an interface needs for a family, the router id left aside. -/
def Discovery.Ready (state : Discovery) (iface : Iface) (af : Af) : Prop :=
  (iface.ia af).enabled ∧ iface.linkOk ∧ iface.HasAddr af ∧ state.discSocket af

/-- An interface is active exactly when it should be. -/
def Discovery.IfaceRight (state : Discovery) (iface : Iface) (af : Af) : Prop :=
  (iface.ia af).active ↔ state.Ready iface af ∧ state.rtrId ≠ 0

/-- A targeted neighbor is. -/
def Discovery.TnbrRight (state : Discovery) (tnbr : Tnbr) : Prop :=
  tnbr.active ↔ state.ediscSocket tnbr.addr.af ∧ state.rtrId ≠ 0

/-- All of them are. -/
structure Discovery.Right (state : Discovery) : Prop where
  ifaces : ∀ iface ∈ state.ifaces, ∀ af, state.IfaceRight iface af
  tnbrs : ∀ tnbr ∈ state.tnbrs, state.TnbrRight tnbr

/-- The interface that `if_lookup` finds. -/
def Discovery.ifLookup (state : Discovery) (ifindex : UInt16) : Option Iface :=
  state.ifaces.find? fun iface => iface.ifindex == ifindex

/-- The cases in which all that depends on a change is looked at again: a link-local address is added
to the addresses of its interface, if it is not there; a link-local address that goes is not the one
that is remembered, or it is the last one; and the router id is not changed from or to 0.0.0.0 while
something is ready. -/
def Followed (state : Discovery) : DiscoveryInput → Prop
  | .newaddr ka => ∀ iface addr, state.ifLookup ka.ifindex = some iface → ka.addr = .v6 addr →
    isLinklocal addr → ifAddrLookup iface.addrList ka.toIfAddr ≠ none →
      Listed iface.addrList (.v6 addr)
  | .deladdr ka => ∀ iface, state.ifLookup ka.ifindex = some iface →
    if ka.addr = .v6 iface.linklocal then
      ∀ addr, isLinklocal addr → ¬Listed (iface.addrList.eraseP ka.matches) (.v6 addr)
    else isLinklocal iface.linklocal →
      Listed (iface.addrList.eraseP ka.matches) (.v6 iface.linklocal)
  | .reload conf => (state.rtrId = 0 ↔ conf.rtrId = 0) ∨
    (∀ iface ∈ state.ifaces, ∀ af, ¬state.Ready iface af) ∧
      ∀ tnbr ∈ state.tnbrs, state.ediscSocket tnbr.addr.af = false
  | _ => True

/-! ### Updates -/

/-- The link-local address that an interface remembers is one of its addresses, if it has any. -/
structure Iface.Remembers (iface : Iface) : Prop where
  listed : isLinklocal iface.linklocal → Listed iface.addrList (.v6 iface.linklocal)
  some : iface.HasAddr .inet6 → isLinklocal iface.linklocal

theorem Iface.Remembers.isLinklocal_iff {iface : Iface} (remembers : iface.Remembers) :
    isLinklocal iface.linklocal ↔ iface.HasAddr .inet6 :=
  ⟨fun own => ⟨_, own, remembers.listed own⟩, remembers.some⟩

/-- What `if_update_af` finds. -/
def Discovery.ifaceOk (state : Discovery) (af : Af) (iface : Iface) : Bool :=
  (iface.ia af).enabled && iface.linkOk &&
    (match af with
      | .inet => iface.addrList.any fun ifAddr => ifAddr.addr.af = .inet
      | .inet6 => isLinklocal iface.linklocal) && state.discSocket af && state.rtrId != 0

namespace Discovery

variable {state state' : Discovery} {iface : Iface} {tnbr : Tnbr} {af : Af}

theorem ifUpdateAf_eq (state : Discovery) (af : Af) (iface : Iface) :
    state.ifUpdateAf af iface =
      { iface with
        ia := Function.update iface.ia af { iface.ia af with active := state.ifaceOk af iface } } := by
  have same (active : (iface.ia af).active = state.ifaceOk af iface) :
      { iface with
        ia := Function.update iface.ia af { iface.ia af with active := state.ifaceOk af iface } } =
          iface := by
    rw [← active, Function.update_eq_self]
  have unfolded : state.ifUpdateAf af iface =
      if (iface.ia af).active then
        if state.ifaceOk af iface then iface
        else { iface with ia := Function.update iface.ia af { iface.ia af with active := false } }
      else
        if !state.ifaceOk af iface then iface
        else { iface with ia := Function.update iface.ia af { iface.ia af with active := true } } := by
    cases af with
    | inet => rfl
    | inet6 => rfl
  rw [unfolded]
  cases active : (iface.ia af).active with
  | true =>
    cases ok : state.ifaceOk af iface with
    | true => exact (ok ▸ same (active.trans ok.symm)).symm
    | false => rfl
  | false =>
    cases ok : state.ifaceOk af iface with
    | true => rfl
    | false => exact (ok ▸ same (active.trans ok.symm)).symm

theorem ifaceOk_iff (remembers : iface.Remembers) (af : Af) :
    state.ifaceOk af iface ↔ state.Ready iface af ∧ state.rtrId ≠ 0 := by
  cases af with
  | inet => simp [ifaceOk, Ready, Iface.HasAddr, and_assoc]
  | inet6 => simp [ifaceOk, Ready, ← remembers.isLinklocal_iff, and_assoc]

/-- An interface that has been looked at for a family. -/
theorem ifaceRight_ifUpdateAf (remembers : iface.Remembers) (af : Af) :
    state.IfaceRight (state.ifUpdateAf af iface) af := by
  rw [IfaceRight, ifUpdateAf_eq]
  dsimp only
  rw [Function.update_self, ifaceOk_iff remembers]
  refine and_congr_left fun _ => ?_
  simp only [Ready, Function.update_self]
  rfl

/-- The other family is left as it is. -/
theorem ifaceRight_ifUpdateAf_of_ne {other : Af} (different : other ≠ af) :
    state.IfaceRight (state.ifUpdateAf af iface) other ↔ state.IfaceRight iface other := by
  rw [ifUpdateAf_eq]
  simp only [IfaceRight, Ready, Function.update_of_ne different]
  rfl

theorem remembers_ifUpdateAf : (state.ifUpdateAf af iface).Remembers ↔ iface.Remembers := by
  rw [ifUpdateAf_eq]
  exact ⟨fun remembers => ⟨remembers.listed, remembers.some⟩,
    fun remembers => ⟨remembers.listed, remembers.some⟩⟩

theorem tnbrUpdate_eq (state : Discovery) (tnbr : Tnbr) :
    state.tnbrUpdate tnbr =
      { tnbr with active := state.ediscSocket tnbr.addr.af && state.rtrId != 0 } := by
  rw [tnbrUpdate]
  generalize (state.ediscSocket tnbr.addr.af && state.rtrId != 0) = ok
  obtain ⟨addr, active, configured, dynamic, pwCount⟩ := tnbr
  cases active with
  | true =>
    cases ok with
    | true => rfl
    | false => rfl
  | false =>
    cases ok with
    | true => rfl
    | false => rfl

theorem tnbrRight_tnbrUpdate (state : Discovery) (tnbr : Tnbr) :
    state.TnbrRight (state.tnbrUpdate tnbr) := by
  rw [tnbrUpdate_eq, TnbrRight]
  simp

/-! ### What is kept -/

/-- An interface is as active as it should be, and will be after any update. -/
def IfaceGood (state : Discovery) (iface : Iface) : Prop :=
  (∀ af, state.IfaceRight iface af) ∧ iface.Remembers

/-- All interfaces and targeted neighbors are. -/
structure Good (state : Discovery) : Prop where
  ifaces : ∀ iface ∈ state.ifaces, state.IfaceGood iface
  tnbrs : ∀ tnbr ∈ state.tnbrs, state.TnbrRight tnbr

theorem Good.right (good : state.Good) : state.Right where
  ifaces iface member := (good.ifaces iface member).1
  tnbrs := good.tnbrs

theorem mem_updateFirst {Item : Type} {is : Item → Bool} {change : Item → Option Item}
    {items : List Item} {item : Item} (member : item ∈ updateFirst is change items) :
    item ∈ items ∨ ∃ found, items.find? is = some found ∧ change found = some item := by
  induction items with
  | nil => cases member
  | cons first rest inductionHypothesis =>
    rw [updateFirst] at member
    by_cases named : is first
    · rw [if_pos named, List.mem_append, Option.mem_toList] at member
      rcases member with changed | later
      · exact .inr ⟨first, List.find?_cons_of_pos named, changed⟩
      · exact .inl (List.mem_cons_of_mem first later)
    · rw [if_neg named, List.mem_cons] at member
      rcases member with rfl | later
      · exact .inl List.mem_cons_self
      · rcases inductionHypothesis later with known | ⟨found, search, changed⟩
        · exact .inl (List.mem_cons_of_mem first known)
        · exact .inr ⟨found, (List.find?_cons_of_neg named).trans search, changed⟩

/-- An update of one interface. -/
theorem Good.updateIface (good : state.Good) {ifindex : UInt16} {change : Iface → Iface}
    (kept : ∀ iface, state.ifLookup ifindex = some iface → state.IfaceGood iface →
      state.IfaceGood (change iface)) : (state.updateIface ifindex change).Good where
  ifaces iface member := by
    rcases mem_updateFirst member with known | ⟨found, search, changed⟩
    · exact good.ifaces iface known
    · cases changed
      exact kept found search (good.ifaces found (List.mem_of_find?_eq_some search))
  tnbrs := good.tnbrs

/-- An update of one targeted neighbor that is not about its state. -/
theorem Good.updateTnbr (good : state.Good) {addr : LdpdAddr} {change : Tnbr → Option Tnbr}
    (kept : ∀ tnbr tnbr', change tnbr = some tnbr' →
      tnbr'.addr = tnbr.addr ∧ tnbr'.active = tnbr.active) : (state.updateTnbr addr change).Good where
  ifaces := good.ifaces
  tnbrs tnbr member := by
    rcases mem_updateFirst member with known | ⟨found, search, changed⟩
    · exact good.tnbrs tnbr known
    · obtain ⟨sameAddr, sameActive⟩ := kept found tnbr changed
      have right := good.tnbrs found (List.mem_of_find?_eq_some search)
      rw [TnbrRight, ← sameAddr, ← sameActive] at right
      exact right

theorem Good.tnbrInsert (good : state.Good) (tnbr : Tnbr) : (state.tnbrInsert tnbr).Good where
  ifaces := good.ifaces
  tnbrs := List.forall_mem_cons.mpr ⟨tnbrRight_tnbrUpdate state tnbr, good.tnbrs⟩

/-- An update of both families. -/
theorem ifaceGood_ifUpdate (remembers : iface.Remembers) :
    state.IfaceGood (state.ifUpdate iface) := by
  rw [ifUpdate]
  refine ⟨fun af => ?_, remembers_ifUpdateAf.mpr (remembers_ifUpdateAf.mpr remembers)⟩
  cases af with
  | inet =>
    rw [ifaceRight_ifUpdateAf_of_ne (by decide)]
    exact ifaceRight_ifUpdateAf remembers .inet
  | inet6 => exact ifaceRight_ifUpdateAf (remembers_ifUpdateAf.mpr remembers) .inet6

/-- An update of one family, of an interface that is good for the other one. -/
theorem ifaceGood_ifUpdateAf (remembers : iface.Remembers)
    (other : ∀ other, other ≠ af → state.IfaceRight iface other) :
    state.IfaceGood (state.ifUpdateAf af iface) := by
  refine ⟨fun family => ?_, remembers_ifUpdateAf.mpr remembers⟩
  by_cases same : family = af
  · subst same
    exact ifaceRight_ifUpdateAf remembers family
  · rw [ifaceRight_ifUpdateAf_of_ne same]
    exact other family same

/-- The sockets of a family change, and everything of that family is looked at again. -/
theorem Good.updateAll (good : state.Good)
    (sockets : ∀ other, other ≠ af → state'.discSocket other = state.discSocket other ∧
      state'.ediscSocket other = state.ediscSocket other)
    (rtrId : state'.rtrId = state.rtrId) (ifaces : state'.ifaces = state.ifaces)
    (tnbrs : state'.tnbrs = state.tnbrs) : (state'.updateAll af).Good where
  ifaces := List.forall_mem_map.mpr fun iface member => by
    rw [ifaces] at member
    obtain ⟨right, remembers⟩ := good.ifaces iface member
    have other (other : Af) (different : other ≠ af) : state'.IfaceRight iface other := by
      have before := right other
      rw [IfaceRight, Ready, ← (sockets other different).1, ← rtrId] at before
      exact before
    exact ifaceGood_ifUpdateAf remembers other
  tnbrs := List.forall_mem_map.mpr fun tnbr member => by
    rw [tnbrs] at member
    split
    · exact tnbrRight_tnbrUpdate state' tnbr
    · rename_i different
      have before := good.tnbrs tnbr member
      rw [TnbrRight, ← (sockets _ different).2, ← rtrId] at before
      exact before

/-! ### Addresses -/

theorem ifaceRight_congr {iface' : Iface} (ia : iface'.ia = iface.ia)
    (link : iface'.linkOk = iface.linkOk)
    (listed : ∀ addr : LdpdAddr, addr.af = af →
      (Listed iface'.addrList addr ↔ Listed iface.addrList addr)) :
    state.IfaceRight iface' af ↔ state.IfaceRight iface af := by
  have any (addrList : List IfAddr) : (∃ ifAddr ∈ addrList, ifAddr.addr.af = .inet) ↔
      ∃ addr : LdpdAddr, addr.af = .inet ∧ Listed addrList addr := by
    constructor
    · rintro ⟨ifAddr, member, family⟩
      exact ⟨ifAddr.addr, family, ifAddr, member, rfl⟩
    · rintro ⟨addr, family, ifAddr, member, rfl⟩
      exact ⟨ifAddr, member, family⟩
  have usable : iface'.HasAddr af ↔ iface.HasAddr af := by
    cases af with
    | inet =>
      rw [Iface.HasAddr, Iface.HasAddr, any, any]
      exact exists_congr fun addr => and_congr_right (listed addr)
    | inet6 => exact exists_congr fun addr => and_congr_right fun _ => listed (.v6 addr) rfl
  rw [IfaceRight, IfaceRight, Ready, Ready, ia, link, usable]

/-- Another address is remembered, or none, while the addresses stay. -/
theorem IfaceGood.remember (good : state.IfaceGood iface) {linklocal : In6Addr}
    (listed : isLinklocal linklocal → Listed iface.addrList (.v6 linklocal))
    (some' : iface.HasAddr .inet6 → isLinklocal linklocal) :
    state.IfaceGood { iface with linklocal } :=
  ⟨fun af => (ifaceRight_congr rfl rfl fun _ _ => Iff.rfl).mpr (good.1 af), listed, some'⟩

/-- The addresses of one family change, and that family is looked at again. -/
theorem IfaceGood.change (good : state.IfaceGood iface) {linklocal : In6Addr} {addrList : List IfAddr}
    (listed : isLinklocal linklocal → Listed addrList (.v6 linklocal))
    (some' : ∀ addr, isLinklocal addr → Listed addrList (.v6 addr) → isLinklocal linklocal)
    (same : ∀ addr : LdpdAddr, addr.af ≠ af → (Listed addrList addr ↔ Listed iface.addrList addr)) :
    state.IfaceGood (state.ifUpdateAf af { iface with linklocal, addrList }) := by
  refine ifaceGood_ifUpdateAf ⟨listed, ?_⟩ fun other different => ?_
  · rintro ⟨addr, own, found⟩
    exact some' addr own found
  · have unchanged : state.IfaceRight { iface with linklocal, addrList } other ↔
        state.IfaceRight iface other :=
      ifaceRight_congr rfl rfl fun addr family => same addr (family ▸ different)
    exact unchanged.mpr (good.1 other)

/-- An address is added. -/
theorem IfaceGood.addrAdd (good : state.IfaceGood iface) (ka : IfAddr)
    (followed : ∀ addr, ka.addr = .v6 addr → isLinklocal addr →
      ifAddrLookup iface.addrList ka ≠ none → Listed iface.addrList (.v6 addr)) :
    state.IfaceGood (state.ifaceAddrAdd ka iface) := by
  have listed (addr : LdpdAddr) :
      Listed (ka :: iface.addrList) addr ↔ ka.addr = addr ∨ Listed iface.addrList addr :=
    List.exists_mem_cons_iff ..
  have others (addr : LdpdAddr) (family : addr.af ≠ ka.addr.af) :
      Listed (ka :: iface.addrList) addr ↔ Listed iface.addrList addr := by
    rw [listed]
    refine or_iff_right fun same => family ?_
    rw [same]
  have plain (other : ∀ addr, ka.addr = .v6 addr → ¬isLinklocal addr) : state.IfaceGood
      (state.ifUpdateAf ka.addr.af { iface with addrList := ka :: iface.addrList }) := by
    refine good.change (fun own => ?_) (fun addr own found => ?_) others
    · exact (listed _).mpr (.inr (good.2.listed own))
    · rcases (listed _).mp found with same | before
      · exact absurd own (other addr same)
      · exact good.2.some ⟨addr, own, before⟩
  rw [ifaceAddrAdd]
  cases named : ka.addr with
  | v4 addr =>
    dsimp only
    cases ifAddrLookup iface.addrList ka with
    | some found => exact good
    | none =>
      rw [← named]
      exact plain fun other same => by cases named.symm.trans same
  | v6 addr =>
    dsimp only
    by_cases own : isLinklocal addr
    · rw [if_pos own]
      cases lookup : ifAddrLookup iface.addrList ka with
      | some found =>
        exact good.remember (fun _ => followed addr named own (by rw [lookup]; exact Option.some_ne_none _))
          fun _ => own
      | none =>
        dsimp only
        rw [← named]
        exact good.change (fun _ => (listed _).mpr (.inl named)) (fun _ _ _ => own) others
    · rw [if_neg own]
      cases ifAddrLookup iface.addrList ka with
      | some found => exact good
      | none =>
        rw [← named]
        refine plain fun other same => ?_
        cases named.symm.trans same
        exact own

/-- An address is deleted. -/
theorem IfaceGood.addrDel (good : state.IfaceGood iface) (ka : IfAddr)
    (followed : if ka.addr = .v6 iface.linklocal then
        ∀ addr, isLinklocal addr → ¬Listed (iface.addrList.eraseP ka.matches) (.v6 addr)
      else isLinklocal iface.linklocal →
        Listed (iface.addrList.eraseP ka.matches) (.v6 iface.linklocal)) :
    state.IfaceGood (state.ifaceAddrDel ka iface) := by
  have rest (addr : LdpdAddr) (found : Listed (iface.addrList.eraseP ka.matches) addr) :
      Listed iface.addrList addr := by
    obtain ⟨ifAddr, member, same⟩ := found
    exact ⟨ifAddr, List.mem_of_mem_eraseP member, same⟩
  -- Whatever is remembered from now on has to be right for the addresses that are left.
  have leaves (linklocal : In6Addr) (iface' : Iface)
      (listed : isLinklocal linklocal → Listed (iface.addrList.eraseP ka.matches) (.v6 linklocal))
      (some' : ∀ addr, isLinklocal addr → Listed (iface.addrList.eraseP ka.matches) (.v6 addr) →
        isLinklocal linklocal)
      (unlisted : ifAddrLookup iface.addrList ka = none → iface' = { iface with linklocal })
      (erased : ∀ found, ifAddrLookup iface.addrList ka = some found →
        iface' = state.ifUpdateAf found.addr.af
          { iface with linklocal, addrList := iface.addrList.eraseP ka.matches }) :
      state.IfaceGood iface' := by
    cases lookup : ifAddrLookup iface.addrList ka with
    | none =>
      have same : iface.addrList.eraseP ka.matches = iface.addrList :=
        List.eraseP_of_forall_not (List.find?_eq_none.mp lookup)
      rw [unlisted lookup]
      rw [same] at listed some'
      refine good.remember listed ?_
      rintro ⟨addr, own, found⟩
      exact some' addr own found
    | some found =>
      rw [erased found lookup]
      refine good.change listed some' fun addr family => ?_
      rw [listed_of_lookup lookup]
      refine (or_iff_right fun same => family ?_).symm
      rw [same]
  have kept (iface' : Iface) (other : ka.addr ≠ .v6 iface.linklocal) :=
    leaves iface.linklocal iface' (by rw [if_neg other] at followed; exact followed)
      fun addr own found => good.2.some ⟨addr, own, rest _ found⟩
  rw [ifaceAddrDel]
  cases named : ka.addr with
  | v4 addr =>
    refine kept _ (by rw [named]; exact LdpdAddr.noConfusion) (fun lookup => ?_) fun found lookup => ?_
    · dsimp only
      rw [lookup]
    · dsimp only
      rw [lookup]
  | v6 addr =>
    dsimp only
    by_cases own : iface.linklocal = addr
    · rw [if_pos own]
      rw [if_pos (by rw [named, own])] at followed
      refine leaves (Vector.replicate 16 0) _ (fun wrong => absurd wrong (by decide))
        (fun addr own found => absurd found (followed addr own)) (fun lookup => ?_)
        fun found lookup => ?_
      · rw [lookup]
      · rw [lookup]
    · rw [if_neg own]
      have other : ka.addr ≠ .v6 iface.linklocal := fun same =>
        own (LdpdAddr.v6.inj (named.symm.trans same)).symm
      refine kept _ other (fun lookup => ?_) fun found lookup => ?_
      · rw [lookup]
      · rw [lookup]

/-! ### Reloads -/

theorem tnbrCheck_eq {tnbr' : Tnbr} (left : tnbrCheck tnbr = some tnbr') : tnbr' = tnbr := by
  rw [tnbrCheck] at left
  split at left
  · cases left
  · cases left
    rfl

/-- The targeted neighbors that are left are as they were, but for what they are there for. -/
theorem Good.filterTnbrs (good : state.Good) {change : Tnbr → Option Tnbr}
    (kept : ∀ tnbr tnbr', change tnbr = some tnbr' →
      tnbr'.addr = tnbr.addr ∧ tnbr'.active = tnbr.active) :
    { state with tnbrs := state.tnbrs.filterMap change }.Good where
  ifaces := good.ifaces
  tnbrs tnbr member := by
    obtain ⟨found, known, changed⟩ := List.mem_filterMap.mp member
    obtain ⟨sameAddr, sameActive⟩ := kept found tnbr changed
    have right := good.tnbrs found known
    rw [TnbrRight, ← sameAddr, ← sameActive] at right
    exact right

/-- What is right is left as it is. -/
theorem Good.updateAllUnspec (good : state.Good) : state.updateAllUnspec = state := by
  have family (iface : Iface) (good : state.IfaceGood iface) (af : Af) :
      state.ifUpdateAf af iface = iface := by
    have active : state.ifaceOk af iface = (iface.ia af).active :=
      Bool.eq_iff_iff.mpr ((ifaceOk_iff good.2 af).trans (good.1 af).symm)
    rw [ifUpdateAf_eq, active, Function.update_eq_self]
  have ifaces : state.ifaces.map state.ifUpdate = state.ifaces := by
    refine (List.map_congr_left fun iface member => ?_).trans (List.map_id state.ifaces)
    rw [ifUpdate, family iface (good.ifaces iface member), family iface (good.ifaces iface member), id]
  have tnbrs : state.tnbrs.map state.tnbrUpdate = state.tnbrs := by
    refine (List.map_congr_left fun tnbr member => ?_).trans (List.map_id state.tnbrs)
    have active : (state.ediscSocket tnbr.addr.af && state.rtrId != 0) = tnbr.active := by
      refine Bool.eq_iff_iff.mpr (Iff.trans ?_ (good.tnbrs tnbr member).symm)
      simp
    rw [tnbrUpdate_eq, active, id]
  rw [Discovery.updateAllUnspec, ifaces, tnbrs]

/-- The new router id is stored, with nothing that depends on it. -/
theorem Good.mergeGlobal (good : state.Good) {conf : DiscoveryConf}
    (followed : Followed state (.reload conf)) : (state.mergeGlobal conf).Good := by
  rw [Discovery.mergeGlobal]
  by_cases same : state.rtrId = conf.rtrId
  · rw [if_pos same]
    exact good
  rw [if_neg same]
  have unchanged : (if state.rtrId = 0 ∨ conf.rtrId = 0 then state.updateAllUnspec else state) =
      state := by
    rw [good.updateAllUnspec, ite_self]
  rw [unchanged]
  rcases followed with both | ⟨idle, closed⟩
  · have known : ¬(state.rtrId = 0 ∨ conf.rtrId = 0) := by
      rintro (none | none)
      · exact same (none.trans (both.mp none).symm)
      · exact same ((both.mpr none).trans none.symm)
    obtain ⟨before, after⟩ := not_or.mp known
    refine ⟨fun iface member => ⟨fun af => ?_, (good.ifaces iface member).2⟩, fun tnbr member => ?_⟩
    · exact ((good.ifaces iface member).1 af).trans (and_congr_right fun _ => iff_of_true before after)
    · exact (good.tnbrs tnbr member).trans (and_congr_right fun _ => iff_of_true before after)
  · refine ⟨fun iface member => ⟨fun af => ?_, (good.ifaces iface member).2⟩, fun tnbr member => ?_⟩
    · have down : ¬(iface.ia af).active := fun active =>
        idle iface member af (((good.ifaces iface member).1 af).mp active).1
      exact iff_of_false down fun ready => idle iface member af ready.1
    · have shut : ¬state.ediscSocket tnbr.addr.af := by
        rw [closed tnbr member]
        decide
      exact iff_of_false (fun active => shut ((good.tnbrs tnbr member).mp active).1)
        fun ready => shut ready.1

theorem Good.mergeAf (good : state.Good) (conf : DiscoveryConf) (af : Af) :
    (Discovery.mergeAf conf state af).Good := by
  have removed : (state.removeDynamicTnbrs af).Good := by
    refine good.filterTnbrs fun tnbr tnbr' left => ?_
    split at left
    · rw [tnbrCheck_eq left]
      exact ⟨rfl, rfl⟩
    · cases left
      exact ⟨rfl, rfl⟩
  rw [Discovery.mergeAf]
  split
  · exact ⟨removed.ifaces, removed.tnbrs⟩
  · exact ⟨good.ifaces, good.tnbrs⟩

theorem IfaceGood.mergeIfaceAf (good : state.IfaceGood iface) (conf : IfaceConf) (af : Af) :
    state.IfaceGood (state.mergeIfaceAf conf iface af) := by
  rw [Discovery.mergeIfaceAf]
  split
  · exact good
  · refine ifaceGood_ifUpdateAf ⟨good.2.listed, good.2.some⟩ fun other different => ?_
    have right := good.1 other
    simp only [IfaceRight, Ready, Function.update_of_ne different]
    exact right

theorem Good.mergeIface (good : state.Good) (conf : IfaceConf) : (state.mergeIface conf).Good := by
  rw [Discovery.mergeIface]
  split
  · exact good.updateIface fun iface _ known =>
      (known.mergeIfaceAf conf .inet).mergeIfaceAf conf .inet6
  · -- A new interface has no addresses yet.
    have none (addr : LdpdAddr) : ¬Listed [] addr := by
      rintro ⟨ifAddr, member, -⟩
      cases member
    refine ⟨List.forall_mem_cons.mpr ⟨⟨fun af => ?_, ?_, ?_⟩, good.ifaces⟩, good.tnbrs⟩
    · refine iff_of_false Bool.false_ne_true ?_
      rintro ⟨⟨-, -, usable, -⟩, -⟩
      cases af with
      | inet =>
        obtain ⟨ifAddr, member, -⟩ := usable
        cases member
      | inet6 =>
        obtain ⟨addr, -, listed⟩ := usable
        exact none _ listed
    · have zero : ¬isLinklocal (Vector.replicate 16 0) := by decide
      exact fun own => absurd own zero
    · rintro ⟨addr, -, listed⟩
      exact absurd listed (none _)

theorem Good.mergeIfaces (good : state.Good) (conf : DiscoveryConf) :
    (state.mergeIfaces conf).Good := by
  refine List.foldlRecOn conf.ifaces _ ?_ fun state good xi _ => good.mergeIface xi
  exact ⟨fun iface member => good.ifaces iface (List.mem_of_mem_filter member), good.tnbrs⟩

theorem Good.mergeTnbr (good : state.Good) (addr : LdpdAddr) : (state.mergeTnbr addr).Good := by
  rw [Discovery.mergeTnbr]
  split
  · exact good.tnbrInsert _
  · refine good.updateTnbr fun tnbr tnbr' changed => ?_
    cases changed
    exact ⟨rfl, rfl⟩

theorem Good.mergeTnbrs (good : state.Good) (conf : DiscoveryConf) : (state.mergeTnbrs conf).Good := by
  refine List.foldlRecOn conf.tnbrs _ ?_ fun state good addr _ => good.mergeTnbr addr
  refine good.filterTnbrs fun tnbr tnbr' left => ?_
  split at left
  · rw [tnbrCheck_eq left]
    exact ⟨rfl, rfl⟩
  · cases left
    exact ⟨rfl, rfl⟩

theorem Good.pwCall (good : state.Good) (call : PwCall) : (state.pwCall call).Good := by
  cases call with
  | init addr =>
    have present : ∀ state : Discovery, state.Good →
        (state.updateTnbr addr fun tnbr => some { tnbr with pwCount := tnbr.pwCount + 1 }).Good := by
      intro state good
      refine good.updateTnbr fun tnbr tnbr' changed => ?_
      cases changed
      exact ⟨rfl, rfl⟩
    rw [Discovery.pwCall, pwInit]
    split
    · exact present _ good
    · exact present _ (good.tnbrInsert _)
  | exit addr =>
    refine good.updateTnbr fun tnbr tnbr' left => ?_
    rw [tnbrCheck_eq left]
    exact ⟨rfl, rfl⟩

theorem Good.mergeConfig (good : state.Good) {conf : DiscoveryConf}
    (followed : Followed state (.reload conf)) : (state.mergeConfig conf).Good := by
  have merged := ((((good.mergeGlobal followed).mergeAf conf .inet).mergeAf conf .inet6).mergeIfaces
    conf).mergeTnbrs conf
  exact List.foldlRecOn conf.pws _ merged fun state good call _ => good.pwCall call

theorem Good.targetedHello (good : state.Good) (src : LdpdAddr) (request : Bool) :
    (state.targetedHello src request).Good := by
  have dropped : (if request then state else state.updateTnbr src fun tnbr =>
      if tnbr.dynamic then tnbrCheck { tnbr with dynamic := false } else some tnbr).Good := by
    split
    · exact good
    · refine good.updateTnbr fun tnbr tnbr' left => ?_
      split at left
      · rw [tnbrCheck_eq left]
        exact ⟨rfl, rfl⟩
      · cases left
        exact ⟨rfl, rfl⟩
  rw [Discovery.targetedHello]
  generalize (if request then state else _ : Discovery) = state' at dropped ⊢
  split
  · exact dropped
  · split
    · exact dropped.tnbrInsert _
    · exact dropped

/-! ### Runs -/

theorem Good.discoveryStep (good : state.Good) {input : DiscoveryInput}
    (followed : Followed state input) : (discoveryStep state input).Good := by
  cases input with
  | ifstatus ifindex flags linkstate =>
    refine good.updateIface fun iface _ known => ifaceGood_ifUpdate ?_
    exact ⟨known.2.listed, known.2.some⟩
  | newaddr ka =>
    have second (state' : Discovery) (good' : state'.Good) (same : state'.ifaces = state.ifaces) :
        (state'.updateIface ka.ifindex (state'.ifaceAddrAdd ka.toIfAddr)).Good := by
      refine good'.updateIface fun iface found known => known.addrAdd ka.toIfAddr ?_
      intro addr named own
      rw [ifLookup, same] at found
      exact followed iface addr found named own
    rw [Ldpd.discoveryStep, ifAddrAdd]
    split
    · exact second _ good rfl
    · exact second _ ⟨good.ifaces, good.tnbrs⟩ rfl
  | deladdr ka =>
    have first : (state.updateIface ka.ifindex (state.ifaceAddrDel ka.toIfAddr)).Good :=
      good.updateIface fun iface found known => known.addrDel ka.toIfAddr (followed iface found)
    rw [Ldpd.discoveryStep, ifAddrDel]
    split
    · exact first
    · exact ⟨first.ifaces, first.tnbrs⟩
  | closeSockets af | setupSockets af =>
    refine good.updateAll (fun other different => ⟨?_, ?_⟩) rfl rfl rfl
    · exact Function.update_of_ne different ..
    · exact Function.update_of_ne different ..
  | reload conf => exact good.mergeConfig followed
  | targetedHello src request => exact good.targetedHello src request
  | targetedExpired addr =>
    refine good.updateTnbr fun tnbr tnbr' left => ?_
    split at left
    · cases left
    · cases left
      exact ⟨rfl, rfl⟩
  | nbrNew id v4Enabled v6Enabled =>
    rw [Ldpd.discoveryStep, nbrNew]
    split
    · exact good
    · exact ⟨good.ifaces, good.tnbrs⟩
  | nbrDel | sessionUp | sessionDown => exact ⟨good.ifaces, good.tnbrs⟩

end Discovery

/-- In every run in which each change that matters is followed by an update, interfaces and targeted
neighbors are active exactly when they should be, in every state that is reached. -/
theorem right_of_followed (inputs : List DiscoveryInput)
    (followed : Run.Allowed discoveryStep Followed {} inputs) :
    (inputs.foldl discoveryStep {}).Right := by
  refine (Run.foldl_of_allowed Discovery.Good (fun state input good => good.discoveryStep) ?_
    followed).right
  refine ⟨fun iface member => ?_, fun tnbr member => ?_⟩
  · cases member
  · cases member

/-- A configuration with one interface for IPv4. -/
def plainInterface (rtrId : InAddr) : DiscoveryConf where
  rtrId := rtrId
  thelloAccept _ := false
  ifaces := [{ ifindex := 1, flags := 1, linkstate := 4, enabled := fun af => af = .inet }]
  tnbrs := []
  pws := []

/-- The sockets are open, and the interface has an address. -/
def interfaceUp (rtrId : InAddr) : List DiscoveryInput :=
  [.reload (plainInterface rtrId), .setupSockets .inet, .newaddr (unnumbered 0x0a000002)]

/-- The link goes, another address comes, the link comes back, and the first address goes. -/
def changedLink : List DiscoveryInput :=
  interfaceUp 0x0a000001 ++ [.ifstatus 1 0 0,
    .newaddr { unnumbered 0x0a000003 with addr := .v4 0x0a000004, family := rfl }, .ifstatus 1 1 4,
    .deladdr (unnumbered 0x0a000002)]

theorem right_of_followed_interfaceUp :
    (changedLink.foldl discoveryStep {}).Right ∧
      (changedLink.foldl discoveryStep {}).ifaces.map
        (fun iface => (iface.ia .inet).active) = [true] := by
  refine ⟨right_of_followed _ ⟨.inr ⟨fun iface member => ?_, fun tnbr member => ?_⟩, trivial, ?_,
    trivial, ?_, trivial, fun iface found => ?_, trivial⟩, by decide +kernel⟩
  · cases member
  · cases member
  · intro iface addr found named
    cases named
  · intro iface addr found named
    cases named
  · have evaluated : (((changedLink.take 6).foldl discoveryStep {}).ifLookup 1).map
        (fun iface => isLinklocal iface.linklocal) = some false := by
      decide +kernel
    have unset : isLinklocal iface.linklocal = false :=
      Option.some.inj ((congrArg (Option.map fun iface : Iface => isLinklocal iface.linklocal) found).symm.trans
        evaluated)
    have different : (unnumbered 0x0a000002).addr ≠ .v6 iface.linklocal := by
      intro named
      cases named
    rw [if_neg different, unset]
    exact fun own => (Bool.false_ne_true own).elim

/-- The router id comes when all else is there. -/
def lateRtrId : List DiscoveryInput :=
  interfaceUp 0 ++ [.reload (plainInterface 0x0a000001)]

/-- The interface is not looked at again with the router id that it waited for. -/
theorem lateRtrId_ignored : ¬(lateRtrId.foldl discoveryStep {}).Right := by
  intro right
  have evaluated : ((lateRtrId.foldl discoveryStep {}).ifaces.map fun iface => ((iface.ia .inet).active, (iface.ia .inet).enabled, iface.linkOk,
        iface.addrList.map IfAddr.addr)) = [(false, true, true, [.v4 0x0a000001])] := by
    decide +kernel
  obtain ⟨iface, only, same⟩ := List.map_eq_singleton_iff.mp evaluated
  obtain ⟨active, enabled, link, addrs⟩ : (iface.ia .inet).active = false ∧
      (iface.ia .inet).enabled = true ∧ iface.linkOk = true ∧
        iface.addrList.map IfAddr.addr = [.v4 0x0a000001] := by
    simpa using same
  obtain ⟨ifAddr, addrList, addr⟩ := List.map_eq_singleton_iff.mp addrs
  have usable : iface.HasAddr .inet := by
    refine ⟨ifAddr, by rw [addrList]; exact List.mem_singleton_self ifAddr, ?_⟩
    rw [addr]
    rfl
  have up := (right.ifaces iface (by rw [only]; exact List.mem_singleton_self iface) .inet).mpr
    ⟨⟨enabled, link, usable, by decide +kernel⟩, by decide +kernel⟩
  rw [active] at up
  cases up

end Ldpd
