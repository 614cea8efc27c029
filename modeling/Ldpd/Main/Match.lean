/-
This file is about the lookup of the route for an address. `kroute_match` masks the
address with every length from the longest down and looks the result up, so it finds the
longest stored prefix of the address, as long as the stored prefixes are masked.
-/

import Ldpd.Ldpe.Prefixes
import Ldpd.Main.Fib

namespace Ldpd

open Bytes

/-! ### The lookup -/

/-- The loop of `kroute_match` over the lengths below a bound, from the longest down: the priority that
is found, with the prefix that it points back to. -/
def krouteMatchBelow (kr : Kr) (key : LdpdAddr) : Nat → Option (KroutePrefix × KroutePriority)
  | 0 => none
  | i + 1 =>
    let net : KroutePrefix := ⟨ldpApplymask key (UInt8.ofNat i), UInt8.ofNat i⟩
    match (kr.krt[net]?).bind fun kprios => krouteFindPrio kprios rtpAny with
    | some kprio => some (net, kprio)
    | none => krouteMatchBelow kr key i

/-- `kroute_match`. -/
def krouteMatch (kr : Kr) (key : LdpdAddr) : Option (KroutePrefix × KroutePriority) :=
  krouteMatchBelow kr key (key.af.maxPrefixlen.toNat + 1)

/-- The first bits of a prefix agree with an address. -/
def KroutePrefix.Contains (net : KroutePrefix) (key : LdpdAddr) : Prop :=
  net.addr.af = key.af ∧
    ∀ i < net.prefixlen.toNat, bitAt net.addr.bytes i = bitAt key.bytes i

/-- A prefix is masked to its length. -/
structure KroutePrefix.Masked (net : KroutePrefix) : Prop where
  short : net.prefixlen ≤ net.addr.af.maxPrefixlen
  masked : ldpApplymask net.addr net.prefixlen = net.addr

/-- All prefixes of the tree are masked. -/
def Kr.Masked (kr : Kr) : Prop :=
  ∀ net ∈ kr.krt, net.Masked

/-- The longest stored prefix of an address, with its first priority. -/
structure LongestMatch (kr : Kr) (key : LdpdAddr) (net : KroutePrefix) (kprio : KroutePriority) :
    Prop where
  contains : net.Contains key
  longest : ∀ other ∈ kr.krt, other.Contains key → other.prefixlen ≤ net.prefixlen
  lowest : ∃ kprios, kr.krt[net]? = some kprios ∧ kprio ∈ kprios ∧
    ∀ other ∈ kprios, kprio.priority ≤ other.priority

/-! ### The priorities of reachable trees -/

/-- There are priorities, and they are in order. -/
structure Ranked (kprios : List KroutePriority) : Prop where
  filled : kprios ≠ []
  sorted : (kprios.map KroutePriority.priority).Pairwise (· < ·)

/-- All prefixes of the tree have priorities in order. -/
def Kr.Ranked (kr : Kr) : Prop :=
  ∀ (net : KroutePrefix) kprios, kr.krt[net]? = some kprios → Ldpd.Ranked kprios

section Ranked

variable {kr : Kr} {kprios kprios' : List KroutePriority} {net : KroutePrefix} {route : Kroute}
  {kn : KrouteNode}

theorem Ranked.congr (ranked : Ranked kprios)
    (same : kprios'.map KroutePriority.priority = kprios.map KroutePriority.priority) :
    Ranked kprios' := by
  refine ⟨fun empty => ranked.filled ?_, same ▸ ranked.sorted⟩
  rw [empty] at same
  exact List.map_eq_nil_iff.mp same.symm

theorem map_replaceF {Element Image : Type} (list : List Element) (change : Element → Option Element)
    (image : Element → Image) (kept : ∀ element ∈ list, ∀ other ∈ change element,
      image other = image element) : (list.replaceF change).map image = list.map image := by
  induction list with
  | nil => rfl
  | cons first rest inductionHypothesis =>
    rw [List.forall_mem_cons] at kept
    cases changed : change first with
    | none =>
      rw [List.replaceF_cons_of_none _ changed, List.map_cons, List.map_cons, inductionHypothesis kept.2]
    | some other => rw [List.replaceF_cons_of_some _ changed, List.map_cons, List.map_cons,
        kept.1 other changed]

theorem ranked_replaceNode (ranked : Ranked kprios) (change : KrouteNode → KrouteNode) :
    Ranked (replaceNode kprios route change) := by
  refine ranked.congr (map_replaceF kprios _ _ fun kprio _ other changed => ?_)
  split at changed
  · cases changed
    rfl
  · cases changed

theorem ranked_insertNode (sorted : (kprios.map KroutePriority.priority).Pairwise (· < ·)) :
    Ranked (insertNode kprios kn) := by
  rw [insertNode]
  cases found : krouteFindPrio kprios kn.priority with
  | none =>
    refine ⟨?_, sorted_orderedInsert sorted fun kprio member same => ?_⟩
    · exact List.ne_nil_of_mem ((List.mem_orderedInsert _).mpr (Or.inl rfl))
    · have test := List.find?_eq_none.mp found kprio member
      simp [KroutePriority.isPrio, same] at test
  | some kprio =>
    have ranked : Ranked kprios := ⟨List.ne_nil_of_mem (List.mem_of_find?_eq_some found), sorted⟩
    dsimp only
    split
    · exact ranked
    · refine ranked.congr (map_replaceF kprios _ _ fun kprio _ other changed => ?_)
      split at changed
      · cases changed
        rfl
      · cases changed

theorem sorted_eraseNode (sorted : (kprios.map KroutePriority.priority).Pairwise (· < ·)) :
    ((eraseNode kprios route).map KroutePriority.priority).Pairwise (· < ·) := by
  rw [eraseNode]
  split
  · exact sorted
  · split
    · exact sorted.sublist ((List.eraseP_sublist ..).map _)
    · rw [map_replaceF]
      · exact sorted
      · intro kprio _ other changed
        split at changed
        · cases changed
          rfl
        · cases changed

theorem ranked_krRedistribute (ranked : Ranked kprios) : Ranked (krRedistribute kprios).1 := by
  have same := congrArg (List.map Prod.fst) (shape_krRedistribute kprios)
  rw [shape, shape, List.map_map, List.map_map] at same
  exact ranked.congr same

namespace Kr.Ranked

theorem sorted (ranked : kr.Ranked) (net : KroutePrefix) :
    ((kr.krt.getD net []).map KroutePriority.priority).Pairwise (· < ·) := by
  rw [Std.ExtTreeMap.getD_eq_getD_getElem?]
  cases stored : kr.krt[net]? with
  | none => exact List.Pairwise.nil
  | some kprios => exact (ranked net kprios stored).sorted

theorem redistribute (ranked : kr.Ranked) (here : Ldpd.Ranked kprios) :
    (kr.redistribute net kprios).Ranked := by
  intro other kprios' stored
  have entry : (kr.redistribute net kprios).krt[other]? =
      if net = other then some (krRedistribute kprios).1 else kr.krt[other]? :=
    Tree.getElem?_insert ..
  rw [entry] at stored
  split at stored
  · cases stored
    exact ranked_krRedistribute here
  · exact ranked other kprios' stored

theorem krouteRemove (ranked : kr.Ranked) (route : Kroute) : (krouteRemove kr route).Ranked := by
  rw [Ldpd.krouteRemove]
  split
  · exact ranked
  · have sorted : ((eraseNode (kr.krt.getD route.net []) route).map KroutePriority.priority).Pairwise
        (· < ·) :=
      sorted_eraseNode (ranked.sorted route.net)
    dsimp only
    split
    · intro other kprios' stored
      dsimp only at stored
      rw [Tree.getElem?_erase] at stored
      split at stored
      · cases stored
      · exact ranked other kprios' stored
    · rename_i filled
      exact ranked.redistribute ⟨fun empty => filled empty, sorted⟩

theorem rtmsgProcessRoute (ranked : kr.Ranked) (rtm : RtMsghdr) :
    (rtmsgProcessRoute kr rtm).1.Ranked := by
  rw [Ldpd.rtmsgProcessRoute]
  have first : (if rtm.type = .change then removeFirst kr rtm.kroute.toKroute else kr).Ranked := by
    split
    · rw [removeFirst]
      split
      · exact ranked
      · exact ranked.krouteRemove _
    · exact ranked
  generalize (if rtm.type = .change then removeFirst kr rtm.kroute.toKroute else kr) = kr' at first ⊢
  split
  · split
    · exact first
    · exact first.krouteRemove _
  split
  · exact first
  split
  · rename_i kn found
    refine first.redistribute (ranked_replaceNode ⟨fun empty => ?_, first.sorted _⟩ _)
    rw [krouteFind_eq, empty] at found
    cases found
  · exact first.redistribute (ranked_insertNode (first.sorted _))

theorem changeNode (ranked : kr.Ranked) (route : Kroute) (change : KrouteNode → KrouteNode) :
    (kr.changeNode route change).Ranked := by
  intro other kprios' stored
  have entry : (kr.changeNode route change).krt[other]? = if route.net = other then
      (kr.krt[other]?).map fun kprios => replaceNode kprios route change else kr.krt[other]? :=
    Tree.getElem?_modify ..
  rw [entry] at stored
  split at stored
  · obtain ⟨kprios, there, rfl⟩ := Option.map_eq_some_iff.mp stored
    exact ranked_replaceNode (ranked other kprios there) change
  · exact ranked other kprios' stored

theorem krStep (ranked : kr.Ranked) (input : KrInput) : (krStep kr input).Ranked := by
  cases input with
  | change route =>
    rw [Ldpd.krStep, krChange]
    split
    · exact ranked
    · exact ranked.changeNode route _
  | delete route =>
    rw [Ldpd.krStep, krDelete]
    split
    · exact ranked
    · split
      · exact ranked.changeNode route _
      · exact ranked
  | rtmsg rtm => exact ranked.rtmsgProcessRoute rtm
  | couple =>
    rw [Ldpd.krStep, krFibCouple]
    split
    · exact ranked
    · exact ranked
  | decouple =>
    rw [Ldpd.krStep, krFibDecouple]
    split
    · exact ranked
    · exact ranked
  | shutdown =>
    intro net kprios stored
    cases Std.ExtTreeMap.getElem?_empty.symm.trans stored

end Kr.Ranked

theorem ranked_foldl (fibSync : Bool) (inputs : List KrInput) :
    (inputs.foldl krStep { fibSync }).Ranked := by
  have start : Kr.Ranked { fibSync } := by
    intro net kprios stored
    cases Std.ExtTreeMap.getElem?_empty.symm.trans stored
  generalize ({ fibSync } : Kr) = kr at start ⊢
  induction inputs generalizing kr with
  | nil => exact start
  | cons input rest inductionHypothesis => exact inductionHypothesis _ (start.krStep input)

end Ranked

/-! ### The longest match -/

section Matching

variable {kr : Kr} {key : LdpdAddr} {net : KroutePrefix} {kprio : KroutePriority}
  {kprios : List KroutePriority}

/-- `RTP_ANY` picks the lowest priority. -/
theorem krouteFindPrio_any (kprios : List KroutePriority) :
    krouteFindPrio kprios rtpAny = kprios.head? := by
  cases kprios with
  | nil => rfl
  | cons first rest => exact List.find?_cons_of_pos rfl

theorem Ranked.head_iff (ranked : Ranked kprios) :
    kprios.head? = some kprio ↔ kprio ∈ kprios ∧ ∀ other ∈ kprios, kprio.priority ≤ other.priority := by
  have sorted := ranked.sorted
  cases kprios with
  | nil => exact absurd rfl ranked.filled
  | cons first rest =>
    rw [List.map_cons, List.pairwise_cons] at sorted
    have later (other : KroutePriority) (member : other ∈ rest) : first.priority < other.priority :=
      sorted.1 _ (List.mem_map_of_mem member)
    rw [List.head?_cons, Option.some_inj, List.mem_cons, List.forall_mem_cons]
    constructor
    · rintro rfl
      exact ⟨Or.inl rfl, UInt8.le_refl _, fun other member => UInt8.le_of_lt (later other member)⟩
    · rintro ⟨rfl | member, lowest, -⟩
      · rfl
      · exact absurd (later kprio member) (UInt8.not_lt.mpr lowest)

/-- A masked prefix contains an address if masking the address gives it. -/
theorem KroutePrefix.Masked.contains_iff (masked : net.Masked) :
    net.Contains key ↔ net = ⟨ldpApplymask key net.prefixlen, net.prefixlen⟩ := by
  constructor
  · rintro ⟨family, agree⟩
    have same : net.addr = ldpApplymask key net.prefixlen := by
      refine LdpdAddr.ext_bits (family.trans (af_ldpApplymask key _).symm) fun i => ?_
      rw [bitAt_ldpApplymask key (family ▸ masked.short)]
      by_cases inside : i < net.prefixlen.toNat
      · rw [decide_eq_true inside, Bool.true_and, agree i inside]
      · rw [decide_eq_false inside, Bool.false_and, ← masked.masked, bitAt_ldpApplymask _ masked.short,
          decide_eq_false inside, Bool.false_and]
    cases net
    exact congrArg (KroutePrefix.mk · _) same
  · intro same
    have addr : net.addr = ldpApplymask key net.prefixlen := congrArg KroutePrefix.addr same
    have family : net.addr.af = key.af := by rw [addr, af_ldpApplymask]
    refine ⟨family, fun i inside => ?_⟩
    rw [addr, bitAt_ldpApplymask key (family ▸ masked.short), decide_eq_true inside, Bool.true_and]

/-- The prefix of a length that may contain an address. -/
def netOf (key : LdpdAddr) (i : Nat) : KroutePrefix :=
  ⟨ldpApplymask key (UInt8.ofNat i), UInt8.ofNat i⟩

theorem krouteMatchBelow_succ (i : Nat) : krouteMatchBelow kr key (i + 1) =
    ((kr.krt[netOf key i]?).bind fun kprios => krouteFindPrio kprios rtpAny).elim
      (krouteMatchBelow kr key i) fun kprio => some (netOf key i, kprio) := by
  rw [krouteMatchBelow]
  show _ = Option.elim (Option.bind kr.krt[netOf key i]? _) _ _
  cases found : (kr.krt[netOf key i]?).bind fun kprios => krouteFindPrio kprios rtpAny with
  | none =>
    rw [show (kr.krt[(⟨ldpApplymask key (UInt8.ofNat i), UInt8.ofNat i⟩ : KroutePrefix)]?).bind
      (fun kprios => krouteFindPrio kprios rtpAny) = none from found]
    rfl
  | some kprio =>
    rw [show (kr.krt[(⟨ldpApplymask key (UInt8.ofNat i), UInt8.ofNat i⟩ : KroutePrefix)]?).bind
      (fun kprios => krouteFindPrio kprios rtpAny) = some kprio from found]
    rfl

/-- The loop finds the longest length for which there is a prefix. -/
theorem krouteMatchBelow_cases (ranked : kr.Ranked) (bound : Nat) :
    (krouteMatchBelow kr key bound = none ∧ ∀ i < bound, kr.krt[netOf key i]? = none) ∨
      ∃ i < bound, ∃ kprio kprios, krouteMatchBelow kr key bound = some (netOf key i, kprio) ∧
        kr.krt[netOf key i]? = some kprios ∧ kprios.head? = some kprio ∧
          ∀ j < bound, i < j → kr.krt[netOf key j]? = none := by
  induction bound with
  | zero => exact Or.inl ⟨rfl, fun i less => absurd less (Nat.not_lt_zero i)⟩
  | succ bound inductionHypothesis =>
    cases stored : kr.krt[netOf key bound]? with
    | none =>
      have skips : krouteMatchBelow kr key (bound + 1) = krouteMatchBelow kr key bound := by
        rw [krouteMatchBelow_succ, stored]
        rfl
      rw [skips]
      rcases inductionHypothesis with ⟨nothing, absent⟩ | ⟨i, less, kprio, kprios, found, there, head, absent⟩
      · refine Or.inl ⟨nothing, fun i less => ?_⟩
        rcases Nat.lt_succ_iff_lt_or_eq.mp less with less | rfl
        · exact absent i less
        · exact stored
      · refine Or.inr ⟨i, Nat.lt_succ_of_lt less, kprio, kprios, found, there, head, fun j less' above => ?_⟩
        rcases Nat.lt_succ_iff_lt_or_eq.mp less' with less' | rfl
        · exact absent j less' above
        · exact stored
    | some kprios =>
      obtain ⟨kprio, head⟩ := Option.isSome_iff_exists.mp
        (List.isSome_head?.mpr (ranked _ kprios stored).filled)
      refine Or.inr ⟨bound, Nat.lt_succ_self bound, kprio, kprios, ?_, stored, head,
        fun j less above => absurd above (Nat.not_lt.mpr (Nat.lt_succ_iff.mp less))⟩
      rw [krouteMatchBelow_succ, stored, Option.bind_some, krouteFindPrio_any, head]
      rfl

/-- A stored prefix that contains an address is one of those that are looked up. -/
theorem netOf_of_contains (masked : net.Masked) (contains : net.Contains key) :
    net.prefixlen.toNat < key.af.maxPrefixlen.toNat + 1 ∧ net = netOf key net.prefixlen.toNat := by
  refine ⟨Nat.lt_succ_of_le (UInt8.le_iff_toNat_le.mp (contains.1 ▸ masked.short)), ?_⟩
  rw [netOf, UInt8.ofNat_toNat]
  exact masked.contains_iff.mp contains

theorem toNat_ofNat_prefixlen {af : Af} {i : Nat} (less : i < af.maxPrefixlen.toNat + 1) :
    (UInt8.ofNat i).toNat = i := by
  refine UInt8.toNat_ofNat_of_lt' (Nat.lt_of_lt_of_le less ?_)
  cases af with
  | inet | inet6 => decide

theorem krouteMatch_some (ranked : kr.Ranked) (masked : kr.Masked)
    (found : krouteMatch kr key = some (net, kprio)) : LongestMatch kr key net kprio := by
  obtain ⟨none, -⟩ | ⟨i, less, kprio', kprios, found', there, head, absent⟩ :=
    @krouteMatchBelow_cases kr key ranked (key.af.maxPrefixlen.toNat + 1)
  · cases none.symm.trans found
  cases found'.symm.trans found
  have member : netOf key i ∈ kr.krt := (Tree.mem_iff_getElem? _ _).mpr ⟨kprios, there⟩
  refine ⟨(masked _ member).contains_iff.mpr rfl, fun other stored contains => ?_, kprios, there,
    (ranked _ kprios there).head_iff.mp head⟩
  obtain ⟨less', same⟩ := netOf_of_contains (masked other stored) contains
  rw [UInt8.le_iff_toNat_le]
  show _ ≤ (UInt8.ofNat i).toNat
  rw [toNat_ofNat_prefixlen less]
  refine Nat.le_of_not_lt fun above => ?_
  obtain ⟨kprios', there'⟩ := (Tree.mem_iff_getElem? _ _).mp stored
  rw [same, absent _ less' above] at there'
  cases there'

theorem krouteMatch_none (ranked : kr.Ranked) (masked : kr.Masked) :
    krouteMatch kr key = none ↔ ∀ net ∈ kr.krt, ¬net.Contains key := by
  constructor
  · intro nothing net stored contains
    obtain ⟨-, absent⟩ | ⟨i, -, kprio', kprios, found, -⟩ :=
      @krouteMatchBelow_cases kr key ranked (key.af.maxPrefixlen.toNat + 1)
    · obtain ⟨less, same⟩ := netOf_of_contains (masked net stored) contains
      obtain ⟨kprios', there'⟩ := (Tree.mem_iff_getElem? _ _).mp stored
      rw [same, absent _ less] at there'
      cases there'
    · cases found.symm.trans nothing
  · intro none
    cases found : krouteMatch kr key with
    | none => rfl
    | some both =>
      have best := @krouteMatch_some kr key both.1 both.2 ranked masked found
      obtain ⟨kprios, there, -⟩ := best.lowest
      exact absurd best.contains (none both.1 ((Tree.mem_iff_getElem? _ _).mpr ⟨kprios, there⟩))

theorem LongestMatch.unique (ranked : kr.Ranked) (masked : kr.Masked) {net' : KroutePrefix}
    {kprio' : KroutePriority} (best : LongestMatch kr key net kprio)
    (best' : LongestMatch kr key net' kprio') : (net, kprio) = (net', kprio') := by
  obtain ⟨kprios, there, lowest⟩ := best.lowest
  obtain ⟨kprios', there', lowest'⟩ := best'.lowest
  have stored : net ∈ kr.krt := (Tree.mem_iff_getElem? _ _).mpr ⟨kprios, there⟩
  have stored' : net' ∈ kr.krt := (Tree.mem_iff_getElem? _ _).mpr ⟨kprios', there'⟩
  have length : net.prefixlen = net'.prefixlen :=
    UInt8.le_antisymm (best'.longest net stored best.contains) (best.longest net' stored' best'.contains)
  have same : net = net' := by
    rw [(masked net stored).contains_iff.mp best.contains,
      (masked net' stored').contains_iff.mp best'.contains, length]
  subst same
  cases there.symm.trans there'
  have ranks := ranked net kprios there
  cases (ranks.head_iff.mpr lowest).symm.trans (ranks.head_iff.mpr lowest')
  rfl

/-- In every state that is reached with masked prefixes `kroute_match` returns the lowest priority of the
longest stored prefix that contains an address, and nothing if there is no such prefix. -/
theorem krouteMatch_iff (fibSync : Bool) (inputs : List KrInput)
    (masked : (inputs.foldl krStep { fibSync }).Masked) (key : LdpdAddr) :
    (∀ net kprio, krouteMatch (inputs.foldl krStep { fibSync }) key = some (net, kprio) ↔
        LongestMatch (inputs.foldl krStep { fibSync }) key net kprio) ∧
      (krouteMatch (inputs.foldl krStep { fibSync }) key = none ↔
        ∀ net ∈ (inputs.foldl krStep { fibSync }).krt, ¬net.Contains key) := by
  have ranked := ranked_foldl fibSync inputs
  generalize inputs.foldl krStep { fibSync } = kr at masked ranked ⊢
  refine ⟨fun net kprio => ⟨krouteMatch_some ranked masked, fun best => ?_⟩,
    krouteMatch_none ranked masked⟩
  cases found : krouteMatch kr key with
  | none =>
    obtain ⟨kprios, there, -⟩ := best.lowest
    exact absurd best.contains ((krouteMatch_none ranked masked).mp found net
      ((Tree.mem_iff_getElem? _ _).mpr ⟨kprios, there⟩))
  | some both =>
    rw [best.unique ranked masked (@krouteMatch_some kr key both.1 both.2 ranked masked found)]

end Matching

/-- A message about a route to 11.0.0.0 with a length. -/
def nestedRoute (prefixlen : UInt8) : RtMsghdr where
  type := .add
  dst := .v4 0x0b000000
  prefixlen := prefixlen
  gateway := .inet 0x0a000001
  priority := 8

/-- Routes to 11.0.0.0/8 and 11.0.0.0/16. -/
def nestedRoutes : List KrInput :=
  [.rtmsg (nestedRoute 8), .rtmsg (nestedRoute 16)]

/-- 11.0.1.2 is found under the longer prefix. -/
theorem krouteMatch_iff_nested :
    ∃ kprio, LongestMatch (nestedRoutes.foldl krStep { fibSync := true }) (.v4 0x0b000102)
      ⟨.v4 0x0b000000, 16⟩ kprio := by
  have all : ∀ entry ∈ (nestedRoutes.foldl krStep { fibSync := true }).krt.toList,
      entry.1.prefixlen ≤ entry.1.addr.af.maxPrefixlen ∧
        ldpApplymask entry.1.addr entry.1.prefixlen = entry.1.addr := by
    decide +kernel
  have masked : (nestedRoutes.foldl krStep { fibSync := true }).Masked := by
    intro net stored
    obtain ⟨kprios, there⟩ := (Tree.mem_iff_getElem? _ _).mp stored
    obtain ⟨short, masked⟩ := all (net, kprios) (Std.ExtTreeMap.mem_toList_iff_getElem?_eq_some.mpr there)
    exact ⟨short, masked⟩
  have found : (krouteMatch (nestedRoutes.foldl krStep { fibSync := true }) (.v4 0x0b000102)).map
      Prod.fst = some ⟨.v4 0x0b000000, 16⟩ := by
    decide +kernel
  obtain ⟨both, matched, net⟩ := Option.map_eq_some_iff.mp found
  have best := ((krouteMatch_iff true nestedRoutes masked (.v4 0x0b000102)).1 both.1 both.2).mp matched
  rw [net] at best
  exact ⟨both.2, best⟩

end Ldpd
