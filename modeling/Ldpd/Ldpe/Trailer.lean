/-
This file compares two discovery datagrams with the same first message. An engine that
waits for a Hello tells any two things that a Hello can say apart, so what follows the
first message is without effect exactly when the Hello says the same with it.
-/

import Ldpd.Ldpe.Datagram

namespace Ldpd

open Bytes

/-! ### What every Hello fulfils -/

/-- What every Hello that says something fulfils. -/
structure HelloContent.Proper (content : HelloContent) (af : Af) : Prop where
  holdtime : content.holdtime ≠ 0
  request : content.request = true → content.targeted = true
  addr : ∀ addr ∈ content.transAddr,
    addr.af = af ∧ ¬(badAddr addr = true ∨ addr.scoped = true ∧ content.targeted = true)
  preference : ∀ both ∈ content.preference,
    recognized both.1 = both.1 ∧ recognized both.2 = both.2

theorem last_of {Found : Type} {find : HelloTlv → Option Found} {tlvs : List HelloTlv} {found : Found}
    (said : HelloTlv.last find tlvs = some found) : ∃ tlv, find tlv = some found := by
  obtain ⟨tlv, -, said⟩ := List.exists_of_findSome?_eq_some said
  exact ⟨tlv, said⟩

theorem proper_of {af : Af} {buf : List UInt8} {content : HelloContent}
    (said : HelloContent.of af buf = some content) : content.Proper af := by
  rw [HelloContent.of] at said
  split at said
  case h_2 => cases said
  rename_i holdtime flags tlvs _ _
  dsimp only at said
  split at said
  case isFalse => cases said
  rename_i fine
  cases said
  refine ⟨?_, fun request => ?_, fun addr found => ⟨?_, fine.2.2 addr found⟩, fun both found => ?_⟩
  · dsimp only
    split
    · rw [dfltHoldtime]
      split
      · decide
      · decide
    · assumption
  · exact (Bool.and_eq_true_iff.mp request).1
  · obtain ⟨tlv, -, said⟩ := List.exists_of_findSome?_eq_some found
    rw [HelloTlv.transAddr] at said
    split at said
    · cases said
      cases af with
      | inet | inet6 => rfl
    · cases said
  · obtain ⟨tlv, said⟩ := last_of found
    rw [HelloTlv.preference] at said
    split at said
    · cases said
      exact ⟨recognized_recognized _, recognized_recognized _⟩
    · cases said

/-! ### An engine that waits for a Hello -/

/-- Two addresses that a Hello may come from. -/
def watchSrc : Af → Bool → Bool → LdpdAddr
  | .inet, _, second => .v4 (if second then 0x0a000003 else 0x0a000002)
  | .inet6, true, second =>
    .v6 ⟨#[0x20, 0x01, 0x0d, 0xb8, 0, 0, 0, 0, 0, 0, 0, 0, 0, 0, 0, if second then 3 else 2], rfl⟩
  | .inet6, false, second =>
    .v6 ⟨#[0xfe, 0x80, 0, 0, 0, 0, 0, 0, 0, 0, 0, 0, 0, 0, 0, if second then 3 else 2], rfl⟩

/-- An interface on which Hellos come in. -/
def watchIface : Iface where
  ifindex := 1
  flags := 0
  linkstate := 0
  addrList := [⟨.v4 0, 0, .v4 0, rfl⟩]
  ia _ := { enabled := true }

/-- How Hellos are waited for: with which preference, with a targeted neighbor that is configured, from
the second address, and after which configuration number. -/
structure Watch where
  dual : Bool := false
  cisco : Bool := false
  preferV6 : Bool := false
  configured : Bool := true
  second : Bool := false
  number : UInt32 := 0

namespace Watch

variable (watch : Watch)

/-- The preference of the engine. -/
def pref : UInt16 :=
  if watch.preferV6 then dualStackLdpov6 else dualStackLdpov4

/-- The configuration of the engine. -/
def conf : HelloConf where
  rtrId := 0x0a000001
  enabled _ := watch.dual
  noGtsm := false
  transAddr4 := 0x0a000001
  transAddr6 := Vector.replicate 16 0
  transPref := watch.pref
  ciscoInterop := watch.cisco
  confSeqnum := 0

/-- The neighbor that is waited for. -/
def nbr (raddr : LdpdAddr) : HelloNbr where
  dsTlv := false
  raddrScope := if raddr.scoped then watchIface.ifindex else 0
  confSeqnum := watch.number

/-- An engine with one neighbor and one targeted neighbor. -/
def engine (lsrId : InAddr) (targeted : Bool) (raddr : LdpdAddr) : HelloEngine where
  conf := watch.conf
  thelloHoldtime _ := infiniteHoldtime
  ifaceHoldtime _ _ := infiniteHoldtime
  pointToPoint _ := false
  tnbrHoldtime _ := infiniteHoldtime
  discovery := {
    ifaces := [watchIface]
    tnbrs := if watch.configured then [{ addr := watchSrc raddr.af targeted watch.second }] else []
    thelloAccept := fun _ => true }
  adjs := []
  nbrs _ := watch.nbr raddr
  conn := {
    engine := {
      conf := plainConf
      nbrs := Std.ExtTreeMap.insert ∅ lsrId
        { nbr := .fresh lsrId raddr.af true, lists := fun _ => [], sent := [] } }
    links _ := { laddr := raddr, raddr } }
  prefParsed := by
    show watch.pref = _ ∨ watch.pref = _
    rw [pref]
    split
    · exact Or.inr rfl
    · exact Or.inl rfl

end Watch

section Watching

variable {watch : Watch} {lsrId : InAddr} {targeted : Bool} {raddr : LdpdAddr} {af : Af}
  {content : HelloContent} {world : HelloWorld} {msg : LdpMsg}

theorem lone_watch :
    (watch.engine lsrId targeted raddr).Lone lsrId raddr.af raddr (watch.nbr raddr) where
  adjs := rfl
  entry := ⟨_, Std.ExtTreeMap.getElem?_insert_self, rfl, rfl, rfl⟩
  raddr := rfl
  passive := decide_eq_false (List.lt_irrefl _)
  nbr := rfl

theorem af_watchSrc (targeted second : Bool) : (watchSrc af targeted second).af = af := by
  cases af with
  | inet => rfl
  | inet6 =>
    cases targeted with
    | true | false => rfl

theorem good_watchSrc (targeted second : Bool) : badAddr (watchSrc af targeted second) = false := by
  revert targeted second
  cases af with
  | inet | inet6 => decide

theorem unscoped_watchSrc (second : Bool) : (watchSrc af true second).scoped = false := by
  cases af with
  | inet => rfl
  | inet6 =>
    cases second with
    | true | false => decide

theorem watchSrc_inj {targeted : Bool} {first second : Bool}
    (same : watchSrc af targeted first = watchSrc af targeted second) : first = second := by
  revert targeted first second
  cases af with
  | inet | inet6 => decide

theorem discFindIface_watch (second : Bool) :
    (watch.engine lsrId targeted raddr).discFindIface 1 (watchSrc af targeted second) (!targeted) =
      some watchIface := by
  cases af with
  | inet =>
    cases targeted with
    | true => rfl
    | false =>
      cases second with
      | true | false => rfl
  | inet6 =>
    cases targeted with
    | true => rfl
    | false =>
      cases second with
      | true | false => rfl

end Watching

/-- The Hello is the one that is waited for. -/
structure Watch.Takes (watch : Watch) (targeted : Bool) (raddr : LdpdAddr) (content : HelloContent) :
    Prop where
  kind : content.targeted = targeted
  found : targeted = true → watch.configured = true ∨ content.request = true
  pref : ∀ transPref ∈ content.transPref watch.conf, transPref = watch.pref
  raddr : content.transAddr.getD (watchSrc raddr.af targeted watch.second) = raddr

/-- What an engine that waits for a Hello does about one, if it is one. -/
def Watch.hears (watch : Watch) (world : HelloWorld) (lsrId : InAddr) (msg : LdpMsg) (targeted : Bool)
    (raddr : LdpdAddr) (said : Option HelloContent) : Option HelloEngine :=
  said.elim (some (watch.engine lsrId targeted raddr)) ((watch.engine lsrId targeted raddr).hear world
    lsrId msg (watchSrc raddr.af targeted watch.second) watchIface (!targeted))

section Watching

variable {watch : Watch} {lsrId : InAddr} {targeted : Bool} {raddr : LdpdAddr} {af : Af}
  {content : HelloContent} {world : HelloWorld} {msg : LdpMsg}

theorem af_getD (proper : content.Proper af) {src : LdpdAddr} (family : src.af = af) :
    (content.transAddr.getD src).af = af := by
  cases said : content.transAddr with
  | none => exact family
  | some addr => exact (proper.addr addr said).1

theorem good_getD (proper : content.Proper af) (second : Bool) :
    ¬(badAddr (content.transAddr.getD (watchSrc af content.targeted second)) = true ∨
      (content.transAddr.getD (watchSrc af content.targeted second)).scoped = true ∧
        content.targeted = true) := by
  cases said : content.transAddr with
  | some addr => exact (proper.addr addr said).2
  | none =>
    rw [Option.getD_none, good_watchSrc]
    rintro (bad | ⟨zone, kind⟩)
    · exact Bool.false_ne_true bad
    · rw [kind, unscoped_watchSrc] at zone
      exact Bool.false_ne_true zone

/-- The targeted neighbor is found, or it is made if the Hello requests it. -/
theorem helloTarget_watch (request : Bool) :
    ∃ engine, (watch.engine lsrId true raddr).helloTarget (watchSrc raddr.af true watch.second) request =
        some (engine, watch.configured || request) ∧
      engine.conf = watch.conf ∧ engine.Lone lsrId raddr.af raddr (watch.nbr raddr) ∧
      engine.sourceHoldtime (.targeted (watchSrc raddr.af true watch.second)) = infiniteHoldtime := by
  have lone := @lone_watch watch lsrId true raddr
  cases configured : watch.configured with
  | true =>
    refine ⟨watch.engine lsrId true raddr, ?_, rfl, lone, rfl⟩
    have found : (watch.engine lsrId true raddr).discovery.tnbrFind
        (watchSrc raddr.af true watch.second) =
          some { addr := watchSrc raddr.af true watch.second } := by
      show List.find? _ (if watch.configured then _ else _) = _
      rw [configured, if_pos rfl]
      exact List.find?_cons_of_pos (decide_eq_true rfl)
    rw [HelloEngine.helloTarget, found]
    dsimp only
    rw [if_neg fun both => Bool.false_ne_true both.1]
    rfl
  | false =>
    have none : (watch.engine lsrId true raddr).discovery.tnbrFind
        (watchSrc raddr.af true watch.second) = none := by
      show List.find? _ (if watch.configured then _ else _) = _
      rw [configured, if_neg Bool.false_ne_true]
      rfl
    rw [HelloEngine.helloTarget, none]
    dsimp only
    cases request with
    | false =>
      refine ⟨watch.engine lsrId true raddr, ?_, rfl, lone, rfl⟩
      rw [if_neg fun both => Bool.false_ne_true both.1]
      rfl
    | true =>
      refine ⟨(watch.engine lsrId true raddr).tnbrNew (watchSrc raddr.af true watch.second), ?_, rfl,
        ⟨lone.adjs, lone.entry, lone.raddr, lone.passive, lone.nbr⟩, ?_⟩
      · rw [if_pos ⟨rfl, rfl⟩]
        rfl
      · exact Function.update_self _ _ _

theorem min_infinite (holdtime : UInt16) : min infiniteHoldtime holdtime = holdtime := by
  show (if infiniteHoldtime ≤ holdtime then infiniteHoldtime else holdtime) = holdtime
  split
  · rename_i less
    refine UInt16.le_antisymm less (UInt16.le_iff_toNat_le.mpr ?_)
    exact Nat.le_of_lt_succ holdtime.toNat_lt
  · rfl

/-- The checks of a Hello by an engine with one neighbor. -/
theorem checkHello_watch {engine : HelloEngine} {source : HelloSource} {src : LdpdAddr}
    (conf : engine.conf = watch.conf) (lone : engine.Lone lsrId raddr.af raddr (watch.nbr raddr))
    (holdtime : engine.sourceHoldtime source = infiniteHoldtime) (family : source.af = raddr.af)
    (srcAf : src.af = raddr.af) (proper : content.Proper raddr.af) :
    ∃ engine', engine.checkHello world lsrId msg source
        (content.hello watch.conf src watchIface.ifindex) = some engine' ∧
      ((∀ transPref ∈ content.transPref watch.conf, transPref = watch.pref) ∧
          content.transAddr.getD src = raddr ∧
          (∃ adj, engine'.adjs = [adj] ∧ adj.holdtime = content.holdtime) ∧
          engine'.nbrs lsrId = { watch.nbr raddr with
            gtsmNegotiated := content.gtsm
            confSeqnum := content.confSeqnum.getD watch.number } ∨
        engine'.adjs = [] ∧ ¬((∀ transPref ∈ content.transPref watch.conf, transPref = watch.pref) ∧
          content.transAddr.getD src = raddr)) := by
  have mismatch : (content.hello watch.conf src watchIface.ifindex).opts.rcvdDs = true ∧
      (content.hello watch.conf src watchIface.ifindex).opts.transPref ≠ engine.conf.transPref ↔
      ¬∀ transPref ∈ content.transPref watch.conf, transPref = watch.pref := by
    rw [conf]
    show Option.isSome (content.transPref watch.conf) = true ∧
      (content.transPref watch.conf).getD 0 ≠ watch.pref ↔ _
    cases content.transPref watch.conf with
    | none => simp
    | some transPref => simp
  by_cases takes : (∀ transPref ∈ content.transPref watch.conf, transPref = watch.pref) ∧
      content.transAddr.getD src = raddr
  · obtain ⟨pref, same⟩ := takes
    have scope : (content.hello watch.conf src watchIface.ifindex).scope =
        (watch.nbr raddr).raddrScope := by
      show (if (content.transAddr.getD src).scoped then _ else _) = _
      rw [same]
      rfl
    rw [checkHello_taken lone family rfl (fun both => mismatch.mp both pref) same scope]
    obtain ⟨engine', accepts, adjs, nbrs⟩ := acceptHello_lone lone
    refine ⟨engine', accepts, Or.inl ⟨pref, same, ⟨_, adjs, ?_⟩, nbrs.trans ?_⟩⟩
    · show min (engine.sourceHoldtime source) (if content.holdtime = 0 then _ else content.holdtime) = _
      rw [holdtime, if_neg proper.holdtime, min_infinite]
    · show HelloNbr.mk false _ (if Option.isSome content.confSeqnum then content.confSeqnum.getD 0
        else watch.number) _ = _
      cases content.confSeqnum with
      | none => rfl
      | some number => rfl
  · have refused : (content.hello watch.conf src watchIface.ifindex).opts.rcvdDs = true ∧
        (content.hello watch.conf src watchIface.ifindex).opts.transPref ≠ engine.conf.transPref ∨
        content.transAddr.getD src ≠ raddr := by
      by_cases pref : ∀ transPref ∈ content.transPref watch.conf, transPref = watch.pref
      · exact Or.inr fun same => takes ⟨pref, same⟩
      · exact Or.inl (mismatch.mpr pref)
    obtain ⟨engine', results, empty⟩ :=
      checkHello_refused lone family (af_getD proper srcAf) rfl refused
    exact ⟨engine', results, Or.inr ⟨empty, takes⟩⟩

end Watching

section Watching

variable {watch : Watch} {lsrId : InAddr} {targeted : Bool} {raddr : LdpdAddr} {af : Af}
  {content : HelloContent} {world : HelloWorld} {msg : LdpMsg} {said first second : Option HelloContent}

/-- A Hello that is waited for makes an adjacency and updates the neighbor. -/
theorem hears_cases (watch : Watch) (world : HelloWorld) (lsrId : InAddr) (msg : LdpMsg)
    (targeted : Bool) (proper : ∀ content ∈ said, content.Proper raddr.af) :
    ∃ engine, watch.hears world lsrId msg targeted raddr said = some engine ∧
      ((∃ content ∈ said, watch.Takes targeted raddr content ∧
          (∃ adj, engine.adjs = [adj] ∧ adj.holdtime = content.holdtime) ∧
          engine.nbrs lsrId = { watch.nbr raddr with
            gtsmNegotiated := content.gtsm
            confSeqnum := content.confSeqnum.getD watch.number }) ∨
        engine.adjs = [] ∧ ∀ content ∈ said, ¬watch.Takes targeted raddr content) := by
  cases said with
  | none => exact ⟨_, rfl, Or.inr ⟨rfl, fun _ found => absurd found (by simp)⟩⟩
  | some content =>
    have fine := proper content rfl
    have only {engine : HelloEngine} (silent : engine.adjs = [])
        (refuses : ¬watch.Takes targeted raddr content) : engine.adjs = [] ∧
          ∀ content' ∈ some content, ¬watch.Takes targeted raddr content' :=
      ⟨silent, fun content' found => Option.some.inj found ▸ refuses⟩
    rw [Watch.hears, Option.elim_some, HelloEngine.hear]
    dsimp only
    by_cases kind : content.targeted = targeted
    case neg =>
      refine ⟨_, if_pos ?_, Or.inr (only rfl fun takes => kind takes.kind)⟩
      revert kind
      cases content.targeted with
      | true | false => cases targeted with
        | true | false => simp
    subst kind
    rw [if_neg (by simp), if_neg (good_getD fine watch.second)]
    have srcAf := @af_watchSrc raddr.af content.targeted watch.second
    have checks {engine : HelloEngine} (source : HelloSource) (conf : engine.conf = watch.conf)
        (lone : engine.Lone lsrId raddr.af raddr (watch.nbr raddr))
        (holdtime : engine.sourceHoldtime source = infiniteHoldtime)
        (family : source.af = raddr.af) :=
      @checkHello_watch watch lsrId raddr content world msg engine source _ conf lone holdtime family
        srcAf fine
    cases kind : content.targeted with
    | false =>
      rw [kind] at checks srcAf
      obtain ⟨engine, results, spec⟩ := checks (.link watchIface.ifindex _ _) rfl lone_watch rfl srcAf
      rw [if_neg Bool.false_ne_true]
      refine ⟨engine, results, ?_⟩
      rcases spec with ⟨pref, same, spec⟩ | ⟨empty, refuses⟩
      · exact Or.inl ⟨content, rfl, ⟨kind, fun other => absurd other Bool.false_ne_true, pref, same⟩,
          spec⟩
      · rw [kind] at only
        exact Or.inr (only empty fun takes => refuses ⟨takes.pref, takes.raddr⟩)
    | true =>
      rw [kind] at checks srcAf only
      rw [if_pos rfl, unscoped_watchSrc, if_neg Bool.false_ne_true]
      obtain ⟨target, finds, conf, lone, holdtime⟩ :=
        @helloTarget_watch watch lsrId raddr content.request
      rw [finds]
      show ∃ engine, (if watch.configured || content.request then _ else _) = some engine ∧ _
      by_cases found : (watch.configured || content.request) = true
      · rw [if_pos found]
        obtain ⟨engine, results, spec⟩ := checks (.targeted _) conf lone holdtime srcAf
        refine ⟨engine, results, ?_⟩
        rcases spec with ⟨pref, same, spec⟩ | ⟨empty, refuses⟩
        · exact Or.inl ⟨content, rfl, ⟨kind, fun _ => Bool.or_eq_true_iff.mp found, pref, same⟩, spec⟩
        · exact Or.inr (only empty fun takes => refuses ⟨takes.pref, takes.raddr⟩)
      · rw [if_neg found]
        exact ⟨target, rfl, Or.inr (only lone.adjs fun takes =>
          found (Bool.or_eq_true_iff.mpr (takes.found rfl)))⟩

/-- Two Hellos that an engine treats alike are both waited for, and they agree in what is stored. -/
theorem Watch.Takes.other (properFirst : ∀ content ∈ first, content.Proper raddr.af)
    (properSecond : ∀ content ∈ second, content.Proper raddr.af)
    (alike : watch.hears world lsrId msg targeted raddr first =
      watch.hears world lsrId msg targeted raddr second)
    (found : content ∈ first) (takes : watch.Takes targeted raddr content) :
    ∃ other ∈ second, watch.Takes targeted raddr other ∧ other.holdtime = content.holdtime ∧
      other.gtsm = content.gtsm ∧
      other.confSeqnum.getD watch.number = content.confSeqnum.getD watch.number := by
  obtain ⟨engine, results, taken | ⟨-, refused⟩⟩ := hears_cases watch world lsrId msg
    targeted properFirst
  case inr => exact absurd takes (refused content found)
  obtain ⟨content', found', -, ⟨adj, adjs, holdtime⟩, nbr⟩ := taken
  cases Option.mem_unique found found'
  rw [alike] at results
  obtain ⟨engine', results', taken | ⟨empty, -⟩⟩ := hears_cases watch world lsrId msg
    targeted properSecond
  case inr =>
    cases results.symm.trans results'
    rw [adjs] at empty
    exact absurd empty (List.cons_ne_nil _ _)
  cases results.symm.trans results'
  obtain ⟨other, found', takes', ⟨adj', adjs', holdtime'⟩, nbr'⟩ := taken
  cases adjs.symm.trans adjs'
  refine ⟨other, found', takes', holdtime'.symm.trans holdtime, ?_, ?_⟩
  · exact congrArg HelloNbr.gtsmNegotiated (nbr'.symm.trans nbr)
  · exact congrArg HelloNbr.confSeqnum (nbr'.symm.trans nbr)

end Watching

/-! ### Only what a Hello says can be told -/

section Telling

variable {lsrId : InAddr} {af : Af} {content other : HelloContent} {world : HelloWorld} {msg : LdpMsg}
  {first second : Option HelloContent}

/-- The preference that an engine with both families reads. -/
theorem transPref_watch (cisco preferV6 : Bool) :
    content.transPref { dual := true, cisco, preferV6 : Watch }.conf =
      content.preference.map fun both => if cisco then both.2 else both.1 := by
  rfl

/-- A recognized preference is known from which engines it suits. -/
theorem recognized_eq {pref pref' : UInt16} (known : recognized pref = pref)
    (known' : recognized pref' = pref')
    (ipv4 : pref = dualStackLdpov4 ↔ pref' = dualStackLdpov4)
    (ipv6 : pref = dualStackLdpov6 ↔ pref' = dualStackLdpov6) : pref = pref' := by
  rw [recognized] at known known'
  split at known
  · rename_i either
    rcases either with same | same
    · rw [same, ipv4.mp same]
    · rw [same, ipv6.mp same]
  · rename_i neither
    rw [if_neg fun either => neither (either.imp ipv4.mpr ipv6.mpr)] at known'
    rw [← known, ← known']

/-- So is whether there is one. -/
theorem preference_eq {pref pref' : Option UInt16} (known : ∀ one ∈ pref, recognized one = one)
    (known' : ∀ one ∈ pref', recognized one = one)
    (suits : ∀ preferV6 : Bool,
      (∀ one ∈ pref, one = { preferV6 : Watch }.pref) ↔ ∀ one ∈ pref', one = { preferV6 : Watch }.pref) :
    pref = pref' := by
  have ipv4 : (∀ one ∈ pref, one = dualStackLdpov4) ↔ ∀ one ∈ pref', one = dualStackLdpov4 :=
    suits false
  have ipv6 : (∀ one ∈ pref, one = dualStackLdpov6) ↔ ∀ one ∈ pref', one = dualStackLdpov6 :=
    suits true
  have both {pref : UInt16} (first : pref = dualStackLdpov4) (second : pref = dualStackLdpov6) : False :=
    absurd (first.symm.trans second) (by decide)
  cases pref with
  | none =>
    cases pref' with
    | none => rfl
    | some one => exact (both (ipv4.mp (by simp) one rfl) (ipv6.mp (by simp) one rfl)).elim
  | some one =>
    cases pref' with
    | none => exact (both (ipv4.mpr (by simp) one rfl) (ipv6.mpr (by simp) one rfl)).elim
    | some one' =>
      simp only [Option.mem_some_iff, forall_eq'] at ipv4 ipv6
      rw [recognized_eq (known one rfl) (known' one' rfl) ipv4 ipv6]

/-- Engines that wait for a Hello treat two alike. -/
structure HeardAlike (world : HelloWorld) (lsrId : InAddr) (msg : LdpMsg) (af : Af)
    (first second : Option HelloContent) : Prop where
  properFirst : ∀ content ∈ first, content.Proper af
  properSecond : ∀ content ∈ second, content.Proper af
  alike : ∀ (watch : Watch) (targeted : Bool) (raddr : LdpdAddr), raddr.af = af →
    watch.hears world lsrId msg targeted raddr first = watch.hears world lsrId msg targeted raddr second

theorem HeardAlike.symm (alike : HeardAlike world lsrId msg af first second) :
    HeardAlike world lsrId msg af second first :=
  ⟨alike.properSecond, alike.properFirst, fun watch targeted raddr family =>
    (alike.alike watch targeted raddr family).symm⟩

/-- An engine that waits for the first of them is told that the second agrees with it. -/
theorem HeardAlike.tells (alike : HeardAlike world lsrId msg af first second) (found : content ∈ first)
    (watch : Watch) (target : content.targeted = true → watch.configured = true ∨ content.request = true)
    (pref : ∀ transPref ∈ content.transPref watch.conf, transPref = watch.pref) :
    ∃ other ∈ second, (other.targeted = content.targeted ∧
        other.transAddr.getD (watchSrc af content.targeted watch.second) =
          content.transAddr.getD (watchSrc af content.targeted watch.second) ∧
        other.holdtime = content.holdtime ∧ other.gtsm = content.gtsm ∧
        other.confSeqnum.getD watch.number = content.confSeqnum.getD watch.number) ∧
      (other.targeted = true → watch.configured = true ∨ other.request = true) ∧
      ∀ transPref ∈ other.transPref watch.conf, transPref = watch.pref := by
  have family := af_getD (alike.properFirst content found) (@af_watchSrc af content.targeted watch.second)
  generalize same : content.transAddr.getD (watchSrc af content.targeted watch.second) = raddr at *
  subst family
  obtain ⟨other, found', takes, stored⟩ := Watch.Takes.other alike.properFirst alike.properSecond
    (alike.alike watch content.targeted raddr rfl) found ⟨rfl, target, pref, same⟩
  exact ⟨other, found', ⟨takes.kind, takes.raddr, stored⟩,
    fun kind => takes.found (takes.kind ▸ kind), takes.pref⟩

/-- Without the other family no preference is read. -/
theorem pref_single {watch : Watch} (single : watch.dual = false) :
    ∀ transPref ∈ content.transPref watch.conf, transPref = watch.pref := by
  have alone : ldpIsDualStack watch.conf = false := by
    show (watch.dual && watch.dual) = false
    rw [single]
    rfl
  rw [HelloContent.transPref, alone, if_neg Bool.false_ne_true]
  exact fun _ found => absurd found (by simp)

/-- The request flag and the preference of the first of them are those of the second. -/
theorem HeardAlike.imp (alike : HeardAlike world lsrId msg af first second) (found : content ∈ first)
    (found' : other ∈ second) :
    (content.request = true → other.request = true) ∧ ∀ cisco preferV6 : Bool,
      (∀ one ∈ content.transPref { dual := true, cisco, preferV6 : Watch }.conf,
        one = { preferV6 : Watch }.pref) →
      ∀ one ∈ other.transPref { dual := true, cisco, preferV6 : Watch }.conf,
        one = { preferV6 : Watch }.pref := by
  constructor
  · intro request
    obtain ⟨same, isSecond, ⟨kind, -⟩, target, -⟩ := alike.tells found { configured := false }
      (fun _ => Or.inr request) (pref_single rfl)
    cases Option.mem_unique isSecond found'
    have targeted := (alike.properFirst content found).request request
    exact (target (kind.trans targeted)).resolve_left Bool.false_ne_true
  · intro cisco preferV6 pref
    obtain ⟨same, isSecond, -, -, pref'⟩ := alike.tells found { dual := true, cisco, preferV6 }
      (fun _ => Or.inl rfl) pref
    cases Option.mem_unique isSecond found'
    exact pref'

/-- An address is known from what is taken instead of it. -/
theorem addr_eq {targeted : Bool} {addr addr' : Option LdpdAddr}
    (same : ∀ second, addr'.getD (watchSrc af targeted second) =
      addr.getD (watchSrc af targeted second)) : addr' = addr := by
  have apart {one : LdpdAddr} (same : ∀ second, watchSrc af targeted second = one) : False :=
    Bool.false_ne_true (watchSrc_inj ((same false).trans (same true).symm))
  cases addr with
  | none =>
    cases addr' with
    | none => rfl
    | some one => exact (apart fun second => (same second).symm).elim
  | some one =>
    cases addr' with
    | none => exact (apart same).elim
    | some one' => exact congrArg some (same false)

theorem number_eq {number number' : Option UInt32}
    (same : ∀ old : UInt32, number'.getD old = number.getD old) : number' = number := by
  have apart {one : UInt32} (same : ∀ old, old = one) : False :=
    absurd ((same 0).trans (same 1).symm) (by decide)
  cases number with
  | none =>
    cases number' with
    | none => rfl
    | some one => exact (apart fun old => (same old).symm).elim
  | some one =>
    cases number' with
    | none => exact (apart same).elim
    | some one' => exact congrArg some (same 0)

/-- Every part of the first Hello is in the second. -/
theorem HeardAlike.mem (alike : HeardAlike world lsrId msg af first second) (found : content ∈ first) :
    content ∈ second := by
  have tells (watch : Watch) (single : watch.dual = false) (configured : watch.configured = true) :=
    alike.tells found watch (fun _ => Or.inl configured) (pref_single single)
  obtain ⟨other, found', ⟨kind, -, holdtime, gtsm, -⟩, -⟩ := tells {} rfl rfl
  have addr : other.transAddr = content.transAddr := by
    refine @addr_eq af content.targeted _ _ fun second => ?_
    obtain ⟨same, isSecond, ⟨-, addr, -⟩, -⟩ := tells { second } rfl rfl
    cases Option.mem_unique isSecond found'
    exact addr
  have number : other.confSeqnum = content.confSeqnum := by
    refine number_eq fun number => ?_
    obtain ⟨same, isSecond, ⟨-, -, -, -, same'⟩, -⟩ := tells { number } rfl rfl
    cases Option.mem_unique isSecond found'
    exact same'
  obtain ⟨asks, suits⟩ := alike.imp found found'
  obtain ⟨asks', suits'⟩ := alike.symm.imp found' found
  have request : other.request = content.request := Bool.eq_iff_iff.mpr ⟨asks', asks⟩
  have layout (cisco : Bool) : (other.preference.map fun both => if cisco then both.2 else both.1) =
      content.preference.map fun both => if cisco then both.2 else both.1 := by
    have known {one : HelloContent} (proper : one.Proper af) :
        ∀ pref ∈ one.preference.map fun both => if cisco then both.2 else both.1,
          recognized pref = pref := by
      intro pref isPref
      obtain ⟨both, isBoth, rfl⟩ := Option.map_eq_some_iff.mp isPref
      cases cisco with
      | true => exact (proper.preference both isBoth).2
      | false => exact (proper.preference both isBoth).1
    refine preference_eq (known (alike.properSecond other found')) (known (alike.properFirst content found))
      fun preferV6 => ?_
    rw [← transPref_watch cisco preferV6, ← transPref_watch cisco preferV6]
    exact ⟨suits' cisco preferV6, suits cisco preferV6⟩
  have preference : other.preference = content.preference := by
    have fst := layout false
    have snd := layout true
    revert fst snd
    cases content.preference with
    | none => exact fun fst _ => Option.map_eq_none_iff.mp fst
    | some both =>
      cases other.preference with
      | none => exact fun fst _ => absurd fst (Option.some_ne_none _).symm
      | some both' =>
        exact fun fst snd => congrArg some (Prod.ext (Option.some.inj fst) (Option.some.inj snd))
  have same : other = content := by
    cases other
    cases content
    simp only [HelloContent.mk.injEq]
    exact ⟨kind, request, gtsm, holdtime, addr, number, preference⟩
  exact same ▸ found'

theorem HeardAlike.eq (alike : HeardAlike world lsrId msg af first second) : first = second :=
  Option.ext fun _ => ⟨alike.mem, alike.symm.mem⟩

end Telling

/-! ### What follows the first message -/

/-- Two datagrams whose headers are in order, and which are equal up to the end of their first
message. What comes after the header of the message goes on to the end of the datagram. -/
structure SameFirstMessage (first second : List UInt8) (lsrId : InAddr) (msg : LdpMsg)
    (buf other : List UInt8) : Prop where
  first : discMessage first = some (lsrId, msg, buf)
  second : discMessage second = some (lsrId, msg, other)
  body : buf.take (msg.length.toNat - ldpMsgLen) = other.take (msg.length.toNat - ldpMsgLen)

section Trailing

variable {first second : List UInt8} {lsrId : InAddr} {msg : LdpMsg} {buf other : List UInt8} {af : Af}

/-- A datagram reaches an engine that waits for it. -/
theorem discRecvPacket_watch (watch : Watch) (world : HelloWorld) (targeted : Bool) (raddr : LdpdAddr)
    (message : discMessage first = some (lsrId, msg, buf)) (hello : msg.type = msgTypeHello) :
    (watch.engine lsrId targeted raddr).discRecvPacket world 1
        (watchSrc raddr.af targeted watch.second) (!targeted) first =
      watch.hears world lsrId msg targeted raddr (HelloContent.of raddr.af buf) := by
  rw [HelloEngine.discRecvPacket, good_watchSrc, if_neg Bool.false_ne_true, discFindIface_watch, message]
  dsimp only
  rw [if_pos hello, recvHello_eq, af_watchSrc]
  rfl

/-- Hellos that no engine tells apart say the same. -/
theorem content_eq (same : SameFirstMessage first second lsrId msg buf other)
    (hello : msg.type = msgTypeHello)
    (alike : ∀ (engine : HelloEngine) (world : HelloWorld) (ifindex : UInt16) (src : LdpdAddr)
      (multicast : Bool), src.af = af →
      engine.discRecvPacket world ifindex src multicast first =
        engine.discRecvPacket world ifindex src multicast second) :
    HelloContent.of af buf = HelloContent.of af other := by
  let world : HelloWorld := ⟨fun _ => false, fun _ => .failed⟩
  have heard : HeardAlike world lsrId msg af (HelloContent.of af buf) (HelloContent.of af other) := by
    refine ⟨fun _ => proper_of, fun _ => proper_of, ?_⟩
    rintro watch targeted raddr rfl
    rw [← discRecvPacket_watch watch world targeted raddr same.first hello,
      ← discRecvPacket_watch watch world targeted raddr same.second hello]
    exact alike _ _ _ _ _ (af_watchSrc targeted watch.second)
  exact heard.eq

/-- What follows the first message is without effect in every state of the engine exactly when the
Hello says the same with it, or when the first message is no Hello. -/
theorem trailer_unheard_iff (same : SameFirstMessage first second lsrId msg buf other) (af : Af) :
    (∀ (engine : HelloEngine) (world : HelloWorld) (ifindex : UInt16) (src : LdpdAddr)
        (multicast : Bool), src.af = af →
        engine.discRecvPacket world ifindex src multicast first =
          engine.discRecvPacket world ifindex src multicast second) ↔
      (msg.type = msgTypeHello → HelloContent.of af buf = HelloContent.of af other) := by
  refine ⟨fun alike hello => content_eq same hello alike, ?_⟩
  rintro equal engine world ifindex src multicast rfl
  rw [HelloEngine.discRecvPacket, HelloEngine.discRecvPacket, same.first, same.second]
  dsimp only
  by_cases hello : msg.type = msgTypeHello
  · simp only [recvHello_eq, equal hello]
  · simp only [if_neg hello]

end Trailing

/-- A link Hello of 10.0.0.2, with some bytes after it. -/
def helloDatagram (trailer : List UInt8) : List UInt8 :=
  [0, 1, 0, 22, 10, 0, 0, 2, 0, 0, 1, 0, 0, 12, 0, 0, 0, 1, 4, 0, 0, 4, 0, 15, 0, 0] ++ trailer

/-- A TLV that is skipped if it is unknown makes no difference. -/
theorem trailer_unheard_wire :
    SameFirstMessage (helloDatagram []) (helloDatagram [0x9f, 0, 0, 0]) 0x0a000002 ⟨0x0100, 12, 1⟩
      [4, 0, 0, 4, 0, 15, 0, 0] [4, 0, 0, 4, 0, 15, 0, 0, 0x9f, 0, 0, 0] ∧
    ∀ (engine : HelloEngine) (world : HelloWorld) (ifindex : UInt16) (src : LdpdAddr)
      (multicast : Bool), src.af = .inet →
      engine.discRecvPacket world ifindex src multicast (helloDatagram []) =
        engine.discRecvPacket world ifindex src multicast (helloDatagram [0x9f, 0, 0, 0]) := by
  have same : SameFirstMessage (helloDatagram []) (helloDatagram [0x9f, 0, 0, 0]) 0x0a000002
      ⟨0x0100, 12, 1⟩ [4, 0, 0, 4, 0, 15, 0, 0] [4, 0, 0, 4, 0, 15, 0, 0, 0x9f, 0, 0, 0] :=
    ⟨by decide +kernel, by decide +kernel, by decide +kernel⟩
  exact ⟨same, (trailer_unheard_iff same .inet).mpr fun _ => by decide +kernel⟩

/-- One byte of padding makes a difference: the Hello is not accepted with it. -/
theorem padding_heard :
    SameFirstMessage (helloDatagram []) (helloDatagram [0]) 0x0a000002 ⟨0x0100, 12, 1⟩
      [4, 0, 0, 4, 0, 15, 0, 0] [4, 0, 0, 4, 0, 15, 0, 0, 0] ∧
    ¬∀ (engine : HelloEngine) (world : HelloWorld) (ifindex : UInt16) (src : LdpdAddr)
      (multicast : Bool), src.af = .inet →
      engine.discRecvPacket world ifindex src multicast (helloDatagram []) =
        engine.discRecvPacket world ifindex src multicast (helloDatagram [0]) := by
  have same : SameFirstMessage (helloDatagram []) (helloDatagram [0]) 0x0a000002 ⟨0x0100, 12, 1⟩
      [4, 0, 0, 4, 0, 15, 0, 0] [4, 0, 0, 4, 0, 15, 0, 0, 0] :=
    ⟨by decide +kernel, by decide +kernel, by decide +kernel⟩
  refine ⟨same, fun alike => ?_⟩
  have heard : (HelloContent.of .inet [4, 0, 0, 4, 0, 15, 0, 0]).isSome = true := by decide +kernel
  have unheard : (HelloContent.of .inet [4, 0, 0, 4, 0, 15, 0, 0, 0]).isSome = false := by
    decide +kernel
  rw [content_eq same (by decide) alike, unheard] at heard
  exact Bool.false_ne_true heard

end Ldpd
