/-
This file is about what `merge_config` leads to. After it the configuration of a process
says what the new configuration says, in each of the three processes; and a new
configuration that says nothing new changes nothing and makes the process do nothing.
-/

import Ldpd.Main.Config

namespace Ldpd

/-! ### What a configuration says -/

/-- What is configured of a pseudowire. -/
def ConfPw.content (pw : ConfPw) : ConfPw :=
  { pw with
    flags := { statustlvConf := pw.flags.statustlvConf, cwordConf := pw.flags.cwordConf } }

/-- What is configured of an L2VPN. -/
structure L2vpnContent where
  name : String
  pwType : Int
  mtu : Int
  brIfname : String
  brIfindex : UInt32
  interfaces : Set UInt32
  pseudowires : Set ConfPw

def ConfL2vpn.content (l2vpn : ConfL2vpn) : L2vpnContent where
  name := l2vpn.name
  pwType := l2vpn.pwType
  mtu := l2vpn.mtu
  brIfname := l2vpn.brIfname
  brIfindex := l2vpn.brIfindex
  interfaces := Reconcile.contents (fun lif => some lif.ifindex) l2vpn.ifList
  pseudowires := Reconcile.contents (fun pw => some pw.content) l2vpn.pwList

/-- What is configured of a targeted neighbor. One that comes from a Hello or from a pseudowire is
not configured. -/
def ConfTnbr.content (tnbr : ConfTnbr) : Option (LdpdAddr × UInt16 × UInt16) :=
  if tnbr.configured then some (tnbr.addr, tnbr.helloHoldtime, tnbr.helloInterval) else none

/-- What is configured of an interface. -/
def ConfIface.content (iface : ConfIface) : UInt32 × ConfIfaceAf × ConfIfaceAf :=
  (iface.ifindex, iface.ipv4, iface.ipv6)

/-- What a configuration says. -/
structure ConfContent where
  rtrId : InAddr
  ipv4 : LdpdAfConf InAddr
  ipv6 : LdpdAfConf In6Addr
  transPref : UInt16
  flags : ConfFlags
  interfaces : Set (UInt32 × ConfIfaceAf × ConfIfaceAf)
  targeted : Set (LdpdAddr × UInt16 × UInt16)
  neighbors : Set NbrParams
  l2vpns : Set L2vpnContent

namespace LdpdConf

def content (conf : LdpdConf) : ConfContent where
  rtrId := conf.rtrId
  ipv4 := conf.ipv4
  ipv6 := conf.ipv6
  transPref := conf.transPref
  flags := conf.flags
  interfaces := Reconcile.contents (fun iface => some iface.content) conf.ifaceList
  targeted := Reconcile.contents ConfTnbr.content conf.tnbrList
  neighbors := Reconcile.contents some conf.nbrpList
  l2vpns := Reconcile.contents (fun l2vpn => some l2vpn.content) conf.l2vpnList

/-- The keys of all lists are unique. -/
structure Unique (conf : LdpdConf) : Prop where
  ifaces : (conf.ifaceList.map ConfIface.ifindex).Nodup
  tnbrs : (conf.tnbrList.map ConfTnbr.addr).Nodup
  nbrps : (conf.nbrpList.map NbrParams.lsrId).Nodup
  l2vpns : (conf.l2vpnList.map ConfL2vpn.name).Nodup
  l2vpnIfs : ∀ l2vpn ∈ conf.l2vpnList, (l2vpn.ifList.map ConfL2vpnIf.ifindex).Nodup
  pws : ∀ l2vpn ∈ conf.l2vpnList, (l2vpn.pwList.map ConfPw.ifindex).Nodup

/-- A configuration as `parse_config` returns it: the keys are unique, and `conf_get_tnbr` marks
every targeted neighbor as configured. -/
structure Parsed (xconf : LdpdConf) : Prop extends Unique xconf where
  configured : ∀ xt ∈ xconf.tnbrList, xt.configured

variable (process : LdpdProcess)

/-! ### The rules -/

theorem lawful_ifaceRules : (ifaceRules process).Lawful where
  drop stays := by cases stays
  add _ := rfl
  update same := same

theorem tnbrCheck_eq {tnbr stays : ConfTnbr} (left : (tnbrCheck tnbr).1 = some stays) :
    stays = tnbr := by
  rw [tnbrCheck] at left
  split at left
  · cases left
  · exact (Option.some_inj.mp left).symm

theorem lawful_tnbrRules : (tnbrRules process).Lawful where
  drop {item stays} left := by
    simp only [tnbrRules] at left
    split at left
    · cases left
      rfl
    · split at left
      · rw [tnbrCheck_eq left]
        rfl
      · cases left
  add _ := rfl
  update same := same

theorem lawful_nbrpRules : (nbrpRules process).Lawful where
  drop stays := by cases stays
  add _ := rfl
  update same := same

theorem lawful_l2vpnIfRules : l2vpnIfRules.Lawful where
  drop stays := by cases stays
  add _ := rfl
  update same := same

theorem lawful_pwRules (l2vpn xl : ConfL2vpn) : (pwRules process l2vpn xl).Lawful where
  drop stays := by cases stays
  add _ := rfl
  update _ := rfl

theorem lawful_l2vpnRules : (l2vpnRules process).Lawful where
  drop stays := by cases stays
  add _ := rfl
  update same := same

/-! ### Layer 2 VPNs -/

section L2vpn

variable {l2vpn xl : ConfL2vpn}

theorem unique_mergeL2vpn (ifs : (l2vpn.ifList.map ConfL2vpnIf.ifindex).Nodup)
    (pws : (l2vpn.pwList.map ConfPw.ifindex).Nodup) :
    ((mergeL2vpn process l2vpn xl).1.ifList.map ConfL2vpnIf.ifindex).Nodup ∧
      ((mergeL2vpn process l2vpn xl).1.pwList.map ConfPw.ifindex).Nodup :=
  ⟨Reconcile.unique_merge lawful_l2vpnIfRules ifs xl.ifList,
    Reconcile.unique_merge (lawful_pwRules process l2vpn xl) pws xl.pwList⟩

theorem content_mergeL2vpn (same : l2vpn.name = xl.name)
    (ifs : (l2vpn.ifList.map ConfL2vpnIf.ifindex).Nodup)
    (pws : (l2vpn.pwList.map ConfPw.ifindex).Nodup)
    (xifs : (xl.ifList.map ConfL2vpnIf.ifindex).Nodup)
    (xpws : (xl.pwList.map ConfPw.ifindex).Nodup) :
    (mergeL2vpn process l2vpn xl).1.content = xl.content := by
  have faithful : Reconcile.Faithful (fun lif => some lif.ifindex) l2vpnIfRules l2vpn.ifList
      xl.ifList :=
    { drop := fun _ _ _ stays => by cases stays
      add := fun _ _ => rfl
      update := fun _ _ _ _ same => congrArg some same }
  have faithful' : Reconcile.Faithful (fun pw => some pw.content) (pwRules process l2vpn xl)
      l2vpn.pwList xl.pwList :=
    { drop := fun _ _ _ stays => by cases stays
      add := fun _ _ => rfl
      update := fun _ _ _ _ _ => rfl }
  have interfaces := Reconcile.contents_merge lawful_l2vpnIfRules ifs xifs faithful
  have pseudowires := Reconcile.contents_merge (lawful_pwRules process l2vpn xl) pws xpws faithful'
  simp only [ConfL2vpn.content, mergeL2vpn, interfaces, pseudowires, same]

theorem pwMerge_of_content {pw xp : ConfPw} (same : pw.content = xp.content) :
    pwMerge xp pw = pw := by
  simp only [ConfPw.content, ConfPw.mk.injEq, PwFlags.mk.injEq] at same
  obtain ⟨lsrId, addr, pwid, ifname, ifindex, statustlv, -, cword, -⟩ := same
  simp only [pwMerge, ← lsrId, ← addr, ← pwid, ← ifname, ← ifindex, ← statustlv, ← cword]

theorem pwEffects_of_content {pw xp : ConfPw} (same : pw.content = xp.content)
    (pwType : l2vpn.pwType = xl.pwType) (mtu : l2vpn.mtu = xl.mtu) :
    pwEffects process l2vpn xl xp pw = [] := by
  simp only [ConfPw.content, ConfPw.mk.injEq, PwFlags.mk.injEq] at same
  obtain ⟨lsrId, addr, pwid, -, -, statustlv, -, cword, -⟩ := same
  cases process <;> simp [pwEffects, effectsIf, lsrId, addr, pwid, statustlv, cword, pwType, mtu]

theorem mergeL2vpn_of_content (ifs : (l2vpn.ifList.map ConfL2vpnIf.ifindex).Nodup)
    (pws : (l2vpn.pwList.map ConfPw.ifindex).Nodup) (same : l2vpn.content = xl.content) :
    mergeL2vpn process l2vpn xl = (l2vpn, []) := by
  simp only [ConfL2vpn.content, L2vpnContent.mk.injEq] at same
  obtain ⟨-, pwType, mtu, brIfname, brIfindex, interfaces, pseudowires⟩ := same
  have idle : Reconcile.Idle (fun lif => some lif.ifindex) l2vpnIfRules l2vpn.ifList xl.ifList :=
    { known := fun _ _ => rfl
      hidden := fun _ _ hidden => by cases hidden
      key := fun _ _ _ _ _ first second =>
        (Option.some_inj.mp first).trans (Option.some_inj.mp second).symm
      update := fun _ _ _ _ _ _ _ => rfl }
  have idle' : Reconcile.Idle (fun pw => some pw.content) (pwRules process l2vpn xl) l2vpn.pwList
      xl.pwList := by
    have equal {said : ConfPw} {pw xp : ConfPw} (first : some pw.content = some said)
        (second : some xp.content = some said) : pw.content = xp.content :=
      (Option.some_inj.mp first).trans (Option.some_inj.mp second).symm
    refine ⟨fun _ _ => rfl, fun _ _ hidden => (by cases hidden), ?_, ?_⟩
    · intro pw _ xp _ said first second
      exact (congrArg ConfPw.ifindex (equal first second) : pw.content.ifindex = xp.content.ifindex)
    · intro pw _ xp _ said first second
      exact Prod.ext (pwMerge_of_content (equal first second))
        (pwEffects_of_content process (equal first second) pwType mtu)
  have merged := Reconcile.merge_of_contents idle ifs interfaces
  have merged' := Reconcile.merge_of_contents idle' pws pseudowires
  rw [mergeL2vpn, merged, merged', ← pwType, ← mtu, ← brIfname, ← brIfindex]

end L2vpn

/-! ### Targeted neighbors -/

section Tnbrs

variable {tnbrs : List ConfTnbr}

theorem nodup_filterMap {change : ConfTnbr → Option ConfTnbr}
    (keeps : ∀ tnbr stays, change tnbr = some stays → stays.addr = tnbr.addr)
    (unique : (tnbrs.map ConfTnbr.addr).Nodup) :
    ((tnbrs.filterMap change).map ConfTnbr.addr).Nodup := by
  refine unique.sublist ?_
  induction tnbrs with
  | nil => exact List.Sublist.slnil
  | cons tnbr rest inductionHypothesis =>
    have shorter := inductionHypothesis (List.nodup_cons.mp unique).2
    rw [List.filterMap_cons]
    cases changed : change tnbr with
    | none => exact shorter.cons _
    | some stays =>
      simp only [List.map_cons, keeps tnbr stays changed]
      exact shorter.cons_cons _

theorem tnbrCheck_none {tnbr : ConfTnbr} (gone : (tnbrCheck tnbr).1 = none) :
    tnbr.configured = false := by
  rw [tnbrCheck] at gone
  split at gone
  · simp_all
  · cases gone

theorem nodup_thelloAcceptTnbrs (af : Af) (xflags flags : AfFlags)
    (unique : (tnbrs.map ConfTnbr.addr).Nodup) :
    ((thelloAcceptTnbrs process af xflags flags tnbrs).map ConfTnbr.addr).Nodup := by
  rw [thelloAcceptTnbrs]
  split
  · refine nodup_filterMap (fun tnbr stays left => ?_) unique
    split at left
    · rw [tnbrCheck_eq left]
    · cases left
      rfl
  · exact unique

theorem contents_put_count {addr : LdpdAddr} {tnbr : ConfTnbr}
    (found : Reconcile.find (tnbrRules .ldpEngine) addr tnbrs = some tnbr) (pwCount : UInt16) :
    Reconcile.contents ConfTnbr.content
        (Reconcile.put (tnbrRules .ldpEngine) { tnbr with pwCount } tnbrs) =
      Reconcile.contents ConfTnbr.content tnbrs := by
  have key : tnbr.addr = addr := Reconcile.key_of_find found
  subst key
  exact Reconcile.contents_put found rfl

/-- A pseudowire changes nothing about the targeted neighbors that are configured. -/
theorem contents_pwTnbrs (conf : LdpdConf) (effect : MergeEffect) :
    Reconcile.contents ConfTnbr.content (pwTnbrs conf tnbrs effect) =
      Reconcile.contents ConfTnbr.content tnbrs := by
  cases effect with
  | tnbrInit addr =>
    rw [pwTnbrs]
    split
    · rename_i tnbr found
      exact contents_put_count found _
    · rw [Reconcile.contents_cons]
      simp [ConfTnbr.content]
  | tnbrExit addr =>
    rw [pwTnbrs]
    split
    · rename_i tnbr found
      split
      · rename_i stays left
        rw [tnbrCheck_eq left]
        exact contents_put_count found _
      · rename_i gone
        have configured := tnbrCheck_none gone
        simp only at configured
        exact Reconcile.contents_eraseP found (by simp [ConfTnbr.content, configured])
    · rfl
  | _ => rfl

theorem keys_put (tnbr : ConfTnbr) :
    (Reconcile.put (tnbrRules .ldpEngine) tnbr tnbrs).map ConfTnbr.addr =
      tnbrs.map ConfTnbr.addr :=
  @Reconcile.keys_put _ _ _ _ (tnbrRules .ldpEngine) tnbr tnbrs

theorem nodup_pwTnbrs (conf : LdpdConf) (effect : MergeEffect)
    (unique : (tnbrs.map ConfTnbr.addr).Nodup) :
    ((pwTnbrs conf tnbrs effect).map ConfTnbr.addr).Nodup := by
  have put (tnbr : ConfTnbr) :
      ((Reconcile.put (tnbrRules .ldpEngine) tnbr tnbrs).map ConfTnbr.addr).Nodup := by
    rw [keys_put]
    exact unique
  cases effect with
  | tnbrInit addr =>
    rw [pwTnbrs]
    split
    · exact put _
    · rename_i absent
      exact List.nodup_cons.mpr ⟨Reconcile.find_eq_none.mp absent, unique⟩
  | tnbrExit addr =>
    rw [pwTnbrs]
    split
    · split
      · exact put _
      · exact unique.sublist (List.eraseP_sublist.map _)
    · exact unique
  | _ => exact unique

theorem faithful_tnbrRules {xts : List ConfTnbr} (configured : ∀ xt ∈ xts, xt.configured) :
    Reconcile.Faithful ConfTnbr.content (tnbrRules process) tnbrs xts where
  drop tnbr _ stays left := by
    simp only [tnbrRules] at left
    split at left
    · rename_i unconfigured
      cases left
      simpa [ConfTnbr.content] using unconfigured
    · split at left
      · rw [tnbrCheck_eq left]
        rfl
      · cases left
  add _ _ := rfl
  update tnbr _ xt member same := by
    have same : tnbr.addr = xt.addr := same
    simp [ConfTnbr.content, tnbrRules, configured xt member, same]

theorem idle_tnbrRules {xts : List ConfTnbr} (configured : ∀ xt ∈ xts, xt.configured) :
    Reconcile.Idle ConfTnbr.content (tnbrRules process) tnbrs xts := by
  have content {tnbr : ConfTnbr} {said : LdpdAddr × UInt16 × UInt16}
      (told : tnbr.content = some said) :
      tnbr.configured ∧ (tnbr.addr, tnbr.helloHoldtime, tnbr.helloInterval) = said := by
    rw [ConfTnbr.content] at told
    split at told
    · exact ⟨by assumption, Option.some_inj.mp told⟩
    · cases told
  refine ⟨fun xt member => ?_, fun tnbr _ hidden => ?_, ?_, ?_⟩
  · simp [ConfTnbr.content, configured xt member]
  · have unconfigured : tnbr.configured = false := by simpa [ConfTnbr.content] using hidden
    simp [tnbrRules, unconfigured]
  · intro tnbr _ xt _ said first second
    have equal := (content first).2.trans (content second).2.symm
    exact congrArg Prod.fst equal
  · intro tnbr _ xt _ said first second
    have equal := (content first).2.trans (content second).2.symm
    simp only [Prod.mk.injEq] at equal
    simp only [tnbrRules, ← equal.2.1, ← equal.2.2, ← (content first).1]

end Tnbrs

/-! ### Interfaces, neighbor parameters and L2VPNs -/

theorem faithful_ifaceRules (ifaces xis : List ConfIface) :
    Reconcile.Faithful (fun iface => some iface.content) (ifaceRules process) ifaces xis where
  drop _ _ _ stays := by cases stays
  add _ _ := rfl
  update iface _ xi _ same := by
    have same : iface.ifindex = xi.ifindex := same
    simp [ConfIface.content, ifaceRules, same]

theorem idle_ifaceRules (ifaces xis : List ConfIface) :
    Reconcile.Idle (fun iface => some iface.content) (ifaceRules process) ifaces xis := by
  refine ⟨fun _ _ => rfl, fun _ _ hidden => (by cases hidden), ?_, ?_⟩
  · intro iface _ xi _ said first second
    exact congrArg Prod.fst (Option.some_inj.mp (first.trans second.symm))
  · intro iface _ xi _ said first second
    have equal := Option.some_inj.mp (first.trans second.symm)
    simp only [ConfIface.content, Prod.mk.injEq] at equal
    simp [ifaceRules, ifaceAfEffects, effectsIf, ← equal.2.1, ← equal.2.2]

theorem nbrpMerge_eq {nbrp xn : NbrParams} (same : nbrp.lsrId = xn.lsrId) : nbrpMerge xn nbrp = xn := by
  simp [nbrpMerge, same]

theorem faithful_nbrpRules (nbrps xns : List NbrParams) :
    Reconcile.Faithful some (nbrpRules process) nbrps xns where
  drop _ _ _ stays := by cases stays
  add _ _ := rfl
  update _ _ _ _ same := congrArg some (nbrpMerge_eq same)

theorem idle_nbrpRules (nbrps xns : List NbrParams) :
    Reconcile.Idle some (nbrpRules process) nbrps xns := by
  refine ⟨fun _ _ => rfl, fun _ _ hidden => (by cases hidden), ?_, ?_⟩
  · intro nbrp _ xn _ said first second
    exact congrArg NbrParams.lsrId (Option.some_inj.mp (first.trans second.symm))
  · intro nbrp _ xn _ said first second
    obtain rfl := Option.some_inj.mp (first.trans second.symm)
    simp [nbrpRules, nbrpMerge_eq, nbrpChanged, effectsIf]

variable {conf xconf : LdpdConf}

theorem faithful_l2vpnRules (unique : conf.Unique) (xunique : xconf.Unique) :
    Reconcile.Faithful (fun l2vpn => some l2vpn.content) (l2vpnRules process) conf.l2vpnList
      xconf.l2vpnList where
  drop _ _ _ stays := by cases stays
  add _ _ := rfl
  update l2vpn member xl xmember same :=
    congrArg some (content_mergeL2vpn process same (unique.l2vpnIfs l2vpn member)
      (unique.pws l2vpn member) (xunique.l2vpnIfs xl xmember) (xunique.pws xl xmember))

theorem idle_l2vpnRules (unique : conf.Unique) :
    Reconcile.Idle (fun l2vpn => some l2vpn.content) (l2vpnRules process) conf.l2vpnList
      xconf.l2vpnList := by
  refine ⟨fun _ _ => rfl, fun _ _ hidden => (by cases hidden), ?_, ?_⟩
  · intro l2vpn _ xl _ said first second
    exact congrArg L2vpnContent.name (Option.some_inj.mp (first.trans second.symm))
  · intro l2vpn member xl _ said first second
    exact mergeL2vpn_of_content process (unique.l2vpnIfs l2vpn member) (unique.pws l2vpn member)
      (Option.some_inj.mp (first.trans second.symm))

/-! ### The merge -/

/-- The targeted neighbors in the middle of a merge, before `merge_tnbrs`. -/
def tnbrsBefore (xconf conf : LdpdConf) : List ConfTnbr :=
  thelloAcceptTnbrs process .inet6 xconf.ipv6.flags conf.ipv6.flags
    (thelloAcceptTnbrs process .inet xconf.ipv4.flags conf.ipv4.flags conf.tnbrList)

theorem nodup_tnbrsBefore (unique : conf.Unique) :
    ((tnbrsBefore process xconf conf).map ConfTnbr.addr).Nodup :=
  nodup_thelloAcceptTnbrs process _ _ _ (nodup_thelloAcceptTnbrs process _ _ _ unique.tnbrs)

/-- The targeted neighbors after a merge. -/
theorem tnbrList_mergeConfig (conf xconf : LdpdConf) :
    ∃ settings : LdpdConf, (mergeConfig process conf xconf).1.tnbrList =
      (Reconcile.merge (l2vpnRules process) conf.l2vpnList xconf.l2vpnList).2.foldl
        (pwTnbrs settings)
        (Reconcile.merge (tnbrRules process) (tnbrsBefore process xconf conf) xconf.tnbrList).1 :=
  ⟨_, rfl⟩

theorem unique_mergeConfig (unique : conf.Unique) (parsed : xconf.Parsed) :
    (mergeConfig process conf xconf).1.Unique := by
  have nested : ∀ l2vpn ∈ (mergeConfig process conf xconf).1.l2vpnList,
      (l2vpn.ifList.map ConfL2vpnIf.ifindex).Nodup ∧ (l2vpn.pwList.map ConfPw.ifindex).Nodup := by
    intro l2vpn member
    rcases Reconcile.mem_merge (lawful_l2vpnRules process) unique.l2vpns parsed.l2vpns member with
      ⟨source, source', -, rfl⟩ | ⟨before, before', source, source', same, rfl⟩ |
      ⟨before, before', stays⟩
    · exact ⟨parsed.l2vpnIfs _ source', parsed.pws _ source'⟩
    · exact unique_mergeL2vpn process (unique.l2vpnIfs before before') (unique.pws before before')
    · cases stays
  refine ⟨?_, ?_, ?_, ?_, fun l2vpn member => (nested l2vpn member).1,
    fun l2vpn member => (nested l2vpn member).2⟩
  · exact Reconcile.unique_merge (lawful_ifaceRules process) unique.ifaces xconf.ifaceList
  · obtain ⟨settings, tnbrs⟩ := tnbrList_mergeConfig process conf xconf
    rw [tnbrs]
    refine List.foldlRecOn _ (pwTnbrs settings)
      (motive := fun tnbrs => (tnbrs.map ConfTnbr.addr).Nodup) ?_ fun tnbrs unique effect _ =>
        nodup_pwTnbrs settings effect unique
    exact Reconcile.unique_merge (lawful_tnbrRules process) (nodup_tnbrsBefore process unique) _
  · exact Reconcile.unique_merge (lawful_nbrpRules process) unique.nbrps xconf.nbrpList
  · exact Reconcile.unique_merge (lawful_l2vpnRules process) unique.l2vpns xconf.l2vpnList

theorem content_mergeConfig (unique : conf.Unique) (parsed : xconf.Parsed) :
    (mergeConfig process conf xconf).1.content = xconf.content := by
  have interfaces := Reconcile.contents_merge (lawful_ifaceRules process) unique.ifaces parsed.ifaces
    (faithful_ifaceRules process _ _)
  have neighbors := Reconcile.contents_merge (lawful_nbrpRules process) unique.nbrps parsed.nbrps
    (faithful_nbrpRules process _ _)
  have l2vpns := Reconcile.contents_merge (lawful_l2vpnRules process) unique.l2vpns parsed.l2vpns
    (faithful_l2vpnRules process unique parsed.toUnique)
  have targeted : (mergeConfig process conf xconf).1.content.targeted = xconf.content.targeted := by
    obtain ⟨settings, tnbrs⟩ := tnbrList_mergeConfig process conf xconf
    rw [content, tnbrs]
    refine List.foldlRecOn _ (pwTnbrs settings) (motive := fun tnbrs =>
      Reconcile.contents ConfTnbr.content tnbrs = xconf.content.targeted) ?_
      fun tnbrs same effect _ => (contents_pwTnbrs settings effect).trans same
    exact Reconcile.contents_merge (lawful_tnbrRules process) (nodup_tnbrsBefore process unique)
      parsed.tnbrs (faithful_tnbrRules process parsed.configured)
  rw [content, content, ConfContent.mk.injEq]
  exact ⟨rfl, rfl, rfl, rfl, rfl, interfaces, targeted, neighbors, l2vpns⟩

/-- Every part of a merge with a configuration that says the same leaves everything as it is. -/
theorem mergeParts_of_content (unique : conf.Unique) (parsed : xconf.Parsed)
    (same : conf.content = xconf.content) :
    ∀ part ∈ mergeParts process xconf, part conf = (conf, []) := by
  simp only [content, ConfContent.mk.injEq] at same
  obtain ⟨rtrId, ipv4, ipv6, transPref, flags, interfaces, targeted, neighbors, l2vpns⟩ := same
  have ifaceList := Reconcile.merge_of_contents (idle_ifaceRules process _ _) unique.ifaces interfaces
  have tnbrList := Reconcile.merge_of_contents (idle_tnbrRules process parsed.configured)
    unique.tnbrs targeted
  have nbrpList := Reconcile.merge_of_contents (idle_nbrpRules process _ _) unique.nbrps neighbors
  have l2vpnList := Reconcile.merge_of_contents (idle_l2vpnRules process unique) unique.l2vpns l2vpns
  intro part member
  simp only [mergeParts, List.mem_cons, List.not_mem_nil, or_false] at member
  rcases member with rfl | rfl | rfl | rfl | rfl | rfl | rfl
  · simp [mergeGlobal, ← rtrId, ← transPref, ← flags, effectsIf]
  · have accepted (flags : AfFlags) : thelloAcceptTnbrs process .inet flags flags conf.tnbrList =
        conf.tnbrList := by
      simp [thelloAcceptTnbrs]
    simp [mergeIpv4, ← ipv4, afEffects, accepted, effectsIf]
  · have accepted (flags : AfFlags) : thelloAcceptTnbrs process .inet6 flags flags conf.tnbrList =
        conf.tnbrList := by
      simp [thelloAcceptTnbrs]
    simp [mergeIpv6, ← ipv6, afEffects, accepted, effectsIf]
  · rw [mergeIfaces, ifaceList]
  · rw [mergeTnbrs, tnbrList]
  · rw [mergeNbrps, nbrpList]
  · rw [mergeL2vpns, l2vpnList]
    rfl

theorem mergeConfig_of_content (unique : conf.Unique) (parsed : xconf.Parsed)
    (same : conf.content = xconf.content) : mergeConfig process conf xconf = (conf, []) := by
  refine List.foldlRecOn (mergeParts process xconf) mergePart
    (motive := fun so => so = (conf, [])) rfl ?_
  rintro so rfl part member
  rw [mergePart, mergeParts_of_content process unique parsed same part member]
  rfl

end LdpdConf

/-- A reload installs the new configuration and nothing more. In each of the three processes the
configuration says what the new one says, and its keys stay unique; and if it said so before, it is
as it was and the process does nothing. -/
theorem mergeConfig_installs (process : LdpdProcess) (conf xconf : LdpdConf) (unique : conf.Unique)
    (parsed : xconf.Parsed) :
    (LdpdConf.mergeConfig process conf xconf).1.content = xconf.content ∧
      (LdpdConf.mergeConfig process conf xconf).1.Unique ∧
      (conf.content = xconf.content → LdpdConf.mergeConfig process conf xconf = (conf, [])) :=
  ⟨LdpdConf.content_mergeConfig process unique parsed,
    LdpdConf.unique_mergeConfig process unique parsed,
    LdpdConf.mergeConfig_of_content process unique parsed⟩

/-- An L2VPN with a pseudowire to a neighbor. -/
def pwVpn (addr : InAddr) : LdpdConf where
  rtrId := 1
  tnbrList := [{ addr := .v4 9, helloHoldtime := 45, helloInterval := 5, configured := true }]
  l2vpnList := [{ name := "vpn", pwType := 5, mtu := 1500
                  pwList := [{ lsrId := addr, addr := .v4 addr, pwid := 100, ifname := "mpw0"
                               ifindex := 7 }] }]

theorem parsed_pwVpn (addr : InAddr) : (pwVpn addr).Parsed := by
  refine ⟨⟨?_, ?_, ?_, ?_, ?_, ?_⟩, ?_⟩ <;> simp [pwVpn]

/-- The pseudowire moves to another neighbor, and then the same configuration is loaded again. -/
theorem mergeConfig_installs_pwVpn :
    (LdpdConf.mergeConfig .ldpEngine (pwVpn 2) (pwVpn 3)).1.content = (pwVpn 3).content ∧
      (LdpdConf.mergeConfig .ldpEngine (pwVpn 2) (pwVpn 3)).2 =
        [.tnbrExit (.v4 2), .tnbrInit (.v4 3)] ∧
      LdpdConf.mergeConfig .ldpEngine (pwVpn 3) (pwVpn 3) = (pwVpn 3, []) :=
  ⟨(mergeConfig_installs .ldpEngine _ _ (parsed_pwVpn 2).toUnique (parsed_pwVpn 3)).1,
    by decide +kernel,
    (mergeConfig_installs .ldpEngine _ _ (parsed_pwVpn 3).toUnique (parsed_pwVpn 3)).2.2 rfl⟩

end Ldpd
