/-
This file is about the settings that the objects of an accepted configuration have: those of
the families, and those of the interfaces, targeted neighbors and pseudowires. They are what
the parser remembers at the end of the block of the object. So they depend on what stands
in other blocks as far as earlier L2VPNs say something about pseudowires, and no further.
-/

import Ldpd.Main.Scope

namespace Ldpd

/-! ### Settings -/

/-- What an object takes from the defaults. -/
inductive Settings where
  | family (keepalive thelloHoldtime thelloInterval : UInt16) (flags : AfFlags)
  | hello (holdtime interval : UInt16)
  | pseudowire (flags : PwFlags)
  deriving DecidableEq, Repr

/-- The settings of an object at the end of its block. -/
def Object.takes (defs : ConfigDefaults) : Object → Settings
  | .family _ =>
    .family defs.keepalive defs.thelloHoldtime defs.thelloInterval
      { defs.afflags with enabled := true }
  | .interface _ _ => .hello defs.lhelloHoldtime defs.lhelloInterval
  | .tneighbor _ => .hello defs.thelloHoldtime defs.thelloInterval
  | .pseudowire _ => .pseudowire defs.pwflags

def LdpdAfConf.settings {Addr : Type} (afConf : LdpdAfConf Addr) : Option Settings :=
  if afConf.flags.enabled then
    some (.family afConf.keepalive afConf.thelloHoldtime afConf.thelloInterval afConf.flags)
  else none

def ConfIfaceAf.settings (ia : ConfIfaceAf) : Option Settings :=
  if ia.enabled then some (.hello ia.helloHoldtime ia.helloInterval) else none

/-- An interface for a family. -/
def LdpdConf.ifaceAf (conf : LdpdConf) (ifindex : UInt32) (af : Af) : Option ConfIfaceAf :=
  (conf.ifaceList.find? fun iface => iface.ifindex = ifindex).map (Parse.ifaceAfGet · af)

def LdpdConf.tnbrSettings (conf : LdpdConf) (addr : LdpdAddr) : Option Settings :=
  (conf.tnbrList.find? fun tnbr => tnbr.addr = addr).map fun tnbr =>
    .hello tnbr.helloHoldtime tnbr.helloInterval

/-- The settings of an object, if there is one. -/
def LdpdConf.settings (conf : LdpdConf) : Object → Option Settings
  | .family .inet => conf.ipv4.settings
  | .family .inet6 => conf.ipv6.settings
  | .interface ifindex af => (conf.ifaceAf ifindex af).bind ConfIfaceAf.settings
  | .tneighbor addr => conf.tnbrSettings addr
  | .pseudowire ifindex =>
    ((conf.l2vpnList.flatMap ConfL2vpn.pwList).find? fun pw => pw.ifindex = ifindex).map fun pw =>
      .pseudowire pw.flags

/-- The settings of a pseudowire while the file is parsed. -/
def Statics.pwSettings (s : Statics) (ifindex : UInt32) : Option Settings :=
  ((Parse.allPws s).find? fun pw => pw.ifindex = ifindex).map fun pw => .pseudowire pw.flags

/-- The settings of an object while the file is parsed. -/
def Statics.settings (s : Statics) : Object → Option Settings
  | .pseudowire ifindex => s.pwSettings ifindex
  | .family af => s.conf.settings (.family af)
  | .interface ifindex af => s.conf.settings (.interface ifindex af)
  | .tneighbor addr => s.conf.settings (.tneighbor addr)

/-- The object whose settings are still those it was made with. -/
def Statics.opened (s : Statics) : Level → Option Object
  | .interface => s.ia.map fun ia => .interface ia.1 ia.2
  | .tneighbor => s.tnbr.map .tneighbor
  | .pseudowire => s.pw.map .pseudowire
  | _ => none

variable {s s' : Statics} {action : Action} {level level' : Level} {object : Object}
  {base : ConfigDefaults} {before : Trace}

theorem settings_congr (ipv4 : s'.conf.ipv4.settings = s.conf.ipv4.settings)
    (ipv6 : s'.conf.ipv6.settings = s.conf.ipv6.settings)
    (ifaces : ∀ ifindex af, (s'.conf.ifaceAf ifindex af).bind ConfIfaceAf.settings =
      (s.conf.ifaceAf ifindex af).bind ConfIfaceAf.settings)
    (tnbrs : s'.conf.tnbrList = s.conf.tnbrList) (pws : Parse.allPws s' = Parse.allPws s)
    (object : Object) : s'.settings object = s.settings object := by
  cases object with
  | family af =>
    cases af with
    | inet => exact ipv4
    | inet6 => exact ipv6
  | interface ifindex af => exact ifaces ifindex af
  | tneighbor addr =>
    show s'.conf.tnbrSettings addr = s.conf.tnbrSettings addr
    rw [LdpdConf.tnbrSettings, LdpdConf.tnbrSettings, tnbrs]
  | pseudowire ifindex =>
    show s'.pwSettings ifindex = s.pwSettings ifindex
    rw [Statics.pwSettings, Statics.pwSettings, pws]

/-! ### What the actions do to settings -/

theorem ifaceAf_addIface (kif : ParseKif) (s : Statics) (ifindex : UInt32) (af : Af) :
    ((Parse.addIface kif s).conf.ifaceAf ifindex af).bind ConfIfaceAf.settings =
      (s.conf.ifaceAf ifindex af).bind ConfIfaceAf.settings := by
  rw [Parse.addIface]
  split
  · rfl
  · rename_i new
    rw [LdpdConf.ifaceAf, LdpdConf.ifaceAf, List.find?_cons]
    by_cases same : kif.ifindex.toUInt32 = ifindex
    · have none' : (s.conf.ifaceList.find? fun iface => iface.ifindex = ifindex) = none := by
        refine List.find?_eq_none.mpr fun iface member found => new (List.any_eq_true.mpr ?_)
        exact ⟨iface, member, beq_iff_eq.mpr ((of_decide_eq_true found).trans same.symm)⟩
      rw [none', decide_eq_true same]
      cases af <;> rfl
    · rw [decide_eq_false same]

/-- The interface whose block is parsed is changed for its family, and no other. -/
theorem ifaceAf_changeIa {ifindex : UInt32} {af : Af} (current : s.ia = some (ifindex, af))
    (change : ConfIfaceAf → ConfIfaceAf) (ifindex' : UInt32) (af' : Af) :
    (Parse.changeIa change s).ifaceAf ifindex' af' =
      (s.conf.ifaceAf ifindex' af').map fun ia =>
        if ifindex' = ifindex ∧ af' = af then change ia else ia := by
  rw [Parse.changeIa, current]
  dsimp only
  rw [LdpdConf.ifaceAf, LdpdConf.ifaceAf, List.find?_map, Option.map_map, Option.map_map]
  have keeps : ((fun iface : ConfIface => decide (iface.ifindex = ifindex')) ∘ fun iface =>
      if iface.ifindex = ifindex then Parse.changeIfaceAf change iface af else iface) =
        fun iface => decide (iface.ifindex = ifindex') := by
    funext iface
    rw [Function.comp_apply]
    split
    · rw [ifindex_changeIfaceAf]
    · rfl
  rw [keeps]
  refine Option.map_congr fun iface found => ?_
  have test := List.find?_some found
  have same : iface.ifindex = ifindex' := of_decide_eq_true test
  rw [Function.comp_apply, Function.comp_apply, same]
  by_cases this : ifindex' = ifindex
  · rw [if_pos this]
    cases af <;> cases af' <;> simp [this, Parse.changeIfaceAf, Parse.ifaceAfGet]
  · rw [if_neg this, if_neg fun both => this both.1]

/-- The actions that begin or end an object with settings, or change one. -/
def Action.OnObjects : Action → Prop
  | .endFamily | .beginInterface | .endInterface | .beginTneighbor _ | .endTneighbor | .beginPw _
  | .changePw _ | .endPw => True
  | _ => False

/-- The other actions leave all settings alone. -/
theorem settings_change (allowed : action.Allowed s) (other : ¬action.OnObjects) (object : Object) :
    (action.change s).settings object = s.settings object := by
  cases action with
  | endFamily | beginInterface | endInterface | beginTneighbor | endTneighbor | beginPw | changePw
  | endPw => exact absurd trivial other
  | transportAddress addr =>
    cases addr with
    | v4 addr => exact settings_congr rfl rfl (fun _ _ => rfl) rfl rfl object
    | v6 addr => exact settings_congr rfl rfl (fun _ _ => rfl) rfl rfl object
  | put setting =>
    rw [Action.change, Statics.put, Statics.setCurrent]
    cases s.defs <;> exact settings_congr rfl rfl (fun _ _ => rfl) rfl rfl object
  | enterInterface kif af =>
    have same : ∀ kif : ParseKif, (Parse.addIface kif s).conf.ipv4 = s.conf.ipv4 ∧
        (Parse.addIface kif s).conf.ipv6 = s.conf.ipv6 ∧
        (Parse.addIface kif s).conf.tnbrList = s.conf.tnbrList ∧
          (Parse.addIface kif s).l2vpns = s.l2vpns := by
      intro kif
      rw [Parse.addIface]
      split <;> exact ⟨rfl, rfl, rfl, rfl⟩
    obtain ⟨ipv4, ipv6, tnbrs, l2vpns⟩ := same kif
    exact settings_congr (congrArg LdpdAfConf.settings ipv4) (congrArg LdpdAfConf.settings ipv6)
      (ifaceAf_addIface kif s) tnbrs (allPws_congr l2vpns) object
  | changeL2vpn change =>
    have pws : Parse.allPws (Parse.changeL2vpn change s) = Parse.allPws s :=
      allPws_changeL2vpn (fun l2vpn => (allowed l2vpn).2.2.2.2.1) s
    refine settings_congr ?_ ?_ (fun _ _ => ?_) ?_ pws object <;> rfl
  | addL2vpnIf kif =>
    have pws : Parse.allPws (Parse.addL2vpnIf kif s) = Parse.allPws s :=
      flatMap_change fun l2vpn => rfl
    refine settings_congr ?_ ?_ (fun _ _ => ?_) ?_ pws object <;> rfl
  | _ => exact settings_congr rfl rfl (fun _ _ => rfl) rfl rfl object

/-- They neither begin nor end the block of an object. -/
theorem trace_change (other : ¬action.OnObjects) (s : Statics) (object : Object) :
    blockOf object (action.change s).trace = blockOf object s.trace := by
  cases action with
  | endFamily | beginInterface | endInterface | beginTneighbor | endTneighbor | beginPw | changePw
  | endPw => exact absurd trivial other
  | enterInterface kif af =>
    rw [Action.change, Parse.addIface]
    split <;> rfl
  | _ => rfl

theorem opened_put (setting : Setting) (level : Level) :
    (s.put setting).opened level = s.opened level := by
  rw [Statics.put, Statics.setCurrent]
  cases s.defs <;> rfl

theorem opened_change (other : ¬action.OnObjects) (goes : action.Goes level level') :
    (action.change s).opened level' = s.opened level := by
  cases goes with
  | endFamily | beginInterface | endInterface | beginTneighbor | endTneighbor | beginPw | changePw
  | endPw => exact absurd trivial other
  | put sets => exact opened_put _ level
  | _ => rfl

/-! ### The block of an interface -/

variable {ifindex : UInt32} {af : Af} {addr : LdpdAddr}

theorem changeIa_other (change : ConfIfaceAf → ConfIfaceAf) (s : Statics) :
    (Parse.changeIa change s).ipv4 = s.conf.ipv4 ∧ (Parse.changeIa change s).ipv6 = s.conf.ipv6 ∧
      (Parse.changeIa change s).tnbrList = s.conf.tnbrList := by
  rw [Parse.changeIa]
  split <;> exact ⟨rfl, rfl, rfl⟩

theorem settings_changeIa {change : ConfIfaceAf → ConfIfaceAf}
    (current : s.ia = some (ifindex, af)) (conf : s'.conf = Parse.changeIa change s)
    (l2vpns : s'.l2vpns = s.l2vpns) (other : object ≠ .interface ifindex af) :
    s'.settings object = s.settings object := by
  obtain ⟨ipv4, ipv6, tnbrs⟩ := changeIa_other change s
  rw [← conf] at ipv4 ipv6 tnbrs
  cases object with
  | family af =>
    cases af with
    | inet => exact congrArg LdpdAfConf.settings ipv4
    | inet6 => exact congrArg LdpdAfConf.settings ipv6
  | interface ifindex' af' =>
    show (s'.conf.ifaceAf ifindex' af').bind ConfIfaceAf.settings = _
    rw [conf, ifaceAf_changeIa current]
    have unlike : ¬(ifindex' = ifindex ∧ af' = af) := by
      rintro ⟨rfl, rfl⟩
      exact other rfl
    simp only [if_neg unlike, Option.map_id']
    rfl
  | tneighbor addr =>
    show s'.conf.tnbrSettings addr = s.conf.tnbrSettings addr
    rw [LdpdConf.tnbrSettings, LdpdConf.tnbrSettings, tnbrs]
  | pseudowire ifindex =>
    show s'.pwSettings ifindex = s.pwSettings ifindex
    rw [Statics.pwSettings, Statics.pwSettings, allPws_congr l2vpns]

theorem settings_changeIa_self {change : ConfIfaceAf → ConfIfaceAf}
    (current : s.ia = some (ifindex, af)) (conf : s'.conf = Parse.changeIa change s) :
    s'.settings (.interface ifindex af) =
      (s.conf.ifaceAf ifindex af).bind fun ia => (change ia).settings := by
  show (s'.conf.ifaceAf ifindex af).bind ConfIfaceAf.settings = _
  rw [conf, ifaceAf_changeIa current, Option.bind_map]
  refine Option.bind_congr fun ia _ => ?_
  rw [Function.comp_apply, if_pos ⟨rfl, rfl⟩]

theorem settings_beginInterface (current : s.ia = some (ifindex, af))
    (member : ∃ iface ∈ s.conf.ifaceList, iface.ifindex = ifindex) :
    ((Parse.beginInterface s).settings (.interface ifindex af)).isSome := by
  obtain ⟨iface, member, same⟩ := member
  have found : (s.conf.ifaceList.find? fun iface => iface.ifindex = ifindex).isSome :=
    List.find?_isSome.mpr ⟨iface, member, decide_eq_true same⟩
  obtain ⟨iface, found⟩ := Option.isSome_iff_exists.mp found
  rw [settings_changeIa_self current rfl, LdpdConf.ifaceAf, found]
  rfl

theorem settings_endInterface (current : s.ia = some (ifindex, af))
    (some' : (s.settings (.interface ifindex af)).isSome) :
    (Parse.endInterface s).settings (.interface ifindex af) =
      some (Object.takes s.current (.interface ifindex af)) := by
  obtain ⟨settings, some'⟩ := Option.isSome_iff_exists.mp some'
  obtain ⟨ia, found, enabled⟩ := Option.bind_eq_some_iff.mp some'
  rw [settings_changeIa_self current rfl, found, Option.bind_some, ConfIfaceAf.settings]
  rw [ConfIfaceAf.settings] at enabled
  by_cases yes : ia.enabled = true
  · exact if_pos yes
  · rw [if_neg yes] at enabled
    cases enabled

/-! ### The block of a targeted neighbor -/

theorem tnbrSettings_endTneighbor (current : s.tnbr = some addr) (addr' : LdpdAddr) :
    (Parse.endTneighbor s).conf.tnbrSettings addr' =
      (s.conf.tnbrSettings addr').map fun settings =>
        if addr' = addr then Object.takes s.current (.tneighbor addr) else settings := by
  rw [LdpdConf.tnbrSettings, LdpdConf.tnbrSettings, Parse.endTneighbor, List.find?_map,
    Option.map_map, Option.map_map]
  have keeps : ((fun tnbr : ConfTnbr => decide (tnbr.addr = addr')) ∘ fun tnbr =>
      if s.tnbr = some tnbr.addr then
        { tnbr with
          helloHoldtime := s.current.thelloHoldtime, helloInterval := s.current.thelloInterval }
      else tnbr) = fun tnbr => decide (tnbr.addr = addr') := by
    funext tnbr
    rw [Function.comp_apply]
    split <;> rfl
  rw [keeps, current]
  refine Option.map_congr fun tnbr found => ?_
  have test := List.find?_some found
  have there : tnbr.addr = addr' := of_decide_eq_true test
  rw [Function.comp_apply, Function.comp_apply, there]
  by_cases this : addr' = addr
  · rw [if_pos this, if_pos (congrArg some this.symm)]
    rfl
  · rw [if_neg this, if_neg fun equal => this (Option.some.inj equal).symm]

/-- A change of targeted neighbors that concerns one of them. -/
theorem settings_tnbrs {tnbrList : List ConfTnbr} (conf : s'.conf = { s.conf with tnbrList })
    (l2vpns : s'.l2vpns = s.l2vpns)
    (others : ∀ addr', addr' ≠ addr → s'.conf.tnbrSettings addr' = s.conf.tnbrSettings addr')
    (other : object ≠ .tneighbor addr) : s'.settings object = s.settings object := by
  cases object with
  | family af =>
    show s'.conf.settings (.family af) = s.conf.settings (.family af)
    rw [conf]
    cases af <;> rfl
  | interface ifindex af =>
    show s'.conf.settings (.interface ifindex af) = s.conf.settings (.interface ifindex af)
    rw [conf]
    rfl
  | tneighbor addr' => exact others addr' fun same => other (congrArg Object.tneighbor same)
  | pseudowire ifindex =>
    show s'.pwSettings ifindex = s.pwSettings ifindex
    rw [Statics.pwSettings, Statics.pwSettings, allPws_congr l2vpns]

theorem settings_beginTneighbor (other : object ≠ .tneighbor addr) :
    (Action.change (.beginTneighbor addr) s).settings object = s.settings object := by
  refine settings_tnbrs rfl rfl (fun addr' differs => ?_) other
  show LdpdConf.tnbrSettings (Parse.addTnbr addr s).conf addr' = _
  rw [LdpdConf.tnbrSettings, Parse.addTnbr, List.find?_cons,
    decide_eq_false fun same => differs same.symm]
  rfl

theorem settings_beginTneighbor_self (addr : LdpdAddr) (s : Statics) :
    ((Action.change (.beginTneighbor addr) s).settings (.tneighbor addr)).isSome := by
  show (LdpdConf.tnbrSettings (Parse.addTnbr addr s).conf addr).isSome
  rw [LdpdConf.tnbrSettings, Parse.addTnbr, List.find?_cons, decide_eq_true rfl]
  rfl

theorem settings_endTneighbor (current : s.tnbr = some addr) (other : object ≠ .tneighbor addr) :
    (Parse.endTneighbor s).settings object = s.settings object := by
  refine settings_tnbrs rfl rfl (fun addr' differs => ?_) other
  rw [tnbrSettings_endTneighbor current]
  simp only [if_neg differs, Option.map_id']

theorem settings_endTneighbor_self (current : s.tnbr = some addr)
    (some' : (s.settings (.tneighbor addr)).isSome) :
    (Parse.endTneighbor s).settings (.tneighbor addr) =
      some (Object.takes s.current (.tneighbor addr)) := by
  obtain ⟨settings, some'⟩ := Option.isSome_iff_exists.mp some'
  have found : s.conf.tnbrSettings addr = some settings := some'
  show (Parse.endTneighbor s).conf.tnbrSettings addr = _
  rw [tnbrSettings_endTneighbor current, found, Option.map_some, if_pos rfl]

/-! ### The block of a family -/

theorem settings_endFamily (current : s.afConf = some af) (other : object ≠ .family af) :
    (Parse.endFamily s).settings object = s.settings object := by
  have conf : (Parse.endFamily s).conf = Parse.setAfConf s := rfl
  rw [Parse.setAfConf, current] at conf
  cases object with
  | family af' =>
    show (Parse.endFamily s).conf.settings (.family af') = s.conf.settings (.family af')
    rw [conf]
    cases af <;> cases af' <;> first | rfl | exact absurd rfl other
  | interface ifindex af' =>
    show (Parse.endFamily s).conf.settings (.interface ifindex af') =
      s.conf.settings (.interface ifindex af')
    rw [conf]
    cases af <;> rfl
  | tneighbor addr =>
    show (Parse.endFamily s).conf.settings (.tneighbor addr) = s.conf.settings (.tneighbor addr)
    rw [conf]
    cases af <;> rfl
  | pseudowire ifindex => rfl

theorem settings_endFamily_self (current : s.afConf = some af) :
    (Parse.endFamily s).settings (.family af) = some (Object.takes s.current (.family af)) := by
  have conf : (Parse.endFamily s).conf = Parse.setAfConf s := rfl
  rw [Parse.setAfConf, current] at conf
  show (Parse.endFamily s).conf.settings (.family af) = _
  rw [conf]
  cases af <;> rfl

/-! ### The block of a pseudowire -/

/-- A change of pseudowires that concerns one of them. -/
theorem settings_pws (conf : s'.conf = s.conf)
    (others : ∀ ifindex', ifindex' ≠ ifindex → s'.pwSettings ifindex' = s.pwSettings ifindex')
    (other : object ≠ .pseudowire ifindex) : s'.settings object = s.settings object := by
  cases object with
  | family af =>
    show s'.conf.settings (.family af) = s.conf.settings (.family af)
    rw [conf]
  | interface ifindex' af =>
    show s'.conf.settings (.interface ifindex' af) = s.conf.settings (.interface ifindex' af)
    rw [conf]
  | tneighbor addr =>
    show s'.conf.settings (.tneighbor addr) = s.conf.settings (.tneighbor addr)
    rw [conf]
  | pseudowire ifindex' => exact others ifindex' fun same => other (congrArg Object.pseudowire same)

theorem pwSettings_other {pw : ParsePw} {pws : List ParsePw} (last : Parse.allPws s = pw :: pws)
    (differs : ifindex ≠ pw.ifindex) :
    s.pwSettings ifindex = (pws.find? fun pw => pw.ifindex = ifindex).map fun pw =>
      .pseudowire pw.flags := by
  rw [Statics.pwSettings, last, List.find?_cons, decide_eq_false fun same => differs same.symm]

theorem pwSettings_self {pw : ParsePw} {pws : List ParsePw} (last : Parse.allPws s = pw :: pws) :
    s.pwSettings pw.ifindex = some (.pseudowire pw.flags) := by
  rw [Statics.pwSettings, last, List.find?_cons, decide_eq_true rfl]
  rfl
/-! ### Scopes -/

/-- The blocks of a family. -/
def Level.InFamily (level : Level) : Prop :=
  level = .family ∨ level = .interface ∨ level = .tneighbor

/-- The blocks of objects that are made before their block. -/
def Level.Opens (level : Level) : Prop :=
  level = .interface ∨ level = .tneighbor ∨ level = .pseudowire

instance (level : Level) : Decidable level.InFamily :=
  inferInstanceAs (Decidable (_ ∨ _ ∨ _))

instance (level : Level) : Decidable level.Opens :=
  inferInstanceAs (Decidable (_ ∨ _ ∨ _))

/-- What is remembered of the file, and what the settings are made of. -/
structure Scoped (base : ConfigDefaults) (level : Level) (s : Statics) : Prop where
  vpns : VpnsAt level s
  records : s.records.At base level
  inside : level.InFamily → ∃ af, s.afConf = some af
  opened : level.Opens → ∃ object, s.opened level = some object ∧ (s.settings object).isSome
  settings : ∀ object, s.opened level ≠ some object →
    s.settings object = (blockOf object s.trace).map fun before =>
      object.takes (defaultsAfter base (rememberedIn [] before))
  blocks : ∀ object before, blockOf object s.trace = some before → Layered [] before

theorem Records.At.layered {records : Records} (at' : records.At base level) :
    Layered [] records.trace := by
  cases level with
  | top | neighbor => exact at'.2.2.layered
  | family => exact at'.2.2.2.1.layered
  | interface | tneighbor => exact at'.2.2.2.2.1.layered
  | l2vpn => exact at'.2.2.2.1
  | pseudowire => exact at'.2.2.2.2.1

/-- The defaults somewhere are those that are remembered there. -/
theorem Records.At.current (at' : s.records.At base level) :
    s.current = defaultsAfter base (rememberedIn [] s.trace) := by
  cases level with
  | top | neighbor | family | interface | tneighbor | l2vpn | pseudowire =>
    exact (current_eq at'.1).trans at'.2.1

/-- Nothing ends, and at most one object begins or is changed in its block. -/
theorem Scoped.keep (at' : Scoped base level s) (vpns : VpnsAt level' s')
    (records : s'.records.At base level') (inside : level'.InFamily → ∃ af, s'.afConf = some af)
    (opened : level'.Opens → ∃ object, s'.opened level' = some object ∧ (s'.settings object).isSome)
    (trace : ∀ object, blockOf object s'.trace = blockOf object s.trace)
    (settings : ∀ object, s'.opened level' ≠ some object →
      s.opened level ≠ some object ∧ s'.settings object = s.settings object) :
    Scoped base level' s' := by
  refine ⟨vpns, records, inside, opened, fun object other => ?_, fun object before found => ?_⟩
  · obtain ⟨other, same⟩ := settings object other
    rw [same, trace]
    exact at'.settings object other
  · rw [trace] at found
    exact at'.blocks object before found

/-- The end of the block of an object. -/
theorem Scoped.close (at' : Scoped base level s) (vpns : VpnsAt level' s')
    (records : s'.records.At base level') (inside : level'.InFamily → ∃ af, s'.afConf = some af)
    (closed : ¬level'.Opens) (was : s.opened level = none ∨ s.opened level = some object)
    (closes : s'.trace = .closes (.object object) :: s.trace)
    (self : s'.settings object = some (object.takes s.current))
    (others : ∀ other, other ≠ object → s'.settings other = s.settings other) :
    Scoped base level' s' := by
  have found : blockOf object s'.trace = some s.trace := by
    rw [closes]
    exact if_pos rfl
  have unlike : ∀ other, other ≠ object → blockOf other s'.trace = blockOf other s.trace := by
    intro other differs
    rw [closes]
    exact if_neg fun same => differs (Block.object.inj same).symm
  refine ⟨vpns, records, inside, fun opens => absurd opens closed, fun other _ => ?_,
    fun other before there => ?_⟩
  · by_cases same : other = object
    · rw [same, self, found, at'.records.current]
      rfl
    · rw [others other same, unlike other same]
      refine at'.settings other fun opened => ?_
      rcases was with none' | some'
      · rw [none'] at opened
        cases opened
      · rw [some'] at opened
        exact same (Option.some.inj opened).symm
  · by_cases same : other = object
    · rw [same, found] at there
      cases there
      exact at'.records.layered
    · rw [unlike other same] at there
      exact at'.blocks other before there

theorem afConf_put (setting : Setting) (s : Statics) : (s.put setting).afConf = s.afConf := by
  rw [Statics.put, Statics.setCurrent]
  cases s.defs <;> rfl

theorem inside_change (goes : action.Goes level level')
    (inside : level.InFamily → ∃ af, s.afConf = some af) (place : level'.InFamily) :
    ∃ af, (action.change s).afConf = some af := by
  cases goes with
  | put sets =>
    show ∃ af, (s.put _).afConf = some af
    rw [afConf_put]
    exact inside place
  | beginFamily af => exact ⟨af, rfl⟩
  | enterInterface kif af =>
    rw [Action.change, Parse.addIface]
    split <;> exact inside (.inl rfl)
  | transportAddress | beginInterface | beginTneighbor => exact inside (.inl rfl)
  | endInterface => exact inside (.inr (.inl rfl))
  | endTneighbor => exact inside (.inr (.inr rfl))
  | _ => exact absurd place (by decide)

theorem opens_change (other : ¬action.OnObjects) (goes : action.Goes level level')
    (opens : level'.Opens) : level = level' := by
  cases goes with
  | endFamily | beginInterface | endInterface | beginTneighbor | endTneighbor | beginPw | changePw
  | endPw => exact absurd trivial other
  | put sets => rfl
  | _ => exact absurd opens (by decide)

/-- What `ia`, `tnbr` and `pw` point to in the block of an object. -/
theorem Scoped.pointers (at' : Scoped base level s) :
    (level = .interface → ∃ ifindex af, s.ia = some (ifindex, af)) ∧
      (level = .tneighbor → ∃ addr, s.tnbr = some addr) ∧
        (level = .pseudowire → ∃ ifindex, s.pw = some ifindex) := by
  refine ⟨?_, ?_, ?_⟩
  · rintro rfl
    obtain ⟨object, opened, -⟩ := at'.opened (.inl rfl)
    obtain ⟨ia, some', -⟩ := Option.map_eq_some_iff.mp opened
    exact ⟨ia.1, ia.2, some'⟩
  · rintro rfl
    obtain ⟨object, opened, -⟩ := at'.opened (.inr (.inl rfl))
    obtain ⟨addr, some', -⟩ := Option.map_eq_some_iff.mp opened
    exact ⟨addr, some'⟩
  · rintro rfl
    obtain ⟨object, opened, -⟩ := at'.opened (.inr (.inr rfl))
    obtain ⟨ifindex, some', -⟩ := Option.map_eq_some_iff.mp opened
    exact ⟨ifindex, some'⟩

/-- The settings of an object whose block is parsed. -/
theorem Scoped.isSome (at' : Scoped base level s) (opens : level.Opens)
    (some' : s.opened level = some object) : (s.settings object).isSome := by
  obtain ⟨other, opened, isSome⟩ := at'.opened opens
  rw [some'] at opened
  cases opened
  exact isSome

theorem close_of_some {none' : Option Object} (some' : none' = some object) :
    s.close none' = .closes (.object object) :: s.trace := by
  rw [some']
  rfl

theorem scoped_change (at' : Scoped base level s) (goes : action.Goes level level')
    (allowed : action.Allowed s) : Scoped base level' (action.change s) := by
  have vpns := vpnsAt_change at'.vpns goes allowed
  obtain ⟨ia, tnbr, pw⟩ := at'.pointers
  have records := records_at at'.records goes (fun place => at'.inside (.inl place)) ia tnbr pw
  have inside := inside_change goes at'.inside
  by_cases on : action.OnObjects
  · cases goes with
    | endFamily =>
      obtain ⟨af, current⟩ := at'.inside (by decide)
      refine at'.close vpns records inside (by decide) (.inl rfl) ?_
        (settings_endFamily_self current) fun other differs => settings_endFamily current differs
      exact close_of_some (congrArg (Option.map Object.family) current)
    | beginInterface =>
      obtain ⟨ifindex, af, current, member, -⟩ := allowed
      have opened : (Parse.beginInterface s).opened .interface = some (.interface ifindex af) :=
        congrArg (Option.map fun ia : UInt32 × Af => Object.interface ia.1 ia.2) current
      refine at'.keep vpns records inside
        (fun _ => ⟨_, opened, settings_beginInterface current member⟩) (fun _ => rfl)
        fun object other => ⟨(Option.some_ne_none object).symm, settings_changeIa current rfl rfl fun same => ?_⟩
      exact other (opened.trans (congrArg some same.symm))
    | endInterface =>
      obtain ⟨ifindex, af, current⟩ := ia rfl
      have opened : s.opened .interface = some (.interface ifindex af) :=
        congrArg (Option.map fun ia : UInt32 × Af => Object.interface ia.1 ia.2) current
      refine at'.close vpns records inside (by decide) (.inr opened) (close_of_some opened)
        (settings_endInterface current (at'.isSome (by decide) opened)) fun other differs => ?_
      exact settings_changeIa current rfl rfl differs
    | beginTneighbor addr =>
      refine at'.keep vpns records inside
        (fun _ => ⟨_, rfl, settings_beginTneighbor_self addr s⟩) (fun _ => rfl)
        fun object other => ⟨(Option.some_ne_none object).symm, settings_beginTneighbor fun same => ?_⟩
      exact other (congrArg some same.symm)
    | endTneighbor =>
      obtain ⟨addr, current⟩ := tnbr rfl
      have opened : s.opened .tneighbor = some (.tneighbor addr) :=
        congrArg (Option.map Object.tneighbor) current
      refine at'.close vpns records inside (by decide) (.inr opened) (close_of_some opened)
        (settings_endTneighbor_self current (at'.isSome (by decide) opened)) fun other differs => ?_
      exact settings_endTneighbor current differs
    | beginPw kif =>
      obtain ⟨l2vpn, rest, l2vpns, pointer⟩ := at'.vpns.inside (.inl rfl)
      have first := allPws_addPw at'.vpns.checked l2vpns pointer kif
      refine at'.keep vpns records inside
        (fun _ => ⟨_, rfl, Option.isSome_iff_exists.mpr ⟨_, pwSettings_self first⟩⟩) (fun _ => rfl)
        fun object other => ⟨(Option.some_ne_none object).symm, ?_⟩
      refine settings_pws rfl (fun ifindex differs => ?_) fun same => other (congrArg some same.symm)
      exact pwSettings_other first differs
    | changePw change =>
      obtain ⟨last, pws, first, current, -⟩ := at'.vpns.parsed rfl
      have opened : s.opened .pseudowire = some (.pseudowire last.ifindex) :=
        congrArg (Option.map Object.pseudowire) current
      have changed := allPws_changeLast at'.vpns.checked first current change
      have same := (allowed last).1
      refine at'.keep vpns records inside
        (fun _ => ⟨_, opened, Option.isSome_iff_exists.mpr ⟨_, same ▸ pwSettings_self changed⟩⟩)
        (fun _ => rfl) fun object other => ⟨other, ?_⟩
      refine settings_pws rfl (fun ifindex differs => ?_) fun equal =>
        other (opened.trans (congrArg some equal.symm))
      rw [pwSettings_other first differs]
      exact pwSettings_other changed (same ▸ differs)
    | endPw =>
      obtain ⟨last, pws, first, current, -⟩ := at'.vpns.parsed rfl
      have opened : s.opened .pseudowire = some (.pseudowire last.ifindex) :=
        congrArg (Option.map Object.pseudowire) current
      have filled : Parse.allPws (Parse.endPw s) = _ :=
        allPws_changeLast at'.vpns.checked first current fun pw =>
          { pw with addr := some (pw.addr.getD (.v4 pw.lsrId)), flags := s.current.pwflags }
      refine at'.close vpns records inside (by decide) (.inr opened) (close_of_some opened)
        (pwSettings_self filled) fun other differs => ?_
      refine settings_pws rfl (fun ifindex unlike => ?_) differs
      rw [pwSettings_other first unlike]
      exact pwSettings_other filled unlike
    | _ => exact on.elim
  · refine at'.keep vpns records inside (fun opens => ?_) (trace_change on s) fun object other => ?_
    · have same := opens_change on goes opens
      rw [← same] at opens
      obtain ⟨object, opened, isSome⟩ := at'.opened opens
      refine ⟨object, (opened_change on goes).trans opened, ?_⟩
      rw [settings_change allowed on]
      exact isSome
    · rw [opened_change on goes] at other
      exact ⟨other, settings_change allowed on object⟩
/-! ### Accepted configurations -/

theorem sound_scoped (base : ConfigDefaults) : Sound (Scoped base) where
  reading at' _ _ := ⟨sound_vpnsAt.reading at'.vpns _ _, at'.records, at'.inside, at'.opened,
    at'.settings, at'.blocks⟩
  acts at' goes allowed := scoped_change at' goes allowed

theorem scoped_opens (s : Statics) (file : ParseFile) :
    Scoped s.prepare.globaldefs .top (s.opens file) where
  vpns := vpnsAt_opens s file
  records := ⟨rfl, rfl, ⟨fun _ member => (by cases member), fun _ member => (by cases member)⟩⟩
  inside := fun place => absurd place (by decide)
  opened := fun opens => absurd opens (by decide)
  settings := by
    intro object _
    cases object with
    | family af => cases af <;> rfl
    | _ => rfl
  blocks := fun _ _ found => by cases found

variable {macros : List (String × String)} {host host' : ParseHost} {fuel fuel' : Nat}
  {filename filename' : String} {conf conf' : LdpdConf} {t t' : Statics} {before' : Trace}

theorem settings_result (host : ParseHost) (s : Statics) (object : Object) :
    (s.result host).settings object = s.settings object := by
  cases object with
  | family af =>
    cases af with
    | inet =>
      show LdpdAfConf.settings (s.result host).ipv4 = _
      rw [Statics.result]
      dsimp only
      split <;> rfl
    | inet6 => rfl
  | interface | tneighbor => rfl
  | pseudowire ifindex =>
    show (((s.l2vpns.map ParseL2vpn.conf).flatMap ConfL2vpn.pwList).find? fun pw =>
      pw.ifindex = ifindex).map (fun pw => Settings.pseudowire pw.flags) = s.pwSettings ifindex
    have pws : (s.l2vpns.map ParseL2vpn.conf).flatMap ConfL2vpn.pwList =
        (Parse.allPws s).map ParsePw.conf := by
      rw [List.flatMap_map, Parse.allPws, List.map_flatMap]
      rfl
    rw [pws, List.find?_map, Option.map_map, Statics.pwSettings]
    rfl

/-- The settings of the objects of an accepted configuration without errors are what is remembered. -/
theorem settings_eq (process : Process macros s)
    (parsed : parseConfig host fuel filename s = some (some conf, t)) (kept : ¬t.Lost) :
    (∀ object, conf.settings object = (blockOf object t.trace).map fun before =>
      object.takes (defaultsAfter s.prepare.globaldefs (rememberedIn [] before))) ∧
      ∀ object before, blockOf object t.trace = some before → Layered [] before := by
  obtain ⟨end', at', rfl, rfl⟩ := (sound_scoped s.prepare.globaldefs).accepted process.idle
    (scoped_opens s) parsed
  have scope := at'.resolve_left kept
  refine ⟨fun object => ?_, scope.blocks⟩
  rw [settings_result]
  exact scope.settings object (Option.some_ne_none object).symm

/-- What counts for a flag: what the last option about it says that can be seen, or else the last one
of an earlier L2VPN. -/
theorem get_remembered (layered : Layered [] before) (flag : PwFlag) :
    flag.get (defaultsAfter base (rememberedIn [] before)).pwflags =
      ((flag.last (visibleIn [] before)).or (flag.last (earlierIn [] before))).getD
        (flag.get base.pwflags) := by
  rw [get_defaultsAfter, layered.last]
/-- Only pseudowires take something from the flags of pseudowires. -/
theorem takes_withoutPws (defs : ConfigDefaults) (other : ∀ ifindex, object ≠ .pseudowire ifindex) :
    object.takes defs = object.takes defs.withoutPws := by
  cases object with
  | pseudowire ifindex => exact absurd rfl (other ifindex)
  | _ => rfl

theorem takes_visible (layered : Layered [] before) (other : ∀ ifindex, object ≠ .pseudowire ifindex) :
    object.takes (defaultsAfter base (rememberedIn [] before)) =
      object.takes (defaultsAfter base (visibleIn [] before)) := by
  rw [takes_withoutPws _ other, withoutPws_remembered base layered.earlier,
    ← takes_withoutPws _ other]

/-- The flags of a pseudowire that no option sets. -/
def PwFlags.unset (flags : PwFlags) : PwFlags :=
  { flags with statustlvConf := false, cwordConf := false }

theorem unset_defaultsAfter (base : ConfigDefaults) (options : List Setting) :
    (defaultsAfter base options).pwflags.unset = base.pwflags.unset := by
  induction options with
  | nil => rfl
  | cons setting rest inductionHypothesis =>
    rw [defaultsAfter_cons, ← inductionHypothesis]
    cases setting with
    | gtsmEnable yes => cases yes <;> rfl
    | _ => rfl

theorem pwflags_ext {flags flags' : PwFlags} (unset : flags.unset = flags'.unset)
    (same : ∀ flag : PwFlag, flag.get flags = flag.get flags') : flags = flags' := by
  have statusTlv : flags.statustlvConf = flags'.statustlvConf := same .statusTlv
  have controlWord : flags.cwordConf = flags'.cwordConf := same .controlWord
  obtain ⟨-, statustlv, -, cword, statusUp⟩ := PwFlags.mk.inj unset
  rw [PwFlags.mk.injEq]
  exact ⟨statusTlv, statustlv, controlWord, cword, statusUp⟩

theorem pwflags_eq_iff {options options' : List Setting} :
    (defaultsAfter base options).pwflags = (defaultsAfter base options').pwflags ↔
      ∀ flag : PwFlag, flag.get (defaultsAfter base options).pwflags =
        flag.get (defaultsAfter base options').pwflags :=
  ⟨fun same flag => congrArg flag.get same,
    pwflags_ext ((unset_defaultsAfter base options).trans (unset_defaultsAfter base options').symm)⟩

/-- Two files that a process can parse without errors, with the same options where they can be seen from
the block of an object, give it the same settings, but for a flag of a pseudowire that none of these
options is about, and about which earlier L2VPNs differ. -/
theorem settings_eq_iff (process : Process macros s)
    (parsed : parseConfig host fuel filename s = some (some conf, t))
    (parsed' : parseConfig host' fuel' filename' s = some (some conf', t'))
    (kept : ¬t.Lost) (kept' : ¬t'.Lost)
    (block : blockOf object t.trace = some before) (block' : blockOf object t'.trace = some before')
    (visible : visibleIn [] before = visibleIn [] before') :
    conf.settings object = conf'.settings object ↔
      ∀ ifindex, object = .pseudowire ifindex → ∀ flag : PwFlag,
        flag.last (visibleIn [] before) = none →
          (flag.last (earlierIn [] before)).getD true =
            (flag.last (earlierIn [] before')).getD true := by
  obtain ⟨settings, blocks⟩ := settings_eq process parsed kept
  obtain ⟨settings', blocks'⟩ := settings_eq process parsed' kept'
  have layered := blocks object before block
  have layered' := blocks' object before' block'
  rw [settings, settings', block, block', Option.map_some, Option.map_some, Option.some_inj]
  by_cases pw : ∃ ifindex, object = .pseudowire ifindex
  · obtain ⟨ifindex, rfl⟩ := pw
    have base : ∀ flag : PwFlag, flag.get s.prepare.globaldefs.pwflags = true := by
      intro flag
      cases flag <;> rfl
    rw [Object.takes, Object.takes, Settings.pseudowire.injEq, pwflags_eq_iff]
    simp only [get_remembered layered, get_remembered layered', ← visible, base]
    constructor
    · intro same ifindex _ flag unsaid
      have equal := same flag
      rw [unsaid] at equal
      exact equal
    · intro same flag
      cases said : flag.last (visibleIn [] before) with
      | none => exact same ifindex rfl flag said
      | some yes => rfl
  · have other : ∀ ifindex, object ≠ .pseudowire ifindex := not_exists.mp pw
    rw [takes_visible layered other, takes_visible layered' other, visible]
    exact ⟨fun _ ifindex is => absurd is (other ifindex), fun _ => rfl⟩

/-- Two L2VPNs; the first one says something about control words. -/
def controlWords (yesno : String) : String :=
  "l2vpn a type vpls \x7b\ncontrol-word " ++ yesno ++ "\n\x7d\n" ++
    "l2vpn b type vpls \x7b\npseudowire mpw0 \x7b\npw-id 100\nneighbor-id 10.0.0.2\n\x7d\n\x7d\n"

/-- The files that are left open, what a pseudowire gets, the options that it sees, and those of earlier
L2VPNs. -/
def seenBy (object : Object) (text : String) :
    Option (List ParseFile × Option Settings × Option (List Setting × List Setting)) :=
  (parseConfig (oneFile text) 300 "" (.start [])).bind fun both => both.1.map fun conf =>
    (both.2.left, conf.settings object,
      (blockOf object both.2.trace).map fun before => (visibleIn [] before, earlierIn [] before))

theorem seenBy_cases {text : String} {settings : Option Settings} {options earlier : List Setting}
    (seen : seenBy object text = some ([], settings, some (options, earlier))) :
    ∃ conf s before, parseConfig (oneFile text) 300 "" (.start []) = some (some conf, s) ∧ ¬s.Lost ∧
      blockOf object s.trace = some before ∧ visibleIn [] before = options ∧
        earlierIn [] before = earlier ∧ conf.settings object = settings := by
  obtain ⟨⟨result, s⟩, returned, seen⟩ := Option.bind_eq_some_iff.mp seen
  obtain ⟨conf, rfl, all⟩ := Option.map_eq_some_iff.mp seen
  obtain ⟨left, both⟩ := Prod.mk.inj all
  obtain ⟨rfl, found⟩ := Prod.mk.inj both
  obtain ⟨before, block, same⟩ := Option.map_eq_some_iff.mp found
  obtain ⟨rfl, rfl⟩ := Prod.mk.inj same
  refine ⟨conf, s, before, returned, ?_, block, rfl, rfl, rfl⟩
  have left : s.left = [] := left
  rw [Statics.Lost, left]
  rintro ⟨file, member, -⟩
  cases member

/-- What the first L2VPN says changes the pseudowire of the second one. -/
theorem controlWords_leak :
    ∃ conf conf' s s' before before',
      parseConfig (oneFile (controlWords "yes")) 300 "" (.start []) = some (some conf, s) ∧
        parseConfig (oneFile (controlWords "no")) 300 "" (.start []) = some (some conf', s') ∧
        blockOf (.pseudowire 2) s.trace = some before ∧
        blockOf (.pseudowire 2) s'.trace = some before' ∧
          visibleIn [] before = visibleIn [] before' ∧
            conf.settings (.pseudowire 2) ≠ conf'.settings (.pseudowire 2) := by
  have yes : seenBy (.pseudowire 2) (controlWords "yes") =
      some ([], some (.pseudowire { statustlvConf := true, cwordConf := true }),
        some ([], [.controlWord true])) := by
    decide +kernel
  have no : seenBy (.pseudowire 2) (controlWords "no") =
      some ([], some (.pseudowire { statustlvConf := true }), some ([], [.controlWord false])) := by
    decide +kernel
  obtain ⟨conf, s, before, parsed, -, block, visible, -, settings⟩ := seenBy_cases yes
  obtain ⟨conf', s', before', parsed', -, block', visible', -, settings'⟩ := seenBy_cases no
  refine ⟨conf, conf', s, s', before, before', parsed, parsed', block, block',
    visible.trans visible'.symm, ?_⟩
  rw [settings, settings']
  decide

/-- Two pseudowires of an L2VPN; the first one says something about control words. -/
def siblings (yesno : String) : String :=
  "l2vpn a type vpls \x7b\n" ++
    "pseudowire mpw0 \x7b\ncontrol-word " ++ yesno ++
    "\npw-id 100\nneighbor-id 10.0.0.2\n\x7d\n" ++
    "pseudowire mpw1 \x7b\npw-id 200\nneighbor-id 10.0.0.2\n\x7d\n\x7d\n"

theorem settings_eq_iff_siblings :
    ∃ conf conf' s s', parseConfig (oneFile (siblings "yes")) 300 "" (.start []) = some (some conf, s) ∧
      parseConfig (oneFile (siblings "no")) 300 "" (.start []) = some (some conf', s') ∧
        conf.settings (.pseudowire 3) = conf'.settings (.pseudowire 3) := by
  have yes : seenBy (.pseudowire 3) (siblings "yes") =
      some ([], some (.pseudowire { statustlvConf := true, cwordConf := true }), some ([], [])) := by
    decide +kernel
  have no : seenBy (.pseudowire 3) (siblings "no") =
      some ([], some (.pseudowire { statustlvConf := true, cwordConf := true }), some ([], [])) := by
    decide +kernel
  obtain ⟨conf, s, before, parsed, kept, block, visible, earlier, -⟩ := seenBy_cases yes
  obtain ⟨conf', s', before', parsed', kept', block', visible', earlier', -⟩ := seenBy_cases no
  refine ⟨conf, conf', s, s', parsed, parsed',
    (settings_eq_iff (show Process [] _ from .start) parsed parsed' kept kept' block block'
      (visible.trans visible'.symm)).mpr fun ifindex _ flag _ => ?_⟩
  rw [earlier, earlier']

end Ldpd
