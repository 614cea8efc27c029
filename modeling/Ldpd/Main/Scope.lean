/-
This file is about the blocks of a configuration file. What an option says is meant for the
block it stands in, and for the blocks inside it that come later. The parser remembers the
defaults of a block in a record of its own, and goes back to the record of the enclosing
block at its end. An L2VPN has no such record: the options of its block change the global
defaults, and what they say about pseudowires is still there in the next L2VPN.
-/

import Ldpd.Main.Fecs

namespace Ldpd

/-! ### Options and blocks -/

/-- The options that have been read, the last first, where the blocks that have ended since, the
outermost first, are some of interest. Only whether a block is an L2VPN is remembered. -/
def optionsIn (interest : List Bool → Bool) : List Bool → Trace → List Setting
  | _, [] => []
  | ended, .closes block :: rest => optionsIn interest ((block = .l2vpn) :: ended) rest
  | ended, .opens :: rest => optionsIn interest ended.tail rest
  | ended, .sets setting :: rest =>
    if interest ended then setting :: optionsIn interest ended rest
    else optionsIn interest ended rest

/-- The options at the global level, in the enclosing blocks and in the block itself. -/
def visibleIn (ended : List Bool) : Trace → List Setting :=
  optionsIn (fun ended => ended = []) ended

/-- The options that stand directly in an L2VPN whose block has ended. -/
def earlierIn (ended : List Bool) : Trace → List Setting :=
  optionsIn (fun ended => ended = [true]) ended

/-- The options that the parser has not forgotten. -/
def rememberedIn (ended : List Bool) : Trace → List Setting :=
  optionsIn (fun ended => ended = [] || ended = [true]) ended

/-- The defaults after some options, the last first. -/
def defaultsAfter (base : ConfigDefaults) (options : List Setting) : ConfigDefaults :=
  options.foldr (fun setting defs => setting.apply defs) base

/-- What was read before the end of the last block of an object. -/
def blockOf (object : Object) : Trace → Option Trace
  | [] => none
  | .closes block :: before => if block = .object object then some before else blockOf object before
  | _ :: before => blockOf object before

/-- The options about pseudowires. -/
def Setting.AboutPws : Setting → Prop
  | .statusTlv _ | .controlWord _ => True
  | _ => False

/-- The flags of a pseudowire that the defaults set. -/
inductive PwFlag where
  | statusTlv
  | controlWord
  deriving DecidableEq, Repr

/-- What an option says about a flag. -/
def PwFlag.said : PwFlag → Setting → Option Bool
  | .statusTlv, .statusTlv yes => some yes
  | .controlWord, .controlWord yes => some yes
  | _, _ => none

/-- What the last of some options about a flag says. -/
def PwFlag.last (flag : PwFlag) (options : List Setting) : Option Bool :=
  options.findSome? flag.said

def PwFlag.get (flags : PwFlags) : PwFlag → Bool
  | .statusTlv => flags.statustlvConf
  | .controlWord => flags.cwordConf

variable {flag : PwFlag} {base : ConfigDefaults} {options : List Setting} {setting : Setting}
  {ended : List Bool} {trace : Trace}

/-! ### What defaults are made of -/

theorem defaultsAfter_cons (base : ConfigDefaults) (setting : Setting) (options : List Setting) :
    defaultsAfter base (setting :: options) = setting.apply (defaultsAfter base options) := rfl

theorem get_apply (flag : PwFlag) (setting : Setting) (defs : ConfigDefaults) :
    flag.get (setting.apply defs).pwflags = (flag.said setting).getD (flag.get defs.pwflags) := by
  cases setting with
  | gtsmEnable yes =>
    cases yes <;> cases flag <;> rfl
  | _ => cases flag <;> rfl

/-- A flag is what the last option about it says. -/
theorem get_defaultsAfter (flag : PwFlag) (base : ConfigDefaults) (options : List Setting) :
    flag.get (defaultsAfter base options).pwflags =
      (flag.last options).getD (flag.get base.pwflags) := by
  induction options with
  | nil => rfl
  | cons setting rest inductionHypothesis =>
    rw [defaultsAfter_cons, get_apply, inductionHypothesis, PwFlag.last, PwFlag.last,
      List.findSome?_cons]
    cases flag.said setting with
    | none => rfl
    | some yes => rfl

/-- The defaults but for the flags of pseudowires. -/
def ConfigDefaults.withoutPws (defs : ConfigDefaults) : ConfigDefaults :=
  { defs with pwflags := {} }

theorem withoutPws_aboutPws (about : setting.AboutPws) (defs : ConfigDefaults) :
    (setting.apply defs).withoutPws = defs.withoutPws := by
  cases setting with
  | statusTlv yes => rfl
  | controlWord yes => rfl
  | _ => exact about.elim

theorem withoutPws_apply {defs defs' : ConfigDefaults} (same : defs.withoutPws = defs'.withoutPws) :
    (setting.apply defs).withoutPws = (setting.apply defs').withoutPws := by
  have apply_withoutPws : ∀ defs : ConfigDefaults,
      (setting.apply defs).withoutPws = (setting.apply defs.withoutPws).withoutPws := by
    intro defs
    cases setting with
    | gtsmEnable yes => cases yes <;> rfl
    | _ => rfl
  rw [apply_withoutPws defs, apply_withoutPws defs', same]

/-- What earlier L2VPNs say about pseudowires is all that the parser should have forgotten. -/
theorem withoutPws_remembered (base : ConfigDefaults)
    (about : ∀ setting ∈ earlierIn ended trace, setting.AboutPws) :
    (defaultsAfter base (rememberedIn ended trace)).withoutPws =
      (defaultsAfter base (visibleIn ended trace)).withoutPws := by
  induction trace generalizing ended with
  | nil => rfl
  | cons event rest inductionHypothesis =>
    cases event with
    | opens => exact inductionHypothesis about
    | closes block => exact inductionHypothesis about
    | sets setting =>
      rw [earlierIn, optionsIn] at about
      rw [rememberedIn, visibleIn, optionsIn, optionsIn]
      by_cases none' : ended = []
      · subst none'
        exact withoutPws_apply (inductionHypothesis about)
      · by_cases one : ended = [true]
        · subst one
          refine (withoutPws_aboutPws (about setting List.mem_cons_self) _).trans ?_
          exact inductionHypothesis fun other member => about other (List.mem_cons_of_mem _ member)
        · rw [if_neg (by simp [none', one]), if_neg (by simp [none'])]
          rw [if_neg (by simp [one])] at about
          exact inductionHypothesis about

theorem said_of_not_aboutPws (about : ¬setting.AboutPws) (flag : PwFlag) : flag.said setting = none := by
  cases setting with
  | statusTlv | controlWord => exact absurd trivial about
  | _ => cases flag <;> rfl

theorem last_eq_none (about : ∀ setting ∈ options, ¬setting.AboutPws) (flag : PwFlag) :
    flag.last options = none :=
  List.findSome?_eq_none_iff.mpr fun setting member => said_of_not_aboutPws (about setting member) flag

/-- Where no option about pseudowires can be seen, those of earlier L2VPNs are remembered. -/
theorem last_remembered (about : ∀ setting ∈ visibleIn ended trace, ¬setting.AboutPws)
    (flag : PwFlag) :
    flag.last (rememberedIn ended trace) = flag.last (earlierIn ended trace) := by
  induction trace generalizing ended with
  | nil => rfl
  | cons event rest inductionHypothesis =>
    cases event with
    | opens => exact inductionHypothesis about
    | closes block => exact inductionHypothesis about
    | sets setting =>
      rw [visibleIn, optionsIn] at about
      rw [rememberedIn, earlierIn, optionsIn, optionsIn]
      by_cases none' : ended = []
      · subst none'
        have rest' := inductionHypothesis fun other member =>
          about other (List.mem_cons_of_mem _ member)
        refine Eq.trans ?_ rest'
        show flag.last (setting :: rememberedIn [] rest) = _
        rw [PwFlag.last, List.findSome?_cons,
          said_of_not_aboutPws (about setting List.mem_cons_self) flag]
        rfl
      · rw [if_neg (by simp [none'])] at about
        have rest' := inductionHypothesis about
        by_cases one : ended = [true]
        · subst one
          show flag.last (setting :: rememberedIn [true] rest) = flag.last (setting :: earlierIn [true] rest)
          rw [PwFlag.last, List.findSome?_cons, PwFlag.last, List.findSome?_cons]
          cases flag.said setting with
          | none => exact rest'
          | some yes => rfl
        · rw [if_neg (by simp [none', one]), if_neg (by simp [one])]
          exact rest'

/-! ### The records of the parser -/

/-- The options that can be seen outside of the L2VPNs are not about pseudowires, and those in them
are. -/
structure Outside (ended : List Bool) (trace : Trace) : Prop where
  earlier : ∀ setting ∈ earlierIn ended trace, setting.AboutPws
  visible : ∀ setting ∈ visibleIn ended trace, ¬setting.AboutPws

/-- The options of earlier L2VPNs are about pseudowires, and count where no other is seen. -/
structure Layered (ended : List Bool) (trace : Trace) : Prop where
  earlier : ∀ setting ∈ earlierIn ended trace, setting.AboutPws
  last : ∀ flag : PwFlag, flag.last (rememberedIn ended trace) =
    (flag.last (visibleIn ended trace)).or (flag.last (earlierIn ended trace))

theorem Outside.layered (outside : Outside ended trace) : Layered ended trace := by
  refine ⟨outside.earlier, fun flag => ?_⟩
  rw [last_remembered outside.visible, last_eq_none outside.visible, Option.none_or]

theorem Outside.sets (outside : Outside [] trace) (about : ¬setting.AboutPws) :
    Outside [] (.sets setting :: trace) := by
  refine ⟨outside.earlier, fun other member => ?_⟩
  rcases List.mem_cons.mp member with rfl | member
  · exact about
  · exact outside.visible other member

theorem Layered.sets (layered : Layered [] trace) (setting : Setting) :
    Layered [] (.sets setting :: trace) := by
  refine ⟨layered.earlier, fun flag => ?_⟩
  show flag.last (setting :: rememberedIn [] trace) =
    (flag.last (setting :: visibleIn [] trace)).or (flag.last (earlierIn [] trace))
  have rest := layered.last flag
  rw [PwFlag.last, PwFlag.last] at rest
  rw [PwFlag.last, PwFlag.last, List.findSome?_cons, List.findSome?_cons]
  cases flag.said setting with
  | none => exact rest
  | some yes => rfl

/-- An option of an L2VPN will be one of an earlier L2VPN. -/
theorem Outside.sets_l2vpn (outside : Outside [true] trace) (about : setting.AboutPws) :
    Outside [true] (.sets setting :: trace) := by
  refine ⟨fun other member => ?_, outside.visible⟩
  rcases List.mem_cons.mp member with rfl | member
  · exact about
  · exact outside.earlier other member

/-- The records of defaults, and what the parser has come across. -/
structure Records where
  defs : Defs
  globaldefs : ConfigDefaults
  afdefs : ConfigDefaults
  ifacedefs : ConfigDefaults
  tnbrdefs : ConfigDefaults
  pwdefs : ConfigDefaults
  trace : Trace

def Statics.records (s : Statics) : Records where
  defs := s.defs
  globaldefs := s.globaldefs
  afdefs := s.afdefs
  ifacedefs := s.ifacedefs
  tnbrdefs := s.tnbrdefs
  pwdefs := s.pwdefs
  trace := s.trace

/-- The defaults that are remembered once some blocks have ended. -/
def Records.remembered (records : Records) (base : ConfigDefaults) (ended : List Bool) :
    ConfigDefaults :=
  defaultsAfter base (rememberedIn ended records.trace)

/-- The records somewhere: that of the block, and those of the blocks around it. -/
def Records.At (base : ConfigDefaults) (records : Records) : Level → Prop
  | .top | .neighbor => records.defs = .globaldefs ∧
    records.globaldefs = records.remembered base [] ∧ Outside [] records.trace
  | .family => records.defs = .afdefs ∧ records.afdefs = records.remembered base [] ∧
    records.globaldefs = records.remembered base [false] ∧
      Outside [] records.trace ∧ Outside [false] records.trace
  | .interface => records.defs = .ifacedefs ∧ records.ifacedefs = records.remembered base [] ∧
    records.afdefs = records.remembered base [false] ∧
      records.globaldefs = records.remembered base [false, false] ∧ Outside [] records.trace ∧
        Outside [false] records.trace ∧ Outside [false, false] records.trace
  | .tneighbor => records.defs = .tnbrdefs ∧ records.tnbrdefs = records.remembered base [] ∧
    records.afdefs = records.remembered base [false] ∧
      records.globaldefs = records.remembered base [false, false] ∧ Outside [] records.trace ∧
        Outside [false] records.trace ∧ Outside [false, false] records.trace
  | .l2vpn => records.defs = .globaldefs ∧ records.globaldefs = records.remembered base [] ∧
    records.remembered base [true] = records.remembered base [] ∧ Layered [] records.trace ∧
      Outside [true] records.trace
  | .pseudowire => records.defs = .pwdefs ∧ records.pwdefs = records.remembered base [] ∧
    records.globaldefs = records.remembered base [false] ∧
      records.remembered base [false, true] = records.remembered base [false] ∧
        Layered [] records.trace ∧ Layered [false] records.trace ∧
          Outside [false, true] records.trace

variable {s : Statics} {action : Action} {level level' : Level}

/-- The actions that the records are about. -/
def Action.OnRecords : Action → Prop
  | .put _ | .beginFamily _ | .endFamily | .beginInterface | .endInterface | .beginTneighbor _
  | .endTneighbor | .beginL2vpn _ | .endL2vpn | .beginPw _ | .endPw => True
  | _ => False

theorem records_change (other : ¬action.OnRecords) (s : Statics) :
    (action.change s).records = s.records := by
  cases action with
  | put | beginFamily | endFamily | beginInterface | endInterface | beginTneighbor | endTneighbor
  | beginL2vpn | endL2vpn | beginPw | endPw => exact absurd trivial other
  | enterInterface kif af =>
    rw [Action.change, Parse.addIface]
    split <;> rfl
  | _ => rfl

theorem goes_records (other : ¬action.OnRecords) (goes : action.Goes level level') :
    level = level' ∨ (level = .top ∧ level' = .neighbor) ∨ level = .neighbor ∧ level' = .top := by
  cases goes with
  | put | beginFamily | endFamily | beginInterface | endInterface | beginTneighbor | endTneighbor
  | beginL2vpn | endL2vpn | beginPw | endPw => exact absurd trivial other
  | _ => decide

theorem Level.Sets.aboutPws (sets : level.Sets setting) :
    setting.AboutPws ↔ level = .l2vpn ∨ level = .pseudowire := by
  cases level with
  | l2vpn | pseudowire =>
    refine iff_of_true ?_ (by decide)
    cases setting with
    | statusTlv | controlWord => trivial
    | _ => exact sets.elim
  | _ =>
    refine iff_of_false ?_ (by decide)
    cases setting with
    | statusTlv | controlWord => exact fun _ => sets.elim
    | _ => exact id

/-- An option is remembered where it stands, and nowhere else. -/
theorem records_put (at' : s.records.At base level) (sets : level.Sets setting) :
    (s.put setting).records.At base level := by
  have puts : ∀ defs, s.defs = defs → (s.put setting).records =
      { ({ s with defs }.setCurrent (setting.apply { s with defs }.current)).records with
        trace := .sets setting :: s.trace } := by
    rintro defs rfl
    rfl
  have about := sets.aboutPws
  cases level with
  | top | neighbor =>
    obtain ⟨points, globaldefs, outside⟩ := at'
    rw [puts _ points]
    exact ⟨rfl, congrArg setting.apply globaldefs, outside.sets (about.not.mpr (by decide))⟩
  | family =>
    obtain ⟨points, afdefs, globaldefs, outside, around⟩ := at'
    rw [puts _ points]
    exact ⟨rfl, congrArg setting.apply afdefs, globaldefs,
      outside.sets (about.not.mpr (by decide)), ⟨around.earlier, around.visible⟩⟩
  | interface =>
    obtain ⟨points, ifacedefs, afdefs, globaldefs, outside, around, further⟩ := at'
    rw [puts _ points]
    exact ⟨rfl, congrArg setting.apply ifacedefs, afdefs, globaldefs,
      outside.sets (about.not.mpr (by decide)), ⟨around.earlier, around.visible⟩,
      ⟨further.earlier, further.visible⟩⟩
  | tneighbor =>
    obtain ⟨points, tnbrdefs, afdefs, globaldefs, outside, around, further⟩ := at'
    rw [puts _ points]
    exact ⟨rfl, congrArg setting.apply tnbrdefs, afdefs, globaldefs,
      outside.sets (about.not.mpr (by decide)), ⟨around.earlier, around.visible⟩,
      ⟨further.earlier, further.visible⟩⟩
  | l2vpn =>
    obtain ⟨points, globaldefs, same, layered, outside⟩ := at'
    rw [puts _ points]
    exact ⟨rfl, congrArg setting.apply globaldefs, congrArg setting.apply same,
      layered.sets setting, outside.sets_l2vpn (about.mpr (by decide))⟩
  | pseudowire =>
    obtain ⟨points, pwdefs, globaldefs, same, layered, around, outside⟩ := at'
    rw [puts _ points]
    exact ⟨rfl, congrArg setting.apply pwdefs, globaldefs, same, layered.sets setting,
      ⟨around.earlier, around.last⟩, ⟨outside.earlier, outside.visible⟩⟩

theorem current_eq {defs : Defs} (points : s.defs = defs) : s.current = { s with defs }.current := by
  rw [← points]

/-- The end of the block of an object. -/
theorem records_close {object : Option Object} {block : Object} (some' : object = some block)
    (defs : Defs) : { s.records with defs, trace := s.close object } =
      { s.records with defs, trace := .closes (.object block) :: s.trace } := by
  rw [some']
  rfl

/-- What the records are after an action. -/
theorem records_at (at' : s.records.At base level) (goes : action.Goes level level')
    (afConf : level = .family → ∃ af, s.afConf = some af)
    (ia : level = .interface → ∃ ifindex af, s.ia = some (ifindex, af))
    (tnbr : level = .tneighbor → ∃ addr, s.tnbr = some addr)
    (pw : level = .pseudowire → ∃ ifindex, s.pw = some ifindex) :
    (action.change s).records.At base level' := by
  by_cases on : action.OnRecords
  · cases goes with
    | put sets => exact records_put at' sets
    | beginFamily af =>
      obtain ⟨points, globaldefs, outside⟩ := at'
      exact ⟨rfl, (current_eq points).trans globaldefs, globaldefs,
        ⟨outside.earlier, outside.visible⟩, ⟨outside.earlier, outside.visible⟩⟩
    | endFamily =>
      obtain ⟨-, -, globaldefs, -, around⟩ := at'
      obtain ⟨af, some'⟩ := afConf rfl
      have records : (Action.endFamily.change s).records = _ :=
        records_close (congrArg (Option.map Object.family) some') .globaldefs
      rw [records]
      exact ⟨rfl, globaldefs, ⟨around.earlier, around.visible⟩⟩
    | beginInterface =>
      obtain ⟨points, afdefs, globaldefs, outside, around⟩ := at'
      exact ⟨rfl, (current_eq points).trans afdefs, afdefs, globaldefs,
        ⟨outside.earlier, outside.visible⟩, ⟨outside.earlier, outside.visible⟩,
        ⟨around.earlier, around.visible⟩⟩
    | endInterface =>
      obtain ⟨-, -, afdefs, globaldefs, -, around, further⟩ := at'
      obtain ⟨ifindex, af, some'⟩ := ia rfl
      have records : (Action.endInterface.change s).records = _ :=
        records_close (congrArg (Option.map fun ia : UInt32 × Af => Object.interface ia.1 ia.2) some') .afdefs
      rw [records]
      exact ⟨rfl, afdefs, globaldefs, ⟨around.earlier, around.visible⟩,
        ⟨further.earlier, further.visible⟩⟩
    | beginTneighbor addr =>
      obtain ⟨points, afdefs, globaldefs, outside, around⟩ := at'
      exact ⟨rfl, (current_eq points).trans afdefs, afdefs, globaldefs,
        ⟨outside.earlier, outside.visible⟩, ⟨outside.earlier, outside.visible⟩,
        ⟨around.earlier, around.visible⟩⟩
    | endTneighbor =>
      obtain ⟨-, -, afdefs, globaldefs, -, around, further⟩ := at'
      obtain ⟨addr, some'⟩ := tnbr rfl
      have records : (Action.endTneighbor.change s).records = _ :=
        records_close (congrArg (Option.map Object.tneighbor) some') .afdefs
      rw [records]
      exact ⟨rfl, afdefs, globaldefs, ⟨around.earlier, around.visible⟩,
        ⟨further.earlier, further.visible⟩⟩
    | beginL2vpn name =>
      obtain ⟨points, globaldefs, outside⟩ := at'
      exact ⟨points, globaldefs, rfl, ⟨outside.earlier, outside.layered.last⟩,
        ⟨outside.earlier, outside.visible⟩⟩
    | endL2vpn =>
      obtain ⟨points, globaldefs, same, layered, outside⟩ := at'
      exact ⟨points, globaldefs.trans same.symm, ⟨outside.earlier, outside.visible⟩⟩
    | beginPw kif =>
      obtain ⟨points, globaldefs, same, layered, outside⟩ := at'
      exact ⟨rfl, (current_eq points).trans globaldefs, globaldefs, same, ⟨layered.earlier, layered.last⟩,
        ⟨layered.earlier, layered.last⟩, ⟨outside.earlier, outside.visible⟩⟩
    | endPw =>
      obtain ⟨-, -, globaldefs, same, -, around, outside⟩ := at'
      obtain ⟨ifindex, some'⟩ := pw rfl
      have records : (Action.endPw.change s).records = _ :=
        records_close (congrArg (Option.map Object.pseudowire) some') .globaldefs
      rw [records]
      exact ⟨rfl, globaldefs, same, ⟨around.earlier, around.last⟩,
        ⟨outside.earlier, outside.visible⟩⟩
    | _ => exact on.elim
  · rw [records_change on s]
    rcases goes_records on goes with rfl | ⟨rfl, rfl⟩ | ⟨rfl, rfl⟩
    · exact at'
    · exact at'
    · exact at'

end Ldpd
