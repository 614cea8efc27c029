/-
This file is about a configuration that is read again. It compares a parse in a process that
has parsed other files with the same parse in a fresh process. The parser begins with the
defaults that `parse_config` sets, but it does not set the flags of the families: they are
still what earlier files have made of them.
-/

import Ldpd.Main.Settings

namespace Ldpd

open Program

/-! ### All but the flags -/

/-- The defaults, with or without the flags of the families. -/
def ConfigDefaults.masked (shown : Bool) (defs : ConfigDefaults) : ConfigDefaults :=
  { defs with afflags := if shown then defs.afflags else {} }

/-- A family, with or without the flags that come from the defaults. -/
def LdpdAfConf.masked {Addr : Type} (shown : Bool) (afConf : LdpdAfConf Addr) : LdpdAfConf Addr :=
  { afConf with
    flags :=
      if shown then afConf.flags
      else if afConf.flags.enabled then { enabled := true }
      else afConf.flags }

def LdpdConf.masked (shown : Bool) (conf : LdpdConf) : LdpdConf :=
  { conf with ipv4 := conf.ipv4.masked shown, ipv6 := conf.ipv6.masked shown }

/-- A parse in a fresh process, and the same one in another process: they agree on all that they look
at, with or without the flags. What `ia` points to may be left over in the other process. -/
structure Agree (shown : Bool) (s s' : Statics) : Prop where
  lexer : s.lexer = s'.lexer
  look : s.look = s'.look
  conf : s.conf.masked shown = s'.conf.masked shown
  l2vpns : s.l2vpns = s'.l2vpns
  defs : s.defs = s'.defs
  trace : s.trace = s'.trace
  current : s.current.masked shown = s'.current.masked shown
  globaldefs : s.globaldefs.masked shown = s'.globaldefs.masked shown
  ia : s.ia = none ∨ s.ia = s'.ia

/-- What they agree on in the block of a family. -/
structure AgreeFamily (shown : Bool) (s s' : Statics) : Prop where
  af : s.af = s'.af
  afConf : s.afConf = s'.afConf
  afdefs : s.afdefs.masked shown = s'.afdefs.masked shown

/-- What they agree on somewhere. -/
def AgreeAt (shown : Bool) (s s' : Statics) : Level → Prop
  | .top => True
  | .family => AgreeFamily shown s s'
  | .interface => AgreeFamily shown s s' ∧ s.ia = s'.ia
  | .tneighbor => AgreeFamily shown s s' ∧ s.tnbr = s'.tnbr
  | .neighbor => s.nbrp = s'.nbrp
  | .l2vpn => s.l2vpn = s'.l2vpn
  | .pseudowire => s.l2vpn = s'.l2vpn ∧ s.pw = s'.pw

structure Fresh (shown : Bool) (level : Level) (s s' : Statics) : Prop where
  agree : Agree shown s s'
  at' : AgreeAt shown s s' level

variable {s s' : Statics} {action : Action} {level level' : Level} {conf conf' : LdpdConf}
  {shown : Bool}

theorem lists_of_masked (same : conf.masked shown = conf'.masked shown) :
    conf.ifaceList = conf'.ifaceList ∧ conf.tnbrList = conf'.tnbrList ∧
      conf.nbrpList = conf'.nbrpList := by
  obtain ⟨-, -, -, ifaceList, tnbrList, nbrpList, -⟩ := LdpdConf.mk.inj same
  exact ⟨ifaceList, tnbrList, nbrpList⟩

theorem Fresh.alike (fresh : Fresh shown level s s') : Alike level s s' where
  lexer := fresh.agree.lexer
  look := fresh.agree.look
  ifaceList := (lists_of_masked fresh.agree.conf).1
  tnbrList := (lists_of_masked fresh.agree.conf).2.1
  nbrpList := (lists_of_masked fresh.agree.conf).2.2
  l2vpns := fresh.agree.l2vpns
  af := by
    rintro rfl
    exact fresh.at'.af
  l2vpn := by
    rintro rfl
    exact fresh.at'
  pw := by
    rintro rfl
    exact fresh.at'.2

theorem masked_apply (setting : Setting) {defs defs' : ConfigDefaults}
    (same : defs.masked shown = defs'.masked shown) :
    (setting.apply defs).masked shown = (setting.apply defs').masked shown := by
  have apply_masked : ∀ defs : ConfigDefaults,
      (setting.apply defs).masked shown = (setting.apply (defs.masked shown)).masked shown := by
    intro defs
    cases shown <;> cases setting with
    | gtsmEnable yes => cases yes <;> rfl
    | _ => rfl
  rw [apply_masked defs, apply_masked defs', same]

theorem Fresh.put (fresh : Fresh shown level s s') (setting : Setting) :
    Fresh shown level (s.put setting) (s'.put setting) := by
  obtain ⟨agree, at'⟩ := fresh
  have applied := masked_apply setting agree.current
  have trace : Event.sets setting :: s.trace = .sets setting :: s'.trace :=
    congrArg _ agree.trace
  have points := agree.defs
  rw [Statics.put, Statics.put, Statics.setCurrent, Statics.setCurrent, ← points]
  cases s.defs with
  | globaldefs =>
    refine ⟨{ agree with trace := trace, defs := rfl, current := applied, globaldefs := applied }, ?_⟩
    cases level with
    | family => exact ⟨at'.af, at'.afConf, at'.afdefs⟩
    | interface | tneighbor => exact ⟨⟨at'.1.af, at'.1.afConf, at'.1.afdefs⟩, at'.2⟩
    | _ => exact at'
  | afdefs =>
    refine ⟨{ agree with trace := trace, defs := rfl, current := applied }, ?_⟩
    cases level with
    | family => exact ⟨at'.af, at'.afConf, applied⟩
    | interface | tneighbor => exact ⟨⟨at'.1.af, at'.1.afConf, applied⟩, at'.2⟩
    | _ => exact at'
  | ifacedefs | tnbrdefs | pwdefs =>
    refine ⟨{ agree with trace := trace, defs := rfl, current := applied }, ?_⟩
    cases level with
    | family => exact ⟨at'.af, at'.afConf, at'.afdefs⟩
    | interface | tneighbor => exact ⟨⟨at'.1.af, at'.1.afConf, at'.1.afdefs⟩, at'.2⟩
    | _ => exact at'

theorem Fresh.reading (fresh : Fresh shown level s s') (lexer : Lexer) (look : Option Token) :
    Fresh shown level (s.reading lexer look) (s'.reading lexer look) := by
  obtain ⟨agree, at'⟩ := fresh
  refine ⟨{ agree with lexer := rfl, look := rfl }, ?_⟩
  cases level with
  | family => exact ⟨at'.af, at'.afConf, at'.afdefs⟩
  | interface | tneighbor => exact ⟨⟨at'.1.af, at'.1.afConf, at'.1.afdefs⟩, at'.2⟩
  | _ => exact at'

theorem Agree.event (agree : Agree shown s s') (event : Event) : event :: s.trace = event :: s'.trace :=
  congrArg _ agree.trace

variable {macros : List (String × String)} {host : ParseHost} {fuel : Nat} {filename : String}
  {t t' : Statics}

/-- The macros that stay, as long as a file is parsed. -/
def Persists (syms : List Sym) (s : Statics) : Prop :=
  s.Reads ∧ s.lexer.symhead.filter Sym.persist = syms

theorem kept_persists (syms : List Sym) : Kept fun _ => Persists syms where
  reads := by
    intro level s fuel token lexer holds look read
    refine ⟨holds.1.reads look read, ?_⟩
    show lexer.symhead.filter Sym.persist = syms
    rw [(Lexer.lexed_yylex (holds.1.ready look) read).kept.symhead]
    exact holds.2
  shifts holds look := ⟨holds.1.shifts look, holds.2⟩
  fails := by
    intro level s holds
    refine ⟨holds.1.fails, ?_⟩
    show s.lexer.yyerror.symhead.filter Sym.persist = syms
    rw [(Lexer.kept_yyerror s.lexer).symhead]
    exact holds.2
  acts := by
    intro level level' action s holds goes allowed
    refine ⟨holds.1.acts allowed, ?_⟩
    rcases action.lexer_cases s with ⟨lexer, -⟩ | ⟨nam, val, rfl⟩ | ⟨file, rfl⟩
    · rw [lexer]
      exact holds.2
    · obtain ⟨symhead, same, kept⟩ := symset_cases s.lexer nam val
      rw [Action.change, same]
      exact kept.trans holds.2
    · show (Lexer.lungetc _ _).symhead.filter Sym.persist = syms
      rw [(Lexer.kept_lungetc _ _).symhead]
      exact holds.2

/-- Between two parses the lexer is what it was in the beginning. -/
theorem Process.lexer (process : Process macros s) : s.lexer = (Statics.start macros).lexer := by
  induction process with
  | start => rfl
  | @parse s s' host fuel filename result before parsed inductionHypothesis =>
    rcases parseConfig_cases parsed with ⟨-, rfl⟩ | ⟨file, outcome, t, run, -, rfl⟩
    · exact inductionHypothesis
    · obtain ⟨⟨reads, persists⟩, eof⟩ :=
        (kept_persists (s.lexer.symhead.filter Sym.persist)).yyparse
          ⟨before.idle.reads file, rfl⟩ run
      have idle := (Process.parse before parsed).idle
      obtain ⟨symhead, start, persistent⟩ := start_lexer macros
      have symhead' : t.cleanUp.lexer.symhead = symhead := by
        show t.lexer.symhead.filter Sym.persist = symhead
        rw [persists, inductionHypothesis, start]
        exact List.filter_eq_self.mpr persistent
      rw [start]
      exact (Lexer.mk.injEq ..).mpr ⟨idle.files, symhead', idle.parsebuf, idle.pushback⟩

theorem enabled_masked {Addr : Type} (shown : Bool) (afConf : LdpdAfConf Addr) :
    (afConf.masked shown).flags.enabled = afConf.flags.enabled := by
  rw [LdpdAfConf.masked]
  dsimp only
  split
  · rfl
  split
  · rename_i enabled
    exact enabled.symm
  · rfl

theorem result_masked (shown : Bool) (s : Statics) (host : ParseHost) :
    (s.result host).masked shown = ({ s with conf := s.conf.masked shown } : Statics).result host := by
  have enabled : (s.conf.masked shown).ipv4.flags.enabled = s.conf.ipv4.flags.enabled :=
    enabled_masked shown s.conf.ipv4
  rw [Statics.result, Statics.result]
  dsimp only
  rw [enabled]
  by_cases filled : s.conf.ipv4.flags.enabled = true ∧ s.conf.ipv4.transAddr = 0
  · have filled' : s.conf.ipv4.flags.enabled = true ∧ (s.conf.masked shown).ipv4.transAddr = 0 := filled
    rw [if_pos filled, if_pos filled']
    rfl
  · have kept : ¬(s.conf.ipv4.flags.enabled = true ∧ (s.conf.masked shown).ipv4.transAddr = 0) := filled
    rw [if_neg filled, if_neg kept]
    rfl

theorem masked_result (agree : Agree shown s s') (host : ParseHost) :
    (s.result host).masked shown = (s'.result host).masked shown := by
  rw [result_masked, result_masked, Statics.result, Statics.result]
  dsimp only
  rw [agree.conf, agree.l2vpns]

/-- What `parse_config` makes of a file that has been parsed. -/
def Statics.finish (host : ParseHost) (s : Statics) : Option LdpdConf × Statics :=
  (if s.lexer.files.head?.any ParseFile.errors then none else some (s.result host), s.cleanUp)

/-- Two outcomes are the same, with or without the flags, and where there is a configuration the same
has been read. -/
def SameParse (shown : Bool) (fresh other : Option LdpdConf × Statics) : Prop :=
  fresh.1.map (LdpdConf.masked shown) = other.1.map (LdpdConf.masked shown) ∧
    (fresh.1 ≠ none → fresh.2.trace = other.2.trace ∧ fresh.2.left = other.2.left)

theorem Agree.finish (agree : Agree shown s s') (host : ParseHost) :
    SameParse shown (s.finish host) (s'.finish host) := by
  refine ⟨?_, fun _ => ⟨agree.trace, congrArg (fun lexer : Lexer => leftOpen lexer.files) agree.lexer⟩⟩
  rw [Statics.finish, Statics.finish, agree.lexer]
  dsimp only
  split
  · rfl
  · exact congrArg some (masked_result agree host)

/-- The flags of a family that the defaults set. -/
inductive AfFlag where
  | thelloAccept
  | expnull
  | noGtsm
  deriving DecidableEq, Repr

/-- What an option says about a flag. Only `no` changes the one about GTSM. -/
def AfFlag.said : AfFlag → Setting → Option Bool
  | .thelloAccept, .targetedHelloAccept yes => some yes
  | .expnull, .explicitNull yes => some yes
  | .noGtsm, .gtsmEnable false => some true
  | _, _ => none

/-- What the last of some options about a flag says. -/
def AfFlag.last (flag : AfFlag) (options : List Setting) : Option Bool :=
  options.findSome? flag.said

def AfFlag.get (flags : AfFlags) : AfFlag → Bool
  | .thelloAccept => flags.thelloAccept
  | .expnull => flags.expnull
  | .noGtsm => flags.noGtsm

theorem AfFlag.get_apply (flag : AfFlag) (setting : Setting) (defs : ConfigDefaults) :
    flag.get (setting.apply defs).afflags = (flag.said setting).getD (flag.get defs.afflags) := by
  cases setting with
  | gtsmEnable yes => cases yes <;> cases flag <;> rfl
  | _ => cases flag <;> rfl

theorem AfFlag.get_defaultsAfter (flag : AfFlag) (base : ConfigDefaults) (options : List Setting) :
    flag.get (defaultsAfter base options).afflags =
      (flag.last options).getD (flag.get base.afflags) := by
  induction options with
  | nil => rfl
  | cons setting rest inductionHypothesis =>
    rw [defaultsAfter_cons, AfFlag.get_apply, inductionHypothesis, AfFlag.last, AfFlag.last,
      List.findSome?_cons]
    cases flag.said setting with
    | none => rfl
    | some yes => rfl

variable {base base' defs defs' : ConfigDefaults} {af : Af}

end Ldpd
