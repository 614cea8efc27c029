/-
This file is about the process that parses one configuration file after another. A fact
that the actions and the lexer keep holds after a parse; for the configurations that are
accepted it is enough that it is kept as long as no error has been found. Between two
parses the lexer has nothing to read, and the macros are those of the command line.

The input may end in the middle of a file that is included, at a zero byte. Then only the
errors of that file count, and those of the files that include it are lost.
-/

import Ldpd.Main.Grammar

namespace Ldpd

open Program

/-! ### Facts about one state -/

/-- A fact as a relation between a state and itself. -/
def Diagonal (fact : Level → Statics → Prop) (level : Level) (s s' : Statics) : Prop :=
  s = s' ∧ fact level s

/-- A fact that a parse keeps. -/
structure Kept (fact : Level → Statics → Prop) : Prop where
  reads {level : Level} {s : Statics} {fuel : Nat} {token : Token} {lexer : Lexer} :
    fact level s → s.look = none → s.lexer.yylex fuel = some (token, lexer) →
      fact level (s.reading lexer (some token))
  shifts {level : Level} {s : Statics} : fact level s → s.look ≠ none →
    fact level (s.reading s.lexer none)
  fails {level : Level} {s : Statics} : fact level s →
    fact .top (s.reading s.lexer.yyerror s.look)
  acts {level level' : Level} {action : Action} {s : Statics} : fact level s →
    action.Goes level level' → action.Allowed s → fact level' (action.change s)

variable {fact : Level → Statics → Prop} {level level' : Level} {s s' : Statics}
  {host : ParseHost} {fuel rounds : Nat}

theorem Alike.refl (level : Level) (s : Statics) : Alike level s s where
  lexer := rfl
  look := rfl
  ifaceList := rfl
  tnbrList := rfl
  nbrpList := rfl
  l2vpns := rfl
  af := fun _ => rfl
  l2vpn := fun _ => rfl
  pw := fun _ => rfl

theorem Kept.respects (kept : Kept fact) : Respects (Diagonal fact) where
  alike := by
    rintro level s _ ⟨rfl, -⟩
    exact .refl level s
  reads := by
    rintro level s _ fuel token lexer ⟨rfl, holds⟩ look read
    exact ⟨rfl, kept.reads holds look read⟩
  shifts := by
    rintro level s _ ⟨rfl, holds⟩ look
    exact ⟨rfl, kept.shifts holds look⟩
  fails := by
    rintro level s _ ⟨rfl, holds⟩
    exact ⟨rfl, kept.fails holds⟩
  acts := by
    rintro level level' action s _ ⟨rfl, holds⟩ goes allowed
    exact ⟨rfl, kept.acts holds goes allowed⟩

theorem Kept.yyparse (kept : Kept fact) (holds : fact .top s) {outcome : Except ParseFault Unit}
    (run : (Parse.yyparse host fuel rounds).run s = some (outcome, s')) :
    fact .top s' ∧ s'.look = some .eof := by
  have twin : Twin (fun _ _ => False) (Diagonal fact .top) (Parse.yyparse host fuel rounds) _ :=
    Parse.twin_yyparse kept.respects rounds
  have outcomes := twin s s ⟨rfl, holds⟩
  rw [run] at outcomes
  cases outcomes with
  | ok after => exact ⟨after.1.2, after.2 rfl⟩
  | error failed => exact failed.elim

/-! ### Reading -/

/-- The lexer while a file is parsed. -/
structure Statics.Reads (s : Statics) : Prop where
  ready : s.look = none → s.lexer.Ahead 0
  ahead : s.look ≠ none → s.lexer.Ahead 1
  ended : s.look = some .eof → s.lexer.AtEnd
  opened : s.lexer.files ≠ []

/-- Of all actions only two are about the lexer. -/
theorem Action.lexer_cases (action : Action) (s : Statics) :
    (action.change s).lexer = s.lexer ∧ (action.change s).look = s.look ∨
      (∃ nam val, action = .symset nam val) ∨ ∃ file, action = .includeFile file := by
  cases action with
  | symset nam val => exact .inr (.inl ⟨nam, val, rfl⟩)
  | includeFile file => exact .inr (.inr ⟨file, rfl⟩)
  | enterInterface kif af =>
    refine .inl ?_
    rw [Action.change, Parse.addIface]
    split <;> exact ⟨rfl, rfl⟩
  | put setting =>
    refine .inl ?_
    rw [Action.change, Statics.put, Statics.setCurrent]
    cases s.defs <;> exact ⟨rfl, rfl⟩
  | _ => exact .inl ⟨rfl, rfl⟩

theorem filter_eraseP {syms : List Sym} {nam : String} {sym : Sym}
    (found : (syms.find? fun sym => sym.nam = nam) = some sym) (transient : ¬sym.persist) :
    (syms.eraseP fun sym => sym.nam = nam).filter Sym.persist = syms.filter Sym.persist := by
  induction syms with
  | nil => rfl
  | cons first rest inductionHypothesis =>
    rw [List.find?_cons] at found
    rw [List.eraseP_cons]
    split at found
    · rename_i same
      cases found
      rw [same, cond_true, List.filter_cons_of_neg transient]
    · rename_i other
      rw [other, cond_false, List.filter_cons, List.filter_cons, inductionHypothesis found]

theorem symset_cases (lexer : Lexer) (nam val : String) :
    ∃ symhead, lexer.symset nam val false = { lexer with symhead } ∧
      symhead.filter Sym.persist = lexer.symhead.filter Sym.persist := by
  rw [Lexer.symset]
  split
  · rename_i sym found
    split
    · exact ⟨lexer.symhead, rfl, rfl⟩
    · rename_i transient
      refine ⟨_, rfl, ?_⟩
      rw [List.filter_append, filter_eraseP found transient]
      exact List.append_nil _
  · refine ⟨_, rfl, ?_⟩
    rw [List.filter_append]
    exact List.append_nil _

theorem Statics.Reads.acts {action : Action} (reads : s.Reads) (allowed : action.Allowed s) :
    (action.change s).Reads := by
  rcases action.lexer_cases s with ⟨lexer, look⟩ | ⟨nam, val, rfl⟩ | ⟨file, rfl⟩
  · constructor
    · rw [look, lexer]
      exact reads.ready
    · rw [look, lexer]
      exact reads.ahead
    · rw [look, lexer]
      exact reads.ended
    · rw [lexer]
      exact reads.opened
  · obtain ⟨symhead, same, -⟩ := symset_cases s.lexer nam val
    rw [Action.change, same]
    exact ⟨fun none' => (reads.ready none').congr rfl rfl, fun filled => (reads.ahead filled).congr rfl rfl,
      fun eof => ⟨(reads.ended eof).parsebuf, (reads.ended eof).pushback⟩, reads.opened⟩
  · refine ⟨fun _ => ?_, fun filled => absurd rfl filled, fun eof => (by cases eof), ?_⟩
    · have ahead : Lexer.Ahead { s.lexer with files := file :: s.lexer.files } 1 :=
        (reads.ahead allowed).congr rfl rfl
      have newline : some '\n' ≠ some '\x00' := by decide
      exact Lexer.ahead_lungetc ahead fun zero => absurd zero newline
    · exact (Lexer.kept_lungetc _ _).opened (List.cons_ne_nil _ _)

theorem Statics.Reads.reads {token : Token} {lexer : Lexer} (reads : s.Reads) (look : s.look = none)
    (read : s.lexer.yylex fuel = some (token, lexer)) : (s.reading lexer (some token)).Reads := by
  have lexed := Lexer.lexed_yylex (reads.ready look) read
  refine ⟨fun none' => (by cases none'), fun _ => lexed.ahead, fun eof => ?_, ?_⟩
  · exact lexed.ended (Option.some.inj eof)
  · exact lexed.kept.opened reads.opened

theorem Statics.Reads.shifts (reads : s.Reads) (look : s.look ≠ none) :
    (s.reading s.lexer none).Reads :=
  ⟨fun _ => (reads.ahead look).less (Nat.zero_le 1), fun filled => absurd rfl filled,
    fun eof => (by cases eof), reads.opened⟩

theorem Statics.Reads.fails (reads : s.Reads) : (s.reading s.lexer.yyerror s.look).Reads := by
  have parsebuf := Lexer.parsebuf_yyerror s.lexer
  have pushback := Lexer.pushback_yyerror s.lexer
  refine ⟨fun none' => (reads.ready none').congr parsebuf pushback,
    fun filled => (reads.ahead filled).congr parsebuf pushback, fun eof => ⟨?_, ?_⟩, ?_⟩
  · exact parsebuf.trans (reads.ended eof).parsebuf
  · exact pushback.trans (reads.ended eof).pushback
  · exact (Lexer.kept_yyerror _).opened reads.opened

theorem kept_reads : Kept fun _ => Statics.Reads where
  reads := Statics.Reads.reads
  shifts := Statics.Reads.shifts
  fails := Statics.Reads.fails
  acts := fun reads _ allowed => reads.acts allowed

/-! ### Between two parses -/

/-- The lexer between two parses. -/
structure Statics.Idle (s : Statics) : Prop where
  parsebuf : s.lexer.parsebuf = none
  pushback : s.lexer.pushback = []
  files : s.lexer.files = []

/-- The static variables when `yyparse` is called. -/
def Statics.opens (s : Statics) (file : ParseFile) : Statics :=
  { s.prepare with lexer := { s.lexer with files := [file] } }

theorem Statics.Idle.reads (idle : s.Idle) (file : ParseFile) : (s.opens file).Reads where
  ready := fun _ => by
    have outside : s.lexer.Ahead 0 := by
      refine Lexer.ahead_of_none idle.parsebuf ?_ 0
      rw [idle.pushback]
      exact List.not_mem_nil
    exact outside.congr rfl rfl
  ahead := fun filled => absurd rfl filled
  ended := fun eof => by cases eof
  opened := List.cons_ne_nil _ _

/-- What `parse_config` does: it cannot open the file, or it parses it. -/
theorem parseConfig_cases {filename : String} {result : Option LdpdConf}
    (parsed : parseConfig host fuel filename s = some (result, s')) :
    (result = none ∧ s' = s.prepare) ∨
      ∃ file outcome t, (Parse.yyparse host fuel fuel).run (s.opens file) = some (outcome, t) ∧
        result = (if t.lexer.files.head?.any ParseFile.errors then none else some (t.result host)) ∧
        s' = t.cleanUp := by
  rw [parseConfig] at parsed
  cases opened : host.openFile filename with
  | none =>
    rw [opened] at parsed
    cases parsed
    exact .inl ⟨rfl, rfl⟩
  | some stream =>
    rw [opened] at parsed
    dsimp only at parsed
    split at parsed
    · cases parsed
    · rename_i outcome t run
      cases parsed
      exact .inr ⟨{ name := filename, stream }, outcome, t, run, rfl, rfl⟩

theorem Statics.Idle.parseConfig (idle : s.Idle) {filename : String} {result : Option LdpdConf}
    (parsed : parseConfig host fuel filename s = some (result, s')) : s'.Idle := by
  rcases parseConfig_cases parsed with ⟨-, rfl⟩ | ⟨file, outcome, t, run, -, rfl⟩
  · exact ⟨idle.parsebuf, idle.pushback, idle.files⟩
  · obtain ⟨reads, eof⟩ := kept_reads.yyparse (idle.reads file) run
    have ended := reads.ended eof
    exact ⟨ended.parsebuf, ended.pushback, rfl⟩

/-- A process that starts with the macros of the command line. -/
def Statics.start (macros : List (String × String)) : Statics :=
  { lexer := macros.foldl (fun lexer entry => lexer.symset entry.1 entry.2 true) {} }

/-- The static variables after any number of parses, of any files on any system. -/
inductive Process (macros : List (String × String)) : Statics → Prop
  | start : Process macros (.start macros)
  | parse {s s' : Statics} {host : ParseHost} {fuel : Nat} {filename : String}
    {result : Option LdpdConf} (before : Process macros s)
    (parsed : parseConfig host fuel filename s = some (result, s')) : Process macros s'

variable {macros : List (String × String)}

theorem symset_start (lexer : Lexer) (nam val : String)
    (persistent : ∀ sym ∈ lexer.symhead, sym.persist) :
    ∃ symhead, lexer.symset nam val true = { lexer with symhead } ∧
      ∀ sym ∈ symhead, sym.persist := by
  rw [Lexer.symset]
  split
  · rename_i sym found
    rw [if_pos (persistent sym (List.mem_of_find?_eq_some found))]
    exact ⟨lexer.symhead, rfl, persistent⟩
  · refine ⟨_, rfl, fun sym member => ?_⟩
    rcases List.mem_append.mp member with member | member
    · exact persistent sym member
    · rw [List.mem_singleton.mp member]

theorem start_lexer (macros : List (String × String)) :
    ∃ symhead, (Statics.start macros).lexer = { symhead } ∧ ∀ sym ∈ symhead, sym.persist := by
  have grows (lexer : Lexer) (persistent : ∀ sym ∈ lexer.symhead, sym.persist) :
      ∃ symhead, macros.foldl (fun lexer entry => lexer.symset entry.1 entry.2 true) lexer =
        { lexer with symhead } ∧ ∀ sym ∈ symhead, sym.persist := by
    induction macros generalizing lexer with
    | nil => exact ⟨lexer.symhead, rfl, persistent⟩
    | cons entry rest inductionHypothesis =>
      obtain ⟨symhead, same, persistent'⟩ := symset_start lexer entry.1 entry.2 persistent
      rw [List.foldl_cons, same]
      exact inductionHypothesis _ persistent'
  exact grows {} fun sym member => by cases member

theorem Process.idle (process : Process macros s) : s.Idle := by
  induction process with
  | start =>
    obtain ⟨symhead, same, -⟩ := start_lexer macros
    constructor
    · rw [same]
    · rw [same]
    · rw [same]
  | parse before parsed inductionHypothesis => exact inductionHypothesis.parseConfig parsed

/-! ### Accepted configurations -/

/-- A fact that is kept as long as no error has been found. It is not about the lexer. -/
structure Sound (fact : Level → Statics → Prop) : Prop where
  reading {level : Level} {s : Statics} (holds : fact level s) (lexer : Lexer) (look : Option Token) :
    fact level (s.reading lexer look)
  acts {level level' : Level} {action : Action} {s : Statics} : fact level s →
    action.Goes level level' → action.Allowed s → fact level' (action.change s)

/-- There has been an error, or a fact holds. -/
def Unfailed (fact : Level → Statics → Prop) (level : Level) (s : Statics) : Prop :=
  s.Reads ∧ (s.lexer.Failed ∨ fact level s)

theorem Action.failed_change {action : Action} (failed : s.lexer.Failed) :
    (action.change s).lexer.Failed := by
  rcases action.lexer_cases s with ⟨lexer, -⟩ | ⟨nam, val, rfl⟩ | ⟨file, rfl⟩
  · rw [lexer]
    exact failed
  · obtain ⟨symhead, same, -⟩ := symset_cases s.lexer nam val
    rw [Action.change, same]
    exact failed
  · obtain ⟨other, member, errors⟩ := failed
    have opened : Lexer.Failed { s.lexer with files := file :: s.lexer.files } :=
      ⟨other, List.mem_cons_of_mem _ member, errors⟩
    exact (Lexer.kept_lungetc _ _).failed opened

theorem Sound.kept (sound : Sound fact) : Kept (Unfailed fact) where
  reads := by
    intro level s fuel token lexer holds look read
    refine ⟨holds.1.reads look read, holds.2.imp (fun failed => ?_)
      fun fact => sound.reading fact lexer _⟩
    exact (Lexer.lexed_yylex (holds.1.ready look) read).kept.failed failed
  shifts := by
    intro level s holds look
    exact ⟨holds.1.shifts look, holds.2.imp_right fun fact => sound.reading fact _ none⟩
  fails := by
    intro level s holds
    exact ⟨holds.1.fails, .inl (Lexer.failed_yyerror holds.1.opened)⟩
  acts := fun holds goes allowed =>
    ⟨holds.1.acts allowed, holds.2.imp Action.failed_change fun fact => sound.acts fact goes allowed⟩

/-- An error has been found in a file that was left open. It does not count. -/
def Statics.Lost (s : Statics) : Prop :=
  ∃ file ∈ s.left, file.errors

/-- Errors that are neither lost nor in the file where the input has ended have not been found. -/
theorem not_failed_of_kept {t : Statics} (passed : ¬t.lexer.files.head?.any ParseFile.errors)
    (kept : ¬t.cleanUp.Lost) : ¬t.lexer.Failed := by
  rintro ⟨file, member, errors⟩
  have left : t.cleanUp.left = leftOpen t.lexer.files := rfl
  rw [Statics.Lost, left] at kept
  cases files : t.lexer.files with
  | nil =>
    rw [files] at member
    cases member
  | cons first rest =>
    rw [files] at member passed kept
    rcases List.mem_cons.mp member with rfl | member
    · exact passed errors
    cases rest with
    | nil => cases member
    | cons prev rest =>
      refine kept ?_
      rcases List.mem_cons.mp member with rfl | member
      · exact ⟨_, List.mem_cons_self, by simp [Lexer.popfile, errors]⟩
      · exact ⟨file, List.mem_cons_of_mem _ member, errors⟩

/-- An accepted configuration is what the parser has made of the file. It has found no error, unless it
has lost one. -/
theorem Sound.accepted (sound : Sound fact) (idle : s.Idle)
    (holds : ∀ file, fact .top (s.opens file)) {filename : String} {conf : LdpdConf}
    (parsed : parseConfig host fuel filename s = some (some conf, s')) :
    ∃ t, (s'.Lost ∨ fact .top t) ∧ conf = t.result host ∧ s' = t.cleanUp := by
  rcases parseConfig_cases parsed with ⟨none', -⟩ | ⟨file, outcome, t, run, result, rfl⟩
  · cases none'
  · obtain ⟨⟨reads, kept⟩, eof⟩ := sound.kept.yyparse ⟨idle.reads file, .inr (holds file)⟩ run
    split at result
    · cases result
    rename_i passed
    refine ⟨t, ?_, Option.some.inj result, rfl⟩
    by_cases lost : t.cleanUp.Lost
    · exact .inl lost
    · exact .inr (kept.resolve_left (not_failed_of_kept passed lost))

/-- A fact that is about no place in the grammar holds of every configuration that is accepted. -/
theorem Sound.always {fact : Statics → Prop} (sound : Sound fun _ => fact) (idle : s.Idle)
    (holds : ∀ file, fact (s.opens file)) {filename : String} {conf : LdpdConf}
    (parsed : parseConfig host fuel filename s = some (some conf, s')) :
    ∃ t, fact t ∧ conf = t.result host ∧ s' = t.cleanUp := by
  have reading {s : Statics} (holds : fact s) (lexer : Lexer) (look : Option Token) :
      fact (s.reading lexer look) :=
    @Sound.reading _ sound .top s holds lexer look
  have kept : Kept fun _ s => s.Reads ∧ fact s :=
    { reads := fun holds look read => ⟨holds.1.reads look read, reading holds.2 _ _⟩
      shifts := fun holds look => ⟨holds.1.shifts look, reading holds.2 _ none⟩
      fails := fun holds => ⟨holds.1.fails, reading holds.2 _ _⟩
      acts := fun holds goes allowed => ⟨holds.1.acts allowed, sound.acts holds.2 goes allowed⟩ }
  rcases parseConfig_cases parsed with ⟨none', -⟩ | ⟨file, outcome, t, run, result, rfl⟩
  · cases none'
  · obtain ⟨⟨-, holds'⟩, -⟩ := kept.yyparse ⟨idle.reads file, holds file⟩ run
    split at result
    · cases result
    · exact ⟨t, holds', Option.some.inj result, rfl⟩

end Ldpd
