/-
This file goes through the grammar once. It lists the actions of the parser and the places
where they stand, and shows that a relation between two states that the actions and the
lexer keep is kept by a whole parse. A fact about one state is a relation between a state
and itself.
-/

import Ldpd.Main.Parse

namespace Ldpd

open Program

/-! ### The actions -/

/-- Where the parser is. After an error it is at the top again. -/
inductive Level where
  | top
  | family
  | interface
  | tneighbor
  | neighbor
  | l2vpn
  | pseudowire
  deriving DecidableEq, Repr

/-- The options that set the defaults somewhere. -/
def Level.Sets : Level → Setting → Prop
  | .top, .gtsmEnable _ | .top, .statusTlv _ | .top, .controlWord _ => False
  | .top, _ => True
  | .family, .statusTlv _ | .family, .controlWord _ => False
  | .family, _ => True
  | .interface, .linkHelloHoldtime _ | .interface, .linkHelloInterval _ => True
  | .tneighbor, .targetedHelloHoldtime _ | .tneighbor, .targetedHelloInterval _ => True
  | .l2vpn, .statusTlv _ | .l2vpn, .controlWord _ => True
  | .pseudowire, .statusTlv _ | .pseudowire, .controlWord _ => True
  | _, _ => False

/-- What the parser does to the static variables, other than reading. -/
inductive Action where
  | routerId (addr : InAddr)
  | fibUpdate (yes : Bool)
  | transportPreference (af : Af)
  | dsCiscoInterop (yes : Bool)
  | transportAddress (addr : LdpdAddr)
  | put (setting : Setting)
  | beginFamily (af : Af)
  | endFamily
  | enterInterface (kif : ParseKif) (af : Af)
  | beginInterface
  | endInterface
  | beginTneighbor (addr : LdpdAddr)
  | endTneighbor
  | beginNeighbor (lsrId : InAddr)
  | changeNbrp (change : NbrParams → NbrParams)
  | endNeighbor
  | beginL2vpn (name : String)
  | changeL2vpn (change : ParseL2vpn → ParseL2vpn)
  | addL2vpnIf (kif : ParseKif)
  | endL2vpn
  | beginPw (kif : ParseKif)
  | changePw (change : ParsePw → ParsePw)
  | endPw
  | symset (nam val : String)
  | includeFile (file : ParseFile)

namespace Action

/-- What an action leaves behind. -/
def change : Action → Statics → Statics
  | .routerId addr, s => { s with conf := { s.conf with rtrId := addr } }
  | .fibUpdate yes, s =>
    { s with conf := { s.conf with flags := { s.conf.flags with noFibUpdate := !yes } } }
  | .transportPreference af, s =>
    { s with conf := { s.conf with transPref := if af = .inet then 4 else 6 } }
  | .dsCiscoInterop yes, s =>
    { s with conf := { s.conf with flags := { s.conf.flags with dsCiscoInterop := yes } } }
  | .transportAddress addr, s => { s with conf := Parse.setTransAddr s.conf addr }
  | .put setting, s => s.put setting
  | .beginFamily af, s => Parse.beginFamily af s
  | .endFamily, s => Parse.endFamily s
  | .enterInterface kif af, s =>
    { Parse.addIface kif s with
      iface := some kif.ifindex.toUInt32, ia := some (kif.ifindex.toUInt32, af) }
  | .beginInterface, s => Parse.beginInterface s
  | .endInterface, s => Parse.endInterface s
  | .beginTneighbor addr, s => Parse.beginTneighbor addr (Parse.addTnbr addr s)
  | .endTneighbor, s => Parse.endTneighbor s
  | .beginNeighbor lsrId, s => { Parse.addNbrp lsrId s with nbrp := some lsrId }
  | .changeNbrp change, s => Parse.changeNbrp change s
  | .endNeighbor, s => { s with nbrp := none }
  | .beginL2vpn name, s => Parse.beginL2vpn name s
  | .changeL2vpn change, s => Parse.changeL2vpn change s
  | .addL2vpnIf kif, s => Parse.addL2vpnIf kif s
  | .endL2vpn, s => Parse.endL2vpn s
  | .beginPw kif, s => Parse.beginPw kif.ifindex.toUInt32 (Parse.addPw kif s)
  | .changePw change, s => Parse.changePw change s
  | .endPw, s => Parse.endPw s
  | .symset nam val, s => { s with lexer := s.lexer.symset nam val false }
  | .includeFile file, s =>
    { s with
      lexer := { s.lexer with files := file :: s.lexer.files }.lungetc (some '\n'), look := none }

/-- The types of pseudowires. -/
def pwTypes : List Int := [5, 4]

/-- What the parser has checked when it comes to an action. -/
def Allowed : Action → Statics → Prop
  | .enterInterface kif _, s => Parse.inL2vpn s kif.ifindex.toUInt32 = false
  | .beginInterface, s => ∃ ifindex af, s.ia = some (ifindex, af) ∧
    (∃ iface ∈ s.conf.ifaceList, iface.ifindex = ifindex) ∧
      ∀ iface ∈ s.conf.ifaceList, iface.ifindex = ifindex →
        (Parse.ifaceAfGet iface af).enabled = false
  | .beginTneighbor addr, s => ∀ tnbr ∈ s.conf.tnbrList, tnbr.addr ≠ addr
  | .beginNeighbor lsrId, s => ∀ nbrp ∈ s.conf.nbrpList, nbrp.lsrId ≠ lsrId
  | .changeNbrp change, _ => ∀ nbrp, (change nbrp).lsrId = nbrp.lsrId
  | .beginL2vpn name, s => ∀ l2vpn ∈ s.l2vpns, l2vpn.name ≠ name
  | .changeL2vpn change, _ => ∀ l2vpn, (change l2vpn).pointer = l2vpn.pointer ∧
    (change l2vpn).name = l2vpn.name ∧ (change l2vpn).given = l2vpn.given ∧
      (change l2vpn).ifList = l2vpn.ifList ∧ (change l2vpn).pwList = l2vpn.pwList ∧
        ((change l2vpn).pwType = l2vpn.pwType ∨ (change l2vpn).pwType ∈ pwTypes)
  | .addL2vpnIf kif, s => Parse.inL2vpn s kif.ifindex.toUInt32 = false ∧
    ∀ iface ∈ s.conf.ifaceList, iface.ifindex ≠ kif.ifindex.toUInt32
  | .beginPw kif, s => ∀ pw ∈ Parse.allPws s, pw.ifindex ≠ kif.ifindex.toUInt32
  | .changePw change, _ => ∀ pw, (change pw).ifindex = pw.ifindex ∧
    (pw.addr = pw.given → (change pw).addr = (change pw).given)
  | .endPw, s => ∃ pw ∈ Parse.allPws s, s.pw = some pw.ifindex ∧
    pw.pwid ≠ 0 ∧ pw.lsrId ≠ 0 ∧ ∀ other ∈ Parse.allPws s, Parse.samePw pw other = false
  | .includeFile _, s => s.look ≠ none
  | _, _ => True

/-- Where an action stands, and where the parser is after it. -/
inductive Goes : Level → Action → Level → Prop
  | routerId (addr : InAddr) : Goes .top (.routerId addr) .top
  | fibUpdate (yes : Bool) : Goes .top (.fibUpdate yes) .top
  | transportPreference (af : Af) : Goes .top (.transportPreference af) .top
  | dsCiscoInterop (yes : Bool) : Goes .top (.dsCiscoInterop yes) .top
  | transportAddress (addr : LdpdAddr) : Goes .family (.transportAddress addr) .family
  | put {level : Level} {setting : Setting} (sets : level.Sets setting) :
    Goes level (.put setting) level
  | beginFamily (af : Af) : Goes .top (.beginFamily af) .family
  | endFamily : Goes .family .endFamily .top
  | enterInterface (kif : ParseKif) (af : Af) : Goes .family (.enterInterface kif af) .family
  | beginInterface : Goes .family .beginInterface .interface
  | endInterface : Goes .interface .endInterface .family
  | beginTneighbor (addr : LdpdAddr) : Goes .family (.beginTneighbor addr) .tneighbor
  | endTneighbor : Goes .tneighbor .endTneighbor .family
  | beginNeighbor (lsrId : InAddr) : Goes .top (.beginNeighbor lsrId) .neighbor
  | changeNbrp (change : NbrParams → NbrParams) : Goes .neighbor (.changeNbrp change) .neighbor
  | endNeighbor : Goes .neighbor .endNeighbor .top
  | beginL2vpn (name : String) : Goes .top (.beginL2vpn name) .l2vpn
  | changeL2vpn (change : ParseL2vpn → ParseL2vpn) : Goes .l2vpn (.changeL2vpn change) .l2vpn
  | addL2vpnIf (kif : ParseKif) : Goes .l2vpn (.addL2vpnIf kif) .l2vpn
  | endL2vpn : Goes .l2vpn .endL2vpn .top
  | beginPw (kif : ParseKif) : Goes .l2vpn (.beginPw kif) .pseudowire
  | changePw (change : ParsePw → ParsePw) : Goes .pseudowire (.changePw change) .pseudowire
  | endPw : Goes .pseudowire .endPw .l2vpn
  | symset (nam val : String) : Goes .top (.symset nam val) .top
  | includeFile (file : ParseFile) : Goes .top (.includeFile file) .top

end Action

/-! ### What has to be kept -/

/-- The state after something has been read. -/
def Statics.reading (s : Statics) (lexer : Lexer) (look : Option Token) : Statics :=
  { s with lexer, look }

/-- What the grammar looks at. -/
structure Alike (level : Level) (s s' : Statics) : Prop where
  lexer : s.lexer = s'.lexer
  look : s.look = s'.look
  ifaceList : s.conf.ifaceList = s'.conf.ifaceList
  tnbrList : s.conf.tnbrList = s'.conf.tnbrList
  nbrpList : s.conf.nbrpList = s'.conf.nbrpList
  l2vpns : s.l2vpns = s'.l2vpns
  af : level = .family → s.af = s'.af
  l2vpn : level = .l2vpn → s.l2vpn = s'.l2vpn
  pw : level = .pseudowire → s.pw = s'.pw

/-- A relation between states that a parse keeps. -/
structure Respects (related : Level → Statics → Statics → Prop) : Prop where
  alike {level : Level} {s s' : Statics} : related level s s' → Alike level s s'
  reads {level : Level} {s s' : Statics} {fuel : Nat} {token : Token} {lexer : Lexer} :
    related level s s' → s.look = none → s.lexer.yylex fuel = some (token, lexer) →
      related level (s.reading lexer (some token)) (s'.reading lexer (some token))
  shifts {level : Level} {s s' : Statics} : related level s s' → s.look ≠ none →
    related level (s.reading s.lexer none) (s'.reading s'.lexer none)
  fails {level : Level} {s s' : Statics} : related level s s' →
    related .top (s.reading s.lexer.yyerror s.look) (s'.reading s'.lexer.yyerror s'.look)
  acts {level level' : Level} {action : Action} {s s' : Statics} : related level s s' →
    action.Goes level level' → action.Allowed s →
      related level' (action.change s) (action.change s')

namespace Parse

variable {related : Level → Statics → Statics → Prop} {before : Statics → Statics → Prop}
  {α β : Type} {level level' : Level} {fuel : Nat} {host : ParseHost}

/-- Everywhere in a part of the parser an error may be found. -/
def Faulty (related : Level → Statics → Statics → Prop) (before : Statics → Statics → Prop) : Prop :=
  ∀ s s', before s s' → related .top (s.reading s.lexer.yyerror s.look)
    (s'.reading s'.lexer.yyerror s'.look)

theorem Faulty.mono {before' : Statics → Statics → Prop} (faulty : Faulty related before)
    (stronger : ∀ s s', before' s s' → before s s') : Faulty related before' :=
  fun s s' holds => faulty s s' (stronger s s' holds)

theorem twin_fail (faulty : Faulty related before) {after : α → Statics → Statics → Prop} :
    Twin (related .top) before (fail : Parse α) after :=
  fun s s' holds => .error (faulty s s' holds)

theorem twin_require (faulty : Faulty related before) {condition : Bool} :
    Twin (related .top) before (require condition) fun _ s s' => before s s' ∧ condition = true := by
  rw [require]
  exact .ite (fun holds => .pure fun s s' related => ⟨related, holds⟩) fun _ => twin_fail faulty

theorem twin_the (faulty : Faulty related before) {value : Option α} :
    Twin (related .top) before (the value) fun result s s' => before s s' ∧ value = some result := by
  cases value with
  | none => exact twin_fail faulty
  | some result => exact .pure fun s s' related => ⟨related, rfl⟩

theorem twin_see {fault : Statics → Statics → Prop} {look : Statics → α}
    (same : ∀ s s', before s s' → look s = look s') :
    Twin fault before (see look) fun result s s' => before s s' ∧ look s = result := by
  intro s s' holds
  have runs : ∀ s, (see look).run s = some (.ok (look s), s) := fun _ => rfl
  rw [runs, runs, ← same s s' holds]
  exact .ok ⟨holds, rfl⟩

theorem twin_look {fault : Statics → Statics → Prop} {look : Statics → α}
    (same : ∀ s s', before s s' → look s = look s') :
    Twin fault before (see look) fun _ => before :=
  (twin_see same).weaken (fun _ _ holds => holds) fun _ _ _ holds => holds.1

/-- A test of the state. -/
theorem twin_check (faulty : Faulty related before) {look : Statics → α} {test : α → Bool}
    {rest : Parse β} {after : β → Statics → Statics → Prop}
    (same : ∀ s s', before s s' → test (look s) = test (look s'))
    (next : Twin (related .top) (fun s s' => before s s' ∧ test (look s) = true) rest after) :
    Twin (related .top) before (see look >>= fun value => require (test value) >>= fun _ => rest)
      after := by
  intro s s' holds
  have runs : ∀ s, (see look >>= fun value => require (test value) >>= fun _ => rest).run s =
      (require (test (look s)) >>= fun _ => rest).run s := fun _ => rfl
  rw [runs, runs, ← same s s' holds]
  cases passes : test (look s) with
  | true => exact next s s' ⟨holds, passes⟩
  | false => exact .error (faulty s s' holds)

/-- What follows a change starts with a changed state. -/
theorem twin_change {fault : Statics → Statics → Prop} {change : Statics → Statics} {rest : Parse β}
    {after : β → Statics → Statics → Prop}
    (next : Twin fault (fun t t' => ∃ s s', before s s' ∧ t = change s ∧ t' = change s') rest after) :
    Twin fault before (modify change >>= fun _ => rest) after :=
  fun s s' holds => next (change s) (change s') ⟨s, s', holds, rfl, rfl⟩

theorem any_eq_false {list : List α} {test : α → Bool} {property : α → Prop}
    (iff : ∀ value, test value = true ↔ property value) (none' : (!list.any test) = true) :
    ∀ value ∈ list, ¬property value := by
  intro value member holds
  rw [Bool.not_eq_true', List.any_eq_false] at none'
  exact none' value member ((iff value).mpr holds)

theorem orElse_cases {first second : Option α} {action : α} (found : (first <|> second) = some action) :
    first = some action ∨ second = some action := by
  cases first with
  | none => exact .inr found
  | some other => exact .inl found

theorem mem_addIface (kif : ParseKif) (s : Statics) :
    ∃ iface ∈ (addIface kif s).conf.ifaceList, iface.ifindex = kif.ifindex.toUInt32 := by
  rw [addIface]
  split
  · rename_i found
    obtain ⟨iface, member, same⟩ := List.any_eq_true.mp found
    exact ⟨iface, member, beq_iff_eq.mp same⟩
  · exact ⟨_, List.mem_cons_self, rfl⟩

theorem mem_pwTypes {token : Token} {pwType : Int} (type : pwTypeOf token = some pwType) :
    pwType ∈ Action.pwTypes := by
  unfold pwTypeOf at type
  split at type
  · cases type
    exact List.mem_cons_self
  · cases type
    exact List.mem_cons_of_mem _ List.mem_cons_self
  · cases type

/-! ### Tokens -/

/-- A token that has been looked at, or the next one. -/
def peeked (fuel : Nat) (s : Statics) : Option (Token × Statics) :=
  match s.look with
  | some token => some (token, s)
  | none => (s.lexer.yylex fuel).map fun read => (read.1, s.reading read.2 (some read.1))

theorem run_peek (fuel : Nat) (s : Statics) :
    (peek fuel).run s = (peeked fuel s).map fun read => (.ok read.1, read.2) := by
  have got : (get : Parse Statics).run s = some (.ok s, s) := rfl
  rw [peek, run_bind, got, follow, peeked]
  cases s.look with
  | some token => rfl
  | none =>
    dsimp only
    cases s.lexer.yylex fuel with
    | none => rfl
    | some read => rfl

variable (respects : Respects related)

/-- The parser is somewhere, and the next token stands before it. -/
def Sees (related : Level → Statics → Statics → Prop) (level : Level) (token : Token)
    (s s' : Statics) : Prop :=
  related level s s' ∧ s.look = some token

/-- The parser has just taken a token. -/
def Took (related : Level → Statics → Statics → Prop) (level : Level) (s s' : Statics) : Prop :=
  ∃ t t', related level t t' ∧ t.look ≠ none ∧ s = t.reading t.lexer none ∧
    s' = t'.reading t'.lexer none

theorem twin_shift {fault : Statics → Statics → Prop} {token : Token} :
    Twin fault (Sees related level token) shift fun _ => Took related level := by
  intro s s' holds
  refine .ok ⟨s, s', holds.1, ?_, rfl, rfl⟩
  rw [holds.2]
  exact Option.some_ne_none token

include respects

theorem faulty_related : Faulty related (related level) :=
  fun _ _ holds => respects.fails holds

theorem faulty_sees (token : Token) : Faulty related (Sees related level token) :=
  (faulty_related respects).mono fun _ _ holds => holds.1

theorem related_of_took {s s' : Statics} (took : Took related level s s') : related level s s' := by
  obtain ⟨t, t', holds, filled, rfl, rfl⟩ := took
  exact respects.shifts holds filled

theorem faulty_took : Faulty related (Took related level) :=
  (faulty_related respects).mono fun _ _ took => related_of_took respects took

theorem twin_peek {fault : Statics → Statics → Prop} :
    Twin fault (related level) (peek fuel) (Sees related level) := by
  intro s s' holds
  have alike := respects.alike holds
  rw [run_peek, run_peek, peeked, peeked, ← alike.look, ← alike.lexer]
  cases look : s.look with
  | some token => exact .ok ⟨holds, look⟩
  | none =>
    dsimp only
    cases read : s.lexer.yylex fuel with
    | none => exact .fuel
    | some both => exact .ok ⟨respects.reads holds look read, rfl⟩

theorem twin_valueOf {kind : Token → Option α} :
    Twin (related .top) (related level) (value fuel kind)
      fun result s s' => Took related level s s' ∧ ∃ token, kind token = some result := by
  refine .bind (twin_peek respects) fun token => ?_
  refine .bind (twin_the (faulty_sees respects token)) fun result => ?_
  refine .of_fact (fun _ _ holds => holds.2) fun found => ?_
  refine .bind (.weaken twin_shift (fun _ _ holds => holds.1) fun _ _ _ took => took)
    fun _ => .pure fun _ _ took => ⟨took, token, found⟩

theorem twin_value {kind : Token → Option α} :
    Twin (related .top) (related level) (value fuel kind) fun _ => Took related level :=
  (twin_valueOf respects).weaken (fun _ _ holds => holds) fun _ _ _ holds => holds.1

theorem twin_number {least most : Int} :
    Twin (related .top) (related level) (number fuel least most) fun _ => related level := by
  refine .bind (twin_value respects) fun result => ?_
  exact .bind (twin_require (faulty_took respects)) fun _ =>
    .pure fun _ _ holds => related_of_took respects holds.1

theorem twin_expect {token : Token} :
    Twin (related .top) (related level) (expect fuel token) fun _ => related level := by
  refine .bind (twin_peek respects) fun next => ?_
  refine .bind (twin_require (faulty_sees respects next)) fun _ => ?_
  exact .weaken twin_shift (fun _ _ holds => holds.1)
    fun _ _ _ took => related_of_took respects took

theorem twin_optnl (rounds : Nat) :
    Twin (related .top) (related level) (optnl fuel rounds) fun _ => related level := by
  induction rounds with
  | zero => exact .lift_none
  | succ rounds inductionHypothesis =>
    refine .bind (twin_peek respects) fun token => .ite (fun _ => ?_) fun _ => ?_
    · refine .bind twin_shift fun _ => ?_
      exact inductionHypothesis.weaken (fun _ _ took => related_of_took respects took)
        fun _ _ _ holds => holds
    · exact .pure fun _ _ holds => holds.1

theorem twin_nl : Twin (related .top) (related level) (nl fuel) fun _ => related level :=
  .bind (twin_expect respects) fun _ => twin_optnl respects fuel

/-! ### Blocks -/

theorem twin_options {option : Parse Unit}
    (each : Twin (related .top) (related level) option fun _ => related level) (rounds : Nat) :
    Twin (related .top) (related level) (options fuel option rounds) fun _ => related level := by
  induction rounds with
  | zero => exact .lift_none
  | succ rounds inductionHypothesis =>
    refine .bind (twin_peek respects) fun token => .ite (fun _ => ?_) fun _ => ?_
    · exact .weaken twin_shift (fun _ _ holds => holds)
        fun _ _ _ took => related_of_took respects took
    · refine .bind (.weaken each (fun _ _ holds => holds.1) fun _ _ _ holds => holds) fun _ => ?_
      exact .bind (twin_nl respects) fun _ => inductionHypothesis

theorem twin_block {option : Parse Unit}
    (each : Twin (related .top) (related level) option fun _ => related level) :
    Twin (related .top) (related level) (block fuel option) fun _ => related level := by
  have shifted {token : Token} :
      Twin (related .top) (Sees related level token) shift fun _ => related level :=
    .weaken twin_shift (fun _ _ holds => holds)
      fun _ _ _ took => related_of_took respects took
  refine .bind (twin_peek respects) fun token => .ite (fun _ => ?_) fun _ => ?_
  · refine .bind shifted fun _ => .bind (twin_optnl respects fuel) fun _ => ?_
    refine .bind (twin_peek respects) fun token => .ite (fun _ => shifted) fun _ => ?_
    refine .bind (.weaken each (fun _ _ holds => holds.1) fun _ _ _ holds => holds) fun _ => ?_
    exact .bind (twin_optnl respects fuel) fun _ => twin_options respects each fuel
  · exact .pure fun _ _ holds => holds.1

theorem twin_option {options : Keyword → Option (Parse Unit)}
    (each : ∀ keyword action, options keyword = some action →
      Twin (related .top) (related level) action fun _ => related level) :
    Twin (related .top) (related level) (option fuel options) fun _ => related level := by
  refine .bind (twin_peek respects) fun token => ?_
  refine .bind (twin_the (faulty_sees respects token)) fun action => ?_
  refine .of_fact (fun _ _ holds => holds.2) fun found => ?_
  cases token with
  | keyword keyword =>
    refine .bind (.weaken twin_shift (fun _ _ holds => holds.1) fun _ _ _ took => took) fun _ => ?_
    exact (each keyword action found).weaken (fun _ _ took => related_of_took respects took)
      fun _ _ _ holds => holds
  | _ => cases found

/-! ### Steps -/

/-- A change that an action stands for, with what has been changed before. -/
theorem twin_step {change : Statics → Statics} {step : Action} {level' : Level}
    (goes : step.Goes level level')
    (stands : ∀ s s', before s s' → ∃ t t', related level t t' ∧ step.Allowed t ∧
      change s = step.change t ∧ change s' = step.change t') :
    Twin (related .top) before (modify change : Parse Unit) fun _ => related level' := by
  refine .modify fun s s' holds => ?_
  obtain ⟨t, t', holds', allowed, same, same'⟩ := stands s s' holds
  rw [same, same']
  exact respects.acts holds' goes allowed

/-- An action that nothing has to be checked for. -/
theorem twin_act {step : Action} {level' : Level} (goes : step.Goes level level')
    (allowed : ∀ s, step.Allowed s) :
    Twin (related .top) (related level) (modify step.change : Parse Unit) fun _ => related level' :=
  twin_step respects goes fun s s' holds => ⟨s, s', holds, allowed s, rfl, rfl⟩

/-! ### Defaults -/

theorem twin_put {setting : Setting} (sets : level.Sets setting) :
    Twin (related .top) (related level) (put setting) fun _ => related level :=
  .modify fun _ _ holds => respects.acts holds (.put sets) trivial

theorem twin_putYesno {setting : Bool → Setting} (sets : ∀ yes, level.Sets (setting yes)) :
    Twin (related .top) (related level) (do put (setting (← value fuel yesnoOf)))
      fun _ => related level :=
  .bind (twin_value respects) fun yes =>
    (twin_put respects (sets yes)).weaken (fun _ _ took => related_of_took respects took)
      fun _ _ _ holds => holds

theorem twin_putNumber {least most : Int} {setting : Int → Setting}
    (sets : ∀ number, level.Sets (setting number)) :
    Twin (related .top) (related level) (do put (setting (← number fuel least most)))
      fun _ => related level :=
  .bind (twin_number respects) fun number => twin_put respects (sets number)

variable {keyword : Keyword} {action : Parse Unit}

theorem twin_afDefaults (place : level = .top ∨ level = .family)
    (found : afDefaults fuel keyword = some action) :
    Twin (related .top) (related level) action fun _ => related level := by
  unfold afDefaults at found
  split at found
  · cases found
    exact twin_putYesno respects fun _ => by rcases place with rfl | rfl <;> trivial
  · cases found
    exact twin_putYesno respects fun _ => by rcases place with rfl | rfl <;> trivial
  · cases found
    exact twin_putNumber respects fun _ => by rcases place with rfl | rfl <;> trivial
  · cases found

theorem twin_ifaceDefaults (place : level = .top ∨ level = .family ∨ level = .interface)
    (found : ifaceDefaults fuel keyword = some action) :
    Twin (related .top) (related level) action fun _ => related level := by
  unfold ifaceDefaults at found
  split at found
  · cases found
    exact twin_putNumber respects fun _ => by rcases place with rfl | rfl | rfl <;> trivial
  · cases found
    exact twin_putNumber respects fun _ => by rcases place with rfl | rfl | rfl <;> trivial
  · cases found

theorem twin_tnbrDefaults (place : level = .top ∨ level = .family ∨ level = .tneighbor)
    (found : tnbrDefaults fuel keyword = some action) :
    Twin (related .top) (related level) action fun _ => related level := by
  unfold tnbrDefaults at found
  split at found
  · cases found
    exact twin_putNumber respects fun _ => by rcases place with rfl | rfl | rfl <;> trivial
  · cases found
    exact twin_putNumber respects fun _ => by rcases place with rfl | rfl | rfl <;> trivial
  · cases found

theorem twin_pwDefaults (place : level = .l2vpn ∨ level = .pseudowire)
    (found : pwDefaults fuel keyword = some action) :
    Twin (related .top) (related level) action fun _ => related level := by
  unfold pwDefaults at found
  split at found
  · cases found
    exact twin_putYesno respects fun _ => by rcases place with rfl | rfl <;> trivial
  · cases found
    exact twin_putYesno respects fun _ => by rcases place with rfl | rfl <;> trivial
  · cases found

theorem twin_defaults (place : level = .top ∨ level = .family)
    (found : (afDefaults fuel keyword <|> ifaceDefaults fuel keyword <|> tnbrDefaults fuel keyword) =
      some action) :
    Twin (related .top) (related level) action fun _ => related level := by
  rcases orElse_cases found with found | found
  · exact twin_afDefaults respects place found
  rcases orElse_cases found with found | found
  · exact twin_ifaceDefaults respects (place.imp_right .inl) found
  · exact twin_tnbrDefaults respects (place.imp_right .inl) found

/-! ### Global settings -/

theorem twin_confMain (found : confMain host fuel keyword = some action) :
    Twin (related .top) (related .top) action fun _ => related .top := by
  have took {s s' : Statics} (holds : Took related .top s s') : related .top s s' :=
    related_of_took respects holds
  unfold confMain at found
  split at found
  · cases found
    refine .bind (twin_value respects) fun text => ?_
    refine .bind (twin_the (faulty_took respects)) fun addr => ?_
    refine .bind ((twin_act respects (.routerId addr) fun _ => trivial).weaken
      (fun _ _ holds => took holds.1) fun _ _ _ holds => holds) fun _ => ?_
    exact (twin_require (faulty_related respects)).weaken (fun _ _ holds => holds)
      fun _ _ _ holds => holds.1
  · cases found
    refine .bind (twin_value respects) fun yes => ?_
    exact (twin_act respects (.fibUpdate yes) fun _ => trivial).weaken (fun _ _ => took)
      fun _ _ _ holds => holds
  · cases found
    refine .bind (twin_value respects) fun af => ?_
    exact (twin_act respects (.transportPreference af) fun _ => trivial).weaken (fun _ _ => took)
      fun _ _ _ holds => holds
  · cases found
    refine .bind (twin_value respects) fun yes => ?_
    exact (twin_act respects (.dsCiscoInterop yes) fun _ => trivial).weaken (fun _ _ => took)
      fun _ _ _ holds => holds
  · exact twin_defaults respects (.inl rfl) found

/-! ### Address families -/

theorem twin_getAddress {text : String} :
    Twin (related .top) (related .family) (getAddress host text) fun _ => related .family := by
  refine .bind (twin_see fun _ _ holds => (respects.alike holds).af rfl) fun af => ?_
  refine .bind (twin_the ((faulty_related respects).mono fun _ _ holds => holds.1)) fun _ => ?_
  exact (twin_the ((faulty_related respects).mono fun _ _ holds => holds.1.1)).weaken
    (fun _ _ holds => holds) fun _ _ _ holds => holds.1.1.1

theorem twin_address {rest : LdpdAddr → Parse Unit}
    (next : ∀ addr, Twin (related .top) (related .family) (rest addr) fun _ => related .family) :
    Twin (related .top) (related .family) (do rest (← getAddress host (← value fuel textOf)))
      fun _ => related .family := by
  refine .bind (twin_value respects) fun text => ?_
  exact .bind ((twin_getAddress respects).weaken (fun _ _ took => related_of_took respects took)
    fun _ _ _ holds => holds) next

/-- A test that does not depend on the state. -/
theorem twin_require_then {condition : Bool} {rest : Parse β} {after : β → Statics → Statics → Prop}
    (next : Twin (related .top) (related level) rest after) :
    Twin (related .top) (related level) (require condition >>= fun _ => rest) after :=
  .bind (twin_require (faulty_related respects)) fun _ =>
    next.weaken (fun _ _ holds => holds.1) fun _ _ _ holds => holds

theorem twin_transportAddress :
    Twin (related .top) (related .family) (transportAddress host fuel) fun _ => related .family := by
  refine twin_address respects fun addr => ?_
  refine .bind (twin_act respects (.transportAddress addr) fun _ => trivial) fun _ => ?_
  refine twin_require_then respects ?_
  exact (twin_require (faulty_related respects)).weaken (fun _ _ holds => holds)
    fun _ _ _ holds => holds.1

theorem twin_confGetIf {kif : ParseKif} :
    Twin (related .top) (related .family) (confGetIf kif) fun ifindex s s' =>
      ifindex = kif.ifindex.toUInt32 ∧ ∃ t t', related .family t t' ∧
        inL2vpn t kif.ifindex.toUInt32 = false ∧ s = addIface kif t ∧ s' = addIface kif t' := by
  refine twin_require_then respects ?_
  refine twin_check (faulty_related respects) (fun s s' holds => ?_) (twin_change ?_)
  · rw [inL2vpn, inL2vpn, (respects.alike holds).l2vpns]
  · refine .pure fun s s' changed => ⟨rfl, ?_⟩
    obtain ⟨t, t', holds, rfl, rfl⟩ := changed
    exact ⟨t, t', holds.1, (Bool.not_eq_true' _).mp holds.2, rfl, rfl⟩

/-- Where `ia` points to an interface of the configuration. -/
def Entered (ifindex : UInt32) (af : Af) (s : Statics) : Prop :=
  s.ia = some (ifindex, af) ∧ ∃ iface ∈ s.conf.ifaceList, iface.ifindex = ifindex

theorem twin_enterInterface {kif : ParseKif} {af : Af} :
    Twin (related .top)
      (fun s s' => ∃ t t', related .family t t' ∧ inL2vpn t kif.ifindex.toUInt32 = false ∧
        s = addIface kif t ∧ s' = addIface kif t')
      (modify fun s => { s with
        iface := some kif.ifindex.toUInt32, ia := some (kif.ifindex.toUInt32, af) } : Parse Unit)
      fun _ s s' => related .family s s' ∧ Entered kif.ifindex.toUInt32 af s := by
  refine .modify fun s s' added => ?_
  obtain ⟨t, t', holds, fresh, rfl, rfl⟩ := added
  exact ⟨respects.acts holds (.enterInterface kif af) fresh, rfl, mem_addIface kif t⟩

theorem twin_interface :
    Twin (related .top) (related .family) (interface host fuel) fun _ => related .family := by
  refine .bind (twin_value respects) fun text => ?_
  refine .bind (twin_the (faulty_took respects)) fun kif => ?_
  refine .bind (.weaken (twin_see fun _ _ holds => (respects.alike holds).af rfl)
    (fun _ _ holds => related_of_took respects holds.1) fun _ _ _ holds => holds) fun af => ?_
  refine .bind (twin_the ((faulty_related respects).mono fun _ _ holds => holds.1)) fun af => ?_
  refine .bind ((twin_confGetIf respects).weaken (fun _ _ holds => holds.1.1)
    fun _ _ _ holds => holds) fun ifindex => ?_
  refine .of_fact (fun _ _ holds => holds.1) fun same => ?_
  subst same
  refine .bind ((twin_enterInterface respects).weaken (fun _ _ holds => holds.2)
    fun _ _ _ holds => holds) fun _ => ?_
  refine twin_check ((faulty_related respects).mono fun _ _ holds => holds.1)
    (fun s s' holds => by rw [(respects.alike holds.1).ifaceList]) ?_
  refine .bind (twin_step respects .beginInterface fun s s' holds => ?_) fun _ => ?_
  · obtain ⟨⟨holds, entered⟩, disabled⟩ := holds
    refine ⟨s, s', holds, ⟨_, _, entered.1, entered.2, ?_⟩, rfl, rfl⟩
    have none' := any_eq_false (fun iface => by rw [Bool.and_eq_true, beq_iff_eq]) disabled
    intro iface member same
    cases enabled : (ifaceAfGet iface af).enabled with
    | false => rfl
    | true => exact absurd ⟨same, enabled⟩ (none' iface member)
  · refine .bind (twin_block respects (twin_option respects fun keyword action found =>
      twin_ifaceDefaults respects (.inr (.inr rfl)) found)) fun _ => ?_
    exact twin_act respects .endInterface fun _ => trivial

theorem twin_confGetTnbr {addr : LdpdAddr} :
    Twin (related .top) (related .family) (confGetTnbr addr) fun _ s s' =>
      ∃ t t', related .family t t' ∧ (∀ tnbr ∈ t.conf.tnbrList, tnbr.addr ≠ addr) ∧
        s = addTnbr addr t ∧ s' = addTnbr addr t' := by
  refine twin_check (faulty_related respects)
    (fun s s' holds => by rw [(respects.alike holds).tnbrList]) ?_
  refine .modify fun s s' holds => ⟨s, s', holds.1, ?_, rfl, rfl⟩
  exact any_eq_false (fun tnbr => decide_eq_true_iff) holds.2

theorem twin_tneighbor :
    Twin (related .top) (related .family) (tneighbor host fuel) fun _ => related .family := by
  refine twin_address respects fun addr => ?_
  refine twin_require_then respects (twin_require_then respects ?_)
  refine .bind (twin_confGetTnbr respects) fun _ => ?_
  refine .bind (twin_step respects (.beginTneighbor addr) fun s s' added => ?_) fun _ => ?_
  · obtain ⟨t, t', holds, fresh, rfl, rfl⟩ := added
    exact ⟨t, t', holds, fresh, rfl, rfl⟩
  · refine .bind (twin_block respects (twin_option respects fun keyword action found =>
      twin_tnbrDefaults respects (.inr (.inr rfl)) found)) fun _ => ?_
    exact twin_act respects .endTneighbor fun _ => trivial

theorem twin_afoptsl (found : afoptsl host fuel keyword = some action) :
    Twin (related .top) (related .family) action fun _ => related .family := by
  unfold afoptsl at found
  split at found
  · cases found
    exact twin_transportAddress respects
  · cases found
    exact twin_putYesno respects fun _ => trivial
  · cases found
    exact twin_interface respects
  · cases found
    exact twin_tneighbor respects
  · exact twin_defaults respects (.inr rfl) found

theorem twin_addressFamily :
    Twin (related .top) (related .top) (addressFamily host fuel) fun _ => related .top := by
  refine .bind (twin_value respects) fun af => ?_
  refine .bind ((twin_act respects (.beginFamily af) fun _ => trivial).weaken
    (fun _ _ took => related_of_took respects took) fun _ _ _ holds => holds) fun _ => ?_
  refine .bind (twin_block respects (twin_option respects fun keyword action found =>
    twin_afoptsl respects found)) fun _ => ?_
  exact twin_act respects .endFamily fun _ => trivial

/-! ### Neighbors -/

theorem twin_confGetNbrp {lsrId : InAddr} :
    Twin (related .top) (related .top) (confGetNbrp lsrId) fun _ s s' =>
      ∃ t t', related .top t t' ∧ (∀ nbrp ∈ t.conf.nbrpList, nbrp.lsrId ≠ lsrId) ∧
        s = addNbrp lsrId t ∧ s' = addNbrp lsrId t' := by
  refine twin_check (faulty_related respects)
    (fun s s' holds => by rw [(respects.alike holds).nbrpList]) ?_
  refine .modify fun s s' holds => ⟨s, s', holds.1, ?_, rfl, rfl⟩
  exact any_eq_false (fun nbrp => beq_iff_eq) holds.2

theorem twin_changeNbrp {change : NbrParams → NbrParams}
    (same : ∀ nbrp, (change nbrp).lsrId = nbrp.lsrId) :
    Twin (related .top) (related .neighbor) (modify (changeNbrp change) : Parse Unit)
      fun _ => related .neighbor :=
  twin_act respects (.changeNbrp change) fun _ => same

theorem twin_nbrOpts (found : nbrOpts fuel keyword = some action) :
    Twin (related .top) (related .neighbor) action fun _ => related .neighbor := by
  have took {s s' : Statics} (holds : Took related .neighbor s s') : related .neighbor s s' :=
    related_of_took respects holds
  unfold nbrOpts at found
  split at found
  · cases found
    exact .bind (twin_number respects) fun seconds => twin_changeNbrp respects fun _ => rfl
  · cases found
    refine .bind (twin_value respects) fun text => ?_
    refine .bind (twin_require (faulty_took respects)) fun _ => ?_
    refine .weaken (twin_changeNbrp respects ?_) (fun _ _ holds => took holds.1)
      fun _ _ _ holds => holds
    exact fun _ => rfl
  · cases found
    refine .bind (twin_value respects) fun yes => ?_
    refine .weaken (twin_changeNbrp respects ?_) (fun _ _ => took) fun _ _ _ holds => holds
    exact fun _ => rfl
  · cases found
    exact .bind (twin_number respects) fun hops => twin_changeNbrp respects fun _ => rfl
  · cases found

theorem twin_neighbor :
    Twin (related .top) (related .top) (neighbor host fuel) fun _ => related .top := by
  refine .bind (twin_value respects) fun text => ?_
  refine .bind (twin_the (faulty_took respects)) fun addr => ?_
  refine .bind (.weaken (twin_require (faulty_related respects))
    (fun _ _ holds => related_of_took respects holds.1) fun _ _ _ holds => holds.1) fun _ => ?_
  refine .bind (twin_confGetNbrp respects) fun _ => ?_
  refine .bind (twin_step respects (.beginNeighbor addr) fun s s' added => ?_) fun _ => ?_
  · obtain ⟨t, t', holds, fresh, rfl, rfl⟩ := added
    exact ⟨t, t', holds, fresh, rfl, rfl⟩
  · refine .bind (twin_block respects (twin_option respects fun keyword action found =>
      twin_nbrOpts respects found)) fun _ => ?_
    exact twin_act respects .endNeighbor fun _ => trivial

/-! ### Layer 2 VPNs -/

theorem twin_changePw {change : ParsePw → ParsePw}
    (same : ∀ pw, (change pw).ifindex = pw.ifindex ∧
      (pw.addr = pw.given → (change pw).addr = (change pw).given)) :
    Twin (related .top) (related .pseudowire) (modify (changePw change) : Parse Unit)
      fun _ => related .pseudowire :=
  twin_act respects (.changePw change) fun _ => same

theorem twin_pwopts (found : pwopts host fuel keyword = some action) :
    Twin (related .top) (related .pseudowire) action fun _ => related .pseudowire := by
  have took {s s' : Statics} (holds : Took related .pseudowire s s') : related .pseudowire s s' :=
    related_of_took respects holds
  unfold pwopts at found
  split at found
  · cases found
    exact .bind (twin_number respects) fun pwid => twin_changePw respects fun _ => ⟨rfl, id⟩
  · cases found
    refine .bind (twin_value respects) fun text => ?_
    refine .bind ((twin_the (faulty_took respects)).weaken (fun _ _ holds => holds)
      fun _ _ _ holds => took holds.1) fun addr => ?_
    exact twin_require_then respects (twin_changePw respects fun _ => ⟨rfl, id⟩)
  · cases found
    refine .bind (twin_value respects) fun text => ?_
    refine .bind ((twin_the (faulty_took respects)).weaken (fun _ _ holds => holds)
      fun _ _ _ holds => took holds.1) fun addr => ?_
    refine twin_require_then respects (twin_require_then respects ?_)
    exact twin_changePw respects fun _ => ⟨rfl, fun _ => rfl⟩
  · exact twin_pwDefaults respects (.inr rfl) found

theorem twin_confGetL2vpnPw {kif : ParseKif} :
    Twin (related .top) (related .l2vpn) (confGetL2vpnPw kif) fun _ s s' =>
      ∃ t t', related .l2vpn t t' ∧ (∀ pw ∈ allPws t, pw.ifindex ≠ kif.ifindex.toUInt32) ∧
        s = addPw kif t ∧ s' = addPw kif t' := by
  refine twin_check (faulty_related respects)
    (fun s s' holds => by rw [allPws, allPws, (respects.alike holds).l2vpns]) ?_
  refine .modify fun s s' holds => ⟨s, s', holds.1, ?_, rfl, rfl⟩
  exact any_eq_false (fun pw => beq_iff_eq) holds.2

theorem twin_finishPw :
    Twin (related .top) (related .pseudowire) finishPw fun _ => related .l2vpn := by
  refine .bind (twin_see fun _ _ holds => (respects.alike holds).pw rfl) fun pointer => ?_
  refine .bind (twin_see fun s s' holds => ?_) fun pws => ?_
  · rw [allPws, allPws, (respects.alike holds.1).l2vpns]
  refine .bind (twin_the ((faulty_related respects).mono fun _ _ holds => holds.1.1)) fun pw => ?_
  refine .bind (twin_require ((faulty_related respects).mono fun _ _ holds => holds.1.1.1))
    fun _ => ?_
  refine .bind (twin_require ((faulty_related respects).mono fun _ _ holds => holds.1.1.1.1))
    fun _ => ?_
  refine .bind (twin_require ((faulty_related respects).mono fun _ _ holds => holds.1.1.1.1.1))
    fun _ => ?_
  refine twin_step respects .endPw fun s s' holds => ?_
  obtain ⟨⟨⟨⟨⟨⟨holds, rfl⟩, rfl⟩, found⟩, pwid⟩, lsrId⟩, unlike⟩ := holds
  refine ⟨s, s', holds, ⟨pw, List.mem_of_find?_eq_some found, ?_, ?_, ?_, ?_⟩, rfl, rfl⟩
  · have points := List.find?_some found
    exact of_decide_eq_true points
  · exact bne_iff_ne.mp pwid
  · exact bne_iff_ne.mp lsrId
  · intro other member
    exact eq_false_of_ne_true (any_eq_false (fun _ => Iff.rfl) unlike other member)

theorem twin_pseudowire :
    Twin (related .top) (related .l2vpn) (pseudowire host fuel) fun _ => related .l2vpn := by
  refine .bind (twin_value respects) fun text => ?_
  refine .bind ((twin_the (faulty_took respects)).weaken (fun _ _ holds => holds)
    fun _ _ _ holds => related_of_took respects holds.1) fun kif => ?_
  refine twin_require_then respects (.bind (twin_confGetL2vpnPw respects) fun _ => ?_)
  refine .bind (twin_step respects (.beginPw kif) fun s s' added => ?_) fun _ => ?_
  · obtain ⟨t, t', holds, fresh, rfl, rfl⟩ := added
    exact ⟨t, t', holds, fresh, rfl, rfl⟩
  · exact .bind (twin_block respects (twin_option respects fun keyword action found =>
      twin_pwopts respects found)) fun _ => twin_finishPw respects

theorem twin_changeL2vpn {change : ParseL2vpn → ParseL2vpn}
    (same : ∀ l2vpn, (change l2vpn).pointer = l2vpn.pointer ∧ (change l2vpn).name = l2vpn.name ∧
      (change l2vpn).given = l2vpn.given ∧ (change l2vpn).ifList = l2vpn.ifList ∧
        (change l2vpn).pwList = l2vpn.pwList ∧
          ((change l2vpn).pwType = l2vpn.pwType ∨ (change l2vpn).pwType ∈ Action.pwTypes)) :
    Twin (related .top) (related .l2vpn) (modify (changeL2vpn change) : Parse Unit)
      fun _ => related .l2vpn :=
  twin_act respects (.changeL2vpn change) fun _ => same

theorem twin_bridge :
    Twin (related .top) (related .l2vpn) (bridge host fuel) fun _ => related .l2vpn := by
  refine .bind (twin_value respects) fun text => ?_
  refine .bind ((twin_the (faulty_took respects)).weaken (fun _ _ holds => holds)
    fun _ _ _ holds => related_of_took respects holds.1) fun kif => ?_
  refine .bind (twin_look fun _ _ holds => (respects.alike holds).l2vpn rfl) fun pointer => ?_
  refine .bind (twin_look fun _ _ holds => (respects.alike holds).l2vpns) fun l2vpns => ?_
  refine twin_require_then respects (twin_require_then respects (twin_require_then respects ?_))
  exact twin_changeL2vpn respects fun _ => ⟨rfl, rfl, rfl, rfl, rfl, .inl rfl⟩

theorem twin_confGetL2vpnIf :
    Twin (related .top) (related .l2vpn) (confGetL2vpnIf host fuel) fun _ => related .l2vpn := by
  refine .bind (twin_value respects) fun text => ?_
  refine .bind ((twin_the (faulty_took respects)).weaken (fun _ _ holds => holds)
    fun _ _ _ holds => related_of_took respects holds.1) fun kif => ?_
  refine twin_require_then respects ?_
  refine twin_check (faulty_related respects)
    (fun s s' holds => by rw [inL2vpn, inL2vpn, (respects.alike holds).l2vpns]) ?_
  refine twin_check ((faulty_related respects).mono fun _ _ holds => holds.1)
    (fun s s' holds => by rw [(respects.alike holds.1).ifaceList]) ?_
  refine twin_step respects (.addL2vpnIf kif) fun s s' holds => ?_
  obtain ⟨⟨holds, fresh⟩, unused⟩ := holds
  refine ⟨s, s', holds, ⟨(Bool.not_eq_true' _).mp fresh, ?_⟩, rfl, rfl⟩
  exact any_eq_false (fun iface => beq_iff_eq) unused

theorem twin_l2vpnopts (found : l2vpnopts host fuel keyword = some action) :
    Twin (related .top) (related .l2vpn) action fun _ => related .l2vpn := by
  unfold l2vpnopts at found
  split at found
  · cases found
    refine .bind (twin_valueOf respects) fun pwType => ?_
    refine .of_fact (fun _ _ holds => holds.2) fun known => ?_
    obtain ⟨token, type⟩ := known
    refine .weaken (twin_changeL2vpn respects ?_)
      (fun _ _ holds => related_of_took respects holds.1) fun _ _ _ holds => holds
    exact fun _ => ⟨rfl, rfl, rfl, rfl, rfl, .inr (mem_pwTypes type)⟩
  · cases found
    refine .bind (twin_number respects) fun mtu => ?_
    exact twin_changeL2vpn respects fun _ => ⟨rfl, rfl, rfl, rfl, rfl, .inl rfl⟩
  · cases found
    exact twin_bridge respects
  · cases found
    exact twin_confGetL2vpnIf respects
  · cases found
    exact twin_pseudowire respects
  · exact twin_pwDefaults respects (.inl rfl) found

theorem twin_l2vpn :
    Twin (related .top) (related .top) (l2vpn host fuel) fun _ => related .top := by
  refine .bind ((twin_value respects).weaken (fun _ _ holds => holds)
    fun _ _ _ took => related_of_took respects took) fun name => ?_
  refine .bind (twin_expect respects) fun _ => .bind (twin_expect respects) fun _ => ?_
  refine twin_check (faulty_related respects)
    (fun s s' holds => by rw [(respects.alike holds).l2vpns]) ?_
  refine .bind (twin_step respects (.beginL2vpn name) fun s s' holds => ?_) fun _ => ?_
  · exact ⟨s, s', holds.1, any_eq_false (fun l2vpn => decide_eq_true_iff) holds.2, rfl, rfl⟩
  · refine .bind (twin_block respects (twin_option respects fun keyword action found =>
      twin_l2vpnopts respects found)) fun _ => ?_
    exact twin_act respects .endL2vpn fun _ => trivial

/-! ### The grammar -/

theorem twin_strings (text : String) (rounds : Nat) :
    Twin (related .top) (related .top) (strings fuel text rounds) fun _ => related .top := by
  induction rounds generalizing text with
  | zero => exact .lift_none
  | succ rounds inductionHypothesis =>
    refine .bind (twin_peek respects) fun token => ?_
    cases textOf token with
    | none => exact .pure fun _ _ holds => holds.1
    | some more =>
      refine .bind (.weaken twin_shift (fun _ _ holds => holds)
        fun _ _ _ took => related_of_took respects took) fun _ => inductionHypothesis _

theorem twin_varset : Twin (related .top) (related .top) (varset fuel) fun _ => related .top := by
  have took {s s' : Statics} (holds : Took related .top s s') : related .top s s' :=
    related_of_took respects holds
  refine .bind ((twin_value respects).weaken (fun _ _ holds => holds) fun _ _ _ => took)
    fun nam => ?_
  refine .bind (twin_expect respects) fun _ => ?_
  refine .bind ((twin_value respects).weaken (fun _ _ holds => holds) fun _ _ _ => took)
    fun first => ?_
  refine .bind (twin_strings respects first fuel) fun val => ?_
  exact twin_require_then respects (twin_act respects (.symset nam val) fun _ => trivial)

theorem twin_includeFile :
    Twin (related .top) (related .top) (includeFile host fuel) fun _ => related .top := by
  refine .bind (twin_value respects) fun name => ?_
  refine .bind (twin_the (faulty_took respects)) fun stream => ?_
  refine twin_step respects (.includeFile { name, stream }) fun s s' holds => ?_
  obtain ⟨⟨t, t', holds, filled, rfl, rfl⟩, -⟩ := holds
  exact ⟨t, t', holds, filled, rfl, rfl⟩

theorem twin_lineOf (found : lineOf host fuel keyword = some action) :
    Twin (related .top) (related .top) action fun _ => related .top := by
  unfold lineOf at found
  split at found
  · cases found
    exact twin_includeFile respects
  · cases found
    exact twin_addressFamily respects
  · cases found
    exact twin_neighbor respects
  · cases found
    exact twin_l2vpn respects
  · exact twin_confMain respects found

/-- The parser has stopped at the end of the input, if it has. -/
def Stopped (related : Level → Statics → Statics → Prop) (ended : Bool) (s s' : Statics) : Prop :=
  related .top s s' ∧ (ended = true → s.look = some .eof)

theorem twin_line :
    Twin (related .top) (related .top) (line host fuel) (Stopped related) := by
  have goesOn {s s' : Statics} (holds : related .top s s') : Stopped related false s s' :=
    ⟨holds, fun ended => absurd ended Bool.false_ne_true⟩
  refine .bind (twin_peek respects) fun token => ?_
  split
  · exact .pure fun _ _ holds => ⟨holds.1, fun _ => holds.2⟩
  · refine .bind twin_shift fun _ => .pure fun _ _ took => goesOn (related_of_took respects took)
  · refine .bind ((twin_varset respects).weaken (fun _ _ holds => holds.1)
      fun _ _ _ holds => holds) fun _ => ?_
    exact .bind (twin_expect respects) fun _ => .pure fun _ _ => goesOn
  · refine .bind ((twin_option respects fun keyword action found =>
      twin_lineOf respects found).weaken (fun _ _ holds => holds.1) fun _ _ _ holds => holds)
      fun _ => ?_
    exact .bind (twin_expect respects) fun _ => .pure fun _ _ => goesOn

theorem twin_yyerror {fault : Statics → Statics → Prop} :
    Twin fault (related level) yyerror fun _ => related .top :=
  .modify fun _ _ holds => respects.fails holds

theorem twin_recover {fault : Statics → Statics → Prop} (rounds : Nat) :
    Twin fault (related .top) (recover fuel rounds) (Stopped related) := by
  induction rounds with
  | zero => exact .lift_none
  | succ rounds inductionHypothesis =>
    refine .bind (twin_peek respects) fun token => ?_
    split
    · exact .pure fun _ _ holds => ⟨holds.1, fun _ => holds.2⟩
    · refine .bind twin_shift fun _ => ?_
      refine .bind ((twin_yyerror respects).weaken (fun _ _ took => related_of_took respects took)
        fun _ _ _ holds => holds) fun _ => ?_
      exact .pure fun _ _ holds => ⟨holds, fun ended => absurd ended Bool.false_ne_true⟩
    · refine .bind twin_shift fun _ => ?_
      exact inductionHypothesis.weaken (fun _ _ took => related_of_took respects took)
        fun _ _ _ holds => holds

/-- A whole parse keeps what its actions keep. It does not give up, and it ends at the end of the
input. -/
theorem twin_yyparse (rounds : Nat) :
    Twin (fun _ _ => False) (related .top) (yyparse host fuel rounds)
      fun _ => Stopped related true := by
  induction rounds with
  | zero => exact .lift_none
  | succ rounds inductionHypothesis =>
    refine .bind (.tryCatch (twin_line respects) fun _ => twin_recover respects fuel) fun ended => ?_
    cases ended with
    | true => exact .pure fun _ _ holds => holds
    | false => exact inductionHypothesis.weaken (fun _ _ holds => holds.1) fun _ _ _ holds => holds

end Parse

end Ldpd
