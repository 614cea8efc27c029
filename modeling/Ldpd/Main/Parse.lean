/-
This file is the grammar of `parse.y` with its actions, and `parse_config`. The parser that
yacc generates from it looks at one token ahead, and only where it has to; on an error it
goes on after the end of the line. It is written here as a function for each nonterminal,
which may give up in the middle, with the static variables as they are then.

The variables that stand for what is being parsed are names of it: the index of an
interface, the address of a neighbor, the number of an L2VPN. A result of `none` means
that the fuel ran out. The blocks and the options that have been read are remembered, for
the proofs; the parser never looks at them.
-/

import Ldpd.Library.Twin
import Ldpd.Main.Config
import Ldpd.Main.Kroute
import Ldpd.Main.Lexer

namespace Ldpd

/-! ### Static variables -/

/-- `struct config_defaults`, without a transport address that nothing uses. -/
structure ConfigDefaults where
  keepalive : UInt16 := 0
  lhelloHoldtime : UInt16 := 0
  lhelloInterval : UInt16 := 0
  thelloHoldtime : UInt16 := 0
  thelloInterval : UInt16 := 0
  afflags : AfFlags := {}
  pwflags : PwFlags := {}
  deriving DecidableEq, Repr

/-- What `defs` points to. -/
inductive Defs where
  | globaldefs
  | afdefs
  | ifacedefs
  | tnbrdefs
  | pwdefs
  deriving DecidableEq, Repr

/-- An option that sets one of the defaults. -/
inductive Setting where
  | targetedHelloAccept (yes : Bool)
  | explicitNull (yes : Bool)
  | keepalive (seconds : UInt16)
  | gtsmEnable (yes : Bool)
  | linkHelloHoldtime (seconds : UInt16)
  | linkHelloInterval (seconds : UInt16)
  | targetedHelloHoldtime (seconds : UInt16)
  | targetedHelloInterval (seconds : UInt16)
  | statusTlv (yes : Bool)
  | controlWord (yes : Bool)
  deriving DecidableEq, Repr

/-- What an option does to the defaults. -/
def Setting.apply (defs : ConfigDefaults) : Setting → ConfigDefaults
  | .targetedHelloAccept yes =>
    { defs with afflags := { defs.afflags with thelloAccept := yes } }
  | .explicitNull yes => { defs with afflags := { defs.afflags with expnull := yes } }
  | .keepalive seconds => { defs with keepalive := seconds }
  | .gtsmEnable yes =>
    if yes then defs else { defs with afflags := { defs.afflags with noGtsm := true } }
  | .linkHelloHoldtime seconds => { defs with lhelloHoldtime := seconds }
  | .linkHelloInterval seconds => { defs with lhelloInterval := seconds }
  | .targetedHelloHoldtime seconds => { defs with thelloHoldtime := seconds }
  | .targetedHelloInterval seconds => { defs with thelloInterval := seconds }
  | .statusTlv yes => { defs with pwflags := { defs.pwflags with statustlvConf := yes } }
  | .controlWord yes => { defs with pwflags := { defs.pwflags with cwordConf := yes } }

/-- What takes its settings from the defaults. -/
inductive Object where
  | family (af : Af)
  | interface (ifindex : UInt32) (af : Af)
  | tneighbor (addr : LdpdAddr)
  | pseudowire (ifindex : UInt32)
  deriving DecidableEq, Repr

/-- The blocks in which the defaults are set: those of the objects, and those of the L2VPNs. -/
inductive Block where
  | object (object : Object)
  | l2vpn
  deriving DecidableEq, Repr

/-- What the parser comes across. -/
inductive Event where
  | opens
  | sets (setting : Setting)
  | closes (block : Block)
  deriving DecidableEq, Repr

/-- What the parser has come across, the last first. -/
abbrev Trace := List Event

/-- A `struct l2vpn_pw` that is being parsed, with `AF_UNSPEC` for its family as long as it has no
address. What `neighbor-addr` says is remembered, although the code forgets it. -/
structure ParsePw where
  lsrId : InAddr := 0
  addr : Option LdpdAddr := none
  pwid : UInt32 := 0
  ifname : String
  ifindex : UInt32
  flags : PwFlags := {}
  given : Option LdpdAddr := none
  deriving DecidableEq, Repr

/-- A `struct l2vpn` that is being parsed, with the number of those before it for its pointer. The
name as it is in the file is remembered. -/
structure ParseL2vpn where
  pointer : Nat
  name : String
  given : String
  pwType : Int := 5
  mtu : Int := 1500
  brIfname : String := ""
  brIfindex : UInt32 := 0
  ifList : List ConfL2vpnIf := []
  pwList : List ParsePw := []
  deriving DecidableEq, Repr

/-- The static variables of `parse.y`, and the token that the parser has looked at. The L2VPNs of
`conf` stand apart from it, and so do the files that the last parse has left open. -/
structure Statics where
  lexer : Lexer := {}
  left : List ParseFile := []
  look : Option Token := none
  conf : LdpdConf := {}
  l2vpns : List ParseL2vpn := []
  globaldefs : ConfigDefaults := {}
  afdefs : ConfigDefaults := {}
  ifacedefs : ConfigDefaults := {}
  tnbrdefs : ConfigDefaults := {}
  pwdefs : ConfigDefaults := {}
  defs : Defs := .globaldefs
  af : Option Af := none
  afConf : Option Af := none
  iface : Option UInt32 := none
  ia : Option (UInt32 × Af) := none
  tnbr : Option LdpdAddr := none
  nbrp : Option InAddr := none
  l2vpn : Option Nat := none
  pw : Option UInt32 := none
  trace : Trace := []
  deriving DecidableEq, Repr

/-- The types of interfaces that the parser tells apart. -/
inductive IfType where
  | loop
  | carp
  | bridge
  | mplstunnel
  | other
  deriving DecidableEq, Repr

/-- What the parser reads of a `struct kif`. -/
structure ParseKif where
  ifname : String
  ifindex : UInt16
  ifType : IfType
  deriving DecidableEq, Repr

/-- What the parser asks the system for: the files it may read, the interfaces, the addresses that
are written in a string, and the lowest address of an interface. -/
structure ParseHost where
  openFile : String → Option (List Char)
  kifFindname : String → Option ParseKif
  inetAton : String → Option InAddr
  inetPton : String → Af → Option LdpdAddr
  getRtrId : InAddr

namespace Statics

/-- The defaults that `defs` points to. -/
def current (s : Statics) : ConfigDefaults :=
  match s.defs with
  | .globaldefs => s.globaldefs
  | .afdefs => s.afdefs
  | .ifacedefs => s.ifacedefs
  | .tnbrdefs => s.tnbrdefs
  | .pwdefs => s.pwdefs

/-- Change the defaults that `defs` points to. -/
def setCurrent (s : Statics) (defaults : ConfigDefaults) : Statics :=
  match s.defs with
  | .globaldefs => { s with globaldefs := defaults }
  | .afdefs => { s with afdefs := defaults }
  | .ifacedefs => { s with ifacedefs := defaults }
  | .tnbrdefs => { s with tnbrdefs := defaults }
  | .pwdefs => { s with pwdefs := defaults }

/-- Set one of the defaults that `defs` points to. -/
def put (s : Statics) (setting : Setting) : Statics :=
  { s.setCurrent (setting.apply s.current) with trace := .sets setting :: s.trace }

/-- The end of the block of an object. -/
def close (s : Statics) (object : Option Object) : Trace :=
  match object with
  | none => s.trace
  | some object => .closes (.object object) :: s.trace

end Statics

/-! ### Tokens -/

/-- The way in which a part of the parser gives up. -/
inductive ParseFault where
  | yyerror
  deriving DecidableEq, Repr

/-- A part of the parser, which may give up. -/
abbrev Parse := Program Statics ParseFault

namespace Parse

/-- A look at the static variables. -/
def see {α : Type} (look : Statics → α) : Parse α := do
  pure (look (← get))

/-- `yyerror`. -/
def yyerror : Parse Unit :=
  modify fun s => { s with lexer := s.lexer.yyerror }

/-- `yyerror` and `YYERROR`, or a syntax error. -/
def fail {α : Type} : Parse α := do
  yyerror
  throw .yyerror

/-- Give up unless a condition holds. -/
def require (condition : Bool) : Parse Unit :=
  if condition then pure () else fail

/-- The value there is, or an error. -/
def the {α : Type} : Option α → Parse α
  | some value => pure value
  | none => fail

/-- The next token, which stays. -/
def peek (fuel : Nat) : Parse Token := do
  let s ← get
  match s.look with
  | some token => pure token
  | none =>
    match s.lexer.yylex fuel with
    | none => liftM (none : Option Token)
    | some (token, lexer) =>
      set { s with lexer, look := some token }
      pure token

/-- Take the token that was looked at. -/
def shift : Parse Unit :=
  modify fun s => { s with look := none }

/-- The next token, which has to be a certain one. -/
def expect (fuel : Nat) (token : Token) : Parse Unit := do
  let next ← peek fuel
  require (next = token)
  shift

/-- The text of a `STRING`. -/
def textOf : Token → Option String
  | .string text => some text
  | _ => none

/-- The value of a `NUMBER`. -/
def numberOf : Token → Option Int
  | .number value => some value
  | _ => none

/-- `yesno`, of a token. -/
def yesnoOf : Token → Option Bool
  | .keyword .yes => some true
  | .keyword .no => some false
  | _ => none

/-- `ldp_af`, of a token. -/
def ldpAfOf : Token → Option Af
  | .keyword .ipv4 => some .inet
  | .keyword .ipv6 => some .inet6
  | _ => none

/-- `pw_type`, of a token. -/
def pwTypeOf : Token → Option Int
  | .keyword .ethernet => some 5
  | .keyword .ethernetTagged => some 4
  | _ => none

/-- The next token, which has to be of a certain kind. -/
def value {α : Type} (fuel : Nat) (kind : Token → Option α) : Parse α := do
  let value ← the (kind (← peek fuel))
  shift
  pure value

/-- A number within bounds. -/
def number (fuel : Nat) (least most : Int) : Parse Int := do
  let value ← value fuel numberOf
  require (least ≤ value && value ≤ most)
  pure value

/-- `optnl`. -/
def optnl (fuel : Nat) : Nat → Parse Unit
  | 0 => liftM (none : Option Unit)
  | rounds + 1 => do
    if (← peek fuel) = .char '\n' then
      shift
      optnl fuel rounds

/-- `nl`. -/
def nl (fuel : Nat) : Parse Unit := do
  expect fuel (.char '\n')
  optnl fuel fuel

/-- The rest of a list of options: each ends with its line, and the list with a brace. -/
def options (fuel : Nat) (option : Parse Unit) : Nat → Parse Unit
  | 0 => liftM (none : Option Unit)
  | rounds + 1 => do
    if (← peek fuel) = .char '\x7d' then shift
    else
      option
      nl fuel
      options fuel option rounds

/-- A block of options in braces, which may be missing. The first option need not end its line. -/
def block (fuel : Nat) (option : Parse Unit) : Parse Unit := do
  if (← peek fuel) = .char '\x7b' then
    shift
    optnl fuel fuel
    if (← peek fuel) = .char '\x7d' then shift
    else
      option
      optnl fuel fuel
      options fuel option fuel

/-- The next token is a keyword that one of the options begins with. -/
def option (fuel : Nat) (options : Keyword → Option (Parse Unit)) : Parse Unit := do
  let action ← the (match ← peek fuel with
    | .keyword keyword => options keyword
    | _ => none)
  shift
  action

/-! ### Defaults -/

/-- Set one of the defaults that `defs` points to. -/
def put (setting : Setting) : Parse Unit :=
  modify fun s => s.put setting

/-- `af_defaults`. -/
def afDefaults (fuel : Nat) : Keyword → Option (Parse Unit)
  | .targetedHelloAccept => some do
    let yes ← value fuel yesnoOf
    put (.targetedHelloAccept yes)
  | .explicitNull => some do
    let yes ← value fuel yesnoOf
    put (.explicitNull yes)
  | .keepalive => some do
    let seconds ← number fuel 3 0xffff
    put (.keepalive (.ofNat seconds.toNat))
  | _ => none

/-- `iface_defaults`. -/
def ifaceDefaults (fuel : Nat) : Keyword → Option (Parse Unit)
  | .linkHelloHoldtime => some do
    let seconds ← number fuel 3 0xffff
    put (.linkHelloHoldtime (.ofNat seconds.toNat))
  | .linkHelloInterval => some do
    let seconds ← number fuel 1 0xffff
    put (.linkHelloInterval (.ofNat seconds.toNat))
  | _ => none

/-- `tnbr_defaults`. -/
def tnbrDefaults (fuel : Nat) : Keyword → Option (Parse Unit)
  | .targetedHelloHoldtime => some do
    let seconds ← number fuel 3 0xffff
    put (.targetedHelloHoldtime (.ofNat seconds.toNat))
  | .targetedHelloInterval => some do
    let seconds ← number fuel 1 0xffff
    put (.targetedHelloInterval (.ofNat seconds.toNat))
  | _ => none

/-- `pw_defaults`. -/
def pwDefaults (fuel : Nat) : Keyword → Option (Parse Unit)
  | .statusTlv => some do
    let yes ← value fuel yesnoOf
    put (.statusTlv yes)
  | .controlWord => some do
    let yes ← value fuel yesnoOf
    put (.controlWord yes)
  | _ => none

variable (host : ParseHost) (fuel : Nat)

/-! ### Global settings -/

def modifyConf (change : LdpdConf → LdpdConf) : Parse Unit :=
  modify fun s => { s with conf := change s.conf }

/-- `conf_main`. -/
def confMain : Keyword → Option (Parse Unit)
  | .routerId => some do
    let addr ← the (host.inetAton (← value fuel textOf))
    modifyConf fun conf => { conf with rtrId := addr }
    require (!badAddrV4 addr)
  | .fibUpdate => some do
    let yes ← value fuel yesnoOf
    modifyConf fun conf => { conf with flags := { conf.flags with noFibUpdate := !yes } }
  | .transportPreference => some do
    let af ← value fuel ldpAfOf
    modifyConf fun conf => { conf with transPref := if af = .inet then 4 else 6 }
  | .dsCiscoInterop => some do
    let yes ← value fuel yesnoOf
    modifyConf fun conf => { conf with flags := { conf.flags with dsCiscoInterop := yes } }
  | keyword => afDefaults fuel keyword <|> ifaceDefaults fuel keyword <|> tnbrDefaults fuel keyword

/-! ### Address families -/

/-- `get_address`. -/
def getAddress (text : String) : Parse LdpdAddr := do
  let af ← the (← see Statics.af)
  the (host.inetPton text af)

/-- `family == AF_INET6 && IN6_IS_SCOPE_EMBED(&addr.v6)`. -/
def embedded : LdpdAddr → Bool
  | .v4 _ => false
  | .v6 addr => isScopeEmbed addr

/-- The transport address of a family. -/
def setTransAddr (conf : LdpdConf) : LdpdAddr → LdpdConf
  | .v4 addr => { conf with ipv4 := { conf.ipv4 with transAddr := addr } }
  | .v6 addr => { conf with ipv6 := { conf.ipv6 with transAddr := addr } }

/-- `transport-address`. -/
def transportAddress : Parse Unit := do
  let addr ← getAddress host (← value fuel textOf)
  modifyConf fun conf => setTransAddr conf addr
  require (!badAddr addr)
  require (!embedded addr)

/-- Whether an interface is one of an L2VPN. -/
def inL2vpn (s : Statics) (ifindex : UInt32) : Bool :=
  s.l2vpns.any fun l2vpn => l2vpn.ifList.any fun lif => lif.ifindex == ifindex

/-- The types of interfaces that the daemon cannot use. -/
def unsupported (kif : ParseKif) : Bool :=
  kif.ifType = .loop || kif.ifType = .carp || kif.ifType = .bridge || kif.ifType = .mplstunnel

/-- The interface in the configuration, which is added to it the first time. -/
def addIface (kif : ParseKif) (s : Statics) : Statics :=
  if s.conf.ifaceList.any fun iface => iface.ifindex == kif.ifindex.toUInt32 then s
  else
    { s with
      conf := { s.conf with
                ifaceList :=
                  { name := kif.ifname, ifindex := kif.ifindex.toUInt32 } :: s.conf.ifaceList } }

/-- `conf_get_if`. -/
def confGetIf (kif : ParseKif) : Parse UInt32 := do
  require (!unsupported kif)
  require (!(← see (inL2vpn · kif.ifindex.toUInt32)))
  modify (addIface kif)
  pure kif.ifindex.toUInt32

/-- The settings of an interface for a family. -/
def ifaceAfGet (iface : ConfIface) : Af → ConfIfaceAf
  | .inet => iface.ipv4
  | .inet6 => iface.ipv6

/-- Change the settings of an interface for a family. -/
def changeIfaceAf (change : ConfIfaceAf → ConfIfaceAf) (iface : ConfIface) : Af → ConfIface
  | .inet => { iface with ipv4 := change iface.ipv4 }
  | .inet6 => { iface with ipv6 := change iface.ipv6 }

/-- Change the settings that `ia` points to. -/
def changeIa (change : ConfIfaceAf → ConfIfaceAf) (s : Statics) : LdpdConf :=
  match s.ia with
  | none => s.conf
  | some (ifindex, af) =>
    { s.conf with
      ifaceList := s.conf.ifaceList.map fun iface =>
        if iface.ifindex = ifindex then changeIfaceAf change iface af else iface }

/-- The end of the action before the block of an interface. -/
def beginInterface (s : Statics) : Statics :=
  { s with
    conf := changeIa (fun ia => { ia with enabled := true }) s
    ifacedefs := s.current, defs := .ifacedefs, trace := .opens :: s.trace }

/-- The action after the block of an interface. -/
def endInterface (s : Statics) : Statics :=
  { s with
    conf := changeIa (fun ia =>
      { ia with
        helloHoldtime := s.current.lhelloHoldtime
        helloInterval := s.current.lhelloInterval }) s
    iface := none, defs := .afdefs
    trace := s.close (s.ia.map fun ia => .interface ia.1 ia.2) }

/-- `interface`. -/
def interface : Parse Unit := do
  let kif ← the (host.kifFindname (← value fuel textOf))
  let af ← the (← see Statics.af)
  let ifindex ← confGetIf kif
  modify fun s => { s with iface := some ifindex, ia := some (ifindex, af) }
  require (!(← see Statics.conf).ifaceList.any fun iface =>
    iface.ifindex == ifindex && (ifaceAfGet iface af).enabled)
  modify beginInterface
  block fuel (option fuel (ifaceDefaults fuel))
  modify endInterface

/-- The hold time and the interval of targeted Hellos that a family has so far. -/
def thelloTimes (conf : LdpdConf) : Af → UInt16 × UInt16
  | .inet => (conf.ipv4.thelloHoldtime, conf.ipv4.thelloInterval)
  | .inet6 => (conf.ipv6.thelloHoldtime, conf.ipv6.thelloInterval)

/-- A new targeted neighbor in the configuration. -/
def addTnbr (addr : LdpdAddr) (s : Statics) : Statics :=
  { s with
    conf := { s.conf with
              tnbrList :=
                { addr, configured := true, helloHoldtime := (thelloTimes s.conf addr.af).1
                  helloInterval := (thelloTimes s.conf addr.af).2 } :: s.conf.tnbrList } }

/-- `conf_get_tnbr`. -/
def confGetTnbr (addr : LdpdAddr) : Parse Unit := do
  require (!(← see Statics.conf).tnbrList.any fun tnbr => tnbr.addr = addr)
  modify (addTnbr addr)

/-- The end of the action before the block of a targeted neighbor. -/
def beginTneighbor (addr : LdpdAddr) (s : Statics) : Statics :=
  { s with
    tnbr := some addr, tnbrdefs := s.current, defs := .tnbrdefs, trace := .opens :: s.trace }

/-- The action after the block of a targeted neighbor. -/
def endTneighbor (s : Statics) : Statics :=
  { s with
    conf := { s.conf with
              tnbrList := s.conf.tnbrList.map fun tnbr =>
                if s.tnbr = some tnbr.addr then
                  { tnbr with
                    helloHoldtime := s.current.thelloHoldtime
                    helloInterval := s.current.thelloInterval }
                else tnbr }
    tnbr := none, defs := .afdefs, trace := s.close (s.tnbr.map .tneighbor) }

/-- `tneighbor`. -/
def tneighbor : Parse Unit := do
  let addr ← getAddress host (← value fuel textOf)
  require (!badAddr addr)
  require (!embedded addr)
  confGetTnbr addr
  modify (beginTneighbor addr)
  block fuel (option fuel (tnbrDefaults fuel))
  modify endTneighbor

/-- `afoptsl`. -/
def afoptsl : Keyword → Option (Parse Unit)
  | .transportAddress => some (transportAddress host fuel)
  | .gtsmEnable => some do
    let yes ← value fuel yesnoOf
    put (.gtsmEnable yes)
  | .interface => some (interface host fuel)
  | .targetedNeighbor => some (tneighbor host fuel)
  | keyword => afDefaults fuel keyword <|> ifaceDefaults fuel keyword <|> tnbrDefaults fuel keyword

/-- The settings of a family are its defaults at the end of its block. -/
def afSettings {Addr : Type} (defs : ConfigDefaults) (afConf : LdpdAfConf Addr) : LdpdAfConf Addr :=
  { afConf with
    keepalive := defs.keepalive, thelloHoldtime := defs.thelloHoldtime
    thelloInterval := defs.thelloInterval, flags := { defs.afflags with enabled := true } }

/-- Change the settings that `af_conf` points to. -/
def setAfConf (s : Statics) : LdpdConf :=
  match s.afConf with
  | none => s.conf
  | some .inet => { s.conf with ipv4 := afSettings s.current s.conf.ipv4 }
  | some .inet6 => { s.conf with ipv6 := afSettings s.current s.conf.ipv6 }

/-- The action before the block of an address family. -/
def beginFamily (af : Af) (s : Statics) : Statics :=
  { s with
    af := some af, afConf := some af, afdefs := s.current, defs := .afdefs
    trace := .opens :: s.trace }

/-- The action after the block of an address family. -/
def endFamily (s : Statics) : Statics :=
  { s with
    conf := setAfConf s, afConf := none, af := none, defs := .globaldefs
    trace := s.close (s.afConf.map .family) }

/-- `af`. -/
def addressFamily : Parse Unit := do
  let af ← value fuel ldpAfOf
  modify (beginFamily af)
  block fuel (option fuel (afoptsl host fuel))
  modify endFamily

/-! ### Neighbors -/

/-- New parameters of a neighbor in the configuration. -/
def addNbrp (lsrId : InAddr) (s : Statics) : Statics :=
  { s with conf := { s.conf with nbrpList := { lsrId } :: s.conf.nbrpList } }

/-- `conf_get_nbrp`. -/
def confGetNbrp (lsrId : InAddr) : Parse Unit := do
  require (!(← see Statics.conf).nbrpList.any fun nbrp => nbrp.lsrId == lsrId)
  modify (addNbrp lsrId)

/-- Change the parameters that `nbrp` points to. -/
def changeNbrp (change : NbrParams → NbrParams) (s : Statics) : Statics :=
  { s with
    conf := { s.conf with
              nbrpList := s.conf.nbrpList.map fun nbrp =>
                if s.nbrp = some nbrp.lsrId then change nbrp else nbrp } }

/-- `nbr_opts`. -/
def nbrOpts : Keyword → Option (Parse Unit)
  | .keepalive => some do
    let seconds ← number fuel 3 0xffff
    modify (changeNbrp fun nbrp =>
      { nbrp with
        keepalive := .ofNat seconds.toNat, flags := { nbrp.flags with keepalive := true } })
  | .password => some do
    let text ← value fuel textOf
    require (text.length < 80)
    modify (changeNbrp fun nbrp => { nbrp with md5key := text, method := .md5sig })
  | .gtsmEnable => some do
    let yes ← value fuel yesnoOf
    modify (changeNbrp fun nbrp =>
      { nbrp with flags := { nbrp.flags with gtsm := true }, gtsmEnabled := yes })
  | .gtsmHops => some do
    let hops ← number fuel 1 255
    modify (changeNbrp fun nbrp =>
      { nbrp with gtsmHops := .ofNat hops.toNat, flags := { nbrp.flags with gtsmHops := true } })
  | _ => none

/-- `neighbor`. -/
def neighbor : Parse Unit := do
  let addr ← the (host.inetAton (← value fuel textOf))
  require (!badAddrV4 addr)
  confGetNbrp addr
  modify fun s => { s with nbrp := some addr }
  block fuel (option fuel (nbrOpts fuel))
  modify fun s => { s with nbrp := none }

/-! ### Layer 2 VPNs -/

/-- Change the L2VPN that `l2vpn` points to. -/
def changeL2vpn (change : ParseL2vpn → ParseL2vpn) (s : Statics) : Statics :=
  { s with
    l2vpns := s.l2vpns.map fun l2vpn =>
      if s.l2vpn = some l2vpn.pointer then change l2vpn else l2vpn }

/-- Change the pseudowire that `pw` points to. -/
def changePw (change : ParsePw → ParsePw) (s : Statics) : Statics :=
  { s with
    l2vpns := s.l2vpns.map fun l2vpn =>
      { l2vpn with
        pwList := l2vpn.pwList.map fun pw =>
          if s.pw = some pw.ifindex then change pw else pw } }

/-- The pseudowires of all L2VPNs. -/
def allPws (s : Statics) : List ParsePw :=
  s.l2vpns.flatMap ParseL2vpn.pwList

/-- `pwopts`. -/
def pwopts : Keyword → Option (Parse Unit)
  | .pwId => some do
    let pwid ← number fuel 1 0xffffffff
    modify (changePw fun pw => { pw with pwid := .ofNat pwid.toNat })
  | .neighborId => some do
    let addr ← the (host.inetAton (← value fuel textOf))
    require (!badAddrV4 addr)
    modify (changePw fun pw => { pw with lsrId := addr })
  | .neighborAddr => some do
    let text ← value fuel textOf
    let addr ← the (host.inetPton text .inet <|> host.inetPton text .inet6)
    require (!badAddr addr)
    require (!embedded addr)
    modify (changePw fun pw => { pw with addr := some addr, given := some addr })
  | keyword => pwDefaults fuel keyword

/-- A new pseudowire of the L2VPN that `l2vpn` points to. -/
def addPw (kif : ParseKif) : Statics → Statics :=
  changeL2vpn fun l2vpn =>
    { l2vpn with
      pwList := { ifname := kif.ifname, ifindex := kif.ifindex.toUInt32 } :: l2vpn.pwList }

/-- `conf_get_l2vpn_pw`. -/
def confGetL2vpnPw (kif : ParseKif) : Parse Unit := do
  require (!(← see allPws).any fun pw => pw.ifindex == kif.ifindex.toUInt32)
  modify (addPw kif)

/-- The end of the action before the block of a pseudowire. -/
def beginPw (ifindex : UInt32) (s : Statics) : Statics :=
  { s with pw := some ifindex, pwdefs := s.current, defs := .pwdefs, trace := .opens :: s.trace }

/-- The test of the action after the block of a pseudowire: the ids, and the family as it is before the
default is filled in. -/
def samePw (pw p : ParsePw) : Bool :=
  pw.ifindex != p.ifindex && pw.pwid == p.pwid &&
    pw.addr.map LdpdAddr.af = p.addr.map LdpdAddr.af && pw.lsrId == p.lsrId

/-- The end of the action after the block of a pseudowire: if the neighbor address is not specified,
use the neighbor id. -/
def endPw (s : Statics) : Statics :=
  let filled := changePw (fun pw =>
    { pw with addr := some (pw.addr.getD (.v4 pw.lsrId)), flags := s.current.pwflags }) s
  { filled with
    pw := none, defs := .globaldefs, trace := s.close (s.pw.map .pseudowire) }

/-- The action after the block of a pseudowire. -/
def finishPw : Parse Unit := do
  let pointer ← see Statics.pw
  let pws ← see allPws
  let pw ← the (pws.find? fun pw => pointer = some pw.ifindex)
  require (pw.pwid != 0)
  require (pw.lsrId != 0)
  require (!pws.any (samePw pw))
  modify endPw

/-- `pseudowire`. -/
def pseudowire : Parse Unit := do
  let kif ← the (host.kifFindname (← value fuel textOf))
  require (kif.ifType = .mplstunnel)
  confGetL2vpnPw kif
  modify (beginPw kif.ifindex.toUInt32)
  block fuel (option fuel (pwopts host fuel))
  finishPw

/-- `bridge`. -/
def bridge : Parse Unit := do
  let kif ← the (host.kifFindname (← value fuel textOf))
  let pointer ← see Statics.l2vpn
  let l2vpns ← see Statics.l2vpns
  require (!l2vpns.any fun l2vpn => pointer = some l2vpn.pointer && l2vpn.brIfindex != 0)
  require (kif.ifType = .bridge)
  require (!l2vpns.any fun l2vpn => l2vpn.brIfindex == kif.ifindex.toUInt32)
  modify (changeL2vpn fun l2vpn =>
    { l2vpn with brIfindex := kif.ifindex.toUInt32, brIfname := kif.ifname })

/-- A new interface of the L2VPN that `l2vpn` points to. -/
def addL2vpnIf (kif : ParseKif) : Statics → Statics :=
  changeL2vpn fun l2vpn =>
    { l2vpn with
      ifList := { ifname := kif.ifname, ifindex := kif.ifindex.toUInt32 } :: l2vpn.ifList }

/-- `conf_get_l2vpn_if`. -/
def confGetL2vpnIf : Parse Unit := do
  let kif ← the (host.kifFindname (← value fuel textOf))
  require (!unsupported kif)
  require (!(← see (inL2vpn · kif.ifindex.toUInt32)))
  require (!(← see Statics.conf).ifaceList.any fun iface =>
    iface.ifindex == kif.ifindex.toUInt32)
  modify (addL2vpnIf kif)

/-- `l2vpnopts`. -/
def l2vpnopts : Keyword → Option (Parse Unit)
  | .pwType => some do
    let pwType ← value fuel pwTypeOf
    modify (changeL2vpn fun l2vpn => { l2vpn with pwType })
  | .mtu => some do
    let mtu ← number fuel 512 0xffff
    modify (changeL2vpn fun l2vpn => { l2vpn with mtu })
  | .bridge => some (bridge host fuel)
  | .interface => some (confGetL2vpnIf host fuel)
  | .pseudowire => some (pseudowire host fuel)
  | keyword => pwDefaults fuel keyword

/-- `l2vpn_new` cuts the name off at 31 characters. -/
def shortName (name : String) : String :=
  String.ofList (name.toList.take 31)

/-- The end of the action before the block of an L2VPN. -/
def beginL2vpn (name : String) (s : Statics) : Statics :=
  { s with
    l2vpn := some s.l2vpns.length
    l2vpns := { pointer := s.l2vpns.length, name := shortName name, given := name } :: s.l2vpns
    trace := .opens :: s.trace }

/-- The action after the block of an L2VPN. -/
def endL2vpn (s : Statics) : Statics :=
  { s with l2vpn := none, trace := .closes .l2vpn :: s.trace }

/-- `l2vpn`, with `conf_get_l2vpn`. -/
def l2vpn : Parse Unit := do
  let name ← value fuel textOf
  expect fuel (.keyword .type)
  expect fuel (.keyword .vpls)
  require (!(← see Statics.l2vpns).any fun l2vpn => l2vpn.name = name)
  modify (beginL2vpn name)
  block fuel (option fuel (l2vpnopts host fuel))
  modify endL2vpn

/-! ### Macros and files -/

/-- The rest of a `string`: strings are put together with a blank between them. -/
def strings (text : String) : Nat → Parse String
  | 0 => liftM (none : Option String)
  | rounds + 1 => do
    match textOf (← peek fuel) with
    | none => pure text
    | some more =>
      shift
      strings (text ++ " " ++ more) rounds

/-- `varset`. -/
def varset : Parse Unit := do
  let nam ← value fuel textOf
  expect fuel (.char '=')
  let first ← value fuel textOf
  let val ← strings fuel first fuel
  require (!(nam.toList.drop 1).any isSpace)
  modify fun s => { s with lexer := s.lexer.symset nam val false }

/-- `include`. -/
def includeFile : Parse Unit := do
  let name ← value fuel textOf
  let stream ← the (host.openFile name)
  modify fun s =>
    { s with lexer := { s.lexer with files := { name, stream } :: s.lexer.files }.lungetc (some '\n') }

/-! ### The grammar -/

/-- What a line begins with, other than the name of a macro. -/
def lineOf : Keyword → Option (Parse Unit)
  | .includeFile => some (includeFile host fuel)
  | .addressFamily => some (addressFamily host fuel)
  | .neighbor => some (neighbor host fuel)
  | .l2vpn => some (l2vpn host fuel)
  | keyword => confMain host fuel keyword

/-- One line of `grammar`. The result is whether the input has ended. -/
def line : Parse Bool := do
  match ← peek fuel with
  | .eof => pure true
  | .char '\n' => do
    shift
    pure false
  | .string _ => do
    varset fuel
    expect fuel (.char '\n')
    pure false
  | _ => do
    option fuel (lineOf host fuel)
    expect fuel (.char '\n')
    pure false

/-- What follows an error: the rest of the line is skipped. The result is whether the input has
ended instead. -/
def recover : Nat → Parse Bool
  | 0 => liftM (none : Option Bool)
  | rounds + 1 => do
    match ← peek fuel with
    | .eof => pure true
    | .char '\n' => do
      shift
      yyerror
      pure false
    | _ => do
      shift
      recover rounds

/-- `yyparse`. -/
def yyparse : Nat → Parse Unit
  | 0 => liftM (none : Option Unit)
  | rounds + 1 => do
    let ended ← tryCatch (line host fuel) fun _ => recover fuel fuel
    unless ended do
      yyparse rounds

end Parse

/-! ### Configurations -/

/-- A pseudowire as it is in the configuration. -/
def ParsePw.conf (pw : ParsePw) : ConfPw where
  lsrId := pw.lsrId
  addr := pw.addr.getD (.v4 pw.lsrId)
  pwid := pw.pwid
  ifname := pw.ifname
  ifindex := pw.ifindex
  flags := pw.flags

/-- An L2VPN as it is in the configuration. -/
def ParseL2vpn.conf (l2vpn : ParseL2vpn) : ConfL2vpn where
  name := l2vpn.name
  pwType := l2vpn.pwType
  mtu := l2vpn.mtu
  brIfname := l2vpn.brIfname
  brIfindex := l2vpn.brIfindex
  ifList := l2vpn.ifList
  pwList := l2vpn.pwList.map ParsePw.conf

/-- The static variables when `yyparse` is called, but for the file. -/
def Statics.prepare (s : Statics) : Statics :=
  { s with
    conf := { transPref := 6 }
    l2vpns := []
    defs := .globaldefs
    look := none
    trace := []
    globaldefs :=
      { s.globaldefs with
        keepalive := 180, lhelloHoldtime := 15, lhelloInterval := 5, thelloHoldtime := 45
        thelloInterval := 5, pwflags := { statustlvConf := true, cwordConf := true } } }

/-- `popfile` at the end of `parse_config`: the files that are still open. -/
def leftOpen : List ParseFile → List ParseFile
  | file :: prev :: rest => Lexer.popfile file prev :: rest
  | _ => []

/-- The static variables after the file and the macros are gone. A file that is left open is on the
list for good, and nothing reads it: the next parse has a `topfile` of its own. -/
def Statics.cleanUp (s : Statics) : Statics :=
  { s with
    left := leftOpen s.lexer.files
    lexer := { s.lexer with
               files := []
               symhead := s.lexer.symhead.filter Sym.persist } }

/-- The end of `parse_config`. -/
def Statics.result (host : ParseHost) (s : Statics) : LdpdConf :=
  let rtrId := if s.conf.rtrId = 0 then host.getRtrId else s.conf.rtrId
  let ipv4 :=
    if s.conf.ipv4.flags.enabled ∧ s.conf.ipv4.transAddr = 0 then
      { s.conf.ipv4 with transAddr := rtrId }
    else s.conf.ipv4
  { s.conf with rtrId, ipv4, l2vpnList := s.l2vpns.map ParseL2vpn.conf }

/-- `parse_config`: the configuration, if there is one, and the static variables after it. -/
def parseConfig (host : ParseHost) (fuel : Nat) (filename : String) (s : Statics) :
    Option (Option LdpdConf × Statics) :=
  let s := s.prepare
  match host.openFile filename with
  | none => some (none, s)
  | some stream =>
    let s := { s with lexer := { s.lexer with files := [{ name := filename, stream }] } }
    match (Parse.yyparse host fuel fuel).run s with
    | none => none
    | some (_, s) =>
      let failed := s.lexer.files.head?.any ParseFile.errors
      some (if failed then none else some (s.result host), s.cleanUp)

end Ldpd
