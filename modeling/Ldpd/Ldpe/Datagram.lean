/-
This file shows what of a discovery datagram counts. `disc_recv_packet` checks the length
of the first message, but hands everything that follows its header to `recv_hello`, so
what comes after the first message is read as more optional parameters of it. What such
a Hello says is all that the engine reacts to.
-/

import Ldpd.Ldpe.Adjacency

namespace Ldpd

open Bytes

/-! ### What a Hello says -/

/-- The TLV that has been cut off. -/
def HelloTlv.ofFrame (frame : List UInt8) : HelloTlv where
  type := get16 frame
  value := (frame.drop tlvHdrSize).take 65535
  fits := by
    rw [List.length_take]
    omega

/-- The TLVs of which bytes are a sequence. -/
def helloTlvs (buf : List UInt8) : Option (List HelloTlv) :=
  if helloTlvFraming.leftover buf = [] then some ((helloTlvFraming.frames buf).map HelloTlv.ofFrame)
  else none

/-- A preference that the engine knows. -/
def recognized (transPref : UInt16) : UInt16 :=
  if transPref = dualStackLdpov4 ∨ transPref = dualStackLdpov6 then transPref else 0

/-- The preference of a Dual-Stack capability, in its two layouts. -/
def HelloTlv.preference (tlv : HelloTlv) : Option (UInt16 × UInt16) :=
  if tlv.type = tlvTypeDualstack then
    some (recognized (get16 tlv.value >>> 12), recognized (get16 (tlv.value.drop 2)))
  else none

/-- The source of a Hello: an interface or a targeted neighbor. -/
def dfltHoldtime (targeted : Bool) : UInt16 :=
  if targeted then targetedDfltHoldtime else linkDfltHoldtime

/-- What a Hello says. -/
structure HelloContent where
  targeted : Bool
  request : Bool
  gtsm : Bool
  holdtime : UInt16
  transAddr : Option LdpdAddr
  confSeqnum : Option UInt32
  preference : Option (UInt16 × UInt16)
  deriving DecidableEq

instance (tlv : HelloTlv) : Decidable tlv.WellFormed := by
  unfold HelloTlv.WellFormed
  split
  · infer_instance
  · infer_instance

theorem foreign_iff (af : Af) (tlv : HelloTlv) :
    tlv.type = HelloTlv.transAddrType af.other ↔ tlv.Foreign af := by
  refine ⟨fun type => ⟨af.other, by cases af <;> decide, type⟩, ?_⟩
  rintro ⟨family, different, type⟩
  rw [type]
  congr 1
  revert different
  cases af with
  | inet | inet6 => cases family <;> decide

instance (af : Af) (tlv : HelloTlv) : Decidable (tlv.Foreign af) :=
  decidable_of_iff _ (foreign_iff af tlv)

/-- A Hello with these parameters and optional parameters is in order, whoever sends it. -/
def HelloFine (af : Af) (holdtime : UInt16) (targeted : Bool) (tlvs : List HelloTlv) : Prop :=
  (holdtime = 0 ∨ minHoldtime ≤ holdtime) ∧ (∀ tlv ∈ tlvs, tlv.WellFormed ∧ ¬tlv.Foreign af) ∧
    ∀ addr ∈ tlvs.findSome? (HelloTlv.transAddr af),
      ¬(badAddr addr = true ∨ addr.scoped = true ∧ targeted = true)

instance (af : Af) (holdtime : UInt16) (targeted : Bool) (tlvs : List HelloTlv) :
    Decidable (HelloFine af holdtime targeted tlvs) :=
  inferInstanceAs (Decidable (_ ∧ _ ∧ _))

/-- What the bytes of a Hello say to a receiver over an address family, if they say anything. -/
def HelloContent.of (af : Af) (buf : List UInt8) : Option HelloContent :=
  match tlvDecodeHelloPrms buf, helloTlvs (buf.drop helloPrmsSize) with
  | some (holdtime, flags), some tlvs =>
    let targeted := flagSet flags fHelloTargeted
    if HelloFine af holdtime targeted tlvs then
      some {
        targeted
        request := targeted && flagSet flags fHelloReqTarg
        gtsm := flagSet flags fHelloGtsm
        holdtime := if holdtime = 0 then dfltHoldtime targeted else holdtime
        transAddr := tlvs.findSome? (HelloTlv.transAddr af)
        confSeqnum := HelloTlv.last HelloTlv.confNumber tlvs
        preference := HelloTlv.last HelloTlv.preference tlvs }
    else none
  | _, _ => none

/-- The preference in the layout of a configuration. Without both families there is none. -/
def HelloContent.transPref (content : HelloContent) (conf : HelloConf) : Option UInt16 :=
  if ldpIsDualStack conf then
    content.preference.map fun both => if conf.ciscoInterop then both.2 else both.1
  else none

/-- The Hello that says this, from an address. -/
def HelloContent.hello (content : HelloContent) (conf : HelloConf) (src : LdpdAddr)
    (ifindex : UInt16) : Hello where
  holdtime := content.holdtime
  gtsm := content.gtsm
  transAddr := content.transAddr.getD src
  scope := if (content.transAddr.getD src).scoped then ifindex else 0
  opts := .found src.af content.transAddr content.confSeqnum (content.transPref conf)

/-- What the engine does about a Hello. -/
def HelloEngine.hear (engine : HelloEngine) (world : HelloWorld) (lsrId : InAddr) (msg : LdpMsg)
    (src : LdpdAddr) (iface : Iface) (multicast : Bool) (content : HelloContent) :
    Option HelloEngine :=
  let transAddr := content.transAddr.getD src
  let hello := content.hello engine.conf src iface.ifindex
  if multicast = content.targeted then some engine
  else if badAddr transAddr ∨ transAddr.scoped ∧ content.targeted then some engine
  else if content.targeted then
    if src.scoped then some engine
    else do
      let (engine, found) ← engine.helloTarget src content.request
      if found then engine.checkHello world lsrId msg (.targeted src) hello else some engine
  else engine.checkHello world lsrId msg (.link iface.ifindex src.af src) hello

/-! ### The engine hears what a Hello says -/

section Hearing

variable {af : Af}

theorem ofFrame_encode (tlv : HelloTlv) : HelloTlv.ofFrame tlv.encode = tlv := by
  have value : (tlv.encode.drop tlvHdrSize).take 65535 = tlv.value := by
    rw [drop_encode]
    exact List.take_of_length_le (Nat.le_of_lt_succ tlv.fits)
  have type := get16_encode tlv
  cases tlv
  simp only [HelloTlv.ofFrame, HelloTlv.mk.injEq]
  exact ⟨type, value⟩

theorem map_ofFrame (tlvs : List HelloTlv) : (tlvs.map HelloTlv.encode).map HelloTlv.ofFrame = tlvs := by
  rw [List.map_map]
  exact (List.map_congr_left fun tlv _ => ofFrame_encode tlv).trans (List.map_id tlvs)

theorem helloTlvs_encodeAll (tlvs : List HelloTlv) : helloTlvs (HelloTlv.encodeAll tlvs) = some tlvs := by
  obtain ⟨frames, left⟩ := frames_encodeAll tlvs
  rw [helloTlvs, if_pos left, frames, map_ofFrame]

/-- Bytes are a sequence of TLVs, or they have no optional parameters. -/
theorem helloTlvs_cases (buf : List UInt8) :
    (∃ tlvs, HelloTlv.encodeAll tlvs = buf) ∨
      helloTlvs buf = none ∧ ∀ conf af, helloOpts conf af buf = none := by
  by_cases ends : helloTlvFraming.leftover buf = []
  · obtain ⟨tlvs, same, -⟩ := exists_encodeAll ends
    exact Or.inl ⟨tlvs, same⟩
  · refine Or.inr ⟨if_neg ends, fun conf af => ?_⟩
    rw [helloOpts_eq, if_neg ends]

theorem map_last {Found Other : Type} (find : HelloTlv → Option Found) (change : Found → Other)
    (tlvs : List HelloTlv) :
    (HelloTlv.last find tlvs).map change = HelloTlv.last (fun tlv => (find tlv).map change) tlvs := by
  induction tlvs with
  | nil => rfl
  | cons tlv rest inductionHypothesis =>
    rw [HelloTlv.last_cons, HelloTlv.last_cons, ← inductionHypothesis]
    cases HelloTlv.last find rest with
    | none => rfl
    | some found => rfl

theorem last_none {Found : Type} (tlvs : List HelloTlv) :
    HelloTlv.last (fun _ => (none : Option Found)) tlvs = none := by
  induction tlvs with
  | nil => rfl
  | cons tlv rest inductionHypothesis => rw [HelloTlv.last_cons, inductionHypothesis, Option.none_or]

/-- What is read of a Dual-Stack capability. -/
theorem map_recognized_transPref (conf : HelloConf) (tlv : HelloTlv) :
    (tlv.transPref conf).map recognized = if ldpIsDualStack conf then
      tlv.preference.map fun both => if conf.ciscoInterop then both.2 else both.1 else none := by
  rw [HelloTlv.transPref, HelloTlv.preference]
  by_cases dual : ldpIsDualStack conf
  · by_cases type : tlv.type = tlvTypeDualstack
    · rw [if_pos ⟨type, dual⟩, if_pos type, if_pos dual, Option.map_some, Option.map_some,
        readTransPref, ntohs, Native.swap16_load16, Native.swap16_load16]
      by_cases cisco : conf.ciscoInterop
      · rw [if_pos cisco, if_pos cisco]
      · rw [if_neg cisco, if_neg cisco]
    · rw [if_neg fun both => type both.1, if_neg type, if_pos dual]
      rfl
  · rw [if_neg fun both => dual both.2, if_neg dual]
    rfl

theorem map_recognized_last (conf : HelloConf) (tlvs : List HelloTlv) :
    (HelloTlv.last (HelloTlv.transPref conf) tlvs).map recognized = if ldpIsDualStack conf then
      (HelloTlv.last HelloTlv.preference tlvs).map fun both =>
        if conf.ciscoInterop then both.2 else both.1 else none := by
  rw [map_last]
  simp only [map_recognized_transPref]
  by_cases dual : ldpIsDualStack conf
  · simp only [dual, if_true]
    rw [map_last]
  · simp only [dual]
    exact last_none tlvs

/-- Two Hellos that the engine treats alike. -/
structure Hello.Alike (source : HelloSource) (hello other : Hello) : Prop where
  holdtime : (if hello.holdtime = 0 then source.dfltHoldtime else hello.holdtime) =
    if other.holdtime = 0 then source.dfltHoldtime else other.holdtime
  gtsm : hello.gtsm = other.gtsm
  transAddr : hello.transAddr = other.transAddr
  scope : hello.scope = other.scope
  rcvdDs : hello.opts.rcvdDs = other.opts.rcvdDs
  rcvdConf : hello.opts.rcvdConf = other.opts.rcvdConf
  confNumber : hello.opts.confNumber = other.opts.confNumber
  transPref : recognized hello.opts.transPref = recognized other.opts.transPref

theorem recognized_recognized (transPref : UInt16) :
    recognized (recognized transPref) = recognized transPref := by
  by_cases either : transPref = dualStackLdpov4 ∨ transPref = dualStackLdpov6
  · have same : recognized transPref = transPref := if_pos either
    rw [same, same]
  · have zero : recognized transPref = 0 := if_neg either
    rw [zero]
    decide

theorem prefersFamily_recognized (transPref : UInt16) (af : Af) :
    prefersFamily (recognized transPref) af = prefersFamily transPref af := by
  rw [recognized]
  split
  · rfl
  · rename_i unknown
    obtain ⟨ipv4, ipv6⟩ := not_or.mp unknown
    rw [prefersFamily, prefersFamily, beq_false_of_ne ipv4, beq_false_of_ne ipv6]
    cases af with
    | inet | inet6 => rfl

theorem recognized_eq_iff {own : UInt16} (parsed : own = dualStackLdpov4 ∨ own = dualStackLdpov6)
    (transPref : UInt16) : recognized transPref = own ↔ transPref = own := by
  rw [recognized]
  split
  · rfl
  · rename_i unknown
    refine iff_of_false (fun same => ?_) fun same => unknown (same ▸ parsed)
    rcases parsed with rfl | rfl
    · exact absurd same (by decide)
    · exact absurd same (by decide)

theorem checkHello_alike (engine : HelloEngine) (world : HelloWorld) (lsrId : InAddr) (msg : LdpMsg)
    {source : HelloSource} {hello other : Hello} (alike : hello.Alike source other) :
    engine.checkHello world lsrId msg source hello = engine.checkHello world lsrId msg source other := by
  have mismatch : hello.opts.transPref ≠ engine.conf.transPref ↔
      other.opts.transPref ≠ engine.conf.transPref := by
    rw [Ne, Ne, ← recognized_eq_iff engine.prefParsed, alike.transPref,
      recognized_eq_iff engine.prefParsed]
  have prefers : prefersFamily hello.opts.transPref source.af =
      prefersFamily other.opts.transPref source.af := by
    rw [← prefersFamily_recognized, alike.transPref, prefersFamily_recognized]
  have holdtimes (engine : HelloEngine) :
      engine.updateHoldtime source hello.holdtime = engine.updateHoldtime source other.holdtime := by
    rw [HelloEngine.updateHoldtime, alike.holdtime, HelloEngine.updateHoldtime]
  have updates (engine : HelloEngine) :
      engine.updateNbr lsrId hello = engine.updateNbr lsrId other := by
    rw [HelloEngine.updateNbr, HelloEngine.updateNbr, alike.gtsm, alike.rcvdConf, alike.confNumber]
  have accepts : engine.acceptHello world lsrId source hello =
      engine.acceptHello world lsrId source other := by
    simp only [HelloEngine.acceptHello, alike.transAddr, alike.scope, alike.rcvdDs, prefers, holdtimes,
      updates]
  rw [HelloEngine.checkHello, HelloEngine.checkHello, accepts, alike.transAddr, alike.scope,
    alike.rcvdDs]
  exact if_congr (and_congr_right fun _ => mismatch) rfl rfl

/-- The Hello that has been read is treated like what it says. -/
theorem alike_hello (conf : HelloConf) (src : LdpdAddr) (ifindex holdtime : UInt16)
    (source : HelloSource) (tlvs : List HelloTlv) (content : HelloContent)
    (said : content.holdtime = if holdtime = 0 then source.dfltHoldtime else holdtime)
    (number : content.confSeqnum = HelloTlv.last HelloTlv.confNumber tlvs)
    (pref : content.preference = HelloTlv.last HelloTlv.preference tlvs) :
    Hello.Alike source
      { holdtime
        gtsm := content.gtsm
        transAddr := content.transAddr.getD src
        scope := if (content.transAddr.getD src).scoped then ifindex else 0
        opts := .found src.af (tlvs.findSome? (HelloTlv.transAddr src.af))
          (HelloTlv.last HelloTlv.confNumber tlvs) (HelloTlv.last (HelloTlv.transPref conf) tlvs) }
      (content.hello conf src ifindex) := by
  have known : content.transPref conf =
      (HelloTlv.last (HelloTlv.transPref conf) tlvs).map recognized := by
    rw [HelloContent.transPref, pref, map_recognized_last]
  have positive : content.holdtime ≠ 0 := by
    rw [said]
    split
    · cases source with
      | link =>
        show linkDfltHoldtime ≠ 0
        decide
      | targeted =>
        show targetedDfltHoldtime ≠ 0
        decide
    · assumption
  refine ⟨?_, rfl, rfl, rfl, ?_, ?_, ?_, ?_⟩
  · show _ = if content.holdtime = 0 then _ else content.holdtime
    rw [if_neg positive, said]
  · show Option.isSome _ = (content.transPref conf).isSome
    rw [known, Option.isSome_map]
  · show Option.isSome _ = content.confSeqnum.isSome
    rw [number]
  · show Option.getD _ 0 = content.confSeqnum.getD 0
    rw [number]
  · show recognized (Option.getD _ 0) = recognized ((content.transPref conf).getD 0)
    rw [known]
    cases HelloTlv.last (HelloTlv.transPref conf) tlvs with
    | none => rfl
    | some transPref => exact (recognized_recognized transPref).symm

/-- The address that is taken. -/
theorem addr_found (af : Af) (addr : Option LdpdAddr) (number : Option UInt32) (pref : Option UInt16)
    (src : LdpdAddr) :
    (if (HelloOpts.found af addr number pref).rcvdAddr then (HelloOpts.found af addr number pref).addr
      else src) = addr.getD src := by
  cases addr with
  | none => rfl
  | some addr => rfl

/-- `recv_hello` reacts to what a Hello says, and to nothing else of it. -/
theorem recvHello_eq (engine : HelloEngine) (world : HelloWorld) (lsrId : InAddr) (msg : LdpMsg)
    (src : LdpdAddr) (iface : Iface) (multicast : Bool) (buf : List UInt8) :
    engine.recvHello world lsrId msg src iface multicast buf =
      (HelloContent.of src.af buf).elim (some engine)
        (engine.hear world lsrId msg src iface multicast) := by
  rw [HelloEngine.recvHello, HelloContent.of]
  cases prms : tlvDecodeHelloPrms buf with
  | none => rfl
  | some both =>
    obtain ⟨holdtime, flags⟩ := both
    dsimp only
    rcases helloTlvs_cases (buf.drop helloPrmsSize) with ⟨tlvs, same⟩ | ⟨none, refused⟩
    case inr =>
      rw [none, refused]
      dsimp only
      rw [Option.elim_none, ite_self, ite_self, ite_self]
    rw [← same, helloTlvs_encodeAll]
    dsimp only
    generalize flagSet flags fHelloTargeted = targeted
    have refuse {content : HelloContent} (refused : ¬HelloFine src.af holdtime targeted tlvs) :
        Option.elim (if HelloFine src.af holdtime targeted tlvs then some content else none)
          (some engine) (engine.hear world lsrId msg src iface multicast) = some engine := by
      rw [if_neg refused]
      rfl
    rcases helloOpts_cases engine.conf src.af tlvs with ⟨fine, reads⟩ | ⟨refused, reads⟩
    case inr =>
      rw [reads, refuse fun all => refused all.2.1]
      dsimp only
      rw [ite_self, ite_self, ite_self]
    rw [reads]
    dsimp only
    rw [addr_found]
    by_cases short : holdtime ≠ 0 ∧ holdtime < minHoldtime
    · rw [if_pos short, refuse]
      rintro ⟨zero | long, -⟩
      · exact short.1 zero
      · exact absurd short.2 (UInt16.not_lt.mpr long)
    rw [if_neg short]
    have long : holdtime = 0 ∨ minHoldtime ≤ holdtime := by
      by_cases zero : holdtime = 0
      · exact Or.inl zero
      · exact Or.inr (UInt16.not_lt.mp fun less => short ⟨zero, less⟩)
    generalize claims : HelloContent.mk targeted (targeted && flagSet flags fHelloReqTarg)
      (flagSet flags fHelloGtsm) (if holdtime = 0 then dfltHoldtime targeted else holdtime)
      (tlvs.findSome? (HelloTlv.transAddr src.af)) (HelloTlv.last HelloTlv.confNumber tlvs)
      (HelloTlv.last HelloTlv.preference tlvs) = content
    by_cases bad : badAddr ((tlvs.findSome? (HelloTlv.transAddr src.af)).getD src) = true ∨
        ((tlvs.findSome? (HelloTlv.transAddr src.af)).getD src).scoped = true ∧ targeted = true
    · have silent : Option.elim (if HelloFine src.af holdtime targeted tlvs then some content else none)
          (some engine) (engine.hear world lsrId msg src iface multicast) = some engine := by
        subst claims
        split
        · rw [Option.elim_some, HelloEngine.hear]
          dsimp only
          rw [if_pos bad, ite_self]
        · rfl
      rw [silent]
      rcases bad with bad | both
      · rw [if_pos bad, ite_self, ite_self]
      · rw [if_pos both, ite_self, ite_self, ite_self]
    have fine' : HelloFine src.af holdtime targeted tlvs := by
      refine ⟨long, fine, fun addr found => ?_⟩
      rw [Option.mem_def.mp found] at bad
      exact bad
    obtain ⟨good, unscoped⟩ := not_or.mp bad
    rw [if_pos fine', Option.elim_some, if_neg good, if_neg unscoped]
    have alike (source : HelloSource) (default : source.dfltHoldtime = dfltHoldtime targeted)
        (found : HelloEngine) := checkHello_alike found world lsrId msg
      (alike_hello engine.conf src iface.ifindex holdtime source tlvs content
        (by rw [← claims, default]) (by rw [← claims]) (by rw [← claims]))
    subst claims
    rw [HelloEngine.hear]
    dsimp only at alike ⊢
    rw [if_neg bad]
    cases targeted with
    | false =>
      cases multicast with
      | false => rfl
      | true => exact alike (.link iface.ifindex src.af src) rfl engine
    | true =>
      cases multicast with
      | true => rfl
      | false =>
        have alike := alike (.targeted src) rfl
        rw [if_neg (show ¬(false = true ∧ true = true) by decide),
          if_neg (show ¬(¬false = true ∧ ¬true = true) by decide), if_pos (Eq.refl true),
          if_neg Bool.false_ne_true, if_pos (Eq.refl true)]
        exact if_congr Iff.rfl rfl (congrArg (Option.bind (engine.helloTarget src _))
          (funext fun both => if_congr Iff.rfl (alike both.1) rfl))

end Hearing

/-! ### What can be told from the engine -/

/-- The only neighbor of the engine has no adjacency and no session, and it is the one to connect. -/
structure HelloEngine.Lone (engine : HelloEngine) (lsrId : InAddr) (af : Af) (raddr : LdpdAddr)
    (nbr : HelloNbr) : Prop where
  adjs : engine.adjs = []
  entry : ∃ entry : NbrEntry, engine.conn.engine.nbrs[lsrId]? = some entry ∧ entry.nbr.af = af ∧
    entry.nbr.state = .present ∧ entry.nbr.initdelayTimer = false
  raddr : (engine.conn.links lsrId).raddr = raddr
  passive : (engine.conn.links lsrId).active = false
  nbr : engine.nbrs lsrId = nbr

section Telling

variable {engine : HelloEngine} {world : HelloWorld} {lsrId : InAddr} {msg : LdpMsg} {af : Af}
  {raddr : LdpdAddr} {nbr : HelloNbr} {source : HelloSource} {hello : Hello}

theorem take_overlay (addr : LdpdAddr) : addr.overlay.take addr.af.addrSize = addr.bytes := by
  have length : addr.bytes.length = addr.af.addrSize := by
    cases addr with
    | v4 => rfl
    | v6 addr => exact addr.size_toArray
  rw [LdpdAddr.overlay, ← length, List.take_left]

theorem bytes_inj {first second : LdpdAddr} (family : first.af = second.af)
    (same : first.bytes = second.bytes) : first = second := by
  cases first with
  | v4 addr =>
    cases second with
    | v4 addr' =>
      have same := congrArg get32 (show put32 addr = put32 addr' from same)
      rw [← List.append_nil (put32 addr), ← List.append_nil (put32 addr'), get32_put32,
        get32_put32] at same
      rw [same]
    | v6 => cases family
  | v6 addr =>
    cases second with
    | v4 => cases family
    | v6 addr' => exact congrArg LdpdAddr.v6 (Vector.toList_inj.mp same)

theorem ldpAddrSame_iff {first second : LdpdAddr} (family : first.af = af) (other : second.af = af) :
    ldpAddrSame af first second = true ↔ first = second := by
  subst family
  rw [ldpAddrSame, decide_eq_true_iff, take_overlay, ← other, take_overlay]
  exact ⟨bytes_inj other.symm, fun same => congrArg LdpdAddr.bytes same⟩

theorem sameAs_self (source : HelloSource) : source.sameAs source = true := by
  cases source with
  | link => exact decide_eq_true rfl
  | targeted => exact decide_eq_true rfl

theorem HelloEngine.Lone.adjFind (lone : engine.Lone lsrId af raddr nbr) (source : HelloSource) :
    engine.adjFind source = none := by
  rw [HelloEngine.adjFind, lone.adjs]
  rfl

/-- The adjacency that a Hello makes. -/
def adjOf (engine : HelloEngine) (lsrId : InAddr) (source : HelloSource) (hello : Hello) : Adj where
  lsrId := lsrId
  nbr := some lsrId
  source := source
  transAddr := hello.transAddr
  holdtime := min (engine.sourceHoldtime source)
    (if hello.holdtime = 0 then source.dfltHoldtime else hello.holdtime)
  inactivityTimer := min (engine.sourceHoldtime source)
    (if hello.holdtime = 0 then source.dfltHoldtime else hello.holdtime) ≠ infiniteHoldtime

/-- No connection is started to a neighbor that is the one to connect. -/
theorem helloConnect_passive {conn : ConnEngine} (passive : (conn.links lsrId).active = false)
    (outcome : ConnectOutcome) : conn.helloConnect lsrId outcome = some conn := by
  rw [ConnEngine.helloConnect, ConnEngine.guarded]
  split
  · rfl
  · rw [passive, Bool.and_false, Bool.false_and, if_neg Bool.false_ne_true]

theorem updateNbr_idle (engine : HelloEngine) {entry : NbrEntry} (found : engine.conn.engine.nbrs[lsrId]? = some entry)
    (timer : entry.nbr.initdelayTimer = false) :
    engine.updateNbr lsrId hello = some { engine with
      nbrs := Function.update engine.nbrs lsrId { engine.nbrs lsrId with
        gtsmNegotiated := hello.gtsm
        confSeqnum := if hello.opts.rcvdConf then hello.opts.confNumber
          else (engine.nbrs lsrId).confSeqnum } } := by
  rw [HelloEngine.updateNbr, found]
  dsimp only
  rw [if_neg fun all => Bool.false_ne_true (timer.symm.trans all.2.2)]
  rfl

theorem adjs_updateHoldtime {adj : Adj} (one : engine.adjs = [adj]) (same : adj.source = source)
    (received : UInt16) :
    (engine.updateHoldtime source received).adjs = [{ adj with
      holdtime := min (engine.sourceHoldtime source)
        (if received = 0 then source.dfltHoldtime else received)
      inactivityTimer := min (engine.sourceHoldtime source)
        (if received = 0 then source.dfltHoldtime else received) ≠ infiniteHoldtime }] := by
  rw [HelloEngine.updateHoldtime]
  dsimp only
  rw [one, updateFirst, same, sameAs_self, if_pos rfl]
  rfl

/-- A Hello from the neighbor that is accepted makes an adjacency and updates the neighbor. -/
theorem acceptHello_lone (lone : engine.Lone lsrId af raddr nbr) :
    ∃ engine', engine.acceptHello world lsrId source hello = some engine' ∧
      engine'.adjs = [adjOf engine lsrId source hello] ∧
      engine'.nbrs lsrId = { nbr with
        gtsmNegotiated := hello.gtsm
        confSeqnum := if hello.opts.rcvdConf then hello.opts.confNumber else nbr.confSeqnum } := by
  obtain ⟨entry, found, -, state, timer⟩ := lone.entry
  have fresh := lone.adjFind source
  have known : engine.conn.engine.nbrs[lsrId]?.isSome = true := by
    rw [found]
    rfl
  obtain ⟨updated, updates, adjs, nbrs, same⟩ : ∃ updated : HelloEngine,
      (engine.adjNew lsrId (some lsrId) source hello.transAddr).updateNbr lsrId hello = some updated ∧
      updated.adjs = [{ lsrId, nbr := some lsrId, source, transAddr := hello.transAddr }] ∧
      updated.nbrs lsrId = { nbr with
        gtsmNegotiated := hello.gtsm
        confSeqnum := if hello.opts.rcvdConf then hello.opts.confNumber else nbr.confSeqnum } ∧
      updated.conn = engine.conn ∧
      updated.sourceHoldtime source = engine.sourceHoldtime source := by
    refine ⟨_, updateNbr_idle (engine.adjNew lsrId (some lsrId) source hello.transAddr) found timer,
      congrArg (List.cons _) lone.adjs, ?_, rfl, ?_⟩
    · rw [← lone.nbr]
      exact Function.update_self lsrId _ engine.nbrs
    · cases source with
      | link | targeted => rfl
  rw [HelloEngine.acceptHello, fresh]
  dsimp only
  rw [known, if_neg fun starts => starts.1 rfl, if_pos rfl]
  refine ⟨{ updated.updateHoldtime source hello.holdtime with conn := engine.conn },
    (congrArg (Option.bind · _) updates).trans ?_, ?_, nbrs⟩
  · have passive : (updated.conn.links lsrId).active = false := by
      rw [same.1]
      exact lone.passive
    refine (congrArg (Option.bind · _) (helloConnect_passive passive _)).trans ?_
    rw [Option.bind_some, same.1]
  · have changed := adjs_updateHoldtime adjs rfl hello.holdtime
    rw [same.2] at changed
    exact changed

theorem nbrAdjCount_lone (lone : engine.Lone lsrId af raddr nbr) (other : Af) :
    ¬0 < engine.nbrAdjCount lsrId other := by
  rw [HelloEngine.nbrAdjCount, lone.adjs]
  exact Nat.lt_irrefl 0

/-- A Hello with another preference or another transport address makes no adjacency. -/
theorem checkHello_refused (lone : engine.Lone lsrId af raddr nbr) (family : source.af = af)
    (transAddr : hello.transAddr.af = af) (own : raddr.af = af)
    (refused : hello.opts.rcvdDs = true ∧ hello.opts.transPref ≠ engine.conf.transPref ∨
      hello.transAddr ≠ raddr) :
    ∃ engine', engine.checkHello world lsrId msg source hello = some engine' ∧ engine'.adjs = [] := by
  obtain ⟨entry, found, entryAf, state, -⟩ := lone.entry
  rw [HelloEngine.checkHello, lone.adjFind]
  by_cases mismatch : hello.opts.rcvdDs = true ∧ hello.opts.transPref ≠ engine.conf.transPref
  · rw [if_pos mismatch, ConnEngine.shutdown, found]
    dsimp only
    rw [if_pos state]
    exact ⟨_, rfl, lone.adjs⟩
  · have different := refused.resolve_left mismatch
    rw [if_neg mismatch, if_neg fun all => nbrAdjCount_lone lone _ all.2.2, found]
    dsimp only
    rw [if_pos, HelloEngine.dropAdj]
    · exact ⟨engine, rfl, lone.adjs⟩
    · refine ⟨entryAf.trans family.symm, Or.inl fun same => different ?_⟩
      rw [lone.raddr, family, ldpAddrSame_iff own transAddr] at same
      exact same.symm

/-- Any other Hello is accepted. -/
theorem checkHello_taken (lone : engine.Lone lsrId af raddr nbr) (family : source.af = af)
    (own : raddr.af = af)
    (agrees : ¬(hello.opts.rcvdDs = true ∧ hello.opts.transPref ≠ engine.conf.transPref))
    (same : hello.transAddr = raddr) (scope : hello.scope = nbr.raddrScope) :
    engine.checkHello world lsrId msg source hello =
      engine.acceptHello world lsrId source hello := by
  obtain ⟨entry, found, -, -, -⟩ := lone.entry
  rw [HelloEngine.checkHello, if_neg agrees, if_neg fun all => nbrAdjCount_lone lone _ all.2.2, found]
  dsimp only
  rw [if_neg]
  rintro ⟨-, different | different⟩
  · rw [lone.raddr, family, same, ldpAddrSame_iff own own] at different
    exact different rfl
  · rw [lone.nbr] at different
    exact different scope.symm

end Telling

end Ldpd
