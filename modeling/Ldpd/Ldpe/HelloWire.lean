/-
This file sends a Hello over the wire. What `send_hello` writes passes the checks of the
receiver, which reads the holdtime, the flags, the transport address and the transport
preference again. The configuration sequence number is turned to network byte order by the
sender, but not turned back by the receiver.
-/

import Ldpd.Ldpe.Adjacency

namespace Ldpd

open Bytes

/-! ### Bytes of a Hello -/

/-- The value of the Dual-Stack capability. -/
def dualStackValue (conf : HelloConf) : UInt32 :=
  if conf.ciscoInterop then conf.transPref.toUInt32 else conf.transPref.toUInt32 <<< 28

theorem fits_put32 (word : UInt32) : (put32 word).length < 65536 := by
  rw [length_put32]
  decide

theorem length_bytes_transAddr (conf : HelloConf) (af : Af) :
    (conf.transAddr af).bytes.length = af.addrSize := by
  cases af with
  | inet => rfl
  | inet6 => exact Vector.length_toList

/-- The transport address that is sent. -/
def transAddrTlv (conf : HelloConf) (af : Af) : HelloTlv where
  type := HelloTlv.transAddrType af
  value := (conf.transAddr af).bytes
  fits := by
    rw [length_bytes_transAddr]
    cases af <;> decide

/-- The configuration sequence number that is sent. -/
def confTlv (conf : HelloConf) : HelloTlv where
  type := tlvTypeConfig
  value := put32 conf.confSeqnum
  fits := fits_put32 _

/-- The Dual-Stack capability that is sent. -/
def dualStackTlv (conf : HelloConf) : HelloTlv where
  type := tlvTypeDualstack
  value := put32 (dualStackValue conf)
  fits := fits_put32 _

/-- The optional parameters of a Hello. -/
def sentTlvs (conf : HelloConf) (af : Af) : List HelloTlv :=
  transAddrTlv conf af :: confTlv conf :: if ldpIsDualStack conf then [dualStackTlv conf] else []

/-- What follows the header of the first message. -/
def sentParameters (conf : HelloConf) (hello : HelloFrom) : List UInt8 :=
  put16 tlvTypeCommonhello ++ (put16 4 ++ (put16 hello.holdtime ++ (put16 (helloFlags conf hello) ++
    HelloTlv.encodeAll (sentTlvs conf hello.af))))

/-- The datagram. -/
def sentHello (conf : HelloConf) (id : UInt32) (hello : HelloFrom) : List UInt8 :=
  let size := UInt16.ofNat (helloSize conf hello.af)
  put16 ldpVersion ++ (put16 (size - 4) ++ (put32 conf.rtrId ++ (put16 0 ++ (put16 msgTypeHello ++
    (put16 (size - 10 - 4) ++ (put32 id ++ sentParameters conf hello))))))

variable {conf receiver : HelloConf} {id : UInt32} {hello : HelloFrom}

/-- Everything fits in the buffer. -/
theorem foldl_ibufAdd {buf : Ibuf} {parts : List (List UInt8)}
    (fits : buf.bytes.length + parts.flatten.length ≤ buf.size) :
    parts.foldl Ibuf.add buf = { buf with bytes := buf.bytes ++ parts.flatten } := by
  induction parts generalizing buf with
  | nil =>
    rw [List.foldl_nil, List.flatten_nil, List.append_nil]
  | cons part rest inductionHypothesis =>
    rw [List.flatten_cons, List.length_append, ← Nat.add_assoc] at fits
    have here : buf.add part = { buf with bytes := buf.bytes ++ part } :=
      if_pos (Nat.le_trans (Nat.le_add_right _ _) fits)
    rw [List.foldl_cons, here, inductionHypothesis (by rwa [List.length_append]), List.flatten_cons,
      List.append_assoc]

/-- The bytes that `send_hello` puts into the buffer, one call after the other. -/
def helloParts (conf : HelloConf) (id : UInt32) (hello : HelloFrom) : List (List UInt8) :=
  let size := UInt16.ofNat (helloSize conf hello.af)
  [put16 ldpVersion ++ put16 (size - 4) ++ put32 conf.rtrId ++ put16 0,
    put16 msgTypeHello ++ put16 (size - 10 - 4) ++ put32 id,
    put16 tlvTypeCommonhello ++ put16 4 ++ put16 hello.holdtime ++ put16 (helloFlags conf hello)] ++
    (sentTlvs conf hello.af).map HelloTlv.encode

theorem length_encodeAll_sentTlvs (conf : HelloConf) (af : Af) :
    ldpHdrSize + ldpMsgSize + helloPrmsSize + (HelloTlv.encodeAll (sentTlvs conf af)).length =
      helloSize conf af := by
  rw [HelloTlv.encodeAll, List.length_flatten, List.map_map, sentTlvs, List.map_cons, List.map_cons,
    List.sum_cons, List.sum_cons, Function.comp_apply, length_encode, transAddrTlv,
    length_bytes_transAddr]
  cases af with
  | inet | inet6 =>
    simp only [helloSize]
    by_cases dual : ldpIsDualStack conf
    · rw [if_pos dual, if_pos dual]
      rfl
    · rw [if_neg dual, if_neg dual]
      rfl

theorem helloParts_flatten (conf : HelloConf) (id : UInt32) (hello : HelloFrom) :
    (helloParts conf id hello).flatten = sentHello conf id hello := by
  rw [helloParts, List.flatten_append, sentHello, sentParameters, HelloTlv.encodeAll]
  simp only [List.flatten_cons, List.flatten_nil, List.append_nil, List.append_assoc]

theorem length_sentHello (conf : HelloConf) (id : UInt32) (hello : HelloFrom) :
    (sentHello conf id hello).length = helloSize conf hello.af := by
  have tlvs := length_encodeAll_sentTlvs conf hello.af
  simp only [ldpHdrSize, ldpMsgSize, helloPrmsSize] at tlvs
  simp only [sentHello, sentParameters, List.length_append, length_put16, length_put32]
  omega

theorem toNat_helloSize (conf : HelloConf) (af : Af) :
    (UInt16.ofNat (helloSize conf af)).toNat = helloSize conf af := by
  simp only [helloSize]
  cases ldpIsDualStack conf <;> cases af <;> rfl

theorem genTransAddr_eq (conf : HelloConf) (af : Af) (buf : Ibuf) :
    genTransAddr conf af buf = buf.add (transAddrTlv conf af).encode := by
  have length := length_bytes_transAddr conf af
  rw [HelloTlv.encode, transAddrTlv, length]
  cases af with
  | inet =>
    rw [genTransAddr, genOpt4HelloPrmsTlv, htonl, Native.store32_swap32]
    rfl
  | inet6 => rfl

theorem genConfTlv_eq (conf : HelloConf) (buf : Ibuf) :
    genOpt4HelloPrmsTlv tlvTypeConfig (htonl conf.confSeqnum) buf = buf.add (confTlv conf).encode := by
  rw [genOpt4HelloPrmsTlv, htonl, Native.store32_swap32]
  rfl

theorem genDsHelloPrmsTlv_eq (conf : HelloConf) (buf : Ibuf) :
    genDsHelloPrmsTlv conf conf.transPref.toUInt32 buf = buf.add (dualStackTlv conf).encode := by
  rw [genDsHelloPrmsTlv, ← apply_ite htonl, genOpt4HelloPrmsTlv, htonl, Native.store32_swap32]
  rfl

/-- What `send_hello` sends. -/
theorem sendHello_eq (conf : HelloConf) (id : UInt32) (hello : HelloFrom) :
    sendHello conf id hello = some (sentHello conf id hello) := by
  have size := toNat_helloSize conf hello.af
  have written : (helloParts conf id hello).foldl Ibuf.add { size := helloSize conf hello.af } =
      { size := helloSize conf hello.af, bytes := sentHello conf id hello } := by
    refine (foldl_ibufAdd ?_).trans ?_
    · rw [helloParts_flatten, length_sentHello, List.length_nil, Nat.zero_add]
    · rw [helloParts_flatten, List.nil_append]
  have calls : sendHello conf id hello =
      if ((helloParts conf id hello).foldl Ibuf.add { size := helloSize conf hello.af }).err then none
      else some ((helloParts conf id hello).foldl Ibuf.add { size := helloSize conf hello.af }).bytes := by
    simp only [sendHello, genLdpHdr, genMsgHdr, genHelloPrmsTlv, genTransAddr_eq, genConfTlv_eq,
      genDsHelloPrmsTlv_eq, size, helloParts, List.foldl_append, List.foldl_map, sentTlvs,
      List.foldl_cons, List.foldl_nil]
    by_cases dual : ldpIsDualStack conf
    · simp only [if_pos dual, List.foldl_cons, List.foldl_nil]
    · simp only [if_neg dual, List.foldl_nil]
  rw [calls, written]
  rfl
/-! ### The receiver -/

theorem helloSize_cases (conf : HelloConf) (af : Af) : helloSize conf af ∈ [42, 50, 54, 62] := by
  simp only [helloSize]
  cases ldpIsDualStack conf <;> cases af <;> decide

/-- The header checks find the message. -/
theorem discMessage_sentHello (conf : HelloConf) (id : UInt32) (hello : HelloFrom) :
    discMessage (sentHello conf id hello) =
      some (conf.rtrId, ⟨msgTypeHello, UInt16.ofNat (helloSize conf hello.af) - 10 - 4, id⟩,
        sentParameters conf hello) := by
  have version : get16 (sentHello conf id hello) = ldpVersion := get16_put16 _ _
  have length : get16 ((sentHello conf id hello).drop 2) =
      UInt16.ofNat (helloSize conf hello.af) - 4 := get16_put16 _ _
  have rtrId : get32 ((sentHello conf id hello).drop 4) = conf.rtrId := get32_put32 _ _
  have space : get16 ((sentHello conf id hello).drop 8) = 0 := get16_put16 _ _
  have msg : getLdpMsg ((sentHello conf id hello).drop ldpHdrSize) =
      ⟨msgTypeHello, UInt16.ofNat (helloSize conf hello.af) - 10 - 4, id⟩ := by
    have type : get16 ((sentHello conf id hello).drop ldpHdrSize) = msgTypeHello := get16_put16 _ _
    have size : get16 (((sentHello conf id hello).drop ldpHdrSize).drop 2) =
      UInt16.ofNat (helloSize conf hello.af) - 10 - 4 := get16_put16 _ _
    have number : get32 (((sentHello conf id hello).drop ldpHdrSize).drop 4) = id := get32_put32 _ _
    rw [getLdpMsg, type, size, number]
  have rest : (sentHello conf id hello).drop (ldpHdrSize + ldpMsgSize) = sentParameters conf hello := rfl
  rw [discMessage]
  simp only [length_sentHello, version, length, rtrId, space, msg, rest]
  have sizes := helloSize_cases conf hello.af
  generalize helloSize conf hello.af = size at sizes ⊢
  fin_cases sizes <;> rfl

theorem tlvDecodeHelloPrms_sent (conf : HelloConf) (hello : HelloFrom) :
    tlvDecodeHelloPrms (sentParameters conf hello) =
      some (hello.holdtime, helloFlags conf hello) := by
  have long : ¬(sentParameters conf hello).length < helloPrmsSize :=
    Nat.not_lt.mpr (Nat.le_add_left 8 _)
  have type : get16 (sentParameters conf hello) = tlvTypeCommonhello := get16_put16 _ _
  have length : get16 ((sentParameters conf hello).drop 2) = 4 := get16_put16 _ _
  have holdtime : get16 ((sentParameters conf hello).drop 4) = hello.holdtime := get16_put16 _ _
  have flags : get16 ((sentParameters conf hello).drop 6) = helloFlags conf hello := get16_put16 _ _
  rw [tlvDecodeHelloPrms, if_neg long, type, length, holdtime, flags]
  rfl

/-- The number of a configuration as the receiver reads it. -/
def readSeqnum (conf : HelloConf) : UInt32 :=
  Native.swap32 conf.confSeqnum

theorem addrOfBytes_bytes (conf : HelloConf) (af : Af) :
    addrOfBytes af (conf.transAddr af).bytes = conf.transAddr af := by
  cases af with
  | inet =>
    have addr := get32_put32 conf.transAddr4 []
    rw [List.append_nil] at addr
    exact congrArg LdpdAddr.v4 addr
  | inet6 =>
    refine congrArg LdpdAddr.v6 (Vector.ext fun i within => ?_)
    rw [Vector.getElem_ofFn]
    show conf.transAddr6.toList.getD i 0 = _
    rw [List.getD_eq_getElem _ _ (by rwa [Vector.length_toList]), Vector.getElem_toList]

/-- The preference comes back in both layouts. -/
theorem readTransPref_sent (cisco : receiver.ciscoInterop = conf.ciscoInterop)
    (pref : conf.transPref = dualStackLdpov4 ∨ conf.transPref = dualStackLdpov6) :
    readTransPref receiver (dualStackTlv conf).value = conf.transPref := by
  have value : (dualStackTlv conf).value = put32 (dualStackValue conf) := rfl
  rw [readTransPref, value, dualStackValue, cisco]
  cases conf.ciscoInterop with
  | true | false =>
    rcases pref with four | six
    · rw [four]
      decide
    · rw [six]
      decide

theorem config_ne (family : Af) : tlvTypeConfig ≠ HelloTlv.transAddrType family := by
  cases family <;> decide

theorem dualstack_ne (family : Af) : tlvTypeDualstack ≠ HelloTlv.transAddrType family := by
  cases family <;> decide

theorem wellFormed_sent (conf : HelloConf) (af : Af) :
    ∀ tlv ∈ sentTlvs conf af, tlv.WellFormed ∧ ¬tlv.Foreign af := by
  have known : ∀ tlv : HelloTlv, HelloTlv.knownLength tlv.type = some 4 → tlv.value.length = 4 →
      (∀ family, tlv.type ≠ HelloTlv.transAddrType family) → tlv.WellFormed ∧ ¬tlv.Foreign af := by
    intro tlv known length other
    obtain ⟨native, -⟩ := @not_foreign af tlv other
    exact (fine_iff_length known native).mpr length
  have transAddr : (transAddrTlv conf af).WellFormed ∧ ¬(transAddrTlv conf af).Foreign af := by
    constructor
    · rw [HelloTlv.WellFormed, transAddrTlv, knownLength_transAddrType]
      exact length_bytes_transAddr conf af
    · rintro ⟨other, different, type⟩
      exact different (transAddrType_inj type).symm
  have confSeqnum := known (confTlv conf) rfl rfl config_ne
  have dualStack := known (dualStackTlv conf) rfl rfl dualstack_ne
  intro tlv member
  rcases List.mem_cons.mp member with rfl | member
  · exact transAddr
  rcases List.mem_cons.mp member with rfl | member
  · exact confSeqnum
  split at member
  · rw [List.mem_singleton.mp member]
    exact dualStack
  · cases member

/-- The receiver finds what was sent, but for the number of the configuration. -/
theorem helloOpts_sent (af : Af) (dual : ldpIsDualStack receiver = ldpIsDualStack conf)
    (cisco : receiver.ciscoInterop = conf.ciscoInterop)
    (pref : conf.transPref = dualStackLdpov4 ∨ conf.transPref = dualStackLdpov6) :
    helloOpts receiver af (HelloTlv.encodeAll (sentTlvs conf af)) =
      some (.found af (some (conf.transAddr af)) (some (readSeqnum conf))
        (if ldpIsDualStack conf then some conf.transPref else none)) := by
  rcases helloOpts_cases receiver af (sentTlvs conf af) with ⟨-, found⟩ | ⟨refused, -⟩
  case inr => exact absurd (wellFormed_sent conf af) refused
  have addr : (transAddrTlv conf af).transAddr af = some (conf.transAddr af) := by
    rw [HelloTlv.transAddr, transAddrTlv, if_pos rfl, addrOfBytes_bytes]
  have number : (confTlv conf).confNumber = some (readSeqnum conf) := by
    have value := Native.load32_put32 conf.confSeqnum []
    rw [List.append_nil] at value
    exact (if_pos rfl).trans (congrArg some value)
  have numbers : HelloTlv.last HelloTlv.confNumber (sentTlvs conf af) = some (readSeqnum conf) := by
    have others : (transAddrTlv conf af).confNumber = none :=
      if_neg fun same => config_ne af same.symm
    rw [sentTlvs, HelloTlv.last_cons, HelloTlv.last_cons, number, others, Option.or_none]
    split <;> rfl
  have prefs : HelloTlv.last (HelloTlv.transPref receiver) (sentTlvs conf af) =
      if ldpIsDualStack conf then some conf.transPref else none := by
    have others : (transAddrTlv conf af).transPref receiver = none :=
      if_neg fun same => dualstack_ne af same.1.symm
    have config : (confTlv conf).transPref receiver = none :=
      if_neg fun same => absurd (show tlvTypeConfig = tlvTypeDualstack from same.1) (by decide)
    rw [sentTlvs, HelloTlv.last_cons, HelloTlv.last_cons, config, others, Option.or_none,
      Option.or_none]
    split
    · rename_i both
      have capability : (dualStackTlv conf).transPref receiver = some conf.transPref := by
        rw [HelloTlv.transPref, if_pos ⟨rfl, dual.trans both⟩, readTransPref_sent cisco pref]
      rw [HelloTlv.last_cons, capability]
      rfl
    · rfl
  rw [found, numbers, prefs, sentTlvs, List.findSome?_cons, addr]

/-! ### What is heard -/

/-- A Hello as the receiver reads it. -/
structure HeardHello where
  lsrId : InAddr
  msg : LdpMsg
  holdtime : UInt16
  flags : UInt16
  opts : HelloOpts
  deriving DecidableEq

/-- The header checks of `disc_recv_packet` and what `recv_hello` decodes. -/
def readHello (receiver : HelloConf) (af : Af) (datagram : List UInt8) : Option HeardHello :=
  (discMessage datagram).bind fun found =>
    (tlvDecodeHelloPrms found.2.2).bind fun prms =>
      (helloOpts receiver af (found.2.2.drop helloPrmsSize)).map fun opts =>
        { lsrId := found.1, msg := found.2.1, holdtime := prms.1, flags := prms.2, opts }

/-- A Hello as it would be read with this configuration sequence number. -/
def asSent (conf : HelloConf) (id : UInt32) (hello : HelloFrom) (number : UInt32) : HeardHello where
  lsrId := conf.rtrId
  msg := ⟨msgTypeHello, UInt16.ofNat (helloSize conf hello.af) - 10 - 4, id⟩
  holdtime := hello.holdtime
  flags := helloFlags conf hello
  opts := .found hello.af (some (conf.transAddr hello.af)) (some number)
    (if ldpIsDualStack conf then some conf.transPref else none)

/-- Sender and receiver understand each other. -/
structure Understands (receiver conf : HelloConf) : Prop where
  dual : ldpIsDualStack receiver = ldpIsDualStack conf
  cisco : receiver.ciscoInterop = conf.ciscoInterop
  pref : conf.transPref = dualStackLdpov4 ∨ conf.transPref = dualStackLdpov6

/-- Everything but the number is read as it was sent. -/
theorem readHello_sendHello (understands : Understands receiver conf) (id : UInt32)
    (hello : HelloFrom) :
    (sendHello conf id hello).bind (readHello receiver hello.af) =
      some (asSent conf id hello (readSeqnum conf)) := by
  have rest : (sentParameters conf hello).drop helloPrmsSize =
      HelloTlv.encodeAll (sentTlvs conf hello.af) := rfl
  rw [sendHello_eq, Option.bind_some, readHello, discMessage_sentHello, Option.bind_some,
    tlvDecodeHelloPrms_sent, Option.bind_some, rest,
    helloOpts_sent hello.af understands.dual understands.cisco understands.pref, Option.map_some,
    asSent]

/-- The neighbor gets the number that was read. -/
theorem confSeqnum_updateNbr {engine engine' : HelloEngine} {nbr : InAddr} {read : Hello}
    (known : engine.conn.engine.nbrs[nbr]?.isSome) (rcvd : read.opts.rcvdConf)
    (updated : engine.updateNbr nbr read = some engine') :
    (engine'.nbrs nbr).confSeqnum = read.opts.confNumber := by
  obtain ⟨entry, found⟩ := Option.isSome_iff_exists.mp known
  rw [HelloEngine.updateNbr, found] at updated
  dsimp only at updated
  simp only [if_pos rcvd] at updated
  split at updated
  · obtain ⟨conn, -, same⟩ := Option.bind_eq_some_iff.mp updated
    cases same
    show (Function.update engine.nbrs nbr _ nbr).confSeqnum = _
    rw [Function.update_self]
  · obtain ⟨conn, -, same⟩ := Option.bind_eq_some_iff.mp updated
    cases same
    show (Function.update engine.nbrs nbr _ nbr).confSeqnum = _
    rw [Function.update_self]

/-- A Hello of the sender as the receiver has accepted it. -/
def HearsHello (receiver conf : HelloConf) (id : UInt32) (hello : HelloFrom) (read : Hello) : Prop :=
  ∃ heard, (sendHello conf id hello).bind (readHello receiver hello.af) = some heard ∧
    read.opts = heard.opts

theorem HearsHello.opts {read : Hello} (hears : HearsHello receiver conf id hello read)
    (understands : Understands receiver conf) :
    read.opts = (asSent conf id hello (readSeqnum conf)).opts := by
  obtain ⟨heard, sent, same⟩ := hears
  rw [readHello_sendHello understands] at sent
  cases sent
  exact same

/-- A Hello is read as it was sent if and only if its configuration sequence number is the same in both
byte orders, and the number of a neighbor goes up with that of the sender if and only if it does so
with the bytes in the opposite order. -/
theorem hello_survives_iff (understands : Understands receiver conf) (id : UInt32)
    (hello : HelloFrom) :
    ((sendHello conf id hello).bind (readHello receiver hello.af) =
        some (asSent conf id hello conf.confSeqnum) ↔
      Native.swap32 conf.confSeqnum = conf.confSeqnum) ∧
    ∀ (later : HelloConf) (id' : UInt32) (hello' : HelloFrom), Understands receiver later →
      conf.confSeqnum < later.confSeqnum →
      ∀ (read read' : Hello) (nbr : InAddr) (engine engine' engine'' : HelloEngine),
        HearsHello receiver conf id hello read → HearsHello receiver later id' hello' read' →
        engine.conn.engine.nbrs[nbr]?.isSome → engine'.conn.engine.nbrs[nbr]?.isSome →
        engine.updateNbr nbr read = some engine' → engine'.updateNbr nbr read' = some engine'' →
        ((engine'.nbrs nbr).confSeqnum < (engine''.nbrs nbr).confSeqnum ↔
          Native.swap32 conf.confSeqnum < Native.swap32 later.confSeqnum) := by
  constructor
  · rw [readHello_sendHello understands, Option.some_inj]
    refine ⟨fun same => ?_, fun same => ?_⟩
    · exact congrArg (fun heard : HeardHello => heard.opts.confNumber) same
    · rw [readSeqnum, same]
  · intro later id' hello' understands' _ read read' nbr engine engine' engine'' hears hears' known
      known' updated updated'
    have opts := hears.opts understands
    have opts' := hears'.opts understands'
    rw [confSeqnum_updateNbr known (by rw [opts]; rfl) updated,
      confSeqnum_updateNbr known' (by rw [opts']; rfl) updated', opts, opts']
    rfl

/-- A router with one family. -/
def singleStack (confSeqnum : UInt32) : HelloConf where
  rtrId := 0x0a000001
  enabled := fun af => af = .inet
  noGtsm := false
  transAddr4 := 0x0a000001
  transAddr6 := Vector.replicate 16 0
  transPref := dualStackLdpov6
  ciscoInterop := false
  confSeqnum

theorem understands_singleStack (one other : UInt32) :
    Understands (singleStack one) (singleStack other) :=
  ⟨rfl, rfl, .inr rfl⟩

/-- The number 256 is read as a smaller one than the number 255. -/
theorem singleStack_turned :
    (sendHello (singleStack 256) 1 (.link .inet 15)).bind (readHello (singleStack 1) .inet) ≠
        some (asSent (singleStack 256) 1 (.link .inet 15) 256) ∧
      ((sendHello (singleStack 256) 1 (.link .inet 15)).bind (readHello (singleStack 1) .inet)).map
        (fun heard => heard.opts.confNumber) = some 0x00010000 ∧
      ((sendHello (singleStack 255) 1 (.link .inet 15)).bind (readHello (singleStack 1) .inet)).map
        (fun heard => heard.opts.confNumber) = some 0xff000000 := by
  decide +kernel

/-- A receiver that knows the router. -/
def acquainted : HelloEngine where
  conf := singleStack 1
  thelloHoldtime _ := infiniteHoldtime
  ifaceHoldtime _ _ := infiniteHoldtime
  pointToPoint _ := false
  tnbrHoldtime _ := infiniteHoldtime
  discovery := {}
  adjs := []
  nbrs _ := { dsTlv := false, raddrScope := 0 }
  conn := {
    engine := {
      conf := plainConf
      nbrs := Std.ExtTreeMap.insert ∅ 0x0a000001
        { nbr := .fresh 0x0a000001 .inet false, lists := fun _ => [], sent := [] } }
    links _ := { laddr := .v4 0x0a000002, raddr := .v4 0x0a000001 } }
  prefParsed := .inr rfl

/-- A Hello of the router, as it is read. -/
def singleStackHello (number : UInt32) : Hello where
  holdtime := 15
  gtsm := false
  transAddr := .v4 0x0a000001
  scope := 0
  opts := (asSent (singleStack number) 1 (.link .inet 15) (readSeqnum (singleStack number))).opts

/-- The receiver after a Hello of the router. -/
def HelloEngine.hearNumber (engine : HelloEngine) (number : UInt32) : HelloEngine :=
  (engine.updateNbr 0x0a000001 (singleStackHello number)).getD engine

theorem hello_survives_iff_singleStack :
    (sendHello (singleStack 0x01000001) 1 (.link .inet 15)).bind (readHello (singleStack 1) .inet) =
        some (asSent (singleStack 0x01000001) 1 (.link .inet 15) 0x01000001) ∧
      ((acquainted.hearNumber 0x01000001).nbrs 0x0a000001).confSeqnum <
        (((acquainted.hearNumber 0x01000001).hearNumber 0x02000002).nbrs 0x0a000001).confSeqnum := by
  have understands := understands_singleStack 1
  have heard (number : UInt32) : HearsHello (singleStack 1) (singleStack number) 1 (.link .inet 15)
      (singleStackHello number) :=
    ⟨_, readHello_sendHello (understands number) 1 _, rfl⟩
  have survives := hello_survives_iff (understands 0x01000001) 1 (.link .inet 15)
  refine ⟨survives.1.mpr rfl, (survives.2 (singleStack 0x02000002) 1 (.link .inet 15)
    (understands 0x02000002) (by decide) _ _ 0x0a000001 acquainted _ _ (heard 0x01000001)
    (heard 0x02000002) ?_ ?_ ?_ ?_).mpr (by decide)⟩
  · decide +kernel
  · decide +kernel
  · rfl
  · rfl

end Ldpd
