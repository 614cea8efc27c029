/-
This file is the Hello message: the writers and readers of `hello.c`, with the header
checks that `disc_recv_packet` makes before it hands a Hello over, and which of its
optional parameters a Hello is read to have.

The host stores the low byte of a word first. Some fields go through `htonl` and
`ntohl`, others are copied as they lie in memory.
-/

import Ldpd.Ldpe.Decode
import Ldpd.Library.Frames
import Ldpd.Library.Native

namespace Ldpd

open Bytes

/-! ### Numbers -/

def msgTypeHello : UInt16 := 0x0100

/-- `TLV_TYPE_COMMONHELLO` and the optional parameters of a Hello. -/
def tlvTypeCommonhello : UInt16 := 0x0400
def tlvTypeIpv4transaddr : UInt16 := 0x0401
def tlvTypeConfig : UInt16 := 0x0402
def tlvTypeIpv6transaddr : UInt16 := 0x0403
def tlvTypeDualstack : UInt16 := 0x8701

/-- `sizeof(struct hello_prms_tlv)` and the sizes of the optional parameters. -/
def helloPrmsSize : Nat := 8
def helloPrmsOpt4Size : Nat := 8
def helloPrmsOpt16Size : Nat := 20

/-- `F_HELLO_TARGETED` and the other flags of a Hello. -/
def fHelloTargeted : UInt16 := 0x8000
def fHelloReqTarg : UInt16 := 0x4000
def fHelloGtsm : UInt16 := 0x2000

/-- `DUAL_STACK_LDPOV4` and `DUAL_STACK_LDPOV6`. -/
def dualStackLdpov4 : UInt16 := 4
def dualStackLdpov6 : UInt16 := 6

def htonl : UInt32 → UInt32 := Native.swap32
def ntohs : UInt16 → UInt16 := Native.swap16

/-! ### Writers -/

/-- What the Hello functions read of the configuration, and `global.conf_seqnum`. -/
structure HelloConf where
  rtrId : InAddr
  enabled : Af → Bool
  noGtsm : Bool
  transAddr4 : InAddr
  transAddr6 : In6Addr
  transPref : UInt16
  ciscoInterop : Bool
  confSeqnum : UInt32

/-- `ldp_is_dual_stack`. -/
def ldpIsDualStack (conf : HelloConf) : Bool :=
  conf.enabled .inet && conf.enabled .inet6

/-- The transport address of a family. -/
def HelloConf.transAddr (conf : HelloConf) : Af → LdpdAddr
  | .inet => .v4 conf.transAddr4
  | .inet6 => .v6 conf.transAddr6

/-- What `send_hello` is called for: an interface, or a targeted neighbor. -/
inductive HelloFrom where
  | link (af : Af) (holdtime : UInt16)
  | targeted (af : Af) (holdtime : UInt16) (configured : Bool) (pwCount : UInt16)

def HelloFrom.af : HelloFrom → Af
  | .link af _ => af
  | .targeted af .. => af

def HelloFrom.holdtime : HelloFrom → UInt16
  | .link _ holdtime => holdtime
  | .targeted _ holdtime .. => holdtime

/-- The flags of a Hello. -/
def helloFlags (conf : HelloConf) : HelloFrom → UInt16
  | .link .inet _ => if conf.noGtsm then 0 else fHelloGtsm
  | .link .inet6 _ => 0
  | .targeted _ _ configured pwCount =>
    if configured ∨ pwCount ≠ 0 then fHelloTargeted ||| fHelloReqTarg else fHelloTargeted

/-- `gen_hello_prms_tlv`. -/
def genHelloPrmsTlv (holdtime flags : UInt16) (buf : Ibuf) : Ibuf :=
  buf.add (put16 tlvTypeCommonhello ++ put16 4 ++ put16 holdtime ++ put16 flags)

/-- `gen_opt4_hello_prms_tlv`. The value is copied as it lies in memory. -/
def genOpt4HelloPrmsTlv (type : UInt16) (value : UInt32) (buf : Ibuf) : Ibuf :=
  buf.add (put16 type ++ put16 4 ++ Native.store32 value)

/-- `gen_opt16_hello_prms_tlv`. -/
def genOpt16HelloPrmsTlv (type : UInt16) (value : In6Addr) (buf : Ibuf) : Ibuf :=
  buf.add (put16 type ++ put16 16 ++ value.toList)

/-- `gen_ds_hello_prms_tlv`. -/
def genDsHelloPrmsTlv (conf : HelloConf) (value : UInt32) (buf : Ibuf) : Ibuf :=
  genOpt4HelloPrmsTlv tlvTypeDualstack
    (if conf.ciscoInterop then htonl value else htonl (value <<< 28)) buf

/-- The transport address that `send_hello` writes. `s_addr` is in network byte order. -/
def genTransAddr (conf : HelloConf) (af : Af) (buf : Ibuf) : Ibuf :=
  match af with
  | .inet => genOpt4HelloPrmsTlv tlvTypeIpv4transaddr (htonl conf.transAddr4) buf
  | .inet6 => genOpt16HelloPrmsTlv tlvTypeIpv6transaddr conf.transAddr6 buf

/-- The size of a Hello. -/
def helloSize (conf : HelloConf) (af : Af) : Nat :=
  ldpHdrSize + ldpMsgSize + helloPrmsSize +
    (match af with
      | .inet => helloPrmsOpt4Size
      | .inet6 => helloPrmsOpt16Size) +
    helloPrmsOpt4Size + if ldpIsDualStack conf then helloPrmsOpt4Size else 0

/-- `send_hello`, with the id that `gen_msg_hdr` counts up to: the datagram it sends, if it sends one. -/
def sendHello (conf : HelloConf) (id : UInt32) (hello : HelloFrom) : Option (List UInt8) :=
  let size := UInt16.ofNat (helloSize conf hello.af)
  let buf := genLdpHdr conf.rtrId size { size := size.toNat }
  let buf := genMsgHdr id msgTypeHello (size - 10) buf
  let buf := genHelloPrmsTlv hello.holdtime (helloFlags conf hello) buf
  let buf := genTransAddr conf hello.af buf
  let buf := genOpt4HelloPrmsTlv tlvTypeConfig (htonl conf.confSeqnum) buf
  let buf := if ldpIsDualStack conf then genDsHelloPrmsTlv conf conf.transPref.toUInt32 buf else buf
  if buf.err then none else some buf.bytes

/-! ### Readers -/

/-- The header checks of `disc_recv_packet`: the LSR-ID, the header of the first message, and what
comes after that header, up to the end of the datagram. -/
def discMessage (datagram : List UInt8) : Option (InAddr × LdpMsg × List UInt8) :=
  let len := datagram.length
  if len < ldpHdrSize + ldpMsgSize ∨ ldpMaxLen.toNat < len then none
  else if get16 datagram ≠ ldpVersion then none
  else if get16 (datagram.drop 8) ≠ 0 then none
  else
    let pduLen := (get16 (datagram.drop 2)).toNat
    if pduLen < ldpHdrPduLen + ldpMsgSize ∨ len - ldpHdrDeadLen < pduLen then none
    else
      let msg := getLdpMsg (datagram.drop ldpHdrSize)
      if msg.length.toNat < ldpMsgLen ∨ pduLen < msg.length.toNat + ldpMsgDeadLen then none
      else some (get32 (datagram.drop 4), msg, datagram.drop (ldpHdrSize + ldpMsgSize))

/-- `tlv_decode_hello_prms`: the holdtime and the flags. -/
def tlvDecodeHelloPrms (buf : List UInt8) : Option (UInt16 × UInt16) :=
  if buf.length < helloPrmsSize then none
  else if get16 buf ≠ tlvTypeCommonhello then none
  else if (get16 (buf.drop 2)).toNat ≠ helloPrmsSize - tlvHdrSize then none
  else some (get16 (buf.drop 4), get16 (buf.drop 6))

/-- What `tlv_decode_opt_hello_prms` finds; the first three are the flags of `tlvs_rcvd`. -/
structure HelloOpts where
  rcvdAddr : Bool := false
  rcvdConf : Bool := false
  rcvdDs : Bool := false
  addr : LdpdAddr
  confNumber : UInt32 := 0
  transPref : UInt16 := 0
  deriving DecidableEq

/-- What is there before the first TLV. -/
def HelloOpts.cleared (af : Af) : HelloOpts where
  addr := addrOfBytes af []

/-- What is there when these have been found. -/
def HelloOpts.found (af : Af) (addr : Option LdpdAddr) (confNumber : Option UInt32)
    (transPref : Option UInt16) : HelloOpts where
  rcvdAddr := addr.isSome
  rcvdConf := confNumber.isSome
  rcvdDs := transPref.isSome
  addr := addr.getD (addrOfBytes af [])
  confNumber := confNumber.getD 0
  transPref := transPref.getD 0

/-- The two transport address cases: the first address of the family of the packet is taken. -/
def readTransAddr (af tlvAf : Af) (value : List UInt8) (opts : HelloOpts) : Option HelloOpts :=
  if value.length ≠ tlvAf.addrSize then none
  else if af ≠ tlvAf then none
  else if opts.rcvdAddr then some opts
  else some { opts with addr := addrOfBytes tlvAf value, rcvdAddr := true }

/-- The transport preference of a Dual-Stack capability. -/
def readTransPref (conf : HelloConf) (value : List UInt8) : UInt16 :=
  if conf.ciscoInterop then ntohs (Native.load16 (value.drop 2))
  else ntohs (Native.load16 value) >>> 12

/-- The body of the loop of `tlv_decode_opt_hello_prms`, for a TLV that is all there. -/
def readHelloTlv (conf : HelloConf) (af : Af) (type : UInt16) (value : List UInt8)
    (opts : HelloOpts) : Option HelloOpts :=
  if type = tlvTypeIpv4transaddr then readTransAddr af .inet value opts
  else if type = tlvTypeIpv6transaddr then readTransAddr af .inet6 value opts
  else if type = tlvTypeConfig then
    if value.length ≠ 4 then none
    else some { opts with confNumber := Native.load32 value, rcvdConf := true }
  else if type = tlvTypeDualstack then
    if value.length ≠ 4 then none
    else if ¬ldpIsDualStack conf then some opts
    else some { opts with transPref := readTransPref conf value, rcvdDs := true }
  else if type &&& unknownFlag = 0 then none
  else some opts

/-- The loop of `tlv_decode_opt_hello_prms`. Every round takes at least a TLV header. -/
def readHelloTlvs (conf : HelloConf) (af : Af) : Nat → List UInt8 → Nat → HelloOpts →
    Option (Nat × HelloOpts)
  | 0, _, total, opts => some (total, opts)
  | rounds + 1, buf, total, opts =>
    if buf.length < tlvHdrSize then some (total, opts)
    else
      let tlvLen := (get16 (buf.drop 2)).toNat
      if buf.length < tlvLen + tlvHdrSize then none
      else
        match readHelloTlv conf af (get16 buf) ((buf.drop tlvHdrSize).take tlvLen) opts with
        | none => none
        | some opts =>
          readHelloTlvs conf af rounds (buf.drop (tlvHdrSize + tlvLen))
            (total + tlvHdrSize + tlvLen) opts

/-- `tlv_decode_opt_hello_prms`: how many bytes it has read, and what it has found. -/
def tlvDecodeOptHelloPrms (conf : HelloConf) (af : Af) (buf : List UInt8) : Option (Nat × HelloOpts) :=
  readHelloTlvs conf af buf.length buf 0 (.cleared af)

/-- The optional parameters as `recv_hello` accepts them: all bytes have been read. -/
def helloOpts (conf : HelloConf) (af : Af) (buf : List UInt8) : Option HelloOpts :=
  match tlvDecodeOptHelloPrms conf af buf with
  | none => none
  | some (total, opts) => if total = buf.length then some opts else none

/-! ### Optional parameters -/

/-- Cut the first TLV off. -/
def helloTlvCut (input : List UInt8) : Option (List UInt8 × List UInt8) :=
  if input.length < tlvHdrSize ∨ input.length < (get16 (input.drop 2)).toNat + tlvHdrSize then none
  else
    some (input.take ((get16 (input.drop 2)).toNat + tlvHdrSize),
      input.drop ((get16 (input.drop 2)).toNat + tlvHdrSize))

theorem helloTlvCut_eq {input frame rest : List UInt8} (cut : helloTlvCut input = some (frame, rest)) :
    tlvHdrSize ≤ input.length ∧ (get16 (input.drop 2)).toNat + tlvHdrSize ≤ input.length ∧
      frame = input.take ((get16 (input.drop 2)).toNat + tlvHdrSize) ∧
      rest = input.drop ((get16 (input.drop 2)).toNat + tlvHdrSize) := by
  rw [helloTlvCut] at cut
  split at cut
  · cases cut
  · rename_i long
    obtain ⟨header, body⟩ := not_or.mp long
    cases cut
    exact ⟨Nat.not_lt.mp header, Nat.not_lt.mp body, rfl, rfl⟩

theorem helloTlvCut_append {input frame rest : List UInt8} (more : List UInt8)
    (cut : helloTlvCut input = some (frame, rest)) :
    helloTlvCut (input ++ more) = some (frame, rest ++ more) := by
  obtain ⟨header, body, rfl, rfl⟩ := helloTlvCut_eq cut
  have length : get16 ((input ++ more).drop 2) = get16 (input.drop 2) := by
    rw [List.drop_append_of_le_length (Nat.le_trans (by decide) header)]
    refine get16_append more ?_
    rw [List.length_drop]
    exact Nat.le_sub_of_add_le header
  rw [helloTlvCut, length, List.length_append, if_neg (by omega), List.take_append_of_le_length body,
    List.drop_append_of_le_length body]

/-- TLVs are frames. -/
def helloTlvFraming : Framing UInt8 where
  cut := helloTlvCut
  whole cut := by
    obtain ⟨-, -, rfl, rfl⟩ := helloTlvCut_eq cut
    exact List.take_append_drop _ _
  positive cut := by
    obtain ⟨header, body, rfl, -⟩ := helloTlvCut_eq cut
    rw [← List.length_pos_iff, List.length_take_of_le body]
    exact Nat.lt_of_lt_of_le (by decide) (Nat.le_add_left tlvHdrSize _)
  extend := helloTlvCut_append

/-- One round, for the first TLV. -/
def readHelloFrame (conf : HelloConf) (af : Af) (opts : HelloOpts) (frame : List UInt8) :
    Option HelloOpts :=
  readHelloTlv conf af (get16 frame) (frame.drop tlvHdrSize) opts

section Reading

variable {conf : HelloConf} {af : Af}

/-- The loop takes the TLVs one after the other and then looks at what is left over. -/
theorem readHelloTlvs_eq (rounds : Nat) (buf : List UInt8) (total : Nat) (opts : HelloOpts)
    (enough : buf.length ≤ rounds) :
    readHelloTlvs conf af rounds buf total opts =
      ((helloTlvFraming.frames buf).foldlM (readHelloFrame conf af) opts).bind fun opts =>
        if (helloTlvFraming.leftover buf).length < tlvHdrSize then
          some (total + (buf.length - (helloTlvFraming.leftover buf).length), opts)
        else none := by
  induction rounds generalizing buf total opts with
  | zero =>
    obtain rfl := List.length_eq_zero_iff.mp (Nat.le_zero.mp enough)
    have part : helloTlvFraming.cut [] = none := rfl
    rw [Framing.frames_of_none part, Framing.leftover_of_none part]
    rfl
  | succ rounds inductionHypothesis =>
    rw [readHelloTlvs]
    by_cases short : buf.length < tlvHdrSize
    · have part : helloTlvFraming.cut buf = none := if_pos (Or.inl short)
      rw [if_pos short, Framing.frames_of_none part, Framing.leftover_of_none part, List.foldlM_nil]
      show _ = Option.bind (some opts) _
      rw [Option.bind_some, if_pos short, Nat.sub_self, Nat.add_zero]
    rw [if_neg short]
    dsimp only
    by_cases part : buf.length < (get16 (buf.drop 2)).toNat + tlvHdrSize
    · have part' : helloTlvFraming.cut buf = none := if_pos (Or.inr part)
      rw [if_pos part, Framing.frames_of_none part', Framing.leftover_of_none part', List.foldlM_nil]
      show _ = Option.bind (some opts) _
      rw [Option.bind_some, if_neg short]
    have cut : helloTlvFraming.cut buf =
        some (buf.take ((get16 (buf.drop 2)).toNat + tlvHdrSize),
          buf.drop ((get16 (buf.drop 2)).toNat + tlvHdrSize)) :=
      if_neg (not_or.mpr ⟨short, part⟩)
    have left := @Framing.length_leftover_le _ helloTlvFraming
      (buf.drop ((get16 (buf.drop 2)).toNat + tlvHdrSize))
    rw [List.length_drop] at left
    have header : get16 (buf.take ((get16 (buf.drop 2)).toNat + tlvHdrSize)) = get16 buf := by
      have long : 2 ≤ (buf.take ((get16 (buf.drop 2)).toNat + tlvHdrSize)).length := by
        rw [List.length_take_of_le (Nat.not_lt.mp part)]
        exact Nat.le_trans (by decide) (Nat.le_add_left tlvHdrSize _)
      have front := get16_append (buf.drop ((get16 (buf.drop 2)).toNat + tlvHdrSize)) long
      rw [List.take_append_drop] at front
      exact front.symm
    have value : (buf.take ((get16 (buf.drop 2)).toNat + tlvHdrSize)).drop tlvHdrSize =
        (buf.drop tlvHdrSize).take (get16 (buf.drop 2)).toNat := by
      rw [List.drop_take, Nat.add_sub_cancel]
    rw [if_neg part, Framing.frames_of_some cut, Framing.leftover_of_some cut, List.foldlM_cons,
      readHelloFrame, header, value]
    cases readHelloTlv conf af (get16 buf) ((buf.drop tlvHdrSize).take (get16 (buf.drop 2)).toNat)
        opts with
    | none => rfl
    | some opts =>
      dsimp only
      rw [Nat.add_comm tlvHdrSize, inductionHypothesis _ _ _ (by
        rw [List.length_drop]
        simp only [tlvHdrSize] at *
        omega)]
      show _ = Option.bind (List.foldlM _ _ _) _
      refine congrArg _ (funext fun opts => ?_)
      refine if_congr Iff.rfl (congrArg some (Prod.ext ?_ rfl)) rfl
      rw [List.length_drop]
      dsimp only
      omega

/-- The optional parameters are read to the end if every TLV is read and nothing is left over. -/
theorem helloOpts_eq (conf : HelloConf) (af : Af) (buf : List UInt8) :
    helloOpts conf af buf =
      if helloTlvFraming.leftover buf = [] then
        (helloTlvFraming.frames buf).foldlM (readHelloFrame conf af) (.cleared af)
      else none := by
  rw [helloOpts, tlvDecodeOptHelloPrms, readHelloTlvs_eq buf.length buf 0 _ (Nat.le_refl _)]
  have left := @Framing.length_leftover_le _ helloTlvFraming buf
  cases (helloTlvFraming.frames buf).foldlM (readHelloFrame conf af) (.cleared af) with
  | none => exact (ite_self none).symm
  | some opts =>
    rw [Option.bind_some]
    by_cases ends : helloTlvFraming.leftover buf = []
    · rw [if_pos ends, ends, List.length_nil, if_pos (by decide)]
      dsimp only
      rw [if_pos (by omega)]
    · have some' := List.length_pos_iff.mpr ends
      rw [if_neg ends]
      split
      · rfl
      · rename_i read
        split at read
        · cases read
          rw [if_neg (by omega)]
        · cases read

end Reading

/-! ### Sequences of TLVs -/

/-- A TLV. -/
structure HelloTlv where
  type : UInt16
  value : List UInt8
  fits : value.length < 65536

namespace HelloTlv

/-- The bytes of a TLV. -/
def encode (tlv : HelloTlv) : List UInt8 :=
  put16 tlv.type ++ put16 (UInt16.ofNat tlv.value.length) ++ tlv.value

/-- The bytes of a sequence of TLVs. -/
def encodeAll (tlvs : List HelloTlv) : List UInt8 :=
  (tlvs.map encode).flatten

/-- The length of the value of an optional parameter that is known. -/
def knownLength (type : UInt16) : Option Nat :=
  if type = tlvTypeIpv4transaddr then some 4
  else if type = tlvTypeIpv6transaddr then some 16
  else if type = tlvTypeConfig then some 4
  else if type = tlvTypeDualstack then some 4
  else none

/-- A known TLV has its correct length, and an unknown one has the U bit. -/
def WellFormed (tlv : HelloTlv) : Prop :=
  match knownLength tlv.type with
  | some length => tlv.value.length = length
  | none => tlv.type &&& unknownFlag ≠ 0

/-- The type of the transport address of a family. -/
def transAddrType : Af → UInt16
  | .inet => tlvTypeIpv4transaddr
  | .inet6 => tlvTypeIpv6transaddr

/-- The transport address of a family that a TLV has. -/
def transAddr (af : Af) (tlv : HelloTlv) : Option LdpdAddr :=
  if tlv.type = transAddrType af then some (addrOfBytes af tlv.value) else none

/-- A transport address of the family that the packet does not have. -/
def Foreign (af : Af) (tlv : HelloTlv) : Prop :=
  ∃ other, other ≠ af ∧ tlv.type = transAddrType other

/-- The configuration sequence number that a TLV has. -/
def confNumber (tlv : HelloTlv) : Option UInt32 :=
  if tlv.type = tlvTypeConfig then some (Native.load32 tlv.value) else none

/-- The transport preference that a TLV has for a router with both families. -/
def transPref (conf : HelloConf) (tlv : HelloTlv) : Option UInt16 :=
  if tlv.type = tlvTypeDualstack ∧ ldpIsDualStack conf then some (readTransPref conf tlv.value)
  else none

/-- What the last TLV that has something has. -/
def last {Found : Type} (find : HelloTlv → Option Found) (tlvs : List HelloTlv) : Option Found :=
  tlvs.reverse.findSome? find

theorem last_cons {Found : Type} (find : HelloTlv → Option Found) (tlv : HelloTlv)
    (rest : List HelloTlv) : last find (tlv :: rest) = (last find rest).or (find tlv) := by
  rw [last, List.reverse_cons, List.findSome?_append, List.findSome?_singleton]
  rfl

end HelloTlv

section Sequences

variable {conf : HelloConf} {af : Af}

theorem get16_encode (tlv : HelloTlv) : get16 tlv.encode = tlv.type := by
  rw [HelloTlv.encode, List.append_assoc, get16_put16]

theorem drop_encode (tlv : HelloTlv) : tlv.encode.drop tlvHdrSize = tlv.value := rfl

theorem length_encode (tlv : HelloTlv) : tlv.encode.length = tlv.value.length + tlvHdrSize := rfl

theorem helloTlvCut_encode (tlv : HelloTlv) (rest : List UInt8) :
    helloTlvCut (tlv.encode ++ rest) = some (tlv.encode, rest) := by
  have length : get16 ((tlv.encode ++ rest).drop 2) = UInt16.ofNat tlv.value.length := by
    rw [HelloTlv.encode, List.append_assoc, List.append_assoc]
    show get16 (put16 (UInt16.ofNat tlv.value.length) ++ (tlv.value ++ rest)) = _
    rw [get16_put16]
  have size : (get16 ((tlv.encode ++ rest).drop 2)).toNat + tlvHdrSize = tlv.encode.length := by
    rw [length, UInt16.toNat_ofNat', Nat.mod_eq_of_lt tlv.fits, length_encode]
  have header : tlvHdrSize ≤ tlv.encode.length := by
    rw [length_encode]
    exact Nat.le_add_left _ _
  rw [helloTlvCut, size, List.length_append, if_neg (by omega), List.take_left, List.drop_left]

/-- Every TLV that is cut off has a type and a value. -/
theorem encode_of_cut {input frame rest : List UInt8} (cut : helloTlvCut input = some (frame, rest)) :
    ∃ tlv : HelloTlv, tlv.encode = frame := by
  obtain ⟨header, body, rfl, -⟩ := helloTlvCut_eq cut
  have size := (get16 (input.drop 2)).toNat_lt
  have length : ((input.drop tlvHdrSize).take (get16 (input.drop 2)).toNat).length =
      (get16 (input.drop 2)).toNat := by
    refine List.length_take_of_le ?_
    rw [List.length_drop]
    exact Nat.le_sub_of_add_le body
  refine ⟨⟨get16 input, (input.drop tlvHdrSize).take (get16 (input.drop 2)).toNat, ?_⟩, ?_⟩
  · rw [length]
    exact size
  show put16 (get16 input) ++ put16 (UInt16.ofNat (List.take _ (input.drop tlvHdrSize)).length) ++
    List.take _ (input.drop tlvHdrSize) = _
  rw [length, UInt16.ofNat_toNat]
  obtain _ | ⟨first, _ | ⟨second, _ | ⟨third, _ | ⟨fourth, rest⟩⟩⟩⟩ := input
  · cases header
  · exact absurd (show 4 ≤ 1 from header) (by decide)
  · exact absurd (show 4 ≤ 2 from header) (by decide)
  · exact absurd (show 4 ≤ 3 from header) (by decide)
  · show put16 (word16 first second) ++ put16 (word16 third fourth) ++ _ = _
    rw [put16_word16, put16_word16]
    rfl

theorem encode_of_mem_frames {input frame : List UInt8} (member : frame ∈ helloTlvFraming.frames input) :
    ∃ tlv : HelloTlv, tlv.encode = frame := by
  induction size : input.length using Nat.strongRecOn generalizing input with
  | ind size inductionHypothesis =>
    cases cut : helloTlvFraming.cut input with
    | none =>
      rw [Framing.frames_of_none cut] at member
      exact absurd member List.not_mem_nil
    | some both =>
      rw [Framing.frames_of_some cut] at member
      rcases List.mem_cons.mp member with rfl | later
      · exact encode_of_cut cut
      · exact inductionHypothesis _ (size ▸ Framing.shorter cut) later rfl

/-- Bytes with nothing left over are a sequence of TLVs. -/
theorem exists_encodeAll {input : List UInt8} (ends : helloTlvFraming.leftover input = []) :
    ∃ tlvs, HelloTlv.encodeAll tlvs = input ∧
      tlvs.map HelloTlv.encode = helloTlvFraming.frames input := by
  have all : ∀ frames : List (List UInt8), (∀ frame ∈ frames, ∃ tlv : HelloTlv, tlv.encode = frame) →
      ∃ tlvs : List HelloTlv, tlvs.map HelloTlv.encode = frames := by
    intro frames encoded
    induction frames with
    | nil => exact ⟨[], rfl⟩
    | cons frame rest inductionHypothesis =>
      obtain ⟨tlv, same⟩ := encoded frame List.mem_cons_self
      obtain ⟨tlvs, others⟩ := inductionHypothesis fun other member =>
        encoded other (List.mem_cons_of_mem frame member)
      exact ⟨tlv :: tlvs, by rw [List.map_cons, same, others]⟩
  obtain ⟨tlvs, same⟩ := all _ fun frame member => encode_of_mem_frames member
  refine ⟨tlvs, ?_, same⟩
  have whole := @Framing.flatten_frames _ helloTlvFraming input
  rw [ends, List.append_nil] at whole
  rw [HelloTlv.encodeAll, same, whole]

theorem frames_encodeAll (tlvs : List HelloTlv) :
    helloTlvFraming.frames (HelloTlv.encodeAll tlvs) = tlvs.map HelloTlv.encode ∧
      helloTlvFraming.leftover (HelloTlv.encodeAll tlvs) = [] := by
  have cuts : ∀ part ∈ tlvs.map HelloTlv.encode, ∀ rest : List UInt8,
      helloTlvFraming.cut (part ++ rest) = some (part, rest) := by
    intro part member rest
    obtain ⟨tlv, -, rfl⟩ := List.mem_map.mp member
    exact helloTlvCut_encode tlv rest
  have both := Framing.frames_flatten cuts [] rfl
  rw [List.append_nil] at both
  exact both

/-- One round for a TLV. -/
def HelloTlv.read (conf : HelloConf) (af : Af) (opts : HelloOpts) (tlv : HelloTlv) : Option HelloOpts :=
  readHelloTlv conf af tlv.type tlv.value opts

/-- A sequence of TLVs is read one after the other. -/
theorem helloOpts_encodeAll (tlvs : List HelloTlv) :
    helloOpts conf af (HelloTlv.encodeAll tlvs) = tlvs.foldlM (HelloTlv.read conf af) (.cleared af) := by
  obtain ⟨frames, left⟩ := frames_encodeAll tlvs
  rw [helloOpts_eq, if_pos left, frames, List.foldlM_map]
  congr 1
  funext opts tlv
  rw [readHelloFrame, get16_encode, drop_encode]
  rfl

/-- The four known types and the others. -/
theorem HelloTlv.type_cases (tlv : HelloTlv) :
    (∃ family, tlv.type = transAddrType family) ∨ tlv.type = tlvTypeConfig ∨
      tlv.type = tlvTypeDualstack ∨ knownLength tlv.type = none := by
  rw [knownLength]
  split_ifs with ipv4 ipv6 config dualstack
  · exact Or.inl ⟨.inet, ipv4⟩
  · exact Or.inl ⟨.inet6, ipv6⟩
  · exact Or.inr (Or.inl config)
  · exact Or.inr (Or.inr (Or.inl dualstack))
  · exact Or.inr (Or.inr (Or.inr rfl))

theorem transAddrType_inj {family other : Af}
    (same : HelloTlv.transAddrType family = HelloTlv.transAddrType other) : family = other := by
  cases family with
  | inet | inet6 =>
    cases other with
    | inet | inet6 => first | rfl | exact absurd same (by decide)

theorem knownLength_transAddrType (family : Af) :
    HelloTlv.knownLength (HelloTlv.transAddrType family) = some family.addrSize := by
  cases family with
  | inet | inet6 => decide

/-- A transport address. -/
theorem read_transAddr {tlv : HelloTlv} {family : Af} (type : tlv.type = HelloTlv.transAddrType family)
    (opts : HelloOpts) : tlv.read conf af opts = readTransAddr af family tlv.value opts := by
  rw [HelloTlv.read, type]
  cases family with
  | inet | inet6 => rfl

theorem read_config {tlv : HelloTlv} (type : tlv.type = tlvTypeConfig) (opts : HelloOpts) :
    tlv.read conf af opts = if tlv.value.length ≠ 4 then none
      else some { opts with confNumber := Native.load32 tlv.value, rcvdConf := true } := by
  rw [HelloTlv.read, type]
  rfl

theorem read_dualstack {tlv : HelloTlv} (type : tlv.type = tlvTypeDualstack) (opts : HelloOpts) :
    tlv.read conf af opts = if tlv.value.length ≠ 4 then none
      else if ¬ldpIsDualStack conf then some opts
      else some { opts with transPref := readTransPref conf tlv.value, rcvdDs := true } := by
  rw [HelloTlv.read, type]
  rfl

theorem read_unknown {tlv : HelloTlv} (unknown : HelloTlv.knownLength tlv.type = none)
    (opts : HelloOpts) :
    tlv.read conf af opts = if tlv.type &&& unknownFlag = 0 then none else some opts := by
  rw [HelloTlv.read, readHelloTlv]
  rw [HelloTlv.knownLength] at unknown
  split_ifs at unknown with ipv4 ipv6 config dualstack
  rw [if_neg ipv4, if_neg ipv6, if_neg config, if_neg dualstack]

/-- A TLV that is no transport address. -/
theorem not_foreign {tlv : HelloTlv} (other : ∀ family, tlv.type ≠ HelloTlv.transAddrType family) :
    ¬tlv.Foreign af ∧ tlv.transAddr af = none := by
  refine ⟨?_, if_neg (other af)⟩
  rintro ⟨family, -, type⟩
  exact other family type

/-- A TLV whose value must have four bytes and that is no transport address. -/
theorem fine_iff_length {tlv : HelloTlv} (known : HelloTlv.knownLength tlv.type = some 4)
    (native : ¬tlv.Foreign af) : tlv.WellFormed ∧ ¬tlv.Foreign af ↔ tlv.value.length = 4 := by
  rw [HelloTlv.WellFormed, known]
  exact and_iff_left native

/-- What `tlv_decode_opt_hello_prms` makes of one TLV: it is refused if it is not well formed or a
transport address of the other family; the first transport address of its own family is kept, and
the last of everything else. -/
theorem read_found (tlv : HelloTlv) (addr : Option LdpdAddr) (number : Option UInt32)
    (pref : Option UInt16) :
    tlv.WellFormed ∧ ¬tlv.Foreign af ∧ tlv.read conf af (.found af addr number pref) =
      some (.found af (addr.or (tlv.transAddr af)) (tlv.confNumber.or number)
        ((tlv.transPref conf).or pref)) ∨
    ¬(tlv.WellFormed ∧ ¬tlv.Foreign af) ∧ tlv.read conf af (.found af addr number pref) = none := by
  obtain ⟨family, type⟩ | type | type | unknown := tlv.type_cases
  · have length : tlv.WellFormed ↔ tlv.value.length = family.addrSize := by
      rw [HelloTlv.WellFormed, type, knownLength_transAddrType]
    have noNumber : tlv.confNumber = none := if_neg fun same => by
      cases family with
      | inet | inet6 => exact absurd (type.symm.trans same) (by decide)
    have noPref : tlv.transPref conf = none := if_neg fun same => by
      cases family with
      | inet | inet6 => exact absurd (type.symm.trans same.1) (by decide)
    rw [read_transAddr type, readTransAddr, length, noNumber, noPref, Option.none_or, Option.none_or]
    by_cases size : tlv.value.length = family.addrSize
    case neg => exact Or.inr ⟨fun both => size both.1, if_pos size⟩
    rw [if_neg (not_not.mpr size)]
    by_cases own : af = family
    case neg => exact Or.inr ⟨fun both => both.2 ⟨family, Ne.symm own, type⟩, if_pos own⟩
    subst own
    have native : ¬tlv.Foreign af := by
      rintro ⟨other, different, type'⟩
      exact different (transAddrType_inj (type'.symm.trans type))
    rw [if_neg (not_not.mpr rfl), HelloTlv.transAddr, if_pos type]
    refine Or.inl ⟨size, native, ?_⟩
    cases addr with
    | none => rfl
    | some addr => rfl
  · obtain ⟨native, other⟩ := @not_foreign af tlv fun family same => by
      cases family with
      | inet | inet6 => exact absurd (same.symm.trans type) (by decide)
    have fine := @fine_iff_length af tlv (by rw [type]; rfl) native
    have noPref : tlv.transPref conf = none := if_neg fun same =>
      absurd (type.symm.trans same.1) (by decide)
    rw [read_config type, ← and_assoc, fine, other, noPref, HelloTlv.confNumber, if_pos type,
      Option.or_none]
    by_cases size : tlv.value.length = 4
    · exact Or.inl ⟨size, if_neg (not_not.mpr size)⟩
    · exact Or.inr ⟨size, if_pos size⟩
  · obtain ⟨native, other⟩ := @not_foreign af tlv fun family same => by
      cases family with
      | inet | inet6 => exact absurd (same.symm.trans type) (by decide)
    have fine := @fine_iff_length af tlv (by rw [type]; rfl) native
    have noNumber : tlv.confNumber = none := if_neg fun same =>
      absurd (type.symm.trans same) (by decide)
    rw [read_dualstack type, ← and_assoc, fine, other, noNumber, Option.or_none, HelloTlv.transPref]
    by_cases size : tlv.value.length = 4
    · rw [if_neg (not_not.mpr size)]
      by_cases dual : ldpIsDualStack conf
      · rw [if_neg (not_not.mpr dual), if_pos ⟨type, dual⟩]
        exact Or.inl ⟨size, rfl⟩
      · rw [if_pos dual, if_neg fun both => dual both.2]
        exact Or.inl ⟨size, rfl⟩
    · exact Or.inr ⟨size, if_pos size⟩
  · obtain ⟨native, other⟩ := @not_foreign af tlv fun family same => by
      rw [same, knownLength_transAddrType] at unknown
      cases unknown
    have flag : tlv.WellFormed ↔ tlv.type &&& unknownFlag ≠ 0 := by
      rw [HelloTlv.WellFormed, unknown]
    have noNumber : tlv.confNumber = none := if_neg fun same => by
      rw [same] at unknown
      exact absurd unknown (by decide)
    have noPref : tlv.transPref conf = none := if_neg fun same => by
      rw [same.1] at unknown
      exact absurd unknown (by decide)
    rw [read_unknown unknown, flag, other, noNumber, noPref, Option.or_none, Option.none_or,
      Option.none_or]
    by_cases refused : tlv.type &&& unknownFlag = 0
    · exact Or.inr ⟨fun both => both.1 refused, if_pos refused⟩
    · exact Or.inl ⟨refused, native, if_neg refused⟩

/-- A sequence of TLVs is accepted if all of them are well formed and none is a transport address of the
other family. -/
theorem foldlM_read_found (tlvs : List HelloTlv) (addr : Option LdpdAddr) (number : Option UInt32)
    (pref : Option UInt16) :
    (∀ tlv ∈ tlvs, tlv.WellFormed ∧ ¬tlv.Foreign af) ∧
      tlvs.foldlM (HelloTlv.read conf af) (.found af addr number pref) =
        some (.found af (addr.or (tlvs.findSome? (HelloTlv.transAddr af)))
          ((HelloTlv.last HelloTlv.confNumber tlvs).or number)
          ((HelloTlv.last (HelloTlv.transPref conf) tlvs).or pref)) ∨
    (¬∀ tlv ∈ tlvs, tlv.WellFormed ∧ ¬tlv.Foreign af) ∧
      tlvs.foldlM (HelloTlv.read conf af) (.found af addr number pref) = none := by
  induction tlvs generalizing addr number pref with
  | nil =>
    refine Or.inl ⟨fun tlv member => absurd member List.not_mem_nil, ?_⟩
    rw [List.findSome?_nil, Option.or_none]
    rfl
  | cons tlv rest inductionHypothesis =>
    rw [List.foldlM_cons, List.forall_mem_cons]
    rcases @read_found conf af tlv addr number pref with
      ⟨fine, native, reads⟩ | ⟨refused, reads⟩
    · rw [reads]
      rcases inductionHypothesis (addr.or (tlv.transAddr af)) (tlv.confNumber.or number)
          ((tlv.transPref conf).or pref) with ⟨all, some⟩ | ⟨refused, none⟩
      · refine Or.inl ⟨⟨⟨fine, native⟩, all⟩, some.trans ?_⟩
        rw [HelloTlv.last_cons, HelloTlv.last_cons, Option.or_assoc, Option.or_assoc, Option.or_assoc,
          List.findSome?_cons]
        cases tlv.transAddr af with
        | none => rfl
        | some first => rfl
      · exact Or.inr ⟨fun both => refused both.2, none⟩
    · rw [reads]
      exact Or.inr ⟨fun both => refused both.1, rfl⟩

/-- What is found in a sequence of TLVs. -/
theorem helloOpts_cases (conf : HelloConf) (af : Af) (tlvs : List HelloTlv) :
    (∀ tlv ∈ tlvs, tlv.WellFormed ∧ ¬tlv.Foreign af) ∧
      helloOpts conf af (HelloTlv.encodeAll tlvs) =
        some (.found af (tlvs.findSome? (HelloTlv.transAddr af)) (HelloTlv.last HelloTlv.confNumber tlvs)
          (HelloTlv.last (HelloTlv.transPref conf) tlvs)) ∨
    (¬∀ tlv ∈ tlvs, tlv.WellFormed ∧ ¬tlv.Foreign af) ∧
      helloOpts conf af (HelloTlv.encodeAll tlvs) = none := by
  rw [helloOpts_encodeAll]
  have outcome := @foldlM_read_found conf af tlvs none none none
  rw [Option.none_or, Option.or_none, Option.or_none] at outcome
  exact outcome

end Sequences

/-! ### What is selected -/

/-- The transport address that is reported. -/
def HelloOpts.reported (opts : HelloOpts) : Option LdpdAddr :=
  if opts.rcvdAddr then some opts.addr else none

/-- The optional parameters of a Hello that are selected as they should be: a sequence of well-formed TLVs
is accepted with its first transport address of the family of the packet, and nothing else is. -/
def SelectsOptions (conf : HelloConf) (af : Af) (buf : List UInt8) : Prop :=
  (∀ tlvs : List HelloTlv, HelloTlv.encodeAll tlvs = buf → (∀ tlv ∈ tlvs, tlv.WellFormed) →
    ∃ opts, tlvDecodeOptHelloPrms conf af buf = some (buf.length, opts) ∧
      opts.reported = tlvs.findSome? (HelloTlv.transAddr af)) ∧
  ((¬∃ tlvs : List HelloTlv, HelloTlv.encodeAll tlvs = buf ∧ ∀ tlv ∈ tlvs, tlv.WellFormed) →
    ∀ opts, tlvDecodeOptHelloPrms conf af buf ≠ some (buf.length, opts))

section Selecting

variable {conf : HelloConf} {af : Af}

theorem helloOpts_eq_some (buf : List UInt8) (opts : HelloOpts) :
    helloOpts conf af buf = some opts ↔ tlvDecodeOptHelloPrms conf af buf = some (buf.length, opts) := by
  rw [helloOpts]
  cases tlvDecodeOptHelloPrms conf af buf with
  | none => exact iff_of_false (fun same => by cases same) (fun same => by cases same)
  | some both =>
    rw [Option.some_inj, Option.ite_none_right_eq_some, Option.some_inj, Prod.ext_iff]

theorem reported_found (addr : Option LdpdAddr) (number : Option UInt32) (pref : Option UInt16) :
    (HelloOpts.found af addr number pref).reported = addr := by
  cases addr with
  | none => rfl
  | some addr => rfl

/-- The optional parameters of a Hello are selected as they should be if and only if they are not a
sequence of well-formed TLVs with a transport address of the other family. -/
theorem options_selected_iff (conf : HelloConf) (af : Af) (buf : List UInt8) :
    SelectsOptions conf af buf ↔ ¬∃ tlvs : List HelloTlv, HelloTlv.encodeAll tlvs = buf ∧
      (∀ tlv ∈ tlvs, tlv.WellFormed) ∧ ∃ tlv ∈ tlvs, tlv.Foreign af := by
  constructor
  · rintro selects ⟨tlvs, same, fine, tlv, member, foreign⟩
    obtain ⟨opts, accepts, -⟩ := selects.1 tlvs same fine
    rw [← helloOpts_eq_some, ← same] at accepts
    rcases helloOpts_cases conf af tlvs with ⟨all, -⟩ | ⟨-, none⟩
    · exact (all tlv member).2 foreign
    · cases none.symm.trans accepts
  · intro native
    refine ⟨fun tlvs same fine => ?_, fun malformed opts accepts => ?_⟩
    · rcases helloOpts_cases conf af tlvs with ⟨-, some⟩ | ⟨refused, -⟩
      · rw [same, helloOpts_eq_some] at some
        exact ⟨_, some, reported_found _ _ _⟩
      · refine absurd (fun tlv member => ⟨fine tlv member, fun foreign => ?_⟩) refused
        exact native ⟨tlvs, same, fine, tlv, member, foreign⟩
    · rw [← helloOpts_eq_some] at accepts
      have ends : helloTlvFraming.leftover buf = [] := by
        rw [helloOpts_eq] at accepts
        by_contra part
        rw [if_neg part] at accepts
        cases accepts
      obtain ⟨tlvs, same, -⟩ := exists_encodeAll ends
      rw [← same] at accepts
      rcases helloOpts_cases conf af tlvs with ⟨all, -⟩ | ⟨-, none⟩
      · exact malformed ⟨tlvs, same, fun tlv member => (all tlv member).1⟩
      · cases none.symm.trans accepts

end Selecting

/-! ### Both transport addresses -/

/-- The transport addresses 10.0.0.2 and 2001:db8::2. -/
def bothTransAddrs : List HelloTlv :=
  [⟨tlvTypeIpv4transaddr, [10, 0, 0, 2], by decide⟩,
    ⟨tlvTypeIpv6transaddr, [0x20, 0x01, 0x0d, 0xb8, 0, 0, 0, 0, 0, 0, 0, 0, 0, 0, 0, 2], by decide⟩]

/-- A router with both families. -/
def dualStackConf : HelloConf where
  rtrId := 0x0a000001
  enabled _ := true
  noGtsm := false
  transAddr4 := 0x0a000001
  transAddr6 := ⟨#[0x20, 0x01, 0x0d, 0xb8, 0, 0, 0, 0, 0, 0, 0, 0, 0, 0, 0, 1], rfl⟩
  transPref := 6
  ciscoInterop := false
  confSeqnum := 256

/-- A Hello over IPv4 with both of them is refused. -/
theorem both_transAddrs_refused :
    ¬SelectsOptions dualStackConf .inet (HelloTlv.encodeAll bothTransAddrs) := by
  intro selects
  have fine : ∀ tlv ∈ bothTransAddrs, tlv.WellFormed := by
    intro tlv member
    rcases List.mem_cons.mp member with rfl | member
    · rfl
    · cases List.mem_singleton.mp member
      rfl
  obtain ⟨opts, accepts, -⟩ := selects.1 bothTransAddrs rfl fine
  have refused : tlvDecodeOptHelloPrms dualStackConf .inet (HelloTlv.encodeAll bothTransAddrs) = none := by
    decide
  cases refused.symm.trans accepts

end Ldpd
