/-
This file is the wire format of LDP: the numbers of `ldp.h`, the headers and the
TLVs, and the functions that write them. A `struct ibuf` is the bytes written to it
so far with the room it was opened with; a write that does not fit is an error,
which the writers gather and look at once, at the end.
-/

import Ldpd.Types
import Ldpd.Library.Bytes

namespace Ldpd

open Bytes

/-! ### Numbers -/

def ldpVersion : UInt16 := 1
def ldpMaxLen : UInt16 := 4096
def minKeepalive : UInt16 := 3

/-- `MSG_TYPE_NOTIFICATION` and the other message types of `ldp.h`. -/
def msgTypeNotification : UInt16 := 0x0001
def msgTypeInit : UInt16 := 0x0200
def msgTypeKeepalive : UInt16 := 0x0201
def msgTypeAddr : UInt16 := 0x0300
def msgTypeAddrwithdraw : UInt16 := 0x0301
def msgTypeLabelwithdraw : UInt16 := 0x0402
def msgTypeLabelrelease : UInt16 := 0x0403
def msgTypeLabelabortreq : UInt16 := 0x0404

/-- `TLV_TYPE_FEC` and the other TLV types of `ldp.h`. -/
def tlvTypeFec : UInt16 := 0x0100
def tlvTypeAddrlist : UInt16 := 0x0101
def tlvTypeHopcount : UInt16 := 0x0103
def tlvTypePathvector : UInt16 := 0x0104
def tlvTypeGenericlabel : UInt16 := 0x0200
def tlvTypeAtmlabel : UInt16 := 0x0201
def tlvTypeFrlabel : UInt16 := 0x0202
def tlvTypeStatus : UInt16 := 0x0300
def tlvTypeExtstatus : UInt16 := 0x0301
def tlvTypeReturnedpdu : UInt16 := 0x0302
def tlvTypeReturnedmsg : UInt16 := 0x0303
def tlvTypeCommonsession : UInt16 := 0x0500
def tlvTypeAtmsessionpar : UInt16 := 0x0501
def tlvTypeFrsession : UInt16 := 0x0502
def tlvTypeLabelrequest : UInt16 := 0x0600
def tlvTypePwStatus : UInt16 := 0x096A

/-- `LDP_HDR_SIZE` and the other sizes of `ldp.h`, in bytes. -/
def ldpHdrSize : Nat := 10
def ldpHdrPduLen : Nat := 6
def ldpHdrDeadLen : Nat := 4
def tlvHdrSize : Nat := 4
def ldpMsgSize : Nat := 8
def ldpMsgLen : Nat := 4
def ldpMsgDeadLen : Nat := 4
def sessPrmsSize : Nat := 18
def sessPrmsLen : Nat := 14
def statusSize : Nat := 14
def statusTlvLen : Nat := 10
def addrListSize : Nat := 6
def fecElmWcardLen : Nat := 1
def fecElmPrefixMinLen : Nat := 4
def fecPwidElmMinLen : Nat := 8
def subtlvHdrSize : Nat := 2
def fecSubtlvIfmtuSize : Nat := 4
def labelTlvSize : Nat := 8
def labelTlvLen : Nat := 4
def reqidTlvSize : Nat := 8
def reqidTlvLen : Nat := 4
def pwStatusTlvSize : Nat := 8
def pwStatusTlvLen : Nat := 4

/-- `UNKNOWN_FLAG`, the U bit of a TLV or message type. -/
def unknownFlag : UInt16 := 0x8000

/-- `CONTROL_WORD_FLAG`, the C bit of a pseudowire type. -/
def controlWordFlag : UInt16 := 0x8000

/-- `STATUS_FATAL`, the E bit of a status code. -/
def statusFatal : UInt32 := 0x80000000

/-- `S_BAD_LDP_ID` and the other status codes of `ldp.h`. -/
def sBadLdpId : UInt32 := 0x80000001
def sBadProtoVer : UInt32 := 0x80000002
def sBadPduLen : UInt32 := 0x80000003
def sUnknownMsg : UInt32 := 0x00000004
def sBadMsgLen : UInt32 := 0x80000005
def sUnknownTlv : UInt32 := 0x00000006
def sBadTlvLen : UInt32 := 0x80000007
def sBadTlvVal : UInt32 := 0x80000008
def sShutdown : UInt32 := 0x8000000A
def sUnknownFec : UInt32 := 0x0000000C
def sNoHello : UInt32 := 0x80000010
def sMissMsg : UInt32 := 0x00000016
def sUnsupAddr : UInt32 := 0x00000017
def sKeepaliveBad : UInt32 := 0x80000018

/-- `AF_IPV4` and `AF_IPV6`, the address families on the wire. -/
def afIpv4 : UInt16 := 1
def afIpv6 : UInt16 := 2

/-- `MAP_TYPE_WILDCARD` and the other FEC element types. -/
def mapTypeWildcard : UInt8 := 0x01
def mapTypePrefix : UInt8 := 0x02
def mapTypePwid : UInt8 := 0x80

/-- `SUBTLV_IFMTU`. -/
def subtlvIfmtu : UInt8 := 0x01

/-! ### Buffers -/

/-- `struct ibuf`: the room it was opened with, what has been written, and whether a write has
failed. -/
structure Ibuf where
  size : Nat
  bytes : List UInt8 := []
  err : Bool := false
  deriving DecidableEq, Repr

/-- `err |= ibuf_add(buf, data, len)`. -/
def Ibuf.add (buf : Ibuf) (data : List UInt8) : Ibuf :=
  if buf.bytes.length + data.length ≤ buf.size then { buf with bytes := buf.bytes ++ data }
  else { buf with err := true }

/-! ### Headers -/

/-- `gen_ldp_hdr`. The two fields in front are not part of the PDU length. -/
def genLdpHdr (rtrId : InAddr) (size : UInt16) (buf : Ibuf) : Ibuf :=
  buf.add (put16 ldpVersion ++ put16 (size - 4) ++ put32 rtrId ++ put16 0)

/-- `gen_msg_hdr`, with the message id that the counter stands at. -/
def genMsgHdr (id : UInt32) (type size : UInt16) (buf : Ibuf) : Ibuf :=
  buf.add (put16 type ++ put16 (size - 4) ++ put32 id)

/-! ### Addresses -/

/-- `PREFIX_SIZE`: the bytes it takes to hold a prefix. -/
def prefixSize (prefixlen : UInt8) : Nat :=
  (prefixlen.toNat + 7) / 8

/-- The bytes of an address as they lie in memory. -/
def LdpdAddr.bytes : LdpdAddr → List UInt8
  | .v4 addr => put32 addr
  | .v6 addr => addr.toList

/-- The address whose first bytes are given; the others are zero. -/
def addrOfBytes (af : Af) (bytes : List UInt8) : LdpdAddr :=
  match af with
  | .inet => .v4 (get32 bytes)
  | .inet6 => .v6 (Vector.ofFn fun i => bytes.getD i 0)

/-- `prefixlen2mask`, by value. -/
def prefixlen2mask (prefixlen : UInt8) : UInt32 :=
  if prefixlen = 0 then 0 else 0xffffffff <<< (32 - prefixlen.toUInt32)

/-- One byte of the mask that `ldp_applymask` builds for an IPv6 prefix. -/
def mask6Byte (prefixlen : UInt8) (i : Nat) : UInt8 :=
  if i < prefixlen.toNat / 8 then 0xff
  else if i = prefixlen.toNat / 8 then ((0xff00 : UInt16) >>> (prefixlen.toUInt16 % 8)).toUInt8
  else 0

/-- `ldp_applymask`. It has a meaning in C for the prefix lengths of the address family; beyond them
the shift of the mask is one modulo the width of the word. -/
def ldpApplymask (addr : LdpdAddr) (prefixlen : UInt8) : LdpdAddr :=
  match addr with
  | .v4 addr => .v4 (addr &&& prefixlen2mask prefixlen)
  | .v6 addr => .v6 (addr.mapIdx fun i byte => byte &&& mask6Byte prefixlen i)

/-- The longest prefix of an address family. -/
def Af.maxPrefixlen : Af → UInt8
  | .inet => 32
  | .inet6 => 128

/-! ### TLVs -/

/-- `gen_label_tlv`. -/
def genLabelTlv (label : UInt32) (buf : Ibuf) : Ibuf :=
  buf.add (put16 tlvTypeGenericlabel ++ put16 4 ++ put32 label)

/-- `gen_reqid_tlv`. -/
def genReqidTlv (reqid : UInt32) (buf : Ibuf) : Ibuf :=
  buf.add (put16 tlvTypeLabelrequest ++ put16 4 ++ put32 reqid)

/-- `gen_pw_status_tlv`. -/
def genPwStatusTlv (status : UInt32) (buf : Ibuf) : Ibuf :=
  buf.add (put16 tlvTypePwStatus ++ put16 4 ++ put32 status)

/-- `gen_status_tlv`. -/
def genStatusTlv (statusCode msgId : UInt32) (msgType : UInt16) (buf : Ibuf) : Ibuf :=
  buf.add (put16 tlvTypeStatus ++ put16 10 ++ put32 statusCode ++ put32 msgId ++ put16 msgType)

/-- The number of an address family on the wire. -/
def Af.family : Af → UInt16
  | .inet => afIpv4
  | .inet6 => afIpv6

/-- The interface parameters of a pseudowire: the `pw_len` that `gen_fec_tlv` computes. -/
def pwLen (flags : MapFlags) : Nat :=
  (if flags.pwId then pwStatusTlvLen else 0) + (if flags.pwIfmtu then fecSubtlvIfmtuSize else 0)

/-- `gen_fec_tlv`. -/
def genFecTlv (map : Map) (buf : Ibuf) : Ibuf :=
  match map.fec with
  | .wildcard => (buf.add (put16 tlvTypeFec ++ put16 1)).add [mapTypeWildcard]
  | .network addr prefixlen =>
    let len := prefixSize prefixlen
    let buf := buf.add (put16 tlvTypeFec ++ put16 (UInt16.ofNat (4 + len)))
    let buf := buf.add [mapTypePrefix]
    let buf := buf.add (put16 addr.af.family)
    let buf := buf.add [prefixlen]
    if len = 0 then buf else buf.add (addr.bytes.take len)
  | .pwid type pwid groupId ifmtu =>
    let len := pwLen map.flags
    let buf := buf.add (put16 tlvTypeFec ++ put16 (UInt16.ofNat (fecPwidElmMinLen + len)))
    let buf := buf.add [mapTypePwid]
    let buf := buf.add (put16 (if map.flags.pwCword then type ||| controlWordFlag else type))
    let buf := buf.add [UInt8.ofNat len]
    let buf := buf.add (put32 groupId)
    let buf := if map.flags.pwId then buf.add (put32 pwid) else buf
    if map.flags.pwIfmtu then
      (buf.add [subtlvIfmtu, 4]).add (put16 ifmtu)
    else buf

end Ldpd
