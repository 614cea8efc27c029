/-
This file says what the senders write. A buffer that is written to in pieces holds
their bytes one after another unless a write has failed, and what is queued on a
connection is then one PDU with one message.
-/

import Ldpd.Ldpe.Pdu
import Ldpd.Ldpe.Fsm

namespace Ldpd

open Bytes Code

/-! ### Writing to a buffer -/

/-- A buffer that came of another one by writing these bytes, unless a write has failed. -/
structure Wrote (start : Ibuf) (data : List UInt8) (buf : Ibuf) : Prop where
  bytes : buf.err = false → start.err = false ∧ buf.bytes = start.bytes ++ data

section Wrote

variable {start buf : Ibuf} {data : List UInt8}

theorem Wrote.refl (start : Ibuf) : Wrote start [] start :=
  ⟨fun fine => ⟨fine, (List.append_nil _).symm⟩⟩

theorem Wrote.add (wrote : Wrote start data buf) (more : List UInt8) :
    Wrote start (data ++ more) (buf.add more) := by
  rw [Ibuf.add]
  split
  · refine ⟨fun fine => ?_⟩
    obtain ⟨clear, written⟩ := wrote.bytes fine
    rw [← List.append_assoc, ← written]
    exact ⟨clear, rfl⟩
  · exact ⟨nofun⟩

theorem Wrote.skip (wrote : Wrote start data buf) : Wrote start (data ++ []) buf := by
  rw [List.append_nil]
  exact wrote

end Wrote

/-- The bytes of a FEC TLV. -/
def fecTlv (map : Map) : List UInt8 :=
  match map.fec with
  | .wildcard => put16 tlvTypeFec ++ put16 1 ++ [mapTypeWildcard]
  | .network addr prefixlen =>
    let len := prefixSize prefixlen
    put16 tlvTypeFec ++ put16 (UInt16.ofNat (4 + len)) ++ [mapTypePrefix] ++ put16 addr.af.family ++
      [prefixlen] ++ if len = 0 then [] else addr.bytes.take len
  | .pwid type pwid groupId ifmtu =>
    let len := pwLen map.flags
    put16 tlvTypeFec ++ put16 (UInt16.ofNat (fecPwidElmMinLen + len)) ++ [mapTypePwid] ++
      put16 (if map.flags.pwCword then type ||| controlWordFlag else type) ++ [UInt8.ofNat len] ++
      put32 groupId ++ (if map.flags.pwId then put32 pwid else []) ++
      if map.flags.pwIfmtu then [subtlvIfmtu, 4] ++ put16 ifmtu else []

/-! ### Messages and PDUs -/

/-- A message with a header in front of its parameters. -/
def message (type : UInt16) (id : UInt32) (params : List UInt8) : List UInt8 :=
  put16 type ++ put16 (UInt16.ofNat (params.length + 4)) ++ put32 id ++ params

/-- A PDU with a header in front of its messages. -/
def pduOf (rtrId : InAddr) (body : List UInt8) : List UInt8 :=
  put16 ldpVersion ++ put16 (UInt16.ofNat (body.length + 6)) ++ put32 rtrId ++ put16 0 ++ body

theorem length_message (type : UInt16) (id : UInt32) (params : List UInt8) :
    (message type id params).length = params.length + 8 := by
  simp only [message, List.length_append, length_put16, length_put32]
  omega

theorem type_message (type : UInt16) (id : UInt32) (params : List UInt8) :
    (getLdpMsg (message type id params)).type = type := by
  rw [message, List.append_assoc, List.append_assoc]
  exact get16_put16 type _

theorem pduBody_pduOf (rtrId : InAddr) (body : List UInt8) : pduBody (pduOf rtrId body) = body := rfl

/-! ### Sending -/

/-- What has been queued since is of one kind. -/
def Sends (kind : List UInt8 → Prop) (ldpe ldpe' : Ldpe) : Prop :=
  ∃ pdus, ldpe'.sent = ldpe.sent ++ pdus ∧ ∀ pdu ∈ pdus, kind pdu

section Sends

variable {kind : List UInt8 → Prop} {ldpe ldpe' ldpe'' : Ldpe}

theorem Sends.of_eq (same : ldpe'.sent = ldpe.sent) : Sends kind ldpe ldpe' :=
  ⟨[], by rw [same, List.append_nil], fun _ member => absurd member List.not_mem_nil⟩

theorem Sends.trans (first : Sends kind ldpe ldpe') (second : Sends kind ldpe' ldpe'') :
    Sends kind ldpe ldpe'' := by
  obtain ⟨pdus, sent, all⟩ := first
  obtain ⟨pdus', sent', all'⟩ := second
  refine ⟨pdus ++ pdus', by rw [sent', sent, List.append_assoc], fun pdu member => ?_⟩
  exact (List.mem_append.mp member).elim (all pdu) (all' pdu)

theorem Sends.enqueue {buf : Ibuf} (fits : kind buf.bytes) : Sends kind ldpe (ldpe.enqueue buf) := by
  rw [Ldpe.enqueue]
  split
  · exact .of_eq rfl
  · exact ⟨[buf.bytes], rfl, fun pdu member => List.mem_singleton.mp member ▸ fits⟩

theorem Sends.ite {condition : Prop} [Decidable condition] {yes no : Ldpe}
    (taken : condition → Sends kind ldpe yes) (passed : ¬condition → Sends kind ldpe no) :
    Sends kind ldpe (if condition then yes else no) := by
  split
  · rename_i holds
    exact taken holds
  · rename_i fails
    exact passed fails

end Sends

/-- A buffer that was opened for a message, with everything written that there is room for. -/
theorem wrote_openMessage (ldpe : Ldpe) (type size : UInt16) :
    Wrote { size := size.toNat } (put16 ldpVersion ++ put16 (size - 4) ++ put32 ldpe.rtrId ++ put16 0 ++
      (put16 type ++ put16 (size - 10 - 4) ++ put32 (ldpe.msgcnt + 1))) (ldpe.openMessage type size).2 :=
  ((Wrote.refl _).add _).add _

theorem sent_openMessage (ldpe : Ldpe) (type size : UInt16) :
    (ldpe.openMessage type size).1.sent = ldpe.sent := rfl

/-- A PDU with one message that fills it. -/
theorem pdu_of_wrote {rtrId : InAddr} {type size : UInt16} {id : UInt32} {params : List UInt8} {buf : Ibuf}
    (wrote : Wrote { size := size.toNat } (put16 ldpVersion ++ put16 (size - 4) ++ put32 rtrId ++ put16 0 ++
      (put16 type ++ put16 (size - 10 - 4) ++ put32 id) ++ params) buf) (fine : buf.err = false)
    (full : size.toNat = params.length + 18) :
    buf.bytes = pduOf rtrId [message type id params].flatten := by
  have bound := size.toNat_lt
  have outer : size - 4 = UInt16.ofNat ([message type id params].flatten.length + 6) := by
    apply UInt16.toNat_inj.mp
    rw [List.flatten_singleton, length_message, UInt16.toNat_ofNat_of_lt' (by show _ < 2 ^ 16; omega),
      UInt16.toNat_sub_of_le _ _ (UInt16.le_iff_toNat_le.mpr (by show 4 ≤ _; omega))]
    show _ - 4 = _
    omega
  have inner : size - 10 - 4 = UInt16.ofNat (params.length + 4) := by
    apply UInt16.toNat_inj.mp
    have ten : (size - 10).toNat = size.toNat - 10 :=
      UInt16.toNat_sub_of_le _ _ (UInt16.le_iff_toNat_le.mpr (by show 10 ≤ _; omega))
    rw [UInt16.toNat_ofNat_of_lt' (by show _ < 2 ^ 16; omega),
      UInt16.toNat_sub_of_le _ _ (UInt16.le_iff_toNat_le.mpr (by rw [ten]; show 4 ≤ _; omega)), ten]
    show _ - 4 = _
    omega
  rw [(wrote.bytes fine).2, pduOf, ← outer, List.flatten_singleton, message, ← inner]
  simp only [List.nil_append, List.append_assoc]

/-- The parameters of an Initialization message. -/
def initPrms (peer : InAddr) (keepalive : UInt16) : List UInt8 :=
  put16 tlvTypeCommonsession ++ put16 14 ++ put16 ldpVersion ++ put16 keepalive ++ [0, 0] ++ put16 0 ++
    put32 peer ++ put16 0

/-- The parameters of a notification. -/
def notificationParams (nm : NotifyMsg) : List UInt8 :=
  put16 tlvTypeStatus ++ put16 10 ++ put32 nm.statusCode ++ put32 nm.msgId ++ put16 nm.msgType ++
    (if nm.hasPwStatus then put16 tlvTypePwStatus ++ put16 4 ++ put32 nm.pwStatus else []) ++
    if nm.hasFec then fecTlv nm.fec else []

theorem Wrote.addresses {start buf : Ibuf} {data : List UInt8} (wrote : Wrote start data buf)
    (addrs : List LdpdAddr) : Wrote start (data ++ (addrs.map LdpdAddr.bytes).flatten)
      (addrs.foldl (fun buf addr => buf.add addr.bytes) buf) := by
  induction addrs generalizing buf data with
  | nil => exact wrote.skip
  | cons addr rest inductionHypothesis =>
    have written := inductionHypothesis (wrote.add addr.bytes)
    rw [List.append_assoc] at written
    exact written

end Ldpd
