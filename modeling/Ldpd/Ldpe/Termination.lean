/-
This file settles when the parsers of label and notification messages return. They do
so unless the message has one of the flaws of `Layout`: a pseudowire parameter of no
length makes the loop over the parameters go round forever.
-/

import Ldpd.Ldpe.Layout

namespace Ldpd

open Bytes Code Reading

/-- A function returns, with enough fuel, and has done nothing that C gives no meaning to. -/
def Returns (run : Nat → Execution Access (Option Unit × Ldpe)) : Prop :=
  ∃ fuel result, (run fuel).outcome = .ret result ∧ Defined Access.Meant (run fuel)

section Message

variable {buf : List UInt8} {size : Nat}

/-- A message at the front of the rest of a PDU. -/
theorem spans_take (buf : List UInt8) (size : Nat) :
    Spans ⟨buf.length, buf.length - size⟩ (buf.drop size) buf (buf.take size) where
  eq := (List.take_append_drop size buf).symm
  after := List.length_drop ..
  top := Nat.le_refl _

variable (ldpe : Ldpe) (long : ldpMsgSize ≤ size) (fits : size ≤ buf.length) (small : size < 2 ^ 16)
include long fits small

theorem recvLabelmessage_returns (type : UInt16) :
    Returns (fun fuel => recvLabelmessage fuel buf size type ldpe) ↔
      ¬LabelFlaw type (buf.drop size) ((buf.take size).drop ldpMsgSize) .endless ∧
      ¬LabelFlaw type (buf.drop size) ((buf.take size).drop ldpMsgSize) .undefined := by
  have length : (buf.take size).length = size := List.length_take_of_le fits
  have acts := fun fuel => obeysAt_recvLabelmessage fuel type ldpe (spans_take buf size)
    (by rw [length]; exact long) (by rw [length]; exact small)
  rw [length] at acts
  rw [Returns, returns_iff acts, bind_pure_has, bind_pure_has, readLabelmessage_has,
    readLabelmessage_has]

theorem recvNotification_returns :
    Returns (fun fuel => recvNotification fuel buf size ldpe) ↔
      ¬NotificationFlaw (buf.drop size) ((buf.take size).drop ldpMsgSize) .endless ∧
      ¬NotificationFlaw (buf.drop size) ((buf.take size).drop ldpMsgSize) .undefined := by
  have length : (buf.take size).length = size := List.length_take_of_le fits
  have acts := fun fuel => obeysAt_recvNotification fuel ldpe (spans_take buf size)
    (by rw [length]; exact long) (by rw [length]; exact small)
  rw [length] at acts
  rw [Returns, returns_iff acts, bind_pure_has, bind_pure_has, readNotification_has,
    readNotification_has]

/-- The parsers of label messages and of notifications return on every message, of the length that
the session hands over, unless its FEC elements stall or are undefined. -/
theorem recv_returns_iff (type : UInt16) :
    (Returns (fun fuel => recvLabelmessage fuel buf size type ldpe) ↔
      ¬LabelFlaw type (buf.drop size) ((buf.take size).drop ldpMsgSize) .endless ∧
      ¬LabelFlaw type (buf.drop size) ((buf.take size).drop ldpMsgSize) .undefined) ∧
    (Returns (fun fuel => recvNotification fuel buf size ldpe) ↔
      ¬NotificationFlaw (buf.drop size) ((buf.take size).drop ldpMsgSize) .endless ∧
      ¬NotificationFlaw (buf.drop size) ((buf.take size).drop ldpMsgSize) .undefined) :=
  ⟨recvLabelmessage_returns ldpe long fits small type, recvNotification_returns ldpe long fits small⟩

end Message

/-- A Label Mapping for two prefixes and a pseudowire that has an MTU. -/
def threeElements : List UInt8 :=
  [0x04, 0x00, 0x00, 0x2e, 0x00, 0x00, 0x00, 0x01,
    0x01, 0x00, 0x00, 0x1e,
    0x02, 0x00, 0x01, 0x18, 10, 1, 2,
    0x02, 0x00, 0x01, 0x18, 10, 1, 3,
    0x80, 0x00, 0x05, 0x08, 0, 0, 0, 0, 0, 0, 0, 100, 0x01, 0x04, 0x05, 0xdc,
    0x02, 0x00, 0x00, 0x04, 0, 0, 0, 20]

theorem recv_returns_iff_threeElements :
    ¬LabelFlaw msgTypeLabelmapping [] (threeElements.drop ldpMsgSize) .endless ∧
      ¬LabelFlaw msgTypeLabelmapping [] (threeElements.drop ldpMsgSize) .undefined := by
  have returns : Returns fun fuel => recvLabelmessage fuel threeElements threeElements.length
      msgTypeLabelmapping operSession := by
    refine ⟨20, _, rfl, by decide +kernel, ?_⟩
    intro undefined
    cases undefined
  exact (recv_returns_iff operSession (by decide) (Nat.le_refl _) (by decide) msgTypeLabelmapping).1.mp
    returns

/-! ### A message that takes forever -/

/-- A Label Mapping for a pseudowire with an interface parameter that has no length. -/
def stallingMapping : List UInt8 :=
  [0x04, 0x00, 0x00, 0x16, 0x00, 0x00, 0x00, 0x01,
    0x01, 0x00, 0x00, 0x0e,
    0x80, 0x00, 0x05, 0x06, 0x00, 0x00, 0x00, 0x00, 0x00, 0x00, 0x00, 0x64, 0x03, 0x00]

/-- `recv_labelmessage` does not return on it, whatever the fuel. -/
theorem recv_labelmessage_endless :
    ¬Returns fun fuel => recvLabelmessage fuel stallingMapping stallingMapping.length
      msgTypeLabelmapping operSession := by
  have long : ldpMsgSize ≤ stallingMapping.length := by decide
  have small : stallingMapping.length < 2 ^ 16 := by decide
  rw [recvLabelmessage_returns operSession long (Nat.le_refl _) small, not_and_or]
  refine Or.inl (not_not.mpr ⟨by decide, by decide, .here ?_⟩)
  exact ⟨by decide, by decide, .here (by decide)⟩

end Ldpd
