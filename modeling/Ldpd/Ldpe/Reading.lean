/-
This file says what the bytes of a session message mean, without pointers, lengths and
fuel, and proves that the parsers of label and notification messages follow it: they
touch nothing outside of the message and end as the reading says, except where the
reading itself leaves the message.
-/

import Ldpd.Ldpe.Session

namespace Ldpd

open Bytes Code

/-! ### Readings -/

/-- What a message or a part of it says. -/
abbrev Said := Reading Reply

/-- The session has to end. -/
def endWith {Read : Type} (status : UInt32) (msg : LdpMsg) : Said Read :=
  { verdict := .reject (.shutdown status msg) }

/-- The message is refused, and the session goes on. -/
def refuseWith {Read : Type} (status : UInt32) (msg : LdpMsg) : Said Read :=
  { verdict := .reject (.notify status msg) }

/-- A reading that is stopped on a condition goes on where the condition fails. -/
theorem accepts_unless {Read : Type} {condition : Prop} [Decidable condition]
    {stopped said : Said Read} (stops : ∀ read, stopped.verdict ≠ .accept read) {read : Read} :
    (if condition then stopped else said).verdict = .accept read ↔
      ¬condition ∧ said.verdict = .accept read := by
  split
  · rename_i holds
    exact iff_of_false (stops read) fun both => both.1 holds
  · rename_i fails
    exact (and_iff_right fails).symm

theorem accepts_unless_ended {Read : Type} {condition : Prop} [Decidable condition]
    {status : UInt32} {msg : LdpMsg} {said : Said Read} {read : Read} :
    (if condition then endWith status msg else said).verdict = .accept read ↔
      ¬condition ∧ said.verdict = .accept read :=
  accepts_unless fun _ accepts => by cases accepts

theorem accepts_unless_refused {Read : Type} {condition : Prop} [Decidable condition]
    {status : UInt32} {msg : LdpMsg} {said : Said Read} {read : Read} :
    (if condition then refuseWith status msg else said).verdict = .accept read ↔
      ¬condition ∧ said.verdict = .accept read :=
  accepts_unless fun _ accepts => by cases accepts

/-- A prefix element of the given length. -/
def readPrefix (msg : LdpMsg) (elm : List UInt8) (len : Nat) (old : FecBuf) :
    Said (Nat × FecBuf) :=
  if len < fecElmPrefixMinLen then endWith sBadTlvLen msg
  else
    match afOfFamily (get16 (elm.drop 1)) with
    | none => refuseWith sUnsupAddr msg
    | some af =>
      let prefixlen := get8 (elm.drop 3)
      let size := prefixSize prefixlen
      if len < fecElmPrefixMinLen + size then endWith sBadTlvLen msg
      else if af.maxPrefixlen < prefixlen then { strays := true, verdict := .undefined }
      else
        let addr := ldpApplymask (addrOfBytes af ((elm.drop 4).take size)) prefixlen
        pure (fecElmPrefixMinLen + size, old.setPrefix addr prefixlen)

/-- The interface parameters of a pseudowire that are still to be read, and what the others have
said. -/
structure PwParams where
  left : List UInt8
  flags : MapFlags
  ifmtu : UInt16
  deriving DecidableEq

/-- The first interface parameter. -/
def readParam (msg : LdpMsg) (params : PwParams) : Said (PwParams ⊕ PwParams) :=
  let stlv := getSubtlv params.left
  if params.left.length = 0 then pure (.inr params)
  else if params.left.length < subtlvHdrSize ∨ params.left.length < stlv.length.toNat then
    endWith sBadTlvLen msg
  else if stlv.type ≠ subtlvIfmtu then
    pure (.inl { params with left := params.left.drop stlv.length.toNat })
  else if stlv.length.toNat ≠ fecSubtlvIfmtuSize then endWith sBadTlvLen msg
  else
    pure (.inl {
      left := params.left.drop stlv.length.toNat
      flags := { params.flags with pwIfmtu := true }
      ifmtu := get16 (params.left.drop subtlvHdrSize) })

/-- The interface parameters of a pseudowire. -/
def readParams (msg : LdpMsg) (params : PwParams) : Said PwParams :=
  Reading.iterate (readParam msg) (fun params => params.left.length) params

/-- A pseudowire element of the given length. -/
def readPwid (msg : LdpMsg) (elm : List UInt8) (len : Nat) (old : FecBuf) : Said (Nat × FecBuf) :=
  if len < fecPwidElmMinLen then endWith sBadTlvLen msg
  else
    let type := get16 (elm.drop 1)
    let pwLen := get8 (elm.drop 3)
    let groupId := get32 (elm.drop 4)
    let flags := if type &&& controlWordFlag ≠ 0 then { old.flags with pwCword := true }
      else old.flags
    let type := type &&& ~~~controlWordFlag
    if len ≠ fecPwidElmMinLen + pwLen.toNat then endWith sBadTlvLen msg
    else if pwLen = 0 then pure (fecPwidElmMinLen, { old with flags }.setPwid type groupId)
    else if pwLen.toNat < 4 then endWith sBadTlvLen msg
    else do
      let params ← readParams msg {
        left := (elm.drop 12).take (pwLen.toNat - 4)
        flags := { flags with pwId := true }
        ifmtu := old.ifmtu }
      return (len, { old with
        flags := params.flags
        pwid := get32 (elm.drop 8)
        ifmtu := params.ifmtu }.setPwid type groupId)

/-- The type of a FEC element. It is looked at before the length of the element, so an element
without any bytes leads to what comes after the message. -/
def readType (elm beyond : List UInt8) : Said UInt8 :=
  match elm ++ beyond with
  | [] => { strays := true, verdict := .undefined }
  | type :: _ => { strays := elm.isEmpty, verdict := .accept type }

/-- A FEC element of the given length, with what comes after the message. -/
def readFecElm (msg : LdpMsg) (beyond elm : List UInt8) (len : Nat) (old : FecBuf) :
    Said (Nat × FecBuf) := do
  let type ← readType elm beyond
  if type = mapTypeWildcard then
    if len = fecElmWcardLen then pure (1, { old with fec := .wildcard })
    else endWith sBadTlvVal msg
  else if type = mapTypePrefix then readPrefix msg elm len old
  else if type = mapTypePwid then readPwid msg elm len old
  else refuseWith sUnknownFec msg

/-! ### The size of an element -/

theorem readPrefix_size {msg : LdpMsg} {elm : List UInt8} {len : Nat} {old : FecBuf} {size : Nat}
    {map : FecBuf} (accepts : (readPrefix msg elm len old).verdict = .accept (size, map)) :
    1 ≤ size ∧ size ≤ len := by
  rw [readPrefix, accepts_unless_ended] at accepts
  cases family : afOfFamily (get16 (elm.drop 1)) with
  | none =>
    rw [family] at accepts
    cases accepts.2
  | some af =>
    rw [family] at accepts
    simp only [accepts_unless_ended] at accepts
    obtain ⟨-, fits, accepts⟩ := accepts
    split at accepts
    · cases accepts
    · cases accepts
      exact ⟨Nat.le_add_right_of_le (by decide), Nat.le_of_not_lt fits⟩

theorem readPwid_size {msg : LdpMsg} {elm : List UInt8} {len : Nat} {old : FecBuf} {size : Nat}
    {map : FecBuf} (accepts : (readPwid msg elm len old).verdict = .accept (size, map)) :
    1 ≤ size ∧ size ≤ len := by
  rw [readPwid, accepts_unless_ended] at accepts
  simp only [accepts_unless_ended] at accepts
  obtain ⟨long, -, accepts⟩ := accepts
  have eight : 8 ≤ len := Nat.le_of_not_lt long
  split at accepts
  · cases accepts
    exact ⟨by decide, eight⟩
  · rw [accepts_unless_ended, Reading.bind_accepts] at accepts
    obtain ⟨-, params, -, accepts⟩ := accepts
    cases accepts
    exact ⟨Nat.le_trans (by decide) eight, Nat.le_refl len⟩

/-- A FEC element that is accepted is not empty and no longer than it may be. -/
theorem readFecElm_size {msg : LdpMsg} {beyond elm : List UInt8} {len : Nat} {old : FecBuf}
    {size : Nat} {map : FecBuf}
    (accepts : (readFecElm msg beyond elm len old).verdict = .accept (size, map)) :
    1 ≤ size ∧ size ≤ len := by
  obtain ⟨type, -, accepts⟩ := Reading.bind_accepts.mp accepts
  split at accepts
  · split at accepts
    · rename_i wildcard
      cases accepts
      exact ⟨Nat.le_refl 1, Nat.le_of_eq wildcard.symm⟩
    · cases accepts
  split at accepts
  · exact readPrefix_size accepts
  split at accepts
  · exact readPwid_size accepts
  · cases accepts

/-! ### Parts of a message -/

/-- A read or a subtraction that keeps within a stretch of the PDU. What is done with a prefix that
is longer than an address keeps within nothing. -/
def Access.Inside (stretch : Stretch) : Access → Prop
  | .read left size => left ≤ stretch.top ∧ stretch.after + size ≤ left
  | .subtract counter amount => amount ≤ counter
  | .overlong _ => False

instance (stretch : Stretch) (access : Access) : Decidable (access.Inside stretch) :=
  match access with
  | .read _ _ => inferInstanceAs (Decidable (_ ∧ _))
  | .subtract _ _ => inferInstanceAs (Decidable (_ ≤ _))
  | .overlong _ => inferInstanceAs (Decidable False)

/-- What C gives a meaning to, as far as it can be told without the PDU. -/
def Access.Meant : Access → Prop
  | .read _ _ => True
  | .subtract _ _ => True
  | .overlong _ => False

instance (access : Access) : Decidable access.Meant :=
  match access with
  | .read _ _ => inferInstanceAs (Decidable True)
  | .subtract _ _ => inferInstanceAs (Decidable True)
  | .overlong _ => inferInstanceAs (Decidable False)

theorem Access.Inside.meant {stretch : Stretch} {access : Access} (inside : access.Inside stretch) :
    access.Meant := by
  cases access with
  | read => trivial
  | subtract => trivial
  | overlong => exact inside

/-- The part of a PDU that a pointer has in front of it, inside a stretch. -/
def Holds (stretch : Stretch) (buf part : List UInt8) : Prop :=
  ∃ more, buf = part ++ more ∧ stretch.after ≤ more.length ∧ buf.length ≤ stretch.top

theorem Holds.drop {stretch : Stretch} {buf part : List UInt8} (holds : Holds stretch buf part)
    (n : Nat) (long : n ≤ part.length) : Holds stretch (buf.drop n) (part.drop n) := by
  obtain ⟨more, rfl, after, top⟩ := holds
  refine ⟨more, List.drop_append_of_le_length long, after, ?_⟩
  rw [List.length_drop]
  omega

theorem Holds.take {stretch : Stretch} {buf part : List UInt8} (holds : Holds stretch buf part)
    (n : Nat) : Holds stretch buf (part.take n) := by
  obtain ⟨more, rfl, after, top⟩ := holds
  refine ⟨part.drop n ++ more, ?_, ?_, top⟩
  · rw [← List.append_assoc, List.take_append_drop]
  · rw [List.length_append]
    omega

/-- The part of a PDU that a pointer has in front of it, up to the end of a stretch, with what
comes after it. -/
structure Spans (stretch : Stretch) (beyond buf part : List UInt8) : Prop where
  eq : buf = part ++ beyond
  after : beyond.length = stretch.after
  top : buf.length ≤ stretch.top

theorem Spans.holds {stretch : Stretch} {beyond buf part : List UInt8}
    (spans : Spans stretch beyond buf part) : Holds stretch buf part :=
  ⟨beyond, spans.eq, Nat.le_of_eq spans.after.symm, spans.top⟩

theorem Spans.drop {stretch : Stretch} {beyond buf part : List UInt8}
    (spans : Spans stretch beyond buf part) (n : Nat) (long : n ≤ part.length) :
    Spans stretch beyond (buf.drop n) (part.drop n) where
  eq := by rw [spans.eq, List.drop_append_of_le_length long]
  after := spans.after
  top := by
    rw [List.length_drop]
    exact Nat.le_trans (Nat.sub_le _ _) spans.top

/-- A function of bytes that looks at the first ones only. -/
def Local {Value : Type} (size : Nat) (decode : List UInt8 → Value) : Prop :=
  ∀ bytes more, size ≤ bytes.length → decode (bytes ++ more) = decode bytes

theorem local_get8 : Local 1 get8 := fun _ more long => get8_append more long

theorem local_get16 : Local 2 get16 := fun _ more long => get16_append more long

theorem local_get32 : Local 4 get32 := fun _ more long => get32_append more long

theorem Local.drop {Value : Type} {size : Nat} {decode : List UInt8 → Value}
    (looks : Local size decode) (n : Nat) : Local (n + size) fun bytes => decode (bytes.drop n) := by
  intro bytes more long
  show decode ((bytes ++ more).drop n) = _
  rw [List.drop_append_of_le_length (by omega)]
  exact looks _ more (by rw [List.length_drop]; omega)

theorem Local.mono {Value : Type} {size size' : Nat} {decode : List UInt8 → Value}
    (looks : Local size decode) (le : size ≤ size') : Local size' decode :=
  fun bytes more long => looks bytes more (Nat.le_trans le long)

theorem Local.map₂ {First Second Value : Type} {size : Nat} {first : List UInt8 → First}
    {second : List UInt8 → Second} (looks : Local size first) (looks' : Local size second)
    (f : First → Second → Value) : Local size fun bytes => f (first bytes) (second bytes) := by
  intro bytes more long
  show f (first (bytes ++ more)) (second (bytes ++ more)) = _
  rw [looks bytes more long, looks' bytes more long]

theorem local_getTlv : Local 4 getTlv :=
  (local_get16.mono (by decide)).map₂ (local_get16.drop 2) Tlv.mk

theorem local_getSubtlv : Local 2 getSubtlv :=
  (local_get8.mono (by decide)).map₂ (local_get8.drop 1) Subtlv.mk

theorem local_getTlv_get32 : Local 8 fun bytes => (getTlv bytes, get32 (bytes.drop 4)) :=
  (local_getTlv.mono (by decide)).map₂ (local_get32.drop 4) Prod.mk

theorem local_getTlv_get16 : Local 6 fun bytes => (getTlv bytes, get16 (bytes.drop 4)) :=
  (local_getTlv.mono (by decide)).map₂ (local_get16.drop 4) Prod.mk

theorem local_take (n : Nat) : Local n (List.take (α := UInt8) n) :=
  fun _ _ long => List.take_append_of_le_length long

/-! ### Primitives -/

section Follows

variable {stretch : Stretch} {Value Read : Type} {enough : Prop}

/-- A parser that follows a reading of a stretch. -/
abbrev Obeys (stretch : Stretch) (enough : Prop) (agrees : Value → Read → Prop)
    (parser : Parser Value) (said : Said Read) : Prop :=
  Follows (Access.Inside stretch) Access.Meant say enough agrees parser said

theorem obeys_readMem {buf part : List UInt8} {size : Nat} {decode : List UInt8 → Value}
    (holds : Holds stretch buf part) (long : size ≤ part.length) (looks : Local size decode) :
    Obeys stretch enough Eq (readMem size decode buf) (pure (decode part)) := by
  obtain ⟨more, rfl, after, top⟩ := holds
  intro ldpe
  have fits : size ≤ (part ++ more).length := by
    rw [List.length_append]
    omega
  have run : readMem size decode (part ++ more) ldpe =
      ⟨[.read (part ++ more).length size], .ret (some (decode part), ldpe)⟩ := by
    rw [readMem, if_pos fits, looks part more long]
  rw [FollowsAt, run]
  refine Or.inr ⟨iff_of_true (List.forall_mem_singleton.mpr ⟨top, ?_⟩) rfl,
    defined_event trivial _, decode part, rfl, rfl⟩
  rw [List.length_append]
  omega

theorem obeys_subtract {width counter amount : Nat} (fits : amount ≤ counter)
    (bound : counter < 2 ^ width) :
    Obeys stretch enough Eq (subtract width counter amount) (pure (counter - amount)) := by
  intro ldpe
  refine Or.inr ⟨iff_of_true ?_ rfl, defined_event trivial _, counter - amount, rfl, ?_⟩
  · intro event member
    obtain rfl := List.mem_singleton.mp member
    exact fits
  · have value : (counter + 2 ^ width - amount % 2 ^ width) % 2 ^ width = counter - amount := by
      rw [Nat.mod_eq_of_lt (by omega : amount < 2 ^ width),
        show counter + 2 ^ width - amount = counter - amount + 2 ^ width by omega,
        Nat.add_mod_right, Nat.mod_eq_of_lt (by omega)]
    show Outcome.ret (some ((counter + 2 ^ width - amount % 2 ^ width) % 2 ^ width), ldpe) = _
    rw [value]
    rfl

theorem obeys_subtractInt {counter amount : Nat} (fits : amount ≤ counter) :
    Obeys stretch enough Eq (subtractInt counter amount) (pure (counter - amount)) := by
  intro ldpe
  refine Or.inr ⟨iff_of_true ?_ rfl, defined_event trivial _, counter - amount, rfl, rfl⟩
  intro event member
  obtain rfl := List.mem_singleton.mp member
  exact fits

theorem obeys_shutdown {agrees : Value → Read → Prop} (status : UInt32) (msg : LdpMsg) :
    Obeys stretch enough agrees (shutdown status msg) (endWith status msg) :=
  follows_reject _

theorem obeys_refuse {agrees : Value → Read → Prop} (status : UInt32) (msg : LdpMsg) :
    Obeys stretch enough agrees (refuse status msg) (refuseWith status msg) :=
  follows_reject _

/-- A prefix that is longer than an address, whatever is done about it. -/
theorem obeys_overlong {agrees : Value → Read → Prop} (prefixlen : UInt8)
    (next : Unit → Parser Value) :
    Obeys stretch enough agrees (log (.overlong prefixlen) >>= next)
      ({ strays := true, verdict := .undefined } : Said Read) := by
  intro ldpe
  have astray : ¬Clean (Access.Inside stretch)
      (log (.overlong prefixlen) ldpe : Execution Access (Option Unit × Ldpe)) :=
    fun clean => clean _ (List.mem_singleton_self _)
  have undefined : ¬Defined Access.Meant
      (log (.overlong prefixlen) ldpe : Execution Access (Option Unit × Ldpe)) :=
    fun defined => defined.1 _ (List.mem_singleton_self _)
  exact Or.inr ⟨iff_of_false (bind_undefined astray undefined).1 nofun, rfl,
    (bind_undefined astray undefined).2⟩

@[inherit_doc followsAt_ite]
theorem obeys_ite {agrees : Value → Read → Prop} {condition : Prop} [Decidable condition]
    {yes no : Parser Value} {yes' no' : Said Read}
    (taken : condition → Obeys stretch enough agrees yes yes')
    (passed : ¬condition → Obeys stretch enough agrees no no') :
    Obeys stretch enough agrees (if condition then yes else no)
      (if condition then yes' else no') :=
  fun ldpe => followsAt_ite (fun holds => taken holds ldpe) fun fails => passed fails ldpe

@[inherit_doc FollowsAt.bind_pure]
theorem obeys_bind_pure {Value' : Type} {agrees : Value' → Read → Prop} {parser : Parser Value}
    {value : Value} {next : Value → Parser Value'} {said : Said Read}
    (first : Obeys stretch enough Eq parser (pure value))
    (rest : Obeys stretch enough agrees (next value) said) :
    Obeys stretch enough agrees (parser >>= next) said :=
  fun ldpe => (first ldpe).bind_pure (rest ldpe)

/-- A parser that reads before it goes on. -/
theorem obeys_readMem_bind {Value' : Type} {agrees : Value' → Read → Prop} {buf part : List UInt8}
    {size : Nat} {decode : List UInt8 → Value} {next : Value → Parser Value'} {said : Said Read}
    (holds : Holds stretch buf part) (long : size ≤ part.length) (looks : Local size decode)
    (rest : Obeys stretch enough agrees (next (decode part)) said) :
    Obeys stretch enough agrees (readMem size decode buf >>= next) said :=
  obeys_bind_pure (obeys_readMem holds long looks) rest

/-- A parser that takes something off a length before it goes on. -/
theorem obeys_subtract_bind {Value' : Type} {agrees : Value' → Read → Prop}
    {width counter amount : Nat} {next : Nat → Parser Value'} {said : Said Read}
    (fits : amount ≤ counter) (bound : counter < 2 ^ width)
    (rest : Obeys stretch enough agrees (next (counter - amount)) said) :
    Obeys stretch enough agrees (subtract width counter amount >>= next) said :=
  obeys_bind_pure (obeys_subtract fits bound) rest

/-- The read of the type of an element leaves the stretch if the element has no bytes. -/
theorem obeys_readType {beyond buf elm : List UInt8} (spans : Spans stretch beyond buf elm) :
    Obeys stretch enough Eq (readMem 1 get8 buf) (readType elm beyond) := by
  obtain ⟨rfl, after, top⟩ := spans
  intro ldpe
  rw [readType]
  have inside : Clean (Access.Inside stretch) (readMem 1 get8 (elm ++ beyond) ldpe) ↔
      elm.isEmpty = false := by
    have single : Clean (Access.Inside stretch) (readMem 1 get8 (elm ++ beyond) ldpe) ↔
        Access.Inside stretch (.read (elm ++ beyond).length 1) := List.forall_mem_singleton
    rw [single, Access.Inside, and_iff_right top, List.length_append, after]
    cases elm with
    | nil => simp
    | cons type rest =>
      rw [List.length_cons]
      exact iff_of_true (by omega) rfl
  cases bytes : elm ++ beyond with
  | nil =>
    obtain ⟨rfl, rfl⟩ := List.append_eq_nil_iff.mp bytes
    exact Or.inr ⟨inside, rfl, fun defined => defined.2 rfl⟩
  | cons type rest =>
    rw [bytes] at inside
    exact Or.inr ⟨inside, defined_event trivial _, type, rfl, rfl⟩

/-! ### FEC elements -/

/-- The prefix length stays as it is when the prefix is no longer than an address. -/
theorem copiedPrefixlen_eq {af : Af} {prefixlen : UInt8} (short : prefixlen ≤ af.maxPrefixlen)
    (bytes : List UInt8) : copiedPrefixlen prefixlen bytes = prefixlen := by
  have fits : prefixSize prefixlen ≤ 16 := by
    have bound : prefixlen.toNat ≤ 128 := by
      cases af with
      | inet => exact Nat.le_trans (UInt8.le_iff_toNat_le.mp short) (by decide)
      | inet6 => exact UInt8.le_iff_toNat_le.mp short
    rw [prefixSize]
    omega
  exact if_neg (Nat.not_lt.mpr fits)

/-- A prefix that is no longer than an address leaves nothing behind the address. -/
theorem setCopied_eq {af : Af} {prefixlen : UInt8} (short : prefixlen ≤ af.maxPrefixlen)
    {bytes : List UInt8} (copied : bytes.length ≤ prefixSize prefixlen) (old : FecBuf) :
    old.setCopied (ldpApplymask (addrOfBytes af bytes) prefixlen) prefixlen bytes =
      old.setPrefix (ldpApplymask (addrOfBytes af bytes) prefixlen) prefixlen := by
  cases af with
  | inet6 => rfl
  | inet =>
    have few : bytes.length ≤ 8 := by
      have bound : prefixlen.toNat ≤ 32 := UInt8.le_iff_toNat_le.mp short
      rw [prefixSize] at copied
      omega
    show { old.setPrefix _ prefixlen with ifmtu := get16 ((bytes.drop 8).take 2).reverse } = _
    rw [List.drop_eq_nil_of_le few]
    rfl

theorem obeys_decodePrefixElm {buf elm : List UInt8} {len : Nat} (msg : LdpMsg) (old : FecBuf)
    (holds : Holds stretch buf elm) (long : len ≤ elm.length) :
    Obeys stretch enough Eq (decodePrefixElm msg buf len old) (readPrefix msg elm len old) := by
  rw [decodePrefixElm, readPrefix]
  refine obeys_ite (fun _ => obeys_shutdown _ _) fun short => ?_
  have four : 4 ≤ len := Nat.le_of_not_lt short
  refine obeys_readMem_bind (holds.drop 1 (by omega)) ?_ local_get16 ?_
  · rw [List.length_drop]
    omega
  cases family : afOfFamily (get16 (elm.drop 1)) with
  | none => exact obeys_refuse _ _
  | some af =>
    refine obeys_readMem_bind (holds.drop 3 (by omega)) ?_ local_get8 ?_
    · rw [List.length_drop]
      omega
    refine obeys_ite (fun _ => obeys_shutdown _ _) fun short' => ?_
    have size : 4 + prefixSize (get8 (elm.drop 3)) ≤ len := Nat.le_of_not_lt short'
    refine obeys_readMem_bind (holds.drop 4 (by omega)) ?_ (local_take _) ?_
    · rw [List.length_drop]
      omega
    rw [noteOverlong]
    by_cases overlong : af.maxPrefixlen < get8 (elm.drop 3)
    · rw [if_pos overlong, if_pos overlong]
      exact obeys_overlong _ _
    · have short := UInt8.not_lt.mp overlong
      rw [if_neg overlong, if_neg overlong]
      simp only [copiedPrefixlen_eq short, setCopied_eq short (List.length_take_le _ _) old]
      exact follows_pure rfl

/-- The loop over the interface parameters and the parameters that are left agree. -/
def SubtlvAt (stretch : Stretch) (total : Nat) (locals : SubtlvLocals) (params : PwParams) : Prop :=
  Holds stretch locals.buf params.left ∧ locals.pwLen = params.left.length ∧
    locals.pwLen < 2 ^ 8 ∧ locals.off + locals.pwLen = total ∧ locals.flags = params.flags ∧
    locals.ifmtu = params.ifmtu

/-- The loop over the interface parameters has come to the end of the element. -/
def SubtlvDone (total : Nat) (locals : SubtlvLocals) (params : PwParams) : Prop :=
  locals.off = total ∧ locals.flags = params.flags ∧ locals.ifmtu = params.ifmtu

/-- The loop over the interface parameters after one more of them. -/
theorem SubtlvAt.advance {total : Nat} {locals : SubtlvLocals} {params : PwParams}
    (place : SubtlvAt stretch total locals params) {n : Nat} (long : n ≤ params.left.length)
    (flags : MapFlags) (ifmtu : UInt16) :
    SubtlvAt stretch total
      { buf := locals.buf.drop n, off := locals.off + n, pwLen := locals.pwLen - n, flags, ifmtu }
      { left := params.left.drop n, flags, ifmtu } := by
  obtain ⟨holds, pwLen, small, off, -, -⟩ := place
  refine ⟨holds.drop n long, ?_, ?_, ?_, rfl, rfl⟩
  · rw [List.length_drop, pwLen]
  · exact Nat.lt_of_le_of_lt (Nat.sub_le _ _) small
  · show locals.off + n + (locals.pwLen - n) = total
    omega

theorem obeys_subtlvRound (msg : LdpMsg) (total : Nat) (locals : SubtlvLocals) (params : PwParams)
    (place : SubtlvAt stretch total locals params) {silent : Prop} (quiet : silent) :
    Obeys stretch enough
      (RoundAgrees (fun params => params.left.length) (SubtlvAt stretch total) (SubtlvDone total)
        locals params silent)
      (subtlvRound msg locals) (readParam msg params) := by
  have next := fun (n : Nat) (long : n ≤ params.left.length) => place.advance long
  obtain ⟨holds, pwLen, small, off, flags, ifmtu⟩ := place
  rw [subtlvRound, readParam, pwLen]
  rw [pwLen] at next small off
  by_cases empty : params.left.length = 0
  · simp only [if_pos empty]
    rw [empty] at off
    exact follows_pure ⟨off, flags, ifmtu⟩
  by_cases short : params.left.length < subtlvHdrSize
  · simp only [if_neg empty, if_pos short, if_pos (Or.inl short)]
    exact obeys_shutdown _ _
  simp only [if_neg empty, if_neg short, or_iff_right short]
  have two : 2 ≤ params.left.length := Nat.le_of_not_lt short
  refine obeys_readMem_bind holds two local_getSubtlv ?_
  generalize getSubtlv params.left = stlv
  by_cases overlong : params.left.length < stlv.length.toNat
  · simp only [if_pos overlong]
    exact obeys_shutdown _ _
  simp only [if_neg overlong]
  have fits : stlv.length.toNat ≤ params.left.length := Nat.le_of_not_lt overlong
  by_cases mtu : stlv.type = subtlvIfmtu
  · simp only [if_pos mtu, if_neg (not_not.mpr mtu)]
    by_cases size : stlv.length.toNat = fecSubtlvIfmtuSize
    · simp only [if_neg (not_not.mpr size)]
      have four : stlv.length.toNat = 4 := size
      refine obeys_readMem_bind (holds.drop 2 two) ?_ local_get16 ?_
      · rw [List.length_drop]
        omega
      refine obeys_subtract_bind fits small ?_
      refine follows_pure (Or.inl ⟨?_, ?_⟩)
      · rw [flags]
        exact next _ fits _ _
      · show (params.left.drop stlv.length.toNat).length < params.left.length
        rw [List.length_drop]
        omega
    · simp only [if_pos size]
      exact obeys_shutdown _ _
  · simp only [if_neg mtu, if_pos mtu]
    refine obeys_subtract_bind fits small ?_
    by_cases zero : stlv.length.toNat = 0
    · refine follows_pure (Or.inr ⟨?_, ?_, quiet⟩)
      · rw [zero, List.drop_zero, Nat.sub_zero, ← pwLen]
        rfl
      · show ¬(params.left.drop stlv.length.toNat).length < params.left.length
        rw [zero, List.drop_zero]
        exact Nat.lt_irrefl _
    · refine follows_pure (Or.inl ⟨?_, ?_⟩)
      · rw [flags, ifmtu]
        exact next _ fits _ _
      · show (params.left.drop stlv.length.toNat).length < params.left.length
        rw [List.length_drop]
        omega

theorem readParam_quiet (msg : LdpMsg) (params : PwParams) :
    (readParam msg params).replies = [] ∧ (readParam msg params).strays = false := by
  rw [readParam]
  repeat' split
  all_goals exact ⟨rfl, rfl⟩

theorem obeys_subtlvs (fuel : Nat) (msg : LdpMsg) (total : Nat) {locals : SubtlvLocals}
    {params : PwParams} (place : SubtlvAt stretch total locals params) :
    Obeys stretch (params.left.length < fuel) (SubtlvDone total) (loop (subtlvRound msg) fuel locals)
      (readParams msg params) := by
  have rounds : Obeys stretch (True ∧ params.left.length < fuel) (SubtlvDone total)
      (loop (subtlvRound msg) fuel locals) (readParams msg params) :=
    follows_loop _ (SubtlvAt stretch total) (fun locals params place =>
      obeys_subtlvRound msg total locals params place (readParam_quiet msg params)) fuel place
  exact rounds.mono fun short => ⟨trivial, short⟩

/-- The parameters of a pseudowire take fewer than 256 rounds. -/
theorem obeys_decodePwidElm {buf elm : List UInt8} {len : Nat} (fuel : Nat) (msg : LdpMsg)
    (old : FecBuf) (holds : Holds stretch buf elm) (long : len ≤ elm.length) :
    Obeys stretch (256 ≤ fuel) Eq (decodePwidElm fuel msg buf len old) (readPwid msg elm len old) := by
  rw [decodePwidElm, readPwid]
  by_cases short : len < fecPwidElmMinLen
  · simp only [if_pos short]
    exact obeys_shutdown _ _
  simp only [if_neg short]
  have eight : 8 ≤ len := Nat.le_of_not_lt short
  refine obeys_readMem_bind (holds.drop 1 (by omega)) ?_ local_get16 ?_
  · rw [List.length_drop]
    omega
  refine obeys_readMem_bind (holds.drop 3 (by omega)) ?_ local_get8 ?_
  · rw [List.length_drop]
    omega
  by_cases size : len = fecPwidElmMinLen + (get8 (elm.drop 3)).toNat
  swap
  · simp only [if_pos size]
    exact obeys_shutdown _ _
  simp only [if_neg (not_not.mpr size)]
  refine obeys_readMem_bind (holds.drop 4 (by omega)) ?_ local_get32 ?_
  · rw [List.length_drop]
    omega
  by_cases bare : get8 (elm.drop 3) = 0
  · simp only [if_pos bare]
    exact follows_pure rfl
  simp only [if_neg bare]
  by_cases short' : (get8 (elm.drop 3)).toNat < 4
  · simp only [if_pos short']
    exact obeys_shutdown _ _
  simp only [if_neg short']
  have bound := (get8 (elm.drop 3)).toNat_lt
  generalize get8 (elm.drop 3) = pwLen at *
  have total : len = 8 + pwLen.toNat := size
  refine obeys_readMem_bind (holds.drop 8 (by omega)) ?_ local_get32 ?_
  · rw [List.length_drop]
    omega
  refine obeys_subtract_bind (Nat.le_of_not_lt short') bound ?_
  have params : ((elm.drop 12).take (pwLen.toNat - 4)).length = pwLen.toNat - 4 := by
    rw [List.length_take, List.length_drop]
    omega
  have place : ∀ flags ifmtu, SubtlvAt stretch len
      { buf := buf.drop 12, off := 12, pwLen := pwLen.toNat - 4, flags, ifmtu }
      { left := (elm.drop 12).take (pwLen.toNat - 4), flags, ifmtu } := fun flags ifmtu => by
    refine ⟨(holds.drop 12 (by omega)).take _, params.symm, ?_, ?_, rfl, rfl⟩
    · show pwLen.toNat - 4 < 2 ^ 8
      omega
    · show 12 + (pwLen.toNat - 4) = len
      omega
  refine ((obeys_subtlvs fuel msg len (place _ _)).mono ?_).bind ?_
  · intro plenty
    rw [params]
    omega
  · rintro locals read - ⟨off, flags, ifmtu⟩
    rw [off, flags, ifmtu]
    exact follows_pure rfl

/-- `tlv_decode_fec_elm` follows the reading of a FEC element. -/
theorem obeys_tlvDecodeFecElm {beyond buf elm : List UInt8} {len : Nat} (fuel : Nat) (msg : LdpMsg)
    (old : FecBuf) (spans : Spans stretch beyond buf elm) (long : len ≤ elm.length) :
    Obeys stretch (256 ≤ fuel) Eq (tlvDecodeFecElm fuel msg buf len old)
      (readFecElm msg beyond elm len old) := by
  rw [tlvDecodeFecElm, readFecElm]
  refine (obeys_readType spans).bind ?_
  rintro type read - rfl
  refine obeys_ite (fun _ => ?_) fun _ => ?_
  · exact obeys_ite (fun _ => follows_pure rfl) fun _ => obeys_shutdown _ _
  refine obeys_ite (fun _ => obeys_decodePrefixElm msg old spans.holds long) fun _ => ?_
  refine obeys_ite (fun _ => obeys_decodePwidElm fuel msg old spans.holds long) fun _ => ?_
  exact obeys_refuse _ _

end Follows

end Ldpd
