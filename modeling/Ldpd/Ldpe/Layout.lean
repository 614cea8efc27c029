/-
This file says, in terms of the bytes of a message, which messages do harm to their
parser: a pseudowire parameter that claims to have no length, a prefix longer than
its addresses, and a FEC TLV without elements at the end of a message. It proves
that these are the only ones whose reading is endless, undefined or leaves the
message.
-/

import Ldpd.Ldpe.Messages

namespace Ldpd

open Bytes Code Reading

/-! ### Interface parameters -/

/-- The length of the first interface parameter, its own header included. -/
def paramLen (params : List UInt8) : Nat :=
  (get8 (params.drop 1)).toNat

/-- The first interface parameter is well formed. -/
def GoodParam (params : List UInt8) : Prop :=
  subtlvHdrSize ≤ params.length ∧ 0 < paramLen params ∧ paramLen params ≤ params.length ∧
    (get8 params = subtlvIfmtu → paramLen params = fecSubtlvIfmtuSize)

/-- What follows the first interface parameter, if that is well formed. -/
def ParamNext (params rest : List UInt8) : Prop :=
  GoodParam params ∧ params.drop (paramLen params) = rest

/-- The first interface parameter has no length, and is not the MTU. -/
def ZeroParam (params : List UInt8) : Prop :=
  subtlvHdrSize ≤ params.length ∧ paramLen params = 0 ∧ get8 params ≠ subtlvIfmtu

instance (params : List UInt8) : Decidable (ZeroParam params) :=
  inferInstanceAs (Decidable (_ ∧ _))

/-- Interface parameters that are well formed up to one that has no length. -/
def ParamsStall : List UInt8 → Prop :=
  Walk ParamNext ZeroParam

/-- Interface parameters that are all well formed. -/
def ParamsGood : List UInt8 → Prop :=
  Walk ParamNext (· = [])

/-- What becomes of the first interface parameter. -/
theorem readParam_cases (msg : LdpMsg) (params : PwParams) :
    (params.left = [] ∧ readParam msg params = pure (.inr params)) ∨
    (GoodParam params.left ∧ ∃ again : PwParams,
      params.left.drop (paramLen params.left) = again.left ∧
      readParam msg params = pure (.inl again)) ∨
    (ZeroParam params.left ∧ readParam msg params = pure (.inl params)) ∨
    (params.left ≠ [] ∧ ¬GoodParam params.left ∧ ¬ZeroParam params.left ∧
      readParam msg params = endWith sBadTlvLen msg) := by
  have length : (getSubtlv params.left).length.toNat = paramLen params.left := rfl
  have type : (getSubtlv params.left).type = get8 params.left := rfl
  rw [readParam, length, type]
  by_cases empty : params.left = []
  · refine Or.inl ⟨empty, ?_⟩
    simp only [if_pos (List.length_eq_zero_iff.mpr empty)]
  refine Or.inr ?_
  simp only [if_neg (mt List.length_eq_zero_iff.mp empty)]
  by_cases short : params.left.length < subtlvHdrSize ∨ params.left.length < paramLen params.left
  · refine Or.inr (Or.inr ⟨empty, ?_, ?_, if_pos short⟩)
    · rintro ⟨long, -, fits, -⟩
      omega
    · rintro ⟨long, zero, -⟩
      omega
  obtain ⟨long, fits⟩ := not_or.mp short
  rw [Nat.not_lt] at long fits
  simp only [if_neg short]
  by_cases mtu : get8 params.left = subtlvIfmtu
  · rw [if_neg (not_not.mpr mtu)]
    by_cases four : paramLen params.left = fecSubtlvIfmtuSize
    · have positive : 0 < paramLen params.left := by
        rw [four]
        decide
      exact Or.inl ⟨⟨long, positive, fits, fun _ => four⟩, _, rfl, if_neg (not_not.mpr four)⟩
    · refine Or.inr (Or.inr ⟨empty, fun good => four (good.2.2.2 mtu), ?_, if_pos four⟩)
      exact fun zero => zero.2.2 mtu
  · rw [if_pos mtu]
    by_cases zero : paramLen params.left = 0
    · refine Or.inr (Or.inl ⟨⟨long, zero, mtu⟩, ?_⟩)
      rw [zero, List.drop_zero]
    · refine Or.inl ⟨⟨long, Nat.pos_of_ne_zero zero, fits, fun same => absurd same mtu⟩, ?_⟩
      exact ⟨_, rfl, rfl⟩

theorem not_goodParam_nil : ¬GoodParam [] :=
  fun good => absurd good.1 (by decide)

theorem GoodParam.shorter {params : List UInt8} (good : GoodParam params) :
    (params.drop (paramLen params)).length < params.length := by
  obtain ⟨-, positive, fits, -⟩ := good
  rw [List.length_drop]
  omega

theorem ZeroParam.not_goodParam {params : List UInt8} (zero : ZeroParam params) :
    ¬GoodParam params :=
  fun good => absurd zero.2.1 (Nat.ne_of_gt good.2.1)

theorem readParam_goesOn (msg : LdpMsg) (params : PwParams) (rest : List UInt8) :
    ParamNext params.left rest ↔
      ∃ again, GoesOn (readParam msg) (fun params => params.left.length) params again ∧
        again.left = rest := by
  rcases readParam_cases msg params with ⟨empty, reads⟩ | ⟨good, again, left, reads⟩ |
    ⟨zero, reads⟩ | ⟨-, bad, -, reads⟩
  · refine ⟨fun next => ?_, ?_⟩
    · rw [empty] at next
      exact absurd next.1 not_goodParam_nil
    · rintro ⟨again, ⟨accepts, -⟩, -⟩
      rw [reads] at accepts
      cases accepts
  · refine ⟨fun next => ⟨again, ⟨?_, ?_⟩, ?_⟩, ?_⟩
    · rw [reads]
      rfl
    · show again.left.length < params.left.length
      rw [← left]
      exact good.shorter
    · rw [← left]
      exact next.2
    · rintro ⟨again', ⟨accepts, -⟩, rfl⟩
      rw [reads] at accepts
      cases accepts
      exact ⟨good, left⟩
  · refine ⟨fun next => absurd next.1 zero.not_goodParam, ?_⟩
    rintro ⟨again, ⟨accepts, closer⟩, -⟩
    rw [reads] at accepts
    cases accepts
    exact absurd closer (Nat.lt_irrefl _)
  · refine ⟨fun next => absurd next.1 bad, ?_⟩
    rintro ⟨again, ⟨accepts, -⟩, -⟩
    rw [reads] at accepts
    cases accepts

theorem not_has_endWith {Read : Type} (status : UInt32) (msg : LdpMsg) (flaw : Flaw) :
    ¬(endWith status msg : Said Read).Has flaw :=
  not_has_reject _ _ _

theorem not_has_refuseWith {Read : Type} (status : UInt32) (msg : LdpMsg) (flaw : Flaw) :
    ¬(refuseWith status msg : Said Read).Has flaw :=
  not_has_reject _ _ _

theorem readParam_spoils (msg : LdpMsg) (flaw : Flaw) (params : PwParams) :
    Spoils (readParam msg) (fun params => params.left.length) flaw params ↔
      flaw = .endless ∧ ZeroParam params.left := by
  rw [Spoils]
  rcases readParam_cases msg params with ⟨empty, reads⟩ | ⟨good, again, left, reads⟩ |
    ⟨zero, reads⟩ | ⟨-, -, other, reads⟩
  · rw [reads, or_iff_right (not_has_pure _ _)]
    refine and_congr_right fun _ => iff_of_false ?_ ?_
    · rintro ⟨_, accepts, -⟩
      cases accepts
    · rw [empty]
      decide
  · rw [reads, or_iff_right (not_has_pure _ _)]
    refine and_congr_right fun _ => ⟨?_, fun zero => absurd good zero.not_goodParam⟩
    rintro ⟨_, same, stays⟩
    cases same
    refine absurd good.shorter ?_
    rw [left]
    exact stays
  · rw [reads, or_iff_right (not_has_pure _ _)]
    exact and_congr_right fun _ => ⟨fun _ => zero, fun _ => ⟨params, rfl, Nat.lt_irrefl _⟩⟩
  · rw [reads, or_iff_right (not_has_endWith _ _ _)]
    refine and_congr_right fun _ => iff_of_false ?_ other
    rintro ⟨_, accepts, -⟩
    cases accepts

theorem readParam_ends (msg : LdpMsg) (params : PwParams) :
    (∃ value, (readParam msg params).verdict = .accept (.inr value)) ↔ params.left = [] := by
  rcases readParam_cases msg params with ⟨empty, reads⟩ | ⟨good, again, -, reads⟩ |
    ⟨zero, reads⟩ | ⟨other, -, -, reads⟩
  · rw [reads]
    exact iff_of_true ⟨params, rfl⟩ empty
  · refine iff_of_false ?_ fun empty => not_goodParam_nil (empty ▸ good)
    rintro ⟨_, accepts⟩
    rw [reads] at accepts
    cases accepts
  · refine iff_of_false ?_ fun empty => absurd (empty ▸ zero) (by decide)
    rintro ⟨_, accepts⟩
    rw [reads] at accepts
    cases accepts
  · refine iff_of_false ?_ other
    rintro ⟨_, accepts⟩
    rw [reads] at accepts
    cases accepts

/-- Interface parameters take forever when they stall, and do no other harm. -/
theorem readParams_has (msg : LdpMsg) (flaw : Flaw) (params : PwParams) :
    (readParams msg params).Has flaw ↔ flaw = .endless ∧ ParamsStall params.left := by
  rw [readParams, iterate_has, ParamsStall, ← walk_and]
  exact walk_iff PwParams.left (fun _ => True) (fun _ _ _ _ => trivial)
    (fun params rest _ => readParam_goesOn msg params rest)
    (fun params _ => readParam_spoils msg flaw params) trivial

/-- Interface parameters are accepted when they are well formed. -/
theorem readParams_accepts (msg : LdpMsg) (params : PwParams) :
    (∃ value, (readParams msg params).verdict = .accept value) ↔ ParamsGood params.left := by
  rw [readParams, iterate_accepts, ParamsGood]
  exact walk_iff PwParams.left (fun _ => True) (fun _ _ _ _ => trivial)
    (fun params rest _ => readParam_goesOn msg params rest)
    (fun params _ => readParam_ends msg params) trivial

/-! ### FEC elements -/

/-- The family and the prefix length of a prefix element of the given length, if it is complete. -/
def prefixElm (elm : List UInt8) (len : Nat) : Option (Af × UInt8) :=
  if fecElmPrefixMinLen ≤ len then
    (afOfFamily (get16 (elm.drop 1))).bind fun af =>
      if fecElmPrefixMinLen + prefixSize (get8 (elm.drop 3)) ≤ len then some (af, get8 (elm.drop 3))
      else none
  else none

/-- The size of a prefix element. -/
def prefixElmSize (prefixlen : UInt8) : Nat :=
  fecElmPrefixMinLen + prefixSize prefixlen

/-- The prefix of an element, with the bits beyond its length masked out. -/
def prefixOf (elm : List UInt8) (af : Af) (prefixlen : UInt8) : LdpdAddr :=
  ldpApplymask (addrOfBytes af ((elm.drop 4).take (prefixSize prefixlen))) prefixlen

/-- A prefix element is complete, and its prefix is longer than an address. -/
def Overlong (elm : List UInt8) (len : Nat) : Prop :=
  get8 elm = mapTypePrefix ∧
    ∃ af prefixlen, prefixElm elm len = some (af, prefixlen) ∧ af.maxPrefixlen < prefixlen

/-- A prefix element is complete, and its prefix is one of its family. -/
def PrefixGood (elm : List UInt8) (len size : Nat) : Prop :=
  get8 elm = mapTypePrefix ∧
    ∃ af prefixlen, prefixElm elm len = some (af, prefixlen) ∧ prefixlen ≤ af.maxPrefixlen ∧
      prefixElmSize prefixlen = size

/-- What becomes of a prefix element. -/
theorem readPrefix_cases (msg : LdpMsg) (elm : List UInt8) (len : Nat) (old : FecBuf) :
    (prefixElm elm len = none ∧ ∃ reply, readPrefix msg elm len old = { verdict := .reject reply }) ∨
    ∃ af prefixlen, prefixElm elm len = some (af, prefixlen) ∧ prefixElmSize prefixlen ≤ len ∧
      (af.maxPrefixlen < prefixlen ∧
          readPrefix msg elm len old = { strays := true, verdict := .undefined } ∨
        prefixlen ≤ af.maxPrefixlen ∧ readPrefix msg elm len old =
          pure (prefixElmSize prefixlen, old.setPrefix (prefixOf elm af prefixlen) prefixlen)) := by
  rw [readPrefix, prefixElm]
  by_cases short : len < fecElmPrefixMinLen
  · exact Or.inl ⟨if_neg (Nat.not_le.mpr short), _, if_pos short⟩
  rw [if_neg short, if_pos (Nat.le_of_not_lt short)]
  cases family : afOfFamily (get16 (elm.drop 1)) with
  | none => exact Or.inl ⟨rfl, _, rfl⟩
  | some af =>
    simp only [Option.bind_some]
    by_cases short' : len < fecElmPrefixMinLen + prefixSize (get8 (elm.drop 3))
    · exact Or.inl ⟨if_neg (Nat.not_le.mpr short'), _, if_pos short'⟩
    have fits := Nat.le_of_not_lt short'
    refine Or.inr ⟨af, get8 (elm.drop 3), if_pos fits, fits, ?_⟩
    rw [if_neg short']
    by_cases overlong : af.maxPrefixlen < get8 (elm.drop 3)
    · exact Or.inl ⟨overlong, if_pos overlong⟩
    · exact Or.inr ⟨UInt8.not_lt.mp overlong, if_neg overlong⟩

/-- The parameters of a pseudowire element that has the given length. -/
def pwidParams (elm : List UInt8) (len : Nat) : List UInt8 :=
  (elm.drop 12).take (len - 12)

/-- A pseudowire element has the length it should have. -/
def PwidSized (elm : List UInt8) (len : Nat) : Prop :=
  get8 elm = mapTypePwid ∧ len = fecPwidElmMinLen + (get8 (elm.drop 3)).toNat

instance (elm : List UInt8) (len : Nat) : Decidable (PwidSized elm len) :=
  inferInstanceAs (Decidable (_ ∧ _))

/-- A pseudowire element has parameters that stall. -/
def PwidStalls (elm : List UInt8) (len : Nat) : Prop :=
  PwidSized elm len ∧ 12 ≤ len ∧ ParamsStall (pwidParams elm len)

/-- A pseudowire element is well formed, with parameters or without. -/
def PwidGood (elm : List UInt8) (len : Nat) : Prop :=
  PwidSized elm len ∧ (len = fecPwidElmMinLen ∨ 12 ≤ len ∧ ParamsGood (pwidParams elm len))

/-- What becomes of a pseudowire element. -/
theorem readPwid_cases (msg : LdpMsg) (elm : List UInt8) (len : Nat) (old : FecBuf) :
    (¬len = fecPwidElmMinLen + (get8 (elm.drop 3)).toNat ∧
      ∃ reply, readPwid msg elm len old = { verdict := .reject reply }) ∨
    len = fecPwidElmMinLen + (get8 (elm.drop 3)).toNat ∧
      (len = fecPwidElmMinLen ∧ (∃ map, readPwid msg elm len old = pure (len, map) ∧
          map.fec.isPwid = true) ∨
        len ≠ fecPwidElmMinLen ∧ ¬12 ≤ len ∧
          (∃ reply, readPwid msg elm len old = { verdict := .reject reply }) ∨
        len ≠ fecPwidElmMinLen ∧ 12 ≤ len ∧ ∃ (params : PwParams) (map : PwParams → FecBuf),
          params.left = pwidParams elm len ∧ (∀ params, (map params).fec.isPwid = true) ∧
          readPwid msg elm len old = readParams msg params >>= fun params =>
            pure (len, map params)) := by
  by_cases short : len < fecPwidElmMinLen
  · refine Or.inl ⟨by omega, .shutdown sBadTlvLen msg, ?_⟩
    rw [readPwid]
    exact if_pos short
  by_cases size : len = fecPwidElmMinLen + (get8 (elm.drop 3)).toNat
  swap
  · refine Or.inl ⟨size, .shutdown sBadTlvLen msg, ?_⟩
    rw [readPwid, if_neg short]
    exact if_pos size
  refine Or.inr ⟨size, ?_⟩
  have sized := not_not.mpr size
  have eight : len = 8 + (get8 (elm.drop 3)).toNat := size
  by_cases bare : get8 (elm.drop 3) = 0
  · have exactly : len = fecPwidElmMinLen := by
      rw [size, bare]
      rfl
    have reads : ∃ flags, readPwid msg elm len old = pure (len, FecBuf.setPwid
        { old with flags } (get16 (elm.drop 1) &&& ~~~controlWordFlag) (get32 (elm.drop 4))) := by
      rw [readPwid, if_neg short]
      simp only [if_neg sized, if_pos bare]
      exact ⟨_, congrArg pure (Prod.ext exactly.symm rfl)⟩
    obtain ⟨flags, reads⟩ := reads
    exact Or.inl ⟨exactly, _, reads, rfl⟩
  have positive : (get8 (elm.drop 3)).toNat ≠ 0 := fun zero => bare (UInt8.toNat_inj.mp zero)
  have more : len ≠ fecPwidElmMinLen := by
    show len ≠ 8
    omega
  by_cases few : (get8 (elm.drop 3)).toNat < 4
  · refine Or.inr (Or.inl ⟨more, by omega, .shutdown sBadTlvLen msg, ?_⟩)
    rw [readPwid, if_neg short]
    simp only [if_neg sized, if_neg bare]
    exact if_pos few
  · have reads : ∃ flags, readPwid msg elm len old =
        readParams msg ⟨pwidParams elm len, flags, old.ifmtu⟩ >>= fun params =>
          pure (len, FecBuf.setPwid
            { old with flags := params.flags, pwid := get32 (elm.drop 8), ifmtu := params.ifmtu }
            (get16 (elm.drop 1) &&& ~~~controlWordFlag) (get32 (elm.drop 4))) := by
      rw [readPwid, if_neg short, pwidParams,
        show len - 12 = (get8 (elm.drop 3)).toNat - 4 by omega]
      simp only [if_neg sized, if_neg bare, if_neg few]
      exact ⟨_, rfl⟩
    obtain ⟨flags, reads⟩ := reads
    exact Or.inr (Or.inr ⟨more, by omega, _, _, rfl, fun _ => rfl, reads⟩)

/-- A FEC element that has a type. -/
theorem readFecElm_eq (msg : LdpMsg) (beyond : List UInt8) {elm : List UInt8} (len : Nat)
    (old : FecBuf) (some' : elm ≠ []) :
    readFecElm msg beyond elm len old =
      if get8 elm = mapTypeWildcard then
        if len = fecElmWcardLen then pure (1, { old with fec := .wildcard })
        else endWith sBadTlvVal msg
      else if get8 elm = mapTypePrefix then readPrefix msg elm len old
      else if get8 elm = mapTypePwid then readPwid msg elm len old
      else refuseWith sUnknownFec msg := by
  cases elm with
  | nil => exact absurd rfl some'
  | cons type rest => rfl

/-- A FEC element without any bytes. -/
theorem readFecElm_nil (msg : LdpMsg) (beyond : List UInt8) (old : FecBuf) :
    (readFecElm msg beyond [] 0 old).strays = true ∧
      (beyond = [] ∧ (readFecElm msg beyond [] 0 old).verdict = .undefined ∨
        beyond ≠ [] ∧ ∃ reply, (readFecElm msg beyond [] 0 old).verdict = .reject reply) := by
  cases beyond with
  | nil => exact ⟨rfl, Or.inl ⟨rfl, rfl⟩⟩
  | cons type rest =>
    have reads : readFecElm msg (type :: rest) [] 0 old =
        ({ strays := true, verdict := .accept type } : Said UInt8) >>= fun type =>
          if type = mapTypeWildcard then endWith sBadTlvVal msg
          else if type = mapTypePrefix then endWith sBadTlvLen msg
          else if type = mapTypePwid then endWith sBadTlvLen msg
          else refuseWith sUnknownFec msg := rfl
    rw [reads, bind_accept rfl]
    refine ⟨rfl, Or.inr ⟨nofun, ?_⟩⟩
    simp only
    split
    · exact ⟨_, rfl⟩
    split
    · exact ⟨_, rfl⟩
    split
    · exact ⟨_, rfl⟩
    · exact ⟨_, rfl⟩

/-- The flaws of a FEC element of the given length, with what comes after the message. -/
def ElmFlaw (beyond elm : List UInt8) (len : Nat) : Flaw → Prop
  | .stray => elm = [] ∨ Overlong elm len
  | .undefined => elm ++ beyond = [] ∨ Overlong elm len
  | .endless => PwidStalls elm len

theorem readPrefix_has (msg : LdpMsg) {elm : List UInt8} (len : Nat) (old : FecBuf) (flaw : Flaw)
    (type : get8 elm = mapTypePrefix) :
    (readPrefix msg elm len old).Has flaw ↔ flaw ≠ .endless ∧ Overlong elm len := by
  rcases readPrefix_cases msg elm len old with ⟨none, reply, reads⟩ |
    ⟨af, prefixlen, some', -, ⟨overlong, reads⟩ | ⟨good, reads⟩⟩
  · rw [reads, iff_false_intro (not_has_reject _ _ _), false_iff, Overlong, none]
    rintro ⟨-, -, _, _, same, -⟩
    cases same
  · rw [reads]
    refine Iff.trans ?_ (and_iff_left ⟨type, af, prefixlen, some', overlong⟩).symm
    cases flaw <;> simp [Has]
  · rw [reads, iff_false_intro (not_has_pure _ _), false_iff, Overlong, some']
    rintro ⟨-, -, _, _, same, overlong⟩
    cases same
    exact absurd overlong (UInt8.not_lt.mpr good)

theorem readPwid_has (msg : LdpMsg) {elm : List UInt8} (len : Nat) (old : FecBuf) (flaw : Flaw)
    (type : get8 elm = mapTypePwid) :
    (readPwid msg elm len old).Has flaw ↔ flaw = .endless ∧ PwidStalls elm len := by
  rw [PwidStalls, PwidSized]
  rcases readPwid_cases msg elm len old with ⟨size, reply, reads⟩ |
    ⟨size, ⟨bare, map, reads, -⟩ | ⟨-, few, reply, reads⟩ | ⟨-, twelve, params, map, left, -, reads⟩⟩
  · rw [reads, iff_false_intro (not_has_reject _ _ _), false_iff]
    exact fun stalls => size stalls.2.1.2
  · rw [reads, iff_false_intro (not_has_pure _ _), false_iff]
    rintro ⟨-, -, twelve, -⟩
    rw [bare] at twelve
    exact absurd twelve (by decide)
  · rw [reads, iff_false_intro (not_has_reject _ _ _), false_iff]
    exact fun stalls => few stalls.2.2.1
  · rw [reads, bind_has, readParams_has, left]
    refine (or_iff_left ?_).trans (and_congr_right fun _ => ?_)
    · rintro ⟨params, -, flawed⟩
      exact absurd flawed (not_has_pure _ _)
    · exact ⟨fun stalls => ⟨⟨type, size⟩, twelve, stalls⟩, fun stalls => stalls.2.2⟩

/-- A FEC element does the harm it can be seen to do. -/
theorem readFecElm_has (msg : LdpMsg) (beyond : List UInt8) {elm : List UInt8} {len : Nat}
    (old : FecBuf) (long : len ≤ elm.length) (flaw : Flaw) :
    (readFecElm msg beyond elm len old).Has flaw ↔ ElmFlaw beyond elm len flaw := by
  by_cases empty : elm = []
  · subst empty
    obtain rfl : len = 0 := Nat.le_zero.mp long
    obtain ⟨strays, ⟨rfl, verdict⟩ | ⟨more, reply, verdict⟩⟩ := readFecElm_nil msg beyond old
    · cases flaw with
      | stray => exact iff_of_true strays (Or.inl rfl)
      | undefined => exact iff_of_true verdict (Or.inl rfl)
      | endless =>
        refine iff_of_false ?_ fun stalls => absurd stalls.2.1 (by decide)
        rw [Has, verdict]
        intro other
        cases other
    · cases flaw with
      | stray => exact iff_of_true strays (Or.inl rfl)
      | undefined =>
        refine iff_of_false ?_ ?_
        · rw [Has, verdict]
          intro other
          cases other
        · rintro (none | ⟨type, -⟩)
          · exact more none
          · exact absurd type (by decide)
      | endless =>
        refine iff_of_false ?_ fun stalls => absurd stalls.2.1 (by decide)
        rw [Has, verdict]
        intro other
        cases other
  rw [readFecElm_eq msg beyond len old empty]
  have flaws : ElmFlaw beyond elm len flaw ↔
      flaw ≠ .endless ∧ Overlong elm len ∨ flaw = .endless ∧ PwidStalls elm len := by
    cases flaw with
    | stray => simp [ElmFlaw, empty]
    | undefined => simp [ElmFlaw, empty]
    | endless => simp [ElmFlaw]
  rw [flaws]
  by_cases wildcard : get8 elm = mapTypeWildcard
  · rw [if_pos wildcard]
    refine iff_of_false ?_ ?_
    · split
      · exact not_has_pure _ _
      · exact not_has_endWith _ _ _
    · rintro (⟨-, type, -⟩ | ⟨-, ⟨type, -⟩, -⟩)
      · exact absurd (wildcard.symm.trans type) (by decide)
      · exact absurd (wildcard.symm.trans type) (by decide)
  rw [if_neg wildcard]
  by_cases network : get8 elm = mapTypePrefix
  · rw [if_pos network, readPrefix_has msg len old flaw network]
    refine (or_iff_left ?_).symm
    rintro ⟨-, ⟨type, -⟩, -⟩
    exact absurd (network.symm.trans type) (by decide)
  rw [if_neg network]
  have other : ¬(flaw ≠ .endless ∧ Overlong elm len) := fun overlong => network overlong.2.1
  rw [or_iff_right other]
  by_cases pwid : get8 elm = mapTypePwid
  · rw [if_pos pwid, readPwid_has msg len old flaw pwid]
  · rw [if_neg pwid]
    exact iff_of_false (not_has_refuseWith _ _ _) fun stalls => pwid stalls.2.1.1

theorem PrefixGood.ne_nil {elm : List UInt8} {len size : Nat} (good : PrefixGood elm len size) :
    elm ≠ [] := by
  rintro rfl
  exact absurd good.1 (by decide)

/-- A prefix element that is well formed is accepted as one. -/
theorem PrefixGood.readFecElm {elm : List UInt8} {len size : Nat} (good : PrefixGood elm len size)
    (msg : LdpMsg) (beyond : List UInt8) (old : FecBuf) :
    ∃ addr prefixlen,
      readFecElm msg beyond elm len old = pure (size, old.setPrefix addr prefixlen) := by
  rw [readFecElm_eq msg beyond len old good.ne_nil]
  obtain ⟨type, af, prefixlen, complete, short, rfl⟩ := good
  rw [if_neg (by rw [type]; decide), if_pos type]
  rcases readPrefix_cases msg elm len old with ⟨none, -⟩ |
    ⟨af', prefixlen', complete', -, ⟨overlong, -⟩ | ⟨-, reads⟩⟩
  · rw [none] at complete
    cases complete
  · rw [complete'] at complete
    cases complete
    exact absurd overlong (UInt8.not_lt.mpr short)
  · rw [complete'] at complete
    cases complete
    exact ⟨_, _, reads⟩

/-- A FEC element is well formed and takes up all of its length. -/
def ElmGood (elm : List UInt8) (len : Nat) : Prop :=
  get8 elm = mapTypeWildcard ∧ len = fecElmWcardLen ∨ PrefixGood elm len len ∨ PwidGood elm len

theorem readPrefix_accepts {msg : LdpMsg} {elm : List UInt8} {len size : Nat} {old map : FecBuf}
    (type : get8 elm = mapTypePrefix)
    (accepts : (readPrefix msg elm len old).verdict = .accept (size, map)) :
    PrefixGood elm len size := by
  rcases readPrefix_cases msg elm len old with ⟨-, reply, reads⟩ |
    ⟨af, prefixlen, complete, -, ⟨-, reads⟩ | ⟨short, reads⟩⟩
  · rw [reads] at accepts
    cases accepts
  · rw [reads] at accepts
    cases accepts
  · rw [reads] at accepts
    cases accepts
    exact ⟨type, af, prefixlen, complete, short, rfl⟩

theorem readPwid_accepts (msg : LdpMsg) {elm : List UInt8} (len : Nat) (old : FecBuf)
    (type : get8 elm = mapTypePwid) :
    (∃ read, (readPwid msg elm len old).verdict = .accept read) ↔ PwidGood elm len := by
  rw [PwidGood, PwidSized]
  rcases readPwid_cases msg elm len old with ⟨size, reply, reads⟩ |
    ⟨size, ⟨bare, map, reads, -⟩ | ⟨more, few, reply, reads⟩ | ⟨more, twelve, params, map, left, -, reads⟩⟩
  · refine iff_of_false ?_ fun good => size good.1.2
    rintro ⟨_, accepts⟩
    rw [reads] at accepts
    cases accepts
  · rw [reads]
    exact iff_of_true ⟨_, rfl⟩ ⟨⟨type, size⟩, Or.inl bare⟩
  · refine iff_of_false ?_ ?_
    · rintro ⟨_, accepts⟩
      rw [reads] at accepts
      cases accepts
    · rintro ⟨-, bare | ⟨twelve, -⟩⟩
      · exact more bare
      · exact few twelve
  · have accepted : ParamsGood (pwidParams elm len) ↔
        ∃ value, (readParams msg params).verdict = .accept value := by
      rw [readParams_accepts, left]
    rw [reads, accepted]
    constructor
    · rintro ⟨read, accepts⟩
      obtain ⟨value, first, -⟩ := bind_accepts.mp accepts
      exact ⟨⟨type, size⟩, Or.inr ⟨twelve, value, first⟩⟩
    · rintro ⟨-, bare | ⟨-, value, first⟩⟩
      · exact absurd bare more
      · exact ⟨_, bind_accepts.mpr ⟨value, first, rfl⟩⟩

theorem readPwid_size_eq {msg : LdpMsg} {elm : List UInt8} {len size : Nat} {old map : FecBuf}
    (accepts : (readPwid msg elm len old).verdict = .accept (size, map)) : size = len := by
  rcases readPwid_cases msg elm len old with ⟨-, reply, reads⟩ |
    ⟨-, ⟨-, map, reads, -⟩ | ⟨-, -, reply, reads⟩ | ⟨-, -, params, map, -, -, reads⟩⟩
  · rw [reads] at accepts
    cases accepts
  · rw [reads] at accepts
    cases accepts
    rfl
  · rw [reads] at accepts
    cases accepts
  · rw [reads, bind_accepts] at accepts
    obtain ⟨value, -, accepts⟩ := accepts
    cases accepts
    rfl

/-- A FEC element that is accepted without taking up all of its length is a prefix. -/
theorem prefixGood_of_lt {msg : LdpMsg} {beyond elm : List UInt8} {len size : Nat} {old map : FecBuf}
    (some' : elm ≠ []) (accepts : (readFecElm msg beyond elm len old).verdict = .accept (size, map))
    (part : size < len) : PrefixGood elm len size := by
  rw [readFecElm_eq msg beyond len old some'] at accepts
  split at accepts
  · split at accepts
    · rename_i exactly
      cases accepts
      rw [exactly] at part
      exact absurd part (by decide)
    · cases accepts
  split at accepts
  · rename_i type
    exact readPrefix_accepts type accepts
  split at accepts
  · exact absurd (readPwid_size_eq accepts) (Nat.ne_of_lt part)
  · cases accepts

/-- The FEC elements that are accepted and take up all of their length. -/
theorem readFecElm_accepts (msg : LdpMsg) (beyond : List UInt8) {elm : List UInt8} (len : Nat)
    (old : FecBuf) (some' : elm ≠ []) :
    (∃ map, (readFecElm msg beyond elm len old).verdict = .accept (len, map)) ↔ ElmGood elm len := by
  constructor
  · rintro ⟨map, accepts⟩
    rw [readFecElm_eq msg beyond len old some'] at accepts
    split at accepts
    · rename_i type
      split at accepts
      · rename_i exactly
        exact Or.inl ⟨type, exactly⟩
      · cases accepts
    split at accepts
    · rename_i type
      exact Or.inr (Or.inl (readPrefix_accepts type accepts))
    split at accepts
    · rename_i type
      exact Or.inr (Or.inr ((readPwid_accepts msg len old type).mp ⟨_, accepts⟩))
    · cases accepts
  · rintro (⟨type, exactly⟩ | good | good)
    · rw [readFecElm_eq msg beyond len old some', if_pos type, if_pos exactly, exactly]
      exact ⟨_, rfl⟩
    · obtain ⟨addr, prefixlen, reads⟩ := good.readFecElm msg beyond old
      rw [reads]
      exact ⟨_, rfl⟩
    · have type := good.1.1
      obtain ⟨⟨size, map⟩, accepts⟩ := (readPwid_accepts msg len old type).mpr good
      obtain rfl := readPwid_size_eq accepts
      rw [readFecElm_eq msg beyond size old some', if_neg (by rw [type]; decide),
        if_neg (by rw [type]; decide), if_pos type]
      exact ⟨map, accepts⟩

/-! ### Label messages -/

/-- What follows the first element of a FEC TLV, for a message that may have several: they are
prefixes. -/
def FecNext (type : UInt16) (elms rest : List UInt8 × Nat) : Prop :=
  type = msgTypeLabelmapping ∧ ∃ size, PrefixGood elms.1 elms.2 size ∧ size < elms.2 ∧
    (elms.1.drop size, elms.2 - size) = rest

/-- The elements of a FEC TLV are well formed up to one with a flaw. -/
def FecsFlaw (type : UInt16) (beyond : List UInt8) (flaw : Flaw) (elms : List UInt8 × Nat) : Prop :=
  Walk (FecNext type) (fun elms => ElmFlaw beyond elms.1 elms.2 flaw) elms

theorem readFec_has (msg : LdpMsg) (type : UInt16) (beyond : List UInt8) (flaw : Flaw)
    {fecs : Fecs} (long : fecs.feclen ≤ fecs.left.length) :
    (readFec msg type beyond fecs).Has flaw ↔ ElmFlaw beyond fecs.left fecs.feclen flaw := by
  rw [readFec, bind_has, readFecElm_has msg beyond {} long]
  refine or_iff_left ?_
  rintro ⟨⟨tlen, map⟩, -, flawed⟩
  simp only at flawed
  split at flawed
  · exact not_has_refuseWith _ _ _ flawed
  split at flawed
  · exact not_has_endWith _ _ _ flawed
  split at flawed
  · exact not_has_endWith _ _ _ flawed
  · exact not_has_pure _ _ flawed

/-- How the reading of FEC elements goes on. -/
theorem readFec_goesOn {msg : LdpMsg} {type : UInt16} {beyond : List UInt8} {fecs next : Fecs}
    (accepts : (readFec msg type beyond fecs).verdict = .accept (.inl next)) :
    ∃ size map, (readFecElm msg beyond fecs.left fecs.feclen {}).verdict = .accept (size, map) ∧
      type = msgTypeLabelmapping ∧ size < fecs.feclen ∧ 1 ≤ size ∧
      next = ⟨fecs.left.drop size, fecs.feclen - size, fecs.maps ++ [map]⟩ := by
  rw [readFec, bind_accepts] at accepts
  obtain ⟨⟨size, map⟩, first, accepts⟩ := accepts
  simp only [accepts_unless_refused, accepts_unless_ended] at accepts
  obtain ⟨-, -, whole, accepts⟩ := accepts
  by_cases part : 0 < fecs.feclen - size
  · rw [if_pos part] at accepts
    cases accepts
    have less : size < fecs.feclen := Nat.lt_of_sub_pos part
    refine ⟨size, map, first, ?_, less, (readFecElm_size first).1, rfl⟩
    exact not_not.mp fun other => whole ⟨other, Nat.ne_of_lt less⟩
  · rw [if_neg part] at accepts
    cases accepts

theorem readFec_spoils (msg : LdpMsg) (type : UInt16) (beyond : List UInt8) (flaw : Flaw)
    {fecs : Fecs} (long : fecs.feclen ≤ fecs.left.length) :
    Spoils (readFec msg type beyond) Fecs.feclen flaw fecs ↔
      ElmFlaw beyond fecs.left fecs.feclen flaw := by
  rw [Spoils, readFec_has msg type beyond flaw long]
  refine or_iff_left ?_
  rintro ⟨-, next, accepts, stays⟩
  obtain ⟨size, map, -, -, part, positive, rfl⟩ := readFec_goesOn accepts
  refine absurd ?_ stays
  show fecs.feclen - size < fecs.feclen
  omega

theorem readFec_next (msg : LdpMsg) (type : UInt16) (beyond : List UInt8) {fecs : Fecs}
    (long : fecs.feclen ≤ fecs.left.length) (rest : List UInt8 × Nat) :
    FecNext type (fecs.left, fecs.feclen) rest ↔
      ∃ next, GoesOn (readFec msg type beyond) Fecs.feclen fecs next ∧
        (next.left, next.feclen) = rest := by
  constructor
  · rintro ⟨mapping, size, good, part, rfl⟩
    obtain ⟨addr, prefixlen, reads⟩ := good.readFecElm msg beyond {}
    have less : 0 < fecs.feclen - size := Nat.sub_pos_of_lt part
    have accepts : (readFec msg type beyond fecs).verdict = .accept (.inl
        ⟨fecs.left.drop size, fecs.feclen - size, fecs.maps ++ [FecBuf.setPrefix {} addr prefixlen]⟩) := by
      rw [readFec, reads, bind_accepts]
      refine ⟨_, rfl, ?_⟩
      simp only [accepts_unless_refused, accepts_unless_ended, if_pos less]
      refine ⟨?_, ?_, fun other => other.1 mapping, rfl⟩
      · exact Bool.false_ne_true
      · rw [wildcardMisplaced, FecBuf.setPrefix, decide_eq_true_iff]
        intro misplaced
        cases misplaced.1
    obtain ⟨size', map, first, -, -, positive, -⟩ := readFec_goesOn accepts
    rw [reads] at first
    cases first
    refine ⟨_, ⟨accepts, ?_⟩, rfl⟩
    show fecs.feclen - size < fecs.feclen
    omega
  · rintro ⟨next, ⟨accepts, -⟩, rfl⟩
    obtain ⟨size, map, first, mapping, part, -, rfl⟩ := readFec_goesOn accepts
    have some' : fecs.left ≠ [] := by
      intro empty
      rw [empty] at long
      exact absurd (Nat.le_zero.mp long) (Nat.ne_of_gt (Nat.zero_lt_of_lt part))
    exact ⟨mapping, size, prefixGood_of_lt some' first part, part, rfl⟩

/-- The FEC elements of a label message do the harm they can be seen to do. -/
theorem readFecs_has (msg : LdpMsg) (type : UInt16) (beyond : List UInt8) (flaw : Flaw)
    {fecs : Fecs} (long : fecs.feclen ≤ fecs.left.length) :
    (readFecs msg type beyond fecs).Has flaw ↔
      FecsFlaw type beyond flaw (fecs.left, fecs.feclen) := by
  rw [readFecs, iterate_has, FecsFlaw]
  refine walk_iff (fun fecs : Fecs => (fecs.left, fecs.feclen))
    (fun fecs => fecs.feclen ≤ fecs.left.length) ?_
    (fun fecs rest long => readFec_next msg type beyond long rest)
    (fun fecs long => readFec_spoils msg type beyond flaw long) long
  rintro fecs next long ⟨accepts, -⟩
  obtain ⟨size, map, -, -, -, -, rfl⟩ := readFec_goesOn accepts
  show fecs.feclen - size ≤ (fecs.left.drop size).length
  rw [List.length_drop]
  exact Nat.sub_le_sub_right long size

/-- The first TLV is all there. -/
def TlvWhole (tlvs : List UInt8) : Prop :=
  tlvHdrSize ≤ tlvs.length ∧ (getTlv tlvs).length.toNat + tlvHdrSize ≤ tlvs.length

instance (tlvs : List UInt8) : Decidable (TlvWhole tlvs) :=
  inferInstanceAs (Decidable (_ ∧ _))

/-- The body of a label message has a FEC TLV, and its elements are well formed up to one with a
flaw. -/
def LabelFlaw (type : UInt16) (beyond body : List UInt8) (flaw : Flaw) : Prop :=
  TlvWhole body ∧ (getTlv body).type = tlvTypeFec ∧
    FecsFlaw type beyond flaw (body.drop tlvHdrSize, (getTlv body).length.toNat)

/-- What becomes of the first TLV. -/
theorem readTlv_cases {Found : Type} (msg : LdpMsg)
    (handle : Tlv → List UInt8 → Found → Said Found) (tlvs : Tlvs Found) :
    (tlvs.left = [] ∧ readTlv msg handle tlvs = pure (.inr tlvs.found)) ∨
    (TlvWhole tlvs.left ∧ readTlv msg handle tlvs =
      handle (getTlv tlvs.left) (tlvs.left.drop tlvHdrSize) tlvs.found >>= fun found =>
        pure (.inl ⟨tlvs.left.drop (tlvHdrSize + (getTlv tlvs.left).length.toNat), found⟩)) ∨
    (¬TlvWhole tlvs.left ∧ readTlv msg handle tlvs = endWith sBadTlvLen msg) := by
  rw [readTlv]
  by_cases empty : tlvs.left = []
  · exact Or.inl ⟨empty, if_pos (List.length_eq_zero_iff.mpr empty)⟩
  simp only [if_neg (mt List.length_eq_zero_iff.mp empty)]
  by_cases short : tlvs.left.length < tlvHdrSize ∨
      tlvs.left.length < (getTlv tlvs.left).length.toNat + tlvHdrSize
  · refine Or.inr (Or.inr ⟨?_, if_pos short⟩)
    rintro ⟨long, whole⟩
    omega
  · obtain ⟨long, whole⟩ := not_or.mp short
    exact Or.inr (Or.inl ⟨⟨Nat.le_of_not_lt long, Nat.le_of_not_lt whole⟩, if_neg short⟩)

theorem not_tlvWhole_nil : ¬TlvWhole [] :=
  fun whole => absurd whole.1 (by decide)

theorem TlvWhole.shorter {tlvs : List UInt8} (whole : TlvWhole tlvs) :
    (tlvs.drop (tlvHdrSize + (getTlv tlvs).length.toNat)).length < tlvs.length := by
  have long : 4 ≤ tlvs.length := whole.1
  rw [List.length_drop]
  show tlvs.length - (4 + _) < _
  omega

/-- The first TLV spoils the reading when its value does. -/
theorem readTlv_spoils {Found : Type} (msg : LdpMsg)
    (handle : Tlv → List UInt8 → Found → Said Found) (flaw : Flaw) (tlvs : Tlvs Found) :
    Spoils (readTlv msg handle) (fun tlvs => tlvs.left.length) flaw tlvs ↔ TlvWhole tlvs.left ∧
      (handle (getTlv tlvs.left) (tlvs.left.drop tlvHdrSize) tlvs.found).Has flaw := by
  rw [Spoils]
  rcases readTlv_cases msg handle tlvs with ⟨empty, reads⟩ | ⟨whole, reads⟩ | ⟨part, reads⟩
  · rw [reads, or_iff_right (not_has_pure _ _), empty]
    refine iff_of_false ?_ fun whole => not_tlvWhole_nil whole.1
    rintro ⟨-, _, accepts, -⟩
    cases accepts
  · rw [reads, and_iff_right whole, bind_has, or_assoc]
    refine or_iff_left ?_
    rintro (⟨found, -, flawed⟩ | ⟨-, again, accepts, stays⟩)
    · exact not_has_pure _ _ flawed
    · obtain ⟨found, -, accepts⟩ := bind_accepts.mp accepts
      cases accepts
      exact stays whole.shorter
  · rw [reads, or_iff_right (not_has_endWith _ _ _)]
    refine iff_of_false ?_ fun whole => part whole.1
    rintro ⟨-, _, accepts, -⟩
    cases accepts

theorem not_has_readUnknown (msg : LdpMsg) (tlv : Tlv) (flaw : Flaw) :
    ¬(readUnknown msg tlv).Has flaw := by
  rw [readUnknown]
  split
  · exact not_has_accept _ _ _
  · exact not_has_pure _ _

theorem not_has_unless_ended {Read : Type} {condition : Prop} [Decidable condition]
    {status : UInt32} {msg : LdpMsg} {said : Said Read} {flaw : Flaw} (fine : ¬said.Has flaw) :
    ¬(if condition then endWith status msg else said).Has flaw := by
  split
  · exact not_has_endWith _ _ _
  · exact fine

theorem not_has_ite {Read : Type} {condition : Prop} [Decidable condition] {yes no : Said Read}
    {flaw : Flaw} (taken : ¬yes.Has flaw) (passed : ¬no.Has flaw) :
    ¬(if condition then yes else no).Has flaw := by
  split
  · exact taken
  · exact passed

theorem not_has_readLabelTlv (msg : LdpMsg) (type : UInt16) (tlv : Tlv) (value : List UInt8)
    (found : LabelParams) (flaw : Flaw) : ¬(readLabelTlv msg type tlv value found).Has flaw := by
  have fine : ∀ found : LabelParams, ¬(pure found : Said LabelParams).Has flaw :=
    fun found => not_has_pure found flaw
  rw [readLabelTlv]
  refine not_has_ite (not_has_ite (not_has_unless_ended (fine _)) (fine _)) ?_
  refine not_has_ite (fine _) ?_
  refine not_has_ite (not_has_ite (not_has_unless_ended (fine _)) (fine _)) ?_
  refine not_has_ite (not_has_unless_ended (fine _)) ?_
  refine not_has_ite (not_has_unless_ended (fine _)) ?_
  refine not_has_ite (not_has_ite (not_has_unless_ended (fine _)) (fine _)) ?_
  rw [bind_has]
  rintro (flawed | ⟨_, -, flawed⟩)
  · exact not_has_readUnknown _ _ _ flawed
  · exact fine _ flawed

theorem not_has_readMandatory (msg : LdpMsg) (type : UInt16) (left : List UInt8) (flaw : Flaw) :
    ¬(readMandatory msg type left).Has flaw := by
  rw [readMandatory]
  refine not_has_ite ?_ (not_has_pure _ _)
  rw [bind_has]
  rintro (flawed | ⟨_, -, flawed⟩)
  · refine absurd flawed ?_
    rw [readLabel]
    refine not_has_unless_ended (not_has_ite (not_has_refuseWith _ _ _) ?_)
    refine not_has_ite (not_has_unless_ended ?_) (not_has_endWith _ _ _)
    exact not_has_ite (not_has_pure _ _) (not_has_endWith _ _ _)
  · exact not_has_pure _ _ flawed

/-- A label message does the harm that its FEC elements can be seen to do. -/
theorem readLabelmessage_has (msg : LdpMsg) (type : UInt16) (beyond body : List UInt8) (flaw : Flaw) :
    (readLabelmessage msg type beyond body).Has flaw ↔ LabelFlaw type beyond body flaw := by
  rw [readLabelmessage, LabelFlaw, TlvWhole]
  by_cases short : body.length < tlvHdrSize
  · simp only [if_pos short]
    exact iff_of_false (not_has_endWith _ _ _) fun flawed =>
      absurd flawed.1.1 (Nat.not_le.mpr short)
  by_cases other : (getTlv body).type ≠ tlvTypeFec
  · simp only [if_neg short, if_pos other]
    exact iff_of_false (not_has_refuseWith _ _ _) fun flawed => other flawed.2.1
  by_cases overlong : body.length - tlvHdrSize < (getTlv body).length.toNat
  · simp only [if_neg short, if_neg other, if_pos overlong]
    exact iff_of_false (not_has_endWith _ _ _) fun flawed => by omega
  simp only [if_neg short, if_neg other, if_neg overlong]
  have long := Nat.le_of_not_lt overlong
  have whole : tlvHdrSize ≤ body.length ∧ (getTlv body).length.toNat + tlvHdrSize ≤ body.length := by
    omega
  rw [and_iff_right whole, and_iff_right (not_not.mp other), bind_has, or_iff_left]
  · refine readFecs_has msg type beyond flaw ?_
    rw [List.length_drop]
    exact long
  · rintro ⟨fecs, -, flawed⟩
    obtain flawed | ⟨tlvs, -, flawed⟩ := bind_has.mp flawed
    · exact not_has_readMandatory _ _ _ _ flawed
    obtain flawed | ⟨params, -, flawed⟩ := bind_has.mp flawed
    · rw [readTlvs, iterate_has] at flawed
      refine walk_never (fun tlvs spoils => ?_) tlvs flawed
      exact not_has_readLabelTlv _ _ _ _ _ _ ((readTlv_spoils _ _ _ _).mp spoils).2
    · exact not_has_pure _ _ flawed

/-! ### Notifications -/

/-- An optional parameter of a notification that is well formed. -/
def NotificationTlvGood (tlv : Tlv) (value : List UInt8) : Prop :=
  (tlv.type = tlvTypePwStatus → tlv.length.toNat = pwStatusTlvLen) ∧
    (tlv.type = tlvTypeFec → value ≠ [] ∧ ElmGood value tlv.length.toNat)

/-- What follows the first optional parameter of a notification, if that is well formed. -/
def NotificationTlvNext (tlvs rest : List UInt8) : Prop :=
  TlvWhole tlvs ∧ NotificationTlvGood (getTlv tlvs) (tlvs.drop tlvHdrSize) ∧
    tlvs.drop (tlvHdrSize + (getTlv tlvs).length.toNat) = rest

/-- The first optional parameter of a notification is a FEC with a flaw. -/
def NotificationTlvFlaw (beyond : List UInt8) (flaw : Flaw) (tlvs : List UInt8) : Prop :=
  TlvWhole tlvs ∧ (getTlv tlvs).type = tlvTypeFec ∧
    ElmFlaw beyond (tlvs.drop tlvHdrSize) (getTlv tlvs).length.toNat flaw

/-- The body of a notification has a status, and its optional parameters are well formed up to a
FEC with a flaw. -/
def NotificationFlaw (beyond body : List UInt8) (flaw : Flaw) : Prop :=
  statusSize ≤ body.length ∧ (getTlv body).length.toNat ≤ statusTlvLen ∧
    Walk NotificationTlvNext (NotificationTlvFlaw beyond flaw) (body.drop statusSize)

theorem readNotificationTlv_has (msg : LdpMsg) (beyond : List UInt8) {tlv : Tlv}
    {value : List UInt8} (found : NotifyParams) (flaw : Flaw)
    (long : tlv.length.toNat ≤ value.length) :
    (readNotificationTlv msg beyond tlv value found).Has flaw ↔
      tlv.type = tlvTypeFec ∧ ElmFlaw beyond value tlv.length.toNat flaw := by
  have fine : ∀ found : NotifyParams, ¬(pure found : Said NotifyParams).Has flaw :=
    fun found => not_has_pure found flaw
  rw [readNotificationTlv]
  by_cases fec : tlv.type = tlvTypeFec
  · rw [if_neg (by rw [fec]; decide), if_neg (by rw [fec]; decide), if_pos fec, and_iff_right fec,
      bind_has, readFecElm_has msg beyond found.fec long]
    refine or_iff_left ?_
    rintro ⟨⟨tlen, map⟩, -, flawed⟩
    exact not_has_unless_ended (fine _) flawed
  · rw [if_neg fec]
    refine iff_of_false ?_ fun flawed => fec flawed.1
    refine not_has_ite (fine _) (not_has_ite (not_has_unless_ended (fine _)) ?_)
    rw [bind_has]
    rintro (flawed | ⟨_, -, flawed⟩)
    · exact not_has_readUnknown _ _ _ flawed
    · exact fine _ flawed

theorem readNotificationTlv_accepts (msg : LdpMsg) (beyond : List UInt8) {tlv : Tlv}
    {value : List UInt8} (found : NotifyParams) (long : tlv.length.toNat ≤ value.length) :
    (∃ found', (readNotificationTlv msg beyond tlv value found).verdict = .accept found') ↔
      NotificationTlvGood tlv value := by
  rw [readNotificationTlv, NotificationTlvGood]
  by_cases fec : tlv.type = tlvTypeFec
  · rw [if_neg (by rw [fec]; decide), if_neg (by rw [fec]; decide), if_pos fec,
      and_iff_right (fun status => absurd (fec.symm.trans status) (by decide)), forall_prop_of_true fec]
    constructor
    · rintro ⟨found', accepts⟩
      obtain ⟨⟨tlen, map⟩, first, accepts⟩ := bind_accepts.mp accepts
      obtain rfl : tlen = tlv.length.toNat := not_not.mp (accepts_unless_ended.mp accepts).1
      have some' : value ≠ [] := by
        rintro rfl
        rw [Nat.le_zero.mp long] at first
        exact absurd (readFecElm_size first).1 (by omega)
      exact ⟨some', (readFecElm_accepts msg beyond _ _ some').mp ⟨map, first⟩⟩
    · rintro ⟨some', good⟩
      obtain ⟨map, first⟩ := (readFecElm_accepts msg beyond _ found.fec some').mpr good
      exact ⟨_, bind_accepts.mpr ⟨_, first, accepts_unless_ended.mpr ⟨not_not.mpr rfl, rfl⟩⟩⟩
  · rw [if_neg fec, and_iff_left (fun same => absurd same fec)]
    by_cases skipped : tlv.type = tlvTypeExtstatus ∨ tlv.type = tlvTypeReturnedpdu ∨
        tlv.type = tlvTypeReturnedmsg
    · rw [if_pos skipped]
      refine iff_of_true ⟨_, rfl⟩ fun status => ?_
      rw [status] at skipped
      exact absurd skipped (by decide)
    rw [if_neg skipped]
    by_cases status : tlv.type = tlvTypePwStatus
    · rw [if_pos status, forall_prop_of_true status]
      constructor
      · rintro ⟨found', accepts⟩
        exact not_not.mp (accepts_unless_ended.mp accepts).1
      · intro four
        exact ⟨_, accepts_unless_ended.mpr ⟨not_not.mpr four, rfl⟩⟩
    · rw [if_neg status]
      refine iff_of_true ?_ fun same => absurd same status
      rw [readUnknown]
      split
      · exact ⟨_, rfl⟩
      · exact ⟨_, rfl⟩

theorem TlvWhole.value {tlvs : List UInt8} (whole : TlvWhole tlvs) :
    (getTlv tlvs).length.toNat ≤ (tlvs.drop tlvHdrSize).length := by
  rw [List.length_drop]
  exact Nat.le_sub_of_add_le whole.2

theorem readNotification_next (msg : LdpMsg) (beyond : List UInt8) (tlvs : Tlvs NotifyParams)
    (rest : List UInt8) :
    NotificationTlvNext tlvs.left rest ↔
      ∃ next, GoesOn (readTlv msg (readNotificationTlv msg beyond)) (fun tlvs => tlvs.left.length)
        tlvs next ∧ next.left = rest := by
  rcases readTlv_cases msg (readNotificationTlv msg beyond) tlvs with ⟨empty, reads⟩ |
    ⟨whole, reads⟩ | ⟨part, reads⟩
  · refine iff_of_false ?_ ?_
    · rw [empty]
      exact fun next => not_tlvWhole_nil next.1
    · rintro ⟨next, ⟨accepts, -⟩, -⟩
      rw [reads] at accepts
      cases accepts
  · have good := readNotificationTlv_accepts msg beyond tlvs.found whole.value
    constructor
    · rintro ⟨-, fine, rfl⟩
      obtain ⟨found, first⟩ := good.mpr fine
      refine ⟨⟨_, found⟩, ⟨?_, whole.shorter⟩, rfl⟩
      rw [reads, bind_accepts]
      exact ⟨found, first, rfl⟩
    · rintro ⟨next, ⟨accepts, -⟩, rfl⟩
      rw [reads, bind_accepts] at accepts
      obtain ⟨found, first, accepts⟩ := accepts
      cases accepts
      exact ⟨whole, good.mp ⟨found, first⟩, rfl⟩
  · refine iff_of_false (fun next => part next.1) ?_
    rintro ⟨next, ⟨accepts, -⟩, -⟩
    rw [reads] at accepts
    cases accepts

/-- A notification does the harm that its FEC parameters can be seen to do. -/
theorem readNotification_has (msg : LdpMsg) (beyond body : List UInt8) (flaw : Flaw) :
    (readNotification msg beyond body).Has flaw ↔ NotificationFlaw beyond body flaw := by
  rw [readNotification, NotificationFlaw]
  by_cases short : body.length < statusSize
  · simp only [if_pos short]
    exact iff_of_false (not_has_endWith _ _ _) fun flawed =>
      absurd flawed.1 (Nat.not_le.mpr short)
  have long := Nat.le_of_not_lt short
  simp only [if_neg short]
  have fourteen : 14 ≤ body.length := long
  by_cases overlong : statusTlvLen < (getTlv body).length.toNat
  · have tooLong : statusSize - tlvHdrSize < (getTlv body).length.toNat := overlong
    rw [if_pos (Or.inl tooLong)]
    exact iff_of_false (not_has_endWith _ _ _) fun flawed =>
      absurd flawed.2.1 (Nat.not_le.mpr overlong)
  have ten : (getTlv body).length.toNat ≤ 10 := Nat.le_of_not_lt overlong
  have fits : ¬(statusSize - tlvHdrSize < (getTlv body).length.toNat ∨
      body.length - tlvHdrSize < (getTlv body).length.toNat) := by
    show ¬(14 - 4 < _ ∨ body.length - 4 < _)
    omega
  rw [if_neg fits, and_iff_right long, and_iff_right (Nat.le_of_not_lt overlong), bind_has, or_iff_left]
  · rw [readTlvs, iterate_has]
    refine walk_iff Tlvs.left (fun _ => True) (fun _ _ _ _ => trivial)
      (fun tlvs rest _ => readNotification_next msg beyond tlvs rest) (fun tlvs _ => ?_) trivial
    rw [readTlv_spoils, NotificationTlvFlaw]
    exact and_congr_right fun whole => readNotificationTlv_has msg beyond _ flaw whole.value
  · rintro ⟨found, -, flawed⟩
    exact not_has_pure _ _ flawed

end Ldpd
