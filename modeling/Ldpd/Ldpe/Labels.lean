/-
This file says which label messages are taken, in terms of their bytes: those with FEC
elements that are well formed and fit the message and its label, with the label of a
mapping, and with parameters of the lengths they should have. It also says which ones
are refused while the session goes on: those without a FEC TLV, with an element of a
type or a family that is not known or without the id of its pseudowire, and mappings
with something else in the place of the label.
-/

import Ldpd.Ldpe.Delivery

namespace Ldpd

open Bytes Code Reading

/-! ### Refusals -/

/-- The message is refused, and the session goes on. -/
def Refuses {Read : Type} (said : Said Read) : Prop :=
  ∃ status msg, said.verdict = .reject (.notify status msg)

section Refuses

variable {Read Read' : Type}

theorem refuses_bind {first : Said Read} {next : Read → Said Read'} : Refuses (first >>= next) ↔
    Refuses first ∨ ∃ read, first.verdict = .accept read ∧ Refuses (next read) := by
  simp only [Refuses, bind_rejects]
  constructor
  · rintro ⟨status, msg, stopped | ⟨read, accepts, stopped⟩⟩
    · exact Or.inl ⟨status, msg, stopped⟩
    · exact Or.inr ⟨read, accepts, status, msg, stopped⟩
  · rintro (⟨status, msg, stopped⟩ | ⟨read, accepts, status, msg, stopped⟩)
    · exact ⟨status, msg, Or.inl stopped⟩
    · exact ⟨status, msg, Or.inr ⟨read, accepts, stopped⟩⟩

theorem refuses_unless_ended {condition : Prop} [Decidable condition] {status : UInt32}
    {msg : LdpMsg} {said : Said Read} :
    Refuses (if condition then endWith status msg else said) ↔ ¬condition ∧ Refuses said := by
  split
  · rename_i holds
    refine iff_of_false ?_ fun both => both.1 holds
    rintro ⟨_, _, rejects⟩
    cases rejects
  · rename_i fails
    exact (and_iff_right fails).symm

theorem refuses_unless_refused {condition : Prop} [Decidable condition] {status : UInt32}
    {msg : LdpMsg} {said : Said Read} :
    Refuses (if condition then refuseWith status msg else said) ↔ condition ∨ Refuses said := by
  split
  · rename_i holds
    exact iff_of_true ⟨status, msg, rfl⟩ (Or.inl holds)
  · rename_i fails
    exact (or_iff_right fails).symm

theorem not_refuses_accept {said : Said Read} {read : Read} (accepts : said.verdict = .accept read) :
    ¬Refuses said := by
  rintro ⟨_, _, rejects⟩
  cases accepts.symm.trans rejects

/-- A reading that rejects with the end of the session only. -/
theorem not_refuses_of_rejects {msg : LdpMsg} {said : Said Read}
    (rejects : Rejects (fun reply => ∃ status, reply = .shutdown status msg) said) : ¬Refuses said := by
  rintro ⟨_, _, stopped⟩
  obtain ⟨_, same⟩ := rejects _ stopped
  cases same

/-- A reading in rounds refuses when it comes to a round that refuses. -/
theorem refuses_iterate {Local : Type} {round : Local → Said (Local ⊕ Read)} {measure : Local → Nat}
    {locals : Local} : Refuses (iterate round measure locals) ↔
      Walk (GoesOn round measure) (fun locals => Refuses (round locals)) locals := by
  constructor
  · rintro ⟨status, msg, stopped⟩
    induction iterate_rejects.mp stopped with
    | here found => exact .here ⟨status, msg, found⟩
    | later goesOn walk inductionHypothesis =>
      exact .later goesOn (inductionHypothesis (iterate_rejects.mpr walk))
  · intro walk
    induction walk with
    | here found =>
      obtain ⟨status, msg, stopped⟩ := found
      exact ⟨status, msg, iterate_rejects.mpr (.here stopped)⟩
    | later goesOn _ inductionHypothesis =>
      obtain ⟨status, msg, stopped⟩ := inductionHypothesis
      exact ⟨status, msg, iterate_rejects.mpr (.later goesOn (iterate_rejects.mp stopped))⟩

end Refuses

/-! ### FEC elements -/

/-- A FEC element of a message is no wildcard where there may be none, and does not leave out the id
of a pseudowire where it has to be given. -/
structure ElmFits (type : UInt16) (elm : List UInt8) (len : Nat) : Prop where
  wildcard : get8 elm = mapTypeWildcard → ¬(type = msgTypeLabelmapping ∨ type = msgTypeLabelrequest ∨
    type = msgTypeLabelabortreq)
  pwid : get8 elm = mapTypePwid → len = fecPwidElmMinLen →
    type = msgTypeLabelwithdraw ∨ type = msgTypeLabelrelease

/-- The last FEC element of a message: it is well formed, fits and fills the TLV. -/
def LastElm (type : UInt16) (elms : List UInt8 × Nat) : Prop :=
  elms.1 ≠ [] ∧ ElmGood elms.1 elms.2 ∧ ElmFits type elms.1 elms.2

/-- FEC elements that are all well formed and fit their message. -/
def FecsGood (type : UInt16) : List UInt8 × Nat → Prop :=
  Walk (FecNext type) (LastElm type)

/-- A FEC element cannot have a label: that of the other family, or a reserved one for a
pseudowire. -/
def LabelMisfit (label : UInt32) (elm : List UInt8) : Prop :=
  get8 elm = mapTypePrefix ∧
      (afOfFamily (get16 (elm.drop 1)) = some .inet ∧ label = mplsLabelIpv6null ∨
        afOfFamily (get16 (elm.drop 1)) = some .inet6 ∧ label = mplsLabelIpv4null) ∨
    get8 elm = mapTypePwid ∧ label ≤ mplsLabelReservedMax

/-- A FEC element of a type that is not known, or a prefix of a family that is not. -/
inductive FecUnknown (beyond elm : List UInt8) (len : Nat) : Prop
  | type (some' : elm ++ beyond ≠ []) (wildcard : get8 (elm ++ beyond) ≠ mapTypeWildcard)
      (network : get8 (elm ++ beyond) ≠ mapTypePrefix) (pwid : get8 (elm ++ beyond) ≠ mapTypePwid)
  | family (network : get8 elm = mapTypePrefix) (long : fecElmPrefixMinLen ≤ len)
      (other : afOfFamily (get16 (elm.drop 1)) = none)

/-- A FEC element for which a message is refused. -/
inductive ElmRefused (type : UInt16) (beyond : List UInt8) (elms : List UInt8 × Nat) : Prop
  | unknown (unknown : FecUnknown beyond elms.1 elms.2)
  | unnamed (sized : PwidSized elms.1 elms.2) (bare : elms.2 = fecPwidElmMinLen)
      (wanted : type ≠ msgTypeLabelwithdraw ∧ type ≠ msgTypeLabelrelease)

section Elements

variable {msg : LdpMsg} {type : UInt16} {beyond : List UInt8}

theorem readParams_pwId {params read : PwParams}
    (accepts : (readParams msg params).verdict = .accept read) :
    read.flags.pwId = params.flags.pwId := by
  have step : ∀ (locals : PwParams) (next : PwParams ⊕ PwParams),
      (readParam msg locals).verdict = .accept next →
        (Sum.elim id id next).flags.pwId = locals.flags.pwId := by
    intro locals next goesOn
    rw [readParam] at goesOn
    split at goesOn
    · cases goesOn
      rfl
    obtain ⟨-, goesOn⟩ := accepts_unless_ended.mp goesOn
    split at goesOn
    · cases goesOn
      rfl
    obtain ⟨-, goesOn⟩ := accepts_unless_ended.mp goesOn
    cases goesOn
    rfl
  have again : ∀ locals next : PwParams, locals.flags.pwId = params.flags.pwId →
      (readParam msg locals).verdict = .accept (.inl next) →
        next.flags.pwId = params.flags.pwId :=
    fun locals next same goesOn => (step locals _ goesOn).trans same
  have done : ∀ locals value : PwParams, locals.flags.pwId = params.flags.pwId →
      (readParam msg locals).verdict = .accept (.inr value) →
        value.flags.pwId = params.flags.pwId :=
    fun locals value same ends => (step locals _ ends).trans same
  exact iterate_induct again done rfl accepts

/-- A pseudowire has an id when its element has more than the fixed part. -/
theorem readPwid_pwId {elm : List UInt8} {len size : Nat} {map : FecBuf}
    (accepts : (readPwid msg elm len {}).verdict = .accept (size, map)) :
    map.flags.pwId = true ↔ len ≠ fecPwidElmMinLen := by
  rw [readPwid] at accepts
  simp only [accepts_unless_ended] at accepts
  obtain ⟨-, sized, accepts⟩ := accepts
  have length : len = 8 + (get8 (elm.drop 3)).toNat := not_not.mp sized
  split at accepts
  · rename_i bare
    cases accepts
    rw [bare] at length
    refine iff_of_false ?_ (not_not.mpr length)
    show ¬(if get16 (elm.drop 1) &&& controlWordFlag ≠ 0 then _ else _ : MapFlags).pwId = true
    split
    · exact Bool.false_ne_true
    · exact Bool.false_ne_true
  · rename_i more
    rw [accepts_unless_ended, bind_accepts] at accepts
    obtain ⟨-, params, first, accepts⟩ := accepts
    cases accepts
    have positive : (get8 (elm.drop 3)).toNat ≠ 0 := fun zero => more (UInt8.toNat_inj.mp zero)
    exact iff_of_true (readParams_pwId first) (by show len ≠ 8; omega)

/-- What a FEC element is read as. -/
theorem readFecElm_map {elm : List UInt8} {len size : Nat} {map : FecBuf} (some' : elm ≠ [])
    (accepts : (readFecElm msg beyond elm len {}).verdict = .accept (size, map)) :
    (get8 elm = mapTypeWildcard ∧ map.fec = .wildcard) ∨
    (get8 elm = mapTypePrefix ∧ ∃ af prefixlen, afOfFamily (get16 (elm.drop 1)) = some af ∧
      map.fec = .network (prefixOf elm af prefixlen) prefixlen) ∨
    (PwidSized elm len ∧ map.fec.isPwid = true ∧
      (map.flags.pwId = true ↔ len ≠ fecPwidElmMinLen)) := by
  rw [readFecElm_eq msg beyond len {} some'] at accepts
  split at accepts
  · rename_i wildcard
    split at accepts
    · cases accepts
      exact Or.inl ⟨wildcard, rfl⟩
    · cases accepts
  split at accepts
  · rename_i network
    rcases readPrefix_cases msg elm len {} with ⟨-, reply, reads⟩ |
      ⟨af, prefixlen, complete, -, ⟨-, reads⟩ | ⟨-, reads⟩⟩
    · rw [reads] at accepts
      cases accepts
    · rw [reads] at accepts
      cases accepts
    · rw [reads] at accepts
      cases accepts
      exact Or.inr (Or.inl ⟨network, af, prefixlen, (prefixElm_eq_some complete).1, rfl⟩)
  split at accepts
  swap
  · cases accepts
  rename_i pwid
  refine Or.inr (Or.inr ⟨((readPwid_accepts msg len {} pwid).mp ⟨_, accepts⟩).1, ?_,
    readPwid_pwId accepts⟩)
  rcases readPwid_cases msg elm len {} with ⟨-, reply, reads⟩ |
    ⟨-, ⟨-, map', reads, named⟩ | ⟨-, -, reply, reads⟩ | ⟨-, -, params, map', -, named, reads⟩⟩
  · rw [reads] at accepts
    cases accepts
  · rw [reads] at accepts
    cases accepts
    exact named
  · rw [reads] at accepts
    cases accepts
  · rw [reads] at accepts
    obtain ⟨params', -, accepts⟩ := bind_accepts.mp accepts
    cases accepts
    exact named params'

/-- Whether an element fits its message can be seen from its bytes. -/
theorem fitting_iff {elm : List UInt8} {len size : Nat} {map : FecBuf} (some' : elm ≠ [])
    (accepts : (readFecElm msg beyond elm len {}).verdict = .accept (size, map)) :
    Fitting type map ↔ ElmFits type elm len := by
  rw [Fitting, pwidMissing, wildcardMisplaced, decide_eq_true_iff, decide_eq_true_iff]
  rcases readFecElm_map some' accepts with ⟨wildcard, fec⟩ | ⟨network, af, prefixlen, -, fec⟩ |
    ⟨⟨pwid, -⟩, isPwid, named⟩
  · rw [fec]
    refine ⟨fun fits => ⟨fun _ placed => fits.2 ⟨rfl, placed⟩, fun other => ?_⟩,
      fun fits => ⟨fun missing => Bool.false_ne_true missing.1, fun both => fits.wildcard wildcard both.2⟩⟩
    exact absurd (wildcard.symm.trans other) (by decide)
  · rw [fec]
    refine iff_of_true ⟨fun missing => Bool.false_ne_true missing.1, ?_⟩
      ⟨fun other => ?_, fun other => ?_⟩
    · rintro ⟨isWildcard, -⟩
      cases isWildcard
    · exact absurd (network.symm.trans other) (by decide)
    · exact absurd (network.symm.trans other) (by decide)
  · rw [isPwid, named]
    have other : map.fec ≠ .wildcard := by
      intro wildcard
      rw [wildcard] at isPwid
      cases isPwid
    constructor
    · rintro ⟨missing, -⟩
      refine ⟨fun wildcard => absurd (pwid.symm.trans wildcard) (by decide), fun _ bare => ?_⟩
      by_contra neither
      exact missing ⟨rfl, not_not.mpr bare, not_or.mp neither⟩
    · intro fits
      refine ⟨?_, fun both => other both.1⟩
      rintro ⟨-, bare, withdraw, release⟩
      exact (fits.pwid pwid (not_not.mp bare)).elim withdraw release

/-- Whether an element can have a label can be seen from its bytes. -/
theorem labelMisplaced_iff {elm : List UInt8} {len size : Nat} {map : FecBuf} (some' : elm ≠ [])
    (accepts : (readFecElm msg beyond elm len {}).verdict = .accept (size, map)) (label : UInt32) :
    labelMisplaced label map.fec = true ↔ LabelMisfit label elm := by
  rw [LabelMisfit]
  rcases readFecElm_map some' accepts with ⟨wildcard, fec⟩ | ⟨network, af, prefixlen, family, fec⟩ |
    ⟨⟨pwid, -⟩, isPwid, -⟩
  · rw [fec, wildcard]
    exact iff_of_false Bool.false_ne_true (by rintro (⟨other, -⟩ | ⟨other, -⟩) <;> cases other)
  · rw [fec, network, family, labelMisplaced, af_prefixOf]
    cases af with
    | inet => simp [show mapTypePrefix ≠ mapTypePwid by decide]
    | inet6 => simp [show mapTypePrefix ≠ mapTypePwid by decide]
  · rw [pwid]
    cases fec : map.fec with
    | pwid => simp [labelMisplaced, show mapTypePwid ≠ mapTypePrefix by decide]
    | _ =>
      rw [fec] at isPwid
      cases isPwid

/-! ### FEC TLVs -/

theorem ne_nil_of_accepts {elm : List UInt8} {len size : Nat} {map : FecBuf} (long : len ≤ elm.length)
    (accepts : (readFecElm msg beyond elm len {}).verdict = .accept (size, map)) : elm ≠ [] := by
  rintro rfl
  obtain ⟨positive, fits⟩ := readFecElm_size accepts
  exact absurd (Nat.le_trans positive (Nat.le_trans fits long)) (by decide)

/-- The reading of elements ends with the last one. -/
theorem readFec_ends {fecs : Fecs} (long : fecs.feclen ≤ fecs.left.length) :
    (∃ ends, (readFec msg type beyond fecs).verdict = .accept (.inr ends)) ↔
      LastElm type (fecs.left, fecs.feclen) := by
  constructor
  · rintro ⟨ends, accepts⟩
    obtain ⟨size, map, reads, fitting, stops⟩ := readFec_accepts accepts
    have some' := ne_nil_of_accepts long reads
    have whole : size = fecs.feclen := by
      refine Nat.le_antisymm (readFecElm_size reads).2 (Nat.not_lt.mp fun part => ?_)
      rw [if_pos part] at stops
      cases stops
    subst whole
    exact ⟨some', (readFecElm_accepts msg beyond _ {} some').mp ⟨map, reads⟩,
      (fitting_iff some' reads).mp fitting⟩
  · rintro ⟨some', good, fits⟩
    obtain ⟨map, reads⟩ := (readFecElm_accepts msg beyond fecs.feclen {} some').mpr good
    obtain ⟨present, placed⟩ := (fitting_iff some' reads).mpr fits
    refine ⟨⟨fecs.left.drop fecs.feclen, fecs.feclen - fecs.feclen, fecs.maps ++ [map]⟩, ?_⟩
    rw [readFec, bind_accepts]
    refine ⟨_, reads, ?_⟩
    simp only [accepts_unless_refused, accepts_unless_ended]
    refine ⟨present, placed, fun both => both.2 rfl, ?_⟩
    rw [if_neg (by rw [Nat.sub_self]; exact Nat.lt_irrefl 0)]
    rfl

/-- What is left of a TLV stays within the message. -/
theorem readFec_long {fecs next : Fecs} (long : fecs.feclen ≤ fecs.left.length)
    (goesOn : GoesOn (readFec msg type beyond) Fecs.feclen fecs next) :
    next.feclen ≤ next.left.length := by
  obtain ⟨size, map, -, -, -, -, rfl⟩ := readFec_goesOn goesOn.1
  show fecs.feclen - size ≤ (fecs.left.drop size).length
  rw [List.length_drop]
  exact Nat.sub_le_sub_right long size

/-- FEC elements are accepted when they are well formed and fit. -/
theorem readFecs_accepts {fecs : Fecs} (long : fecs.feclen ≤ fecs.left.length) :
    (∃ ends, (readFecs msg type beyond fecs).verdict = .accept ends) ↔
      FecsGood type (fecs.left, fecs.feclen) := by
  rw [readFecs, iterate_accepts]
  exact walk_iff (fun fecs : Fecs => (fecs.left, fecs.feclen))
    (fun fecs => fecs.feclen ≤ fecs.left.length) (fun _ _ long goesOn => readFec_long long goesOn)
    (fun fecs rest long => readFec_next msg type beyond long rest)
    (fun fecs long => readFec_ends long) long

/-- The first element that cannot have the label is the one read or is further on. -/
theorem walk_misfit {label : UInt32} {elms : List UInt8 × Nat} {size : Nat} {map : FecBuf}
    (some' : elms.1 ≠ [])
    (reads : (readFecElm msg beyond elms.1 elms.2 {}).verdict = .accept (size, map))
    (mapping : size < elms.2 → type = msgTypeLabelmapping) :
    Walk (FecNext type) (fun elms => LabelMisfit label elms.1) elms ↔
      labelMisplaced label map.fec = true ∨ size < elms.2 ∧
        Walk (FecNext type) (fun elms => LabelMisfit label elms.1) (elms.1.drop size, elms.2 - size) := by
  rw [labelMisplaced_iff some' reads]
  constructor
  · intro walk
    cases walk with
    | here found => exact Or.inl found
    | later next rest =>
      obtain ⟨-, size', good, part, rfl⟩ := next
      obtain ⟨addr, prefixlen, same⟩ := good.readFecElm msg beyond {}
      rw [same] at reads
      cases reads
      exact Or.inr ⟨part, rest⟩
  · rintro (found | ⟨part, rest⟩)
    · exact .here found
    · exact .later ⟨mapping part, size, prefixGood_of_lt some' reads part, part, rfl⟩ rest

/-- One of the elements that have been read cannot have the label, or one of those that are left. -/
def MisfitAmong (type : UInt16) (label : UInt32) (fecs : Fecs) : Prop :=
  (∃ map ∈ fecs.maps, labelMisplaced label map.fec = true) ∨
    Walk (FecNext type) (fun elms => LabelMisfit label elms.1) (fecs.left, fecs.feclen)

theorem misfit_append {label : UInt32} {maps : List FecBuf} {map : FecBuf} :
    (∃ other ∈ maps ++ [map], labelMisplaced label other.fec = true) ↔
      (∃ other ∈ maps, labelMisplaced label other.fec = true) ∨ labelMisplaced label map.fec = true := by
  simp only [List.mem_append, List.mem_singleton, or_and_right, exists_or, exists_eq_left]

/-- What the elements that are read leave of the message, and whether they can have a label. -/
theorem readFecs_misfit {elms : List UInt8} {len : Nat} (long : len ≤ elms.length) {ends : Fecs}
    (accepts : (readFecs msg type beyond ⟨elms, len, []⟩).verdict = .accept ends) (label : UInt32) :
    ends.left = elms.drop len ∧ ((∃ map ∈ ends.maps, labelMisplaced label map.fec = true) ↔
      Walk (FecNext type) (fun elms => LabelMisfit label elms.1) (elms, len)) := by
  have again : ∀ fecs next : Fecs, (fecs.feclen ≤ fecs.left.length ∧
      fecs.left.drop fecs.feclen = elms.drop len ∧
        (MisfitAmong type label fecs ↔ MisfitAmong type label ⟨elms, len, []⟩)) →
      (readFec msg type beyond fecs).verdict = .accept (.inl next) →
      next.feclen ≤ next.left.length ∧ next.left.drop next.feclen = elms.drop len ∧
        (MisfitAmong type label next ↔ MisfitAmong type label ⟨elms, len, []⟩) := by
    rintro fecs next ⟨long, left, same⟩ goesOn
    obtain ⟨size, map, reads, mapping, part, positive, rfl⟩ := readFec_goesOn goesOn
    have misfit : Walk (FecNext type) (fun elms => LabelMisfit label elms.1) (fecs.left, fecs.feclen) ↔ _ :=
      walk_misfit (ne_nil_of_accepts long reads) reads fun _ => mapping
    refine ⟨?_, ?_, ?_⟩
    · rw [List.length_drop]
      exact Nat.sub_le_sub_right long size
    · rw [List.drop_drop, Nat.add_sub_cancel' (Nat.le_of_lt part), left]
    · rw [← same, MisfitAmong, MisfitAmong, misfit_append, or_assoc, misfit, and_iff_right part]
  have done : ∀ fecs ends : Fecs, (fecs.feclen ≤ fecs.left.length ∧
      fecs.left.drop fecs.feclen = elms.drop len ∧
        (MisfitAmong type label fecs ↔ MisfitAmong type label ⟨elms, len, []⟩)) →
      (readFec msg type beyond fecs).verdict = .accept (.inr ends) →
      ends.left = elms.drop len ∧ ((∃ map ∈ ends.maps, labelMisplaced label map.fec = true) ↔
        Walk (FecNext type) (fun elms => LabelMisfit label elms.1) (elms, len)) := by
    rintro fecs ends ⟨long, left, same⟩ stops
    obtain ⟨size, map, reads, -, stopped⟩ := readFec_accepts stops
    have whole : ¬size < fecs.feclen := by
      intro part
      rw [if_pos part] at stopped
      cases stopped
    have misfit : Walk (FecNext type) (fun elms => LabelMisfit label elms.1) (fecs.left, fecs.feclen) ↔
        labelMisplaced label map.fec = true :=
      (walk_misfit (ne_nil_of_accepts long reads) reads fun part => absurd part whole).trans
        (or_iff_left fun both => whole both.1)
    rw [if_neg whole] at stopped
    cases stopped
    have start : MisfitAmong type label ⟨elms, len, []⟩ ↔
        Walk (FecNext type) (fun elms => LabelMisfit label elms.1) (elms, len) :=
      or_iff_right fun none' => absurd none'.choose_spec.1 List.not_mem_nil
    refine ⟨?_, ?_⟩
    · rw [← left, Nat.le_antisymm (readFecElm_size reads).2 (Nat.not_lt.mp whole)]
    · rw [← start, ← same, MisfitAmong, misfit_append, misfit]
  exact iterate_induct again done ⟨long, rfl, Iff.rfl⟩ accepts

theorem readType_accepts {elm : List UInt8} {first : UInt8} :
    (readType elm beyond).verdict = .accept first ↔
      elm ++ beyond ≠ [] ∧ first = get8 (elm ++ beyond) := by
  rw [readType]
  cases elm ++ beyond with
  | nil =>
    refine iff_of_false ?_ fun both => both.1 rfl
    intro accepts
    cases accepts
  | cons type rest =>
    refine ⟨fun accepts => ⟨List.cons_ne_nil type rest, ?_⟩, fun both => congrArg Verdict.accept both.2.symm⟩
    cases accepts
    rfl

theorem readPrefix_refuses {elm : List UInt8} {len : Nat} {old : FecBuf} :
    Refuses (readPrefix msg elm len old) ↔
      fecElmPrefixMinLen ≤ len ∧ afOfFamily (get16 (elm.drop 1)) = none := by
  rw [readPrefix, refuses_unless_ended, Nat.not_lt]
  refine and_congr_right fun _ => ?_
  cases afOfFamily (get16 (elm.drop 1)) with
  | none => exact iff_of_true ⟨_, _, rfl⟩ rfl
  | some af =>
    refine iff_of_false ?_ (Option.some_ne_none af)
    simp only [refuses_unless_ended]
    rintro ⟨-, refuses⟩
    split at refuses
    · obtain ⟨_, _, stopped⟩ := refuses
      cases stopped
    · exact not_refuses_accept rfl refuses

/-- The elements whose reading refuses the message. -/
theorem readFecElm_refuses {elm : List UInt8} {len : Nat} {old : FecBuf} (long : len ≤ elm.length) :
    Refuses (readFecElm msg beyond elm len old) ↔ FecUnknown beyond elm len := by
  have typed (network : fecElmPrefixMinLen ≤ len) : get8 (elm ++ beyond) = get8 elm :=
    get8_append beyond (Nat.le_trans (by decide) (Nat.le_trans network long))
  have type : ¬Refuses (readType elm beyond) := by
    rintro ⟨_, _, stopped⟩
    rw [readType] at stopped
    split at stopped
    · cases stopped
    · cases stopped
  have pwid : ¬Refuses (readPwid msg elm len old) :=
    not_refuses_of_rejects (rejects_readPwid ⟨_, rfl⟩ elm len old)
  rw [readFecElm, refuses_bind, or_iff_right type]
  simp only [readType_accepts]
  constructor
  · rintro ⟨_, ⟨some', rfl⟩, refuses⟩
    split at refuses
    · split at refuses
      · exact absurd refuses (not_refuses_accept rfl)
      · obtain ⟨_, _, stopped⟩ := refuses
        cases stopped
    split at refuses
    · rename_i network
      obtain ⟨four, other⟩ := readPrefix_refuses.mp refuses
      exact .family ((typed four).symm.trans network) four other
    split at refuses
    · exact absurd refuses pwid
    · rename_i wildcard network pwid
      exact .type some' wildcard network pwid
  · rintro (⟨some', wildcard, network, pwid⟩ | ⟨network, four, other⟩)
    · refine ⟨_, ⟨some', rfl⟩, ?_⟩
      rw [if_neg wildcard, if_neg network, if_neg pwid]
      exact ⟨_, _, rfl⟩
    · have same := (typed four).trans network
      refine ⟨_, ⟨fun empty => ?_, rfl⟩, ?_⟩
      · rw [empty] at same
        exact absurd same (by decide)
      · rw [same, if_neg (by decide), if_pos rfl]
        exact readPrefix_refuses.mpr ⟨four, other⟩

/-- The elements for which a message is refused. -/
theorem readFec_refuses {fecs : Fecs} (long : fecs.feclen ≤ fecs.left.length) :
    Refuses (readFec msg type beyond fecs) ↔ ElmRefused type beyond (fecs.left, fecs.feclen) := by
  rw [readFec, refuses_bind, readFecElm_refuses long]
  constructor
  · rintro (unknown | ⟨⟨size, map⟩, reads, refuses⟩)
    · exact .unknown unknown
    · simp only [refuses_unless_refused, refuses_unless_ended] at refuses
      rcases refuses with missing | ⟨-, -, goesOn⟩
      · rw [pwidMissing, decide_eq_true_iff] at missing
        obtain ⟨isPwid, unnamed, wanted⟩ := missing
        rcases readFecElm_map (ne_nil_of_accepts long reads) reads with ⟨-, fec⟩ | ⟨-, _, _, -, fec⟩ |
          ⟨sized, -, named⟩
        · rw [fec] at isPwid
          cases isPwid
        · rw [fec] at isPwid
          cases isPwid
        · exact .unnamed sized (not_not.mp fun more => unnamed (named.mpr more)) wanted
      · exact absurd goesOn (not_refuses_accept rfl)
  · rintro (unknown | ⟨sized, bare, wanted⟩)
    · exact Or.inl unknown
    · have some' : fecs.left ≠ [] := by
        intro empty
        have type : get8 fecs.left = mapTypePwid := sized.1
        rw [empty] at type
        exact absurd type (by decide)
      obtain ⟨map, reads⟩ := (readFecElm_accepts msg beyond fecs.feclen {} some').mpr
        (Or.inr (Or.inr ⟨sized, Or.inl bare⟩))
      refine Or.inr ⟨_, reads, ?_⟩
      simp only [refuses_unless_refused]
      refine Or.inl ?_
      rw [pwidMissing, decide_eq_true_iff]
      rcases readFecElm_map some' reads with ⟨wildcard, -⟩ | ⟨network, -⟩ | ⟨-, isPwid, named⟩
      · exact absurd (sized.1.symm.trans wildcard) (by decide)
      · exact absurd (sized.1.symm.trans network) (by decide)
      · exact ⟨isPwid, fun id => named.mp id bare, wanted⟩

/-- FEC elements are refused when the reading comes to one that is. -/
theorem readFecs_refuses {fecs : Fecs} (long : fecs.feclen ≤ fecs.left.length) :
    Refuses (readFecs msg type beyond fecs) ↔
      Walk (FecNext type) (ElmRefused type beyond) (fecs.left, fecs.feclen) := by
  rw [readFecs, refuses_iterate]
  exact walk_iff (fun fecs : Fecs => (fecs.left, fecs.feclen))
    (fun fecs => fecs.feclen ≤ fecs.left.length) (fun _ _ long goesOn => readFec_long long goesOn)
    (fun fecs rest long => readFec_next msg type beyond long rest)
    (fun fecs long => readFec_refuses long) long

end Elements

/-! ### Labels and parameters -/

/-- A label TLV of the right type and length, with a label that can be given. -/
def LabelTlvGood (left : List UInt8) : Prop :=
  labelTlvSize ≤ left.length ∧ (getTlv left).type = tlvTypeGenericlabel ∧
    (getTlv left).length.toNat = labelTlvLen ∧ labelOk (get32 (left.drop 4)) = true

/-- An optional parameter of a label message has the length it should have, and is no label of ATM or
Frame Relay where there may be a label. -/
@[mk_iff] structure LabelParamGood (type : UInt16) (tlv : Tlv) (_ : List UInt8) : Prop where
  reqid : tlv.type = tlvTypeLabelrequest → (type = msgTypeLabelmapping ∨ type = msgTypeLabelrequest) →
    tlv.length.toNat = reqidTlvLen
  label : tlv.type = tlvTypeGenericlabel →
    (type = msgTypeLabelwithdraw ∨ type = msgTypeLabelrelease) → tlv.length.toNat = labelTlvLen
  other : (tlv.type = tlvTypeAtmlabel ∨ tlv.type = tlvTypeFrlabel) →
    ¬(type = msgTypeLabelwithdraw ∨ type = msgTypeLabelrelease)
  status : tlv.type = tlvTypeStatus → tlv.length.toNat = statusTlvLen
  pwStatus : tlv.type = tlvTypePwStatus → type = msgTypeLabelmapping →
    tlv.length.toNat = pwStatusTlvLen

/-- The label of a withdraw or a release is that of the last label TLV. -/
def noteLabel (type : UInt16) (label : UInt32) (place : List UInt8) : UInt32 :=
  if (getTlv place).type = tlvTypeGenericlabel ∧
      (type = msgTypeLabelwithdraw ∨ type = msgTypeLabelrelease) then get32 (place.drop tlvHdrSize)
  else label

section Params

variable {msg : LdpMsg} {type : UInt16}

theorem readLabel_accepts {left : List UInt8} {label : UInt32} :
    (readLabel msg left).verdict = .accept label ↔
      LabelTlvGood left ∧ label = get32 (left.drop 4) := by
  rw [readLabel, LabelTlvGood]
  simp only [accepts_unless_ended, accepts_unless_refused, Nat.not_lt]
  constructor
  · rintro ⟨long, -, accepts⟩
    split at accepts
    · rename_i generic
      obtain ⟨length, accepts⟩ := accepts_unless_ended.mp accepts
      split at accepts
      · rename_i ok
        cases accepts
        exact ⟨⟨long, generic, not_not.mp length, ok⟩, rfl⟩
      · cases accepts
    · cases accepts
  · rintro ⟨⟨long, generic, length, ok⟩, rfl⟩
    refine ⟨long, by rw [generic]; decide, ?_⟩
    rw [if_pos generic, if_neg (not_not.mpr length), if_pos ok]
    rfl

/-- A mapping is refused for what is in the place of its label. -/
theorem readLabel_refuses {left : List UInt8} : Refuses (readLabel msg left) ↔
    labelTlvSize ≤ left.length ∧ (getTlv left).type &&& tlvTypeGenericlabel = 0 := by
  rw [readLabel]
  simp only [refuses_unless_ended, refuses_unless_refused, Nat.not_lt]
  refine and_congr_right fun _ => or_iff_left fun refuses => ?_
  split at refuses
  · obtain ⟨-, refuses⟩ := refuses_unless_ended.mp refuses
    split at refuses
    · exact not_refuses_accept rfl refuses
    · obtain ⟨_, _, stopped⟩ := refuses
      cases stopped
  · obtain ⟨_, _, stopped⟩ := refuses
    cases stopped

/-- An optional parameter is accepted when it is good. -/
theorem readLabelTlv_accepts {tlv : Tlv} {value : List UInt8} (found : LabelParams)
    (_ : tlv.length.toNat ≤ value.length) :
    (∃ found', (readLabelTlv msg type tlv value found).verdict = .accept found') ↔
      LabelParamGood type tlv value := by
  have sized {size : Nat} {found' : LabelParams} : (∃ read, (if tlv.length.toNat ≠ size then
      endWith sBadTlvLen msg else (pure found' : Said LabelParams)).verdict = .accept read) ↔
        tlv.length.toNat = size := by
    simp only [accepts_unless_ended, not_not]
    exact ⟨fun accepts => accepts.choose_spec.1, fun same => ⟨found', same, rfl⟩⟩
  have fine : (∃ read, (pure found : Said LabelParams).verdict = .accept read) ↔ True :=
    iff_of_true ⟨found, rfl⟩ trivial
  have ends {status : UInt32} :
      (∃ read, (endWith status msg : Said LabelParams).verdict = .accept read) ↔ False :=
    iff_of_false nofun not_false
  rw [readLabelTlv, labelParamGood_iff]
  by_cases reqid : tlv.type = tlvTypeLabelrequest
  · rw [if_pos reqid]
    split
    · rename_i wanted
      rw [sized]
      simp +decide [reqid, wanted]
    · rename_i other
      simp +decide [fine, reqid, other]
  rw [if_neg reqid]
  by_cases skipped : tlv.type = tlvTypeHopcount ∨ tlv.type = tlvTypePathvector
  · rw [if_pos skipped, fine]
    rcases skipped with hops | path
    · simp +decide [hops]
    · simp +decide [path]
  rw [if_neg skipped]
  by_cases label : tlv.type = tlvTypeGenericlabel
  · rw [if_pos label]
    split
    · rename_i wanted
      rw [sized]
      simp +decide [label, wanted]
    · rename_i other
      simp +decide [fine, label, other]
  rw [if_neg label]
  by_cases foreign : tlv.type = tlvTypeAtmlabel ∨ tlv.type = tlvTypeFrlabel
  · rw [if_pos foreign]
    have kinds : tlv.type ≠ tlvTypeStatus ∧ tlv.type ≠ tlvTypePwStatus := by
      rcases foreign with atm | fr
      · rw [atm]
        decide
      · rw [fr]
        decide
    split
    · rename_i unwanted
      simp [ends, foreign, unwanted]
    · rename_i other
      simp [fine, reqid, label, other, kinds]
  rw [if_neg foreign]
  by_cases status : tlv.type = tlvTypeStatus
  · rw [if_pos status, sized]
    simp +decide [status]
  rw [if_neg status]
  by_cases pwStatus : tlv.type = tlvTypePwStatus
  · rw [if_pos pwStatus]
    split
    · rename_i wanted
      rw [sized]
      simp +decide [pwStatus, wanted]
    · rename_i other
      simp +decide [fine, pwStatus, other]
  rw [if_neg pwStatus]
  have unknown : ∃ read, (readUnknown msg tlv >>= fun _ => (pure found : Said LabelParams)).verdict =
      .accept read := by
    rw [readUnknown]
    split
    · exact ⟨found, rfl⟩
    · exact ⟨found, rfl⟩
  refine iff_of_true unknown ?_
  simp [reqid, label, foreign, status, pwStatus]

/-- What an optional parameter says about the label. -/
theorem readLabelTlv_noteLabel {place : List UInt8} {found found' : LabelParams}
    (accepts : (readLabelTlv msg type (getTlv place) (place.drop tlvHdrSize) found).verdict =
      .accept found') : found'.label = noteLabel type found.label place := by
  have other {found' : LabelParams} (same : found'.label = found.label)
      (type' : (getTlv place).type ≠ tlvTypeGenericlabel) :
      found'.label = noteLabel type found.label place :=
    same.trans (if_neg fun both => type' both.1).symm
  rw [readLabelTlv] at accepts
  split at accepts
  · rename_i reqid
    have type' : (getTlv place).type ≠ tlvTypeGenericlabel := by
      rw [reqid]
      decide
    split at accepts
    · cases (accepts_unless_ended.mp accepts).2
      exact other rfl type'
    · cases accepts
      exact other rfl type'
  split at accepts
  · rename_i skipped
    cases accepts
    refine other rfl fun label => ?_
    rw [label] at skipped
    exact absurd skipped (by decide)
  split at accepts
  · rename_i label
    split at accepts
    · rename_i wanted
      cases (accepts_unless_ended.mp accepts).2
      exact (if_pos ⟨label, wanted⟩).symm
    · rename_i unwanted
      cases accepts
      exact (if_neg fun both => unwanted both.2).symm
  rename_i label
  split at accepts
  · split at accepts
    · cases accepts
    · cases accepts
      exact other rfl label
  split at accepts
  · cases (accepts_unless_ended.mp accepts).2
    exact other rfl label
  split at accepts
  · split at accepts
    · cases (accepts_unless_ended.mp accepts).2
      exact other rfl label
    · cases accepts
      exact other rfl label
  · obtain ⟨_, -, accepts⟩ := bind_accepts.mp accepts
    cases accepts
    exact other rfl label

end Params

/-! ### Label messages -/

/-- The FEC elements of a label message, with the length of their TLV. -/
def fecElms (body : List UInt8) : List UInt8 × Nat :=
  (body.drop tlvHdrSize, (getTlv body).length.toNat)

/-- What follows the FEC TLV of a label message. -/
def afterFec (body : List UInt8) : List UInt8 :=
  (body.drop tlvHdrSize).drop (getTlv body).length.toNat

/-- The optional parameters of a label message. -/
def labelOptions (type : UInt16) (body : List UInt8) : List UInt8 :=
  if type = msgTypeLabelmapping then (afterFec body).drop labelTlvSize else afterFec body

/-- The label that a mapping gives. -/
def givenLabel (type : UInt16) (body : List UInt8) : UInt32 :=
  if type = msgTypeLabelmapping then get32 ((afterFec body).drop 4) else noLabel

/-- The label that a label message is about. -/
def labelOf (type : UInt16) (body : List UInt8) : UInt32 :=
  (tlvPlaces (labelOptions type body)).foldl (noteLabel type) (givenLabel type body)

/-- The body of a label message that is taken. -/
structure LabelMessageTaken (type : UInt16) (body : List UInt8) : Prop where
  fec : TlvWhole body ∧ (getTlv body).type = tlvTypeFec
  elements : FecsGood type (fecElms body)
  mandatory : type = msgTypeLabelmapping → LabelTlvGood (afterFec body)
  options : TlvsGood (LabelParamGood type) (labelOptions type body)
  placed : ¬Walk (FecNext type) (fun elms => LabelMisfit (labelOf type body) elms.1) (fecElms body)

/-- The body of a label message that is refused, with what comes after it. -/
inductive LabelMessageRefused (type : UInt16) (beyond body : List UInt8) : Prop
  | noFec (long : tlvHdrSize ≤ body.length) (other : (getTlv body).type ≠ tlvTypeFec)
  | element (fec : TlvWhole body ∧ (getTlv body).type = tlvTypeFec)
      (refused : Walk (FecNext type) (ElmRefused type beyond) (fecElms body))
  | noLabel (fec : TlvWhole body ∧ (getTlv body).type = tlvTypeFec)
      (elements : FecsGood type (fecElms body)) (mapping : type = msgTypeLabelmapping)
      (long : labelTlvSize ≤ (afterFec body).length)
      (other : (getTlv (afterFec body)).type &&& tlvTypeGenericlabel = 0)

section Messages

variable {msg : LdpMsg} {type : UInt16} {beyond body : List UInt8}

theorem tlvWhole_iff : TlvWhole body ↔ ¬body.length < tlvHdrSize ∧
    ¬body.length - tlvHdrSize < (getTlv body).length.toNat := by
  rw [TlvWhole, Nat.not_lt, Nat.not_lt]
  exact and_congr_right fun _ => by omega

/-- The optional parameters of a label message are read with the label of a mapping at hand. -/
theorem readMandatory_accepts {tlvs : Tlvs LabelParams} :
    (readMandatory msg type (afterFec body)).verdict = .accept tlvs ↔
      (type = msgTypeLabelmapping → LabelTlvGood (afterFec body)) ∧
        tlvs = ⟨labelOptions type body, { label := givenLabel type body }⟩ := by
  rw [readMandatory, labelOptions, givenLabel]
  by_cases mapping : type = msgTypeLabelmapping
  · rw [if_pos mapping, if_pos mapping, if_pos mapping, forall_prop_of_true mapping, bind_accepts]
    simp only [readLabel_accepts]
    constructor
    · rintro ⟨label, ⟨good, rfl⟩, ends⟩
      cases ends
      exact ⟨good, rfl⟩
    · rintro ⟨good, rfl⟩
      exact ⟨_, ⟨good, rfl⟩, rfl⟩
  · rw [if_neg mapping, if_neg mapping, if_neg mapping]
    refine ⟨fun accepts => ⟨fun same => absurd same mapping, ?_⟩, fun both => ?_⟩
    · cases accepts
      rfl
    · rw [both.2]
      rfl

/-- The elements of a FEC TLV that is all there are part of the message. -/
theorem TlvWhole.elements (whole : TlvWhole body) : (fecElms body).2 ≤ (fecElms body).1.length := by
  have fits := whole.2
  show (getTlv body).length.toNat ≤ (body.drop tlvHdrSize).length
  rw [List.length_drop]
  omega

/-- What is read of a label message before its parameters. -/
theorem readFecs_afterFec (whole : TlvWhole body) {fecs : Fecs}
    (accepts : (readFecs msg type beyond ⟨(fecElms body).1, (fecElms body).2, []⟩).verdict =
      .accept fecs) : fecs.left = afterFec body :=
  (readFecs_misfit whole.elements accepts 0).1

/-- A label message is taken when the bytes of its body are as they should be. -/
theorem labelMessageTaken_iff : LabelMessageTaken type body ↔
    ∃ maps params, (readLabelmessage msg type beyond body).verdict = .accept (maps, params) ∧
      ∀ map ∈ maps, ¬labelMisplaced params.label map.fec = true := by
  have options := @readTlvs_accepts _ msg (readLabelTlv msg type) _
    (fun tlv value found long => readLabelTlv_accepts found long)
    ⟨labelOptions type body, { label := givenLabel type body }⟩
  have labels {params : LabelParams} (accepts : (readTlvs msg (readLabelTlv msg type)
      ⟨labelOptions type body, { label := givenLabel type body }⟩).verdict = .accept params) :
      params.label = labelOf type body :=
    readTlvs_foldl LabelParams.label (fun _ _ _ _ step => readLabelTlv_noteLabel step) accepts
  have placed {maps : List FecBuf} {label : UInt32} :
      (∀ map ∈ maps, ¬labelMisplaced label map.fec = true) ↔
        ¬∃ map ∈ maps, labelMisplaced label map.fec = true := by
    simp only [not_exists, not_and]
  rw [readLabelmessage]
  simp only [accepts_unless_ended, accepts_unless_refused, bind_accepts]
  constructor
  · intro taken
    obtain ⟨whole, fec⟩ := taken.fec
    obtain ⟨long, room⟩ := tlvWhole_iff.mp whole
    obtain ⟨fecs, elements⟩ := (@readFecs_accepts msg type beyond
      ⟨(fecElms body).1, (fecElms body).2, []⟩ whole.elements).mpr taken.elements
    have left := readFecs_afterFec whole elements
    obtain ⟨params, last⟩ := options.mpr taken.options
    refine ⟨fecs.maps, params, ⟨long, not_not.mpr fec, room, fecs, elements, _, ?_, params, last, rfl⟩, ?_⟩
    · rw [left]
      exact readMandatory_accepts.mpr ⟨taken.mandatory, rfl⟩
    · rw [placed, labels last, (readFecs_misfit whole.elements elements _).2]
      exact taken.placed
  · rintro ⟨maps, params, ⟨long, fec, room, fecs, elements, tlvs, mandatory, params', last, ends⟩, fits⟩
    cases ends
    have whole := tlvWhole_iff.mpr ⟨long, room⟩
    rw [readFecs_afterFec whole elements] at mandatory
    obtain ⟨given, rfl⟩ := readMandatory_accepts.mp mandatory
    refine ⟨⟨whole, not_not.mp fec⟩, (@readFecs_accepts msg type beyond
      ⟨(fecElms body).1, (fecElms body).2, []⟩ whole.elements).mp ⟨fecs, elements⟩, given,
      options.mp ⟨params, last⟩, ?_⟩
    rw [placed, labels last, (readFecs_misfit whole.elements elements _).2] at fits
    exact fits

theorem readMandatory_refuses {left : List UInt8} : Refuses (readMandatory msg type left) ↔
    type = msgTypeLabelmapping ∧ labelTlvSize ≤ left.length ∧
      (getTlv left).type &&& tlvTypeGenericlabel = 0 := by
  rw [readMandatory]
  split
  · rename_i mapping
    rw [refuses_bind, readLabel_refuses, and_iff_right mapping]
    refine or_iff_left ?_
    rintro ⟨label, -, refuses⟩
    exact not_refuses_accept rfl refuses
  · rename_i other
    exact iff_of_false (not_refuses_accept rfl) fun both => other both.1

/-- A label message is refused for what can be seen from the bytes of its body. -/
theorem labelMessageRefused_iff : LabelMessageRefused type beyond body ↔
    Refuses (readLabelmessage msg type beyond body) := by
  have params (tlvs : Tlvs LabelParams) : ¬Refuses (readTlvs msg (readLabelTlv msg type) tlvs) :=
    not_refuses_of_rejects
      (rejects_readTlvs ⟨_, rfl⟩ (rejects_readLabelTlv msg type ⟨_, rfl⟩ ⟨_, rfl⟩) tlvs)
  rw [readLabelmessage]
  simp only [refuses_unless_ended, refuses_unless_refused, refuses_bind, params, false_or]
  constructor
  · intro refused
    cases refused with
    | noFec long other => exact ⟨Nat.not_lt.mpr long, Or.inl other⟩
    | element fec refused =>
      obtain ⟨long, room⟩ := tlvWhole_iff.mp fec.1
      exact ⟨long, Or.inr ⟨room, Or.inl ((@readFecs_refuses msg type beyond
        ⟨(fecElms body).1, (fecElms body).2, []⟩ fec.1.elements).mpr refused)⟩⟩
    | noLabel fec elements mapping long other =>
      obtain ⟨size, room⟩ := tlvWhole_iff.mp fec.1
      obtain ⟨fecs, first⟩ := (@readFecs_accepts msg type beyond
        ⟨(fecElms body).1, (fecElms body).2, []⟩ fec.1.elements).mpr elements
      refine ⟨size, Or.inr ⟨room, Or.inr ⟨fecs, first, Or.inl ?_⟩⟩⟩
      rw [readFecs_afterFec fec.1 first]
      exact readMandatory_refuses.mpr ⟨mapping, long, other⟩
  · rintro ⟨long, other | ⟨room, refused⟩⟩
    · exact .noFec (Nat.not_lt.mp long) other
    by_cases fec : (getTlv body).type = tlvTypeFec
    swap
    · exact .noFec (Nat.not_lt.mp long) fec
    have whole := tlvWhole_iff.mpr ⟨long, room⟩
    rcases refused with refused | ⟨fecs, first, refused | ⟨_, -, _, -, refused⟩⟩
    · exact .element ⟨whole, fec⟩ ((@readFecs_refuses msg type beyond
        ⟨(fecElms body).1, (fecElms body).2, []⟩ whole.elements).mp refused)
    · rw [readFecs_afterFec whole first] at refused
      obtain ⟨mapping, size, other⟩ := readMandatory_refuses.mp refused
      exact .noLabel ⟨whole, fec⟩ ((@readFecs_accepts msg type beyond
        ⟨(fecElms body).1, (fecElms body).2, []⟩ whole.elements).mp ⟨fecs, first⟩) mapping size other
    · exact absurd refused (not_refuses_accept rfl)

end Messages

end Ldpd
