/-
This file is about what reaches the label decision engine of a message. Of a message
that is taken, that is one event for each FEC element or address, in their order; of a
message that is not, either nothing, or a part of these and then the end of the
session. The labels of mappings are usable.
-/

import Ldpd.Ldpe.PwStatus

namespace Ldpd

open Bytes Code Reading

/-! ### How messages end -/

/-- How the processing of a message has ended that stands for some events: all of them are passed on
to the label decision engine, or none, or a part and then the end of the session. -/
inductive Processed (stands : List LdeEvent → Prop) (ldpe : Ldpe) : Option Unit → Ldpe → Prop
  | whole {ldpe' : Ldpe} (events : List LdeEvent) (all : stands events)
      (told : ldpe'.toLde = ldpe.toLde ++ events) : Processed stands ldpe (some ()) ldpe'
  | refused {ldpe' : Ldpe} (silent : ldpe'.toLde = ldpe.toLde) : Processed stands ldpe none ldpe'
  | closed {ldpe' : Ldpe} (part : List LdeEvent)
      (partial' : part = [] ∨ ∃ events, stands events ∧ part <+: events)
      (told : ldpe'.toLde = ldpe.toLde ++ part ++ [.neighborDown ldpe.nbr.peerid])
      (down : ldpe'.nbr.state = .present) : Processed stands ldpe none ldpe'

/-- A last reply about a message. -/
inductive Parting (msg : LdpMsg) : Reply → Prop
  | shutdown (status : UInt32) : Parting msg (.shutdown status msg)
  | notify (status : UInt32) : Parting msg (.notify status msg)

section Partings

variable {msg : LdpMsg} {stands : List LdeEvent → Prop}

theorem Apt.parting {reply : Reply} (apt : Apt msg reply) : Parting msg reply := by
  cases apt with
  | shutdown => exact .shutdown _
  | notify => exact .notify _

/-- A message that is given up before anything of it is passed on. -/
theorem processed_parting {ldpe : Ldpe} (attached : ldpe.nbr.tcp ≠ none)
    (session : ldpe.nbr.state ≠ .present) {reply : Reply} (parting : Parting msg reply) :
    Processed stands ldpe none (say ldpe reply) := by
  cases parting with
  | shutdown status =>
    obtain ⟨between, advises, closed⟩ := closed_shutdown attached session status msg
    refine .closed [] (Or.inl rfl) ?_ closed.state
    rw [closed.toLde, advises.toLde, advises.peerid, List.append_nil]
  | notify status => exact .refused (advises_sendNotificationNbr attached _ _ _).toLde

/-- Notifications before a message is processed do not matter. -/
theorem Processed.of_advises {statuses : List UInt32} {ldpe between ldpe' : Ldpe}
    {result : Option Unit} (advises : Advises statuses ldpe between)
    (processed : Processed stands between result ldpe') : Processed stands ldpe result ldpe' := by
  cases processed with
  | whole events all told => exact .whole events all (by rw [told, advises.toLde])
  | refused silent => exact .refused (silent.trans advises.toLde)
  | closed part partial' told down =>
    exact .closed part partial' (by rw [told, advises.toLde, advises.peerid]) down

end Partings

/-- What holds of the parameters that TLVs amount to, by an invariant of the single TLVs. -/
theorem readTlvs_induct {Found : Type} {msg : LdpMsg} {handle : Tlv → List UInt8 → Found → Said Found}
    {invariant : Found → Prop} (steps : ∀ tlv value found found', invariant found →
      (handle tlv value found).verdict = .accept found' → invariant found')
    {tlvs : Tlvs Found} (start : invariant tlvs.found) {found : Found}
    (accepts : (readTlvs msg handle tlvs).verdict = .accept found) : invariant found := by
  have again : ∀ rest next : Tlvs Found, invariant rest.found →
      (readTlv msg handle rest).verdict = .accept (.inl next) → invariant next.found := by
    intro rest next holds goesOn
    rcases readTlv_cases msg handle rest with ⟨-, reads⟩ | ⟨-, reads⟩ | ⟨-, reads⟩
    · rw [reads] at goesOn
      cases goesOn
    · rw [reads] at goesOn
      obtain ⟨found', first, goesOn⟩ := bind_accepts.mp goesOn
      cases goesOn
      exact steps _ _ _ _ holds first
    · rw [reads] at goesOn
      cases goesOn
  have done : ∀ (rest : Tlvs Found) (value : Found), invariant rest.found →
      (readTlv msg handle rest).verdict = .accept (.inr value) → invariant value := by
    intro rest value holds ends
    rcases readTlv_cases msg handle rest with ⟨-, reads⟩ | ⟨-, reads⟩ | ⟨-, reads⟩
    · rw [reads] at ends
      cases ends
      exact holds
    · rw [reads] at ends
      obtain ⟨_, -, ends⟩ := bind_accepts.mp ends
      cases ends
    · rw [reads] at ends
      cases ends
  exact iterate_induct again done start accepts

/-! ### Label messages -/

/-- The FEC elements that fill a FEC TLV, as they are read one after another. -/
inductive Elements (msg : LdpMsg) (beyond : List UInt8) : List UInt8 → Nat → List FecBuf → Prop
  | last {elms : List UInt8} {len : Nat} {map : FecBuf}
      (reads : (readFecElm msg beyond elms len {}).verdict = .accept (len, map)) :
      Elements msg beyond elms len [map]
  | cons {elms : List UInt8} {len size : Nat} {map : FecBuf} {maps : List FecBuf}
      (reads : (readFecElm msg beyond elms len {}).verdict = .accept (size, map)) (more : size < len)
      (rest : Elements msg beyond (elms.drop size) (len - size) maps) :
      Elements msg beyond elms len (map :: maps)

/-- A FEC element that a message of the type may have. -/
def Fitting (type : UInt16) (map : FecBuf) : Prop :=
  ¬pwidMissing type map = true ∧ ¬wildcardMisplaced type map.fec = true

section Labels

variable {msg : LdpMsg} {type : UInt16} {beyond : List UInt8}

/-- What the reading of one FEC element does, if it goes on. -/
theorem readFec_accepts {fecs : Fecs} {next : Fecs ⊕ Fecs}
    (accepts : (readFec msg type beyond fecs).verdict = .accept next) :
    ∃ size map, (readFecElm msg beyond fecs.left fecs.feclen {}).verdict = .accept (size, map) ∧
      Fitting type map ∧ next =
        if size < fecs.feclen then .inl ⟨fecs.left.drop size, fecs.feclen - size, fecs.maps ++ [map]⟩
        else .inr ⟨fecs.left.drop size, fecs.feclen - size, fecs.maps ++ [map]⟩ := by
  obtain ⟨⟨size, map⟩, first, rest⟩ := bind_accepts.mp accepts
  obtain ⟨present, rest⟩ := accepts_unless_refused.mp rest
  obtain ⟨placed, rest⟩ := accepts_unless_ended.mp rest
  obtain ⟨-, rest⟩ := accepts_unless_ended.mp rest
  cases rest
  refine ⟨size, map, first, ⟨present, placed⟩, ?_⟩
  exact if_congr Nat.sub_pos_iff_lt rfl rfl

/-- The elements that are read are all that the TLV consists of, and fit the message. -/
theorem readFecs_elements {elms : List UInt8} {len : Nat} {fecs : Fecs}
    (accepts : (readFecs msg type beyond ⟨elms, len, []⟩).verdict = .accept fecs) :
    Elements msg beyond elms len fecs.maps ∧ ∀ map ∈ fecs.maps, Fitting type map := by
  have fitting {maps : List FecBuf} {map : FecBuf} (fits : ∀ map ∈ maps, Fitting type map)
      (fit : Fitting type map) : ∀ other ∈ maps ++ [map], Fitting type other := by
    intro other member
    rcases List.mem_append.mp member with before | last
    · exact fits other before
    · rw [List.mem_singleton.mp last]
      exact fit
  have again : ∀ (fecs next : Fecs),
      ((∀ maps, Elements msg beyond fecs.left fecs.feclen maps →
        Elements msg beyond elms len (fecs.maps ++ maps)) ∧ ∀ map ∈ fecs.maps, Fitting type map) →
      (readFec msg type beyond fecs).verdict = .accept (.inl next) →
      (∀ maps, Elements msg beyond next.left next.feclen maps →
        Elements msg beyond elms len (next.maps ++ maps)) ∧ ∀ map ∈ next.maps, Fitting type map := by
    intro fecs next sofar accepts
    obtain ⟨size, map, reads, fit, goesOn⟩ := readFec_accepts accepts
    split at goesOn
    · rename_i more
      cases goesOn
      refine ⟨fun maps rest => ?_, fitting sofar.2 fit⟩
      rw [List.append_assoc]
      exact sofar.1 _ (.cons reads more rest)
    · cases goesOn
  have done : ∀ (fecs ends : Fecs),
      ((∀ maps, Elements msg beyond fecs.left fecs.feclen maps →
        Elements msg beyond elms len (fecs.maps ++ maps)) ∧ ∀ map ∈ fecs.maps, Fitting type map) →
      (readFec msg type beyond fecs).verdict = .accept (.inr ends) →
      Elements msg beyond elms len ends.maps ∧ ∀ map ∈ ends.maps, Fitting type map := by
    intro fecs ends sofar accepts
    obtain ⟨size, map, reads, fit, stops⟩ := readFec_accepts accepts
    split at stops
    · cases stops
    · rename_i whole
      cases stops
      obtain rfl : size = fecs.feclen := Nat.le_antisymm (readFecElm_size reads).2 (Nat.not_lt.mp whole)
      exact ⟨sofar.1 _ (.last reads), fitting sofar.2 fit⟩
  exact iterate_induct again done
    ⟨fun maps rest => rest, fun map member => absurd member List.not_mem_nil⟩ accepts

/-- The parameters of a Label Mapping keep the label of the mandatory TLV. -/
theorem readLabelTlv_label {tlv : Tlv} {value : List UInt8} {found found' : LabelParams}
    (accepts : (readLabelTlv msg msgTypeLabelmapping tlv value found).verdict = .accept found') :
    found'.label = found.label := by
  rw [readLabelTlv] at accepts
  split at accepts
  · rw [if_pos (Or.inl rfl)] at accepts
    cases (accepts_unless_ended.mp accepts).2
    rfl
  split at accepts
  · cases accepts
    rfl
  split at accepts
  · rw [if_neg (by decide)] at accepts
    cases accepts
    rfl
  split at accepts
  · rw [if_neg (by decide)] at accepts
    cases accepts
    rfl
  split at accepts
  · cases (accepts_unless_ended.mp accepts).2
    rfl
  split at accepts
  · rw [if_pos rfl] at accepts
    cases (accepts_unless_ended.mp accepts).2
    rfl
  · obtain ⟨_, -, accepts⟩ := bind_accepts.mp accepts
    cases accepts
    rfl

theorem readLabel_ok {left : List UInt8} {label : UInt32}
    (accepts : (readLabel msg left).verdict = .accept label) : labelOk label = true := by
  rw [readLabel] at accepts
  obtain ⟨-, accepts⟩ := accepts_unless_ended.mp accepts
  obtain ⟨-, accepts⟩ := accepts_unless_refused.mp accepts
  split at accepts
  · obtain ⟨-, accepts⟩ := accepts_unless_ended.mp accepts
    split at accepts
    · rename_i ok
      cases accepts
      exact ok
    · cases accepts
  · cases accepts

/-- What an accepted label message consists of. -/
theorem readLabelmessage_elements {body : List UInt8} {maps : List FecBuf} {params : LabelParams}
    (accepts : (readLabelmessage msg type beyond body).verdict = .accept (maps, params)) :
    Elements msg beyond (body.drop tlvHdrSize) (getTlv body).length.toNat maps ∧
      (∀ map ∈ maps, Fitting type map) ∧ (type = msgTypeLabelmapping → labelOk params.label = true) := by
  rw [readLabelmessage] at accepts
  obtain ⟨-, accepts⟩ := accepts_unless_ended.mp accepts
  obtain ⟨-, accepts⟩ := accepts_unless_refused.mp accepts
  obtain ⟨-, accepts⟩ := accepts_unless_ended.mp accepts
  obtain ⟨fecs, elements, accepts⟩ := bind_accepts.mp accepts
  obtain ⟨tlvs, mandatory, accepts⟩ := bind_accepts.mp accepts
  obtain ⟨params, options, accepts⟩ := bind_accepts.mp accepts
  cases accepts
  obtain ⟨all, fitting⟩ := readFecs_elements elements
  refine ⟨all, fitting, fun mapping => ?_⟩
  subst mapping
  rw [readMandatory, if_pos rfl] at mandatory
  obtain ⟨label, first, mandatory⟩ := bind_accepts.mp mandatory
  cases mandatory
  have kept : params.label = label :=
    readTlvs_induct (fun _ _ _ _ same step => (readLabelTlv_label step).trans same) rfl options
  rw [kept]
  exact readLabel_ok first

end Labels

/-- Whether a FEC is a prefix of a family. -/
def MapFec.ofFamily (fec : MapFec) (af : Af) : Prop :=
  match fec with
  | .network addr _ => addr.af = af
  | _ => False

/-- A label mapping that can be used: its label is not a reserved one, or a null label of the family
of its prefix. -/
structure Usable (nbr : Nbr) (map : Map) : Prop where
  most : map.label ≤ mplsLabelMax
  reserved : mplsLabelReservedMax < map.label ∨
    map.label = mplsLabelIpv4null ∧ map.fec.ofFamily .inet ∨
    map.label = mplsLabelIpv6null ∧ map.fec.ofFamily .inet6 ∨
    map.label = mplsLabelImplnull ∧ ∃ af, map.fec.ofFamily af
  pseudowire : map.fec.isPwid = true → mplsLabelReservedMax < map.label ∧ map.flags.pwId = true
  named : map.fec ≠ .wildcard
  enabled : familyEnabled nbr map.fec = true

/-- An element that fits a Label Mapping is usable with a label that is taken. -/
theorem usable_of_fitting {nbr : Nbr} {msg : LdpMsg} {params : LabelParams} {map : FecBuf}
    (fitting : Fitting msgTypeLabelmapping map) (label : labelOk params.label = true)
    (placed : ¬labelMisplaced params.label map.fec = true) (enabled : familyEnabled nbr map.fec = true) :
    Usable nbr (labelMap msg params map) := by
  obtain ⟨present, wildcard⟩ := fitting
  rw [labelOk, decide_eq_true_iff] at label
  obtain ⟨most, kinds⟩ := label
  rw [pwidMissing, decide_eq_true_iff] at present
  rw [wildcardMisplaced, decide_eq_true_iff] at wildcard
  have pseudowire : map.fec.isPwid = true →
      mplsLabelReservedMax < params.label ∧ map.flags.pwId = true := by
    intro pwid
    refine ⟨?_, ?_⟩
    · cases fec : map.fec with
      | pwid =>
        rw [fec, labelMisplaced, decide_eq_true_iff] at placed
        exact UInt32.not_le.mp placed
      | _ =>
        rw [fec] at pwid
        cases pwid
    · by_contra missing
      exact present ⟨pwid, missing, by decide, by decide⟩
  refine ⟨most, ?_, pseudowire, fun fec => wildcard ⟨fec, Or.inl rfl⟩, enabled⟩
  show mplsLabelReservedMax < params.label ∨
    params.label = mplsLabelIpv4null ∧ map.fec.ofFamily .inet ∨
    params.label = mplsLabelIpv6null ∧ map.fec.ofFamily .inet6 ∨
    params.label = mplsLabelImplnull ∧ ∃ af, map.fec.ofFamily af
  cases fec : map.fec with
  | wildcard => exact absurd ⟨fec, Or.inl rfl⟩ wildcard
  | pwid => exact Or.inl (pseudowire (by rw [fec]; rfl)).1
  | network addr prefixlen =>
    rw [fec, labelMisplaced] at placed
    rcases kinds with large | null4 | null6 | null'
    · exact Or.inl large
    · refine Or.inr (Or.inl ⟨null4, ?_⟩)
      show addr.af = .inet
      cases af : addr.af with
      | inet => rfl
      | inet6 =>
        rw [af] at placed
        exact absurd (decide_eq_true null4) placed
    · refine Or.inr (Or.inr (Or.inl ⟨null6, ?_⟩))
      show addr.af = .inet6
      cases af : addr.af with
      | inet6 => rfl
      | inet =>
        rw [af] at placed
        exact absurd (decide_eq_true null6) placed
    · exact Or.inr (Or.inr (Or.inr ⟨null', addr.af, rfl⟩))

/-- The events that FEC elements stand for, which the neighbor must take. -/
def fecEvents (nbr : Nbr) (msg : LdpMsg) (type : UInt16) (params : LabelParams) (maps : List FecBuf) :
    List LdeEvent :=
  (maps.filter fun map => familyEnabled nbr map.fec).map fun map =>
    labelImsg type nbr.peerid (labelMap msg params map)

/-- The events that a label message stands for. -/
def LabelEvents (nbr : Nbr) (msg : LdpMsg) (type : UInt16) (beyond body : List UInt8)
    (events : List LdeEvent) : Prop :=
  ∃ maps params, (readLabelmessage msg type beyond body).verdict = .accept (maps, params) ∧
    Elements msg beyond (body.drop tlvHdrSize) (getTlv body).length.toNat maps ∧
      events = fecEvents nbr msg type params maps

/-- Several messages to the label decision engine. -/
def Ldpe.composeAll (ldpe : Ldpe) (events : List LdeEvent) : Ldpe :=
  { ldpe with toLde := ldpe.toLde ++ events }

theorem composeAll_nil (ldpe : Ldpe) : ldpe.composeAll [] = ldpe := by
  rw [Ldpe.composeAll, List.append_nil]

theorem composeAll_composeLde (ldpe : Ldpe) (event : LdeEvent) (events : List LdeEvent) :
    (ldpe.composeLde event).composeAll events = ldpe.composeAll (event :: events) := by
  rw [Ldpe.composeAll, Ldpe.composeAll, Ldpe.composeLde, List.append_assoc, List.singleton_append]

/-- The end of the session after several messages to the label decision engine. -/
theorem shutdown_composeAll {ldpe : Ldpe} (attached : ldpe.nbr.tcp ≠ none)
    (session : ldpe.nbr.state ≠ .present) (events : List LdeEvent) (status : UInt32) (msg : LdpMsg) :
    (say (ldpe.composeAll events) (.shutdown status msg)).toLde =
        ldpe.toLde ++ events ++ [.neighborDown ldpe.nbr.peerid] ∧
      (say (ldpe.composeAll events) (.shutdown status msg)).nbr.state = .present := by
  obtain ⟨last, notified, closed⟩ := closed_shutdown
    (show (ldpe.composeAll events).nbr.tcp ≠ none from attached) session status msg
  refine ⟨?_, closed.state⟩
  rw [closed.toLde, notified.toLde, notified.peerid]
  rfl

section Notify

variable {msg : LdpMsg} {type : UInt16} {params : LabelParams}

theorem fecEvents_nil (nbr : Nbr) : fecEvents nbr msg type params [] = [] := rfl

/-- The last loop of `recv_labelmessage` stops at the first FEC that cannot have the label. -/
theorem notifyLde_cases (maps : List FecBuf) (ldpe : Ldpe) :
    ((∀ map ∈ maps, ¬labelMisplaced params.label map.fec = true) ∧
      notifyLde msg type params maps ldpe =
        (some (), ldpe.composeAll (fecEvents ldpe.nbr msg type params maps))) ∨
    (∃ map ∈ maps, labelMisplaced params.label map.fec = true) ∧ ∃ first, first <+: maps ∧
      (∀ map ∈ first, ¬labelMisplaced params.label map.fec = true) ∧
      notifyLde msg type params maps ldpe = (none,
        say (ldpe.composeAll (fecEvents ldpe.nbr msg type params first)) (.shutdown sBadTlvVal msg)) := by
  induction maps generalizing ldpe with
  | nil =>
    refine Or.inl ⟨fun map member => absurd member List.not_mem_nil, ?_⟩
    rw [fecEvents_nil, composeAll_nil, notifyLde]
  | cons map rest inductionHypothesis =>
    rw [notifyLde]
    by_cases misplaced : labelMisplaced params.label map.fec = true
    · rw [if_pos misplaced]
      refine Or.inr ⟨⟨map, List.mem_cons_self, misplaced⟩, [], List.nil_prefix, fun map member => absurd member List.not_mem_nil, ?_⟩
      rw [fecEvents_nil, composeAll_nil]
    rw [if_neg misplaced]
    -- the element is passed on or not, and the others follow
    have goesOn : ∃ ldpe', (if familyEnabled ldpe.nbr map.fec then notifyLde msg type params rest
        (ldpe.composeLde (labelImsg type ldpe.nbr.peerid (labelMap msg params map)))
        else notifyLde msg type params rest ldpe) = notifyLde msg type params rest ldpe' ∧
        ∀ maps, ldpe'.composeAll (fecEvents ldpe'.nbr msg type params maps) =
          ldpe.composeAll (fecEvents ldpe.nbr msg type params (map :: maps)) := by
      split
      · rename_i enabled
        refine ⟨_, rfl, fun maps => ?_⟩
        rw [fecEvents, fecEvents, List.filter_cons_of_pos (by exact enabled), List.map_cons]
        exact composeAll_composeLde ldpe _ _
      · rename_i disabled
        refine ⟨_, rfl, fun maps => ?_⟩
        rw [fecEvents, fecEvents, List.filter_cons_of_neg (by exact disabled)]
    obtain ⟨ldpe', same, events⟩ := goesOn
    rw [same]
    rcases inductionHypothesis ldpe' with ⟨placed, told⟩ |
      ⟨⟨other, member, wrong⟩, first, part, placed, told⟩
    · exact Or.inl ⟨List.forall_mem_cons.mpr ⟨misplaced, placed⟩, by rw [told, events]⟩
    · refine Or.inr ⟨⟨other, List.mem_cons_of_mem map member, wrong⟩, map :: first, (List.prefix_cons_inj map).mpr part,
        List.forall_mem_cons.mpr ⟨misplaced, placed⟩, by rw [told, events]⟩

/-- Notifications do not change what the elements stand for. -/
theorem Advises.fecEvents {statuses : List UInt32} {ldpe between : Ldpe}
    (advises : Advises statuses ldpe between) (maps : List FecBuf) :
    fecEvents between.nbr msg type params maps = fecEvents ldpe.nbr msg type params maps := by
  obtain ⟨_, _, _, _, -, rfl⟩ := advises
  rfl

/-- The elements of the first part of a message stand for the first part of its events. -/
theorem fecEvents_part {first maps : List FecBuf} (part : first <+: maps) (nbr : Nbr) :
    fecEvents nbr msg type params first <+: fecEvents nbr msg type params maps := by
  obtain ⟨rest, rfl⟩ := part
  rw [fecEvents, fecEvents, List.filter_append, List.map_append]
  exact List.prefix_append _ _

end Notify

/-- A wildcard element that is all that is left of a FEC TLV. -/
def WildcardAt (elms : List UInt8 × Nat) : Prop :=
  elms.1 ≠ [] ∧ get8 elms.1 = mapTypeWildcard ∧ elms.2 = fecElmWcardLen

/-- The message has a wildcard element after others that are well formed, which is not for messages of
its type. -/
def WildcardMet (type : UInt16) (body : List UInt8) : Prop :=
  (type = msgTypeLabelmapping ∨ type = msgTypeLabelrequest ∨ type = msgTypeLabelabortreq) ∧
    TlvWhole body ∧ (getTlv body).type = tlvTypeFec ∧
      Walk (FecNext type) WildcardAt (body.drop tlvHdrSize, (getTlv body).length.toNat)

/-- How a label message is given up: with an apt reply, or with the status of an unknown FEC for a
wildcard element that it cannot have. -/
def LabelParting (msg : LdpMsg) (type : UInt16) (body : List UInt8) (reply : Reply) : Prop :=
  Apt msg reply ∨ reply = .shutdown sUnknownFec msg ∧ WildcardMet type body

section Rejections

variable (msg : LdpMsg) (type : UInt16) (beyond : List UInt8)

/-- Only a wildcard element is read as one. -/
theorem wildcardAt_of_accepts {elm : List UInt8} {len size : Nat} {map : FecBuf}
    (long : len ≤ elm.length) (accepts : (readFecElm msg beyond elm len {}).verdict = .accept (size, map))
    (wildcard : map.fec = .wildcard) : WildcardAt (elm, len) := by
  have some' : elm ≠ [] := by
    rintro rfl
    have bounds := readFecElm_size accepts
    exact absurd (Nat.le_trans bounds.1 bounds.2) (Nat.not_le.mpr (Nat.lt_succ_of_le long))
  rw [readFecElm_eq msg beyond len {} some'] at accepts
  split at accepts
  · rename_i type
    split at accepts
    · rename_i exactly
      exact ⟨some', type, exactly⟩
    · cases accepts
  split at accepts
  · rcases readPrefix_cases msg elm len {} with ⟨-, reply, reads⟩ |
      ⟨af, prefixlen, -, -, ⟨-, reads⟩ | ⟨-, reads⟩⟩
    · rw [reads] at accepts
      cases accepts
    · rw [reads] at accepts
      cases accepts
    · rw [reads] at accepts
      cases accepts
      cases wildcard
  split at accepts
  swap
  · cases accepts
  have pwid : map.fec.isPwid = true := by
    rcases readPwid_cases msg elm len {} with ⟨-, reply, reads⟩ |
      ⟨-, ⟨-, map', reads, pwid⟩ | ⟨-, -, reply, reads⟩ | ⟨-, -, params, map', -, pwid, reads⟩⟩
    · rw [reads] at accepts
      cases accepts
    · rw [reads] at accepts
      cases accepts
      exact pwid
    · rw [reads] at accepts
      cases accepts
    · rw [reads] at accepts
      obtain ⟨params', -, accepts⟩ := bind_accepts.mp accepts
      cases accepts
      exact pwid params'
  rw [wildcard] at pwid
  cases pwid

/-- How the reading of one FEC element is given up. -/
theorem readFec_rejects {fecs : Fecs} (long : fecs.feclen ≤ fecs.left.length) {reply : Reply}
    (rejects : (readFec msg type beyond fecs).verdict = .reject reply) : Apt msg reply ∨
      reply = .shutdown sUnknownFec msg ∧ (type = msgTypeLabelmapping ∨ type = msgTypeLabelrequest ∨
        type = msgTypeLabelabortreq) ∧ WildcardAt (fecs.left, fecs.feclen) := by
  rcases bind_rejects.mp rejects with stopped | ⟨⟨size, map⟩, first, stopped⟩
  · exact Or.inl (rejects_readFecElm _ _ _ _ reply stopped)
  simp only at stopped
  split at stopped
  · cases stopped
    exact Or.inl (.notify (by decide))
  split at stopped
  · rename_i misplaced
    cases stopped
    rw [wildcardMisplaced, decide_eq_true_iff] at misplaced
    exact Or.inr ⟨rfl, misplaced.2, wildcardAt_of_accepts msg beyond long first misplaced.1⟩
  split at stopped
  · cases stopped
    exact Or.inl (.shutdown (by decide))
  · split at stopped
    · cases stopped
    · cases stopped

/-- A wildcard element that is not for the message ends the session. -/
theorem readFec_wildcard {fecs : Fecs} (at' : WildcardAt (fecs.left, fecs.feclen))
    (misplaced : type = msgTypeLabelmapping ∨ type = msgTypeLabelrequest ∨ type = msgTypeLabelabortreq) :
    (readFec msg type beyond fecs).verdict = .reject (.shutdown sUnknownFec msg) := by
  obtain ⟨some', wildcard, exactly⟩ := at'
  have reads : readFecElm msg beyond fecs.left fecs.feclen {} = pure (1, { fec := .wildcard }) := by
    rw [readFecElm_eq msg beyond _ _ some', if_pos wildcard, if_pos exactly]
  have named : ¬pwidMissing type { fec := .wildcard } = true := by
    rw [pwidMissing, decide_eq_true_iff]
    exact fun missing => Bool.false_ne_true missing.1
  have wrong : wildcardMisplaced type .wildcard = true := by
    rw [wildcardMisplaced, decide_eq_true_iff]
    exact ⟨rfl, misplaced⟩
  rw [readFec, reads, bind_accept rfl]
  simp only
  rw [if_neg named, if_pos wrong]
  rfl

/-- The FEC elements end the session with the status of an unknown FEC when there is a wildcard
among them. -/
theorem readFecs_wildcard {fecs : Fecs} (long : fecs.feclen ≤ fecs.left.length)
    (misplaced : type = msgTypeLabelmapping ∨ type = msgTypeLabelrequest ∨ type = msgTypeLabelabortreq) :
    (readFecs msg type beyond fecs).verdict = .reject (.shutdown sUnknownFec msg) ↔
      Walk (FecNext type) WildcardAt (fecs.left, fecs.feclen) := by
  rw [readFecs, iterate_rejects]
  refine walk_iff (fun fecs : Fecs => (fecs.left, fecs.feclen))
    (fun fecs => fecs.feclen ≤ fecs.left.length) ?_
    (fun fecs rest long => readFec_next msg type beyond long rest) (fun fecs long => ⟨fun rejects => ?_,
      fun at' => readFec_wildcard msg type beyond at' misplaced⟩) long
  · rintro fecs next long ⟨accepts, -⟩
    obtain ⟨size, map, -, -, -, -, rfl⟩ := readFec_goesOn accepts
    show fecs.feclen - size ≤ (fecs.left.drop size).length
    rw [List.length_drop]
    exact Nat.sub_le_sub_right long size
  · rcases readFec_rejects msg type beyond long rejects with apt | ⟨-, -, at'⟩
    · cases apt with
      | shutdown fatal => exact absurd (show sUnknownFec &&& statusFatal = 0 by decide) fatal
    · exact at'

/-- How the reading of the FEC elements is given up. -/
theorem readFecs_rejects {fecs : Fecs} (long : fecs.feclen ≤ fecs.left.length) {reply : Reply}
    (rejects : (readFecs msg type beyond fecs).verdict = .reject reply) : Apt msg reply ∨
      reply = .shutdown sUnknownFec msg ∧ (type = msgTypeLabelmapping ∨ type = msgTypeLabelrequest ∨
        type = msgTypeLabelabortreq) := by
  induction iterate_rejects.mp rejects with
  | here found =>
    rcases readFec_rejects msg type beyond long found with apt | ⟨same, misplaced, -⟩
    · exact Or.inl apt
    · exact Or.inr ⟨same, misplaced⟩
  | later step walk inductionHypothesis =>
    obtain ⟨size, map, -, -, -, -, rfl⟩ := readFec_goesOn step.1
    refine inductionHypothesis ?_ (iterate_rejects.mpr walk)
    show _ - size ≤ (List.drop size _).length
    rw [List.length_drop]
    exact Nat.sub_le_sub_right long size

/-- An optional parameter of a label message ends the session at most. -/
theorem rejects_readLabelTlv {allowed : Reply → Prop} (length : allowed (.shutdown sBadTlvLen msg))
    (value' : allowed (.shutdown sBadTlvVal msg)) (tlv : Tlv) (value : List UInt8)
    (found : LabelParams) : Rejects allowed (readLabelTlv msg type tlv value found) := by
  have sized {condition : Prop} [Decidable condition] {found : LabelParams} :
      Rejects allowed (if condition then endWith sBadTlvLen msg else pure found) :=
    rejects_ite (rejects_endWith length) (rejects_pure _)
  rw [readLabelTlv]
  refine rejects_ite (rejects_ite sized (rejects_pure _)) (rejects_ite (rejects_pure _) ?_)
  refine rejects_ite (rejects_ite sized (rejects_pure _)) ?_
  refine rejects_ite (rejects_ite (rejects_endWith value') (rejects_pure _)) (rejects_ite sized ?_)
  refine rejects_ite (rejects_ite sized (rejects_pure _)) ?_
  exact (rejects_readUnknown tlv).bind fun _ _ => rejects_pure _

/-- A label message is given up with an apt reply, or the session ends with the status that a
wildcard element gets. -/
theorem rejects_readLabelmessage (body : List UInt8) :
    Rejects (LabelParting msg type body) (readLabelmessage msg type beyond body) := by
  have ends {Read : Type} {status : UInt32} (fatal : status &&& statusFatal ≠ 0) :
      Rejects (LabelParting msg type body) (endWith status msg : Said Read) :=
    rejects_endWith (Or.inl (.shutdown fatal))
  have refuses {Read : Type} :
      Rejects (LabelParting msg type body) (refuseWith sMissMsg msg : Said Read) :=
    rejects_refuseWith (Or.inl (.notify (by decide)))
  have label (left : List UInt8) :
      Rejects (LabelParting msg type body) (readLabel msg left) := by
    rw [readLabel]
    refine rejects_ite (ends (by decide)) (rejects_ite refuses (rejects_ite ?_ (ends (by decide))))
    exact rejects_ite (ends (by decide)) (rejects_ite (rejects_pure _) (ends (by decide)))
  have option : ∀ tlv value found, Rejects (LabelParting msg type body)
      (readLabelTlv msg type tlv value found) :=
    rejects_readLabelTlv msg type (Or.inl (.shutdown (by decide))) (Or.inl (.shutdown (by decide)))
  intro reply rejects
  rw [readLabelmessage] at rejects
  by_cases short : body.length < tlvHdrSize
  · rw [if_pos short] at rejects
    exact ends (by decide) reply rejects
  by_cases other : (getTlv body).type ≠ tlvTypeFec
  · simp only [if_neg short, if_pos other] at rejects
    exact refuses reply rejects
  by_cases overlong : body.length - tlvHdrSize < (getTlv body).length.toNat
  · simp only [if_neg short, if_neg other, if_pos overlong] at rejects
    exact ends (by decide) reply rejects
  simp only [if_neg short, if_neg other, if_neg overlong] at rejects
  have long := Nat.le_of_not_lt overlong
  rw [← List.length_drop] at long
  rcases bind_rejects.mp rejects with stopped | ⟨fecs, -, stopped⟩
  · rcases readFecs_rejects msg type beyond long stopped with apt | ⟨rfl, misplaced⟩
    · exact Or.inl apt
    · refine Or.inr ⟨rfl, misplaced, ⟨Nat.le_of_not_lt short, ?_⟩, not_not.mp other,
        (readFecs_wildcard msg type beyond long misplaced).mp stopped⟩
      rw [List.length_drop] at long
      omega
  · have mandatory :
        Rejects (LabelParting msg type body) (readMandatory msg type fecs.left) := by
      rw [readMandatory]
      exact rejects_ite ((label _).bind fun _ _ => rejects_pure _) (rejects_pure _)
    refine mandatory.bind (fun tlvs _ => ?_) reply stopped
    exact (rejects_readTlvs (Or.inl (.shutdown (by decide))) option _).bind fun _ _ => rejects_pure _

/-- A label message with a wildcard element that is not for it ends the session. -/
theorem readLabelmessage_wildcard {body : List UInt8} (met : WildcardMet type body) :
    (readLabelmessage msg type beyond body).verdict = .reject (.shutdown sUnknownFec msg) := by
  obtain ⟨misplaced, whole, fec, walk⟩ := met
  have long : (getTlv body).length.toNat ≤ body.length - tlvHdrSize := by
    have fits := whole.2
    omega
  rw [readLabelmessage]
  simp only [if_neg (Nat.not_lt.mpr whole.1), if_neg (not_not.mpr fec), if_neg (Nat.not_lt.mpr long)]
  rw [← List.length_drop] at long
  exact bind_rejects.mpr (Or.inl ((readFecs_wildcard msg type beyond long misplaced).mpr walk))

end Rejections


section Message

variable {ldpe : Ldpe} {buf : List UInt8} {size : Nat} (attached : ldpe.nbr.tcp ≠ none)
  (session : ldpe.nbr.state ≠ .present) (long : ldpMsgSize ≤ size) (fits : size ≤ buf.length)
  (small : size < 2 ^ 16)
include attached long fits small

/-- How `recv_labelmessage` returns: it passes on what it has read, or gives up before. -/
theorem recvLabelmessage_cases {fuel : Nat} {type : UInt16} {result : Option Unit} {ldpe' : Ldpe}
    (defined : Defined Access.Meant (recvLabelmessage fuel buf size type ldpe))
    (returns : (recvLabelmessage fuel buf size type ldpe).outcome = .ret (result, ldpe')) :
    ∃ statuses between, Advises statuses ldpe between ∧
      ((∃ maps params, (readLabelmessage (getLdpMsg (buf.take size)) type (buf.drop size)
          ((buf.take size).drop ldpMsgSize)).verdict = .accept (maps, params) ∧
          notifyLde (getLdpMsg (buf.take size)) type params maps between = (result, ldpe')) ∨
        ∃ reply, Parting (getLdpMsg (buf.take size)) reply ∧ result = none ∧ ldpe' = say between reply) := by
  have length : (buf.take size).length = size := List.length_take_of_le fits
  have acts := obeysAt_recvLabelmessage fuel type ldpe (spans_take buf size)
    (by rw [length]; exact long) (by rw [length]; exact small)
  rw [length] at acts
  obtain ⟨between, advises, ends⟩ :=
    returned_advised acts (answers_readLabelmessage _ _ _ _) (fun _ => defined) attached returns
  refine ⟨_, between, advises, ?_⟩
  rcases ends with ⟨⟨maps, params⟩, accepts, ends⟩ | ⟨reply, rejects, gaveUp, ends⟩
  · exact Or.inl ⟨maps, params, accepts, ends⟩
  · refine Or.inr ⟨reply, ?_, gaveUp, ends⟩
    rcases rejects_readLabelmessage _ _ _ _ reply rejects with apt | ⟨rfl, -⟩
    · exact apt.parting
    · exact .shutdown _

include session

/-- A label message is passed on whole, or in part before the end of the session, or not at all. -/
theorem processed_recvLabelmessage {fuel : Nat} {type : UInt16} {result : Option Unit} {ldpe' : Ldpe}
    (defined : Defined Access.Meant (recvLabelmessage fuel buf size type ldpe))
    (returns : (recvLabelmessage fuel buf size type ldpe).outcome = .ret (result, ldpe')) :
    Processed (LabelEvents ldpe.nbr (getLdpMsg (buf.take size)) type (buf.drop size)
      ((buf.take size).drop ldpMsgSize)) ldpe result ldpe' := by
  obtain ⟨statuses, between, advises, ends⟩ :=
    recvLabelmessage_cases attached long fits small defined returns
  refine .of_advises advises ?_
  rw [← advises.tcp] at attached
  rw [← advises.state] at session
  rcases ends with ⟨maps, params, accepts, ends⟩ | ⟨reply, parting, rfl, rfl⟩
  swap
  · exact processed_parting attached session parting
  have stands : LabelEvents ldpe.nbr (getLdpMsg (buf.take size)) type (buf.drop size)
      ((buf.take size).drop ldpMsgSize)
      (fecEvents between.nbr (getLdpMsg (buf.take size)) type params maps) :=
    ⟨maps, params, accepts, (readLabelmessage_elements accepts).1, advises.fecEvents maps⟩
  rcases notifyLde_cases maps between with ⟨-, told⟩ | ⟨-, first, part, -, told⟩
  · cases ends.symm.trans told
    exact .whole _ stands rfl
  · cases ends.symm.trans told
    obtain ⟨toLde, down⟩ := shutdown_composeAll attached session
      (fecEvents between.nbr (getLdpMsg (buf.take size)) type params first) sBadTlvVal
      (getLdpMsg (buf.take size))
    exact .closed _ (Or.inr ⟨_, stands, fecEvents_part part _⟩) toLde down

end Message

/-! ### Usable labels -/

/-- What has been sent to the label decision engine since is usable, if it is a label mapping. -/
def TellsUsable (ldpe ldpe' : Ldpe) : Prop :=
  ∃ imsgs, ldpe'.toLde = ldpe.toLde ++ imsgs ∧
    ∀ peerid map, .labelMapping peerid map ∈ imsgs → peerid = ldpe.nbr.peerid ∧ Usable ldpe.nbr map

/-- A session that goes on, with nothing done but to notify the peer. -/
def OnlyAdvised (start ldpe : Ldpe) : Prop :=
  ldpe.nbr.tcp ≠ none ∧ ldpe.nbr.state ≠ .present ∧ ∃ statuses, Advises statuses start ldpe

/-- A parser that is about a message only notifies the peer until it gives up. -/
theorem replies_onlyAdvised (start : Ldpe) : Replies (OnlyAdvised start) (TellsUsable start) where
  weaker := by
    rintro ldpe ⟨-, -, statuses, advises⟩
    refine ⟨[], ?_, fun peerid map member => absurd member List.not_mem_nil⟩
    rw [advises.toLde, List.append_nil]
  notify := by
    rintro ldpe status msg ⟨attached, session, statuses, advises⟩
    have notified : Advises [status] ldpe (say ldpe (.notify status msg)) :=
      advises_sendNotificationNbr attached _ _ _
    refine ⟨?_, ?_, _, advises.trans notified⟩
    · rw [notified.tcp]
      exact attached
    · rw [notified.state]
      exact session
  shutdown := by
    rintro ldpe status msg ⟨attached, session, statuses, advises⟩
    obtain ⟨last, notified, closed⟩ := closed_shutdown attached session status msg
    refine ⟨_, by rw [closed.toLde, notified.toLde, advises.toLde], fun peerid map member => ?_⟩
    cases List.mem_singleton.mp member

section Parsed

variable {property gaveUp : Ldpe → Prop} (replies : Replies property gaveUp)
include replies

/-- The elements that the loop over them gathers fit the message, whatever there is in them. -/
theorem Replies.triple_fecRound (fuel : Nat) (msg : LdpMsg) (type : UInt16) (locals : FecLocals) :
    Triple (fun ldpe => (∀ map ∈ locals.maps, Fitting type map) ∧ property ldpe)
      (Sum.elim (fun next ldpe => (∀ map ∈ next.maps, Fitting type map) ∧ property ldpe)
        fun done ldpe => (∀ map ∈ done.maps, Fitting type map) ∧ property ldpe)
      gaveUp (fecRound fuel msg type locals) := by
  refine triple_of_fact fun fitting => ?_
  rw [fecRound]
  refine keeps_bind (replies.keeps_tlvDecodeFecElm ..) fun both => ?_
  refine triple_ite (fun _ => replies.keeps_refuse _ _) fun present => ?_
  refine triple_ite (fun _ => replies.keeps_shutdown _ _) fun placed => ?_
  refine keeps_ite (replies.keeps_shutdown _ _) (keeps_bind (keeps_subtract ..) fun len => ?_)
  refine keeps_bind (keeps_subtractInt ..) fun feclen => triple_pure _ fun ldpe holds => ?_
  have all : ∀ map ∈ locals.maps ++ [both.2], Fitting type map := by
    intro map member
    rcases List.mem_append.mp member with before | last
    · exact fitting map before
    · rw [List.mem_singleton.mp last]
      exact ⟨present, placed⟩
  split
  · exact ⟨all, holds⟩
  · exact ⟨all, holds⟩

/-- The mandatory label of a Label Mapping is one that may be sent. -/
theorem Replies.triple_mandatoryLabel (msg : LdpMsg) (buf : List UInt8) (len : Nat) :
    Triple property (fun start ldpe => labelOk start.found.label = true ∧ property ldpe) gaveUp
      (mandatoryLabel msg msgTypeLabelmapping buf len) := by
  rw [mandatoryLabel, if_pos rfl]
  refine triple_bind (fun label ldpe => labelOk label = true ∧ property ldpe) ?_ fun label => ?_
  · rw [tlvDecodeLabel]
    refine keeps_ite (replies.keeps_shutdown _ _) (keeps_bind (keeps_readMem ..) fun both => ?_)
    refine keeps_ite (replies.keeps_refuse _ _) (keeps_ite ?_ (replies.keeps_shutdown _ _))
    refine keeps_ite (replies.keeps_shutdown _ _) (triple_ite (fun ok => ?_) fun _ => ?_)
    · exact triple_pure _ fun ldpe holds => ⟨ok, holds⟩
    · exact replies.keeps_shutdown _ _
  · refine triple_of_fact fun ok => keeps_bind (keeps_subtract ..) fun len => ?_
    exact triple_pure _ fun ldpe holds => ⟨ok, holds⟩

/-- The optional parameters of a Label Mapping keep its label. -/
theorem Replies.triple_labelTlv (msg : LdpMsg) (tlv : Tlv) (buf : List UInt8) (found : LabelParams) :
    Triple property (fun found' ldpe => found'.label = found.label ∧ property ldpe) gaveUp
      (labelTlv msg msgTypeLabelmapping tlv buf found) := by
  have kept (found' : LabelParams) (same : found'.label = found.label) :
      Triple property (fun found' ldpe => found'.label = found.label ∧ property ldpe) gaveUp
        (pure found' : Parser LabelParams) :=
    triple_pure _ fun ldpe holds => ⟨same, holds⟩
  have word (condition : Prop) [Decidable condition] (store : UInt32 → LabelParams)
      (same : ∀ word, (store word).label = found.label) :
      Triple property (fun found' ldpe => found'.label = found.label ∧ property ldpe) gaveUp
        (if condition then Ldpd.shutdown sBadTlvLen msg
          else readMem 4 get32 buf >>= fun word => pure (store word) : Parser LabelParams) :=
    keeps_ite (replies.keeps_shutdown _ _) (keeps_bind (keeps_readMem ..) fun read => kept _ (same read))
  rw [labelTlv]
  refine keeps_ite (keeps_ite (word _ _ fun _ => rfl) (kept found rfl)) (keeps_ite (kept found rfl) ?_)
  refine keeps_ite ?_ (keeps_ite ?_ (keeps_ite ?_ (keeps_ite ?_ ?_)))
  · rw [if_neg (by decide)]
    exact kept found rfl
  · rw [if_neg (by decide)]
    exact kept found rfl
  · exact keeps_ite (replies.keeps_shutdown _ _) (kept found rfl)
  · exact keeps_ite (word _ _ fun _ => rfl) (kept found rfl)
  · exact keeps_bind (replies.keeps_unknownTlv _ _) fun _ => kept found rfl

omit replies in
/-- A loop over TLVs keeps what every single one of them keeps. -/
theorem Replies.triple_tlvRound (replies : Replies property gaveUp) {Found : Type} {msg : LdpMsg}
    {handle : Tlv → List UInt8 → Found → Parser Found} {fact : Found → Prop}
    (keeps : ∀ tlv buf found, fact found →
      Triple property (fun found' ldpe => fact found' ∧ property ldpe) gaveUp (handle tlv buf found))
    (locals : TlvLocals Found) :
    Triple (fun ldpe => fact locals.found ∧ property ldpe)
      (Sum.elim (fun next ldpe => fact next.found ∧ property ldpe) fun found ldpe =>
        fact found ∧ property ldpe) gaveUp (tlvRound msg handle locals) := by
  refine triple_of_fact fun holds => ?_
  rw [tlvRound]
  refine keeps_ite (triple_pure _ fun ldpe kept => ⟨holds, kept⟩) ?_
  refine keeps_ite (replies.keeps_shutdown _ _) (keeps_bind (keeps_readMem ..) fun tlv => ?_)
  refine keeps_ite (replies.keeps_shutdown _ _) (keeps_bind (keeps_subtract ..) fun len => ?_)
  refine triple_bind _ (keeps _ _ _ holds) fun found => triple_of_fact fun holds' => ?_
  exact keeps_bind (keeps_subtract ..) fun len => triple_pure _ fun ldpe kept => ⟨holds', kept⟩

/-- What `recv_labelmessage` has gathered before its last loop, whatever the bytes. -/
theorem Replies.triple_parseLabelmessage (fuel : Nat) (msg : LdpMsg) (buf : List UInt8) (len : Nat) :
    Triple property (fun parsed ldpe => ((∀ map ∈ parsed.1, Fitting msgTypeLabelmapping map) ∧
      labelOk parsed.2.label = true) ∧ property ldpe) gaveUp
      (parseLabelmessage fuel msg msgTypeLabelmapping buf len) := by
  rw [parseLabelmessage]
  refine keeps_ite (replies.keeps_shutdown _ _) (keeps_bind (keeps_readMem ..) fun ft => ?_)
  refine keeps_ite (replies.keeps_refuse _ _) (keeps_ite (replies.keeps_shutdown _ _) ?_)
  refine keeps_bind (keeps_subtract ..) fun len => ?_
  refine triple_bind (fun done ldpe => (∀ map ∈ done.maps, Fitting msgTypeLabelmapping map) ∧ property ldpe)
    ?_ fun done => ?_
  · have rounds := triple_loop (fun (locals : FecLocals) ldpe =>
      (∀ map ∈ locals.maps, Fitting msgTypeLabelmapping map) ∧ property ldpe)
      (replies.triple_fecRound fuel msg msgTypeLabelmapping) fuel
      { buf := buf.drop tlvHdrSize, len, feclen := ft.length.toNat, maps := [] }
    exact rounds.weaken (fun ldpe holds => ⟨fun map member => absurd member List.not_mem_nil, holds⟩)
      fun _ _ both => both
  refine triple_of_fact fun fitting => ?_
  refine triple_bind _ (replies.triple_mandatoryLabel ..) fun start => triple_of_fact fun ok => ?_
  refine triple_bind (fun params ldpe => labelOk params.label = true ∧ property ldpe) ?_ fun params => ?_
  · have options (tlv : Tlv) (buf : List UInt8) (found : LabelParams) (ok : labelOk found.label = true) :
        Triple property (fun found' ldpe => labelOk found'.label = true ∧ property ldpe) gaveUp
          (labelTlv msg msgTypeLabelmapping tlv buf found) :=
      (replies.triple_labelTlv msg tlv buf found).weaken (fun _ holds => holds)
        fun found' ldpe both => ⟨both.1 ▸ ok, both.2⟩
    exact (triple_loop _ (replies.triple_tlvRound options) fuel start).weaken
      (fun ldpe holds => ⟨ok, holds⟩) fun _ _ both => both
  · exact triple_pure _ fun ldpe both => ⟨⟨fitting, both.1⟩, both.2⟩

end Parsed

/-- The last loop of `recv_labelmessage` passes usable labels on. -/
theorem notifyLde_usable {start ldpe : Ldpe} (advised : OnlyAdvised start ldpe) (msg : LdpMsg)
    {params : LabelParams} {maps : List FecBuf} (fitting : ∀ map ∈ maps, Fitting msgTypeLabelmapping map)
    (label : labelOk params.label = true) :
    Leaves (fun _ => TellsUsable start) (TellsUsable start)
      (notifyLde msg msgTypeLabelmapping params maps ldpe) := by
  obtain ⟨attached, session, statuses, advises⟩ := advised
  have usable {first : List FecBuf} (part : ∀ map ∈ first, map ∈ maps)
      (placed : ∀ map ∈ first, ¬labelMisplaced params.label map.fec = true) {peerid : UInt32} {map : Map}
      (member : .labelMapping peerid map ∈ fecEvents ldpe.nbr msg msgTypeLabelmapping params first) :
      peerid = start.nbr.peerid ∧ Usable start.nbr map := by
    rw [advises.fecEvents, fecEvents] at member
    obtain ⟨elm, listed, same⟩ := List.mem_map.mp member
    obtain ⟨among, enabled⟩ := List.mem_filter.mp listed
    rw [labelImsg, if_pos rfl] at same
    cases same
    exact ⟨rfl, usable_of_fitting (fitting elm (part elm among)) label (placed elm among) enabled⟩
  rcases notifyLde_cases maps ldpe with ⟨placed, told⟩ | ⟨-, first, part, placed, told⟩
  · rw [told]
    refine ⟨_, congrArg (· ++ _) advises.toLde, fun peerid map member => ?_⟩
    exact usable (fun map among => among) placed member
  · rw [told]
    obtain ⟨toLde, -⟩ := shutdown_composeAll attached session
      (fecEvents ldpe.nbr msg msgTypeLabelmapping params first) sBadTlvVal msg
    rw [List.append_assoc, advises.toLde] at toLde
    refine ⟨_, toLde, fun peerid map member => ?_⟩
    rcases List.mem_append.mp member with passed | down
    · exact usable (fun map among => part.subset among) placed passed
    · cases List.mem_singleton.mp down

/-- The mappings that are passed on have usable labels, whatever the bytes of the message. -/
theorem mapping_usable {ldpe : Ldpe} (attached : ldpe.nbr.tcp ≠ none)
    (session : ldpe.nbr.state ≠ .present) {buf : List UInt8} {size fuel : Nat} {result : Option Unit}
    {ldpe' : Ldpe} (returns : (recvLabelmessage fuel buf size msgTypeLabelmapping ldpe).outcome =
      .ret (result, ldpe')) :
    ∃ imsgs, ldpe'.toLde = ldpe.toLde ++ imsgs ∧
      ∀ peerid map, .labelMapping peerid map ∈ imsgs → peerid = ldpe.nbr.peerid ∧ Usable ldpe.nbr map := by
  have start : OnlyAdvised ldpe ldpe := ⟨attached, session, [], .refl ldpe⟩
  have replies := replies_onlyAdvised ldpe
  have triple : Triple (OnlyAdvised ldpe) (fun _ => TellsUsable ldpe) (TellsUsable ldpe)
      (recvLabelmessage fuel buf size msgTypeLabelmapping) := by
    rw [recvLabelmessage]
    refine keeps_bind (keeps_readMem ..) fun msg => keeps_bind (keeps_subtract ..) fun len => ?_
    refine triple_bind _ (replies.triple_parseLabelmessage ..) fun parsed => ?_
    refine triple_of_fact fun facts => triple_act fun ldpe' advised => ?_
    exact notifyLde_usable advised msg facts.1 facts.2
  cases result with
  | some _ => exact triple.returns start returns
  | none => exact triple.givesUp start returns

/-- A Label Mapping for 10.1.2.0/24, an IPv4 prefix of the impossible length 33, 2001:db8::/32 and a
pseudowire, with the id of a request and an unknown TLV that is to be ignored. -/
def mixedMapping : List UInt8 :=
  message msgTypeLabelmapping 1 [0x01, 0x00, 0x00, 0x24,
    0x02, 0x00, 0x01, 0x18, 10, 1, 2,
    0x02, 0x00, 0x01, 0x21, 10, 9, 8, 7, 6,
    0x02, 0x00, 0x02, 0x20, 0x20, 0x01, 0x0d, 0xb8,
    0x80, 0x00, 0x05, 0x04, 0, 0, 0, 0, 0, 0, 0, 100,
    0x02, 0x00, 0x00, 0x04, 0, 0, 0, 20,
    0x06, 0x00, 0x00, 0x04, 0, 0, 0, 9,
    0x96, 0x6a, 0x00, 0x04, 0, 0, 0, 1]

/-- What comes of it. -/
def mixedMapped : Ldpe :=
  operSession.composeAll ([.network (.v4 0x0a010200) 24, .network (.v4 0) 33,
    .network (.v6 #v[0x20, 0x01, 0x0d, 0xb8, 0, 0, 0, 0, 0, 0, 0, 0, 0, 0, 0, 0]) 32,
    .pwid 5 100 0 0].map fun fec => .labelMapping 1 {
      fec, msgId := 1, label := 20, requestid := 9, flags := { reqId := true, pwId := fec.isPwid } })

theorem mapping_usable_mixed : ∃ imsgs, mixedMapped.toLde = operSession.toLde ++ imsgs ∧
    ∀ peerid map, .labelMapping peerid map ∈ imsgs → peerid = 1 ∧ Usable operSession.nbr map :=
  mapping_usable (by decide) (by decide) (show (recvLabelmessage 8 mixedMapping 72 msgTypeLabelmapping
    operSession).outcome = .ret (some (), mixedMapped) from rfl)

/-! ### Address messages -/

/-- The addresses of a list, of which the last one may be cut short. -/
def addrsOf (af : Af) (list : List UInt8) : List LdpdAddr :=
  (List.range ((list.length + af.addrSize - 1) / af.addrSize)).map fun i =>
    addrOfBytes af (list.drop (i * af.addrSize))

theorem addrsOf_nil (af : Af) : addrsOf af [] = [] := by
  cases af <;> rfl

theorem addrsOf_eq (af : Af) {list : List UInt8} (some' : list ≠ []) :
    addrsOf af list = addrOfBytes af list :: addrsOf af (list.drop af.addrSize) := by
  have positive := List.length_pos_iff.mpr some'
  have size : (list.length + af.addrSize - 1) / af.addrSize =
      ((list.drop af.addrSize).length + af.addrSize - 1) / af.addrSize + 1 := by
    rw [List.length_drop]
    cases af with
    | inet =>
      show (list.length + 4 - 1) / 4 = (list.length - 4 + 4 - 1) / 4 + 1
      omega
    | inet6 =>
      show (list.length + 16 - 1) / 16 = (list.length - 16 + 16 - 1) / 16 + 1
      omega
  rw [addrsOf, size, List.range_succ_eq_map, List.map_cons, List.map_map, Nat.zero_mul, List.drop_zero,
    addrsOf]
  refine congrArg _ (List.map_congr_left fun i _ => ?_)
  rw [List.drop_drop, Function.comp_apply, Nat.succ_mul, Nat.add_comm]

/-- All addresses of a list are passed on, or the session ends at the one that is cut short. -/
theorem readAddrs_cases (msg : LdpMsg) (af : Af) (list : List UInt8) :
    ((readAddrs msg af list).verdict = .accept () ∧
      (readAddrs msg af list).replies = (addrsOf af list).map (.address msg)) ∨
    ((readAddrs msg af list).verdict = .reject (.shutdown sBadTlvLen msg) ∧
      ∃ part, part <+: addrsOf af list ∧ (readAddrs msg af list).replies = part.map (.address msg)) := by
  have positive : 0 < af.addrSize := by cases af <;> decide
  induction size : list.length using Nat.strongRecOn generalizing list with
  | ind size inductionHypothesis =>
    subst size
    rw [readAddrs, iterate_eq, readAddr]
    by_cases empty : list.length = 0
    · obtain rfl := List.length_eq_zero_iff.mp empty
      rw [if_pos empty, addrsOf_nil]
      exact Or.inl ⟨rfl, rfl⟩
    rw [if_neg empty]
    by_cases short : list.length < af.addrSize
    · rw [if_pos short]
      exact Or.inr ⟨rfl, [], List.nil_prefix, rfl⟩
    rw [if_neg short, addrsOf_eq af (fun none' => empty (by rw [none']; rfl))]
    have less : (list.drop af.addrSize).length < list.length := by
      rw [List.length_drop]
      omega
    have step : (passOn msg (addrOfBytes af list) >>= fun _ => pure (.inl (list.drop af.addrSize)) :
        Said (List UInt8 ⊕ Unit)) =
          ⟨[.address msg (addrOfBytes af list)], false, .accept (.inl (list.drop af.addrSize))⟩ := rfl
    rw [step, bind_accept rfl]
    simp only [if_pos less]
    rcases inductionHypothesis _ less (list.drop af.addrSize) rfl with
      ⟨accepts, replies⟩ | ⟨rejects, part, among, replies⟩
    · refine Or.inl ⟨accepts, ?_⟩
      rw [readAddrs] at replies
      rw [replies]
      rfl
    · refine Or.inr ⟨rejects, addrOfBytes af list :: part, (List.prefix_cons_inj _).mpr among, ?_⟩
      rw [readAddrs] at replies
      rw [replies]
      rfl

/-- The event that an address in a message stands for. -/
def addressEvent (msg : LdpMsg) (peerid : UInt32) (addr : LdpdAddr) : LdeEvent :=
  if msg.type = msgTypeAddr then .addressAdd peerid addr else .addressDel peerid addr

theorem foldl_say_addresses (msg : LdpMsg) (addrs : List LdpdAddr) (ldpe : Ldpe) :
    (addrs.map (.address msg)).foldl say ldpe =
      ldpe.composeAll (addrs.map (addressEvent msg ldpe.nbr.peerid)) := by
  induction addrs generalizing ldpe with
  | nil => exact (composeAll_nil ldpe).symm
  | cons addr rest inductionHypothesis =>
    rw [List.map_cons, List.foldl_cons, inductionHypothesis, List.map_cons]
    exact composeAll_composeLde ldpe _ _

/-- The events that an address message stands for, if the neighbor takes its family. -/
def AddressEvents (nbr : Nbr) (msg : LdpMsg) (body : List UInt8) (events : List LdeEvent) : Prop :=
  ∃ af, afOfFamily (get16 (body.drop 4)) = some af ∧
    events = if nbr.takes af then
      (addrsOf af (body.drop addrListSize)).map (addressEvent msg nbr.peerid) else []

/-- How an address message is read. -/
theorem readAddress_cases (takes : Af → Bool) (msg : LdpMsg) (body : List UInt8) :
    (∃ reply, Parting msg reply ∧ readAddress takes msg body = ⟨[], false, .reject reply⟩) ∨
      ∃ af, afOfFamily (get16 (body.drop 4)) = some af ∧ readAddress takes msg body =
        if takes af then readAddrs msg af (body.drop addrListSize) else pure () := by
  rw [readAddress]
  split
  · exact Or.inl ⟨_, .shutdown _, rfl⟩
  split
  · exact Or.inl ⟨_, .shutdown _, rfl⟩
  split
  · exact Or.inl ⟨_, .shutdown _, rfl⟩
  cases family : afOfFamily (get16 (body.drop 4)) with
  | none => exact Or.inl ⟨_, .notify _, rfl⟩
  | some af => exact Or.inr ⟨af, rfl, rfl⟩

section Message

variable {ldpe : Ldpe} {buf : List UInt8} {size : Nat} (attached : ldpe.nbr.tcp ≠ none)
  (session : ldpe.nbr.state ≠ .present) (long : ldpMsgSize ≤ size) (fits : size ≤ buf.length)
  (small : size < 2 ^ 16)
include attached session long fits small

/-- The addresses of a message are passed on, or some of them before the end of the session, or
none. -/
theorem processed_recvAddress {fuel : Nat} {result : Option Unit} {ldpe' : Ldpe}
    (returns : (recvAddress fuel buf size ldpe).outcome = .ret (result, ldpe')) :
    Processed (AddressEvents ldpe.nbr (getLdpMsg (buf.take size)) ((buf.take size).drop ldpMsgSize))
      ldpe result ldpe' := by
  have length : (buf.take size).length = size := List.length_take_of_le fits
  have acts := obeysAt_recvAddress fuel ldpe (spans_take buf size) (by rw [length]; exact long)
    (by rw [length]; exact small)
  rw [length] at acts
  have meaning := not_has_readAddress ldpe.nbr.takes (getLdpMsg (buf.take size))
    ((buf.take size).drop ldpMsgSize) .undefined
  have ends := acts.returned (fun undefined => absurd undefined meaning) returns
  rcases readAddress_cases ldpe.nbr.takes (getLdpMsg (buf.take size)) ((buf.take size).drop ldpMsgSize)
    with ⟨reply, parting, reads⟩ | ⟨af, family, reads⟩
  · rw [reads] at ends
    rcases ends with ⟨_, accepts, -⟩ | ⟨reply', rejects, rfl, rfl⟩
    · cases accepts
    · cases rejects
      exact processed_parting attached session parting
  have stands : AddressEvents ldpe.nbr (getLdpMsg (buf.take size)) ((buf.take size).drop ldpMsgSize) _ :=
    ⟨af, family, rfl⟩
  rw [reads] at ends
  by_cases takes : ldpe.nbr.takes af = true
  · rw [if_pos takes] at ends stands
    rcases readAddrs_cases (getLdpMsg (buf.take size)) af
        (((buf.take size).drop ldpMsgSize).drop addrListSize) with
      ⟨accepts, replies⟩ | ⟨rejects, part, among, replies⟩
    · rw [accepts, replies, foldl_say_addresses] at ends
      rcases ends with ⟨_, -, ends⟩ | ⟨_, impossible, -⟩
      · cases ends
        exact .whole _ stands rfl
      · cases impossible
    · rw [rejects, replies, foldl_say_addresses] at ends
      rcases ends with ⟨_, impossible, -⟩ | ⟨_, same, rfl, rfl⟩
      · cases impossible
      · cases same
        obtain ⟨told, down⟩ := shutdown_composeAll attached session
          (part.map (addressEvent (getLdpMsg (buf.take size)) ldpe.nbr.peerid)) sBadTlvLen
          (getLdpMsg (buf.take size))
        exact .closed _ (Or.inr ⟨_, stands, among.map _⟩) told down
  · rw [if_neg takes] at ends stands
    rcases ends with ⟨_, -, ends⟩ | ⟨_, impossible, -⟩
    · cases ends
      exact .whole [] stands (List.append_nil _).symm
    · cases impossible

/-! ### Notifications -/

/-- The events that a notification stands for, if it is about the status of a pseudowire. -/
def NotificationEvents (nbr : Nbr) (msg : LdpMsg) (body : List UInt8) (events : List LdeEvent) : Prop :=
  NotificationGood body ∧ events = if get32 (body.drop 4) = sPwStatus then
    [.notification nbr.peerid (gathered msg body)] else []

omit attached session long fits small in
/-- The end of `recv_notification`. -/
theorem processed_finishNotification {stands : List LdeEvent → Prop} {ldpe : Ldpe}
    (attached : ldpe.nbr.tcp ≠ none) (session : ldpe.nbr.state ≠ .present) (msg : LdpMsg)
    {nm : NotifyMsg} {result : Option Unit} {ldpe' : Ldpe}
    (all : stands (if nm.statusCode = sPwStatus then [.notification ldpe.nbr.peerid nm] else []))
    (ends : finishNotification msg nm ldpe = (result, ldpe')) : Processed stands ldpe result ldpe' := by
  rw [finishNotification] at ends
  by_cases incomplete : pwStatusIncomplete nm = true
  · rw [if_pos incomplete] at ends
    cases ends
    exact processed_parting attached session (.notify _)
  rw [if_neg incomplete] at ends
  by_cases misplaced : pwStatusMisplaced nm = true
  · rw [if_pos misplaced] at ends
    cases ends
    exact processed_parting attached session (.notify _)
  rw [if_neg misplaced] at ends
  by_cases fatal : nm.statusCode &&& statusFatal ≠ 0
  · rw [if_pos fatal] at ends
    cases ends
    have closed := closed_startIdtimer session
    exact .closed [] (Or.inl rfl) (closed.toLde.trans (by rw [List.append_nil])) closed.state
  rw [if_neg fatal] at ends
  by_cases status : nm.statusCode = sPwStatus
  · rw [if_pos status] at ends all
    cases ends
    exact .whole _ all rfl
  · rw [if_neg status] at ends all
    cases ends
    exact .whole _ all (List.append_nil _).symm

/-- A notification is passed on, or not, or ends the session. -/
theorem processed_recvNotification {fuel : Nat} {result : Option Unit} {ldpe' : Ldpe}
    (defined : Defined Access.Meant (recvNotification fuel buf size ldpe))
    (returns : (recvNotification fuel buf size ldpe).outcome = .ret (result, ldpe')) :
    Processed (NotificationEvents ldpe.nbr (getLdpMsg (buf.take size)) ((buf.take size).drop ldpMsgSize))
      ldpe result ldpe' := by
  have length : (buf.take size).length = size := List.length_take_of_le fits
  have acts := obeysAt_recvNotification fuel ldpe (spans_take buf size) (by rw [length]; exact long)
    (by rw [length]; exact small)
  rw [length] at acts
  obtain ⟨between, advises, ends⟩ :=
    returned_advised acts (answers_readNotification _ _ _) (fun _ => defined) attached returns
  refine .of_advises advises ?_
  have peerid := advises.peerid
  rw [← advises.tcp] at attached
  rw [← advises.state] at session
  rcases ends with ⟨read, accepts, ends⟩ | ⟨reply, rejects, rfl, rfl⟩
  · have good := (accepts_iff_notificationGood _ _ _).mp ⟨_, accepts⟩
    have same := notifyMsg_of_accepts accepts
    have all : NotificationEvents ldpe.nbr (getLdpMsg (buf.take size)) ((buf.take size).drop ldpMsgSize)
        (if read.statusCode = sPwStatus then [.notification between.nbr.peerid read] else []) := by
      refine ⟨good, ?_⟩
      rw [peerid, same]
      rfl
    exact processed_finishNotification attached session _ all ends
  · exact processed_parting attached session (rejects_readNotification _ _ _ reply rejects).parting

/-- Whatever the message, all of it is passed on, or a part and then the end of the session, or
nothing. -/
theorem message_processed (fuel : Nat) (result : Option Unit) (ldpe' : Ldpe) :
    (∀ type, Defined Access.Meant (recvLabelmessage fuel buf size type ldpe) →
      (recvLabelmessage fuel buf size type ldpe).outcome = .ret (result, ldpe') →
      Processed (LabelEvents ldpe.nbr (getLdpMsg (buf.take size)) type (buf.drop size)
        ((buf.take size).drop ldpMsgSize)) ldpe result ldpe') ∧
    ((recvAddress fuel buf size ldpe).outcome = .ret (result, ldpe') →
      Processed (AddressEvents ldpe.nbr (getLdpMsg (buf.take size)) ((buf.take size).drop ldpMsgSize))
        ldpe result ldpe') ∧
    (Defined Access.Meant (recvNotification fuel buf size ldpe) →
      (recvNotification fuel buf size ldpe).outcome = .ret (result, ldpe') →
      Processed (NotificationEvents ldpe.nbr (getLdpMsg (buf.take size))
        ((buf.take size).drop ldpMsgSize)) ldpe result ldpe') :=
  ⟨fun _ => processed_recvLabelmessage attached session long fits small,
    processed_recvAddress attached session long fits small,
    processed_recvNotification attached session long fits small⟩

end Message

/-! ### Messages -/

/-- A Label Mapping for two prefixes and a pseudowire, of which the last cannot have the label. -/
def partMapping : List UInt8 :=
  message msgTypeLabelmapping 1 [0x01, 0x00, 0x00, 0x1b,
    0x02, 0x00, 0x01, 0x18, 10, 1, 2,
    0x02, 0x00, 0x02, 0x20, 0x20, 0x01, 0x0d, 0xb8,
    0x80, 0x00, 0x05, 0x04, 0, 0, 0, 0, 0, 0, 0, 100,
    0x02, 0x00, 0x00, 0x04, 0, 0, 0, 3]

/-- What comes of it: the prefixes are passed on, and the session ends. -/
def partMapped : Ldpe :=
  say (operSession.composeAll ([.network (.v4 0x0a010200) 24,
    .network (.v6 #v[0x20, 0x01, 0x0d, 0xb8, 0, 0, 0, 0, 0, 0, 0, 0, 0, 0, 0, 0]) 32].map fun fec =>
      .labelMapping 1 { fec, msgId := 1, label := 3 })) (.shutdown sBadTlvVal (getLdpMsg partMapping))

theorem message_processed_part :
    Processed (LabelEvents operSession.nbr (getLdpMsg (partMapping.take 47)) msgTypeLabelmapping
      (partMapping.drop 47) ((partMapping.take 47).drop ldpMsgSize)) operSession none partMapped :=
  (message_processed (by decide) (by decide) (by decide) (show 47 ≤ partMapping.length by decide)
    (by decide) 8 none partMapped).1 msgTypeLabelmapping ⟨by decide +kernel, nofun⟩ rfl

/-- A notification of an unknown TLV that names a pseudowire. -/
def namingNotification : List UInt8 :=
  message msgTypeNotification 1 (notificationParams { statusCode := sUnknownTlv, msgId := 0, msgType := 0 } ++
    [0x01, 0x00, 0x00, 0x0c, 0x80, 0x00, 0x05, 0x04, 0, 0, 0, 0, 0, 0, 0, 100])

/-- The notification is accepted, and its FEC is not passed on. -/
theorem notified_fec_dropped :
    (recvNotification 8 namingNotification namingNotification.length operSession).outcome =
        .ret (some (), operSession) ∧
      notificationPlaces tlvTypeFec (namingNotification.drop ldpMsgSize) ≠ [] :=
  ⟨rfl, by decide⟩

end Ldpd
