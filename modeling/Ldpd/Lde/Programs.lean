/-
This file is about what the engine tells the parent process of the labels of routes. The
parent process remembers, for every nexthop, the labels of the last message about it. In
every run these are the labels that the engine has for the nexthop.
-/

import Ldpd.Library.Run
import Ldpd.Lde.Database

namespace Ldpd

/-! ### What the parent process remembers -/

/-- A nexthop of a FEC, as the messages to the parent process name it. -/
structure Hop where
  fec : Fec
  nexthop : LdpdAddr
  priority : UInt8
  deriving DecidableEq, Repr

/-- The FEC of a route in a message. -/
def Kroute.fec (kr : Kroute) : Fec :=
  match kr.addr with
  | .v4 addr => .ipv4 addr kr.prefixlen
  | .v6 addr => .ipv6 addr kr.prefixlen

/-- The nexthop that a message is about. -/
def Kroute.hop (kr : Kroute) : Hop := ⟨kr.fec, kr.nexthop, kr.priority⟩

def FecNh.hop (fec : Fec) (fnh : FecNh) : Hop := ⟨fec, fnh.nexthop, fnh.priority⟩

/-- What a message makes of the labels that are remembered for a nexthop, the local and the remote
one. -/
def programmed (hop : Hop) (told : Option (UInt32 × UInt32)) :
    ParentImsg → Option (UInt32 × UInt32)
  | .klabelChange kr => if kr.hop = hop then some (kr.localLabel, kr.remoteLabel) else told
  | .klabelDelete kr => if kr.hop = hop then none else told
  | .kpwlabelChange _ | .kpwlabelDelete _ => told

/-- The labels that the parent process has been told for a nexthop. -/
def Lde.told (lde : Lde) (hop : Hop) : Option (UInt32 × UInt32) :=
  lde.toParent.foldl (programmed hop) none

/-- The labels are those that the engine has for the nexthop. Without labels, it has no remote one. -/
def Lde.Agrees (lde : Lde) (hop : Hop) : Option (UInt32 × UInt32) → Prop
  | none => ∀ fnh ∈ lde.nexthops hop.fec, fnh.hop hop.fec = hop → fnh.remoteLabel = noLabel
  | some (localLabel, remoteLabel) => lde.localLabel hop.fec = localLabel ∧
    ∃ fnh ∈ lde.nexthops hop.fec, fnh.hop hop.fec = hop ∧ fnh.remoteLabel = remoteLabel

/-- A message does not change the local label that is remembered. -/
def Steady (hop : Hop) (told : Option (UInt32 × UInt32)) : ParentImsg → Prop
  | .klabelChange kr => kr.hop = hop → ∀ labels, told = some labels → kr.localLabel = labels.1
  | _ => True

/-- The engine has the nexthop. -/
def Lde.Lists (lde : Lde) (hop : Hop) : Prop :=
  (hop.nexthop, hop.priority) ∈ nexthopKeys (lde.nexthops hop.fec)

/-- All nexthops of routes are among those that are known, and no route has the last reserved
label. -/
structure Lde.Within (known : Hop → Prop) (lde : Lde) : Prop where
  hops : ∀ hop, hop.fec.af ≠ none → lde.Lists hop → known hop
  labels : ∀ fec, fec.af ≠ none → lde.localLabel fec ≠ mplsLabelReservedMax

/-- A message about a route is about a nexthop that is known, and does not set the last reserved
label. -/
def ParentImsg.About (known : Hop → Prop) : ParentImsg → Prop
  | .klabelChange kr => known kr.hop ∧ kr.localLabel ≠ mplsLabelReservedMax
  | .klabelDelete kr => known kr.hop
  | .kpwlabelChange _ | .kpwlabelDelete _ => True

/-- The messages to the parent process keep what it remembers of the routes right, and name no nexthop
that is not known. -/
structure Programs (known : Hop → Prop) (lde lde' : Lde) : Prop where
  within : lde.Within known → lde'.Within known
  program : ∃ imsgs, lde'.toParent = lde.toParent ++ imsgs ∧
    (lde.Within known → ∀ imsg ∈ imsgs, imsg.About known) ∧
    ∀ hop, hop.fec.af ≠ none → ∀ told, lde.Agrees hop told →
      Run.Allowed (programmed hop) (Steady hop) told imsgs ∧
        lde'.Agrees hop (imsgs.foldl (programmed hop) told)

/-- A message about a pseudowire. -/
def ParentImsg.pw : ParentImsg → Bool
  | .kpwlabelChange _ | .kpwlabelDelete _ => true
  | _ => false

section Rules

variable {known : Hop → Prop} {lde lde' lde'' : Lde}

theorem Programs.refl (lde : Lde) : Programs known lde lde where
  within := id
  program := ⟨[], (List.append_nil _).symm, fun _ _ member => absurd member List.not_mem_nil,
    fun _ _ _ agrees => ⟨trivial, agrees⟩⟩

/-- Runs of handlers are put together: the second remembers what the first has told. -/
theorem Programs.trans (first : Programs known lde lde') (second : Programs known lde' lde'') :
    Programs known lde lde'' := by
  obtain ⟨before, queued, about, program⟩ := first.program
  obtain ⟨after, queued', about', program'⟩ := second.program
  refine ⟨fun within => second.within (first.within within), before ++ after, ?_,
    fun within imsg member => ?_, fun hop route told agrees => ?_⟩
  · rw [queued', queued, List.append_assoc]
  · exact (List.mem_append.mp member).elim (about within imsg)
      (about' (first.within within) imsg)
  · obtain ⟨steady, then'⟩ := program hop route told agrees
    obtain ⟨steady', last⟩ := program' hop route _ then'
    rw [List.foldl_append]
    exact ⟨Run.allowed_append.mpr ⟨steady, steady'⟩, last⟩

/-- A loop whose body keeps an invariant it relies on. -/
theorem Programs.foldl {Item : Type} (body : Lde → Item → Lde) (invariant : Lde → Prop)
    (kept : ∀ lde item, invariant lde → invariant (body lde item)) (items : List Item)
    (programs : ∀ lde, ∀ item ∈ items, invariant lde → Programs known lde (body lde item))
    (lde : Lde) (holds : invariant lde) : Programs known lde (items.foldl body lde) := by
  induction items generalizing lde with
  | nil => exact .refl lde
  | cons item rest inductionHypothesis =>
    exact (programs lde item List.mem_cons_self holds).trans
      (inductionHypothesis (fun lde other member => programs lde other (.tail item member)) _
        (kept lde item holds))

/-- A loop whose body relies on nothing. -/
theorem Programs.foldl_free {Item : Type} (body : Lde → Item → Lde)
    (programs : ∀ lde item, Programs known lde (body lde item)) (items : List Item) (lde : Lde) :
    Programs known lde (items.foldl body lde) :=
  .foldl body (fun _ => True) (fun _ _ _ => trivial) items (fun lde item _ _ => programs lde item)
    lde trivial

theorem ParentImsg.about_of_pw {imsg : ParentImsg} (pw : imsg.pw = true) (known : Hop → Prop) :
    imsg.About known := by
  cases imsg with
  | klabelChange | klabelDelete => cases pw
  | kpwlabelChange | kpwlabelDelete => trivial

/-- Messages about pseudowires are not remembered for a route. -/
theorem foldl_pw {imsgs : List ParentImsg} (pw : ∀ imsg ∈ imsgs, imsg.pw = true) (hop : Hop)
    (told : Option (UInt32 × UInt32)) :
    Run.Allowed (programmed hop) (Steady hop) told imsgs ∧
      imsgs.foldl (programmed hop) told = told := by
  induction imsgs with
  | nil => exact ⟨trivial, rfl⟩
  | cons imsg rest inductionHypothesis =>
    have here := pw imsg List.mem_cons_self
    have later := inductionHypothesis fun other member => pw other (List.mem_cons_of_mem imsg member)
    cases imsg with
    | klabelChange | klabelDelete => cases here
    | kpwlabelChange | kpwlabelDelete => exact ⟨⟨trivial, later.1⟩, later.2⟩

/-- Whether labels agree is decided by the nexthops and the local label of the FEC. -/
theorem agrees_congr {hop : Hop} (nexthops : lde'.nexthops hop.fec = lde.nexthops hop.fec)
    (label : lde'.localLabel hop.fec = lde.localLabel hop.fec) (told : Option (UInt32 × UInt32)) :
    lde'.Agrees hop told ↔ lde.Agrees hop told := by
  cases told with
  | none => rw [Lde.Agrees, Lde.Agrees, nexthops]
  | some labels => rw [Lde.Agrees, Lde.Agrees, nexthops, label]

/-- Labels may change where there is no nexthop. -/
theorem agrees_mono {hop : Hop} (nexthops : lde'.nexthops hop.fec = lde.nexthops hop.fec)
    (label : lde.nexthops hop.fec = [] ∨ lde'.localLabel hop.fec = lde.localLabel hop.fec)
    (told : Option (UInt32 × UInt32)) (agrees : lde.Agrees hop told) : lde'.Agrees hop told := by
  rcases label with empty | label
  · cases told with
    | none =>
      rw [Lde.Agrees, nexthops, empty]
      exact fun _ member => absurd member List.not_mem_nil
    | some labels =>
      obtain ⟨-, fnh, listed, -⟩ := agrees
      exact absurd (empty ▸ listed) List.not_mem_nil
  · exact (agrees_congr nexthops label told).mpr agrees

/-- Messages about pseudowires, while the routes stay. -/
theorem Programs.aside {imsgs : List ParentImsg} (queued : lde'.toParent = lde.toParent ++ imsgs)
    (pw : ∀ imsg ∈ imsgs, imsg.pw = true)
    (nexthops : ∀ fec, fec.af ≠ none → lde'.nexthops fec = lde.nexthops fec)
    (labels : ∀ fec, fec.af ≠ none →
      lde.nexthops fec = [] ∧ lde'.localLabel fec ≠ mplsLabelReservedMax ∨
        lde'.localLabel fec = lde.localLabel fec) : Programs known lde lde' := by
  have lists (hop : Hop) (route : hop.fec.af ≠ none) : lde'.Lists hop ↔ lde.Lists hop := by
    rw [Lde.Lists, nexthops hop.fec route, Lde.Lists]
  refine ⟨fun within => ⟨fun hop route listed =>
      within.hops hop route ((lists hop route).mp listed), fun fec route => ?_⟩, imsgs,
    queued, fun _ imsg member => ParentImsg.about_of_pw (pw imsg member) known,
    fun hop route told agrees => ?_⟩
  · exact (labels fec route).elim And.right fun same => same ▸ within.labels fec route
  · obtain ⟨steady, same⟩ := foldl_pw pw hop told
    rw [same]
    exact ⟨steady, agrees_mono (nexthops _ route) ((labels _ route).imp_left And.left) told agrees⟩

/-- Nothing is sent, and nothing changes that would have to be. -/
theorem Programs.silent (queued : lde'.toParent = lde.toParent)
    (nexthops : ∀ fec, fec.af ≠ none → lde'.nexthops fec = lde.nexthops fec)
    (labels : ∀ fec, fec.af ≠ none →
      lde.nexthops fec = [] ∧ lde'.localLabel fec ≠ mplsLabelReservedMax ∨
        lde'.localLabel fec = lde.localLabel fec) : Programs known lde lde' :=
  .aside (queued.trans (List.append_nil _).symm) (fun _ member => absurd member List.not_mem_nil)
    nexthops labels

theorem Programs.of_bindings (queued : lde'.toParent = lde.toParent)
    (same : lde'.bindings = lde.bindings) : Programs known lde lde' :=
  .silent queued (fun fec _ => congrFun (congrArg Bindings.nexthops same) fec)
    fun fec _ => .inr (congrFun (congrArg Bindings.localLabel same) fec)

end Rules

/-! ### Messages about labels -/

section Messages

variable (lde : Lde)

/-- The re-evaluation of the pseudowires sends messages about pseudowires. -/
theorem toParent_l2vpnSyncPws (addr : LdpdAddr) :
    ∃ imsgs, (l2vpnSyncPws lde addr).toParent = lde.toParent ++ imsgs ∧
      ∀ imsg ∈ imsgs, imsg.pw = true := by
  have one (lde : Lde) (imsg : ParentImsg) (pw : imsg.pw = true) :
      ∃ imsgs, lde.toParent ++ [imsg] = lde.toParent ++ imsgs ∧ ∀ imsg ∈ imsgs, imsg.pw = true :=
    ⟨[imsg], rfl, fun other member => List.mem_singleton.mp member ▸ pw⟩
  have none (lde : Lde) : ∃ imsgs, lde.toParent = lde.toParent ++ imsgs ∧
      ∀ imsg ∈ imsgs, imsg.pw = true :=
    ⟨[], (List.append_nil _).symm, fun _ member => absurd member List.not_mem_nil⟩
  have rule : PwRule fun lde lde' => ∃ imsgs, lde'.toParent = lde.toParent ++ imsgs ∧
      ∀ imsg ∈ imsgs, imsg.pw = true := by
    refine ⟨none, ?_, fun lde _ => none lde, fun lde _ _ => none lde, fun lde _ => one lde _ rfl,
      fun lde _ => one lde _ rfl⟩
    rintro first second third ⟨before, queued, pw⟩ ⟨after, queued', pw'⟩
    refine ⟨before ++ after, ?_, fun imsg member => ?_⟩
    · rw [queued', queued, List.append_assoc]
    · exact (List.mem_append.mp member).elim (pw imsg) (pw' imsg)
  exact rule.l2vpnSyncPws lde addr

variable {lde} {fec : Fec} {fnh : FecNh}

/-- Only the messages to the parent process and the pseudowires differ. -/
theorem KernelOnly.agrees {lde' : Lde} (kernel : KernelOnly lde lde') (hop : Hop)
    (told : Option (UInt32 × UInt32)) : lde'.Agrees hop told ↔ lde.Agrees hop told := by
  refine agrees_congr ?_ ?_ told
  · rw [Lde.nexthops, kernel.ft, Lde.nexthops]
  · rw [Lde.localLabel, kernel.ft, Lde.localLabel]

theorem KernelOnly.lists {lde' : Lde} (kernel : KernelOnly lde lde') (hop : Hop) :
    lde'.Lists hop ↔ lde.Lists hop := by
  rw [Lde.Lists, Lde.nexthops, kernel.ft, Lde.Lists, Lde.nexthops]

/-- The message about a nexthop of a route, and what follows it. -/
structure Reported (lde : Lde) (fec : Fec) (fnh : FecNh) (kr : Kroute) (rest : List ParentImsg) :
    Prop where
  hop : kr.hop = fnh.hop fec
  localLabel : kr.localLabel = lde.localLabel fec
  remoteLabel : kr.remoteLabel = fnh.remoteLabel
  pw : ∀ imsg ∈ rest, imsg.pw = true

/-- One message about the nexthop, and then those about pseudowires. -/
theorem sent_klabel (lde : Lde) {fec : Fec} {fn : FecNode} (node : lde.ft[fec]? = some fn)
    (fnh : FecNh) {addr : LdpdAddr} {prefixlen : UInt8}
    (same : (krouteOf addr prefixlen fn fnh).hop = fnh.hop fec) (imsg : ParentImsg) (host : Prop)
    [Decidable host] (other : LdpdAddr) :
    ∃ rest, Reported lde fec fnh (krouteOf addr prefixlen fn fnh) rest ∧
      (if host then l2vpnSyncPws (lde.composeParent imsg) other
        else lde.composeParent imsg).toParent = lde.toParent ++ imsg :: rest := by
  have label : (krouteOf addr prefixlen fn fnh).localLabel = lde.localLabel fec :=
    (lde.localLabel_eq_of_node node).symm
  split
  · obtain ⟨rest, queued, pw⟩ := toParent_l2vpnSyncPws (lde.composeParent imsg) other
    refine ⟨rest, ⟨same, label, rfl, pw⟩, ?_⟩
    rw [queued]
    exact List.append_assoc lde.toParent [imsg] rest
  · exact ⟨[], ⟨same, label, rfl, fun _ member => absurd member List.not_mem_nil⟩, rfl⟩

/-- `lde_send_change_klabel` of a route. -/
theorem sent_ldeSendChangeKlabel (lde : Lde) {fec : Fec} (route : fec.af ≠ none) {fn : FecNode}
    (node : lde.ft[fec]? = some fn) (fnh : FecNh) :
    ∃ kr rest, Reported lde fec fnh kr rest ∧
      (ldeSendChangeKlabel lde fec fnh).toParent = lde.toParent ++ .klabelChange kr :: rest := by
  rw [ldeSendChangeKlabel, node]
  cases fec with
  | pwid => exact absurd rfl route
  | ipv4 addr prefixlen | ipv6 addr prefixlen =>
    exact ⟨_, sent_klabel lde node fnh rfl _ _ _⟩

/-- `lde_send_delete_klabel` of a route. -/
theorem sent_ldeSendDeleteKlabel (lde : Lde) {fec : Fec} (route : fec.af ≠ none) {fn : FecNode}
    (node : lde.ft[fec]? = some fn) (fnh : FecNh) :
    ∃ kr rest, Reported lde fec fnh kr rest ∧
      (ldeSendDeleteKlabel lde fec fnh).toParent = lde.toParent ++ .klabelDelete kr :: rest := by
  rw [ldeSendDeleteKlabel, node]
  cases fec with
  | pwid => exact absurd rfl route
  | ipv4 addr prefixlen | ipv6 addr prefixlen =>
    exact ⟨_, sent_klabel lde node fnh rfl _ _ _⟩

/-- The messages about the FEC of a pseudowire. -/
theorem pwRule_programs : PwRule (Programs known) where
  refl := .refl
  trans := .trans
  fail _ _ := .silent rfl (fun _ _ => rfl) fun _ _ => .inr rfl
  setUp _ _ _ := .silent rfl (fun _ _ => rfl) fun _ _ => .inr rfl
  kpwlabelChange _ _ := .aside rfl (fun _ member => List.mem_singleton.mp member ▸ rfl) (fun _ _ => rfl)
    fun _ _ => .inr rfl
  kpwlabelDelete _ _ := .aside rfl (fun _ member => List.mem_singleton.mp member ▸ rfl) (fun _ _ => rfl)
    fun _ _ => .inr rfl

/-! ### Changes that are reported -/

/-- Of the nexthops of routes, only one may differ. -/
structure OnlyHop (hop : Hop) (lde lde' : Lde) : Prop where
  toParent : lde'.toParent = lde.toParent
  lists : ∀ other, other.fec.af ≠ none → lde'.Lists other → other = hop ∨ lde.Lists other
  localLabel : lde'.localLabel = lde.localLabel
  others : ∀ other, other.fec.af ≠ none → other ≠ hop → ∀ told, lde.Agrees other told →
    lde'.Agrees other told

/-- A message about a nexthop, whose labels are those of the message. -/
theorem Programs.change {known : Hop → Prop} {mid : Lde} (route : fec.af ≠ none) {fn : FecNode}
    (node : mid.ft[fec]? = some fn) (only : OnlyHop (fnh.hop fec) lde mid)
    (listed : ∃ other ∈ mid.nexthops fec,
      other.hop fec = fnh.hop fec ∧ other.remoteLabel = fnh.remoteLabel)
    (named : lde.Within known → known (fnh.hop fec)) :
    Programs known lde (ldeSendChangeKlabel mid fec fnh) := by
  have kernel := kernelOnly_ldeSendChangeKlabel mid fec fnh
  obtain ⟨kr, rest, sent, queued⟩ := sent_ldeSendChangeKlabel mid route node fnh
  have labels : (ldeSendChangeKlabel mid fec fnh).localLabel = lde.localLabel := by
    funext other
    rw [Lde.localLabel, (kernelOnly_ldeSendChangeKlabel mid fec fnh).ft]
    exact congrFun only.localLabel other
  refine ⟨fun within => ⟨fun hop family listed => ?_, fun other family => ?_⟩,
    .klabelChange kr :: rest, only.toParent ▸ queued, fun within => ?_,
    fun hop family told agrees => ?_⟩
  · refine (only.lists hop family ((kernel.lists hop).mp listed)).elim (fun same => ?_)
      (within.hops hop family)
    exact same ▸ named within
  · rw [labels]
    exact within.labels other family
  · refine List.forall_mem_cons.mpr ⟨?_, fun imsg member =>
      ParentImsg.about_of_pw (sent.pw imsg member) known⟩
    rw [ParentImsg.About, sent.hop, sent.localLabel, only.localLabel]
    exact ⟨named within, within.labels fec route⟩
  · obtain ⟨steady, kept⟩ := foldl_pw sent.pw hop (programmed hop told (.klabelChange kr))
    refine ⟨⟨fun same labels known => ?_, steady⟩, ?_⟩
    · rw [known] at agrees
      rw [sent.localLabel]
      rw [← same, sent.hop] at agrees
      rw [only.localLabel]
      exact agrees.1
    · rw [List.foldl_cons, kept, kernel.agrees, programmed, sent.hop]
      split_ifs with same
      · rw [sent.localLabel, sent.remoteLabel, ← same]
        exact ⟨rfl, listed⟩
      · exact only.others hop family (Ne.symm same) told agrees

/-- A message about a nexthop that has no remote label any more. -/
theorem Programs.delete {known : Hop → Prop} {lde' : Lde} (route : fec.af ≠ none) {fn : FecNode}
    (node : lde.ft[fec]? = some fn)
    (only : OnlyHop (fnh.hop fec) (ldeSendDeleteKlabel lde fec fnh) lde')
    (unlabelled : lde'.Agrees (fnh.hop fec) none) (listed : lde.Lists (fnh.hop fec)) :
    Programs known lde lde' := by
  have kernel := kernelOnly_ldeSendDeleteKlabel lde fec fnh
  obtain ⟨kr, rest, sent, queued⟩ := sent_ldeSendDeleteKlabel lde route node fnh
  refine ⟨fun within => ⟨fun hop family known' => ?_, fun other family => ?_⟩,
    .klabelDelete kr :: rest, only.toParent.trans queued, fun within => ?_,
    fun hop family told agrees => ?_⟩
  · refine (only.lists hop family known').elim (fun same => ?_) fun known' => ?_
    · exact same ▸ within.hops _ route listed
    · exact within.hops hop family ((kernel.lists hop).mp known')
  · rw [only.localLabel, Lde.localLabel, kernel.ft]
    exact within.labels other family
  · refine List.forall_mem_cons.mpr ⟨?_, fun imsg member =>
      ParentImsg.about_of_pw (sent.pw imsg member) known⟩
    rw [ParentImsg.About, sent.hop]
    exact within.hops _ route listed
  · obtain ⟨steady, kept⟩ := foldl_pw sent.pw hop (programmed hop told (.klabelDelete kr))
    refine ⟨⟨trivial, steady⟩, ?_⟩
    rw [List.foldl_cons, kept, programmed, sent.hop]
    split_ifs with same
    · exact same ▸ unlabelled
    · exact only.others hop family (Ne.symm same) told ((kernel.agrees hop told).mpr agrees)

theorem nexthops_setRemoteLabel (lde : Lde) (fec : Fec) (fnh : FecNh) (label : UInt32)
    (other : Fec) : (lde.setRemoteLabel fec fnh label).nexthops other =
      (lde.nexthops other).map (relabelIf (only fec (sameNexthop fnh) other) label) :=
  congrFun (congrArg Bindings.nexthops (bindings_setRemoteLabel lde fec fnh label)) other

theorem localLabel_setRemoteLabel (lde : Lde) (fec : Fec) (fnh : FecNh) (label : UInt32)
    (other : Fec) : (lde.setRemoteLabel fec fnh label).localLabel other = lde.localLabel other :=
  congrFun (congrArg Bindings.localLabel (bindings_setRemoteLabel lde fec fnh label)) other

theorem FecNh.hop_inj {fec : Fec} {fnh other : FecNh} :
    other.hop fec = fnh.hop fec ↔ sameNexthop fnh other = true := by
  simp [FecNh.hop, sameNexthop]

/-- Writing a label changes one nexthop. -/
theorem onlyHop_setRemoteLabel (lde : Lde) (fec : Fec) (fnh : FecNh) (label : UInt32) :
    OnlyHop (fnh.hop fec) lde (lde.setRemoteLabel fec fnh label) := by
  have keys := (Touched.setRemoteLabel lde fec fnh label).fecsKept.keys
  refine ⟨rfl, fun other _ listed => .inr ?_, funext (localLabel_setRemoteLabel lde fec fnh label),
    fun hop _ different told agrees => ?_⟩
  · rw [Lde.Lists, keys] at listed
    exact listed
  have kept (item : FecNh) (same : item.hop hop.fec = hop) :
      relabelIf (only fec (sameNexthop fnh) hop.fec) label item = item := by
    refine if_neg fun both => different ?_
    simp only [only, Bool.and_eq_true, decide_eq_true_eq] at both
    rw [← same, both.1]
    exact FecNh.hop_inj.mpr both.2
  have hops (item : FecNh) :
      (relabelIf (only fec (sameNexthop fnh) hop.fec) label item).hop hop.fec =
        item.hop hop.fec := by
    rw [FecNh.hop, relabelIf_nexthop, relabelIf_priority, FecNh.hop]
  cases told with
  | none =>
    rw [Lde.Agrees, nexthops_setRemoteLabel]
    intro item listed same
    obtain ⟨before, member, rfl⟩ := List.mem_map.mp listed
    rw [hops] at same
    rw [kept before same]
    exact agrees before member same
  | some labels =>
    obtain ⟨local_, item, listed, same, remote⟩ := agrees
    rw [Lde.Agrees, nexthops_setRemoteLabel, localLabel_setRemoteLabel]
    exact ⟨local_, item, List.mem_map.mpr ⟨item, listed, kept item same⟩, same, remote⟩

theorem node_setRemoteLabel {lde : Lde} {fec : Fec} (present : fec ∈ lde.ft) (fnh : FecNh)
    (label : UInt32) : ∃ fn, (lde.setRemoteLabel fec fnh label).ft[fec]? = some fn :=
  (Tree.mem_iff_getElem? _ _).mp ((mem_updateNode lde fec fec _).mpr present)

/-- A FEC that the parent process is not told of: one of a pseudowire, or one without a node. -/
def Lde.Aside (lde : Lde) (fec : Fec) : Prop := fec.af = none ∨ lde.ft[fec]? = none

/-- The labels of such a FEC may be written freely. -/
theorem Programs.setRemoteLabel_aside {lde : Lde} {fec : Fec} (aside : lde.Aside fec) (fnh : FecNh)
    (label : UInt32) : Programs known lde (lde.setRemoteLabel fec fnh label) := by
  refine .silent rfl (fun other route => ?_) fun other _ =>
    .inr (localLabel_setRemoteLabel lde fec fnh label other)
  rw [nexthops_setRemoteLabel]
  by_cases same : other = fec
  · subst same
    rw [Lde.nexthops, aside.resolve_left route, List.map_nil]
  · refine List.map_id'' (fun item => if_neg fun both => same ?_) _
    exact of_decide_eq_true (Bool.and_eq_true_iff.mp both).1

theorem Programs.ldeSendChangeKlabel_aside {lde : Lde} {fec : Fec} (aside : lde.Aside fec)
    (fnh : FecNh) : Programs known lde (ldeSendChangeKlabel lde fec fnh) := by
  rw [Ldpd.ldeSendChangeKlabel]
  split
  · exact .of_bindings rfl rfl
  · rename_i fn node
    have family : fec.af = none := aside.resolve_right fun absent => by
      rw [absent] at node
      cases node
    cases fec with
    | ipv4 | ipv6 => cases family
    | pwid => exact pwRule_programs.ldeSendChangeKlabelPw lde _ fn fnh

theorem Programs.ldeSendDeleteKlabel_aside {lde : Lde} {fec : Fec} (aside : lde.Aside fec)
    (fnh : FecNh) : Programs known lde (ldeSendDeleteKlabel lde fec fnh) := by
  rw [Ldpd.ldeSendDeleteKlabel]
  split
  · exact .of_bindings rfl rfl
  · rename_i fn node
    have family : fec.af = none := aside.resolve_right fun absent => by
      rw [absent] at node
      cases node
    cases fec with
    | ipv4 | ipv6 => cases family
    | pwid => exact pwRule_programs.ldeSendDeleteKlabelPw lde _ fn fnh

/-- `lde_send_delete_klabel(fn, fnh); fnh->remote_label = NO_LABEL`. -/
theorem Programs.uninstallNexthop {known : Hop → Prop} {fec : Fec} {lde : Lde} {fnh : FecNh}
    (listed : lde.Lists (fnh.hop fec)) : Programs known lde (uninstallNexthop fec lde fnh) := by
  by_cases aside : lde.Aside fec
  · have kernel := kernelOnly_ldeSendDeleteKlabel lde fec fnh
    refine .trans (.ldeSendDeleteKlabel_aside aside fnh) (.setRemoteLabel_aside ?_ fnh noLabel)
    rw [Lde.Aside, kernel.ft]
    exact aside
  · obtain ⟨route, known⟩ := not_or.mp aside
    obtain ⟨fn, node⟩ := Option.ne_none_iff_exists'.mp known
    refine .delete route node (onlyHop_setRemoteLabel _ fec fnh noLabel) ?_ listed
    rw [Lde.Agrees, Ldpd.uninstallNexthop, nexthops_setRemoteLabel]
    intro item listed same
    obtain ⟨before, -, rfl⟩ := List.mem_map.mp listed
    rw [FecNh.hop, relabelIf_nexthop, relabelIf_priority] at same
    have key : sameNexthop fnh before = true := FecNh.hop_inj.mp same
    have test : only fec (sameNexthop fnh) (fnh.hop fec).fec before = true := by
      rw [show (fnh.hop fec).fec = fec from rfl, only_self]
      exact key
    rw [relabelIf, if_pos test]

/-- `fnh->remote_label = label; lde_send_change_klabel(fn, fnh)`, for a nexthop that is listed. -/
theorem Programs.install {known : Hop → Prop} {lde : Lde} {fec : Fec} {fnh : FecNh}
    (label : UInt32) (listed : lde.Lists (fnh.hop fec)) :
    Programs known lde (ldeSendChangeKlabel (lde.setRemoteLabel fec fnh label) fec
      { fnh with remoteLabel := label }) := by
  by_cases aside : lde.Aside fec
  · refine .trans (.setRemoteLabel_aside aside fnh label) (.ldeSendChangeKlabel_aside ?_ _)
    refine aside.imp_right fun absent => ?_
    rw [Lde.setRemoteLabel, Lde.updateNode, Tree.getElem?_modify, if_pos rfl, absent]
    rfl
  · obtain ⟨route, known⟩ := not_or.mp aside
    obtain ⟨before, node⟩ := Option.ne_none_iff_exists'.mp known
    have present : fec ∈ lde.ft := (Tree.mem_iff_getElem? _ _).mpr ⟨before, node⟩
    obtain ⟨fn, found⟩ := node_setRemoteLabel present fnh label
    refine .change route found (onlyHop_setRemoteLabel lde fec fnh label) ?_
      fun within => within.hops _ route listed
    obtain ⟨item, member, same⟩ := List.mem_map.mp listed
    have key : sameNexthop fnh item = true := by
      rw [Prod.mk.injEq] at same
      exact decide_eq_true same
    have test : only fec (sameNexthop fnh) fec item = true := by rw [only_self, key]
    rw [nexthops_setRemoteLabel]
    refine ⟨_, List.mem_map_of_mem member, ?_⟩
    rw [relabelIf, if_pos test]
    exact ⟨FecNh.hop_inj.mpr key, rfl⟩

end Messages

/-! ### What the parent process is not told of -/

/-- Nothing that the parent process is told of changes. -/
structure Unheard (lde lde' : Lde) : Prop where
  toParent : lde'.toParent = lde.toParent
  nexthops : lde'.nexthops = lde.nexthops
  localLabel : lde'.localLabel = lde.localLabel

section Unheard

variable {lde lde' lde'' : Lde}

theorem Unheard.programs (untold : Unheard lde lde') : Programs known lde lde' :=
  .silent untold.toParent (fun fec _ => congrFun untold.nexthops fec)
    fun fec _ => .inr (congrFun untold.localLabel fec)

theorem Unheard.refl (lde : Lde) : Unheard lde lde := ⟨rfl, rfl, rfl⟩

theorem Unheard.trans (first : Unheard lde lde') (second : Unheard lde' lde'') : Unheard lde lde'' :=
  ⟨second.toParent.trans first.toParent, second.nexthops.trans first.nexthops,
    second.localLabel.trans first.localLabel⟩

theorem Unheard.foldl {Item : Type} (body : Lde → Item → Lde)
    (untold : ∀ lde item, Unheard lde (body lde item)) (items : List Item) (lde : Lde) :
    Unheard lde (items.foldl body lde) :=
  Run.foldl_related .refl .trans untold items lde

variable (lde : Lde)

/-- A node may be changed in what the neighbors say of it. -/
theorem Unheard.updateNode (fec : Fec) {change : FecNode → FecNode}
    (nexthops : ∀ fn, (change fn).nexthops = fn.nexthops)
    (label : ∀ fn, (change fn).localLabel = fn.localLabel) :
    Unheard lde (lde.updateNode fec change) := by
  refine ⟨rfl, funext fun other => ?_, funext fun other => ?_⟩
  · rw [Lde.nexthops_eq, Lde.nexthops_eq, field_updateNode_same]
    exact nexthops
  · rw [Lde.localLabel_eq, Lde.localLabel_eq, field_updateNode_same]
    exact label

theorem Unheard.updateNbr (peerid : UInt32) (change : LdeNbr → LdeNbr) :
    Unheard lde (lde.updateNbr peerid change) := ⟨rfl, rfl, rfl⟩

theorem Unheard.updatePw (data : Nat) (change : L2vpnPw → L2vpnPw) :
    Unheard lde (lde.updatePw data change) := ⟨rfl, rfl, rfl⟩

theorem Unheard.fail (fault : LdeFault) : Unheard lde (lde.fail fault) := ⟨rfl, rfl, rfl⟩

theorem Unheard.composeLdpe (imsg : LdpeImsg) : Unheard lde (lde.composeLdpe imsg) :=
  ⟨rfl, rfl, rfl⟩

theorem Unheard.fecAdd (fec : Fec) : Unheard lde (fecAdd lde fec) :=
  ⟨rfl, congrArg Bindings.nexthops (bindings_fecAdd lde fec),
    congrArg Bindings.localLabel (bindings_fecAdd lde fec)⟩

theorem Unheard.ldeMapAdd (peerid : UInt32) (fec : Fec) (map : Map) (sent : Bool) :
    Unheard lde (ldeMapAdd lde peerid fec map sent) := by
  rw [Ldpd.ldeMapAdd]
  split
  all_goals
    refine .trans (.updateNode lde fec ?_ ?_) (.updateNbr _ peerid _)
    all_goals exact fun _ => rfl

theorem Unheard.ldeMapDel (peerid : UInt32) (fec : Fec) (sent : Bool) :
    Unheard lde (ldeMapDel lde peerid fec sent) := by
  rw [Ldpd.ldeMapDel]
  split
  all_goals
    refine .trans (.updateNode lde fec ?_ ?_) (.updateNbr _ peerid _)
    all_goals exact fun _ => rfl

theorem Unheard.setData (fec : Fec) (data : Option Nat) : Unheard lde (setData lde fec data) := by
  cases fec with
  | ipv4 | ipv6 => exact .refl lde
  | pwid => exact .updateNode lde _ (fun _ => rfl) fun _ => rfl

/-- The neighbors are told, the parent process is not. -/
theorem Unheard.ldeSendLabelmapping (peerid : UInt32) (fec : Fec) (single : Bool) :
    Unheard lde (ldeSendLabelmapping lde peerid fec single) := by
  rw [Ldpd.ldeSendLabelmapping]
  split
  · split
    · have recorded (lde : Lde) (ln : LdeNbr) (map : Map) :
          Unheard lde (recordSent lde peerid ln fec map) := by
        rw [recordSent]
        split
        · exact .updateNbr lde peerid _
        · exact .ldeMapAdd lde peerid fec map true
      refine .trans ?_ (recorded _ _ _)
      split
      · exact ⟨rfl, rfl, rfl⟩
      · exact ⟨rfl, rfl, rfl⟩
    · exact .refl lde
  · exact .refl lde

theorem Unheard.ldeSendLabelwithdraw (peerid : UInt32) (fec : Option Fec) (label : UInt32)
    (st : Option MapStatus) : Unheard lde (ldeSendLabelwithdraw lde peerid fec label st) := by
  rw [Ldpd.ldeSendLabelwithdraw]
  split
  · exact .refl lde
  split
  · exact .refl lde
  · dsimp only
    split
    · exact ⟨rfl, rfl, rfl⟩
    · have composed (map : Map) : Unheard lde
          ((lde.composeLdpe (.withdrawAdd peerid map)).composeLdpe (.withdrawAddEnd peerid)) :=
        ⟨rfl, rfl, rfl⟩
      exact .trans (composed _) (Unheard.foldl _ (fun lde fec => .updateNbr lde peerid _) _ _)

theorem Unheard.ldeSendLabelwithdrawAll (fec : Fec) (label : UInt32) :
    Unheard lde (ldeSendLabelwithdrawAll lde fec label) :=
  Unheard.foldl _ (fun lde peerid => .ldeSendLabelwithdraw lde peerid _ label none) _ lde

theorem Unheard.ldeSendLabelrelease (peerid : UInt32) (fec : Option Fec) (label : UInt32) :
    Unheard lde (ldeSendLabelrelease lde peerid fec label) := by
  unfold Ldpd.ldeSendLabelrelease
  repeat' split
  all_goals exact ⟨rfl, rfl, rfl⟩

theorem Unheard.negotiateMapping (peerid : UInt32) (ln : LdeNbr) (fec : Fec) (map : Map) :
    Unheard lde (negotiateMapping lde peerid ln fec map).1 := by
  have status (lde : Lde) (data : Nat) : Unheard lde (negotiateStatus lde data ln fec map) := by
    rw [negotiateStatus]
    split
    · exact .updatePw lde data _
    · exact .refl lde
  have again (data : Nat) : Unheard lde (renegotiateCword lde peerid data fec map) :=
    .trans (.ldeSendLabelwithdraw lde peerid _ _ _)
      (.trans (.updatePw _ data _) (.ldeSendLabelmapping _ peerid fec true))
  rw [Ldpd.negotiateMapping]
  split
  · rw [l2vpnPwNegotiate]
    repeat' split
    all_goals first
      | exact .refl lde
      | exact .fail lde _
      | exact status lde _
      | exact .trans (again _) (status _ _)
      | exact .trans (.updatePw lde _ _) (status _ _)
  · exact .refl lde

theorem Unheard.forgetMapping (peerid label : UInt32) (fec : Fec) :
    Unheard lde (forgetMapping peerid label lde fec) := by
  rw [Ldpd.forgetMapping]
  split
  · exact .refl lde
  split
  · exact .ldeMapDel lde peerid fec false
  · exact .refl lde

theorem Unheard.releaseFec (peerid label : UInt32) (fec : Fec) :
    Unheard lde (releaseFec peerid label lde fec) := by
  rw [Ldpd.releaseFec]
  split
  · exact .refl lde
  · rename_i ln _
    dsimp only
    repeat' split
    all_goals first
      | exact .refl lde
      | exact .updateNbr lde peerid _
      | exact .ldeMapDel lde peerid fec true
      | exact (Unheard.updateNbr lde peerid _).trans (.ldeMapDel _ peerid fec true)

theorem Unheard.dispatchRelease (map : Map) (peerid : UInt32) :
    Unheard lde (dispatchRelease lde map peerid) := by
  rw [Ldpd.dispatchRelease]
  split
  · exact Unheard.foldl _ (fun lde fec => .releaseFec lde peerid map.label fec) _ lde
  rw [ldeCheckRelease]
  dsimp only
  repeat' split
  all_goals first
    | exact .refl lde
    | exact .releaseFec lde peerid map.label _

theorem Unheard.ldeCheckRequest (map : Map) (peerid : UInt32) :
    Unheard lde (ldeCheckRequest lde map peerid) := by
  rw [Ldpd.ldeCheckRequest]
  split
  · exact .refl lde
  dsimp only
  repeat' split
  all_goals first
    | exact .refl lde
    | exact .composeLdpe lde _
    | exact .trans (.updateNbr lde peerid _) (.ldeSendLabelmapping _ peerid _ true)

theorem Unheard.fecSnap (peerid : UInt32) : Unheard lde (fecSnap lde peerid) := by
  refine .trans (Unheard.foldl _ (fun lde fec => ?_) _ lde) ⟨rfl, rfl, rfl⟩
  repeat' split
  all_goals first
    | exact .refl lde
    | exact .ldeSendLabelmapping lde peerid fec false

end Unheard

/-! ### Handlers -/

section Handlers

variable {known : Hop → Prop}

/-- A loop over nexthops of a FEC. -/
theorem Programs.foldl_nexthops (body : Lde → FecNh → Lde) {fec : Fec}
    (touches : ∀ lde fnh, Touched lde (body lde fnh))
    (programs : ∀ lde fnh, lde.Lists (fnh.hop fec) → Programs known lde (body lde fnh))
    (items : List FecNh) (lde : Lde) (listed : ∀ fnh ∈ items, fnh ∈ lde.nexthops fec) :
    Programs known lde (items.foldl body lde) := by
  refine .foldl body (fun other => nexthopKeys (other.nexthops fec) = nexthopKeys (lde.nexthops fec))
    (fun other fnh same => ((touches other fnh).fecsKept.keys fec).trans same) items
    (fun other fnh member same => programs other fnh ?_) lde rfl
  rw [Lde.Lists, show (fnh.hop fec).fec = fec from rfl, same]
  exact List.mem_map_of_mem (listed fnh member)

/-- The nexthops of a loop keep their keys while their labels go. -/
theorem Programs.uninstallNexthops (lde : Lde) (fec : Fec) (test : FecNh → Bool) :
    Programs known lde (uninstallNexthops lde fec test) :=
  .foldl_nexthops _ (Touched.uninstallNexthop fec) (fun _ _ listed => .uninstallNexthop listed) _ lde
    fun _ member => (List.mem_filter.mp member).1

/-- The label of a mapping is written and then told. -/
theorem Programs.installNexthop (map : Map) (ln : LdeNbr) {fec : Fec} {lde : Lde} {fnh : FecNh}
    (listed : lde.Lists (fnh.hop fec)) : Programs known lde (installNexthop map ln fec lde fnh) := by
  cases fec with
  | ipv4 | ipv6 =>
    simp only [Ldpd.installNexthop]
    split
    · exact .install map.label listed
    · exact .refl lde
  | pwid type pwid lsrId =>
    have told (lde : Lde) (label : UInt32) :
        Programs known lde (lde.setRemoteLabel (.pwid type pwid lsrId) fnh label) :=
      .setRemoteLabel_aside (.inl rfl) fnh label
    simp only [Ldpd.installNexthop]
    split
    · exact .refl lde
    split
    · exact .of_bindings rfl rfl
    · have learned (data : Nat) : Programs known lde (lde.updatePw data (pwLearn map)) :=
        Unheard.programs ⟨rfl, rfl, rfl⟩
      split
      · exact (learned _).trans ((told _ _).trans (.ldeSendChangeKlabel_aside (.inl rfl) _))
      · exact (learned _).trans (told _ _)

theorem Programs.acceptMapping (lde : Lde) (map : Map) (peerid : UInt32) (ln : LdeNbr) (fec : Fec) :
    Programs known lde (acceptMapping lde map peerid ln fec) := by
  have replaced (requested : Bool) :
      Programs known lde (replaceLabel lde peerid ln fec map requested) := by
    rw [replaceLabel]
    split
    · exact .refl lde
    split
    · exact .trans (Unheard.ldeSendLabelrelease lde peerid _ _).programs (.uninstallNexthops _ fec _)
    · exact .refl lde
  have recorded (lde : Lde) (before : Bool) :
      Programs known lde (recordReceived lde peerid before fec map) := by
    rw [recordReceived]
    split
    · exact Unheard.programs ⟨rfl, rfl, rfl⟩
    · exact (Unheard.ldeMapAdd lde peerid fec map false).programs
  exact .trans (replaced _) (.trans (.foldl_nexthops _ (Touched.installNexthop map ln fec)
    (fun _ _ listed => .installNexthop map ln listed) _ _ fun _ member => member) (recorded _ _))

/-- The handler of mappings. -/
theorem Programs.ldeCheckMapping (lde : Lde) (map : Map) (peerid : UInt32) :
    Programs known lde (ldeCheckMapping lde map peerid) := by
  rw [Ldpd.ldeCheckMapping]
  split
  · exact .refl lde
  · rename_i ln _
    have cleared : Programs known lde (clearRequest lde peerid (ldeMap2fec map ln.id)) :=
      Unheard.programs (.trans (.fecAdd lde _) (.updateNbr _ peerid _))
    have negotiated := cleared.trans
      (Unheard.negotiateMapping _ peerid ln (ldeMap2fec map ln.id) map).programs
    dsimp only
    split
    · exact negotiated
    · exact negotiated.trans (.acceptMapping _ map peerid ln _)

/-- The handlers of withdraws. -/
theorem Programs.dispatchWithdraw (lde : Lde) (map : Map) (peerid : UInt32) :
    Programs known lde (dispatchWithdraw lde map peerid) := by
  rw [Ldpd.dispatchWithdraw]
  split
  · rw [ldeCheckWithdrawWcard]
    split
    · exact .refl lde
    · refine .trans (Unheard.ldeSendLabelrelease lde peerid none map.label).programs
        (.foldl_free _ (fun lde fec => ?_) _ _)
      exact .trans (.uninstallNexthops lde fec _) (Unheard.forgetMapping _ peerid map.label fec).programs
  · rw [ldeCheckWithdraw]
    split
    · exact .refl lde
    split
    · exact .refl lde
    · exact .trans (Unheard.fecAdd lde _).programs (.trans (.uninstallNexthops _ _ _)
        (.trans (Unheard.ldeSendLabelrelease _ peerid _ map.label).programs
          (Unheard.forgetMapping _ peerid map.label _).programs))

/-- A new address of a neighbor brings the labels of the nexthops behind it, a lost one takes them.
-/
theorem Programs.addrUpdateFec (addr : LdpdAddr) (removed : Bool) (lde : Lde) (entry : Fec × Map) :
    Programs known lde (addrUpdateFec addr removed lde entry) := by
  rw [Ldpd.addrUpdateFec]
  split
  · split
    · exact .of_bindings rfl rfl
    · rename_i fn node
      split
      · exact .refl lde
      · rename_i fnh found
        have listed : lde.Lists (fnh.hop entry.1) := by
          rw [Lde.Lists, show (fnh.hop entry.1).fec = entry.1 from rfl, lde.nexthops_eq_of_node node]
          exact List.mem_map_of_mem (List.mem_of_find?_eq_some found)
        split
        · exact .uninstallNexthop listed
        · exact .install entry.2.label listed
  · exact .refl lde

theorem Programs.ldeAddressAdd (lde : Lde) (peerid : UInt32) (addr : LdpdAddr) :
    Programs known lde (ldeAddressAdd lde peerid addr) := by
  rw [Ldpd.ldeAddressAdd]
  split
  · exact .refl lde
  split
  · exact .refl lde
  · exact .trans (Unheard.updateNbr lde peerid _).programs
      (.foldl_free _ (Programs.addrUpdateFec addr false) _ _)

theorem Programs.ldeAddressDel (lde : Lde) (peerid : UInt32) (addr : LdpdAddr) :
    Programs known lde (ldeAddressDel lde peerid addr) := by
  rw [Ldpd.ldeAddressDel]
  split
  · exact .refl lde
  split
  · exact .trans (.foldl_free _ (Programs.addrUpdateFec addr true) _ lde)
      (Unheard.updateNbr _ peerid _).programs
  · exact .refl lde

theorem untold_resetPwOf (lde : Lde) (fec : Fec) :
    Unheard lde (resetPwOf lde fec) ∧ Touched lde (resetPwOf lde fec) := by
  unfold resetPwOf
  split
  · exact ⟨.updatePw lde _ _, .updatePw lde _ fun _ => rfl⟩
  · exact ⟨.refl lde, .refl lde⟩

theorem Programs.downFec (ln : LdeNbr) (lde : Lde) (fec : Fec) :
    Programs known lde (downFec ln lde fec) := by
  refine .foldl_nexthops _ (fun lde fnh => ?_) (fun lde fnh listed => ?_) _ lde
    fun _ member => (List.mem_filter.mp member).1
  · exact (untold_resetPwOf lde fec).2.trans (.uninstallNexthop fec _ fnh)
  · have reset := (untold_resetPwOf lde fec).1
    refine reset.programs.trans (.uninstallNexthop ?_)
    rw [Lde.Lists, reset.nexthops]
    exact listed

/-- The labels of a lost neighbor are taken from all nexthops. -/
theorem Programs.ldeNbrDel (lde : Lde) (peerid : UInt32) :
    Programs known lde (ldeNbrDel lde peerid) := by
  rw [Ldpd.ldeNbrDel]
  split
  · exact .refl lde
  · rename_i ln _
    have down : Programs known lde (lde.ft.keys.foldl (Ldpd.downFec ln) lde) :=
      .foldl_free _ (Programs.downFec ln) _ lde
    have forgotten (fecs : List Fec) (sent : Bool) (lde : Lde) :
        Unheard lde (fecs.foldl (fun lde fec => Ldpd.ldeMapDel lde peerid fec sent) lde) :=
      .foldl _ (fun lde fec => .ldeMapDel lde peerid fec sent) fecs lde
    have erased (lde : Lde) : Unheard lde { lde with ldeNbrs := lde.ldeNbrs.erase peerid } :=
      ⟨rfl, rfl, rfl⟩
    exact down.trans ((forgotten _ false _).trans ((forgotten _ true _).trans (erased _))).programs

theorem Programs.ldeNbrNew (lde : Lde) (peerid : UInt32) (id : InAddr) (v4Enabled v6Enabled : Bool) :
    Programs known lde (ldeNbrNew lde peerid id v4Enabled v6Enabled) := by
  rw [Ldpd.ldeNbrNew]
  split
  · exact .of_bindings rfl rfl
  · exact Unheard.programs ⟨rfl, rfl, rfl⟩

theorem Programs.dispatchNotification (lde : Lde) (idle : lde.Idle) (nm : NotifyMsg)
    (peerid : UInt32) : Programs known lde (dispatchNotification lde nm peerid) := by
  rw [Ldpd.dispatchNotification]
  split
  · exact .refl lde
  rename_i ln _
  split
  case isFalse => exact .refl lde
  rw [l2vpnRecvPwStatus]
  dsimp only
  split
  case isFalse => exact .refl lde
  split
  · exact .refl lde
  rename_i fn node
  split
  · exact .refl lde
  rename_i data points
  split
  · exact .refl lde
  · exact (Unheard.fail lde _).programs
  split
  · exact .refl lde
  have status : Programs known lde
      (lde.updatePw data fun pw => { pw with remoteStatus := nm.pwStatus }) :=
    (Unheard.updatePw lde data _).programs
  have pseudowire : (ldeMap2fec nm.fec ln.id).af = none := by
    by_contra route
    have unused := idle.route _ route
    rw [lde.data_eq_of_node node, points] at unused
    cases unused
  split
  · exact status.trans (.ldeSendChangeKlabel_aside (.inl pseudowire) _)
  · exact status.trans (.ldeSendDeleteKlabel_aside (.inl pseudowire) _)

theorem Programs.ldeGcTimer (lde : Lde) (idle : lde.Idle) : Programs known lde (ldeGcTimer lde) := by
  refine .foldl _ Lde.Idle (fun lde fec idle => (FecsKept.gcFec lde idle fec).idle idle) _
    (fun lde fec _ idle => ?_) lde idle
  rw [gcFec]
  split
  · exact .refl lde
  · rename_i fn node
    split
    · rename_i dead
      have empty : lde.nexthops fec = [] := by
        simp only [FecNode.dead, Bool.and_eq_true, List.isEmpty_iff] at dead
        rw [lde.nexthops_eq_of_node node]
        exact dead.1.1
      refine .silent rfl (fun other _ => ?_) fun other _ => ?_
      · rw [Lde.nexthops, Tree.getElem?_erase]
        split_ifs with same
        · rw [← same, empty]
        · rw [Lde.nexthops]
      · rw [Lde.localLabel, Tree.getElem?_erase]
        split_ifs with same
        · refine .inl ⟨same ▸ empty, ?_⟩
          decide
        · exact .inr rfl
    · exact .refl lde

/-! ### Routes -/

/-- A FEC without nexthops gets another label. -/
theorem Programs.setLocalLabel (lde : Lde) {fec : Fec} (empty : lde.nexthops fec = [])
    {label : UInt32} (valid : label ≠ mplsLabelReservedMax) :
    Programs known lde (lde.updateNode fec fun fn => { fn with localLabel := label }) := by
  refine .silent rfl (fun other _ => ?_) fun other _ => ?_
  · rw [Lde.nexthops_eq, Lde.nexthops_eq, field_updateNode_same]
    exact fun _ => rfl
  · by_cases same : other = fec
    · subst same
      refine .inl ⟨empty, ?_⟩
      rw [Lde.localLabel_eq, field_updateNode, if_pos rfl]
      cases lde.ft[other]? with
      | none => exact show noLabel ≠ mplsLabelReservedMax by decide
      | some fn => exact valid
    · refine .inr ?_
      rw [Lde.localLabel_eq, Lde.localLabel_eq, field_updateNode, if_neg (Ne.symm same)]

/-- The labels for the egress are not the last reserved one. -/
theorem egressLabel_ne (lde : Lde) (fec : Fec) :
    egressLabel lde fec ≠ some mplsLabelReservedMax := by
  cases fec with
  | ipv4 | ipv6 =>
    rw [egressLabel]
    split <;> decide
  | pwid => exact (Option.some_ne_none _).symm

/-- The local label is chosen while the FEC has no nexthop, so nothing that was told is wrong. -/
theorem Programs.assignLocalLabel (lde : Lde) {fec : Fec} (empty : lde.nexthops fec = [])
    (connected : Bool) (counter : lde.label + 1 ≠ mplsLabelReservedMax) : Programs known lde (assignLocalLabel lde fec connected) := by
  have advertised (lde : Lde) (peers : List UInt32) : Programs known lde
      (peers.foldl (fun lde peerid => Ldpd.ldeSendLabelmapping lde peerid fec true) lde) :=
    (Unheard.foldl _ (fun lde peerid => .ldeSendLabelmapping lde peerid fec true) peers lde).programs
  have counted : Programs known lde (ldeAssignLabel lde).1 := .of_bindings rfl rfl
  rw [Ldpd.assignLocalLabel]
  dsimp only
  split
  · exact (Unheard.fail lde _).programs
  · rename_i label assigned
    refine .trans ?_ (advertised _ _)
    cases connected with
    | true =>
      refine .setLocalLabel lde empty fun same => ?_
      rw [same] at assigned
      exact egressLabel_ne lde fec assigned
    | false =>
      cases assigned
      exact counted.trans (.setLocalLabel (ldeAssignLabel lde).1 empty counter)

/-- A nexthop is listed, and the parent process is told of it. -/
theorem Programs.fecNhAdd (lde : Lde) {fec : Fec} (present : fec ∈ lde.ft) (nexthop : LdpdAddr)
    (priority : UInt8) (named : fec.af ≠ none → known ⟨fec, nexthop, priority⟩) :
    Programs known lde (ldeSendChangeKlabel (fecNhAdd lde fec nexthop priority) fec
      { nexthop, remoteLabel := noLabel, priority }) := by
  have visible := bindings_fecNhAdd lde present nexthop priority
  have labels : (Ldpd.fecNhAdd lde fec nexthop priority).localLabel = lde.localLabel :=
    congrArg Bindings.localLabel visible
  have nexthops (other : Fec) : (Ldpd.fecNhAdd lde fec nexthop priority).nexthops other =
      if other = fec then { nexthop, remoteLabel := noLabel, priority } :: lde.nexthops fec
      else lde.nexthops other := by
    refine (congrFun (congrArg Bindings.nexthops visible) other).trans ?_
    show Function.update lde.nexthops fec _ other = _
    split_ifs with same
    · rw [same, Function.update_self]
      rfl
    · exact Function.update_of_ne same _ _
  have queued : (Ldpd.fecNhAdd lde fec nexthop priority).toParent = lde.toParent := rfl
  obtain ⟨fn, node⟩ : ∃ fn, (Ldpd.fecNhAdd lde fec nexthop priority).ft[fec]? = some fn :=
    (Tree.mem_iff_getElem? _ _).mp ((mem_updateNode lde fec fec _).mpr present)
  generalize Ldpd.fecNhAdd lde fec nexthop priority = mid at labels nexthops queued node ⊢
  by_cases route : fec.af = none
  · refine .trans (.silent queued (fun other family => ?_) fun other _ => .inr (congrFun labels other))
      (.ldeSendChangeKlabel_aside (.inl route) _)
    have different : other ≠ fec := fun same => family (same ▸ route)
    rw [nexthops, if_neg different]
  · refine .change route node ⟨queued, fun hop _ listed => ?_, labels,
      fun hop _ different told agrees => ?_⟩ ⟨newNexthop nexthop priority, ?_, rfl, rfl⟩
      fun _ => named route
    · rw [Lde.Lists, nexthops] at listed
      split_ifs at listed with same
      · obtain ⟨fec', nexthop', priority'⟩ := hop
        subst same
        rcases List.mem_cons.mp listed with key | listed
        · cases key
          exact .inl rfl
        · exact .inr listed
      · exact .inr listed
    · cases told with
      | none =>
        rw [Lde.Agrees, nexthops]
        split_ifs with same
        · intro item member hops
          rcases List.mem_cons.mp member with rfl | member
          · refine absurd ?_ different
            rw [← hops, same]
          · exact agrees item (same ▸ member) hops
        · exact agrees
      | some labelled =>
        obtain ⟨label, item, member, hops⟩ := agrees
        refine ⟨(congrFun labels hop.fec).trans label, item, ?_, hops⟩
        rw [nexthops]
        split_ifs with same
        · exact List.mem_cons_of_mem _ (same ▸ member)
        · exact member
    · rw [nexthops, if_pos rfl]
      exact List.mem_cons_self

/-- A nexthop comes after the local label of its FEC. -/
theorem Programs.insertNexthop (lde : Lde) (labelled : lde.Labelled) {fec : Fec} {fn : FecNode}
    (node : lde.ft[fec]? = some fn) (nexthop : LdpdAddr) (priority : UInt8) (connected : Bool)
    (data : Option Nat) (counter : lde.label + 1 ≠ mplsLabelReservedMax)
    (named : fec.af ≠ none → known ⟨fec, nexthop, priority⟩) :
    Programs known lde (insertNexthop lde fec fn nexthop priority connected data) := by
  have present : fec ∈ (Ldpd.setData lde fec data).ft :=
    (mem_setData lde fec fec data).mpr ((Tree.mem_iff_getElem? _ _).mpr ⟨fn, node⟩)
  have pointed := Unheard.setData lde fec data
  rw [Ldpd.insertNexthop]
  refine pointed.programs.trans ?_
  split_ifs with unlabelled
  · have counter' : (Ldpd.setData lde fec data).label + 1 ≠ mplsLabelReservedMax := by
      cases fec <;> exact counter
    have empty : (Ldpd.setData lde fec data).nexthops fec = [] := by
      rw [pointed.nexthops]
      by_contra filled
      exact labelled fec filled ((lde.localLabel_eq_of_node node).trans unlabelled)
    exact .trans (.assignLocalLabel _ empty connected counter')
      (.fecNhAdd _ ((mem_assignLocalLabel _ fec fec connected).mpr present) nexthop priority named)
  · exact .fecNhAdd _ present nexthop priority named

theorem Programs.ldeKernelInsert (lde : Lde) (labelled : lde.Labelled) (fec : Fec)
    (nexthop : LdpdAddr) (priority : UInt8) (connected : Bool) (data : Option Nat)
    (counter : lde.label + 1 ≠ mplsLabelReservedMax)
    (named : fec.af ≠ none → known ⟨fec, nexthop, priority⟩) :
    Programs known lde (ldeKernelInsert lde fec nexthop priority connected data) := by
  have found := Unheard.fecAdd lde fec
  have labelled' : (Ldpd.fecAdd lde fec).Labelled := (FecsKept.fecAdd lde fec).labelled labelled
  unfold Ldpd.ldeKernelInsert
  simp only
  split
  · exact found.programs
  · rename_i fn node
    split_ifs
    · exact found.programs
    · refine found.programs.trans
        ((Programs.insertNexthop _ labelled' node nexthop priority connected data counter named).trans ?_)
      rw [useRecordedMapping]
      split
      · exact .refl _
      split
      · exact .refl _
      · exact .ldeCheckMapping _ _ _

/-- The local label goes when no nexthop is left to be told of. -/
theorem Programs.retireFec (lde : Lde) {fec : Fec} (empty : lde.nexthops fec = []) :
    Programs known lde (retireFec lde fec) := by
  have withdrawn := Unheard.ldeSendLabelwithdrawAll lde fec noLabel
  refine .trans withdrawn.programs (.trans (.setLocalLabel _ ?_ (by decide)) (Unheard.setData _ fec none).programs)
  rw [withdrawn.nexthops, empty]

/-- The nexthop is deleted in the kernel before it goes. -/
theorem Programs.ldeKernelRemove (lde : Lde) (fec : Fec) (nexthop : LdpdAddr) (priority : UInt8) :
    Programs known lde (ldeKernelRemove lde fec nexthop priority) := by
  rw [Ldpd.ldeKernelRemove]
  split
  · exact .refl lde
  rename_i fn node
  split
  · exact .refl lde
  rename_i fnh found
  have visible := bindings_fecNhDel (Ldpd.ldeSendDeleteKlabel lde fec fnh) fec fnh
  have labels : (fecNhDel (Ldpd.ldeSendDeleteKlabel lde fec fnh) fec fnh).localLabel =
      (Ldpd.ldeSendDeleteKlabel lde fec fnh).localLabel := congrArg Bindings.localLabel visible
  have nexthops (other : Fec) :
      (fecNhDel (Ldpd.ldeSendDeleteKlabel lde fec fnh) fec fnh).nexthops other =
        if other = fec then ((Ldpd.ldeSendDeleteKlabel lde fec fnh).nexthops fec).filter
          fun item => ¬sameNexthop fnh item
        else (Ldpd.ldeSendDeleteKlabel lde fec fnh).nexthops other := by
    refine (congrFun (congrArg Bindings.nexthops visible) other).trans ?_
    show Function.update (Ldpd.ldeSendDeleteKlabel lde fec fnh).nexthops fec _ other = _
    split_ifs with same
    · rw [same, Function.update_self]
      rfl
    · exact Function.update_of_ne same _ _
  have unlisted : Programs known lde (fecNhDel (Ldpd.ldeSendDeleteKlabel lde fec fnh) fec fnh) := by
    by_cases route : fec.af = none
    · refine .trans (.ldeSendDeleteKlabel_aside (.inl route) fnh) (.silent rfl (fun other family => ?_)
        fun other _ => .inr (congrFun labels other))
      have different : other ≠ fec := fun same => family (same ▸ route)
      rw [nexthops, if_neg different]
    · refine .delete route node ⟨rfl, fun hop _ listed => .inr ?_, labels,
        fun hop _ different told agrees => ?_⟩ ?_ ?_
      · rw [Lde.Lists, nexthops] at listed
        split_ifs at listed with same
        · rw [Lde.Lists, same]
          obtain ⟨item, member, key⟩ := List.mem_map.mp listed
          exact List.mem_map.mpr ⟨item, (List.mem_filter.mp member).1, key⟩
        · exact listed
      · cases told with
        | none =>
          rw [Lde.Agrees, nexthops]
          split_ifs with same
          · exact fun item member => agrees item (same ▸ (List.mem_filter.mp member).1)
          · exact agrees
        | some labelled =>
          obtain ⟨label, item, member, hops, remote⟩ := agrees
          refine ⟨(congrFun labels hop.fec).trans label, item, ?_, hops, remote⟩
          rw [nexthops]
          split_ifs with same
          · refine List.mem_filter.mpr ⟨same ▸ member, decide_eq_true fun key => different ?_⟩
            rw [← hops, same]
            exact FecNh.hop_inj.mpr key
          · exact member
      · rw [Lde.Agrees, nexthops, if_pos (show (fnh.hop fec).fec = fec from rfl)]
        intro item member hops
        exact absurd (FecNh.hop_inj.mp hops) (of_decide_eq_true (List.mem_filter.mp member).2)
      · rw [Lde.Lists, show (fnh.hop fec).fec = fec from rfl, lde.nexthops_eq_of_node node]
        exact List.mem_map_of_mem (List.mem_of_find?_eq_some found)
  dsimp only
  split
  · rename_i empty
    exact unlisted.trans (.retireFec _ empty)
  · exact unlisted

/-! ### Events -/

theorem Programs.l2vpnPwInit (lde : Lde) (labelled : lde.Labelled) (data : Nat)
    (counter : lde.label + 1 ≠ mplsLabelReservedMax) :
    Programs known lde (l2vpnPwInit lde data) := by
  have reset : (lde.updatePw data l2vpnPwReset).Labelled := labelled
  rw [Ldpd.l2vpnPwInit]
  split
  · exact .refl lde
  · exact .trans (Unheard.updatePw lde data _).programs (.ldeKernelInsert _ reset _ _ 0 false _ counter
      fun route => absurd rfl route)

theorem Programs.l2vpnPwAdd (lde : Lde) (labelled : lde.Labelled) (data : Nat) (conf : PwConf)
    (counter : lde.label + 1 ≠ mplsLabelReservedMax) :
    Programs known lde (l2vpnPwAdd lde data conf) := by
  rw [Ldpd.l2vpnPwAdd]
  split
  · exact .refl lde
  · have entered : Unheard lde (({ lde with pws := lde.pws.insert data conf.pw } : Lde).updatePwList
        conf.l2vpn (data :: ·)) := ⟨rfl, rfl, rfl⟩
    have kept : (({ lde with pws := lde.pws.insert data conf.pw } : Lde).updatePwList
        conf.l2vpn (data :: ·)).Labelled := labelled
    exact entered.programs.trans (.l2vpnPwInit _ kept data counter)

theorem Programs.l2vpnPwDelete (lde : Lde) (data : Nat) : Programs known lde (l2vpnPwDelete lde data) := by
  rw [Ldpd.l2vpnPwDelete]
  split
  · exact .refl lde
  · have stopped : Programs known lde (l2vpnPwExit lde data) := by
      rw [l2vpnPwExit]
      split
      · exact .refl lde
      · exact .ldeKernelRemove lde _ _ 0
    exact stopped.trans (Unheard.programs ⟨rfl, rfl, rfl⟩)

/-- The parent process is told what an event does to the routes. -/
theorem Programs.ldeStep (lde : Lde) (idle : lde.Idle) (labelled : lde.Labelled) {event : LdeEvent}
    (counter : lde.label + 1 ≠ mplsLabelReservedMax)
    (named : ∀ kr, event = .networkAdd kr → known ⟨kr.fec, kr.nexthop, kr.priority⟩) :
    Programs known lde (ldeStep lde event) := by
  cases event with
  | networkAdd kr => exact .ldeKernelInsert lde labelled _ _ _ _ none counter fun _ => named kr rfl
  | networkDel kr => exact .ldeKernelRemove lde _ _ _
  | labelMappingFull peerid =>
    rw [Ldpd.ldeStep]
    split
    · exact (Unheard.fecSnap lde peerid).programs
    · exact .refl lde
  | labelMapping peerid map => exact .ldeCheckMapping lde map peerid
  | labelRequest peerid map => exact (Unheard.ldeCheckRequest lde map peerid).programs
  | labelRelease peerid map => exact (Unheard.dispatchRelease lde map peerid).programs
  | labelWithdraw peerid map => exact .dispatchWithdraw lde map peerid
  | labelAbort peerid map => exact .refl lde
  | addressAdd peerid addr => exact .ldeAddressAdd lde peerid addr
  | addressDel peerid addr => exact .ldeAddressDel lde peerid addr
  | notification peerid nm => exact .dispatchNotification lde idle nm peerid
  | neighborUp peerid id v4Enabled v6Enabled => exact .ldeNbrNew lde peerid id v4Enabled v6Enabled
  | neighborDown peerid => exact .ldeNbrDel lde peerid
  | gcTimer => exact .ldeGcTimer lde idle
  | pwNew data conf => exact .l2vpnPwAdd lde labelled data conf counter
  | pwDel data => exact .l2vpnPwDelete lde data

end Handlers

/-- The counter is past the reserved labels. -/
structure Lde.Started (lde : Lde) : Prop where
  low : mplsLabelReservedMax ≤ lde.label
  high : lde.label ≠ noLabel

/-- The parent process has been told the labels of all nexthops of routes, and no local label has
changed in front of it. -/
structure Lde.Programmed (known : Hop → Prop) (lde : Lde) : Prop where
  consistent : lde.Consistent
  labelled : lde.Labelled
  started : lde.Started
  within : lde.Within known
  about : ∀ imsg ∈ lde.toParent, imsg.About known
  told : ∀ hop, hop.fec.af ≠ none → lde.Agrees hop (lde.told hop)
  steady : ∀ hop, hop.fec.af ≠ none →
    Run.Allowed (programmed hop) (Steady hop) none lde.toParent

section Runs

variable {known : Hop → Prop}

/-- Nothing has been told, and there are no nexthops. -/
theorem programmed_start (conf : LdeConf) : (Lde.start conf).Programmed known where
  consistent := consistent_start conf
  labelled fec filled := absurd (start_nexthops conf fec) filled
  started := ⟨UInt32.le_refl mplsLabelReservedMax,
    show mplsLabelReservedMax ≠ noLabel by decide⟩
  within := by
    refine ⟨fun hop _ listed => ?_, fun fec _ => ?_⟩
    · have empty : (Lde.start conf).nexthops hop.fec = [] := start_nexthops conf hop.fec
      rw [Lde.Lists, empty] at listed
      exact absurd listed List.not_mem_nil
    · rw [Lde.localLabel, start_node]
      decide
  about _ member := absurd member List.not_mem_nil
  told hop _ fnh member := by
    have empty : (Lde.start conf).nexthops hop.fec = [] := start_nexthops conf hop.fec
    exact absurd (empty ▸ member) List.not_mem_nil
  steady _ _ := trivial

theorem Lde.Started.low_next {lde : Lde} (started : lde.Started) :
    mplsLabelReservedMax < lde.label + 1 := by
  have low := UInt32.le_iff_toNat_le.mp started.low
  have high : lde.label.toNat ≠ noLabel.toNat := fun same => started.high (UInt32.toNat.inj same)
  have bound := lde.label.toNat_lt
  rw [UInt32.lt_iff_toNat_lt, UInt32.toNat_add]
  rw [show noLabel.toNat = 2 ^ 32 - 1 from rfl] at high
  rw [show (1 : UInt32).toNat = 1 from rfl]
  omega

theorem Lde.Started.ldeStep {lde : Lde} (started : lde.Started) (idle : lde.Idle) {event : LdeEvent}
    (valid : CounterValid lde (.event event)) : (ldeStep lde event).Started := by
  rcases (ldeOp_effect lde idle (.event event)).2 with ⟨fec, takes, taken⟩ | ⟨-, quiet⟩
  · have label : (Ldpd.ldeStep lde event).label = lde.label + 1 := taken.label
    refine ⟨?_, ?_⟩
    · rw [label]
      exact UInt32.le_of_lt started.low_next
    · rw [label]
      exact valid fec takes
  · have label : (Ldpd.ldeStep lde event).label = lde.label := quiet.label
    exact ⟨label ▸ started.low, label ▸ started.high⟩

/-- The counter hands out no `NO_LABEL`, and the routes that come are known. -/
structure Admits (known : Hop → Prop) (lde : Lde) (event : LdeEvent) : Prop where
  valid : CounterValid lde (.event event)
  named : ∀ kr, event = .networkAdd kr → known ⟨kr.fec, kr.nexthop, kr.priority⟩

/-- One event. -/
theorem Lde.Programmed.ldeStep {lde : Lde} (programmed : lde.Programmed known) {event : LdeEvent}
    (orderly : Admits known lde event) : (ldeStep lde event).Programmed known := by
  obtain ⟨within, imsgs, queued, about, program⟩ :=
    Programs.ldeStep lde programmed.consistent.idle programmed.labelled
      (UInt32.ne_of_lt programmed.started.low_next).symm orderly.named
  refine ⟨programmed.consistent.ldeOp (.event event),
    programmed.labelled.ldeOp programmed.consistent.idle orderly.valid,
    programmed.started.ldeStep programmed.consistent.idle orderly.valid, within programmed.within,
    fun imsg member => ?_, fun hop route => ?_, fun hop route => ?_⟩
  · rw [queued] at member
    exact (List.mem_append.mp member).elim (programmed.about imsg) (about programmed.within imsg)
  · rw [Lde.told, queued, List.foldl_append]
    exact (program hop route _ (programmed.told hop route)).2
  · rw [queued]
    exact Run.allowed_append.mpr
      ⟨programmed.steady hop route, (program hop route _ (programmed.told hop route)).1⟩

/-- In every run in which the counter hands out no `NO_LABEL`, the labels that the parent process has
been told for a nexthop of a route are those that the engine has for it. -/
theorem parent_told (conf : LdeConf) (events : List LdeEvent)
    (valid : Run.Allowed Ldpd.ldeStep (fun lde event => CounterValid lde (.event event))
      (Lde.start conf) events) (hop : Hop) (route : hop.fec.af ≠ none) :
    (events.foldl Ldpd.ldeStep (Lde.start conf)).Agrees hop
      ((events.foldl Ldpd.ldeStep (Lde.start conf)).told hop) :=
  (Run.foldl_of_allowed (Lde.Programmed fun _ => True)
    (fun _ _ programmed valid => programmed.ldeStep ⟨valid, fun _ _ => trivial⟩)
    (programmed_start conf) valid).told hop route

/-- A route comes while the label of its nexthop is known already. -/
def learntRoute : List LdeEvent :=
  [.neighborUp 1 7 true false, .addressAdd 1 (.v4 0x0a000001),
    .labelMapping 1 { fec := .network (.v4 0x0b000000) 8, label := 100 },
    .networkAdd flappingRoute]

theorem parent_told_learntRoute :
    (learntRoute.foldl Ldpd.ldeStep (Lde.start {})).told
        ⟨.ipv4 0x0b000000 8, .v4 0x0a000001, 32⟩ = some (16, 100) ∧
      (learntRoute.foldl Ldpd.ldeStep (Lde.start {})).Agrees
        ⟨.ipv4 0x0b000000 8, .v4 0x0a000001, 32⟩ (some (16, 100)) := by
  have told : (learntRoute.foldl Ldpd.ldeStep (Lde.start {})).told
      ⟨.ipv4 0x0b000000 8, .v4 0x0a000001, 32⟩ = some (16, 100) := by decide +kernel
  refine ⟨told, told ▸ parent_told {} learntRoute ⟨fun fec takes => (not_takes rfl fec takes).elim,
    fun fec takes => (not_takes rfl fec takes).elim, fun fec takes => (not_takes rfl fec takes).elim,
    fun _ _ => by decide +kernel, trivial⟩ _ (by decide)⟩

end Runs

/-! ### Which nexthops there are -/

instance (lde : Lde) (hop : Hop) : Decidable (lde.Lists hop) :=
  inferInstanceAs (Decidable (_ ∈ nexthopKeys (lde.nexthops hop.fec)))

section Listing

variable {lde lde' : Lde} {hop : Hop}

theorem FecsKept.lists (kept : FecsKept lde lde') (hop : Hop) : lde'.Lists hop ↔ lde.Lists hop := by
  rw [Lde.Lists, kept.keys, Lde.Lists]

/-- A nexthop that is there already is not listed twice. -/
theorem lists_ldeKernelInsert (lde : Lde) (fec : Fec) (nexthop : LdpdAddr) (priority : UInt8)
    (connected : Bool) (data : Option Nat) (hop : Hop) :
    (ldeKernelInsert lde fec nexthop priority connected data).Lists hop ↔
      hop = ⟨fec, nexthop, priority⟩ ∨ lde.Lists hop := by
  rcases ldeKernelInsert_inserts lde fec nexthop priority connected data with
    ⟨known, kept⟩ | ⟨-, inserted⟩
  · rw [kept.lists]
    refine (or_iff_right_of_imp fun same => ?_).symm
    rw [same]
    exact known
  · obtain ⟨fec', nexthop', priority'⟩ := hop
    rw [Lde.Lists, inserted.keys, Lde.Lists]
    dsimp only
    split_ifs with same
    · rw [List.mem_cons, same, Prod.mk.injEq, Hop.mk.injEq]
      exact or_congr_left (and_iff_right rfl).symm
    · refine (or_iff_right fun equal => same ?_).symm
      exact congrArg Hop.fec equal

theorem lists_ldeKernelRemove (lde : Lde) (fec : Fec) (nexthop : LdpdAddr) (priority : UInt8)
    (hop : Hop) : (ldeKernelRemove lde fec nexthop priority).Lists hop ↔
      hop ≠ ⟨fec, nexthop, priority⟩ ∧ lde.Lists hop := by
  obtain ⟨fec', nexthop', priority'⟩ := hop
  rcases ldeKernelRemove_removes lde fec nexthop priority with ⟨unknown, kept⟩ | ⟨-, removed⟩
  · rw [kept.lists]
    refine (and_iff_right_of_imp fun listed same => unknown ?_).symm
    cases same
    exact listed
  · rw [Lde.Lists, removed.keys, Lde.Lists]
    dsimp only
    split_ifs with same
    · rw [List.mem_filter, same, decide_eq_true_eq, ne_eq, Prod.mk.injEq, and_comm, ne_eq,
        Hop.mk.injEq]
      exact and_congr_left fun _ => not_congr (and_iff_right rfl).symm
    · refine (and_iff_right fun equal => same ?_).symm
      exact congrArg Hop.fec equal

/-- The nexthops of a FEC have different addresses or priorities. -/
def Lde.KeysDistinct (lde : Lde) : Prop :=
  ∀ fec, (nexthopKeys (lde.nexthops fec)).Nodup

theorem FecsKept.keysDistinct (kept : FecsKept lde lde') (distinct : lde.KeysDistinct) :
    lde'.KeysDistinct := by
  intro fec
  rw [kept.keys]
  exact distinct fec

theorem Lde.KeysDistinct.ldeKernelInsert (distinct : lde.KeysDistinct) (fec : Fec)
    (nexthop : LdpdAddr) (priority : UInt8) (connected : Bool) (data : Option Nat) :
    (ldeKernelInsert lde fec nexthop priority connected data).KeysDistinct := by
  rcases ldeKernelInsert_inserts lde fec nexthop priority connected data with
    ⟨-, kept⟩ | ⟨unknown, inserted⟩
  · exact kept.keysDistinct distinct
  · intro other
    rw [inserted.keys]
    split_ifs
    · exact List.nodup_cons.mpr ⟨unknown, distinct fec⟩
    · exact distinct other

theorem Lde.KeysDistinct.ldeKernelRemove (distinct : lde.KeysDistinct) (fec : Fec)
    (nexthop : LdpdAddr) (priority : UInt8) :
    (ldeKernelRemove lde fec nexthop priority).KeysDistinct := by
  rcases ldeKernelRemove_removes lde fec nexthop priority with ⟨-, kept⟩ | ⟨-, removed⟩
  · exact kept.keysDistinct distinct
  · intro other
    rw [removed.keys]
    split_ifs
    · exact (distinct fec).filter _
    · exact distinct other

theorem Lde.KeysDistinct.ldeStep (distinct : lde.KeysDistinct) (idle : lde.Idle)
    (event : LdeEvent) : (ldeStep lde event).KeysDistinct := by
  have message (other : event.changesFecs = false) : (Ldpd.ldeStep lde event).KeysDistinct :=
    (FecsKept.ldeStep lde idle other).keysDistinct distinct
  cases event with
  | networkAdd kr => exact distinct.ldeKernelInsert _ _ _ _ _
  | networkDel kr => exact distinct.ldeKernelRemove _ _ _
  | pwNew data conf =>
    show (l2vpnPwAdd lde data conf).KeysDistinct
    rw [l2vpnPwAdd]
    split
    · exact distinct
    · rw [l2vpnPwInit]
      split
      · exact distinct
      · exact Lde.KeysDistinct.ldeKernelInsert (by exact distinct) _ _ _ _ _
  | pwDel data =>
    show (l2vpnPwDelete lde data).KeysDistinct
    rw [l2vpnPwDelete]
    split
    · exact distinct
    · show (l2vpnPwExit lde data).KeysDistinct
      rw [l2vpnPwExit]
      split
      · exact distinct
      · exact distinct.ldeKernelRemove _ _ _
  | labelMappingFull | labelMapping | labelRequest | labelRelease | labelWithdraw | labelAbort
  | addressAdd | addressDel | notification | neighborUp | neighborDown | gcTimer => exact message rfl

/-- Only the parent process brings and takes the nexthops of routes. -/
theorem lists_ldeStep (idle : lde.Idle) {event : LdeEvent} (add : ∀ kr, event ≠ .networkAdd kr)
    (del : ∀ kr, event ≠ .networkDel kr) (route : hop.fec.af ≠ none) :
    (ldeStep lde event).Lists hop ↔ lde.Lists hop := by
  have apart (lde : Lde) (pw : L2vpnPw) (nexthop : LdpdAddr) (priority : UInt8) :
      hop ≠ ⟨l2vpnPwFec lde pw, nexthop, priority⟩ := fun same => route (congrArg (·.fec.af) same)
  have message (other : event.changesFecs = false) :
      (ldeStep lde event).Lists hop ↔ lde.Lists hop :=
    (FecsKept.ldeStep lde idle other).lists hop
  cases event with
  | networkAdd kr => exact absurd rfl (add kr)
  | networkDel kr => exact absurd rfl (del kr)
  | pwNew data conf =>
    show (l2vpnPwAdd lde data conf).Lists hop ↔ _
    rw [l2vpnPwAdd]
    split
    · rfl
    · rw [l2vpnPwInit]
      split
      · rfl
      · rw [lists_ldeKernelInsert]
        exact or_iff_right (apart _ _ _ _)
  | pwDel data =>
    show (l2vpnPwDelete lde data).Lists hop ↔ _
    rw [l2vpnPwDelete]
    split
    · rfl
    · have stopped : (l2vpnPwExit lde data).Lists hop ↔ lde.Lists hop := by
        rw [l2vpnPwExit]
        split
        · rfl
        · rw [lists_ldeKernelRemove]
          exact and_iff_right (apart _ _ _ _)
      exact stopped
  | labelMappingFull | labelMapping | labelRequest | labelRelease | labelWithdraw | labelAbort
  | addressAdd | addressDel | notification | neighborUp | neighborDown | gcTimer => exact message rfl

end Listing

end Ldpd
