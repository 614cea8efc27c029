/-
This file says what one neighbor is told about the routes while the label decision engine
does anything at all. A mapping of a route carries its local label, a withdraw takes that
label back, and every other message leaves what the neighbor knows of the routes alone.
-/

import Ldpd.Lde.ExplicitNull
import Ldpd.Lde.Withdraw

namespace Ldpd

/-! ### What a neighbor is told -/

/-- The messages that come to the queue of a neighbor change what it knows of the routes. -/
structure Says (peerid : UInt32) (change : Fec → Option UInt32 → Option UInt32) (lde lde' : Lde) :
    Prop where
  enabled : lde'.enabled peerid = lde.enabled peerid
  mem : peerid ∈ lde'.ldeNbrs ↔ peerid ∈ lde.ldeNbrs
  said : ∃ imsgs, lde'.toPeer peerid = lde.toPeer peerid ++ imsgs ∧
    ∀ fec, fec.af ≠ none → ∀ known, imsgs.foldl (heard fec) known = change fec known

/-- The neighbor is told nothing about the routes. -/
def Mute (peerid : UInt32) (lde lde' : Lde) : Prop :=
  Says peerid (fun _ known => known) lde lde'

section Rules

variable {peerid : UInt32} {change change' : Fec → Option UInt32 → Option UInt32}
  {lde lde' lde'' : Lde}

/-- What is said first is changed by what is said next. -/
theorem Says.trans (first : Says peerid change lde lde') (second : Says peerid change' lde' lde'') :
    Says peerid (fun fec known => change' fec (change fec known)) lde lde'' := by
  refine ⟨second.enabled.trans first.enabled, second.mem.trans first.mem, ?_⟩
  obtain ⟨before, queued, hear⟩ := first.said
  obtain ⟨after, queued', hear'⟩ := second.said
  refine ⟨before ++ after, ?_, fun fec family known => ?_⟩
  · rw [queued', queued, List.append_assoc]
  · rw [List.foldl_append, hear fec family, hear' fec family]

/-- Only what is said of routes counts. -/
theorem Says.congr (spoken : Says peerid change lde lde')
    (same : ∀ fec, fec.af ≠ none → ∀ known, change fec known = change' fec known) :
    Says peerid change' lde lde' := by
  obtain ⟨imsgs, queued, hear⟩ := spoken.said
  refine ⟨spoken.enabled, spoken.mem, imsgs, queued, fun fec family known => ?_⟩
  rw [hear fec family, same fec family]

theorem Mute.silent (enabled : lde'.enabled peerid = lde.enabled peerid)
    (mem : peerid ∈ lde'.ldeNbrs ↔ peerid ∈ lde.ldeNbrs) (queued : lde'.toLdpe = lde.toLdpe) :
    Mute peerid lde lde' := by
  refine ⟨enabled, mem, [], ?_, fun _ _ _ => rfl⟩
  rw [Lde.toPeer, queued, List.append_nil]
  rfl

theorem Mute.refl (peerid : UInt32) (lde : Lde) : Mute peerid lde lde := .silent rfl Iff.rfl rfl

/-- Silence goes on. -/
theorem Mute.trans (first : Mute peerid lde lde') (second : Mute peerid lde' lde'') :
    Mute peerid lde lde'' := Says.trans first second

theorem Mute.foldl {Item : Type} (body : Lde → Item → Lde)
    (mute : ∀ lde item, Mute peerid lde (body lde item)) (items : List Item) (lde : Lde) :
    Mute peerid lde (items.foldl body lde) :=
  Run.foldl_related (.refl peerid) .trans mute items lde

/-- A change that touches neither the neighbors nor the queue. -/
theorem Mute.aside (nbrs : lde'.ldeNbrs = lde.ldeNbrs) (queued : lde'.toLdpe = lde.toLdpe) :
    Mute peerid lde lde' := by
  refine .silent ?_ (by rw [nbrs]) queued
  funext af
  rw [Lde.enabled, Lde.enabled, nbrs]

/-- The messages to the parent process go to no neighbor. -/
theorem KernelOnly.mute (kernel : KernelOnly lde lde') : Mute peerid lde lde' :=
  .aside kernel.ldeNbrs kernel.toLdpe

end Rules

/-! ### Single updates -/

section Updates

variable (peerid : UInt32) (lde : Lde)

theorem Mute.updateNode (fec : Fec) (change : FecNode → FecNode) :
    Mute peerid lde (lde.updateNode fec change) := .aside rfl rfl

theorem Mute.updatePw (data : Nat) (change : L2vpnPw → L2vpnPw) :
    Mute peerid lde (lde.updatePw data change) := .aside rfl rfl

theorem Mute.fecAdd (fec : Fec) : Mute peerid lde (fecAdd lde fec) := .aside rfl rfl

theorem Mute.fail (fault : LdeFault) : Mute peerid lde (lde.fail fault) := .aside rfl rfl

/-- A neighbor may be changed in all but its address families. -/
theorem Mute.updateNbr (other : UInt32) {change : LdeNbr → LdeNbr}
    (v4 : ∀ ln, (change ln).v4Enabled = ln.v4Enabled)
    (v6 : ∀ ln, (change ln).v6Enabled = ln.v6Enabled) :
    Mute peerid lde (lde.updateNbr other change) := by
  have told := Tells.updateNbr peerid lde other v4 v6
  exact .silent told.enabled told.mem rfl

theorem Mute.ldeMapAdd (other : UInt32) (fec : Fec) (map : Map) (sent : Bool) :
    Mute peerid lde (ldeMapAdd lde other fec map sent) := by
  rw [Ldpd.ldeMapAdd]
  split
  all_goals
    refine .trans (.updateNode peerid lde fec _) (.updateNbr peerid _ other ?_ ?_)
    all_goals exact fun _ => rfl

theorem Mute.ldeMapSet (other : UInt32) (fec : Fec) (map : Map) (sent : Bool) :
    Mute peerid lde (ldeMapSet lde other fec map sent) := by
  cases sent
  all_goals exact .updateNbr peerid lde other (fun _ => rfl) fun _ => rfl

theorem Mute.ldeMapDel (other : UInt32) (fec : Fec) (sent : Bool) :
    Mute peerid lde (ldeMapDel lde other fec sent) := by
  rw [Ldpd.ldeMapDel]
  split
  all_goals
    refine .trans (.updateNode peerid lde fec _) (.updateNbr peerid _ other ?_ ?_)
    all_goals exact fun _ => rfl

/-- A message is heard by the neighbor it is for. -/
theorem Says.composeLdpe (imsg : LdpeImsg) :
    Says peerid (fun fec known => if imsg.peerid = peerid then heard fec known imsg else known) lde
      (lde.composeLdpe imsg) := by
  refine ⟨rfl, Iff.rfl, if imsg.peerid = peerid then [imsg] else [], ?_, fun fec _ known => ?_⟩
  · rw [Lde.toPeer, Lde.composeLdpe, List.filter_append, Lde.toPeer]
    congr 1
    split_ifs with same
    · rw [List.filter_cons_of_pos (by simpa using same), List.filter_nil]
    · rw [List.filter_cons_of_neg (by simpa using same), List.filter_nil]
  · split_ifs <;> rfl

/-- A message that says nothing about routes. -/
theorem Mute.composeLdpe {imsg : LdpeImsg}
    (nothing : ∀ fec, fec.af ≠ none → ∀ known, heard fec known imsg = known) :
    Mute peerid lde (lde.composeLdpe imsg) :=
  (Says.composeLdpe peerid lde imsg).congr fun fec family known => by
    rw [nothing fec family, ite_self]

end Updates

/-! ### Senders -/

section Senders

variable (peerid : UInt32) (lde : Lde) (other : UInt32)

/-- The record of a mapping is not the mapping. -/
theorem Mute.recordSent (ln : LdeNbr) (fec : Fec) (map : Map) :
    Mute peerid lde (recordSent lde other ln fec map) := by
  rw [Ldpd.recordSent]
  split
  · exact .ldeMapSet peerid lde other fec map true
  · exact .ldeMapAdd peerid lde other fec map true

theorem Mute.mappingAddEnd (single : Bool) :
    Mute peerid lde (if single then lde.composeLdpe (.mappingAddEnd other) else lde) := by
  split
  · exact .composeLdpe peerid lde fun _ _ _ => rfl
  · exact .refl peerid lde

theorem Mute.recordWdraw (label : UInt32) (fec : Fec) :
    Mute peerid lde (recordWdraw other label lde fec) :=
  .updateNbr peerid lde other (fun _ => rfl) fun _ => rfl

/-- What a neighbor knows of a FEC after a mapping of it: the local label, if the address family is
enabled for the neighbor. -/
def Lde.offered (lde : Lde) (peerid : UInt32) (fec : Fec) (known : Option UInt32) : Option UInt32 :=
  match fec.af with
  | none => known
  | some af => if fec ∈ lde.ft ∧ lde.enabled peerid af then some (lde.localLabel fec) else known

/-- What a neighbor knows of a FEC after a withdraw of it. -/
def Lde.retracted (lde : Lde) (peerid : UInt32) (fec : Fec) (known : Option UInt32) :
    Option UInt32 :=
  match fec.af with
  | none => known
  | some af =>
    if fec ∈ lde.ft ∧ lde.enabled peerid af then withdrawn (lde.localLabel fec) known else known

theorem labelPeer_eq {lde : Lde} {other : UInt32} {ln : LdeNbr}
    (neighbor : lde.ldeNbrs[other]? = some ln) (fn : FecNode) {fec : Fec} {af : Af}
    (family : fec.af = some af) : labelPeer lde ln fn fec = lde.enabled other af := by
  rw [Lde.enabled, neighbor]
  cases fec with
  | ipv4 | ipv6 =>
    cases family
    rfl
  | pwid => cases family

/-- A neighbor that is not there is told of no address family. -/
theorem enabled_of_none {lde : Lde} {other : UInt32} (neighbor : lde.ldeNbrs[other]? = none)
    (af : Af) : lde.enabled other af = false := by
  rw [Lde.enabled, neighbor]
  rfl

theorem fec_compose_pwid (lde : Lde) (fn : FecNode) (type : UInt16) (pwid : UInt32) (lsrId : InAddr)
    (label : UInt32) :
    (∃ ifmtu, (composeLabelmapping lde (.pwid type pwid lsrId) fn).fec = .pwid type pwid 0 ifmtu) ∧
      (composeLabelrecord lde (.pwid type pwid lsrId) fn label).fec = .pwid type pwid 0 0 := by
  unfold composeLabelmapping composeLabelrecord
  cases lde.pwOf fn with
  | none => exact ⟨⟨_, rfl⟩, rfl⟩
  | some pw => exact ⟨⟨_, rfl⟩, rfl⟩

/-- What the messages about a FEC say of the routes. -/
theorem fec_compose (lde : Lde) (fec : Fec) (fn : FecNode) (label : UInt32) {route : Fec}
    (family : route.af ≠ none) :
    (ldeMap2fec (composeLabelmapping lde fec fn) 0 = route ↔ fec = route) ∧
      (ldeMap2fec (composeLabelrecord lde fec fn label) 0 = route ↔ fec = route) := by
  cases fec with
  | ipv4 | ipv6 => exact ⟨Iff.rfl, Iff.rfl⟩
  | pwid type pwid lsrId =>
    obtain ⟨⟨ifmtu, mapping⟩, record⟩ := fec_compose_pwid lde fn type pwid lsrId label
    have apart (lsrId : InAddr) : Fec.pwid type pwid lsrId ≠ route := by
      rintro rfl
      exact family rfl
    rw [ldeMap2fec, mapping, ldeMap2fec, record]
    exact ⟨iff_of_false (apart 0) (apart lsrId), iff_of_false (apart 0) (apart lsrId)⟩

/-- A mapping carries the local label of its node. -/
theorem label_composeLabelmapping (lde : Lde) (fec : Fec) (fn : FecNode) :
    (composeLabelmapping lde fec fn).label = fn.localLabel := by
  unfold composeLabelmapping
  split <;> rfl

/-- A mapping offers the local label of its FEC to the neighbor it is for. -/
theorem says_ldeSendLabelmapping (fec : Fec) (single : Bool) :
    Says peerid
      (fun route known => if other = peerid ∧ route = fec then lde.offered peerid fec known
        else known)
      lde (ldeSendLabelmapping lde other fec single) := by
  have nothing (kept : other = peerid → ∀ af, fec.af = some af →
      ¬(fec ∈ lde.ft ∧ lde.enabled peerid af = true)) : Says peerid
      (fun route known => if other = peerid ∧ route = fec then lde.offered peerid fec known
        else known)
      lde lde := by
    refine Says.congr (Mute.refl peerid lde) fun route family known => ?_
    split_ifs with both
    · rw [Lde.offered]
      split
      · rfl
      · rename_i af network
        exact (if_neg (kept both.1 af network)).symm
    · rfl
  unfold ldeSendLabelmapping
  cases neighbor : lde.ldeNbrs[other]? with
  | none =>
    refine nothing ?_
    rintro rfl af network both
    rw [enabled_of_none neighbor] at both
    exact absurd both.2 (by simp)
  | some ln =>
    cases node : lde.ft[fec]? with
    | none =>
      refine nothing fun _ _ _ both => ?_
      obtain ⟨fn, found⟩ := (Tree.mem_iff_getElem? _ _).mp both.1
      exact absurd (node.symm.trans found) (by simp)
    | some fn =>
      have present : fec ∈ lde.ft := (Tree.mem_iff_getElem? _ _).mpr ⟨fn, node⟩
      simp only
      split
      · rename_i speaks
        have cleared : Mute peerid lde (lde.updateNbr other fun ln =>
            { ln with recvReq := ln.recvReq.erase fec }) :=
          .updateNbr peerid lde other (fun _ => rfl) fun _ => rfl
        have sent {map : Map} (label : map.label = fn.localLabel)
            (names : ∀ route, route.af ≠ none → (ldeMap2fec map 0 = route ↔ fec = route)) :=
          ((Says.trans cleared (.composeLdpe peerid _ (.mappingAdd other map))).trans
            ((Mute.mappingAddEnd peerid _ other single).trans
              (.recordSent peerid _ other ln fec map))).congr fun route family known =>
          show (if other = peerid then (if ldeMap2fec map 0 = route then some map.label else known)
              else known) = if other = peerid ∧ route = fec then lde.offered peerid fec known
                else known by
            by_cases mine : other = peerid
            · subst mine
              by_cases same : route = fec
              · subst same
                obtain ⟨af, network⟩ := Option.ne_none_iff_exists'.mp family
                rw [labelPeer_eq neighbor fn network] at speaks
                rw [if_pos rfl, if_pos ((names route family).mpr rfl), if_pos ⟨rfl, rfl⟩,
                  Lde.offered, network, label, ← lde.localLabel_eq_of_node node]
                exact (if_pos ⟨present, speaks⟩).symm
              · rw [if_pos rfl, if_neg fun named => same ((names route family).mp named).symm,
                  if_neg fun both => same both.2]
            · rw [if_neg mine, if_neg fun both => mine both.1]
        refine sent ?_ fun route family => ?_
        · split
          · exact label_composeLabelmapping lde fec fn
          · exact label_composeLabelmapping lde fec fn
        · split
          · exact (fec_compose lde fec fn 0 family).1
          · exact (fec_compose lde fec fn 0 family).1
      · rename_i silent
        refine nothing ?_
        rintro rfl af network both
        rw [labelPeer_eq neighbor fn network] at silent
        exact silent both.2

theorem heard_withdrawAdd (peerid : UInt32) {map : Map} (specific : map.fec ≠ .wildcard) (fec : Fec)
    (known : Option UInt32) : heard fec known (.withdrawAdd peerid map) =
      if ldeMap2fec map 0 = fec then withdrawn map.label known else known := by
  rw [heard, withdrawn]
  by_cases named : ldeMap2fec map 0 = fec <;> simp [specific, named]

/-- A withdraw of a FEC takes its local label back from the neighbor it is for. -/
theorem says_ldeSendLabelwithdraw (fec : Fec) (label : UInt32) (st : Option MapStatus) :
    Says peerid
      (fun route known => if other = peerid ∧ route = fec then lde.retracted peerid fec known
        else known)
      lde (ldeSendLabelwithdraw lde other (some fec) label st) := by
  have nothing (kept : other = peerid → ∀ af, fec.af = some af →
      ¬(fec ∈ lde.ft ∧ lde.enabled peerid af = true)) : Says peerid
      (fun route known => if other = peerid ∧ route = fec then lde.retracted peerid fec known
        else known)
      lde lde := by
    refine Says.congr (Mute.refl peerid lde) fun route family known => ?_
    split_ifs with both
    · rw [Lde.retracted]
      split
      · rfl
      · rename_i af network
        exact (if_neg (kept both.1 af network)).symm
    · rfl
  unfold ldeSendLabelwithdraw
  cases neighbor : lde.ldeNbrs[other]? with
  | none =>
    refine nothing ?_
    rintro rfl af network both
    rw [enabled_of_none neighbor] at both
    exact absurd both.2 (by simp)
  | some ln =>
    simp only [composeLabelwithdraw]
    cases node : lde.ft[fec]? with
    | none =>
      refine nothing fun _ _ _ both => ?_
      obtain ⟨fn, found⟩ := (Tree.mem_iff_getElem? _ _).mp both.1
      exact absurd (node.symm.trans found) (by simp)
    | some fn =>
      have present : fec ∈ lde.ft := (Tree.mem_iff_getElem? _ _).mpr ⟨fn, node⟩
      simp only
      cases speaks : labelPeer lde ln fn fec with
      | false =>
        refine nothing ?_
        rintro rfl af network both
        rw [labelPeer_eq neighbor fn network] at speaks
        exact absurd (speaks.symm.trans both.2) (by simp)
      | true =>
        have sent {map : Map} (label : map.label = fn.localLabel) (wildcard : map.fec ≠ .wildcard)
            (names : ∀ route, route.af ≠ none → (ldeMap2fec map 0 = route ↔ fec = route)) :
            Says peerid (fun route known => if other = peerid ∧ route = fec
              then lde.retracted peerid fec known else known) lde
              (recordWdraw other map.label
                ((lde.composeLdpe (.withdrawAdd other map)).composeLdpe (.withdrawAddEnd other))
                fec) := by
          have ended (lde : Lde) : Mute peerid lde (lde.composeLdpe (.withdrawAddEnd other)) :=
            .composeLdpe peerid lde fun _ _ _ => rfl
          refine ((Says.composeLdpe peerid lde (.withdrawAdd other map)).trans ((ended _).trans
            (.recordWdraw peerid _ other map.label fec))).congr fun route family known => ?_
          show (if other = peerid then heard route known (.withdrawAdd other map) else known) = _
          rw [heard_withdrawAdd other wildcard, label]
          by_cases mine : other = peerid
          · subst mine
            by_cases same : route = fec
            · subst same
              obtain ⟨af, network⟩ := Option.ne_none_iff_exists'.mp family
              rw [labelPeer_eq neighbor fn network] at speaks
              rw [if_pos rfl, if_pos ((names route family).mpr rfl), if_pos ⟨rfl, rfl⟩,
                Lde.retracted, network, ← lde.localLabel_eq_of_node node]
              exact (if_pos ⟨present, speaks⟩).symm
            · rw [if_pos rfl, if_neg fun named => same ((names route family).mp named).symm,
                if_neg fun both => same both.2]
          · rw [if_neg mine, if_neg fun both => mine both.1]
        have fields := fun (route : Fec) (family : route.af ≠ none) =>
          (fec_compose lde fec fn fn.localLabel family).2
        cases st with
        | none =>
          exact sent (label_composeLabelrecord lde fec fn _)
            (composeLabelrecord_ne_wildcard lde fec fn _) fields
        | some st =>
          exact sent (label_composeLabelrecord lde fec fn _)
            (composeLabelrecord_ne_wildcard lde fec fn _) fields

theorem Mute.releaseAdd (map : Map) :
    Mute peerid lde
      ((lde.composeLdpe (.releaseAdd other map)).composeLdpe (.releaseAddEnd other)) :=
  (Mute.composeLdpe peerid lde fun _ _ _ => rfl).trans
    (.composeLdpe peerid _ fun _ _ _ => rfl)

/-- A release gives back a label of the neighbor, and says nothing of the local ones. -/
theorem Mute.ldeSendLabelrelease (fec : Option Fec) (label : UInt32) :
    Mute peerid lde (ldeSendLabelrelease lde other fec label) := by
  unfold Ldpd.ldeSendLabelrelease
  dsimp only
  split
  · exact .releaseAdd peerid lde other _
  split
  · split
    · exact .releaseAdd peerid lde other _
    · exact .refl peerid lde
  · exact .refl peerid lde

theorem Mute.ldeSendNotification (statusCode msgId : UInt32) (msgType : UInt16) :
    Mute peerid lde (ldeSendNotification lde other statusCode msgId msgType) :=
  .composeLdpe peerid lde fun _ _ _ => rfl

/-- What is sent about a pseudowire. -/
theorem Mute.of_pw {fec : Fec} (pseudowire : fec.af = none) {lde' : Lde}
    {change : Option UInt32 → Option UInt32}
    (spoken : Says peerid (fun route known => if other = peerid ∧ route = fec then change known
      else known) lde lde') : Mute peerid lde lde' :=
  spoken.congr fun route family _ => if_neg fun both : _ ∧ route = fec =>
    family (both.2 ▸ pseudowire)

end Senders

/-! ### Label messages -/

section Handlers

variable (peerid : UInt32) (lde : Lde)

theorem Mute.uninstallNexthop (fec : Fec) (fnh : FecNh) :
    Mute peerid lde (uninstallNexthop fec lde fnh) :=
  (kernelOnly_ldeSendDeleteKlabel lde fec fnh).mute.trans (.updateNode peerid _ fec _)

theorem Mute.uninstallNexthops (fec : Fec) (test : FecNh → Bool) :
    Mute peerid lde (uninstallNexthops lde fec test) :=
  .foldl _ (fun lde fnh => .uninstallNexthop peerid lde fec fnh) _ lde

/-- The label of a nexthop is programmed into the kernel only. -/
theorem Mute.installNexthop (map : Map) (ln : LdeNbr) (fec : Fec) (fnh : FecNh) :
    Mute peerid lde (installNexthop map ln fec lde fnh) := by
  have changed (lde : Lde) (fnh : FecNh) : Mute peerid lde (ldeSendChangeKlabel lde fec fnh) :=
    (kernelOnly_ldeSendChangeKlabel lde fec fnh).mute
  have relabelled (lde : Lde) : Mute peerid lde (lde.setRemoteLabel fec fnh map.label) :=
    .updateNode peerid lde fec _
  unfold Ldpd.installNexthop
  dsimp only
  split
  · split
    · exact (relabelled lde).trans (changed _ _)
    · exact .refl peerid lde
  · split
    · exact (relabelled lde).trans (changed _ _)
    · exact .refl peerid lde
  · split
    · exact .refl peerid lde
    split
    · exact .fail peerid lde _
    split
    · exact .trans (.updatePw peerid lde _ _) ((relabelled _).trans (changed _ _))
    · exact .trans (.updatePw peerid lde _ _) (relabelled _)

theorem Mute.negotiateStatus (data : Nat) (ln : LdeNbr) (fec : Fec) (map : Map) :
    Mute peerid lde (negotiateStatus lde data ln fec map) := by
  unfold Ldpd.negotiateStatus
  split
  · exact .updatePw peerid lde data _
  · exact .refl peerid lde

/-- A mapping that is sent again in the negotiation is about a pseudowire. -/
theorem Mute.negotiateMapping (other : UInt32) (ln : LdeNbr) (map : Map) :
    Mute peerid lde (negotiateMapping lde other ln (ldeMap2fec map ln.id) map).1 := by
  rw [Ldpd.negotiateMapping]
  split
  · rename_i type pwid groupId ifmtu same
    have pseudowire : (ldeMap2fec map ln.id).af = none := by
      rw [ldeMap2fec, same]
      rfl
    generalize ldeMap2fec map ln.id = fec at pseudowire
    have status (lde : Lde) (data : Nat) :
        Mute peerid lde (Ldpd.negotiateStatus lde data ln fec map) :=
      .negotiateStatus peerid lde data ln fec map
    have flagged (lde : Lde) (data : Nat) (change : PwFlags → PwFlags) :
        Mute peerid lde (lde.setPwFlags data change) := .updatePw peerid lde data _
    have again (data : Nat) : Mute peerid lde (renegotiateCword lde other data fec map) :=
      .trans (.of_pw peerid lde other pseudowire
          (says_ldeSendLabelwithdraw peerid lde other fec noLabel _))
        (.trans (flagged _ data _) (.of_pw peerid _ other pseudowire
          (says_ldeSendLabelmapping peerid _ other fec true)))
    rw [l2vpnPwNegotiate]
    repeat' split
    all_goals first
      | exact .refl peerid lde
      | exact .fail peerid lde _
      | exact (again _).trans (status _ _)
      | exact (flagged lde _ _).trans (status _ _)
      | exact status lde _
  · exact .refl peerid lde

theorem Mute.replaceLabel (other : UInt32) (ln : LdeNbr) (fec : Fec) (map : Map)
    (requested : Bool) : Mute peerid lde (replaceLabel lde other ln fec map requested) := by
  unfold Ldpd.replaceLabel
  split
  · exact .refl peerid lde
  split
  · exact .trans (.ldeSendLabelrelease peerid lde other _ _) (.uninstallNexthops peerid _ fec _)
  · exact .refl peerid lde

theorem Mute.recordReceived (other : UInt32) (known : Bool) (fec : Fec) (map : Map) :
    Mute peerid lde (recordReceived lde other known fec map) := by
  cases known with
  | true => exact .ldeMapSet peerid lde other fec map false
  | false => exact .ldeMapAdd peerid lde other fec map false

/-- A mapping is answered with releases at most. -/
theorem Mute.ldeCheckMapping (map : Map) (other : UInt32) :
    Mute peerid lde (ldeCheckMapping lde map other) := by
  unfold Ldpd.ldeCheckMapping
  split
  · exact .refl peerid lde
  · rename_i ln _
    have cleared : Mute peerid lde (clearRequest lde other (ldeMap2fec map ln.id)) :=
      .trans (.fecAdd peerid lde _) (.updateNbr peerid _ other (fun _ => rfl) fun _ => rfl)
    have negotiated := cleared.trans (.negotiateMapping peerid _ other ln map)
    dsimp only
    split
    · exact negotiated
    · exact negotiated.trans (.trans (.replaceLabel peerid _ other ln _ map _)
        (.trans (.foldl _ (fun lde fnh => .installNexthop peerid lde map ln _ fnh) _ _)
          (.recordReceived peerid _ other _ _ map)))

theorem Mute.releaseFec (other label : UInt32) (fec : Fec) :
    Mute peerid lde (releaseFec other label lde fec) := by
  have withdrawn (lde : Lde) : Mute peerid lde (lde.updateNbr other fun ln =>
      { ln with sentWdraw := ln.sentWdraw.erase fec }) :=
    .updateNbr peerid lde other (fun _ => rfl) fun _ => rfl
  unfold Ldpd.releaseFec
  split
  · exact .refl peerid lde
  dsimp only
  repeat' split
  all_goals first
    | exact .refl peerid lde
    | exact withdrawn lde
    | exact (withdrawn lde).trans (.ldeMapDel peerid _ other fec true)
    | exact .ldeMapDel peerid lde other fec true

/-- A release deletes the record, not what the neighbor knows. -/
theorem Mute.dispatchRelease (map : Map) (other : UInt32) :
    Mute peerid lde (dispatchRelease lde map other) := by
  unfold Ldpd.dispatchRelease
  split
  · exact .foldl _ (fun lde fec => .releaseFec peerid lde other map.label fec) _ lde
  · unfold ldeCheckRelease
    dsimp only
    repeat' split
    all_goals first
      | exact .refl peerid lde
      | exact .releaseFec peerid lde other _ _

theorem Mute.forgetMapping (other label : UInt32) (fec : Fec) :
    Mute peerid lde (forgetMapping other label lde fec) := by
  unfold Ldpd.forgetMapping
  repeat' split
  all_goals first
    | exact .refl peerid lde
    | exact .ldeMapDel peerid lde other fec false

/-- A withdraw is answered with releases. -/
theorem Mute.dispatchWithdraw (map : Map) (other : UInt32) :
    Mute peerid lde (dispatchWithdraw lde map other) := by
  unfold Ldpd.dispatchWithdraw
  split
  · unfold ldeCheckWithdrawWcard
    split
    · exact .refl peerid lde
    · exact (Mute.ldeSendLabelrelease peerid lde other _ _).trans
        (.foldl _ (fun lde fec => (Mute.uninstallNexthops peerid lde fec _).trans
          (.forgetMapping peerid _ other _ fec)) _ _)
  · unfold ldeCheckWithdraw
    split
    · exact .refl peerid lde
    split
    · exact .refl peerid lde
    · exact (Mute.fecAdd peerid lde _).trans ((Mute.uninstallNexthops peerid _ _ _).trans
        ((Mute.ldeSendLabelrelease peerid _ other _ _).trans (.forgetMapping peerid _ other _ _)))

theorem Mute.dispatchNotification (nm : NotifyMsg) (other : UInt32) :
    Mute peerid lde (dispatchNotification lde nm other) := by
  unfold Ldpd.dispatchNotification
  split
  · exact .refl peerid lde
  split
  · unfold l2vpnRecvPwStatus
    dsimp only
    repeat' split
    all_goals first
      | exact .refl peerid lde
      | exact .fail peerid lde _
      | exact .trans (.updatePw peerid lde _ _) (kernelOnly_ldeSendChangeKlabel _ _ _).mute
      | exact .trans (.updatePw peerid lde _ _) (kernelOnly_ldeSendDeleteKlabel _ _ _).mute
  · exact .refl peerid lde

end Handlers

/-! ### Addresses and neighbors -/

section Neighbors

variable (peerid : UInt32) (lde : Lde)

theorem Mute.addrUpdateFec (addr : LdpdAddr) (removed : Bool) (entry : Fec × Map) :
    Mute peerid lde (addrUpdateFec addr removed lde entry) := by
  unfold Ldpd.addrUpdateFec
  repeat' split
  all_goals first
    | exact .refl peerid lde
    | exact .fail peerid lde _
    | exact .uninstallNexthop peerid lde _ _
    | exact .trans (.updateNode peerid lde _ _) (kernelOnly_ldeSendChangeKlabel _ _ _).mute

/-- Addresses decide which nexthops get a label, which only the kernel hears of. -/
theorem Mute.ldeNbrAddrUpdate (ln : LdeNbr) (addr : LdpdAddr) (removed : Bool) :
    Mute peerid lde (ldeNbrAddrUpdate lde ln addr removed) :=
  .foldl _ (fun lde entry => .addrUpdateFec peerid lde addr removed entry) _ lde

theorem Mute.ldeAddressAdd (other : UInt32) (addr : LdpdAddr) :
    Mute peerid lde (ldeAddressAdd lde other addr) := by
  unfold Ldpd.ldeAddressAdd
  split
  · exact .refl peerid lde
  split
  · exact .refl peerid lde
  · refine .trans (.updateNbr peerid lde other ?_ ?_) (.ldeNbrAddrUpdate peerid _ _ addr false)
    all_goals exact fun _ => rfl

theorem Mute.ldeAddressDel (other : UInt32) (addr : LdpdAddr) :
    Mute peerid lde (ldeAddressDel lde other addr) := by
  unfold Ldpd.ldeAddressDel
  split
  · exact .refl peerid lde
  split
  · refine .trans (.ldeNbrAddrUpdate peerid lde _ addr true) (.updateNbr peerid _ other ?_ ?_)
    all_goals exact fun _ => rfl
  · exact .refl peerid lde

theorem Mute.ldeNbrNew {other : UInt32} (different : other ≠ peerid) (id : InAddr)
    (v4Enabled v6Enabled : Bool) :
    Mute peerid lde (ldeNbrNew lde other id v4Enabled v6Enabled) := by
  unfold Ldpd.ldeNbrNew
  split
  · exact .fail peerid lde _
  · refine .silent (funext fun af => ?_) ?_ rfl
    · rw [Lde.enabled, Lde.enabled, Tree.getElem?_insert, if_neg different]
    · rw [Tree.mem_iff_getElem?, Tree.mem_iff_getElem?, Tree.getElem?_insert, if_neg different]

theorem Mute.downNexthop (fec : Fec) (fnh : FecNh) : Mute peerid lde (downNexthop fec lde fnh) := by
  have reset : Mute peerid lde (resetPwOf lde fec) := by
    unfold resetPwOf
    split
    · exact .updatePw peerid lde _ _
    · exact .refl peerid lde
  exact reset.trans (.uninstallNexthop peerid _ fec fnh)

/-- Another neighbor hears nothing when one is lost. -/
theorem Mute.ldeNbrDel {other : UInt32} (different : other ≠ peerid) :
    Mute peerid lde (ldeNbrDel lde other) := by
  unfold Ldpd.ldeNbrDel
  split
  · exact .refl peerid lde
  · rename_i ln _
    have gone (lde : Lde) : Mute peerid lde { lde with ldeNbrs := lde.ldeNbrs.erase other } := by
      refine .silent (funext fun af => ?_) ?_ rfl
      · rw [Lde.enabled, Lde.enabled, Tree.getElem?_erase, if_neg different]
      · rw [Tree.mem_iff_getElem?, Tree.mem_iff_getElem?, Tree.getElem?_erase, if_neg different]
    have forgets (sent : Bool) (lde : Lde) (fecs : List Fec) : Mute peerid lde
        (fecs.foldl (fun lde fec => Ldpd.ldeMapDel lde other fec sent) lde) :=
      .foldl _ (fun lde fec => .ldeMapDel peerid lde other fec sent) fecs lde
    have down : Mute peerid lde (lde.ft.keys.foldl (downFec ln) lde) :=
      .foldl _ (fun lde fec => .foldl _ (fun lde fnh => .downNexthop peerid lde fec fnh) _ lde) _
        lde
    exact down.trans ((forgets false _ _).trans ((forgets true _ _).trans (gone _)))

theorem Mute.ldeGcTimer : Mute peerid lde (ldeGcTimer lde) := by
  refine .foldl _ (fun lde fec => ?_) _ lde
  unfold gcFec
  split
  · exact .refl peerid lde
  · split
    · exact .aside rfl rfl
    · exact .refl peerid lde

end Neighbors

/-! ### What is offered to the neighbors -/

section Offers

variable (peerid : UInt32) (lde : Lde)

/-- What is offered depends on the label and the address families. -/
theorem Lde.offered_congr {lde lde' : Lde} {peerid : UInt32}
    (enabled : lde'.enabled peerid = lde.enabled peerid) {fec : Fec}
    (node : fec ∈ lde'.ft ↔ fec ∈ lde.ft) (label : lde'.localLabel fec = lde.localLabel fec)
    (known : Option UInt32) : lde'.offered peerid fec known = lde.offered peerid fec known := by
  simp only [Lde.offered, enabled, label, node]

theorem Lde.retracted_congr {lde lde' : Lde} {peerid : UInt32}
    (enabled : lde'.enabled peerid = lde.enabled peerid) {fec : Fec}
    (node : fec ∈ lde'.ft ↔ fec ∈ lde.ft) (label : lde'.localLabel fec = lde.localLabel fec)
    (known : Option UInt32) : lde'.retracted peerid fec known = lde.retracted peerid fec known := by
  simp only [Lde.retracted, enabled, label, node]

/-- A second offer of the same label changes nothing. -/
theorem Lde.offered_offered (fec : Fec) (known : Option UInt32) :
    lde.offered peerid fec (lde.offered peerid fec known) = lde.offered peerid fec known := by
  unfold Lde.offered
  cases fec.af with
  | none => rfl
  | some af =>
    dsimp only
    split_ifs <;> rfl

/-- A label is taken back once. -/
theorem Lde.retracted_retracted (fec : Fec) (known : Option UInt32) :
    lde.retracted peerid fec (lde.retracted peerid fec known) = lde.retracted peerid fec known := by
  unfold Lde.retracted
  cases fec.af with
  | none => rfl
  | some af =>
    dsimp only
    split_ifs
    · exact withdrawn_withdrawn _ known
    · rfl

/-- A loop that tells one neighbor after another the same about a FEC. -/
theorem Says.foldl_peers {body : Lde → UInt32 → Lde} (fec : Fec)
    (change : Option UInt32 → Option UInt32) (invariant : Lde → Prop)
    (kept : ∀ lde other, invariant lde → invariant (body lde other))
    (twice : ∀ known, change (change known) = change known)
    (spoken : ∀ lde other, invariant lde → Says peerid
      (fun route known => if other = peerid ∧ route = fec then change known else known) lde
        (body lde other)) (peers : List UInt32) (lde : Lde) (holds : invariant lde) :
    Says peerid
      (fun route known => if peerid ∈ peers ∧ route = fec then change known else known) lde
        (peers.foldl body lde) := by
  induction peers generalizing lde with
  | nil => exact (Mute.refl peerid lde).congr fun _ _ _ => by simp
  | cons other rest inductionHypothesis =>
    refine ((spoken lde other holds).trans
      (inductionHypothesis _ (kept lde other holds))).congr fun route _ known => ?_
    by_cases named : route = fec
    · by_cases here : other = peerid
      · by_cases later : peerid ∈ rest
        · simp [named, here, later, twice]
        · simp [named, here, later]
      · simp [named, here, Ne.symm here]
    · simp [named]

/-- The address families stay while mappings are sent. -/
theorem enabled_ldeSendLabelmapping (other : UInt32) (fec : Fec) (single : Bool) :
    (ldeSendLabelmapping lde other fec single).enabled peerid = lde.enabled peerid :=
  (says_ldeSendLabelmapping peerid lde other fec single).enabled

/-- All neighbors are told a label. -/
theorem says_offer (fec : Fec) :
    Says peerid
      (fun route known => if peerid ∈ lde.ldeNbrs ∧ route = fec then lde.offered peerid fec known
        else known)
      lde
      (lde.ldeNbrs.keys.foldl (fun lde other => ldeSendLabelmapping lde other fec true) lde) := by
  refine (Says.foldl_peers peerid fec (lde.offered peerid fec)
    (fun other : Lde => other.enabled peerid = lde.enabled peerid ∧
      (fec ∈ other.ft ↔ fec ∈ lde.ft) ∧ other.localLabel fec = lde.localLabel fec) ?_
    (lde.offered_offered peerid fec) ?_ lde.ldeNbrs.keys lde ⟨rfl, Iff.rfl, rfl⟩).congr ?_
  · rintro earlier other ⟨enabled, node, label⟩
    refine ⟨?_, ?_, ?_⟩
    · rw [enabled_ldeSendLabelmapping, enabled]
    · rw [mem_ldeSendLabelmapping, node]
    · rw [(Touched.ldeSendLabelmapping earlier other fec true).fecsKept.localLabel, label]
  · rintro earlier other ⟨enabled, node, label⟩
    refine (says_ldeSendLabelmapping peerid earlier other fec true).congr fun route _ known => ?_
    rw [Lde.offered_congr enabled node label]
  · exact fun route _ known => if_congr (and_congr_left fun _ => Std.ExtTreeMap.mem_keys) rfl rfl

/-- All neighbors are asked to forget a label. -/
theorem says_ldeSendLabelwithdrawAll (fec : Fec) (label : UInt32) :
    Says peerid
      (fun route known => if peerid ∈ lde.ldeNbrs ∧ route = fec then lde.retracted peerid fec known
        else known)
      lde (ldeSendLabelwithdrawAll lde fec label) := by
  refine (Says.foldl_peers peerid fec (lde.retracted peerid fec)
    (fun other : Lde => other.enabled peerid = lde.enabled peerid ∧
      (fec ∈ other.ft ↔ fec ∈ lde.ft) ∧ other.localLabel fec = lde.localLabel fec) ?_
    (lde.retracted_retracted peerid fec) ?_ lde.ldeNbrs.keys lde ⟨rfl, Iff.rfl, rfl⟩).congr ?_
  · rintro earlier other ⟨enabled, node, same⟩
    refine ⟨?_, ?_, ?_⟩
    · rw [(says_ldeSendLabelwithdraw peerid earlier other fec label none).enabled, enabled]
    · rw [mem_ldeSendLabelwithdraw, node]
    · rw [(Touched.ldeSendLabelwithdraw earlier other (some fec) label none).fecsKept.localLabel,
        same]
  · rintro earlier other ⟨enabled, node, same⟩
    refine (says_ldeSendLabelwithdraw peerid earlier other fec label none).congr
      fun route _ known => ?_
    rw [Lde.retracted_congr enabled node same]
  · exact fun route _ known => if_congr (and_congr_left fun _ => Std.ExtTreeMap.mem_keys) rfl rfl

/-- A loop over FECs that tells the labels that there are. -/
theorem says_snapLoop (other : UInt32) (body : Lde → Fec → Lde)
    (passes : ∀ later fec, later.localLabel fec = noLabel → body later fec = later)
    (tells : ∀ later fec, later.localLabel fec ≠ noLabel →
      body later fec = ldeSendLabelmapping later other fec false) (fecs : List Fec) (later : Lde)
    (enabled : later.enabled peerid = lde.enabled peerid)
    (node : ∀ fec, fec ∈ later.ft ↔ fec ∈ lde.ft)
    (label : ∀ fec, later.localLabel fec = lde.localLabel fec) :
    Says peerid
      (fun route known => if other = peerid ∧ route ∈ fecs ∧ lde.localLabel route ≠ noLabel
        then lde.offered peerid route known else known)
      later (fecs.foldl body later) := by
  induction fecs generalizing later with
  | nil => exact (Mute.refl peerid later).congr fun _ _ _ => by simp
  | cons fec rest inductionHypothesis =>
    rw [List.foldl_cons]
    by_cases unlabelled : lde.localLabel fec = noLabel
    · rw [passes later fec ((label fec).trans unlabelled)]
      refine (inductionHypothesis later enabled node label).congr fun route _ known => ?_
      refine if_congr ?_ rfl rfl
      rw [List.mem_cons]
      refine and_congr_right fun _ => and_congr_left fun labelled => (or_iff_right ?_).symm
      rintro rfl
      exact labelled unlabelled
    · rw [tells later fec fun none => unlabelled ((label fec).symm.trans none)]
      have next := inductionHypothesis (ldeSendLabelmapping later other fec false)
        ((enabled_ldeSendLabelmapping peerid later other fec false).trans enabled)
        (fun route => (mem_ldeSendLabelmapping later other fec route false).trans (node route))
        fun route => ((Touched.ldeSendLabelmapping later other fec
          false).fecsKept.localLabel route).trans (label route)
      refine ((says_ldeSendLabelmapping peerid later other fec false).trans next).congr
        fun route _ known => ?_
      by_cases mine : other = peerid
      · by_cases named : route = fec
        · subst named
          rw [Lde.offered_congr enabled (node route) (label route)]
          by_cases again : route ∈ rest
          · simp [mine, again, unlabelled, lde.offered_offered peerid]
          · simp [mine, again, unlabelled]
        · simp [mine, named]
      · simp [mine]

/-- A new neighbor is told all labels. -/
theorem says_fecSnap (other : UInt32) :
    Says peerid
      (fun route known => if other = peerid ∧ lde.localLabel route ≠ noLabel
        then lde.offered peerid route known else known)
      lde (fecSnap lde other) := by
  have ended (lde : Lde) : Mute peerid lde (lde.composeLdpe (.mappingAddEnd other)) :=
    .composeLdpe peerid lde fun _ _ _ => rfl
  refine ((says_snapLoop peerid lde other _ (fun later fec unlabelled => ?_)
    (fun later fec labelled => ?_) lde.ft.keys lde rfl (fun _ => Iff.rfl) fun _ => rfl).trans
      (ended _)).congr fun route _ known =>
        if_congr (and_congr_right fun _ => and_iff_right_of_imp fun labelled => ?_) rfl rfl
  · split
    · rename_i fn found
      rw [← later.localLabel_eq_of_node found, if_pos unlabelled]
    · rfl
  · split
    · rename_i fn found
      rw [← later.localLabel_eq_of_node found, if_neg labelled]
    · rename_i absent
      rw [Lde.localLabel, absent] at labelled
      exact absurd rfl labelled
  · rw [Std.ExtTreeMap.mem_keys]
    by_contra absent
    rw [Lde.localLabel, Std.ExtTreeMap.getElem?_eq_none absent] at labelled
    exact labelled rfl

/-- A request of another neighbor is answered to that neighbor. -/
theorem Mute.ldeCheckRequest (map : Map) {other : UInt32} (different : other ≠ peerid) :
    Mute peerid lde (ldeCheckRequest lde map other) := by
  have answered (fec : Fec) : Mute peerid lde
      (Ldpd.ldeSendLabelmapping (lde.updateNbr other fun ln =>
        { ln with recvReq := ln.recvReq.insert fec map.msgId }) other fec true) := by
    have noted : Mute peerid lde (lde.updateNbr other fun ln =>
        { ln with recvReq := ln.recvReq.insert fec map.msgId }) :=
      .updateNbr peerid lde other (fun _ => rfl) fun _ => rfl
    exact (Says.trans noted (says_ldeSendLabelmapping peerid _ other fec true)).congr
      fun route _ known => if_neg fun both => different both.1
  unfold Ldpd.ldeCheckRequest
  split
  · exact .refl peerid lde
  · rename_i ln _
    dsimp only
    repeat' split
    all_goals first
      | exact .ldeSendNotification peerid lde other _ _ _
      | exact .refl peerid lde
      | exact answered _

/-- A FEC that gets a label is offered to all neighbors. -/
theorem says_assignLocalLabel (fec : Fec) (connected : Bool) :
    Says peerid
      (fun route known => if peerid ∈ lde.ldeNbrs ∧ route = fec
        then (assignLocalLabel lde fec connected).offered peerid fec known else known)
      lde (assignLocalLabel lde fec connected) := by
  have offers (counted : Lde) (quiet : Mute peerid lde counted) (label : UInt32) : Says peerid
      (fun route known => if peerid ∈ lde.ldeNbrs ∧ route = fec then Lde.offered
        ((counted.updateNode fec fun fn => { fn with localLabel := label }).ldeNbrs.keys.foldl
          (fun lde other => ldeSendLabelmapping lde other fec true)
          (counted.updateNode fec fun fn => { fn with localLabel := label })) peerid fec known
        else known) lde
      ((counted.updateNode fec fun fn => { fn with localLabel := label }).ldeNbrs.keys.foldl
        (fun lde other => ldeSendLabelmapping lde other fec true)
        (counted.updateNode fec fun fn => { fn with localLabel := label })) := by
    have labelled := quiet.trans
      (.updateNode peerid counted fec fun fn => { fn with localLabel := label })
    generalize (counted.updateNode fec fun fn => { fn with localLabel := label }) = later
      at labelled
    have told := says_offer peerid later fec
    refine (Says.trans labelled told).congr fun route _ known => ?_
    have same := Lde.offered_congr told.enabled (mem_foldl_ldeSendLabelmapping fec fec true _ later)
      ((FecsKept.foldl_ldeSendLabelmapping later later.ldeNbrs.keys fec).localLabel fec) known
    exact if_congr (and_congr_left fun _ => labelled.mem) same.symm rfl
  unfold assignLocalLabel
  cases connected with
  | true =>
    simp only [if_true]
    cases egress : egressLabel lde fec with
    | none =>
      refine Says.congr (Mute.fail peerid lde .fatalx) fun route family known => ?_
      rw [if_neg]
      rintro ⟨-, rfl⟩
      obtain ⟨af, same⟩ := Option.ne_none_iff_exists'.mp family
      rw [egressLabel_eq lde same] at egress
      cases egress
    | some label => exact offers lde (.refl peerid lde) label
  | false =>
    have counted : Mute peerid lde (ldeAssignLabel lde).1 := .aside rfl rfl
    exact offers (ldeAssignLabel lde).1 counted (ldeAssignLabel lde).2

end Offers

end Ldpd
