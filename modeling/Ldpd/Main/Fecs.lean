/-
This file is about the FECs of the pseudowires of an accepted configuration. The action
after the block of a pseudowire looks for another one with the same ids and the same
family. It does so before it fills in the family of a pseudowire without an address, so a
pseudowire that has none is never found to be the same as another.
-/

import Ldpd.Main.Keys

namespace Ldpd

/-! ### Pseudowires -/

/-- The family of the neighbor address that a pseudowire ends up with. -/
def ParsePw.family (pw : ParsePw) : Af :=
  (pw.given.map LdpdAddr.af).getD .inet

/-- The check of a pseudowire can find an earlier one: the file gives it a neighbor address, and one of
the family that the earlier one has ended up with. -/
def ParsePw.Checked (later earlier : ParsePw) : Prop :=
  later.given.map LdpdAddr.af = some earlier.family

/-- The block of the pseudowire has ended: the default of its address is filled in. -/
def ParsePw.Finished (pw : ParsePw) : Prop :=
  pw.addr = some (pw.given.getD (.v4 pw.lsrId))

/-- Pseudowires that have passed the check, the last first. -/
structure Passed (pws : List ParsePw) : Prop where
  finished : ∀ pw ∈ pws, pw.Finished
  evades : pws.Pairwise fun later earlier =>
    later.pwid = earlier.pwid → later.lsrId = earlier.lsrId → ¬later.Checked earlier

/-- The L2VPNs between two actions: the last one is the one whose block is parsed, and its last
pseudowire the one whose block is parsed. -/
structure VpnsAt (level : Level) (s : Statics) : Prop where
  checked : s.keys.Checked
  inside : level = .l2vpn ∨ level = .pseudowire →
    ∃ l2vpn rest, s.l2vpns = l2vpn :: rest ∧ s.l2vpn = some l2vpn.pointer
  passed : level ≠ .pseudowire → Passed (Parse.allPws s)
  parsed : level = .pseudowire → ∃ pw pws, Parse.allPws s = pw :: pws ∧ s.pw = some pw.ifindex ∧
    pw.addr = pw.given ∧ Passed pws

variable {s : Statics} {action : Action} {level level' : Level}

theorem map_af_of_finished {pw : ParsePw} (finished : pw.Finished) :
    pw.addr.map LdpdAddr.af = some pw.family := by
  rw [finished, ParsePw.family]
  cases pw.given with
  | none => rfl
  | some addr => rfl

/-- The actions on L2VPNs and pseudowires. -/
def Action.OnVpns : Action → Prop
  | .beginL2vpn _ | .changeL2vpn _ | .addL2vpnIf _ | .endL2vpn | .beginPw _ | .changePw _
  | .endPw => True
  | _ => False

theorem vpns_change (other : ¬action.OnVpns) (s : Statics) :
    (action.change s).l2vpns = s.l2vpns ∧ (action.change s).l2vpn = s.l2vpn ∧
      (action.change s).pw = s.pw := by
  cases action with
  | beginL2vpn | changeL2vpn | addL2vpnIf | endL2vpn | beginPw | changePw | endPw =>
    exact absurd trivial other
  | put setting =>
    rw [Action.change, Statics.put, Statics.setCurrent]
    cases s.defs <;> exact ⟨rfl, rfl, rfl⟩
  | enterInterface kif af =>
    rw [Action.change, Parse.addIface]
    split <;> exact ⟨rfl, rfl, rfl⟩
  | _ => exact ⟨rfl, rfl, rfl⟩

theorem goes_other (other : ¬action.OnVpns) (goes : action.Goes level level') :
    (level = .l2vpn ↔ level' = .l2vpn) ∧ (level = .pseudowire ↔ level' = .pseudowire) := by
  cases goes with
  | beginL2vpn | changeL2vpn | addL2vpnIf | endL2vpn | beginPw | changePw | endPw =>
    exact absurd trivial other
  | put => exact ⟨Iff.rfl, Iff.rfl⟩
  | _ => decide

theorem changeL2vpn_eq {change : ParseL2vpn → ParseL2vpn} (checked : s.keys.Checked)
    {l2vpn : ParseL2vpn} {rest : List ParseL2vpn} (l2vpns : s.l2vpns = l2vpn :: rest)
    (current : s.l2vpn = some l2vpn.pointer) :
    (Parse.changeL2vpn change s).l2vpns = change l2vpn :: rest := by
  have distinct := checked.pairwise_pointer
  rw [l2vpns] at distinct
  rw [Parse.changeL2vpn, l2vpns, List.map_cons, if_pos current]
  refine congrArg _ ((List.map_congr_left fun other member => ?_).trans (List.map_id rest))
  exact if_neg fun same => (List.pairwise_cons.mp distinct).1 other member ⟨current, same⟩

theorem allPws_congr {s' : Statics} (same : s'.l2vpns = s.l2vpns) :
    Parse.allPws s' = Parse.allPws s := by
  rw [Parse.allPws, Parse.allPws, same]

theorem allPws_changeL2vpn {change : ParseL2vpn → ParseL2vpn}
    (same : ∀ l2vpn, (change l2vpn).pwList = l2vpn.pwList) (s : Statics) :
    Parse.allPws (Parse.changeL2vpn change s) = Parse.allPws s :=
  flatMap_change same

/-- A new pseudowire comes first. -/
theorem allPws_addPw (checked : s.keys.Checked) {l2vpn : ParseL2vpn} {rest : List ParseL2vpn}
    (l2vpns : s.l2vpns = l2vpn :: rest) (current : s.l2vpn = some l2vpn.pointer) (kif : ParseKif) :
    Parse.allPws (Parse.addPw kif s) =
      { ifname := kif.ifname, ifindex := kif.ifindex.toUInt32 } :: Parse.allPws s := by
  rw [Parse.allPws, Parse.addPw, changeL2vpn_eq checked l2vpns current, Parse.allPws, l2vpns]
  rfl

theorem allPws_changePw (change : ParsePw → ParsePw) (s : Statics) :
    Parse.allPws (Parse.changePw change s) =
      (Parse.allPws s).map fun pw => if s.pw = some pw.ifindex then change pw else pw := by
  rw [Parse.allPws, Parse.changePw, Parse.allPws, List.flatMap_map, List.map_flatMap]

theorem ifindex_ne (checked : s.keys.Checked) {pw : ParsePw} {pws : List ParsePw}
    (last : Parse.allPws s = pw :: pws) : ∀ other ∈ pws, pw.ifindex ≠ other.ifindex := by
  have distinct : ((Parse.allPws s).map ParsePw.ifindex).Nodup := by
    rw [Parse.allPws, List.map_flatMap]
    exact checked.pws
  rw [last, List.map_cons, List.nodup_cons] at distinct
  exact fun other member same => distinct.1 (List.mem_map.mpr ⟨other, member, same.symm⟩)

/-- Only the last pseudowire is changed while its block is parsed. -/
theorem allPws_changeLast (checked : s.keys.Checked) {pw : ParsePw} {pws : List ParsePw}
    (last : Parse.allPws s = pw :: pws) (current : s.pw = some pw.ifindex)
    (change : ParsePw → ParsePw) :
    Parse.allPws (Parse.changePw change s) = change pw :: pws := by
  rw [allPws_changePw, last, List.map_cons, if_pos current]
  refine congrArg _ ((List.map_congr_left fun other member => ?_).trans (List.map_id pws))
  refine if_neg fun same => ifindex_ne checked last other member ?_
  rw [current] at same
  exact Option.some.inj same

theorem inside_changePw {l2vpn : ParseL2vpn} {rest : List ParseL2vpn}
    (l2vpns : s.l2vpns = l2vpn :: rest) (current : s.l2vpn = some l2vpn.pointer)
    (change : ParsePw → ParsePw) :
    ∃ l2vpn rest, (Parse.changePw change s).l2vpns = l2vpn :: rest ∧
      s.l2vpn = some l2vpn.pointer := by
  rw [Parse.changePw, l2vpns, List.map_cons]
  exact ⟨_, _, rfl, current⟩

theorem VpnsAt.keep (at' : VpnsAt level s) {s' : Statics} (checked : s'.keys.Checked)
    (l2vpns : s'.l2vpns = s.l2vpns) (l2vpn : s'.l2vpn = s.l2vpn) (pw : s'.pw = s.pw)
    (vpn : level' = .l2vpn → level = .l2vpn) (pseudowire : level = .pseudowire ↔ level' = .pseudowire) :
    VpnsAt level' s' := by
  refine ⟨checked, ?_, ?_, ?_⟩
  · rw [l2vpns, l2vpn]
    exact fun place => at'.inside (place.imp vpn pseudowire.mpr)
  · rw [allPws_congr l2vpns]
    exact fun place => at'.passed (place ∘ pseudowire.mp)
  · rw [allPws_congr l2vpns, pw]
    exact fun place => at'.parsed (pseudowire.mpr place)

/-- What the check at the end of a pseudowire comes to. -/
theorem Passed.cons {pw : ParsePw} {pws : List ParsePw} (passed : Passed pws)
    (unfilled : pw.addr = pw.given)
    (unlike : ∀ other ∈ pws, pw.ifindex ≠ other.ifindex ∧ Parse.samePw pw other = false)
    (flags : PwFlags) :
    Passed ({ pw with addr := some (pw.addr.getD (.v4 pw.lsrId)), flags } :: pws) := by
  refine ⟨fun other member => ?_, List.pairwise_cons.mpr ⟨fun other member pwid lsrId => ?_,
    passed.evades⟩⟩
  · rcases List.mem_cons.mp member with rfl | member
    · rw [ParsePw.Finished, unfilled]
    · exact passed.finished other member
  · intro family
    obtain ⟨ifindex, same⟩ := unlike other member
    rw [ParsePw.Checked, ← map_af_of_finished (passed.finished other member)] at family
    have alike : Parse.samePw pw other = true := by
      rw [Parse.samePw, unfilled, Bool.and_eq_true, Bool.and_eq_true, Bool.and_eq_true]
      exact ⟨⟨⟨bne_iff_ne.mpr ifindex, beq_iff_eq.mpr pwid⟩, decide_eq_true family⟩,
        beq_iff_eq.mpr lsrId⟩
    rw [alike] at same
    cases same

/-- The action after the block of a pseudowire. -/
theorem VpnsAt.endPw (at' : VpnsAt .pseudowire s) (allowed : Action.endPw.Allowed s) :
    VpnsAt .l2vpn (Action.endPw.change s) := by
  have checked := checked_change at'.checked allowed
  obtain ⟨l2vpn, rest, l2vpns, current⟩ := at'.inside (.inr rfl)
  obtain ⟨pw, pws, last, pointer, unfilled, passed⟩ := at'.parsed rfl
  obtain ⟨found, member, points, -, -, unlike⟩ := allowed
  have distinct := ifindex_ne at'.checked last
  have same : found = pw := by
    rw [last] at member
    rcases List.mem_cons.mp member with same | member
    · exact same
    · refine absurd ?_ (distinct found member)
      rw [pointer] at points
      exact Option.some.inj points
  subst same
  refine ⟨checked, fun _ => inside_changePw l2vpns current _, fun _ => ?_, fun place => by cases place⟩
  have filled := allPws_changeLast at'.checked last pointer fun pw =>
    { pw with addr := some (pw.addr.getD (.v4 pw.lsrId)), flags := s.current.pwflags }
  show Passed (Parse.allPws (Parse.changePw (fun pw =>
    { pw with addr := some (pw.addr.getD (.v4 pw.lsrId)), flags := s.current.pwflags }) s))
  rw [filled]
  refine passed.cons unfilled (fun other there => ⟨distinct other there, ?_⟩) _
  exact unlike other (last ▸ List.mem_cons_of_mem _ there)

theorem vpnsAt_change (at' : VpnsAt level s) (goes : action.Goes level level')
    (allowed : action.Allowed s) : VpnsAt level' (action.change s) := by
  have checked := checked_change at'.checked allowed
  by_cases other : action.OnVpns
  · cases goes with
    | beginL2vpn name =>
      refine ⟨checked, fun _ => ⟨_, _, rfl, rfl⟩, fun _ => ?_, fun place => by cases place⟩
      exact at'.passed (by decide)
    | changeL2vpn change =>
      obtain ⟨l2vpn, rest, l2vpns, current⟩ := at'.inside (.inl rfl)
      refine ⟨checked, fun _ => ⟨_, _, changeL2vpn_eq at'.checked l2vpns current, ?_⟩, fun _ => ?_,
        fun place => by cases place⟩
      · rw [(allowed l2vpn).1]
        exact current
      · show Passed (Parse.allPws (Parse.changeL2vpn change s))
        rw [allPws_changeL2vpn fun l2vpn => (allowed l2vpn).2.2.2.2.1]
        exact at'.passed (by decide)
    | addL2vpnIf kif =>
      obtain ⟨l2vpn, rest, l2vpns, current⟩ := at'.inside (.inl rfl)
      refine ⟨checked, fun _ => ⟨_, _, changeL2vpn_eq at'.checked l2vpns current, current⟩,
        fun _ => ?_, fun place => by cases place⟩
      have pws : Parse.allPws (Parse.addL2vpnIf kif s) = Parse.allPws s := by
        refine allPws_changeL2vpn ?_ s
        exact fun l2vpn => rfl
      show Passed (Parse.allPws (Parse.addL2vpnIf kif s))
      rw [pws]
      exact at'.passed (by decide)
    | endL2vpn =>
      exact ⟨checked, fun place => (by rcases place with place | place <;> cases place),
        fun _ => at'.passed (by decide), fun place => by cases place⟩
    | beginPw kif =>
      obtain ⟨l2vpn, rest, l2vpns, current⟩ := at'.inside (.inl rfl)
      refine ⟨checked, fun _ => ⟨_, _, changeL2vpn_eq at'.checked l2vpns current, current⟩,
        fun place => absurd rfl place,
        fun _ => ⟨{ ifname := kif.ifname, ifindex := kif.ifindex.toUInt32 }, Parse.allPws s, ?_, rfl,
          rfl, at'.passed (by decide)⟩⟩
      exact allPws_addPw at'.checked l2vpns current kif
    | changePw change =>
      obtain ⟨l2vpn, rest, l2vpns, current⟩ := at'.inside (.inr rfl)
      obtain ⟨pw, pws, last, pointer, unfilled, passed⟩ := at'.parsed rfl
      refine ⟨checked, fun _ => inside_changePw l2vpns current change, fun place => absurd rfl place,
        fun _ => ⟨change pw, pws, allPws_changeLast at'.checked last pointer change, ?_,
          (allowed pw).2 unfilled, passed⟩⟩
      rw [(allowed pw).1]
      exact pointer
    | endPw => exact at'.endPw allowed
    | _ => exact other.elim
  · obtain ⟨l2vpns, l2vpn, pw⟩ := vpns_change other s
    obtain ⟨vpn, pseudowire⟩ := goes_other other goes
    exact at'.keep checked l2vpns l2vpn pw vpn.mpr pseudowire

/-! ### Accepted configurations -/

theorem sound_vpnsAt : Sound VpnsAt where
  reading at' _ _ := ⟨at'.checked, at'.inside, at'.passed, at'.parsed⟩
  acts at' goes allowed := vpnsAt_change at' goes allowed

theorem vpnsAt_opens (s : Statics) (file : ParseFile) : VpnsAt .top (s.opens file) where
  checked := checked_opens s file
  inside := fun place => by rcases place with place | place <;> cases place
  passed := fun _ => ⟨fun pw member => (by cases member), .nil⟩
  parsed := fun place => by cases place

/-- `l2vpn_pw_fec`. -/
def ConfL2vpn.pwFec (l2vpn : ConfL2vpn) (pw : ConfPw) : Fec :=
  .pwid (.ofNat l2vpn.pwType.toNat) pw.pwid pw.lsrId

variable {s' : Statics} {macros : List (String × String)} {host : ParseHost} {fuel : Nat}
  {filename : String} {result : Option LdpdConf} {conf : LdpdConf}

end Ldpd
