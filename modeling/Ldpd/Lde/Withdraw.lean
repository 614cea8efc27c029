/-
This file shows what the label decision engine answers to a Label Withdraw: one Label
Release, except to a neighbor that is not the remote end of the pseudowire.
-/

import Ldpd.Lde.Request

namespace Ldpd

/-! ### Releases -/

/-- A withdraw of everything, of a route of a family that is enabled, or of a pseudowire with its
id. -/
def Map.withdraws (map : Map) (ln : LdeNbr) : Prop :=
  map.fec = .wildcard ∨ map.requests ln = true

/-- A release of what a withdraw names. -/
structure Map.Releases (release map : Map) (ln : LdeNbr) : Prop where
  wildcard : release.fec = .wildcard ↔ map.fec = .wildcard
  fec : ldeMap2fec release ln.id = ldeMap2fec map ln.id
  label : release.label = map.label

/-- The withdraw gets one release, and nothing else is sent to anybody. -/
def WithdrawReleased (lde : Lde) (peerid : UInt32) (ln : LdeNbr) (map : Map) : Prop :=
  ∃ release : Map, release.Releases map ln ∧
    Sent lde (dispatchWithdraw lde map peerid) [.releaseAdd peerid release, .releaseAddEnd peerid]

/-- The node of the FEC has a pseudowire, and the neighbor is its remote end. -/
def Lde.RemoteEnd (lde : Lde) (ln : LdeNbr) (fec : Fec) : Prop :=
  ∃ fn, lde.ft[fec]? = some fn ∧ ∃ pw, lde.pwOf fn = some pw ∧ pw.lsrId = ln.id

/-! ### Nothing else is sent -/

section Silent

variable (lde : Lde) (peerid label : UInt32) (fec : Fec)

theorem toLdpe_foldl {Item : Type} (body : Lde → Item → Lde)
    (keeps : ∀ lde item, (body lde item).toLdpe = lde.toLdpe) (items : List Item) :
    (items.foldl body lde).toLdpe = lde.toLdpe := by
  induction items generalizing lde with
  | nil => rfl
  | cons item rest inductionHypothesis =>
    rw [List.foldl_cons, inductionHypothesis, keeps]

theorem toLdpe_uninstallNexthops (test : FecNh → Bool) :
    (uninstallNexthops lde fec test).toLdpe = lde.toLdpe :=
  toLdpe_foldl lde (uninstallNexthop fec)
    (fun lde fnh => (kernelOnly_ldeSendDeleteKlabel lde fec fnh).toLdpe) _

theorem toLdpe_forgetMapping : (forgetMapping peerid label lde fec).toLdpe = lde.toLdpe := by
  rw [forgetMapping]
  split
  · rfl
  split
  · rfl
  · rfl

theorem toLdpe_withdrawFec (ln : LdeNbr) :
    (withdrawFec peerid ln label lde fec).toLdpe = lde.toLdpe := by
  rw [withdrawFec, toLdpe_forgetMapping, toLdpe_uninstallNexthops]

end Silent

/-! ### The answer to a withdraw -/

section Answering

variable {lde : Lde} {peerid : UInt32} {ln : LdeNbr} {map : Map}

/-- The state in which `lde_check_withdraw` sends its release. -/
def disused (lde : Lde) (ln : LdeNbr) (fec : Fec) : Lde :=
  let lde := fecAdd lde fec
  uninstallNexthops lde fec (withdrawsNexthop ln fec ((lde.ft[fec]?).bind FecNode.data).isSome)

theorem touched_disused (lde : Lde) (ln : LdeNbr) (fec : Fec) : Touched lde (disused lde ln fec) :=
  .trans (.fecAdd lde fec) (.uninstallNexthops _ fec _)

theorem node_disused (lde : Lde) (ln : LdeNbr) (fec : Fec) :
    ∃ fn, (disused lde ln fec).ft[fec]? = some fn := by
  refine (Tree.mem_iff_getElem? _ _).mp ((Touched.uninstallNexthops _ fec _).mem_ft ?_)
  rw [Tree.mem_iff_getElem?, getElem?_fecAdd, if_pos rfl]
  exact ⟨_, rfl⟩

theorem toLdpe_disused (lde : Lde) (ln : LdeNbr) (fec : Fec) :
    (disused lde ln fec).toLdpe = lde.toLdpe :=
  toLdpe_uninstallNexthops (fecAdd lde fec) fec _

theorem ldeNbrs_disused (lde : Lde) (ln : LdeNbr) (fec : Fec) :
    (disused lde ln fec).ldeNbrs = lde.ldeNbrs :=
  ldeNbrs_uninstallNexthops (fecAdd lde fec) fec _

/-- The withdraw of a FEC passes the check for group wildcards. -/
theorem ldeCheckWithdraw_eq (nbr : lde.ldeNbrs[peerid]? = some ln)
    (requests : map.requests ln = true) :
    ldeCheckWithdraw lde map peerid = forgetMapping peerid map.label
      (ldeSendLabelrelease (disused lde ln (ldeMap2fec map ln.id)) peerid
        (some (ldeMap2fec map ln.id)) map.label) (ldeMap2fec map ln.id) := by
  rw [ldeCheckWithdraw, nbr]
  dsimp only
  split
  · rename_i named flag
    rw [Map.requests, named] at requests
    exact absurd (flag.symm.trans requests) Bool.false_ne_true
  · rfl

/-- The label record of a FEC names the FEC. -/
theorem ldeMap2fec_composeLabelrecord (lde : Lde) (fn : FecNode) (label : UInt32) {fec : Fec}
    {id : InAddr} (ours : fec.Of id) :
    ldeMap2fec (composeLabelrecord lde fec fn label) id = fec := by
  cases fec with
  | ipv4 | ipv6 => rfl
  | pwid type pwid lsrId =>
    have same := ours type pwid lsrId rfl
    subst same
    rw [composeLabelrecord.eq_def]
    cases lde.pwOf fn with
    | none | some => rfl

theorem composeLabelrecord_ne_wildcard (lde : Lde) (fec : Fec) (fn : FecNode) (label : UInt32) :
    (composeLabelrecord lde fec fn label).fec ≠ .wildcard := by
  have named : (composeLabelrecord lde fec fn label).fec = (ldeFec2map fec).fec := by
    rw [composeLabelrecord.eq_def]
    split
    · rfl
    · rfl
  rw [named]
  cases fec with
  | ipv4 | ipv6 | pwid => exact fun same => by cases same

theorem label_composeLabelrecord (lde : Lde) (fec : Fec) (fn : FecNode) (label : UInt32) :
    (composeLabelrecord lde fec fn label).label = label := by
  rw [composeLabelrecord.eq_def]
  split
  · rfl
  · rfl

theorem releases_composeLabelrecord (lde : Lde) (fn : FecNode) (named : map.fec ≠ .wildcard) :
    (composeLabelrecord lde (ldeMap2fec map ln.id) fn map.label).Releases map ln where
  wildcard := iff_of_false (composeLabelrecord_ne_wildcard lde _ fn map.label) named
  fec := ldeMap2fec_composeLabelrecord lde fn map.label (Fec.of_ldeMap2fec map ln.id)
  label := label_composeLabelrecord lde _ fn map.label

/-- The remote end of the pseudowire of a FEC. -/
def Lde.lsrIdOf (lde : Lde) (fec : Fec) : Option InAddr :=
  ((lde.data fec).bind fun data => lde.pws[data]?).map L2vpnPw.lsrId

theorem FecsKept.lsrIdOf {lde' : Lde} (kept : FecsKept lde lde') (fec : Fec) :
    lde'.lsrIdOf fec = lde.lsrIdOf fec := by
  rw [Lde.lsrIdOf, Lde.lsrIdOf, kept.data]
  cases lde.data fec with
  | none => rfl
  | some data =>
    have same := congrArg (Option.map PwConf.lsrId) (kept.pws data)
    rw [Option.map_map, Option.map_map] at same
    exact same

theorem lsrIdOf_of_node {fec : Fec} {fn : FecNode} (node : lde.ft[fec]? = some fn) :
    lde.lsrIdOf fec = (lde.pwOf fn).map L2vpnPw.lsrId := by
  rw [Lde.lsrIdOf, lde.data_eq_of_node node]
  rfl

theorem remoteEnd_iff (fec : Fec) : lde.RemoteEnd ln fec ↔ lde.lsrIdOf fec = some ln.id := by
  cases node : lde.ft[fec]? with
  | none =>
    rw [Lde.lsrIdOf, Lde.data, node]
    refine iff_of_false ?_ (Option.some_ne_none ln.id).symm
    rintro ⟨fn, found, -⟩
    exact Option.some_ne_none fn (found.symm.trans node)
  | some fn =>
    rw [lsrIdOf_of_node node, Option.map_eq_some_iff]
    refine ⟨?_, fun remote => ⟨fn, node, remote⟩⟩
    rintro ⟨_, found, remote⟩
    cases node.symm.trans found
    exact remote

/-- A neighbor is a peer for the FEC of a pseudowire if it is the remote end. -/
theorem labelPeer_iff_lsrIdOf {fec : Fec} {fn : FecNode} (node : lde.ft[fec]? = some fn)
    (pseudowire : fec.af = none) :
    labelPeer lde ln fn fec = true ↔ lde.lsrIdOf fec = some ln.id := by
  cases fec with
  | ipv4 | ipv6 => cases pseudowire
  | pwid type pwid lsrId =>
    rw [lsrIdOf_of_node node, labelPeer]
    cases lde.pwOf fn with
    | none => exact iff_of_false Bool.false_ne_true (Option.some_ne_none ln.id).symm
    | some pw => rw [decide_eq_true_iff, Option.map_some, Option.some_inj]

/-- What `lde_check_withdraw` sends is decided by its sender of releases. -/
theorem sent_ldeCheckWithdraw (nbr : lde.ldeNbrs[peerid]? = some ln) (named : map.fec ≠ .wildcard)
    (requests : map.requests ln = true) {fn : FecNode}
    (node : (disused lde ln (ldeMap2fec map ln.id)).ft[ldeMap2fec map ln.id]? = some fn) :
    Sent lde (dispatchWithdraw lde map peerid)
      (if labelPeer (disused lde ln (ldeMap2fec map ln.id)) ln fn (ldeMap2fec map ln.id) then
        [.releaseAdd peerid (composeLabelrecord (disused lde ln (ldeMap2fec map ln.id))
          (ldeMap2fec map ln.id) fn map.label), .releaseAddEnd peerid]
      else []) := by
  rw [Sent, dispatchWithdraw, if_neg named, ldeCheckWithdraw_eq nbr requests, toLdpe_forgetMapping,
    ldeSendLabelrelease, ldeNbrs_disused, nbr, node]
  dsimp only
  split
  · show ((disused lde ln (ldeMap2fec map ln.id)).toLdpe ++ _) ++ _ = _
    rw [toLdpe_disused, List.append_assoc]
    rfl
  · rw [toLdpe_disused, List.append_nil]

theorem labelPeer_of_enabled (fn : FecNode) {fec : Fec} (enabled : ln.enabled fec = true) :
    labelPeer lde ln fn fec = true := by
  cases fec with
  | ipv4 | ipv6 => exact enabled
  | pwid => cases enabled

/-- A withdraw of a route whose family is enabled is released. -/
theorem released_of_enabled (nbr : lde.ldeNbrs[peerid]? = some ln) (named : map.fec ≠ .wildcard)
    (requests : map.requests ln = true) (enabled : ln.enabled (ldeMap2fec map ln.id) = true) :
    WithdrawReleased lde peerid ln map := by
  obtain ⟨fn, node⟩ := node_disused lde ln (ldeMap2fec map ln.id)
  have sent := sent_ldeCheckWithdraw nbr named requests node
  rw [if_pos (labelPeer_of_enabled fn enabled)] at sent
  exact ⟨_, releases_composeLabelrecord _ fn named, sent⟩

/-- A wildcard is released before any FEC is looked at. -/
theorem released_wildcard (nbr : lde.ldeNbrs[peerid]? = some ln) (wildcard : map.fec = .wildcard) :
    WithdrawReleased lde peerid ln map := by
  refine ⟨{ fec := .wildcard, label := map.label }, ⟨iff_of_true rfl wildcard, ?_, rfl⟩, ?_⟩
  · rw [ldeMap2fec, ldeMap2fec, wildcard]
  · rw [Sent, dispatchWithdraw, if_pos wildcard, ldeCheckWithdrawWcard, nbr]
    dsimp only
    rw [toLdpe_foldl _ _ fun lde fec => toLdpe_withdrawFec lde peerid map.label fec ln]
    exact List.append_assoc _ _ _

/-- A withdraw of a pseudowire is released to the remote end, and only to it. -/
theorem released_pwid (nbr : lde.ldeNbrs[peerid]? = some ln) (named : map.fec ≠ .wildcard)
    (requests : map.requests ln = true) (pseudowire : (ldeMap2fec map ln.id).af = none) :
    (lde.RemoteEnd ln (ldeMap2fec map ln.id) → WithdrawReleased lde peerid ln map) ∧
    (¬lde.RemoteEnd ln (ldeMap2fec map ln.id) →
      Sent lde (dispatchWithdraw lde map peerid) []) := by
  obtain ⟨fn, node⟩ := node_disused lde ln (ldeMap2fec map ln.id)
  have sent := sent_ldeCheckWithdraw nbr named requests node
  have kept := (touched_disused lde ln (ldeMap2fec map ln.id)).fecsKept.lsrIdOf
    (ldeMap2fec map ln.id)
  have peer := (@labelPeer_iff_lsrIdOf _ ln _ _ node pseudowire).trans (by
    rw [kept, ← remoteEnd_iff])
  refine ⟨fun remote => ?_, fun other => ?_⟩
  · rw [if_pos (peer.mpr remote)] at sent
    exact ⟨_, releases_composeLabelrecord _ fn named, sent⟩
  · rw [if_neg (mt peer.mp other)] at sent
    exact sent

end Answering

/-- In every state a withdraw gets one release with its FEC and its label, and nobody else gets
anything, except that a withdraw of a pseudowire whose remote end is not the neighbor gets none. -/
theorem withdraw_released {lde : Lde} {peerid : UInt32} {ln : LdeNbr}
    (nbr : lde.ldeNbrs[peerid]? = some ln) {map : Map} (withdraws : map.withdraws ln) :
    ((map.fec = .wildcard ∨ (ldeMap2fec map ln.id).af ≠ none ∨
        lde.RemoteEnd ln (ldeMap2fec map ln.id)) → WithdrawReleased lde peerid ln map) ∧
    ((ldeMap2fec map ln.id).af = none → ¬lde.RemoteEnd ln (ldeMap2fec map ln.id) →
      Sent lde (dispatchWithdraw lde map peerid) []) := by
  by_cases wildcard : map.fec = .wildcard
  · refine ⟨fun _ => released_wildcard nbr wildcard, fun pseudowire => ?_⟩
    rw [ldeMap2fec, wildcard] at pseudowire
    cases pseudowire
  have requests := withdraws.resolve_left wildcard
  rcases map.requests_cases requests with enabled | ⟨type, pwid, named⟩
  · exact ⟨fun _ => released_of_enabled nbr wildcard requests enabled,
      fun pseudowire => absurd pseudowire (enabled_af enabled)⟩
  · have pseudowire : (ldeMap2fec map ln.id).af = none := congrArg Fec.af named
    obtain ⟨released, silent⟩ := released_pwid nbr wildcard requests pseudowire
    refine ⟨fun either => released ?_, fun _ => silent⟩
    exact (either.resolve_left wildcard).resolve_left fun family => family pseudowire

/-! ### A withdraw of a pseudowire that is configured, and of one that is not -/

/-- A withdraw of the pseudowire of `servedWire`. -/
def wireWithdraw : Map where
  fec := .pwid 5 100 0 0
  label := 16
  flags := { pwId := true }

/-- A withdraw of a pseudowire nobody has configured. -/
def strayWithdraw : Map where
  fec := .pwid 5 101 0 0
  label := 16
  flags := { pwId := true }

/-- The withdraw of the configured pseudowire is released to its remote end. -/
theorem withdraw_released_wire :
    ∃ ln, (served.foldl ldeInput (Lde.start {})).ldeNbrs[(1 : UInt32)]? = some ln ∧
      WithdrawReleased (served.foldl ldeInput (Lde.start {})) 1 ln wireWithdraw := by
  obtain ⟨ln, nbr, id⟩ := Option.map_eq_some_iff.mp (show
    (served.foldl ldeInput (Lde.start {})).ldeNbrs[(1 : UInt32)]?.map LdeNbr.id = some 0x0a000002 by
      decide +kernel)
  have named : ldeMap2fec wireWithdraw ln.id = .pwid 5 100 0x0a000002 := by
    rw [id]
    rfl
  have remote : (served.foldl ldeInput (Lde.start {})).RemoteEnd ln
      (ldeMap2fec wireWithdraw ln.id) := by
    rw [remoteEnd_iff, named, id]
    decide +kernel
  exact ⟨ln, nbr, (withdraw_released nbr (Or.inr rfl)).1 (Or.inr (Or.inr remote))⟩

/-- The withdraw of the other one is not released at all. -/
theorem stray_withdraw_not_released :
    ∃ ln, (served.foldl ldeInput (Lde.start {})).ldeNbrs[(1 : UInt32)]? = some ln ∧
      strayWithdraw.withdraws ln ∧
      ¬WithdrawReleased (served.foldl ldeInput (Lde.start {})) 1 ln strayWithdraw := by
  have silent : (dispatchWithdraw (served.foldl ldeInput (Lde.start {})) strayWithdraw 1).toLdpe =
      (served.foldl ldeInput (Lde.start {})).toLdpe := by
    decide +kernel
  obtain ⟨ln, nbr, -⟩ := Option.map_eq_some_iff.mp (show
    (served.foldl ldeInput (Lde.start {})).ldeNbrs[(1 : UInt32)]?.map LdeNbr.id = some 0x0a000002 by
      decide +kernel)
  refine ⟨ln, nbr, Or.inr rfl, ?_⟩
  rintro ⟨release, -, sent⟩
  rw [Sent, silent, List.self_eq_append_right] at sent
  cases sent

end Ldpd
