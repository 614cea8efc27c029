/-
This file is the abstract machine of the label decision engine and the proof that
the engine refines it: what one event does to the bindings is one step of the
machine. The machine says what the engine is for. It keeps the nexthops of the
routes and pseudowires, learns and gives up labels, and lets addresses and
neighbors come and go; everything else the engine does is invisible.
-/

import Ldpd.Lde.WellFormed
import Ldpd.Lde.Step

namespace Ldpd

/-! ### The abstract machine -/

/-- A nexthop with an address and a priority is listed. -/
def Bindings.Lists (b : Bindings) (fec : Fec) (nexthop : LdpdAddr) (priority : UInt8) : Prop :=
  ∃ fnh ∈ b.nexthops fec, fnh.nexthop = nexthop ∧ fnh.priority = priority

/-- What an insertion does. The FEC has the local label given from then on. A new nexthop gets
the label that its neighbor has sent for the FEC, if it has one. Only one neighbor is asked, and
for a pseudowire the negotiation may ignore what it has sent. -/
inductive Bindings.Insert (b : Bindings) (fec : Fec) (nexthop : LdpdAddr) (priority : UInt8)
    (data : Option Nat) (label : UInt32) : Bindings → Prop where
  | listed (known : b.Lists fec nexthop priority) : b.Insert fec nexthop priority data label b
  | unowned (fresh : ¬b.Lists fec nexthop priority)
      (strange : ∀ peerid ln, b.nbr peerid = some ln →
        ln.owns fec (newNexthop nexthop priority) = false) :
      b.Insert fec nexthop priority data label (b.addNexthop fec nexthop priority data label)
  | unmapped (fresh : ¬b.Lists fec nexthop priority) (peerid : UInt32) (ln : NbrView)
      (found : b.nbr peerid = some ln) (owned : ln.owns fec (newNexthop nexthop priority) = true)
      (unrecorded : ln.recvMap[fec]? = none) :
      b.Insert fec nexthop priority data label (b.addNexthop fec nexthop priority data label)
  | ignored (fresh : ¬b.Lists fec nexthop priority) (peerid : UInt32) (ln : NbrView) (me : Map)
      (found : b.nbr peerid = some ln) (recorded : ln.recvMap[fec]? = some me)
      (pseudowire : (ldeMap2fec me ln.id).af = none) :
      b.Insert fec nexthop priority data label (b.addNexthop fec nexthop priority data label)
  | mapped (fresh : ¬b.Lists fec nexthop priority) (peerid : UInt32) (ln : NbrView) (me : Map)
      (found : b.nbr peerid = some ln) (owned : ln.owns fec (newNexthop nexthop priority) = true)
      (recorded : ln.recvMap[fec]? = some me) :
      b.Insert fec nexthop priority data label
        ((b.addNexthop fec nexthop priority data label).learn peerid ln (ldeMap2fec me ln.id) me)

/-- What a removal does. -/
inductive Bindings.Remove (b : Bindings) (fec : Fec) (nexthop : LdpdAddr) (priority : UInt8) :
    Bindings → Prop where
  | unlisted (unknown : ¬b.Lists fec nexthop priority) : b.Remove fec nexthop priority b
  | listed (fnh : FecNh) (member : fnh ∈ b.nexthops fec)
      (key : fnh.nexthop = nexthop ∧ fnh.priority = priority) :
      b.Remove fec nexthop priority (b.removeNexthop fec fnh)

/-- A label that a FEC may have after a nexthop is added. -/
def Bindings.MayLabel (b : Bindings) (fec : Fec) (label : UInt32) : Prop :=
  b.localLabel fec ≠ noLabel → label = b.localLabel fec

/-- A pseudowire comes or goes. -/
def Bindings.setPw (b : Bindings) (data : Nat) (fec : Option Fec) : Bindings :=
  { b with pwFec := Function.update b.pwFec data fec }

/-- A wildcard withdraw gives up one mapping after another. -/
def Bindings.unlearnAll (b : Bindings) (peerid : UInt32) (ln : NbrView) (label : UInt32)
    (fecs : List Fec) : Bindings :=
  fecs.foldl (fun b fec => b.unlearn peerid ln fec label) b

/-- The FECs of a list are all that have nexthops. -/
def Bindings.Covers (b : Bindings) (fecs : List Fec) : Prop :=
  ∀ fec, b.nexthops fec ≠ [] → fec ∈ fecs

/-- What one event does to the bindings. -/
inductive Bindings.Step (b : Bindings) : LdeEvent → Bindings → Prop where
  | invisible (event : LdeEvent) : b.Step event b
  | networkAdd (kr : RouteMsg) (label : UInt32) (may : b.MayLabel kr.fec label) (b' : Bindings)
      (inserted : b.Insert kr.fec kr.nexthop kr.priority none label b') :
      b.Step (.networkAdd kr) b'
  | networkDel (kr : RouteMsg) (b' : Bindings)
      (removed : b.Remove kr.fec kr.nexthop kr.priority b') : b.Step (.networkDel kr) b'
  | learn (peerid : UInt32) (ln : NbrView) (map : Map) (found : b.nbr peerid = some ln) :
      b.Step (.labelMapping peerid map) (b.learn peerid ln (ldeMap2fec map ln.id) map)
  | unlearn (peerid : UInt32) (ln : NbrView) (map : Map) (found : b.nbr peerid = some ln)
      (specific : map.fec ≠ .wildcard) :
      b.Step (.labelWithdraw peerid map) (b.unlearn peerid ln (ldeMap2fec map ln.id) map.label)
  | unlearnAll (peerid : UInt32) (ln : NbrView) (map : Map) (found : b.nbr peerid = some ln)
      (wildcard : map.fec = .wildcard) (fecs : List Fec) (covers : b.Covers fecs) :
      b.Step (.labelWithdraw peerid map) (b.unlearnAll peerid ln map.label fecs)
  | addressAdd (peerid : UInt32) (ln : NbrView) (addr : LdpdAddr) (found : b.nbr peerid = some ln)
      (fresh : addr ∉ ln.addrList) :
      b.Step (.addressAdd peerid addr)
        ((b.updateNbr peerid (NbrView.readdress (· ++ [addr]))).relabel
          (fun fec fnh => decide (fec ∈ ln.recvMap) && atAddress addr fec fnh) (ln.labelOf false))
  | addressDel (peerid : UInt32) (ln : NbrView) (addr : LdpdAddr) (found : b.nbr peerid = some ln)
      (known : addr ∈ ln.addrList) :
      b.Step (.addressDel peerid addr)
        ((b.relabel (fun fec fnh => decide (fec ∈ ln.recvMap) && atAddress addr fec fnh)
          fun _ => noLabel).updateNbr peerid (NbrView.readdress (·.erase addr)))
  | neighborUp (peerid : UInt32) (id : InAddr) (v4Enabled v6Enabled : Bool)
      (fresh : b.nbr peerid = none) :
      b.Step (.neighborUp peerid id v4Enabled v6Enabled)
        (b.setNbr peerid (some { id, addrList := [], recvMap := ∅ }))
  | neighborDown (peerid : UInt32) (ln : NbrView) (found : b.nbr peerid = some ln) :
      b.Step (.neighborDown peerid) ((b.relabel ln.owns fun _ => noLabel).setNbr peerid none)
  | pwNew (data : Nat) (conf : PwConf) (pwType : UInt16) (fresh : b.pwFec data = none)
      (label : UInt32) (may : b.MayLabel (.pwid pwType conf.pwid conf.lsrId) label) (b' : Bindings)
      (inserted : (b.setPw data (some (.pwid pwType conf.pwid conf.lsrId))).Insert
        (.pwid pwType conf.pwid conf.lsrId) (.v4 conf.lsrId) 0 (some data) label b') :
      b.Step (.pwNew data conf) b'
  | pwDel (data : Nat) (type : UInt16) (pwid : UInt32) (lsrId : InAddr)
      (known : b.pwFec data = some (.pwid type pwid lsrId)) (b' : Bindings)
      (removed : b.Remove (.pwid type pwid lsrId) (.v4 lsrId) 0 b') :
      b.Step (.pwDel data) (b'.setPw data none)

/-! ### Routes -/

theorem fecNhFind_isSome_iff (fn : FecNode) (nexthop : LdpdAddr) (priority : UInt8) :
    (fecNhFind fn nexthop priority).isSome ↔
      ∃ fnh ∈ fn.nexthops, fnh.nexthop = nexthop ∧ fnh.priority = priority := by
  simp [fecNhFind]

theorem insertLabel_fecAdd (lde : Lde) (fec : Fec) (connected : Bool) :
    (fecAdd lde fec).insertLabel fec connected = lde.insertLabel fec connected := by
  have label : (fecAdd lde fec).localLabel = lde.localLabel :=
    congrArg Bindings.localLabel (bindings_fecAdd lde fec)
  have new : (fecAdd lde fec).newLabel fec connected = lde.newLabel fec connected := by
    cases fec <;> rfl
  rw [Lde.insertLabel, Lde.insertLabel, label, new]

/-- The engine after `lde_kernel_insert`: nothing shows if the nexthop was there, else it is
added and the mapping of its neighbor, if there is one, is looked at again. -/
theorem ldeKernelInsert_cases (lde : Lde) (fec : Fec) (nexthop : LdpdAddr) (priority : UInt8)
    (connected : Bool) (data : Option Nat) :
    (lde.bindings.Lists fec nexthop priority ∧
        (ldeKernelInsert lde fec nexthop priority connected data).bindings = lde.bindings) ∨
      ¬lde.bindings.Lists fec nexthop priority ∧
        ∃ added : Lde, added.bindings = lde.bindings.addNexthop fec nexthop priority data
            (lde.insertLabel fec connected) ∧
          ldeKernelInsert lde fec nexthop priority connected data =
            useRecordedMapping added fec nexthop := by
  have visible := bindings_fecAdd lde fec
  obtain ⟨fn, node⟩ : ∃ fn, (fecAdd lde fec).ft[fec]? = some fn := by
    rw [getElem?_fecAdd, if_pos rfl]
    exact ⟨_, rfl⟩
  have listed : lde.bindings.nexthops fec = fn.nexthops := by
    rw [← visible]
    exact (fecAdd lde fec).nexthops_eq_of_node node
  have lists : lde.bindings.Lists fec nexthop priority ↔
      (fecNhFind fn nexthop priority).isSome := by
    rw [Bindings.Lists, listed, fecNhFind_isSome_iff]
  unfold ldeKernelInsert
  simp only [node]
  rw [lists]
  split_ifs with known
  · exact Or.inl ⟨known, visible⟩
  · refine Or.inr ⟨known, _, ?_, rfl⟩
    rw [bindings_insertNexthop _ node, visible, insertLabel_fecAdd]

theorem insertLabel_mayLabel (lde : Lde) (fec : Fec) (connected : Bool) :
    lde.bindings.MayLabel fec (lde.insertLabel fec connected) :=
  fun labelled => if_neg labelled

theorem ldeNbrFindOwner_eq (lde : Lde) (fec : Fec) (nexthop : LdpdAddr) (priority : UInt8) :
    ldeNbrFindOwner lde fec nexthop =
      lde.ldeNbrs.toList.find? fun entry => entry.2.view.owns fec (newNexthop nexthop priority) := by
  cases fec with
  | ipv4 | ipv6 => rfl
  | pwid type pwid lsrId =>
    refine congrArg (lde.ldeNbrs.toList.find? ·) (funext fun entry => ?_)
    exact decide_eq_decide.mpr eq_comm

/-- An insertion refines the abstract one. -/
theorem insert_refines (lde : Lde) (wellFormed : lde.bindings.WellFormed) (fec : Fec)
    (nexthop : LdpdAddr) (priority : UInt8) (connected : Bool) (data : Option Nat)
    (insertable : ¬lde.bindings.Lists fec nexthop priority →
      lde.bindings.Insertable fec nexthop priority data) :
    lde.bindings.Insert fec nexthop priority data (lde.insertLabel fec connected)
      (ldeKernelInsert lde fec nexthop priority connected data).bindings := by
  rcases ldeKernelInsert_cases lde fec nexthop priority connected data with
    ⟨known, kept⟩ | ⟨fresh, added, bindings, result⟩
  · rw [kept]
    exact .listed known
  · have wellFormedAdded : added.bindings.WellFormed := by
      rw [bindings]
      exact wellFormed.addNexthop (insertable fresh) _
    have nbrs (peerid : UInt32) : (added.ldeNbrs[peerid]?).map LdeNbr.view =
        lde.bindings.nbr peerid := by
      have same : added.bindings.nbr peerid = lde.bindings.nbr peerid := by
        rw [bindings]
        exact congrFun (Bindings.setData_nbr _ _ _) peerid
      exact same
    rw [result]
    rw [useRecordedMapping, ldeNbrFindOwner_eq added fec nexthop priority]
    split
    · rename_i missing
      rw [bindings]
      refine .unowned fresh fun peerid ln found => ?_
      rw [← nbrs, Option.map_eq_some_iff] at found
      obtain ⟨origin, present, rfl⟩ := found
      have entry := Std.ExtTreeMap.mem_toList_iff_getElem?_eq_some.mpr present
      exact Bool.eq_false_iff.mpr (List.find?_eq_none.mp missing (peerid, origin) entry)
    · rename_i peerid ln owner
      have present : added.ldeNbrs[peerid]? = some ln :=
        Std.ExtTreeMap.mem_toList_iff_getElem?_eq_some.mp (List.mem_of_find?_eq_some owner)
      have found : lde.bindings.nbr peerid = some ln.view := by
        rw [← nbrs, present, Option.map_some]
      have owned : ln.view.owns fec (newNexthop nexthop priority) = true :=
        List.find?_some (p := fun entry : UInt32 × LdeNbr =>
          entry.2.view.owns fec (newNexthop nexthop priority)) owner
      split
      · rename_i unrecorded
        rw [bindings]
        exact .unmapped fresh peerid ln.view found owned unrecorded
      · rename_i me recorded
        rcases bindings_ldeCheckMapping added wellFormedAdded me present with
          ⟨pseudowire, kept⟩ | learned
        · rw [kept, bindings]
          exact .ignored fresh peerid ln.view me found recorded pseudowire
        · rw [learned, bindings]
          exact .mapped fresh peerid ln.view me found owned recorded

/-- A removal refines the abstract one. -/
theorem remove_refines (lde : Lde) (fec : Fec) (nexthop : LdpdAddr) (priority : UInt8) :
    lde.bindings.Remove fec nexthop priority (ldeKernelRemove lde fec nexthop priority).bindings := by
  cases node : lde.ft[fec]? with
  | none =>
    have kept : ldeKernelRemove lde fec nexthop priority = lde := by
      simp only [ldeKernelRemove, node]
    rw [kept]
    refine .unlisted ?_
    rintro ⟨fnh, member, -⟩
    have empty : lde.bindings.nexthops fec = [] := by
      show lde.nexthops fec = []
      rw [Lde.nexthops, node]
    rw [empty] at member
    exact absurd member (by simp)
  | some fn =>
    have listed : lde.bindings.nexthops fec = fn.nexthops := lde.nexthops_eq_of_node node
    cases found : fecNhFind fn nexthop priority with
    | none =>
      have kept : ldeKernelRemove lde fec nexthop priority = lde := by
        simp only [ldeKernelRemove, node, found]
      rw [kept]
      refine .unlisted ?_
      rw [Bindings.Lists, listed, ← fecNhFind_isSome_iff, found]
      simp
    | some fnh =>
      rw [bindings_ldeKernelRemove lde node found]
      refine .listed fnh (listed ▸ List.mem_of_find?_eq_some found) ?_
      simpa [fecNhFind] using List.find?_some found

/-! ### Well-formed bindings -/

theorem RouteMsg.fec_af (kr : RouteMsg) : kr.fec.af = some kr.addr.af := by
  unfold RouteMsg.fec LdpdAddr.af
  cases kr.addr <;> rfl

theorem RouteMsg.insertable (kr : RouteMsg) (b : Bindings)
    (fresh : ¬b.Lists kr.fec kr.nexthop kr.priority) :
    b.Insertable kr.fec kr.nexthop kr.priority none where
  fresh fnh member key := fresh ⟨fnh, member, key⟩
  network af family := by
    rw [kr.fec_af, Option.some_inj] at family
    exact kr.family.trans family
  remote type pwid lsrId same := by
    have family := kr.fec_af
    rw [same] at family
    exact absurd family (by simp [Fec.af])
  pseudowire none := by
    rw [kr.fec_af] at none
    exact absurd none (by simp)

theorem pw_insertable {b : Bindings} {data : Nat} {type : UInt16} {pwid : UInt32} {lsrId : InAddr}
    (live : b.pwFec data = some (.pwid type pwid lsrId))
    (fresh : ¬b.Lists (.pwid type pwid lsrId) (.v4 lsrId) 0) :
    b.Insertable (.pwid type pwid lsrId) (.v4 lsrId) 0 (some data) where
  fresh fnh member key := fresh ⟨fnh, member, key⟩
  network af family := absurd family (by simp [Fec.af])
  remote type' pwid' lsrId' same := by
    injection same with _ _ sameId
    rw [sameId]
    exact ⟨rfl, rfl⟩
  pseudowire _ := ⟨data, rfl, live⟩

theorem Bindings.Insert.wellFormed {b b' : Bindings} (wellFormed : b.WellFormed) {fec : Fec}
    {nexthop : LdpdAddr} {priority : UInt8} {data : Option Nat} {label : UInt32}
    (insertable : ¬b.Lists fec nexthop priority → b.Insertable fec nexthop priority data)
    (inserted : b.Insert fec nexthop priority data label b') : b'.WellFormed := by
  cases inserted with
  | listed => exact wellFormed
  | unowned fresh | unmapped fresh | ignored fresh =>
    exact wellFormed.addNexthop (insertable fresh) label
  | mapped fresh peerid ln me =>
    exact ((wellFormed.addNexthop (insertable fresh) label).relabel _ _).updateNbr _ _

theorem Bindings.Remove.wellFormed {b b' : Bindings} (wellFormed : b.WellFormed) {fec : Fec}
    {nexthop : LdpdAddr} {priority : UInt8} (removed : b.Remove fec nexthop priority b') :
    b'.WellFormed := by
  cases removed with
  | unlisted => exact wellFormed
  | listed fnh => exact wellFormed.removeNexthop fec fnh

/-- Once its nexthop is removed, a pseudowire FEC has none left and points nowhere. -/
theorem Bindings.Remove.data_eq_none {b b' : Bindings} (wellFormed : b.WellFormed) {type : UInt16}
    {pwid : UInt32} {lsrId : InAddr} (removed : b.Remove (.pwid type pwid lsrId) (.v4 lsrId) 0 b') :
    b'.data (.pwid type pwid lsrId) = none := by
  have wellFormed' := removed.wellFormed wellFormed
  rw [← Option.not_isSome_iff_eq_none, wellFormed'.data]
  rintro ⟨-, nonempty⟩
  obtain ⟨item, member⟩ := List.exists_mem_of_ne_nil _ nonempty
  have key := wellFormed'.remote type pwid lsrId item member
  cases removed with
  | unlisted unknown => exact unknown ⟨item, member, key⟩
  | listed fnh _ chosen =>
    rw [Bindings.removeNexthop_nexthops, if_pos rfl] at member
    have different := (List.mem_filter.mp member).2
    simp [sameNexthop, key, chosen] at different

theorem Bindings.WellFormed.setPw_some {b : Bindings} (wellFormed : b.WellFormed) {data : Nat}
    (fresh : b.pwFec data = none) (fec : Fec) : (b.setPw data (some fec)).WellFormed where
  data := wellFormed.data
  live other pw points := by
    have live := wellFormed.live other pw points
    have different : pw ≠ data := by
      rintro rfl
      rw [fresh] at live
      exact absurd live (by simp)
    show Function.update b.pwFec data _ pw = _
    rw [Function.update_of_ne different]
    exact live
  idle := wellFormed.idle
  network := wellFormed.network
  remote := wellFormed.remote
  distinct := wellFormed.distinct

theorem Bindings.WellFormed.setPw_none {b : Bindings} (wellFormed : b.WellFormed) {data : Nat}
    (unused : ∀ fec, b.data fec ≠ some data) : (b.setPw data none).WellFormed where
  data := wellFormed.data
  live other pw points := by
    have different : pw ≠ data := by
      rintro rfl
      exact unused other points
    show Function.update b.pwFec data _ pw = _
    rw [Function.update_of_ne different]
    exact wellFormed.live other pw points
  idle := wellFormed.idle
  network := wellFormed.network
  remote := wellFormed.remote
  distinct := wellFormed.distinct

theorem Bindings.WellFormed.unlearnAll {b : Bindings} (wellFormed : b.WellFormed) (peerid : UInt32)
    (ln : NbrView) (label : UInt32) (fecs : List Fec) :
    (b.unlearnAll peerid ln label fecs).WellFormed := by
  unfold Bindings.unlearnAll
  induction fecs generalizing b with
  | nil => exact wellFormed
  | cons fec rest inductionHypothesis =>
    exact inductionHypothesis ((wellFormed.relabel _ _).updateNbr _ _)

theorem Bindings.setPw_self (b : Bindings) (data : Nat) (fec : Option Fec) :
    (b.setPw data fec).pwFec data = fec :=
  Function.update_self _ _ _

/-- A step of the machine keeps the bindings well formed. -/
theorem Bindings.Step.wellFormed {b b' : Bindings} {event : LdeEvent} (step : b.Step event b')
    (wellFormed : b.WellFormed) : b'.WellFormed := by
  cases step with
  | invisible => exact wellFormed
  | networkAdd kr label _ _ inserted => exact inserted.wellFormed wellFormed (kr.insertable b)
  | networkDel kr _ removed => exact removed.wellFormed wellFormed
  | learn | unlearn => exact (wellFormed.relabel _ _).updateNbr _ _
  | unlearnAll peerid ln map _ _ fecs => exact wellFormed.unlearnAll peerid ln map.label fecs
  | addressAdd => exact (wellFormed.updateNbr _ _).relabel _ _
  | addressDel => exact (wellFormed.relabel _ _).updateNbr _ _
  | neighborUp => exact wellFormed.setNbr _ _
  | neighborDown => exact (wellFormed.relabel _ _).setNbr _ _
  | pwNew data conf pwType fresh label _ _ inserted =>
    exact inserted.wellFormed (wellFormed.setPw_some fresh _)
      (pw_insertable (Bindings.setPw_self b data _))
  | pwDel data type pwid lsrId known middle removed =>
    refine (removed.wellFormed wellFormed).setPw_none fun fec points => ?_
    have pwFec : middle.pwFec = b.pwFec := by
      cases removed with
      | unlisted => rfl
      | listed fnh => exact Bindings.removeNexthop_pwFec b _ fnh
    have live := (removed.wellFormed wellFormed).live fec data points
    rw [pwFec, known, Option.some_inj] at live
    rw [← live, removed.data_eq_none wellFormed] at points
    exact absurd points (by simp)

/-! ### Pseudowires -/

theorem l2vpnPwFec_updatePwList (lde : Lde) (l2vpn : Nat) (change : List Nat → List Nat)
    (pw : L2vpnPw) : l2vpnPwFec (lde.updatePwList l2vpn change) pw = l2vpnPwFec lde pw := by
  have type : ((lde.updatePwList l2vpn change).l2vpnOf pw).pwType = (lde.l2vpnOf pw).pwType := by
    unfold Lde.l2vpnOf Lde.updatePwList
    dsimp only
    rw [Std.ExtTreeMap.getD_eq_getD_getElem?, Std.ExtTreeMap.getD_eq_getD_getElem?,
      Tree.getElem?_modify]
    split_ifs
    · cases lde.l2vpns[pw.l2vpn]? <;> rfl
    · rfl
  rw [l2vpnPwFec, type, l2vpnPwFec]

theorem bindings_updatePwList (lde : Lde) (l2vpn : Nat) (change : List Nat → List Nat) :
    (lde.updatePwList l2vpn change).bindings = lde.bindings := by
  refine Bindings.ext rfl rfl rfl (funext fun data => ?_) rfl
  show Option.map _ lde.pws[data]? = Option.map _ lde.pws[data]?
  rw [funext (l2vpnPwFec_updatePwList lde l2vpn change)]

theorem bindings_insertPw (lde : Lde) (data : Nat) (pw : L2vpnPw) :
    ({ lde with pws := lde.pws.insert data pw } : Lde).bindings =
      lde.bindings.setPw data (some (l2vpnPwFec lde pw)) := by
  refine Bindings.ext rfl rfl rfl (funext fun other => ?_) rfl
  show Option.map (l2vpnPwFec lde) (lde.pws.insert data pw)[other]? =
    Function.update lde.bindings.pwFec data _ other
  rw [Tree.getElem?_insert]
  split_ifs with same
  · rw [same, Function.update_self]
    rfl
  · rw [Function.update_of_ne (Ne.symm same)]
    rfl

theorem bindings_erasePw (lde : Lde) (data : Nat) :
    ({ lde with pws := lde.pws.erase data } : Lde).bindings = lde.bindings.setPw data none := by
  refine Bindings.ext rfl rfl rfl (funext fun other => ?_) rfl
  show Option.map (l2vpnPwFec lde) (lde.pws.erase data)[other]? =
    Function.update lde.bindings.pwFec data _ other
  rw [Tree.getElem?_erase]
  split_ifs with same
  · rw [same, Function.update_self]
    rfl
  · rw [Function.update_of_ne (Ne.symm same)]
    rfl

theorem pwAdd_refines (lde : Lde) (wellFormed : lde.bindings.WellFormed) (data : Nat)
    (conf : PwConf) : lde.bindings.Step (.pwNew data conf) (l2vpnPwAdd lde data conf).bindings := by
  unfold l2vpnPwAdd
  split_ifs with refused
  · exact .invisible _
  · have fresh : lde.bindings.pwFec data = none := by
      have absent : lde.pws[data]? = none :=
        Std.ExtTreeMap.getElem?_eq_none fun known => refused (Or.inl known)
      exact congrArg (Option.map (l2vpnPwFec lde)) absent
    generalize entered : ({ lde with pws := lde.pws.insert data conf.pw } : Lde).updatePwList
      conf.l2vpn (data :: ·) = listed
    have fec : l2vpnPwFec listed conf.pw = .pwid (lde.l2vpnOf conf.pw).pwType conf.pwid conf.lsrId := by
      rw [← entered, l2vpnPwFec_updatePwList]
      rfl
    have known : listed.pws[data]? = some conf.pw := by
      rw [← entered]
      exact (Tree.getElem?_insert lde.pws data data conf.pw).trans (if_pos rfl)
    have visible : listed.bindings =
        lde.bindings.setPw data (some (.pwid (lde.l2vpnOf conf.pw).pwType conf.pwid conf.lsrId)) := by
      rw [← entered, bindings_updatePwList, bindings_insertPw]
      rfl
    have reset : (listed.updatePw data l2vpnPwReset).bindings = listed.bindings :=
      bindings_updatePw listed data _ fun _ _ => by rfl
    have label := congrFun (congrArg Bindings.localLabel (reset.trans visible))
      (.pwid (lde.l2vpnOf conf.pw).pwType conf.pwid conf.lsrId)
    refine .pwNew data conf (lde.l2vpnOf conf.pw).pwType fresh
      ((listed.updatePw data l2vpnPwReset).insertLabel
        (.pwid (lde.l2vpnOf conf.pw).pwType conf.pwid conf.lsrId) false) (fun labelled => ?_) _ ?_
    · rw [insertLabel_mayLabel]
      · exact label
      · rw [label]
        exact labelled
    unfold l2vpnPwInit
    simp only [known, fec]
    rw [← visible, ← reset]
    refine insert_refines _ ?_ _ _ 0 false (some data) (pw_insertable ?_)
    · rw [reset, visible]
      exact wellFormed.setPw_some fresh _
    · rw [reset, visible]
      exact Bindings.setPw_self _ _ _

theorem pwDelete_refines (lde : Lde) (data : Nat) :
    lde.bindings.Step (.pwDel data) (l2vpnPwDelete lde data).bindings := by
  unfold l2vpnPwDelete
  split
  · exact .invisible _
  · rename_i pw known
    dsimp only
    rw [bindings_erasePw, bindings_updatePwList]
    refine .pwDel data (lde.l2vpnOf pw).pwType pw.pwid pw.lsrId ?_ _ ?_
    · exact congrArg (Option.map (l2vpnPwFec lde)) known
    · unfold l2vpnPwExit
      simp only [known]
      exact remove_refines lde _ _ 0

/-! ### Refinement -/

theorem bindings_nbr {lde : Lde} {peerid : UInt32} {ln : LdeNbr}
    (found : lde.ldeNbrs[peerid]? = some ln) : lde.bindings.nbr peerid = some ln.view :=
  congrArg (Option.map LdeNbr.view) found

/-- A wildcard withdraw gives up the mappings of all FECs of the tree. -/
theorem bindings_ldeCheckWithdrawWcard (lde : Lde) (map : Map) {peerid : UInt32} {ln : LdeNbr}
    (found : lde.ldeNbrs[peerid]? = some ln) :
    (ldeCheckWithdrawWcard lde map peerid).bindings =
      lde.bindings.unlearnAll peerid ln.view map.label lde.ft.keys := by
  have ft : (ldeSendLabelrelease lde peerid none map.label).ft = lde.ft := rfl
  simp only [ldeCheckWithdrawWcard, found, ft, Bindings.unlearnAll]
  rw [← bindings_ldeSendLabelrelease lde peerid none map.label]
  generalize ldeSendLabelrelease lde peerid none map.label = released
  induction lde.ft.keys generalizing released with
  | nil => rfl
  | cons fec rest inductionHypothesis =>
    rw [List.foldl_cons, List.foldl_cons, inductionHypothesis, bindings_withdrawFec]

theorem withdraw_refines (lde : Lde) (wellFormed : lde.bindings.WellFormed) (map : Map)
    (peerid : UInt32) :
    lde.bindings.Step (.labelWithdraw peerid map) (dispatchWithdraw lde map peerid).bindings := by
  unfold dispatchWithdraw
  cases found : lde.ldeNbrs[peerid]? with
  | none =>
    split_ifs
    · rw [ldeCheckWithdrawWcard, found]
      exact .invisible _
    · rw [ldeCheckWithdraw, found]
      exact .invisible _
  | some ln =>
    split_ifs with wildcard
    · rw [bindings_ldeCheckWithdrawWcard lde map found]
      refine .unlearnAll peerid ln.view map (bindings_nbr found) wildcard _ fun fec nonempty => ?_
      obtain ⟨fnh, member⟩ := List.exists_mem_of_ne_nil _ nonempty
      exact mem_keys_of_mem_nexthops member
    · rcases bindings_ldeCheckWithdraw lde wellFormed map found with ⟨-, kept⟩ | given
      · rw [kept]
        exact .invisible _
      · rw [given]
        exact .unlearn peerid ln.view map (bindings_nbr found) wildcard

/-- An event about the addresses of a neighbor. -/
def LdeEvent.Readdresses : LdeEvent → Prop
  | .addressAdd .. | .addressDel .. => True
  | _ => False

/-- The engine refines the abstract machine: what an event does to the bindings is one of
its steps. Only the events about addresses need one priority of every nexthop address. -/
theorem ldeStep_refines_of (lde : Lde) (wellFormed : lde.bindings.WellFormed) (event : LdeEvent)
    (onePriority : event.Readdresses → lde.bindings.OnePriority) :
    lde.bindings.Step event (ldeStep lde event).bindings := by
  have invisible {lde' : Lde} (same : lde'.bindings = lde.bindings) :
      lde.bindings.Step event lde'.bindings := by
    rw [same]
    exact .invisible event
  cases event with
  | networkAdd kr =>
    exact .networkAdd kr _ (insertLabel_mayLabel lde kr.fec kr.connected) _
      (insert_refines lde wellFormed _ _ _ _ none (kr.insertable lde.bindings))
  | networkDel kr => exact .networkDel kr _ (remove_refines lde _ _ _)
  | labelMappingFull peerid =>
    refine invisible ?_
    show (if peerid ∈ lde.ldeNbrs then fecSnap lde peerid else lde).bindings = lde.bindings
    split_ifs
    · exact bindings_fecSnap lde peerid
    · rfl
  | labelMapping peerid map =>
    show lde.bindings.Step _ (ldeCheckMapping lde map peerid).bindings
    cases found : lde.ldeNbrs[peerid]? with
    | none =>
      rw [ldeCheckMapping, found]
      exact .invisible _
    | some ln =>
      rcases bindings_ldeCheckMapping lde wellFormed map found with ⟨-, ignored⟩ | learned
      · exact invisible ignored
      · rw [learned]
        exact .learn peerid ln.view map (bindings_nbr found)
  | labelRequest peerid map => exact invisible (bindings_ldeCheckRequest lde map peerid)
  | labelRelease peerid map =>
    refine invisible ?_
    show (dispatchRelease lde map peerid).bindings = lde.bindings
    unfold dispatchRelease
    split_ifs
    · exact bindings_ldeCheckReleaseWcard lde map peerid
    · exact bindings_ldeCheckRelease lde map peerid
  | labelWithdraw peerid map => exact withdraw_refines lde wellFormed map peerid
  | labelAbort => exact .invisible _
  | addressAdd peerid addr =>
    show lde.bindings.Step _ (ldeAddressAdd lde peerid addr).bindings
    cases found : lde.ldeNbrs[peerid]? with
    | none =>
      rw [ldeAddressAdd, found]
      exact .invisible _
    | some ln =>
      cases known : ldeAddressFind ln addr with
      | true =>
        refine invisible ?_
        simp only [ldeAddressAdd, found, known, if_true]
      | false =>
        rw [bindings_ldeAddressAdd lde (onePriority trivial) found known]
        exact .addressAdd peerid ln.view addr (bindings_nbr found)
          fun listed => by simp_all [ldeAddressFind, LdeNbr.view]
  | addressDel peerid addr =>
    show lde.bindings.Step _ (ldeAddressDel lde peerid addr).bindings
    cases found : lde.ldeNbrs[peerid]? with
    | none =>
      rw [ldeAddressDel, found]
      exact .invisible _
    | some ln =>
      cases known : ldeAddressFind ln addr with
      | true =>
        rw [bindings_ldeAddressDel lde (onePriority trivial) found known]
        exact .addressDel peerid ln.view addr (bindings_nbr found) (List.contains_iff_mem.mp known)
      | false =>
        refine invisible ?_
        simp only [ldeAddressDel, found, known, Bool.false_eq_true, if_false]
  | notification peerid nm =>
    refine invisible ?_
    show (dispatchNotification lde nm peerid).bindings = lde.bindings
    unfold dispatchNotification
    split
    · rfl
    · split_ifs
      · exact bindings_l2vpnRecvPwStatus lde nm _
      · rfl
  | neighborUp peerid id v4Enabled v6Enabled =>
    show lde.bindings.Step _ (ldeNbrNew lde peerid id v4Enabled v6Enabled).bindings
    by_cases known : peerid ∈ lde.ldeNbrs
    · refine invisible ?_
      rw [ldeNbrNew, if_pos known, bindings_fail]
    · rw [bindings_ldeNbrNew lde known]
      refine .neighborUp peerid id v4Enabled v6Enabled ?_
      exact congrArg (Option.map LdeNbr.view) (Std.ExtTreeMap.getElem?_eq_none known)
  | neighborDown peerid =>
    show lde.bindings.Step _ (ldeNbrDel lde peerid).bindings
    cases found : lde.ldeNbrs[peerid]? with
    | none =>
      rw [ldeNbrDel, found]
      exact .invisible _
    | some ln =>
      rw [bindings_ldeNbrDel lde found]
      exact .neighborDown peerid ln.view (bindings_nbr found)
  | gcTimer => exact invisible (bindings_ldeGcTimer lde wellFormed)
  | pwNew data conf => exact pwAdd_refines lde wellFormed data conf
  | pwDel data => exact pwDelete_refines lde data

theorem ldeStep_refines (lde : Lde) (wellFormed : lde.bindings.WellFormed)
    (onePriority : lde.bindings.OnePriority) (event : LdeEvent) :
    lde.bindings.Step event (ldeStep lde event).bindings :=
  ldeStep_refines_of lde wellFormed event fun _ => onePriority

theorem start_node (conf : LdeConf) (fec : Fec) : (Lde.start conf).ft[fec]? = none :=
  Std.ExtTreeMap.getElem?_empty

theorem start_nexthops (conf : LdeConf) (fec : Fec) :
    (Lde.start conf).bindings.nexthops fec = [] := by
  show (Lde.start conf).nexthops fec = []
  rw [Lde.nexthops, start_node]

theorem start_wellFormed (conf : LdeConf) : (Lde.start conf).bindings.WellFormed := by
  have data (fec : Fec) : (Lde.start conf).bindings.data fec = none := by
    show (Lde.start conf).data fec = none
    rw [Lde.data, start_node]
    rfl
  constructor
  case data => intro fec; simp [start_nexthops, data]
  case live => intro fec pw; simp [data]
  case idle =>
    intro fec _
    show (Lde.start conf).localLabel fec = noLabel
    rw [Lde.localLabel, start_node]
  case network => intro fec af _ fnh; simp [start_nexthops]
  case remote => intro type pwid lsrId fnh; simp [start_nexthops]
  case distinct => intro fec; simp [start_nexthops]

theorem start_onePriority (conf : LdeConf) : (Lde.start conf).bindings.OnePriority := by
  intro fec fnh member
  rw [start_nexthops] at member
  exact absurd member (by simp)

/-! ### Checking a state -/

/-- What holds of every FEC of the bindings can be checked on the nodes of the tree, if it holds
of a FEC without nexthops. -/
theorem forall_nexthops_iff (lde : Lde) (property : List FecNh → Prop) (empty : property []) :
    (∀ fec, property (lde.bindings.nexthops fec)) ↔
      ∀ entry ∈ lde.ft.toList, property entry.2.nexthops := by
  constructor
  · intro all entry listed
    have node := Std.ExtTreeMap.mem_toList_iff_getElem?_eq_some.mp listed
    exact (lde.nexthops_eq_of_node node) ▸ all entry.1
  · intro all fec
    show property (lde.nexthops fec)
    cases node : lde.ft[fec]? with
    | none =>
      rw [Lde.nexthops, node]
      exact empty
    | some fn =>
      rw [lde.nexthops_eq_of_node node]
      exact all (fec, fn) (Std.ExtTreeMap.mem_toList_iff_getElem?_eq_some.mpr node)

instance (lde : Lde) : Decidable lde.bindings.OnePriority :=
  decidable_of_iff _ (forall_nexthops_iff lde (fun nexthops => ∀ fnh ∈ nexthops,
    ∀ other ∈ nexthops, fnh.nexthop = other.nexthop → fnh.priority = other.priority)
    (by simp)).symm

end Ldpd
