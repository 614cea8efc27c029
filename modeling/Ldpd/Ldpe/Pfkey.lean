/-
This file models the TCP MD5 signatures of the LDP engine: the two security associations
of a neighbor in the kernel, the handlers that add and remove them, and the local address
of a neighbor, which only the handler for new sockets changes.

The kernel is a table of associations. All requests to it succeed, and each time it picks an
SPI anew, of which nothing is known but that the destination does not use it.
-/

import Ldpd.Types
import Ldpd.Library.Tree
import Ldpd.Library.Run

namespace Ldpd

/-! ### Records -/

/-- `enum auth_method`. -/
inductive AuthMethod where
  | none
  | md5sig
  deriving DecidableEq, Repr

/-- The bits of `nbrp.flags`. -/
structure NbrpFlags where
  keepalive : Bool := false
  gtsm : Bool := false
  gtsmHops : Bool := false
  deriving DecidableEq, Repr

/-- `struct nbr_params`. -/
structure NbrParams where
  lsrId : InAddr
  keepalive : UInt16 := 0
  gtsmEnabled : Bool := false
  gtsmHops : UInt8 := 0
  method : AuthMethod := .none
  md5key : String := ""
  flags : NbrpFlags := {}
  deriving DecidableEq, Repr

/-- The `auth` member of `struct nbr`. -/
structure NbrAuth where
  method : AuthMethod := .none
  md5key : String := ""
  spiIn : Nat := 0
  spiOut : Nat := 0
  established : Bool := false
  deriving DecidableEq, Repr

/-- What the handlers read of a `struct nbr`. -/
structure AuthNbr where
  af : Af
  laddr : LdpdAddr
  raddr : LdpdAddr
  auth : NbrAuth := {}
  deriving DecidableEq, Repr

/-- A security association: the neighbor it was installed for, and what the kernel knows of it. -/
structure Sa where
  nbr : InAddr
  spi : Nat
  src : LdpdAddr
  dst : LdpdAddr
  key : String
  deriving DecidableEq, Repr

/-- The associations in the kernel, how many SPIs it has picked, and the requests to delete an
association that was not installed with the addresses of the request. -/
structure Sadb where
  sas : List Sa := []
  picked : Nat := 0
  stray : List (LdpdAddr × LdpdAddr × Nat) := []
  deriving DecidableEq, Repr

/-- The LDP engine, as far as authentication goes: the neighbors by LSR-ID, their parameters, and the
transport addresses of `leconf`. -/
structure AuthEngine where
  nbrs : Std.ExtTreeMap InAddr AuthNbr compare
  nbrps : Std.ExtTreeMap InAddr NbrParams compare
  transAddr : Af → LdpdAddr
  sadb : Sadb

/-! ### Security associations -/

section Pfkey

variable (getspi : Nat → List Sa → LdpdAddr → Nat)

/-- `pfkey_sa_add`: the kernel after it, and the SPI. -/
def pfkeySaAdd (sadb : Sadb) (nbr : InAddr) (src dst : LdpdAddr) (key : String) : Sadb × Nat :=
  let spi := getspi sadb.picked sadb.sas dst
  ({ sadb with sas := { nbr, spi, src, dst, key } :: sadb.sas, picked := sadb.picked + 1 }, spi)

/-- `pfkey_sa_remove`. The kernel finds an association by its destination and SPI. -/
def pfkeySaRemove (sadb : Sadb) (src dst : LdpdAddr) (spi : Nat) : Sadb where
  picked := sadb.picked
  sas := sadb.sas.filter fun sa => ¬(sa.dst = dst ∧ sa.spi = spi)
  stray :=
    if sadb.sas.any fun sa => sa.src = src ∧ sa.dst = dst ∧ sa.spi = spi then sadb.stray
    else (src, dst, spi) :: sadb.stray

/-- `pfkey_md5sig_establish`. -/
def pfkeyMd5sigEstablish (sadb : Sadb) (id : InAddr) (nbr : AuthNbr) (nbrp : NbrParams) :
    Sadb × AuthNbr :=
  let out := if nbr.auth.spiOut = 0 then pfkeySaAdd getspi sadb id nbr.laddr nbr.raddr nbrp.md5key
    else (sadb, nbr.auth.spiOut)
  let into := if nbr.auth.spiIn = 0 then pfkeySaAdd getspi out.1 id nbr.raddr nbr.laddr nbrp.md5key
    else (out.1, nbr.auth.spiIn)
  (into.1, { nbr with auth := { nbr.auth with spiOut := out.2, spiIn := into.2, established := true } })

/-- `pfkey_md5sig_remove`. -/
def pfkeyMd5sigRemove (sadb : Sadb) (nbr : AuthNbr) : Sadb × AuthNbr :=
  let sadb := if nbr.auth.spiOut = 0 then sadb
    else pfkeySaRemove sadb nbr.laddr nbr.raddr nbr.auth.spiOut
  let sadb := if nbr.auth.spiIn = 0 then sadb
    else pfkeySaRemove sadb nbr.raddr nbr.laddr nbr.auth.spiIn
  (sadb, { nbr with auth := {} })

/-- `pfkey_establish`. -/
def pfkeyEstablish (sadb : Sadb) (id : InAddr) (nbr : AuthNbr) (nbrp : NbrParams) : Sadb × AuthNbr :=
  match nbrp.method with
  | .none => (sadb, nbr)
  | .md5sig =>
    pfkeyMd5sigEstablish getspi sadb id
      { nbr with auth := { nbr.auth with method := .md5sig, md5key := nbrp.md5key } } nbrp

/-- `pfkey_remove`. -/
def pfkeyRemove (sadb : Sadb) (nbr : AuthNbr) : Sadb × AuthNbr :=
  if nbr.auth.method = .none ∨ ¬nbr.auth.established then (sadb, nbr)
  else pfkeyMd5sigRemove sadb nbr

/-! ### Handlers -/

/-- A neighbor and the kernel after one of them has changed. -/
def AuthEngine.put (engine : AuthEngine) (id : InAddr) (result : Sadb × AuthNbr) : AuthEngine :=
  { engine with nbrs := engine.nbrs.insert id result.2, sadb := result.1 }

/-- `pfkey_remove` of a neighbor of the engine. -/
def AuthEngine.remove (engine : AuthEngine) (id : InAddr) : AuthEngine :=
  match engine.nbrs[id]? with
  | none => engine
  | some nbr => engine.put id (pfkeyRemove engine.sadb nbr)

/-- `pfkey_establish` of a neighbor of the engine. -/
def AuthEngine.establish (engine : AuthEngine) (id : InAddr) (nbrp : NbrParams) : AuthEngine :=
  match engine.nbrs[id]? with
  | none => engine
  | some nbr => engine.put id (pfkeyEstablish getspi engine.sadb id nbr nbrp)

/-- `nbrp = nbr_params_find(leconf, nbr->id); if (nbrp) pfkey_establish(nbr, nbrp)`. -/
def AuthEngine.establishFound (engine : AuthEngine) (id : InAddr) : AuthEngine :=
  match engine.nbrps[id]? with
  | none => engine
  | some nbrp => engine.establish getspi id nbrp

/-- `nbr_new`. It is only called for an LSR-ID that has no neighbor. -/
def AuthEngine.nbrNew (engine : AuthEngine) (id : InAddr) (af : Af) (raddr : LdpdAddr) : AuthEngine :=
  if id ∈ engine.nbrs then engine
  else
    let nbr : AuthNbr := { af, laddr := engine.transAddr af, raddr }
    { engine with nbrs := engine.nbrs.insert id nbr }.establishFound getspi id

/-- `nbr_del`. -/
def AuthEngine.nbrDel (engine : AuthEngine) (id : InAddr) : AuthEngine :=
  let engine := engine.remove id
  { engine with nbrs := engine.nbrs.erase id }

/-- The change that makes `merge_nbrps` reset a neighbor. -/
def nbrpChanged (nbrp xn : NbrParams) : Bool :=
  nbrp.flags ≠ xn.flags ∨ nbrp.keepalive ≠ xn.keepalive ∨ nbrp.gtsmEnabled ≠ xn.gtsmEnabled ∨
    nbrp.gtsmHops ≠ xn.gtsmHops ∨ nbrp.method ≠ xn.method ∨ nbrp.md5key ≠ xn.md5key

/-- The body of the first loop of `merge_nbrps`: find deleted nbrps. -/
def AuthEngine.mergeDeleted (xnbrps : List NbrParams) (engine : AuthEngine) (id : InAddr) : AuthEngine :=
  if xnbrps.any fun xn => xn.lsrId = id then engine
  else
    let engine := engine.remove id
    { engine with nbrps := engine.nbrps.erase id }

/-- The body of the second loop of `merge_nbrps`: find new nbrps and update existing ones. -/
def AuthEngine.mergeNbrp (engine : AuthEngine) (xn : NbrParams) : AuthEngine :=
  let merged := { engine with nbrps := engine.nbrps.insert xn.lsrId xn }
  match engine.nbrps[xn.lsrId]? with
  | none => merged.establish getspi xn.lsrId xn
  | some nbrp =>
    if nbrpChanged nbrp xn then (merged.remove xn.lsrId).establish getspi xn.lsrId xn else merged

/-- `merge_nbrps`. -/
def AuthEngine.mergeNbrps (engine : AuthEngine) (xnbrps : List NbrParams) : AuthEngine :=
  xnbrps.foldl (AuthEngine.mergeNbrp getspi)
    (engine.nbrps.keys.foldl (AuthEngine.mergeDeleted xnbrps) engine)

/-- `IMSG_CLOSE_SOCKETS`, for one neighbor. -/
def AuthEngine.closeNbr (af : Af) (engine : AuthEngine) (id : InAddr) : AuthEngine :=
  match engine.nbrs[id]? with
  | none => engine
  | some nbr => if nbr.af = af then engine.remove id else engine

/-- `IMSG_SETUP_SOCKETS`, for one neighbor. -/
def AuthEngine.setupNbr (af : Af) (engine : AuthEngine) (id : InAddr) : AuthEngine :=
  match engine.nbrs[id]? with
  | none => engine
  | some nbr =>
    if nbr.af = af then
      { engine with nbrs := engine.nbrs.insert id { nbr with laddr := engine.transAddr af } }.establishFound
        getspi id
    else engine

/-- What happens to the engine: neighbors come and go, a new configuration is merged, and the sockets of
an address family are closed and set up again. -/
inductive AuthEvent where
  | nbrNew (id : InAddr) (af : Af) (raddr : LdpdAddr)
  | nbrDel (id : InAddr)
  | reload (ipv4TransAddr ipv6TransAddr : LdpdAddr) (nbrps : List NbrParams)
  | closeSockets (af : Af)
  | setupSockets (af : Af)

/-- One event. A reload sets the transport addresses in `merge_af` before it merges the parameters. -/
def AuthEngine.step (engine : AuthEngine) : AuthEvent → AuthEngine
  | .nbrNew id af raddr => engine.nbrNew getspi id af raddr
  | .nbrDel id => engine.nbrDel id
  | .reload ipv4TransAddr ipv6TransAddr nbrps =>
    let transAddr : Af → LdpdAddr
      | .inet => ipv4TransAddr
      | .inet6 => ipv6TransAddr
    { engine with transAddr }.mergeNbrps getspi nbrps
  | .closeSockets af => engine.nbrs.keys.foldl (AuthEngine.closeNbr af) engine
  | .setupSockets af => engine.nbrs.keys.foldl (AuthEngine.setupNbr getspi af) engine

end Pfkey

/-- The engine with a configuration and without neighbors. -/
def AuthEngine.start (ipv4TransAddr ipv6TransAddr : LdpdAddr) (nbrps : List NbrParams) : AuthEngine where
  nbrs := ∅
  nbrps := Std.ExtTreeMap.ofList (nbrps.map fun nbrp => (nbrp.lsrId, nbrp)) compare
  transAddr
    | .inet => ipv4TransAddr
    | .inet6 => ipv6TransAddr
  sadb := {}

/-! ### The table of the kernel -/

/-- What the kernel promises of the SPI it picks for a destination: it is not zero, and no association
to the destination has it. -/
structure FreshSpi (getspi : Nat → List Sa → LdpdAddr → Nat) : Prop where
  nonzero : ∀ picked sas dst, getspi picked sas dst ≠ 0
  unused : ∀ picked sas dst, ∀ sa ∈ sas, sa.dst = dst → sa.spi ≠ getspi picked sas dst

/-- What the kernel tells associations apart by. -/
def Sa.name (sa : Sa) : LdpdAddr × Nat :=
  (sa.dst, sa.spi)

/-- The associations of a neighbor. -/
def Sadb.owned (sadb : Sadb) (id : InAddr) : List Sa :=
  sadb.sas.filter fun sa => sa.nbr = id

/-- Every association has an SPI of its own among those to its destination, which is not zero, and no
request to delete one went astray. -/
structure Sadb.Orderly (sadb : Sadb) : Prop where
  names : (sadb.sas.map Sa.name).Nodup
  nonzero : ∀ sa ∈ sadb.sas, sa.spi ≠ 0
  stray : sadb.stray = []

section Table

variable {getspi : Nat → List Sa → LdpdAddr → Nat} {sadb : Sadb}

theorem Sadb.Orderly.add (orderly : sadb.Orderly) (fresh : FreshSpi getspi) (nbr : InAddr)
    (src dst : LdpdAddr) (key : String) : (pfkeySaAdd getspi sadb nbr src dst key).1.Orderly where
  names := by
    refine List.nodup_cons.mpr ⟨fun member => ?_, orderly.names⟩
    obtain ⟨sa, there, same⟩ := List.mem_map.mp member
    obtain ⟨destination, spi⟩ := Prod.mk.inj same
    exact fresh.unused sadb.picked sadb.sas dst sa there destination spi
  nonzero sa member := by
    rcases List.mem_cons.mp member with rfl | there
    · exact fresh.nonzero sadb.picked sadb.sas dst
    · exact orderly.nonzero sa there
  stray := orderly.stray

theorem owned_pfkeySaAdd (sadb : Sadb) (nbr : InAddr) (src dst : LdpdAddr) (key : String) :
    (pfkeySaAdd getspi sadb nbr src dst key).1.owned nbr =
      ⟨nbr, getspi sadb.picked sadb.sas dst, src, dst, key⟩ :: sadb.owned nbr :=
  List.filter_cons_of_pos (decide_eq_true rfl)

theorem owned_pfkeySaAdd_other (sadb : Sadb) {nbr other : InAddr} (different : nbr ≠ other)
    (src dst : LdpdAddr) (key : String) :
    (pfkeySaAdd getspi sadb nbr src dst key).1.owned other = sadb.owned other :=
  List.filter_cons_of_neg (by simpa using different)

/-- Two associations with one destination and one SPI are the same. -/
theorem Sadb.Orderly.eq_of_name (orderly : sadb.Orderly) {sa other : Sa} (member : sa ∈ sadb.sas)
    (member' : other ∈ sadb.sas) (same : sa.name = other.name) : sa = other :=
  List.inj_on_of_nodup_map orderly.names member member' same

/-- An association that is deleted as it was installed is the only one that goes. -/
theorem Sadb.Orderly.remove (orderly : sadb.Orderly) {sa : Sa} (member : sa ∈ sadb.sas) :
    (pfkeySaRemove sadb sa.src sa.dst sa.spi).Orderly ∧
      (pfkeySaRemove sadb sa.src sa.dst sa.spi).sas = sadb.sas.filter (· ≠ sa) := by
  have left : (pfkeySaRemove sadb sa.src sa.dst sa.spi).sas = sadb.sas.filter (· ≠ sa) := by
    refine List.filter_congr fun other there => ?_
    rw [decide_eq_decide, not_iff_not]
    refine ⟨fun same => orderly.eq_of_name there member (Prod.ext same.1 same.2), ?_⟩
    rintro rfl
    exact ⟨rfl, rfl⟩
  refine ⟨⟨?_, fun other there => ?_, ?_⟩, left⟩
  · rw [left]
    exact (List.filter_sublist.map Sa.name).nodup orderly.names
  · rw [left] at there
    exact orderly.nonzero other (List.mem_filter.mp there).1
  · have found : (sadb.sas.any fun other => other.src = sa.src ∧ other.dst = sa.dst ∧
        other.spi = sa.spi) = true :=
      List.any_eq_true.mpr ⟨sa, member, decide_eq_true ⟨rfl, rfl, rfl⟩⟩
    rw [pfkeySaRemove]
    dsimp only
    rw [if_pos found]
    exact orderly.stray

end Table

/-! ### Neighbors and their associations -/

/-- The two associations of a neighbor for a key. -/
def AuthNbr.sas (nbr : AuthNbr) (id : InAddr) (key : String) : List Sa :=
  [⟨id, nbr.auth.spiIn, nbr.raddr, nbr.laddr, key⟩, ⟨id, nbr.auth.spiOut, nbr.laddr, nbr.raddr, key⟩]

/-- A neighbor without associations. -/
def AuthNbr.Bare (nbr : AuthNbr) : Prop :=
  nbr.auth.established = false ∧ nbr.auth.spiIn = 0 ∧ nbr.auth.spiOut = 0

/-- A neighbor with its two associations. -/
structure AuthNbr.Keyed (nbr : AuthNbr) (id : InAddr) (key : String) (owned : List Sa) : Prop where
  established : nbr.auth.established = true
  method : nbr.auth.method = .md5sig
  spiIn : nbr.auth.spiIn ≠ 0
  spiOut : nbr.auth.spiOut ≠ 0
  owned : owned = nbr.sas id key

section Neighbors

variable {getspi : Nat → List Sa → LdpdAddr → Nat} {sadb : Sadb} {nbr : AuthNbr} {id : InAddr}

/-- `pfkey_establish` installs both associations of a neighbor that has none. -/
theorem pfkeyEstablish_bare (orderly : sadb.Orderly) (fresh : FreshSpi getspi) (bare : nbr.Bare)
    (unowned : sadb.owned id = []) {nbrp : NbrParams} (method : nbrp.method = .md5sig) :
    (pfkeyEstablish getspi sadb id nbr nbrp).1.Orderly ∧
      (∀ other, other ≠ id →
        (pfkeyEstablish getspi sadb id nbr nbrp).1.owned other = sadb.owned other) ∧
      (pfkeyEstablish getspi sadb id nbr nbrp).2.Keyed id nbrp.md5key
        ((pfkeyEstablish getspi sadb id nbr nbrp).1.owned id) := by
  obtain ⟨-, into, out⟩ := bare
  rw [pfkeyEstablish, method]
  dsimp only [pfkeyMd5sigEstablish]
  rw [if_pos out, if_pos into]
  have first := orderly.add fresh id nbr.laddr nbr.raddr nbrp.md5key
  refine ⟨first.add fresh id nbr.raddr nbr.laddr nbrp.md5key, fun other different => ?_, ?_⟩
  · rw [owned_pfkeySaAdd_other _ different.symm, owned_pfkeySaAdd_other _ different.symm]
  · refine ⟨rfl, rfl, fresh.nonzero _ _ _, fresh.nonzero _ _ _, ?_⟩
    rw [owned_pfkeySaAdd, owned_pfkeySaAdd, unowned]
    rfl

/-- `pfkey_establish` does nothing for a neighbor that has its associations, besides copying the key. -/
theorem pfkeyEstablish_keyed {key : String} {owned : List Sa} (keyed : nbr.Keyed id key owned)
    {nbrp : NbrParams} (method : nbrp.method = .md5sig) :
    pfkeyEstablish getspi sadb id nbr nbrp =
      (sadb, { nbr with auth := { nbr.auth with method := .md5sig, md5key := nbrp.md5key } }) := by
  rw [pfkeyEstablish, method]
  dsimp only [pfkeyMd5sigEstablish]
  rw [if_neg keyed.spiOut, if_neg keyed.spiIn, ← keyed.established]

/-- `pfkey_remove` deletes both associations of a neighbor. -/
theorem pfkeyRemove_keyed (orderly : sadb.Orderly) {key : String}
    (keyed : nbr.Keyed id key (sadb.owned id)) :
    (pfkeyRemove sadb nbr).1.Orderly ∧
      (∀ other, other ≠ id → (pfkeyRemove sadb nbr).1.owned other = sadb.owned other) ∧
      (pfkeyRemove sadb nbr).1.owned id = [] ∧ (pfkeyRemove sadb nbr).2 = { nbr with auth := {} } := by
  have active : ¬(nbr.auth.method = .none ∨ ¬nbr.auth.established = true) := by
    rw [keyed.method, keyed.established]
    decide
  rw [pfkeyRemove, if_neg active, pfkeyMd5sigRemove]
  dsimp only
  rw [if_neg keyed.spiOut, if_neg keyed.spiIn]
  obtain ⟨into, out, both⟩ : ∃ into out, sadb.owned id = [into, out] ∧
      into = ⟨id, nbr.auth.spiIn, nbr.raddr, nbr.laddr, key⟩ ∧
      out = (⟨id, nbr.auth.spiOut, nbr.laddr, nbr.raddr, key⟩ : Sa) := ⟨_, _, keyed.owned, rfl, rfl⟩
  obtain ⟨owned, rfl, rfl⟩ := both
  have mine (sa : Sa) (listed : sa ∈ sadb.owned id) : sa ∈ sadb.sas := (List.mem_filter.mp listed).1
  have outThere := mine _ (owned ▸ List.mem_cons_of_mem _ (List.mem_singleton_self _))
  have intoThere := mine _ (owned ▸ List.mem_cons_self)
  obtain ⟨first, left⟩ := orderly.remove outThere
  have apart : (⟨id, nbr.auth.spiIn, nbr.raddr, nbr.laddr, key⟩ : Sa) ≠
      ⟨id, nbr.auth.spiOut, nbr.laddr, nbr.raddr, key⟩ := by
    have names : ((sadb.owned id).map Sa.name).Nodup :=
      (List.filter_sublist.map Sa.name).nodup orderly.names
    rw [owned] at names
    exact fun same => (List.nodup_cons.mp names).1 (congrArg Sa.name same ▸ List.mem_singleton_self _)
  have still : (⟨id, nbr.auth.spiIn, nbr.raddr, nbr.laddr, key⟩ : Sa) ∈
      (pfkeySaRemove sadb nbr.laddr nbr.raddr nbr.auth.spiOut).sas := by
    rw [left]
    exact List.mem_filter.mpr ⟨intoThere, decide_eq_true apart⟩
  obtain ⟨second, left'⟩ := first.remove still
  refine ⟨second, fun other different => ?_, ?_, rfl⟩
  · rw [Sadb.owned, left', left, List.filter_filter, List.filter_filter, Sadb.owned]
    refine List.filter_congr fun sa _ => ?_
    by_cases owner : sa.nbr = other
    · have notIn : sa ≠ ⟨id, nbr.auth.spiIn, nbr.raddr, nbr.laddr, key⟩ := fun same =>
        different (owner.symm.trans (congrArg Sa.nbr same))
      have notOut : sa ≠ ⟨id, nbr.auth.spiOut, nbr.laddr, nbr.raddr, key⟩ := fun same =>
        different (owner.symm.trans (congrArg Sa.nbr same))
      simp [owner, notIn, notOut]
    · simp [owner]
  · refine List.filter_eq_nil_iff.mpr fun sa member owner => ?_
    rw [left', List.mem_filter, left, List.mem_filter] at member
    obtain ⟨⟨there, notOut⟩, notIn⟩ := member
    have listed : sa ∈ sadb.owned id := List.mem_filter.mpr ⟨there, owner⟩
    rw [owned] at listed
    rcases List.mem_pair.mp listed with rfl | rfl
    · exact absurd rfl (of_decide_eq_true notIn)
    · exact absurd rfl (of_decide_eq_true notOut)

theorem pfkeyRemove_bare (bare : nbr.Bare) : pfkeyRemove sadb nbr = (sadb, nbr) := by
  rw [pfkeyRemove, if_pos]
  exact Or.inr fun established => Bool.false_ne_true (bare.1.symm.trans established)

end Neighbors

/-! ### The engine and the kernel -/

/-- How a neighbor and its parameters stand to its associations. -/
inductive NbrSecured (id : InAddr) (owned : List Sa) : Option AuthNbr → Option NbrParams → Prop
  | gone {nbrp : Option NbrParams} (unowned : owned = []) : NbrSecured id owned none nbrp
  | bare {nbr : AuthNbr} {nbrp : Option NbrParams} (bare : nbr.Bare) (unowned : owned = []) :
      NbrSecured id owned (some nbr) nbrp
  | keyed {nbr : AuthNbr} {nbrp : NbrParams} (method : nbrp.method = .md5sig)
      (keyed : nbr.Keyed id nbrp.md5key owned) : NbrSecured id owned (some nbr) (some nbrp)

/-- The engine and the kernel agree. -/
structure AuthEngine.Secured (engine : AuthEngine) : Prop where
  orderly : engine.sadb.Orderly
  nbrs : ∀ id, NbrSecured id (engine.sadb.owned id) engine.nbrs[id]? engine.nbrps[id]?

section Engine

variable {getspi : Nat → List Sa → LdpdAddr → Nat} {engine : AuthEngine}

/-- A change of one neighbor, its parameters and its associations. -/
theorem AuthEngine.Secured.change (secured : engine.Secured) {changed : AuthEngine} (id : InAddr)
    (orderly : changed.sadb.Orderly)
    (others : ∀ other, other ≠ id → changed.sadb.owned other = engine.sadb.owned other ∧
      changed.nbrs[other]? = engine.nbrs[other]? ∧ changed.nbrps[other]? = engine.nbrps[other]?)
    (own : NbrSecured id (changed.sadb.owned id) changed.nbrs[id]? changed.nbrps[id]?) :
    changed.Secured := by
  refine ⟨orderly, fun other => ?_⟩
  by_cases same : other = id
  · rw [same]
    exact own
  · obtain ⟨owned, nbr, nbrp⟩ := others other same
    rw [owned, nbr, nbrp]
    exact secured.nbrs other

/-- What is stored for one neighbor does not show for the others. -/
theorem AuthEngine.put_other (engine : AuthEngine) {id other : InAddr} (different : other ≠ id)
    (result : Sadb × AuthNbr) : (engine.put id result).nbrs[other]? = engine.nbrs[other]? :=
  (Tree.getElem?_insert engine.nbrs id other result.2).trans (if_neg different.symm)

theorem AuthEngine.put_self (engine : AuthEngine) (id : InAddr) (result : Sadb × AuthNbr) :
    (engine.put id result).nbrs[id]? = some result.2 :=
  (Tree.getElem?_insert engine.nbrs id id result.2).trans (if_pos rfl)

/-- A neighbor and its associations are stored. -/
theorem AuthEngine.Secured.put (secured : engine.Secured) (id : InAddr) {result : Sadb × AuthNbr}
    (orderly : result.1.Orderly)
    (others : ∀ other, other ≠ id → result.1.owned other = engine.sadb.owned other)
    (own : NbrSecured id (result.1.owned id) (some result.2) engine.nbrps[id]?) :
    (engine.put id result).Secured := by
  refine secured.change id orderly (fun other different => ?_) ?_
  · exact ⟨others other different, engine.put_other different result, rfl⟩
  · rw [engine.put_self]
    exact own

/-- A neighbor has no associations. -/
def AuthEngine.Unkeyed (engine : AuthEngine) (id : InAddr) : Prop :=
  engine.sadb.owned id = [] ∧ ∀ nbr, engine.nbrs[id]? = some nbr → nbr.Bare

theorem AuthEngine.Unkeyed.nbrSecured {id : InAddr} (unkeyed : engine.Unkeyed id)
    (nbrp : Option NbrParams) : NbrSecured id (engine.sadb.owned id) engine.nbrs[id]? nbrp := by
  cases found : engine.nbrs[id]? with
  | none => exact .gone unkeyed.1
  | some nbr => exact .bare (unkeyed.2 nbr found) unkeyed.1

/-- A neighbor after `pfkey_remove` has no associations. -/
theorem AuthEngine.Secured.remove (secured : engine.Secured) (id : InAddr) :
    (engine.remove id).Secured ∧ (engine.remove id).Unkeyed id := by
  have own := secured.nbrs id
  generalize engine.nbrps[id]? = nbrp at own
  rw [AuthEngine.remove]
  split
  · rename_i absent
    rw [absent] at own
    cases own with
    | gone unowned =>
      refine ⟨secured, unowned, fun nbr found => ?_⟩
      cases absent.symm.trans found
  · rename_i nbr found
    rw [found] at own
    have single {result : Sadb × AuthNbr} (owned : result.1.owned id = []) (bare : result.2.Bare) :
        (engine.put id result).Unkeyed id := by
      refine ⟨owned, fun after there => ?_⟩
      cases (engine.put_self id result).symm.trans there
      exact bare
    cases own with
    | bare bare unowned =>
      rw [pfkeyRemove_bare bare]
      exact ⟨secured.put id secured.orderly (fun _ _ => rfl) (.bare bare unowned), single unowned bare⟩
    | keyed method keyed =>
      obtain ⟨orderly, others, unowned, after⟩ := pfkeyRemove_keyed secured.orderly keyed
      have bare : (pfkeyRemove engine.sadb nbr).2.Bare := by
        rw [after]
        exact ⟨rfl, rfl, rfl⟩
      exact ⟨secured.put id orderly others (.bare bare unowned), single unowned bare⟩

/-- The parameters of a neighbor without associations may change. -/
theorem AuthEngine.Secured.setParams (secured : engine.Secured) {id : InAddr}
    (unkeyed : engine.Unkeyed id) {nbrps : Std.ExtTreeMap InAddr NbrParams compare}
    (others : ∀ other, other ≠ id → nbrps[other]? = engine.nbrps[other]?) :
    AuthEngine.Secured { engine with nbrps } :=
  secured.change id secured.orderly (fun other different => ⟨rfl, rfl, others other different⟩)
    (unkeyed.nbrSecured nbrps[id]?)

/-- A neighbor gets its associations, if its parameters ask for them and it has none. -/
theorem AuthEngine.Secured.establish (secured : engine.Secured) (fresh : FreshSpi getspi) {id : InAddr}
    {nbrp : NbrParams} (params : engine.nbrps[id]? = some nbrp) :
    (engine.establish getspi id nbrp).Secured := by
  have own := secured.nbrs id
  rw [AuthEngine.establish]
  split
  · exact secured
  rename_i nbr found
  rw [found, params] at own
  cases method : nbrp.method with
  | none =>
    have same : pfkeyEstablish getspi engine.sadb id nbr nbrp = (engine.sadb, nbr) := by
      rw [pfkeyEstablish, method]
    rw [same]
    exact secured.put id secured.orderly (fun _ _ => rfl) (params ▸ own)
  | md5sig =>
    cases own with
    | bare bare unowned =>
      obtain ⟨orderly, others, keyed⟩ := pfkeyEstablish_bare secured.orderly fresh bare unowned method
      exact secured.put id orderly others (params ▸ .keyed method keyed)
    | keyed _ keyed =>
      rw [pfkeyEstablish_keyed keyed method]
      refine secured.put id secured.orderly (fun _ _ => rfl) (params ▸ .keyed method ?_)
      exact ⟨keyed.established, rfl, keyed.spiIn, keyed.spiOut, keyed.owned⟩

theorem AuthEngine.Secured.establishFound (secured : engine.Secured) (fresh : FreshSpi getspi)
    (id : InAddr) : (engine.establishFound getspi id).Secured := by
  rw [AuthEngine.establishFound]
  split
  · exact secured
  · rename_i nbrp found
    exact secured.establish fresh found

/-- A neighbor that has no associations is stored. -/
theorem AuthEngine.Secured.insert (secured : engine.Secured) {id : InAddr}
    (unowned : engine.sadb.owned id = []) {nbr : AuthNbr} (bare : nbr.Bare) :
    AuthEngine.Secured { engine with nbrs := engine.nbrs.insert id nbr } := by
  show (engine.put id (engine.sadb, nbr)).Secured
  exact secured.put id secured.orderly (fun _ _ => rfl) (.bare bare unowned)

theorem AuthEngine.Secured.nbrNew (secured : engine.Secured) (fresh : FreshSpi getspi) (id : InAddr)
    (af : Af) (raddr : LdpdAddr) : (engine.nbrNew getspi id af raddr).Secured := by
  rw [AuthEngine.nbrNew]
  split_ifs with known
  · exact secured
  · have own := secured.nbrs id
    rw [Std.ExtTreeMap.getElem?_eq_none known] at own
    cases own with
    | gone unowned => exact (secured.insert unowned ⟨rfl, rfl, rfl⟩).establishFound fresh id

theorem AuthEngine.Secured.nbrDel (secured : engine.Secured) (id : InAddr) :
    (engine.nbrDel id).Secured := by
  obtain ⟨removed, unkeyed⟩ := secured.remove id
  refine removed.change id removed.orderly (fun other different => ⟨rfl, ?_, rfl⟩) ?_
  · exact (Tree.getElem?_erase _ id other).trans (if_neg different.symm)
  · have gone : (engine.nbrDel id).nbrs[id]? = none :=
      (Tree.getElem?_erase _ id id).trans (if_pos rfl)
    rw [gone]
    exact .gone unkeyed.1

theorem AuthEngine.Secured.mergeDeleted (secured : engine.Secured) (xnbrps : List NbrParams)
    (id : InAddr) : (engine.mergeDeleted xnbrps id).Secured := by
  rw [AuthEngine.mergeDeleted]
  split_ifs
  · exact secured
  · obtain ⟨removed, unkeyed⟩ := secured.remove id
    exact removed.setParams unkeyed fun other different =>
      (Tree.getElem?_erase _ id other).trans (if_neg different.symm)

/-- `pfkey_remove` reads no parameters. -/
theorem AuthEngine.remove_nbrps (engine : AuthEngine) (id : InAddr)
    (nbrps : Std.ExtTreeMap InAddr NbrParams compare) :
    AuthEngine.remove { engine with nbrps } id = { engine.remove id with nbrps } := by
  rw [AuthEngine.remove, AuthEngine.remove]
  cases engine.nbrs[id]? <;> rfl

theorem AuthEngine.remove_nbrps_eq (engine : AuthEngine) (id : InAddr) :
    (engine.remove id).nbrps = engine.nbrps := by
  rw [AuthEngine.remove]
  split <;> rfl

theorem AuthEngine.Secured.mergeNbrp (secured : engine.Secured) (fresh : FreshSpi getspi)
    (xn : NbrParams) : (engine.mergeNbrp getspi xn).Secured := by
  have params : (engine.nbrps.insert xn.lsrId xn)[xn.lsrId]? = some xn :=
    (Tree.getElem?_insert _ _ _ _).trans (if_pos rfl)
  have others (other : InAddr) (different : other ≠ xn.lsrId) :
      (engine.nbrps.insert xn.lsrId xn)[other]? = engine.nbrps[other]? :=
    (Tree.getElem?_insert _ _ _ _).trans (if_neg different.symm)
  have own := secured.nbrs xn.lsrId
  rw [AuthEngine.mergeNbrp]
  split
  · rename_i unknown
    rw [unknown] at own
    have unkeyed : engine.Unkeyed xn.lsrId := by
      generalize found : engine.nbrs[xn.lsrId]? = nbr at own
      cases own with
      | gone unowned =>
        refine ⟨unowned, fun nbr there => ?_⟩
        cases found.symm.trans there
      | bare bare unowned =>
        refine ⟨unowned, fun nbr there => ?_⟩
        cases found.symm.trans there
        exact bare
    exact (secured.setParams unkeyed others).establish fresh params
  · rename_i nbrp known
    split_ifs with changed
    · rw [AuthEngine.remove_nbrps]
      obtain ⟨removed, unkeyed⟩ := secured.remove xn.lsrId
      refine (removed.setParams unkeyed fun other different => ?_).establish fresh params
      rw [AuthEngine.remove_nbrps_eq]
      exact others other different
    · rw [nbrpChanged, decide_eq_true_iff] at changed
      simp only [not_or, ne_eq, not_not] at changed
      obtain ⟨-, -, -, -, method, key⟩ := changed
      refine secured.change xn.lsrId secured.orderly (fun other different =>
        ⟨rfl, rfl, others other different⟩) ?_
      rw [known] at own
      show NbrSecured _ _ _ (engine.nbrps.insert xn.lsrId xn)[xn.lsrId]?
      rw [params]
      generalize engine.nbrs[xn.lsrId]? = nbr at own
      cases own with
      | gone unowned => exact .gone unowned
      | bare bare unowned => exact .bare bare unowned
      | keyed md5sig keyed => exact .keyed (method ▸ md5sig) (key ▸ keyed)

theorem AuthEngine.Secured.mergeNbrps (secured : engine.Secured) (fresh : FreshSpi getspi)
    (xnbrps : List NbrParams) : (engine.mergeNbrps getspi xnbrps).Secured := by
  rw [AuthEngine.mergeNbrps]
  refine List.foldlRecOn xnbrps _ ?_ fun _ merged xn _ => merged.mergeNbrp fresh xn
  exact List.foldlRecOn _ _ secured fun _ merged id _ => merged.mergeDeleted xnbrps id

theorem AuthEngine.Secured.closeNbr (secured : engine.Secured) (af : Af) (id : InAddr) :
    (engine.closeNbr af id).Secured := by
  rw [AuthEngine.closeNbr]
  split
  · exact secured
  split_ifs
  · exact (secured.remove id).1
  · exact secured

/-- The neighbors of a family that have associations have them for the transport address. -/
def AuthEngine.Settled (engine : AuthEngine) (af : Af) : Prop :=
  ∀ (id : InAddr) nbr, engine.nbrs[id]? = some nbr → nbr.af = af → nbr.auth.established = true →
    nbr.laddr = engine.transAddr af

theorem AuthEngine.establishFound_other (engine : AuthEngine) (id : InAddr) {other : InAddr}
    (different : other ≠ id) :
    (engine.establishFound getspi id).nbrs[other]? = engine.nbrs[other]? := by
  rw [AuthEngine.establishFound]
  split
  · rfl
  rw [AuthEngine.establish]
  split
  · rfl
  · exact engine.put_other different _

/-- What `pfkey_establish` leaves of a neighbor besides its `auth`. -/
theorem pfkeyEstablish_nbr (sadb : Sadb) (id : InAddr) (nbr : AuthNbr) (nbrp : NbrParams) :
    (pfkeyEstablish getspi sadb id nbr nbrp).2.laddr = nbr.laddr := by
  rw [pfkeyEstablish]
  split <;> rfl

theorem AuthEngine.establishFound_laddr (engine : AuthEngine) {id : InAddr} {nbr after : AuthNbr}
    (before : engine.nbrs[id]? = some nbr)
    (found : (engine.establishFound getspi id).nbrs[id]? = some after) : after.laddr = nbr.laddr := by
  rw [AuthEngine.establishFound] at found
  split at found
  · cases before.symm.trans found
    rfl
  rw [AuthEngine.establish, before] at found
  cases (engine.put_self id _).symm.trans found
  exact pfkeyEstablish_nbr _ _ _ _

theorem AuthEngine.establishFound_transAddr (engine : AuthEngine) (id : InAddr) :
    (engine.establishFound getspi id).transAddr = engine.transAddr := by
  rw [AuthEngine.establishFound]
  split
  · rfl
  rw [AuthEngine.establish]
  split <;> rfl

/-- One neighbor gets the new transport address, and associations for it. -/
theorem AuthEngine.Secured.setupNbr (secured : engine.Secured) (fresh : FreshSpi getspi) {af : Af}
    (settled : engine.Settled af) (id : InAddr) :
    (engine.setupNbr getspi af id).Secured ∧ (engine.setupNbr getspi af id).Settled af := by
  rw [AuthEngine.setupNbr]
  split
  · exact ⟨secured, settled⟩
  rename_i nbr found
  split_ifs with family
  · have own := secured.nbrs id
    rw [found] at own
    have stored : ({ engine with nbrs := engine.nbrs.insert id { nbr with
        laddr := engine.transAddr af } } : AuthEngine).nbrs[id]? =
          some { nbr with laddr := engine.transAddr af } :=
      (Tree.getElem?_insert _ _ _ _).trans (if_pos rfl)
    refine ⟨AuthEngine.Secured.establishFound ?_ fresh id, fun other after there family' up => ?_⟩
    · generalize params : engine.nbrps[id]? = nbrp at own
      cases own with
      | bare bare unowned => exact secured.insert unowned bare
      | keyed method keyed =>
        have same := settled id nbr found family keyed.established
        rw [← same]
        show (engine.put id (engine.sadb, nbr)).Secured
        refine secured.put id secured.orderly (fun _ _ => rfl) ?_
        rw [params]
        exact .keyed method keyed
    · rw [AuthEngine.establishFound_transAddr]
      by_cases same : other = id
      · subst same
        rw [AuthEngine.establishFound_laddr _ stored there]
      · rw [AuthEngine.establishFound_other _ _ same] at there
        have kept := (Tree.getElem?_insert engine.nbrs id other _).symm.trans there
        rw [if_neg fun equal => same equal.symm] at kept
        exact settled other after kept family' up
  · exact ⟨secured, settled⟩

/-- `IMSG_SETUP_SOCKETS` finds the neighbors of its family settled. -/
def SetupSettled (engine : AuthEngine) : AuthEvent → Prop
  | .setupSockets af => engine.Settled af
  | .nbrNew .. | .nbrDel _ | .reload .. | .closeSockets _ => True

theorem AuthEngine.Secured.step (secured : engine.Secured) (fresh : FreshSpi getspi) {event : AuthEvent}
    (settled : SetupSettled engine event) : (engine.step getspi event).Secured := by
  cases event with
  | nbrNew id af raddr => exact secured.nbrNew fresh id af raddr
  | nbrDel id => exact secured.nbrDel id
  | reload ipv4TransAddr ipv6TransAddr nbrps =>
    have readdressed (transAddr : Af → LdpdAddr) : AuthEngine.Secured { engine with transAddr } :=
      ⟨secured.orderly, secured.nbrs⟩
    exact (readdressed _).mergeNbrps fresh nbrps
  | closeSockets af => exact List.foldlRecOn _ _ secured fun _ closed id _ => closed.closeNbr af id
  | setupSockets af =>
    have both : (engine.step getspi (.setupSockets af)).Secured ∧
        (engine.step getspi (.setupSockets af)).Settled af :=
      List.foldlRecOn (motive := fun (engine : AuthEngine) => engine.Secured ∧ engine.Settled af) _ _
        ⟨secured, settled⟩ fun _ setup id _ => setup.1.setupNbr fresh setup.2 id
    exact both.1

end Engine

/-! ### Authentication in every run -/

/-- The associations of the neighbors match the session addresses: a neighbor whose `established` is set
has its two associations for its current addresses and the key of its current parameters, one without
MD5 parameters has none, and no association was deleted with other addresses than it was installed
with. -/
structure AuthEngine.Matches (engine : AuthEngine) : Prop where
  established : ∀ (id : InAddr) nbr, engine.nbrs[id]? = some nbr → nbr.auth.established = true →
    ∃ nbrp : NbrParams, engine.nbrps[id]? = some nbrp ∧ nbrp.method = .md5sig ∧
      engine.sadb.owned id = nbr.sas id nbrp.md5key
  plain : ∀ (id : InAddr) nbr, engine.nbrs[id]? = some nbr →
    (∀ nbrp : NbrParams, engine.nbrps[id]? = some nbrp → nbrp.method = .none) →
    engine.sadb.owned id = []
  deleted : engine.sadb.stray = []

theorem AuthEngine.Secured.matched {engine : AuthEngine} (secured : engine.Secured) :
    engine.Matches := by
  refine ⟨fun id nbr found up => ?_, fun id nbr found unset => ?_, secured.orderly.stray⟩
  · have own := secured.nbrs id
    generalize engine.nbrps[id]? = nbrp at own ⊢
    rw [found] at own
    cases own with
    | bare bare _ => exact absurd (bare.1.symm.trans up) Bool.false_ne_true
    | keyed method keyed => exact ⟨_, rfl, method, keyed.owned⟩
  · have own := secured.nbrs id
    generalize engine.nbrps[id]? = nbrp at own unset
    rw [found] at own
    cases own with
    | bare _ unowned => exact unowned
    | keyed method _ => cases method.symm.trans (unset _ rfl)

theorem secured_start (ipv4TransAddr ipv6TransAddr : LdpdAddr) (nbrps : List NbrParams) :
    (AuthEngine.start ipv4TransAddr ipv6TransAddr nbrps).Secured where
  orderly := ⟨List.nodup_nil, fun _ member => absurd member List.not_mem_nil, rfl⟩
  nbrs id := by
    have none : (AuthEngine.start ipv4TransAddr ipv6TransAddr nbrps).nbrs[id]? = none :=
      Std.ExtTreeMap.getElem?_empty
    rw [none]
    exact .gone rfl

/-- In every run in which new sockets find every neighbor with associations at the transport address,
the associations match the session addresses. -/
theorem associations_match {getspi : Nat → List Sa → LdpdAddr → Nat} (fresh : FreshSpi getspi)
    (ipv4TransAddr ipv6TransAddr : LdpdAddr) (nbrps : List NbrParams) (events : List AuthEvent)
    (settled : Run.Allowed (AuthEngine.step getspi) SetupSettled
      (AuthEngine.start ipv4TransAddr ipv6TransAddr nbrps) events) :
    (events.foldl (AuthEngine.step getspi)
      (AuthEngine.start ipv4TransAddr ipv6TransAddr nbrps)).Matches := by
  have secured := Run.foldl_of_allowed AuthEngine.Secured
    (fun _ _ secured settled => secured.step fresh settled)
    (secured_start ipv4TransAddr ipv6TransAddr nbrps) settled
  exact secured.matched

/-! ### A reload between closing and setting up the sockets -/

/-- A kernel that picks, at each request, an SPI after those of the destination. -/
def nextSpi (picked : Nat) (sas : List Sa) (dst : LdpdAddr) : Nat :=
  ((sas.filter fun sa => sa.dst = dst).map Sa.spi).foldr max 0 + 256 + picked

theorem nextSpi_fresh : FreshSpi nextSpi := by
  refine ⟨fun _ _ _ => by unfold nextSpi; omega, fun picked sas dst sa member destination same => ?_⟩
  have listed : sa.spi ∈ (sas.filter fun sa => sa.dst = dst).map Sa.spi :=
    List.mem_map_of_mem (List.mem_filter.mpr ⟨member, decide_eq_true destination⟩)
  have bound : sa.spi ≤ ((sas.filter fun sa => sa.dst = dst).map Sa.spi).foldr max 0 :=
    List.le_max_of_le listed le_rfl
  rw [same, nextSpi] at bound
  omega

/-- The parameters of 10.0.0.2 with a password. -/
def password : NbrParams where
  lsrId := 0x0a000002
  method := .md5sig
  md5key := "secret"

/-- The neighbor 10.0.0.2 is there when the transport address changes from 10.0.0.1 to 10.0.0.9. -/
def readdressed (before between : List NbrParams) : List AuthEvent :=
  [.nbrNew 0x0a000002 .inet (.v4 0x0a000002), .reload (.v4 0x0a000009) (.v6 0) before,
    .closeSockets .inet, .reload (.v4 0x0a000009) (.v6 0) between, .setupSockets .inet]

/-- The password is set with the transport address. -/
theorem associations_match_readdressed :
    ((readdressed [password] [password]).foldl (AuthEngine.step nextSpi)
      (AuthEngine.start (.v4 0x0a000001) (.v6 0) [])).Matches := by
  refine associations_match nextSpi_fresh _ _ [] (readdressed [password] [password])
    ⟨trivial, trivial, trivial, trivial, fun id nbr found _ up => ?_, trivial⟩
  have idle : ((readdressed [password] [password]).take 4 |>.foldl (AuthEngine.step nextSpi)
      (AuthEngine.start (.v4 0x0a000001) (.v6 0) [])).nbrs.toList.all
        (fun entry => !entry.2.auth.established) = true := by decide +kernel
  have member := Std.ExtTreeMap.mem_toList_iff_getElem?_eq_some.mpr found
  have down := List.all_eq_true.mp idle _ member
  rw [up] at down
  cases down

/-- The password is set while the sockets are closed: the associations are for the old address. -/
theorem associations_mismatch :
    ¬((readdressed [] [password]).foldl (AuthEngine.step nextSpi)
      (AuthEngine.start (.v4 0x0a000001) (.v6 0) [])).Matches := by
  intro matched
  have found : ((readdressed [] [password]).foldl (AuthEngine.step nextSpi)
      (AuthEngine.start (.v4 0x0a000001) (.v6 0) [])).nbrs[(0x0a000002 : InAddr)]? =
        some ⟨.inet, .v4 0x0a000009, .v4 0x0a000002, ⟨.md5sig, "secret", 257, 256, true⟩⟩ := by
    decide +kernel
  have addresses : (((readdressed [] [password]).foldl (AuthEngine.step nextSpi)
      (AuthEngine.start (.v4 0x0a000001) (.v6 0) [])).sadb.owned 0x0a000002).map Sa.src =
        [.v4 0x0a000002, .v4 0x0a000001] := by
    decide +kernel
  obtain ⟨nbrp, -, -, owned⟩ := matched.established _ _ found rfl
  rw [owned] at addresses
  have changed : LdpdAddr.v4 0x0a000009 = .v4 0x0a000001 := (List.cons.inj (List.cons.inj addresses).2).1
  exact absurd changed (by decide)

end Ldpd
