/-
This file follows the sockets from the parent process, which creates them, to
the LDP engine, which installs them: `main_imsg_send_net_sockets` of `ldpd.c`, the
pipe, and the part of `ldpe_dispatch_main` of `ldpe.c` that keeps three descriptors
in static variables until `IMSG_SETUP_SOCKETS` comes. A socket that could not be
created shows in the pipe only by the message that is missing, and the static
variables are not cleared when a request is over: what is installed in its place
is what an earlier request left in the variable.
-/

import Ldpd.Types
import Ldpd.Library.Run

namespace Ldpd

/-! ### The two processes -/

/-- `enum socket_type`. -/
inductive SocketType where
  | disc
  | edisc
  | session
  deriving DecidableEq, Repr

/-- One call of `main_imsg_send_net_sockets`, with the sockets that `ldp_create_socket` made. -/
structure SocketRequest where
  id : Nat
  af : Af
  created : List SocketType
  deriving DecidableEq, Repr

/-- An open socket: its type and the request it was created for. -/
structure Socket where
  type : SocketType
  request : SocketRequest
  deriving DecidableEq, Repr

/-- The messages on the pipe from the parent to the engine. A descriptor travels as the socket it
stands for; it has its number only in the process that receives it. -/
inductive SocketImsg where
  | closeSockets (af : Af)
  | socketNet (socket : Socket)
  | setupSockets (request : SocketRequest)
  | reconf (enabled : Af → Bool)

/-- What was installed by `ldpe_setup_sockets`: the sockets that the three descriptors stood for. -/
structure SocketSetup where
  request : SocketRequest
  sockets : SocketType → Option Socket

/-- The parent, the pipe, and what the engine keeps of its sockets. -/
structure SocketState where
  requests : Nat := 0
  pipe : List SocketImsg := []
  -- disc_socket, edisc_socket and session_socket of ldpe_dispatch_main, none for -1
  received : SocketType → Option Nat := fun _ => none
  -- ldp_disc_socket, ldp_edisc_socket and ldp_session_socket of struct ldpd_af_global
  installed : Af → SocketType → Option Nat := fun _ _ => none
  -- the open descriptors of the engine
  files : Nat → Option Socket := fun _ => none
  enabled : Af → Bool
  toMain : List Af := []
  setups : List SocketSetup := []

namespace SocketState

/-- `close`. -/
def close (state : SocketState) (fd : Nat) : SocketState :=
  { state with files := Function.update state.files fd none }

/-- `if (fd != -1) close(fd)`. -/
def closeIfOpen (state : SocketState) (fd : Option Nat) : SocketState :=
  match fd with
  | none => state
  | some fd => state.close fd

/-- `main_imsg_send_net_socket`. -/
def sendNetSocket (request : SocketRequest) (type : SocketType) : List SocketImsg :=
  if type ∈ request.created then [.socketNet ⟨type, request⟩] else []

/-- `main_imsg_send_net_sockets`. -/
def sendNetSockets (request : SocketRequest) : List SocketImsg :=
  sendNetSocket request .disc ++ sendNetSocket request .edisc ++ sendNetSocket request .session ++
    [.setupSockets request]

/-- The sockets that the static variables stand for. -/
def held (state : SocketState) (type : SocketType) : Option Socket :=
  (state.received type).bind state.files

/-- `ldpe_setup_sockets`. -/
def ldpeSetupSockets (state : SocketState) (request : SocketRequest)
    (disc edisc session : Nat) : SocketState :=
  { state with
    installed := Function.update state.installed request.af fun
      | .disc => some disc
      | .edisc => some edisc
      | .session => some session
    setups := state.setups ++ [⟨request, fun
      | .disc => state.files disc
      | .edisc => state.files edisc
      | .session => state.files session⟩] }

/-- A socket of a family is closed and forgotten. -/
def closeInstalled (af : Af) (state : SocketState) (type : SocketType) : SocketState :=
  match state.installed af type with
  | none => state
  | some fd =>
    { state.close fd with
      installed := Function.update state.installed af
        (Function.update (state.installed af) type none) }

/-- `ldpe_close_sockets`. -/
def ldpeCloseSockets (state : SocketState) (af : Af) : SocketState :=
  [SocketType.disc, .edisc, .session].foldl (closeInstalled af) state

/-- `IMSG_SETUP_SOCKETS` in `ldpe_dispatch_main`. -/
def dispatchSetupSockets (state : SocketState) (request : SocketRequest) : SocketState :=
  match state.received .disc, state.received .edisc, state.received .session with
  | some disc, some edisc, some session => state.ldpeSetupSockets request disc edisc session
  | disc, edisc, session =>
    ((state.closeIfOpen disc).closeIfOpen edisc).closeIfOpen session

/-- `IMSG_CLOSE_SOCKETS` in `ldpe_dispatch_main`. -/
def dispatchCloseSockets (state : SocketState) (af : Af) : SocketState :=
  let state := { state.ldpeCloseSockets af with received := fun _ => none }
  if state.enabled af then { state with toMain := state.toMain ++ [af] } else state

/-- The next message is handled. The kernel gives a descriptor that comes with it a number that is
not in use. -/
def ldpeDispatchMain (state : SocketState) (fd : Nat) : SocketState :=
  match state.pipe with
  | [] => state
  | .closeSockets af :: rest => { state with pipe := rest }.dispatchCloseSockets af
  | .socketNet socket :: rest =>
    if (state.files fd).isSome then state else
    { state with
      pipe := rest
      files := Function.update state.files fd (some socket)
      received := Function.update state.received socket.type (some fd) }
  | .setupSockets request :: rest => { state with pipe := rest }.dispatchSetupSockets request
  | .reconf enabled :: rest => { state with pipe := rest, enabled }

end SocketState

/-- What happens to the sockets: the parent handles a request, of which some sockets are created, or
reloads its configuration, after which it may close the sockets of a family; the engine handles
a message. -/
inductive SocketInput where
  | request (af : Af) (created : List SocketType)
  | reload (enabled : Af → Bool)
  | close (af : Af)
  | handle (fd : Nat)

def socketStep (state : SocketState) : SocketInput → SocketState
  | .request af created =>
    { state with
      requests := state.requests + 1
      pipe := state.pipe ++ SocketState.sendNetSockets ⟨state.requests, af, created⟩ }
  | .reload enabled => { state with pipe := state.pipe ++ [.reconf enabled] }
  | .close af => { state with pipe := state.pipe ++ [.closeSockets af] }
  | .handle fd => state.ldpeDispatchMain fd

/-! ### Setups -/

/-- All that is installed is open, of the type that it is installed as, and was created by the
request, for its family. -/
def SocketSetup.Own (setup : SocketSetup) : Prop :=
  ∀ type, setup.sockets type = some ⟨type, setup.request⟩

/-- When a request is completed of which a socket is missing, the variable of one that is missing is
still clear. -/
def Unmixed (state : SocketState) : SocketInput → Prop
  | .handle _ => ∀ request rest, state.pipe = .setupSockets request :: rest →
    (∀ type, type ∈ request.created) ∨ ∃ type, type ∉ request.created ∧ state.received type = none
  | _ => True

/-! ### What the pipe holds -/

namespace SocketState

/-- The descriptors that the variables stand for when a request is completed are there or on their
way, one for each socket that was created. -/
def Expects : (SocketType → Option Socket) → List SocketImsg → Prop
  | _, [] => True
  | _, .closeSockets _ :: rest => Expects (fun _ => none) rest
  | held, .socketNet socket :: rest =>
    socket.type ∈ socket.request.created ∧ Expects (Function.update held socket.type socket) rest
  | held, .setupSockets request :: rest =>
    (∀ type ∈ request.created, held type = some ⟨type, request⟩) ∧ Expects (fun _ => none) rest
  | held, .reconf _ :: rest => Expects held rest

theorem Expects.mono {held held' : SocketType → Option Socket} {pipe : List SocketImsg}
    (expects : Expects held pipe)
    (more : ∀ type socket, held type = some socket → held' type = some socket) :
    Expects held' pipe := by
  induction pipe generalizing held held' with
  | nil => trivial
  | cons imsg rest inductionHypothesis =>
    cases imsg with
    | closeSockets af => exact expects
    | socketNet socket =>
      refine ⟨expects.1, inductionHypothesis expects.2 fun type other => ?_⟩
      by_cases same : type = socket.type
      · subst same
        rw [Function.update_self, Function.update_self]
        exact id
      · rw [Function.update_of_ne same, Function.update_of_ne same]
        exact more type other
    | setupSockets request => exact ⟨fun type made => more _ _ (expects.1 type made), expects.2⟩
    | reconf enabled =>
      have expects' : Expects held rest := expects
      exact inductionHypothesis expects' more

theorem Expects.append {held : SocketType → Option Socket} {pipe more : List SocketImsg}
    (expects : Expects held pipe) (always : ∀ held, Expects held more) :
    Expects held (pipe ++ more) := by
  induction pipe generalizing held with
  | nil => exact always held
  | cons imsg rest inductionHypothesis =>
    cases imsg with
    | closeSockets af =>
      have expects' : Expects (fun _ => none) rest := expects
      exact inductionHypothesis expects'
    | socketNet socket => exact ⟨expects.1, inductionHypothesis expects.2⟩
    | setupSockets request => exact ⟨expects.1, inductionHypothesis expects.2⟩
    | reconf enabled =>
      have expects' : Expects held rest := expects
      exact inductionHypothesis expects'

/-- One socket of a request, and what comes after it. -/
theorem expects_sendNetSocket {held : SocketType → Option Socket} {request : SocketRequest}
    {type : SocketType} {rest : List SocketImsg}
    (after : ∀ held', (∀ other, other ≠ type → held' other = held other) →
      (type ∈ request.created → held' type = some ⟨type, request⟩) → Expects held' rest) :
    Expects held (sendNetSocket request type ++ rest) := by
  rw [sendNetSocket]
  split
  · rename_i made
    refine ⟨made, after _ (fun other different => Function.update_of_ne different ..) fun _ => ?_⟩
    exact Function.update_self ..
  · rename_i failed
    exact after held (fun _ _ => rfl) fun made => absurd made failed

theorem expects_sendNetSockets (held : SocketType → Option Socket) (request : SocketRequest) :
    Expects held (sendNetSockets request) := by
  rw [sendNetSockets, List.append_assoc, List.append_assoc]
  refine expects_sendNetSocket fun held₁ _ disc => ?_
  refine expects_sendNetSocket fun held₂ others₂ edisc => ?_
  refine expects_sendNetSocket fun held₃ others₃ session => ⟨fun type made => ?_, trivial⟩
  cases type with
  | disc => rw [others₃ _ (by decide), others₂ _ (by decide), disc made]
  | edisc => rw [others₃ _ (by decide), edisc made]
  | session => exact session made

/-- The open sockets were created, and so are those that the pipe is about to bring. -/
structure Ordered (state : SocketState) : Prop where
  files : ∀ fd socket, state.files fd = some socket → socket.type ∈ socket.request.created
  pipe : Expects state.held state.pipe

variable {state : SocketState}

theorem Ordered.made (ordered : state.Ordered) {type : SocketType} {socket : Socket}
    (held : state.held type = some socket) : socket.type ∈ socket.request.created := by
  obtain ⟨fd, -, opened⟩ := Option.bind_eq_some_iff.mp held
  exact ordered.files fd socket opened

/-- Nothing is opened, and what is on the pipe asks for nothing that is there. -/
theorem Ordered.closes (ordered : state.Ordered) {state' : SocketState}
    (expects : Expects (fun _ => none) state'.pipe)
    (files : ∀ fd socket, state'.files fd = some socket → state.files fd = some socket) :
    state'.Ordered where
  files fd socket opened := ordered.files fd socket (files fd socket opened)
  pipe := expects.mono fun type socket held => by cases held

theorem files_close (state : SocketState) (closed fd : Nat) (socket : Socket)
    (opened : (state.close closed).files fd = some socket) : state.files fd = some socket := by
  have updated : Function.update state.files closed none fd = some socket := opened
  by_cases same : fd = closed
  · subst same
    rw [Function.update_self] at updated
    cases updated
  · rw [Function.update_of_ne same] at updated
    exact updated

theorem files_closeIfOpen (state : SocketState) (closed : Option Nat) (fd : Nat) (socket : Socket)
    (opened : (state.closeIfOpen closed).files fd = some socket) : state.files fd = some socket := by
  cases closed with
  | none => exact opened
  | some closed => exact files_close state closed fd socket opened

theorem files_closeInstalled (state : SocketState) (af : Af) (type : SocketType) (fd : Nat)
    (socket : Socket) (opened : (closeInstalled af state type).files fd = some socket) :
    state.files fd = some socket := by
  rw [closeInstalled] at opened
  split at opened
  · exact opened
  · exact files_close state _ fd socket opened

theorem pipe_closeInstalled (state : SocketState) (af : Af) (type : SocketType) :
    (closeInstalled af state type).pipe = state.pipe := by
  rw [closeInstalled]
  split
  · rfl
  · rfl

theorem setups_closeInstalled (state : SocketState) (af : Af) (type : SocketType) :
    (closeInstalled af state type).setups = state.setups := by
  rw [closeInstalled]
  split
  · rfl
  · rfl

theorem dispatchCloseSockets_spec (state : SocketState) (af : Af) :
    (state.dispatchCloseSockets af).pipe = state.pipe ∧
      (state.dispatchCloseSockets af).setups = state.setups ∧
        ∀ fd socket, (state.dispatchCloseSockets af).files fd = some socket →
          state.files fd = some socket := by
  have closed : (state.ldpeCloseSockets af).pipe = state.pipe ∧
      (state.ldpeCloseSockets af).setups = state.setups ∧
        ∀ fd socket, (state.ldpeCloseSockets af).files fd = some socket →
          state.files fd = some socket := by
    simp only [ldpeCloseSockets, List.foldl_cons, List.foldl_nil, pipe_closeInstalled,
      setups_closeInstalled, true_and]
    intro fd socket opened
    exact files_closeInstalled _ _ _ _ _ (files_closeInstalled _ _ _ _ _
      (files_closeInstalled _ _ _ _ _ opened))
  rw [dispatchCloseSockets]
  dsimp only
  split
  · exact closed
  · exact closed

/-- A request is completed: everything is installed, or nothing. -/
theorem dispatchSetupSockets_spec (state : SocketState) (request : SocketRequest) :
    (state.dispatchSetupSockets request).pipe = state.pipe ∧
      (∀ fd socket, (state.dispatchSetupSockets request).files fd = some socket →
        state.files fd = some socket) ∧
          ((∀ type, state.received type ≠ none) ∧
              (state.dispatchSetupSockets request).setups = state.setups ++ [⟨request, state.held⟩] ∨
            (∃ type, state.received type = none) ∧
              (state.dispatchSetupSockets request).setups = state.setups) := by
  rw [dispatchSetupSockets]
  split
  · rename_i disc edisc session first second third
    refine ⟨rfl, fun _ _ => id, .inl ⟨fun type => ?_, ?_⟩⟩
    · cases type with
      | disc => exact Option.ne_none_iff_exists'.mpr ⟨disc, first⟩
      | edisc => exact Option.ne_none_iff_exists'.mpr ⟨edisc, second⟩
      | session => exact Option.ne_none_iff_exists'.mpr ⟨session, third⟩
    · have sockets : state.held = fun
          | .disc => state.files disc
          | .edisc => state.files edisc
          | .session => state.files session := by
        funext type
        cases type with
        | disc => exact congrArg (Option.bind · state.files) first
        | edisc => exact congrArg (Option.bind · state.files) second
        | session => exact congrArg (Option.bind · state.files) third
      rw [sockets, ldpeSetupSockets]
  · rename_i disc edisc session missing
    have kept : ∀ (state : SocketState) fd, (state.closeIfOpen fd).pipe = state.pipe ∧
        (state.closeIfOpen fd).setups = state.setups := by
      intro state fd
      cases fd with
      | none => exact ⟨rfl, rfl⟩
      | some fd => exact ⟨rfl, rfl⟩
    refine ⟨?_, fun fd socket opened => ?_, .inr ⟨?_, ?_⟩⟩
    · rw [(kept _ _).1, (kept _ _).1, (kept _ _).1]
    · exact files_closeIfOpen _ _ _ _ (files_closeIfOpen _ _ _ _ (files_closeIfOpen _ _ _ _ opened))
    · by_contra none
      have some' (type : SocketType) : ∃ fd, state.received type = some fd :=
        Option.ne_none_iff_exists'.mp fun absent => none ⟨type, absent⟩
      obtain ⟨disc', first⟩ := some' .disc
      obtain ⟨edisc', second⟩ := some' .edisc
      obtain ⟨session', third⟩ := some' .session
      exact missing _ _ _ first second third
    · rw [(kept _ _).2, (kept _ _).2, (kept _ _).2]

/-- The next message keeps what is open and what is on the pipe in order. -/
theorem Ordered.ldpeDispatchMain (ordered : state.Ordered) (fd : Nat) :
    (state.ldpeDispatchMain fd).Ordered := by
  have expects := ordered.pipe
  rw [SocketState.ldpeDispatchMain]
  split
  · exact ordered
  · rename_i af rest pipe
    rw [pipe] at expects
    obtain ⟨left, -, files⟩ := dispatchCloseSockets_spec { state with pipe := rest } af
    exact ordered.closes (left ▸ expects) files
  · rename_i socket rest pipe
    rw [pipe] at expects
    split
    · exact ordered
    · rename_i free
      rw [Option.not_isSome_iff_eq_none] at free
      refine ⟨fun other opened found => ?_, expects.2.mono fun type opened held => ?_⟩
      · have updated : Function.update state.files fd (some socket) other = some opened := found
        by_cases same : other = fd
        · subst same
          rw [Function.update_self] at updated
          cases updated
          exact expects.1
        · rw [Function.update_of_ne same] at updated
          exact ordered.files other opened updated
      · show Option.bind (Function.update state.received socket.type (some fd) type)
          (Function.update state.files fd (some socket)) = some opened
        by_cases same : type = socket.type
        · subst same
          rw [Function.update_self] at held ⊢
          rw [Option.bind_some, Function.update_self]
          exact held
        · rw [Function.update_of_ne same] at held ⊢
          obtain ⟨other, stored, found⟩ := Option.bind_eq_some_iff.mp held
          have different : other ≠ fd := by
            rintro rfl
            cases free.symm.trans found
          rw [stored, Option.bind_some, Function.update_of_ne different]
          exact found
  · rename_i request rest pipe
    rw [pipe] at expects
    obtain ⟨left, files, -⟩ := dispatchSetupSockets_spec { state with pipe := rest } request
    exact ordered.closes (left ▸ expects.2) files
  · rename_i enabled rest pipe
    rw [pipe] at expects
    exact ⟨ordered.files, expects⟩

theorem Ordered.socketStep (ordered : state.Ordered) (input : SocketInput) :
    (socketStep state input).Ordered := by
  cases input with
  | request af created =>
    exact ⟨ordered.files, ordered.pipe.append fun held => expects_sendNetSockets held _⟩
  | reload enabled => exact ⟨ordered.files, ordered.pipe.append fun held => trivial⟩
  | close af => exact ⟨ordered.files, ordered.pipe.append fun held => trivial⟩
  | handle fd => exact ordered.ldpeDispatchMain fd

/-- What the next message installs is right if and only if the request was complete, or what is
missing of it is not there. -/
theorem Ordered.own_iff (ordered : state.Ordered) (input : SocketInput) :
    (∀ setup ∈ (Ldpd.socketStep state input).setups, setup.Own) ↔
      (∀ setup ∈ state.setups, setup.Own) ∧ Unmixed state input := by
  have quiet {state' : SocketState} (same : state'.setups = state.setups)
      (unmixed : Unmixed state input) : (∀ setup ∈ state'.setups, setup.Own) ↔
        (∀ setup ∈ state.setups, setup.Own) ∧ Unmixed state input := by
    rw [same]
    exact (and_iff_left unmixed).symm
  cases input with
  | request | reload | close => exact quiet rfl trivial
  | handle fd =>
    have expects := ordered.pipe
    rw [Ldpd.socketStep, SocketState.ldpeDispatchMain]
    split
    · rename_i pipe
      exact quiet rfl fun request rest next => by cases pipe.symm.trans next
    · rename_i af rest pipe
      refine quiet (dispatchCloseSockets_spec { state with pipe := rest } af).2.1 ?_
      exact fun request rest next => by cases pipe.symm.trans next
    · rename_i socket rest pipe
      have unmixed : Unmixed state (.handle fd) := fun request rest next => by
        cases pipe.symm.trans next
      split
      · exact quiet rfl unmixed
      · exact quiet rfl unmixed
    · rename_i request rest pipe
      rw [pipe] at expects
      have unmixed : Unmixed state (.handle fd) ↔ (∀ type, type ∈ request.created) ∨
          ∃ type, type ∉ request.created ∧ state.received type = none := by
        refine ⟨fun all => all request rest pipe, fun one request' rest' next => ?_⟩
        cases pipe.symm.trans next
        exact one
      obtain ⟨-, -, ⟨full, setups⟩ | ⟨⟨type, clear⟩, setups⟩⟩ :=
        dispatchSetupSockets_spec { state with pipe := rest } request
      · rw [setups, unmixed, List.forall_mem_append, List.forall_mem_singleton]
        refine and_congr_right fun _ => ⟨fun own => .inl fun type => ?_, fun right type => ?_⟩
        · exact ordered.made (own type)
        · rcases right with all | ⟨other, -, clear⟩
          · exact expects.1 type (all type)
          · exact absurd clear (full other)
      · refine quiet setups (unmixed.mpr (.inr ⟨type, fun made => ?_, clear⟩))
        obtain ⟨fd, stored, -⟩ := Option.bind_eq_some_iff.mp (expects.1 type made)
        cases clear.symm.trans stored
    · rename_i enabled rest pipe
      exact quiet rfl fun request rest next => by cases pipe.symm.trans next

end SocketState

/-- A system that starts, with nothing open. -/
def SocketState.start (enabled : Af → Bool) : SocketState := { enabled }

theorem SocketState.start_ordered (enabled : Af → Bool) : (start enabled).Ordered where
  files fd socket opened := by cases opened
  pipe := trivial

/-- In a run, whatever is installed is open and was created for the family by the request that is
completed, if and only if every request with a socket missing finds the variable of one that is
missing clear. -/
theorem setups_own_iff (enabled : Af → Bool) (inputs : List SocketInput) :
    (∀ setup ∈ (inputs.foldl socketStep (.start enabled)).setups, setup.Own) ↔
      Run.Allowed socketStep Unmixed (.start enabled) inputs := by
  refine (Run.foldl_iff_allowed SocketState.Ordered (fun state => ∀ setup ∈ state.setups, setup.Own)
    (fun _ input ordered => ordered.own_iff input) (fun _ input ordered => ordered.socketStep input)
    (SocketState.start_ordered enabled)).trans ?_
  refine and_iff_right fun setup member => ?_
  cases member

/-- The sockets of both families are asked for when the daemon starts, and the discovery socket for
IPv6 cannot be created. -/
def dualStackSockets : List SocketInput :=
  [.request .inet [.disc, .edisc, .session], .request .inet6 [.edisc, .session],
    .handle 3, .handle 4, .handle 5, .handle 6, .handle 6, .handle 7, .handle 8]

/-- The discovery socket for IPv4 is installed for IPv6 as well. -/
theorem dualStackSockets_mixed :
    ¬∀ setup ∈ (dualStackSockets.foldl socketStep (.start fun _ => true)).setups, setup.Own := by
  intro own
  have second : (dualStackSockets.foldl socketStep (.start fun _ => true)).setups[1]?.map
      (fun setup => (setup.request.af, setup.sockets .disc)) =
        some (.inet6, some ⟨.disc, ⟨0, .inet, [.disc, .edisc, .session]⟩⟩) := by
    decide +kernel
  obtain ⟨setup, found, values⟩ := Option.map_eq_some_iff.mp second
  obtain ⟨af, socket⟩ := Prod.mk.inj values
  have right := socket.symm.trans (own setup (List.mem_of_getElem? found) .disc)
  have same := congrArg SocketRequest.af (congrArg Socket.request (Option.some_inj.mp right))
  cases same.trans af

end Ldpd
