/-
This file is a small language for C functions that read memory they do not own: a
run leaves a trace of what it touched and either returns, does something the
language leaves undefined, or spends the fuel of one of its loops. A function may
give up early, as C functions do with `return (-1)`, and passes a state along.

The second half says what it means for such a function to follow a reading: a pure
account of what the input says, with the replies it calls for. A function that
follows a reading touches only what it may, as long as the reading stays within the
input, and ends as the reading says it should.
-/

import Mathlib

/-! ### Runs -/

/-- How a run ends. -/
inductive Outcome (Result : Type) where
  | ret (result : Result)
  | undefined
  | outOfFuel
  deriving DecidableEq

/-- A run: what it touched, in order, and how it ended. -/
structure Execution (Event Result : Type) where
  trace : List Event
  outcome : Outcome Result
  deriving DecidableEq

/-- A run with earlier events in front. -/
def Execution.prepend {Event Result : Type} (earlier : List Event)
    (run : Execution Event Result) : Execution Event Result :=
  { run with trace := earlier ++ run.trace }

theorem Execution.prepend_nil {Event Result : Type} (run : Execution Event Result) :
    run.prepend [] = run := rfl

theorem Execution.prepend_prepend {Event Result : Type} (run : Execution Event Result)
    (earlier later : List Event) :
    (run.prepend later).prepend earlier = run.prepend (earlier ++ later) := by
  rw [prepend, prepend, prepend, List.append_assoc]

theorem Execution.prepend_outcome {Event Result : Type} (run : Execution Event Result)
    (earlier : List Event) : (run.prepend earlier).outcome = run.outcome := rfl

/-- A function over a state. It returns a value or gives up. -/
def Code (Event State Value : Type) : Type :=
  State → Execution Event (Option Value × State)

namespace Code

variable {Event State Value Value' : Type}

/-- Return a value. -/
def done (value : Value) : Code Event State Value :=
  fun state => ⟨[], .ret (some value, state)⟩

/-- Give up. -/
def giveUp : Code Event State Value :=
  fun state => ⟨[], .ret (none, state)⟩

/-- Change the state. -/
def change (update : State → State) : Code Event State Unit :=
  fun state => ⟨[], .ret (some (), update state)⟩

/-- Act on the state, and return or give up. -/
def act (action : State → Option Value × State) : Code Event State Value :=
  fun state => ⟨[], .ret (action state)⟩

/-- Look at the state. -/
def look : Code Event State State :=
  fun state => ⟨[], .ret (some state, state)⟩

/-- One function after the other. -/
def andThen (first : Code Event State Value) (next : Value → Code Event State Value') :
    Code Event State Value' :=
  fun state =>
    match first state with
    | ⟨trace, .ret (some value, state')⟩ => (next value state').prepend trace
    | ⟨trace, .ret (none, state')⟩ => ⟨trace, .ret (none, state')⟩
    | ⟨trace, .undefined⟩ => ⟨trace, .undefined⟩
    | ⟨trace, .outOfFuel⟩ => ⟨trace, .outOfFuel⟩

instance : Monad (Code Event State) where
  pure := done
  bind := andThen

/-- A loop. Its body says whether to go round again or to leave. -/
def loop {Local : Type} (body : Local → Code Event State (Local ⊕ Value)) :
    Nat → Local → Code Event State Value
  | 0, _ => fun _ => ⟨[], .outOfFuel⟩
  | fuel + 1, locals => do
    match ← body locals with
    | .inl again => loop body fuel again
    | .inr value => pure value

/-- Leave an event in the trace. -/
def log (event : Event) : Code Event State Unit :=
  fun state => ⟨[event], .ret (some (), state)⟩

/-- A run seen with other events. -/
def mapEvents {Event' : Type} (view : Event → Event') (code : Code Event State Value) :
    Code Event' State Value :=
  fun state => ⟨(code state).trace.map view, (code state).outcome⟩

/-- A function whose caller does not care whether it gave up. -/
def returned (code : Code Event State Unit) : Code Event State Unit :=
  fun state =>
    match code state with
    | ⟨trace, .ret (_, state')⟩ => ⟨trace, .ret (some (), state')⟩
    | ⟨trace, .undefined⟩ => ⟨trace, .undefined⟩
    | ⟨trace, .outOfFuel⟩ => ⟨trace, .outOfFuel⟩

theorem bind_apply (first : Code Event State Value) (next : Value → Code Event State Value')
    (state : State) : (first >>= next) state = andThen first next state := rfl

end Code

/-! ### Walks -/

/-- Going on from place to place until something is found. -/
inductive Walk {Place : Type} (step : Place → Place → Prop) (goal : Place → Prop) : Place → Prop
  | here {place : Place} (found : goal place) : Walk step goal place
  | later {place place' : Place} (goesOn : step place place') (rest : Walk step goal place') :
      Walk step goal place

/-- A walk seen from elsewhere. -/
theorem walk_iff {Place Place' : Type} {step : Place → Place → Prop} {goal : Place → Prop}
    {step' : Place' → Place' → Prop} {goal' : Place' → Prop} (view : Place → Place')
    (invariant : Place → Prop)
    (keeps : ∀ place next, invariant place → step place next → invariant next)
    (steps : ∀ place next', invariant place →
      (step' (view place) next' ↔ ∃ next, step place next ∧ view next = next'))
    (goals : ∀ place, invariant place → (goal place ↔ goal' (view place))) {place : Place}
    (start : invariant place) : Walk step goal place ↔ Walk step' goal' (view place) := by
  constructor
  · intro walk
    induction walk with
    | here found => exact .here ((goals _ start).mp found)
    | later goesOn _ inductionHypothesis =>
      exact .later ((steps _ _ start).mpr ⟨_, goesOn, rfl⟩)
        (inductionHypothesis (keeps _ _ start goesOn))
  · intro walk
    generalize seen : view place = place' at walk
    induction walk generalizing place with
    | here found =>
      subst seen
      exact .here ((goals _ start).mpr found)
    | later goesOn _ inductionHypothesis =>
      subst seen
      obtain ⟨next, goesOn', rfl⟩ := (steps _ _ start).mp goesOn
      exact .later goesOn' (inductionHypothesis (keeps _ _ start goesOn') rfl)

/-- A walk to something that depends on a fact that has nothing to do with the walk. -/
theorem walk_and {Place : Type} {step : Place → Place → Prop} {fact : Prop} {goal : Place → Prop}
    {place : Place} : Walk step (fun place => fact ∧ goal place) place ↔
      fact ∧ Walk step goal place := by
  constructor
  · intro walk
    induction walk with
    | here found => exact ⟨found.1, .here found.2⟩
    | later goesOn _ inductionHypothesis =>
      exact ⟨inductionHypothesis.1, .later goesOn inductionHypothesis.2⟩
  · rintro ⟨holds, walk⟩
    induction walk with
    | here found => exact .here ⟨holds, found⟩
    | later goesOn _ inductionHypothesis => exact .later goesOn inductionHypothesis

/-- A walk to something that is nowhere. -/
theorem walk_never {Place : Type} {step : Place → Place → Prop} {goal : Place → Prop}
    (never : ∀ place, ¬goal place) (place : Place) : ¬Walk step goal place := by
  intro walk
  induction walk with
  | here found => exact never _ found
  | later _ _ inductionHypothesis => exact inductionHypothesis

/-! ### Readings -/

/-- What an input amounts to: a value, an input that calls for a last reply, or one of two ways
in which reading it goes wrong. -/
inductive Verdict (Reply Value : Type) where
  | accept (value : Value)
  | reject (reply : Reply)
  | undefined
  | endless
  deriving DecidableEq

/-- What an input says: the replies it calls for on the way, whether it leads astray to something
behind the input, and what it amounts to. -/
structure Reading (Reply Value : Type) where
  replies : List Reply := []
  strays : Bool := false
  verdict : Verdict Reply Value
  deriving DecidableEq

namespace Reading

variable {Reply Value Value' State : Type}

/-- One reading after the other. -/
def andThen (first : Reading Reply Value) (next : Value → Reading Reply Value') :
    Reading Reply Value' :=
  match first.verdict with
  | .accept value =>
    ⟨first.replies ++ (next value).replies, first.strays || (next value).strays,
      (next value).verdict⟩
  | .reject reply => ⟨first.replies, first.strays, .reject reply⟩
  | .undefined => ⟨first.replies, first.strays, .undefined⟩
  | .endless => ⟨first.replies, first.strays, .endless⟩

instance : Monad (Reading Reply) where
  pure value := { verdict := .accept value }
  bind := andThen

/-- A reading in rounds. A round that does not come closer to the end goes on forever. -/
def iterateFrom {Local : Type} (round : Local → Reading Reply (Local ⊕ Value))
    (measure : Local → Nat) : Nat → Local → Reading Reply Value
  | 0, _ => { verdict := .endless }
  | bound + 1, locals => round locals >>= fun
    | .inl again =>
      if measure again < measure locals then iterateFrom round measure bound again
      else { verdict := .endless }
    | .inr value => pure value

@[inherit_doc iterateFrom]
def iterate {Local : Type} (round : Local → Reading Reply (Local ⊕ Value))
    (measure : Local → Nat) (locals : Local) : Reading Reply Value :=
  iterateFrom round measure (measure locals + 1) locals

/-- One reading after another one that accepts. -/
theorem bind_accept {first : Reading Reply Value} {value : Value}
    (accepts : first.verdict = .accept value) (next : Value → Reading Reply Value') :
    first >>= next = ⟨first.replies ++ (next value).replies, first.strays || (next value).strays,
      (next value).verdict⟩ := by
  show first.andThen next = _
  rw [andThen, accepts]

/-- Two readings after each other stray when the first one does. -/
theorem strays_of_bind {first : Reading Reply Value} {next : Value → Reading Reply Value'}
    (straight : (first >>= next).strays = false) : first.strays = false := by
  change (first.andThen next).strays = false at straight
  rw [andThen] at straight
  cases verdict : first.verdict with
  | accept value =>
    rw [verdict] at straight
    exact (Bool.or_eq_false_iff.mp straight).1
  | _ =>
    rw [verdict] at straight
    exact straight

/-- Two readings after each other have no meaning when the first one has none. -/
theorem undefined_of_bind {first : Reading Reply Value} {next : Value → Reading Reply Value'}
    (undefined : first.verdict = .undefined) : (first >>= next).verdict = .undefined := by
  show (first.andThen next).verdict = .undefined
  rw [andThen, undefined]

/-- Two readings after each other accept what the second one does. -/
theorem bind_accepts {first : Reading Reply Value} {next : Value → Reading Reply Value'}
    {value' : Value'} : (first >>= next).verdict = .accept value' ↔
      ∃ value, first.verdict = .accept value ∧ (next value).verdict = .accept value' := by
  show (first.andThen next).verdict = _ ↔ _
  rw [andThen]
  cases verdict : first.verdict with
  | accept value => simp
  | _ => simp

/-- A reading in as many rounds as there are or more. -/
theorem iterateFrom_eq {Local : Type} (round : Local → Reading Reply (Local ⊕ Value))
    (measure : Local → Nat) {bound bound' : Nat} {locals : Local} (enough : measure locals < bound)
    (enough' : measure locals < bound') :
    iterateFrom round measure bound locals = iterateFrom round measure bound' locals := by
  induction bound generalizing bound' locals with
  | zero => exact absurd enough (Nat.not_lt_zero _)
  | succ bound inductionHypothesis =>
    cases bound' with
    | zero => exact absurd enough' (Nat.not_lt_zero _)
    | succ bound' =>
      rw [iterateFrom, iterateFrom]
      congr 1
      funext next
      cases next with
      | inr value => rfl
      | inl again =>
        simp only
        split
        · rename_i closer
          exact inductionHypothesis (Nat.lt_of_lt_of_le closer (Nat.le_of_lt_succ enough))
            (Nat.lt_of_lt_of_le closer (Nat.le_of_lt_succ enough'))
        · rfl

/-- A reading in rounds, by its first round. -/
theorem iterate_eq {Local : Type} (round : Local → Reading Reply (Local ⊕ Value))
    (measure : Local → Nat) (locals : Local) :
    iterate round measure locals = round locals >>= fun
      | .inl again =>
        if measure again < measure locals then iterate round measure again
        else { verdict := .endless }
      | .inr value => pure value := by
  rw [iterate, iterateFrom]
  congr 1
  funext next
  cases next with
  | inr value => rfl
  | inl again =>
    simp only
    split
    · rename_i closer
      exact iterateFrom_eq round measure closer (Nat.lt_succ_self _)
    · rfl

/-! ### Flaws -/

/-- A way in which an input can do harm to whoever reads it. -/
inductive Flaw where
  | stray
  | undefined
  | endless
  deriving DecidableEq

/-- A reading in which a flaw of the input shows. -/
def Has (reading : Reading Reply Value) : Flaw → Prop
  | .stray => reading.strays = true
  | .undefined => reading.verdict = .undefined
  | .endless => reading.verdict = .endless

theorem not_has_pure (value : Value) (flaw : Flaw) :
    ¬(pure value : Reading Reply Value).Has flaw := by
  cases flaw <;> exact nofun

theorem not_has_accept (replies : List Reply) (value : Value) (flaw : Flaw) :
    ¬(⟨replies, false, .accept value⟩ : Reading Reply Value).Has flaw := by
  cases flaw <;> exact nofun

theorem not_has_reject (replies : List Reply) (reply : Reply) (flaw : Flaw) :
    ¬(⟨replies, false, .reject reply⟩ : Reading Reply Value).Has flaw := by
  cases flaw <;> exact nofun

/-- A flaw shows in one reading or in the one after it. -/
theorem bind_has {first : Reading Reply Value} {next : Value → Reading Reply Value'} {flaw : Flaw} :
    (first >>= next).Has flaw ↔
      first.Has flaw ∨ ∃ value, first.verdict = .accept value ∧ (next value).Has flaw := by
  cases verdict : first.verdict with
  | accept value =>
    rw [bind_accept verdict]
    cases flaw with
    | stray => simp [Has]
    | undefined => simp [Has, verdict]
    | endless => simp [Has, verdict]
  | _ =>
    show (first.andThen next).Has flaw ↔ _
    rw [andThen, verdict]
    cases flaw <;> simp [Has, verdict]

/-- What is made of a reading does not change its flaws. -/
theorem bind_pure_has {first : Reading Reply Value} {make : Value → Value'} {flaw : Flaw} :
    (first >>= fun value => pure (make value)).Has flaw ↔ first.Has flaw := by
  rw [bind_has]
  refine or_iff_left ?_
  rintro ⟨value, -, flawed⟩
  exact not_has_pure _ _ flawed

/-! ### Readings as walks -/

/-- How a reading in rounds goes on after a round that comes closer to the end. -/
def GoesOn {Local : Type} (round : Local → Reading Reply (Local ⊕ Value)) (measure : Local → Nat)
    (locals again : Local) : Prop :=
  (round locals).verdict = .accept (.inl again) ∧ measure again < measure locals

/-- A round in which a flaw shows: in what it reads, or because it gets nowhere. -/
def Spoils {Local : Type} (round : Local → Reading Reply (Local ⊕ Value)) (measure : Local → Nat)
    (flaw : Flaw) (locals : Local) : Prop :=
  (round locals).Has flaw ∨ flaw = .endless ∧
    ∃ again, (round locals).verdict = .accept (.inl again) ∧ ¬measure again < measure locals

/-- A flaw shows in a reading in rounds when it shows in one of the rounds. -/
theorem iterate_has {Local : Type} {round : Local → Reading Reply (Local ⊕ Value)}
    {measure : Local → Nat} {flaw : Flaw} {locals : Local} :
    (iterate round measure locals).Has flaw ↔
      Walk (GoesOn round measure) (Spoils round measure flaw) locals := by
  constructor
  · induction size : measure locals using Nat.strongRecOn generalizing locals with
    | ind size inductionHypothesis =>
      subst size
      rw [iterate_eq, bind_has]
      rintro (first | ⟨next, accepts, rest⟩)
      · exact .here (Or.inl first)
      · cases next with
        | inr value => exact absurd rest (not_has_pure value flaw)
        | inl again =>
          simp only at rest
          split at rest
          · rename_i closer
            exact .later ⟨accepts, closer⟩
              (inductionHypothesis _ closer rfl rest)
          · rename_i stays
            cases flaw with
            | endless => exact .here (Or.inr ⟨rfl, again, accepts, stays⟩)
            | _ => cases rest
  · intro walk
    induction walk with
    | here found =>
      rw [iterate_eq, bind_has]
      refine found.imp_right fun ⟨endless, again, accepts, stays⟩ => ⟨_, accepts, ?_⟩
      simp only [if_neg stays, endless]
      rfl
    | later goesOn _ inductionHypothesis =>
      obtain ⟨accepts, closer⟩ := goesOn
      rw [iterate_eq, bind_has]
      refine Or.inr ⟨_, accepts, ?_⟩
      simp only [if_pos closer]
      exact inductionHypothesis

/-- A reading in rounds accepts when it comes to a round that accepts. -/
theorem iterate_accepts {Local : Type} {round : Local → Reading Reply (Local ⊕ Value)}
    {measure : Local → Nat} {locals : Local} :
    (∃ value, (iterate round measure locals).verdict = .accept value) ↔
      Walk (GoesOn round measure)
        (fun locals => ∃ value, (round locals).verdict = .accept (.inr value)) locals := by
  constructor
  · induction size : measure locals using Nat.strongRecOn generalizing locals with
    | ind size inductionHypothesis =>
      subst size
      rintro ⟨value, accepts⟩
      rw [iterate_eq, bind_accepts] at accepts
      obtain ⟨next, first, rest⟩ := accepts
      cases next with
      | inr value => exact .here ⟨value, first⟩
      | inl again =>
        simp only at rest
        split at rest
        · rename_i closer
          exact .later ⟨first, closer⟩
            (inductionHypothesis _ closer rfl ⟨value, rest⟩)
        · cases rest
  · intro walk
    induction walk with
    | here found =>
      obtain ⟨value, accepts⟩ := found
      refine ⟨value, ?_⟩
      rw [iterate_eq, bind_accepts]
      exact ⟨_, accepts, rfl⟩
    | later goesOn _ inductionHypothesis =>
      obtain ⟨accepts, closer⟩ := goesOn
      obtain ⟨value, rest⟩ := inductionHypothesis
      refine ⟨value, ?_⟩
      rw [iterate_eq, bind_accepts]
      refine ⟨_, accepts, ?_⟩
      simp only [if_pos closer]
      exact rest

/-- Two readings after each other reject what the first one does, or else the second one. -/
theorem bind_rejects {first : Reading Reply Value} {next : Value → Reading Reply Value'}
    {reply : Reply} : (first >>= next).verdict = .reject reply ↔ first.verdict = .reject reply ∨
      ∃ value, first.verdict = .accept value ∧ (next value).verdict = .reject reply := by
  show (first.andThen next).verdict = _ ↔ _
  rw [andThen]
  cases verdict : first.verdict with
  | accept value => simp
  | _ => simp

/-- A reading in rounds rejects when it comes to a round that rejects. -/
theorem iterate_rejects {Local : Type} {round : Local → Reading Reply (Local ⊕ Value)}
    {measure : Local → Nat} {locals : Local} {reply : Reply} :
    (iterate round measure locals).verdict = .reject reply ↔
      Walk (GoesOn round measure) (fun locals => (round locals).verdict = .reject reply) locals := by
  constructor
  · induction size : measure locals using Nat.strongRecOn generalizing locals with
    | ind size inductionHypothesis =>
      subst size
      rw [iterate_eq, bind_rejects]
      rintro (first | ⟨next, accepts, rest⟩)
      · exact .here first
      · cases next with
        | inr value => cases rest
        | inl again =>
          simp only at rest
          split at rest
          · rename_i closer
            exact .later ⟨accepts, closer⟩ (inductionHypothesis _ closer rfl rest)
          · cases rest
  · intro walk
    induction walk with
    | here found =>
      rw [iterate_eq, bind_rejects]
      exact Or.inl found
    | later goesOn _ inductionHypothesis =>
      obtain ⟨accepts, closer⟩ := goesOn
      rw [iterate_eq, bind_rejects]
      refine Or.inr ⟨_, accepts, ?_⟩
      simp only [if_pos closer]
      exact inductionHypothesis

/-- What holds of a value that a reading in rounds accepts, by an invariant of the rounds. -/
theorem iterate_induct {Local : Type} {round : Local → Reading Reply (Local ⊕ Value)}
    {measure : Local → Nat} {invariant : Local → Prop} {post : Value → Prop}
    (again : ∀ locals next, invariant locals → (round locals).verdict = .accept (.inl next) →
      invariant next)
    (done : ∀ locals value, invariant locals → (round locals).verdict = .accept (.inr value) →
      post value)
    {locals : Local} (start : invariant locals) {value : Value}
    (accepts : (iterate round measure locals).verdict = .accept value) : post value := by
  induction size : measure locals using Nat.strongRecOn generalizing locals with
  | ind size inductionHypothesis =>
    subst size
    rw [iterate_eq, bind_accepts] at accepts
    obtain ⟨next, first, rest⟩ := accepts
    cases next with
    | inr value =>
      cases rest
      exact done locals value start first
    | inl next =>
      simp only at rest
      split at rest
      · rename_i closer
        exact inductionHypothesis _ closer (again locals next start first) rest rfl
      · cases rest

/-! ### Replies on the way -/

/-- Every reply on the way to the verdict is of some kind. -/
def Answers (allowed : Reply → Prop) (reading : Reading Reply Value) : Prop :=
  ∀ reply ∈ reading.replies, allowed reply

theorem answers_of_verdict {allowed : Reply → Prop} (strays : Bool) (verdict : Verdict Reply Value) :
    Answers allowed (⟨[], strays, verdict⟩ : Reading Reply Value) :=
  fun _ member => absurd member List.not_mem_nil

theorem Answers.bind {allowed : Reply → Prop} {first : Reading Reply Value}
    {next : Value → Reading Reply Value'} (replies : Answers allowed first)
    (rest : ∀ value, first.verdict = .accept value → Answers allowed (next value)) :
    Answers allowed (first >>= next) := by
  show Answers allowed (first.andThen next)
  rw [andThen]
  cases verdict : first.verdict with
  | accept value =>
    intro reply member
    exact (List.mem_append.mp member).elim (replies reply) (rest value verdict reply)
  | _ => exact replies

theorem answers_ite {allowed : Reply → Prop} {condition : Prop} [Decidable condition]
    {yes no : Reading Reply Value} (taken : Answers allowed yes) (passed : Answers allowed no) :
    Answers allowed (if condition then yes else no) := by
  split
  · exact taken
  · exact passed

theorem answers_iterate {allowed : Reply → Prop} {Local : Type}
    {round : Local → Reading Reply (Local ⊕ Value)} {measure : Local → Nat}
    (replies : ∀ locals, Answers allowed (round locals)) (locals : Local) :
    Answers allowed (iterate round measure locals) := by
  induction size : measure locals using Nat.strongRecOn generalizing locals with
  | ind size inductionHypothesis =>
    subst size
    rw [iterate_eq]
    refine (replies locals).bind fun next _ => ?_
    cases next with
    | inr value => exact answers_of_verdict _ _
    | inl again =>
      simp only
      split
      · rename_i closer
        exact inductionHypothesis _ closer again rfl
      · exact answers_of_verdict _ _

/-! ### Rejections -/

/-- Every last reply that the reading can end with is of some kind. -/
def Rejects (allowed : Reply → Prop) (reading : Reading Reply Value) : Prop :=
  ∀ reply, reading.verdict = .reject reply → allowed reply

theorem rejects_of_accept {allowed : Reply → Prop} {reading : Reading Reply Value} {value : Value}
    (accepts : reading.verdict = .accept value) : Rejects allowed reading := by
  intro reply rejects
  rw [accepts] at rejects
  cases rejects

theorem rejects_pure {allowed : Reply → Prop} (value : Value) :
    Rejects allowed (pure value : Reading Reply Value) :=
  rejects_of_accept rfl

theorem rejects_reject {allowed : Reply → Prop} {reply : Reply} (fine : allowed reply)
    {replies : List Reply} {strays : Bool} :
    Rejects allowed (⟨replies, strays, .reject reply⟩ : Reading Reply Value) := by
  intro reply' rejects
  cases rejects
  exact fine

theorem Rejects.bind {allowed : Reply → Prop} {first : Reading Reply Value}
    {next : Value → Reading Reply Value'} (replies : Rejects allowed first)
    (rest : ∀ value, first.verdict = .accept value → Rejects allowed (next value)) :
    Rejects allowed (first >>= next) := by
  intro reply rejects
  rcases bind_rejects.mp rejects with stopped | ⟨value, accepts, stopped⟩
  · exact replies reply stopped
  · exact rest value accepts reply stopped

theorem rejects_ite {allowed : Reply → Prop} {condition : Prop} [Decidable condition]
    {yes no : Reading Reply Value} (taken : Rejects allowed yes) (passed : Rejects allowed no) :
    Rejects allowed (if condition then yes else no) := by
  split
  · exact taken
  · exact passed

theorem rejects_iterate {allowed : Reply → Prop} {Local : Type}
    {round : Local → Reading Reply (Local ⊕ Value)} {measure : Local → Nat}
    (replies : ∀ locals, Rejects allowed (round locals)) (locals : Local) :
    Rejects allowed (iterate round measure locals) := by
  intro reply rejects
  induction iterate_rejects.mp rejects with
  | here found => exact replies _ reply found
  | later goesOn rest inductionHypothesis => exact inductionHypothesis (iterate_rejects.mpr rest)

end Reading

namespace Code

variable {Event State Reply Value Value' Read Read' : Type}

/-- A run that touches only what it may. -/
def Clean (allowed : Event → Prop) {Result : Type} (run : Execution Event Result) : Prop :=
  ∀ event ∈ run.trace, allowed event

instance (allowed : Event → Prop) [DecidablePred allowed] {Result : Type}
    (run : Execution Event Result) : Decidable (Clean allowed run) :=
  inferInstanceAs (Decidable (∀ event ∈ run.trace, allowed event))

/-- A run to which the language gives a meaning from the first event to the end. -/
def Defined (meant : Event → Prop) {Result : Type} (run : Execution Event Result) : Prop :=
  Clean meant run ∧ run.outcome ≠ .undefined

/-- A run that ends as a reading says: with a value that agrees with what was read, or after the
last reply, or badly. Where the reading has no meaning the run has none, but may well go on. -/
def EndsAs (meant : Event → Prop) (say : State → Reply → State) (agrees : Value → Read → Prop)
    (reading : Reading Reply Read) (state : State)
    (run : Execution Event (Option Value × State)) : Prop :=
  match reading.verdict with
  | .accept read =>
    Defined meant run ∧
      ∃ value, agrees value read ∧ run.outcome = .ret (some value, reading.replies.foldl say state)
  | .reject reply =>
    Defined meant run ∧ run.outcome = .ret (none, say (reading.replies.foldl say state) reply)
  | .undefined => reading.strays = true ∧ ¬Defined meant run
  | .endless => Clean meant run ∧ run.outcome = .outOfFuel

/-- What a run has done that is cut short, if the reading neither strays nor loses its meaning. -/
def CutShort (allowed meant : Event → Prop) (reading : Reading Reply Read)
    (run : Execution Event (Option Value × State)) : Prop :=
  (reading.strays = false → Clean allowed run) ∧ (reading.verdict ≠ .undefined → Clean meant run)

/-- A function that follows a reading from a state on. It may run out of fuel early only when the
fuel is not enough, and touches something it may not exactly when the reading strays. -/
def FollowsAt (allowed meant : Event → Prop) (say : State → Reply → State) (enough : Prop)
    (agrees : Value → Read → Prop) (state : State) (code : Code Event State Value)
    (reading : Reading Reply Read) : Prop :=
  (CutShort allowed meant reading (code state) ∧ (code state).outcome = .outOfFuel ∧ ¬enough) ∨
    ((Clean allowed (code state) ↔ reading.strays = false) ∧
      EndsAs meant say agrees reading state (code state))

/-- A function that follows a reading from every state on. -/
def Follows (allowed meant : Event → Prop) (say : State → Reply → State) (enough : Prop)
    (agrees : Value → Read → Prop) (code : Code Event State Value) (reading : Reading Reply Read) :
    Prop :=
  ∀ state, FollowsAt allowed meant say enough agrees state code reading

variable {allowed meant : Event → Prop} {say : State → Reply → State} {enough enough' : Prop}
  {agrees : Value → Read → Prop} {agrees' : Value' → Read' → Prop}

theorem clean_prepend {Result : Type} {earlier : List Event} {run : Execution Event Result} :
    Clean allowed (run.prepend earlier) ↔ (∀ event ∈ earlier, allowed event) ∧ Clean allowed run :=
  List.forall_mem_append

theorem clean_after {Result : Type} {earlier : List Event} {run : Execution Event Result}
    (first : ∀ event ∈ earlier, allowed event) :
    Clean allowed (run.prepend earlier) ↔ Clean allowed run :=
  clean_prepend.trans (and_iff_right first)

theorem clean_nil {Result : Type} (outcome : Outcome Result) :
    Clean allowed (⟨[], outcome⟩ : Execution Event Result) :=
  fun _ member => absurd member List.not_mem_nil

theorem defined_ret {Result : Type} (result : Result) :
    Defined meant (⟨[], .ret result⟩ : Execution Event Result) :=
  ⟨clean_nil _, nofun⟩

theorem defined_event {Result : Type} {event : Event} (meaning : meant event) (result : Result) :
    Defined meant (⟨[event], .ret result⟩ : Execution Event Result) :=
  ⟨List.forall_mem_singleton.mpr meaning, nofun⟩

theorem defined_prepend {Result : Type} {earlier : List Event} {run : Execution Event Result}
    (first : ∀ event ∈ earlier, meant event) :
    Defined meant (run.prepend earlier) ↔ Defined meant run := by
  rw [Defined, Defined, clean_after first]
  rfl

theorem bind_ret {first : Code Event State Value} {next : Value → Code Event State Value'}
    {state state' : State} {trace : List Event} {value : Value}
    (run : first state = ⟨trace, .ret (some value, state')⟩) :
    (first >>= next) state = (next value state').prepend trace := by
  rw [bind_apply, andThen, run]

/-- A run, by how it ends. -/
theorem run_eq {code : Code Event State Value} {state : State} {outcome : Outcome (Option Value × State)}
    (ends : (code state).outcome = outcome) : code state = ⟨(code state).trace, outcome⟩ := by
  rw [← ends]

theorem bind_outOfFuel {first : Code Event State Value} {next : Value → Code Event State Value'}
    {state : State} {trace : List Event} (run : first state = ⟨trace, .outOfFuel⟩) :
    (first >>= next) state = ⟨trace, .outOfFuel⟩ := by
  rw [bind_apply, andThen, run]

theorem bind_gaveUp {first : Code Event State Value} {next : Value → Code Event State Value'}
    {state state' : State} {trace : List Event} (run : first state = ⟨trace, .ret (none, state')⟩) :
    (first >>= next) state = ⟨trace, .ret (none, state')⟩ := by
  rw [bind_apply, andThen, run]

section Loop

variable {Local : Type} {body : Local → Code Event State (Local ⊕ Value)} {locals again : Local}
  {state state' : State} {trace : List Event}

theorem loop_again (run : body locals state = ⟨trace, .ret (some (.inl again), state')⟩) (fuel : Nat) :
    loop body (fuel + 1) locals state = (loop body fuel again state').prepend trace :=
  bind_ret run

theorem loop_done {value : Value}
    (run : body locals state = ⟨trace, .ret (some (.inr value), state')⟩) (fuel : Nat) :
    loop body (fuel + 1) locals state = ⟨trace, .ret (some value, state')⟩ := by
  refine (bind_ret run).trans ?_
  show Execution.mk (trace ++ []) _ = _
  rw [List.append_nil]
  rfl

theorem loop_gaveUp (run : body locals state = ⟨trace, .ret (none, state')⟩) (fuel : Nat) :
    loop body (fuel + 1) locals state = ⟨trace, .ret (none, state')⟩ :=
  bind_gaveUp run

end Loop

/-- A function that gives up does not return. -/
theorem gaveUp_ne_returned {state state' : State} {value : Value} :
    (Outcome.ret (none, state) : Outcome (Option Value × State)) ≠ .ret (some value, state') := by
  intro same
  exact nomatch (Prod.mk.inj (Outcome.ret.inj same)).1

/-- One function after the other returns what the second one does. -/
theorem bind_returns {first : Code Event State Value} {next : Value → Code Event State Value'}
    {state state'' : State} {value' : Value'} :
    ((first >>= next) state).outcome = .ret (some value', state'') ↔
      ∃ value state', (first state).outcome = .ret (some value, state') ∧
        (next value state').outcome = .ret (some value', state'') := by
  rw [bind_apply, andThen]
  match run : first state with
  | ⟨trace, .ret (some value, state')⟩ =>
    refine ⟨fun returns => ⟨value, state', rfl, returns⟩, ?_⟩
    rintro ⟨_, _, same, returns⟩
    cases same
    exact returns
  | ⟨trace, .ret (none, state')⟩ => exact iff_of_false nofun nofun
  | ⟨trace, .undefined⟩ => exact iff_of_false nofun nofun
  | ⟨trace, .outOfFuel⟩ => exact iff_of_false nofun nofun

/-- One function after the other touches only what it may when both do. -/
theorem clean_bind {first : Code Event State Value} {next : Value → Code Event State Value'}
    {state : State} : Clean allowed ((first >>= next) state) ↔ Clean allowed (first state) ∧
      ∀ value state', (first state).outcome = .ret (some value, state') →
        Clean allowed (next value state') := by
  rw [bind_apply, andThen]
  match run : first state with
  | ⟨trace, .ret (some value, state')⟩ =>
    simp only [clean_prepend]
    refine and_congr_right fun _ => ⟨fun clean value' state'' same => ?_, fun clean => ?_⟩
    · cases same
      exact clean
    · exact clean value state' rfl
  | ⟨trace, .ret (none, state')⟩ => exact (and_iff_left nofun).symm
  | ⟨trace, .undefined⟩ => exact (and_iff_left nofun).symm
  | ⟨trace, .outOfFuel⟩ => exact (and_iff_left nofun).symm

/-- One function after the other has a meaning when both have. -/
theorem defined_bind {first : Code Event State Value} {next : Value → Code Event State Value'}
    {state : State} : Defined meant ((first >>= next) state) ↔ Defined meant (first state) ∧
      ∀ value state', (first state).outcome = .ret (some value, state') →
        Defined meant (next value state') := by
  have outcome : ((first >>= next) state).outcome ≠ .undefined ↔
      (first state).outcome ≠ .undefined ∧
        ∀ value state', (first state).outcome = .ret (some value, state') →
          (next value state').outcome ≠ .undefined := by
    rw [bind_apply, andThen]
    match run : first state with
    | ⟨trace, .ret (some value, state')⟩ =>
      refine ⟨fun defined => ⟨nofun, ?_⟩, fun both => both.2 value state' rfl⟩
      rintro _ _ same
      cases same
      exact defined
    | ⟨trace, .ret (none, state')⟩ => exact iff_of_true nofun ⟨nofun, nofun⟩
    | ⟨trace, .undefined⟩ => exact iff_of_false (fun other => other rfl) fun both => both.1 rfl
    | ⟨trace, .outOfFuel⟩ => exact iff_of_true nofun ⟨nofun, nofun⟩
  rw [Defined, Defined, clean_bind, outcome]
  constructor
  · rintro ⟨⟨clean, clean'⟩, defined, defined'⟩
    exact ⟨⟨clean, defined⟩, fun value state' same =>
      ⟨clean' value state' same, defined' value state' same⟩⟩
  · rintro ⟨⟨clean, defined⟩, rest⟩
    exact ⟨⟨clean, fun value state' same => (rest value state' same).1⟩, defined,
      fun value state' same => (rest value state' same).2⟩

theorem clean_returned {code : Code Event State Unit} {state : State} :
    Clean allowed (returned code state) ↔ Clean allowed (code state) := by
  rw [returned]
  match run : code state with
  | ⟨trace, .ret (_, state')⟩ => exact Iff.rfl
  | ⟨trace, .undefined⟩ => exact Iff.rfl
  | ⟨trace, .outOfFuel⟩ => exact Iff.rfl

/-- A loop touches only what it may when every round does, from locals on that the rounds keep. -/
theorem clean_loop {Local : Type} {body : Local → Code Event State (Local ⊕ Value)}
    (invariant : Local → Prop)
    (clean : ∀ locals state, invariant locals → Clean allowed (body locals state))
    (goesOn : ∀ locals state again state', invariant locals →
      (body locals state).outcome = .ret (some (.inl again), state') → invariant again)
    (fuel : Nat) {locals : Local} (start : invariant locals) (state : State) :
    Clean allowed (loop body fuel locals state) := by
  induction fuel generalizing locals state with
  | zero => exact clean_nil _
  | succ fuel inductionHypothesis =>
    rw [loop, clean_bind]
    refine ⟨clean locals state start, fun next state' returned => ?_⟩
    cases next with
    | inl again => exact inductionHypothesis (goesOn locals state again state' start returned) state'
    | inr value => exact clean_nil _

/-- Less fuel may be enough for less. -/
theorem FollowsAt.mono {state : State} {code : Code Event State Value}
    {reading : Reading Reply Read}
    (follows : FollowsAt allowed meant say enough agrees state code reading) (weaker : enough' → enough) :
    FollowsAt allowed meant say enough' agrees state code reading := by
  rcases follows with ⟨clean, spent, short⟩ | other
  · exact Or.inl ⟨clean, spent, fun fuel => short (weaker fuel)⟩
  · exact Or.inr other

theorem Follows.mono {code : Code Event State Value} {reading : Reading Reply Read}
    (follows : Follows allowed meant say enough agrees code reading) (weaker : enough' → enough) :
    Follows allowed meant say enough' agrees code reading :=
  fun state => (follows state).mono weaker

/-- A value may agree with what was read in less. -/
theorem Follows.weaken {weaker : Value → Read → Prop} {code : Code Event State Value}
    {reading : Reading Reply Read} (follows : Follows allowed meant say enough agrees code reading)
    (implies : ∀ value read, reading.verdict = .accept read → agrees value read →
      weaker value read) :
    Follows allowed meant say enough weaker code reading := by
  intro state
  refine (follows state).imp_right fun ⟨inside, ends⟩ => ⟨inside, ?_⟩
  rw [EndsAs] at ends ⊢
  cases verdict : reading.verdict with
  | accept read =>
    rw [verdict] at ends
    obtain ⟨defined, value, agree, outcome⟩ := ends
    exact ⟨defined, value, implies value read verdict agree, outcome⟩
  | _ =>
    rw [verdict] at ends
    exact ends

theorem follows_pure {value : Value} {read : Read} (agree : agrees value read) :
    Follows allowed meant say enough agrees (pure value : Code Event State Value)
      (pure read : Reading Reply Read) :=
  fun _ => Or.inr ⟨iff_of_true (clean_nil _) rfl, defined_ret _, value, agree, rfl⟩

/-- A reply on the way. -/
theorem follows_reply (reply : Reply) :
    Follows allowed meant say enough (fun _ _ => True) (change fun state => say state reply)
      ({ replies := [reply], verdict := .accept () } : Reading Reply Unit) :=
  fun _ => Or.inr ⟨iff_of_true (clean_nil _) rfl, defined_ret _, (), trivial, rfl⟩

/-- A last reply. -/
theorem follows_reject (reply : Reply) :
    Follows allowed meant say enough agrees ((change fun state => say state reply) >>= fun _ => giveUp)
      ({ verdict := .reject reply } : Reading Reply Read) :=
  fun _ => Or.inr ⟨iff_of_true (clean_nil _) rfl, defined_ret _, rfl⟩

/-- A reading that stops early stops what comes after it. -/
theorem bind_of_not_accept {reading : Reading Reply Read} {stopped : Verdict Reply Read'}
    {next : Read → Reading Reply Read'}
    (stops : reading.andThen next = ⟨reading.replies, reading.strays, stopped⟩) :
    reading >>= next = ⟨reading.replies, reading.strays, stopped⟩ := stops

/-- What comes after a run without a meaning does not give it one, and takes nothing back. -/
theorem bind_undefined {first : Code Event State Value} {next : Value → Code Event State Value'}
    {state : State} (astray : ¬Clean allowed (first state)) (undefined : ¬Defined meant (first state)) :
    ¬Clean allowed ((first >>= next) state) ∧ ¬Defined meant ((first >>= next) state) :=
  ⟨fun clean => astray (clean_bind.mp clean).1, fun defined => undefined (defined_bind.mp defined).1⟩

/-- What comes after a run that is cut short does not matter. -/
theorem CutShort.bind {reading : Reading Reply Read} {next : Read → Reading Reply Read'}
    {run : Execution Event (Option Value × State)} {trace : List Event}
    {outcome : Outcome (Option Value' × State)} (cut : CutShort allowed meant reading run)
    (same : run.trace = trace := by rfl) :
    CutShort allowed meant (reading >>= next) (⟨trace, outcome⟩ : Execution _ _) := by
  subst same
  exact ⟨fun straight => cut.1 (Reading.strays_of_bind straight),
    fun defined => cut.2 (mt Reading.undefined_of_bind defined)⟩

/-- One function after the other follows one reading after the other. -/
theorem FollowsAt.bind {state : State} {code : Code Event State Value}
    {reading : Reading Reply Read} {next : Value → Code Event State Value'}
    {next' : Read → Reading Reply Read'}
    (follows : FollowsAt allowed meant say enough agrees state code reading)
    (rest : ∀ value read, reading.verdict = .accept read → agrees value read →
      FollowsAt allowed meant say enough agrees' (reading.replies.foldl say state) (next value)
        (next' read)) :
    FollowsAt allowed meant say enough agrees' state (code >>= next) (reading >>= next') := by
  rcases follows with ⟨cut, spent, short⟩ | ⟨inside, ends⟩
  · rw [FollowsAt, bind_outOfFuel (run_eq spent)]
    exact Or.inl ⟨cut.bind, rfl, short⟩
  rw [EndsAs] at ends
  cases verdict : reading.verdict with
  | accept read =>
    rw [verdict] at ends
    obtain ⟨⟨meaning, -⟩, value, agree, outcome⟩ := ends
    rw [Reading.bind_accept verdict, FollowsAt, bind_ret (run_eq outcome)]
    rcases rest value read verdict agree with ⟨⟨clean', meaning'⟩, spent, short⟩ | ⟨inside', ends'⟩
    · refine Or.inl ⟨⟨fun straight => ?_, fun defined => ?_⟩, spent, short⟩
      · obtain ⟨first, second⟩ := Bool.or_eq_false_iff.mp straight
        exact clean_prepend.mpr ⟨inside.mpr first, clean' second⟩
      · exact clean_prepend.mpr ⟨meaning, meaning' defined⟩
    · refine Or.inr ⟨?_, ?_⟩
      · rw [clean_prepend, inside', Bool.or_eq_false_iff]
        exact and_congr_left fun _ => inside
      · rw [EndsAs] at ends' ⊢
        simp only [List.foldl_append, defined_prepend meaning, clean_after meaning, Bool.or_eq_true]
        cases verdict' : (next' read).verdict with
        | undefined =>
          rw [verdict'] at ends'
          exact ⟨Or.inr ends'.1, ends'.2⟩
        | _ =>
          rw [verdict'] at ends'
          exact ends'
  | reject reply =>
    rw [verdict] at ends
    rw [bind_of_not_accept (by rw [Reading.andThen, verdict]), FollowsAt, bind_gaveUp (run_eq ends.2)]
    exact Or.inr ⟨inside, ⟨ends.1.1, nofun⟩, rfl⟩
  | undefined =>
    rw [verdict] at ends
    obtain ⟨strays, undefined⟩ := ends
    rw [strays] at inside
    obtain ⟨astray, undefined'⟩ := bind_undefined (mt inside.mp nofun) undefined
    rw [bind_of_not_accept (by rw [Reading.andThen, verdict]), strays]
    exact Or.inr ⟨iff_of_false astray nofun, rfl, undefined'⟩
  | endless =>
    rw [verdict] at ends
    rw [bind_of_not_accept (by rw [Reading.andThen, verdict]), FollowsAt,
      bind_outOfFuel (run_eq ends.2)]
    exact Or.inr ⟨inside, ends.1, rfl⟩

/-- A function that follows a reading with a meaning has one. -/
theorem FollowsAt.defined {state : State} {code : Code Event State Value}
    {reading : Reading Reply Read}
    (follows : FollowsAt allowed meant say enough agrees state code reading)
    (meaning : reading.verdict ≠ .undefined) : Defined meant (code state) := by
  rcases follows with ⟨cut, spent, -⟩ | ⟨-, ends⟩
  · exact ⟨cut.2 meaning, by rw [spent]; nofun⟩
  · rw [EndsAs] at ends
    cases verdict : reading.verdict with
    | accept read =>
      rw [verdict] at ends
      exact ends.1
    | reject reply =>
      rw [verdict] at ends
      exact ends.1
    | undefined => exact absurd verdict meaning
    | endless =>
      rw [verdict] at ends
      exact ⟨ends.1, by rw [ends.2]; nofun⟩

@[inherit_doc FollowsAt.bind]
theorem Follows.bind {code : Code Event State Value} {reading : Reading Reply Read}
    {next : Value → Code Event State Value'} {next' : Read → Reading Reply Read'}
    (follows : Follows allowed meant say enough agrees code reading)
    (rest : ∀ value read, reading.verdict = .accept read → agrees value read →
      Follows allowed meant say enough agrees' (next value) (next' read)) :
    Follows allowed meant say enough agrees' (code >>= next) (reading >>= next') :=
  fun state => (follows state).bind fun value read accepts agree => rest value read accepts agree _

/-- A function that goes on with what a reading is sure to find. -/
theorem FollowsAt.bind_pure {state : State} {code : Code Event State Value} {value : Value}
    {next : Value → Code Event State Value'} {reading : Reading Reply Read'}
    (first : FollowsAt allowed meant say enough Eq state code (pure value : Reading Reply Value))
    (rest : FollowsAt allowed meant say enough agrees' state (next value) reading) :
    FollowsAt allowed meant say enough agrees' state (code >>= next) reading := by
  have whole : FollowsAt allowed meant say enough agrees' state (code >>= next)
      (pure value >>= fun _ => reading) :=
    first.bind fun value' read accepts same => by
      cases accepts
      subst same
      exact rest
  exact whole

/-- A function and a reading that take the same turn. -/
theorem followsAt_ite {state : State} {condition : Prop} [Decidable condition]
    {yes no : Code Event State Value} {yes' no' : Reading Reply Read}
    (taken : condition → FollowsAt allowed meant say enough agrees state yes yes')
    (passed : ¬condition → FollowsAt allowed meant say enough agrees state no no') :
    FollowsAt allowed meant say enough agrees state (if condition then yes else no)
      (if condition then yes' else no') := by
  split
  · rename_i holds
    exact taken holds
  · rename_i fails
    exact passed fails

/-- A function that looks at the state follows what it goes on to follow. -/
theorem followsAt_look {state : State} {next : State → Code Event State Value}
    {reading : Reading Reply Read}
    (follows : FollowsAt allowed meant say enough agrees state (next state) reading) :
    FollowsAt allowed meant say enough agrees state (look >>= next) reading := follows

/-- A reading that goes on forever, by its first round. -/
theorem bind_endless {reading : Reading Reply Read} {read : Read}
    (accepts : reading.verdict = .accept read) (silent : reading.replies = [])
    (straight : reading.strays = false) :
    (reading >>= fun _ => { verdict := .endless } : Reading Reply Read') = { verdict := .endless } := by
  rw [Reading.bind_accept accepts, silent, straight]
  rfl

/-- A loop that goes round in the same place never ends. -/
theorem follows_stalled {Local : Type} {body : Local → Code Event State (Local ⊕ Value)}
    {locals : Local} {round : Reading Reply Read'} {read : Read'}
    (accepts : round.verdict = .accept read) (silent : round.replies = [])
    (straight : round.strays = false)
    (follows : Follows allowed meant say enough (fun value _ => value = .inl locals) (body locals) round)
    (fuel : Nat) :
    Follows allowed meant say enough agrees (loop body fuel locals) { verdict := .endless } := by
  induction fuel with
  | zero => exact fun state => Or.inr ⟨iff_of_true (clean_nil _) rfl, clean_nil _, rfl⟩
  | succ fuel inductionHypothesis =>
    rw [loop, ← bind_endless accepts silent straight]
    refine follows.bind ?_
    rintro value read' _ rfl
    exact inductionHypothesis

/-- What one round of a loop comes to, and what was read in it: the loop ends with values that
agree, or it goes on closer to the end, or quietly in the same place. -/
def RoundAgrees {Local Place : Type} (measure : Place → Nat) (at' : Local → Place → Prop)
    (agrees : Value → Read → Prop) (locals : Local) (place : Place) (quiet : Prop) :
    Local ⊕ Value → Place ⊕ Read → Prop
  | .inl again, .inl place' => at' again place' ∧ measure place' < measure place ∨
      again = locals ∧ ¬measure place' < measure place ∧ quiet
  | .inr value, .inr read => agrees value read
  | _, _ => False

/-- A loop follows a reading in rounds, when every round follows the reading of the round and
either comes closer to the end or leaves everything as it is. -/
theorem follows_loop {Local Place : Type} {body : Local → Code Event State (Local ⊕ Value)}
    {round : Place → Reading Reply (Place ⊕ Read)} (measure : Place → Nat)
    (at' : Local → Place → Prop)
    (follows : ∀ locals place, at' locals place → Follows allowed meant say enough
      (RoundAgrees measure at' agrees locals place
        ((round place).replies = [] ∧ (round place).strays = false)) (body locals)
      (round place)) (fuel : Nat) {locals : Local} {place : Place} (start : at' locals place) :
    Follows allowed meant say (enough ∧ measure place < fuel) agrees (loop body fuel locals)
      (Reading.iterate round measure place) := by
  induction fuel generalizing locals place with
  | zero =>
    intro state
    exact Or.inl ⟨⟨fun _ => clean_nil _, fun _ => clean_nil _⟩, rfl,
      fun fuel => absurd fuel.2 (Nat.not_lt_zero _)⟩
  | succ fuel inductionHypothesis =>
    rw [Reading.iterate_eq, loop]
    have first := follows locals place start
    refine (first.mono And.left).bind ?_
    intro value read accepts agree
    match value, read, agree with
    | .inr value, .inr read, agree => exact follows_pure agree
    | .inl again, .inl place', .inl ⟨holds, closer⟩ =>
      simp only [if_pos closer]
      refine (inductionHypothesis holds).mono fun both => ⟨both.1, ?_⟩
      exact Nat.lt_of_lt_of_le closer (Nat.le_of_lt_succ both.2)
    | .inl again, .inl place', .inr ⟨same, stays, silent, straight⟩ =>
      subst same
      simp only [if_neg stays]
      have stalled : Follows allowed meant say enough (fun value _ => value = .inl again) (body again)
          (round place) := first.weaken fun value read' accepts' agree' => by
        rw [accepts] at accepts'
        cases accepts'
        match value, agree' with
        | .inl again', .inl ⟨_, closer⟩ => exact absurd closer stays
        | .inl again', .inr ⟨same, _⟩ => rw [same]
      exact (follows_stalled accepts silent straight stalled fuel).mono And.left

/-! ### Pre- and postconditions -/

/-- From a state that meets the precondition, a function that goes on leaves a value and a state
that meet the postcondition, and one that gives up leaves the state as another property says. -/
structure Triple (pre : State → Prop) (post : Value → State → Prop) (gaveUp : State → Prop)
    (code : Code Event State Value) : Prop where
  returns : ∀ {state value state'}, pre state →
    (code state).outcome = .ret (some value, state') → post value state'
  givesUp : ∀ {state state'}, pre state →
    (code state).outcome = .ret (none, state') → gaveUp state'

/-- A function that keeps a property of the state as long as it goes on, and leaves the state as
another property says when it gives up. -/
abbrev Keeps (property gaveUp : State → Prop) (code : Code Event State Value) : Prop :=
  Triple property (fun _ => property) gaveUp code

/-- A result that leaves the state as it should be. -/
def Leaves (post : Value → State → Prop) (gaveUp : State → Prop) : Option Value × State → Prop
  | (some value, state) => post value state
  | (none, state) => gaveUp state

section Triple

variable {pre : State → Prop} {post : Value → State → Prop} {property gaveUp : State → Prop}

theorem triple_of_outcome {code : Code Event State Value} {action : State → Option Value × State}
    (outcome : ∀ state, (code state).outcome = .ret (action state))
    (leaves : ∀ state, pre state → Leaves post gaveUp (action state)) :
    Triple pre post gaveUp code where
  returns := by
    intro state value state' holds same
    have left := leaves state holds
    rw [outcome] at same
    rw [Outcome.ret.inj same] at left
    exact left
  givesUp := by
    intro state state' holds same
    have left := leaves state holds
    rw [outcome] at same
    rw [Outcome.ret.inj same] at left
    exact left

theorem triple_act {action : State → Option Value × State}
    (leaves : ∀ state, pre state → Leaves post gaveUp (action state)) :
    Triple pre post gaveUp (act action : Code Event State Value) :=
  triple_of_outcome (fun _ => rfl) leaves

theorem triple_pure (value : Value) (holds : ∀ state, pre state → post value state) :
    Triple pre post gaveUp (pure value : Code Event State Value) :=
  triple_act holds

theorem keeps_pure (value : Value) : Keeps property gaveUp (pure value : Code Event State Value) :=
  triple_pure value fun _ holds => holds

theorem keeps_look : Keeps property gaveUp (look : Code Event State State) :=
  triple_act fun _ holds => holds

theorem keeps_change {update : State → State} (keeps : ∀ state, property state → property (update state)) :
    Keeps property gaveUp (change update : Code Event State Unit) :=
  triple_act keeps

theorem triple_giveUp (weaker : ∀ state, pre state → gaveUp state) :
    Triple pre post gaveUp (giveUp : Code Event State Value) :=
  triple_act weaker

theorem Triple.weaken {pre' : State → Prop} {post' : Value → State → Prop}
    {code : Code Event State Value} (triple : Triple pre post gaveUp code)
    (stronger : ∀ state, pre' state → pre state)
    (weaker : ∀ value state, post value state → post' value state) :
    Triple pre' post' gaveUp code where
  returns holds same := weaker _ _ (triple.returns (stronger _ holds) same)
  givesUp holds same := triple.givesUp (stronger _ holds) same

theorem triple_bind (between : Value → State → Prop) {post : Value' → State → Prop}
    {first : Code Event State Value} {next : Value → Code Event State Value'}
    (triple : Triple pre between gaveUp first)
    (triple' : ∀ value, Triple (between value) post gaveUp (next value)) :
    Triple pre post gaveUp (first >>= next) where
  returns := by
    intro state value' state'' holds same
    obtain ⟨value, state', first', second⟩ := bind_returns.mp same
    exact (triple' value).returns (triple.returns holds first') second
  givesUp := by
    intro state state'' holds same
    rw [bind_apply, andThen] at same
    match run : first state with
    | ⟨trace, .ret (some value, state')⟩ =>
      rw [run] at same
      exact (triple' value).givesUp (triple.returns holds (by rw [run])) same
    | ⟨trace, .ret (none, state')⟩ =>
      rw [run] at same
      cases same
      exact triple.givesUp holds (by rw [run])
    | ⟨trace, .undefined⟩ =>
      rw [run] at same
      cases same
    | ⟨trace, .outOfFuel⟩ =>
      rw [run] at same
      cases same

theorem keeps_bind {post : Value' → State → Prop} {first : Code Event State Value}
    {next : Value → Code Event State Value'} (keeps : Keeps property gaveUp first)
    (triple : ∀ value, Triple property post gaveUp (next value)) :
    Triple property post gaveUp (first >>= next) :=
  triple_bind (fun _ => property) keeps triple

/-- What is looked at is the state. -/
theorem triple_look_bind {post : Value' → State → Prop} {next : State → Code Event State Value'}
    (triple : ∀ state, pre state → Triple (· = state) post gaveUp (next state)) :
    Triple pre post gaveUp (look >>= next) := by
  refine triple_bind (fun value state => value = state ∧ pre state) ?_ fun value => ?_
  · exact triple_act fun state holds => ⟨rfl, holds⟩
  · refine ⟨fun both same => ?_, fun both same => ?_⟩
    · exact (triple value (both.1 ▸ both.2)).returns both.1.symm same
    · exact (triple value (both.1 ▸ both.2)).givesUp both.1.symm same

/-- A precondition that has nothing to do with the state. -/
theorem triple_of_fact {fact : Prop} {code : Code Event State Value}
    (triple : fact → Triple pre post gaveUp code) :
    Triple (fun state => fact ∧ pre state) post gaveUp code where
  returns both := (triple both.1).returns both.2
  givesUp both := (triple both.1).givesUp both.2

theorem triple_ite {condition : Prop} [Decidable condition] {yes no : Code Event State Value}
    (taken : condition → Triple pre post gaveUp yes) (passed : ¬condition → Triple pre post gaveUp no) :
    Triple pre post gaveUp (if condition then yes else no) := by
  split
  · rename_i holds
    exact taken holds
  · rename_i fails
    exact passed fails

theorem keeps_ite {condition : Prop} [Decidable condition] {yes no : Code Event State Value}
    (taken : Triple pre post gaveUp yes) (passed : Triple pre post gaveUp no) :
    Triple pre post gaveUp (if condition then yes else no) :=
  triple_ite (fun _ => taken) fun _ => passed

theorem keeps_loop {Local : Type} {body : Local → Code Event State (Local ⊕ Value)}
    (keeps : ∀ locals, Keeps property gaveUp (body locals)) (fuel : Nat) (locals : Local) :
    Keeps property gaveUp (loop body fuel locals) := by
  induction fuel generalizing locals with
  | zero => exact ⟨nofun, nofun⟩
  | succ fuel inductionHypothesis =>
    rw [loop]
    refine keeps_bind (keeps locals) fun next => ?_
    cases next with
    | inl again => exact inductionHypothesis again
    | inr value => exact keeps_pure value

/-- An invariant of a loop that has to do with its locals. -/
theorem triple_loop {Local : Type} {body : Local → Code Event State (Local ⊕ Value)}
    (invariant : Local → State → Prop) {post : Value → State → Prop}
    (round : ∀ locals, Triple (invariant locals) (Sum.elim invariant post) gaveUp (body locals))
    (fuel : Nat) (locals : Local) : Triple (invariant locals) post gaveUp (loop body fuel locals) := by
  induction fuel generalizing locals with
  | zero => exact ⟨nofun, nofun⟩
  | succ fuel inductionHypothesis =>
    rw [loop]
    refine triple_bind (Sum.elim invariant post) (round locals) fun next => ?_
    cases next with
    | inl again => exact inductionHypothesis again
    | inr value => exact triple_pure value fun _ holds => holds

/-- The events of a function do not matter to what it leaves. -/
theorem Triple.mapEvents {Event' : Type} {view : Event → Event'} {code : Code Event State Value}
    (triple : Triple pre post gaveUp code) : Triple pre post gaveUp (mapEvents view code) :=
  ⟨triple.returns, triple.givesUp⟩

theorem keeps_log (event : Event) : Keeps property gaveUp (log event : Code Event State Unit) :=
  triple_of_outcome (fun _ => rfl) fun _ holds => holds

/-- To the caller, a function that gave up has returned too. -/
theorem Triple.returned {code : Code Event State Unit}
    (triple : Triple pre (fun _ => gaveUp) gaveUp code) :
    Triple pre (fun _ => gaveUp) gaveUp (returned code) where
  returns := by
    intro state value state' holds same
    rw [Code.returned] at same
    match run : code state with
    | ⟨trace, .ret (some result, after)⟩ =>
      rw [run] at same
      cases same
      exact triple.returns holds (by rw [run])
    | ⟨trace, .ret (none, after)⟩ =>
      rw [run] at same
      cases same
      exact triple.givesUp holds (by rw [run])
    | ⟨trace, .undefined⟩ =>
      rw [run] at same
      cases same
    | ⟨trace, .outOfFuel⟩ =>
      rw [run] at same
      cases same
  givesUp := by
    intro state state' holds same
    rw [Code.returned] at same
    match run : code state with
    | ⟨trace, .ret (result, after)⟩ =>
      rw [run] at same
      cases same
    | ⟨trace, .undefined⟩ =>
      rw [run] at same
      cases same
    | ⟨trace, .outOfFuel⟩ =>
      rw [run] at same
      cases same

end Triple

/-! ### Acting on what was read -/

/-- How a function ends that does what a reading has found out to be done. -/
def Settles (meant : Event → Prop) (say : State → Reply → State)
    (reading : Reading Reply (State → Option Value × State)) (state : State)
    (run : Execution Event (Option Value × State)) : Prop :=
  match reading.verdict with
  | .accept action =>
    Defined meant run ∧ run.outcome = .ret (action (reading.replies.foldl say state))
  | .reject reply =>
    Defined meant run ∧ run.outcome = .ret (none, say (reading.replies.foldl say state) reply)
  | .undefined => reading.strays = true ∧ ¬Defined meant run
  | .endless => Clean meant run ∧ run.outcome = .outOfFuel

/-- A function that does what a reading finds out to be done. -/
def ActsAt (allowed meant : Event → Prop) (say : State → Reply → State) (enough : Prop)
    (state : State) (code : Code Event State Value)
    (reading : Reading Reply (State → Option Value × State)) : Prop :=
  (CutShort allowed meant reading (code state) ∧ (code state).outcome = .outOfFuel ∧ ¬enough) ∨
    ((Clean allowed (code state) ↔ reading.strays = false) ∧
      Settles meant say reading state (code state))

/-- A function that reads first and acts then. -/
theorem FollowsAt.act {state : State} {code : Code Event State Value} {reading : Reading Reply Value}
    (follows : FollowsAt allowed meant say enough Eq state code reading)
    (action : Value → State → Option Value' × State) :
    ActsAt allowed meant say enough state (code >>= fun value => act (action value))
      (reading >>= fun value => pure (action value)) := by
  rcases follows with ⟨cut, spent, short⟩ | ⟨inside, ends⟩
  · rw [ActsAt, bind_outOfFuel (run_eq spent)]
    exact Or.inl ⟨cut.bind, rfl, short⟩
  rw [EndsAs] at ends
  cases verdict : reading.verdict with
  | accept read =>
    rw [verdict] at ends
    obtain ⟨⟨meaning, -⟩, value, rfl, outcome⟩ := ends
    rw [Reading.bind_accept verdict, ActsAt, bind_ret (run_eq outcome)]
    refine Or.inr ⟨?_, (defined_prepend meaning).mpr (defined_ret _), ?_⟩
    · rw [clean_prepend, Bool.or_eq_false_iff]
      exact and_congr inside (iff_of_true (clean_nil _) rfl)
    · show Outcome.ret _ = Outcome.ret (action value ((reading.replies ++ []).foldl say state))
      rw [List.append_nil]
  | reject reply =>
    rw [verdict] at ends
    rw [bind_of_not_accept (by rw [Reading.andThen, verdict]), ActsAt, bind_gaveUp (run_eq ends.2)]
    exact Or.inr ⟨inside, ⟨ends.1.1, nofun⟩, rfl⟩
  | undefined =>
    rw [verdict] at ends
    obtain ⟨strays, undefined⟩ := ends
    rw [strays] at inside
    obtain ⟨astray, undefined'⟩ := bind_undefined (mt inside.mp nofun) undefined
    rw [bind_of_not_accept (by rw [Reading.andThen, verdict]), strays]
    exact Or.inr ⟨iff_of_false astray nofun, rfl, undefined'⟩
  | endless =>
    rw [verdict] at ends
    rw [bind_of_not_accept (by rw [Reading.andThen, verdict]), ActsAt, bind_outOfFuel (run_eq ends.2)]
    exact Or.inr ⟨inside, ends.1, rfl⟩

/-- How a function that does what a reading finds out returns: it has done that, or given up with a
last reply. -/
theorem ActsAt.settled {state state' : State} {code : Code Event State Value}
    {reading : Reading Reply (State → Option Value × State)} {result : Option Value}
    (acts : ActsAt allowed meant say enough state code reading)
    (defined : reading.verdict = .undefined → Defined meant (code state))
    (returns : (code state).outcome = .ret (result, state')) :
    (∃ action, reading.verdict = .accept action ∧
      action (reading.replies.foldl say state) = (result, state')) ∨
    (∃ reply, reading.verdict = .reject reply ∧ result = none ∧
      state' = say (reading.replies.foldl say state) reply) := by
  rcases acts with ⟨-, spent, -⟩ | ⟨-, ends⟩
  · rw [spent] at returns
    cases returns
  rw [Settles, returns] at ends
  cases verdict : reading.verdict with
  | accept action =>
    rw [verdict] at ends
    exact Or.inl ⟨action, rfl, (Outcome.ret.inj ends.2).symm⟩
  | reject reply =>
    rw [verdict] at ends
    cases ends.2
    exact Or.inr ⟨reply, rfl, rfl, rfl⟩
  | undefined =>
    rw [verdict] at ends
    exact absurd (defined verdict) ends.2
  | endless =>
    rw [verdict] at ends
    cases ends.2

/-- How a function that reads first and acts then returns: it has acted on what it read, or
given up with a last reply. -/
theorem ActsAt.returned {state state' : State} {code : Code Event State Value'}
    {reading : Reading Reply Value} {action : Value → State → Option Value' × State}
    {result : Option Value'}
    (acts : ActsAt allowed meant say enough state code (reading >>= fun value => pure (action value)))
    (defined : reading.verdict = .undefined → Defined meant (code state))
    (returns : (code state).outcome = .ret (result, state')) :
    (∃ value, reading.verdict = .accept value ∧
      action value (reading.replies.foldl say state) = (result, state')) ∨
    (∃ reply, reading.verdict = .reject reply ∧ result = none ∧
      state' = say (reading.replies.foldl say state) reply) := by
  cases verdict : reading.verdict with
  | accept value =>
    rw [Reading.bind_accept verdict] at acts
    rcases acts.settled nofun returns with ⟨_, accepts, ends⟩ | ⟨_, rejects, -⟩
    · cases accepts
      have acted : action value ((reading.replies ++ []).foldl say state) = (result, state') := ends
      rw [List.append_nil] at acted
      exact Or.inl ⟨value, rfl, acted⟩
    · cases rejects
  | reject reply =>
    rw [bind_of_not_accept (by rw [Reading.andThen, verdict])] at acts
    rcases acts.settled nofun returns with ⟨_, accepts, -⟩ | ⟨_, rejects, ends⟩
    · cases accepts
    · cases rejects
      exact Or.inr ⟨reply, rfl, ends⟩
  | undefined =>
    rw [bind_of_not_accept (by rw [Reading.andThen, verdict])] at acts
    rcases acts.settled (fun _ => defined verdict) returns with ⟨_, accepts, -⟩ | ⟨_, rejects, -⟩
    · cases accepts
    · cases rejects
  | endless =>
    rw [bind_of_not_accept (by rw [Reading.andThen, verdict])] at acts
    rcases acts.settled nofun returns with ⟨_, accepts, -⟩ | ⟨_, rejects, -⟩
    · cases accepts
    · cases rejects

/-- A function that acts after another one that is sure to find something. -/
theorem FollowsAt.then {state : State} {code : Code Event State Value} {value : Value}
    {next : Value → Code Event State Value'} {reading : Reading Reply (State → Option Value' × State)}
    (follows : FollowsAt allowed meant say enough Eq state code (pure value : Reading Reply Value))
    (acts : ActsAt allowed meant say enough state (next value) reading) :
    ActsAt allowed meant say enough state (code >>= next) reading := by
  rcases follows with ⟨cut, spent, short⟩ | ⟨inside, ⟨meaning, -⟩, value', rfl, outcome⟩
  · rw [ActsAt, bind_outOfFuel (run_eq spent)]
    exact Or.inl ⟨⟨fun _ => cut.1 rfl, fun _ => cut.2 nofun⟩, rfl, short⟩
  have whole : (code >>= next) state = (next value' state).prepend (code state).trace :=
    bind_ret (run_eq outcome)
  rw [ActsAt, whole]
  rcases acts with ⟨cut, spent, short⟩ | ⟨inside', ends⟩
  · exact Or.inl ⟨⟨fun straight => clean_prepend.mpr ⟨inside.mpr rfl, cut.1 straight⟩,
      fun defined => clean_prepend.mpr ⟨meaning, cut.2 defined⟩⟩, spent, short⟩
  · refine Or.inr ⟨?_, ?_⟩
    · rw [clean_prepend, ← inside']
      exact and_iff_right (inside.mpr rfl)
    · rw [Settles] at ends ⊢
      simp only [defined_prepend meaning, clean_after meaning]
      exact ends

/-- A function that acts and a reading that take the same turn. -/
theorem actsAt_ite {state : State} {condition : Prop} [Decidable condition]
    {yes no : Code Event State Value} {yes' no' : Reading Reply (State → Option Value × State)}
    (taken : condition → ActsAt allowed meant say enough state yes yes')
    (passed : ¬condition → ActsAt allowed meant say enough state no no') :
    ActsAt allowed meant say enough state (if condition then yes else no)
      (if condition then yes' else no') := by
  split
  · rename_i holds
    exact taken holds
  · rename_i fails
    exact passed fails

/-- A function that only replies. -/
theorem actsAt_reply (reply : Reply) (state : State) :
    ActsAt allowed meant say enough state (change fun state => say state reply)
      { replies := [reply], verdict := .accept fun state => (some (), state) } :=
  Or.inr ⟨iff_of_true (clean_nil _) rfl, defined_ret _, rfl⟩

/-- A function that does nothing. -/
theorem actsAt_pure (value : Value) (state : State) :
    ActsAt allowed meant say enough state (pure value) (pure fun state => (some value, state)) :=
  Or.inr ⟨iff_of_true (clean_nil _) rfl, defined_ret _, rfl⟩

/-- A function that has nothing left to do. -/
theorem bind_act_some (code : Code Event State Value) :
    (code >>= fun value => act fun state => (some value, state)) = code := by
  funext state
  rw [bind_apply, andThen]
  match run : code state with
  | ⟨trace, .ret (some value, state')⟩ =>
    show Execution.mk (trace ++ []) _ = _
    rw [List.append_nil]
    rfl
  | ⟨trace, .ret (none, state')⟩ => rfl
  | ⟨trace, .undefined⟩ => rfl
  | ⟨trace, .outOfFuel⟩ => rfl

section Fuel

variable {state : State} {code : Nat → Code Event State Value} {bound : Nat}
  {reading : Reading Reply (State → Option Value × State)}

/-- A function that acts on a reading returns, with enough fuel, unless the reading goes wrong. -/
theorem returns_iff
    (acts : ∀ fuel, ActsAt allowed meant say (bound ≤ fuel) state (code fuel) reading) :
    (∃ fuel result, (code fuel state).outcome = .ret result ∧ Defined meant (code fuel state)) ↔
      ¬reading.Has .endless ∧ ¬reading.Has .undefined := by
  constructor
  · rintro ⟨fuel, result, returns, defined⟩
    rcases acts fuel with ⟨-, spent, -⟩ | ⟨-, ends⟩
    · rw [spent] at returns
      cases returns
    · rw [Settles] at ends
      refine ⟨fun endless => ?_, fun undefined => ?_⟩
      · rw [Reading.Has] at endless
        rw [endless] at ends
        rw [ends.2] at returns
        cases returns
      · rw [Reading.Has] at undefined
        rw [undefined] at ends
        exact ends.2 defined
  · rintro ⟨notEndless, defined⟩
    refine ⟨bound, ?_⟩
    rcases acts bound with ⟨-, -, short⟩ | ⟨-, ends⟩
    · exact absurd (Nat.le_refl bound) short
    · rw [Settles] at ends
      cases verdict : reading.verdict with
      | accept action =>
        rw [verdict] at ends
        exact ⟨_, ends.2, ends.1⟩
      | reject reply =>
        rw [verdict] at ends
        exact ⟨_, ends.2, ends.1⟩
      | undefined => exact absurd verdict defined
      | endless => exact absurd verdict notEndless

/-- A function that acts on a reading returns the same whatever the fuel it returns with. -/
theorem returns_of_le
    (acts : ∀ fuel, ActsAt allowed meant say (bound ≤ fuel) state (code fuel) reading)
    {fuel fuel' : Nat} {result : Option Value × State}
    (returns : (code fuel state).outcome = .ret result) (defined : Defined meant (code fuel state))
    (plenty : bound ≤ fuel') :
    (code fuel' state).outcome = .ret result ∧ Defined meant (code fuel' state) := by
  rcases acts fuel with ⟨-, spent, -⟩ | ⟨-, ends⟩
  · rw [spent] at returns
    cases returns
  · rcases acts fuel' with ⟨-, -, short⟩ | ⟨-, ends'⟩
    · exact absurd plenty short
    · rw [Settles] at ends ends'
      cases verdict : reading.verdict with
      | accept action =>
        rw [verdict] at ends ends'
        exact ⟨ends'.2.trans (ends.2.symm.trans returns), ends'.1⟩
      | reject reply =>
        rw [verdict] at ends ends'
        exact ⟨ends'.2.trans (ends.2.symm.trans returns), ends'.1⟩
      | undefined =>
        rw [verdict] at ends
        exact absurd defined ends.2
      | endless =>
        rw [verdict] at ends
        rw [ends.2] at returns
        cases returns

/-- A function that acts on a reading touches only what it may, unless the reading strays. -/
theorem clean_iff
    (acts : ∀ fuel, ActsAt allowed meant say (bound ≤ fuel) state (code fuel) reading) :
    (∀ fuel, Clean allowed (code fuel state)) ↔ ¬reading.Has .stray := by
  have straight : ¬reading.Has .stray ↔ reading.strays = false := Bool.not_eq_true _ ▸ Iff.rfl
  rw [straight]
  constructor
  · intro clean
    rcases acts bound with ⟨-, -, short⟩ | ⟨inside, -⟩
    · exact absurd (Nat.le_refl bound) short
    · exact inside.mp (clean bound)
  · intro stays fuel
    rcases acts fuel with ⟨cut, -, -⟩ | ⟨inside, -⟩
    · exact cut.1 stays
    · exact inside.mpr stays

/-- A function that acts on a reading has a meaning, unless the reading has none. -/
theorem defined_iff
    (acts : ∀ fuel, ActsAt allowed meant say (bound ≤ fuel) state (code fuel) reading) :
    (∀ fuel, Defined meant (code fuel state)) ↔ ¬reading.Has .undefined := by
  constructor
  · intro defined undefined
    rcases acts bound with ⟨-, -, short⟩ | ⟨-, ends⟩
    · exact short (Nat.le_refl bound)
    · rw [Reading.Has] at undefined
      rw [Settles, undefined] at ends
      exact ends.2 (defined bound)
  · intro meaning fuel
    rcases acts fuel with ⟨cut, spent, -⟩ | ⟨-, ends⟩
    · exact ⟨cut.2 meaning, by rw [spent]; nofun⟩
    · rw [Settles] at ends
      cases verdict : reading.verdict with
      | accept action =>
        rw [verdict] at ends
        exact ends.1
      | reject reply =>
        rw [verdict] at ends
        exact ends.1
      | undefined => exact absurd verdict meaning
      | endless =>
        rw [verdict] at ends
        exact ⟨ends.1, by rw [ends.2]; nofun⟩

end Fuel

end Code
