/-
This file is about two runs of one program. The program has a state, may give up with the
state as it is, and may run out of fuel. Two states that are related before it lead to the
same result and to related states after it. With a relation that only holds of a state and
itself, this is an invariant of one run.
-/

import Mathlib

/-- A program with a state that may give up. Without a result it ran out of fuel. -/
abbrev Program (State Fault Result : Type) := ExceptT Fault (StateT State Option) Result

namespace Program

variable {State Fault Result Result' : Type}

/-- Two outcomes are the same, and lead to related states. -/
inductive Related (fault : State → State → Prop) (after : Result → State → State → Prop) :
    Option (Except Fault Result × State) → Option (Except Fault Result × State) → Prop
  | fuel : Related fault after none none
  | ok {result : Result} {s s' : State} (holds : after result s s') :
      Related fault after (some (.ok result, s)) (some (.ok result, s'))
  | error {cause : Fault} {s s' : State} (holds : fault s s') :
      Related fault after (some (.error cause, s)) (some (.error cause, s'))

/-- Two runs from related states have the same outcome and lead to related states. -/
def Twin (fault before : State → State → Prop) (program : Program State Fault Result)
    (after : Result → State → State → Prop) : Prop :=
  ∀ s s', before s s' → Related fault after (program.run s) (program.run s')

/-- What follows an outcome. -/
def follow (ok : Result → State → Option (Except Fault Result' × State))
    (error : Fault → State → Option (Except Fault Result' × State)) :
    Option (Except Fault Result × State) → Option (Except Fault Result' × State)
  | none => none
  | some (.ok result, s) => ok result s
  | some (.error cause, s) => error cause s

variable {fault before before' : State → State → Prop} {after after' : Result → State → State → Prop}
  {program : Program State Fault Result}

theorem Twin.weaken (twin : Twin fault before program after)
    (stronger : ∀ s s', before' s s' → before s s')
    (weaker : ∀ result s s', after result s s' → after' result s s') :
    Twin fault before' program after' := by
  intro s s' holds
  have outcomes := twin s s' (stronger s s' holds)
  generalize program.run s = outcome at outcomes ⊢
  generalize program.run s' = outcome' at outcomes ⊢
  cases outcomes with
  | fuel => exact .fuel
  | ok holds => exact .ok (weaker _ _ _ holds)
  | error holds => exact .error holds

theorem Twin.pure {result : Result} (holds : ∀ s s', before s s' → after result s s') :
    Twin fault before (pure result : Program State Fault Result) after :=
  fun s s' related => .ok (holds s s' related)

/-- A program that has run out of fuel. -/
theorem Twin.lift_none :
    Twin fault before (liftM (none : Option Result) : Program State Fault Result) after :=
  fun _ _ _ => .fuel

theorem Twin.modify {change : State → State} {after : Unit → State → State → Prop}
    (holds : ∀ s s', before s s' → after () (change s) (change s')) :
    Twin fault before (modify change : Program State Fault Unit) after :=
  fun s s' related => .ok (holds s s' related)

theorem Twin.ite {condition : Prop} [Decidable condition] {otherwise : Program State Fault Result}
    (yes : condition → Twin fault before program after)
    (no : ¬condition → Twin fault before otherwise after) :
    Twin fault before (if condition then program else otherwise) after := by
  split
  · rename_i holds
    exact yes holds
  · rename_i fails
    exact no fails

/-- What is known before a program. -/
theorem Twin.of_fact {fact : Prop} (known : ∀ s s', before s s' → fact)
    (twin : fact → Twin fault before program after) : Twin fault before program after :=
  fun s s' related => twin (known s s' related) s s' related

/-! ### One program after another -/

theorem run_bind (program : Program State Fault Result) (next : Result → Program State Fault Result')
    (s : State) :
    (program >>= next).run s =
      follow (fun result s => (next result).run s) (fun cause s => some (.error cause, s))
        (program.run s) := by
  simp only [ExceptT.run, Bind.bind, ExceptT.bind, ExceptT.mk, StateT.bind]
  cases program s with
  | none => rfl
  | some both =>
    obtain ⟨outcome, s⟩ := both
    cases outcome with
    | ok result => rfl
    | error cause => rfl

theorem run_tryCatch (program : Program State Fault Result)
    (handler : Fault → Program State Fault Result) (s : State) :
    (tryCatch program handler).run s =
      follow (fun result s => some (.ok result, s)) (fun cause s => (handler cause).run s)
        (program.run s) := by
  simp only [MonadExcept.tryCatch, tryCatchThe, MonadExceptOf.tryCatch, ExceptT.tryCatch,
    ExceptT.run, ExceptT.mk, Bind.bind, StateT.bind]
  cases program s with
  | none => rfl
  | some both =>
    obtain ⟨outcome, s⟩ := both
    cases outcome with
    | ok result => rfl
    | error cause => rfl

theorem Twin.bind {next : Result → Program State Fault Result'}
    {after' : Result' → State → State → Prop} (first : Twin fault before program after)
    (second : ∀ result, Twin fault (after result) (next result) after') :
    Twin fault before (program >>= next) after' := by
  intro s s' related
  have outcomes := first s s' related
  rw [run_bind, run_bind]
  generalize program.run s = outcome at outcomes ⊢
  generalize program.run s' = outcome' at outcomes ⊢
  cases outcomes with
  | fuel => exact .fuel
  | ok holds => exact second _ _ _ holds
  | error holds => exact .error holds

/-- A program that is taken up where it gave up. -/
theorem Twin.tryCatch {handler : Fault → Program State Fault Result}
    {fault' : State → State → Prop} (first : Twin fault before program after)
    (second : ∀ cause, Twin fault' fault (handler cause) after) :
    Twin fault' before (tryCatch program handler) after := by
  intro s s' related
  have outcomes := first s s' related
  rw [run_tryCatch, run_tryCatch]
  generalize program.run s = outcome at outcomes ⊢
  generalize program.run s' = outcome' at outcomes ⊢
  cases outcomes with
  | fuel => exact .fuel
  | ok holds => exact .ok holds
  | error holds => exact second _ _ _ holds

end Program
