/-
This file is about a reader that is behind a writer. The writer appends messages to a log,
the reader takes them one by one and keeps a view of what they say. What the reader will
think when it has taken everything is the outcome of the channel: writing advances it,
reading leaves it alone.
-/

import Mathlib

namespace Fifo

variable {Msg View : Type} (hear : View → Msg → View)

/-- The view of the reader after it has taken the rest of the log. -/
def outcome (log : List Msg) (read : Nat) (view : View) : View :=
  (log.drop read).foldl hear view

theorem outcome_append {log : List Msg} {read : Nat} (behind : read ≤ log.length) (more : List Msg)
    (view : View) :
    outcome hear (log ++ more) read view = more.foldl hear (outcome hear log read view) := by
  rw [outcome, List.drop_append_of_le_length behind, List.foldl_append, outcome]

theorem outcome_read {log : List Msg} {read : Nat} {msg : Msg} (next : log[read]? = some msg)
    (view : View) : outcome hear log (read + 1) (hear view msg) = outcome hear log read view := by
  obtain ⟨bound, rfl⟩ := List.getElem?_eq_some_iff.mp next
  rw [outcome, outcome, ← List.cons_getElem_drop_succ (h := bound), List.foldl_cons]

theorem outcome_drained {log : List Msg} {read : Nat} (drained : log.length ≤ read) (view : View) :
    outcome hear log read view = view := by
  rw [outcome, List.drop_of_length_le drained, List.foldl_nil]

/-- When every message leaves all views alone or makes the same of them, so do all messages together. -/
theorem foldl_passes_or_settles
    (either : ∀ msg, (∀ view, hear view msg = view) ∨ ∃ fixed, ∀ view, hear view msg = fixed)
    (msgs : List Msg) : (∀ view, msgs.foldl hear view = view) ∨
      ∃ fixed, ∀ view, msgs.foldl hear view = fixed := by
  induction msgs with
  | nil => exact .inl fun _ => rfl
  | cons msg rest inductionHypothesis =>
    rcases inductionHypothesis with passes | ⟨fixed, settles⟩
    · rcases either msg with passed | ⟨fixed, settled⟩
      · refine .inl fun view => ?_
        rw [List.foldl_cons, passes, passed]
      · refine .inr ⟨fixed, fun view => ?_⟩
        rw [List.foldl_cons, passes, settled]
    · exact .inr ⟨fixed, fun view => settles (hear view msg)⟩

theorem take_read {log : List Msg} {read : Nat} {msg : Msg} (next : log[read]? = some msg)
    (view : View) :
    (log.take (read + 1)).foldl hear view = hear ((log.take read).foldl hear view) msg := by
  rw [List.take_add_one, next, List.foldl_append]
  rfl

/-- What the writer thinks is the outcome of what the reader has made of the log so far. -/
theorem outcome_take (log : List Msg) (read : Nat) (view : View) :
    outcome hear log read ((log.take read).foldl hear view) = log.foldl hear view := by
  rw [outcome, ← List.foldl_append, List.take_append_drop]

end Fifo
