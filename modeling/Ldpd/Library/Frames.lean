/-
This file is about cutting a stream into frames: the first frame of what has arrived,
if it is complete, and what follows it. Whatever has arrived in the meantime, the
frames of a stream are the frames of its beginning and then those of what was left
over with the rest of the stream behind it.
-/

import Mathlib

/-- A way to cut the first frame off a stream. A frame is not empty, and does not depend on what
comes after it. -/
structure Framing (Item : Type) where
  cut : List Item → Option (List Item × List Item)
  whole : ∀ {input frame rest}, cut input = some (frame, rest) → frame ++ rest = input
  positive : ∀ {input frame rest}, cut input = some (frame, rest) → frame ≠ []
  extend : ∀ {input frame rest} (more : List Item), cut input = some (frame, rest) →
    cut (input ++ more) = some (frame, rest ++ more)

namespace Framing

variable {Item : Type} (framing : Framing Item)

/-- The frames of a stream, at most so many, and what is left over. -/
def framesFrom : Nat → List Item → List (List Item) × List Item
  | 0, input => ([], input)
  | bound + 1, input =>
    match framing.cut input with
    | none => ([], input)
    | some (frame, rest) => (frame :: (framesFrom bound rest).1, (framesFrom bound rest).2)

/-- The complete frames of a stream. -/
def frames (input : List Item) : List (List Item) :=
  (framing.framesFrom input.length input).1

/-- What is left over of a stream after its complete frames. -/
def leftover (input : List Item) : List Item :=
  (framing.framesFrom input.length input).2

variable {framing} {input frame rest : List Item}

theorem shorter (cut : framing.cut input = some (frame, rest)) : rest.length < input.length := by
  have some' := List.length_pos_iff.mpr (framing.positive cut)
  rw [← framing.whole cut, List.length_append]
  omega

theorem framesFrom_eq {bound bound' : Nat} (enough : input.length ≤ bound)
    (enough' : input.length ≤ bound') :
    framing.framesFrom bound input = framing.framesFrom bound' input := by
  induction bound generalizing bound' input with
  | zero =>
    obtain rfl := List.length_eq_zero_iff.mp (Nat.le_zero.mp enough)
    cases bound' with
    | zero => rfl
    | succ bound' =>
      rw [framesFrom, framesFrom]
      cases cut : framing.cut [] with
      | none => rfl
      | some both => exact absurd (shorter cut) (Nat.not_lt_zero _)
  | succ bound inductionHypothesis =>
    cases bound' with
    | zero =>
      obtain rfl := List.length_eq_zero_iff.mp (Nat.le_zero.mp enough')
      rw [framesFrom, framesFrom]
      cases cut : framing.cut [] with
      | none => rfl
      | some both => exact absurd (shorter cut) (Nat.not_lt_zero _)
    | succ bound' =>
      rw [framesFrom, framesFrom]
      cases cut : framing.cut input with
      | none => rfl
      | some both =>
        have less := shorter cut
        simp only
        rw [inductionHypothesis (Nat.le_of_lt_succ (Nat.lt_of_lt_of_le less enough))
          (Nat.le_of_lt_succ (Nat.lt_of_lt_of_le less enough'))]

theorem frames_of_none (cut : framing.cut input = none) : framing.frames input = [] := by
  rw [frames]
  cases input.length with
  | zero => rfl
  | succ bound => rw [framesFrom, cut]

theorem leftover_of_none (cut : framing.cut input = none) : framing.leftover input = input := by
  rw [leftover]
  cases input.length with
  | zero => rfl
  | succ bound => rw [framesFrom, cut]

theorem framesFrom_of_some (cut : framing.cut input = some (frame, rest)) :
    framing.framesFrom input.length input =
      (frame :: framing.frames rest, framing.leftover rest) := by
  have less := shorter cut
  cases size : input.length with
  | zero => omega
  | succ bound =>
    rw [framesFrom, cut, frames, leftover, framesFrom_eq (Nat.le_refl _) (show rest.length ≤ bound by omega)]

theorem frames_of_some (cut : framing.cut input = some (frame, rest)) :
    framing.frames input = frame :: framing.frames rest := by
  rw [frames, framesFrom_of_some cut]

theorem leftover_of_some (cut : framing.cut input = some (frame, rest)) :
    framing.leftover input = framing.leftover rest := by
  rw [leftover, framesFrom_of_some cut]

/-- The frames of a stream do not depend on how it arrives. -/
theorem frames_append (input more : List Item) :
    framing.frames (input ++ more) =
      framing.frames input ++ framing.frames (framing.leftover input ++ more) := by
  induction size : input.length using Nat.strongRecOn generalizing input with
  | ind size inductionHypothesis =>
    cases cut : framing.cut input with
    | none => rw [frames_of_none cut, leftover_of_none cut, List.nil_append]
    | some both =>
      have cut' := framing.extend more cut
      rw [frames_of_some cut', frames_of_some cut, leftover_of_some cut,
        inductionHypothesis _ (size ▸ shorter cut) _ rfl, List.cons_append]

/-- What is left over of a stream is not a complete frame. -/
theorem cut_leftover (input : List Item) : framing.cut (framing.leftover input) = none := by
  induction size : input.length using Nat.strongRecOn generalizing input with
  | ind size inductionHypothesis =>
    cases cut : framing.cut input with
    | none => rw [leftover_of_none cut, cut]
    | some both =>
      rw [leftover_of_some cut]
      exact inductionHypothesis _ (size ▸ shorter cut) _ rfl

theorem length_leftover_le (input : List Item) : (framing.leftover input).length ≤ input.length := by
  induction size : input.length using Nat.strongRecOn generalizing input with
  | ind size inductionHypothesis =>
    cases cut : framing.cut input with
    | none => exact Nat.le_of_eq (by rw [leftover_of_none cut, size])
    | some both =>
      have less := shorter cut
      have rest := inductionHypothesis _ (size ▸ less) _ rfl
      rw [leftover_of_some cut]
      omega

/-- A stream is its frames and what is left over. -/
theorem flatten_frames (input : List Item) :
    (framing.frames input).flatten ++ framing.leftover input = input := by
  induction size : input.length using Nat.strongRecOn generalizing input with
  | ind size inductionHypothesis =>
    cases cut : framing.cut input with
    | none => rw [frames_of_none cut, leftover_of_none cut, List.flatten_nil, List.nil_append]
    | some both =>
      rw [frames_of_some cut, leftover_of_some cut, List.flatten_cons, List.append_assoc,
        inductionHypothesis _ (size ▸ shorter cut) _ rfl, framing.whole cut]

/-- Frames behind each other are cut where they were joined. -/
theorem frames_flatten {parts : List (List Item)} (cuts : ∀ part ∈ parts, ∀ rest : List Item,
    framing.cut (part ++ rest) = some (part, rest)) (rest : List Item) (ends : framing.cut rest = none) :
    framing.frames (parts.flatten ++ rest) = parts ∧
      framing.leftover (parts.flatten ++ rest) = rest := by
  induction parts with
  | nil => exact ⟨frames_of_none ends, leftover_of_none ends⟩
  | cons part parts inductionHypothesis =>
    have cut := cuts part List.mem_cons_self (parts.flatten ++ rest)
    have others := inductionHypothesis fun part member => cuts part (List.mem_cons_of_mem _ member)
    rw [List.flatten_cons, List.append_assoc, frames_of_some cut, leftover_of_some cut, others.1]
    exact ⟨rfl, others.2⟩

end Framing
