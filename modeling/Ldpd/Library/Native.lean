/-
This file is the memory of a host that stores the low byte of a word first: the bytes
in which a word lies there, and how the words of the host are turned into words whose
bytes lie in memory high byte first.
-/

import Ldpd.Library.Bytes

namespace Native

open Bytes

/-! ### Words in memory -/

/-- The 16-bit word in which the host reads the bytes at the front. -/
def load16 (bytes : List UInt8) : UInt16 :=
  word16 (bytes.getD 1 0) (bytes.getD 0 0)

/-- The 32-bit word in which the host reads the bytes at the front. -/
def load32 (bytes : List UInt8) : UInt32 :=
  word32 (load16 (bytes.drop 2)) (load16 bytes)

/-- The two bytes in which the host stores a 16-bit word. -/
def store16 (word : UInt16) : List UInt8 :=
  [word.toUInt8, (word / 256).toUInt8]

/-- The four bytes in which the host stores a 32-bit word. -/
def store32 (word : UInt32) : List UInt8 :=
  store16 word.toUInt16 ++ store16 (word / 65536).toUInt16

/-- The 16-bit word with its bytes in the opposite order. -/
def swap16 (word : UInt16) : UInt16 :=
  word16 word.toUInt8 (word / 256).toUInt8

/-- The 32-bit word with its bytes in the opposite order. -/
def swap32 (word : UInt32) : UInt32 :=
  word32 (swap16 word.toUInt16) (swap16 (word / 65536).toUInt16)

/-! ### What the host reads and stores -/

theorem halves_word16 (high low : UInt8) :
    (word16 high low / 256).toUInt8 = high ∧ (word16 high low).toUInt8 = low := by
  have bytes := put16_word16 high low
  rw [put16] at bytes
  exact ⟨(List.cons.inj bytes).1, (List.cons.inj (List.cons.inj bytes).2).1⟩

theorem halves_word32 (high low : UInt16) :
    (word32 high low / 65536).toUInt16 = high ∧ (word32 high low).toUInt16 = low := by
  have bytes := put32_word32 high low
  rw [put32] at bytes
  obtain ⟨first, second⟩ := List.append_inj bytes rfl
  have first := congrArg get16 first
  have second := congrArg get16 second
  rw [← List.append_nil (put16 _), get16_put16, ← List.append_nil (put16 high), get16_put16] at first
  rw [← List.append_nil (put16 _), get16_put16, ← List.append_nil (put16 low), get16_put16] at second
  exact ⟨first, second⟩

theorem swap16_word16 (high low : UInt8) : swap16 (word16 high low) = word16 low high := by
  obtain ⟨first, second⟩ := halves_word16 high low
  rw [swap16, first, second]

/-- Turned around, the word the host has read is the one whose high byte came first. -/
theorem swap16_load16 (bytes : List UInt8) : swap16 (load16 bytes) = get16 bytes :=
  swap16_word16 _ _

/-- A word whose high byte comes first is read turned around. -/
theorem load32_put32 (word : UInt32) (rest : List UInt8) :
    load32 (put32 word ++ rest) = swap32 word := by
  have front : load16 (put32 word ++ rest) = swap16 (word / 65536).toUInt16 := rfl
  have back : load16 ((put32 word ++ rest).drop 2) = swap16 word.toUInt16 := rfl
  rw [load32, front, back, swap32]

theorem store16_swap16 (word : UInt16) : store16 (swap16 word) = put16 word := by
  obtain ⟨first, second⟩ := halves_word16 word.toUInt8 (word / 256).toUInt8
  rw [store16, swap16, first, second, put16]

/-- A word turned around is stored with its high byte first. -/
theorem store32_swap32 (word : UInt32) : store32 (swap32 word) = put32 word := by
  obtain ⟨first, second⟩ := halves_word32 (swap16 word.toUInt16) (swap16 (word / 65536).toUInt16)
  rw [store32, swap32, first, second, store16_swap16, store16_swap16, put32]

end Native
