/-
This file is the big-endian encoding of machine words as bytes, with the reading of
a word off the front of a byte string. Reading is total: bytes that are not there
count as zero, and whoever reads checks the length first.
-/

import Mathlib

namespace Bytes

/-! ### Words from bytes -/

/-- The 16-bit word of two bytes, the high one first. -/
def word16 (high low : UInt8) : UInt16 :=
  high.toUInt16 * 256 + low.toUInt16

/-- The 32-bit word of two 16-bit words, the high one first. -/
def word32 (high low : UInt16) : UInt32 :=
  high.toUInt32 * 65536 + low.toUInt32

/-- The byte at the front. -/
def get8 (bytes : List UInt8) : UInt8 :=
  bytes.getD 0 0

/-- The 16-bit word at the front. -/
def get16 (bytes : List UInt8) : UInt16 :=
  word16 (bytes.getD 0 0) (bytes.getD 1 0)

/-- The 32-bit word at the front. -/
def get32 (bytes : List UInt8) : UInt32 :=
  word32 (get16 bytes) (get16 (bytes.drop 2))

/-- The smaller of two 16-bit words is the one with the smaller value. -/
theorem toNat_min16 (first second : UInt16) :
    (min first second).toNat = min first.toNat second.toNat := by
  show (if first ≤ second then first else second).toNat = _
  by_cases below : first ≤ second
  · rw [if_pos below, Nat.min_eq_left (UInt16.le_iff_toNat_le.mp below)]
  · rw [if_neg below,
      Nat.min_eq_right (Nat.le_of_not_le fun least => below (UInt16.le_iff_toNat_le.mpr least))]

/-! ### Bytes of words -/

/-- The two bytes of a 16-bit word. -/
def put16 (word : UInt16) : List UInt8 :=
  [(word / 256).toUInt8, word.toUInt8]

/-- The four bytes of a 32-bit word. -/
def put32 (word : UInt32) : List UInt8 :=
  put16 (word / 65536).toUInt16 ++ put16 word.toUInt16

@[simp] theorem length_put16 (word : UInt16) : (put16 word).length = 2 := rfl

@[simp] theorem length_put32 (word : UInt32) : (put32 word).length = 4 := rfl

theorem word16_split (word : UInt16) : word16 (word / 256).toUInt8 word.toUInt8 = word := by
  apply UInt16.toNat_inj.mp
  have bound := word.toNat_lt
  simp only [word16, UInt16.toNat_add, UInt16.toNat_mul, UInt8.toNat_toUInt16,
    UInt16.toNat_toUInt8, UInt16.toNat_div, UInt16.reduceToNat]
  omega

theorem word32_split (word : UInt32) :
    word32 (word / 65536).toUInt16 word.toUInt16 = word := by
  apply UInt32.toNat_inj.mp
  have bound := word.toNat_lt
  simp only [word32, UInt32.toNat_add, UInt32.toNat_mul, UInt16.toNat_toUInt32,
    UInt32.toNat_toUInt16, UInt32.toNat_div, UInt32.reduceToNat]
  omega

theorem put16_word16 (high low : UInt8) : put16 (word16 high low) = [high, low] := by
  have highBound := high.toNat_lt
  have lowBound := low.toNat_lt
  have value : (word16 high low).toNat = high.toNat * 256 + low.toNat := by
    simp only [word16, UInt16.toNat_add, UInt16.toNat_mul, UInt8.toNat_toUInt16, UInt16.reduceToNat]
    omega
  have first : (word16 high low / 256).toUInt8 = high := by
    apply UInt8.toNat_inj.mp
    simp only [UInt16.toNat_toUInt8, UInt16.toNat_div, UInt16.reduceToNat, value]
    omega
  have second : (word16 high low).toUInt8 = low := by
    apply UInt8.toNat_inj.mp
    simp only [UInt16.toNat_toUInt8, value]
    omega
  rw [put16, first, second]

theorem put32_word32 (high low : UInt16) : put32 (word32 high low) = put16 high ++ put16 low := by
  have highBound := high.toNat_lt
  have lowBound := low.toNat_lt
  have value : (word32 high low).toNat = high.toNat * 65536 + low.toNat := by
    simp only [word32, UInt32.toNat_add, UInt32.toNat_mul, UInt16.toNat_toUInt32,
      UInt32.reduceToNat]
    omega
  have first : (word32 high low / 65536).toUInt16 = high := by
    apply UInt16.toNat_inj.mp
    simp only [UInt32.toNat_toUInt16, UInt32.toNat_div, UInt32.reduceToNat, value]
    omega
  have second : (word32 high low).toUInt16 = low := by
    apply UInt16.toNat_inj.mp
    simp only [UInt32.toNat_toUInt16, value]
    omega
  rw [put32, first, second]

/-- The bytes of the word at the front. -/
theorem put32_get32 (bytes : List UInt8) :
    put32 (get32 bytes) =
      [bytes.getD 0 0, bytes.getD 1 0, (bytes.drop 2).getD 0 0, (bytes.drop 2).getD 1 0] := by
  rw [get32, put32_word32, get16, get16, put16_word16, put16_word16]
  rfl

/-! ### A word put in front is read back -/

@[simp] theorem get16_put16 (word : UInt16) (rest : List UInt8) :
    get16 (put16 word ++ rest) = word :=
  word16_split word

@[simp] theorem get32_put32 (word : UInt32) (rest : List UInt8) :
    get32 (put32 word ++ rest) = word := by
  have low : (put32 word ++ rest).drop 2 = put16 word.toUInt16 ++ rest := rfl
  have high : put32 word ++ rest =
      put16 (word / 65536).toUInt16 ++ (put16 word.toUInt16 ++ rest) := rfl
  rw [get32, low, high, get16_put16, get16_put16, word32_split]

/-! ### Reading does not look further -/

theorem get8_append {bytes : List UInt8} (rest : List UInt8) (long : 1 ≤ bytes.length) :
    get8 (bytes ++ rest) = get8 bytes := by
  match bytes, long with
  | _ :: _, _ => rfl

theorem get16_append {bytes : List UInt8} (rest : List UInt8) (long : 2 ≤ bytes.length) :
    get16 (bytes ++ rest) = get16 bytes := by
  match bytes, long with
  | _ :: _ :: _, _ => rfl

theorem get32_append {bytes : List UInt8} (rest : List UInt8) (long : 4 ≤ bytes.length) :
    get32 (bytes ++ rest) = get32 bytes := by
  match bytes, long with
  | _ :: _ :: _ :: _ :: _, _ => rfl

/-! ### Bits -/

/-- The bit at a position of a byte string, the highest bit of the first byte first. -/
def bitAt (bytes : List UInt8) (i : Nat) : Bool :=
  (bytes.getD (i / 8) 0).toNat.testBit (7 - i % 8)

theorem bitAt_of_le {bytes : List UInt8} {i : Nat} (beyond : 8 * bytes.length ≤ i) :
    bitAt bytes i = false := by
  rw [bitAt, List.getD_eq_getElem?_getD, List.getElem?_eq_none (by omega)]
  exact Nat.zero_testBit _

theorem bitAt_take {bytes : List UInt8} {n i : Nat} (inside : i < 8 * n) :
    bitAt (bytes.take n) i = bitAt bytes i := by
  have index : i / 8 < n := by omega
  rw [bitAt, bitAt, List.getD_eq_getElem?_getD, List.getD_eq_getElem?_getD,
    List.getElem?_take_of_lt index]

/-- The bits of a 32-bit word. -/
theorem bitAt_put32 (word : UInt32) {i : Nat} (inside : i < 32) :
    bitAt (put32 word) i = word.toNat.testBit (31 - i) := by
  have byte : ((put32 word).getD (i / 8) 0).toNat = word.toNat / 2 ^ (24 - 8 * (i / 8)) % 2 ^ 8 := by
    have bound := word.toNat_lt
    have index : i / 8 = 0 ∨ i / 8 = 1 ∨ i / 8 = 2 ∨ i / 8 = 3 := by omega
    rcases index with index | index | index | index
    all_goals
      rw [index]
      simp only [put32, put16, List.cons_append, List.nil_append, List.getD_cons_zero,
        List.getD_cons_succ, UInt16.toNat_toUInt8, UInt16.toNat_div, UInt32.toNat_toUInt16,
        UInt32.toNat_div, UInt32.reduceToNat, UInt16.reduceToNat]
      omega
  rw [bitAt, byte, Nat.testBit_mod_two_pow, Nat.testBit_div_two_pow,
    show 7 - i % 8 + (24 - 8 * (i / 8)) = 31 - i by omega, decide_eq_true (by omega), Bool.true_and]

theorem bitAt_put32_get32 (bytes : List UInt8) {i : Nat} (inside : i < 32) :
    bitAt (put32 (get32 bytes)) i = bitAt bytes i := by
  have second : ∀ n, (bytes.drop 2).getD n 0 = bytes.getD (2 + n) 0 := fun n => by
    rw [List.getD_eq_getElem?_getD, List.getD_eq_getElem?_getD, List.getElem?_drop]
  have index : i / 8 = 0 ∨ i / 8 = 1 ∨ i / 8 = 2 ∨ i / 8 = 3 := by omega
  rw [bitAt, bitAt, put32_get32, second, second]
  rcases index with index | index | index | index
  all_goals
    rw [index]
    rfl

theorem byte_ext {first second : UInt8}
    (same : ∀ i < 8, first.toNat.testBit i = second.toNat.testBit i) : first = second := by
  refine UInt8.toNat_inj.mp (Nat.eq_of_testBit_eq fun i => ?_)
  by_cases small : i < 8
  · exact same i small
  · have large : 2 ^ 8 ≤ 2 ^ i := Nat.pow_le_pow_right (by decide) (Nat.le_of_not_lt small)
    rw [Nat.testBit_lt_two_pow (Nat.lt_of_lt_of_le first.toNat_lt large),
      Nat.testBit_lt_two_pow (Nat.lt_of_lt_of_le second.toNat_lt large)]

/-- Byte strings of one length with the same bits are the same. -/
theorem bytes_ext {first second : List UInt8} (length : first.length = second.length)
    (same : ∀ i, bitAt first i = bitAt second i) : first = second := by
  refine List.ext_getElem length fun index inside inside' => byte_ext fun i small => ?_
  have bit := same (8 * index + (7 - i))
  rw [bitAt, bitAt, show (8 * index + (7 - i)) / 8 = index by omega,
    show 7 - (8 * index + (7 - i)) % 8 = i by omega, List.getD_eq_getElem?_getD,
    List.getD_eq_getElem?_getD, List.getElem?_eq_getElem inside,
    List.getElem?_eq_getElem inside'] at bit
  exact bit

end Bytes
