import Mathlib.Data.Nat.Bitwise
import Mathlib.Data.UInt

/-! Bitmaps over 64-bit words, with the shift of a whole bitmap across its words. -/

namespace OutlineProxy.Bitmap

open UInt64

variable {w : Nat}

section Word

variable {x : UInt64} {k j : Nat}

theorem toNat_ofNat_small (hk : k < 64) : (ofNat k).toNat % 64 = k := by
  rw [toNat_ofNat_of_lt' (by change k < 2 ^ 64; omega), Nat.mod_eq_of_lt hk]

theorem testBit_shiftLeft (hk : k < 64) (hj : j < 64) :
    (x <<< UInt64.ofNat k).toNat.testBit j = (decide (k ≤ j) && x.toNat.testBit (j - k)) := by
  rw [UInt64.toNat_shiftLeft, toNat_ofNat_small hk, Nat.testBit_mod_two_pow, Nat.testBit_shiftLeft]
  simp [hj]

theorem testBit_shiftRight (hk : k < 64) : (x >>> UInt64.ofNat k).toNat.testBit j = x.toNat.testBit (k + j) := by
  rw [UInt64.toNat_shiftRight, toNat_ofNat_small hk, Nat.testBit_shiftRight]

theorem testBit_eq_false (hj : 64 ≤ j) : x.toNat.testBit j = false :=
  Nat.testBit_lt_two_pow (x.toNat_lt.trans_le (Nat.pow_le_pow_right (by decide) hj))

end Word

variable (bitmap : Vector UInt64 w)

def word (i : Nat) : UInt64 := bitmap[i]?.getD 0

def setBit (offset : Nat) : Vector UInt64 w :=
  bitmap.setIfInBounds (offset / 64) (word bitmap (offset / 64) ||| (1 <<< ofNat (offset % 64)))

def getBit (offset : Nat) : Bool :=
  (word bitmap (offset / 64) >>> ofNat (offset % 64)) &&& 1 == 1

def shiftLeft (n : Nat) : Vector UInt64 w :=
  if 64 * w ≤ n then Vector.replicate w 0
  else
    Vector.ofFn fun i : Fin w =>
      if i < n / 64 then 0
      else
        let src := i - n / 64
        let v := word bitmap src <<< ofNat (n % 64)
        if n % 64 ≠ 0 ∧ 1 ≤ src then v ||| (word bitmap (src - 1) >>> ofNat (64 - n % 64)) else v

variable {offset i : Nat}

theorem getBit_eq (offset : Nat) :
    getBit bitmap offset = (word bitmap (offset / 64)).toNat.testBit (offset % 64) := by
  have hbit : ∀ x : UInt64, (x &&& 1 == 1) = x.toNat.testBit 0 := by
    intro x
    rw [Nat.testBit_zero, Bool.eq_iff_iff, beq_iff_eq, decide_eq_true_iff, ← UInt64.toNat_inj, UInt64.toNat_and]
    change x.toNat &&& 1 = 1 ↔ _
    rw [Nat.and_one_is_mod]
  rw [getBit, hbit, testBit_shiftRight (Nat.mod_lt _ (by decide)), Nat.add_zero]

theorem getBit_replicate (offset : Nat) : getBit (Vector.replicate w 0) offset = false := by
  have hzero : word (Vector.replicate w (0 : UInt64)) (offset / 64) = 0 := by
    rw [word, Vector.getElem?_replicate]
    split <;> rfl
  rw [getBit_eq, hzero]
  exact Nat.zero_testBit _

theorem getBit_setBit (hoffset : offset < 64 * w) (i : Nat) :
    getBit (setBit bitmap offset) i = (decide (i = offset) || getBit bitmap i) := by
  have hword : offset / 64 < w := by omega
  rw [getBit_eq, getBit_eq, setBit]
  by_cases hsame : i / 64 = offset / 64
  · have hset : word (bitmap.setIfInBounds (offset / 64)
        (word bitmap (offset / 64) ||| (1 <<< UInt64.ofNat (offset % 64)))) (i / 64) =
        word bitmap (offset / 64) ||| (1 <<< UInt64.ofNat (offset % 64)) := by
      rw [hsame, word, Vector.getElem?_setIfInBounds_self_of_lt hword]
      rfl
    rw [hset, UInt64.toNat_or, Nat.testBit_or,
      testBit_shiftLeft (Nat.mod_lt _ (by decide)) (Nat.mod_lt _ (by decide)), hsame, Bool.or_comm]
    have hone : (decide (offset % 64 ≤ i % 64) && Nat.testBit (UInt64.toNat 1) (i % 64 - offset % 64)) =
        decide (i = offset) := by grind [Nat.testBit, Nat.testBit_one_eq_true_iff_self_eq_zero]
    rw [hone]
  · grind [word]

theorem word_shiftLeft {n : Nat} (hn : n < 64 * w) (hi : i < w) :
    word (shiftLeft bitmap n) i =
      if i < n / 64 then 0
      else if n % 64 ≠ 0 ∧ 1 ≤ i - n / 64 then
        (word bitmap (i - n / 64) <<< ofNat (n % 64)) |||
          (word bitmap (i - n / 64 - 1) >>> ofNat (64 - n % 64))
      else word bitmap (i - n / 64) <<< ofNat (n % 64) := by
  rw [word, shiftLeft, if_neg (by omega), Vector.getElem?_eq_getElem hi, Vector.getElem_ofFn]
  rfl

theorem getBit_shiftLeft (n : Nat) (hoffset : offset < 64 * w) :
    getBit (shiftLeft bitmap n) offset = (decide (n ≤ offset) && getBit bitmap (offset - n)) := by
  have hlow : n % 64 < 64 := Nat.mod_lt _ (by decide)
  have hbit : offset % 64 < 64 := Nat.mod_lt _ (by decide)
  by_cases hn : 64 * w ≤ n
  · rw [shiftLeft, if_pos hn, getBit_replicate, decide_eq_false (by omega), Bool.false_and]
  rw [getBit_eq, getBit_eq, word_shiftLeft bitmap (by omega) (by omega)]
  by_cases hbelow : offset / 64 < n / 64
  · rw [if_pos hbelow, decide_eq_false (by omega), Bool.false_and]
    exact Nat.zero_testBit _
  rw [if_neg hbelow]
  -- a bit of the result comes from the word `n / 64` below, or spills over from the one before it
  by_cases hspill : offset % 64 < n % 64
  · split
    case isTrue hcarry =>
      have hword : (offset - n) / 64 = offset / 64 - n / 64 - 1 := by omega
      have hplace : (offset - n) % 64 = 64 - n % 64 + offset % 64 := by omega
      rw [UInt64.toNat_or, Nat.testBit_or, testBit_shiftLeft hlow hbit, testBit_shiftRight (by omega),
        decide_eq_false (by omega), decide_eq_true (by omega : n ≤ offset), hword, hplace]
      simp
    case isFalse hcarry =>
      rw [testBit_shiftLeft hlow hbit, decide_eq_false (by omega), decide_eq_false (by omega : ¬ n ≤ offset)]
      rfl
  · have hword : (offset - n) / 64 = offset / 64 - n / 64 := by omega
    have hplace : (offset - n) % 64 = offset % 64 - n % 64 := by omega
    have hle : n ≤ offset := by omega
    split
    case isTrue hcarry =>
      rw [UInt64.toNat_or, Nat.testBit_or, testBit_shiftLeft hlow hbit, testBit_shiftRight (by omega),
        testBit_eq_false (by omega : 64 ≤ 64 - n % 64 + offset % 64), hword, hplace,
        decide_eq_true (by omega : n % 64 ≤ offset % 64), decide_eq_true hle]
      simp
    case isFalse hcarry =>
      rw [testBit_shiftLeft hlow hbit, hword, hplace, decide_eq_true (by omega : n % 64 ≤ offset % 64),
        decide_eq_true hle]

end OutlineProxy.Bitmap
