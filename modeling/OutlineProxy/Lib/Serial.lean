import Mathlib.Data.UInt

/-! Serial-number arithmetic on 32-bit words.  The signed comparison of two words agrees with the order of
their positions from an origin while these stay within half the number space of each other. -/

namespace OutlineProxy.Serial

open UInt32

theorem toInt_toInt32 (x : UInt32) : x.toInt32.toInt = (x.toNat : Int).bmod (2 ^ 32) := by
  rw [← Int32.toInt_toBitVec, toBitVec_toInt32, BitVec.toInt_eq_toNat_bmod]
  rfl

theorem toInt32_lt_zero_iff (x : UInt32) : x.toInt32 < 0 ↔ 2 ^ 31 ≤ x.toNat := by
  have hx := x.toNat_lt
  rw [Int32.lt_iff_toInt_lt, toInt_toInt32, Int32.toInt_zero, Int.bmod_def]
  split <;> omega

theorem zero_lt_toInt32_iff (x : UInt32) : 0 < x.toInt32 ↔ 0 < x.toNat ∧ x.toNat < 2 ^ 31 := by
  have hx := x.toNat_lt
  rw [Int32.lt_iff_toInt_lt, toInt_toInt32, Int32.toInt_zero, Int.bmod_def]
  split <;> omega

variable (origin : UInt32) {k m : Nat}

def point (k : Nat) : UInt32 := origin + ofNat k

@[simp] theorem point_zero : point origin 0 = origin := by
  simp [point]

theorem point_add (k n : Nat) :
    point origin (k + n) = point origin k + ofNat n := by
  simp [point, ofNat_add, add_assoc]

theorem point_point (k n : Nat) :
    point (point origin k) n = point origin (k + n) :=
  (point_add origin k n).symm

theorem point_succ (k : Nat) :
    point origin (k + 1) = point origin k + 1 :=
  point_add origin k 1

theorem point_toNat_sub (origin x : UInt32) : point origin (x - origin).toNat = x := by
  rw [point, UInt32.ofNat_toNat, add_comm, sub_add_cancel]

theorem point_add_two_pow (k : Nat) : point origin (k + 2 ^ 32) = point origin k := by
  apply UInt32.toNat_inj.1
  simp only [point, UInt32.toNat_add, UInt32.toNat_ofNat']
  omega

theorem toNat_point_sub_point (hn : k ≤ m) (hw : m < k + 2 ^ 32) :
    (point origin m - point origin k).toNat = m - k := by
  simp only [point, UInt32.toNat_sub, UInt32.toNat_add, UInt32.toNat_ofNat']
  omega

theorem toNat_point_sub (hk : k < 2 ^ 32) : (point origin k - origin).toNat = k := by
  have h := toNat_point_sub_point origin (Nat.zero_le k) (by omega)
  rwa [point_zero, Nat.sub_zero] at h

theorem toNat_point_sub_point_of_lt (hn : m < k) (hw : k ≤ m + 2 ^ 32) :
    (point origin m - point origin k).toNat = m + 2 ^ 32 - k := by
  rw [← point_add_two_pow origin m]
  exact toNat_point_sub_point origin hw (by omega)

theorem point_inj {origin : UInt32} (hn : k < m + 2 ^ 32) (hw : m < k + 2 ^ 32) :
    point origin k = point origin m ↔ k = m := by
  refine ⟨fun he => ?_, fun he => he ▸ rfl⟩
  rcases Nat.lt_trichotomy k m with hh | hh | hh
  · have hd := toNat_point_sub_point origin hh.le hw
    rw [he] at hd
    simp at hd
    omega
  · exact hh
  · have hd := toNat_point_sub_point origin hh.le hn
    rw [he] at hd
    simp at hd
    omega

theorem exists_point_near (origin x : UInt32) {r : Nat} (hr : 2 ^ 31 ≤ r) :
    ∃ k, x = point origin k ∧ r ≤ k + 2 ^ 31 ∧ k < r + 2 ^ 31 := by
  have hx : point origin (r + (x - point origin r).toNat) = x := by
    rw [← point_point, point_toNat_sub]
  have hlt := (x - point origin r).toNat_lt
  by_cases hh : (x - point origin r).toNat < 2 ^ 31
  · exact ⟨_, hx.symm, by omega, by omega⟩
  · refine ⟨r + (x - point origin r).toNat - 2 ^ 32, ?_, by omega, by omega⟩
    rw [← point_add_two_pow, Nat.sub_add_cancel (by omega), hx]

end OutlineProxy.Serial
