import OutlineProxy.Lib.Sealing

/-! One's-complement sums of 16-bit words, as the internet checksum uses them. -/

namespace OutlineProxy.OnesComplement

open Sealing

def words : List UInt8 → List Nat
  | [] => []
  | [high] => [high.toNat * 256]
  | high :: low :: rest => (high.toNat * 256 + low.toNat) :: words rest

def add (a b : Nat) : Nat := if a + b < 65536 then a + b else a + b - 65535

def sum (ws : List Nat) : Nat := ws.foldl add 0

def Verifies (bytes : List UInt8) : Prop := sum (words bytes) = 65535

def fold (n : Nat) : Nat := if n = 0 then 0 else (n - 1) % 65535 + 1

def wordSum (bytes : List UInt8) : Nat := (words bytes).sum

variable {a b c : Nat} {xs ys bytes : List UInt8}

theorem fold_le (n : Nat) : fold n ≤ 65535 := by
  unfold fold
  split <;> omega

theorem fold_eq_iff : fold a = fold b ↔ (a = 0 ↔ b = 0) ∧ a % 65535 = b % 65535 := by
  unfold fold
  split <;> split <;> omega

theorem fold_of_le (h : a ≤ 65535) : fold a = a := by
  unfold fold
  split <;> omega

theorem fold_fold_add (a b : Nat) : fold (fold a + b) = fold (a + b) := by
  have h : fold (fold a) = fold a := fold_of_le (fold_le a)
  rw [fold_eq_iff] at h ⊢
  omega

theorem fold_add_congr (h : fold a = fold b) (c : Nat) : fold (a + c) = fold (b + c) := by
  rw [← fold_fold_add a, ← fold_fold_add b, h]

theorem fold_eq_all_ones : fold a = 65535 ↔ a ≠ 0 ∧ a % 65535 = 0 := by
  unfold fold
  split <;> omega

theorem fold_add_complement (n : Nat) : fold (n + (65535 - fold n)) = 65535 := by
  have hle := fold_le n
  have h : fold (fold n) = fold n := fold_of_le hle
  rw [fold_eq_iff] at h
  rw [fold_eq_all_ones]
  omega

theorem fold_carry (n : Nat) : fold (n % 65536 + n / 65536) = fold n := by
  rw [fold_eq_iff]
  omega

theorem words_le {w : Nat} (h : w ∈ words bytes) : w ≤ 65535 := by
  induction bytes using words.induct with
  | case1 => cases h
  | case2 high =>
    have hlt := high.toNat_lt
    simp only [words, List.mem_singleton] at h
    omega
  | case3 high low rest ih =>
    have hhigh := high.toNat_lt
    have hlow := low.toNat_lt
    rcases List.mem_cons.mp h with rfl | h
    · omega
    · exact ih h

theorem foldl_add {ws : List Nat} (hws : ∀ w ∈ ws, w ≤ 65535) (ha : a ≤ 65535) :
    ws.foldl add a = fold (a + ws.sum) := by
  induction ws generalizing a with
  | nil => exact (fold_of_le ha).symm
  | cons w ws ih =>
    have hw : w ≤ 65535 := hws w (List.mem_cons_self ..)
    have hadd : add a w = fold (a + w) := by
      unfold add fold
      split <;> split <;> omega
    rw [List.foldl_cons, hadd, ih (fun v hv => hws v (List.mem_cons_of_mem _ hv)) (fold_le _), fold_fold_add,
      List.sum_cons, Nat.add_assoc]

theorem sum_words (bytes : List UInt8) : sum (words bytes) = fold (wordSum bytes) := by
  rw [sum, foldl_add (fun w hw => words_le hw) (Nat.zero_le _), Nat.zero_add]
  rfl

theorem verifies_iff : Verifies bytes ↔ fold (wordSum bytes) = 65535 := by
  rw [Verifies, sum_words]

theorem wordSum_cons_cons (high low : UInt8) (rest : List UInt8) :
    wordSum (high :: low :: rest) = high.toNat * 256 + low.toNat + wordSum rest :=
  List.sum_cons

@[simp] theorem wordSum_nil : wordSum [] = 0 := rfl

@[simp] theorem wordSum_singleton (high : UInt8) : wordSum [high] = high.toNat * 256 := Nat.add_zero _

theorem wordSum_append (heven : xs.length % 2 = 0) : wordSum (xs ++ ys) = wordSum xs + wordSum ys := by
  induction xs using words.induct with
  | case1 => exact (Nat.zero_add _).symm
  | case2 high => simp at heven
  | case3 high low rest ih => grind [List.length_cons, wordSum_cons_cons]

theorem wordSum_toBe_two (n : Nat) : wordSum (toBe 2 n) = n % 65536 := by
  simp only [toBe, List.nil_append, List.singleton_append, wordSum_cons_cons, wordSum_nil, UInt8.toNat_ofNat']
  omega

section Field

variable {before after : List UInt8} (heven : before.length % 2 = 0)

include heven

theorem wordSum_field (n : Nat) :
    wordSum (before ++ (toBe 2 n ++ after)) = wordSum before + wordSum after + n % 65536 := by
  rw [wordSum_append heven, wordSum_append (by rw [length_toBe]), wordSum_toBe_two]
  omega

theorem verifies_of_complement :
    Verifies (before ++ (toBe 2 (65535 - fold (wordSum (before ++ (toBe 2 0 ++ after)))) ++ after)) := by
  rw [verifies_iff, wordSum_field heven, wordSum_field heven, Nat.zero_mod, Nat.add_zero]
  rw [Nat.mod_eq_of_lt (by omega)]
  exact fold_add_complement _

/-- A field of zeros and a field of ones stand for the same number. -/
theorem verifies_all_ones (h : Verifies (before ++ (toBe 2 0 ++ after))) :
    Verifies (before ++ (toBe 2 65535 ++ after)) := by
  rw [verifies_iff, wordSum_field heven, fold_eq_all_ones] at h ⊢
  omega

end Field

end OutlineProxy.OnesComplement
