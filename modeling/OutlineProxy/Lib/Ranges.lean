import Mathlib.Data.List.Sort

/-! Closed ranges of numbers up to `top`: sorted and merged where they overlap or touch, and searched by
bisection. -/

namespace OutlineProxy.Ranges

open List

def bisect (p : Nat → Bool) : Nat → Nat → Nat → Nat
  | 0, lo, _ => lo
  | fuel + 1, lo, hi =>
    if lo < hi then
      if p (lo + (hi - lo) / 2) then bisect p fuel (lo + (hi - lo) / 2 + 1) hi
      else bisect p fuel lo (lo + (hi - lo) / 2)
    else lo

/-- The number of elements before the first one without `p`, where all with `p` come first. -/
def partitionPoint {α : Type*} (p : α → Bool) (xs : List α) : Nat :=
  bisect (fun i => (xs[i]?.map p).getD false) xs.length 0 xs.length

def mergeNext (top : Nat) : List (Nat × Nat) → Nat × Nat → List (Nat × Nat)
  | [], range => [range]
  | last :: before, range =>
    if range.1 ≤ min (last.2 + 1) top then
      (last.1, if last.2 < range.2 then range.2 else last.2) :: before
    else range :: last :: before

def merge (top : Nat) (ranges : List (Nat × Nat)) : List (Nat × Nat) :=
  ((ranges.insertionSort fun a b => a.1 ≤ b.1).foldl (mergeNext top) []).reverse

def contains (ranges : List (Nat × Nat)) (x : Nat) : Bool :=
  let i := partitionPoint (fun range => decide (range.1 ≤ x)) ranges
  decide (0 < i) && (ranges[i - 1]?.map fun range => decide (x ≤ range.2)).getD false

def Holds (range : Nat × Nat) (x : Nat) : Prop := range.1 ≤ x ∧ x ≤ range.2

def Covered (ranges : List (Nat × Nat)) (x : Nat) : Prop := ∃ range ∈ ranges, Holds range x

section Bisection

variable {p : Nat → Bool} {k lo hi fuel : Nat}

theorem bisect_eq (hlo : lo ≤ k) (hhi : k ≤ hi) (hfuel : hi - lo ≤ fuel) (hbelow : ∀ i < k, p i = true)
    (habove : ∀ i, k ≤ i → i < hi → p i = false) : bisect p fuel lo hi = k := by
  induction fuel generalizing lo hi with
  | zero =>
    rw [bisect]
    omega
  | succ fuel ih => grind [bisect, Nat.le_of_not_lt]

theorem partitionPoint_append {α : Type*} {q : α → Bool} {front back : List α} (hfront : ∀ x ∈ front, q x = true)
    (hback : ∀ x ∈ back, q x = false) : partitionPoint q (front ++ back) = front.length := by
  apply bisect_eq (Nat.zero_le _)
  · rw [length_append]
    omega
  · omega
  · intro i hi
    rw [getElem?_append_left hi, getElem?_eq_getElem hi]
    exact hfront _ (getElem_mem hi)
  · grind [length_append, getElem?_append_right, getElem?_eq_getElem, getElem_mem]

end Bisection

section Merging

variable {top x : Nat} {range : Nat × Nat} {acc ranges : List (Nat × Nat)}

def Proper (top : Nat) (range : Nat × Nat) : Prop := range.1 ≤ range.2 ∧ range.2 ≤ top

structure Apart (top : Nat) (acc : List (Nat × Nat)) : Prop where
  proper : ∀ range ∈ acc, Proper top range
  gaps : acc.Pairwise fun later earlier => earlier.2 + 1 < later.1

theorem covered_cons : Covered (range :: ranges) x ↔ Holds range x ∨ Covered ranges x := by
  simp [Covered]

theorem Apart.mergeNext (h : Apart top acc) (hproper : Proper top range)
    (hstart : ∀ last ∈ acc.head?, last.1 ≤ range.1) :
    Apart top (mergeNext top acc range) ∧ (∀ last ∈ (Ranges.mergeNext top acc range).head?, last.1 ≤ range.1) ∧
      ∀ x, Covered (Ranges.mergeNext top acc range) x ↔ Covered acc x ∨ Holds range x := by
  rcases acc with _ | ⟨last, before⟩
  · refine ⟨⟨?_, pairwise_singleton _ _⟩, ?_, ?_⟩
    · simpa [Ranges.mergeNext] using hproper
    · simp [Ranges.mergeNext]
    · simp [Ranges.mergeNext, Covered]
  have hlast : last.1 ≤ range.1 := hstart last rfl
  have hlastProper := h.proper last (mem_cons_self ..)
  have hgaps := pairwise_cons.mp h.gaps
  unfold Proper at hproper hlastProper
  rw [Ranges.mergeNext]
  by_cases htouch : range.1 ≤ min (last.2 + 1) top
  · rw [if_pos htouch]
    have hend : (if last.2 < range.2 then range.2 else last.2) = max last.2 range.2 := by
      split <;> omega
    rw [hend]
    refine ⟨⟨?_, pairwise_cons.mpr ⟨hgaps.1, hgaps.2⟩⟩, ?_, ?_⟩
    · intro other hother
      rcases mem_cons.mp hother with rfl | hother
      · exact ⟨by omega, by simp only; omega⟩
      · exact h.proper other (mem_cons_of_mem _ hother)
    · simpa using hlast
    · grind [Holds, covered_cons]
  · rw [if_neg htouch]
    refine ⟨⟨?_, ?_⟩, by simp, ?_⟩
    · intro other hother
      rcases mem_cons.mp hother with rfl | hother
      · exact hproper
      · exact h.proper other hother
    · refine pairwise_cons.mpr ⟨?_, h.gaps⟩
      intro other hother
      rcases mem_cons.mp hother with rfl | hother
      · omega
      · have hgap := hgaps.1 other hother
        omega
    · intro x
      rw [covered_cons, or_comm]

theorem Apart.foldl (h : Apart top acc) (hproper : ∀ range ∈ ranges, Proper top range)
    (hsorted : ranges.Pairwise fun a b => a.1 ≤ b.1) (hstart : ∀ last ∈ acc.head?, ∀ range ∈ ranges, last.1 ≤ range.1) :
    Apart top (ranges.foldl (Ranges.mergeNext top) acc) ∧
      ∀ x, Covered (ranges.foldl (Ranges.mergeNext top) acc) x ↔ Covered acc x ∨ Covered ranges x := by
  induction ranges generalizing acc with
  | nil => exact ⟨h, fun x => by simp [Covered]⟩
  | cons range ranges ih =>
    have hcons := pairwise_cons.mp hsorted
    obtain ⟨hnext, hhead, hcovered⟩ := h.mergeNext (hproper range (mem_cons_self ..))
      fun last hlast => hstart last hlast range (mem_cons_self ..)
    obtain ⟨hapart, hall⟩ := ih hnext (fun other hother => hproper other (mem_cons_of_mem _ hother)) hcons.2
      fun last hlast other hother => Nat.le_trans (hhead last hlast) (hcons.1 other hother)
    refine ⟨hapart, fun x => ?_⟩
    rw [foldl_cons, hall, hcovered, covered_cons, or_assoc]

theorem apart_nil : Apart top [] := ⟨nofun, .nil⟩

theorem merge_spec (hproper : ∀ range ∈ ranges, Proper top range) :
    ((merge top ranges).Pairwise fun earlier later => earlier.2 + 1 < later.1) ∧
      (∀ range ∈ merge top ranges, Proper top range) ∧ ∀ x, Covered (merge top ranges) x ↔ Covered ranges x := by
  have hmem : ∀ range, range ∈ ranges.insertionSort (fun a b => a.1 ≤ b.1) ↔ range ∈ ranges := fun range =>
    mem_insertionSort _
  obtain ⟨hapart, hcovered⟩ := apart_nil.foldl (fun range hrange => hproper range ((hmem range).mp hrange))
    (pairwise_insertionSort _ ranges) nofun
  refine ⟨pairwise_reverse.mpr hapart.gaps, fun range hrange => hapart.proper range (mem_reverse.mp hrange), ?_⟩
  intro x
  have hreverse : Covered (merge top ranges) x ↔
      Covered ((ranges.insertionSort fun a b => a.1 ≤ b.1).foldl (Ranges.mergeNext top) []) x := by
    simp [Covered, merge]
  rw [hreverse, hcovered]
  simp [Covered, hmem]

theorem exists_split (hproper : ∀ range ∈ ranges, range.1 ≤ range.2)
    (hgaps : ranges.Pairwise fun earlier later => earlier.2 + 1 < later.1) (x : Nat) :
    ∃ front back, ranges = front ++ back ∧ (∀ range ∈ front, range.1 ≤ x) ∧ ∀ range ∈ back, x < range.1 := by
  induction ranges with
  | nil => exact ⟨[], [], rfl, nofun, nofun⟩
  | cons range ranges ih =>
    have hcons := pairwise_cons.mp hgaps
    have hrange := hproper range (mem_cons_self ..)
    by_cases hstart : range.1 ≤ x
    · grind [mem_cons_of_mem]
    · refine ⟨[], range :: ranges, rfl, nofun, forall_mem_cons.mpr ⟨Nat.lt_of_not_le hstart, ?_⟩⟩
      intro other hother
      have hgap := hcons.1 other hother
      omega

theorem contains_iff (hproper : ∀ range ∈ ranges, range.1 ≤ range.2)
    (hgaps : ranges.Pairwise fun earlier later => earlier.2 + 1 < later.1) :
    contains ranges x = true ↔ Covered ranges x := by
  obtain ⟨front, back, rfl, hfront, hback⟩ := exists_split hproper hgaps x
  have hpoint : partitionPoint (fun range : Nat × Nat => decide (range.1 ≤ x)) (front ++ back) = front.length :=
    partitionPoint_append (fun range hrange => decide_eq_true (hfront range hrange))
      fun range hrange => decide_eq_false (Nat.not_le_of_lt (hback range hrange))
  have hnone : ¬ Covered back x := by
    rintro ⟨range, hrange, hle, -⟩
    exact absurd hle (Nat.not_le_of_lt (hback range hrange))
  rcases eq_nil_or_concat front with rfl | ⟨init, last, rfl⟩
  · rw [nil_append] at hpoint ⊢
    simpa [contains, hpoint] using hnone
  rw [concat_eq_append] at *
  have hread : (init ++ [last] ++ back)[(init ++ [last]).length - 1]? = some last := by
    simp
  have hdecides : Covered (init ++ [last] ++ back) x ↔ x ≤ last.2 := by
    constructor
    · rintro ⟨range, hrange, hle, hge⟩
      rcases mem_append.mp hrange with hrange | hrange
      · grind [mem_singleton_self, mem_append_right]
      · exact absurd hle (Nat.not_le_of_lt (hback range hrange))
    · intro hle
      have hlast : last ∈ init ++ [last] := mem_append_right _ (mem_singleton_self _)
      exact ⟨last, mem_append_left _ hlast, hfront last hlast, hle⟩
  rw [hdecides]
  simp only [contains, hpoint, hread]
  simp

theorem contains_merge (hproper : ∀ range ∈ ranges, Proper top range) :
    contains (merge top ranges) x = true ↔ Covered ranges x := by
  obtain ⟨hgaps, hmerged, hcovered⟩ := merge_spec hproper
  rw [contains_iff (fun range hrange => (hmerged range hrange).1) hgaps, hcovered]

end Merging

end OutlineProxy.Ranges
