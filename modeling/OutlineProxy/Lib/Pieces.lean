import Mathlib.Algebra.Ring.Nat
import Mathlib.Data.List.Basic

/-! Cutting a list into pieces. -/

namespace OutlineProxy.Pieces

open List

variable {α : Type*}

def cut (size : Nat) : Nat → List α → List (List α)
  | 0, _ => []
  | fuel + 1, xs => if xs = [] then [] else xs.take size :: cut size fuel (xs.drop size)

def chunks (size : Nat) (xs : List α) : List (List α) := cut size xs.length xs

variable {size : Nat} {xs : List α}

theorem flatten_cut (hsize : 0 < size) {fuel : Nat} (hfuel : xs.length ≤ fuel) :
    (cut size fuel xs).flatten = xs := by
  induction fuel generalizing xs with
  | zero => exact (eq_nil_of_length_eq_zero (by omega)).symm
  | succ fuel ih => grind [cut, flatten_nil, flatten_cons, length_drop, take_append_drop]

theorem flatten_chunks (hsize : 0 < size) (xs : List α) : (chunks size xs).flatten = xs :=
  flatten_cut hsize (Nat.le_refl _)

theorem length_le_of_mem_cut {fuel : Nat} {piece : List α} (h : piece ∈ cut size fuel xs) :
    piece.length ≤ size := by
  induction fuel generalizing xs with
  | zero => cases h
  | succ fuel ih => grind [cut, length_take_le]

theorem length_le_of_mem_chunks {piece : List α} (h : piece ∈ chunks size xs) : piece.length ≤ size :=
  length_le_of_mem_cut h

def split (xs : List α) : List Nat → List (List α)
  | [] => []
  | len :: lens => xs.take len :: split (xs.drop len) lens

theorem flatten_split {lens : List Nat} (h : lens.sum = xs.length) : (split xs lens).flatten = xs := by
  induction lens generalizing xs with
  | nil => exact (eq_nil_of_length_eq_zero h.symm).symm
  | cons len lens ih =>
    rw [sum_cons] at h
    rw [split, flatten_cons, ih (by rw [length_drop]; omega), take_append_drop]

theorem map_length_split {lens : List Nat} (h : lens.sum ≤ xs.length) : (split xs lens).map length = lens := by
  induction lens generalizing xs with
  | nil => rfl
  | cons len lens ih =>
    rw [sum_cons] at h
    rw [split, map_cons, ih (by rw [length_drop]; omega), length_take, Nat.min_eq_left (by omega)]

end OutlineProxy.Pieces
