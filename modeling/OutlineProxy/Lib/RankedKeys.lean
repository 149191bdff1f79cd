import Mathlib.Data.Finset.Max
import Mathlib.Data.Prod.Lex
import OutlineProxy.Lib.Tables

/-! Keys in the order of their ranks: a set of ranks with their keys for the order, and a table for the
rank of a key. -/

namespace OutlineProxy.RankedKeys

open Tables

variable {R K : Type}

structure Index (R K : Type) where
  entries : Finset (R ×ₗ K)
  ranks : Table K R

namespace Index

def empty : Index R K := ⟨∅, ∅⟩

variable [LinearOrder K] (index : Index R K)

def Agrees : Prop := ∀ rank key, toLex (rank, key) ∈ index.entries ↔ index.ranks.lookup key = some rank

theorem agrees_empty : (empty : Index R K).Agrees := by
  intro rank key
  simp [empty]

variable [LinearOrder R]

def without (key : K) : Finset (R ×ₗ K) :=
  match index.ranks.lookup key with
  | some rank => index.entries.erase (toLex (rank, key))
  | none => index.entries

def place (key : K) (rank : R) : Index R K :=
  ⟨insert (toLex (rank, key)) (index.without key), index.ranks.insert key rank⟩

def drop (key : K) : Index R K := ⟨index.without key, index.ranks.erase key⟩

def popFirst : Option ((R × K) × Index R K) :=
  if h : index.entries.Nonempty then
    let least := index.entries.min' h
    some (ofLex least, ⟨index.entries.erase least, index.ranks.erase (ofLex least).2⟩)
  else none

variable {index} {key other : K} {rank : R}

@[simp] theorem lookup_place : (index.place key rank).ranks.lookup other =
    if other = key then some rank else index.ranks.lookup other :=
  lookup_insert_eq _ _ _ _

@[simp] theorem lookup_drop : (index.drop key).ranks.lookup other =
    if other = key then none else index.ranks.lookup other :=
  lookup_erase_eq _ _ _

theorem Agrees.mem_without (h : index.Agrees) (rank : R) (other : K) :
    toLex (rank, other) ∈ index.without key ↔ other ≠ key ∧ index.ranks.lookup other = some rank := by
  rw [without]
  split
  · rename_i old hlookup
    rw [Finset.mem_erase, h]
    constructor
    · grind
    · simp_all
  · rename_i hlookup
    rw [h]
    constructor
    · grind
    · exact fun hboth => hboth.2

theorem Agrees.drop (h : index.Agrees) (key : K) : (index.drop key).Agrees := by
  intro rank other
  rw [lookup_drop, Index.drop, h.mem_without]
  by_cases hother : other = key
  · simp [hother]
  · simp [hother]

theorem Agrees.place (h : index.Agrees) (key : K) (rank : R) : (index.place key rank).Agrees := by
  intro rank' other
  rw [lookup_place, Index.place, Finset.mem_insert, h.mem_without]
  by_cases hother : other = key
  · subst hother
    simp [eq_comm]
  · simp [hother]

theorem Agrees.popFirst (h : index.Agrees) {entry : R × K} {rest : Index R K}
    (hpop : index.popFirst = some (entry, rest)) :
    index.ranks.lookup entry.2 = some entry.1 ∧ rest = index.drop entry.2 ∧
      ∀ key rank, index.ranks.lookup key = some rank → entry.1 ≤ rank := by
  rw [Index.popFirst] at hpop
  split at hpop
  · rename_i hnonempty
    cases hpop
    generalize hleast : index.entries.min' hnonempty = least
    have hlookup : index.ranks.lookup (ofLex least).2 = some (ofLex least).1 := by
      have hmem := index.entries.min'_mem hnonempty
      rw [hleast] at hmem
      exact (h _ _).mp hmem
    refine ⟨hlookup, ?_, ?_⟩
    · rw [Index.drop, without, hlookup]
      rfl
    · intro key rank hrank
      have hle := index.entries.min'_le _ ((h rank key).mpr hrank)
      rw [hleast] at hle
      rcases Prod.Lex.le_iff.mp hle with hlt | ⟨heq, -⟩
      · exact le_of_lt hlt
      · exact le_of_eq heq
  · cases hpop

end Index

end OutlineProxy.RankedKeys
