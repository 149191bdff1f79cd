import Mathlib.Algebra.Ring.Nat
import Mathlib.Data.List.AList
import Mathlib.Data.List.Perm.Subperm

/-! Finite tables with one value for each key, beside what `AList` has. -/

namespace OutlineProxy.Tables

open List

variable {κ α : Type*}

abbrev Table (κ α : Type*) := AList fun _ : κ => α

def size (t : Table κ α) : Nat := t.entries.length

def total (f : α → Nat) (t : Table κ α) : Nat := (t.entries.map fun entry => f entry.2).sum

def retain (p : κ → α → Bool) (t : Table κ α) : Table κ α :=
  ⟨t.entries.filter fun entry => p entry.1 entry.2, t.nodupKeys.sublist filter_sublist⟩

structure Walk (κ α : Type*) where
  order : Table κ α → List (Sigma fun _ : κ => α)
  perm : ∀ t, (order t).Perm t.entries

variable [DecidableEq κ] {k : κ} {a : α} {t : Table κ α} {p : κ → α → Bool}

theorem lookup_eq_some_iff : t.lookup k = some a ↔ (⟨k, a⟩ : Sigma fun _ : κ => α) ∈ t.entries :=
  AList.mem_lookup_iff

theorem lookup_retain (p : κ → α → Bool) (t : Table κ α) (k : κ) :
    (retain p t).lookup k = (t.lookup k).filter (p k) := by
  apply Option.ext
  intro a
  rw [lookup_eq_some_iff, Option.filter_eq_some_iff, lookup_eq_some_iff]
  exact mem_filter

theorem entries_perm_erase (h : t.lookup k = some a) :
    t.entries.Perm ((⟨k, a⟩ : Sigma fun _ : κ => α) :: (t.erase k).entries) := by
  have hmem : k ∈ t.entries.keys := dlookup_isSome.mp (by rw [show t.entries.dlookup k = some a from h]; rfl)
  obtain ⟨b, before, after, hnot, hsplit, herase⟩ := exists_of_kerase hmem
  have hb : b = a := by
    have hlookup : t.entries.dlookup k = some b :=
      mem_dlookup t.nodupKeys (hsplit ▸ mem_append_right _ mem_cons_self)
    exact Option.some.inj (hlookup.symm.trans h)
  rw [show (t.erase k).entries = t.entries.kerase k from rfl, herase, hsplit, hb]
  exact perm_middle

theorem size_erase (h : t.lookup k = some a) : size (t.erase k) + 1 = size t :=
  (entries_perm_erase h).length_eq.symm

theorem size_erase_le (t : Table κ α) (k : κ) : size (t.erase k) ≤ size t :=
  (kerase_sublist k t.entries).length_le

theorem size_insert (h : k ∉ t) (a : α) : size (t.insert k a) = size t + 1 := by
  rw [size, AList.entries_insert_of_notMem h, length_cons, size]

theorem length_filter_key_le (p : (Sigma fun _ : κ => α) → Bool) (t : Table κ α) (k : κ) :
    ((t.entries.filter p).filter fun entry => entry.1 = k).length ≤ 1 := by
  have hnodup : (((t.entries.filter p).filter fun entry => entry.1 = k).map Sigma.fst).Nodup :=
    Nodup.sublist ((filter_sublist.trans filter_sublist).map Sigma.fst) t.nodupKeys
  have hsubset : ((t.entries.filter p).filter fun entry => entry.1 = k).map Sigma.fst ⊆ [k] := by grind
  rw [← length_map Sigma.fst]
  exact (subperm_of_subset hnodup hsubset).length_le

theorem lookup_insert_eq (t : Table κ α) (k k' : κ) (a : α) :
    (t.insert k a).lookup k' = if k' = k then some a else t.lookup k' := by
  by_cases h : k' = k
  · rw [if_pos h, h, AList.lookup_insert]
  · rw [if_neg h, AList.lookup_insert_ne h]

theorem lookup_erase_eq (t : Table κ α) (k k' : κ) :
    (t.erase k).lookup k' = if k' = k then none else t.lookup k' := by
  by_cases h : k' = k
  · rw [if_pos h, h, AList.lookup_erase]
  · rw [if_neg h, AList.lookup_erase_ne h]

end OutlineProxy.Tables
