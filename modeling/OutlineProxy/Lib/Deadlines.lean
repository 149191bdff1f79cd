import Mathlib.Data.List.Sort
import Mathlib.Order.Lattice

/-! Deadline heaps that are never searched: an entry whose deadline was moved stays where it is and
is judged when it comes up.  A key is covered up to `d` if some entry of it comes up by then. -/

namespace OutlineProxy.Deadlines

structure Entry (D K : Type) where
  deadline : D
  key : K
deriving DecidableEq

variable {D K : Type}

section Order

variable [LinearOrder D] [LinearOrder K]

def Entry.before (a b : Entry D K) : Prop :=
  a.deadline < b.deadline ∨ a.deadline = b.deadline ∧ a.key ≤ b.key

instance : DecidableRel (Entry.before (D := D) (K := K)) := fun a b => by
  unfold Entry.before
  infer_instance

def takeDue (heap : List (Entry D K)) (now : D) : List (Entry D K) × List (Entry D K) :=
  ((heap.filter fun e => decide (e.deadline ≤ now)).insertionSort Entry.before,
    heap.filter fun e => !decide (e.deadline ≤ now))

theorem takeDue_perm (heap : List (Entry D K)) (now : D) :
    ((takeDue heap now).2 ++ (takeDue heap now).1).Perm heap := by
  grind [takeDue, List.perm_insertionSort, List.perm_append_comm.trans, List.filter_append_perm]

end Order

section Covers

variable [LinearOrder D] {entries more : List (Entry D K)} {entry : Entry D K} {key : K} {d e : D}

def Covers (entries : List (Entry D K)) (key : K) (d : D) : Prop :=
  ∃ e ∈ entries, e.key = key ∧ e.deadline ≤ d

theorem Covers.later (h : Covers entries key d) (hle : d ≤ e) : Covers entries key e := by
  obtain ⟨x, hx, hkey, hdeadline⟩ := h
  exact ⟨x, hx, hkey, hdeadline.trans hle⟩

theorem Covers.subset (h : Covers entries key d) (hsub : entries ⊆ more) : Covers more key d := by
  obtain ⟨x, hx, hentry⟩ := h
  exact ⟨x, hsub hx, hentry⟩

theorem covers_cons_self (entry : Entry D K) (entries : List (Entry D K)) :
    Covers (entry :: entries) entry.key entry.deadline :=
  ⟨entry, List.mem_cons_self, rfl, le_rfl⟩

theorem Covers.of_cons (h : Covers (entry :: entries) key d) :
    Covers entries key d ∨ entry.key = key ∧ entry.deadline ≤ d := by
  obtain ⟨x, hx, hentry⟩ := h
  rcases List.mem_cons.1 hx with rfl | hx
  · exact .inr hentry
  · exact .inl ⟨x, hx, hentry⟩

end Covers

section Count

variable [DecidableEq K]

def held (entries : List (Entry D K)) (key : K) : Nat := entries.countP fun e => decide (e.key = key)

variable (entries more : List (Entry D K)) (entry : Entry D K) (key : K)

@[simp] theorem held_nil : held ([] : List (Entry D K)) key = 0 := rfl

theorem held_append : held (entries ++ more) key = held entries key + held more key :=
  List.countP_append

theorem held_cons : held (entry :: entries) key = held entries key + if entry.key = key then 1 else 0 := by
  unfold held
  rw [List.countP_cons]
  simp

theorem held_perm {entries more : List (Entry D K)} (h : entries.Perm more) : held entries key = held more key :=
  h.countP_eq _

end Count

end OutlineProxy.Deadlines
