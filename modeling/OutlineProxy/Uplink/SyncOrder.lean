import OutlineProxy.Uplink.Candidates

/-! Scheduled re-selection by an order of preference that independent nodes share. -/

namespace OutlineProxy.Uplink

structure SlotKey where
  dayKey : Int
  slot : Nat
deriving DecidableEq

def previousSlotKey (key : SlotKey) (slots : List (UInt8 × UInt8)) : SlotKey :=
  match key.slot with
  | slot + 1 => ⟨key.dayKey, slot⟩
  | 0 => ⟨key.dayKey - 1, slots.length - 1⟩

/-- What the nodes of a group agree on: `syncOrder` is the permutation that the seed of a slot draws. -/
structure SyncGroup (W : Type) where
  config : SelectionConfig
  uplinks : List (UplinkConfig W)
  reselectAt : List (UInt8 × UInt8)
  syncOrder : SlotKey → List Nat
  permutes : ∀ key, (syncOrder key).Perm (List.range uplinks.length)

namespace SyncGroup

variable {W : Type} (group : SyncGroup W) (call : Selecting)

def eligible (index : Nat) : Bool :=
  let reading := call.readings index
  group.uplinks[index]?.any fun uplink =>
    reading.enabled && supportsTransport uplink call.transport &&
      (selectionHealth group.config call.now uplink reading call.transport &&
        !(reading.of call.transport).cooldownActive call.now)

def firstEligible (order : List Nat) (exclude : Option Nat) : Option Nat :=
  order.find? fun index => exclude ≠ some index && group.eligible call index

def previous (key : SlotKey) : SlotKey := previousSlotKey key group.reselectAt

def syncPick (key : SlotKey) : Option Nat :=
  let order := group.syncOrder key
  let excluded := (group.syncOrder (group.previous key)).head?
  (group.firstEligible call order excluded).or (group.firstEligible call order none)

def AllEligible : Prop := ∀ index < group.uplinks.length, group.eligible call index

instance : Decidable (group.AllEligible call) := Nat.decidableBallLT _ _

/-- The two slots before have different heads, or this slot's order neither starts with the second uplink of
the slot before nor with the same two. -/
def MovesOn (key : SlotKey) : Prop :=
  let order := group.syncOrder key
  let last := group.syncOrder (group.previous key)
  last.head? ≠ (group.syncOrder (group.previous (group.previous key))).head? ∨
    order.head? ≠ last[1]? ∧ order.take 2 ≠ last.take 2

variable {group call}

theorem exists_order (hsize : 2 ≤ group.uplinks.length) (key : SlotKey) :
    ∃ a b rest, group.syncOrder key = a :: b :: rest ∧ a ≠ b := by
  have hperm := group.permutes key
  have hlen := hperm.length_eq
  have hnodup := hperm.nodup_iff.mpr List.nodup_range
  match horder : group.syncOrder key with
  | [] => simp [horder] at hlen; omega
  | [_] => simp [horder] at hlen; omega
  | a :: b :: rest =>
    rw [horder] at hnodup
    exact ⟨a, b, rest, rfl, by rintro rfl; simp at hnodup⟩

theorem firstEligible_of_all (hall : group.AllEligible call) (key : SlotKey) (exclude : Option Nat) :
    group.firstEligible call (group.syncOrder key) exclude = (group.syncOrder key).find? (exclude ≠ some ·) := by
  rw [firstEligible, ← List.head?_filter, ← List.head?_filter]
  congr 1
  apply List.filter_congr
  intro index hindex
  have hlt := List.mem_range.mp ((group.permutes key).mem_iff.mp hindex)
  simp [hall index hlt]

/-- Of the two uplinks at the head of an order one is not excluded. -/
theorem find_pair {a b : Nat} (hne : a ≠ b) (rest : List Nat) (exclude : Option Nat) :
    (a :: b :: rest).find? (exclude ≠ some ·) = if exclude = some a then some b else some a := by
  by_cases ha : exclude = some a
  · simp [ha, hne]
  · simp [ha]

theorem syncPick_of_all (hsize : 2 ≤ group.uplinks.length) (hall : group.AllEligible call) (key : SlotKey) :
    group.syncPick call key =
      (group.syncOrder key).find? ((group.syncOrder (group.previous key)).head? ≠ some ·) := by
  obtain ⟨a, b, rest, horder, hne⟩ := exists_order hsize key
  rw [syncPick, firstEligible_of_all hall, horder, find_pair hne]
  split <;> rfl

/-- With all uplinks eligible a slot moves away from the uplink of the slot before exactly when the orders of
the three slots let it; what is picked depends on a node through the eligibility only. -/
theorem sync_pick_rotates_iff (group : SyncGroup W) (hsize : 2 ≤ group.uplinks.length) (key : SlotKey) :
    (∀ call before, group.AllEligible call → group.AllEligible before →
      (group.syncPick call key ≠ group.syncPick before (group.previous key) ↔ group.MovesOn key)) ∧
    ∀ node twin : Selecting, group.eligible node = group.eligible twin →
      group.syncPick node key = group.syncPick twin key := by
  constructor
  · intro call before hall hbefore
    obtain ⟨a, b, rest, hlast, hab⟩ := exists_order hsize (group.previous key)
    obtain ⟨c, d, others, horder, hcd⟩ := exists_order hsize key
    rw [syncPick_of_all hsize hall, syncPick_of_all hsize hbefore, MovesOn, horder, hlast, find_pair hab, find_pair hcd]
    -- the slot before picked its head unless that was the head before as well
    by_cases hhead : (group.syncOrder (group.previous (group.previous key))).head? = some a
    · by_cases hac : a = c
      · subst hac
        simp [hhead, hab]
      · simp [hhead, hac, Ne.symm hac]
    · have hmoved : (if some a = some c then some d else some c) ≠ some a := by
        split <;> simp_all [eq_comm]
      simp only [List.head?_cons, hhead, if_false]
      exact iff_of_true hmoved (.inl (Ne.symm hhead))
  · intro node twin heligible
    simp only [syncPick, firstEligible, heligible]

/-- Two equal uplinks, the second one first where `swapped`. -/
def pair (swapped : SlotKey → Bool) : SyncGroup Nat where
  config := failbackConfig
  uplinks := weighing [1, 1]
  reselectAt := [(4, 0), (16, 0)]
  syncOrder key := if swapped key then [1, 0] else [0, 1]
  permutes key := by split <;> decide

def healthyNode : Selecting := measured [3, 3] [10, 10] []

theorem sync_pick_rotates_iff_alternating :
    (pair (·.slot == 1)).syncPick healthyNode ⟨20, 1⟩ ≠ (pair (·.slot == 1)).syncPick healthyNode ⟨20, 0⟩ := by
  have hall : (pair (·.slot == 1)).AllEligible healthyNode := by decide
  exact ((sync_pick_rotates_iff (pair (·.slot == 1)) (by decide) ⟨20, 1⟩).1 _ _ hall hall).mpr (.inl (by decide))

/-- The same order for every slot: the second uplink is picked again and again. -/
theorem sync_pick_stays :
    (pair fun _ => false).AllEligible healthyNode ∧ ∀ key, (pair fun _ => false).syncPick healthyNode key = some 1 := by
  refine ⟨by decide, fun key => ?_⟩
  rfl

end SyncGroup

end OutlineProxy.Uplink
