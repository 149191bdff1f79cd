import Mathlib.Data.List.Chain
import Mathlib.Logic.Function.Basic

/-! The wall-clock loop of scheduled re-selection, which remembers only the slot it fired last. -/

namespace OutlineProxy.Uplink

open List

def reselectSlotToleranceSecs : Nat := 90

def wallClockTick : Nat := 30

def daySecs : Nat := 86400

def slotSecs (slot : UInt8 × UInt8) : Nat := slot.1.toNat * 3600 + slot.2.toNat * 60

def due (secs : Nat) (slot : UInt8 × UInt8) : Bool :=
  slotSecs slot ≤ secs && secs - slotSecs slot ≤ reselectSlotToleranceSecs

def dueSlot (dayKey : Int) (secs : Nat) (slots : List (UInt8 × UInt8)) (lastFired : Option (Int × Nat)) : Option Nat :=
  slots.zipIdx.findSome? fun entry =>
    if due secs entry.1 && lastFired ≠ some (dayKey, entry.2) then some entry.2 else none

def initialLastFired (dayKey : Int) (secs : Nat) (slots : List (UInt8 × UInt8)) : Option (Int × Nat) :=
  (dueSlot dayKey secs slots none).map fun slot => (dayKey, slot)

/-- `fired` are the slots that were fired, each with its day. -/
structure WallClock where
  lastFired : Option (Int × Nat)
  fired : List (Int × Nat) := []

namespace WallClock

variable (slots : List (UInt8 × UInt8))

def spawn (reading : Option (Int × Nat)) : WallClock where
  lastFired := reading.bind fun now => initialLastFired now.1 now.2 slots

def observe (loop : WallClock) (now : Int × Nat) : WallClock :=
  match dueSlot now.1 now.2 slots loop.lastFired with
  | some slot => ⟨some (now.1, slot), loop.fired ++ [(now.1, slot)]⟩
  | none => loop

/-- A tick whose time cannot be converted is skipped. -/
def tick (loop : WallClock) : Option (Int × Nat) → WallClock
  | some now => loop.observe slots now
  | none => loop

/-- The day and the second of the day at a local time, counted from the midnight of some day. -/
def localDayAndSecs (dayKey : Nat → Int) (time : Nat) : Int × Nat := (dayKey (time / daySecs), time % daySecs)

/-- The windows of the slots do not meet. -/
def Apart : Prop := slots.Pairwise fun a b => slotSecs a + reselectSlotToleranceSecs < slotSecs b

variable {slots} {secs i j : Nat} {slot other : UInt8 × UInt8} {last : Option (Int × Nat)} {key : Int}

theorem due_iff : due secs slot = true ↔ slotSecs slot ≤ secs ∧ secs ≤ slotSecs slot + reselectSlotToleranceSecs := by
  simp only [due, Bool.and_eq_true, decide_eq_true_eq]
  omega

theorem Apart.unique (h : Apart slots) (hi : slots[i]? = some slot) (hj : slots[j]? = some other)
    (hslot : due secs slot) (hother : due secs other) : i = j := by
  obtain ⟨hilt, rfl⟩ := List.getElem?_eq_some_iff.mp hi
  obtain ⟨hjlt, rfl⟩ := List.getElem?_eq_some_iff.mp hj
  rw [due_iff] at hslot hother
  have hapart := pairwise_iff_getElem.mp h
  rcases Nat.lt_trichotomy i j with hlt | heq | hgt
  · have := hapart i j hilt hjlt hlt
    omega
  · exact heq
  · have := hapart j i hjlt hilt hgt
    omega

theorem dueSlot_eq_some_iff (h : Apart slots) :
    dueSlot key secs slots last = some i ↔ (∃ slot, slots[i]? = some slot ∧ due secs slot) ∧ last ≠ some (key, i) := by
  have hfound : ∀ {j}, dueSlot key secs slots last = some j →
      (∃ slot, slots[j]? = some slot ∧ due secs slot) ∧ last ≠ some (key, j) := by
    intro j hdue
    obtain ⟨⟨slot, k⟩, hmem, hentry⟩ := exists_of_findSome?_eq_some hdue
    split at hentry
    · cases hentry
      simp_all [mk_mem_zipIdx_iff_getElem?]
    · cases hentry
  refine ⟨hfound, ?_⟩
  rintro ⟨⟨slot, hslot, hdue⟩, hlast⟩
  have hsome : (dueSlot key secs slots last).isSome := by
    rw [dueSlot, findSome?_isSome_iff]
    exact ⟨(slot, i), mk_mem_zipIdx_iff_getElem?.mpr hslot, by simp [hdue, hlast]⟩
  obtain ⟨j, hj⟩ := Option.isSome_iff_exists.mp hsome
  obtain ⟨⟨other, hother, hopen⟩, -⟩ := hfound hj
  rw [h.unique hslot hother hdue hopen, hj]

theorem due_mod_iff {day time : Nat} (hday : time / daySecs = day) :
    due (time % daySecs) slot ↔ day * daySecs + slotSecs slot ≤ time ∧
      time ≤ day * daySecs + slotSecs slot + reselectSlotToleranceSecs := by
  rw [due_iff]
  simp only [daySecs] at *
  omega

/-- What was fired or is remembered was open by then; a slot of the day that is still open is remembered. -/
structure Kept (slots : List (UInt8 × UInt8)) (dayKey : Nat → Int) (loop : WallClock) (time : Nat) : Prop where
  nodup : loop.fired.Nodup
  opened : ∀ p, p ∈ loop.fired ∨ loop.lastFired = some p → ∃ day slot, p.1 = dayKey day ∧ slots[p.2]? = some slot ∧
    day * daySecs + slotSecs slot ≤ time ∧ (time / daySecs = day →
      time ≤ day * daySecs + slotSecs slot + reselectSlotToleranceSecs → loop.lastFired = some p)

variable {dayKey : Nat → Int} {loop : WallClock} {time next : Nat} {times : List Nat}

theorem Kept.later (h : Kept slots dayKey loop time) (hle : time ≤ next) : Kept slots dayKey loop next := by
  refine ⟨h.nodup, fun p hp => ?_⟩
  obtain ⟨day, slot, hday, hslot, hopen, hlast⟩ := h.opened p hp
  refine ⟨day, slot, hday, hslot, by omega, fun hnext hdue => hlast ?_ (by omega)⟩
  simp only [daySecs] at *
  omega

theorem Kept.observe (hapart : Apart slots) (hdays : dayKey.Injective) (h : Kept slots dayKey loop time) :
    Kept slots dayKey (loop.observe slots (localDayAndSecs dayKey time)) time := by
  rw [WallClock.observe]
  split
  · rename_i i hdue
    obtain ⟨⟨slot, hslot, hopen⟩, hother⟩ := (dueSlot_eq_some_iff hapart).mp hdue
    have hwindow := (due_mod_iff rfl).mp hopen
    -- a slot of the day that is still open is remembered, hence refused
    have hnew : ∀ p, p ∈ loop.fired → p ≠ (dayKey (time / daySecs), i) := by
      rintro p hp rfl
      obtain ⟨day, slot', hday, hslot', -, hlast⟩ := h.opened _ (.inl hp)
      cases hslot.symm.trans hslot'
      cases hdays hday
      exact hother (hlast rfl hwindow.2)
    refine ⟨?_, ?_⟩
    · rw [nodup_append]
      refine ⟨h.nodup, by simp, fun p hp q hq => ?_⟩
      rw [mem_singleton.mp hq]
      exact hnew p hp
    · intro p hp
      by_cases hpi : p = (dayKey (time / daySecs), i)
      · subst hpi
        exact ⟨time / daySecs, slot, rfl, hslot, hwindow.1, fun _ _ => rfl⟩
      · have hold : p ∈ loop.fired := by
          rcases hp with hp | hp
          · exact (mem_append.mp hp).resolve_right fun hp => hpi (mem_singleton.mp hp)
          · exact absurd (Option.some.inj hp).symm hpi
        obtain ⟨day, slot', hday, hslot', hopened, hlast⟩ := h.opened p (.inl hold)
        refine ⟨day, slot', hday, hslot', hopened, fun htoday hlate => absurd ?_ hpi⟩
        have hdue' : due (time % daySecs) slot' := (due_mod_iff htoday).mpr ⟨hopened, hlate⟩
        exact Prod.ext (by rw [hday, htoday]) (hapart.unique hslot' hslot hdue' hopen)
  · exact h

theorem kept_spawn (hapart : Apart slots) (dayKey : Nat → Int) (start : Nat) :
    Kept slots dayKey (spawn slots (some (localDayAndSecs dayKey start))) start := by
  refine ⟨nodup_nil, fun p hp => ?_⟩
  have hlast : initialLastFired (dayKey (start / daySecs)) (start % daySecs) slots = some p := by
    simpa [spawn, localDayAndSecs] using hp
  obtain ⟨i, hdue, rfl⟩ := Option.map_eq_some_iff.mp hlast
  obtain ⟨⟨slot, hslot, hopen⟩, -⟩ := (dueSlot_eq_some_iff hapart).mp hdue
  exact ⟨start / daySecs, slot, rfl, hslot, ((due_mod_iff rfl).mp hopen).1, fun _ _ => hlast⟩

/-- The loop at ticks whose times are known. -/
def observeAll (slots : List (UInt8 × UInt8)) (dayKey : Nat → Int) (loop : WallClock) (times : List Nat) : WallClock :=
  (times.map fun time => some (localDayAndSecs dayKey time)).foldl (tick slots) loop

theorem mem_fired_observeAll {p : Int × Nat} (hp : p ∈ loop.fired) :
    p ∈ (observeAll slots dayKey loop times).fired := by
  induction times generalizing loop with
  | nil => exact hp
  | cons time times ih =>
    apply ih
    show p ∈ (loop.observe slots (localDayAndSecs dayKey time)).fired
    rw [WallClock.observe]
    split
    · exact mem_append_left _ hp
    · exact hp

section Ticks

variable (hapart : Apart slots) (hdays : dayKey.Injective) (h : Kept slots dayKey loop time)
  (hordered : (time :: times).Pairwise (· ≤ ·))

include hapart hdays h hordered

theorem nodup_observeAll : (observeAll slots dayKey loop times).fired.Nodup := by
  induction times generalizing loop time with
  | nil => exact h.nodup
  | cons next times ih =>
    obtain ⟨hle, hrest⟩ := pairwise_cons.mp hordered
    exact ih ((h.later (hle next (by simp))).observe hapart hdays) hrest

/-- A slot that opens after the last tick fires at the first tick from its opening on. -/
theorem fires_observeAll {day : Nat} (htick : (time :: times).IsChain fun a b => b ≤ a + wallClockTick)
    (hslot : slots[i]? = some slot) (hnight : slotSecs slot + reselectSlotToleranceSecs ≤ daySecs)
    (hbefore : time < day * daySecs + slotSecs slot) (hreached : ∃ t ∈ times, day * daySecs + slotSecs slot ≤ t) :
    (dayKey day, i) ∈ (observeAll slots dayKey loop times).fired := by
  induction times generalizing loop time with
  | nil => simp at hreached
  | cons next times ih =>
    obtain ⟨hle, hrest⟩ := pairwise_cons.mp hordered
    obtain ⟨hgap, hchain⟩ := isChain_cons_cons.mp htick
    by_cases hopen : next < day * daySecs + slotSecs slot
    · refine ih ((h.later (hle next (by simp))).observe hapart hdays) hrest hchain hopen ?_
      obtain ⟨t, ht, hlate⟩ := hreached
      rcases mem_cons.mp ht with rfl | ht
      · omega
      · exact ⟨t, ht, hlate⟩
    · have htoday : next / daySecs = day := by
        simp only [daySecs, wallClockTick, reselectSlotToleranceSecs] at *
        omega
      have hdue : dueSlot (dayKey day) (next % daySecs) slots loop.lastFired = some i := by
        refine (dueSlot_eq_some_iff hapart).mpr ⟨⟨slot, hslot, (due_mod_iff htoday).mpr ⟨by omega, ?_⟩⟩,
          fun hlast => ?_⟩
        · simp only [wallClockTick, reselectSlotToleranceSecs] at *
          omega
        · obtain ⟨day', slot', hday, hslot', hopened, -⟩ := h.opened _ (.inr hlast)
          cases hslot.symm.trans hslot'
          cases hdays hday
          omega
      show _ ∈ (observeAll slots dayKey (loop.observe slots (localDayAndSecs dayKey next)) times).fired
      apply mem_fired_observeAll
      simp [WallClock.observe, localDayAndSecs, htoday, hdue]

end Ticks

/-- Slots whose windows do not meet fire at most once a day each, and with ticks no further apart than
intended each one fires on every day on which it opens after the start and before the last tick. -/
theorem slots_fire_once_a_day (hapart : Apart slots) (hdays : dayKey.Injective) {start : Nat}
    (hordered : (start :: times).Pairwise (· ≤ ·)) :
    let loop := observeAll slots dayKey (spawn slots (some (localDayAndSecs dayKey start))) times
    loop.fired.Nodup ∧
    ((start :: times).IsChain (fun a b => b ≤ a + wallClockTick) → ∀ day i slot, slots[i]? = some slot →
      slotSecs slot + reselectSlotToleranceSecs ≤ daySecs → start < day * daySecs + slotSecs slot →
      (∃ t ∈ times, day * daySecs + slotSecs slot ≤ t) → (dayKey day, i) ∈ loop.fired) := by
  have hkept := kept_spawn hapart dayKey start
  refine ⟨nodup_observeAll hapart hdays hkept hordered, ?_⟩
  intro htick day i slot hslot hnight hbefore hreached
  exact fires_observeAll hapart hdays hkept hordered htick hslot hnight hbefore hreached

/-- Ticks from shortly before ten. -/
def runAroundTen (slots : List (UInt8 × UInt8)) : WallClock :=
  observeAll slots Nat.cast (spawn slots (some (localDayAndSecs Nat.cast 35990))) [36000, 36030, 36060, 36090, 36120]

theorem slots_fire_once_a_day_apart : (0, 1) ∈ (runAroundTen [(10, 0), (10, 2)]).fired := by
  have hapart : Apart [(10, 0), (10, 2)] := by simp [Apart, slotSecs, reselectSlotToleranceSecs]
  have hdays : Function.Injective (Nat.cast : Nat → Int) := fun _ _ => Int.ofNat.inj
  exact (slots_fire_once_a_day hapart hdays (by decide)).2 (by decide) 0 1
    (10, 2) rfl (by decide) (by decide) (by decide)

/-- Slots a minute apart: both windows are open for half a minute, and each firing forgets the other. -/
theorem slots_fire_twice : (runAroundTen [(10, 0), (10, 1)]).fired = [(0, 0), (0, 1), (0, 0), (0, 1)] := by decide

end WallClock

end OutlineProxy.Uplink
