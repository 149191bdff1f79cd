import OutlineProxy.Uplink.Reselect
import OutlineProxy.Uplink.SyncOrder

/-! The slot in force.  The day before is the day's key less one, which no day has when the year before is not a leap
year, so the slot in force changes at the midnight of such a new year. -/

namespace OutlineProxy.Uplink

open List

def rposition {α : Type} (p : α → Bool) : List α → Option Nat
  | [] => none
  | a :: rest => ((rposition p rest).map (· + 1)).or (if p a then some 0 else none)

def currentSlotKey (dayKey : Int) (secs : Nat) (slots : List (UInt8 × UInt8)) : Option SlotKey :=
  if slots.length = 0 then none
  else match rposition (fun slot => slotSecs slot ≤ secs) slots with
    | some slot => some ⟨dayKey, slot⟩
    | none => some ⟨dayKey - 1, slots.length - 1⟩

/-- Of the Gregorian year that is counted from 1900. -/
def isLeap (year : Int) : Bool :=
  (1900 + year) % 4 == 0 && ((1900 + year) % 100 != 0 || (1900 + year) % 400 == 0)

def yearDays (year : Int) : Nat := if isLeap year then 366 else 365

structure LocalTime where
  year : Int
  yday : Nat
  hour : Nat
  min : Nat
  sec : Nat
  yday_lt : yday < yearDays year

namespace LocalTime

variable (time : LocalTime) (slots : List (UInt8 × UInt8))

def dayKey : Int := time.year * 366 + time.yday

def secs : Nat := time.hour * 3600 + time.min * 60 + time.sec

def slotKey : Option SlotKey := currentSlotKey time.dayKey time.secs slots

/-- The time is not before the second of that day. -/
def Reaches (year : Int) (yday secs : Nat) : Prop :=
  year < time.year ∨ year = time.year ∧ (yday < time.yday ∨ yday = time.yday ∧ secs ≤ time.secs)

/-- A slot of some day that comes after the one time and is reached by the other. -/
def Between (start stop : LocalTime) (slot : UInt8 × UInt8) (year : Int) (yday : Nat) : Prop :=
  yday < yearDays year ∧ ¬start.Reaches year yday (slotSecs slot) ∧ stop.Reaches year yday (slotSecs slot)

def InStep (start stop : LocalTime) : Prop := start.year = stop.year ∨ isLeap start.year

def passed : Nat := slots.countP fun slot => slotSecs slot ≤ time.secs

def firing : Nat := slots.countP fun slot => slotSecs slot = time.secs

end LocalTime

open LocalTime

variable {slots : List (UInt8 × UInt8)} {start stop : LocalTime}

theorem rposition_eq (hsorted : slots.Pairwise fun s t => slotSecs s ≤ slotSecs t) (secs : Nat) :
    rposition (fun slot => slotSecs slot ≤ secs) slots =
      match slots.countP fun slot => slotSecs slot ≤ secs with
      | 0 => none
      | n + 1 => some n := by
  induction slots with
  | nil => rfl
  | cons slot rest ih =>
    obtain ⟨hfirst, hrest⟩ := pairwise_cons.mp hsorted
    rw [rposition, ih hrest, countP_cons]
    by_cases hpassed : slotSecs slot ≤ secs
    · cases hcount : rest.countP fun slot => slotSecs slot ≤ secs <;> simp [hpassed]
    · have hnone : (rest.countP fun slot => slotSecs slot ≤ secs) = 0 := by
        rw [countP_eq_zero]
        intro later hlater
        have hle := hfirst later hlater
        simp only [decide_eq_true_eq]
        omega
      simp [hpassed, hnone]

theorem slotKey_eq (hsorted : slots.Pairwise fun s t => slotSecs s ≤ slotSecs t) (time : LocalTime) :
    time.slotKey slots = if slots.length = 0 then none
      else some (if time.passed slots = 0 then ⟨time.dayKey - 1, slots.length - 1⟩
        else ⟨time.dayKey, time.passed slots - 1⟩) := by
  rw [slotKey, currentSlotKey, rposition_eq hsorted, passed]
  cases slots.countP fun slot => slotSecs slot ≤ time.secs <;> rfl

theorem previousSlotKey_eq (key : SlotKey) (slots : List (UInt8 × UInt8)) :
    previousSlotKey key slots =
      if key.slot = 0 then ⟨key.dayKey - 1, slots.length - 1⟩ else ⟨key.dayKey, key.slot - 1⟩ := by
  obtain ⟨dayKey, slot⟩ := key
  cases slot <;> rfl

/-- With a slot on every day, two days without a slot between them follow each other. -/
theorem next_day {slot : UInt8 × UInt8}
    (hquiet : ∀ year yday, Between start stop slot year yday → year = stop.year ∧ yday = stop.yday)
    (hlt : start.year < stop.year ∨ start.year = stop.year ∧ start.yday < stop.yday) :
    start.dayKey < stop.dayKey ∧ (start.dayKey = stop.dayKey - 1 ↔ InStep start stop) := by
  have hvalid := start.yday_lt
  have hstop := stop.yday_lt
  by_cases hlast : start.yday + 1 < yearDays start.year
  · have hnext := hquiet start.year (start.yday + 1)
    simp only [Between, Reaches] at hnext
    simp only [dayKey, InStep]
    omega
  · have hyear : start.year < stop.year := by
      refine hlt.resolve_right fun hsame => ?_
      rw [← hsame.1] at hstop
      omega
    have hpositive : 0 < yearDays (start.year + 1) := by
      unfold yearDays
      split <;> decide
    have hnext := hquiet (start.year + 1) 0
    simp only [Between, Reaches] at hnext
    have hfirst : stop.year = start.year + 1 ∧ stop.yday = 0 := by omega
    have hdays : yearDays start.year = 366 ↔ isLeap start.year = true := by
      unfold yearDays
      split <;> simp_all
    have hle : yearDays start.year ≤ 366 := by
      unfold yearDays
      split <;> decide
    simp only [dayKey, InStep, ← hdays]
    omega

theorem passed_add_firing (hslots : ∀ slot ∈ slots, slotSecs slot ≤ stop.secs →
      slotSecs slot ≤ start.secs ∨ slotSecs slot = stop.secs) (hlt : start.secs < stop.secs) :
    stop.passed slots = start.passed slots + stop.firing slots := by
  induction slots with
  | nil => rfl
  | cons slot rest ih =>
    obtain ⟨hslot, hrest⟩ := forall_mem_cons.mp hslots
    have ih := ih hrest
    simp only [passed, firing, countP_cons, decide_eq_true_eq] at ih ⊢
    split_ifs <;> omega

/-- On one day the slots that fire are added to those passed, on the next they are the first. -/
theorem passed_cases (hslots : slots ≠ []) (hbefore : ¬start.Reaches stop.year stop.yday stop.secs)
    (hquiet : ∀ slot ∈ slots, ∀ year yday, Between start stop slot year yday →
      (year = stop.year ∧ yday = stop.yday) ∧ slotSecs slot = stop.secs) :
    (start.dayKey = stop.dayKey ∧ start.year = stop.year ∧
      stop.passed slots = start.passed slots + stop.firing slots) ∨
    start.dayKey < stop.dayKey ∧ (start.dayKey = stop.dayKey - 1 ↔ InStep start stop) ∧
      start.passed slots = slots.length ∧ stop.passed slots = stop.firing slots := by
  have hvalid := start.yday_lt
  have hstop := stop.yday_lt
  unfold Between Reaches at hquiet
  unfold Reaches at hbefore
  by_cases hsame : start.year = stop.year ∧ start.yday = stop.yday
  · refine .inl ⟨by rw [dayKey, dayKey, hsame.1, hsame.2], hsame.1,
      passed_add_firing (fun slot hslot hreached => ?_) ?_⟩
    · have hfire := hquiet slot hslot stop.year stop.yday
      omega
    · omega
  · obtain ⟨slot, hslot⟩ := exists_mem_of_ne_nil slots hslots
    obtain ⟨hkeys, hiff⟩ := next_day (fun year yday hbetween => (hquiet slot hslot year yday hbetween).1)
      (by omega : start.year < stop.year ∨ start.year = stop.year ∧ start.yday < stop.yday)
    refine .inr ⟨hkeys, hiff, countP_eq_length.mpr fun slot hslot => ?_, countP_congr fun slot hslot => ?_⟩
    · have hfire := hquiet slot hslot start.year start.yday
      simp only [decide_eq_true_eq]
      omega
    · have hfire := hquiet slot hslot stop.year stop.yday
      simp only [decide_eq_true_eq]
      omega

/-- The slot in force stays between firings, and the slot before one that fires was in force, if and only if both times
are of one year or the first is of a leap year; the second also needs that the slot is not in the list twice. -/
theorem slot_key_stable_iff (hsorted : slots.Pairwise fun s t => slotSecs s ≤ slotSecs t) (start stop : LocalTime) :
    (stop.Reaches start.year start.yday start.secs → (∀ slot ∈ slots, ∀ year yday, ¬Between start stop slot year yday) →
      (start.slotKey slots = stop.slotKey slots ↔ slots = [] ∨ InStep start stop)) ∧
    (¬start.Reaches stop.year stop.yday stop.secs → stop.firing slots ≠ 0 →
      (∀ slot ∈ slots, ∀ year yday, Between start stop slot year yday →
        (year = stop.year ∧ yday = stop.yday) ∧ slotSecs slot = stop.secs) →
      ((stop.slotKey slots).map (previousSlotKey · slots) = start.slotKey slots ↔
        stop.firing slots = 1 ∧ InStep start stop)) := by
  by_cases hslots : slots = []
  · subst hslots
    exact ⟨fun _ _ => by simp [slotKey, currentSlotKey], fun _ hfires => absurd rfl hfires⟩
  have hlength : slots.length ≠ 0 := by simpa using hslots
  rw [slotKey_eq hsorted, slotKey_eq hsorted, if_neg hlength, if_neg hlength]
  refine ⟨fun hle hquiet => ?_, fun hbefore hfires hquiet => ?_⟩
  · by_cases hbefore : start.Reaches stop.year stop.yday stop.secs
    · have hsame : start.year = stop.year ∧ start.yday = stop.yday ∧ start.secs = stop.secs := by
        unfold Reaches at hle hbefore
        omega
      have hpassed : start.passed slots = stop.passed slots := by rw [passed, passed, hsame.2.2]
      simp [dayKey, hpassed, InStep, hsame]
    · have hnone : stop.firing slots = 0 := by
        refine countP_eq_zero.mpr fun slot hslot hfire =>
          hquiet slot hslot stop.year stop.yday ⟨stop.yday_lt, ?_, ?_⟩ <;>
          rw [of_decide_eq_true hfire]
        · exact hbefore
        · exact .inr ⟨rfl, .inr ⟨rfl, Nat.le_refl _⟩⟩
      rcases passed_cases hslots hbefore fun slot hslot year yday hbetween =>
        absurd hbetween (hquiet slot hslot year yday) with ⟨hkey, hyear, hpassed⟩ | ⟨-, hiff, hall, hpassed⟩
      · simp [hkey, hpassed, hnone, InStep, hyear]
      · simp [hall, hpassed, hnone, hslots, hiff]
  · have hfiring : stop.firing slots ≤ slots.length := countP_le_length
    rw [Option.map_some, Option.some.injEq, previousSlotKey_eq]
    rcases passed_cases hslots hbefore hquiet with ⟨hkey, hyear, hpassed⟩ | ⟨hkeys, hiff, hall, hpassed⟩
    · have hinStep : InStep start stop := .inl hyear
      simp only [if_neg (show stop.passed slots ≠ 0 by omega), hkey, hinStep, and_true]
      split_ifs <;> simp only [SlotKey.mk.injEq, true_and, true_iff] <;> omega
    · simp only [hpassed, hall, if_neg hfires, if_neg hlength, ← hiff]
      split_ifs <;> simp only [SlotKey.mk.injEq, and_true] <;> omega

/-- Around the new year of 2025, which follows a leap year. -/
theorem slot_key_stable_iff_leap :
    let slots : List (UInt8 × UInt8) := [(4, 0)]
    LocalTime.slotKey ⟨124, 365, 23, 0, 0, by decide⟩ slots = LocalTime.slotKey ⟨125, 0, 1, 0, 0, by decide⟩ slots := by
  intro slots
  refine ((slot_key_stable_iff (by decide) _ _).1 (.inl (by decide)) ?_).mpr (.inr (.inr (by decide)))
  simp only [slots, mem_singleton, forall_eq, Between, Reaches, slotSecs, secs]
  grind [yearDays, isLeap]

/-- Around the new year of 2023 the slot in force changes at midnight, four hours before the slot. -/
theorem slot_key_changes_at_new_year :
    let slots : List (UInt8 × UInt8) := [(4, 0)]
    (∀ slot ∈ slots, ∀ year yday,
      ¬Between ⟨122, 364, 23, 0, 0, by decide⟩ ⟨123, 0, 1, 0, 0, by decide⟩ slot year yday) ∧
    LocalTime.slotKey ⟨122, 364, 23, 0, 0, by decide⟩ slots = some ⟨45016, 0⟩ ∧
    LocalTime.slotKey ⟨123, 0, 1, 0, 0, by decide⟩ slots = some ⟨45017, 0⟩ := by
  refine ⟨?_, by decide, by decide⟩
  simp only [mem_singleton, forall_eq, Between, Reaches, slotSecs, secs]
  grind [yearDays, isLeap]

end OutlineProxy.Uplink
