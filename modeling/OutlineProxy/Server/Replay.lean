import Mathlib.Data.List.MinMax
import Mathlib.Order.Nat
import OutlineProxy.Lib.Bitmap

/-! The sliding window that filters replayed packet ids of one client session. -/

namespace OutlineProxy.Server

def windowBits : Nat := 1024

def bitmapWords : Nat := windowBits / 64

structure ReplayWindow where
  highest : UInt64
  -- bit `k` stands for the packet id `highest - k`
  bitmap : Vector UInt64 bitmapWords
  initialised : Bool

open ReplayWindow

namespace ReplayWindow

def new : ReplayWindow where
  highest := 0
  bitmap := Vector.replicate bitmapWords 0
  initialised := false

def setBit (window : ReplayWindow) (offset : Nat) : ReplayWindow :=
  { window with bitmap := Bitmap.setBit window.bitmap offset }

def getBit (window : ReplayWindow) (offset : Nat) : Bool :=
  Bitmap.getBit window.bitmap offset

def shiftLeft (window : ReplayWindow) (n : UInt64) : ReplayWindow :=
  { window with bitmap := Bitmap.shiftLeft window.bitmap n.toNat }

def checkAndMark (window : ReplayWindow) (packetId : UInt64) : Bool × ReplayWindow :=
  if window.initialised = false then
    (true, setBit { window with initialised := true, highest := packetId } 0)
  else if window.highest < packetId then
    (true, setBit { shiftLeft window (packetId - window.highest) with highest := packetId } 0)
  else
    let offset := window.highest - packetId
    if windowBits ≤ offset.toNat then (false, window)
    else if getBit window offset.toNat then (false, window)
    else (true, setBit window offset.toNat)

end ReplayWindow

open List

structure Filtering where
  window : ReplayWindow
  accepted : List UInt64

open Filtering

def Filtering.pass (filtering : Filtering) (packetId : UInt64) : Filtering :=
  let (fresh, window) := filtering.window.checkAndMark packetId
  ⟨window, if fresh then filtering.accepted ++ [packetId] else filtering.accepted⟩

def Filtering.run (packetIds : List UInt64) : Filtering :=
  packetIds.foldl pass ⟨new, []⟩

def latest (passed : List UInt64) : Nat := (passed.map UInt64.toNat).foldr max 0

structure Remembers (passed : List UInt64) (filtering : Filtering) : Prop where
  accepted_passed : ∀ packetId ∈ filtering.accepted, packetId ∈ passed
  passed_le : ∀ packetId ∈ passed, packetId.toNat ≤ filtering.window.highest.toNat
  fresh : filtering.window.initialised = false → passed = []
  highest_passed : filtering.window.initialised = true → filtering.window.highest ∈ passed
  bits : ∀ offset < windowBits, filtering.window.getBit offset = true ↔
    ∃ packetId ∈ filtering.accepted, packetId.toNat + offset = filtering.window.highest.toNat
  nodup : filtering.accepted.Nodup

variable {passed : List UInt64} {filtering : Filtering} {packetId : UInt64}

theorem remembers_new : Remembers [] ⟨new, []⟩ where
  accepted_passed := by simp
  passed_le := by simp
  fresh := fun _ => rfl
  highest_passed := fun h => nomatch h
  bits := fun offset _ => by
    rw [getBit, new, Bitmap.getBit_replicate]
    simp
  nodup := nodup_nil

theorem le_latest (h : packetId ∈ passed) : packetId.toNat ≤ latest passed :=
  le_max_of_le (mem_map_of_mem h) (Nat.le_refl _)

theorem latest_le {bound : Nat} (h : ∀ packetId ∈ passed, packetId.toNat ≤ bound) : latest passed ≤ bound := by
  refine max_le_of_forall_le _ _ ?_
  intro n hn
  obtain ⟨packetId, hmem, rfl⟩ := mem_map.mp hn
  exact h packetId hmem

theorem le_snoc {bound : Nat} (h : ∀ other ∈ passed, other.toNat ≤ bound) (hle : packetId.toNat ≤ bound) :
    ∀ other ∈ passed ++ [packetId], other.toNat ≤ bound :=
  forall_mem_append.mpr ⟨h, forall_mem_singleton.mpr hle⟩

/-- The offsets of a list that took one more number below `high`. -/
theorem exists_snoc_iff {high offset : Nat} (hle : packetId.toNat ≤ high) (accepted : List UInt64) :
    (∃ other ∈ accepted ++ [packetId], other.toNat + offset = high) ↔
      offset = high - packetId.toNat ∨ ∃ other ∈ accepted, other.toNat + offset = high := by
  simp only [mem_append, mem_singleton]
  constructor
  · rintro ⟨other, hmem | rfl, heq⟩
    · exact .inr ⟨other, hmem, heq⟩
    · exact .inl (by omega)
  · rintro (rfl | ⟨other, hmem, heq⟩)
    · exact ⟨packetId, .inr rfl, by omega⟩
    · exact ⟨other, .inl hmem, heq⟩

def Fresh (passed accepted : List UInt64) (packetId : UInt64) : Prop :=
  packetId ∉ accepted ∧ (latest (passed ++ [packetId]) : Int) - windowBits < packetId.toNat

theorem getBit_setBit_zero (window : ReplayWindow) (offset : Nat) :
    (window.setBit 0).getBit offset = true ↔ offset = 0 ∨ Bitmap.getBit window.bitmap offset = true := by
  rw [getBit, setBit, Bitmap.getBit_setBit _ (by decide), Bool.or_eq_true, decide_eq_true_iff]

namespace Remembers

section

variable (h : Remembers passed filtering)

include h

theorem accepted_snoc : ∀ other ∈ filtering.accepted ++ [packetId], other ∈ passed ++ [packetId] := by
  have haccepted_passed := h.accepted_passed
  grind [mem_append_left, mem_append_right]

theorem nodup_snoc (hnew : packetId ∉ filtering.accepted) : (filtering.accepted ++ [packetId]).Nodup := by
  have hnodup := h.nodup
  grind [nodup_singleton]

theorem fresh_of_lt (hlt : ∀ other ∈ passed, other.toNat < packetId.toNat) :
    Fresh passed filtering.accepted packetId := by
  have hmax : latest (passed ++ [packetId]) ≤ packetId.toNat := by
    exact latest_le (le_snoc (fun other hother => (hlt other hother).le) le_rfl)
  refine ⟨fun hmem => ?_, ?_⟩
  · exact (hlt packetId (h.accepted_passed packetId hmem)).false
  · have : 0 < windowBits := by decide
    omega

theorem fresh_iff (hinit : filtering.window.initialised = true)
    (hle : packetId.toNat ≤ filtering.window.highest.toNat) :
    Fresh passed filtering.accepted packetId ↔ filtering.window.highest.toNat - packetId.toNat < windowBits ∧
        filtering.window.getBit (filtering.window.highest.toNat - packetId.toNat) = false := by
  have hmax : latest (passed ++ [packetId]) = filtering.window.highest.toNat := by
    apply Nat.le_antisymm
    · exact latest_le (le_snoc h.passed_le hle)
    · exact le_latest (mem_append_left _ (h.highest_passed hinit))
  have hbit : filtering.window.highest.toNat - packetId.toNat < windowBits →
      (filtering.window.getBit (filtering.window.highest.toNat - packetId.toNat) = true ↔
        packetId ∈ filtering.accepted) := by
    intro hin
    rw [h.bits _ hin]
    constructor
    · rintro ⟨other, hmem, heq⟩
      have : other = packetId := UInt64.toNat_inj.mp (by omega)
      exact this ▸ hmem
    · exact fun hmem => ⟨packetId, hmem, by omega⟩
  rw [Fresh, hmax, ← Bool.not_eq_true]
  constructor
  · grind [windowBits]
  · rintro ⟨hoff, hclear⟩
    exact ⟨fun hmem => hclear ((hbit hoff).mpr hmem), by omega⟩

theorem raise {window : ReplayWindow} (hlt : ∀ other ∈ passed, other.toNat < packetId.toNat)
    (hinit : window.initialised = true) (hhighest : window.highest = packetId)
    (hbits : ∀ offset < windowBits, window.getBit offset = true ↔
      offset = 0 ∨ ∃ other ∈ filtering.accepted, other.toNat + offset = packetId.toNat) :
    Remembers (passed ++ [packetId]) ⟨window, filtering.accepted ++ [packetId]⟩ where
  accepted_passed := h.accepted_snoc
  passed_le := by
    rw [hhighest]
    exact le_snoc (fun other hother => (hlt other hother).le) le_rfl
  fresh := fun h => by simp [hinit] at h
  highest_passed := fun _ => by simp [hhighest]
  bits := by
    intro offset hoffset
    rw [hbits offset hoffset, hhighest, exists_snoc_iff le_rfl, Nat.sub_self]
  nodup := h.nodup_snoc (h.fresh_of_lt hlt).1

theorem refuse (hinit : filtering.window.initialised = true)
    (hle : packetId.toNat ≤ filtering.window.highest.toNat) : Remembers (passed ++ [packetId]) filtering where
  accepted_passed := fun other hother => mem_append_left _ (h.accepted_passed other hother)
  passed_le := le_snoc h.passed_le hle
  fresh := fun h => by simp [hinit] at h
  highest_passed := fun _ => mem_append_left _ (h.highest_passed hinit)
  bits := h.bits
  nodup := h.nodup

theorem mark (hinit : filtering.window.initialised = true)
    (hle : packetId.toNat ≤ filtering.window.highest.toNat) (hnew : packetId ∉ filtering.accepted)
    (hin : filtering.window.highest.toNat - packetId.toNat < windowBits) :
    Remembers (passed ++ [packetId])
      ⟨filtering.window.setBit (filtering.window.highest.toNat - packetId.toNat), filtering.accepted ++ [packetId]⟩ :=
  { h.refuse hinit hle with
    accepted_passed := h.accepted_snoc
    bits := by
      intro offset hoffset
      have hset : (filtering.window.setBit (filtering.window.highest.toNat - packetId.toNat)).getBit offset =
          (decide (offset = filtering.window.highest.toNat - packetId.toNat) || filtering.window.getBit offset) :=
        Bitmap.getBit_setBit _ hin offset
      rw [hset, Bool.or_eq_true, decide_eq_true_iff, h.bits offset hoffset]
      exact (exists_snoc_iff hle filtering.accepted).symm
    nodup := h.nodup_snoc hnew }

theorem bits_shiftLeft {offset : Nat} (hup : filtering.window.highest < packetId) (hoffset : offset < windowBits) :
    Bitmap.getBit (filtering.window.shiftLeft (packetId - filtering.window.highest)).bitmap offset = true ↔
      ∃ other ∈ filtering.accepted, other.toNat + offset = packetId.toNat := by
  have hhigh : filtering.window.highest.toNat < packetId.toNat := UInt64.lt_iff_toNat_lt.mp hup
  have hshift : (packetId - filtering.window.highest).toNat =
      packetId.toNat - filtering.window.highest.toNat := UInt64.toNat_sub_of_le _ _ (UInt64.le_of_lt hup)
  rw [shiftLeft, Bitmap.getBit_shiftLeft _ _ hoffset, hshift, Bool.and_eq_true, decide_eq_true_iff]
  constructor
  · rintro ⟨hle, hset⟩
    obtain ⟨other, hmem, heq⟩ := (h.bits _ (by omega)).mp hset
    exact ⟨other, hmem, by omega⟩
  · rintro ⟨other, hmem, heq⟩
    have hother := h.passed_le other (h.accepted_passed other hmem)
    exact ⟨by omega, (h.bits _ (by omega)).mpr ⟨other, hmem, by omega⟩⟩

theorem checkAndMark (packetId : UInt64) :
    ((filtering.window.checkAndMark packetId).1 = true ↔ Fresh passed filtering.accepted packetId) ∧
      Remembers (passed ++ [packetId]) (filtering.pass packetId) := by
  unfold Filtering.pass ReplayWindow.checkAndMark
  by_cases hinit : filtering.window.initialised = false
  · have hlt : ∀ other ∈ passed, other.toNat < packetId.toNat := by simp [h.fresh hinit]
    have hnone : ∀ other, other ∉ filtering.accepted := fun other hmem => by
      simpa [h.fresh hinit] using h.accepted_passed other hmem
    rw [if_pos hinit]
    refine ⟨iff_of_true rfl (h.fresh_of_lt hlt), h.raise hlt rfl rfl ?_⟩
    intro offset hoffset
    rw [getBit_setBit_zero]
    refine or_congr_right ?_
    exact (h.bits offset hoffset).trans (by simp [hnone])
  have hinit' : filtering.window.initialised = true := by simpa using hinit
  rw [if_neg hinit]
  by_cases hup : filtering.window.highest < packetId
  · have hhigh : filtering.window.highest.toNat < packetId.toNat := UInt64.lt_iff_toNat_lt.mp hup
    have hlt : ∀ other ∈ passed, other.toNat < packetId.toNat :=
      fun other hother => (h.passed_le other hother).trans_lt hhigh
    rw [if_pos hup]
    refine ⟨iff_of_true rfl (h.fresh_of_lt hlt), h.raise hlt hinit' rfl ?_⟩
    intro offset hoffset
    rw [getBit_setBit_zero]
    refine or_congr_right ?_
    exact h.bits_shiftLeft hup hoffset
  have hle : packetId.toNat ≤ filtering.window.highest.toNat := UInt64.le_iff_toNat_le.mp (UInt64.not_lt.mp hup)
  have hoffset : (filtering.window.highest - packetId).toNat =
      filtering.window.highest.toNat - packetId.toNat := UInt64.toNat_sub_of_le _ _ (UInt64.not_lt.mp hup)
  rw [if_neg hup]
  simp only [hoffset]
  rw [h.fresh_iff hinit' hle]
  by_cases hold : windowBits ≤ filtering.window.highest.toNat - packetId.toNat
  · rw [if_pos hold]
    exact ⟨by simp; omega, h.refuse hinit' hle⟩
  rw [if_neg hold]
  by_cases hset : filtering.window.getBit (filtering.window.highest.toNat - packetId.toNat) = true
  · rw [if_pos hset]
    exact ⟨by simp [hset], h.refuse hinit' hle⟩
  · rw [if_neg hset]
    have hfresh : Fresh passed filtering.accepted packetId :=
      (h.fresh_iff hinit' hle).mpr ⟨by omega, by simpa using hset⟩
    exact ⟨iff_of_true rfl ⟨by omega, by simpa using hset⟩, h.mark hinit' hle hfresh.1 (by omega)⟩

end

end Remembers

theorem remembers_run (passed : List UInt64) : Remembers passed (run passed) := by
  induction passed using reverseRecOn with
  | nil => exact remembers_new
  | append_singleton passed packetId ih =>
    rw [run, foldl_append]
    exact (ih.checkAndMark packetId).2

/-- The window answers `true` exactly to the ids that it has not let through before and that
are within `windowBits` of the greatest id passed, and so lets no id through twice. -/
theorem replay_window_exact (passed : List UInt64) (packetId : UInt64) :
    (((run passed).window.checkAndMark packetId).1 = true ↔ packetId ∉ (run passed).accepted ∧
        (latest (passed ++ [packetId]) : Int) - windowBits < packetId.toNat) ∧ (run passed).accepted.Nodup :=
  ⟨((remembers_run passed).checkAndMark packetId).1, (remembers_run passed).nodup⟩

end OutlineProxy.Server
