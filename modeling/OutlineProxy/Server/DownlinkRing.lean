import OutlineProxy.Transport.UplinkReplay

/-! The ring of recently sent downlink chunks.  A push always succeeds: of a chunk that does not fit,
the end is kept. -/

namespace OutlineProxy.Server

open Tail Transport ClientUpstreamRingBuffer

inductive ReplayOutcome where
  | available (bytes : List UInt8)
  | truncated
  | offsetAhead

structure DownlinkRing where
  capacityBytes : Nat
  entries : List (Chunk UInt8) := []
  currentBytes : Nat := 0
  totalSent : Nat := 0

namespace DownlinkRing

def new (capacityBytes : Nat) : DownlinkRing where
  capacityBytes := capacityBytes

def oldestOffset (ring : DownlinkRing) : Nat :=
  oldest ring.totalSent ring.entries

def push (ring : DownlinkRing) (chunk : List UInt8) : DownlinkRing :=
  if chunk = [] then ring
  else if ring.capacityBytes = 0 then { ring with totalSent := ring.totalSent + chunk.length }
  else if ring.capacityBytes ≤ chunk.length then
    let dropPrefix := chunk.length - ring.capacityBytes
    { ring with
      entries := [⟨ring.totalSent + dropPrefix, chunk.drop dropPrefix⟩]
      currentBytes := (chunk.drop dropPrefix).length
      totalSent := ring.totalSent + chunk.length }
  else
    -- the loop of the client's ring; the reuse of an evicted buffer is not modelled
    let (entries, currentBytes) := evict ring.capacityBytes chunk.length ring.entries ring.currentBytes
    { ring with
      entries := entries ++ [⟨ring.totalSent, chunk⟩]
      currentBytes := currentBytes + chunk.length
      totalSent := ring.totalSent + chunk.length }

def replayFrom (ring : DownlinkRing) (offset : Nat) : ReplayOutcome :=
  if ring.totalSent < offset then .offsetAhead
  else if offset = ring.totalSent then .available []
  else if offset < ring.oldestOffset then .truncated
  else .available (readFrom offset ring.entries)

structure Mirrors (ring : DownlinkRing) (stream : List UInt8) : Prop where
  total : ring.totalSent = stream.length
  holds : Holds stream ring.entries
  current : ring.currentBytes = (contents ring.entries).length
  none_kept : ring.capacityBytes = 0 → ring.entries = []

theorem mirrors_new (capacityBytes : Nat) : Mirrors (new capacityBytes) [] :=
  ⟨rfl, holds_nil [], rfl, fun _ => rfl⟩

variable {ring : DownlinkRing} {stream : List UInt8}

theorem Mirrors.push (h : Mirrors ring stream) (chunk : List UInt8) :
    Mirrors (ring.push chunk) (stream ++ chunk) := by
  unfold DownlinkRing.push
  by_cases hempty : chunk = []
  · rw [if_pos hempty, hempty, List.append_nil]
    exact h
  rw [if_neg hempty]
  by_cases hzero : ring.capacityBytes = 0
  · rw [if_pos hzero]
    refine ⟨?_, ?_, h.current, h.none_kept⟩
    · rw [List.length_append, h.total]
    · dsimp only
      rw [h.none_kept hzero]
      exact holds_nil _
  rw [if_neg hzero, h.total]
  by_cases hlarge : ring.capacityBytes ≤ chunk.length
  · rw [if_pos hlarge]
    refine ⟨(List.length_append ..).symm, ?_, by simp, fun hcap => absurd hcap hzero⟩
    exact holds_suffix stream chunk (Nat.sub_le _ _)
  · rw [if_neg hlarge, h.current]
    obtain ⟨hholds, hcurrent⟩ := evict_holds ring.capacityBytes chunk.length h.holds
    refine ⟨(List.length_append ..).symm, hholds.snoc chunk, ?_, fun hcap => absurd hcap hzero⟩
    dsimp only
    rw [hcurrent, contents_append, List.length_append]
    simp

theorem Mirrors.oldest_eq (h : Mirrors ring stream) :
    ring.oldestOffset + (contents ring.entries).length = stream.length := by
  unfold oldestOffset
  rw [h.total]
  exact h.holds.oldest_eq

theorem Mirrors.replayFrom_eq (h : Mirrors ring stream) (offset : Nat) :
    ring.replayFrom offset =
      if stream.length < offset then .offsetAhead
      else if offset < ring.oldestOffset then .truncated
      else .available (stream.drop offset) := by
  unfold DownlinkRing.replayFrom oldestOffset
  rw [h.total]
  exact h.holds.replay offset _ _ _

theorem push_capacity (chunk : List UInt8) : (ring.push chunk).capacityBytes = ring.capacityBytes := by
  grind [DownlinkRing.push]

theorem Mirrors.push_window (h : Mirrors ring stream)
    (hheld : (contents ring.entries).length ≤ ring.capacityBytes) (chunk : List UInt8) :
    (contents (ring.push chunk).entries).length ≤ ring.capacityBytes ∧
      ring.oldestOffset ≤ (ring.push chunk).oldestOffset := by
  have hbefore := h.oldest_eq
  have hafter := (h.push chunk).oldest_eq
  rw [List.length_append] at hafter
  unfold DownlinkRing.push at hafter ⊢
  by_cases hempty : chunk = []
  · simp only [if_pos hempty] at hafter ⊢
    exact ⟨hheld, Nat.le_refl _⟩
  by_cases hzero : ring.capacityBytes = 0
  · simp only [if_neg hempty, if_pos hzero] at hafter ⊢
    exact ⟨hheld, by omega⟩
  by_cases hlarge : ring.capacityBytes ≤ chunk.length
  · grind [contents, List.length_drop]
  · simp only [if_neg hempty, if_neg hzero, if_neg hlarge, h.current] at hafter ⊢
    have hfits := (evict_fits (Nat.le_of_not_le hlarge) ring.entries).1
    have hless := length_evict_le ring.capacityBytes chunk.length ring.entries
    have hchunk : (contents [(⟨ring.totalSent, chunk⟩ : Chunk UInt8)]).length = chunk.length := by
      simp [contents]
    simp only [contents_append, List.length_append, hchunk] at hafter ⊢
    omega

end DownlinkRing

end OutlineProxy.Server
