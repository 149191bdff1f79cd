import OutlineProxy.Lib.Tail

/-! The ring of recently sent uplink chunks, which mirrors the end of the stream sent so far. -/

namespace OutlineProxy.Transport

open List Tail

inductive PushError where
  | oversizedSingleChunk (chunkLen capacityBytes : Nat)

inductive ReplayError where
  | offsetEvicted (requested oldestAvailable : Nat)
  | offsetAhead (requested totalSent : Nat)

structure ClientUpstreamRingBuffer where
  capacityBytes : Nat
  entries : List (Chunk UInt8) := []
  currentBytes : Nat := 0
  totalSent : Nat := 0

open ClientUpstreamRingBuffer

namespace ClientUpstreamRingBuffer

def new (capacityBytes : Nat) : ClientUpstreamRingBuffer where
  capacityBytes := capacityBytes

def oldestOffset (ring : ClientUpstreamRingBuffer) : Nat :=
  oldest ring.totalSent ring.entries

def evict (capacityBytes len : Nat) : List (Chunk UInt8) → Nat → List (Chunk UInt8) × Nat
  -- the loop of the source would panic on an empty deque; `Mirrors` rules that out
  | [], currentBytes => ([], currentBytes)
  | entry :: rest, currentBytes =>
    if capacityBytes < currentBytes + len then
      evict capacityBytes len rest (currentBytes - entry.payload.length)
    else (entry :: rest, currentBytes)

def evictChecked (capacityBytes len : Nat) :
    List (Chunk UInt8) → Nat → Option (List (Chunk UInt8) × Nat)
  | [], currentBytes => if capacityBytes < currentBytes + len then none else some ([], currentBytes)
  | entry :: rest, currentBytes =>
    if capacityBytes < currentBytes + len then
      evictChecked capacityBytes len rest (currentBytes - entry.payload.length)
    else some (entry :: rest, currentBytes)

def push (ring : ClientUpstreamRingBuffer) (chunk : List UInt8) :
    Except PushError ClientUpstreamRingBuffer :=
  if chunk = [] then .ok ring
  else if ring.capacityBytes < chunk.length then
    .error (.oversizedSingleChunk chunk.length ring.capacityBytes)
  else
    let (entries, currentBytes) := evict ring.capacityBytes chunk.length ring.entries ring.currentBytes
    .ok { ring with
      entries := entries ++ [⟨ring.totalSent, chunk⟩]
      currentBytes := currentBytes + chunk.length
      totalSent := ring.totalSent + chunk.length }

def replayFrom (ring : ClientUpstreamRingBuffer) (offset : Nat) : Except ReplayError (List UInt8) :=
  if ring.totalSent < offset then .error (.offsetAhead offset ring.totalSent)
  else if offset = ring.totalSent then .ok []
  else if offset < ring.oldestOffset then .error (.offsetEvicted offset ring.oldestOffset)
  else .ok (readFrom offset ring.entries)

structure Mirrors (ring : ClientUpstreamRingBuffer) (stream : List UInt8) : Prop where
  total : ring.totalSent = stream.length
  holds : Holds stream ring.entries
  current : ring.currentBytes = (contents ring.entries).length

theorem mirrors_new (capacityBytes : Nat) : Mirrors (new capacityBytes) [] :=
  ⟨rfl, holds_nil [], rfl⟩

theorem length_contents_sub (entry : Chunk UInt8) (rest : List (Chunk UInt8)) :
    (contents (entry :: rest)).length - entry.payload.length = (contents rest).length := by
  rw [contents_cons, length_append]
  omega

theorem evict_holds (capacityBytes len : Nat) {stream : List UInt8} {entries : List (Chunk UInt8)}
    (h : Holds stream entries) :
    let after := evict capacityBytes len entries (contents entries).length
    Holds stream after.1 ∧ after.2 = (contents after.1).length := by
  induction entries with
  | nil => exact ⟨h, rfl⟩
  | cons entry rest ih =>
    have htail := h.tail
    grind [evict, contents, length_contents_sub]

theorem evict_fits {capacityBytes len : Nat} (hlen : len ≤ capacityBytes) (entries : List (Chunk UInt8)) :
    (contents (evict capacityBytes len entries (contents entries).length).1).length + len ≤ capacityBytes ∧
      evictChecked capacityBytes len entries (contents entries).length =
        some (evict capacityBytes len entries (contents entries).length) := by
  induction entries with
  | nil => simp [evict, evictChecked, contents, hlen]
  | cons entry rest ih => grind [evict, evictChecked, contents, length_contents_sub, Nat.le_of_not_lt]

theorem length_evict_le (capacityBytes len : Nat) (entries : List (Chunk UInt8)) :
    (contents (evict capacityBytes len entries (contents entries).length).1).length ≤
      (contents entries).length := by
  induction entries with
  | nil => exact Nat.le_refl _
  | cons entry rest ih => grind [evict, contents, length_contents_sub, contents_cons, length_append]

variable {ring next : ClientUpstreamRingBuffer} {stream chunk : List UInt8}

theorem push_capacity (hpush : ring.push chunk = .ok next) : next.capacityBytes = ring.capacityBytes := by
  grind [push]

theorem push_error_iff : (∃ error, ring.push chunk = .error error) ↔ ring.capacityBytes < chunk.length := by
  unfold push
  by_cases hempty : chunk = []
  · simp [hempty]
  · by_cases hlarge : ring.capacityBytes < chunk.length <;> simp [hempty, hlarge]

section

variable (h : Mirrors ring stream)

include h

theorem Mirrors.push (hpush : ring.push chunk = .ok next) :
    Mirrors next (stream ++ chunk) := by
  unfold ClientUpstreamRingBuffer.push at hpush
  split at hpush
  · rename_i hempty
    cases hpush
    rw [hempty, append_nil]
    exact h
  · split at hpush
    · cases hpush
    · cases hpush
      rw [h.current, h.total]
      obtain ⟨hholds, hcurrent⟩ := evict_holds ring.capacityBytes chunk.length h.holds
      refine ⟨(length_append ..).symm, hholds.snoc chunk, ?_⟩
      dsimp only
      rw [hcurrent, contents_append, length_append]
      simp

theorem Mirrors.oldest_eq :
    ring.oldestOffset + (contents ring.entries).length = stream.length := by
  unfold oldestOffset
  rw [h.total]
  exact h.holds.oldest_eq

theorem Mirrors.replayFrom_eq (offset : Nat) :
    ring.replayFrom offset =
      if stream.length < offset then .error (.offsetAhead offset stream.length)
      else if offset < ring.oldestOffset then .error (.offsetEvicted offset ring.oldestOffset)
      else .ok (stream.drop offset) := by
  unfold replayFrom oldestOffset
  rw [h.total]
  exact h.holds.replay offset _ _ _

theorem Mirrors.replayFrom {offset : Nat} {bytes : List UInt8}
    (hreplay : ring.replayFrom offset = .ok bytes) : offset ≤ stream.length ∧ bytes = stream.drop offset := by
  rw [h.replayFrom_eq] at hreplay
  split at hreplay
  · cases hreplay
  · rename_i hahead
    split at hreplay
    · cases hreplay
    · cases hreplay
      exact ⟨Nat.le_of_not_lt hahead, rfl⟩

theorem Mirrors.push_window
    (hheld : (contents ring.entries).length ≤ ring.capacityBytes) (hpush : ring.push chunk = .ok next) :
    (contents next.entries).length ≤ next.capacityBytes ∧ ring.oldestOffset ≤ next.oldestOffset := by
  have hbefore := h.oldest_eq
  have hafter := (h.push hpush).oldest_eq
  unfold ClientUpstreamRingBuffer.push at hpush
  by_cases hempty : chunk = []
  · rw [if_pos hempty] at hpush
    cases hpush
    exact ⟨hheld, Nat.le_refl _⟩
  rw [if_neg hempty] at hpush
  by_cases hlarge : ring.capacityBytes < chunk.length
  · rw [if_pos hlarge] at hpush
    cases hpush
  rw [if_neg hlarge, h.current] at hpush
  cases hpush
  have hfits := (evict_fits (Nat.le_of_not_lt hlarge) ring.entries).1
  have hless := length_evict_le ring.capacityBytes chunk.length ring.entries
  refine ⟨?_, ?_⟩
  · simpa [contents] using hfits
  · grind [contents]

end

theorem evict_eq_drop (capacityBytes len : Nat) (entries : List (Chunk UInt8)) : ∃ i ≤ entries.length,
      (evict capacityBytes len entries (contents entries).length).1 = entries.drop i ∧
        ∀ j, (contents (entries.drop j)).length + len ≤ capacityBytes → i ≤ j := by
  induction entries with
  | nil => exact ⟨0, Nat.le_refl _, rfl, fun _ _ => Nat.zero_le _⟩
  | cons entry rest ih =>
    unfold evict
    by_cases hfull : capacityBytes < (contents (entry :: rest)).length + len
    · rw [if_pos hfull, length_contents_sub]
      obtain ⟨i, hi, heq, hleast⟩ := ih
      refine ⟨i + 1, Nat.succ_le_succ hi, heq, ?_⟩
      intro j hj
      cases j with
      | zero => exact absurd hj (Nat.not_le.mpr hfull)
      | succ j => exact Nat.succ_le_succ (hleast j hj)
    · rw [if_neg hfull]
      exact ⟨0, Nat.zero_le _, rfl, fun _ _ => Nat.zero_le _⟩

/-- The ring holds the chunks pushed last, and every chunk behind which no more than the capacity
was pushed. -/
def KeepsLast (ring : ClientUpstreamRingBuffer) (chunks : List (List UInt8)) : Prop :=
  ∃ k ≤ chunks.length, ring.entries.map Chunk.payload = chunks.drop k ∧
    ∀ j, (chunks.drop j).flatten.length ≤ ring.capacityBytes → k ≤ j

theorem keepsLast_new (capacityBytes : Nat) : KeepsLast (new capacityBytes) [] :=
  ⟨0, Nat.le_refl _, rfl, fun _ _ => Nat.zero_le _⟩

theorem contents_eq_flatten (entries : List (Chunk UInt8)) :
    contents entries = (entries.map Chunk.payload).flatten := by
  rw [contents, flatMap_def]

theorem KeepsLast.push {chunks : List (List UInt8)} (h : KeepsLast ring chunks) (hmirrors : Mirrors ring stream)
    (hchunk : chunk ≠ []) (hpush : ring.push chunk = .ok next) : KeepsLast next (chunks ++ [chunk]) := by
  obtain ⟨k, hk, hentries, hleast⟩ := h
  unfold ClientUpstreamRingBuffer.push at hpush
  rw [if_neg hchunk] at hpush
  by_cases hlarge : ring.capacityBytes < chunk.length
  · rw [if_pos hlarge] at hpush
    cases hpush
  rw [if_neg hlarge, hmirrors.current] at hpush
  cases hpush
  obtain ⟨i, hi, hevict, hfewest⟩ := evict_eq_drop ring.capacityBytes chunk.length ring.entries
  have hlength : ring.entries.length = chunks.length - k := by
    have := congrArg length hentries
    simpa using this
  refine ⟨k + i, ?_, ?_, ?_⟩
  · rw [length_append]
    omega
  · grind [map_drop, drop_drop]
  · intro j hj
    by_cases hpast : chunks.length < j
    · omega
    rw [drop_append_of_le_length (by omega), flatten_append, length_append] at hj
    have hkj : k ≤ j := hleast j (by dsimp only at hj; omega)
    have hij : i ≤ j - k := by
      apply hfewest
      rw [contents_eq_flatten, map_drop, hentries, drop_drop, Nat.add_sub_cancel' hkj]
      simpa using hj
    omega

theorem KeepsLast.replayFrom {before after : List (List UInt8)} {offset : Nat}
    (h : KeepsLast ring (before ++ after)) (hmirrors : Mirrors ring (before ++ after).flatten)
    (hbefore : before.flatten.length ≤ offset) (hafter : after.flatten.length ≤ ring.capacityBytes)
    (hoffset : offset ≤ (before ++ after).flatten.length) :
    ring.replayFrom offset = .ok ((before ++ after).flatten.drop offset) := by
  obtain ⟨k, hk, hentries, hleast⟩ := h
  have hkept : k ≤ before.length := hleast before.length (by rwa [drop_left])
  have holdest := hmirrors.holds.oldest_eq
  rw [contents_eq_flatten, hentries, drop_append_of_le_length hkept, flatten_append,
    flatten_append, length_append, length_append] at holdest
  rw [hmirrors.replayFrom_eq, if_neg (Nat.not_lt.mpr hoffset), if_neg]
  rw [oldestOffset, hmirrors.total, flatten_append, length_append]
  omega

end ClientUpstreamRingBuffer

end OutlineProxy.Transport
