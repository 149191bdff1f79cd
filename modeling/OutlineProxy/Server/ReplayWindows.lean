import OutlineProxy.Server.DownlinkRing

/-! Runs of pushes into the two replay rings, each a window onto the end of the stream it accepted. -/

namespace OutlineProxy.Transport.ClientUpstreamRingBuffer

open Tail

def record (state : ClientUpstreamRingBuffer × List UInt8) (chunk : List UInt8) :
    ClientUpstreamRingBuffer × List UInt8 :=
  match state.1.push chunk with
  | .ok next => (next, state.2 ++ chunk)
  | .error _ => state

def pushAll (capacityBytes : Nat) (chunks : List (List UInt8)) : ClientUpstreamRingBuffer × List UInt8 :=
  chunks.foldl record (new capacityBytes, [])

structure Windowed (capacityBytes : Nat) (state : ClientUpstreamRingBuffer × List UInt8) : Prop where
  mirrors : Mirrors state.1 state.2
  capacity : state.1.capacityBytes = capacityBytes
  held : (contents state.1.entries).length ≤ capacityBytes

variable {capacityBytes : Nat} {state : ClientUpstreamRingBuffer × List UInt8}

theorem Windowed.record (h : Windowed capacityBytes state) (chunk : List UInt8) :
    Windowed capacityBytes (record state chunk) := by
  unfold ClientUpstreamRingBuffer.record
  cases hpush : state.1.push chunk with
  | error _ => exact h
  | ok next =>
    have hheld := (h.mirrors.push_window (h.capacity.symm ▸ h.held) hpush).1
    have hcapacity : next.capacityBytes = capacityBytes := (push_capacity hpush).trans h.capacity
    exact ⟨h.mirrors.push hpush, hcapacity, hcapacity ▸ hheld⟩

theorem Windowed.foldl_record (h : Windowed capacityBytes state) (chunks : List (List UInt8)) :
    Windowed capacityBytes (chunks.foldl ClientUpstreamRingBuffer.record state) := by
  induction chunks generalizing state with
  | nil => exact h
  | cons chunk rest ih => exact ih (h.record chunk)

theorem windowed_pushAll (capacityBytes : Nat) (chunks : List (List UInt8)) :
    Windowed capacityBytes (pushAll capacityBytes chunks) := by
  have hnew : Windowed capacityBytes (new capacityBytes, []) := ⟨mirrors_new capacityBytes, rfl, Nat.zero_le _⟩
  exact hnew.foldl_record chunks

theorem Windowed.next_push (h : Windowed capacityBytes state) (chunk : List UInt8) :
    if capacityBytes < chunk.length then
      state.1.push chunk = .error (.oversizedSingleChunk chunk.length capacityBytes)
    else
      ∃ next, state.1.push chunk = .ok next ∧ state.1.oldestOffset ≤ next.oldestOffset ∧
        evictChecked capacityBytes chunk.length state.1.entries state.1.currentBytes =
          some (evict capacityBytes chunk.length state.1.entries state.1.currentBytes) := by
  by_cases hlarge : capacityBytes < chunk.length
  · have hempty : chunk ≠ [] := List.ne_nil_of_length_pos (by omega)
    simp [hlarge, ClientUpstreamRingBuffer.push, h.capacity, hempty]
  · rw [if_neg hlarge]
    cases hpush : state.1.push chunk with
    | error error => exact absurd (h.capacity ▸ push_error_iff.mp ⟨error, hpush⟩) hlarge
    | ok next =>
      refine ⟨next, rfl, (h.mirrors.push_window (h.capacity.symm ▸ h.held) hpush).2, ?_⟩
      rw [h.mirrors.current]
      exact (evict_fits (Nat.le_of_not_lt hlarge) state.1.entries).2

end OutlineProxy.Transport.ClientUpstreamRingBuffer

namespace OutlineProxy.Server

open Tail Transport

namespace DownlinkRing

def pushAll (capacityBytes : Nat) (chunks : List (List UInt8)) : DownlinkRing :=
  chunks.foldl push (new capacityBytes)

structure Windowed (capacityBytes : Nat) (ring : DownlinkRing) (stream : List UInt8) : Prop where
  mirrors : Mirrors ring stream
  capacity : ring.capacityBytes = capacityBytes
  held : (contents ring.entries).length ≤ capacityBytes

variable {capacityBytes : Nat} {ring : DownlinkRing} {stream : List UInt8}

theorem Windowed.push (h : Windowed capacityBytes ring stream) (chunk : List UInt8) :
    Windowed capacityBytes (ring.push chunk) (stream ++ chunk) := by
  have hheld := (h.mirrors.push_window (h.capacity.symm ▸ h.held) chunk).1
  exact ⟨h.mirrors.push chunk, (push_capacity chunk).trans h.capacity, h.capacity ▸ hheld⟩

theorem Windowed.foldl_push (h : Windowed capacityBytes ring stream) (chunks : List (List UInt8)) :
    Windowed capacityBytes (chunks.foldl DownlinkRing.push ring) (stream ++ chunks.flatten) := by
  induction chunks generalizing ring stream with
  | nil => simpa using h
  | cons chunk rest ih =>
    rw [List.flatten_cons, ← List.append_assoc]
    exact ih (h.push chunk)

theorem windowed_pushAll (capacityBytes : Nat) (chunks : List (List UInt8)) :
    Windowed capacityBytes (pushAll capacityBytes chunks) chunks.flatten := by
  have hnew : Windowed capacityBytes (new capacityBytes) [] := ⟨mirrors_new capacityBytes, rfl, Nat.zero_le _⟩
  exact hnew.foldl_push chunks

end DownlinkRing

/-- Both replay rings are windows onto the stream of the accepted bytes, after any pushes. -/
theorem replay_rings_window_stream (capacityBytes : Nat) (chunks : List (List UInt8)) :
    (∃ ring stream, ClientUpstreamRingBuffer.pushAll capacityBytes chunks = (ring, stream) ∧
      (∀ offset, ring.replayFrom offset =
        if stream.length < offset then .error (.offsetAhead offset stream.length)
        else if offset < ring.oldestOffset then .error (.offsetEvicted offset ring.oldestOffset)
        else .ok (stream.drop offset)) ∧
      ring.oldestOffset ≤ stream.length ∧ stream.length - ring.oldestOffset ≤ capacityBytes ∧
      ∀ chunk, if capacityBytes < chunk.length then
          ring.push chunk = .error (.oversizedSingleChunk chunk.length capacityBytes)
        else
          ∃ next, ring.push chunk = .ok next ∧ ring.oldestOffset ≤ next.oldestOffset ∧
            ClientUpstreamRingBuffer.evictChecked capacityBytes chunk.length ring.entries ring.currentBytes =
              some (ClientUpstreamRingBuffer.evict capacityBytes chunk.length ring.entries
                ring.currentBytes)) ∧
    ∃ ring stream, DownlinkRing.pushAll capacityBytes chunks = ring ∧ stream = chunks.flatten ∧
      (∀ offset, ring.replayFrom offset =
        if stream.length < offset then .offsetAhead
        else if offset < ring.oldestOffset then .truncated
        else .available (stream.drop offset)) ∧
      ring.oldestOffset ≤ stream.length ∧ stream.length - ring.oldestOffset ≤ capacityBytes ∧
      ∀ chunk, ring.oldestOffset ≤ (ring.push chunk).oldestOffset ∧ (chunk.length ≤ capacityBytes →
          ClientUpstreamRingBuffer.evictChecked capacityBytes chunk.length ring.entries ring.currentBytes =
            some (ClientUpstreamRingBuffer.evict capacityBytes chunk.length ring.entries
              ring.currentBytes)) := by
  have hclient := ClientUpstreamRingBuffer.windowed_pushAll capacityBytes chunks
  have hserver := DownlinkRing.windowed_pushAll capacityBytes chunks
  have holdest := hclient.mirrors.oldest_eq
  have hheld := hclient.held
  have holdest' := hserver.mirrors.oldest_eq
  have hheld' := hserver.held
  refine ⟨⟨(ClientUpstreamRingBuffer.pushAll capacityBytes chunks).1,
      (ClientUpstreamRingBuffer.pushAll capacityBytes chunks).2, rfl, hclient.mirrors.replayFrom_eq,
      by omega, by omega, hclient.next_push⟩,
    DownlinkRing.pushAll capacityBytes chunks, chunks.flatten, rfl, rfl, hserver.mirrors.replayFrom_eq,
    by omega, by omega, ?_⟩
  intro chunk
  refine ⟨(hserver.mirrors.push_window (hserver.capacity.symm ▸ hserver.held) chunk).2, ?_⟩
  intro hfits
  rw [hserver.mirrors.current]
  exact (ClientUpstreamRingBuffer.evict_fits hfits _).2

end OutlineProxy.Server
