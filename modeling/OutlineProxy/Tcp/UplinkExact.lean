import OutlineProxy.Tcp.Ingest

/-! Uplink reassembly is exact: in whatever order slices of a client stream arrive, the payload handed to the
pump is a prefix of the stream. -/

namespace OutlineProxy.Tcp

open List Serial Reassembly

/-- The packet carries the bytes of `stream` from `offset` on at their sequence number, counted
from `initial`; a FIN stands only at the end of a stream that has one. -/
structure IsSlice (stream : Bytes) (hasFin : Bool) (initial : UInt32) (offset : Nat)
    (packet : ParsedTcpPacket) : Prop where
  sequenceNumber_eq : packet.sequenceNumber = initial + UInt32.ofNat offset
  payload_eq : packet.payload = (stream.drop offset).take packet.payload.length
  inside : offset + packet.payload.length ≤ stream.length
  fin_at_end : packet.flags.fin = true → hasFin = true ∧ offset + packet.payload.length = stream.length

/-- A flow with the client bytes it has handed over and whether it has closed the client's half. -/
structure Uplink where
  state : TcpFlowState
  handed : Bytes := []
  closed : Bool := false

open Uplink

def Uplink.position (u : Uplink) : Nat := u.handed.length + u.closed.toNat

def Uplink.ingest (u : Uplink) (tcp : TunTcpConfig) (packet : ParsedTcpPacket) (clock : Clock) : Uplink where
  state := (ingestSegment u.state tcp packet clock).state
  handed := u.handed ++ (ingestSegment u.state tcp packet clock).delivered.flatten
  closed := u.closed || (ingestSegment u.state tcp packet clock).closedClientHalf

/-- The runs of a flow fed with slices of `stream`, each of which starts, when it arrives, within half the sequence
space of the next expected position. In between the pump drains and the engine works on the flow; a run ends when the
flow is aborted. -/
inductive UplinkRun (tcp : TunTcpConfig) (stream : Bytes) (hasFin : Bool) (initial : UInt32) : Uplink → Prop
  | start {state : TcpFlowState} : state.rcvNxt = initial → state.pendingClientSegments = [] →
      state.receiveWindowCapacity < 2 ^ 31 → UplinkRun tcp stream hasFin initial { state := state }
  | segment {u : Uplink} {packet : ParsedTcpPacket} {offset : Nat} (clock : Clock) :
      UplinkRun tcp stream hasFin initial u → IsSlice stream hasFin initial offset packet →
      u.position ≤ offset + 2 ^ 31 → offset < u.position + 2 ^ 31 →
      (ingestSegment u.state tcp packet clock).fate = .alive →
      UplinkRun tcp stream hasFin initial (u.ingest tcp packet clock)
  | pump {u : Uplink} : UplinkRun tcp stream hasFin initial u →
      UplinkRun tcp stream hasFin initial { u with state := pumpDrain u.state tcp }
  | other {u : Uplink} {state : TcpFlowState} : UplinkRun tcp stream hasFin initial u →
      state.receiveSide = u.state.receiveSide → UplinkRun tcp stream hasFin initial { u with state := state }

/-- The bytes handed over are the prefix of the stream that ends at `rcvNxt`, and the queue holds
slices of the rest of it. -/
structure UplinkInv (stream : Bytes) (hasFin : Bool) (initial : UInt32) (u : Uplink) : Prop where
  rcvNxt : u.state.rcvNxt = point initial u.position
  handed : u.handed <+: stream
  closed : u.closed = true → hasFin = true ∧ u.handed = stream
  capacity : u.state.receiveWindowCapacity < 2 ^ 31
  queue : u.closed = false → ∃ q, QueueInv initial u.handed.length u.state.receiveSide q ∧
    ∀ b ∈ q, Fits stream b ∧ (b.fin = true → hasFin = true)

variable {tcp : TunTcpConfig} {stream : Bytes} {hasFin : Bool} {initial : UInt32}
  {offset : Nat} {packet : ParsedTcpPacket} {state : TcpFlowState} {trimmed : TrimmedSegment}

theorem IsSlice.fits (h : IsSlice stream hasFin initial offset packet)
    (htrim : trimPacketToReceiveWindow state packet = some trimmed) :
    Fits stream ⟨offset, trimmed.payload, trimmed.flags.fin⟩ ∧ (trimmed.flags.fin = true → hasFin = true) := by
  obtain ⟨-, htake, hfin, -⟩ := trim_spec htrim
  have hle : trimmed.payload.length ≤ packet.payload.length := by
    rw [htake]
    exact length_take_le' _ _
  have hin := h.inside
  refine ⟨⟨?_, ?_, fun hf => ?_⟩, fun hf => (h.fin_at_end (hfin hf).1).1⟩
  · simp only
    conv_lhs => rw [htake, h.payload_eq, take_take, Nat.min_eq_left hle]
  · simp only [Block.stop]
    omega
  · simp only [Block.stop, (hfin hf).2]
    exact (h.fin_at_end (hfin hf).1).2

theorem fits_normalBlock {r : Nat} (h : Fits stream ⟨offset, trimmed.payload, trimmed.flags.fin⟩) (h1 : offset ≤ r)
    (hr : r ≤ stream.length) : Fits stream (normalBlock r offset trimmed) := by
  have hstop := h.stop_le
  have hdrop := h.drop (r := r) h1
  simp only [Block.stop] at hstop hdrop
  have hlen : (normalBlock r offset trimmed).data.length = offset + trimmed.payload.length - r := by
    simp only [normalBlock, length_drop]
    omega
  refine ⟨?_, ?_, fun hf => ?_⟩
  · rw [hlen]
    exact hdrop
  · change r + (normalBlock r offset trimmed).data.length ≤ stream.length
    omega
  · simp only [normalBlock, Bool.and_eq_true, decide_eq_true_eq] at hf
    have hend := h.fin_imp hf.1
    change offset + trimmed.payload.length = stream.length at hend
    change r + (normalBlock r offset trimmed).data.length = stream.length
    omega

variable {u : Uplink}

theorem UplinkInv.congr (h : UplinkInv stream hasFin initial u) (he : state.receiveSide = u.state.receiveSide) :
    UplinkInv stream hasFin initial { u with state := state } where
  rcvNxt := (congrArg ReceiveSide.rcvNxt he).trans h.rcvNxt
  handed := h.handed
  closed := h.closed
  capacity := (congrArg ReceiveSide.receiveWindowCapacity he).trans_lt h.capacity
  queue hopen := by
    simp only [he]
    exact h.queue hopen

theorem UplinkInv.start (hr : state.rcvNxt = initial)
    (hq : state.pendingClientSegments = []) (hcap : state.receiveWindowCapacity < 2 ^ 31) :
    UplinkInv stream hasFin initial { state := state } where
  rcvNxt := by simp [position, hr]
  handed := nil_prefix
  closed hc := by simp at hc
  capacity := hcap
  queue _ := by
    refine ⟨[], ⟨?_, ?_, List.Pairwise.nil, ?_, ?_, hcap⟩, ?_⟩
    · simp [TcpFlowState.receiveSide, hr]
    · simp [TcpFlowState.receiveSide, hq]
    all_goals simp

theorem UplinkInv.pump (h : UplinkInv stream hasFin initial u) :
    UplinkInv stream hasFin initial { u with state := pumpDrain u.state tcp } := by
  obtain ⟨hr, hs, hc1, hc2⟩ := pumpDrain_receiveSide u.state tcp
  have hmax := tcp.maxBufferedClientBytes_le
  have hcap := h.capacity
  have hcap' : (pumpDrain u.state tcp).receiveWindowCapacity < 2 ^ 31 := by omega
  refine ⟨hr.trans h.rcvNxt, h.handed, h.closed, hcap', fun hopen => ?_⟩
  obtain ⟨q, hq, hfits⟩ := h.queue hopen
  exact ⟨q, hq.pump tcp, hfits⟩

theorem applyInbound_of_closed (hr : state.rcvNxt = point initial (stream.length + 1))
    (hseq : trimmed.sequenceNumber = point initial offset)
    (h : offset + trimmed.payload.length ≤ stream.length) (hw : stream.length + 1 ≤ offset + 2 ^ 31) :
    applyInbound state trimmed = (state, [], false) := by
  have hn : normalizeTrimmedSegment trimmed state.rcvNxt = ⟨[], false⟩ := by
    rw [normalizeTrimmedSegment, hseq, hr, normalizeClientSegmentParts_point (by omega) hw,
      drop_eq_nil_iff.2 (by omega), decide_eq_false (by omega), Bool.and_false]
  simp [applyInbound, hn]

theorem UplinkInv.deliver
    {data : List Bytes} {u' : Uplink} (h : UplinkInv stream hasFin initial u) (hopen : u.closed = false)
    (hs : IsSlice stream hasFin initial offset packet) (h1 : offset ≤ u.handed.length)
    (h2 : u.handed.length ≤ offset + 2 ^ 31) (htrim : trimPacketToReceiveWindow u.state packet = some trimmed)
    (hhanded : u'.handed = u.handed ++ (applyInbound u.state trimmed).2.1.flatten)
    (hclosed : u'.closed = (applyInbound u.state trimmed).2.2)
    (hside : u'.state.receiveSide = { (applyInbound u.state trimmed).1.receiveSide with
      pendingClientData := data }) :
    UplinkInv stream hasFin initial u' := by
  obtain ⟨q, hq, hfits⟩ := h.queue hopen
  obtain ⟨hlen, hout, hclose, hcap, hdata, hrcv, hreps⟩ := hq.deliver hs.sequenceNumber_eq h1 h2 htrim
  obtain ⟨hf, hfin⟩ := hs.fits htrim
  obtain ⟨rest, hstream⟩ := h.handed
  have hle : u.handed.length ≤ stream.length := by
    rw [← hstream, length_append]
    omega
  have hblocks : ∀ b ∈ normalBlock u.handed.length offset trimmed :: q,
      Fits stream b ∧ (b.fin = true → hasFin = true) := by
    intro b hb
    rcases mem_cons.1 hb with rfl | hb
    · exact ⟨fits_normalBlock hf h1 hle, fun hbf => hfin (Bool.and_eq_true_iff.1 hbf).1⟩
    · exact hfits b hb
  obtain ⟨hflat, hend, hcl⟩ := drain_fits (fun b hb => (hblocks b hb).1) hle
  have hnext := drain_next u.handed.length (normalBlock u.handed.length offset trimmed :: q)
  have hsuffix := drain_rest_suffix u.handed.length (normalBlock u.handed.length offset trimmed :: q)
  have hdrained := fun ho => hq.drained u'.state.receiveSide rfl hlen (by rw [hside]; exact hrcv)
    (by rw [hside]; exact hreps) (by rw [hside]; exact hcap) ho
  rw [hout] at hhanded
  rw [hclose] at hclosed
  generalize drain u.handed.length (normalBlock u.handed.length offset trimmed :: q) = d at *
  have hdrop : stream.drop u.handed.length = rest := by rw [← hstream, drop_left]
  have hpos : u'.position = d.next := by
    rw [position, hhanded, hclosed, length_append, hnext]
  have hcapacity : u'.state.receiveWindowCapacity < 2 ^ 31 := by
    have hc : u'.state.receiveSide.receiveWindowCapacity = u.state.receiveWindowCapacity := by
      rw [hside]
      exact hcap
    exact hc.trans_lt h.capacity
  refine ⟨?_, ?_, fun hc => ?_, hcapacity, fun ho => ?_⟩
  · rw [hpos]
    have hr : u'.state.receiveSide.rcvNxt = point initial d.next := by
      rw [hside]
      exact hrcv
    exact hr
  · rw [hhanded, hflat, hdrop, ← hstream, prefix_append_right_inj]
    exact take_prefix _ _
  · grind [length, length_append, take_of_length_le]
  · grind [position]

theorem UplinkInv.segment {clock : Clock}
    (h : UplinkInv stream hasFin initial u) (hs : IsSlice stream hasFin initial offset packet)
    (h1 : u.position ≤ offset + 2 ^ 31) (h2 : offset < u.position + 2 ^ 31)
    (halive : (ingestSegment u.state tcp packet clock).fate = .alive) :
    UplinkInv stream hasFin initial (u.ingest tcp packet clock) := by
  have hseq : packet.sequenceNumber = point initial offset := hs.sequenceNumber_eq
  have hin := hs.inside
  have hgt : seqGt packet.sequenceNumber u.state.rcvNxt = decide (u.position < offset) := by
    rw [hseq, h.rcvNxt, seqGt_point initial h1 h2]
  rcases ingestSegment_cases halive with
    ⟨hd, hc, hside⟩ | ⟨trimmed, hbeyond, htrim, _, hd, hc, hside⟩ | ⟨trimmed, hbefore, htrim, hd, hc, hside⟩
  · -- the segment is ignored
    simpa [ingest, hd, hc] using h.congr hside
  · -- the segment is queued: its block is a slice of the stream
    rw [hgt, decide_eq_true_iff] at hbeyond
    have hopen : u.closed = false := by
      have hclosed := h.closed
      grind [position]
    have hpos : u.position = u.handed.length := by simp [position, hopen]
    obtain ⟨q, hq, hfits⟩ := h.queue hopen
    have hqueued := (hq.queueSegment hseq (hpos ▸ hbeyond) (hpos ▸ h2) htrim).2
    rw [← hside] at hqueued
    refine ⟨?_, ?_, fun hcl => ?_, hqueued.capacity, fun _ => ⟨_, by simpa [ingest, hd] using hqueued, ?_⟩⟩
    · have hr : (ingestSegment u.state tcp packet clock).state.rcvNxt = _ := hqueued.rcvNxt
      simpa [ingest, position, hd, hc, hopen] using hr
    · simpa [ingest, hd] using h.handed
    · simp [ingest, hc, hopen] at hcl
    · intro b hb
      rcases mem_add hb with hb | hb
      · exact hfits b hb
      · obtain ⟨hf, hfin⟩ := hs.fits htrim
        exact ⟨hf.part hb, fun hbf => hfin (hb.fin_imp hbf).1⟩
  · rw [hgt, decide_eq_false_iff_not, Nat.not_lt] at hbefore
    cases hopen : u.closed with
    | true =>
      have hpos : u.position = stream.length + 1 := by
        rw [position, (h.closed hopen).2, hopen]
        rfl
      obtain ⟨hts, htake, -, -⟩ := trim_spec htrim
      have hle : trimmed.payload.length ≤ packet.payload.length := by
        rw [htake]
        exact length_take_le' _ _
      have he := applyInbound_of_closed (hpos ▸ h.rcvNxt) (hts.trans hseq) (by omega) (by omega)
      rw [deliveredSide, he] at hside
      rw [he] at hd hc
      have hsame : (ingestSegment u.state tcp packet clock).state.receiveSide = u.state.receiveSide := by
        rw [hside]
        simp [TcpFlowState.receiveSide]
      simpa [ingest, hd, hc, hopen] using h.congr hsame
    | false =>
      have hpos : u.position = u.handed.length := by simp [position, hopen]
      refine h.deliver hopen hs (hpos ▸ hbefore) (hpos ▸ h1) htrim ?_ ?_ hside
      · rw [ingest, hd]
      · rw [ingest, hc, hopen, Bool.false_or]

theorem UplinkRun.inv (hu : UplinkRun tcp stream hasFin initial u) :
    UplinkInv stream hasFin initial u := by
  induction hu with
  | start hr hq hcap => exact UplinkInv.start hr hq hcap
  | segment clock _ hs h1 h2 halive ih => exact ih.segment hs h1 h2 halive
  | pump _ ih => exact ih.pump
  | other _ he ih => exact ih.congr he

/-- The payloads handed over so far are the prefix of the stream up to `rcvNxt`, and the client's
half closes only after the whole of the stream. -/
theorem uplink_reassembly_exact {u : Uplink} (hu : UplinkRun tcp stream hasFin initial u) :
    u.handed = stream.take u.handed.length ∧
      u.state.rcvNxt = initial + UInt32.ofNat (u.handed.length + u.closed.toNat) ∧
      (u.closed = true → hasFin = true ∧ u.handed = stream) := by
  have h := hu.inv
  exact ⟨prefix_iff_eq_take.1 h.handed, h.rcvNxt, h.closed⟩

/-- The second half of `[1, 2, 3]` and its FIN arrive before the first byte. -/
theorem uplink_reassembly_exact_out_of_order :
    let late : ParsedTcpPacket := ⟨101, 1000, 65535, none, none, false, [], none, { fin := true, ack := true }, [2, 3]⟩
    let first : ParsedTcpPacket := ⟨100, 1000, 65535, none, none, false, [], none, { ack := true }, [1]⟩
    let u := (ingest { state := sampleFlow } {} late (Clock.still 0)).ingest {} first (Clock.still 1)
    (u.handed = [1, 2, 3] ∧ u.closed = true) ∧ u.handed = [1, 2, 3].take u.handed.length ∧
      u.state.rcvNxt = 100 + UInt32.ofNat (u.handed.length + u.closed.toNat) ∧
      (u.closed = true → true = true ∧ u.handed = [1, 2, 3]) := by
  intro late first u
  have hlate : IsSlice [1, 2, 3] true 100 1 late := ⟨rfl, rfl, by decide, by decide⟩
  have hfirst : IsSlice [1, 2, 3] true 100 0 first := ⟨rfl, rfl, by decide, by decide⟩
  have hstart : UplinkRun {} [1, 2, 3] true 100 { state := sampleFlow } := UplinkRun.start rfl rfl (by decide)
  have hqueued := hstart.segment (Clock.still 0) hlate (by decide) (by decide) (by decide)
  have hu : UplinkRun {} [1, 2, 3] true 100 u :=
    hqueued.segment (Clock.still 1) hfirst (by decide) (by decide) (by decide)
  exact ⟨by decide, uplink_reassembly_exact hu⟩

/-- Sequence numbers repeat after 2 ^ 32 bytes: a slice that far ahead is taken for the next
expected byte. -/
theorem uplink_reassembly_far_slice :
    let stream : Bytes := replicate (2 ^ 32) 0 ++ [1]
    let far : ParsedTcpPacket := ⟨100, 1000, 65535, none, none, false, [], none, { ack := true }, [1]⟩
    sampleFlow.rcvNxt = 100 ∧ sampleFlow.pendingClientSegments = [] ∧
      sampleFlow.receiveWindowCapacity < 2 ^ 31 ∧ IsSlice stream false 100 (2 ^ 32) far ∧
      (ingestSegment sampleFlow {} far (Clock.still 0)).fate = .alive ∧
      (ingest { state := sampleFlow } {} far (Clock.still 0)).handed = [1] ∧ [1] ≠ stream.take [1].length := by
  refine ⟨rfl, rfl, by decide, ⟨rfl, ?_, ?_, fun hf => by simp at hf⟩, by decide, by decide, ?_⟩
  · rw [drop_append_of_le_length (by rw [length_replicate]), drop_eq_nil_of_le (by rw [length_replicate])]
    rfl
  · rw [length_append, length_replicate]
  · simp only [length_singleton]
    decide

end OutlineProxy.Tcp
