import OutlineProxy.Tcp.Frames
import OutlineProxy.Tcp.Reassembly

/-! What one inbound segment does to the receive side of a flow, stated on stream positions. -/

namespace OutlineProxy.Tcp

open Serial Reassembly TcpFlowState

theorem bufferedClientBytes_congr {s t : TcpFlowState} (h : s.receiveSide = t.receiveSide) :
    bufferedClientBytes s = bufferedClientBytes t := by
  simp only [receiveSide, ReceiveSide.mk.injEq] at h
  simp only [bufferedClientBytes, h]

variable {packet : ParsedTcpPacket} {trimmed : TrimmedSegment} {state : TcpFlowState} {isn : UInt32} {r : Nat}

theorem trim_spec (h : trimPacketToReceiveWindow state packet = some trimmed) :
    trimmed.sequenceNumber = packet.sequenceNumber ∧ trimmed.payload = packet.payload.take trimmed.payload.length ∧
      (trimmed.flags.fin = true → packet.flags.fin = true ∧ trimmed.payload = packet.payload) ∧
      ((trimmed.payload = [] ∧ trimmed.flags.fin = false) ∨
        (seqGe packet.sequenceNumber (receiveWindowEnd state) = false ∧
          trimmed.payload.length ≤ (receiveWindowEnd state - packet.sequenceNumber).toNat)) := by
  grind [trimPacketToReceiveWindow]

def receiveRoom (state : TcpFlowState) : Nat := state.receiveWindowCapacity - bufferedClientBytes state

theorem receiveRoom_le (state : TcpFlowState) : receiveRoom state ≤ state.receiveSide.receiveWindowCapacity :=
  Nat.sub_le _ _

theorem receiveWindowEnd_point
    (hr : state.rcvNxt = point isn r) : receiveWindowEnd state = point isn (r + receiveRoom state) := by
  rw [receiveWindowEnd, hr, point_add, receiveRoom]

/-- The part of a packet at or after the next expected position `r`, as a block at `r`. -/
def normalBlock (r offset : Nat) (trimmed : TrimmedSegment) : Block UInt8 :=
  ⟨r, trimmed.payload.drop (r - offset), trimmed.flags.fin && decide (r ≤ offset + trimmed.payload.length)⟩

variable {offset : Nat}

theorem applyInbound_drain {q : List (Block UInt8)} (hr : state.rcvNxt = point isn r)
    (ht : trimmed.sequenceNumber = point isn offset) (ho : offset ≤ r) (hw : r ≤ offset + 2 ^ 31)
    (hreps : Reps isn state.pendingClientSegments q) (hq : ∀ b ∈ q, r < b.pos)
    (hnear : Near r (normalBlock r offset trimmed :: q)) :
    ∃ rest, Reps isn rest (drain r (normalBlock r offset trimmed :: q)).rest ∧ applyInbound state trimmed =
        ({ state with
            rcvNxt := point isn (drain r (normalBlock r offset trimmed :: q)).next
            pendingClientSegments := rest }, (drain r (normalBlock r offset trimmed :: q)).out,
          (drain r (normalBlock r offset trimmed :: q)).closed) := by
  have hn : normalizeTrimmedSegment trimmed state.rcvNxt =
      ⟨(normalBlock r offset trimmed).data, (normalBlock r offset trimmed).fin⟩ := by
    rw [normalizeTrimmedSegment, ht, hr, normalizeClientSegmentParts_point ho hw]
    rfl
  have hpos : (normalBlock r offset trimmed).pos = r := rfl
  generalize normalBlock r offset trimmed = b at hnear hn hpos ⊢
  have hstop : b.stop = r + b.data.length := by rw [Block.stop, hpos]
  have hqnear : Near r q := fun z hz => hnear z (List.mem_cons_of_mem _ hz)
  obtain ⟨hb1, hb2⟩ := hnear b List.mem_cons_self
  have hfin : (b.fin && decide (r ≤ b.stop)) = b.fin := by
    rw [decide_eq_true (by omega), Bool.and_true]
  have hidle : drain r q = ⟨r, q, [], false⟩ := by
    cases q with
    | nil => rfl
    | cons x xs => rw [drain, if_pos (hq x List.mem_cons_self)]
  rw [applyInbound, hn, drain, if_neg (by omega), hpos, Nat.sub_self, List.drop_zero, hfin]
  dsimp only
  by_cases hskip : (b.data.isEmpty && !b.fin) = true
  · rw [if_pos hskip, if_pos hskip, hidle]
    refine ⟨state.pendingClientSegments, hreps, ?_⟩
    simp only [← hr]
  · rw [if_neg hskip, if_neg hskip, hr, applyClientSegment_point]
    cases hf : b.fin with
    | true => exact ⟨state.pendingClientSegments, by simpa using hreps, by simp⟩
    | false =>
      obtain ⟨rest, hrest, he⟩ := hreps.drain hqnear (show r ≤ r + b.data.length by omega) (by omega)
        ([] ++ if b.data.isEmpty then [] else [b.data])
      refine ⟨rest, by simpa using hrest, ?_⟩
      simp only [drainReadyBufferedSegmentsFromState, Bool.toNat_false, Nat.add_zero, he]
      simp

/-- The receive side with the payload of the segment handed over. -/
abbrev deliveredSide (state : TcpFlowState) (trimmed : TrimmedSegment) : ReceiveSide :=
  { (applyInbound state trimmed).1.receiveSide with
    pendingClientData := (applyInbound state trimmed).1.pendingClientData ++ (applyInbound state trimmed).2.1 }

theorem deliverSegment_receiveSide {tcp : TunTcpConfig}
    {clock : Clock} (halive : (deliverSegment state tcp trimmed clock).fate = .alive) :
    (deliverSegment state tcp trimmed clock).delivered = (applyInbound state trimmed).2.1 ∧
      (deliverSegment state tcp trimmed clock).closedClientHalf = (applyInbound state trimmed).2.2 ∧
      (deliverSegment state tcp trimmed clock).state.receiveSide = deliveredSide state trimmed := by
  obtain ⟨hout, hclose, hside⟩ :
      (applyInboundAndFlush state trimmed clock).2.pendingPayload = (applyInbound state trimmed).2.1 ∧
      (applyInboundAndFlush state trimmed clock).2.shouldCloseClientHalf = (applyInbound state trimmed).2.2 ∧
      (applyInboundAndFlush state trimmed clock).1.receiveSide = (applyInbound state trimmed).1.receiveSide :=
    ⟨rfl, rfl, by simp [applyInboundAndFlush]⟩
  have hdata : ∀ s : TcpFlowState, s.receiveSide = (applyInbound state trimmed).1.receiveSide → ∀ payload,
      receiveSide { s with pendingClientData := s.pendingClientData ++ payload } =
        { (applyInbound state trimmed).1.receiveSide with
          pendingClientData := (applyInbound state trimmed).1.pendingClientData ++ payload } := by
    intro s hs payload
    simp only [receiveSide, ReceiveSide.mk.injEq] at hs ⊢
    simp [hs]
  unfold deliverSegment at halive ⊢
  generalize applyInboundAndFlush state trimmed clock = result at halive hout hclose hside ⊢
  dsimp only at halive hout hclose hside ⊢
  split_ifs at halive ⊢ with hexceeded hc
  · simp [abortFlow] at halive
  · simp [abortFlow] at halive
  · grind [receiveSide_commitFlowChanges, receiveSide_transitionOnClientFin]
  · grind [receiveSide_commitFlowChanges]

theorem queueFutureSegmentWithRecvWindow_cases (state : TcpFlowState) (tcp : TunTcpConfig)
    (packet : ParsedTcpPacket) : (trimPacketToReceiveWindow state packet = none ∧
      queueFutureSegmentWithRecvWindow state tcp packet = (state, .outsideWindow)) ∨
    (∃ trimmed, trimPacketToReceiveWindow state packet = some trimmed ∧
      queueFutureSegmentWithRecvWindow state tcp packet = (state, .wouldExceedLimits)) ∨
    (∃ trimmed, trimPacketToReceiveWindow state packet = some trimmed ∧
      state.pendingClientSegments.length + additionalSegments trimmed ≤ tcp.maxBufferedClientSegments ∧
      bufferedClientBytes state + trimmed.payload.length ≤ tcp.maxBufferedClientBytes ∧
      queueFutureSegmentWithRecvWindow state tcp packet = ({ state with
          pendingClientSegments := queueFutureSegment state.pendingClientSegments trimmed state.rcvNxt },
          .queued)) := by
  grind [trimPacketToReceiveWindow, queueFutureSegmentWithRecvWindow, additionalSegments, bufferedClientBytes]

theorem ingestSegment_cases {tcp : TunTcpConfig}
    {clock : Clock} (halive : (ingestSegment state tcp packet clock).fate = .alive) :
    let step := ingestSegment state tcp packet clock
    (step.delivered = [] ∧ step.closedClientHalf = false ∧ step.state.receiveSide = state.receiveSide) ∨
    (∃ trimmed, seqGt packet.sequenceNumber state.rcvNxt = true ∧
      trimPacketToReceiveWindow state packet = some trimmed ∧
      (queueFutureSegmentWithRecvWindow state tcp packet).2 = .queued ∧
      step.delivered = [] ∧ step.closedClientHalf = false ∧ step.state.receiveSide = { state.receiveSide with
        pendingClientSegments := queueFutureSegment state.pendingClientSegments trimmed state.rcvNxt }) ∨
    (∃ trimmed, seqGt packet.sequenceNumber state.rcvNxt = false ∧
      trimPacketToReceiveWindow state packet = some trimmed ∧ step.delivered = (applyInbound state trimmed).2.1 ∧
      step.closedClientHalf = (applyInbound state trimmed).2.2 ∧
      step.state.receiveSide = deliveredSide state trimmed) := by
  dsimp only
  have hreply : ∀ s : TcpFlowState, let reply := commitAndReply (clearDelayedAck s) tcp (clock.reading 0) pureAck
      reply.delivered = [] ∧ reply.closedClientHalf = false ∧ reply.state.receiveSide = s.receiveSide := by
    intro s
    simp [commitAndReply]
  cases hgt : seqGt packet.sequenceNumber state.rcvNxt with
  | true =>
    rcases queueFutureSegmentWithRecvWindow_cases state tcp packet with
      ⟨_, hq⟩ | ⟨_, _, hq⟩ | ⟨trimmed, htrim, _, _, hq⟩
    · grind [ingestSegment, commitAndReply, clearDelayedAck, pureAck, classifyInboundSegment]
    · simp [ingestSegment, classifyInboundSegment, hgt, hq, abortFlow] at halive
    · have he := hreply { state with
        pendingClientSegments := queueFutureSegment state.pendingClientSegments trimmed state.rcvNxt }
      refine Or.inr (Or.inl ⟨trimmed, rfl, htrim, by rw [hq], ?_⟩)
      simp only [ingestSegment, classifyInboundSegment, hgt, if_true, hq]
      exact he
  | false =>
    cases htrim : trimPacketToReceiveWindow state packet with
    | none => grind [ingestSegment, commitAndReply, clearDelayedAck, pureAck, classifyInboundSegment]
    | some trimmed => grind [ingestSegment, deliverSegment, classifyInboundSegment, deliverSegment_receiveSide]

/-- The receive side stands at position `r` of the stream that starts at `isn`: its queue is
the sorted list `q` of blocks, all beyond `r` and inside the receive window. -/
structure QueueInv (isn : UInt32) (r : Nat) (side : ReceiveSide) (q : List (Block UInt8)) : Prop where
  rcvNxt : side.rcvNxt = point isn r
  reps : Reps isn side.pendingClientSegments q
  sorted : Sorted q
  beyond : ∀ b ∈ q, r < b.pos
  inside : ∀ b ∈ q, b.stop ≤ r + side.receiveWindowCapacity
  capacity : side.receiveWindowCapacity < 2 ^ 31

namespace QueueInv

variable {q : List (Block UInt8)}

theorem near (h : QueueInv isn r state.receiveSide q) : Near r q := by
  intro b hb
  have h1 := h.beyond b hb
  have h2 := h.inside b hb
  have h3 := h.capacity
  omega

section

variable (h : QueueInv isn r state.receiveSide q)

include h

theorem queueSegment (hseq : packet.sequenceNumber = point isn offset) (h1 : r < offset) (h2 : offset < r + 2 ^ 31)
    (htrim : trimPacketToReceiveWindow state packet = some trimmed) :
    (trimmed.payload = [] ∧ trimmed.flags.fin = false ∨ offset + trimmed.payload.length ≤ r + receiveRoom state) ∧
      QueueInv isn r { state.receiveSide with
        pendingClientSegments := queueFutureSegment state.pendingClientSegments trimmed state.rcvNxt }
        (add q ⟨offset, trimmed.payload, trimmed.flags.fin⟩) := by
  have hcap := h.capacity
  have hroom := receiveRoom_le state
  obtain ⟨hts, -, -, hwin⟩ := trim_spec htrim
  have hfits : trimmed.payload = [] ∧ trimmed.flags.fin = false ∨
      offset + trimmed.payload.length ≤ r + receiveRoom state := by
    rcases hwin with hempty | ⟨hge, hlen⟩
    · exact Or.inl hempty
    · rw [receiveWindowEnd_point h.rcvNxt, hseq, seqGe_point isn (by omega) (by omega),
        decide_eq_false_iff_not] at hge
      rw [receiveWindowEnd_point h.rcvNxt, hseq, toNat_point_sub_point isn (by omega) (by omega)] at hlen
      omega
  refine ⟨hfits, ?_⟩
  have hrcv : state.rcvNxt = point isn r := h.rcvNxt
  rcases hfits with ⟨hd, hf⟩ | hend
  · have hsame : queueFutureSegment state.pendingClientSegments trimmed state.rcvNxt =
        state.pendingClientSegments := by
      simp [queueFutureSegment, hd, hf]
    rw [hsame, hd, hf, add_of_isEmpty rfl rfl]
    exact h
  · have hb : Near r [⟨offset, trimmed.payload, trimmed.flags.fin⟩] := by
      intro b hb
      rw [List.mem_singleton.1 hb]
      simp only [Block.stop]
      omega
    refine ⟨h.rcvNxt, ?_, h.sorted.add _, fun b hm => ?_, fun b hm => ?_, hcap⟩
    · simp only [hrcv]
      exact h.reps.queueFutureSegment h.near ⟨hts.trans hseq, rfl, rfl⟩ hb
    · rcases mem_add hm with hm | hm
      · exact h.beyond b hm
      · exact h1.trans_le hm.pos_le
    · rcases mem_add hm with hm | hm
      · exact h.inside b hm
      · have := hm.stop_le
        simp only [Block.stop] at this ⊢
        omega

theorem deliver (hseq : packet.sequenceNumber = point isn offset) (h1 : offset ≤ r) (h2 : r ≤ offset + 2 ^ 31)
    (htrim : trimPacketToReceiveWindow state packet = some trimmed) :
    (normalBlock r offset trimmed).data.length ≤ receiveRoom state ∧
      (applyInbound state trimmed).2.1 = (drain r (normalBlock r offset trimmed :: q)).out ∧
      (applyInbound state trimmed).2.2 = (drain r (normalBlock r offset trimmed :: q)).closed ∧
      (applyInbound state trimmed).1.receiveWindowCapacity = state.receiveWindowCapacity ∧
      (applyInbound state trimmed).1.pendingClientData = state.pendingClientData ∧
      (applyInbound state trimmed).1.rcvNxt = point isn (drain r (normalBlock r offset trimmed :: q)).next ∧
      Reps isn (applyInbound state trimmed).1.pendingClientSegments
        (drain r (normalBlock r offset trimmed :: q)).rest := by
  have hcap := h.capacity
  have hroom := receiveRoom_le state
  obtain ⟨hts, -, -, hwin⟩ := trim_spec htrim
  have hdata : (normalBlock r offset trimmed).data.length = trimmed.payload.length - (r - offset) :=
    List.length_drop ..
  have hlen : (normalBlock r offset trimmed).data.length ≤ receiveRoom state := by
    rcases hwin with ⟨hd, -⟩ | ⟨hge, hlen⟩
    · simp [hdata, hd]
    · rw [receiveWindowEnd_point h.rcvNxt, hseq, toNat_point_sub_point isn (by omega) (by omega)] at hlen
      omega
  have hnear : Near r (normalBlock r offset trimmed :: q) := by
    intro b hb
    rcases List.mem_cons.1 hb with rfl | hb
    · simp only [Block.stop]
      exact ⟨le_rfl, by simp only [normalBlock] at hlen ⊢; omega⟩
    · exact h.near b hb
  obtain ⟨rest, hrest, he⟩ := applyInbound_drain h.rcvNxt (hts.trans hseq) h1 h2 h.reps h.beyond hnear
  rw [he]
  exact ⟨hlen, rfl, rfl, rfl, rfl, rfl, hrest⟩

theorem drained (side : ReceiveSide) {b : Block UInt8} (hpos : b.pos = r) (hlen : b.data.length ≤ receiveRoom state)
    (hrcv : side.rcvNxt = point isn (drain r (b :: q)).next)
    (hreps : Reps isn side.pendingClientSegments (drain r (b :: q)).rest)
    (hside : side.receiveWindowCapacity = state.receiveWindowCapacity) (hopen : (drain r (b :: q)).closed = false) :
    QueueInv isn (drain r (b :: q)).next side (drain r (b :: q)).rest := by
  have hroom := receiveRoom_le state
  have hsuffix := drain_rest_suffix r (b :: q)
  have hsorted : Sorted (b :: q) := List.pairwise_cons.2 ⟨fun x hx => hpos ▸ (h.beyond x hx).le, h.sorted⟩
  have hnext := drain_next r (b :: q)
  refine ⟨hrcv, hreps, hsorted.sublist hsuffix.sublist, fun x hx => drain_rest_beyond hsorted hopen hx,
    fun x hx => ?_, hside ▸ h.capacity⟩
  have hbound : x.stop ≤ r + state.receiveSide.receiveWindowCapacity := by
    have hinside := h.inside
    grind [Block.stop]
  rw [hside]
  exact hbound.trans (by simp only [receiveSide]; omega)

end

end QueueInv

theorem popBatch_bytes (batchBytes : Nat) (chunks : List Bytes) :
    ((popBatch batchBytes chunks).2.map List.length).sum ≤ (chunks.map List.length).sum := by
  induction chunks generalizing batchBytes with
  | nil => simp [popBatch]
  | cons chunk rest ih => grind [popBatch]

theorem pumpDrain_receiveSide (state : TcpFlowState) (tcp : TunTcpConfig) :
    (pumpDrain state tcp).rcvNxt = state.rcvNxt ∧
      (pumpDrain state tcp).pendingClientSegments = state.pendingClientSegments ∧
      state.receiveWindowCapacity ≤ (pumpDrain state tcp).receiveWindowCapacity ∧
      (pumpDrain state tcp).receiveWindowCapacity ≤ max state.receiveWindowCapacity tcp.maxBufferedClientBytes := by
  have hmax := tcp.maxBufferedClientBytes_le
  simp only [pumpDrain, growReceiveWindow]
  split_ifs with hh
  · refine ⟨rfl, rfl, ?_, ?_⟩
    all_goals simp only [satAdd, usizeMax]; omega
  · exact ⟨rfl, rfl, le_rfl, le_max_left _ _⟩

theorem bufferedClientBytes_pumpDrain_le (state : TcpFlowState) (tcp : TunTcpConfig) :
    bufferedClientBytes (pumpDrain state tcp) ≤ bufferedClientBytes state := by
  have hh := popBatch_bytes 0 state.pendingClientData
  simp only [pumpDrain, growReceiveWindow]
  split_ifs
  all_goals
    simp only [bufferedClientBytes]
    omega

theorem QueueInv.pump {q : List (Block UInt8)} (h : QueueInv isn r state.receiveSide q) (tcp : TunTcpConfig) :
    QueueInv isn r (pumpDrain state tcp).receiveSide q := by
  obtain ⟨hr, hs, hc1, hc2⟩ := pumpDrain_receiveSide state tcp
  have hmax := tcp.maxBufferedClientBytes_le
  have hcap : state.receiveWindowCapacity < 2 ^ 31 := h.capacity
  refine ⟨hr.trans h.rcvNxt, ?_, h.sorted, h.beyond, fun b hb => ?_, ?_⟩
  · simp only [receiveSide, hs]
    exact h.reps
  · exact (h.inside b hb).trans (Nat.add_le_add_left hc1 _)
  · simp only [receiveSide]
    omega

end OutlineProxy.Tcp
