import OutlineProxy.Tcp.SendQueue

/-! Integrity of the downlink: every packet carries the bytes that belong to its sequence number. -/

namespace OutlineProxy.Tcp

open Serial

variable {stream : Bytes} {isn : UInt32}

/-- A flow with the bytes pushed to it, the packets built for it, how often a FIN was first built, and whether the
upstream has ended. `sent` counts the numbers of first transmissions, `probed` is the end of the last byte probed. -/
structure Downlink where
  state : TcpFlowState
  pushed : Bytes := []
  built : List OutPacket := []
  fins : Nat := 0
  eof : Bool := false
  sent : Nat := 0
  probed : Nat := 0

def Downlink.flush (d : Downlink) (clock : Clock) : Downlink :=
  let flush := (flushServerOutput d.state clock).2
  let sent := d.sent + packetBytes flush.dataPackets + flush.finPacket.toList.length
  { d with
    state := (flushServerOutput d.state clock).1
    built := d.built ++ flushPackets flush
    fins := d.fins + flush.finPacket.toList.length
    sent := sent
    probed := if flush.probePacket.isSome then sent + 1 else d.probed }

def Downlink.resend (d : Downlink) (step : TcpFlowState × Option OutPacket) : Downlink :=
  { d with state := step.1, built := d.built ++ step.2.toList }

def Downlink.probe (d : Downlink) (now : Instant) : Downlink :=
  { d with
    state := (maybeEmitZeroWindowProbe d.state now).1
    built := d.built ++ (maybeEmitZeroWindowProbe d.state now).2.toList
    probed := if (maybeEmitZeroWindowProbe d.state now).2.isSome then d.sent + 1 else d.probed }

/-- The runs of the downlink from the first data sequence number `isn` on.  The upstream reader
pushes chunks until it meets the end of its stream, which it reports once. -/
inductive DownlinkRun (isn : UInt32) : Downlink → Prop
  | start {state : TcpFlowState} : state.serverSeq = isn → state.pendingServerData = [] →
      state.pendingServerBytesTotal = 0 → state.unackedServerSegments = [] →
      state.serverFinPending = false → DownlinkRun isn { state := state }
  | push {d : Downlink} (chunk : Bytes) : DownlinkRun isn d → d.eof = false →
      DownlinkRun isn { d with state := pushServerChunk d.state chunk, pushed := d.pushed ++ chunk }
  | eof {d : Downlink} : DownlinkRun isn d → d.eof = false →
      DownlinkRun isn { d with state := { d.state with serverFinPending := true }, eof := true }
  | flush {d : Downlink} (clock : Clock) : DownlinkRun isn d → DownlinkRun isn (d.flush clock)
  | ack {d : Downlink} (ack : UInt32) (blocks : List (UInt32 × UInt32)) (clock : Clock) :
      DownlinkRun isn d → DownlinkRun isn { d with state := (processServerAck d.state ack blocks clock).1 }
  | fastRetransmit {d : Downlink} (clock : Clock) : DownlinkRun isn d →
      DownlinkRun isn (d.resend (retransmitOldestUnackedPacket d.state clock))
  | timeoutRetransmit {d : Downlink} (clock : Clock) : DownlinkRun isn d →
      DownlinkRun isn (d.resend (retransmitDueSegment d.state clock))
  | probe {d : Downlink} (now : Instant) : DownlinkRun isn d → DownlinkRun isn (d.probe now)
  | other {d : Downlink} {state : TcpFlowState} : DownlinkRun isn d →
      state.sendQueue = d.state.sendQueue → DownlinkRun isn { d with state := state }

/-- Before the FIN the flow is a sender of the stream; after it the stream is complete. -/
inductive Phase (isn : UInt32) (d : Downlink) : Prop
  | data : SendInv d.pushed isn d.sent d.state → d.fins = 0 →
      (d.state.serverFinPending = true → d.eof = true) → (∀ p ∈ d.built, p.flags.fin = false) → Phase isn d
  | finished : FinInv d.pushed isn d.state → d.fins = 1 → d.eof = true → d.sent = d.pushed.length + 1 → Phase isn d

structure DownlinkInv (isn : UInt32) (d : Downlink) : Prop where
  phase : Phase isn d
  carries : ∀ p ∈ d.built, Carries d.pushed isn p
  fin : ∀ p ∈ d.built, p.flags.fin = true → p.sequenceNumber = point isn d.pushed.length ∧ p.payload.flatten = []
  probed : d.probed ≤ d.sent + 1

section Steps

variable {d : Downlink}

theorem DownlinkInv.push (h : DownlinkInv isn d) (heof : d.eof = false) (chunk : Bytes) :
    DownlinkInv isn { d with state := pushServerChunk d.state chunk, pushed := d.pushed ++ chunk } := by
  cases h.phase with
  | finished _ _ he _ => simp [heof] at he
  | data hsend hfins hpending hnofin =>
    refine ⟨.data (hsend.push chunk) hfins hpending hnofin, fun p hp => (h.carries p hp).push chunk,
      fun p hp hf => ?_, h.probed⟩
    simp [hnofin p hp] at hf

theorem DownlinkInv.eof (h : DownlinkInv isn d) (heof : d.eof = false) :
    DownlinkInv isn { d with state := { d.state with serverFinPending := true }, eof := true } := by
  cases h.phase with
  | finished _ _ he _ => simp [heof] at he
  | data hsend hfins hpending hnofin =>
    exact ⟨.data ⟨hsend.serverSeq, hsend.sent_le, hsend.pending, hsend.total, hsend.chain⟩ hfins
      (fun _ => rfl) hnofin, h.carries, h.fin, h.probed⟩

theorem carries_fin {p : OutPacket} (hseq : p.sequenceNumber = point isn stream.length)
    (hpayload : p.payload.flatten = []) : Carries stream isn p :=
  ⟨stream.length, hseq, by simp [hpayload], by simp [hpayload]⟩

theorem DownlinkInv.flush (h : DownlinkInv isn d) (clock : Clock) : DownlinkInv isn (d.flush clock) := by
  have hprobed : (d.flush clock).probed ≤ (d.flush clock).sent + 1 := by
    have := h.probed
    simp only [Downlink.flush]
    split <;> omega
  cases h.phase with
  | finished hfinished hfins heof hsent =>
    obtain ⟨hdata, hnone, hpackets, hdown, hqueue⟩ :=
      flushServerOutput_idle clock hfinished.pending hfinished.finPending
    have hbuilt : (d.flush clock).built = d.built := by simp [Downlink.flush, hpackets]
    refine ⟨.finished (hfinished.of_queue (sendQueue_eq hdown hqueue)) ?_ heof ?_, ?_, ?_, hprobed⟩
    · simp [Downlink.flush, hnone, hfins]
    · simpa [Downlink.flush, hnone, hdata, packetBytes] using hsent
    · rw [hbuilt]
      exact h.carries
    · rw [hbuilt]
      exact h.fin
  | data hsend hfins hpending hnofin =>
    rcases hsend.flushServerOutput clock with
      ⟨hnext, hkeep, hnone, hpackets⟩ | ⟨hfinished, hall, -, hready, ⟨fin, hfin⟩, hpackets⟩
    · have hsent : (d.flush clock).sent = d.sent + packetBytes (flushServerOutput d.state clock).2.dataPackets := by
        simp [Downlink.flush, hnone]
      rw [← hsent] at hnext
      refine ⟨.data hnext ?_ (fun hf => hpending (hkeep ▸ hf)) fun p hp => ?_, fun p hp => ?_,
        fun p hp hf => ?_, hprobed⟩
      · simp [Downlink.flush, hnone, hfins]
      all_goals rcases List.mem_append.1 hp with hp | hp
      · exact hnofin p hp
      · exact (hpackets p hp).2
      · exact h.carries p hp
      · exact (hpackets p hp).1
      · exact h.fin p hp hf
      · simp [(hpackets p hp).2] at hf
    · refine ⟨.finished hfinished ?_ (hpending hready) ?_, fun p hp => ?_, fun p hp hf => ?_, hprobed⟩
      · simp [Downlink.flush, hfin, hfins]
      · simp [Downlink.flush, hfin, hall]
      all_goals rcases List.mem_append.1 hp with hp | hp
      · exact h.carries p hp
      · rcases hpackets p hp with hc | ⟨hseq, hpayload⟩
        · exact hc.1
        · exact carries_fin hseq hpayload
      · exact h.fin p hp hf
      · rcases hpackets p hp with hc | hc
        · simp [hc.2] at hf
        · exact hc

theorem DownlinkInv.ack (h : DownlinkInv isn d) (ack : UInt32) (blocks : List (UInt32 × UInt32)) (clock : Clock) :
    DownlinkInv isn { d with state := (processServerAck d.state ack blocks clock).1 } := by
  have hdown := downSide_processServerAck d.state clock ack blocks
  obtain ⟨popped, hsplit, -⟩ := processServerAck_pops d.state clock ack blocks
  have hsuffix := (⟨popped, hsplit.symm⟩ : _ <:+ d.state.unackedServerSegments)
  refine { h with phase := ?_ }
  cases h.phase with
  | finished hfinished hfins heof hsent =>
    exact .finished (hfinished.congr hdown hsuffix) hfins heof hsent
  | data hsend hfins hpending hnofin =>
    simp only [TcpFlowState.downSide, DownSide.mk.injEq] at hdown
    obtain ⟨-, hdata, hfin, -, hseq, htotal, hmax⟩ := hdown
    obtain ⟨base, hchain⟩ := hsend.chain
    obtain ⟨base', -, hrest⟩ := hchain.suffix hsuffix
    have hmss : serverMaxSegmentPayload (processServerAck d.state ack blocks clock).1 =
        serverMaxSegmentPayload d.state := by
      simp only [serverMaxSegmentPayload, hmax]
    refine .data ⟨hseq.trans hsend.serverSeq, hsend.sent_le, ?_, ?_, base', ?_⟩ hfins
      (fun hf => hpending (hfin ▸ hf)) hnofin
    · rw [hdata]
      exact hsend.pending
    · rw [htotal, hdata]
      exact hsend.total
    · rw [hmss]
      exact hrest

theorem DownlinkInv.send (h : DownlinkInv isn d) {step : TcpFlowState × Option OutPacket} {probed : Nat}
    (hprobed : probed ≤ d.sent + 1) (hkeep : step.1.serverFinPending = d.state.serverFinPending)
    (hsend : ∀ sent, SendInv d.pushed isn sent d.state →
      SendInv d.pushed isn sent step.1 ∧ ∀ p ∈ step.2, CarriesData d.pushed isn p)
    (hfinished : FinInv d.pushed isn d.state → FinInv d.pushed isn step.1 ∧
      ∀ p ∈ step.2, p.sequenceNumber = point isn d.pushed.length ∧ p.payload.flatten = []) :
    DownlinkInv isn { d with state := step.1, built := d.built ++ step.2.toList, probed := probed } := by
  cases h.phase with
  | data hs hfins hpending hnofin =>
    obtain ⟨hnext, hpackets⟩ := hsend d.sent hs
    refine ⟨.data hnext hfins (fun hf => hpending (hkeep ▸ hf)) fun p hp => ?_, fun p hp => ?_,
      fun p hp hf => ?_, hprobed⟩
    all_goals rcases List.mem_append.1 hp with hp | hp
    · exact hnofin p hp
    · exact (hpackets p (Option.mem_toList.1 hp)).2
    · exact h.carries p hp
    · exact (hpackets p (Option.mem_toList.1 hp)).1
    · exact h.fin p hp hf
    · simp [(hpackets p (Option.mem_toList.1 hp)).2] at hf
  | finished hf hfins heof hsent =>
    obtain ⟨hnext, hpackets⟩ := hfinished hf
    refine ⟨.finished hnext hfins heof hsent, fun p hp => ?_, fun p hp hf => ?_, hprobed⟩
    all_goals rcases List.mem_append.1 hp with hp | hp
    · exact h.carries p hp
    · exact carries_fin (hpackets p (Option.mem_toList.1 hp)).1 (hpackets p (Option.mem_toList.1 hp)).2
    · exact h.fin p hp hf
    · exact hpackets p (Option.mem_toList.1 hp)

end Steps

section Run

variable {d : Downlink}

theorem DownlinkInv.start {state : TcpFlowState} (hseq : state.serverSeq = isn)
    (hpending : state.pendingServerData = []) (htotal : state.pendingServerBytesTotal = 0)
    (hqueue : state.unackedServerSegments = []) (hfin : state.serverFinPending = false) :
    DownlinkInv isn { state := state } := by
  have hsend : SendInv [] isn 0 state := by
    refine ⟨by rw [hseq, point_zero], le_rfl, by simp [hpending], by simp [htotal, hpending, chunksLen], 0, ?_⟩
    rw [hqueue]
    exact .nil 0
  exact ⟨.data hsend rfl (fun hf => by simp [hfin] at hf) (by simp), by simp, by simp, by simp⟩

theorem DownlinkInv.resend (h : DownlinkInv isn d) (index : Nat) {mark : ServerSegment → ServerSegment}
    (hmark : ∀ s, SameSegment s (mark s)) : DownlinkInv isn (d.resend (resendSegment d.state index mark)) :=
  h.send h.probed (congrArg DownSide.serverFinPending (downSide_resendSegment d.state index mark))
    (fun _ hs => hs.resend hmark) (fun hf => hf.resend hmark)

theorem DownlinkInv.idle (h : DownlinkInv isn d) : DownlinkInv isn (d.resend (d.state, none)) :=
  h.send h.probed rfl (fun _ hs => ⟨hs, by simp⟩) (fun hf => ⟨hf, by simp⟩)

theorem DownlinkInv.probe (h : DownlinkInv isn d) (now : Instant) : DownlinkInv isn (d.probe now) := by
  have hprobed := h.probed
  refine h.send ?_ ?_ (fun _ hs => hs.probe now) fun hf => ?_
  · split <;> omega
  · unfold maybeEmitZeroWindowProbe
    split
    · rfl
    · split
      · rfl
      · split <;> rfl
  · rw [maybeEmitZeroWindowProbe_idle now hf.pending]
    exact ⟨hf, by simp⟩

theorem DownlinkRun.inv (hd : DownlinkRun isn d) : DownlinkInv isn d := by
  induction hd with
  | start hseq hpending htotal hqueue hfin => exact .start hseq hpending htotal hqueue hfin
  | push chunk _ heof ih => exact ih.push heof chunk
  | eof _ heof ih => exact ih.eof heof
  | flush clock _ ih => exact ih.flush clock
  | ack ack blocks clock _ ih => exact ih.ack ack blocks clock
  | @fastRetransmit d clock _ ih =>
    unfold retransmitOldestUnackedPacket
    split
    · exact ih.idle
    · exact ih.resend _ fun _ => ⟨rfl, rfl, rfl⟩
  | @timeoutRetransmit d clock _ ih =>
    unfold retransmitDueSegment
    split
    · exact ih.idle
    · exact ih.resend _ fun _ => ⟨rfl, rfl, rfl⟩
  | probe now _ ih => exact ih.probe now
  | @other d state _ hq ih =>
    refine { ih with phase := ?_ }
    have hkeep : state.serverFinPending = d.state.serverFinPending := congrArg SendQueue.serverFinPending hq
    cases ih.phase with
    | data hsend hfins hpending hnofin =>
      exact .data (hsend.of_queue hq) hfins (fun hf => hpending (hkeep ▸ hf)) hnofin
    | finished hfinished hfins heof hsent => exact .finished (hfinished.of_queue hq) hfins heof hsent

/-- Every packet built carries the bytes of the pushed stream at its sequence number.  The
unacknowledged segments follow each other up to `serverSeq`, none longer than the segment size, and
with the queued chunks they are the rest of the stream.  The byte counter is the size of the queue.
A FIN is built for the first time once at most, when nothing is queued or unacknowledged, and
always stands at the end of the stream. -/
theorem downlink_integrity (hd : DownlinkRun isn d) : (∀ p ∈ d.built, Carries d.pushed isn p) ∧
      (∃ base stop, Chain isn (fun _ _ => True) base d.state.unackedServerSegments stop ∧
        d.state.serverSeq = isn + UInt32.ofNat stop ∧
        (d.state.unackedServerSegments.map ServerSegment.payload).flatten ++ d.state.pendingServerData.flatten =
          d.pushed.drop base) ∧ (∀ segment ∈ d.state.unackedServerSegments,
        segment.payload.length ≤ serverMaxSegmentPayload d.state) ∧
      d.state.pendingServerBytesTotal = (d.state.pendingServerData.map List.length).sum ∧ d.fins ≤ 1 ∧
      (d.fins = 1 → d.eof = true ∧ d.state.pendingServerData = [] ∧
        d.state.serverSeq = isn + UInt32.ofNat (d.pushed.length + 1)) ∧
      (∀ p ∈ d.built, p.flags.fin = true → d.fins = 1 ∧
        p.sequenceNumber = isn + UInt32.ofNat d.pushed.length ∧ p.payload.flatten = []) ∧
      ∀ clock packet, (maybeEmitServerFin d.state clock).2 = some packet →
        d.fins = 0 ∧ d.eof = true ∧ d.state.pendingServerData = [] ∧ d.state.unackedServerSegments = [] := by
  have h := hd.inv
  refine ⟨h.carries, ?_⟩
  cases h.phase with
  | data hsend hfins hpending hnofin =>
    obtain ⟨base, hchain⟩ := hsend.chain
    have hle := hchain.le
    refine ⟨⟨base, d.sent, hchain.mono fun _ _ _ => trivial, hsend.serverSeq, ?_⟩, fun segment hs => ?_,
      hsend.total, by omega, fun hf => by omega, fun p hp hf => ?_, fun clock packet hf => ?_⟩
    · rw [hchain.payloads, hsend.pending]
      conv_lhs => rw [show d.sent = base + (d.sent - base) by omega, ← List.drop_drop]
      rw [Nat.add_sub_cancel_left, List.take_append_drop]
    · obtain ⟨_, -, -, -, hpiece⟩ := hchain.mem hs
      exact hpiece.le_mss
    · simp [hnofin p hp] at hf
    · obtain ⟨hready, hunacked, hqueue, -⟩ := hsend.emitFin clock hf
      exact ⟨hfins, hpending hready, hqueue, hunacked⟩
  | finished hfinished hfins heof _ =>
    obtain ⟨base, hchain, hpayloads⟩ := hfinished.chain
    refine ⟨⟨base, d.pushed.length + 1, hchain, hfinished.serverSeq, ?_⟩, fun segment hs => ?_, ?_,
      by omega, fun _ => ⟨heof, hfinished.pending, hfinished.serverSeq⟩,
      fun p hp hf => ⟨hfins, h.fin p hp hf⟩, fun clock packet hf => ?_⟩
    · rw [hpayloads, hfinished.pending, List.flatten_nil, List.append_nil]
    · simp [(hfinished.queue segment hs).2.1]
    · simp [hfinished.total, hfinished.pending]
    · simp [maybeEmitServerFin_idle clock hfinished.finPending] at hf

/-- Two chunks are pushed and flushed, and the client acknowledges them before the upstream ends. -/
theorem downlink_integrity_two_chunks :
    let queued : Downlink :=
      { state := pushServerChunk (pushServerChunk sampleFlow [1, 2]) [3], pushed := [1, 2] ++ [3] }
    let sent := queued.flush (Clock.still 0)
    let acked : Downlink := { sent with state := (processServerAck sent.state 1003 [] (Clock.still 1)).1 }
    let ended : Downlink := { acked with state := { acked.state with serverFinPending := true }, eof := true }
    let d := ended.flush (Clock.still 2)
    d.built.map (fun p => (p.sequenceNumber, p.payload.flatten)) = [(1000, [1, 2, 3]), (1003, [])] ∧
      d.fins = 1 ∧ (∀ p ∈ d.built, Carries [1, 2, 3] 1000 p) ∧
      d.state.serverSeq = 1000 + UInt32.ofNat (d.pushed.length + 1) := by
  intro queued sent acked ended d
  have hstart : DownlinkRun 1000 { state := sampleFlow } := .start rfl rfl rfl rfl rfl
  have hqueued : DownlinkRun 1000 queued := (hstart.push [1, 2] rfl).push [3] rfl
  have hsent : DownlinkRun 1000 sent := hqueued.flush (Clock.still 0)
  have hacked : DownlinkRun 1000 acked := hsent.ack 1003 [] (Clock.still 1)
  have hended : DownlinkRun 1000 ended := hacked.eof rfl
  have hd : DownlinkRun 1000 d := hended.flush (Clock.still 2)
  have hfins : d.fins = 1 := by decide +kernel
  exact ⟨by decide +kernel, hfins, (downlink_integrity hd).1, ((downlink_integrity hd).2.2.2.2.2.1 hfins).2.2⟩

end Run

end OutlineProxy.Tcp
