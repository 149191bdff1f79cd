import OutlineProxy.Tcp.InFlight

/-! Why a flush stops: the queue is empty, the pacer is armed, something is in flight, or no window was
available. -/

namespace OutlineProxy.Tcp

variable {state : TcpFlowState} {clock : Clock}

theorem length_takeChunks_le (target slots : Nat) (chunks : List Bytes) :
    (takeChunks target slots chunks).2.length ≤ chunks.length := by
  induction chunks generalizing target slots with
  | nil => exact le_rfl
  | cons front rest ih => grind [takeChunks]

def queueMeasure (state : TcpFlowState) : Nat :=
  chunksLen state.pendingServerData + state.pendingServerData.length

theorem queueMeasure_take {target : Nat} (hne : (takePendingServerPayload state target).1 ≠ []) :
    queueMeasure (takePendingServerPayload state target).2 < queueMeasure state := by
  have hsplit := congrArg List.length
    (takeChunks_flatten target maxWritePayloadChunks state.pendingServerData)
  have hlength := length_takeChunks_le target maxWritePayloadChunks state.pendingServerData
  have hpos := chunksLen_pos_of_taken hne
  rw [List.length_append, ← chunksLen_eq, ← chunksLen_eq, ← chunksLen_eq] at hsplit
  change chunksLen (takeChunks target maxWritePayloadChunks state.pendingServerData).2 +
    (takeChunks target maxWritePayloadChunks state.pendingServerData).2.length < _
  change 0 < chunksLen (takeChunks target maxWritePayloadChunks state.pendingServerData).1 at hpos
  rw [queueMeasure]
  omega

theorem emitServerData_earliest (state : TcpFlowState) (payload : List Bytes) (pacing : Bool)
    (mss available : Nat) (sentAt : Instant) :
    (emitServerData state payload pacing mss available sentAt).1.earliestUnsackedSent.isSome = true ∧
      (emitServerData state payload pacing mss available sentAt).1.pendingServerData = state.pendingServerData := by
  unfold emitServerData pushUnackedSegments resetZeroWindowPersist
  dsimp only
  split <;> cases state.earliestUnsackedSent <;> simp

inductive FlushExit (before after : TcpFlowState) (available : Nat) : Prop
  | drained : after.pendingServerData = [] → FlushExit before after available
  | paced : after.bbr.pacingNextAt.isSome = true → FlushExit before after available
  | inFlight : after.earliestUnsackedSent.isSome = true → FlushExit before after available
  | shut : available = 0 → after = before → FlushExit before after available

theorem flushLoop_exit (pacing : Bool) (mss fuel : Nat) (packets : List OutPacket) (available : Nat)
    (hfuel : queueMeasure state < fuel) :
    FlushExit state (flushLoop clock pacing mss fuel state packets available).1 available := by
  induction fuel generalizing state packets available with
  | zero => omega
  | succ fuel ih =>
    rw [flushLoop]
    split
    · exact .shut ‹_› rfl
    · rename_i havailable
      split
      · exact .drained ‹_›
      · rename_i front rest hqueue
        split
        · have hless : queueMeasure { state with pendingServerData := rest } < fuel := by
            simp only [queueMeasure, hqueue, chunksLen, List.map_cons, List.sum_cons, List.length_cons] at hfuel ⊢
            omega
          cases ih packets available hless with
          | drained hd => exact .drained hd
          | paced hp => exact .paced hp
          | inFlight hi => exact .inFlight hi
          | shut hs _ => exact absurd hs havailable
        · rename_i hfront
          dsimp only
          generalize (if pacing = true then _ else _ : Nat) = target
          split
          · exact .paced rfl
          · rename_i htarget
            have htaken : (takePendingServerPayload state target).1 ≠ [] := by
              rw [takePendingServerPayload, hqueue]
              exact takeChunks_pos htarget (by decide) (by simpa using hfront)
            rw [if_neg (by simpa using htaken)]
            obtain ⟨hearliest, hpending⟩ := emitServerData_earliest (takePendingServerPayload state target).2
              (takePendingServerPayload state target).1 pacing mss available
              (clock.reading (packets.length + 1))
            have hless := queueMeasure_take htaken
            generalize emitServerData (takePendingServerPayload state target).2
              (takePendingServerPayload state target).1 pacing mss available
              (clock.reading (packets.length + 1)) = emitted at hearliest hpending ⊢
            have hsmall : queueMeasure emitted.1 < fuel := by
              rw [queueMeasure] at hless ⊢
              rw [hpending]
              omega
            cases ih (packets ++ [emitted.2])
                (available - chunksLen (takePendingServerPayload state target).1) hsmall with
            | drained hd => exact .drained hd
            | paced hp => exact .paced hp
            | inFlight hi => exact .inFlight hi
            | shut _ hsame => exact .inFlight (by rw [hsame]; exact hearliest)

theorem availableWindow_refill (state : TcpFlowState) (now : Instant) :
    availableWindow (refilled state now) = availableWindow state := by
  unfold refilled refillPacingCredit refillCreditAt
  dsimp only
  split <;> rfl

theorem flushServerOutput_exit (hstatus : state.status ≠ .synReceived)
    (hpending : (flushServerOutput state clock).1.pendingServerData ≠ []) :
    (flushServerOutput state clock).1.bbr.pacingNextAt.isSome = true ∨
      (flushServerOutput state clock).1.earliestUnsackedSent.isSome = true ∨
      availableWindow state = 0 ∧ (flushServerOutput state clock).1.ledger = state.ledger ∧
        (flushServerOutput state clock).1.clientWindow = state.clientWindow := by
  have hexit : FlushExit (refilled state (clock.reading 0))
      (flushServerData state clock).1 (availableWindow state) := by
    rw [← availableWindow_refill state (clock.reading 0)]
    exact flushLoop_exit _ _ _ _ _ (Nat.lt_succ_self _)
  unfold flushServerOutput at hpending ⊢
  rw [if_neg hstatus] at hpending ⊢
  generalize flushServerData state clock = flushed at hexit hpending ⊢
  obtain ⟨data, packets⟩ := flushed
  obtain ⟨_, _, hprobe⟩ := maybeEmitZeroWindowProbe_eq
    (maybeEmitServerFin data (clock.drop (packets.length + 1))).1 (clock.reading (packets.length + 3))
  rw [hprobe] at hpending ⊢
  have hqueued : data.pendingServerData ≠ [] := by
    obtain ⟨_, _, _, _, _, _, _, _, hfin⟩ := maybeEmitServerFin_eq data (clock.drop (packets.length + 1))
    rwa [hfin] at hpending
  rw [maybeEmitServerFin, if_pos (by simp [hqueued])]
  cases hexit with
  | drained hd => exact absurd hd hqueued
  | paced hp => exact .inl hp
  | inFlight hi => exact .inr (.inl hi)
  | shut hshut hsame =>
    rw [hsame]
    exact .inr (.inr ⟨hshut, rfl, rfl⟩)

section Ceilings

variable {bbr : BbrState}

structure Ceilings (bbr : BbrState) : Prop where
  hi : 0 < bbr.inflightHi
  lo : 0 < bbr.inflightLo

theorem ceilings_new (now : Instant) (maxRateBps : Nat) : Ceilings (BbrState.new now maxRateBps) :=
  ⟨(by decide : 0 < usizeMax), (by decide : 0 < usizeMax)⟩

theorem Ceilings.congr {next : BbrState} (h : Ceilings bbr) (hhi : next.inflightHi = bbr.inflightHi)
    (hlo : next.inflightLo = bbr.inflightLo) : Ceilings next :=
  ⟨hhi ▸ h.hi, hlo ▸ h.lo⟩

theorem Ceilings.pinInflight (inflight minPipe : Nat) (hpipe : 0 < minPipe) :
    Ceilings (pinInflight bbr inflight minPipe) :=
  ⟨lt_max_of_lt_right hpipe, lt_max_of_lt_right hpipe⟩

section

variable (h : Ceilings bbr)

include h

theorem Ceilings.adaptLossCap (inflight minPipe : Nat) (hpipe : 0 < minPipe) :
    Ceilings (adaptLossCap bbr inflight minPipe) := by
  unfold Tcp.adaptLossCap
  split
  · exact h
  · split
    · exact h
    · dsimp only
      split
      · exact h
      · split
        · exact h.congr rfl rfl
        · split
          · exact .pinInflight inflight minPipe hpipe
          · exact (Ceilings.pinInflight inflight minPipe hpipe).congr rfl rfl

theorem Ceilings.startRound (inflight minPipe : Nat) (hpipe : 0 < minPipe) :
    Ceilings (startRound bbr inflight minPipe) := by
  grind [checkStartupFullPipe, Tcp.startRound, Ceilings.adaptLossCap, Ceilings.congr]

theorem Ceilings.updateBwFilter (rate : Nat) : Ceilings (updateBwFilter bbr rate) := by
  unfold Tcp.updateBwFilter refreshBtlbw
  dsimp only
  split
  · exact h.congr rfl rfl
  · split
    · exact h.congr rfl rfl
    · split <;> exact h.congr rfl rfl

theorem Ceilings.foldRateSample (sample : RateSample) (now : Instant) :
    Ceilings (foldRateSample bbr sample now) := by
  unfold Tcp.foldRateSample
  dsimp only
  split
  · split
    · refine Ceilings.updateBwFilter ?_ _
      exact h.congr rfl rfl
    · exact h.congr rfl rfl
  · exact h

theorem Ceilings.foldRttSample (rtt : Duration) (now : Instant) :
    Ceilings (foldRttSample bbr rtt now) := by
  unfold Tcp.foldRttSample
  split <;> exact h.congr rfl rfl

theorem Ceilings.recordDelivery (bytesDelivered : Nat)
    (rateSample : Option RateSample) (rttSample : Option Duration) (now : Instant)
    (inflight minPipe : Nat) (hpipe : 0 < minPipe) :
    Ceilings (recordDelivery bbr bytesDelivered rateSample rttSample now inflight minPipe).1 := by
  unfold Tcp.recordDelivery
  dsimp only
  have hround : ∀ (b : BbrState) (start : Bool), Ceilings b →
      Ceilings (if start then Tcp.startRound b inflight minPipe else b) := by
    intro b start hb
    cases start
    · exact hb
    · exact hb.startRound inflight minPipe hpipe
  have hbbr := hround { bbr with
    delivered := satAdd bbr.delivered bytesDelivered
    deliveredAt := now
    deliveredInWindow := satAdd bbr.deliveredInWindow bytesDelivered }
    (rateSample.any fun s => decide (bbr.nextRoundDelivered ≤ s.priorDelivered)) (h.congr rfl rfl)
  cases rateSample <;> cases rttSample
  · exact hbbr
  · exact hbbr.foldRttSample _ _
  · exact hbbr.foldRateSample _ _
  · exact (hbbr.foldRateSample _ _).foldRttSample _ _

theorem Ceilings.updateAckAggregation (bytesDelivered : Nat) (roundStart : Bool) (cwndClamp : Nat) (now : Instant) :
    Ceilings (updateAckAggregation bbr bytesDelivered roundStart cwndClamp now) := by
  have hretire : ∀ b : BbrState, Ceilings b → Ceilings (retireExtraAckedSlot b) := by
    intro b hb
    unfold retireExtraAckedSlot
    dsimp only
    split <;> exact hb.congr rfl rfl
  have hopen : Ceilings (if roundStart then retireExtraAckedSlot bbr else bbr) := by
    cases roundStart
    · exact h
    · exact hretire bbr h
  unfold Tcp.updateAckAggregation
  split
  · exact h
  · dsimp only
    generalize (if roundStart then retireExtraAckedSlot bbr else bbr) = b at hopen ⊢
    split <;> exact hopen.congr rfl rfl

end

theorem Ceilings.resetLossCap : Ceilings (resetLossCap bbr) :=
  ⟨(by decide : 0 < usizeMax), (by decide : 0 < usizeMax)⟩

theorem Ceilings.advanceProbeBwPhase (h : Ceilings bbr) (now : Instant) :
    Ceilings (advanceProbeBwPhase bbr now) := by
  unfold Tcp.advanceProbeBwPhase
  dsimp only
  split
  · refine ⟨?_, (by decide : 0 < usizeMax)⟩
    unfold releaseLossCap
    dsimp only
    split
    · exact h.hi
    · exact (by decide : 0 < usizeMax)
  · exact h.congr rfl rfl

theorem Ceilings.updateMode (h : Ceilings bbr) (mss pipe : Nat) (now : Instant) :
    Ceilings (updateMode bbr mss pipe now) := by
  have hentered : ∀ c : Prop, [Decidable c] → Ceilings (if c then enterProbeRtt bbr else bbr) := by
    intro c _
    split <;> exact h.congr rfl rfl
  unfold Tcp.updateMode
  dsimp only
  specialize hentered (bbr.mode ≠ .probeRtt ∧ bbrMinRttWindow < now - bbr.minRttStamp)
  generalize (if bbr.mode ≠ .probeRtt ∧ bbrMinRttWindow < now - bbr.minRttStamp then
    enterProbeRtt bbr else bbr) = b at hentered ⊢
  split
  · split <;> exact hentered.congr rfl rfl
  · split
    · exact .resetLossCap
    · exact hentered
  · split
    · exact hentered.advanceProbeBwPhase now
    · exact hentered
  · split
    · split <;> exact hentered.congr rfl rfl
    · split
      · exact .resetLossCap
      · exact hentered

theorem Ceilings.onAck (h : Ceilings bbr) {mss : Nat} (hmss : 0 < mss) (inflight bytesDelivered : Nat)
    (rateSample : Option RateSample) (rttSample : Option Duration) (now : Instant) :
    Ceilings (bbr.onAck mss inflight bytesDelivered rateSample rttSample now) := by
  have hpipe : 0 < mss * bbrMinPipeCwndSegments := Nat.mul_pos hmss (by decide)
  exact ((h.recordDelivery bytesDelivered rateSample rttSample now inflight _ hpipe).updateAckAggregation
    _ _ _ _).updateMode _ _ _

theorem inflightCapFrom_pos {mss : Nat} (hmss : 0 < mss) : 0 < inflightCapFrom bbr mss := by
  grind [bbrMinPipeCwndSegments, inflightCapFrom, inflightForGainWithHeadRoom, usizeMax, Nat.mul_pos]

end Ceilings

end OutlineProxy.Tcp
