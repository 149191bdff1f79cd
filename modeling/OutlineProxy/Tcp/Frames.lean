import OutlineProxy.Lib.Footprint
import OutlineProxy.Tcp.Engine

/-! Frame lemmas: which parts of the flow a function leaves alone. -/

namespace OutlineProxy.Tcp

variable (state : TcpFlowState)

theorem setFlowStatus_eq (status : TcpFlowStatus) (now : Instant) : ∃ timestamps, setFlowStatus state status now =
      { state with status := status, timestamps := timestamps } := by
  unfold setFlowStatus
  split
  · rename_i hsame
    exact ⟨state.timestamps, by rw [← hsame]⟩
  · exact ⟨_, rfl⟩

theorem maybeEmitZeroWindowProbe_eq (now : Instant) : ∃ backoff next, (maybeEmitZeroWindowProbe state now).1 =
      { state with zeroWindowProbeBackoff := backoff, nextZeroWindowProbeAt := next } := by
  unfold maybeEmitZeroWindowProbe
  split
  · exact ⟨_, _, rfl⟩
  · split
    · exact ⟨_, _, rfl⟩
    · split <;> exact ⟨_, _, rfl⟩

theorem maybeEmitServerFin_eq (clock : Clock) : ∃ serverSeq pending status timestamps queue bytes count earliest,
      (maybeEmitServerFin state clock).1 = { state with
          serverSeq := serverSeq, serverFinPending := pending, status := status, timestamps := timestamps,
          unackedServerSegments := queue, pipeBytes := bytes, pipeSegments := count,
          earliestUnsackedSent := earliest } := by
  unfold maybeEmitServerFin
  split
  · exact ⟨_, _, _, _, _, _, _, _, rfl⟩
  · dsimp only
    obtain ⟨_, hstatus⟩ := setFlowStatus_eq
      { state with serverSeq := state.serverSeq + 1, serverFinPending := false } (finStatus state.status)
      (clock.reading 0)
    rw [hstatus]
    exact ⟨_, _, _, _, _, _, _, _, rfl⟩

structure AckFields where
  sackScoreboard : List SequenceRange
  pipeBytes : Nat
  pipeSegments : Nat
  earliestUnsackedSent : Option Instant
  unackedReordered : Bool
  lastClientAck : UInt32
  duplicateAckCount : Nat
  unackedServerSegments : List ServerSegment
  firstTxMstamp : Instant
  fastRecoveryEnd : Option UInt32
  recoveryEpoch : Nat
  lossEpisodes : Nat
  lossInRound : Bool

def ackFields : Footprint TcpFlowState AckFields where
  get state :=
    { sackScoreboard := state.sackScoreboard
      pipeBytes := state.pipeBytes
      pipeSegments := state.pipeSegments
      earliestUnsackedSent := state.earliestUnsackedSent
      unackedReordered := state.unackedReordered
      lastClientAck := state.lastClientAck
      duplicateAckCount := state.duplicateAckCount
      unackedServerSegments := state.unackedServerSegments
      firstTxMstamp := state.firstTxMstamp
      fastRecoveryEnd := state.fastRecoveryEnd
      recoveryEpoch := state.recoveryEpoch
      lossEpisodes := state.bbr.lossEpisodes
      lossInRound := state.bbr.lossInRound }
  set state fields := { state with
      sackScoreboard := fields.sackScoreboard
      pipeBytes := fields.pipeBytes
      pipeSegments := fields.pipeSegments
      earliestUnsackedSent := fields.earliestUnsackedSent
      unackedReordered := fields.unackedReordered
      lastClientAck := fields.lastClientAck
      duplicateAckCount := fields.duplicateAckCount
      unackedServerSegments := fields.unackedServerSegments
      firstTxMstamp := fields.firstTxMstamp
      fastRecoveryEnd := fields.fastRecoveryEnd
      recoveryEpoch := fields.recoveryEpoch
      bbr := { state.bbr with lossEpisodes := fields.lossEpisodes, lossInRound := fields.lossInRound } }
  set_get _ := rfl
  set_set _ _ _ := rfl

structure FlushFields where
  pendingServerData : List Bytes
  pendingServerBytesTotal : Nat
  unackedServerSegments : List ServerSegment
  pipeBytes : Nat
  pipeSegments : Nat
  earliestUnsackedSent : Option Instant
  firstTxMstamp : Instant
  serverSeq : UInt32
  deliveredAt : Instant
  pacingCredit : Nat
  pacingRefilledAt : Instant
  pacingNextAt : Option Instant
  zeroWindowProbeBackoff : Duration
  nextZeroWindowProbeAt : Option Instant

def flushFields : Footprint TcpFlowState FlushFields where
  get state :=
    { pendingServerData := state.pendingServerData
      pendingServerBytesTotal := state.pendingServerBytesTotal
      unackedServerSegments := state.unackedServerSegments
      pipeBytes := state.pipeBytes
      pipeSegments := state.pipeSegments
      earliestUnsackedSent := state.earliestUnsackedSent
      firstTxMstamp := state.firstTxMstamp
      serverSeq := state.serverSeq
      deliveredAt := state.bbr.deliveredAt
      pacingCredit := state.bbr.pacingCredit
      pacingRefilledAt := state.bbr.pacingRefilledAt
      pacingNextAt := state.bbr.pacingNextAt
      zeroWindowProbeBackoff := state.zeroWindowProbeBackoff
      nextZeroWindowProbeAt := state.nextZeroWindowProbeAt }
  set state fields := { state with
      pendingServerData := fields.pendingServerData
      pendingServerBytesTotal := fields.pendingServerBytesTotal
      unackedServerSegments := fields.unackedServerSegments
      pipeBytes := fields.pipeBytes
      pipeSegments := fields.pipeSegments
      earliestUnsackedSent := fields.earliestUnsackedSent
      firstTxMstamp := fields.firstTxMstamp
      serverSeq := fields.serverSeq
      bbr := { state.bbr with
        deliveredAt := fields.deliveredAt
        pacingCredit := fields.pacingCredit
        pacingRefilledAt := fields.pacingRefilledAt
        pacingNextAt := fields.pacingNextAt }
      zeroWindowProbeBackoff := fields.zeroWindowProbeBackoff
      nextZeroWindowProbeAt := fields.nextZeroWindowProbeAt }
  set_get _ := rfl
  set_set _ _ _ := rfl

variable (tcp : TunTcpConfig) (clock : Clock) (now : Instant)

theorem touches_emitServerData (payload : List Bytes) (pacing : Bool) (mss available : Nat) :
    flushFields.Touches state (emitServerData state payload pacing mss available now).1 := by
  unfold emitServerData pushUnackedSegments resetZeroWindowPersist
  dsimp only
  split <;> cases pacing <;> rfl

theorem takeChunks_pos {target slots : Nat} {front : Bytes} {rest : List Bytes} (htarget : target ≠ 0)
    (hslots : slots ≠ 0) (hfront : front ≠ []) : (takeChunks target slots (front :: rest)).1 ≠ [] := by
  rw [takeChunks, if_neg (by simp [htarget, hslots]), if_neg (by simpa using hfront)]
  split <;> simp

/-- One round of the loop of a flush: an empty chunk goes, the pacer is armed, or a packet is sent. -/
inductive FlushRound (clock : Clock) (mss : Nat) (s : TcpFlowState) (packets : List OutPacket) (available : Nat) :
    TcpFlowState → List OutPacket → Nat → Prop
  | drop {rest : List Bytes} : s.pendingServerData = [] :: rest →
      FlushRound clock mss s packets available { s with pendingServerData := rest } packets available
  | wait (release : Instant) : FlushRound clock mss s packets available
      { s with bbr := { s.bbr with pacingNextAt := some release } } packets available
  | emit {target : Nat} {pacing : Bool} {emitted : TcpFlowState × OutPacket} :
      target ≤ available → (takePendingServerPayload s target).1 ≠ [] →
      emitServerData (takePendingServerPayload s target).2 (takePendingServerPayload s target).1 pacing mss
        available (clock.reading (packets.length + 1)) = emitted →
      FlushRound clock mss s packets available emitted.1 (packets ++ [emitted.2])
        (available - chunksLen (takePendingServerPayload s target).1)

section Rounds

variable {clock : Clock} {mss : Nat} {I : TcpFlowState → List OutPacket → Nat → Prop}
  (hround : ∀ {s packets available s' packets' available'}, I s packets available →
    FlushRound clock mss s packets available s' packets' available' → I s' packets' available')

include hround

theorem flushLoop_rounds (pacing : Bool) (fuel : Nat) {s : TcpFlowState} {packets : List OutPacket}
    {available : Nat} (h : I s packets available) :
    ∃ left, I (flushLoop clock pacing mss fuel s packets available).1
      (flushLoop clock pacing mss fuel s packets available).2 left := by
  induction fuel generalizing s packets available with
  | zero => exact ⟨available, h⟩
  | succ fuel ih =>
    rw [flushLoop]
    split
    · exact ⟨available, h⟩
    · split
      · exact ⟨available, h⟩
      · rename_i front rest hqueue
        split
        · rename_i hempty
          rw [List.isEmpty_iff.1 hempty] at hqueue
          exact ih (hround h (.drop hqueue))
        · rename_i hfront
          dsimp only
          generalize htarget : (if pacing = true then _ else _ : Nat) = target
          have hle : target ≤ available := by
            rw [← htarget]
            split <;> omega
          split
          · exact ⟨available, hround h (.wait _)⟩
          · rename_i hpos
            have htaken : (takePendingServerPayload s target).1 ≠ [] := by
              rw [takePendingServerPayload, hqueue]
              exact takeChunks_pos hpos (by decide) (by simpa using hfront)
            rw [if_neg (by simpa using htaken)]
            exact ih (hround h (.emit hle htaken rfl))

end Rounds

/-- The flow that a flush starts to send from. -/
def refilled (now : Instant) : TcpFlowState :=
  { refillPacingCredit state now with bbr := { (refillPacingCredit state now).bbr with pacingNextAt := none } }

/-- What every round keeps holds when a flush ends. -/
theorem flushServerData_rounds {I : TcpFlowState → List OutPacket → Nat → Prop}
    (hround : ∀ {s packets available s' packets' available'}, I s packets available →
      FlushRound clock (serverMaxSegmentPayload state) s packets available s' packets' available' →
      I s' packets' available')
    (h : I (refilled state (clock.reading 0)) [] (availableWindow (refilled state (clock.reading 0)))) :
    ∃ left, I (flushServerData state clock).1 (flushServerData state clock).2 left :=
  flushLoop_rounds hround _ _ h

theorem touches_flushServerData : flushFields.Touches state (flushServerData state clock).1 := by
  have hrefill : flushFields.Touches state (refilled state (clock.reading 0)) := by
    unfold refilled refillPacingCredit refillCreditAt
    dsimp only
    split <;> rfl
  refine (flushServerData_rounds state clock (I := fun s _ _ => flushFields.Touches state s)
    (fun {s _ _ _ _ _} h hround => ?_) hrefill).elim fun _ h => h
  cases hround with
  | drop | wait => exact h.trans rfl
  | @emit target _ _ _ _ hemit =>
    have htake : flushFields.Touches s (takePendingServerPayload s target).2 := rfl
    exact (h.trans htake).trans (hemit ▸ touches_emitServerData ..)

variable (ack : UInt32)

theorem touches_popAcked (i : Nat) (segments : List ServerSegment) (samples : PopSamples) :
    ackFields.Touches state (popAcked ack clock i segments state samples).1 := by
  induction segments generalizing state samples i with
  | nil => rfl
  | cons segment rest ih =>
    rw [popAcked]
    split
    · rfl
    · split <;> split
      all_goals
        refine Footprint.Touches.trans ?_ (ih ..)
        rfl

theorem touches_refreshEarliestAfterPop : ackFields.Touches state (refreshEarliestAfterPop state) := by
  unfold refreshEarliestAfterPop
  split
  · rfl
  · split <;> rfl

theorem touches_advanceServerAck :
    ackFields.Touches state (advanceServerAck state ack clock).1 := by
  have hnumber : ackFields.Touches state { state with lastClientAck := ack, duplicateAckCount := 0 } := rfl
  have hpop := hnumber.trans ((touches_popAcked _ clock ack 0 state.unackedServerSegments {}).trans
    (touches_refreshEarliestAfterPop _))
  simp only [advanceServerAck]
  split
  · split
    · exact hpop.trans rfl
    · exact hpop
  · exact hpop

theorem touches_duplicateServerAck (advanced : Bool) :
    ackFields.Touches state (duplicateServerAck state advanced).1 := by
  simp only [duplicateServerAck]
  split
  · rfl
  · split <;> rfl

def ackUpdated (acknowledgementNumber : UInt32)
    (sackBlocks : List (UInt32 × UInt32)) : TcpFlowState :=
  let update := updateSackScoreboard state.sackScoreboard acknowledgementNumber sackBlocks
  let state := { state with sackScoreboard := update.1 }
  if update.2 then rebuildUnackedAccounting state else state

def ackBranch (scoreboardAdvanced : Bool) (acknowledgementNumber : UInt32)
    (clock : Clock) : TcpFlowState × AckEffect :=
  if state.unackedServerSegments.isEmpty then
    ({ state with
      lastClientAck := acknowledgementNumber, duplicateAckCount := 0, fastRecoveryEnd := none }, {})
  else if seqGt acknowledgementNumber state.lastClientAck then
    advanceServerAck state acknowledgementNumber clock
  else if acknowledgementNumber == state.lastClientAck then
    duplicateServerAck state scoreboardAdvanced
  else (state, {})

def ackTrimmed (acknowledgementNumber : UInt32) : TcpFlowState :=
  let trim := trimSackScoreboard state.sackScoreboard acknowledgementNumber
  let state := { state with sackScoreboard := trim.1 }
  if trim.2 then rebuildUnackedAccounting state else state

theorem processServerAck_eq (acknowledgementNumber : UInt32) (blocks : List (UInt32 × UInt32)) (clock : Clock) :
    (processServerAck state acknowledgementNumber blocks clock).1 =
      ackTrimmed (ackBranch (ackUpdated state acknowledgementNumber blocks)
        (updateSackScoreboard state.sackScoreboard acknowledgementNumber blocks).2
        acknowledgementNumber clock).1 acknowledgementNumber := rfl

theorem touches_ackUpdated (blocks : List (UInt32 × UInt32)) :
    ackFields.Touches state (ackUpdated state ack blocks) := by
  unfold ackUpdated
  dsimp only
  split <;> rfl

theorem touches_ackTrimmed : ackFields.Touches state (ackTrimmed state ack) := by
  unfold ackTrimmed
  dsimp only
  split <;> rfl

theorem touches_ackBranch (advanced : Bool) (ack : UInt32) :
    ackFields.Touches state (ackBranch state advanced ack clock).1 := by
  unfold ackBranch
  split_ifs
  · rfl
  · exact touches_advanceServerAck ..
  · exact touches_duplicateServerAck ..
  · rfl

theorem touches_processServerAck (blocks : List (UInt32 × UInt32)) :
    ackFields.Touches state (processServerAck state ack blocks clock).1 := by
  exact (touches_ackUpdated ..).trans ((touches_ackBranch ..).trans (touches_ackTrimmed ..))

structure ReceiveSide where
  rcvNxt : UInt32
  receiveWindowCapacity : Nat
  pendingClientData : List Bytes
  pendingClientSegments : List BufferedClientSegment

def TcpFlowState.receiveSide : ReceiveSide :=
  ⟨state.rcvNxt, state.receiveWindowCapacity, state.pendingClientData, state.pendingClientSegments⟩

@[simp] theorem receiveSide_setFlowStatus (status : TcpFlowStatus) :
    (setFlowStatus state status now).receiveSide = state.receiveSide := by
  unfold setFlowStatus
  split <;> rfl

@[simp] theorem receiveSide_resetZeroWindowPersist :
    (resetZeroWindowPersist state).receiveSide = state.receiveSide := rfl

@[simp] theorem receiveSide_clearDelayedAck :
    (clearDelayedAck state).receiveSide = state.receiveSide := rfl

@[simp] theorem receiveSide_updateClientSendWindow (packet : ParsedTcpPacket) :
    (updateClientSendWindow state packet).receiveSide = state.receiveSide := by
  simp only [updateClientSendWindow]
  split <;> rfl

@[simp] theorem receiveSide_noteRecentClientTimestamp (value : Option UInt32) :
    (noteRecentClientTimestamp state value).receiveSide = state.receiveSide := by
  unfold noteRecentClientTimestamp
  split <;> rfl

@[simp] theorem receiveSide_absorbAcceptedClientPacket (packet : ParsedTcpPacket) :
    (absorbAcceptedClientPacket state packet now).receiveSide = state.receiveSide := by
  have hn := receiveSide_noteRecentClientTimestamp state packet.timestampValue
  simp only [absorbAcceptedClientPacket]
  split
  · rw [receiveSide_resetZeroWindowPersist, receiveSide_updateClientSendWindow]
    exact hn
  · rw [receiveSide_updateClientSendWindow]
    exact hn

theorem flushServerOutput_keeps {β : Type} {f : TcpFlowState → β} (hdata : ∀ s a, f (flushFields.set s a) = f s)
    (hfin : ∀ s clock, f (maybeEmitServerFin s clock).1 = f s)
    (hprobe : ∀ s now, f (maybeEmitZeroWindowProbe s now).1 = f s) :
    f (flushServerOutput state clock).1 = f state := by
  unfold flushServerOutput
  split
  · rfl
  · dsimp only
    rw [hprobe, hfin]
    exact (touches_flushServerData ..).keeps hdata

theorem receiveSide_emitServerData (payload : List Bytes) (pacing : Bool) (mss available : Nat) :
    (emitServerData state payload pacing mss available now).1.receiveSide = state.receiveSide :=
  (touches_emitServerData ..).keeps fun _ _ => rfl

@[simp] theorem receiveSide_flushServerData :
    (flushServerData state clock).1.receiveSide = state.receiveSide :=
  (touches_flushServerData ..).keeps fun _ _ => rfl

@[simp] theorem receiveSide_maybeEmitServerFin :
    (maybeEmitServerFin state clock).1.receiveSide = state.receiveSide := by
  obtain ⟨_, _, _, _, _, _, _, _, hfin⟩ := maybeEmitServerFin_eq state clock
  rw [hfin]
  rfl

@[simp] theorem receiveSide_maybeEmitZeroWindowProbe :
    (maybeEmitZeroWindowProbe state now).1.receiveSide = state.receiveSide := by
  obtain ⟨_, _, hprobe⟩ := maybeEmitZeroWindowProbe_eq state now
  rw [hprobe]
  rfl

@[simp] theorem receiveSide_flushServerOutput :
    (flushServerOutput state clock).1.receiveSide = state.receiveSide := by
  unfold flushServerOutput
  split <;> simp

@[simp] theorem receiveSide_resendSegment (index : Nat) (mark : ServerSegment → ServerSegment) :
    (resendSegment state index mark).1.receiveSide = state.receiveSide := by
  unfold resendSegment
  split <;> rfl

@[simp] theorem receiveSide_retransmitOldestUnackedPacket :
    (retransmitOldestUnackedPacket state clock).1.receiveSide = state.receiveSide := by
  unfold retransmitOldestUnackedPacket
  split
  · rfl
  · exact receiveSide_resendSegment ..

@[simp] theorem receiveSide_retransmitDueSegment :
    (retransmitDueSegment state clock).1.receiveSide = state.receiveSide := by
  unfold retransmitDueSegment
  split
  · rfl
  · exact receiveSide_resendSegment ..

@[simp] theorem receiveSide_processServerAck (blocks : List (UInt32 × UInt32)) :
    (processServerAck state ack blocks clock).1.receiveSide = state.receiveSide :=
  (touches_processServerAck ..).keeps fun _ _ => rfl

@[simp] theorem receiveSide_noteAckProgress (effect : AckEffect) :
    (noteAckProgress state effect now).receiveSide = state.receiveSide := by
  unfold noteAckProgress
  split <;> dsimp only <;> split <;> split <;> rfl

@[simp] theorem receiveSide_commitFlowChanges :
    (commitFlowChanges state tcp now).1.receiveSide = state.receiveSide := by
  unfold commitFlowChanges rescheduleFlow
  split
  · rfl
  · split <;> rfl

@[simp] theorem receiveSide_transitionOnClientFin :
    (transitionOnClientFin state now).receiveSide = state.receiveSide := by
  unfold transitionOnClientFin
  split <;> first | rfl | exact receiveSide_setFlowStatus ..

@[simp] theorem receiveSide_resolveClientAck (shouldSendAck carriesData isFin had : Bool)
    (flush : ServerFlush) (serverSeq rcvNxt : UInt32) :
    (resolveClientAck state shouldSendAck carriesData isFin had flush serverSeq rcvNxt now).1.receiveSide =
      state.receiveSide := by
  simp only [resolveClientAck]
  split
  · rfl
  · split
    · rfl
    · split <;> rfl

section ClientFin

/-! Only the delivery of a FIN makes a flow one whose client FIN was seen. -/

theorem clientFinSeen_setFlowStatus {status : TcpFlowStatus}
    (h : clientFinSeen status = clientFinSeen state.status) :
    clientFinSeen (setFlowStatus state status now).status = clientFinSeen state.status := by
  unfold setFlowStatus
  split
  · rfl
  · exact h

/-- What a flow still has to send or to acknowledge; acknowledgement processing leaves it alone. -/
structure DownSide where
  status : TcpFlowStatus
  pendingServerData : List Bytes
  serverFinPending : Bool
  unackedInOrderSegments : Nat
  serverSeq : UInt32
  pendingServerBytesTotal : Nat
  clientMaxSegmentSize : Option UInt16

def TcpFlowState.downSide (state : TcpFlowState) : DownSide :=
  ⟨state.status, state.pendingServerData, state.serverFinPending, state.unackedInOrderSegments,
    state.serverSeq, state.pendingServerBytesTotal, state.clientMaxSegmentSize⟩

@[simp] theorem downSide_updateClientSendWindow (packet : ParsedTcpPacket) :
    (updateClientSendWindow state packet).downSide = state.downSide := by
  simp only [updateClientSendWindow]
  split <;> rfl

@[simp] theorem downSide_absorbAcceptedClientPacket (packet : ParsedTcpPacket) :
    (absorbAcceptedClientPacket state packet now).downSide = state.downSide := by
  have hn : (noteRecentClientTimestamp state packet.timestampValue).downSide = state.downSide := by
    unfold noteRecentClientTimestamp
    split <;> rfl
  simp only [absorbAcceptedClientPacket]
  split <;> exact (downSide_updateClientSendWindow _ _).trans hn

@[simp] theorem downSide_processServerAck (ack : UInt32) (blocks : List (UInt32 × UInt32)) :
    (processServerAck state ack blocks clock).1.downSide = state.downSide :=
  (touches_processServerAck ..).keeps fun _ _ => rfl

@[simp] theorem downSide_noteAckProgress (effect : AckEffect) :
    (noteAckProgress state effect now).downSide = state.downSide := by
  unfold noteAckProgress
  split <;> dsimp only <;> split <;> split <;> rfl

@[simp] theorem downSide_commitFlowChanges : (commitFlowChanges state tcp now).1.downSide = state.downSide := by
  unfold commitFlowChanges rescheduleFlow
  split
  · rfl
  · split <;> rfl

@[simp] theorem downSide_resendSegment (index : Nat) (mark : ServerSegment → ServerSegment) :
    (resendSegment state index mark).1.downSide = state.downSide := by
  unfold resendSegment
  split <;> rfl

@[simp] theorem downSide_retransmitOldestUnackedPacket :
    (retransmitOldestUnackedPacket state clock).1.downSide = state.downSide := by
  unfold retransmitOldestUnackedPacket
  split
  · rfl
  · exact downSide_resendSegment ..

theorem clientFinSeen_transitionOnClientFin :
    clientFinSeen (transitionOnClientFin state now).status = true := by
  unfold transitionOnClientFin setFlowStatus
  split <;> first | split_ifs <;> simp_all [clientFinSeen] | simp_all [clientFinSeen]

@[simp] theorem status_flushServerData : (flushServerData state clock).1.status = state.status :=
  (touches_flushServerData ..).keeps fun _ _ => rfl

theorem serverFinPending_flushServerData :
    (flushServerData state clock).1.serverFinPending = state.serverFinPending :=
  (touches_flushServerData ..).keeps fun _ _ => rfl

@[simp] theorem clientFinSeen_maybeEmitServerFin :
    clientFinSeen (maybeEmitServerFin state clock).1.status = clientFinSeen state.status := by
  have hfin : clientFinSeen (finStatus state.status) = clientFinSeen state.status := by
    cases state.status <;> rfl
  simp only [maybeEmitServerFin]
  split
  · rfl
  · grind [clientFinSeen_setFlowStatus]

@[simp] theorem status_maybeEmitZeroWindowProbe :
    (maybeEmitZeroWindowProbe state now).1.status = state.status := by
  obtain ⟨_, _, hprobe⟩ := maybeEmitZeroWindowProbe_eq state now
  rw [hprobe]

@[simp] theorem clientFinSeen_flushServerOutput :
    clientFinSeen (flushServerOutput state clock).1.status = clientFinSeen state.status := by
  unfold flushServerOutput
  split <;> simp

@[simp] theorem status_resolveClientAck (shouldSendAck carriesData isFin had : Bool)
    (flush : ServerFlush) (serverSeq rcvNxt : UInt32) :
    (resolveClientAck state shouldSendAck carriesData isFin had flush serverSeq rcvNxt now).1.status =
      state.status := by
  simp only [resolveClientAck]
  split
  · rfl
  · split
    · rfl
    · split <;> rfl

@[simp] theorem downSide_applyInbound (trimmed : TrimmedSegment) :
    (applyInbound state trimmed).1.downSide = state.downSide := by
  simp only [applyInbound]
  split
  · rfl
  · split <;> rfl

@[simp] theorem status_applyInbound (trimmed : TrimmedSegment) :
    (applyInbound state trimmed).1.status = state.status :=
  congrArg DownSide.status (downSide_applyInbound state trimmed)

variable {s : TcpFlowState}

theorem maybeEmitServerFin_idle (clock : Clock) (h : s.serverFinPending = false) :
    maybeEmitServerFin s clock = (s, none) := by
  simp [maybeEmitServerFin, h]

theorem maybeEmitZeroWindowProbe_idle (now : Instant) (h : s.pendingServerData = []) :
    maybeEmitZeroWindowProbe s now = (s, none) := by
  simp [maybeEmitZeroWindowProbe, h]

theorem flushServerData_idle (clock : Clock) (h : s.pendingServerData = []) :
    flushServerData s clock = (refilled s (clock.reading 0), []) := by
  have hd : (refillPacingCredit s (clock.reading 0)).pendingServerData = [] := h
  simp only [flushServerData, flushLoop, hd, refilled]
  split <;> rfl

theorem flushServerOutput_idle (clock : Clock) (hdata : s.pendingServerData = [])
    (hfin : s.serverFinPending = false) :
    (flushServerOutput s clock).2.dataPackets = [] ∧ (flushServerOutput s clock).2.finPacket = none ∧
      flushPackets (flushServerOutput s clock).2 = [] ∧ (flushServerOutput s clock).1.downSide = s.downSide ∧
      (flushServerOutput s clock).1.unackedServerSegments = s.unackedServerSegments := by
  unfold flushServerOutput
  split
  · exact ⟨rfl, rfl, rfl, rfl, rfl⟩
  · rw [flushServerData_idle clock hdata]
    dsimp only
    rw [maybeEmitServerFin_idle _ (by exact hfin), maybeEmitZeroWindowProbe_idle _ (by exact hdata)]
    exact ⟨rfl, rfl, rfl, rfl, rfl⟩

end ClientFin

end OutlineProxy.Tcp
