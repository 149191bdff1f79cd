import OutlineProxy.Tcp.Arrival
import OutlineProxy.Tcp.Stall

/-! Which acknowledgements the send side believes.  The upper bound of an acknowledgement is checked where the
ACK flag is set, its number is used whether or not it is. -/

namespace OutlineProxy.Tcp

open Serial

variable {state s t u : TcpFlowState} {tcp : TunTcpConfig} {packet : ParsedTcpPacket} {clock : Clock}

def ServerSegment.range (segment : ServerSegment) : UInt32 × Nat :=
  (segment.sequenceNumber, serverSegmentLen segment)

structure AckSide where
  serverSeq : UInt32
  lastClientAck : UInt32
  ranges : List (UInt32 × Nat)
  board : List SequenceRange
  windowEnd : UInt32

def TcpFlowState.ackSide (state : TcpFlowState) : AckSide :=
  ⟨state.serverSeq, state.lastClientAck, state.unackedServerSegments.map ServerSegment.range,
    state.sackScoreboard, state.clientWindowEnd⟩

theorem ackSide_of_ledger (hledger : t.ledger = s.ledger) (hwindow : t.sendWindow = s.sendWindow) :
    t.ackSide = s.ackSide := by
  simp only [TcpFlowState.ledger, TcpFlowState.positions, Ledger.mk.injEq, Positions.mk.injEq] at hledger
  obtain ⟨⟨hseq, hack, hqueue, hboard⟩, -⟩ := hledger
  have hend : t.clientWindowEnd = s.clientWindowEnd := congrArg SendWindow.windowEnd hwindow
  simp only [TcpFlowState.ackSide, hseq, hack, hqueue, hboard, hend]

theorem sendWindowRemaining_congr (h : t.ackSide = s.ackSide) : sendWindowRemaining t = sendWindowRemaining s := by
  have hseq : t.serverSeq = s.serverSeq := congrArg AckSide.serverSeq h
  have hend : t.clientWindowEnd = s.clientWindowEnd := congrArg AckSide.windowEnd h
  rw [sendWindowRemaining, hseq, hend, sendWindowRemaining]

theorem ackSide_resendSegment (state : TcpFlowState) (index : Nat) {mark : ServerSegment → ServerSegment}
    (hmark : ∀ x, (mark x).range = x.range) : (resendSegment state index mark).1.ackSide = state.ackSide ∧
      (resendSegment state index mark).1.status = state.status := by
  unfold resendSegment
  split
  · exact ⟨rfl, rfl⟩
  · rename_i segment hget
    refine ⟨?_, rfl⟩
    have hranges : (state.unackedServerSegments.set index (mark segment)).map ServerSegment.range =
        state.unackedServerSegments.map ServerSegment.range := by
      rw [List.map_set, hmark]
      refine List.ext_getElem? fun i => ?_
      rw [List.getElem?_set]
      split_ifs with hi hlt
      · subst hi
        rw [List.getElem?_map, hget]
        rfl
      · subst hi
        rw [List.getElem?_eq_none (by omega)]
      · rfl
    change (⟨_, _, (state.unackedServerSegments.set index (mark segment)).map ServerSegment.range, _, _⟩ : AckSide) = _
    rw [hranges]
    rfl

/-- A step that may send, and never acknowledges: new segments go behind the queued ones, data within
the window, and one number more for a FIN. -/
structure OnlySends (s t : TcpFlowState) : Prop where
  lastClientAck : t.lastClientAck = s.lastClientAck
  board : t.sackScoreboard = s.sackScoreboard
  windowEnd : t.clientWindowEnd = s.clientWindowEnd
  ranges : ∃ added, t.unackedServerSegments.map ServerSegment.range =
    s.unackedServerSegments.map ServerSegment.range ++ added
  serverSeq : ∃ n ≤ (sendWindowRemaining s).toNat + 1, t.serverSeq = s.serverSeq + UInt32.ofNat n ∧
    (serverFinSent t.status = false → n ≤ (sendWindowRemaining s).toNat)

theorem OnlySends.quiet (h : t.ackSide = s.ackSide) : OnlySends s t where
  lastClientAck := congrArg AckSide.lastClientAck h
  board := congrArg AckSide.board h
  windowEnd := congrArg AckSide.windowEnd h
  ranges := ⟨[], (congrArg AckSide.ranges h).trans (List.append_nil _).symm⟩
  serverSeq := ⟨0, Nat.zero_le _, (congrArg AckSide.serverSeq h).trans (point_zero s.serverSeq).symm,
    fun _ => Nat.zero_le _⟩

theorem OnlySends.before (h : t.ackSide = s.ackSide) (hnext : OnlySends t u) : OnlySends s u := by
  have hranges : t.unackedServerSegments.map ServerSegment.range =
      s.unackedServerSegments.map ServerSegment.range := congrArg AckSide.ranges h
  have hseq : t.serverSeq = s.serverSeq := congrArg AckSide.serverSeq h
  refine ⟨hnext.lastClientAck.trans (congrArg AckSide.lastClientAck h), hnext.board.trans (congrArg AckSide.board h),
    hnext.windowEnd.trans (congrArg AckSide.windowEnd h), hranges ▸ hnext.ranges, ?_⟩
  rw [← sendWindowRemaining_congr h, ← hseq]
  exact hnext.serverSeq

theorem OnlySends.after (hnext : OnlySends s t) (h : u.ackSide = t.ackSide)
    (hstatus : serverFinSent u.status = false → serverFinSent t.status = false) : OnlySends s u := by
  have hranges : u.unackedServerSegments.map ServerSegment.range =
      t.unackedServerSegments.map ServerSegment.range := congrArg AckSide.ranges h
  obtain ⟨n, hn, hseq, hdata⟩ := hnext.serverSeq
  refine ⟨(congrArg AckSide.lastClientAck h).trans hnext.lastClientAck, (congrArg AckSide.board h).trans hnext.board,
    (congrArg AckSide.windowEnd h).trans hnext.windowEnd, hranges.symm ▸ hnext.ranges, n, hn,
    (congrArg AckSide.serverSeq h).trans hseq, fun hopen => hdata (hstatus hopen)⟩

/-- The queue of a flow that has sent up to position `sent`, after it stood at `start`. -/
def Grown (start : TcpFlowState) (origin : UInt32) (sent : Nat) (s : TcpFlowState) : Prop :=
  s.serverSeq = point origin sent ∧ s.lastClientAck = start.lastClientAck ∧
    s.sackScoreboard = start.sackScoreboard ∧
    ∃ added, s.unackedServerSegments = start.unackedServerSegments ++ added

theorem Grown.quiet {start : TcpFlowState} {origin : UInt32} {sent : Nat} (h : Grown start origin sent s)
    (he : t.ledger = s.ledger) : Grown start origin sent t := by
  simp only [TcpFlowState.ledger, TcpFlowState.positions, Ledger.mk.injEq, Positions.mk.injEq] at he
  obtain ⟨⟨hseq, hack, hqueue, hboard⟩, -⟩ := he
  exact ⟨hseq.trans h.1, hack.trans h.2.1, hboard.trans h.2.2.1, hqueue ▸ h.2.2.2⟩

theorem Grown.sends {start : TcpFlowState} {origin : UInt32} {sent bytes : Nat} {sentAt : Instant}
    (h : Grown start origin sent s) (hsends : Sends origin sent bytes sentAt s t) :
    Grown start origin (sent + bytes) t := by
  obtain ⟨added, hadded⟩ := h.2.2.2
  obtain ⟨fresh, -, hqueue, -, -⟩ := hsends.segments
  refine ⟨?_, hsends.lastClientAck.trans h.2.1, hsends.board.trans h.2.2.1, added ++ fresh, ?_⟩
  · rw [hsends.serverSeq, h.1, point_add]
  · rw [hqueue, hadded, List.append_assoc]

theorem grown_sendRule (start : TcpFlowState) (origin : UInt32) (limit : Nat) :
    SendRule origin limit fun sent _ s => Grown start origin sent s where
  serverSeq h := h.1
  later h _ := h
  quiet h he := h.quiet he
  sends h hsends _ _ := h.sends hsends

theorem maybeEmitServerFin_finSent (state : TcpFlowState) (clock : Clock) :
    (maybeEmitServerFin state clock).1 = state ∨
      serverFinSent (maybeEmitServerFin state clock).1.status = true := by
  have hfin : ∀ status, serverFinSent (finStatus status) = true := by
    intro status
    cases status <;> rfl
  unfold maybeEmitServerFin
  split
  · exact .inl rfl
  · refine .inr ?_
    dsimp only
    obtain ⟨timestamps, hstatus⟩ := setFlowStatus_eq
      { state with serverSeq := state.serverSeq + 1, serverFinPending := false } (finStatus state.status)
      (clock.reading 0)
    rw [hstatus]
    exact hfin state.status

theorem grown_flushServerOutput (state : TcpFlowState) (clock : Clock) :
    ∃ n ≤ (sendWindowRemaining state).toNat + 1, Grown state state.serverSeq n (flushServerOutput state clock).1 ∧
        (serverFinSent (flushServerOutput state clock).1.status = false →
          n ≤ (sendWindowRemaining state).toNat) := by
  have hstart : Grown state state.serverSeq 0 state := ⟨(point_zero _).symm, rfl, rfl, [], (List.append_nil _).symm⟩
  have rule := grown_sendRule state state.serverSeq ((sendWindowRemaining state).toNat + 1)
  unfold flushServerOutput
  split
  · exact ⟨0, Nat.zero_le _, hstart, fun _ => Nat.zero_le _⟩
  · obtain ⟨sent, hsent, hdata⟩ := rule.flushServerData hstart (le_refl clock.start) (by omega)
    generalize flushServerData state clock = flushed at hdata ⊢
    obtain ⟨s1, dataPackets⟩ := flushed
    dsimp only at hdata ⊢
    rw [status_maybeEmitZeroWindowProbe]
    rcases maybeEmitServerFin_finSent s1 (clock.drop (dataPackets.length + 1)) with hsame | hfinSent
    · rw [hsame]
      exact ⟨sent, by omega, hdata.quiet (ledger_maybeEmitZeroWindowProbe ..), fun _ => by omega⟩
    · rw [hfinSent]
      rcases maybeEmitServerFin_sends hdata.1 (clock.drop (dataPackets.length + 1)) with hsame | hsends
      · rw [hsame]
        exact ⟨sent, by omega, hdata.quiet (ledger_maybeEmitZeroWindowProbe ..), nofun⟩
      · exact ⟨sent + 1, by omega, (hdata.sends hsends).quiet (ledger_maybeEmitZeroWindowProbe ..), nofun⟩

theorem onlySends_flushServerOutput (state : TcpFlowState) (clock : Clock) :
    OnlySends state (flushServerOutput state clock).1 := by
  obtain ⟨n, hn, ⟨hseq, hack, hboard, added, hadded⟩, hdata⟩ := grown_flushServerOutput state clock
  have hwindow : (flushServerOutput state clock).1.sendWindow = state.sendWindow :=
    congrArg SendLimits.window (limits_flushServerOutput state clock)
  refine ⟨hack, hboard, congrArg SendWindow.windowEnd hwindow, ⟨added.map ServerSegment.range, ?_⟩, n, hn, hseq, hdata⟩
  rw [hadded, List.map_append]

section Handler

variable (state : TcpFlowState) (tcp : TunTcpConfig)

theorem ackSide_commitFlowChanges (now : Instant) : (commitFlowChanges state tcp now).1.ackSide = state.ackSide ∧
      (commitFlowChanges state tcp now).1.status = state.status := by
  unfold commitFlowChanges rescheduleFlow
  split
  · exact ⟨rfl, rfl⟩
  · split <;> exact ⟨rfl, rfl⟩

theorem OnlySends.clearDelayedAck (h : OnlySends (clearDelayedAck s) t) : OnlySends s t :=
  .before (t := Tcp.clearDelayedAck s) rfl h

theorem onlySends_commitAndReply (now : Instant)
    (build : TcpFlowState → List OutPacket) : OnlySends state (commitAndReply state tcp now build).state :=
  .quiet (ackSide_commitFlowChanges state tcp now).1

theorem ackSide_applyInbound (trimmed : TrimmedSegment) :
    (applyInbound state trimmed).1.ackSide = state.ackSide ∧ (applyInbound state trimmed).1.status = state.status := by
  unfold applyInbound drainReadyBufferedSegmentsFromState
  dsimp only
  split
  · exact ⟨rfl, rfl⟩
  · split <;> exact ⟨rfl, rfl⟩

theorem ackSide_resolveClientAck (shouldSendAck carriesData isFin hadBuffered : Bool)
    (flush : ServerFlush) (serverSeq rcvNxt : UInt32) (now : Instant) :
    let after := (resolveClientAck state shouldSendAck carriesData isFin hadBuffered flush serverSeq rcvNxt now).1
    after.ackSide = state.ackSide ∧ after.status = state.status := by
  unfold resolveClientAck
  split
  · exact ⟨rfl, rfl⟩
  · split
    · exact ⟨rfl, rfl⟩
    · dsimp only
      split <;> exact ⟨rfl, rfl⟩

theorem ackSide_setFlowStatus (status : TcpFlowStatus) (now : Instant) :
    (setFlowStatus state status now).ackSide = state.ackSide := by
  obtain ⟨timestamps, heq⟩ := setFlowStatus_eq state status now
  rw [heq]
  rfl

theorem transitionOnClientFin_frame (now : Instant) : (transitionOnClientFin state now).ackSide = state.ackSide ∧
      serverFinSent (transitionOnClientFin state now).status = serverFinSent state.status := by
  have hset : ∀ status, serverFinSent status = serverFinSent state.status →
      (setFlowStatus state status now).ackSide = state.ackSide ∧
        serverFinSent (setFlowStatus state status now).status = serverFinSent state.status := by
    intro status hsame
    obtain ⟨timestamps, heq⟩ := setFlowStatus_eq state status now
    rw [heq]
    exact ⟨rfl, hsame⟩
  unfold transitionOnClientFin
  split <;> rename_i hstatus
  · exact hset _ (by rw [hstatus]; rfl)
  · exact hset _ (by rw [hstatus]; rfl)
  · exact hset _ (by rw [hstatus]; rfl)
  · exact hset _ (by rw [hstatus]; rfl)
  all_goals exact ⟨rfl, rfl⟩

theorem transitionOnServerFinAck_ackSide (now : Instant) :
    (transitionOnServerFinAck state now).1.ackSide = state.ackSide := by
  unfold transitionOnServerFinAck
  split
  · exact ackSide_setFlowStatus ..
  · exact ackSide_setFlowStatus ..
  · exact ackSide_setFlowStatus ..
  all_goals rfl

theorem onlySends_abortFlow (h : OnlySends s t) (reason : String) : OnlySends s (abortFlow t reason).state :=
  h.after rfl nofun

theorem onlySends_applyInboundAndFlush (trimmed : TrimmedSegment) (clock : Clock) :
    OnlySends state (applyInboundAndFlush state trimmed clock).1 := by
  unfold applyInboundAndFlush
  obtain ⟨hside, -⟩ := ackSide_applyInbound state trimmed
  generalize applyInbound state trimmed = applied at hside ⊢
  obtain ⟨s1, payload, close⟩ := applied
  dsimp only at hside ⊢
  have hflush := onlySends_flushServerOutput s1 clock
  generalize flushServerOutput s1 clock = flushed at hflush ⊢
  obtain ⟨s2, flush⟩ := flushed
  obtain ⟨hresolved, hstatus⟩ := ackSide_resolveClientAck s2
    (segmentRequiresAck trimmed.sequenceNumber trimmed.flags trimmed.payload.length state.rcvNxt)
    (!trimmed.payload.isEmpty) close (!state.pendingClientSegments.isEmpty) flush s1.serverSeq s1.rcvNxt
    (clock.reading (flush.dataPackets.length + 4))
  exact (OnlySends.before hside hflush).after hresolved fun hopen => hstatus ▸ hopen

theorem onlySends_deliverSegment (trimmed : TrimmedSegment)
    (clock : Clock) : OnlySends state (deliverSegment state tcp trimmed clock).state := by
  unfold deliverSegment
  have hflush := onlySends_applyInboundAndFlush state trimmed clock
  generalize applyInboundAndFlush state trimmed clock = applied at hflush ⊢
  obtain ⟨s1, outcome⟩ := applied
  dsimp only at hflush ⊢
  have hbuffered : OnlySends state { s1 with pendingClientData := s1.pendingClientData ++ outcome.pendingPayload } :=
    hflush.after rfl id
  generalize ({ s1 with pendingClientData := s1.pendingClientData ++ outcome.pendingPayload } : TcpFlowState) = s2
    at hbuffered ⊢
  have hfin : OnlySends state (if outcome.shouldCloseClientHalf = true then transitionOnClientFin s2
      (clock.reading (outcome.serverFlush.dataPackets.length + 5)) else s2) := by
    split
    · obtain ⟨hside, hsent⟩ := transitionOnClientFin_frame s2
        (clock.reading (outcome.serverFlush.dataPackets.length + 5))
      exact hbuffered.after hside fun hopen => hsent ▸ hopen
    · exact hbuffered
  generalize (if outcome.shouldCloseClientHalf = true then transitionOnClientFin s2
    (clock.reading (outcome.serverFlush.dataPackets.length + 5)) else s2) = s3 at hfin ⊢
  split
  · exact onlySends_abortFlow hfin _
  · obtain ⟨hside, hstatus⟩ := ackSide_commitFlowChanges s3 tcp
      (clock.reading (outcome.serverFlush.dataPackets.length + 6))
    exact hfin.after hside fun hopen => hstatus ▸ hopen

theorem onlySends_ingestSegment (packet : ParsedTcpPacket)
    (clock : Clock) : OnlySends state (ingestSegment state tcp packet clock).state := by
  unfold ingestSegment
  split
  · have hqueued : (queueFutureSegmentWithRecvWindow state tcp packet).1.ackSide = state.ackSide := by
      unfold queueFutureSegmentWithRecvWindow
      split
      · rfl
      · dsimp only
        split <;> rfl
    split
    · rename_i s1 heq
      rw [heq] at hqueued
      exact onlySends_abortFlow (.quiet hqueued) _
    · rename_i s1 _ _ heq
      rw [heq] at hqueued
      exact .before hqueued (onlySends_commitAndReply (clearDelayedAck s1) ..).clearDelayedAck
  · exact (onlySends_commitAndReply (clearDelayedAck state) ..).clearDelayedAck
  · exact onlySends_deliverSegment ..

theorem onlySends_gateAndIngest (packet : ParsedTcpPacket)
    (clock : Clock) : OnlySends state (gateAndIngest state tcp packet clock).state := by
  unfold gateAndIngest
  split
  · exact onlySends_commitAndReply ..
  · split
    · exact onlySends_commitAndReply ..
    · exact onlySends_ingestSegment ..

theorem onlySends_acknowledgeAndIngest (packet : ParsedTcpPacket) (clock : Clock) :
    OnlySends (processServerAck state packet.acknowledgementNumber packet.sackBlocks clock).1
      (acknowledgeAndIngest state tcp packet clock).state := by
  simp only [acknowledgeAndIngest]
  generalize processServerAck state packet.acknowledgementNumber packet.sackBlocks clock = acked
  obtain ⟨s1, effect⟩ := acked
  dsimp only
  generalize hprogress : (if effect.hasAckProgress = true then
    noteAckProgress s1 effect ((clock.drop state.unackedServerSegments.length).reading 0) else s1) = s2
  have h2 : s2.ackSide = s1.ackSide := by grind [noteAckProgress_frame, ackSide_of_ledger]
  generalize hfin : serverFinAck s2 packet ((clock.drop state.unackedServerSegments.length).reading 1) = moved
  have h3 : moved.1.ackSide = s1.ackSide := by
    rw [← hfin, serverFinAck]
    split
    · exact (transitionOnServerFinAck_ackSide ..).trans h2
    · exact h2
  obtain ⟨s3, closes⟩ := moved
  split
  · exact .quiet ((ackSide_setFlowStatus ..).trans h3)
  · generalize hresent : (if effect.retransmitNow = true then retransmitOldestUnackedPacket s3
      ((clock.drop state.unackedServerSegments.length).drop 2) else (s3, none)) = resent
    have h4 : resent.1.ackSide = s1.ackSide := by
      rw [← hresent]
      split
      · unfold retransmitOldestUnackedPacket
        split
        · exact h3
        · refine Eq.trans (And.left (ackSide_resendSegment s3 _ ?_)) h3
          intro segment
          rfl
      · exact h3
    obtain ⟨s4, reply⟩ := resent
    cases reply with
    | none => exact .before h4 (onlySends_gateAndIngest ..)
    | some reply =>
      dsimp only
      split
      · exact onlySends_abortFlow (.quiet h4) _
      · exact .before h4 (onlySends_commitAndReply ..)

end Handler

section Arithmetic

theorem toNat_sub_of_behind (state : TcpFlowState) (x y : UInt32) :
    (x - y).toNat = (2 ^ 32 - state.behind x + state.behind y) % 2 ^ 32 := by
  rw [← sub_sub_sub_cancel_left y x state.serverSeq, UInt32.toNat_sub]
  rfl

theorem behind_lt (state : TcpFlowState) (x : UInt32) : state.behind x < 2 ^ 32 :=
  (state.serverSeq - x).toNat_lt

theorem toNat_sendWindowRemaining (state : TcpFlowState) : (sendWindowRemaining state).toNat =
      if state.behind state.clientWindowEnd < 2 ^ 31 then 0 else 2 ^ 32 - state.behind state.clientWindowEnd := by
  grind [sendWindowRemaining, TcpFlowState.behind, behind_lt, seqGe_iff, toNat_sub_of_behind]

theorem behind_ahead (state : TcpFlowState) (x w : UInt32) :
    state.behind (x + w) = (2 ^ 32 - w.toNat + state.behind x) % 2 ^ 32 := by
  rw [TcpFlowState.behind, sub_add_eq_sub_sub, UInt32.toNat_sub]
  rfl

/-- The last acknowledgement is close behind the send position, and what the window lets the flow send
does not take it far away. -/
structure AckInv (state : TcpFlowState) : Prop where
  near : state.behind state.lastClientAck ≤ 2 ^ 30 + 1
  room : serverFinSent state.status = false →
    state.behind state.lastClientAck + (sendWindowRemaining state).toNat ≤ 2 ^ 30

theorem AckInv.not_ahead (h : AckInv state) : seqGt state.lastClientAck state.serverSeq = false := by
  have hnear := h.near
  grind [TcpFlowState.behind, seqGt_iff, toNat_sub_of_behind]

theorem AckInv.sends (h : AckInv s) (hopen : serverFinSent s.status = false) (hsends : OnlySends s t) : AckInv t := by
  obtain ⟨n, hn, hseq, hdata⟩ := hsends.serverSeq
  have hroom := h.room hopen
  have hbehind := behind_add hseq (by omega : n < 2 ^ 32)
  have hack := hbehind s.lastClientAck
  refine ⟨?_, fun hopen' => ?_⟩
  · rw [hsends.lastClientAck, hack]
    omega
  · have hlastClientAck := hsends.lastClientAck
    have hwindowEnd := hsends.windowEnd
    grind [behind_lt, toNat_sendWindowRemaining]

end Arithmetic

section Acknowledge

theorem lastClientAck_popAcked (ack : UInt32) (clock : Clock) (i : Nat) (segments : List ServerSegment)
    (state : TcpFlowState) (samples : PopSamples) :
    (popAcked ack clock i segments state samples).1.lastClientAck = state.lastClientAck := by
  induction segments generalizing state samples i with
  | nil => rfl
  | cons segment rest ih =>
    rw [popAcked]
    split
    · rfl
    · split <;> split <;> exact ih ..

theorem lastClientAck_processServerAck (state : TcpFlowState) (ack : UInt32) (blocks : List (UInt32 × UInt32))
    (clock : Clock) : (processServerAck state ack blocks clock).1.lastClientAck =
      if state.unackedServerSegments = [] ∨ seqGt ack state.lastClientAck = true then ack
      else state.lastClientAck := by
  have hupdated : (ackUpdated state ack blocks).unackedServerSegments = state.unackedServerSegments ∧
      (ackUpdated state ack blocks).lastClientAck = state.lastClientAck := by
    unfold ackUpdated
    dsimp only
    split <;> exact ⟨rfl, rfl⟩
  have htrimmed : ∀ s : TcpFlowState, (ackTrimmed s ack).lastClientAck = s.lastClientAck := by
    intro s
    unfold ackTrimmed
    dsimp only
    split <;> rfl
  rw [processServerAck_eq, htrimmed, ← hupdated.1, ← hupdated.2]
  generalize ackUpdated state ack blocks = updated
  unfold ackBranch
  by_cases hempty : updated.unackedServerSegments = []
  · rw [if_pos (List.isEmpty_iff.2 hempty), if_pos (.inl hempty)]
  · rw [if_neg (fun h => hempty (List.isEmpty_iff.1 h))]
    by_cases hgt : seqGt ack updated.lastClientAck = true
    · have hadvance := congrArg Ledger.positions (ledger_advanceServerAck updated ack clock)
      rw [if_pos hgt, if_pos (.inr hgt)]
      refine (congrArg Positions.lastClientAck hadvance).trans ?_
      refine (congrArg Positions.lastClientAck (refreshEarliestAfterPop_frame _).1).trans ?_
      exact lastClientAck_popAcked ..
    · rw [if_neg hgt, if_neg (not_or.2 ⟨hempty, hgt⟩)]
      split
      · exact congrArg (fun ledger => ledger.positions.lastClientAck) (ledger_duplicateServerAck updated _)
      · rfl

/-- A packet whose acknowledgement the flow may believe: the flag is set, the number lies less than
half the number space behind, and with nothing in flight it takes nothing back. -/
def RealAck (state : TcpFlowState) (packet : ParsedTcpPacket) : Prop :=
  validateExistingPacket state packet = .accept →
    packet.flags.ack = true ∧ state.behind packet.acknowledgementNumber < 2 ^ 31 ∧
      (state.unackedServerSegments = [] → seqLt packet.acknowledgementNumber state.lastClientAck = false)

theorem lastClientAck_absorb (state : TcpFlowState) (packet : ParsedTcpPacket) (now : Instant) :
    let after := absorbAcceptedClientPacket state packet now
    after.unackedServerSegments = state.unackedServerSegments ∧ after.lastClientAck = state.lastClientAck ∧
      after.serverSeq = state.serverSeq ∧ after.status = state.status := by
  have hpositions := congrArg Ledger.positions (absorb_frame state packet now).1
  exact ⟨congrArg Positions.segments hpositions, congrArg Positions.lastClientAck hpositions,
    congrArg Positions.serverSeq hpositions,
    congrArg DownSide.status (downSide_absorbAcceptedClientPacket state now packet)⟩

theorem AckInv.acknowledge (h : AckInv state) (hopen : serverFinSent state.status = false)
    (hack : state.behind packet.acknowledgementNumber < 2 ^ 31)
    (hempty : state.unackedServerSegments = [] → seqLt packet.acknowledgementNumber state.lastClientAck = false)
    (now : Instant) (clock : Clock) :
    let after := (processServerAck (absorbAcceptedClientPacket state packet now) packet.acknowledgementNumber
      packet.sackBlocks clock).1
    AckInv after ∧ seqLt after.lastClientAck state.lastClientAck = false := by
  dsimp only
  obtain ⟨hqueue, hlast, hseq, hstatus⟩ := lastClientAck_absorb state packet now
  have hwindow := sendWindow_absorb state packet now
  have hroom := h.room hopen
  generalize absorbAcceptedClientPacket state packet now = absorbed at hqueue hlast hseq hstatus hwindow ⊢
  have hbehind := behind_congr hseq
  have hnear' : absorbed.behind absorbed.lastClientAck < 2 ^ 31 := by
    rw [hbehind, hlast]
    omega
  have hack' : absorbed.behind packet.acknowledgementNumber < 2 ^ 31 := by
    rw [hbehind]
    exact hack
  have hempty' : absorbed.unackedServerSegments = [] →
      seqLt packet.acknowledgementNumber absorbed.lastClientAck = false := fun h => hlast ▸ hempty (hqueue ▸ h)
  have hpassed := lastClientAck_processServerAck absorbed packet.acknowledgementNumber packet.sackBlocks clock
  have hlimits : (processServerAck absorbed packet.acknowledgementNumber packet.sackBlocks clock).1.sendWindow =
      absorbed.sendWindow := congrArg SendLimits.window (limits_processServerAck ..)
  have hdown := downSide_processServerAck absorbed clock packet.acknowledgementNumber packet.sackBlocks
  have hseq' : (processServerAck absorbed packet.acknowledgementNumber packet.sackBlocks clock).1.serverSeq =
      state.serverSeq := (congrArg DownSide.serverSeq hdown).trans hseq
  generalize (processServerAck absorbed packet.acknowledgementNumber packet.sackBlocks clock).1 = acked at *
  obtain ⟨hforward, hkept, hreached⟩ : seqLt acked.lastClientAck absorbed.lastClientAck = false ∧
      absorbed.behind acked.lastClientAck ≤ absorbed.behind absorbed.lastClientAck ∧
      absorbed.behind acked.lastClientAck ≤ absorbed.behind packet.acknowledgementNumber := by
    grind [seqLt, seqGt, seqLt_iff, toNat_sub_of_behind, seqGt_iff]
  rw [hbehind, hbehind, hlast] at hkept
  rw [hbehind, hbehind] at hreached
  have hbehind' := behind_congr hseq'
  refine ⟨⟨?_, fun _ => ?_⟩, hlast ▸ hforward⟩
  · rw [hbehind']
    omega
  · have hend : acked.clientWindowEnd = absorbed.sendWindow.windowEnd := congrArg SendWindow.windowEnd hlimits
    rw [hbehind', toNat_sendWindowRemaining, hbehind', hend, hwindow]
    by_cases htakes : takesWindow state packet = true
    · -- the window counts from the packet's own number
      have hsmall := decodeClientWindow_le packet state.clientWindowScale
      have hedge := behind_ahead state packet.acknowledgementNumber (decodeClientWindow packet state.clientWindowScale)
      rw [if_pos htakes]
      change _ + (if state.behind (packet.acknowledgementNumber + decodeClientWindow packet state.clientWindowScale) <
        2 ^ 31 then 0 else 2 ^ 32 - state.behind (packet.acknowledgementNumber + decodeClientWindow packet
          state.clientWindowScale)) ≤ _
      rw [hedge]
      split <;> omega
    · have hheld := toNat_sendWindowRemaining state
      rw [if_neg htakes]
      change _ +
        (if state.behind state.clientWindowEnd < 2 ^ 31 then 0 else 2 ^ 32 - state.behind state.clientWindowEnd) ≤ _
      omega

end Acknowledge

/-- The flow is open for data both ways as far as the stack is concerned: past the handshake, its own
FIN not sent. -/
def InSession (state : TcpFlowState) : Prop :=
  state.status ≠ .synReceived ∧ serverFinSent state.status = false

inductive AckRun (tcp : TunTcpConfig) (ok : TcpFlowState → ParsedTcpPacket → Prop) : TcpFlowState → Prop
  | start {state : TcpFlowState} : state.unackedServerSegments = [] → state.lastClientAck = state.serverSeq →
      (sendWindowRemaining state).toNat ≤ 2 ^ 30 → AckRun tcp ok state
  | packet {state : TcpFlowState} (packet : ParsedTcpPacket) (clock : Clock) : AckRun tcp ok state →
      InSession state → ok state packet → AckRun tcp ok (handleExistingFlow state tcp packet clock).state
  | flush {state : TcpFlowState} (clock : Clock) : AckRun tcp ok state → InSession state →
      AckRun tcp ok (flushServerOutput state clock).1
  | other {s t : TcpFlowState} : AckRun tcp ok s → t.ackSide = s.ackSide → t.status = s.status → AckRun tcp ok t

structure Believes (state : TcpFlowState) (packet : ParsedTcpPacket) (after : TcpFlowState) : Prop where
  not_ahead : seqGt after.lastClientAck after.serverSeq = false
  forward : seqLt after.lastClientAck state.lastClientAck = false
  acknowledged : ∃ popped kept added, state.unackedServerSegments = popped ++ kept ∧
    after.unackedServerSegments.map ServerSegment.range = kept.map ServerSegment.range ++ added ∧
    ∀ segment ∈ popped, validateExistingPacket state packet = .accept ∧ packet.flags.ack = true ∧
      seqGe packet.acknowledgementNumber (serverSegmentEnd segment) = true
  silent : packet.flags.ack = false → after.unackedServerSegments = state.unackedServerSegments ∧
    after.lastClientAck = state.lastClientAck ∧ after.sackScoreboard = state.sackScoreboard ∧
    after.clientWindowEnd = state.clientWindowEnd

theorem seqLt_self (x : UInt32) : seqLt x x = false := by
  rw [← Bool.not_eq_true, seqLt_iff, sub_self]
  decide

theorem Believes.refused (h : AckInv state) {after : TcpFlowState} {status : TcpFlowStatus}
    {timestamps : FlowTimestamps}
    (hafter : after = { state with status := status, timestamps := timestamps }) : Believes state packet after := by
  subst hafter
  exact ⟨h.not_ahead, seqLt_self _, ⟨[], _, [], rfl, (List.append_nil _).symm, nofun⟩, fun _ => ⟨rfl, rfl, rfl, rfl⟩⟩

theorem AckInv.handle (h : AckInv state) (hsession : InSession state) (hok : RealAck state packet)
    (tcp : TunTcpConfig) (clock : Clock) :
    AckInv (handleExistingFlow state tcp packet clock).state ∧
      Believes state packet (handleExistingFlow state tcp packet clock).state := by
  obtain ⟨hsyn, hopen⟩ := hsession
  unfold handleExistingFlow
  rw [if_neg (by simp [hsyn])]
  cases hvalid : validateExistingPacket state packet with
  | ignore => exact ⟨h, .refused h rfl⟩
  | challengeAck event => exact ⟨h, .refused h rfl⟩
  | closeFlow reason =>
    obtain ⟨timestamps, hclosed⟩ := setFlowStatus_eq state .closed (clock.reading 0)
    have hstate : (closeFlow state reason (clock.reading 0)).state =
        { state with status := .closed, timestamps := timestamps } := hclosed
    dsimp only
    rw [hstate]
    exact ⟨⟨h.near, nofun⟩, .refused h rfl⟩
  | accept =>
    obtain ⟨hflag, hnear, hempty⟩ := hok hvalid
    obtain ⟨hqueue, hlast, hseq, hstatus⟩ := lastClientAck_absorb state packet (clock.reading 0)
    obtain ⟨hinv, hforward⟩ := h.acknowledge hopen hnear hempty (clock.reading 0) (clock.drop 1)
    dsimp only
    rw [if_neg (hstatus ▸ hsyn)]
    generalize absorbAcceptedClientPacket state packet (clock.reading 0) = absorbed at *
    obtain ⟨popped, hsplit, hpopped⟩ := processServerAck_pops absorbed (clock.drop 1) packet.acknowledgementNumber
      packet.sackBlocks
    have hsends := onlySends_acknowledgeAndIngest absorbed tcp packet (clock.drop 1)
    have hstatus' : (processServerAck absorbed packet.acknowledgementNumber packet.sackBlocks (clock.drop 1)).1.status =
        state.status := (congrArg DownSide.status (downSide_processServerAck ..)).trans hstatus
    generalize (processServerAck absorbed packet.acknowledgementNumber packet.sackBlocks (clock.drop 1)).1 = acked at *
    have hafter := hinv.sends (hstatus' ▸ hopen) hsends
    obtain ⟨added, hadded⟩ := hsends.ranges
    refine ⟨hafter, hafter.not_ahead, hsends.lastClientAck ▸ hforward,
      ⟨popped, acked.unackedServerSegments, added, hqueue ▸ hsplit, hadded, fun segment hmem => ?_⟩, fun hnone => ?_⟩
    · exact ⟨hvalid, hflag, hpopped segment hmem⟩
    · rw [hflag] at hnone
      cases hnone

theorem AckRun.inv (h : AckRun tcp RealAck state) : AckInv state := by
  induction h with
  | @start state hqueue hack hroom =>
    have hzero : state.behind state.lastClientAck = 0 := by
      rw [TcpFlowState.behind, hack, sub_self]
      rfl
    exact ⟨by omega, fun _ => by omega⟩
  | packet packet clock _ hsession hok ih => exact (ih.handle hsession hok tcp clock).1
  | flush clock _ hsession ih => exact ih.sends hsession.2 (onlySends_flushServerOutput _ clock)
  | @other s t _ hside hstatus ih =>
    have hlast : t.lastClientAck = s.lastClientAck := congrArg AckSide.lastClientAck hside
    have hbehind : t.behind t.lastClientAck = s.behind s.lastClientAck := by
      rw [behind_congr (congrArg AckSide.serverSeq hside), hlast]
    refine ⟨hbehind ▸ ih.near, fun hopen => ?_⟩
    rw [hbehind, sendWindowRemaining_congr hside]
    exact ih.room (hstatus ▸ hopen)

/-- In every run of an established flow whose accepted packets carry acknowledgements it may believe,
whatever the packets hold besides, the send side moves only on what they acknowledge. -/
theorem send_side_believes_real_acks (h : AckRun tcp RealAck state) (hsession : InSession state)
    (hok : RealAck state packet) (clock : Clock) :
    Believes state packet (handleExistingFlow state tcp packet clock).state :=
  (h.inv.handle hsession hok tcp clock).2

def threeInFlight : TcpFlowState := (flushServerOutput (pushServerChunk openFlow [1, 2, 3]) (Clock.still 1)).1

theorem send_side_believes_real_acks_of_three :
    Believes threeInFlight (clientAck 1003 65535)
      (handleExistingFlow threeInFlight {} (clientAck 1003 65535) (Clock.still 2)).state := by
  have hpushed : AckRun {} RealAck (pushServerChunk openFlow [1, 2, 3]) := .start rfl rfl (by decide +kernel)
  have hrun : AckRun {} RealAck threeInFlight :=
    hpushed.flush (Clock.still 1) ⟨by decide +kernel, by decide +kernel⟩
  exact send_side_believes_real_acks hrun ⟨by decide +kernel, by decide +kernel⟩
    (fun _ => ⟨rfl, by decide +kernel, fun hnil => absurd hnil (by decide +kernel)⟩) (Clock.still 2)

/-- A data packet without the ACK flag acknowledges bytes that were never sent, and takes the three in
flight off the queue.  An old acknowledgement takes back the last one once nothing is in flight. -/
theorem send_side_believes_forged_acks :
    let forged : ParsedTcpPacket := { clientAck 5000 65535 with flags := { psh := true }, payload := [7] }
    let fooled := (handleExistingFlow threeInFlight {} forged (Clock.still 2)).state
    let acked := (handleExistingFlow threeInFlight {} (clientAck 1003 65535) (Clock.still 2)).state
    let stale := (handleExistingFlow acked {} (clientAck 1000 65535) (Clock.still 3)).state
    (threeInFlight.unackedServerSegments.length = 1 ∧ fooled.unackedServerSegments = [] ∧
      fooled.lastClientAck = 5000 ∧ fooled.serverSeq = 1003 ∧ seqGt fooled.lastClientAck fooled.serverSeq = true ∧
      fooled.clientWindowEnd ≠ threeInFlight.clientWindowEnd) ∧
    (acked.lastClientAck = 1003 ∧ stale.lastClientAck = 1000) := by
  decide +kernel

end OutlineProxy.Tcp
