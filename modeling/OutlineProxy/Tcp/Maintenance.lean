import OutlineProxy.Tcp.Send

/-! Flow deadlines and the maintenance plan of one flow. -/

namespace OutlineProxy.Tcp

variable (state : TcpFlowState)

def nextPacingDeadline : Option Instant :=
  if state.pendingServerData.isEmpty then none else state.bbr.pacingNextAt

def nextZeroWindowProbeDeadline (now : Instant) : Option Instant :=
  if state.clientWindow == 0 && !state.pendingServerData.isEmpty && state.unackedServerSegments.isEmpty then
    some (state.nextZeroWindowProbeAt.getD now)
  else none

def earlier : Option Instant → Option Instant → Option Instant
  | some a, some b => some (min a b)
  | some a, none => some a
  | none, b => b

variable (tcp : TunTcpConfig)

def nextFlowDeadline (idleTimeout : Duration) (now : Instant) :
    Option Instant :=
  let deadline := [nextRetransmissionDeadline state, nextZeroWindowProbeDeadline state now,
    nextPacingDeadline state, nextKeepaliveDeadline state tcp.keepaliveIdle tcp.keepaliveInterval,
    state.delayedAckDeadline].foldl earlier none
  let deadline :=
    if state.status = .synReceived then
      earlier deadline (some (state.timestamps.statusSince + tcp.handshakeTimeout))
    else deadline
  let deadline :=
    if isHalfClosedStatus state.status then
      earlier deadline (some (state.timestamps.statusSince + tcp.halfCloseTimeout))
    else deadline
  if state.status = .timeWait then
    earlier deadline (some (state.timestamps.statusSince + tcpTimeWaitTimeout))
  else earlier deadline (some (state.timestamps.lastSeen + idleTimeout))

def rescheduleFlow (now : Instant) :
    TcpFlowState × Option Instant :=
  if state.status = .closed then ({ state with nextScheduledDeadline := none }, none)
  else
    match nextFlowDeadline state tcp state.idleTimeout now with
    | some newDeadline =>
      let push := state.nextScheduledDeadline.all fun current => decide (newDeadline < current)
      ({ state with nextScheduledDeadline := some newDeadline }, if push then some newDeadline else none)
    | none => ({ state with nextScheduledDeadline := none }, none)

def commitFlowChanges (now : Instant) :
    TcpFlowState × Option Instant :=
  rescheduleFlow state tcp now

def retransmitIsDue (now : Instant) : Bool :=
  (nextRetransmissionDeadline state).any fun deadline => decide (deadline ≤ now)

def zeroWindowProbeIsDue (now : Instant) : Bool :=
  if state.clientWindow != 0 || state.pendingServerData.isEmpty || !state.unackedServerSegments.isEmpty then
    false
  else state.nextZeroWindowProbeAt.all fun deadline => decide (deadline ≤ now)

def keepaliveProbeIsDue (keepaliveIdle : Option Duration)
    (keepaliveInterval : Duration) (now : Instant) : Bool :=
  (nextKeepaliveDeadline state keepaliveIdle keepaliveInterval).any fun deadline => decide (deadline ≤ now)

def keepaliveProbesExhausted (probesSent maxProbes : Nat) (lastProbeAt : Option Instant)
    (keepaliveInterval : Duration) (now : Instant) : Bool :=
  decide (maxProbes ≤ probesSent) && lastProbeAt.any fun last => decide (keepaliveInterval ≤ now - last)

inductive FlowMaintenancePlan where
  | wait (deadline : Option Instant)
  | sendPacket (packet : OutPacket) (packetMetric event : String)
  | sendDataPacket (packet : OutPacket) (packetMetric event : String)
  | flushServer (flush : ServerFlush)
  | abort (reason : String)
  | close (reason : String)

/-- What planning one flow yields: its state, the plan and the deadlines pushed by the
commits it made. -/
structure PlannedFlow where
  state : TcpFlowState
  plan : FlowMaintenancePlan
  pushed : Option Instant := none

def committed (now : Instant) (plan : FlowMaintenancePlan) :
    PlannedFlow :=
  let (state, pushed) := commitFlowChanges state tcp now
  ⟨state, plan, pushed⟩

def planProbes (idleTimeout : Duration) (now : Instant)
    (clock : Clock) : PlannedFlow :=
  if (nextPacingDeadline state).any fun deadline => decide (deadline ≤ now) then
    let (state, flush) := flushServerOutput state clock
    committed state tcp (clock.reading (flush.dataPackets.length + 4)) (.flushServer flush)
  else
    let (state, probe) :=
      if zeroWindowProbeIsDue state now then maybeEmitZeroWindowProbe state (clock.reading 0)
      else (state, none)
    match probe with
    | some packet =>
      committed state tcp (clock.reading 1) (.sendPacket packet "tcp_window_probe" "zero_window_probe")
    | none =>
      if tcp.keepaliveIdle.isSome && keepaliveProbeEligible state
          && keepaliveProbesExhausted state.keepaliveProbesSent tcp.keepaliveMaxProbes
            state.lastKeepaliveProbeAt tcp.keepaliveInterval now then
        ⟨state, .abort "keepalive_timeout", none⟩
      else
        let (state, probe) :=
          if keepaliveProbeIsDue state tcp.keepaliveIdle tcp.keepaliveInterval now then
            maybeEmitKeepaliveProbe state tcp.keepaliveIdle tcp.keepaliveInterval (clock.reading 1)
          else (state, none)
        match probe with
        | some packet =>
          committed state tcp (clock.reading 2)
            (.sendPacket packet "tcp_keepalive_probe" "keepalive_probe")
        | none =>
          if state.delayedAckDeadline.any fun deadline => decide (deadline ≤ now) then
            let packet := buildFlowAckPacket state state.serverSeq state.rcvNxt { ack := true }
            committed (clearDelayedAck state) tcp (clock.reading 2)
              (.sendPacket packet "tcp_ack" "delayed_ack")
          else ⟨state, .wait (nextFlowDeadline state tcp idleTimeout (clock.reading 2)), none⟩

def planFlowMaintenance (idleTimeout : Duration)
    (now : Instant) (clock : Clock) : PlannedFlow :=
  if timeWaitExpired state.status state.timestamps.statusSince now then
    ⟨state, .close "time_wait_expired", none⟩
  else if handshakeTimedOut state.status state.timestamps.statusSince tcp.handshakeTimeout now then
    ⟨state, .abort "handshake_timeout", none⟩
  else if halfCloseTimedOut state.status state.timestamps.statusSince tcp.halfCloseTimeout now then
    ⟨state, .abort "half_close_timeout", none⟩
  else if idleTimedOut state.status state.timestamps.lastSeen idleTimeout now then
    ⟨state, .abort "idle_timeout", none⟩
  else
    let (state, resent) :=
      if retransmitIsDue state now then retransmitDueSegment state clock else (state, none)
    let clock := clock.drop (2 + state.unackedServerSegments.length)
    match resent with
    | some packet =>
      let state := noteCongestionEvent state true
      if retransmitBudgetExhausted state tcp then ⟨state, .abort "retransmit_budget_exhausted", none⟩
      else committed state tcp (clock.reading 0)
        (.sendDataPacket packet "tcp_retransmit" "timeout_retransmit")
    | none => planProbes state tcp idleTimeout now clock

end OutlineProxy.Tcp
