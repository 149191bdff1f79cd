import OutlineProxy.Tcp.Congestion
import OutlineProxy.Tcp.Transitions

/-! The send path of the downlink: the paced flush, the server FIN, retransmissions and
the zero-window and keepalive probes. -/

namespace OutlineProxy.Tcp

def gsoMaxSuperSegmentPayload : Nat := 61440
def maxWritePayloadChunks : Nat := 128

def chunksLen (chunks : List Bytes) : Nat := (chunks.map List.length).sum

variable (state : TcpFlowState)

def chargePendingServer (n : Nat) : TcpFlowState :=
  { state with pendingServerBytesTotal := state.pendingServerBytesTotal + n }

def pushServerChunk (chunk : Bytes) : TcpFlowState :=
  let state := chargePendingServer state chunk.length
  { state with pendingServerData := state.pendingServerData ++ [chunk] }

/-- Up to `target` bytes off the queue in at most `slots` chunks, and the rest of the queue. -/
def takeChunks : Nat → Nat → List Bytes → List Bytes × List Bytes
  | _, _, [] => ([], [])
  | target, slots, front :: rest =>
    if target = 0 ∨ slots = 0 then ([], front :: rest)
    else if front.isEmpty then takeChunks target slots rest
    else if front.length ≤ target then
      let (taken, left) := takeChunks (target - front.length) (slots - 1) rest
      (front :: taken, left)
    else ([front.take target], front.drop target :: rest)

def takePendingServerPayload (target : Nat) : List Bytes × TcpFlowState :=
  let (chunks, left) := takeChunks target maxWritePayloadChunks state.pendingServerData
  (chunks, { state with
    pendingServerData := left
    pendingServerBytesTotal := state.pendingServerBytesTotal - chunksLen chunks })

def sliceChunks : List Bytes → Nat → Nat → Bytes
  | [], _, _ => []
  | chunk :: rest, start, stop =>
    if chunk.length ≤ start then sliceChunks rest (start - chunk.length) (stop - chunk.length)
    else if stop ≤ chunk.length then (chunk.take stop).drop start
    else chunk.drop start ++ collect rest (stop - chunk.length)
where
  collect : List Bytes → Nat → Bytes
  | [], _ => []
  | chunk :: rest, wanted =>
    if wanted = 0 then [] else chunk.take wanted ++ collect rest (wanted - chunk.length)

/-- The scoreboard entries of one write: segments of at most `mss` bytes from `offset` on.
`fuel` bounds their number by the bytes still to cut. -/
def cutSegments (template : ServerSegment) (chunks : List Bytes) (mss : Nat) :
    Nat → Nat → UInt32 → List ServerSegment
  | 0, _, _ => []
  | fuel + 1, offset, sequenceNumber =>
    let total := chunksLen chunks
    if offset < total then
      let stop := min (offset + mss) total
      { template with sequenceNumber := sequenceNumber, payload := sliceChunks chunks offset stop } ::
        cutSegments template chunks mss fuel stop (sequenceNumber + UInt32.ofNat (stop - offset))
    else []

def pushUnackedSegments (startSequence acknowledgementNumber : UInt32)
    (flags : TcpFlags) (chunks : List Bytes) (mss : Nat) (appLimited : Bool) (sentAt : Instant) :
    TcpFlowState :=
  -- sending into an empty pipe starts a new flight
  let state :=
    if state.pipeSegments = 0 then
      { state with firstTxMstamp := sentAt, bbr := { state.bbr with deliveredAt := sentAt } }
    else state
  let template : ServerSegment :=
    { sequenceNumber := startSequence
      acknowledgementNumber := acknowledgementNumber
      flags := flags
      payload := []
      lastSent := sentAt
      firstSent := sentAt
      retransmits := 0
      rtoRetransmits := 0
      fastRetransmitEpoch := 0
      deliveredSnapshot := state.bbr.delivered
      deliveredAtSnapshot := state.bbr.deliveredAt
      firstTxSnapshot := state.firstTxMstamp
      appLimited := appLimited }
  let segments := cutSegments template chunks mss (chunksLen chunks) 0 startSequence
  { state with
    unackedServerSegments := state.unackedServerSegments ++ segments
    pipeBytes := state.pipeBytes + chunksLen chunks
    pipeSegments := state.pipeSegments + segments.length
    earliestUnsackedSent := state.earliestUnsackedSent.or (some sentAt) }

def refillPacingCredit (now : Instant) : TcpFlowState :=
  let rate := pacingRateFrom state.bbr
  let cap := pacingBurstCapBytes (serverMaxSegmentPayload state) rate
  { state with bbr := refillCreditAt state.bbr rate cap now }

def pacingReleaseAt (byteCount : Nat) : Instant :=
  releaseAtFor state.bbr byteCount (max (pacingRateFrom state.bbr) 1)

/-- One write of the flush: the packet for `payload` and the state after it went out. -/
def emitServerData (payload : List Bytes) (pacing : Bool)
    (maxPayloadPerSegment available : Nat) (sentAt : Instant) : TcpFlowState × OutPacket :=
  let payloadLen := chunksLen payload
  let appLimited := state.pendingServerData.isEmpty && decide (payloadLen < available)
  let flags : TcpFlags := { ack := true, psh := true }
  let packet :=
    if state.gsoEnabled && decide (maxPayloadPerSegment < payloadLen) then
      buildGsoFlowPacket state state.serverSeq state.rcvNxt flags maxPayloadPerSegment payload
    else buildFlowDataPacket state state.serverSeq state.rcvNxt flags payload
  let state := pushUnackedSegments state state.serverSeq state.rcvNxt flags payload
    maxPayloadPerSegment appLimited sentAt
  let state := { state with
    serverSeq := state.serverSeq + UInt32.ofNat payloadLen
    bbr := if pacing then { state.bbr with pacingCredit := state.bbr.pacingCredit - payloadLen }
      else state.bbr }
  (resetZeroWindowPersist state, packet)

/-- The loop of `flushServerData`.  Every round removes a byte or an empty chunk from the
queue, which is what `fuel` counts. -/
def flushLoop (clock : Clock) (pacing : Bool) (maxPayloadPerSegment : Nat) :
    Nat → TcpFlowState → List OutPacket → Nat → TcpFlowState × List OutPacket
  | 0, state, packets, _ => (state, packets)
  | fuel + 1, state, packets, available =>
    if available = 0 then (state, packets)
    else
      match state.pendingServerData with
      | [] => (state, packets)
      | front :: rest =>
        if front.isEmpty then
          flushLoop clock pacing maxPayloadPerSegment fuel { state with pendingServerData := rest }
            packets available
        else
          let perWriteCap := if state.gsoEnabled then gsoMaxSuperSegmentPayload else maxPayloadPerSegment
          let target := min perWriteCap available
          let target := if pacing then min target state.bbr.pacingCredit else target
          if target = 0 then
            ({ state with
              bbr := { state.bbr with
                pacingNextAt := some (pacingReleaseAt state maxPayloadPerSegment) } }, packets)
          else
            let (payload, state) := takePendingServerPayload state target
            if payload.isEmpty then (state, packets)
            else
              let (state, packet) := emitServerData state payload pacing maxPayloadPerSegment available
                (clock.reading (packets.length + 1))
              flushLoop clock pacing maxPayloadPerSegment fuel state (packets ++ [packet])
                (available - chunksLen payload)

/-- The bytes the flush may send: the peer's window and the congestion window, whose
`usize` is cut to 32 bits. -/
def availableWindow : Nat :=
  min (sendWindowRemaining state).toNat (congestionWindowRemaining state % 2 ^ 32)

variable (clock : Clock)

def flushServerData : TcpFlowState × List OutPacket :=
  let state := refillPacingCredit state (clock.reading 0)
  let pacing := pacingActive state
  let state := { state with bbr := { state.bbr with pacingNextAt := none } }
  flushLoop clock pacing (serverMaxSegmentPayload state)
    (chunksLen state.pendingServerData + state.pendingServerData.length + 1) state [] (availableWindow state)

def serverWindowStalled : Bool :=
  sendWindowRemaining state == 0 && !state.pendingServerData.isEmpty

def finStatus : TcpFlowStatus → TcpFlowStatus
  | .closeWait => .lastAck
  | .synReceived | .established => .finWait1
  | status => status

def maybeEmitServerFin : TcpFlowState × Option OutPacket :=
  if !state.serverFinPending || !state.pendingServerData.isEmpty
      || !state.unackedServerSegments.isEmpty || state.status == .closed || state.status == .timeWait then
    (state, none)
  else
    let flags : TcpFlags := { fin := true, ack := true }
    let packet := buildFlowPacket state state.serverSeq state.rcvNxt flags []
    let sequenceNumber := state.serverSeq
    let state := { state with serverSeq := state.serverSeq + 1, serverFinPending := false }
    let state := setFlowStatus state (finStatus state.status) (clock.reading 0)
    let sentAt := clock.reading 1
    let segment : ServerSegment :=
      { sequenceNumber := sequenceNumber
        acknowledgementNumber := state.rcvNxt
        flags := flags
        payload := []
        lastSent := sentAt
        firstSent := sentAt
        retransmits := 0
        rtoRetransmits := 0
        fastRetransmitEpoch := 0
        deliveredSnapshot := state.bbr.delivered
        deliveredAtSnapshot := state.bbr.deliveredAt
        firstTxSnapshot := state.firstTxMstamp
        appLimited := true }
    ({ state with
      unackedServerSegments := state.unackedServerSegments ++ [segment]
      pipeBytes := state.pipeBytes + 1
      pipeSegments := state.pipeSegments + 1
      earliestUnsackedSent := state.earliestUnsackedSent.or (some sentAt) }, some packet)

def maybeEmitZeroWindowProbe (now : Instant) : TcpFlowState × Option OutPacket :=
  if sendWindowRemaining state != 0 || state.pendingServerData.isEmpty
      || !state.unackedServerSegments.isEmpty then (state, none)
  else if state.nextZeroWindowProbeAt.any fun deadline => decide (now < deadline) then (state, none)
  else
    match state.pendingServerData with
    | (probeByte :: _) :: _ =>
      let packet := buildFlowPacket state state.serverSeq state.rcvNxt { ack := true, psh := true }
        [probeByte]
      let current := state.zeroWindowProbeBackoff
      ({ state with
        nextZeroWindowProbeAt := some (now + current)
        zeroWindowProbeBackoff := min (current * 2) tcpZeroWindowProbeMaxInterval }, some packet)
    | _ => (state, none)

def flushServerOutput : TcpFlowState × ServerFlush :=
  if state.status = .synReceived then (state, {})
  else
    let (state, dataPackets) := flushServerData state clock
    let windowStalled := serverWindowStalled state
    let (state, finPacket) := maybeEmitServerFin state (clock.drop (dataPackets.length + 1))
    let (state, probePacket) := maybeEmitZeroWindowProbe state (clock.reading (dataPackets.length + 3))
    (state, ⟨dataPackets, finPacket, probePacket, windowStalled⟩)

/-- Common end of both retransmissions: the resent bytes are charged as lost, the
accounting is rebuilt and the packet is built from the stored segment. -/
def resendSegment (index : Nat) (mark : ServerSegment → ServerSegment) :
    TcpFlowState × Option OutPacket :=
  match state.unackedServerSegments[index]? with
  | none => (state, none)
  | some segment =>
    let state := { state with
      unackedServerSegments := state.unackedServerSegments.set index (mark segment)
      bbr := noteBytesLost state.bbr segment.payload.length }
    let state := rebuildUnackedAccounting state
    (state, some (buildFlowDataPacket state segment.sequenceNumber
      (max state.rcvNxt segment.acknowledgementNumber) segment.flags [segment.payload]))

def retransmitOldestUnackedPacket :
    TcpFlowState × Option OutPacket :=
  match fastRetransmitIndex state with
  | none => (state, none)
  | some index =>
    resendSegment state index fun segment =>
      { segment with
        lastSent := clock.reading 0
        retransmits := segment.retransmits + 1
        fastRetransmitEpoch := state.recoveryEpoch }

def dueRetransmitIndex : Option Nat :=
  let rto := state.retransmissionTimeout
  let overdue := fun (index : Nat) (now : Instant) =>
    state.unackedServerSegments[index]?.any fun segment => decide (rto ≤ now - segment.lastSent)
  ((preferredRetransmitIndex state).filter fun index => overdue index (clock.reading 0))
    |>.or (state.unackedServerSegments.zipIdx.findIdx? fun entry =>
      !serverSegmentIsSacked state entry.1
        && decide (rto ≤ clock.reading (1 + entry.2) - entry.1.lastSent))

def retransmitDueSegment : TcpFlowState × Option OutPacket :=
  match dueRetransmitIndex state clock with
  | none => (state, none)
  | some index =>
    resendSegment state index fun segment =>
      { segment with
        lastSent := clock.reading (1 + state.unackedServerSegments.length)
        retransmits := segment.retransmits + 1
        rtoRetransmits := segment.rtoRetransmits + 1 }

def retransmitBudgetExhausted (config : TunTcpConfig) : Bool :=
  (state.unackedServerSegments.filter fun segment => !serverSegmentIsSacked state segment).any
    fun segment => decide (config.maxRetransmits ≤ segment.rtoRetransmits)

def keepaliveProbeEligible : Bool :=
  state.status == .established && state.pendingServerData.isEmpty && state.unackedServerSegments.isEmpty

def nextKeepaliveDeadline (keepaliveIdle : Option Duration)
    (keepaliveInterval : Duration) : Option Instant :=
  keepaliveIdle.bind fun idle =>
    if !keepaliveProbeEligible state then none
    else
      match state.lastKeepaliveProbeAt with
      | some last => some (last + keepaliveInterval)
      | none => some (state.timestamps.lastSeen + idle)

def maybeEmitKeepaliveProbe (keepaliveIdle : Option Duration)
    (keepaliveInterval : Duration) (now : Instant) : TcpFlowState × Option OutPacket :=
  match nextKeepaliveDeadline state keepaliveIdle keepaliveInterval with
  | none => (state, none)
  | some deadline =>
    if now < deadline then (state, none)
    else
      let packet := buildFlowAckPacket state (state.serverSeq - 1) state.rcvNxt { ack := true }
      ({ state with
        keepaliveProbesSent := state.keepaliveProbesSent + 1
        lastKeepaliveProbeAt := some now }, some packet)

end OutlineProxy.Tcp
