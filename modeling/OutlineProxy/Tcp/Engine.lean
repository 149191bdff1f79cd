import OutlineProxy.Tcp.Deliver
import OutlineProxy.Tcp.Maintenance

/-! The engine around one flow: validation of an inbound packet, the handler of packets
that belong to an existing flow, the opening of a flow and the drain of the upstream pump. -/

namespace OutlineProxy.Tcp

inductive PacketValidation where
  | accept
  | ignore
  | challengeAck (event : String)
  | closeFlow (reason : String)
deriving DecidableEq

variable (state : TcpFlowState)

def challengeOrIgnore (packet : ParsedTcpPacket) (event : String) :
    PacketValidation :=
  if packetOverlapsReceiveWindow state packet then .challengeAck event else .ignore

def validatePacketTimestamps (packet : ParsedTcpPacket) : PacketValidation :=
  if !state.timestampsEnabled || packet.flags.rst then .accept
  else
    match packet.timestampValue with
    | none => challengeOrIgnore state packet "missing_timestamp"
    | some timestampValue =>
      if state.recentClientTimestamp.any fun recent => timestampLt timestampValue recent then
        challengeOrIgnore state packet "paws_reject"
      else .accept

def validateExistingPacket (packet : ParsedTcpPacket) : PacketValidation :=
  if packet.flags.rst then
    if packet.sequenceNumber == state.rcvNxt then .closeFlow "client_rst"
    else challengeOrIgnore state packet "invalid_rst"
  else
    match validatePacketTimestamps state packet with
    | .accept =>
      if packet.flags.syn then challengeOrIgnore state packet "unexpected_syn"
      else if packet.flags.ack && seqGt packet.acknowledgementNumber state.serverSeq then
        challengeOrIgnore state packet "ack_above_snd_nxt"
      else .accept
    | other => other

inductive FlowFate where
  | alive
  | closed (reason : String)
  | aborted (reason : String)
deriving DecidableEq

/-- What one call of the engine does to a flow: its next state, the packets written, the deadline pushed, the payload
handed to the pump and whether the flow survives. -/
structure EngineStep where
  state : TcpFlowState
  packets : List OutPacket := []
  pushed : Option Instant := none
  delivered : List Bytes := []
  closedClientHalf : Bool := false
  fate : FlowFate := .alive

variable (tcp : TunTcpConfig)

def commitAndReply (now : Instant)
    (build : TcpFlowState → List OutPacket) : EngineStep :=
  let (state, pushed) := commitFlowChanges state tcp now
  { state := state, packets := build state, pushed := pushed }

def pureAck : List OutPacket :=
  [buildFlowAckPacket state state.serverSeq state.rcvNxt { ack := true }]

def synAck : List OutPacket :=
  [buildFlowSynAckPacket state (state.serverSeq - 1) state.rcvNxt]

def abortFlow (reason : String) : EngineStep where
  state := { state with status := .closed }
  packets :=
    if state.status = .closed then []
    else [buildFlowPacket state state.serverSeq state.rcvNxt { rst := true, ack := true } []]
  fate := .aborted reason

def closeFlow (reason : String) (now : Instant) : EngineStep where
  state := setFlowStatus state .closed now
  fate := .closed reason

def flushPackets (flush : ServerFlush) : List OutPacket :=
  flush.dataPackets ++ flush.finPacket.toList ++ flush.probePacket.toList

/-- The end of `handle_existing_flow`: delivery of an in-window segment. -/
def deliverSegment (trimmed : TrimmedSegment)
    (clock : Clock) : EngineStep :=
  let (state, outcome) := applyInboundAndFlush state trimmed clock
  let packets := outcome.pendingAck.toList ++ flushPackets outcome.serverFlush
  let state := { state with pendingClientData := state.pendingClientData ++ outcome.pendingPayload }
  let now := clock.reading (outcome.serverFlush.dataPackets.length + 5)
  let exceeded := !outcome.pendingPayload.isEmpty && exceedsClientReassemblyLimits state tcp
  let state := if outcome.shouldCloseClientHalf then transitionOnClientFin state now else state
  if exceeded then abortFlow state "client_pending_data_limit"
  else
    let (state, pushed) := commitFlowChanges state tcp
      (clock.reading (outcome.serverFlush.dataPackets.length + 6))
    { state := state, packets := packets, pushed := pushed, delivered := outcome.pendingPayload,
      closedClientHalf := outcome.shouldCloseClientHalf }

def ingestSegment (packet : ParsedTcpPacket)
    (clock : Clock) : EngineStep :=
  match classifyInboundSegment state packet with
  | .beyondExpectedSequence =>
    match queueFutureSegmentWithRecvWindow state tcp packet with
    | (state, .wouldExceedLimits) => abortFlow state "client_reassembly_limit"
    | (state, _) => commitAndReply (clearDelayedAck state) tcp (clock.reading 0) pureAck
  | .outsideReceiveWindow => commitAndReply (clearDelayedAck state) tcp (clock.reading 0) pureAck
  | .deliver trimmed => deliverSegment state tcp trimmed clock

/-- The gates between acknowledgement processing and the dispatch: a lost server FIN is
resent, and nothing is delivered after the client's FIN. -/
def gateAndIngest (packet : ParsedTcpPacket)
    (clock : Clock) : EngineStep :=
  if serverFinAwaitingAck state.status
      && ackIsStaleServerFinRetry packet.flags packet.acknowledgementNumber state.serverSeq then
    -- the FIN is built before the commit, which changes no field it reads
    let finAck := buildFlowPacket state (state.serverSeq - 1) state.rcvNxt { fin := true, ack := true } []
    commitAndReply state tcp (clock.reading 0) fun _ => [finAck]
  else if clientFinSeen state.status
      && segmentRequiresAck packet.sequenceNumber packet.flags packet.payload.length state.rcvNxt then
    commitAndReply state tcp (clock.reading 0) pureAck
  else ingestSegment state tcp packet clock

/-- The gate that takes the acknowledgement of the server FIN. -/
def serverFinAck (packet : ParsedTcpPacket) (now : Instant) : TcpFlowState × Bool :=
  if serverFinAwaitingAck state.status
      && ackCoversServerFin packet.flags packet.acknowledgementNumber state.serverSeq then
    transitionOnServerFinAck state now
  else (state, false)

def acknowledgeAndIngest (packet : ParsedTcpPacket)
    (clock : Clock) : EngineStep :=
  let queued := state.unackedServerSegments.length
  let (state, effect) := processServerAck state packet.acknowledgementNumber packet.sackBlocks clock
  let clock := clock.drop queued
  let state := if effect.hasAckProgress then noteAckProgress state effect (clock.reading 0) else state
  let (state, closes) := serverFinAck state packet (clock.reading 1)
  if closes then closeFlow state "last_ack_acked" (clock.reading 2)
  else
    let (state, resent) :=
      if effect.retransmitNow then retransmitOldestUnackedPacket state (clock.drop 2) else (state, none)
    match resent with
    | some packet =>
      if retransmitBudgetExhausted state tcp then abortFlow state "retransmit_budget_exhausted"
      else commitAndReply state tcp (clock.reading 3) fun _ => [packet]
    | none => gateAndIngest state tcp packet (clock.drop 3)

def handleExistingFlow (packet : ParsedTcpPacket)
    (clock : Clock) : EngineStep :=
  if state.status == .synReceived && isDuplicateSyn packet state.rcvNxt then
    { state := state, packets := synAck state }
  else
    match validateExistingPacket state packet with
    | .ignore => { state := state }
    | .closeFlow reason => closeFlow state reason (clock.reading 0)
    | .challengeAck _ => { state := state, packets := pureAck state }
    | .accept =>
      let state := absorbAcceptedClientPacket state packet (clock.reading 0)
      if state.status = .synReceived then
        if completesSynReceivedHandshake packet.flags packet.acknowledgementNumber packet.sequenceNumber
            state.serverSeq state.rcvNxt then
          acknowledgeAndIngest (setFlowStatus state .established (clock.reading 1)) tcp packet
            (clock.drop 2)
        else commitAndReply state tcp (clock.reading 1) synAck
      else acknowledgeAndIngest state tcp packet (clock.drop 1)

def TcpFlowState.new (tcp : TunTcpConfig) (gsoEnabled : Bool) (idleTimeout : Duration)
    (packet : ParsedTcpPacket) (serverIsn : UInt32) (now : Instant) : TcpFlowState where
  gsoEnabled := gsoEnabled
  status := .synReceived
  rcvNxt := packet.sequenceNumber + 1
  clientWindowScale := packet.windowScale.getD 0
  clientSackPermitted := packet.sackPermitted
  clientMaxSegmentSize := packet.maxSegmentSize
  timestampsEnabled := packet.timestampValue.isSome
  recentClientTimestamp := packet.timestampValue
  clientWindow := packet.windowSize.toUInt32
  clientWindowEnd := serverIsn + 1 + decodeClientWindow packet (packet.windowScale.getD 0)
  clientWindowUpdateSeq := packet.sequenceNumber
  clientWindowUpdateAck := packet.acknowledgementNumber
  serverSeq := serverIsn + 1
  lastClientAck := packet.sequenceNumber + 1
  duplicateAckCount := 0
  fastRecoveryEnd := none
  recoveryEpoch := 0
  receiveWindowCapacity := tcp.initialReceiveWindow
  smoothedRtt := none
  rttvar := tcpInitialRto / 2
  retransmissionTimeout := tcpInitialRto
  bbr := BbrState.new now tcp.downlinkMaxRateBps
  pendingServerData := []
  pendingServerBytesTotal := 0
  backlogLimitExceededSince := none
  lastAckProgressAt := now
  pendingClientData := []
  unackedServerSegments := []
  sackScoreboard := []
  pipeBytes := 0
  pipeSegments := 0
  firstTxMstamp := now
  earliestUnsackedSent := none
  unackedReordered := false
  pendingClientSegments := []
  serverFinPending := false
  zeroWindowProbeBackoff := tcpZeroWindowProbeBaseInterval
  nextZeroWindowProbeAt := none
  unackedInOrderSegments := 0
  delayedAckDeadline := none
  keepaliveProbesSent := 0
  lastKeepaliveProbeAt := none
  timestamps := ⟨now, now, now⟩
  nextScheduledDeadline := none
  idleTimeout := idleTimeout

/-- A flow right after its handshake, for runs on concrete input: the client's next byte is 100,
the stack's next byte is 1000. -/
def sampleFlow : TcpFlowState :=
  { TcpFlowState.new .standard false (secs 300)
      { sequenceNumber := 99, acknowledgementNumber := 0, windowSize := 65535, flags := { syn := true } }
      999 0 with
    status := .established }

def pumpBatchBytes : Nat := 2 * 1024 * 1024

def popBatch : Nat → List Bytes → List Bytes × List Bytes
  | _, [] => ([], [])
  | batchBytes, chunk :: rest =>
    if batchBytes < pumpBatchBytes then
      let (batch, left) := popBatch (batchBytes + chunk.length) rest
      (chunk :: batch, left)
    else ([], chunk :: rest)

def pumpDrain : TcpFlowState :=
  let (batch, left) := popBatch 0 state.pendingClientData
  growReceiveWindow { state with pendingClientData := left } (chunksLen batch) tcp.maxBufferedClientBytes

end OutlineProxy.Tcp
