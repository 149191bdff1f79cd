import Mathlib.Data.UInt
import Mathlib.Order.Monotone.Basic

/-! The data of one flow of the userspace TCP stack: packets, segments, the BBR
controller, the flow record and the part of the configuration that its code reads.
Instants and durations are nanoseconds, byte strings are lists. -/

namespace OutlineProxy.Tcp

abbrev Bytes := List UInt8
abbrev Instant := Nat
abbrev Duration := Nat

def millis (n : Nat) : Duration := n * 1000000
def secs (n : Nat) : Duration := n * 1000000000

def usizeMax : Nat := 2 ^ 64 - 1

def satAdd (a b : Nat) : Nat := min (a + b) usizeMax

/-- The readings of `Instant::now()` made while one call runs, all of them between the
instant at which it starts and the one at which it returns. -/
structure Clock where
  reading : Nat → Instant
  start : Instant
  stop : Instant
  mono : Monotone reading
  start_le : ∀ i, start ≤ reading i
  le_stop : ∀ i, reading i ≤ stop

def Clock.still (now : Instant) : Clock where
  reading _ := now
  start := now
  stop := now
  mono _ _ _ := le_rfl
  start_le _ := le_rfl
  le_stop _ := le_rfl

def Clock.drop (clock : Clock) (n : Nat) : Clock where
  reading i := clock.reading (n + i)
  start := clock.start
  stop := clock.stop
  mono _ _ h := clock.mono (by omega)
  start_le _ := clock.start_le _
  le_stop _ := clock.le_stop _

structure TcpFlags where
  fin : Bool := false
  syn : Bool := false
  rst : Bool := false
  psh : Bool := false
  ack : Bool := false
deriving DecidableEq

structure ParsedTcpPacket where
  sequenceNumber : UInt32
  acknowledgementNumber : UInt32
  windowSize : UInt16
  maxSegmentSize : Option UInt16 := none
  windowScale : Option UInt8 := none
  sackPermitted : Bool := false
  sackBlocks : List (UInt32 × UInt32) := []
  timestampValue : Option UInt32 := none
  flags : TcpFlags
  payload : Bytes := []

inductive TcpFlowStatus where
  | synReceived
  | established
  | closeWait
  | finWait1
  | finWait2
  | closing
  | lastAck
  | timeWait
  | closed
deriving DecidableEq

structure TrimmedSegment where
  sequenceNumber : UInt32
  flags : TcpFlags
  payload : Bytes

structure ClientSegmentView where
  payload : Bytes
  fin : Bool

structure BufferedClientSegment where
  sequenceNumber : UInt32
  flags : TcpFlags
  payload : Bytes
deriving DecidableEq

structure SequenceRange where
  start : UInt32
  «end» : UInt32
deriving DecidableEq

structure ServerSegment where
  sequenceNumber : UInt32
  acknowledgementNumber : UInt32
  flags : TcpFlags
  payload : Bytes
  lastSent : Instant
  firstSent : Instant
  retransmits : Nat
  rtoRetransmits : Nat
  fastRetransmitEpoch : Nat
  deliveredSnapshot : Nat
  deliveredAtSnapshot : Instant
  firstTxSnapshot : Instant
  appLimited : Bool

/-- The header fields of a packet written to the TUN device and its payload.
`gsoSize` is the segment size of a TSO super-segment. -/
structure OutPacket where
  sequenceNumber : UInt32
  acknowledgementNumber : UInt32
  flags : TcpFlags
  window : UInt16
  payload : List Bytes
  gsoSize : Option Nat := none

structure ServerFlush where
  dataPackets : List OutPacket := []
  finPacket : Option OutPacket := none
  probePacket : Option OutPacket := none
  windowStalled : Bool := false

structure RateSample where
  priorDelivered : Nat
  priorMstamp : Instant
  sendInterval : Duration
  appLimited : Bool

structure AckEffect where
  bytesAcked : Nat := 0
  rttSample : Option Duration := none
  growCongestionWindow : Bool := false
  retransmitNow : Bool := false
  rateSample : Option RateSample := none

def AckEffect.hasAckProgress (effect : AckEffect) : Bool :=
  effect.bytesAcked != 0 || effect.rttSample.isSome

inductive BbrMode where
  | startup
  | drain
  | probeBw
  | probeRtt
deriving DecidableEq

structure BwSample where
  bytesPerSec : Nat
  round : Nat

structure BbrState where
  delivered : Nat
  deliveredAt : Instant
  bwFilter : List BwSample
  btlbwBps : Nat
  roundCount : Nat
  nextRoundDelivered : Nat
  fullBw : Nat
  fullBwCount : Nat
  minRtt : Duration
  minRttStamp : Instant
  mode : BbrMode
  pacingGain : Float
  cwndGain : Float
  probeBwPhase : Nat
  cycleStamp : Instant
  probeRttDoneAt : Option Instant
  pacingCredit : Nat
  pacingRefilledAt : Instant
  pacingNextAt : Option Instant
  maxRateBps : Nat
  lossCapBps : Nat
  lossInRound : Bool
  bwLatestBps : Nat
  lostInWindow : Nat
  deliveredInWindow : Nat
  lossEpisodes : Nat
  extraAcked : Nat × Nat
  extraAckedWinIdx : Nat
  extraAckedWinRounds : Nat
  ackEpochStamp : Instant
  ackEpochAcked : Nat
  inflightHi : Nat
  inflightLo : Nat

structure FlowTimestamps where
  createdAt : Instant
  statusSince : Instant
  lastSeen : Instant

structure TcpFlowState where
  gsoEnabled : Bool
  status : TcpFlowStatus
  rcvNxt : UInt32
  clientWindowScale : UInt8
  clientSackPermitted : Bool
  clientMaxSegmentSize : Option UInt16
  timestampsEnabled : Bool
  recentClientTimestamp : Option UInt32
  clientWindow : UInt32
  clientWindowEnd : UInt32
  clientWindowUpdateSeq : UInt32
  clientWindowUpdateAck : UInt32
  serverSeq : UInt32
  lastClientAck : UInt32
  duplicateAckCount : Nat
  fastRecoveryEnd : Option UInt32
  recoveryEpoch : Nat
  receiveWindowCapacity : Nat
  smoothedRtt : Option Duration
  rttvar : Duration
  retransmissionTimeout : Duration
  bbr : BbrState
  pendingServerData : List Bytes
  pendingServerBytesTotal : Nat
  backlogLimitExceededSince : Option Instant
  lastAckProgressAt : Instant
  pendingClientData : List Bytes
  unackedServerSegments : List ServerSegment
  sackScoreboard : List SequenceRange
  pipeBytes : Nat
  pipeSegments : Nat
  firstTxMstamp : Instant
  earliestUnsackedSent : Option Instant
  unackedReordered : Bool
  pendingClientSegments : List BufferedClientSegment
  serverFinPending : Bool
  zeroWindowProbeBackoff : Duration
  nextZeroWindowProbeAt : Option Instant
  unackedInOrderSegments : Nat
  delayedAckDeadline : Option Instant
  keepaliveProbesSent : Nat
  lastKeepaliveProbeAt : Option Instant
  timestamps : FlowTimestamps
  nextScheduledDeadline : Option Instant
  idleTimeout : Duration

/-- The part of the TCP configuration the modelled code reads, with the loader's default
values and the bounds the loader enforces. -/
structure TunTcpConfig where
  handshakeTimeout : Duration := secs 15
  halfCloseTimeout : Duration := secs 60
  maxPendingServerBytes : Nat := 2097152
  backlogHardLimitMultiplier : Nat := 2
  backlogNoProgressAbort : Duration := secs 8
  maxBufferedClientSegments : Nat := 4096
  maxBufferedClientBytes : Nat := 2097152
  initialReceiveWindowBytes : Nat := 65536
  maxRetransmits : Nat := 12
  downlinkMaxRateBps : Nat := 0
  keepaliveIdle : Option Duration := none
  keepaliveInterval : Duration := secs 30
  keepaliveMaxProbes : Nat := 6
  handshakeTimeout_ge : secs 1 ≤ handshakeTimeout := by decide
  halfCloseTimeout_ge : secs 1 ≤ halfCloseTimeout := by decide
  maxPendingServerBytes_ge : 16384 ≤ maxPendingServerBytes := by decide
  backlogHardLimitMultiplier_ge : 2 ≤ backlogHardLimitMultiplier := by decide
  backlogNoProgressAbort_ge : secs 1 ≤ backlogNoProgressAbort := by decide
  maxBufferedClientSegments_pos : 0 < maxBufferedClientSegments := by decide
  maxBufferedClientBytes_ge : 16384 ≤ maxBufferedClientBytes := by decide
  maxBufferedClientBytes_le : maxBufferedClientBytes ≤ 4194304 := by decide
  initialReceiveWindowBytes_ok :
    initialReceiveWindowBytes = 0 ∨ 16384 ≤ initialReceiveWindowBytes := by decide
  maxRetransmits_pos : 0 < maxRetransmits := by decide
  keepalive_ok : ∀ idle ∈ keepaliveIdle,
    secs 5 ≤ idle ∧ secs 1 ≤ keepaliveInterval ∧ 0 < keepaliveMaxProbes := by decide

def TunTcpConfig.standard : TunTcpConfig := {}

def TunTcpConfig.initialReceiveWindow (tcp : TunTcpConfig) : Nat :=
  if tcp.initialReceiveWindowBytes = 0 then tcp.maxBufferedClientBytes
  else min tcp.initialReceiveWindowBytes tcp.maxBufferedClientBytes

end OutlineProxy.Tcp
