import OutlineProxy.Tcp.Packets

/-! The status machine of a flow and the bookkeeping of every accepted packet. -/

namespace OutlineProxy.Tcp

def tcpZeroWindowProbeBaseInterval : Duration := secs 1
def tcpZeroWindowProbeMaxInterval : Duration := secs 30
def tcpTimeWaitTimeout : Duration := secs 30

variable (state : TcpFlowState) (status : TcpFlowStatus)

def setFlowStatus (now : Instant) : TcpFlowState :=
  if state.status = status then state
  else { state with status := status, timestamps := { state.timestamps with statusSince := now } }

def clientFinSeen : TcpFlowStatus → Bool
  | .closeWait | .closing | .lastAck | .timeWait | .closed => true
  | .synReceived | .established | .finWait1 | .finWait2 => false

def serverFinSent : TcpFlowStatus → Bool
  | .finWait1 | .finWait2 | .closing | .lastAck | .timeWait | .closed => true
  | .synReceived | .established | .closeWait => false

def serverFinAwaitingAck : TcpFlowStatus → Bool
  | .finWait1 | .closing | .lastAck => true
  | .synReceived | .established | .closeWait | .finWait2 | .timeWait | .closed => false

def isHalfClosedStatus : TcpFlowStatus → Bool
  | .closeWait | .finWait1 | .finWait2 | .closing | .lastAck => true
  | .synReceived | .established | .timeWait | .closed => false

def transitionOnClientFin (now : Instant) : TcpFlowState :=
  match state.status with
  | .synReceived | .established => setFlowStatus state .closeWait now
  | .finWait1 => setFlowStatus state .closing now
  | .finWait2 => setFlowStatus state .timeWait now
  | .closeWait | .closing | .lastAck | .timeWait | .closed => state

def transitionOnServerFinAck (now : Instant) : TcpFlowState × Bool :=
  match state.status with
  | .finWait1 => (setFlowStatus state .finWait2 now, false)
  | .closing => (setFlowStatus state .timeWait now, false)
  | .lastAck => (setFlowStatus state .closed now, true)
  | .synReceived | .established | .closeWait | .finWait2 | .timeWait | .closed => (state, false)

def resetZeroWindowPersist : TcpFlowState :=
  { state with
    zeroWindowProbeBackoff := tcpZeroWindowProbeBaseInterval
    nextZeroWindowProbeAt := none }

def noteRecentClientTimestamp (timestampValue : Option UInt32) : TcpFlowState :=
  if state.timestampsEnabled && timestampValue.isSome then
    { state with recentClientTimestamp := timestampValue }
  else state

def absorbAcceptedClientPacket (packet : ParsedTcpPacket) (now : Instant) :
    TcpFlowState :=
  let state := noteRecentClientTimestamp state packet.timestampValue
  let state := { state with
    timestamps := { state.timestamps with lastSeen := now }
    keepaliveProbesSent := 0
    lastKeepaliveProbeAt := none }
  let state := updateClientSendWindow state packet
  if 0 < state.clientWindow then resetZeroWindowPersist state else state

def clearDelayedAck : TcpFlowState :=
  { state with unackedInOrderSegments := 0, delayedAckDeadline := none }

def segmentRequiresAck (sequenceNumber : UInt32) (flags : TcpFlags) (payloadLen : Nat)
    (rcvNxt : UInt32) : Bool :=
  payloadLen != 0 || flags.fin || seqLt sequenceNumber rcvNxt

def completesSynReceivedHandshake (flags : TcpFlags) (acknowledgementNumber sequenceNumber
    expectedAcknowledgement expectedSequence : UInt32) : Bool :=
  flags.ack && acknowledgementNumber == expectedAcknowledgement && sequenceNumber == expectedSequence

def ackCoversServerFin (flags : TcpFlags) (acknowledgementNumber serverSeq : UInt32) : Bool :=
  flags.ack && decide (serverSeq ≤ acknowledgementNumber)

def ackIsStaleServerFinRetry (flags : TcpFlags) (acknowledgementNumber serverSeq : UInt32) : Bool :=
  flags.ack && seqLt acknowledgementNumber serverSeq

def timeWaitExpired (statusSince now : Instant) : Bool :=
  status == .timeWait && decide (tcpTimeWaitTimeout ≤ now - statusSince)

def handshakeTimedOut (statusSince : Instant) (handshakeTimeout : Duration)
    (now : Instant) : Bool :=
  status == .synReceived && decide (handshakeTimeout ≤ now - statusSince)

def halfCloseTimedOut (statusSince : Instant) (halfCloseTimeout : Duration)
    (now : Instant) : Bool :=
  isHalfClosedStatus status && decide (halfCloseTimeout ≤ now - statusSince)

def idleTimedOut (lastSeen : Instant) (idleTimeout : Duration)
    (now : Instant) : Bool :=
  status != .timeWait && decide (idleTimeout ≤ now - lastSeen)

end OutlineProxy.Tcp
