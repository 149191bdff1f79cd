import OutlineProxy.Tcp.Recv
import OutlineProxy.Tcp.Send

/-! Delivery of one in-window segment: the payload it makes ready, the downlink flush it
triggers and the acknowledgement it is owed. -/

namespace OutlineProxy.Tcp

def tcpDelayedAckTimeout : Duration := millis 5

structure DeliverOutcome where
  pendingPayload : List Bytes
  shouldCloseClientHalf : Bool
  serverFlush : ServerFlush
  pendingAck : Option OutPacket

def resolveClientAck (state : TcpFlowState) (shouldSendAck carriesData isFin hadBufferedSegments : Bool)
    (serverFlush : ServerFlush) (serverSeq rcvNxt : UInt32) (now : Instant) :
    TcpFlowState × Option OutPacket :=
  if !shouldSendAck then (state, none)
  else if !serverFlush.dataPackets.isEmpty then (clearDelayedAck state, none)
  else
    let immediate := isFin || !carriesData || hadBufferedSegments
      || !state.pendingClientSegments.isEmpty || decide (1 ≤ state.unackedInOrderSegments)
    if immediate then
      let state := clearDelayedAck state
      (state, some (buildFlowAckPacket state serverSeq rcvNxt { ack := true }))
    else
      ({ state with
        unackedInOrderSegments := min (state.unackedInOrderSegments + 1) 255
        delayedAckDeadline := state.delayedAckDeadline.or (some (now + tcpDelayedAckTimeout)) }, none)

/-- The receive half of `applyInboundAndFlush`: the segment is normalised against
`rcvNxt`, applied, and the queue drained unless the segment closed the client's half. -/
def applyInbound (state : TcpFlowState) (trimmed : TrimmedSegment) : TcpFlowState × List Bytes × Bool :=
  let segment := normalizeTrimmedSegment trimmed state.rcvNxt
  if segment.payload.isEmpty && !segment.fin then (state, [], false)
  else
    let (rcvNxt, pendingPayload, close) := applyClientSegment state.rcvNxt segment []
    let state := { state with rcvNxt := rcvNxt }
    if close then (state, pendingPayload, true)
    else drainReadyBufferedSegmentsFromState state pendingPayload

def applyInboundAndFlush (state : TcpFlowState) (trimmed : TrimmedSegment) (clock : Clock) :
    TcpFlowState × DeliverOutcome :=
  let shouldSendAck := segmentRequiresAck trimmed.sequenceNumber trimmed.flags trimmed.payload.length
    state.rcvNxt
  let hadBufferedSegments := !state.pendingClientSegments.isEmpty
  let carriesData := !trimmed.payload.isEmpty
  let (state, pendingPayload, close) := applyInbound state trimmed
  let serverSeq := state.serverSeq
  let rcvNxt := state.rcvNxt
  let (state, serverFlush) := flushServerOutput state clock
  let (state, pendingAck) := resolveClientAck state shouldSendAck carriesData close hadBufferedSegments
    serverFlush serverSeq rcvNxt (clock.reading (serverFlush.dataPackets.length + 4))
  (state, ⟨pendingPayload, close, serverFlush, pendingAck⟩)

end OutlineProxy.Tcp
