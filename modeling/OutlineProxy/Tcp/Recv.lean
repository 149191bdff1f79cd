import OutlineProxy.Tcp.Packets

/-! The receive path of the client's half: trimming to the receive window, the
reassembly queue and delivery in sequence order. -/

namespace OutlineProxy.Tcp

/-- `Bytes::slice(start..stop)`. -/
def slice (payload : Bytes) (start stop : Nat) : Bytes := (payload.take stop).drop start

variable (state : TcpFlowState)

def trimPacketToReceiveWindow (packet : ParsedTcpPacket) :
    Option TrimmedSegment :=
  if packet.payload.isEmpty && !packet.flags.fin then
    some ⟨packet.sequenceNumber, packet.flags, packet.payload⟩
  else
    let recvWindowEnd := receiveWindowEnd state
    if seqGe packet.sequenceNumber recvWindowEnd then none
    else
      let allowedLen := (recvWindowEnd - packet.sequenceNumber).toNat
      if allowedLen < packet.payload.length then
        some ⟨packet.sequenceNumber, { packet.flags with fin := false }, packet.payload.take allowedLen⟩
      else some ⟨packet.sequenceNumber, packet.flags, packet.payload⟩

def normalizeClientSegmentParts (sequenceNumber : UInt32) (flags : TcpFlags) (payload : Bytes)
    (expectedSeq : UInt32) : ClientSegmentView :=
  let overlap := if seqLt sequenceNumber expectedSeq then (expectedSeq - sequenceNumber).toNat else 0
  { payload := if payload.length ≤ overlap then [] else payload.drop overlap
    fin := flags.fin && decide (overlap ≤ payload.length) }

def normalizeTrimmedSegment (packet : TrimmedSegment) (expectedSeq : UInt32) : ClientSegmentView :=
  normalizeClientSegmentParts packet.sequenceNumber packet.flags packet.payload expectedSeq

def bufferedClientSegmentDataEnd (segment : BufferedClientSegment) : UInt32 :=
  segment.sequenceNumber + UInt32.ofNat segment.payload.length

def insertClientSegment (pendingSegments : List BufferedClientSegment) (segment : BufferedClientSegment)
    (expectedSeq : UInt32) : List BufferedClientSegment :=
  let insertIndex := pendingSegments.findIdx fun existing =>
    decide (segment.sequenceNumber - expectedSeq < existing.sequenceNumber - expectedSeq)
  pendingSegments.insertIdx insertIndex segment

/-- Pass 1 of `queueFutureSegment`: the ranges of the packet between queued segments, each with the offsets of its
slice, and the cursor where the walk stops. -/
def futureHoles (payloadStart payloadEnd : UInt32) :
    UInt32 → List BufferedClientSegment → List (UInt32 × Nat × Nat) × UInt32
  | cursor, [] => ([], cursor)
  | cursor, existing :: rest =>
    let existingStart := existing.sequenceNumber
    let existingEnd := bufferedClientSegmentDataEnd existing
    if !seqGt existingEnd cursor then futureHoles payloadStart payloadEnd cursor rest
    else if !seqGt payloadEnd existingStart then ([], cursor)
    else
      let hole :=
        if seqGt existingStart cursor then
          let stop := if seqLt payloadEnd existingStart then payloadEnd else existingStart
          [(cursor, (cursor - payloadStart).toNat, (stop - payloadStart).toNat)]
        else []
      let cursor := if seqGt existingEnd cursor then existingEnd else cursor
      if !seqGt payloadEnd cursor then (hole, cursor)
      else
        let (holes, cursor) := futureHoles payloadStart payloadEnd cursor rest
        (hole ++ holes, cursor)

def fillHoles (packet : TrimmedSegment) (expectedSeq : UInt32) :
    List BufferedClientSegment → List (UInt32 × Nat × Nat) → List BufferedClientSegment
  | pendingSegments, [] => pendingSegments
  | pendingSegments, (sequenceNumber, startOffset, endOffset) :: holes =>
    let segment : BufferedClientSegment :=
      ⟨sequenceNumber, { ack := packet.flags.ack }, slice packet.payload startOffset endOffset⟩
    fillHoles packet expectedSeq (insertClientSegment pendingSegments segment expectedSeq) holes

def fillFutureSegment (pendingSegments : List BufferedClientSegment) (packet : TrimmedSegment)
    (expectedSeq : UInt32) : List BufferedClientSegment :=
  let payloadStart := packet.sequenceNumber
  let payloadEnd := payloadStart + UInt32.ofNat packet.payload.length
  let (holes, cursor) := futureHoles payloadStart payloadEnd payloadStart pendingSegments
  let filled := fillHoles packet expectedSeq pendingSegments holes
  if seqGt payloadEnd cursor then
    insertClientSegment filled
      ⟨cursor, { ack := packet.flags.ack }, packet.payload.drop (cursor - payloadStart).toNat⟩ expectedSeq
  else filled

def queueFutureSegment (pendingSegments : List BufferedClientSegment) (packet : TrimmedSegment)
    (expectedSeq : UInt32) : List BufferedClientSegment :=
  if packet.payload.isEmpty && !packet.flags.fin then pendingSegments
  else
    let filled := fillFutureSegment pendingSegments packet expectedSeq
    let finSequence := packet.sequenceNumber + UInt32.ofNat packet.payload.length
    if packet.flags.fin && !filled.any fun existing =>
        existing.flags.fin && bufferedClientSegmentDataEnd existing == finSequence then
      -- a FIN is queued as a zero-length segment of its own
      insertClientSegment filled
        ⟨finSequence, { fin := packet.flags.fin, ack := packet.flags.ack }, []⟩ expectedSeq
    else filled

inductive QueueFutureSegmentOutcome where
  | outsideWindow
  | queued
  | wouldExceedLimits
deriving DecidableEq

def additionalSegments (trimmed : TrimmedSegment) : Nat :=
  if trimmed.payload.isEmpty && !trimmed.flags.fin then 0
  else if trimmed.flags.fin then 2
  else 1

def queueFutureSegmentWithRecvWindow (config : TunTcpConfig)
    (packet : ParsedTcpPacket) : TcpFlowState × QueueFutureSegmentOutcome :=
  match trimPacketToReceiveWindow state packet with
  | none => (state, .outsideWindow)
  | some trimmed =>
    let additionalBytes := trimmed.payload.length
    if config.maxBufferedClientSegments < state.pendingClientSegments.length + additionalSegments trimmed
        ∨ config.maxBufferedClientBytes < bufferedClientBytes state + additionalBytes then
      (state, .wouldExceedLimits)
    else
      ({ state with
        pendingClientSegments := queueFutureSegment state.pendingClientSegments trimmed state.rcvNxt }, .queued)

def exceedsClientReassemblyLimits (config : TunTcpConfig) : Bool :=
  decide (config.maxBufferedClientSegments < state.pendingClientSegments.length)
    || decide (config.maxBufferedClientBytes < bufferedClientBytes state)

def applyClientSegment (expectedSeq : UInt32) (segment : ClientSegmentView)
    (pendingPayload : List Bytes) : UInt32 × List Bytes × Bool :=
  let (expectedSeq, pendingPayload) :=
    if segment.payload.isEmpty then (expectedSeq, pendingPayload)
    else (expectedSeq + UInt32.ofNat segment.payload.length, pendingPayload ++ [segment.payload])
  if segment.fin then (expectedSeq + 1, pendingPayload, true)
  else (expectedSeq, pendingPayload, false)

def drainReadyBufferedSegments (expectedSeq : UInt32) :
    List BufferedClientSegment → List Bytes → UInt32 × List BufferedClientSegment × List Bytes × Bool
  | [], pendingPayload => (expectedSeq, [], pendingPayload, false)
  | segment :: rest, pendingPayload =>
    if seqGt segment.sequenceNumber expectedSeq then
      (expectedSeq, segment :: rest, pendingPayload, false)
    else
      let normalized := normalizeClientSegmentParts segment.sequenceNumber segment.flags segment.payload
        expectedSeq
      if normalized.payload.isEmpty && !normalized.fin then
        drainReadyBufferedSegments expectedSeq rest pendingPayload
      else
        match applyClientSegment expectedSeq normalized pendingPayload with
        | (expectedSeq, pendingPayload, true) => (expectedSeq, rest, pendingPayload, true)
        | (expectedSeq, pendingPayload, false) =>
          drainReadyBufferedSegments expectedSeq rest pendingPayload

def drainReadyBufferedSegmentsFromState (pendingPayload : List Bytes) :
    TcpFlowState × List Bytes × Bool :=
  let (rcvNxt, pendingClientSegments, pendingPayload, close) :=
    drainReadyBufferedSegments state.rcvNxt state.pendingClientSegments pendingPayload
  ({ state with rcvNxt := rcvNxt, pendingClientSegments := pendingClientSegments }, pendingPayload, close)

def isDuplicateSyn (packet : ParsedTcpPacket) (expectedSeq : UInt32) : Bool :=
  packet.flags.syn && !packet.flags.ack && packet.payload.isEmpty
    && packet.sequenceNumber == expectedSeq - 1

inductive InboundSegmentDisposition where
  | beyondExpectedSequence
  | outsideReceiveWindow
  | deliver (trimmed : TrimmedSegment)

def classifyInboundSegment (packet : ParsedTcpPacket) :
    InboundSegmentDisposition :=
  if seqGt packet.sequenceNumber state.rcvNxt then .beyondExpectedSequence
  else
    match trimPacketToReceiveWindow state packet with
    | some trimmed => .deliver trimmed
    | none => .outsideReceiveWindow

def growReceiveWindow (drained max : Nat) : TcpFlowState :=
  if state.receiveWindowCapacity < max then
    { state with receiveWindowCapacity := min (satAdd state.receiveWindowCapacity drained) max }
  else state

end OutlineProxy.Tcp
