import OutlineProxy.Tcp.Seq

/-! Packet building, the window a flow advertises to the client and the window the
client advertised to it. -/

namespace OutlineProxy.Tcp

def tcpServerWindowScale : Nat := 6

variable (state : TcpFlowState)

def bufferedClientBytes : Nat :=
  (state.pendingClientSegments.map fun segment => segment.payload.length).sum
    + (state.pendingClientData.map List.length).sum

def advertisedReceiveWindow : UInt16 :=
  let available := state.receiveWindowCapacity - bufferedClientBytes state
  UInt16.ofNat (min (available >>> tcpServerWindowScale) 65535)

def receiveWindowEnd : UInt32 :=
  state.rcvNxt + UInt32.ofNat (state.receiveWindowCapacity - bufferedClientBytes state)

variable (sequenceNumber acknowledgementNumber : UInt32) (flags : TcpFlags)

def buildFlowPacket (payload : Bytes) : OutPacket where
  sequenceNumber := sequenceNumber
  acknowledgementNumber := acknowledgementNumber
  flags := flags
  window := advertisedReceiveWindow state
  payload := [payload]

def buildFlowAckPacket : OutPacket :=
  buildFlowPacket state sequenceNumber acknowledgementNumber flags []

def buildFlowSynAckPacket (serverIsn acknowledgementNumber : UInt32) : OutPacket :=
  buildFlowPacket state serverIsn acknowledgementNumber { syn := true, ack := true } []

def buildFlowDataPacket (payload : List Bytes) : OutPacket where
  sequenceNumber := sequenceNumber
  acknowledgementNumber := acknowledgementNumber
  flags := flags
  window := advertisedReceiveWindow state
  payload := payload

def buildGsoFlowPacket (mss : Nat) (payload : List Bytes) : OutPacket where
  sequenceNumber := sequenceNumber
  acknowledgementNumber := acknowledgementNumber
  flags := flags
  window := advertisedReceiveWindow state
  payload := payload
  gsoSize := some mss

def decodeClientWindow (packet : ParsedTcpPacket) (scale : UInt8) : UInt32 :=
  if packet.flags.syn then packet.windowSize.toUInt32
  else packet.windowSize.toUInt32 <<< (min scale 14).toUInt32

def updateClientSendWindow (packet : ParsedTcpPacket) : TcpFlowState :=
  let decodedWindow := decodeClientWindow packet state.clientWindowScale
  let shouldUpdate := seqGt packet.sequenceNumber state.clientWindowUpdateSeq
    || (packet.sequenceNumber == state.clientWindowUpdateSeq
      && (seqGt packet.acknowledgementNumber state.clientWindowUpdateAck
        || (packet.acknowledgementNumber == state.clientWindowUpdateAck
          && decide (state.clientWindow < decodedWindow))))
  if shouldUpdate || decodedWindow == 0 then
    { state with
      clientWindow := decodedWindow
      clientWindowEnd := packet.acknowledgementNumber + decodedWindow
      clientWindowUpdateSeq := packet.sequenceNumber
      clientWindowUpdateAck := packet.acknowledgementNumber }
  else state

def sendWindowRemaining : UInt32 :=
  if seqGe state.serverSeq state.clientWindowEnd then 0
  else state.clientWindowEnd - state.serverSeq

def packetOverlapsReceiveWindow (packet : ParsedTcpPacket) : Bool :=
  let rcvNxt := state.rcvNxt
  let rcvWnd := receiveWindowEnd state - rcvNxt
  let segLen := packetSequenceLen packet
  if rcvWnd == 0 then segLen == 0 && packet.sequenceNumber == rcvNxt
  else if segLen == 0 then
    seqGe packet.sequenceNumber rcvNxt && seqLt packet.sequenceNumber (rcvNxt + rcvWnd)
  else
    let last := packet.sequenceNumber + segLen - 1
    (seqGe packet.sequenceNumber rcvNxt && seqLt packet.sequenceNumber (rcvNxt + rcvWnd))
      || (seqGe last rcvNxt && seqLt last (rcvNxt + rcvWnd))

end OutlineProxy.Tcp
