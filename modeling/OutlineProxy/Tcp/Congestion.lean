import Mathlib.Data.List.Sort
import OutlineProxy.Tcp.Bbr
import OutlineProxy.Tcp.Seq

/-! The SACK scoreboard, the in-flight accounting and the processing of acknowledgements. -/

namespace OutlineProxy.Tcp

def tcpFastRetransmitDupAcks : Nat := 3
def tcpInitialRto : Duration := secs 1
def tcpMinRto : Duration := millis 200
def tcpMaxRto : Duration := secs 60
def tcpMaxRtoBackoff : Duration := secs 2
def tcpInitialCwndSegments : Nat := 10

def serverSegmentLen (segment : ServerSegment) : Nat :=
  segment.payload.length + (if segment.flags.syn then 1 else 0) + (if segment.flags.fin then 1 else 0)

def serverSegmentEnd (segment : ServerSegment) : UInt32 :=
  segment.sequenceNumber + UInt32.ofNat (serverSegmentLen segment)

/-- One step of the merge: `range` joins the last merged range or starts a new one.
`merged` is kept in reverse. -/
def mergeRange (merged : List SequenceRange) (range : SequenceRange) : List SequenceRange :=
  match merged with
  | last :: before =>
    if !seqGt range.start last.end then
      if seqGt range.end last.end then { last with «end» := range.end } :: before else last :: before
    else range :: last :: before
  | [] => [range]

def mergeSequenceRanges (ranges : List SequenceRange) (anchor : UInt32) : List SequenceRange :=
  let retained := ranges.filter fun range => seqGt range.end range.start
  let sorted := retained.insertionSort fun a b => a.start - anchor ≤ b.start - anchor
  (sorted.foldl mergeRange []).reverse

def clipRange (cumulativeAck : UInt32) (range : SequenceRange) : Option (SequenceRange × Bool) :=
  if !seqGt range.end cumulativeAck then none
  else
    let clipped := seqLt range.start cumulativeAck
    some (if clipped then { range with start := cumulativeAck } else range, clipped)

variable (scoreboard : List SequenceRange)

def trimSackScoreboard (cumulativeAck : UInt32) :
    List SequenceRange × Bool :=
  let cut := scoreboard.filterMap (clipRange cumulativeAck)
  let ranges := (cut.map Prod.fst).filter fun range => seqGt range.end range.start
  (mergeSequenceRanges ranges cumulativeAck, cut.any Prod.snd)

def rangeFullyCovered (start stop : UInt32) : Bool :=
  if !seqGt stop start then true
  else go scoreboard
where
  go : List SequenceRange → Bool
  | [] => false
  | range :: rest =>
    if seqGt range.start start then false
    else if !seqGt range.end start then go rest
    else !seqLt range.end stop

def updateSackScoreboard (cumulativeAck : UInt32)
    (sackBlocks : List (UInt32 × UInt32)) : List SequenceRange × Bool :=
  let cut := (sackBlocks.map fun block => (⟨block.1, block.2⟩ : SequenceRange)).filterMap
    (clipRange cumulativeAck)
  let newRanges := (cut.map Prod.fst).filter fun range =>
    seqGt range.end range.start && !rangeFullyCovered scoreboard range.start range.end
  if newRanges.isEmpty then (scoreboard, false)
  else (mergeSequenceRanges (scoreboard ++ newRanges) cumulativeAck, true)

def segmentIsSackedIn (segment : ServerSegment) : Bool :=
  rangeFullyCovered scoreboard segment.sequenceNumber (serverSegmentEnd segment)

variable (state : TcpFlowState)

def serverSegmentIsSacked (segment : ServerSegment) : Bool :=
  segmentIsSackedIn state.sackScoreboard segment

structure UnackedAccounting where
  pipeBytes : Nat := 0
  pipeSegments : Nat := 0
  earliest : Option Instant := none
  previousSent : Option Instant := none
  reordered : Bool := false

def accountSegment (acc : UnackedAccounting)
    (segment : ServerSegment) : UnackedAccounting :=
  let acc := { acc with
    reordered := acc.reordered || acc.previousSent.any fun previous => decide (segment.lastSent < previous)
    previousSent := some segment.lastSent }
  if segmentIsSackedIn scoreboard segment then acc
  else { acc with
    pipeBytes := acc.pipeBytes + serverSegmentLen segment
    pipeSegments := acc.pipeSegments + 1
    earliest := some (match acc.earliest with
      | some current => min current segment.lastSent
      | none => segment.lastSent) }

def unackedAccountingSnapshot (segments : List ServerSegment) (scoreboard : List SequenceRange) :
    UnackedAccounting :=
  segments.foldl (accountSegment scoreboard) {}

def rebuildUnackedAccounting : TcpFlowState :=
  let snapshot := unackedAccountingSnapshot state.unackedServerSegments state.sackScoreboard
  { state with
    pipeBytes := snapshot.pipeBytes
    pipeSegments := snapshot.pipeSegments
    earliestUnsackedSent := snapshot.earliest
    unackedReordered := snapshot.reordered }

def refreshEarliestAfterPop : TcpFlowState :=
  if state.unackedServerSegments.isEmpty then
    { state with earliestUnsackedSent := none, unackedReordered := false }
  else if state.unackedReordered then rebuildUnackedAccounting state
  else
    { state with
      earliestUnsackedSent := (state.unackedServerSegments.find? fun segment =>
        !segmentIsSackedIn state.sackScoreboard segment).map ServerSegment.lastSent }

def nextRetransmissionDeadline : Option Instant :=
  state.earliestUnsackedSent.map fun sent => sent + state.retransmissionTimeout

def serverMaxSegmentPayload : Nat :=
  min (max ((state.clientMaxSegmentSize.map UInt16.toNat).getD maxServerSegmentPayload) 1)
    maxServerSegmentPayload

/-- The last of the largest values of `key`, as `max_by_key` picks it. -/
def maxByKey (key : UInt32 → Nat) : List UInt32 → Option UInt32
  | [] => none
  | x :: rest =>
    match maxByKey key rest with
    | some best => if key x ≤ key best then some best else some x
    | none => some x

def highestSackedEnd : Option UInt32 :=
  maxByKey (fun stop => (stop - state.lastClientAck).toNat) (state.sackScoreboard.map SequenceRange.end)

def preferredRetransmitIndex : Option Nat :=
  let unsacked := fun segment => !serverSegmentIsSacked state segment
  ((highestSackedEnd state).bind fun highest =>
      state.unackedServerSegments.findIdx? fun segment =>
        unsacked segment && seqLt segment.sequenceNumber highest)
    |>.or (state.unackedServerSegments.findIdx? unsacked)

def fastRetransmitIndex : Option Nat :=
  let fresh := fun (segment : ServerSegment) =>
    !serverSegmentIsSacked state segment && segment.fastRetransmitEpoch != state.recoveryEpoch
  match highestSackedEnd state with
  | some highest =>
    state.unackedServerSegments.findIdx? fun segment =>
      fresh segment && seqLt segment.sequenceNumber highest
  | none => state.unackedServerSegments.findIdx? fresh

def enterFastRecovery : TcpFlowState :=
  { state with
    bbr := noteLoss state.bbr
    fastRecoveryEnd := some state.serverSeq
    duplicateAckCount := tcpFastRetransmitDupAcks
    recoveryEpoch := satAdd state.recoveryEpoch 1 }

def exitFastRecovery : TcpFlowState :=
  { state with fastRecoveryEnd := none, duplicateAckCount := 0 }

structure PopSamples where
  bytesAcked : Nat := 0
  rttSample : Option Duration := none
  rateSample : Option RateSample := none

/-- The pop loop of `processServerAck`.  `clock.reading i` is read for the `i`-th popped
segment that was never retransmitted. -/
def popAcked (acknowledgementNumber : UInt32) (clock : Clock) (i : Nat) :
    List ServerSegment → TcpFlowState → PopSamples → TcpFlowState × PopSamples
  | [], state, samples => ({ state with unackedServerSegments := [] }, samples)
  | segment :: rest, state, samples =>
    if !seqGe acknowledgementNumber (serverSegmentEnd segment) then
      ({ state with unackedServerSegments := segment :: rest }, samples)
    else
      let segmentLen := serverSegmentLen segment
      let state :=
        if segmentIsSackedIn state.sackScoreboard segment then state
        else { state with
          pipeBytes := state.pipeBytes - segmentLen
          pipeSegments := state.pipeSegments - 1 }
      let state := { state with firstTxMstamp := max state.firstTxMstamp segment.lastSent }
      let samples := { samples with bytesAcked := satAdd samples.bytesAcked segmentLen }
      if segment.retransmits = 0 then
        let samples := { samples with
          rttSample := some (clock.reading i - segment.firstSent)
          rateSample := samples.rateSample.or (some
            { priorDelivered := segment.deliveredSnapshot
              priorMstamp := segment.deliveredAtSnapshot
              sendInterval := segment.firstSent - segment.firstTxSnapshot
              appLimited := segment.appLimited }) }
        popAcked acknowledgementNumber clock (i + 1) rest state samples
      else popAcked acknowledgementNumber clock i rest state samples

def advanceServerAck (acknowledgementNumber : UInt32) (clock : Clock) :
    TcpFlowState × AckEffect :=
  let state := { state with lastClientAck := acknowledgementNumber, duplicateAckCount := 0 }
  let (state, samples) := popAcked acknowledgementNumber clock 0 state.unackedServerSegments state {}
  let state := refreshEarliestAfterPop state
  match state.fastRecoveryEnd with
  | some recoveryEnd =>
    if seqGe acknowledgementNumber recoveryEnd || state.unackedServerSegments.isEmpty then
      (exitFastRecovery state,
        { bytesAcked := samples.bytesAcked, rttSample := samples.rttSample,
          rateSample := samples.rateSample })
    else
      (state,
        { bytesAcked := samples.bytesAcked, rttSample := samples.rttSample,
          retransmitNow := (fastRetransmitIndex state).isSome, rateSample := samples.rateSample })
  | none =>
    (state,
      { bytesAcked := samples.bytesAcked, rttSample := samples.rttSample,
        growCongestionWindow := true, rateSample := samples.rateSample })

def duplicateServerAck (scoreboardAdvanced : Bool) : TcpFlowState × AckEffect :=
  let state := { state with duplicateAckCount := min (state.duplicateAckCount + 1) 255 }
  if state.fastRecoveryEnd.isSome then
    (state, { retransmitNow := scoreboardAdvanced && (fastRetransmitIndex state).isSome })
  else if tcpFastRetransmitDupAcks ≤ state.duplicateAckCount then
    let state := enterFastRecovery state
    (state, { retransmitNow := (fastRetransmitIndex state).isSome })
  else (state, {})

def processServerAck (acknowledgementNumber : UInt32)
    (sackBlocks : List (UInt32 × UInt32)) (clock : Clock) : TcpFlowState × AckEffect :=
  let (scoreboard, scoreboardAdvanced) := updateSackScoreboard state.sackScoreboard acknowledgementNumber sackBlocks
  let state := { state with sackScoreboard := scoreboard }
  let state := if scoreboardAdvanced then rebuildUnackedAccounting state else state
  let (state, effect) :=
    if state.unackedServerSegments.isEmpty then
      ({ state with
        lastClientAck := acknowledgementNumber, duplicateAckCount := 0, fastRecoveryEnd := none }, {})
    else if seqGt acknowledgementNumber state.lastClientAck then
      advanceServerAck state acknowledgementNumber clock
    else if acknowledgementNumber == state.lastClientAck then
      duplicateServerAck state scoreboardAdvanced
    else (state, {})
  -- the scoreboard is trimmed after the pop loop, which still needs the dropped ranges
  let (scoreboard, clipped) := trimSackScoreboard state.sackScoreboard acknowledgementNumber
  let state := { state with sackScoreboard := scoreboard }
  (if clipped then rebuildUnackedAccounting state else state, effect)

def inflightCap : Nat := inflightCapFrom state.bbr (serverMaxSegmentPayload state)

def pacingActive : Bool := decide (0 < state.bbr.btlbwBps)

def congestionWindowRemaining : Nat :=
  let bbrCap := min (min (inflightCap state) state.bbr.inflightHi) state.bbr.inflightLo
  let cap :=
    if pacingActive state then bbrCap
    else min bbrCap (serverMaxSegmentPayload state * tcpInitialCwndSegments)
  cap - state.pipeBytes

def asMicrosF64 (d : Duration) : Float := toF64 (d / 1000)

def updateRttEstimator (sample : Duration) : TcpFlowState :=
  let (srtt, rttvar) :=
    match state.smoothedRtt with
    | some smoothedRtt =>
      let srttUs := asMicrosF64 smoothedRtt
      let newRttvarUs := 0.75 * asMicrosF64 state.rttvar + 0.25 * (srttUs - asMicrosF64 sample).abs
      let newSrttUs := 0.875 * srttUs + 0.125 * asMicrosF64 sample
      (ofF64 (max newSrttUs 1.0) * 1000, ofF64 (max newRttvarUs 1.0) * 1000)
    | none => (sample, sample / 2)
  { state with
    smoothedRtt := some srtt
    rttvar := rttvar
    retransmissionTimeout := min (max (srtt + rttvar * 4) tcpMinRto) tcpMaxRto }

def noteAckProgress (effect : AckEffect) (now : Instant) : TcpFlowState :=
  let state := match effect.rttSample with
    | some sample => updateRttEstimator state sample
    | none => state
  let state :=
    if 0 < effect.bytesAcked || effect.rateSample.isSome then
      { state with
        bbr := state.bbr.onAck (serverMaxSegmentPayload state) state.pipeBytes effect.bytesAcked
          effect.rateSample effect.rttSample now }
    else state
  if effect.bytesAcked == 0 || !effect.growCongestionWindow then state
  else { state with lastAckProgressAt := now }

def noteCongestionEvent (timeout : Bool) : TcpFlowState :=
  let state := { state with fastRecoveryEnd := none, duplicateAckCount := 0 }
  if timeout then
    { state with
      retransmissionTimeout := min (max (state.retransmissionTimeout * 2) tcpMinRto) tcpMaxRtoBackoff
      bbr := noteLoss state.bbr }
  else state

end OutlineProxy.Tcp
