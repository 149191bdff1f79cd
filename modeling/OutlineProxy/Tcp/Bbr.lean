import OutlineProxy.Tcp.Types

/-! The BBR controller of the downlink: bandwidth filter, in-flight cap, pacing credit
and the mode machine.  Its `f64` arithmetic is Lean's binary64 `Float`. -/

namespace OutlineProxy.Tcp

def maxServerSegmentPayload : Nat := 1200
def bbrStartupGain : Float := 2.885
def bbrDrainGain : Float := 0.346
def bbrCwndGain : Float := 2.0
def bbrExtraAckedWinRounds : Nat := 5
def bbrExtraAckedMaxWindow : Duration := millis 100
def bbrProbeBwGains : List Float := [1.25, 0.75, 1.0, 1.0, 1.0, 1.0, 1.0, 1.0]
def bbrMinPipeCwndSegments : Nat := 4
def bbrBwWindowRounds : Nat := 10
def bbrMinRttWindow : Duration := secs 10
def bbrProbeRttDuration : Duration := millis 200
def bbrProbeRttCwndSegments : Nat := 4
def bbrStartupGrowthTarget : Float := 1.25
def bbrStartupFullBwCount : Nat := 3
def bbrPacingMaxBurstSegments : Nat := 16
def bbrPacingBurstClockJitter : Duration := millis 4
def bbrPacingMaxBurstBytes : Nat := 262144
def bbrLossCapBackoff : Float := 0.85
def bbrLossThresh : Float := 0.02
def bbrLossMinSampleBytes : Nat := 100 * maxServerSegmentPayload
def bbrLossCapFloorBps : Nat := 125000

def toF64 (n : Nat) : Float := (UInt64.ofNat n).toFloat

def ofF64 (x : Float) : Nat := x.toUInt64.toNat

/-- `Duration::as_secs_f64`. -/
def asSecsF64 (d : Duration) : Float := toF64 (d / 1000000000) + toF64 (d % 1000000000) / 1000000000.0

/-- `Duration::from_secs_f64` of a finite non-negative number: the exact value of the
float in nanoseconds, rounded half to even. -/
def fromSecsF64 (x : Float) : Duration :=
  let bits := x.toBits.toNat
  let exponent := bits / 2 ^ 52 % 2 ^ 11
  let fraction := bits % 2 ^ 52
  -- value = mantissa * 2 ^ (shift - 1075)
  let mantissa := if exponent = 0 then fraction else fraction + 2 ^ 52
  let shift := max exponent 1
  let scaled := mantissa * 2 ^ shift * 1000000000
  let quotient := scaled / 2 ^ 1075
  let remainder := scaled % 2 ^ 1075
  if remainder < 2 ^ 1074 then quotient
  else if 2 ^ 1074 < remainder then quotient + 1
  else quotient + quotient % 2

def BbrState.new (now : Instant) (maxRateBps : Nat) : BbrState where
  delivered := 0
  deliveredAt := now
  bwFilter := List.replicate 3 ⟨0, 0⟩
  btlbwBps := 0
  roundCount := 0
  nextRoundDelivered := 0
  fullBw := 0
  fullBwCount := 0
  minRtt := 0
  minRttStamp := now
  mode := .startup
  pacingGain := bbrStartupGain
  cwndGain := bbrStartupGain
  probeBwPhase := 0
  cycleStamp := now
  probeRttDoneAt := none
  pacingCredit := 0
  pacingRefilledAt := now
  pacingNextAt := none
  maxRateBps := maxRateBps
  lossCapBps := 0
  lossInRound := false
  bwLatestBps := 0
  lostInWindow := 0
  deliveredInWindow := 0
  lossEpisodes := 0
  extraAcked := (0, 0)
  extraAckedWinIdx := 0
  extraAckedWinRounds := 0
  ackEpochStamp := now
  ackEpochAcked := 0
  inflightHi := usizeMax
  inflightLo := usizeMax

variable (bbr : BbrState)

def refreshBtlbw : BbrState :=
  let horizon := bbr.roundCount - bbrBwWindowRounds
  let live := bbr.bwFilter.filter fun sample =>
    decide (0 < sample.bytesPerSec) && decide (horizon ≤ sample.round)
  { bbr with btlbwBps := (live.map BwSample.bytesPerSec).foldl max 0 }

/-- Index of the first slot with the smallest rate, as `min_by_key` picks it. -/
def minSampleIndex (filter : List BwSample) : Option Nat :=
  (filter.map BwSample.bytesPerSec).min?.map fun low =>
    filter.findIdx fun sample => sample.bytesPerSec == low

def updateBwFilter (bytesPerSec : Nat) : BbrState :=
  let round := bbr.roundCount
  match bbr.bwFilter.findIdx? fun s => s.round == round && decide (0 < s.bytesPerSec) with
  | some slot =>
    refreshBtlbw { bbr with
      bwFilter := bbr.bwFilter.modify slot fun s =>
        if s.bytesPerSec < bytesPerSec then { s with bytesPerSec := bytesPerSec } else s }
  | none =>
    let horizon := round - bbrBwWindowRounds
    match bbr.bwFilter.findIdx? fun s => s.bytesPerSec == 0 || decide (s.round < horizon) with
    | some slot => refreshBtlbw { bbr with bwFilter := bbr.bwFilter.set slot ⟨bytesPerSec, round⟩ }
    | none =>
      match minSampleIndex bbr.bwFilter with
      | some slot =>
        refreshBtlbw { bbr with
          bwFilter := bbr.bwFilter.modify slot fun s =>
            if s.bytesPerSec < bytesPerSec then ⟨bytesPerSec, round⟩ else s }
      | none => refreshBtlbw bbr

def effectiveBtlbw : Nat :=
  let rate := bbr.btlbwBps
  let rate := if 0 < bbr.maxRateBps then min rate bbr.maxRateBps else rate
  if 0 < bbr.lossCapBps then min rate bbr.lossCapBps else rate

def bdpBytes : Option Nat :=
  if bbr.btlbwBps = 0 ∨ bbr.minRtt = 0 then none
  else some (ofF64 (toF64 (effectiveBtlbw bbr) * asSecsF64 bbr.minRtt))

def pacingRateFrom : Nat :=
  if bbr.btlbwBps = 0 then 0
  else
    let rate := max (ofF64 (toF64 bbr.btlbwBps * bbr.pacingGain)) 1
    let rate := if 0 < bbr.maxRateBps then min rate bbr.maxRateBps else rate
    if 0 < bbr.lossCapBps then min rate bbr.lossCapBps else rate

def tsoSegsGoal (mss : Nat) : Nat :=
  let perMs := pacingRateFrom bbr / 1024
  min (max (perMs / max mss 1) 2) 127

def quantizationBudget (mss cwnd : Nat) : Nat :=
  (cwnd + 3 * tsoSegsGoal bbr mss * mss) % 2 ^ 64

def inflightForGainWithHeadRoom (mss : Nat) (gain : Float) (headRoom : Nat) : Nat :=
  let floor := mss * bbrMinPipeCwndSegments
  match bdpBytes bbr with
  | some bdp =>
    let target := satAdd (ofF64 (toF64 bdp * gain)) headRoom
    max (quantizationBudget bbr mss target) floor
  | none => usizeMax

def inflightForGain (mss : Nat) (gain : Float) : Nat :=
  inflightForGainWithHeadRoom bbr mss gain 0

def extraAckedMax : Nat := max bbr.extraAcked.1 bbr.extraAcked.2

def ackAggregationCwnd : Nat :=
  if bbr.mode = .startup then 0
  else
    let ceiling := ofF64 (toF64 (effectiveBtlbw bbr) * asSecsF64 bbrExtraAckedMaxWindow)
    min (extraAckedMax bbr) ceiling

def inflightCapFrom (mss : Nat) : Nat :=
  if bbr.mode = .probeRtt then mss * bbrMinPipeCwndSegments
  else inflightForGainWithHeadRoom bbr mss bbr.cwndGain (ackAggregationCwnd bbr)

/-- Overwrite slot `idx` of the two `extra_acked` slots. -/
def setExtraAcked (slots : Nat × Nat) (idx value : Nat) : Nat × Nat :=
  if idx = 0 then (value, slots.2) else (slots.1, value)

def getExtraAcked (slots : Nat × Nat) (idx : Nat) : Nat :=
  if idx = 0 then slots.1 else slots.2

def retireExtraAckedSlot : BbrState :=
  let rounds := bbr.extraAckedWinRounds + 1
  if bbrExtraAckedWinRounds ≤ rounds then
    let idx := 1 - bbr.extraAckedWinIdx
    { bbr with
      extraAckedWinRounds := 0
      extraAckedWinIdx := idx
      extraAcked := setExtraAcked bbr.extraAcked idx 0 }
  else { bbr with extraAckedWinRounds := rounds }

def updateAckAggregation (bytesDelivered : Nat) (roundStart : Bool) (cwndClamp : Nat)
    (now : Instant) : BbrState :=
  if bytesDelivered = 0 then bbr
  else
    let bbr := if roundStart then retireExtraAckedSlot bbr else bbr
    let epoch := asSecsF64 (now - bbr.ackEpochStamp)
    let expected := ofF64 (toF64 (effectiveBtlbw bbr) * epoch)
    let (bbr, expected) :=
      if bbr.ackEpochAcked ≤ expected then
        ({ bbr with ackEpochAcked := 0, ackEpochStamp := now }, 0)
      else (bbr, expected)
    let bbr := { bbr with ackEpochAcked := satAdd bbr.ackEpochAcked bytesDelivered }
    let excess := min (bbr.ackEpochAcked - expected) cwndClamp
    let slot := getExtraAcked bbr.extraAcked bbr.extraAckedWinIdx
    { bbr with extraAcked := setExtraAcked bbr.extraAcked bbr.extraAckedWinIdx (max slot excess) }

def isProbingBandwidth : Bool :=
  bbr.mode == .startup || (bbr.mode == .probeBw && decide (1.0 < bbr.pacingGain))

def releaseLossCap : BbrState :=
  { bbr with lossCapBps := 0, inflightLo := usizeMax }

def resetLossCap : BbrState :=
  { releaseLossCap bbr with
    lostInWindow := 0
    deliveredInWindow := 0
    bwLatestBps := 0
    inflightHi := usizeMax }

def pinInflight (inflight minPipe : Nat) : BbrState :=
  let loBasis := if bbr.inflightLo = usizeMax then inflight else bbr.inflightLo
  { bbr with
    inflightHi := max (min bbr.inflightHi inflight) minPipe
    inflightLo := max (ofF64 (toF64 loBasis * bbrLossCapBackoff)) minPipe }

def adaptLossCap (inflight minPipe : Nat) : BbrState :=
  if bbr.btlbwBps = 0 then bbr
  else if isProbingBandwidth bbr then bbr
  else
    let window := satAdd bbr.lostInWindow bbr.deliveredInWindow
    if window < bbrLossMinSampleBytes then bbr
    else
      let lossRate := toF64 bbr.lostInWindow / toF64 window
      let bwLatest := bbr.bwLatestBps
      let bbr := { bbr with lostInWindow := 0, deliveredInWindow := 0, bwLatestBps := 0 }
      if lossRate ≤ bbrLossThresh then bbr
      else
        let bbr := pinInflight bbr inflight minPipe
        if bwLatest = 0 then bbr
        else
          let basis := if 0 < bbr.lossCapBps then bbr.lossCapBps else effectiveBtlbw bbr
          let backedOff := ofF64 (toF64 basis * bbrLossCapBackoff)
          { bbr with lossCapBps := max (max backedOff bwLatest) bbrLossCapFloorBps }

def pacingBurstCapBytes (mss rate : Nat) : Nat :=
  let floor := mss * bbrPacingMaxBurstSegments
  let ceiling := max bbrPacingMaxBurstBytes floor
  let jitterBudget := ofF64 (toF64 rate * asSecsF64 bbrPacingBurstClockJitter)
  min (max jitterBudget floor) ceiling

def refillCreditAt (rate cap : Nat) (now : Instant) : BbrState :=
  if rate = 0 then bbr
  else
    let elapsed := asSecsF64 (now - bbr.pacingRefilledAt)
    let added := ofF64 (toF64 rate * elapsed)
    { bbr with
      pacingCredit := min (satAdd bbr.pacingCredit added) cap
      pacingRefilledAt := now }

def releaseAtFor (byteCount rate : Nat) : Instant :=
  let deficit := byteCount - bbr.pacingCredit
  if deficit = 0 then bbr.pacingRefilledAt
  else bbr.pacingRefilledAt + fromSecsF64 (toF64 deficit / toF64 (max rate 1))

def noteLoss : BbrState :=
  { bbr with lossEpisodes := satAdd bbr.lossEpisodes 1, lossInRound := true }

def noteBytesLost (bytes : Nat) : BbrState :=
  { bbr with lostInWindow := satAdd bbr.lostInWindow bytes }

def enterDrain : BbrState :=
  { bbr with mode := .drain, pacingGain := bbrDrainGain, cwndGain := bbrStartupGain }

def enterProbeBw (now : Instant) : BbrState :=
  resetLossCap { bbr with
    mode := .probeBw
    cwndGain := bbrCwndGain
    probeBwPhase := 2
    pacingGain := bbrProbeBwGains.getD 2 1.0
    cycleStamp := now }

def enterProbeRtt : BbrState :=
  { bbr with mode := .probeRtt, pacingGain := 1.0, probeRttDoneAt := none }

def checkStartupFullPipe : BbrState :=
  if ofF64 (toF64 bbr.fullBw * bbrStartupGrowthTarget) ≤ bbr.btlbwBps then
    { bbr with fullBw := bbr.btlbwBps, fullBwCount := 0 }
  else { bbr with fullBwCount := bbr.fullBwCount + 1 }

def startRound (inflight minPipe : Nat) : BbrState :=
  let bbr := { bbr with roundCount := satAdd bbr.roundCount 1, nextRoundDelivered := bbr.delivered }
  let bbr := if bbr.mode = .startup then checkStartupFullPipe bbr else bbr
  { adaptLossCap bbr inflight minPipe with lossInRound := false }

def foldRateSample (sample : RateSample) (now : Instant) : BbrState :=
  let ackInterval := now - sample.priorMstamp
  let pacingLimited := decide (ackInterval < sample.sendInterval)
  let interval := asSecsF64 (max ackInterval sample.sendInterval)
  if 0.0 < interval then
    let delivered := bbr.delivered - sample.priorDelivered
    let rate := ofF64 (toF64 delivered / interval)
    let bbr := { bbr with bwLatestBps := max bbr.bwLatestBps rate }
    if (!sample.appLimited && !pacingLimited) || decide (bbr.btlbwBps < rate) then
      updateBwFilter bbr rate
    else bbr
  else bbr

def foldRttSample (rtt : Duration) (now : Instant) : BbrState :=
  if bbr.minRtt = 0 ∨ rtt < bbr.minRtt ∨ bbrMinRttWindow < now - bbr.minRttStamp then
    { bbr with minRtt := rtt, minRttStamp := now }
  else bbr

def recordDelivery (bytesDelivered : Nat) (rateSample : Option RateSample)
    (rttSample : Option Duration) (now : Instant) (inflight minPipe : Nat) : BbrState × Bool :=
  let bbr := { bbr with
    delivered := satAdd bbr.delivered bytesDelivered
    deliveredAt := now
    deliveredInWindow := satAdd bbr.deliveredInWindow bytesDelivered }
  let roundStart := rateSample.any fun s => decide (bbr.nextRoundDelivered ≤ s.priorDelivered)
  let bbr := if roundStart then startRound bbr inflight minPipe else bbr
  let bbr := match rateSample with
    | some sample => foldRateSample bbr sample now
    | none => bbr
  let bbr := match rttSample with
    | some rtt => foldRttSample bbr rtt now
    | none => bbr
  (bbr, roundStart)

def probeBwAdvance (mss pipe : Nat) (now : Instant) : Bool :=
  let phaseLen := max bbr.minRtt (millis 1)
  let isFullLength := decide (phaseLen ≤ now - bbr.cycleStamp)
  if 1.0 < bbr.pacingGain then
    isFullLength && (bbr.lossInRound || decide (inflightForGain bbr mss bbr.pacingGain ≤ pipe))
  else if bbr.pacingGain < 1.0 then
    isFullLength || (bdpBytes bbr).any fun bdp => decide (pipe ≤ bdp)
  else isFullLength

def advanceProbeBwPhase (now : Instant) : BbrState :=
  let phase := (bbr.probeBwPhase + 1) % bbrProbeBwGains.length
  let bbr := { bbr with
    probeBwPhase := phase
    pacingGain := bbrProbeBwGains.getD phase 1.0
    cycleStamp := now }
  if 1.0 < bbr.pacingGain then
    let bbr := if bbr.lossInRound then bbr else { bbr with inflightHi := usizeMax }
    releaseLossCap bbr
  else bbr

def updateMode (mss pipe : Nat) (now : Instant) : BbrState :=
  let bbr :=
    if bbr.mode ≠ .probeRtt ∧ bbrMinRttWindow < now - bbr.minRttStamp then enterProbeRtt bbr else bbr
  match bbr.mode with
  | .startup => if bbrStartupFullBwCount ≤ bbr.fullBwCount then enterDrain bbr else bbr
  | .drain => if (bdpBytes bbr).all fun bdp => decide (pipe ≤ bdp) then enterProbeBw bbr now else bbr
  | .probeBw => if probeBwAdvance bbr mss pipe now then advanceProbeBwPhase bbr now else bbr
  | .probeRtt =>
    let floor := mss * bbrProbeRttCwndSegments
    match bbr.probeRttDoneAt with
    | none => if pipe ≤ floor then { bbr with probeRttDoneAt := some (now + bbrProbeRttDuration) } else bbr
    | some doneAt => if doneAt ≤ now then enterProbeBw { bbr with minRttStamp := now } now else bbr

/-- `on_ack` on the controller, given the flow's segment size and the bytes in flight. -/
def BbrState.onAck (mss inflight bytesDelivered : Nat) (rateSample : Option RateSample)
    (rttSample : Option Duration) (now : Instant) : BbrState :=
  let minPipe := mss * bbrMinPipeCwndSegments
  let (bbr, roundStart) := recordDelivery bbr bytesDelivered rateSample rttSample now inflight minPipe
  let cwndClamp := inflightCapFrom bbr mss
  let bbr := updateAckAggregation bbr bytesDelivered roundStart cwndClamp now
  updateMode bbr mss inflight now

end OutlineProxy.Tcp
