import OutlineProxy.Lib.Runs
import OutlineProxy.Server.DownlinkRing
import OutlineProxy.Socks.Carrier

/-! The relay of a SOCKS session between its client and the uplink it is pinned to, from the chunk-0
phase on: the uplink task, the downlink task, the retry on a new carrier, and the server. -/

namespace OutlineProxy.Socks

open Transport Server

inductive OverflowPolicy where
  | soft
  | hard

structure RelayConfig where
  retryBufferBytes : Nat
  retryBudget : Nat
  overflowPolicy : OverflowPolicy
  /-- The uplink's transport is `Ss` or `Vless`. -/
  wsFamily : Bool := true
  sharedResume : Bool := false
  symmetricReplayMaxBytes : Nat
  /-- The capacity of the server's ring. -/
  downlinkBufferBytes : Nat

def RelayConfig.retryEligible (config : RelayConfig) : Bool :=
  0 < config.retryBufferBytes && 0 < config.retryBudget && config.wsFamily

structure ServerSession where
  /-- What the target has received. -/
  received : Bytes := []
  upstreamBytesAcked : Nat := 0
  /-- What was read from the target. -/
  stream : Bytes := []
  downlinkRing : DownlinkRing

def ServerSession.forwardPlaintext (server : ServerSession) (payload : Bytes) : ServerSession :=
  { server with
    received := server.received ++ payload
    upstreamBytesAcked := server.upstreamBytesAcked + payload.length }

def ServerSession.relay (server : ServerSession) (chunk : Bytes) : ServerSession :=
  { server with
    stream := server.stream ++ chunk
    downlinkRing := server.downlinkRing.push chunk }

inductive DownlinkReplayOutcome where
  | replay (payload : Bytes)
  | truncated

inductive RetryError where
  | failedRedial
  | failedReplay
  | noRing
  | downlinkTruncated
deriving DecidableEq

/-- A redialled carrier: the control frames read from it and how the sends on it go.  An outer `none` is
a frame that is invalid or late, an inner `none` a capability that was not negotiated. -/
structure Redialled where
  ackPrefix : Option (Option Nat)
  sends : List Fate
  downlinkReplay : Option (Option DownlinkReplayOutcome)

def sendReplayThroughWriter (replay : Bytes) (fates : List Fate) : Bytes × Bool :=
  sendChunks [] (Pieces.chunks shadowsocksMaxPayload replay) fates

def tryMidSessionRetry (ring : Option ClientUpstreamRingBuffer) (overflowPolicy : OverflowPolicy)
    (redial : Option Redialled) : Bytes × Except RetryError (Option Bytes) :=
  match redial with
  | none => ([], .error .failedRedial)
  | some connected =>
    match connected.ackPrefix, ring with
    | none, _ => ([], .error .failedRedial)
    | some _, none => ([], .error .noRing)
    | some serverAckedOffset, some ring =>
      match ring.replayFrom (serverAckedOffset.getD ring.oldestOffset) with
      | .error _ => ([], .error .failedReplay)
      | .ok replayBytes =>
        match sendReplayThroughWriter replayBytes connected.sends with
        | (wire, false) => (wire, .error .failedReplay)
        | (wire, true) =>
          match connected.downlinkReplay with
          | none => (wire, .error .failedRedial)
          | some none => (wire, .ok none)
          | some (some (.replay payload)) => (wire, .ok (if payload = [] then none else some payload))
          | some (some .truncated) =>
            match overflowPolicy with
            | .hard => (wire, .error .downlinkTruncated)
            | .soft => (wire, .ok none)

inductive Phase where
  | chunk0
  | relaying
  /-- The uplink task has failed, or the active uplink has moved; the downlink task still runs. -/
  | stopping (switched : Bool)
  /-- Both tasks are gone. -/
  | stopped (switched : Bool)
  | ended
deriving DecidableEq

inductive DownlinkTask where
  | reading
  /-- Inside `write_all`, with `left` of a chunk of `len` bytes to write. -/
  | writing (left : Bytes) (len : Nat)
deriving DecidableEq

structure Session where
  phase : Phase := .chunk0
  /-- What has been read from the client. -/
  read : Bytes := []
  ring : Option ClientUpstreamRingBuffer
  budget : Nat
  /-- Payload on the current carrier that the server has not forwarded. -/
  wire : Bytes := []
  server : ServerSession
  /-- Payload of the server on the current carrier. -/
  downWire : Bytes := []
  downlink : DownlinkTask := .reading
  clientAckedOffset : Nat := 0
  /-- What has been written to the client's socket. -/
  written : Bytes := []

inductive Negotiated where
  | engaged
  | off
  | lost
deriving DecidableEq

inductive Redial where
  /-- The active uplink has moved off, or the dial fails. -/
  | refused
  | hit (ackPrefix downlinkReplay : Negotiated) (sends : List Fate)

inductive Event where
  | chunk0 (chunk : Bytes) (fate : Fate)
  /-- The first `n` bytes of the server's answer. -/
  | firstChunk (n : Nat)
  | relay (chunk : Bytes) (fate : Fate)
  /-- A keepalive or the half-close fails. -/
  | uplinkError
  | switchAway
  | downlinkRead (n : Nat)
  | downlinkWrite (n : Nat)
  | downlinkError
  | abortDownlink
  | forward (n : Nat)
  | serverSends (chunk : Bytes)
  | retry (redial : Redial)
  /-- The session ends without a retry. -/
  | stop

namespace Session

variable (config : RelayConfig)

def initial : Session where
  ring := if config.retryEligible then some (.new config.retryBufferBytes) else none
  budget := if config.retryEligible then config.retryBudget else 0
  server := { downlinkRing := .new config.downlinkBufferBytes }

variable (s : Session)

def sendChunk0 (chunk : Bytes) (fate : Fate) : Option Session :=
  if s.phase ≠ .chunk0 ∨ chunk = [] ∨ shadowsocksMaxPayload < chunk.length then none
  else
    let (wire, ok) := sendChunk s.wire chunk fate
    -- a failed send is left to the chunk-0 failover
    some { s with read := s.read ++ chunk, wire := wire, phase := if ok then .chunk0 else .ended }

def startDownlink : Option Bytes → DownlinkTask
  | some (byte :: rest) => .writing (byte :: rest) (rest.length + 1)
  | _ => .reading

def firstChunk (n : Nat) : Option Session :=
  if s.phase ≠ .chunk0 ∨ s.downWire.take n = [] then none
  else
    some { s with
      phase := .relaying
      downWire := s.downWire.drop n
      downlink := startDownlink (some (s.downWire.take n)) }

/-- `send_chunk` of the uplink task. -/
def sendOn (chunk : Bytes) (fate : Fate) : Session :=
  let (wire, ok) := sendChunk s.wire chunk fate
  { s with wire := wire, phase := if ok then s.phase else .stopping false }

def relay (s : Session) (chunk : Bytes) (fate : Fate) : Option Session :=
  if s.phase ≠ .relaying ∨ chunk = [] ∨ shadowsocksMaxPayload < chunk.length then none
  else
    let s := { s with read := s.read ++ chunk }
    match s.ring with
    | none => some (s.sendOn chunk fate)
    | some ring =>
      match ring.push chunk, config.overflowPolicy with
      | .ok ring, _ => some ({ s with ring := some ring }.sendOn chunk fate)
      | .error _, .soft => some (s.sendOn chunk fate)
      | .error _, .hard => some { s with phase := .stopping false }

def uplinkError : Option Session :=
  if s.phase = .relaying then some { s with phase := .stopping false } else none

def downlinkRuns : Bool :=
  match s.phase with
  | .relaying | .stopping _ => true
  | _ => false

def switchAway : Option Session :=
  if s.downlinkRuns then some { s with phase := .stopping true } else none

def downlinkRead (n : Nat) : Option Session :=
  if s.downlinkRuns = true ∧ s.downlink = .reading ∧ s.downWire.take n ≠ [] then
    some { s with
      downWire := s.downWire.drop n
      downlink := .writing (s.downWire.take n) (s.downWire.take n).length }
  else none

/-- `n` bytes of the chunk reach the socket; with the last one `write_all` returns, and the offset
advances before the task can be stopped. -/
def downlinkWrite (n : Nat) : Option Session :=
  match s.downlink with
  | .reading => none
  | .writing left len =>
    if s.downlinkRuns = false then none
    else if n < left.length then
      some { s with written := s.written ++ left.take n, downlink := .writing (left.drop n) len }
    else
      some { s with
        written := s.written ++ left
        downlink := .reading
        clientAckedOffset := s.clientAckedOffset + len }

/-- `read_chunk` fails; a failed write to the client is not retried. -/
def downlinkError : Option Session :=
  match s.phase, s.downlink with
  | .relaying, .reading => some { s with phase := .stopped false }
  | .stopping switched, .reading => some { s with phase := .stopped switched }
  | _, _ => none

def abortDownlink : Option Session :=
  match s.phase with
  | .stopping switched => some { s with phase := .stopped switched, downlink := .reading }
  | _ => none

def forward (n : Nat) : Session :=
  { s with wire := s.wire.drop n, server := s.server.forwardPlaintext (s.wire.take n) }

def serverSends (chunk : Bytes) : Session :=
  { s with server := s.server.relay chunk, downWire := s.downWire ++ chunk }

def downlinkReplayFrame (s : Session) : Option (Option DownlinkReplayOutcome) :=
  match s.server.downlinkRing.replayFrom s.clientAckedOffset with
  | .available bytes =>
    if config.symmetricReplayMaxBytes < bytes.length then none else some (some (.replay bytes))
  | .truncated | .offsetAhead => some (some .truncated)

def redialled (s : Session) : Redial → Option Redialled
  | .refused => none
  | .hit ackPrefix downlinkReplay sends =>
    some {
      ackPrefix :=
        match ackPrefix with
        | .engaged => some (some s.server.upstreamBytesAcked)
        | .off => some none
        | .lost => none
      sends := sends
      downlinkReplay :=
        match downlinkReplay with
        | .engaged => s.downlinkReplayFrame config
        | .off => some none
        | .lost => none }

/-- The session after `try_mid_session_retry`; a hit takes it off the old carrier. -/
def retried (s : Session) (redial : Redial) : Session :=
  match redial with
  | .refused => { s with phase := .ended }
  | .hit .. =>
    match tryMidSessionRetry s.ring config.overflowPolicy (s.redialled config redial) with
    | (wire, .error _) => { s with phase := .ended, wire := wire, downWire := [] }
    | (wire, .ok downlinkReplay) =>
      { s with
        phase := .relaying
        wire := wire
        downWire := []
        downlink := startDownlink downlinkReplay }

def retry (s : Session) (redial : Redial) : Option Session :=
  match s.phase with
  | .stopped false =>
    if 0 < s.budget && config.retryEligible then
      some ({ s with budget := s.budget - 1 }.retried config redial)
    else none
  | .stopped true =>
    if config.sharedResume && config.retryEligible then some (s.retried config redial) else none
  | _ => none

def step (s : Session) : Event → Option Session
  | .chunk0 chunk fate => s.sendChunk0 chunk fate
  | .firstChunk n => s.firstChunk n
  | .relay chunk fate => s.relay config chunk fate
  | .uplinkError => s.uplinkError
  | .switchAway => s.switchAway
  | .downlinkRead n => s.downlinkRead n
  | .downlinkWrite n => s.downlinkWrite n
  | .downlinkError => s.downlinkError
  | .abortDownlink => s.abortDownlink
  | .forward n => some (s.forward n)
  | .serverSends chunk => some (s.serverSends chunk)
  | .retry redial => s.retry config redial
  | .stop => some { s with phase := .ended }

variable {config : RelayConfig} {s next : Session} {chunk : Bytes} {fate : Fate}

inductive Pushed (chunk : Bytes) : Option ClientUpstreamRingBuffer → Option ClientUpstreamRingBuffer → Prop
  | off : Pushed chunk none none
  | kept {ring pushed : ClientUpstreamRingBuffer} (hpush : ring.push chunk = .ok pushed) :
      Pushed chunk (some ring) (some pushed)
  | refused {ring : ClientUpstreamRingBuffer} {error : PushError} (hpush : ring.push chunk = .error error) :
      Pushed chunk (some ring) (some ring)

theorem relay_cases (hstep : s.relay config chunk fate = some next) :
    s.phase = .relaying ∧ chunk ≠ [] ∧ ∃ ring, Pushed chunk s.ring ring ∧
      (next = { s with read := s.read ++ chunk, ring := ring }.sendOn chunk fate ∨
        next = { s with read := s.read ++ chunk, ring := ring, phase := .stopping false } ∧
          ∃ old error, s.ring = some old ∧ old.push chunk = .error error) := by
  unfold Session.relay at hstep
  by_cases hguard : s.phase ≠ .relaying ∨ chunk = [] ∨ shadowsocksMaxPayload < chunk.length
  · rw [if_pos hguard] at hstep
    cases hstep
  rw [if_neg hguard] at hstep
  obtain ⟨hphase, hlength⟩ := not_or.mp hguard
  refine ⟨not_not.mp hphase, fun hempty => hlength (.inl hempty), ?_⟩
  cases hring : s.ring with
  | none =>
    simp only [hring] at hstep
    cases hstep
    exact ⟨none, .off, .inl rfl⟩
  | some ring =>
    simp only [hring] at hstep
    cases hpush : ring.push chunk with
    | ok pushed =>
      rw [hpush] at hstep
      cases hstep
      exact ⟨some pushed, .kept hpush, .inl rfl⟩
    | error error =>
      refine ⟨some ring, .refused hpush, ?_⟩
      cases hpolicy : config.overflowPolicy with
      | soft =>
        rw [hpush, hpolicy] at hstep
        cases hstep
        exact .inl rfl
      | hard => grind

theorem sendChunk0_cases (hstep : s.sendChunk0 chunk fate = some next) :
    s.phase = .chunk0 ∧ chunk ≠ [] ∧ ∃ phase, (phase = .chunk0 ∨ phase = .ended) ∧
      next = { s with read := s.read ++ chunk, wire := (sendChunk s.wire chunk fate).1, phase := phase } := by
  grind [Session.sendChunk0, shadowsocksMaxPayload]

theorem retry_eq {redial : Redial} (hstep : s.retry config redial = some next) :
    config.retryEligible = true ∧ ∃ budget, next = { s with budget := budget }.retried config redial := by
  unfold Session.retry at hstep
  split at hstep
  · grind
  · split at hstep <;> cases hstep
    rename_i hshared
    exact ⟨(Bool.and_eq_true_iff.mp hshared).2, s.budget, rfl⟩
  · cases hstep

end Session

end OutlineProxy.Socks
