import OutlineProxy.Server.DownlinkRing
import OutlineProxy.Shadowsocks.DownlinkMessages

/-! The downlink of an XHTTP session.  The relay pushes one message after the other and waits while the
queue is full; the consumer of the GET drains the queue. -/

namespace OutlineProxy.Server

open List Runs Pieces Sealing DownlinkRing

inductive Protocol where
  | http1
  | http2
  | http3
  | socket
  | xhttpH1
  | xhttpH2
  | xhttpH3
deriving DecidableEq

def h2DataPayloadMax : Nat := 16384 - 9

def h2WsHeaderLen : Nat := 4

def minH2PlaintextCap : Nat := 1024

def paddingFrameHeaderLen : Nat := 4

def h2PlaintextCap (protocol : Protocol) (maxPad innerOverhead : Nat) : Option Nat :=
  if protocol = .http2 ∨ protocol = .xhttpH2 then
    let padding := if 0 < maxPad then paddingFrameHeaderLen + maxPad else 0
    let overhead := h2WsHeaderLen + padding + innerOverhead
    if overhead ≤ h2DataPayloadMax ∧ minH2PlaintextCap ≤ h2DataPayloadMax - overhead then
      some (h2DataPayloadMax - overhead)
    else none
  else none

section Lead

-- one message behind its random padding, used where the scheme has a positive largest pad
variable (frame : List UInt8 → List UInt8)

def frameDownlinkMessage (maxPad : Nat) (bytes : List UInt8) : List UInt8 :=
  if 0 < maxPad then frame bytes else bytes

def cappedDownlinkMessages (protocol : Protocol) (maxPad : Nat) (bytes : List UInt8) : List (List UInt8) :=
  match h2PlaintextCap protocol maxPad 0 with
  | some cap =>
    if cap < bytes.length then
      (split bytes (Shadowsocks.evenPieceLens bytes.length cap)).map (frameDownlinkMessage frame maxPad)
    else [frameDownlinkMessage frame maxPad bytes]
  | none => [frameDownlinkMessage frame maxPad bytes]

def responseLead (protocol : Protocol) (maxPad : Nat) (controls : List UInt8) :
    Option (List UInt8) × List (List UInt8) :=
  if controls = [] then (some [0x00, 0x00], [])
  else (none, cappedDownlinkMessages frame protocol maxPad ([0x00, 0x00] ++ controls))

end Lead

def buildV1Payload (upAcked : Nat) : List UInt8 := [0x4f, 0x52, 0x53, 0x4d, 0x01, 0x00] ++ toBe 8 upAcked

def buildV1Header (flags : UInt8) (replayLen : Nat) : List UInt8 :=
  [0x4f, 0x52, 0x44, 0x52, 0x01, flags] ++ toBe 8 replayLen

def downlinkReplay (ring : Option DownlinkRing) (clientAckedOffset : Nat) : UInt8 × List UInt8 :=
  match ring with
  | none => (0x01, [])
  | some ring =>
    match ring.replayFrom clientAckedOffset with
    | .available bytes => (0x00, bytes)
    | .truncated => (0x01, [])
    | .offsetAhead => (0x01, [])

def resumeControls (upAcked : Option Nat) (clientAckedOffset : Option Nat) (ring : Option DownlinkRing) :
    List UInt8 :=
  (match upAcked with
    | some upAcked => buildV1Payload upAcked
    | none => []) ++ (match clientAckedOffset with
    | some offset =>
      let (flags, payload) := downlinkReplay ring offset
      buildV1Header flags payload.length ++ payload
    | none => [])

def downlinkBufferBytesCap : Nat := 256 * 1024

inductive DownlinkPushError where
  | closed

structure DownlinkState where
  pending : List (List UInt8) := []
  pendingBytes : Nat := 0
  closed : Bool := false

def DownlinkState.drainDownlink (state : DownlinkState) : DownlinkState × List (List UInt8) :=
  ({ state with
    pending := []
    pendingBytes := state.pending.foldl (fun bytes chunk => bytes - chunk.length) state.pendingBytes },
    state.pending)

/-- One turn of the loop of `push_downlink`, `none` where it waits for a drain. -/
def DownlinkState.pushDownlink (state : DownlinkState) (data : List UInt8) :
    Option (Except DownlinkPushError DownlinkState) :=
  if data = [] then some (.ok state)
  else if state.closed then some (.error .closed)
  else if state.pendingBytes + data.length ≤ downlinkBufferBytesCap then
    some (.ok { state with
      pending := state.pending ++ [data]
      pendingBytes := state.pendingBytes + data.length })
  else none

/-- The session's downlink between the relay, which has `messages` left to push, and the consumer. -/
structure Downlink where
  state : DownlinkState := {}
  messages : List (List UInt8) := []
  -- the push of the first message found no room and waits
  waiting : Bool := false
  -- `downlink_drain_notify` holds a permit for it
  permit : Bool := false
  pushed : List (List UInt8) := []
  drained : List (List UInt8) := []

inductive DownlinkEvent where
  | turn
  | drain
  | close
deriving DecidableEq

namespace Downlink

def step (downlink : Downlink) : DownlinkEvent → Option Downlink
  | .turn =>
    match downlink.messages with
    | [] => none
    | message :: rest =>
      if downlink.waiting ∧ ¬ downlink.permit then none
      else
        let permit := downlink.permit && !downlink.waiting
        match downlink.state.pushDownlink message with
        | none => some { downlink with waiting := true, permit := permit }
        | some (.ok state) =>
          some { downlink with
            state := state
            messages := rest
            waiting := false
            permit := permit
            pushed := downlink.pushed ++ [message] }
        | some (.error _) => some { downlink with messages := [], waiting := false, permit := permit }
  | .drain =>
    let (state, chunks) := downlink.state.drainDownlink
    some { downlink with
      state := state
      permit := downlink.permit || !downlink.state.pending.isEmpty
      drained := downlink.drained ++ chunks }
  | .close => some { downlink with state := { downlink.state with closed := true }, permit := true }

variable {downlink next : Downlink} {event : DownlinkEvent} {events : List DownlinkEvent}
  {messages rest : List (List UInt8)} {message : List UInt8}

/-- The queue counts its bytes, and what was pushed is what was drained and what is queued. A push that fits the empty
queue sleeps only while there is something to drain. -/
structure Accounted (messages : List (List UInt8)) (downlink : Downlink) : Prop where
  opened : downlink.state.closed = false
  bytes : downlink.state.pendingBytes = downlink.state.pending.flatten.length
  all : downlink.pushed ++ downlink.messages = messages
  order : downlink.drained ++ downlink.state.pending = downlink.pushed.filter (· ≠ [])
  woken : ∀ message rest, downlink.messages = message :: rest → message.length ≤ downlinkBufferBytesCap →
    downlink.waiting = true → downlink.permit = false → downlink.state.pending ≠ []

theorem accounted_start (messages : List (List UInt8)) : Accounted messages { messages } where
  opened := rfl
  bytes := rfl
  all := rfl
  order := rfl
  woken := nofun

theorem foldl_sub_length (chunks : List (List UInt8)) (bytes : Nat) :
    chunks.foldl (fun bytes chunk => bytes - chunk.length) bytes = bytes - chunks.flatten.length := by
  induction chunks generalizing bytes with
  | nil => rfl
  | cons chunk chunks ih =>
    rw [foldl_cons, ih, flatten_cons, length_append]
    omega

section Steps

variable (h : Accounted messages downlink)

include h

theorem Accounted.drainDownlink :
    downlink.state.drainDownlink = ({}, downlink.state.pending) := by
  simp only [DownlinkState.drainDownlink, foldl_sub_length, h.bytes, h.opened, Nat.sub_self]

theorem Accounted.pushDownlink (data : List UInt8) :
    (downlinkBufferBytesCap < downlink.state.pendingBytes + data.length ∧ downlink.state.pushDownlink data = none) ∨
    ∃ state, downlink.state.pushDownlink data = some (.ok state) ∧
      (data ≠ [] → downlink.state.pendingBytes + data.length ≤ downlinkBufferBytesCap) ∧ state.closed = false ∧
      state.pendingBytes = downlink.state.pendingBytes + data.length ∧
      state.pending = downlink.state.pending ++ [data].filter (· ≠ []) := by
  have hopened := h.opened
  grind [DownlinkState.pushDownlink, downlinkBufferBytesCap]

theorem Accounted.turn_cases (hstep : downlink.step .turn = some next) :
    ∃ message rest, downlink.messages = message :: rest ∧
      ((downlinkBufferBytesCap < downlink.state.pendingBytes + message.length ∧
        next = { downlink with waiting := true, permit := downlink.permit && !downlink.waiting }) ∨
      ((message ≠ [] → downlink.state.pendingBytes + message.length ≤ downlinkBufferBytesCap) ∧
        next.state.closed = false ∧ next.state.pendingBytes = downlink.state.pendingBytes + message.length ∧
        next.state.pending = downlink.state.pending ++ [message].filter (· ≠ []) ∧ next.messages = rest ∧
        next.waiting = false ∧ next.pushed = downlink.pushed ++ [message] ∧ next.drained = downlink.drained)) := by
  have hpushDownlink := h.pushDownlink
  grind [step, Option.some.injEq]

theorem Accounted.drain : downlink.step .drain = some { downlink with
    state := {}
    permit := downlink.permit || !downlink.state.pending.isEmpty
    drained := downlink.drained ++ downlink.state.pending } := by
  simp only [step, h.drainDownlink]

theorem Accounted.step (hallowed : event ≠ .close)
    (hstep : downlink.step event = some next) : Accounted messages next := by
  cases event with
  | close => exact absurd rfl hallowed
  | drain =>
    rw [h.drain, Option.some.injEq] at hstep
    subst hstep
    refine ⟨rfl, rfl, h.all, (List.append_nil _).trans h.order, ?_⟩
    intro message rest hmessages hfits hwaiting hpermit
    simp only [Bool.or_eq_false_iff, Bool.not_eq_false', List.isEmpty_iff] at hpermit
    exact absurd hpermit.2 (h.woken message rest hmessages hfits hwaiting hpermit.1)
  | turn =>
    obtain ⟨message, rest, hmessages, ⟨hfull, rfl⟩ |
      ⟨-, hopened, hbytes, hpending, hrest, hwaiting, hpushed, hdrained⟩⟩ := h.turn_cases hstep
    · refine { h with woken := ?_ }
      intro message' rest' hmessages' hfits _ _ hnone
      cases hmessages.symm.trans hmessages'
      have hzero : downlink.state.pending.flatten.length = 0 := congrArg (fun chunks => chunks.flatten.length) hnone
      have hbytes := h.bytes
      omega
    · refine ⟨hopened, ?_, ?_, ?_, ?_⟩
      · rw [hbytes, hpending, h.bytes]
        by_cases hempty : message = [] <;> simp [hempty]
      · rw [hpushed, hrest, ← h.all, hmessages, List.append_assoc, List.singleton_append]
      · rw [hdrained, hpending, hpushed, List.filter_append, ← h.order, List.append_assoc]
      · intro _ _ _ _ hwaits
        rw [hwaiting] at hwaits
        cases hwaits

variable {start : Downlink}

end Steps

theorem accounted_of_run (hstart : Accounted messages start)
    (hrun : Run step (fun _ event => event ≠ .close) start events downlink) : Accounted messages downlink :=
  hrun.invariant (P := fun _ downlink => Accounted messages downlink) hstart
    fun _ _ _ _ h hallowed hstep => h.step hallowed hstep

theorem stays_of_too_long (hstart : Accounted messages start)
    (hfirst : start.messages = message :: rest) (hlong : downlinkBufferBytesCap < message.length)
    (hrun : Run step (fun _ event => event ≠ .close) start events downlink) :
    downlink.messages = message :: rest ∧ downlink.pushed = start.pushed := by
  have hinv := hrun.invariant (P := fun _ downlink => Accounted messages downlink ∧
    downlink.messages = message :: rest ∧ downlink.pushed = start.pushed) ⟨hstart, hfirst, rfl⟩ ?_
  · exact hinv.2
  rintro _ downlink event next ⟨h, hmessages, hpushed⟩ hallowed hstep
  refine ⟨h.step hallowed hstep, ?_⟩
  cases event with
  | close => exact absurd rfl hallowed
  | drain =>
    rw [h.drain, Option.some.injEq] at hstep
    subst hstep
    exact ⟨hmessages, hpushed⟩
  | turn =>
    obtain ⟨message', rest', hmessages', ⟨-, rfl⟩ | ⟨hroom, -⟩⟩ := h.turn_cases hstep
    · exact ⟨hmessages, hpushed⟩
    · grind [ne_nil_of_length_pos]

theorem completes_of_drained (hstart : Accounted messages start)
    (hfirst : start.messages = message :: rest) (hfits : message.length ≤ downlinkBufferBytesCap)
    (hrun : Run step (fun _ event => event ≠ .close) start events downlink) (hdrain : .drain ∈ events) :
    start.pushed ++ [message] <+: downlink.pushed ∨
      ∃ after, downlink.step .turn = some after ∧ after.pushed = start.pushed ++ [message] := by
  have hinv := hrun.invariant (P := fun events downlink => Accounted messages downlink ∧
    (start.pushed ++ [message] <+: downlink.pushed ∨
      (downlink.messages = message :: rest ∧ downlink.pushed = start.pushed ∧
        (.drain ∈ events → downlink.state.pending = [] ∧ (downlink.waiting = true → downlink.permit = true)))))
    ⟨hstart, .inr ⟨hfirst, rfl, nofun⟩⟩ ?_
  · obtain ⟨h, hpushed | ⟨hmessages, hpushed, hafter⟩⟩ := hinv
    · exact .inl hpushed
    right
    obtain ⟨hpending, hpermit⟩ := hafter hdrain
    have hawake : ¬ (downlink.waiting = true ∧ ¬ downlink.permit = true) := fun hasleep =>
      hasleep.2 (hpermit hasleep.1)
    have hbytes := h.bytes
    rw [hpending, flatten_nil, length_nil] at hbytes
    rcases h.pushDownlink message with ⟨hfull, -⟩ | ⟨state, hturn, -⟩
    · omega
    · simp only [step, hmessages, if_neg hawake, hturn, Option.some.injEq, exists_eq_left', hpushed]
  rintro events downlink event next ⟨h, hcases⟩ hallowed hstep
  refine ⟨h.step hallowed hstep, ?_⟩
  cases event with
  | close => exact absurd rfl hallowed
  | drain =>
    have hdrain := h.drain
    have hwoken := h.woken
    grind [Option.some.injEq]
  | turn =>
    obtain ⟨message', rest', hmessages', ⟨hfull, rfl⟩ | ⟨-, -, -, -, -, -, hnext, -⟩⟩ := h.turn_cases hstep
    · have hbytes := h.bytes
      grind [flatten_nil, length_nil]
    · grind [prefix_append]

/-- In every run of an open session the drained chunks are the pushed messages in their order, the queued
ones last, and the push of the next message completes once the queue was drained exactly if the message
is not longer than the whole queue. -/
theorem push_completes_iff (hrun : Run step (fun _ event => event ≠ .close) { messages } events downlink) :
    downlink.pushed ++ downlink.messages = messages ∧
    downlink.drained ++ downlink.state.pending = downlink.pushed.filter (· ≠ []) ∧
    ∀ message rest, downlink.messages = message :: rest →
      ((∀ more next, Run step (fun _ event => event ≠ .close) downlink more next → .drain ∈ more →
          downlink.pushed ++ [message] <+: next.pushed ∨
            ∃ after, next.step .turn = some after ∧ after.pushed = downlink.pushed ++ [message]) ↔
        message.length ≤ downlinkBufferBytesCap) := by
  have h := accounted_of_run (accounted_start messages) hrun
  refine ⟨h.all, h.order, fun message rest hfirst => ⟨fun hcompletes => ?_, fun hfits more next hmore hdrain =>
    completes_of_drained h hfirst hfits hmore hdrain⟩⟩
  by_contra hlong
  have hstart : Run step (fun _ event => event ≠ .close) downlink [] downlink := .refl
  have hmore := hstart.snoc (show DownlinkEvent.drain ≠ .close by decide) h.drain
  have hlonger : ¬ downlink.pushed ++ [message] <+: downlink.pushed := by grind [length_append, length_singleton]
  rcases hcompletes _ _ hmore (mem_singleton_self _) with hpushed | ⟨after, hturn, hpushed⟩
  · exact hlonger hpushed
  · have hstays := stays_of_too_long h hfirst (Nat.lt_of_not_le hlong)
      (hmore.snoc (show DownlinkEvent.turn ≠ .close by decide) hturn)
    rw [hstays.2] at hpushed
    exact hlonger (hpushed ▸ prefix_rfl)

theorem push_completes_iff_two : ∃ downlink,
    Run step (fun _ event => event ≠ .close) { messages := [[1], [2]] } [.turn, .drain] downlink ∧
      downlink.pushed ++ downlink.messages = [[1], [2]] ∧ downlink.drained ++ downlink.state.pending = [[1]] ∧
      ∀ more next, Run step (fun _ event => event ≠ .close) downlink more next → .drain ∈ more →
        downlink.pushed ++ [[2]] <+: next.pushed ∨
          ∃ after, next.step .turn = some after ∧ after.pushed = downlink.pushed ++ [[2]] := by
  refine exists_run rfl fun hrun => ?_
  obtain ⟨hall, horder, hnext⟩ := push_completes_iff hrun
  exact ⟨hall, horder, (hnext [2] [] rfl).2 (by decide)⟩

theorem replayFrom_push_new {capacity : Nat} {chunk : List UInt8} (hne : chunk ≠ []) (hlt : chunk.length < capacity) :
    ((new capacity).push chunk).replayFrom 0 = .available chunk := by
  have h := (mirrors_new capacity).push chunk
  have holdest : ((new capacity).push chunk).oldestOffset = 0 := by
    have hzero : capacity ≠ 0 := by omega
    have hfits : ¬ capacity ≤ chunk.length := by omega
    simp [push, new, hne, hzero, hfits, Transport.ClientUpstreamRingBuffer.evict, oldestOffset, Tail.oldest]
  simp [h.replayFrom_eq, holdest]

theorem responseLead_replay {capacity : Nat} {chunk : List UInt8} (hne : chunk ≠ []) (hlt : chunk.length < capacity) :
    responseLead id .xhttpH3 0 (resumeControls (some 0) (some 0) (some ((new capacity).push chunk))) =
      (none, [[0x00, 0x00] ++ (buildV1Payload 0 ++ (buildV1Header 0x00 chunk.length ++ chunk))]) := by
  simp [responseLead, resumeControls, downlinkReplay, replayFrom_push_new hne hlt, cappedDownlinkMessages,
    h2PlaintextCap, frameDownlinkMessage, hne]

/-- With a ring of 512 KiB and a replay of 256 KiB its push never completes. -/
theorem response_lead_never_pushed : ∃ (ring : DownlinkRing) (message : List UInt8), ring.capacityBytes = 524288 ∧
    responseLead id .xhttpH3 0 (resumeControls (some 0) (some 0) (some ring)) = (none, [message]) ∧
    ∀ events downlink, Run step (fun _ event => event ≠ .close) { messages := [message] } events downlink →
      downlink.messages = [message] ∧ downlink.pushed = [] := by
  obtain ⟨chunk, hlength⟩ : ∃ chunk : List UInt8, chunk.length = 262144 := ⟨_, length_replicate (a := 0)⟩
  have hne : chunk ≠ [] := ne_nil_of_length_pos (by omega)
  refine ⟨(new 524288).push chunk, [0x00, 0x00] ++ (buildV1Payload 0 ++ (buildV1Header 0x00 chunk.length ++ chunk)),
    push_capacity chunk, responseLead_replay hne (by omega), ?_⟩
  intro events downlink hrun
  refine stays_of_too_long (accounted_start _) rfl ?_ hrun
  simp [downlinkBufferBytesCap, buildV1Payload, buildV1Header, hlength]

end Downlink

end OutlineProxy.Server
