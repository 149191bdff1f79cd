import OutlineProxy.Tcp.Engine
import OutlineProxy.Transport.UplinkReplay

/-! What a flow keeps so that its parked upstream can be attached to a new carrier, and the tasks that
share the carrier: the pump that writes to it, the reader that replaces it, and the server. -/

namespace OutlineProxy.Tcp

open Transport

def tunTcpMigrationMaxAttempts : Nat := 2
def tunTcpMigrationDeadline : Duration := secs 20

abbrev SessionId := Nat

inductive MigrationPhase where
  | idle
  | inFlight
  | abandoned
deriving DecidableEq

inductive MigrationBlocked where
  | disabled
  | abandoned
  | noSessionId
  | noReplayRing
  | budgetSpent
  | deadlinePassed

structure FlowResume where
  sessionId : Option SessionId
  replay : Option ClientUpstreamRingBuffer
  clientAckedOffset : Nat := 0
  carrierEpoch : Nat := 0
  phase : MigrationPhase := .idle
  attempts : Nat := 0
  firstAttemptAt : Option Instant := none

namespace FlowResume

def armedWithCapacity (sessionId : Option SessionId) (capacityBytes : Nat) : FlowResume where
  sessionId := sessionId
  replay := some (.new capacityBytes)

def replayFrom (resume : FlowResume) (upAcked : Nat) : Except ReplayError Bytes :=
  match resume.replay with
  | some ring => ring.replayFrom upAcked
  | none => .error (.offsetEvicted upAcked usizeMax)

variable (resume : FlowResume)

def migrationInFlight : Bool :=
  resume.phase = .inFlight

def migrationBlock (enabled : Bool) (now : Instant) : Option MigrationBlocked :=
  if !enabled then some .disabled
  else if resume.phase = .abandoned then some .abandoned
  else if resume.sessionId.isNone then some .noSessionId
  else if resume.replay.isNone then some .noReplayRing
  else if tunTcpMigrationMaxAttempts ≤ resume.attempts then some .budgetSpent
  else if resume.firstAttemptAt.any fun started => tunTcpMigrationDeadline ≤ now - started then
    some .deadlinePassed
  else none

def canAttemptMigration (enabled : Bool) (now : Instant) : Bool :=
  (resume.migrationBlock enabled now).isNone

def beginMigration (now : Instant) : FlowResume :=
  { resume with
    phase := .inFlight
    attempts := min (resume.attempts + 1) 255
    firstAttemptAt := some (resume.firstAttemptAt.getD now) }

def commitMigration (sessionId : Option SessionId) : FlowResume :=
  { resume with
    sessionId := sessionId
    carrierEpoch := resume.carrierEpoch + 1
    phase := .idle
    attempts := 0
    firstAttemptAt := none }

def abandonMigration : FlowResume :=
  { resume with phase := .abandoned }

def recordUplinkChunk (chunk : Bytes) : FlowResume × Option PushError :=
  match resume.replay with
  | none => (resume, none)
  | some ring =>
    match ring.push chunk with
    | .ok ring => ({ resume with replay := some ring }, none)
    -- a ring with a hole in it is worse than none
    | .error error => ({ resume with replay := none }, some error)

def recordUplinkBatch (resume : FlowResume) : List Bytes → FlowResume
  | [] => resume
  | chunk :: rest =>
    match resume.recordUplinkChunk chunk with
    | (resume, none) => resume.recordUplinkBatch rest
    | (resume, some _) => resume

end FlowResume

abbrev PipeId := Nat

/-- One connection to the server: the payload on its way, whether a send on it has failed, and the
offset the server reported on it. -/
structure Pipe where
  queue : Bytes := []
  broken : Bool := false
  report : Option Nat := none

structure UpstreamCarrier where
  writer : PipeId
  epoch : Nat

/-- The server's end of the flow: the connection it takes payload from, and what it has forwarded. -/
structure ServerEnd where
  attached : PipeId
  forwarded : Bytes

inductive PumpPhase where
  | draining
  /-- A batch is in the replay ring and waits for the carrier lock. -/
  | holding (batch : List Bytes) (epoch : Nat)
  /-- Under the carrier lock, with `left` still to be put on the wire. -/
  | sending (left : Bytes) (epoch : Nat)
  /-- In `await_carrier_verdict`, after a failed send or because a migration is in flight. -/
  | awaiting (epoch : Nat) (failed : Bool)
  /-- The last batch was empty, the flow's status not read since. -/
  | drained
  /-- On the way into `close_upstream_writer`, without the flow's lock. -/
  | closing
  | returned
deriving DecidableEq

inductive ReaderPhase where
  | reading
  | planned
  | dialled (pipe : PipeId) (issued : Option SessionId)
  | confirmed (pipe : PipeId) (issued : Option SessionId) (upAcked : Nat)
  /-- Under the carrier lock, the new carrier installed, with `left` of the replay to send. -/
  | replaying (left : Bytes)
  /-- The replay is out, the downlink gap is not delivered yet. -/
  | delivering
  | failing
  | stopped
deriving DecidableEq

structure Migration where
  flow : TcpFlowState
  resume : FlowResume
  carrier : UpstreamCarrier
  pipes : PipeId → Pipe
  /-- Connections are numbered in the order they are dialled. -/
  dialled : Nat
  /-- Redials the server has not answered. -/
  redials : List PipeId
  server : ServerEnd
  pump : PumpPhase
  reader : ReaderPhase
  /-- Everything that was ever queued for the pump, and what the pump has taken of it. -/
  uplink : Bytes
  popped : Bytes

inductive MigrationStep where
  /-- Another task changes the flow under its lock. -/
  | change (state : TcpFlowState) (more : List Bytes)
  | pop (tcp : TunTcpConfig)
  | acquire
  | transmit (n : Nat)
  | sent
  | sendFailed
  | verdict (enabled : Bool) (now : Instant) (graceOver : Bool)
  | rest
  | closeWriter
  | plan (enabled : Bool) (now : Instant)
  | retire
  | dial (issued : Option SessionId)
  | confirm
  | attach
  | replay (n : Nat)
  | replayed
  | replayFailed
  | delivered
  /-- A dial, a confirmation or the delivery of the downlink gap fails. -/
  | giveUp
  | abandon
  /-- The server takes the parked upstream out of its registry for a redial. -/
  | hit (pipe : PipeId)
  | forward (n : Nat)
  /-- A connection dies. -/
  | sever (pipe : PipeId)

namespace Migration

def initial (flow : TcpFlowState) (sessionId : Option SessionId) (capacityBytes : Nat) : Migration where
  flow := flow
  resume := .armedWithCapacity sessionId capacityBytes
  carrier := ⟨0, 0⟩
  pipes _ := {}
  dialled := 1
  redials := []
  server := ⟨0, []⟩
  pump := .draining
  reader := .reading
  uplink := flow.pendingClientData.flatten
  popped := []

def closed (sys : Migration) : Bool := sys.flow.status = .closed

variable (sys : Migration)

def carrierFree : Bool :=
  match sys.pump, sys.reader with
  | .sending .., _ | _, .replaying _ => false
  | _, _ => true

def onPipe (pipe : PipeId) (f : Pipe → Pipe) : Migration :=
  { sys with pipes := Function.update sys.pipes pipe (f (sys.pipes pipe)) }

def breakWriter : Migration :=
  sys.onPipe sys.carrier.writer fun pipe => { pipe with broken := true }

def put (bytes : Bytes) : Migration :=
  sys.onPipe sys.carrier.writer fun pipe => { pipe with queue := pipe.queue ++ bytes }

def pop (tcp : TunTcpConfig) : Option Migration :=
  if sys.pump ≠ .draining then none
  else if sys.closed then some { sys with pump := .returned }
  else if sys.resume.migrationInFlight then
    some { sys with pump := .awaiting sys.resume.carrierEpoch false }
  else
    let batch := (popBatch 0 sys.flow.pendingClientData).1
    some { sys with
      flow := pumpDrain sys.flow tcp
      resume := sys.resume.recordUplinkBatch batch
      pump := if batch = [] then .drained else .holding batch sys.resume.carrierEpoch
      popped := sys.popped ++ batch.flatten }

def acquire : Option Migration :=
  match sys.pump with
  | .holding batch epoch =>
    if !sys.carrierFree then none
    -- the replay of a migration has carried the batch
    else if sys.carrier.epoch ≠ epoch then some { sys with pump := .draining }
    else some { sys with pump := .sending batch.flatten epoch }
  | _ => none

def transmit (n : Nat) : Option Migration :=
  match sys.pump with
  | .sending left epoch =>
    if (sys.pipes sys.carrier.writer).broken then none
    else some { sys.put (left.take n) with pump := .sending (left.drop n) epoch }
  | _ => none

def sent : Option Migration :=
  match sys.pump with
  | .sending [] _ => some { sys with pump := .draining }
  | _ => none

def sendFailed : Option Migration :=
  match sys.pump with
  | .sending _ epoch => some { sys.breakWriter with pump := .awaiting epoch true }
  | _ => none

/-- One turn of `await_carrier_verdict`; without a verdict the pump waits on. -/
def verdict (enabled : Bool) (now : Instant) (graceOver : Bool) : Option Migration :=
  match sys.pump with
  | .awaiting epoch failed =>
    if sys.closed then some { sys with pump := .returned }
    else if sys.resume.carrierEpoch ≠ epoch then some { sys with pump := .draining }
    else if !sys.resume.migrationInFlight &&
        (!sys.resume.canAttemptMigration enabled now || graceOver) then
      if failed then some { sys with flow := { sys.flow with status := .closed }, pump := .returned }
      else some { sys with pump := .draining }
    else some sys
  | _ => none

def rest : Option Migration :=
  if sys.pump ≠ .drained then none
  else if !clientFinSeen sys.flow.status then some { sys with pump := .draining }
  else if sys.resume.migrationInFlight then
    some { sys with pump := .awaiting sys.resume.carrierEpoch false }
  else some { sys with pump := .closing }

def closeWriter : Option Migration :=
  if sys.pump = .closing ∧ sys.carrierFree then some { sys.breakWriter with pump := .returned } else none

def plan (enabled : Bool) (now : Instant) : Option Migration :=
  if sys.reader ≠ .reading then none
  else if sys.closed ∨ (sys.resume.migrationBlock enabled now).isSome then some { sys with reader := .stopped }
  else some { sys with resume := sys.resume.beginMigration now, reader := .planned }

def retire : Option Migration :=
  if sys.reader = .planned ∧ sys.carrierFree then some sys.breakWriter else none

def dial (issued : Option SessionId) : Option Migration :=
  if sys.reader = .planned then
    some { sys with
      dialled := sys.dialled + 1
      redials := sys.dialled :: sys.redials
      reader := .dialled sys.dialled issued }
  else none

def confirm : Option Migration :=
  match sys.reader with
  | .dialled pipe issued =>
    (sys.pipes pipe).report.map fun upAcked => { sys with reader := .confirmed pipe issued upAcked }
  | _ => none

def attach : Option Migration :=
  match sys.reader with
  | .confirmed pipe issued upAcked =>
    if !sys.carrierFree then none
    else if sys.closed then some { sys with reader := .failing }
    else
      match sys.resume.replayFrom upAcked with
      | .error _ => some { sys with reader := .failing }
      | .ok replay =>
        let resume := sys.resume.commitMigration issued
        some { sys with
          resume := resume
          carrier := ⟨pipe, resume.carrierEpoch⟩
          reader := .replaying replay }
  | _ => none

def replay (n : Nat) : Option Migration :=
  match sys.reader with
  | .replaying left =>
    if (sys.pipes sys.carrier.writer).broken then none
    else some { sys.put (left.take n) with reader := .replaying (left.drop n) }
  | _ => none

def replayed : Option Migration :=
  match sys.reader with
  | .replaying [] => some { sys with reader := .delivering }
  | _ => none

def replayFailed : Option Migration :=
  match sys.reader with
  | .replaying _ => some { sys.breakWriter with reader := .failing }
  | _ => none

def delivered : Option Migration :=
  if sys.reader = .delivering then some { sys with reader := .reading } else none

def giveUp : Option Migration :=
  match sys.reader with
  | .planned | .dialled .. | .confirmed .. | .delivering => some { sys with reader := .failing }
  | _ => none

def abandon : Option Migration :=
  if sys.reader = .failing then
    some { sys with resume := sys.resume.abandonMigration, reader := .stopped }
  else none

def report (sys : Migration) (pipe : PipeId) : Migration :=
  sys.onPipe pipe fun pipe => { pipe with report := some sys.server.forwarded.length }

def hit (pipe : PipeId) : Option Migration :=
  if pipe ∈ sys.redials then
    some { sys.report pipe with
      redials := sys.redials.filter (· ≠ pipe)
      server := ⟨pipe, sys.server.forwarded⟩ }
  else none

def consume (n : Nat) : Migration :=
  sys.onPipe sys.server.attached fun pipe => { pipe with queue := pipe.queue.drop n }

def forward (n : Nat) : Migration :=
  { sys.consume n with
    server := ⟨sys.server.attached, sys.server.forwarded ++ (sys.pipes sys.server.attached).queue.take n⟩ }

def change (state : TcpFlowState) (more : List Bytes) : Option Migration :=
  if state.pendingClientData = sys.flow.pendingClientData ++ more ∧
      (sys.flow.status = .closed → state.status = .closed) then
    some { sys with flow := state, uplink := sys.uplink ++ more.flatten }
  else none

def step : MigrationStep → Option Migration
  | .change state more => sys.change state more
  | .pop tcp => sys.pop tcp
  | .acquire => sys.acquire
  | .transmit n => sys.transmit n
  | .sent => sys.sent
  | .sendFailed => sys.sendFailed
  | .verdict enabled now graceOver => sys.verdict enabled now graceOver
  | .rest => sys.rest
  | .closeWriter => sys.closeWriter
  | .plan enabled now => sys.plan enabled now
  | .retire => sys.retire
  | .dial issued => sys.dial issued
  | .confirm => sys.confirm
  | .attach => sys.attach
  | .replay n => sys.replay n
  | .replayed => sys.replayed
  | .replayFailed => sys.replayFailed
  | .delivered => sys.delivered
  | .giveUp => sys.giveUp
  | .abandon => sys.abandon
  | .hit pipe => sys.hit pipe
  | .forward n => some (sys.forward n)
  | .sever pipe =>
    if pipe < sys.dialled then some (sys.onPipe pipe fun pipe => { pipe with broken := true }) else none

def run (sys : Migration) : List MigrationStep → Option Migration
  | [] => some sys
  | label :: rest => (sys.step label).bind fun next => next.run rest

end Migration

end OutlineProxy.Tcp
