import OutlineProxy.Lib.Runs
import OutlineProxy.Socks.Carrier

/-! The phase of a SOCKS session before the first answer: client data goes to the current carrier and
into a record, and a carrier that fails is replaced by one that is sent the record. -/

namespace OutlineProxy.Socks

def maxChunk0FailoverBuf : Nat := 32 * 1024

def chunk0RstMaxRetries : Nat := 2

structure ReplayBufState where
  buf : Bytes := []
  /-- End offset of each chunk within `buf`. -/
  splits : List Nat := []
  total : Nat := 0
  overflow : Bool := false

namespace ReplayBufState

def push (replay : ReplayBufState) (chunk : Bytes) : Bool × ReplayBufState :=
  if replay.overflow then (false, replay)
  else if replay.total + chunk.length ≤ maxChunk0FailoverBuf then
    (false, { replay with
      buf := replay.buf ++ chunk
      total := replay.total + chunk.length
      splits := replay.splits ++ [replay.total + chunk.length] })
  else (true, { replay with overflow := true })

def slices (bytes : Bytes) (start : Nat) : List Nat → List Bytes
  | [] => []
  | stop :: rest => (bytes.take stop).drop start :: slices bytes stop rest

def replayTo (replay : ReplayBufState) (fates : List Fate) : Bytes × Bool :=
  sendChunks [] (slices replay.buf 0 replay.splits) fates

structure WellCut (replay : ReplayBufState) : Prop where
  total : replay.total = replay.buf.length
  bound : replay.total ≤ maxChunk0FailoverBuf
  splits : ∀ stop ∈ replay.splits, stop ≤ replay.buf.length
  last : replay.splits.getLastD 0 = replay.buf.length
  flatten : (slices replay.buf 0 replay.splits).flatten = replay.buf

theorem wellCut_new : WellCut {} :=
  ⟨rfl, Nat.zero_le _, by simp, rfl, rfl⟩

theorem slices_append {bytes : Bytes} {stops : List Nat} (h : ∀ stop ∈ stops, stop ≤ bytes.length)
    (more : Bytes) (start stop : Nat) :
    slices (bytes ++ more) start (stops ++ [stop]) =
      slices bytes start stops ++ [((bytes ++ more).take stop).drop (stops.getLastD start)] := by
  induction stops generalizing start with
  | nil => rfl
  | cons first rest ih => grind [slices]

variable {replay : ReplayBufState}

theorem WellCut.push (h : replay.WellCut) (chunk : Bytes) : (replay.push chunk).2.WellCut := by
  rw [ReplayBufState.push]
  split
  · exact h
  · split
    · rename_i hfits
      refine ⟨?_, hfits, ?_, ?_, ?_⟩
      · simp [h.total]
      · have hsplits := h.splits
        have htotal := h.total
        grind [List.mem_singleton, List.length_append, Nat.le_add_right_of_le, Nat.le_of_eq]
      · simp [h.total, List.getLastD_eq_getLast?]
      · rw [slices_append h.splits, h.last, List.flatten_append, h.flatten, h.total, ← List.length_append,
          List.take_length, List.drop_left]
        simp
    · exact ⟨h.total, h.bound, h.splits, h.last, h.flatten⟩

theorem WellCut.replayTo_isPrefix (h : replay.WellCut) (fates : List Fate) :
    (replay.replayTo fates).1 <+: replay.buf := by
  have hprefix := sendChunks_isPrefix [] (slices replay.buf 0 replay.splits) fates
  rwa [List.nil_append, h.flatten] at hprefix

theorem WellCut.replayTo_eq_of_ok (h : replay.WellCut) {fates : List Fate}
    (hok : (replay.replayTo fates).2 = true) : (replay.replayTo fates).1 = replay.buf := by
  have hsent := sendChunks_eq_of_ok hok
  rwa [List.nil_append, h.flatten] at hsent

end ReplayBufState

inductive TcpUplinkSource where
  | standby
  | freshDial
deriving DecidableEq

/-- `wsClosed` for the errors that `is_ws_closed` accepts. -/
inductive ErrorClass where
  | wsClosed
  | other
deriving DecidableEq

structure ActiveTcpUplink where
  index : Nat
  source : TcpUplinkSource
  sessionId : Option Nat

def shouldRetryRstOnCurrentUplink (source : TcpUplinkSource) (retriesUsed : Nat) (error : ErrorClass) : Bool :=
  source = .freshDial && retriesUsed < chunk0RstMaxRetries && error = .wsClosed

structure Dialled where
  source : TcpUplinkSource := .freshDial
  sessionId : Option Nat := none
  /-- The server has the upstream of the presented id parked. -/
  hit : Bool := false
  sends : List Fate := []
  closes : Bool := true
  failure : ErrorClass := .other

inductive Failover where
  | noCandidate
  | connectFailed
  /-- Another wire of the same uplink. -/
  | wire (dialled : Dialled)
  | uplink (index : Nat) (dialled : Dialled)

/-- The recovery branches, in the order `try_uplinks` goes through them. -/
inductive Stage where
  | standby
  | reset
  | failover
deriving DecidableEq

inductive Chunk0Phase where
  | awaiting
  | failed (stage : Stage) (error : ErrorClass)
  | responded
  | returned
deriving DecidableEq

structure Chunk0Params where
  strictTransport : Bool
  uplinks : Nat

structure Chunk0 where
  active : ActiveTcpUplink
  replay : ReplayBufState := {}
  clientHalfClosed : Bool := false
  rstRetriesOnCurrentUplink : Nat := 0
  triedIndexes : List Nat
  /-- As computed at the top of the loop, before the attempt. -/
  canFailover : Bool
  phase : Chunk0Phase := .awaiting
  /-- What has been read from the client. -/
  read : Bytes := []
  eof : Bool := false
  /-- What was sent on the current carrier. -/
  sent : Bytes := []
  closed : Bool := false
  /-- What of it the server has not forwarded. -/
  queue : Bytes := []
  /-- What the current connection to the target has received. -/
  target : Bytes := []

inductive Chunk0Event where
  | clientChunk (chunk : Bytes) (fate : Fate) (failure : ErrorClass)
  | clientEof (closes : Bool) (failure : ErrorClass)
  /-- The read from the client or from the carrier fails, or the deadline passes. -/
  | attemptFails (error : ErrorClass)
  | response
  /-- The upstream has closed cleanly, before or while the attempt failed. -/
  | closedCleanly
  | redial (dial : Except ErrorClass Dialled)
  /-- A recovery branch does not apply. -/
  | skip
  | failover (step : Failover)
  | forward (n : Nat)

namespace Chunk0

variable (params : Chunk0Params) (s : Chunk0)

def enterLoop : Chunk0 :=
  { s with
    phase := .awaiting
    canFailover := params.strictTransport && !s.replay.overflow && s.triedIndexes.length < params.uplinks }

def initial (active : ActiveTcpUplink) : Chunk0 :=
  enterLoop params { active := active, triedIndexes := [active.index], canFailover := false }

def clientChunk (chunk : Bytes) (fate : Fate) (failure : ErrorClass) : Option Chunk0 :=
  if s.phase ≠ .awaiting ∨ s.clientHalfClosed = true ∨ chunk = [] ∨ shadowsocksMaxPayload < chunk.length then none
  else
    let (queue, ok) := sendChunk s.queue chunk fate
    let s := { s with read := s.read ++ chunk, sent := (sendChunk s.sent chunk fate).1, queue := queue }
    -- the chunk enters the record only once it was sent
    if ok then some { s with replay := (s.replay.push chunk).2 }
    else some { s with phase := .failed .standby failure }

def clientEof (closes : Bool) (failure : ErrorClass) : Option Chunk0 :=
  if s.phase ≠ .awaiting ∨ s.clientHalfClosed = true then none
  else if closes then some { s with eof := true, closed := true, clientHalfClosed := true }
  else some { s with eof := true, phase := .failed .standby failure }

def attemptFails (error : ErrorClass) : Option Chunk0 :=
  if s.phase = .awaiting then some { s with phase := .failed .standby error } else none

def response : Option Chunk0 :=
  if s.phase = .awaiting then some { s with phase := .responded } else none

def closedCleanly : Option Chunk0 :=
  match s.phase with
  | .awaiting | .failed .standby _ => some { s with phase := .returned }
  | _ => none

variable (dialled : Dialled)

/-- `replace_transport`, `replace_wire` and `switch_to`: a new carrier, on the parked upstream if the
server has it under the presented id. -/
def attach (presented : Bool) (index : Nat) : Chunk0 :=
  { s with
    active := ⟨index, dialled.source, dialled.sessionId⟩
    sent := []
    closed := false
    queue := []
    target := if presented && s.active.sessionId.isSome && dialled.hit then s.target else [] }

def replayOnto : Chunk0 × Bool :=
  let (wire, ok) := s.replay.replayTo dialled.sends
  let s := { s with sent := wire, queue := wire }
  if !ok then (s, false)
  else if !s.clientHalfClosed then (s, true)
  else if dialled.closes then ({ s with closed := true }, true)
  else (s, false)

/-- `redial_current_uplink_and_replay`, with the error it returns. -/
def redialCurrentUplinkAndReplay : Except ErrorClass Dialled → Chunk0 × Option ErrorClass
  | .error error => (s, some error)
  | .ok dialled =>
    match (s.attach dialled true s.active.index).replayOnto dialled with
    | (s, true) => (s, none)
    | (s, false) => (s, some dialled.failure)

def redial (dial : Except ErrorClass Dialled) : Option Chunk0 :=
  match s.phase with
  | .failed .standby _ =>
    if s.active.source = .standby then
      match s.redialCurrentUplinkAndReplay dial with
      | (s, none) => some (s.enterLoop params)
      | (s, some error) => some { s with phase := .failed .reset error }
    else none
  | .failed .reset error =>
    if shouldRetryRstOnCurrentUplink s.active.source s.rstRetriesOnCurrentUplink error then
      match s.redialCurrentUplinkAndReplay dial with
      | (next, none) =>
        some ({ next with rstRetriesOnCurrentUplink := s.rstRetriesOnCurrentUplink + 1 }.enterLoop params)
      | (next, some error) => some { next with phase := .failed .failover error }
    else none
  | _ => none

def skip : Option Chunk0 :=
  match s.phase with
  | .failed .standby error =>
    if s.active.source = .standby then none else some { s with phase := .failed .reset error }
  | .failed .reset error =>
    if shouldRetryRstOnCurrentUplink s.active.source s.rstRetriesOnCurrentUplink error then none
    else some { s with phase := .failed .failover error }
  | _ => none

/-- After `failover_to_next_candidate` has switched. -/
def replayAfterFailover : Chunk0 :=
  match { s with rstRetriesOnCurrentUplink := 0 }.replayOnto dialled with
  | (s, true) => s.enterLoop params
  | (s, false) => { s with phase := .returned }

def failover (params : Chunk0Params) (s : Chunk0) (step : Failover) : Option Chunk0 :=
  match s.phase with
  | .failed .failover _ =>
    if !s.canFailover then some { s with phase := .returned }
    else
      match step with
      | .noCandidate | .connectFailed => some { s with phase := .returned }
      | .wire dialled =>
        some ((s.attach dialled false s.active.index).replayAfterFailover params dialled)
      | .uplink index dialled =>
        if index ∈ s.triedIndexes then none
        else
          some (({ s with triedIndexes := index :: s.triedIndexes }.attach dialled false index).replayAfterFailover
            params dialled)
  | _ => none

def forward (n : Nat) : Chunk0 :=
  { s with queue := s.queue.drop n, target := s.target ++ s.queue.take n }

def step (params : Chunk0Params) (s : Chunk0) : Chunk0Event → Option Chunk0
  | .clientChunk chunk fate failure => s.clientChunk chunk fate failure
  | .clientEof closes failure => s.clientEof closes failure
  | .attemptFails error => s.attemptFails error
  | .response => s.response
  | .closedCleanly => s.closedCleanly
  | .redial dial => s.redial params dial
  | .skip => s.skip
  | .failover step => s.failover params step
  | .forward n => some (s.forward n)

structure Replaced (s : Chunk0) (dialled : Dialled) (presented : Bool) (next : Chunk0) : Prop where
  read : next.read = s.read
  eof : next.eof = s.eof
  replay : next.replay = s.replay
  clientHalfClosed : next.clientHalfClosed = s.clientHalfClosed
  sent : next.sent = (s.replay.replayTo dialled.sends).1
  queue : next.queue = (s.replay.replayTo dialled.sends).1
  target : next.target = if presented && s.active.sessionId.isSome && dialled.hit then s.target else []

theorem replayOnto_fst : (s.replayOnto dialled).1 = { s with
      sent := (s.replay.replayTo dialled.sends).1
      queue := (s.replay.replayTo dialled.sends).1
      closed := (s.replayOnto dialled).1.closed } := by
  rw [replayOnto]
  rcases s.replay.replayTo dialled.sends with ⟨wire, ok⟩
  cases ok <;> cases s.clientHalfClosed <;> cases dialled.closes <;> simp

theorem replaced_attach_replayOnto (presented : Bool) (index : Nat) :
    s.Replaced dialled presented ((s.attach dialled presented index).replayOnto dialled).1 := by
  rw [replayOnto_fst]
  constructor <;> rfl

variable {s : Chunk0}

theorem closed_of_replayOnto {dialled : Dialled} (hopen : s.closed = false) (h : (s.replayOnto dialled).2 = true) :
    (s.replay.replayTo dialled.sends).2 = true ∧ (s.replayOnto dialled).1.closed = s.clientHalfClosed := by
  grind [replayOnto]

theorem Replaced.settle {next : Chunk0} {dialled : Dialled} {presented : Bool} (h : s.Replaced dialled presented next)
    (phase : Chunk0Phase) (canFailover : Bool) (retries : Nat) :
    s.Replaced dialled presented { next with
      phase := phase, canFailover := canFailover, rstRetriesOnCurrentUplink := retries } :=
  ⟨h.read, h.eof, h.replay, h.clientHalfClosed, h.sent, h.queue, h.target⟩

/-- The carrier took the whole record, and the half-close if the client has half-closed. -/
def TookReplay (s : Chunk0) (dialled : Dialled) (next : Chunk0) : Prop :=
  (s.replay.replayTo dialled.sends).2 = true ∧ next.closed = s.clientHalfClosed

variable {dial : Except ErrorClass Dialled}

theorem redialCurrentUplinkAndReplay_none {next : Chunk0} (h : s.redialCurrentUplinkAndReplay dial = (next, none)) :
    ∃ dialled, dial = .ok dialled ∧ s.Replaced dialled true next ∧ s.TookReplay dialled next := by
  cases dial with
  | error e => cases h
  | ok dialled =>
    have hreplaced := s.replaced_attach_replayOnto dialled true s.active.index
    rw [redialCurrentUplinkAndReplay] at h
    split at h
    · rename_i after hafter
      cases h
      have hclosed := closed_of_replayOnto rfl (congrArg Prod.snd hafter)
      rw [hafter] at hreplaced hclosed
      exact ⟨dialled, rfl, hreplaced, hclosed⟩
    · cases h

theorem redialCurrentUplinkAndReplay_some {next : Chunk0} {error : ErrorClass}
    (h : s.redialCurrentUplinkAndReplay dial = (next, some error)) :
    next = s ∨ ∃ dialled, dial = .ok dialled ∧ s.Replaced dialled true next := by
  cases dial with
  | error e =>
    cases h
    exact .inl rfl
  | ok dialled =>
    have hreplaced := s.replaced_attach_replayOnto dialled true s.active.index
    rw [redialCurrentUplinkAndReplay] at h
    split at h
    · cases h
    · grind

theorem replayAfterFailover_cases (s : Chunk0) (dialled : Dialled) (index : Nat) (tried : List Nat) {next : Chunk0}
    (hnext : next =
      ({ s with triedIndexes := tried }.attach dialled false index).replayAfterFailover params dialled) :
    s.Replaced dialled false next ∧ (next.phase = .awaiting → s.TookReplay dialled next) := by
  let base : Chunk0 := { s with triedIndexes := tried, rstRetriesOnCurrentUplink := 0 }
  have hbase : base.Replaced dialled false ((base.attach dialled false index).replayOnto dialled).1 :=
    base.replaced_attach_replayOnto dialled false index
  have hreplaced : s.Replaced dialled false ((base.attach dialled false index).replayOnto dialled).1 :=
    ⟨hbase.read, hbase.eof, hbase.replay, hbase.clientHalfClosed, hbase.sent, hbase.queue, hbase.target⟩
  change next = match (base.attach dialled false index).replayOnto dialled with
      | (s, true) => s.enterLoop params
      | (s, false) => { s with phase := .returned } at hnext
  split at hnext
  · rename_i after hafter
    have hclosed := closed_of_replayOnto rfl (congrArg Prod.snd hafter)
    rw [hafter] at hreplaced hclosed
    rw [hnext]
    exact ⟨hreplaced.settle _ _ _, fun _ => hclosed⟩
  · have hsettle := hreplaced.settle
    grind

variable {params : Chunk0Params}

theorem redial_cases {next : Chunk0} (h : s.redial params dial = some next) :
    (∃ phase, next = { s with phase := phase } ∧ phase ≠ .awaiting) ∨
      ∃ dialled, dial = .ok dialled ∧ s.Replaced dialled true next ∧
        (next.phase = .awaiting → s.TookReplay dialled next) := by
  rw [redial] at h
  split at h
  case h_3 => cases h
  -- either stage redials the current uplink; they differ in where they go on
  all_goals
    split at h
    · split at h
      · rename_i after hafter
        cases h
        obtain ⟨dialled, hdial, hreplaced, htook⟩ := redialCurrentUplinkAndReplay_none hafter
        exact .inr ⟨dialled, hdial, hreplaced.settle _ _ _, fun _ => htook⟩
      · rename_i after error hafter
        cases h
        obtain rfl | ⟨dialled, hdial, hreplaced⟩ := redialCurrentUplinkAndReplay_some hafter
        · exact .inl ⟨_, rfl, by simp⟩
        · exact .inr ⟨dialled, hdial, hreplaced.settle _ _ _, by simp⟩
    · cases h

theorem failover_cases {next : Chunk0} {step : Failover} (h : s.failover params step = some next) :
    (∃ phase, next = { s with phase := phase } ∧ phase ≠ .awaiting) ∨
      ∃ dialled, s.Replaced dialled false next ∧ (next.phase = .awaiting → s.TookReplay dialled next) := by
  rw [failover.eq_def] at h
  split at h
  · split at h
    · cases h
      exact .inl ⟨_, rfl, by simp⟩
    · split at h
      · cases h
        exact .inl ⟨_, rfl, by simp⟩
      · cases h
        exact .inl ⟨_, rfl, by simp⟩
      · cases h
        exact .inr ⟨_, s.replayAfterFailover_cases params _ _ s.triedIndexes rfl⟩
      · split at h
        · cases h
        · cases h
          exact .inr ⟨_, s.replayAfterFailover_cases params _ _ _ rfl⟩
  · cases h

theorem clientChunk_cases {next : Chunk0} {chunk : Bytes} {fate : Fate} {failure : ErrorClass}
    (h : s.clientChunk chunk fate failure = some next) :
    s.phase = .awaiting ∧ 0 < chunk.length ∧ ((fate = none ∧ next = { s with
          read := s.read ++ chunk, sent := s.sent ++ chunk, queue := s.queue ++ chunk
          replay := (s.replay.push chunk).2 }) ∨ ∃ n, fate = some n ∧ next = { s with
          read := s.read ++ chunk, sent := s.sent ++ chunk.take n, queue := s.queue ++ chunk.take n
          phase := .failed .standby failure }) := by
  rw [clientChunk] at h
  split at h
  · cases h
  · rename_i hguard
    simp only [not_or, not_not] at hguard
    refine ⟨hguard.1, List.length_pos_iff.mpr hguard.2.2.1, ?_⟩
    cases fate with
    | none =>
      cases h
      exact .inl ⟨rfl, rfl⟩
    | some n =>
      cases h
      exact .inr ⟨n, rfl, rfl⟩

theorem clientEof_cases {next : Chunk0} {closes : Bool} {failure : ErrorClass}
    (h : s.clientEof closes failure = some next) :
    s.phase = .awaiting ∧ (next = { s with eof := true, closed := true, clientHalfClosed := true } ∨
        next = { s with eof := true, phase := .failed .standby failure }) := by
  grind [clientEof]

theorem phase_cases {next : Chunk0} {event : Chunk0Event} (h : s.step params event = some next)
    (hevent : event = .skip ∨ event = .response ∨ event = .closedCleanly ∨ ∃ error, event = .attemptFails error) :
    ∃ phase, next = { s with phase := phase } ∧ phase ≠ .awaiting := by
  grind [step, skip, response, closedCleanly, attemptFails]

end Chunk0

end OutlineProxy.Socks
