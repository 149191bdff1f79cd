import OutlineProxy.Socks.Chunk0

/-! What a carrier that replaces a failed one is sent before the next read, and what the target gets. -/

namespace OutlineProxy.Socks

open List Runs

def Chunk0Event.loses : Chunk0Event → Bool
  | .clientChunk _ (some _) _ => true
  | _ => false

def Chunk0Event.recovers : Chunk0Event → Bool
  | .redial _ | .failover _ => true
  | _ => false

namespace Chunk0

variable {params : Chunk0Params} {active : ActiveTcpUplink} {s next : Chunk0} {event : Chunk0Event}
  {events : List Chunk0Event}

theorem recovery_cases (h : s.step params event = some next) (hrecovers : event.recovers = true) :
    (∃ phase, next = { s with phase := phase } ∧ phase ≠ .awaiting) ∨
      ∃ dialled presented, s.Replaced dialled presented next ∧
        ((presented = true ∧ event = .redial (.ok dialled)) ∨ (presented = false ∧ ∃ step, event = .failover step)) ∧
        (next.phase = .awaiting → s.TookReplay dialled next) := by
  cases event with
  | redial dial =>
    refine (redial_cases h).imp_right ?_
    rintro ⟨dialled, rfl, hreplaced, htook⟩
    exact ⟨dialled, true, hreplaced, .inl ⟨rfl, rfl⟩, htook⟩
  | failover step => grind [step, failover_cases]
  | _ => cases hrecovers

theorem step_cases (h : s.step params event = some next) :
    (∃ chunk fate failure, event = .clientChunk chunk fate failure) ∨
      (∃ closes failure, event = .clientEof closes failure) ∨ event.recovers = true ∨ (∃ n, event = .forward n) ∨
      ∃ phase, next = { s with phase := phase } ∧ phase ≠ .awaiting := by
  cases event with
  | clientChunk chunk fate failure => exact .inl ⟨chunk, fate, failure, rfl⟩
  | clientEof closes failure => exact .inr (.inl ⟨closes, failure, rfl⟩)
  | redial dial => exact .inr (.inr (.inl rfl))
  | failover step => exact .inr (.inr (.inl rfl))
  | forward n => exact .inr (.inr (.inr (.inl ⟨n, rfl⟩)))
  | skip => exact .inr (.inr (.inr (.inr (phase_cases h (.inl rfl)))))
  | response => exact .inr (.inr (.inr (.inr (phase_cases h (.inr (.inl rfl))))))
  | closedCleanly => exact .inr (.inr (.inr (.inr (phase_cases h (.inr (.inr (.inl rfl)))))))
  | attemptFails error => exact .inr (.inr (.inr (.inr (phase_cases h (.inr (.inr (.inr ⟨error, rfl⟩)))))))

theorem step_read_replay (h : s.step params event = some next)
    (hevent : ∀ chunk fate failure, event ≠ .clientChunk chunk fate failure) :
    next.read = s.read ∧ next.replay = s.replay := by
  obtain ⟨chunk, fate, failure, rfl⟩ | ⟨closes, failure, rfl⟩ | hrecovers | ⟨n, rfl⟩ | ⟨phase, rfl, _⟩ := step_cases h
  · exact absurd rfl (hevent chunk fate failure)
  · obtain ⟨_, rfl | rfl⟩ := clientEof_cases h
    · exact ⟨rfl, rfl⟩
    · exact ⟨rfl, rfl⟩
  · obtain ⟨phase, rfl, _⟩ | ⟨dialled, presented, hreplaced, _⟩ := recovery_cases h hrecovers
    · exact ⟨rfl, rfl⟩
    · exact ⟨hreplaced.read, hreplaced.replay⟩
  · cases h
    exact ⟨rfl, rfl⟩
  · exact ⟨rfl, rfl⟩

structure Recorded (events : List Chunk0Event) (s : Chunk0) : Prop where
  wellCut : s.replay.WellCut
  short : s.replay.buf.length ≤ s.read.length
  overflow : s.replay.overflow = true → maxChunk0FailoverBuf < s.read.length
  exact : s.replay.buf = s.read ↔ (∀ event ∈ events, event.loses = false) ∧ s.read.length ≤ maxChunk0FailoverBuf

theorem recorded_initial (params : Chunk0Params) (active : ActiveTcpUplink) : Recorded [] (initial params active) :=
  ⟨ReplayBufState.wellCut_new, Nat.le_refl _, by simp [initial, enterLoop], by simp [initial, enterLoop]⟩

theorem Recorded.congr (h : Recorded events s) (hread : next.read = s.read) (hreplay : next.replay = s.replay)
    (hloses : event.loses = false) : Recorded (events ++ [event]) next := by
  refine ⟨?_, ?_, ?_, ?_⟩
  · rw [hreplay]
    exact h.wellCut
  · rw [hreplay, hread]
    exact h.short
  · rw [hreplay, hread]
    exact h.overflow
  · rw [hreplay, hread, h.exact]
    simp [or_imp, forall_and, hloses]

variable {chunk : Bytes}

theorem Recorded.skipped (h : Recorded events s) (hchunk : 0 < chunk.length)
    (hread : next.read = s.read ++ chunk) (hbuf : next.replay.buf = s.replay.buf) (hcut : next.replay.WellCut)
    (hover : next.replay.overflow = true → maxChunk0FailoverBuf < next.read.length)
    (hloses : event.loses = false → maxChunk0FailoverBuf < next.read.length) :
    Recorded (events ++ [event]) next := by
  have hshort := h.short
  have hlength : next.replay.buf.length < next.read.length := by
    rw [hbuf, hread, length_append]
    omega
  refine ⟨hcut, Nat.le_of_lt hlength, hover, ?_⟩
  constructor
  · intro hsame
    rw [hsame] at hlength
    exact absurd hlength (Nat.lt_irrefl _)
  · rintro ⟨hnone, hbound⟩
    have hlong := hloses (hnone event (by simp))
    omega

theorem Recorded.push (h : Recorded events s) (hchunk : 0 < chunk.length)
    (hread : next.read = s.read ++ chunk) (hreplay : next.replay = (s.replay.push chunk).2)
    (hloses : event.loses = false) : Recorded (events ++ [event]) next := by
  have hcut := h.wellCut.push chunk
  have htotal := h.wellCut.total
  have hshort := h.short
  rw [← hreplay] at hcut
  rw [ReplayBufState.push] at hreplay
  split at hreplay
  · rename_i hover
    have hlong : maxChunk0FailoverBuf < next.read.length := by
      have hold := h.overflow hover
      rw [hread, length_append]
      omega
    exact h.skipped hchunk hread (by rw [hreplay]) hcut (fun _ => hlong) (fun _ => hlong)
  · rename_i hover
    split at hreplay
    · rename_i hfits
      have hbuf : next.replay.buf = s.replay.buf ++ chunk := by rw [hreplay]
      refine ⟨hcut, ?_, ?_, ?_⟩
      · rw [hbuf, hread, length_append, length_append]
        omega
      · intro hnow
        rw [hreplay] at hnow
        exact absurd hnow hover
      · have hexact := h.exact
        grind [append_cancel_right_eq, length_append, length, mem_append_left]
    · rename_i hfits
      have hlong : maxChunk0FailoverBuf < next.read.length := by
        rw [hread, length_append]
        omega
      exact h.skipped hchunk hread (by rw [hreplay]) hcut (fun _ => hlong) (fun _ => hlong)

theorem Recorded.step (h : Recorded events s) (hstep : s.step params event = some next) :
    Recorded (events ++ [event]) next := by
  by_cases hevent : ∃ chunk fate failure, event = .clientChunk chunk fate failure
  · obtain ⟨chunk, fate, failure, rfl⟩ := hevent
    obtain ⟨_, hchunk, ⟨rfl, rfl⟩ | ⟨n, rfl, rfl⟩⟩ := clientChunk_cases hstep
    · exact h.push hchunk rfl rfl rfl
    · refine h.skipped hchunk rfl rfl h.wellCut ?_ (by simp [Chunk0Event.loses])
      intro hover
      have hold := h.overflow hover
      simp only [length_append]
      omega
  · have hother : ∀ chunk fate failure, event ≠ .clientChunk chunk fate failure :=
      fun chunk fate failure he => hevent ⟨chunk, fate, failure, he⟩
    obtain ⟨hread, hreplay⟩ := step_read_replay hstep hother
    refine h.congr hread hreplay ?_
    cases event with
    | clientChunk chunk fate failure => exact absurd rfl (hother chunk fate failure)
    | _ => rfl

theorem recorded_of_run {allowed : Chunk0 → Chunk0Event → Prop}
    (hrun : Run (step params) allowed (initial params active) events s) : Recorded events s :=
  hrun.invariant (P := Recorded) (recorded_initial params active) fun _ _ _ _ h _ hstep => h.step hstep

/-- A recovery goes on without a hole exactly when no send of a client chunk has failed, the record has not
overflowed, and the half-close that was read was sent. -/
theorem chunk0_failover_exact_iff (hrun : Run (step params) (fun _ _ => True) (initial params active) events s)
    (hrecovers : event.recovers = true) (hstep : s.step params event = some next)
    (hcontinues : next.phase = .awaiting) : (next.sent = next.read ∧ next.closed = next.eof) ↔
      ((∀ event ∈ events, event.loses = false) ∧ s.read.length ≤ maxChunk0FailoverBuf) ∧
        s.clientHalfClosed = s.eof := by
  have hrecorded := recorded_of_run hrun
  obtain ⟨phase, rfl, hphase⟩ | ⟨dialled, presented, hreplaced, _, htook⟩ := recovery_cases hstep hrecovers
  · exact absurd hcontinues hphase
  · obtain ⟨hok, hclosed⟩ := htook hcontinues
    rw [hreplaced.sent, hreplaced.read, hreplaced.eof, hclosed, hrecorded.wellCut.replayTo_eq_of_ok hok,
      hrecorded.exact]

def resetAfterChunk : List Chunk0Event :=
  [.clientChunk [1] none .other, .attemptFails .wsClosed, .skip]

def atReset : Chunk0 where
  active := ⟨0, .freshDial, none⟩
  replay := ⟨[1], [1], 1, false⟩
  triedIndexes := [0]
  canFailover := false
  phase := .failed .reset .wsClosed
  read := [1]
  sent := [1]
  queue := [1]

theorem chunk0_failover_exact_iff_reset :
    Run (step ⟨true, 1⟩) (fun _ _ => True) (initial ⟨true, 1⟩ ⟨0, .freshDial, none⟩) resetAfterChunk atReset ∧
      atReset.step ⟨true, 1⟩ (.redial (.ok {})) =
        some { atReset with phase := .awaiting, rstRetriesOnCurrentUplink := 1 } ∧
      atReset.sent = atReset.read ∧ atReset.closed = atReset.eof := by
  have hrun : Run (step ⟨true, 1⟩) (fun _ _ => True) (initial ⟨true, 1⟩ ⟨0, .freshDial, none⟩) resetAfterChunk
      atReset := run_of_foldlM rfl
  have hstep : atReset.step ⟨true, 1⟩ (.redial (.ok {})) =
      some { atReset with phase := .awaiting, rstRetriesOnCurrentUplink := 1 } := rfl
  exact ⟨hrun, hstep, (chunk0_failover_exact_iff hrun rfl hstep rfl).mpr ⟨by decide, rfl⟩⟩

/-- A chunk whose send on a warm-standby carrier fails is read and not recorded: the redial goes on without it. -/
theorem chunk0_failover_drops_chunk : ([.clientChunk [1] (some 0) .other, .redial (.ok {})].foldlM (step ⟨true, 1⟩)
        (initial ⟨true, 1⟩ ⟨0, .standby, none⟩)).map
      (fun s => (s.phase, s.read, s.sent)) = some (.awaiting, [1], []) := by
  decide

/-- A carrier is replaced only while the record is what was read, and a parked upstream is taken over only
before it was forwarded anything. -/
def safeToReplace (s : Chunk0) : Chunk0Event → Bool
  | .redial (.ok dialled) =>
    s.replay.buf = s.read && (!(s.active.sessionId.isSome && dialled.hit) || s.target = [])
  | .failover _ => s.replay.buf = s.read
  | _ => true

/-- What the target has and is still to get is a prefix of what was read, and all of it while the loop waits. -/
structure TargetPrefix (s : Chunk0) : Prop where
  wellCut : s.replay.WellCut
  all : s.target ++ s.queue <+: s.read
  awaiting : s.phase = .awaiting → s.target ++ s.queue = s.read

theorem TargetPrefix.stop (h : TargetPrefix s) {phase : Chunk0Phase} (hphase : phase ≠ .awaiting) :
    TargetPrefix { s with phase := phase } :=
  ⟨h.wellCut, h.all, fun hawaiting => absurd hawaiting hphase⟩

theorem TargetPrefix.replaced (h : TargetPrefix s) {dialled : Dialled} {presented : Bool}
    (hreplaced : s.Replaced dialled presented next) (hrecord : s.replay.buf = s.read)
    (htarget : next.target = []) (htook : next.phase = .awaiting → s.TookReplay dialled next) :
    TargetPrefix next := by
  refine ⟨?_, ?_, ?_⟩
  · rw [hreplaced.replay]
    exact h.wellCut
  · rw [htarget, nil_append, hreplaced.queue, hreplaced.read, ← hrecord]
    exact h.wellCut.replayTo_isPrefix _
  · intro hawaiting
    rw [htarget, nil_append, hreplaced.queue, hreplaced.read, ← hrecord]
    exact h.wellCut.replayTo_eq_of_ok (htook hawaiting).1

theorem TargetPrefix.recover (h : TargetPrefix s) (hrecovers : event.recovers = true)
    (hsafe : s.safeToReplace event = true) (hstep : s.step params event = some next) : TargetPrefix next := by
  obtain ⟨phase, rfl, hphase⟩ | ⟨dialled, presented, hreplaced, hevent, htook⟩ := recovery_cases hstep hrecovers
  · exact h.stop hphase
  · have htarget := hreplaced.target
    exact h.replaced hreplaced (by grind [step, safeToReplace]) (by grind [step, safeToReplace]) htook

theorem TargetPrefix.clientChunk (h : TargetPrefix s) {fate : Fate} {failure : ErrorClass}
    (hstep : s.clientChunk chunk fate failure = some next) : TargetPrefix next := by
  obtain ⟨hphase, _, hnext⟩ := clientChunk_cases hstep
  have hall := h.awaiting hphase
  obtain ⟨rfl, rfl⟩ | ⟨n, rfl, rfl⟩ := hnext
  · have hmore : s.target ++ (s.queue ++ chunk) = s.read ++ chunk := by
      rw [← append_assoc, hall]
    exact ⟨h.wellCut.push chunk, by simp [hmore], fun _ => hmore⟩
  · refine ⟨h.wellCut, ?_, by simp⟩
    simp only [← append_assoc, hall]
    exact (prefix_append_right_inj _).mpr (List.take_prefix n chunk)

theorem TargetPrefix.forward (h : TargetPrefix s) (n : Nat) : TargetPrefix (s.forward n) := by
  have hmoved : (s.forward n).target ++ (s.forward n).queue = s.target ++ s.queue := by
    simp [Chunk0.forward]
  refine ⟨h.wellCut, ?_, ?_⟩
  · rw [hmoved]
    exact h.all
  · rw [hmoved]
    exact h.awaiting

theorem TargetPrefix.step (h : TargetPrefix s) (hsafe : s.safeToReplace event = true)
    (hstep : s.step params event = some next) : TargetPrefix next := by
  obtain ⟨chunk, fate, failure, rfl⟩ | ⟨closes, failure, rfl⟩ | hrecovers | ⟨n, rfl⟩ | ⟨phase, rfl, hphase⟩ :=
    step_cases hstep
  · exact h.clientChunk hstep
  · obtain ⟨_, rfl | rfl⟩ := clientEof_cases hstep
    · exact ⟨h.wellCut, h.all, h.awaiting⟩
    · exact ⟨h.wellCut, h.all, by simp⟩
  · exact h.recover hrecovers hsafe hstep
  · cases hstep
    exact h.forward n
  · exact h.stop hphase

/-- In a run that only takes over upstreams nothing was forwarded to, the target gets the client's stream
from its first byte, and all of it is under way whenever the loop waits. -/
theorem chunk0_target_prefix
    (hrun : Run (step params) (fun s event => s.safeToReplace event = true) (initial params active) events s) :
    s.target <+: s.read ∧ (s.phase = .awaiting → s.target ++ s.queue = s.read) := by
  have hstart : TargetPrefix (initial params active) := ⟨ReplayBufState.wellCut_new, prefix_refl _, fun _ => rfl⟩
  have hprefix : TargetPrefix s :=
    hrun.invariant (P := fun _ s => TargetPrefix s) hstart fun _ _ _ _ h hsafe hstep => h.step hsafe hstep
  exact ⟨(prefix_append _ _).trans hprefix.all, hprefix.awaiting⟩

def redialBeforeForward : List Chunk0Event :=
  [.clientChunk [1] none .other, .attemptFails .wsClosed, .skip, .redial (.ok { sessionId := some 8, hit := true }),
    .forward 1]

theorem chunk0_target_prefix_redial : ∃ s : Chunk0,
      Run (step ⟨true, 1⟩) (fun s event => s.safeToReplace event = true) (initial ⟨true, 1⟩ ⟨0, .freshDial, some 7⟩)
        redialBeforeForward s ∧ s.target = [1] ∧ s.target <+: s.read := by
  refine exists_run rfl fun hrun => ?_
  have hprefix := chunk0_target_prefix hrun
  exact ⟨rfl, hprefix.1⟩

/-- The chunk was forwarded before the carrier died: the parked upstream gets it again. -/
theorem chunk0_redial_repeats_bytes : ([.clientChunk [1] none .other, .forward 1, .attemptFails .wsClosed, .skip,
        .redial (.ok { sessionId := some 8, hit := true }), .forward 1].foldlM (step ⟨true, 1⟩)
        (initial ⟨true, 1⟩ ⟨0, .freshDial, some 7⟩)).map
      (fun s => (s.read, s.target)) = some ([1], [1, 1]) := by
  decide

end Chunk0

end OutlineProxy.Socks
