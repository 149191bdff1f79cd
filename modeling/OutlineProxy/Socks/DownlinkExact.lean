import OutlineProxy.Socks.Relay

/-! The downlink across retries and switches.  What the client has, what its write holds and what is on the
carrier make up the server's stream; a retry replays from the offset the client counts. -/

namespace OutlineProxy.Socks

open Transport Server Runs List

def DownlinkTask.left : DownlinkTask → Bytes
  | .reading => []
  | .writing left _ => left

def DownlinkTask.len : DownlinkTask → Nat
  | .reading => 0
  | .writing _ len => len

def Session.attached (s : Session) : Bool :=
  match s.phase with
  | .stopped _ | .ended => false
  | _ => true

structure Delivered (s : Session) : Prop where
  mirrors : s.server.downlinkRing.Mirrors s.server.stream
  isPrefix : s.written <+: s.server.stream
  rest : s.attached = true → s.written ++ s.downlink.left ++ s.downWire = s.server.stream
  offset : s.attached = true → s.clientAckedOffset + s.downlink.len = s.written.length + s.downlink.left.length
  first : s.phase = .chunk0 → s.downlink = .reading

structure DownlinkKept (s next : Session) : Prop where
  stream : next.server.stream = s.server.stream
  ring : next.server.downlinkRing = s.server.downlinkRing
  written : next.written = s.written
  downWire : next.downWire = s.downWire
  downlink : next.downlink = s.downlink
  clientAckedOffset : next.clientAckedOffset = s.clientAckedOffset
  attached : next.attached = true → s.attached = true
  first : next.phase = .chunk0 → s.phase = .chunk0

variable {config : RelayConfig} {events : List Event} {s next : Session}

theorem Session.attached_of_downlinkRuns (h : s.downlinkRuns = true) : s.attached = true := by
  revert h
  unfold Session.downlinkRuns Session.attached
  cases s.phase <;> simp

theorem delivered_initial (config : RelayConfig) : Delivered (Session.initial config) :=
  ⟨DownlinkRing.mirrors_new _, nil_prefix, fun _ => rfl, fun _ => rfl, fun _ => rfl⟩

theorem Delivered.kept (h : Delivered s) (hkept : DownlinkKept s next) : Delivered next := by
  refine ⟨?_, ?_, ?_, ?_, ?_⟩
  · rw [hkept.ring, hkept.stream]
    exact h.mirrors
  · rw [hkept.written, hkept.stream]
    exact h.isPrefix
  · rw [hkept.written, hkept.downlink, hkept.downWire, hkept.stream]
    exact fun hattached => h.rest (hkept.attached hattached)
  · rw [hkept.written, hkept.downlink, hkept.clientAckedOffset]
    exact fun hattached => h.offset (hkept.attached hattached)
  · rw [hkept.downlink]
    exact fun hphase => h.first (hkept.first hphase)

theorem Delivered.detach (h : Delivered s) (hserver : next.server = s.server) (hwritten : next.written = s.written)
    (hdetached : next.attached = false) (hphase : next.phase ≠ .chunk0) : Delivered next := by
  have hnot : next.attached = true → False := by simp [hdetached]
  refine ⟨?_, ?_, fun hattached => (hnot hattached).elim, fun hattached => (hnot hattached).elim,
    fun hfirst => absurd hfirst hphase⟩
  · rw [hserver]
    exact h.mirrors
  · rw [hserver, hwritten]
    exact h.isPrefix

theorem kept_sendChunk0 {chunk : Bytes} {fate : Fate} (hstep : s.sendChunk0 chunk fate = some next) :
    DownlinkKept s next := by
  obtain ⟨hphase, -, phase, -, rfl⟩ := Session.sendChunk0_cases hstep
  have hattached : s.attached = true := by simp [Session.attached, hphase]
  exact ⟨rfl, rfl, rfl, rfl, rfl, rfl, fun _ => hattached, fun _ => hphase⟩

theorem kept_relay {chunk : Bytes} {fate : Fate} (hstep : s.relay config chunk fate = some next) :
    DownlinkKept s next := by
  obtain ⟨hphase, -, ring, -, hnext⟩ := Session.relay_cases hstep
  have hattached : s.attached = true := by simp [Session.attached, hphase]
  rcases hnext with rfl | ⟨rfl, -⟩
  · refine ⟨rfl, rfl, rfl, rfl, rfl, rfl, fun _ => hattached, ?_⟩
    intro hfirst
    cases fate with
    | none => exact hfirst
    | some n => cases hfirst
  · exact ⟨rfl, rfl, rfl, rfl, rfl, rfl, fun _ => hattached, nofun⟩

theorem Delivered.take (h : Delivered s) (hattached : s.attached = true) (hreading : s.downlink = .reading) (n : Nat)
    {phase : Phase} (hphase : phase ≠ .chunk0) {task : DownlinkTask} (hleft : task.left = s.downWire.take n)
    (hlen : task.len = (s.downWire.take n).length) :
    Delivered { s with phase := phase, downWire := s.downWire.drop n, downlink := task } := by
  refine ⟨h.mirrors, h.isPrefix, ?_, ?_, fun hfirst => absurd hfirst hphase⟩
  · have hrest := h.rest
    grind [DownlinkTask.left, append_assoc, take_append_drop]
  · intro _
    have hoffset := h.offset hattached
    rw [hreading] at hoffset
    rw [hleft, hlen]
    exact congrArg (· + _) hoffset

theorem startDownlink_left (chunk : Bytes) :
    (Session.startDownlink (if chunk = [] then none else some chunk)).left = chunk ∧
      (Session.startDownlink (if chunk = [] then none else some chunk)).len = chunk.length := by
  cases chunk with
  | nil => exact ⟨rfl, rfl⟩
  | cons byte rest => exact ⟨rfl, rfl⟩

theorem Delivered.firstChunk (h : Delivered s) {n : Nat} (hstep : s.firstChunk n = some next) : Delivered next := by
  unfold Session.firstChunk at hstep
  by_cases hguard : s.phase ≠ .chunk0 ∨ s.downWire.take n = []
  · rw [if_pos hguard] at hstep
    cases hstep
  rw [if_neg hguard] at hstep
  cases hstep
  obtain ⟨hphase, hchunk⟩ := not_or.mp hguard
  have hphase : s.phase = .chunk0 := not_not.mp hphase
  have hattached : s.attached = true := by simp [Session.attached, hphase]
  have hstart := startDownlink_left (s.downWire.take n)
  rw [if_neg hchunk] at hstart
  exact h.take hattached (h.first hphase) n (by simp) hstart.1 hstart.2

theorem Delivered.downlinkRead (h : Delivered s) {n : Nat} (hstep : s.downlinkRead n = some next) :
    Delivered next := by
  unfold Session.downlinkRead at hstep
  split at hstep <;> cases hstep
  rename_i hguard
  obtain ⟨hruns, hreading, -⟩ := hguard
  have hphase : s.phase ≠ .chunk0 := by
    intro hphase
    simp [Session.downlinkRuns, hphase] at hruns
  exact h.take (Session.attached_of_downlinkRuns hruns) hreading n hphase rfl rfl

theorem Delivered.downlinkWrite (h : Delivered s) {n : Nat} (hstep : s.downlinkWrite n = some next) :
    Delivered next := by
  unfold Session.downlinkWrite at hstep
  cases htask : s.downlink with
  | reading =>
    rw [htask] at hstep
    cases hstep
  | writing left len =>
    simp only [htask] at hstep
    by_cases hruns : s.downlinkRuns = false
    · rw [if_pos hruns] at hstep
      cases hstep
    rw [if_neg hruns] at hstep
    have hphase : s.phase ≠ .chunk0 := by
      intro hphase
      exact hruns (by simp [Session.downlinkRuns, hphase])
    have hattached := Session.attached_of_downlinkRuns (Bool.not_eq_false _ ▸ hruns)
    have hrest := h.rest hattached
    have hoffset := h.offset hattached
    rw [htask] at hrest hoffset
    simp only [DownlinkTask.left, DownlinkTask.len] at hrest hoffset
    by_cases hpart : n < left.length
    · rw [if_pos hpart] at hstep
      cases hstep
      have hstream : s.written ++ left.take n ++ left.drop n ++ s.downWire = s.server.stream := by
        rw [append_assoc s.written, take_append_drop, hrest]
      refine ⟨h.mirrors, ?_, fun _ => hstream, fun _ => ?_, fun hfirst => absurd hfirst hphase⟩
      · rw [← hstream, append_assoc]
        exact prefix_append _ _
      · grind [DownlinkTask.left, DownlinkTask.len]
    · rw [if_neg hpart] at hstep
      cases hstep
      refine ⟨h.mirrors, ?_, fun _ => ?_, fun _ => ?_, fun hfirst => absurd hfirst hphase⟩
      · rw [← hrest]
        exact prefix_append _ _
      · rw [← hrest]
        simp [DownlinkTask.left]
      · simp only [DownlinkTask.left, DownlinkTask.len, length_append, length_nil]
        omega

theorem Delivered.serverSends (h : Delivered s) (chunk : Bytes) : Delivered (s.serverSends chunk) := by
  refine ⟨h.mirrors.push chunk, ?_, ?_, h.offset, h.first⟩
  · exact h.isPrefix.trans (prefix_append _ _)
  · intro hattached
    have hrest := h.rest hattached
    change s.written ++ s.downlink.left ++ (s.downWire ++ chunk) = s.server.stream ++ chunk
    rw [← append_assoc, hrest]

theorem downlinkReplayFrame_eq (h : Delivered s) (config : RelayConfig)
    (hheld : s.server.downlinkRing.oldestOffset ≤ s.clientAckedOffset)
    (hcounted : s.clientAckedOffset = s.written.length) :
    s.downlinkReplayFrame config = none ∨
      s.downlinkReplayFrame config = some (some (.replay (s.server.stream.drop s.written.length))) := by
  have hbytes : s.server.downlinkRing.replayFrom s.clientAckedOffset =
      .available (s.server.stream.drop s.written.length) := by
    rw [h.mirrors.replayFrom_eq, if_neg, if_neg (Nat.not_lt.mpr hheld), hcounted]
    rw [hcounted]
    exact Nat.not_lt.mpr h.isPrefix.length_le
  unfold Session.downlinkReplayFrame
  simp only [hbytes]
  split
  · exact .inl rfl
  · exact .inr rfl

theorem Delivered.retried (h : Delivered s) (ackPrefix : Negotiated) (sends : List Fate)
    (hheld : s.server.downlinkRing.oldestOffset ≤ s.clientAckedOffset)
    (hcounted : s.clientAckedOffset = s.written.length) :
    Delivered (s.retried config (.hit ackPrefix .engaged sends)) := by
  unfold Session.retried
  simp only [Session.redialled]
  generalize hconnected : Redialled.mk _ _ _ = connected
  have hframe : connected.downlinkReplay = s.downlinkReplayFrame config := by rw [← hconnected]
  rcases hretry : tryMidSessionRetry s.ring config.overflowPolicy (some connected) with ⟨wire, result⟩
  cases result with
  | error error => exact h.detach rfl rfl rfl nofun
  | ok payload =>
    obtain ⟨harrived, hpayload⟩ : connected.downlinkReplay ≠ none ∧ ∀ bytes,
        connected.downlinkReplay = some (some (.replay bytes)) → payload = if bytes = [] then none else some bytes := by
      unfold tryMidSessionRetry at hretry
      split at hretry
      · cases hretry
      · grind
    rw [hframe] at harrived hpayload
    have hreplay := (downlinkReplayFrame_eq h config hheld hcounted).resolve_left harrived
    obtain rfl := hpayload _ hreplay
    obtain ⟨hleft, hlen⟩ := startDownlink_left (s.server.stream.drop s.written.length)
    have hstream : s.written ++ s.server.stream.drop s.written.length = s.server.stream :=
      prefix_iff_eq_append.mp h.isPrefix
    refine ⟨h.mirrors, h.isPrefix, fun _ => ?_, fun _ => ?_, nofun⟩
    · dsimp only
      rw [hleft, append_nil, hstream]
    · dsimp only
      rw [hleft, hlen, hcounted]

/-- At a retry the server offers the downlink replay, its ring holds everything from the offset the client reports on,
and all that was written to the client is counted in that offset. -/
def Session.replayable (s : Session) : Event → Bool
  | .retry (.hit _ downlinkReplay _) =>
    downlinkReplay = .engaged ∧ s.server.downlinkRing.oldestOffset ≤ s.clientAckedOffset ∧
      s.clientAckedOffset = s.written.length
  | _ => true

theorem Delivered.step (h : Delivered s) {event : Event} (hallowed : s.replayable event = true)
    (hstep : s.step config event = some next) : Delivered next := by
  cases event with
  | chunk0 chunk fate => exact h.kept (kept_sendChunk0 hstep)
  | relay chunk fate => exact h.kept (kept_relay hstep)
  | firstChunk n => exact h.firstChunk hstep
  | uplinkError =>
    simp only [Session.step, Session.uplinkError] at hstep
    split at hstep <;> cases hstep
    rename_i hphase
    have hattached : s.attached = true := by simp [Session.attached, hphase]
    exact h.kept ⟨rfl, rfl, rfl, rfl, rfl, rfl, fun _ => hattached, nofun⟩
  | switchAway =>
    simp only [Session.step, Session.switchAway] at hstep
    split at hstep <;> cases hstep
    rename_i hruns
    exact h.kept ⟨rfl, rfl, rfl, rfl, rfl, rfl, fun _ => Session.attached_of_downlinkRuns hruns, nofun⟩
  | downlinkRead n => exact h.downlinkRead hstep
  | downlinkWrite n => exact h.downlinkWrite hstep
  | downlinkError =>
    simp only [Session.step, Session.downlinkError] at hstep
    split at hstep <;> cases hstep <;> exact h.detach rfl rfl rfl nofun
  | abortDownlink =>
    simp only [Session.step, Session.abortDownlink] at hstep
    split at hstep <;> cases hstep
    exact h.detach rfl rfl rfl nofun
  | forward n =>
    cases hstep
    exact h.kept ⟨rfl, rfl, rfl, rfl, rfl, rfl, id, id⟩
  | serverSends chunk =>
    cases hstep
    exact h.serverSends chunk
  | retry redial =>
    obtain ⟨-, budget, rfl⟩ := Session.retry_eq hstep
    have hbudget : Delivered { s with budget := budget } := ⟨h.mirrors, h.isPrefix, h.rest, h.offset, h.first⟩
    cases redial with
    | refused => exact hbudget.detach rfl rfl rfl nofun
    | hit ackPrefix downlinkReplay sends =>
      obtain ⟨rfl, hheld, hcounted⟩ := of_decide_eq_true hallowed
      exact hbudget.retried ackPrefix sends hheld hcounted
  | stop =>
    cases hstep
    exact h.detach rfl rfl rfl nofun

/-- Over all iterations of a run that is cut at no write, the client's socket receives the start of the
server's stream. -/
theorem socks_downlink_exact
    (hrun : Run (Session.step config) (fun s event => s.replayable event = true) (Session.initial config) events s) :
    s.written <+: s.server.stream := by
  have hdelivered : Delivered s := hrun.invariant (P := fun _ s => Delivered s) (delivered_initial config)
      fun _ _ _ _ h hallowed hstep => h.step hallowed hstep
  exact hdelivered.isPrefix

def replayConfig : RelayConfig where
  retryBufferBytes := 64
  retryBudget := 1
  overflowPolicy := .hard
  symmetricReplayMaxBytes := 64
  downlinkBufferBytes := 64

def resumedDownlink : List Event :=
  [.serverSends [1, 2, 3, 4], .firstChunk 2, .downlinkWrite 2, .uplinkError, .abortDownlink,
    .retry (.hit .engaged .engaged []), .downlinkWrite 2]

theorem socks_downlink_exact_resumed :
    ∃ s, resumedDownlink.foldlM (Session.step replayConfig) (Session.initial replayConfig) = some s ∧
      s.written = [1, 2, 3, 4] ∧ s.written <+: s.server.stream := by
  have hrun : Run (Session.step replayConfig) (fun s event => s.replayable event = true)
      (Session.initial replayConfig) resumedDownlink _ := run_of_foldlM rfl
  exact ⟨_, rfl, rfl, socks_downlink_exact hrun⟩

/-- Two of four bytes are written when the uplink fails: they are not counted, and come again. -/
theorem socks_downlink_repeats_bytes :
    ([Event.serverSends [1, 2, 3, 4], .firstChunk 4, .downlinkWrite 2, .uplinkError, .abortDownlink,
        .retry (.hit .engaged .engaged []), .downlinkWrite 4].foldlM
          (Session.step replayConfig) (Session.initial replayConfig)).map
      (fun s => (s.phase, s.server.stream, s.written)) = some (.relaying, [1, 2, 3, 4], [1, 2, 1, 2, 3, 4]) := by
  decide

end OutlineProxy.Socks
