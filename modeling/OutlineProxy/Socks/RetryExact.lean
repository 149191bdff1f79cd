import OutlineProxy.Socks.Relay

/-! The uplink across retries.  The ring mirrors the client's stream as long as every byte went through it. -/

namespace OutlineProxy.Socks

open List Transport Runs ClientUpstreamRingBuffer

/-! ### One retry -/

section Retry

variable {ring : ClientUpstreamRingBuffer} {stream : Bytes} {offset : Nat} {connected : Redialled}

theorem sendReplayThroughWriter_isPrefix (replay : Bytes) (fates : List Fate) :
    (sendReplayThroughWriter replay fates).1 <+: replay := by
  have h := sendChunks_isPrefix [] (Pieces.chunks shadowsocksMaxPayload replay) fates
  rwa [Pieces.flatten_chunks (by decide), nil_append] at h

theorem sendReplayThroughWriter_eq_of_ok {replay : Bytes} {fates : List Fate}
    (h : (sendReplayThroughWriter replay fates).2 = true) : (sendReplayThroughWriter replay fates).1 = replay := by
  have hsent := sendChunks_eq_of_ok h
  rwa [Pieces.flatten_chunks (by decide), nil_append] at hsent

theorem tryMidSessionRetry_of_ok (overflowPolicy : OverflowPolicy) {bytes : Bytes}
    (hack : connected.ackPrefix = some (some offset)) (hreplay : ring.replayFrom offset = .ok bytes) :
    let result := tryMidSessionRetry (some ring) overflowPolicy (some connected)
    result.1 = (sendReplayThroughWriter bytes connected.sends).1 ∧
      ((∃ payload, result.2 = .ok payload) → (sendReplayThroughWriter bytes connected.sends).2 = true) ∧
      ((sendReplayThroughWriter bytes connected.sends).2 = true →
        result.2 ≠ .error .failedReplay ∧ result.2 ≠ .error .noRing) := by
  unfold tryMidSessionRetry
  simp only [hack, Option.getD_some, hreplay]
  rcases hsent : sendReplayThroughWriter bytes connected.sends with ⟨wire, ok⟩
  cases ok with
  | false => simp
  | true => grind

theorem tryMidSessionRetry_of_error (overflowPolicy : OverflowPolicy) {error : ReplayError}
    (hack : connected.ackPrefix = some (some offset)) (hreplay : ring.replayFrom offset = .error error) :
    tryMidSessionRetry (some ring) overflowPolicy (some connected) = ([], .error .failedReplay) := by
  unfold tryMidSessionRetry
  simp only [hack, Option.getD_some, hreplay]

theorem tryMidSessionRetry_wire (overflowPolicy : OverflowPolicy) (hmirrors : ring.Mirrors stream)
    (hack : connected.ackPrefix = some (some offset)) :
    let result := tryMidSessionRetry (some ring) overflowPolicy (some connected)
    result.1 <+: stream.drop offset ∧
      ((∃ payload, result.2 = .ok payload) → offset ≤ stream.length ∧ result.1 = stream.drop offset) := by
  cases hreplay : ring.replayFrom offset with
  | error error => simp [tryMidSessionRetry_of_error overflowPolicy hack hreplay]
  | ok bytes =>
    obtain ⟨hwire, hok, -⟩ := tryMidSessionRetry_of_ok overflowPolicy hack hreplay
    obtain ⟨hoffset, rfl⟩ := hmirrors.replayFrom hreplay
    dsimp only
    rw [hwire]
    exact ⟨sendReplayThroughWriter_isPrefix _ _,
      fun hpayload => ⟨hoffset, sendReplayThroughWriter_eq_of_ok (hok hpayload)⟩⟩

end Retry

/-! ### What the ring has seen -/

def Event.payload : Event → Bytes
  | .chunk0 chunk _ | .relay chunk _ => chunk
  | _ => []

def Event.ringed (config : RelayConfig) : Event → List Bytes
  | .relay chunk _ => if chunk.length ≤ config.retryBufferBytes then [chunk] else []
  | _ => []

def Event.inRing (config : RelayConfig) : Event → Bool
  | .chunk0 .. => false
  | .relay chunk _ => chunk.length ≤ config.retryBufferBytes
  | _ => true

structure Tracks (config : RelayConfig) (events : List Event) (s : Session) : Prop where
  read : s.read = events.flatMap Event.payload
  acked : s.server.upstreamBytesAcked = s.server.received.length
  eligible : s.ring.isSome = config.retryEligible
  capacity : ∀ ring, s.ring = some ring → ring.capacityBytes = config.retryBufferBytes
  mirrors : ∀ ring, s.ring = some ring → ring.Mirrors (events.flatMap (Event.ringed config)).flatten
  keeps : ∀ ring, s.ring = some ring → ring.KeepsLast (events.flatMap (Event.ringed config))
  nonempty : ∀ event ∈ events, event.payload = [] → event.inRing config

section Tracks

variable {config : RelayConfig} {events : List Event} {s next : Session} {event : Event}

theorem tracks_initial (config : RelayConfig) : Tracks config [] (Session.initial config) := by
  have hring : ∀ ring, (Session.initial config).ring = some ring → ring = .new config.retryBufferBytes := by
    grind [Session.initial, Option.some.inj]
  refine ⟨rfl, rfl, ?_, ?_, ?_, ?_, by simp⟩
  · unfold Session.initial
    cases config.retryEligible <;> rfl
  · intro ring h
    rw [hring ring h]
    rfl
  · intro ring h
    rw [hring ring h]
    exact mirrors_new _
  · intro ring h
    rw [hring ring h]
    exact keepsLast_new _

theorem Tracks.congr (h : Tracks config events s) (hread : next.read = s.read) (hring : next.ring = s.ring)
    (hacked : next.server.upstreamBytesAcked = next.server.received.length) : Tracks config events next := by
  refine ⟨hread.trans h.read, hacked, ?_, ?_, ?_, ?_, h.nonempty⟩
  · rw [hring]
    exact h.eligible
  · rw [hring]
    exact h.capacity
  · rw [hring]
    exact h.mirrors
  · rw [hring]
    exact h.keeps

def Session.sending (s : Session) : Prop := s.phase = .chunk0 ∨ s.phase = .relaying

structure Quiet (s next : Session) : Prop where
  read : next.read = s.read
  ring : next.ring = s.ring
  sent : next.server.received ++ next.wire = s.server.received ++ s.wire
  acked : s.server.upstreamBytesAcked = s.server.received.length →
    next.server.upstreamBytesAcked = next.server.received.length
  sending : next.sending → s.sending

def Event.touchesUplink : Event → Bool
  | .chunk0 .. | .relay .. | .retry _ => true
  | _ => false

theorem quiet_of_eq (hread : next.read = s.read) (hring : next.ring = s.ring) (hwire : next.wire = s.wire)
    (hreceived : next.server.received = s.server.received)
    (hacked : next.server.upstreamBytesAcked = s.server.upstreamBytesAcked)
    (hsending : next.sending → s.sending) : Quiet s next := by
  refine ⟨hread, hring, ?_, ?_, hsending⟩
  · rw [hreceived, hwire]
  · rw [hreceived, hacked]
    exact id

theorem quiet_downlinkWrite {n : Nat} (hstep : s.downlinkWrite n = some next) : Quiet s next := by
  unfold Session.downlinkWrite at hstep
  split at hstep
  · cases hstep
  · split at hstep
    · cases hstep
    · split at hstep <;> cases hstep <;> exact quiet_of_eq rfl rfl rfl rfl rfl id

theorem quiet_forward (s : Session) (n : Nat) : Quiet s (s.forward n) := by
  refine ⟨rfl, rfl, ?_, ?_, id⟩
  · simp [Session.forward, ServerSession.forwardPlaintext]
  · intro hacked
    simp [Session.forward, ServerSession.forwardPlaintext, hacked]

theorem quiet_step (hstep : s.step config event = some next) (hquiet : event.touchesUplink = false) :
    Quiet s next := by
  cases event with
  | chunk0 chunk fate => cases hquiet
  | relay chunk fate => cases hquiet
  | retry redial => cases hquiet
  | downlinkWrite n => exact quiet_downlinkWrite hstep
  | forward n =>
    cases hstep
    exact quiet_forward s n
  | serverSends chunk =>
    cases hstep
    exact quiet_of_eq rfl rfl rfl rfl rfl id
  | _ =>
    simp only [Session.step, Session.firstChunk, Session.uplinkError, Session.switchAway, Session.downlinkRead,
      Session.downlinkError, Session.abortDownlink] at hstep
    apply quiet_of_eq <;> grind [Session.sending]

theorem Tracks.silent (h : Tracks config events s) (hpayload : event.payload = [])
    (hringed : event.ringed config = []) (hin : event.inRing config) (hread : next.read = s.read)
    (hring : next.ring = s.ring) (hacked : next.server.upstreamBytesAcked = next.server.received.length) :
    Tracks config (events ++ [event]) next := by
  have hflat : (events ++ [event]).flatMap (Event.ringed config) = events.flatMap (Event.ringed config) := by
    simp [hringed]
  have hnext := h.congr hread hring hacked
  have hold := h.nonempty
  exact ⟨by simp [hnext.read, hpayload], hacked, hnext.eligible, hnext.capacity, hflat ▸ hnext.mirrors,
    hflat ▸ hnext.keeps, by grind⟩

theorem Tracks.nonempty_snoc (h : Tracks config events s) (hpayload : event.payload ≠ []) :
    ∀ other ∈ events ++ [event], other.payload = [] → other.inRing config := by
  have hnonempty := h.nonempty
  grind

variable {chunk : Bytes} {fate : Fate}

theorem Tracks.relay (h : Tracks config events s) (hstep : s.relay config chunk fate = some next) :
    Tracks config (events ++ [.relay chunk fate]) next := by
  obtain ⟨-, hchunk, ring, hpushed, hnext⟩ := Session.relay_cases hstep
  have hnonempty : ∀ other ∈ events ++ [.relay chunk fate], other.payload = [] → other.inRing config :=
    h.nonempty_snoc hchunk
  have hread : s.read ++ chunk = (events ++ [Event.relay chunk fate]).flatMap Event.payload := by
    simp [h.read, Event.payload]
  have htracks : Tracks config (events ++ [.relay chunk fate]) { s with read := s.read ++ chunk, ring := ring } := by
    have heligible := h.eligible
    generalize hring : s.ring = old at hpushed heligible
    cases hpushed with
    | off => exact ⟨hread, h.acked, heligible, by simp, by simp, by simp, hnonempty⟩
    | @kept ring pushed hpush =>
      have hcapacity := h.capacity ring hring
      have herror : (∃ error, ring.push chunk = .error error) ↔ _ := push_error_iff
      have hfits : chunk.length ≤ config.retryBufferBytes := by grind
      have hringed : (events ++ [Event.relay chunk fate]).flatMap (Event.ringed config) =
          events.flatMap (Event.ringed config) ++ [chunk] := by
        simp [Event.ringed, hfits]
      refine ⟨hread, h.acked, heligible, ?_, ?_, ?_, hnonempty⟩
      all_goals
        intro ring' hring'
        cases hring'
      · rw [push_capacity hpush, hcapacity]
      · rw [hringed, flatten_append]
        simpa using (h.mirrors ring hring).push hpush
      · rw [hringed]
        exact (h.keeps ring hring).push (h.mirrors ring hring) hchunk hpush
    | @refused ring error hpush =>
      have hlarge := push_error_iff.mp ⟨error, hpush⟩
      have hringed : (events ++ [Event.relay chunk fate]).flatMap (Event.ringed config) =
          events.flatMap (Event.ringed config) := by
        simp [Event.ringed, ← h.capacity ring hring, hlarge]
      rw [← hring]
      exact ⟨hread, h.acked, h.eligible, h.capacity, hringed ▸ h.mirrors, hringed ▸ h.keeps, hnonempty⟩
  rcases hnext with rfl | ⟨rfl, -⟩ <;> exact htracks.congr rfl rfl h.acked

theorem Tracks.sendChunk0 (h : Tracks config events s) (hstep : s.sendChunk0 chunk fate = some next) :
    Tracks config (events ++ [.chunk0 chunk fate]) next := by
  obtain ⟨-, hchunk, phase, -, rfl⟩ := Session.sendChunk0_cases hstep
  have hringed : (events ++ [Event.chunk0 chunk fate]).flatMap (Event.ringed config) =
      events.flatMap (Event.ringed config) := by
    simp [Event.ringed]
  refine ⟨?_, h.acked, h.eligible, h.capacity, ?_, ?_, h.nonempty_snoc hchunk⟩
  · simp [h.read, Event.payload]
  · rw [hringed]
    exact h.mirrors
  · rw [hringed]
    exact h.keeps

theorem retried_uplink (config : RelayConfig) (s : Session) (redial : Redial) :
    (s.retried config redial).read = s.read ∧ (s.retried config redial).ring = s.ring ∧
      (s.retried config redial).server = s.server := by
  unfold Session.retried
  cases redial with
  | refused => exact ⟨rfl, rfl, rfl⟩
  | hit ackPrefix downlinkReplay sends =>
    dsimp only
    split <;> exact ⟨rfl, rfl, rfl⟩

theorem Tracks.step (h : Tracks config events s) (hstep : s.step config event = some next) :
    Tracks config (events ++ [event]) next := by
  cases event with
  | chunk0 chunk fate => exact h.sendChunk0 hstep
  | relay chunk fate => exact h.relay hstep
  | retry redial =>
    obtain ⟨-, budget, rfl⟩ := Session.retry_eq hstep
    obtain ⟨hread, hring, hserver⟩ := retried_uplink config { s with budget := budget } redial
    refine h.silent rfl rfl rfl hread hring ?_
    rw [hserver]
    exact h.acked
  | _ =>
    have hquiet := quiet_step hstep rfl
    exact h.silent rfl rfl rfl hquiet.read hquiet.ring (hquiet.acked h.acked)

theorem tracks_run {allowed : Session → Event → Prop}
    (hrun : Run (Session.step config) allowed (Session.initial config) events s) : Tracks config events s :=
  hrun.invariant (tracks_initial config) fun _ _ _ _ h _ hstep => h.step hstep

/-! ### Bytes that pass the ring by -/

theorem ringed_le (config : RelayConfig) (event : Event) :
    (event.ringed config).flatten.length ≤ event.payload.length := by
  cases event with
  | relay chunk fate =>
    by_cases hfits : chunk.length ≤ config.retryBufferBytes <;> simp [Event.ringed, Event.payload, hfits]
  | _ => simp [Event.ringed]

theorem ringed_eq_iff (hnonempty : event.payload = [] → event.inRing config) :
    (event.ringed config).flatten.length = event.payload.length ↔ event.inRing config := by
  cases event with
  | chunk0 chunk fate => grind [Event.ringed, Event.payload, Event.inRing]
  | relay chunk fate => grind [Event.ringed, Event.payload, Event.inRing]
  | _ => exact iff_of_true rfl rfl

theorem ringed_length_eq_iff (hnonempty : ∀ event ∈ events, event.payload = [] → event.inRing config) :
    (events.flatMap (Event.ringed config)).flatten.length ≤ (events.flatMap Event.payload).length ∧
      ((events.flatMap (Event.ringed config)).flatten.length = (events.flatMap Event.payload).length ↔
        ∀ event ∈ events, event.inRing config) := by
  induction events with
  | nil => simp
  | cons event rest ih =>
    obtain ⟨hle, hiff⟩ := ih fun other hother => hnonempty other (mem_cons_of_mem _ hother)
    have hhead := ringed_le config event
    have heq := ringed_eq_iff (hnonempty event mem_cons_self)
    simp only [flatMap_cons, flatten_append, length_append, forall_mem_cons]
    rw [← heq, ← hiff]
    omega

theorem ringed_eq_payload (hin : ∀ event ∈ events, event.inRing config) :
    (events.flatMap (Event.ringed config)).flatten = events.flatMap Event.payload := by
  induction events with
  | nil => rfl
  | cons event rest ih =>
    have hrest := ih fun other hother => hin other (mem_cons_of_mem _ hother)
    have hevent := hin event mem_cons_self
    have hhead : (event.ringed config).flatten = event.payload := by
      cases event <;> grind [Event.ringed, Event.payload, Event.inRing]
    rw [flatMap_cons, flatMap_cons, flatten_append, hrest, hhead]

/-! ### A chunk the ring refuses -/

theorem replayFrom_ok_iff {ring : ClientUpstreamRingBuffer} {stream : Bytes} (hmirrors : ring.Mirrors stream)
    (offset : Nat) :
    (∃ bytes, ring.replayFrom offset = .ok bytes) ↔ ring.oldestOffset ≤ offset ∧ offset ≤ ring.totalSent := by
  rw [hmirrors.replayFrom_eq, hmirrors.total]
  by_cases hahead : stream.length < offset
  · simp [hahead, Nat.not_le.mpr hahead]
  · by_cases hold : offset < ring.oldestOffset
    · simp [hahead, hold]
    · simp [hahead, hold]
      omega

/-- A retry that succeeds continues the client's stream at the offset the server reports exactly if
every byte of the stream went through the ring, or the ring refuses the offset. -/
theorem retry_continues_stream_iff {allowed : Session → Event → Prop} {ring : ClientUpstreamRingBuffer}
    (hrun : Run (Session.step config) allowed (Session.initial config) events s) (hring : s.ring = some ring) :
    (∀ connected wire payload, connected.ackPrefix = some (some s.server.upstreamBytesAcked) →
        tryMidSessionRetry s.ring config.overflowPolicy (some connected) = (wire, .ok payload) →
        wire = s.read.drop s.server.upstreamBytesAcked) ↔ (∀ event ∈ events, event.inRing config) ∨
        s.server.upstreamBytesAcked < ring.oldestOffset ∨ ring.totalSent < s.server.upstreamBytesAcked := by
  have htracks := tracks_run hrun
  have hmirrors := htracks.mirrors ring hring
  rw [hring]
  constructor
  · intro hexact
    by_contra hbad
    obtain ⟨hpassed, hheld⟩ := not_or.mp hbad
    obtain ⟨hold, htotal⟩ := not_or.mp hheld
    obtain ⟨bytes, hbytes⟩ := (replayFrom_ok_iff hmirrors _).mpr ⟨Nat.not_lt.mp hold, Nat.not_lt.mp htotal⟩
    -- a redial on which everything goes well
    have hretry : tryMidSessionRetry (some ring) config.overflowPolicy
        (some ⟨some (some s.server.upstreamBytesAcked), [], some none⟩) = (bytes, .ok none) := by
      have hsent : sendReplayThroughWriter bytes [] = (bytes, true) :=
        Prod.ext (sendReplayThroughWriter_eq_of_ok (sendChunks_ok _ _)) (sendChunks_ok _ _)
      unfold tryMidSessionRetry
      simp only [Option.getD_some, hbytes, hsent]
    have hlength := congrArg length (hexact _ _ _ rfl hretry)
    obtain ⟨hoffset, hdrop⟩ := hmirrors.replayFrom hbytes
    rw [hdrop, length_drop, length_drop, htracks.read] at hlength
    obtain ⟨hle, hiff⟩ := ringed_length_eq_iff htracks.nonempty
    exact hpassed (hiff.mp (by omega))
  · intro hgood connected wire payload hack hretry
    have hwire := tryMidSessionRetry_wire config.overflowPolicy hmirrors hack
    rcases hgood with hin | hrefused
    · have hread := htracks.read
      grind [ringed_eq_payload]
    · cases hreplay : ring.replayFrom s.server.upstreamBytesAcked with
      | error error =>
        rw [tryMidSessionRetry_of_error _ hack hreplay] at hretry
        cases hretry
      | ok bytes =>
        have hheld := (replayFrom_ok_iff hmirrors _).mp ⟨bytes, hreplay⟩
        omega

def smallRing : RelayConfig where
  retryBufferBytes := 4
  retryBudget := 1
  overflowPolicy := .soft
  symmetricReplayMaxBytes := 64
  downlinkBufferBytes := 64

theorem retry_continues_stream_iff_two_chunks :
    ∃ s ring, [Event.serverSends [0], .firstChunk 1, .relay [1, 2] none, .relay [3, 4, 5] none, .forward 1,
        .uplinkError].foldlM (Session.step smallRing) (Session.initial smallRing) = some s ∧ s.ring = some ring ∧
      ((∀ connected wire payload, connected.ackPrefix = some (some s.server.upstreamBytesAcked) →
          tryMidSessionRetry s.ring smallRing.overflowPolicy (some connected) = (wire, .ok payload) →
          wire = s.read.drop s.server.upstreamBytesAcked) ↔
        (∀ event ∈ [Event.serverSends [0], .firstChunk 1, .relay [1, 2] none, .relay [3, 4, 5] none, .forward 1,
            .uplinkError], event.inRing smallRing) ∨
          s.server.upstreamBytesAcked < ring.oldestOffset ∨ ring.totalSent < s.server.upstreamBytesAcked) := by
  have hrun : Run (Session.step smallRing) (fun _ _ => True) (Session.initial smallRing) [Event.serverSends [0],
      .firstChunk 1, .relay [1, 2] none, .relay [3, 4, 5] none, .forward 1, .uplinkError] _ := run_of_foldlM rfl
  exact ⟨_, _, rfl, rfl, retry_continues_stream_iff hrun rfl⟩

/-- Soft overflow: four bytes of room, a chunk of five that is sent and not kept, then six more. The retry sends the
last of the six. -/
def oversizedChunk : List Event :=
  [.serverSends [0], .firstChunk 1, .relay [1, 2, 3, 4, 5] none, .relay [6, 7] none, .relay [8, 9] none,
    .relay [10, 11] none, .forward 5, .uplinkError, .abortDownlink, .retry (.hit .engaged .engaged []), .forward 1]

theorem oversized_chunk_skips_bytes :
    (oversizedChunk.foldlM (Session.step smallRing) (Session.initial smallRing)).map
      (fun s => (s.phase, s.read, s.server.received)) =
      some (.relaying, [1, 2, 3, 4, 5, 6, 7, 8, 9, 10, 11], [1, 2, 3, 4, 5, 11]) := by
  decide

/-! ### The target receives the client's stream -/

/-- Everything that arrives or is on its way is what was read from the client, in order. -/
structure Sent (s : Session) : Prop where
  isPrefix : s.server.received ++ s.wire <+: s.read
  whole : s.sending → s.server.received ++ s.wire = s.read

theorem sent_initial (config : RelayConfig) : Sent (Session.initial config) :=
  ⟨List.nil_prefix, fun _ => rfl⟩

theorem Sent.rest (h : Sent s) (hacked : s.server.upstreamBytesAcked = s.server.received.length) :
    s.server.received ++ s.read.drop s.server.upstreamBytesAcked = s.read := by
  rw [hacked]
  exact prefix_iff_eq_append.mp ((prefix_append _ _).trans h.isPrefix)

theorem Sent.quiet (h : Sent s) (hquiet : Quiet s next) : Sent next := by
  refine ⟨?_, ?_⟩
  · rw [hquiet.sent, hquiet.read]
    exact h.isPrefix
  · intro hsending
    rw [hquiet.sent, hquiet.read]
    exact h.whole (hquiet.sending hsending)

theorem sent_sendOn (h : s.server.received ++ s.wire ++ chunk = s.read) (fate : Fate) :
    Sent (s.sendOn chunk fate) := by
  cases fate with
  | none =>
    have hwhole : s.server.received ++ (s.wire ++ chunk) = s.read := by rw [← append_assoc, h]
    exact ⟨hwhole ▸ prefix_refl _, fun _ => hwhole⟩
  | some n =>
    refine ⟨?_, ?_⟩
    · change s.server.received ++ (s.wire ++ chunk.take n) <+: s.read
      rw [← h, ← append_assoc]
      exact (prefix_append_right_inj _).mpr (List.take_prefix n chunk)
    · rintro (hphase | hphase) <;> cases hphase

theorem Sent.relay (h : Sent s) (htracks : Tracks config events s)
    (hfits : chunk.length ≤ config.retryBufferBytes) (hstep : s.relay config chunk fate = some next) : Sent next := by
  obtain ⟨hphase, -, ring, -, hnext⟩ := Session.relay_cases hstep
  have hwhole : s.server.received ++ s.wire ++ chunk = s.read ++ chunk := by rw [h.whole (.inr hphase)]
  rcases hnext with rfl | ⟨-, old, error, hring, hpush⟩
  · exact sent_sendOn hwhole fate
  · have hlarge := push_error_iff.mp ⟨error, hpush⟩
    rw [htracks.capacity old hring] at hlarge
    omega

theorem Sent.retried (h : Sent s) (hacked : s.server.upstreamBytesAcked = s.server.received.length)
    {ring : ClientUpstreamRingBuffer} (hring : s.ring = some ring) (hmirrors : ring.Mirrors s.read)
    (downlinkReplay : Negotiated) (sends : List Fate) :
    Sent (s.retried config (.hit .engaged downlinkReplay sends)) := by
  have hrest := h.rest hacked
  unfold Session.retried
  rw [hring]
  simp only [Session.redialled]
  generalize hconnected : Redialled.mk _ _ _ = connected
  have hack : connected.ackPrefix = some (some s.server.upstreamBytesAcked) := by rw [← hconnected]
  have hwire := tryMidSessionRetry_wire config.overflowPolicy hmirrors hack
  rcases hretry : tryMidSessionRetry (some ring) config.overflowPolicy (some connected) with ⟨wire, result⟩
  rw [hretry] at hwire
  cases result with
  | error error =>
    refine ⟨?_, ?_⟩
    · grind [prefix_append_right_inj]
    · rintro (hphase | hphase) <;> cases hphase
  | ok payload =>
    have hwhole : s.server.received ++ wire = s.read := by
      have heq : wire = _ := (hwire.2 ⟨payload, rfl⟩).2
      rw [heq, hrest]
    exact ⟨hwhole ▸ prefix_refl _, fun _ => hwhole⟩

def Event.reported : Event → Bool
  | .retry (.hit ackPrefix _ _) => ackPrefix = .engaged
  | _ => true

def ThroughRing (config : RelayConfig) (_ : Session) (event : Event) : Prop :=
  event.inRing config ∧ event.reported

instance (config : RelayConfig) (s : Session) (event : Event) : Decidable (ThroughRing config s event) :=
  inferInstanceAs (Decidable (_ ∧ _))

theorem sent_run (hrun : Run (Session.step config) (ThroughRing config) (Session.initial config) events s) :
    (∀ event ∈ events, event.inRing config) ∧ Sent s := by
  induction hrun with
  | refl => exact ⟨by simp, sent_initial config⟩
  | @snoc events s next event hrun hallowed hstep ih =>
    obtain ⟨hin, hsent⟩ := ih
    have htracks := tracks_run hrun
    refine ⟨forall_mem_snoc hin hallowed.1, ?_⟩
    cases event with
    | chunk0 chunk fate => cases hallowed.1
    | relay chunk fate => exact hsent.relay htracks (of_decide_eq_true hallowed.1) hstep
    | retry redial =>
      obtain ⟨heligible, budget, rfl⟩ := Session.retry_eq hstep
      cases redial with
      | refused =>
        refine ⟨hsent.isPrefix, ?_⟩
        rintro (hphase | hphase) <;> cases hphase
      | hit ackPrefix downlinkReplay sends =>
        obtain rfl : ackPrefix = .engaged := of_decide_eq_true hallowed.2
        obtain ⟨ring, hring⟩ := Option.isSome_iff_exists.mp (htracks.eligible.trans heligible)
        have hmirrors := htracks.mirrors ring hring
        rw [ringed_eq_payload hin, ← htracks.read] at hmirrors
        have hbudget : Sent { s with budget := budget } := ⟨hsent.isPrefix, hsent.whole⟩
        exact hbudget.retried htracks.acked hring hmirrors downlinkReplay sends
    | _ => exact hsent.quiet (quiet_step hstep rfl)

def Event.relayed : Event → List Bytes
  | .relay chunk _ => [chunk]
  | _ => []

theorem ringed_eq_relayed (hin : ∀ event ∈ events, event.inRing config) :
    events.flatMap (Event.ringed config) = events.flatMap Event.relayed := by
  refine flatMap_congr ?_
  intro event hevent
  cases event with
  | relay chunk fate =>
    have hfits : chunk.length ≤ config.retryBufferBytes := of_decide_eq_true (hin _ hevent)
    simp [Event.ringed, Event.relayed, hfits]
  | _ => rfl

def resumedUplink : List Event :=
  [.serverSends [0], .firstChunk 1, .relay [1, 2] none, .relay [3] (some 0), .forward 1, .abortDownlink,
    .retry (.hit .engaged .engaged []), .forward 2]

end Tracks

end OutlineProxy.Socks
