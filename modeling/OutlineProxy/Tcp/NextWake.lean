import OutlineProxy.Tcp.Accounting

/-! What is due when a flow is planned is acted on, so that the deadline the planner waits for lies ahead. -/

namespace OutlineProxy.Tcp

open Option

variable {state : TcpFlowState} {tcp : TunTcpConfig} {idleTimeout : Duration} {now reading deadline : Instant}
  {clock : Clock} {x y : Option Instant}

def Upcoming (now : Instant) (timer : Option Instant) : Prop :=
  ∀ deadline ∈ timer, now < deadline

theorem upcoming_of_not_due (h : ¬(x.any fun deadline => decide (deadline ≤ now)) = true) : Upcoming now x := by
  intro deadline hx
  cases hx
  simpa using h

theorem upcoming_some : Upcoming now (some deadline) ↔ now < deadline := by
  simp [Upcoming]

theorem Upcoming.earlier (hx : Upcoming now x) (hy : Upcoming now y) : Upcoming now (earlier x y) := by
  cases x with
  | none => exact hy
  | some a =>
    cases y with
    | none => exact hx
    | some b => exact upcoming_some.2 (lt_min (upcoming_some.1 hx) (upcoming_some.1 hy))

theorem Upcoming.foldl {timers : List (Option Instant)} (hx : Upcoming now x)
    (h : ∀ timer ∈ timers, Upcoming now timer) :
    Upcoming now (timers.foldl Tcp.earlier x) := by
  induction timers generalizing x with
  | nil => exact hx
  | cons timer rest ih =>
    apply ih (hx.earlier (h timer (by simp)))
    intro later hlater
    exact h later (by simp [hlater])

theorem upcoming_bound {c : Prop} [Decidable c] {now since timeout : Nat} (h : c → now - since < timeout) :
    Upcoming now (if c then some (since + timeout) else none) := by
  split
  · have hlt : now < since + timeout := by
      have := h ‹c›
      omega
    exact upcoming_some.2 hlt
  · simp [Upcoming]

/-- The nine deadlines that `next_flow_deadline` takes into account; `reading` stands for a probe with no time yet. -/
def flowDeadlines (state : TcpFlowState) (tcp : TunTcpConfig) (idleTimeout : Duration) (reading : Instant) :
    List (Option Instant) :=
  [nextRetransmissionDeadline state, nextZeroWindowProbeDeadline state reading, nextPacingDeadline state,
    nextKeepaliveDeadline state tcp.keepaliveIdle tcp.keepaliveInterval, state.delayedAckDeadline,
    if state.status = .synReceived then some (state.timestamps.statusSince + tcp.handshakeTimeout) else none,
    if isHalfClosedStatus state.status then some (state.timestamps.statusSince + tcp.halfCloseTimeout) else none,
    if state.status = .timeWait then some (state.timestamps.statusSince + tcpTimeWaitTimeout) else none,
    if state.status ≠ .timeWait then some (state.timestamps.lastSeen + idleTimeout) else none]

theorem nextFlowDeadline_eq : nextFlowDeadline state tcp idleTimeout reading =
    (flowDeadlines state tcp idleTimeout reading).foldl earlier none := by
  have hnone : ∀ x, earlier x none = x := fun x => by cases x <;> rfl
  by_cases hlast : state.status = .timeWait <;>
    simp only [nextFlowDeadline, flowDeadlines, List.foldl_cons, List.foldl_nil, hlast, ne_eq, not_true_eq_false,
      not_false_eq_true, if_true, if_false, hnone] <;>
    split_ifs <;> simp only [hnone]

section Emitters

variable (hnow : now ≤ clock.start)

include hnow

theorem exists_dueRetransmitIndex (h : Exact state) (hdue : retransmitIsDue state now = true) :
    ∃ index ∈ dueRetransmitIndex state clock, index < state.unackedServerSegments.length := by
  obtain ⟨-, -, hearliest, -⟩ := exact_iff.1 h
  rw [retransmitIsDue, nextRetransmissionDeadline, hearliest, any_map, any_eq_true] at hdue
  obtain ⟨sent, hmin, hover⟩ := hdue
  -- the search comes at last to the segment whose transmission is the oldest in the pipe
  obtain ⟨oldest, hpipe, rfl⟩ := List.mem_map.1 (List.min?_mem hmin)
  obtain ⟨hmem, hunsacked⟩ := List.mem_filter.1 hpipe
  obtain ⟨place, hplace⟩ := List.mem_iff_getElem?.1 hmem
  unfold dueRetransmitIndex
  dsimp only
  cases hpreferred : (preferredRetransmitIndex state).filter _ with
  | some index =>
    refine ⟨index, rfl, ?_⟩
    obtain ⟨-, hany⟩ := filter_eq_some_iff.1 hpreferred
    obtain ⟨segment, hsegment, -⟩ := (any_eq_true _ _).1 hany
    exact (List.getElem?_eq_some_iff.1 hsegment).1
  | none =>
    have hfound : (state.unackedServerSegments.zipIdx.findIdx? fun entry =>
        !serverSegmentIsSacked state entry.1 &&
          decide (state.retransmissionTimeout ≤ clock.reading (1 + entry.2) - entry.1.lastSent)).isSome = true := by
      rw [List.findIdx?_isSome, List.any_eq_true]
      refine ⟨(oldest, place), List.mem_zipIdx_iff_getElem?.2 hplace, ?_⟩
      simp only [serverSegmentIsSacked, hunsacked, Bool.true_and, decide_eq_true_eq]
      exact Nat.le_sub_of_add_le' ((of_decide_eq_true hover).trans (hnow.trans (clock.start_le (1 + place))))
    obtain ⟨index, hindex⟩ := isSome_iff_exists.1 hfound
    refine ⟨index, hindex, ?_⟩
    obtain ⟨hlt, -⟩ := List.findIdx?_eq_some_iff_getElem.1 hindex
    simpa using hlt

theorem isSome_retransmitDueSegment (h : Exact state) (hdue : retransmitIsDue state now = true) :
    (retransmitDueSegment state clock).2.isSome = true := by
  obtain ⟨index, hindex, hlt⟩ := exists_dueRetransmitIndex hnow h hdue
  unfold retransmitDueSegment resendSegment
  rw [hindex]
  simp [List.getElem?_eq_getElem hlt]

end Emitters

theorem isSome_maybeEmitZeroWindowProbe (hdue : zeroWindowProbeIsDue state now = true) (hle : now ≤ reading)
    (hhead : ∀ rest, state.pendingServerData ≠ [] :: rest)
    (hwindow : state.clientWindow = 0 → sendWindowRemaining state = 0) :
    (maybeEmitZeroWindowProbe state reading).2.isSome = true := by
  unfold zeroWindowProbeIsDue at hdue
  split at hdue
  · cases hdue
  next hopen =>
    simp only [Bool.or_eq_true, bne_iff_ne, Bool.not_eq_true', not_or, not_not, Bool.not_eq_true,
      Bool.not_eq_false] at hopen
    obtain ⟨⟨hzero, hpending⟩, hunacked⟩ := hopen
    have hpast : ¬(state.nextZeroWindowProbeAt.any fun deadline => decide (reading < deadline)) = true := by
      intro hany
      obtain ⟨deadline, hat, hlt⟩ := (any_eq_true _ _).1 hany
      rw [hat, all_some, decide_eq_true_eq] at hdue
      exact absurd (hdue.trans hle) (not_le.2 (of_decide_eq_true hlt))
    rw [maybeEmitZeroWindowProbe, if_neg (by simp [hwindow hzero, hpending, hunacked]), if_neg hpast]
    split
    · rfl
    next hnone =>
      cases hqueue : state.pendingServerData with
      | nil => simp [hqueue] at hpending
      | cons chunk rest =>
        cases chunk with
        | nil => exact absurd hqueue (hhead rest)
        | cons probeByte tail => exact absurd hqueue (hnone probeByte tail rest)

theorem isSome_maybeEmitKeepaliveProbe
    (hdue : keepaliveProbeIsDue state tcp.keepaliveIdle tcp.keepaliveInterval now = true) (hle : now ≤ reading) :
    (maybeEmitKeepaliveProbe state tcp.keepaliveIdle tcp.keepaliveInterval reading).2.isSome = true := by
  obtain ⟨deadline, hnext, hdue⟩ := (any_eq_true _ _).1 hdue
  have hpast : ¬reading < deadline := not_lt.2 ((of_decide_eq_true hdue).trans hle)
  rw [maybeEmitKeepaliveProbe, hnext]
  simp [hpast]

theorem upcoming_nextZeroWindowProbeDeadline (h : ¬zeroWindowProbeIsDue state now = true) :
    Upcoming now (nextZeroWindowProbeDeadline state reading) := by
  unfold nextZeroWindowProbeDeadline
  split
  next hopen =>
    simp only [Bool.and_eq_true, beq_iff_eq, Bool.not_eq_true'] at hopen
    cases hat : state.nextZeroWindowProbeAt with
    | none => simp [zeroWindowProbeIsDue, hopen, hat] at h
    | some deadline =>
      rw [getD_some, upcoming_some]
      simpa [zeroWindowProbeIsDue, hopen, hat] using h
  · simp [Upcoming]

section Waiting

variable (hnow : now ≤ clock.start) (hhead : ∀ rest, state.pendingServerData ≠ [] :: rest)
  (hwindow : state.clientWindow = 0 → sendWindowRemaining state = 0)

include hnow hhead hwindow

theorem planProbes_wait {wake : Option Instant}
    (hplan : (planProbes state tcp idleTimeout now clock).plan = .wait wake) :
    (∀ reading, Upcoming now (nextZeroWindowProbeDeadline state reading)) ∧ Upcoming now (nextPacingDeadline state) ∧
      Upcoming now (nextKeepaliveDeadline state tcp.keepaliveIdle tcp.keepaliveInterval) ∧
      Upcoming now state.delayedAckDeadline ∧ ∃ reading, wake = nextFlowDeadline state tcp idleTimeout reading := by
  have hprobe : zeroWindowProbeIsDue state now = true →
      (maybeEmitZeroWindowProbe state (clock.reading 0)).2.isSome = true := fun hdue =>
    isSome_maybeEmitZeroWindowProbe hdue (hnow.trans (clock.start_le 0)) hhead hwindow
  have hkeepalive : keepaliveProbeIsDue state tcp.keepaliveIdle tcp.keepaliveInterval now = true →
      (maybeEmitKeepaliveProbe state tcp.keepaliveIdle tcp.keepaliveInterval (clock.reading 1)).2.isSome = true :=
    fun hdue => isSome_maybeEmitKeepaliveProbe hdue (hnow.trans (clock.start_le 1))
  unfold planProbes at hplan
  split at hplan
  · cases hplan
  next hpacing =>
    by_cases hpersist : zeroWindowProbeIsDue state now = true
    · obtain ⟨packet, hpacket⟩ := isSome_iff_exists.1 (hprobe hpersist)
      simp [hpersist, hpacket, committed] at hplan
    · simp only [hpersist, Bool.false_eq_true, if_false] at hplan
      split at hplan
      · cases hplan
      · by_cases halive : keepaliveProbeIsDue state tcp.keepaliveIdle tcp.keepaliveInterval now = true
        · obtain ⟨packet, hpacket⟩ := isSome_iff_exists.1 (hkeepalive halive)
          simp [halive, hpacket, committed] at hplan
        · simp only [halive, Bool.false_eq_true, if_false] at hplan
          split at hplan
          · cases hplan
          next hack =>
            cases hplan
            exact ⟨fun _ => upcoming_nextZeroWindowProbeDeadline hpersist, upcoming_of_not_due hpacing,
              upcoming_of_not_due halive, upcoming_of_not_due hack, _, rfl⟩

theorem planFlowMaintenance_wait (h : Exact state) {wake : Option Instant}
    (hplan : (planFlowMaintenance state tcp idleTimeout now clock).plan = .wait wake) :
    (∀ reading, ∀ timer ∈ flowDeadlines state tcp idleTimeout reading, Upcoming now timer) ∧
      ∃ reading, wake = nextFlowDeadline state tcp idleTimeout reading := by
  unfold planFlowMaintenance at hplan
  split at hplan
  · cases hplan
  next hwait =>
    split at hplan
    · cases hplan
    next hshake =>
      split at hplan
      · cases hplan
      next hhalf =>
        split at hplan
        · cases hplan
        next hidle =>
          by_cases hdue : retransmitIsDue state now = true
          · obtain ⟨packet, hpacket⟩ := isSome_iff_exists.1 (isSome_retransmitDueSegment hnow h hdue)
            simp only [hdue, if_true, hpacket] at hplan
            split at hplan <;> cases hplan
          · simp only [hdue, Bool.false_eq_true, if_false] at hplan
            have hstart : now ≤ (clock.drop (2 + state.unackedServerSegments.length)).start := hnow
            obtain ⟨hprobe, hpacing, halive, hack, hwake⟩ := planProbes_wait hstart hhead hwindow hplan
            simp only [timeWaitExpired, handshakeTimedOut, halfCloseTimedOut, idleTimedOut, Bool.and_eq_true,
              beq_iff_eq, bne_iff_ne, decide_eq_true_eq, not_and, not_le] at hwait hshake hhalf hidle
            refine ⟨fun reading => ?_, hwake⟩
            simp only [flowDeadlines, List.forall_mem_cons]
            exact ⟨upcoming_of_not_due hdue, hprobe reading, hpacing, halive, hack, upcoming_bound hshake,
              upcoming_bound hhalf, upcoming_bound hwait, upcoming_bound hidle, by simp⟩

end Waiting

def closedWindowFlow : TcpFlowState :=
  { sampleFlow with
    pendingServerData := [[1]]
    clientWindow := 0
    clientWindowEnd := 1000
    nextZeroWindowProbeAt := some (secs 2) }

end OutlineProxy.Tcp
