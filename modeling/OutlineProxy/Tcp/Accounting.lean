import Mathlib.Data.List.Pairwise
import OutlineProxy.Tcp.Scoreboard
import OutlineProxy.Tcp.SendQueue

/-! The in-flight accounting against the full scan: what the scan computes, and what sending,
acknowledging and resending do to the running counters. -/

namespace OutlineProxy.Tcp

open List Serial Spans

def inPipe (board : List SequenceRange) (segments : List ServerSegment) : List ServerSegment :=
  segments.filter fun segment => !segmentIsSackedIn board segment

def sendTimes (segments : List ServerSegment) : List Instant := segments.map ServerSegment.lastSent

section Scan

variable {board : List SequenceRange} {segments rest : List ServerSegment} {segment : ServerSegment}

theorem inPipe_append : inPipe board (segments ++ rest) = inPipe board segments ++ inPipe board rest :=
  filter_append ..

theorem inPipe_cons : inPipe board (segment :: rest) =
    if segmentIsSackedIn board segment then inPipe board rest else segment :: inPipe board rest := by
  by_cases hs : segmentIsSackedIn board segment = true <;> simp [inPipe, hs]

theorem min?_append_singleton (times : List Instant) (t : Instant) :
    (times ++ [t]).min? = some (match times.min? with
      | some current => min current t
      | none => t) := by
  cases times with
  | nil => rfl
  | cons head tail =>
    change some ((tail ++ [t]).foldl min head) = some (min (tail.foldl min head) t)
    rw [foldl_append]
    rfl

theorem pairwise_append_singleton {times : List Instant} {t : Instant} :
    (times ++ [t]).Pairwise (· ≤ ·) ↔ times.Pairwise (· ≤ ·) ∧ ∀ last ∈ times.getLast?, last ≤ t := by
  rw [pairwise_append]
  constructor
  · grind [mem_of_getLast?]
  · rintro ⟨hp, hlast⟩
    refine ⟨hp, pairwise_singleton _ _, fun x hx y hy => ?_⟩
    obtain rfl := mem_singleton.1 hy
    exact (hp.rel_getLast hx).trans (hlast _ (getLast?_eq_some_getLast (ne_nil_of_mem hx)))

structure ScanSpec (segments : List ServerSegment) (board : List SequenceRange)
    (scan : UnackedAccounting) : Prop where
  pipeBytes : scan.pipeBytes = ((inPipe board segments).map serverSegmentLen).sum
  pipeSegments : scan.pipeSegments = (inPipe board segments).length
  earliest : scan.earliest = (sendTimes (inPipe board segments)).min?
  previousSent : scan.previousSent = (sendTimes segments).getLast?
  reordered : scan.reordered = true ↔ ¬(sendTimes segments).Pairwise (· ≤ ·)

theorem ScanSpec.step {scan : UnackedAccounting} (h : ScanSpec segments board scan) :
    ScanSpec (segments ++ [segment]) board (accountSegment board scan segment) := by
  have htimes : sendTimes (segments ++ [segment]) = sendTimes segments ++ [segment.lastSent] := by
    simp [sendTimes]
  have hprevious : (sendTimes (segments ++ [segment])).getLast? = some segment.lastSent := by
    simp [htimes]
  have hreordered : (scan.reordered || scan.previousSent.any fun previous =>
      decide (segment.lastSent < previous)) = true ↔ ¬(sendTimes (segments ++ [segment])).Pairwise (· ≤ ·) := by
    rw [htimes, pairwise_append_singleton, Bool.or_eq_true, h.reordered, h.previousSent, not_and_or]
    cases (sendTimes segments).getLast? <;> simp
  by_cases hsacked : segmentIsSackedIn board segment = true
  · have hpipe : inPipe board (segments ++ [segment]) = inPipe board segments := by
      rw [inPipe_append, inPipe_cons, if_pos hsacked]
      exact append_nil _
    simp only [accountSegment, if_pos hsacked]
    exact ⟨hpipe ▸ h.pipeBytes, hpipe ▸ h.pipeSegments, hpipe ▸ h.earliest, hprevious.symm, hreordered⟩
  · have hpipe : inPipe board (segments ++ [segment]) = inPipe board segments ++ [segment] := by
      rw [inPipe_append, inPipe_cons, if_neg hsacked]
      rfl
    simp only [accountSegment, if_neg hsacked]
    refine ⟨?_, ?_, ?_, hprevious.symm, hreordered⟩
    · simp [hpipe, h.pipeBytes]
    · simp [hpipe, h.pipeSegments]
    · rw [hpipe, sendTimes, map_append, map_singleton, min?_append_singleton, h.earliest]
      rfl

theorem unackedAccountingSnapshot_spec (segments : List ServerSegment) (board : List SequenceRange) :
    ScanSpec segments board (unackedAccountingSnapshot segments board) := by
  induction segments using reverseRecOn with
  | nil => exact ⟨rfl, rfl, rfl, rfl, by simp [unackedAccountingSnapshot, sendTimes]⟩
  | append_singleton segments segment ih =>
    rw [unackedAccountingSnapshot, foldl_append]
    exact ih.step

structure Exact (state : TcpFlowState) : Prop where
  pipeBytes : state.pipeBytes =
    (unackedAccountingSnapshot state.unackedServerSegments state.sackScoreboard).pipeBytes
  pipeSegments : state.pipeSegments =
    (unackedAccountingSnapshot state.unackedServerSegments state.sackScoreboard).pipeSegments
  earliest : state.earliestUnsackedSent =
    (unackedAccountingSnapshot state.unackedServerSegments state.sackScoreboard).earliest
  reordered : ¬(sendTimes state.unackedServerSegments).Pairwise (· ≤ ·) → state.unackedReordered = true

theorem exact_iff {state : TcpFlowState} :
    Exact state ↔ state.pipeBytes =
        ((inPipe state.sackScoreboard state.unackedServerSegments).map serverSegmentLen).sum ∧
      state.pipeSegments = (inPipe state.sackScoreboard state.unackedServerSegments).length ∧
      state.earliestUnsackedSent = (sendTimes (inPipe state.sackScoreboard state.unackedServerSegments)).min? ∧
      (¬(sendTimes state.unackedServerSegments).Pairwise (· ≤ ·) → state.unackedReordered = true) := by
  have hscan := unackedAccountingSnapshot_spec state.unackedServerSegments state.sackScoreboard
  rw [← hscan.pipeBytes, ← hscan.pipeSegments, ← hscan.earliest]
  exact ⟨fun h => ⟨h.pipeBytes, h.pipeSegments, h.earliest, h.reordered⟩,
    fun ⟨hbytes, hsegments, hearliest, hreordered⟩ => ⟨hbytes, hsegments, hearliest, hreordered⟩⟩

theorem exact_rebuildUnackedAccounting (state : TcpFlowState) : Exact (rebuildUnackedAccounting state) :=
  ⟨rfl, rfl, rfl, (unackedAccountingSnapshot_spec state.unackedServerSegments state.sackScoreboard).reordered.2⟩

theorem earliest_of_pairwise (h : (sendTimes segments).Pairwise (· ≤ ·)) :
    (segments.find? fun segment => !segmentIsSackedIn board segment).map ServerSegment.lastSent =
      (sendTimes (inPipe board segments)).min? := by
  have hsorted : (sendTimes (inPipe board segments)).Pairwise (· ≤ ·) := h.sublist (filter_sublist.map _)
  rw [min?_eq_head? (hsorted.imp fun h => min_eq_left h), sendTimes, inPipe, head?_map, head?_filter]

end Scan

def PipeCounts (board : List SequenceRange) (segments : List ServerSegment) (bytes count : Nat) : Prop :=
  bytes = ((inPipe board segments).map serverSegmentLen).sum ∧ count = (inPipe board segments).length

/-- The pop loop with its subtractions checked: `none` where one would go below zero. -/
def popAckedChecked (acknowledgementNumber : UInt32) (clock : Clock) (i : Nat) :
    List ServerSegment → TcpFlowState → PopSamples → Option (TcpFlowState × PopSamples)
  | [], state, samples => some ({ state with unackedServerSegments := [] }, samples)
  | segment :: rest, state, samples =>
    if !seqGe acknowledgementNumber (serverSegmentEnd segment) then
      some ({ state with unackedServerSegments := segment :: rest }, samples)
    else
      let segmentLen := serverSegmentLen segment
      let sacked := segmentIsSackedIn state.sackScoreboard segment
      if !sacked && (decide (state.pipeBytes < segmentLen) || decide (state.pipeSegments < 1)) then none
      else
        let state :=
          if sacked then state
          else { state with
            pipeBytes := state.pipeBytes - segmentLen
            pipeSegments := state.pipeSegments - 1 }
        let state := { state with firstTxMstamp := max state.firstTxMstamp segment.lastSent }
        let samples := { samples with bytesAcked := satAdd samples.bytesAcked segmentLen }
        if segment.retransmits = 0 then
          if clock.reading i < segment.firstSent || segment.firstSent < segment.firstTxSnapshot then none
          else
            let samples := { samples with
              rttSample := some (clock.reading i - segment.firstSent)
              rateSample := samples.rateSample.or (some
                { priorDelivered := segment.deliveredSnapshot
                  priorMstamp := segment.deliveredAtSnapshot
                  sendInterval := segment.firstSent - segment.firstTxSnapshot
                  appLimited := segment.appLimited }) }
            popAckedChecked acknowledgementNumber clock (i + 1) rest state samples
        else popAckedChecked acknowledgementNumber clock i rest state samples

section Pop

variable {ack : UInt32} {clock : Clock} {state : TcpFlowState} {segment : ServerSegment}
  {segments rest : List ServerSegment} {board : List SequenceRange}

theorem PipeCounts.pop {bytes count : Nat} (h : PipeCounts board (segment :: rest) bytes count) :
    if segmentIsSackedIn board segment then PipeCounts board rest bytes count
    else serverSegmentLen segment ≤ bytes ∧ 1 ≤ count ∧
      PipeCounts board rest (bytes - serverSegmentLen segment) (count - 1) := by
  obtain ⟨hbytes, hcount⟩ := h
  rw [inPipe_cons] at hbytes hcount
  split_ifs at hbytes hcount ⊢
  · exact ⟨hbytes, hcount⟩
  · rw [map_cons, sum_cons] at hbytes
    rw [length_cons] at hcount
    exact ⟨by omega, by omega, by omega, by omega⟩

def popSegment (state : TcpFlowState) (segment : ServerSegment) : TcpFlowState :=
  let state :=
    if segmentIsSackedIn state.sackScoreboard segment then state
    else { state with
      pipeBytes := state.pipeBytes - serverSegmentLen segment
      pipeSegments := state.pipeSegments - 1 }
  { state with firstTxMstamp := max state.firstTxMstamp segment.lastSent }

theorem popSegment_eq (state : TcpFlowState) (segment : ServerSegment) :
    popSegment state segment = { state with
        pipeBytes := (popSegment state segment).pipeBytes
        pipeSegments := (popSegment state segment).pipeSegments
        firstTxMstamp := max state.firstTxMstamp segment.lastSent } := by
  simp only [popSegment]
  split <;> rfl

theorem PipeCounts.popSegment
    (h : PipeCounts state.sackScoreboard (segment :: rest) state.pipeBytes state.pipeSegments) :
    PipeCounts (popSegment state segment).sackScoreboard rest (popSegment state segment).pipeBytes
      (popSegment state segment).pipeSegments := by
  have hpop := h.pop
  simp only [Tcp.popSegment]
  split_ifs at hpop ⊢
  · exact hpop
  · exact hpop.2.2

theorem popAcked_cons (i : Nat) (samples : PopSamples) (hreach : seqGe ack (serverSegmentEnd segment) = true) :
    ∃ j samples', popAcked ack clock i (segment :: rest) state samples =
      popAcked ack clock j rest (popSegment state segment) samples' := by
  rw [popAcked, if_neg (by simp [hreach])]
  by_cases hfresh : segment.retransmits = 0
  · exact ⟨_, _, if_pos hfresh⟩
  · exact ⟨_, _, if_neg hfresh⟩

theorem popAcked_spec (i : Nat) (samples : PopSamples)
    (h : PipeCounts state.sackScoreboard segments state.pipeBytes state.pipeSegments) :
    ∃ rest bytes count stamp, rest <:+ segments ∧ PipeCounts state.sackScoreboard rest bytes count ∧
      (∀ segment ∈ rest.head?, seqGe ack (serverSegmentEnd segment) = false) ∧
      (∀ bound, state.firstTxMstamp ≤ bound → (∀ s ∈ segments, s.lastSent ≤ bound) → stamp ≤ bound) ∧
      (popAcked ack clock i segments state samples).1 = { state with
          unackedServerSegments := rest
          pipeBytes := bytes
          pipeSegments := count
          firstTxMstamp := stamp } := by
  induction segments generalizing state samples i with
  | nil => exact ⟨[], _, _, _, suffix_refl _, h, by simp, fun _ hs _ => hs, rfl⟩
  | cons segment tail ih =>
    by_cases hreach : seqGe ack (serverSegmentEnd segment) = true
    · obtain ⟨j, samples', hstep⟩ := @popAcked_cons ack clock state segment tail i samples hreach
      obtain ⟨rest, bytes, count, stamp, hsuffix, hcounts, hhead, hstamp, hresult⟩ := ih j samples' h.popSegment
      have heq := popSegment_eq state segment
      rw [heq] at hcounts hstamp hresult
      refine ⟨rest, bytes, count, stamp, hsuffix.trans (suffix_cons segment tail), hcounts, hhead,
        fun bound hfirst hsent => ?_, ?_⟩
      · exact hstamp bound (max_le hfirst (hsent segment (by simp))) fun s hs => hsent s (by simp [hs])
      · rw [hstep, heq, hresult]
    · simp_all [popAcked]

theorem popAckedChecked_eq (i : Nat) (samples : PopSamples)
    (h : PipeCounts state.sackScoreboard segments state.pipeBytes state.pipeSegments)
    (htimes : ∀ s ∈ segments, s.firstTxSnapshot ≤ s.firstSent ∧ s.firstSent ≤ clock.start) :
    popAckedChecked ack clock i segments state samples = some (popAcked ack clock i segments state samples) := by
  induction segments generalizing state samples i with
  | nil => rfl
  | cons segment tail ih =>
    have hstart := clock.start_le i
    have hrest := fun s hs => htimes s (mem_cons_of_mem segment hs)
    have hroom : (!segmentIsSackedIn state.sackScoreboard segment &&
        (decide (state.pipeBytes < serverSegmentLen segment) || decide (state.pipeSegments < 1))) = false := by
      have hpop := h.pop
      split_ifs at hpop with hsacked
      · simp [hsacked]
      · grind
    have hclock : (decide (clock.reading i < segment.firstSent) ||
        decide (segment.firstSent < segment.firstTxSnapshot)) = false := by grind [Bool.or_eq_false_iff]
    rw [popAckedChecked, popAcked]
    by_cases hreach : (!seqGe ack (serverSegmentEnd segment)) = true
    · rw [if_pos hreach, if_pos hreach]
    · rw [if_neg hreach, if_neg hreach]
      by_cases hfresh : segment.retransmits = 0
      · simp only [hroom, hclock, hfresh, Bool.false_eq_true, if_false, if_true]
        exact ih _ _ h.popSegment hrest
      · simp only [hroom, hfresh, Bool.false_eq_true, if_false]
        exact ih _ _ h.popSegment hrest

end Pop

structure Positions where
  serverSeq : UInt32
  lastClientAck : UInt32
  segments : List ServerSegment
  board : List SequenceRange

def TcpFlowState.positions (state : TcpFlowState) : Positions :=
  ⟨state.serverSeq, state.lastClientAck, state.unackedServerSegments, state.sackScoreboard⟩

/-- The flow has sent up to position `sent` and holds the acknowledgement of `acked`.  Every number
it tracks lies less than half the number space before `limit`. -/
structure Tracked (origin : UInt32) (limit sent acked : Nat) (spans : List (Nat × Nat))
    (p : Positions) : Prop where
  far : 2 ^ 31 ≤ sent
  sent_le : sent ≤ limit
  serverSeq : p.serverSeq = point origin sent
  lastClientAck : p.lastClientAck = point origin acked
  acked_near : limit < acked + 2 ^ 31
  acked_le : acked ≤ sent
  queue : ∃ base, limit < base + 2 ^ 31 ∧
    Chain origin (fun k s => acked < k + serverSegmentLen s) base p.segments sent
  board : p.board = toBoard origin spans
  apart : Separated spans
  proper : ∀ s ∈ spans, Proper (limit + 1 - 2 ^ 31) sent s

structure Timed (now : Instant) (state : TcpFlowState) : Prop where
  firstTx : state.firstTxMstamp ≤ now
  segments : ∀ s ∈ state.unackedServerSegments,
    s.firstTxSnapshot ≤ s.firstSent ∧ s.firstSent ≤ now ∧ s.lastSent ≤ now

section Tracked

variable {origin : UInt32} {limit sent acked k : Nat} {spans : List (Nat × Nat)} {p : Positions}
  {segment : ServerSegment}

section

variable (h : Tracked origin limit sent acked spans p)

include h

theorem Tracked.proper_le : ∀ s ∈ spans, Proper (limit + 1 - 2 ^ 31) limit s := by
  intro s hs
  obtain ⟨hlo, hne, hhi⟩ := h.proper s hs
  exact ⟨hlo, hne, hhi.trans h.sent_le⟩

theorem Tracked.sacked_iff (hseq : segment.sequenceNumber = point origin k) (hpos : 0 < serverSegmentLen segment)
    (hnear : limit < k + 2 ^ 31) (hstop : k + serverSegmentLen segment ≤ limit) :
    segmentIsSackedIn p.board segment = true ↔ Covers spans k (k + serverSegmentLen segment) := by
  rw [segmentIsSackedIn, serverSegmentEnd_point hseq, hseq, h.board,
    rangeFullyCovered_toBoard (by omega) h.proper_le (by omega) (by omega) hstop, covered_iff h.apart (by omega)]

theorem Tracked.not_sacked (hseq : segment.sequenceNumber = point origin k) (hpos : 0 < serverSegmentLen segment)
    (hk : sent ≤ k) (hstop : k + serverSegmentLen segment ≤ limit) :
    segmentIsSackedIn p.board segment = false := by
  have hnear : limit < k + 2 ^ 31 := by
    have := h.acked_near
    have := h.acked_le
    omega
  rw [← Bool.not_eq_true, h.sacked_iff hseq hpos hnear hstop]
  rintro ⟨s, hs, -, hend⟩
  have hproper := h.proper s hs
  have := hproper.2.2
  omega

end

end Tracked

/-- What one write of new segments does to a flow: `bytes` numbers from position `sent` on are
queued at `sentAt` and charged to the pipe. -/
structure Sends (origin : UInt32) (sent bytes : Nat) (sentAt : Instant) (s t : TcpFlowState) : Prop where
  serverSeq : t.serverSeq = s.serverSeq + UInt32.ofNat bytes
  lastClientAck : t.lastClientAck = s.lastClientAck
  board : t.sackScoreboard = s.sackScoreboard
  reordered : t.unackedReordered = s.unackedReordered
  earliest : t.earliestUnsackedSent = s.earliestUnsackedSent.or (some sentAt)
  pipeBytes : t.pipeBytes = s.pipeBytes + bytes
  firstTx : t.firstTxMstamp = s.firstTxMstamp ∨ t.firstTxMstamp = sentAt
  segments : ∃ fresh, fresh ≠ [] ∧ t.unackedServerSegments = s.unackedServerSegments ++ fresh ∧
    t.pipeSegments = s.pipeSegments + fresh.length ∧
    Chain origin (fun _ x => x.lastSent = sentAt ∧ x.firstSent = sentAt ∧ x.firstTxSnapshot = t.firstTxMstamp)
      sent fresh (sent + bytes)

theorem min?_append_const {times fresh : List Instant} {t : Instant} (hne : fresh ≠ [])
    (hle : ∀ x ∈ times, x ≤ t) (heq : ∀ x ∈ fresh, x = t) : (times ++ fresh).min? = times.min?.or (some t) := by
  obtain ⟨first, hfirst⟩ := exists_mem_of_ne_nil fresh hne
  cases hmin : times.min? with
  | none =>
    obtain rfl := min?_eq_none_iff.1 hmin
    refine min?_eq_some_iff.2 ⟨?_, fun x hx => (heq x (by simpa using hx)).ge⟩
    rw [← heq first hfirst]
    simpa using hfirst
  | some m =>
    obtain ⟨hm, hall⟩ := min?_eq_some_iff.1 hmin
    refine min?_eq_some_iff.2 ⟨mem_append_left _ hm, fun x hx => ?_⟩
    rcases mem_append.1 hx with hx | hx
    · exact hall x hx
    · exact (hle m hm).trans (heq x hx).ge

section Send

variable {origin : UInt32} {limit sent acked bytes : Nat} {spans : List (Nat × Nat)} {now sentAt : Instant}
  {s t : TcpFlowState}

section

variable (hsends : Sends origin sent bytes sentAt s t)

include hsends

theorem Sends.tracked (h : Tracked origin limit sent acked spans s.positions) (hlimit : sent + bytes ≤ limit) :
    Tracked origin limit (sent + bytes) acked spans t.positions := by
  obtain ⟨fresh, -, hqueue, -, hchain⟩ := hsends.segments
  obtain ⟨base, hbase, hold⟩ := h.queue
  have hacked := h.acked_le
  refine ⟨h.far.trans (Nat.le_add_right _ _), hlimit, ?_, hsends.lastClientAck.trans h.lastClientAck,
    h.acked_near, by omega, ⟨base, hbase, ?_⟩, hsends.board.trans h.board, h.apart, fun x hx => ?_⟩
  · rw [point_add]
    exact hsends.serverSeq.trans (congrArg (· + UInt32.ofNat bytes) h.serverSeq)
  · change Chain origin _ base t.unackedServerSegments _
    rw [hqueue]
    exact hold.append (hchain.mono_ge fun k x hk hpos _ => by omega)
  · obtain ⟨hlo, hne, hhi⟩ := h.proper x hx
    exact ⟨hlo, hne, by omega⟩

theorem Sends.timed (h : Timed now s) (hnow : now ≤ sentAt) :
    Timed sentAt t := by
  obtain ⟨fresh, -, hqueue, -, hchain⟩ := hsends.segments
  have hfirst : t.firstTxMstamp ≤ sentAt := by
    rcases hsends.firstTx with he | he
    · exact he ▸ h.firstTx.trans hnow
    · exact he.le
  refine ⟨hfirst, fun x hx => ?_⟩
  rw [hqueue] at hx
  rcases mem_append.1 hx with hx | hx
  · have hsegments := h.segments
    grind
  · obtain ⟨_, -, -, -, hlast, hsent, hsnapshot⟩ := hchain.mem hx
    exact ⟨by rw [hsnapshot, hsent]; exact hfirst, hsent.le, hlast.le⟩

theorem Sends.exact (h : Tracked origin limit sent acked spans s.positions) (htimed : Timed now s) (hnow : now ≤ sentAt)
    (hexact : Exact s) (hlimit : sent + bytes ≤ limit) : Exact t := by
  obtain ⟨fresh, hne, hqueue, hcount, hchain⟩ := hsends.segments
  obtain ⟨hbytes, hsegments, hearliest, hreordered⟩ := exact_iff.1 hexact
  have hunsacked : inPipe s.sackScoreboard fresh = fresh := by
    refine filter_eq_self.2 fun x hx => ?_
    obtain ⟨k, hk, hstop, hseq, -⟩ := hchain.mem hx
    rw [Bool.not_eq_true']
    exact h.not_sacked hseq (hchain.len_pos hx) hk (hstop.trans hlimit)
  have hpipe : inPipe t.sackScoreboard t.unackedServerSegments =
      inPipe s.sackScoreboard s.unackedServerSegments ++ fresh := by
    rw [hsends.board, hqueue, inPipe_append, hunsacked]
  have hfresh : ∀ x ∈ sendTimes fresh, x = sentAt := by
    intro x hx
    obtain ⟨y, hy, rfl⟩ := mem_map.1 hx
    obtain ⟨_, -, -, -, hlast, -⟩ := hchain.mem hy
    exact hlast
  have hold : ∀ x ∈ sendTimes s.unackedServerSegments, x ≤ sentAt := by
    intro x hx
    obtain ⟨y, hy, rfl⟩ := mem_map.1 hx
    exact (htimed.segments y hy).2.2.trans hnow
  refine exact_iff.2 ⟨?_, ?_, ?_, fun hnot => ?_⟩
  · have hsum := hchain.sum_len
    rw [hpipe, hsends.pipeBytes, hbytes, map_append, sum_append]
    omega
  · rw [hpipe, hcount, hsegments, length_append]
  · rw [hpipe, hsends.earliest, hearliest, sendTimes, sendTimes, map_append]
    refine (min?_append_const (by simpa [sendTimes] using hne) (fun x hx => ?_) hfresh).symm
    exact hold x (List.Sublist.subset (filter_sublist.map _) hx)
  · have hreordered := hsends.reordered
    grind [sendTimes, pairwise_of_forall_mem_list]

end

theorem emitServerData_sends {payload : List Bytes} (hseq : s.serverSeq = point origin sent)
    (hne : 0 < chunksLen payload) {mss : Nat} (hmss : 0 < mss) (pacing : Bool) (available : Nat) :
    Sends origin sent (chunksLen payload) sentAt s
      (emitServerData s payload pacing mss available sentAt).1 := by
  have hcut : ∀ template : ServerSegment, template.flags.syn = false → template.flags.fin = false →
      Chain origin (fun k x => ∃ offset stop, CutPiece template payload mss sent offset stop k x) sent
        (cutSegments template payload mss (chunksLen payload) 0 s.serverSeq) (sent + chunksLen payload) := by
    intro template hsyn hfin
    rw [hseq]
    exact cutSegments_cut origin sent hmss hsyn hfin (chunksLen payload) 0 (Nat.zero_le _) (Nat.le_add_left _ _)
  have hnil : ∀ template : ServerSegment, template.flags.syn = false → template.flags.fin = false →
      cutSegments template payload mss (chunksLen payload) 0 s.serverSeq ≠ [] := by
    intro template hsyn hfin hnil
    have hsum := (hcut template hsyn hfin).sum_len
    rw [hnil] at hsum
    simp at hsum
    omega
  have hpiece : ∀ template : ServerSegment, ∀ k x,
      (∃ offset stop, CutPiece template payload mss sent offset stop k x) →
      x.lastSent = template.lastSent ∧ x.firstSent = template.firstSent ∧
        x.firstTxSnapshot = template.firstTxSnapshot := by
    rintro template k x ⟨offset, stop, hx⟩
    rw [hx.eq]
    exact ⟨rfl, rfl, rfl⟩
  unfold emitServerData pushUnackedSegments resetZeroWindowPersist
  dsimp only
  by_cases hidle : s.pipeSegments = 0
  · rw [if_pos hidle]
    exact ⟨rfl, rfl, rfl, rfl, rfl, rfl, .inr rfl, _, hnil _ rfl rfl, rfl, rfl, (hcut _ rfl rfl).mono (hpiece _)⟩
  · rw [if_neg hidle]
    exact ⟨rfl, rfl, rfl, rfl, rfl, rfl, .inl rfl, _, hnil _ rfl rfl, rfl, rfl, (hcut _ rfl rfl).mono (hpiece _)⟩

theorem maybeEmitServerFin_sends (hseq : s.serverSeq = point origin sent) (clock : Clock) :
    (maybeEmitServerFin s clock).1 = s ∨
      Sends origin sent 1 (clock.reading 1) s (maybeEmitServerFin s clock).1 := by
  unfold maybeEmitServerFin
  split
  · exact .inl rfl
  · right
    dsimp only
    obtain ⟨timestamps, hstatus⟩ := setFlowStatus_eq
      { s with serverSeq := s.serverSeq + 1, serverFinPending := false } (finStatus s.status) (clock.reading 0)
    rw [hstatus]
    refine ⟨rfl, rfl, rfl, rfl, rfl, rfl, .inl rfl, [_], cons_ne_nil _ _, rfl, rfl, ?_⟩
    exact .cons hseq Nat.one_pos ⟨rfl, rfl, rfl⟩ (.nil _)

end Send

end OutlineProxy.Tcp
