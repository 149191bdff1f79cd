import OutlineProxy.Tcp.RealAcks
import OutlineProxy.Tcp.SackExact

/-! Where the scoreboard lies relative to the last acknowledgement.  It is cut at the acknowledgement of the
packet at hand, which a reordered packet carries from below the last one. -/

namespace OutlineProxy.Tcp

open Serial Spans Clock

variable {state s t : TcpFlowState} {board : List SequenceRange} {last number : UInt32}
  {blocks : List (UInt32 × UInt32)} {now : Instant}

def AboveAck (last : UInt32) (board : List SequenceRange) : Prop :=
  ∀ range ∈ board, ∃ span, range = toRange (floorOf last) span ∧ Proper (2 ^ 31) (2 ^ 32 - 1) span

/-- An acknowledgement below the last one brings no block from below it: what it SACKs above itself
starts at or above the last acknowledgement. -/
def bringsNothingBelow (state : TcpFlowState) (number : UInt32) (blocks : List (UInt32 × UInt32)) : Bool :=
  state.unackedServerSegments.isEmpty || !seqLt number state.lastClientAck ||
    blocks.all fun block =>
      !seqGt block.2 number || (!seqLt block.1 number && seqGe block.1 state.lastClientAck)

def NothingBelow (state : TcpFlowState) : AccountStep → Prop
  | .ack number blocks => bringsNothingBelow state number blocks = true
  | .flush | .fastRetransmit | .timeoutRetransmit => True

theorem aboveAck_toBoard {spans : List (Nat × Nat)} (h : ∀ span ∈ spans, Proper (2 ^ 31) (2 ^ 32 - 1) span) :
    AboveAck last (toBoard (floorOf last) spans) := by
  intro range hrange
  obtain ⟨span, hspan, rfl⟩ := List.mem_map.1 hrange
  exact ⟨span, rfl, h span hspan⟩

theorem aboveAck_trim (board : List SequenceRange) (number : UInt32) :
    AboveAck number (trimSackScoreboard board number).1 := by
  obtain ⟨kept, hkept, -, hproper, -⟩ := trimSackScoreboard_above (o := floorOf number) (within_placed number board)
  rw [toBoard_placed, point_half] at hkept
  rw [hkept]
  exact aboveAck_toBoard hproper

theorem AboveAck.merge (h : AboveAck last board) (anchor : UInt32) :
    AboveAck last (mergeSequenceRanges board anchor) := by
  obtain ⟨spans, hspans, -, hproper⟩ := mergeSequenceRanges_spans top_lt anchor h
  rw [hspans]
  exact aboveAck_toBoard hproper

section Stale

variable (hstale : seqLt number last = true)

include hstale

theorem stale_place : 0 ≤ place last number ∧ place last number < 2 ^ 31 := by
  have hlt := place_lt last number
  have h := seqLt_places (o := floorOf last) hlt (by decide : 2 ^ 31 < 2 ^ 32)
  rw [point_place, point_half] at h
  have := h.1 hstale
  omega

theorem stale_block {block range : SequenceRange} {clipped : Bool}
    (hclip : clipRange number block = some (range, clipped)) (hne : seqGt range.end range.start = true)
    (hstart : seqLt block.start number = false) (habove : seqGe block.start last = true) :
    ∃ span, range = toRange (floorOf last) span ∧ Proper (2 ^ 31) (2 ^ 32 - 1) span := by
  obtain ⟨-, hnumber⟩ := stale_place hstale
  rw [clipRange, hstart] at hclip
  split_ifs at hclip with hend
  obtain ⟨rfl, -⟩ := Prod.mk.injEq .. ▸ Option.some.inj hclip
  have hb1 := place_lt last block.start
  have hb2 := place_lt last block.end
  have hends := seqGt_places (o := floorOf last) hb2 (by omega : place last number < 2 ^ 32)
  have hnonempty := seqGt_places (o := floorOf last) hb2 hb1
  rw [point_place, point_place] at hends hnonempty
  have habove' := (seqGe_ack_iff last block.start).1 habove
  refine ⟨(place last block.start, place last block.end), ?_, habove', ?_, Nat.le_sub_one_of_lt hb2⟩
  · simp [toRange, point_place]
  · grind [floorOf, place, seqLt_places, point_place]

theorem AboveAck.update_stale (h : AboveAck last board) (hblocks : ∀ block ∈ blocks, seqGt block.2 number = true →
      seqLt block.1 number = false ∧ seqGe block.1 last = true) :
    AboveAck last (updateSackScoreboard board number blocks).1 := by
  simp only [updateSackScoreboard]
  split
  · exact h
  · refine AboveAck.merge (fun range hrange => ?_) number
    rcases List.mem_append.1 hrange with hold | hnew
    · exact h range hold
    · grind [seqGt, clipRange, stale_block]

theorem AboveAck.trim_stale (h : AboveAck last board) : AboveAck last (trimSackScoreboard board number).1 := by
  obtain ⟨-, hnumber⟩ := stale_place hstale
  refine AboveAck.merge (fun range hrange => ?_) number
  obtain ⟨hm, -⟩ := List.mem_filter.1 hrange
  obtain ⟨⟨c, clipped⟩, hc, rfl⟩ := List.mem_map.1 hm
  obtain ⟨r, hr, hclip⟩ := List.mem_filterMap.1 hc
  obtain ⟨span, rfl, hlow, hne, htop⟩ := h r hr
  have hs1 : span.1 < 2 ^ 32 := by omega
  have hs2 : span.2 < 2 ^ 32 := by omega
  have hend := seqGt_places (o := floorOf last) hs2 (by omega : place last number < 2 ^ 32)
  have hstart := seqLt_places (o := floorOf last) hs1 (by omega : place last number < 2 ^ 32)
  rw [point_place] at hend hstart
  rw [clipRange] at hclip
  split_ifs at hclip with hbelow
  have hkept : seqLt (toRange (floorOf last) span).start number = false := by grind [toRange, floorOf, point]
  rw [hkept] at hclip
  obtain ⟨rfl, -⟩ := Prod.mk.injEq .. ▸ Option.some.inj hclip
  exact ⟨span, rfl, hlow, hne, htop⟩

end Stale

theorem eq_of_not_seqLt (hlt : seqLt number last = false) (hgt : ¬seqGt number last = true) : number = last := by
  rw [← Bool.not_eq_true, seqLt_iff] at hlt
  rw [seqGt_iff] at hgt
  have hzero : (number - last).toNat = 0 := by omega
  exact sub_eq_zero.1 (UInt32.toNat_inj.1 hzero)

theorem AboveAck.acknowledge (h : AboveAck state.lastClientAck state.sackScoreboard)
    (hok : bringsNothingBelow state number blocks = true) (clock : Clock) :
    AboveAck (processServerAck state number blocks clock).1.lastClientAck
      (processServerAck state number blocks clock).1.sackScoreboard := by
  rw [lastClientAck_processServerAck, sackScoreboard_processServerAck]
  split
  · exact aboveAck_trim _ number
  · rename_i hstays
    obtain ⟨hqueued, hnotAhead⟩ := not_or.1 hstays
    cases hstale : seqLt number state.lastClientAck with
    | false =>
      rw [← eq_of_not_seqLt hstale hnotAhead]
      exact aboveAck_trim _ number
    | true =>
      simp only [bringsNothingBelow, hstale, List.isEmpty_iff, hqueued, Bool.not_true, Bool.or_false, Bool.or_eq_true,
        List.all_eq_true, Bool.not_eq_true', Bool.and_eq_true, false_or] at hok
      refine AboveAck.trim_stale hstale (AboveAck.update_stale hstale h fun block hblock hend => ?_)
      rcases hok block hblock with hbelow | hin
      · rw [hend] at hbelow
        cases hbelow
      · exact hin

theorem AccountRun.aboveAck (h : AccountRun NothingBelow now state) :
    AboveAck state.lastClientAck state.sackScoreboard := by
  have hresend : ∀ {s : TcpFlowState} (index : Nat) {mark : ServerSegment → ServerSegment},
      (∀ x, (mark x).range = x.range) → AboveAck s.lastClientAck s.sackScoreboard →
      AboveAck (resendSegment s index mark).1.lastClientAck (resendSegment s index mark).1.sackScoreboard := by
    intro s index mark hmark hs
    have hside := (ackSide_resendSegment s index hmark).1
    rwa [show (resendSegment s index mark).1.lastClientAck = s.lastClientAck from congrArg AckSide.lastClientAck hside,
      show (resendSegment s index mark).1.sackScoreboard = s.sackScoreboard from congrArg AckSide.board hside]
  induction h with
  | start _ hboard =>
    rw [hboard]
    intro range hrange
    simp at hrange
  | @flush now state clock _ _ _ ih =>
    have hsends := onlySends_flushServerOutput state clock
    rwa [hsends.lastClientAck, hsends.board]
  | ack number blocks clock _ _ hok ih => exact ih.acknowledge hok clock
  | fastRetransmit clock _ _ _ ih =>
    unfold retransmitOldestUnackedPacket
    split
    · exact ih
    · exact hresend _ (fun _ => rfl) ih
  | timeoutRetransmit clock _ _ _ ih =>
    unfold retransmitDueSegment
    split
    · exact ih
    · exact hresend _ (fun _ => rfl) ih
  | @other _ _ s t _ _ hledger ih =>
    have hpositions := congrArg Ledger.positions hledger
    rwa [show t.lastClientAck = s.lastClientAck from congrArg Positions.lastClientAck hpositions,
      show t.sackScoreboard = s.sackScoreboard from congrArg Positions.board hpositions]

theorem maxByKey_spec (key : UInt32 → Nat) (l : List UInt32) :
    (maxByKey key l = none ↔ l = []) ∧ ∀ best, maxByKey key l = some best → best ∈ l ∧ ∀ x ∈ l, key x ≤ key best := by
  induction l with
  | nil => simp [maxByKey]
  | cons x rest ih => grind [maxByKey, Option.some.inj]

def isHole (state : TcpFlowState) (highest : UInt32) (segment : ServerSegment) : Bool :=
  !serverSegmentIsSacked state segment && segment.fastRetransmitEpoch != state.recoveryEpoch &&
    seqLt segment.sequenceNumber highest

theorem AboveAck.distances (h : AboveAck last board) {range : SequenceRange} (hrange : range ∈ board) :
    ∃ low high, (range.start - last).toNat = low ∧ (range.end - last).toNat = high ∧ low < high ∧ high < 2 ^ 31 ∧
      range.end = point last high := by
  obtain ⟨span, rfl, hlow, hne, htop⟩ := h range hrange
  have hdistance : ∀ k, 2 ^ 31 ≤ k → k < 2 ^ 32 → (point (floorOf last) k - last).toNat = k - 2 ^ 31 := by
    grind [floorOf, toNat_point_sub_point, point_half]
  refine ⟨span.1 - 2 ^ 31, span.2 - 2 ^ 31, hdistance _ hlow (by omega), hdistance _ (by omega) (by omega),
    by omega, by omega, ?_⟩
  have hback := point_toNat_sub last (toRange (floorOf last) span).end
  rw [← hback]
  exact congrArg (point last) (hdistance _ (by omega) (by omega))

theorem findIdx?_first {α : Type} {p : α → Bool} {l : List α} {x : α} (hx : x ∈ l) (hp : p x = true) :
    ∃ before first after, l = before ++ first :: after ∧ l.findIdx? p = some before.length ∧ p first = true ∧
      ∀ y ∈ before, p y = false := by
  induction l with
  | nil => simp at hx
  | cons head rest ih =>
    cases hhead : p head with
    | true => exact ⟨[], head, rest, rfl, by simp [List.findIdx?_cons, hhead], hhead, by simp⟩
    | false => grind

/-- In a run whose reordered acknowledgements bring nothing from below the last one, the scoreboard is
above it, the furthest end is the largest one, and fast retransmission finds the first hole below. -/
theorem loss_stays_visible (h : AccountRun NothingBelow now state) : (∀ range ∈ state.sackScoreboard,
      seqGe range.start state.lastClientAck = true ∧ seqGt range.end state.lastClientAck = true) ∧
    (highestSackedEnd state = none ↔ state.sackScoreboard = []) ∧ ∀ highest, highestSackedEnd state = some highest →
      highest ∈ state.sackScoreboard.map SequenceRange.end ∧
      (∀ range ∈ state.sackScoreboard, seqGe highest range.end = true) ∧
      ∀ segment ∈ state.unackedServerSegments, isHole state highest segment = true →
        ∃ before oldest after, state.unackedServerSegments = before ++ oldest :: after ∧
          fastRetransmitIndex state = some before.length ∧ isHole state highest oldest = true ∧
          ∀ earlier ∈ before, isHole state highest earlier = false := by
  have habove := h.aboveAck
  have hspec := maxByKey_spec (fun stop => (stop - state.lastClientAck).toNat)
    (state.sackScoreboard.map SequenceRange.end)
  refine ⟨fun range hrange => ?_, ?_, fun highest hhighest => ?_⟩
  · obtain ⟨low, high, hlow, hhigh, hlt, hhalf, -⟩ := habove.distances hrange
    rw [seqGe_iff, seqGt_iff, hlow, hhigh]
    omega
  · rw [highestSackedEnd, hspec.1, List.map_eq_nil_iff]
  · obtain ⟨hmem, hmax⟩ := hspec.2 highest hhighest
    refine ⟨hmem, fun range hrange => ?_, fun segment hsegment hhole => ?_⟩
    · -- all ends are within half the space above the acknowledgement, where distances are the order
      obtain ⟨top, htop, rfl⟩ := List.mem_map.1 hmem
      obtain ⟨-, high, -, hhigh, -, hhalf, hpoint⟩ := habove.distances htop
      obtain ⟨-, stop, -, hstop, -, -, hstopPoint⟩ := habove.distances hrange
      have hle := hmax range.end (List.mem_map_of_mem hrange)
      simp only [hhigh, hstop] at hle
      rw [seqGe_iff, hpoint, hstopPoint, toNat_point_sub_point _ hle (by omega)]
      omega
    · rw [fastRetransmitIndex, hhighest]
      exact findIdx?_first hsegment hhole

/-- Seven writes of one byte, `1000` to `1006`, in flight.  The client has the first three, the fifth and
the seventh: it has said so three times, and the fourth has been resent. -/
def twoLost : TcpFlowState :=
  let write := fun state byte => (flushServerOutput (pushServerChunk state [byte]) (still 1)).1
  let sack := fun state => (processServerAck state 1003 [(1004, 1005), (1006, 1007)] (still 2)).1
  let sent := write (write (write (write (write (write (write openFlow 0) 1) 2) 3) 4) 5) 6
  let acked := (processServerAck sent 1003 [] (still 2)).1
  (retransmitOldestUnackedPacket (sack (sack (sack acked))) (still 3)).1

theorem twoLost_run {ok : TcpFlowState → AccountStep → Prop} (hflush : ∀ state, ok state .flush)
    (hresend : ∀ state, ok state .fastRetransmit)
    (hack : ∀ state blocks, seqLt 1003 state.lastClientAck = false → ok state (.ack 1003 blocks)) :
    AccountRun ok 3 twoLost := by
  have hwrite : ∀ {now : Instant} {state : TcpFlowState} (byte : UInt8), AccountRun ok now state → now ≤ 1 →
      AccountRun ok 1 (flushServerOutput (pushServerChunk state [byte]) (still 1)).1 := by
    intro now state byte hrun hnow
    have hpushed : AccountRun ok 1 (pushServerChunk state [byte]) := hrun.other hnow rfl
    exact hpushed.flush (still 1) le_rfl (hflush _)
  have hsent := hwrite 6 (hwrite 5 (hwrite 4 (hwrite 3 (hwrite 2 (hwrite 1 (hwrite 0 (openFlow_run ok) (by decide))
    le_rfl) le_rfl) le_rfl) le_rfl) le_rfl) le_rfl
  have hacked := hsent.ack 1003 [] (still 2) (by decide) (hack _ _ (by decide +kernel))
  have hone := hacked.ack 1003 [(1004, 1005), (1006, 1007)] (still 2) le_rfl (hack _ _ (by decide +kernel))
  have htwo := hone.ack 1003 [(1004, 1005), (1006, 1007)] (still 2) le_rfl (hack _ _ (by decide +kernel))
  have hthree := htwo.ack 1003 [(1004, 1005), (1006, 1007)] (still 2) le_rfl (hack _ _ (by decide +kernel))
  exact hthree.fastRetransmit (still 3) (by decide) (hresend _)

/-- An acknowledgement that arrives late, but without a block from below, leaves the second loss to be
found. -/
theorem loss_stays_visible_second :
    let late := (processServerAck twoLost 1000 [] (still 4)).1
    highestSackedEnd late = some 1007 ∧
      ∃ before oldest after, late.unackedServerSegments = before ++ oldest :: after ∧
        fastRetransmitIndex late = some before.length ∧ isHole late 1007 oldest = true := by
  intro late
  have hstart : AccountRun NothingBelow 3 twoLost := by grind [NothingBelow, bringsNothingBelow, twoLost_run]
  have hlate : AccountRun NothingBelow 4 late :=
    hstart.ack 1000 [] (still 4) (by decide) (by simp [NothingBelow, bringsNothingBelow])
  have hhighest : highestSackedEnd late = some 1007 := by decide +kernel
  obtain ⟨segment, hsegment, hhole⟩ : ∃ segment ∈ late.unackedServerSegments, isHole late 1007 segment = true :=
    List.any_eq_true.1 (by decide +kernel : late.unackedServerSegments.any (isHole late 1007) = true)
  obtain ⟨before, oldest, after, hqueue, hindex, holdest, -⟩ :=
    ((loss_stays_visible hlate).2.2 1007 hhighest).2.2 segment hsegment hhole
  exact ⟨hhighest, before, oldest, after, hqueue, hindex, holdest⟩

/-- The acknowledgement of the second byte arrives last.  Its block is then below the last acknowledgement,
its end passes for the furthest one, and the second loss is no longer found. -/
theorem loss_hidden_by_stale_ack :
    let late := (processServerAck twoLost 1000 [(1001, 1002)] (still 4)).1
    AccountRun (fun _ _ => True) 4 late ∧ late.lastClientAck = 1003 ∧
      late.sackScoreboard = [⟨1001, 1002⟩, ⟨1004, 1005⟩, ⟨1006, 1007⟩] ∧
      highestSackedEnd twoLost = some 1007 ∧ highestSackedEnd late = some 1002 ∧
      late.unackedServerSegments.any (isHole late 1007) = true ∧
      fastRetransmitIndex twoLost = some 2 ∧ fastRetransmitIndex late = none := by
  intro late
  have hstart : AccountRun (fun _ _ => True) 3 twoLost :=
    twoLost_run (fun _ => trivial) (fun _ => trivial) fun _ _ _ => trivial
  exact ⟨hstart.ack 1000 [(1001, 1002)] (still 4) (by decide) trivial, by decide +kernel, by decide +kernel,
    by decide +kernel, by decide +kernel, by decide +kernel, by decide +kernel, by decide +kernel⟩

end OutlineProxy.Tcp
