import OutlineProxy.Tcp.ReceiveMemory
import OutlineProxy.Tcp.Scoreboard
import OutlineProxy.Tun.TcpWire

/-! The SACK blocks an acknowledgement carries.  They are sorted by the raw sequence number and merged by
the wrapped one, so past the wrap point of the sequence space what lies before it is lost. -/

namespace OutlineProxy.Tcp

open List Serial Spans Sealing
open Tun (parseTcpOptions parseOptionsWithin parseOptionsWithin_option parseOptionsWithin_write readBlocks_flatMap
  length_flatMap_writeBlock TcpOption ParsedTcpOptions)

section Model

def extendFromSlice (options bytes : List UInt8) : Option (List UInt8) :=
  if options.length + bytes.length ≤ 40 then some (options ++ bytes) else none

def padOptions (options : List UInt8) : Option (List UInt8) :=
  extendFromSlice options (replicate ((4 - options.length % 4) % 4) 1)

variable (state : TcpFlowState) (serverTimestampOffset : UInt32)

def currentTimestampValue (now : Instant) : UInt32 :=
  serverTimestampOffset + UInt32.ofNat ((now - state.timestamps.createdAt) / millis 1)

def appendTimestampOption (now : Instant)
    (options : List UInt8) : Option (List UInt8) := do
  if !state.timestampsEnabled then return options
  let options ← extendFromSlice options [8]
  let options ← extendFromSlice options [10]
  let options ← extendFromSlice options (toBe 4 (currentTimestampValue state serverTimestampOffset now).toNat)
  extendFromSlice options (toBe 4 (state.recentClientTimestamp.getD 0).toNat)

def defaultPacketOptions (now : Instant) :
    Option (List UInt8) := do
  let options ← appendTimestampOption state serverTimestampOffset now []
  padOptions options

def maxSackBlockCount (baseOptionLen : Nat) : Nat :=
  ([4, 3, 2, 1].find? fun count => decide ((baseOptionLen + 2 + count * 8 + 3) / 4 * 4 ≤ 40)).getD 0

def bufferedRanges : List SequenceRange :=
  state.pendingClientSegments.filterMap fun segment =>
    if !seqGt segment.sequenceNumber state.rcvNxt then none
    else some ⟨segment.sequenceNumber, bufferedClientSegmentDataEnd segment⟩

def mergedRanges (ranges : List SequenceRange) : List SequenceRange :=
  ((ranges.insertionSort fun a b => a.start ≤ b.start).foldl mergeRange []).reverse

def pushSackBlock (options : List UInt8) (range : SequenceRange) : Option (List UInt8) := do
  let options ← extendFromSlice options (toBe 4 range.start.toNat)
  extendFromSlice options (toBe 4 range.end.toNat)

def appendSackOption (options : List UInt8) (ranges : List SequenceRange) : Option (List UInt8) := do
  let options ← extendFromSlice options [5]
  let options ← extendFromSlice options [UInt8.ofNat (2 + ranges.length * 8)]
  let options ← ranges.foldlM pushSackBlock options
  padOptions options

def ackOptions (now : Instant) : Option (List UInt8) := do
  let options ← defaultPacketOptions state serverTimestampOffset now
  if !state.clientSackPermitted then padOptions options
  else if (bufferedRanges state).isEmpty then padOptions options
  else
    let merged := mergedRanges (bufferedRanges state)
    let blockCount := min (maxSackBlockCount options.length) merged.length
    if blockCount = 0 then padOptions options else appendSackOption options (merged.take blockCount)

end Model

variable {state : TcpFlowState} {held : List (Nat × Nat)} {base k limit : Nat}

def islands (held : List (Nat × Nat)) : List (Nat × Nat) :=
  ((held.insertionSort fun s t => s.1 ≤ t.1).foldl join []).reverse

def wraps (base : Nat) (span : Nat × Nat) : Bool := decide (2 ^ 32 ≤ base + span.1)

def rawStart (base : Nat) (span : Nat × Nat) : Nat := (base + span.1) % 2 ^ 32

abbrev byStart (spans : List (Nat × Nat)) : List (Nat × Nat) := spans.insertionSort fun s t => s.1 ≤ t.1

abbrev byRawStart (base : Nat) (spans : List (Nat × Nat)) : List (Nat × Nat) :=
  spans.insertionSort fun s t => rawStart base s ≤ rawStart base t

def Ahead (held : List (Nat × Nat)) : Prop := ∀ s ∈ held, Between 1 (2 ^ 31 - 1) s

def written (base : Nat) (held : List (Nat × Nat)) : List (Nat × Nat) :=
  ((held.insertionSort fun s t => rawStart base s ≤ rawStart base t).foldl join []).reverse

def reported (base : Nat) (held : List (Nat × Nat)) : List (Nat × Nat) :=
  if held.any (wraps base) then held.filter (wraps base) else held

def OneSided (base : Nat) (held : List (Nat × Nat)) : Prop :=
  ∀ s ∈ held, s.1 < s.2 → wraps base s = false → ∀ t ∈ held, wraps base t = false

variable {s : Nat × Nat}

theorem OneSided.empty (h : OneSided base held) (hsome : held.any (wraps base) = true) (hs : s ∈ held)
    (hno : wraps base s = false) : s.2 ≤ s.1 := by
  obtain ⟨t, ht, hwraps⟩ := any_eq_true.1 hsome
  by_contra hpayload
  have hnone := h s hs (not_le.1 hpayload) hno t ht
  rw [hwraps] at hnone
  cases hnone

theorem holds_islands : Holds (islands held) k ↔ Holds held k := by
  rw [islands, holds_reverse, holds_foldl_join (pairwise_insertionSort _ _) (by simp), or_iff_right holds_nil]
  exact Holds.of_perm (perm_insertionSort _ _)

def NoneDisplaced (limit : Nat) (spans : List (Nat × Nat)) : Prop := ∀ s ∈ (islands spans).drop limit, s.2 ≤ s.1

section Positions

variable (hbase : base < 2 ^ 32) (hheld : Ahead held)

include hbase hheld

theorem rawStart_le_iff {t : Nat × Nat} (hs : s ∈ held) (ht : t ∈ held) (hsame : wraps base s = wraps base t) :
    rawStart base s ≤ rawStart base t ↔ s.1 ≤ t.1 := by
  obtain ⟨-, hs1, hs2⟩ := hheld s hs
  obtain ⟨-, ht1, ht2⟩ := hheld t ht
  have hcases : 2 ^ 32 ≤ base + s.1 ↔ 2 ^ 32 ≤ base + t.1 := by simpa [wraps] using hsame
  simp only [rawStart]
  omega

theorem insertionSort_rawStart :
    byRawStart base held = byStart (held.filter (wraps base)) ++ byStart (held.filter fun s => !wraps base s) := by
  have hpart : ∀ p : Nat × Nat → Bool, (∀ s t, p s = true → p t = true → wraps base s = wraps base t) →
      (byRawStart base held).filter p = byStart (held.filter p) := by
    intro p hp
    have hkeys := map_insertionSort (fun s t => rawStart base s ≤ rawStart base t) (fun s t => s.1 ≤ t.1) id
      (held.filter p) fun s hs t ht => rawStart_le_iff hbase hheld (mem_of_mem_filter hs)
        (mem_of_mem_filter ht) (hp s t (of_mem_filter hs) (of_mem_filter ht))
    rw [filter_insertionSort]
    simpa using hkeys
  have hsplit : byRawStart base held =
      (byRawStart base held).filter (wraps base) ++ (byRawStart base held).filter fun s => !wraps base s := by
    refine eq_filter_append ((pairwise_insertionSort _ held).imp_of_mem fun {s t} hs ht hle hwraps => ?_)
    obtain ⟨-, ht1, ht2⟩ := hheld t ((mem_insertionSort _).1 ht)
    simp only [wraps, decide_eq_true_iff, rawStart] at hle hwraps ⊢
    omega
  rw [hsplit, hpart (wraps base) fun s t hs ht => hs.trans ht.symm, hpart (fun s => !wraps base s)]
  intro s t hs ht
  simp only [Bool.not_eq_true'] at hs ht
  exact hs.trans ht.symm

omit hbase in
theorem written_between : ∀ s ∈ written base held, Between 1 (2 ^ 31 - 1) s := by
  intro s hs
  exact foldl_join_between (fun t ht => hheld t ((mem_insertionSort _).1 ht)) (by simp) s (mem_reverse.1 hs)

omit hbase in
theorem written_gaps : (written base held).Pairwise fun s t => s.2 < t.1 :=
  pairwise_reverse.2
    (foldl_join_gaps (fun s hs => (hheld s ((mem_insertionSort _).1 hs)).2.1) (by simp) .nil)

omit hbase hheld in
theorem holds_of_written (h : Holds (written base held) k) : Holds held k := by
  rcases holds_of_foldl_join (holds_reverse.1 h) with hnone | hsorted
  · exact absurd hnone holds_nil
  · exact (Holds.of_perm (perm_insertionSort _ held)).1 hsorted

omit hbase in
theorem between_of_wraps : ∀ s ∈ byStart (held.filter (wraps base)), Between (2 ^ 32 - base) (2 ^ 31 - 1) s := by
  intro s hs
  obtain ⟨hin, hwraps⟩ := mem_filter.1 ((mem_insertionSort _).1 hs)
  obtain ⟨-, h1, h2⟩ := hheld s hin
  rw [wraps, decide_eq_true_iff] at hwraps
  exact ⟨by omega, h1, h2⟩

theorem written_of_wraps (hsome : held.any (wraps base) = true) : ∃ last before reach,
      (byStart (held.filter (wraps base))).foldl join [] = last :: before ∧
      written base held = ((last.1, reach) :: before).reverse ∧
      ((∀ s ∈ held, wraps base s = false → s.2 ≤ s.1) → reach = last.2) := by
  have hmerged := foldl_join_between (@between_of_wraps held base hheld) (by simp : ∀ s ∈ [], Between _ _ s)
  cases hfold : (byStart (held.filter (wraps base))).foldl join [] with
  | nil =>
    exfalso
    obtain ⟨s, hs, hwraps⟩ := any_eq_true.1 hsome
    have hempty := eq_nil_of_foldl_join hfold
    have hmem : s ∈ byStart (held.filter (wraps base)) := (mem_insertionSort _).2 (mem_filter.2 ⟨hs, hwraps⟩)
    simp [hempty] at hmem
  | cons last before =>
    have hlast := hmerged last (by simp [hfold])
    have hbefore : ∀ s ∈ byStart (held.filter fun s => !wraps base s), s.1 ≤ last.2 := by
      intro s hs
      obtain ⟨-, hno⟩ := mem_filter.1 ((mem_insertionSort _).1 hs)
      have hlt : ¬2 ^ 32 ≤ base + s.1 := by simpa [wraps] using hno
      obtain ⟨h1, h2, -⟩ := hlast
      omega
    obtain ⟨reach, -, habsorbed, hsame⟩ := @foldl_join_absorbed _ _ _ last before hbefore
    refine ⟨last, before, reach, rfl, ?_, fun hmarkers => hsame fun s hs => ?_⟩
    · rw [written, show held.insertionSort _ = _ from insertionSort_rawStart hbase hheld, foldl_append, hfold,
        habsorbed]
    · grind [mem_insertionSort]

theorem wraps_of_written (hsome : held.any (wraps base) = true) (hs : s ∈ written base held) :
    wraps base s = true := by
  obtain ⟨last, before, reach, hfold, hwritten, -⟩ := written_of_wraps hbase hheld hsome
  have hstarts : ∀ t ∈ last :: before, wraps base t = true := by
    intro t ht
    rw [← hfold] at ht
    have hbetween := foldl_join_between (between_of_wraps hheld) (by simp) t ht
    rw [wraps, decide_eq_true_iff]
    have := hbetween.1
    omega
  rw [hwritten] at hs
  rcases mem_cons.1 (mem_reverse.1 hs) with rfl | hs
  · exact hstarts last (by simp)
  · exact hstarts s (by simp [hs])

theorem written_of_oneSided (h : OneSided base held) : written base held = islands (reported base held) := by
  cases hsome : held.any (wraps base) with
  | true =>
    obtain ⟨last, before, reach, hfold, hwritten, hreach⟩ := written_of_wraps hbase hheld hsome
    rw [islands, reported, if_pos hsome, hfold, hwritten, hreach fun s hs => h.empty hsome hs]
  | false =>
    have hnone : ∀ s ∈ held, wraps base s = false := by simpa using hsome
    have hfirst : held.filter (wraps base) = [] := by
      rw [filter_eq_nil_iff]
      intro s hs
      simp [hnone s hs]
    have hsecond : held.filter (fun s => !wraps base s) = held := by
      rw [filter_eq_self]
      intro s hs
      simp [hnone s hs]
    rw [written, show held.insertionSort _ = _ from insertionSort_rawStart hbase hheld, hfirst, hsecond, islands,
      reported, hsome]
    rfl

theorem covers_iff : (∀ k, Holds held k → Holds ((written base held).take limit) k) ↔
      OneSided base held ∧ NoneDisplaced limit (reported base held) := by
  constructor
  · intro hcovers
    have hside : OneSided base held := by
      intro s hs hpayload hno t ht
      by_contra hwraps
      have hsome : held.any (wraps base) = true := any_eq_true.2 ⟨t, ht, by simpa using hwraps⟩
      obtain ⟨block, hblock, hstart, -⟩ := hcovers s.1 ⟨s, hs, le_rfl, hpayload⟩
      have hlate := wraps_of_written hbase hheld hsome (mem_of_mem_take hblock)
      simp only [wraps, decide_eq_true_iff, decide_eq_false_iff_not] at hlate hno
      omega
    refine ⟨hside, fun s hs => ?_⟩
    rw [← written_of_oneSided hbase hheld hside] at hs
    by_contra hpayload
    have hholds : Holds (written base held) s.1 := ⟨s, mem_of_mem_drop hs, le_rfl, not_le.1 hpayload⟩
    obtain ⟨block, hblock, hstart, hend⟩ := hcovers s.1 (holds_of_written hholds)
    have hgaps := @written_gaps held base hheld
    rw [← take_append_drop limit (written base held), pairwise_append] at hgaps
    have hgap := hgaps.2.2 block hblock s hs
    omega
  · rintro ⟨hside, hdisplaced⟩ k ⟨s, hs, hstart, hend⟩
    have hreported : s ∈ reported base held := by
      rw [reported]
      split_ifs with hsome
      · refine mem_filter.2 ⟨hs, ?_⟩
        by_contra hno
        have hempty := hside.empty hsome hs (by simpa using hno)
        omega
      · exact hs
    rw [written_of_oneSided hbase hheld hside]
    obtain ⟨island, hisland, hin⟩ := holds_islands.2 ⟨s, hreported, hstart, hend⟩
    rw [← take_append_drop limit (islands _), mem_append] at hisland
    rcases hisland with hfirst | hlate
    · exact ⟨island, hfirst, hin⟩
    · exact absurd (hin.1.trans_lt hin.2) (not_lt.2 (hdisplaced island hlate))

omit hbase in
theorem length_islands_reported_le (h : OneSided base held) :
    (islands (reported base held)).length ≤ (islands held).length := by
  rw [reported]
  split_ifs with hsome
  · have hsplit :
        byStart held = byStart (held.filter fun s => !wraps base s) ++ byStart (held.filter (wraps base)) := by
      have hpair : (byStart held).Pairwise fun s t => (!wraps base t) = true → (!wraps base s) = true := by
        refine (pairwise_insertionSort _ held).imp fun {s t} hle hbefore => ?_
        simp only [wraps, Bool.not_eq_true', decide_eq_false_iff_not] at hbefore ⊢
        omega
      have hfilters := eq_filter_append hpair
      simpa only [filter_insertionSort, Bool.not_not] using hfilters
    have hmarkers : ∀ s ∈ byStart (held.filter fun s => !wraps base s), Between 1 (2 ^ 32 - base - 1) s := by
      intro s hs
      obtain ⟨hin, hno⟩ := mem_filter.1 ((mem_insertionSort _).1 hs)
      obtain ⟨h1, h2, -⟩ := hheld s hin
      have hbefore : ¬2 ^ 32 ≤ base + s.1 := by simpa [wraps] using hno
      have hempty := h.empty hsome hin (by simpa using hno)
      exact ⟨h1, h2, by omega⟩
    have hlow := foldl_join_between hmarkers (by simp : ∀ s ∈ ([] : List (Nat × Nat)), Between _ _ s)
    have hbeyond : ∀ s ∈ byStart (held.filter (wraps base)),
        ∀ marker ∈ (byStart (held.filter fun s => !wraps base s)).foldl join [], marker.2 < s.1 := by
      intro s hs marker hmarker
      obtain ⟨hfirst, hmiddle, hend⟩ := hlow marker hmarker
      have hstart := of_mem_filter ((mem_insertionSort _).1 hs)
      rw [wraps, decide_eq_true_iff] at hstart
      omega
    simp only [islands, hsplit, foldl_append, foldl_join_beyond hbeyond, length_reverse, length_append]
    exact Nat.le_add_right _ _
  · exact le_rfl

end Positions

def heldSpans (state : TcpFlowState) : List (Nat × Nat) :=
  state.pendingClientSegments.filterMap fun segment =>
    if !seqGt segment.sequenceNumber state.rcvNxt then none
    else
      let distance := (segment.sequenceNumber - state.rcvNxt).toNat
      some (distance, distance + segment.payload.length)

theorem bufferedRanges_eq (state : TcpFlowState) : bufferedRanges state = toBoard state.rcvNxt (heldSpans state) := by
  rw [bufferedRanges, heldSpans, toBoard, map_filterMap]
  refine filterMap_congr fun segment _ => ?_
  split_ifs
  · rfl
  · simp only [Option.map_some, toRange, point_add, point_toNat_sub, bufferedClientSegmentDataEnd]

theorem mergedRanges_toBoard (origin : UInt32) (h : Ahead held) :
    mergedRanges (toBoard origin held) = toBoard origin (written origin.toNat held) := by
  have hsort : (toBoard origin held).insertionSort (fun a b => a.start ≤ b.start) =
      toBoard origin (byRawStart origin.toNat held) := by
    refine (map_insertionSort _ _ (toRange origin) held fun s hs t ht => ?_).symm
    rw [UInt32.le_iff_toNat_le]
    simp [rawStart, toRange, point]
  have hmem : ∀ s ∈ byRawStart origin.toNat held, Between 1 (2 ^ 31 - 1) s := fun s hs =>
    h s ((mem_insertionSort _).1 hs)
  rw [mergedRanges, hsort, foldl_mergeRange_nil (by omega) hmem, written]

section Bytes

variable (state) (serverTimestampOffset : UInt32) (now : Instant)

def sackLimit : Nat := maxSackBlockCount (if state.timestampsEnabled then 12 else 0)

def sackBlocks : List (UInt32 × UInt32) :=
  if state.clientSackPermitted then
    ((mergedRanges (bufferedRanges state)).take (sackLimit state)).map fun range => (range.start, range.end)
  else []

def timestampOptions : List TcpOption :=
  if state.timestampsEnabled then
    [.timestamps (currentTimestampValue state serverTimestampOffset now) (state.recentClientTimestamp.getD 0),
      .noOperation, .noOperation]
  else []

def sackOptions (blocks : List (UInt32 × UInt32)) : List TcpOption :=
  if blocks.isEmpty then [] else [.sack blocks, .noOperation, .noOperation]

theorem sackLimit_cases : sackLimit state = if state.timestampsEnabled then 3 else 4 := by
  rw [sackLimit]
  split_ifs <;> decide

theorem length_timestampOptions :
    ((timestampOptions state serverTimestampOffset now).flatMap TcpOption.write).length =
      if state.timestampsEnabled then 12 else 0 := by
  rw [timestampOptions]
  split_ifs <;> simp [TcpOption.write]

theorem defaultPacketOptions_eq :
    defaultPacketOptions state serverTimestampOffset now =
      some ((timestampOptions state serverTimestampOffset now).flatMap TcpOption.write) := by
  cases h : state.timestampsEnabled <;>
    simp [defaultPacketOptions, appendTimestampOption, timestampOptions, h, extendFromSlice, padOptions,
      TcpOption.write, replicate]

variable {options : List UInt8}

omit state in
theorem extendFromSlice_eq {bytes : List UInt8} (hroom : options.length + bytes.length ≤ 40) :
    extendFromSlice options bytes = some (options ++ bytes) :=
  if_pos hroom

omit state in
theorem pushSackBlock_eq (range : SequenceRange) (hroom : options.length + 8 ≤ 40) :
    pushSackBlock options range = some (options ++ TcpOption.writeBlock (range.start, range.end)) := by
  have hfirst : options.length + (toBe 4 range.start.toNat).length ≤ 40 := by
    rw [length_toBe]
    omega
  have hsecond : (options ++ toBe 4 range.start.toNat).length + (toBe 4 range.end.toNat).length ≤ 40 := by
    simp only [length_append, length_toBe]
    omega
  rw [pushSackBlock, extendFromSlice_eq hfirst, Option.bind_eq_bind, Option.bind_some, extendFromSlice_eq hsecond,
    append_assoc]
  rfl

omit state in
theorem foldlM_pushSackBlock {ranges : List SequenceRange} (hroom : options.length + ranges.length * 8 ≤ 40) :
    ranges.foldlM pushSackBlock options =
      some (options ++ (ranges.map fun range => (range.start, range.end)).flatMap TcpOption.writeBlock) := by
  induction ranges generalizing options with
  | nil => simp
  | cons range rest ih =>
    rw [length_cons] at hroom
    have hlength : (options ++ TcpOption.writeBlock (range.start, range.end)).length = options.length + 8 := by
      simp [TcpOption.writeBlock]
    rw [foldlM_cons, pushSackBlock_eq range (by omega), Option.bind_eq_bind, Option.bind_some, ih (by omega)]
    simp

omit state in
theorem appendSackOption_eq {ranges : List SequenceRange} (haligned : options.length % 4 = 0)
    (hroom : options.length + 4 + ranges.length * 8 ≤ 40) :
    appendSackOption options ranges =
      some (options ++ [TcpOption.sack (ranges.map fun range => (range.start, range.end)),
      .noOperation, .noOperation].flatMap TcpOption.write) := by
  obtain ⟨written, hwritten⟩ : ∃ written, written =
      options ++ (TcpOption.sack (ranges.map fun range => (range.start, range.end))).write := ⟨_, rfl⟩
  have hfold : ranges.foldlM pushSackBlock (options ++ [5] ++ [UInt8.ofNat (2 + ranges.length * 8)]) =
      some written := by
    rw [foldlM_pushSackBlock (by simp only [length_append, length_singleton]; omega)]
    simp [hwritten, TcpOption.write]
  have hsize : written.length = options.length + 2 + ranges.length * 8 := by
    simp only [hwritten, TcpOption.write, length_append, length_cons, length_flatMap_writeBlock, length_map]
    omega
  have htwo : (4 - written.length % 4) % 4 = 2 := by omega
  simp only [appendSackOption, Option.bind_eq_bind]
  rw [extendFromSlice_eq (by simp; omega), Option.bind_some, extendFromSlice_eq (by simp; omega), Option.bind_some,
    hfold, Option.bind_some, padOptions, htwo, extendFromSlice_eq (by rw [hsize]; simp; omega), hwritten]
  simp [TcpOption.write, replicate]

theorem ackOptions_eq :
    ackOptions state serverTimestampOffset now =
      some ((timestampOptions state serverTimestampOffset now ++ sackOptions (sackBlocks state)).flatMap
        TcpOption.write) := by
  have hlength := length_timestampOptions state serverTimestampOffset now
  have hlimit := sackLimit_cases state
  rw [ackOptions, defaultPacketOptions_eq, Option.bind_eq_bind, Option.bind_some, List.flatMap_append]
  generalize (timestampOptions state serverTimestampOffset now).flatMap TcpOption.write = base at hlength ⊢
  have hbase : base.length = 12 ∧ sackLimit state = 3 ∨ base.length = 0 ∧ sackLimit state = 4 := by
    cases h : state.timestampsEnabled <;> simp [h] at hlength hlimit <;> simp [hlength, hlimit]
  have hplain : padOptions base = some base := by
    rcases hbase with h | h <;> simp [padOptions, extendFromSlice, h]
  have hcount : maxSackBlockCount base.length = sackLimit state := by rw [hlength, sackLimit]
  rw [hplain, hcount]
  cases hpermitted : state.clientSackPermitted with
  | false => simp [sackBlocks, hpermitted, sackOptions]
  | true =>
    have hblocks : sackBlocks state =
        ((mergedRanges (bufferedRanges state)).take (sackLimit state)).map fun range => (range.start, range.end) := by
      rw [sackBlocks, if_pos hpermitted]
    by_cases hempty : bufferedRanges state = []
    · simp [hblocks, hempty, mergedRanges, sackOptions]
    · generalize mergedRanges (bufferedRanges state) = merged at hblocks ⊢
      by_cases hnone : merged = []
      · simp [hblocks, hempty, hnone, sackOptions]
      · have hmany : 0 < merged.length := List.length_pos_of_ne_nil hnone
        have hcounted : (sackBlocks state).length = min (sackLimit state) merged.length := by simp [hblocks]
        have hwritten : ((merged.take (min (sackLimit state) merged.length)).map fun range =>
            (range.start, range.end)) = sackBlocks state := by
          rw [hblocks, ← List.take_eq_take_min]
        have htaken :
            (merged.take (min (sackLimit state) merged.length)).length = min (sackLimit state) merged.length := by
          simp
        have hsome : (sackBlocks state).isEmpty = false := by
          rw [← Bool.not_eq_true, List.isEmpty_iff_length_eq_zero]
          omega
        have hpositive : min (sackLimit state) merged.length ≠ 0 := by omega
        simp only [Bool.not_true, Bool.false_eq_true, if_false, List.isEmpty_iff, hempty, hpositive]
        rw [appendSackOption_eq (by omega) (by omega), hwritten, sackOptions, hsome]
        rfl

def readBack (parsed : ParsedTcpOptions) : TcpOption → ParsedTcpOptions
  | .sack blocks =>
    { parsed with sackBlocks := parsed.sackBlocks ++ blocks.filter fun block => seqLt block.1 block.2 }
  | option => option.record parsed

theorem parse_sack {blocks : List (UInt32 × UInt32)} {parsed : ParsedTcpOptions} {fuel : Nat} {rest : List UInt8}
    (hsome : 1 ≤ blocks.length) (hmany : blocks.length ≤ 31) :
    parseOptionsWithin (fuel + 1) parsed ((TcpOption.sack blocks).write ++ rest) =
      parseOptionsWithin fuel (readBack parsed (.sack blocks)) rest := by
  have hlength := length_flatMap_writeBlock blocks
  refine parseOptionsWithin_option (by decide) ?_ (by grind [ParsedTcpOptions.read, readBack, readBlocks_flatMap])
  rw [hlength, UInt8.toNat_ofNat']
  omega

theorem parse_ackOptions : ∃ options parsed, ackOptions state serverTimestampOffset now = some options ∧
      parseTcpOptions options = .ok parsed ∧
      parsed.sackBlocks = (sackBlocks state).filter fun block => seqLt block.1 block.2 := by
  have hmany : (sackBlocks state).length ≤ 31 := by
    have hlimit := sackLimit_cases state
    rw [sackBlocks]
    split_ifs at hlimit ⊢ <;> simp <;> omega
  have hsteps : ∀ option ∈ timestampOptions state serverTimestampOffset now ++ sackOptions (sackBlocks state),
      ∀ fuel parsed rest, parseOptionsWithin (fuel + 1) parsed (option.write ++ rest) =
        parseOptionsWithin fuel (readBack parsed option) rest := by
    intro option hoption fuel parsed rest
    rw [timestampOptions, sackOptions] at hoption
    cases option with
    | sack blocks => grind [sackBlocks, isEmpty_eq_false_iff, length_pos_iff, parse_sack]
    | noOperation => exact parseOptionsWithin_write rfl
    | timestamps => exact parseOptionsWithin_write rfl
    | maxSegmentSize => split_ifs at hoption <;> simp at hoption
    | windowScale => split_ifs at hoption <;> simp at hoption
    | sackPermitted => split_ifs at hoption <;> simp at hoption
  refine ⟨_, _, ackOptions_eq state serverTimestampOffset now, Tun.parseOptionsWithin_flatMap hsteps le_rfl, ?_⟩
  rw [timestampOptions, sackOptions]
  split_ifs with hstamps hempty hempty <;> simp_all [readBack, TcpOption.record]

end Bytes

section Runs

open Reassembly

variable {tcp : TunTcpConfig} {isn : UInt32} {r : Nat} {q : List (Block UInt8)}

theorem Reps.exists_block {queue : List BufferedClientSegment} (h : Reps isn queue q) {segment : BufferedClientSegment}
    (hsegment : segment ∈ queue) : ∃ b ∈ q, Rep isn segment b := by
  induction h with
  | nil => simp at hsegment
  | cons hfirst _ ih => grind [mem_cons_self, mem_cons_of_mem]

theorem ahead_of_queue {low : Nat} (hrcv : state.rcvNxt = point isn r) (hreps : Reps isn state.pendingClientSegments q)
    (hq : ∀ b ∈ q, low ≤ b.pos ∧ b.stop < low + 2 ^ 31) (hlow : low ≤ r) (hhigh : r ≤ low + 2 ^ 31) :
    Ahead (heldSpans state) := by
  intro span hspan
  obtain ⟨segment, hsegment, hkept⟩ := mem_filterMap.1 hspan
  obtain ⟨b, hb, hrep⟩ := Reps.exists_block hreps hsegment
  obtain ⟨h1, h2⟩ := hq b hb
  have hstop : b.stop = b.pos + b.data.length := rfl
  rw [hrep.seq, hrcv, hrep.data, seqGt_point isn (by omega) (by omega)] at hkept
  split_ifs at hkept with hgt
  have hlt : r < b.pos := by simpa using hgt
  rw [toNat_point_sub_point isn hlt.le (by omega)] at hkept
  obtain rfl := Option.some.inj hkept
  simp only [Between]
  omega

theorem QueueInv.ahead (h : QueueInv isn r state.receiveSide q) : Ahead (heldSpans state) :=
  ahead_of_queue h.rcvNxt h.reps h.near le_rfl (by omega)

theorem heldSpans_congr {s t : TcpFlowState} (h : t.receiveSide = s.receiveSide) : heldSpans t = heldSpans s := by
  have hqueue : t.pendingClientSegments = s.pendingClientSegments := congrArg ReceiveSide.pendingClientSegments h
  have hrcv : t.rcvNxt = s.rcvNxt := congrArg ReceiveSide.rcvNxt h
  rw [heldSpans, heldSpans, hqueue, hrcv]

theorem ahead_ingestSegment (h : ReceiveInv tcp state) (hahead : Ahead (heldSpans state)) {packet : ParsedTcpPacket}
    {clock : Clock} (hgate : passesFinGate state packet)
    (halive : (ingestSegment state tcp packet clock).fate = .alive) :
    Ahead (heldSpans (ingestSegment state tcp packet clock).state) := by
  cases hseen : clientFinSeen state.status with
  | true =>
    rw [heldSpans_congr (ingestSegment_of_empty (empty_of_passesFinGate hgate hseen) halive)]
    exact hahead
  | false =>
    obtain ⟨isn, r, q, offset, hr, hq, hseq, h1, h2, hgt⟩ := (h.queue hseen).place packet.sequenceNumber
    rcases ingestSegment_cases halive with
      ⟨-, -, hside⟩ | ⟨trimmed, hbeyond, htrim, -, -, -, hside⟩ | ⟨trimmed, hbefore, htrim, -, -, hside⟩
    · rw [heldSpans_congr hside]
      exact hahead
    · rw [hgt, decide_eq_true_iff] at hbeyond
      have hqueued := (hq.queueSegment hseq hbeyond h2 htrim).2
      rw [← hside] at hqueued
      exact hqueued.ahead
    · rw [hgt, decide_eq_false_iff_not, Nat.not_lt] at hbefore
      obtain ⟨hlen, -, -, -, -, hnext, hreps⟩ := hq.deliver hseq hbefore h1 htrim
      have hcap := hq.capacity
      have hroom := receiveRoom_le state
      have hstops : ∀ b ∈ normalBlock r offset trimmed :: q, r ≤ b.pos ∧ b.stop < r + 2 ^ 31 := by
        intro b hb
        rcases mem_cons.1 hb with rfl | hb
        · exact ⟨le_rfl, by simp only [Block.stop, normalBlock] at hlen ⊢; omega⟩
        · exact hq.near b hb
      refine ahead_of_queue ((congrArg ReceiveSide.rcvNxt hside).trans hnext) ?_
        (fun b hb => hstops b ((drain_rest_suffix r _).mem hb)) ?_ ?_
      · rw [show (ingestSegment state tcp packet clock).state.pendingClientSegments =
          (applyInbound state trimmed).1.pendingClientSegments from congrArg ReceiveSide.pendingClientSegments hside]
        exact hreps
      · have := drain_next r (normalBlock r offset trimmed :: q)
        omega
      · have hends : ∀ b ∈ normalBlock r offset trimmed :: q, b.stop ≤ r + (2 ^ 31 - 1) := fun b hb => by
          have := (hstops b hb).2
          omega
        have hle := drain_next_le hends (Nat.le_add_right r _)
        have hone := Bool.toNat_le (drain r (normalBlock r offset trimmed :: q)).closed
        omega

theorem ReceiveRun.ahead (hrun : ReceiveRun tcp state) : Ahead (heldSpans state) := by
  induction hrun with
  | start hq =>
    obtain ⟨isn, r, q, -, hq⟩ := hq
    exact hq.ahead
  | @packet state packet clock hrun halive ih =>
    rcases handleExistingFlow_arrives halive with hb | ⟨s, clock', hsame, hgate, he⟩
    · rw [heldSpans_congr hb.side]
      exact ih
    · rw [he] at halive ⊢
      refine ahead_ingestSegment (hrun.inv.congr hsame.side fun hs => hsame.finSeen.trans hs) ?_
        (hsame.passesFinGate.mpr hgate) halive
      rw [heldSpans_congr hsame.side]
      exact ih
  | @pump state _ ih =>
    obtain ⟨hr, hs, -⟩ := pumpDrain_receiveSide state tcp
    rwa [heldSpans, hs, hr]
  | other _ hside _ ih =>
    rw [heldSpans_congr hside]
    exact ih

end Runs

def InBlock (block : UInt32 × UInt32) (x : UInt32) : Prop := (x - block.1).toNat < (block.2 - block.1).toNat

/-- The byte with this number is payload of a segment buffered beyond the expected one. -/
def Buffered (state : TcpFlowState) (x : UInt32) : Prop :=
  ∃ segment ∈ state.pendingClientSegments, seqGt segment.sequenceNumber state.rcvNxt = true ∧
    (x - segment.sequenceNumber).toNat < segment.payload.length

/-- The blocks are not empty, apart, beyond the expected number and hold nothing but buffered payload. -/
structure Truthful (state : TcpFlowState) (blocks : List (UInt32 × UInt32)) : Prop where
  nonempty : ∀ block ∈ blocks, seqLt block.1 block.2 = true
  disjoint : blocks.Pairwise fun a b => ∀ x, ¬(InBlock a x ∧ InBlock b x)
  above : ∀ block ∈ blocks, seqGt block.1 state.rcvNxt = true
  buffered : ∀ block ∈ blocks, ∀ x, InBlock block x → Buffered state x

def Complete (state : TcpFlowState) (blocks : List (UInt32 × UInt32)) : Prop :=
  ∀ x, Buffered state x → ∃ block ∈ blocks, InBlock block x

theorem toNat_sub_point_lt_iff (origin x : UInt32) {a n : Nat} (ha : a + n < 2 ^ 31) :
    (x - point origin a).toNat < n ↔ a ≤ (x - origin).toNat ∧ (x - origin).toNat < a + n := by
  obtain ⟨k, hk, rfl⟩ : ∃ k < 2 ^ 32, x = point origin k := ⟨_, (x - origin).toNat_lt, (point_toNat_sub _ _).symm⟩
  rw [toNat_point_sub origin hk]
  rcases Nat.lt_or_ge k a with hlt | hge
  · rw [toNat_point_sub_point_of_lt origin hlt (by omega)]
    omega
  · rw [toNat_point_sub_point origin hge (by omega)]
    omega

theorem inBlock_iff (origin : UInt32) {span : Nat × Nat} (hspan : Between 1 (2 ^ 31 - 1) span) (x : UInt32) :
    InBlock (point origin span.1, point origin span.2) x ↔
      span.1 ≤ (x - origin).toNat ∧ (x - origin).toNat < span.2 := by
  obtain ⟨h1, h2, h3⟩ := hspan
  rw [InBlock, toNat_point_sub_point origin h2 (by omega), toNat_sub_point_lt_iff origin x (by omega)]
  omega

theorem mem_heldSpans : s ∈ heldSpans state ↔
    ∃ segment ∈ state.pendingClientSegments, seqGt segment.sequenceNumber state.rcvNxt = true ∧
      segment.sequenceNumber = point state.rcvNxt s.1 ∧ s.2 = s.1 + segment.payload.length ∧ s.1 < 2 ^ 32 := by
  refine mem_filterMap.trans (exists_congr fun segment => and_congr_right fun _ => ?_)
  cases seqGt segment.sequenceNumber state.rcvNxt with
  | false => simp
  | true =>
    simp only [Bool.not_true, Bool.false_eq_true, if_false, Option.some.injEq, true_and]
    constructor
    · rintro rfl
      exact ⟨(point_toNat_sub _ _).symm, rfl, UInt32.toNat_lt _⟩
    · rintro ⟨hseq, hend, hlt⟩
      rw [hseq, toNat_point_sub _ hlt, ← hend]

theorem buffered_iff (hahead : Ahead (heldSpans state)) (x : UInt32) :
    Buffered state x ↔ Holds (heldSpans state) (x - state.rcvNxt).toNat := by
  have hbytes : ∀ s ∈ heldSpans state, ∀ segment : BufferedClientSegment,
      segment.sequenceNumber = point state.rcvNxt s.1 → s.2 = s.1 + segment.payload.length →
      ((x - segment.sequenceNumber).toNat < segment.payload.length ↔
        s.1 ≤ (x - state.rcvNxt).toNat ∧ (x - state.rcvNxt).toNat < s.2) := by
    intro s hs segment hseq hend
    have hlt := (hahead s hs).2.2
    rw [hseq, toNat_sub_point_lt_iff _ _ (by omega), hend]
  constructor
  · rintro ⟨segment, hsegment, hgt, hin⟩
    have hseq := (point_toNat_sub state.rcvNxt segment.sequenceNumber).symm
    have hs := mem_heldSpans (s := (_, _ + _)).2 ⟨segment, hsegment, hgt, hseq, rfl, UInt32.toNat_lt _⟩
    exact ⟨_, hs, (hbytes _ hs segment hseq rfl).1 hin⟩
  · rintro ⟨s, hs, hin⟩
    obtain ⟨segment, hsegment, hgt, hseq, hend, -⟩ := mem_heldSpans.1 hs
    exact ⟨segment, hsegment, hgt, (hbytes s hs segment hseq hend).2 hin⟩

def sentSpans (state : TcpFlowState) : List (Nat × Nat) :=
  if state.clientSackPermitted then
    ((written state.rcvNxt.toNat (heldSpans state)).take (sackLimit state)).filter fun s => decide (s.1 < s.2)
  else []

theorem filter_sackBlocks (hahead : Ahead (heldSpans state)) :
    (sackBlocks state).filter (fun block => seqLt block.1 block.2) =
      (sentSpans state).map fun s => (point state.rcvNxt s.1, point state.rcvNxt s.2) := by
  rw [sackBlocks, sentSpans]
  split_ifs
  · rw [bufferedRanges_eq, mergedRanges_toBoard _ hahead, toBoard, ← map_take, map_map, filter_map]
    congr 1
    refine filter_congr fun s hs => ?_
    obtain ⟨h1, h2, h3⟩ := written_between hahead s (mem_of_mem_take hs)
    exact seqLt_point state.rcvNxt (by omega) (by omega)
  · rfl

theorem truthful_sentSpans (hahead : Ahead (heldSpans state)) :
    Truthful state ((sentSpans state).map fun s => (point state.rcvNxt s.1, point state.rcvNxt s.2)) := by
  have hsent : ∀ s ∈ sentSpans state, s ∈ written state.rcvNxt.toNat (heldSpans state) ∧ s.1 < s.2 := by
    grind [sentSpans, mem_of_mem_take]
  have hbetween : ∀ s ∈ sentSpans state, Between 1 (2 ^ 31 - 1) s := fun s hs => written_between hahead s (hsent s hs).1
  have hgaps : (sentSpans state).Pairwise fun s t => s.2 < t.1 := by grind [sentSpans, written_gaps, take_sublist]
  refine ⟨?_, ?_, ?_, ?_⟩
  · intro block hblock
    obtain ⟨s, hs, rfl⟩ := mem_map.1 hblock
    obtain ⟨h1, h2, h3⟩ := hbetween s hs
    simp only [seqLt_point state.rcvNxt (by omega : s.2 ≤ s.1 + 2 ^ 31) (by omega), (hsent s hs).2, decide_true]
  · rw [pairwise_map]
    refine hgaps.imp_of_mem fun {s t} hs ht hgap x => ?_
    rw [inBlock_iff _ (hbetween s hs), inBlock_iff _ (hbetween t ht)]
    omega
  · intro block hblock
    obtain ⟨s, hs, rfl⟩ := mem_map.1 hblock
    obtain ⟨h1, h2, h3⟩ := hbetween s hs
    have hgt := seqGt_point state.rcvNxt (by omega : 0 ≤ s.1 + 2 ^ 31) (by omega : s.1 < 0 + 2 ^ 31)
    rw [point_zero] at hgt
    simp only [hgt, decide_eq_true_iff]
    omega
  · intro block hblock x hx
    obtain ⟨s, hs, rfl⟩ := mem_map.1 hblock
    rw [inBlock_iff _ (hbetween s hs)] at hx
    exact (buffered_iff hahead x).2 (holds_of_written ⟨s, (hsent s hs).1, hx⟩)

/-- Payload is reported if SACK was agreed on, and if nothing starts past the wrap point while some of the
payload lies before it. -/
def Sackable (state : TcpFlowState) : Prop :=
  ∀ s ∈ heldSpans state, s.1 < s.2 → state.clientSackPermitted = true ∧
    (wraps state.rcvNxt.toNat s = false → ∀ t ∈ heldSpans state, wraps state.rcvNxt.toNat t = false)

theorem complete_iff_holds (hahead : Ahead (heldSpans state)) :
    Complete state ((sentSpans state).map fun s => (point state.rcvNxt s.1, point state.rcvNxt s.2)) ↔
      ∀ k, Holds (heldSpans state) k → Holds (sentSpans state) k := by
  have hbetween : ∀ s ∈ sentSpans state, Between 1 (2 ^ 31 - 1) s := by
    grind [sentSpans, written_between, mem_of_mem_take, mem_of_mem_filter]
  constructor
  · intro hcomplete k hk
    have hlt : k < 2 ^ 31 := by
      obtain ⟨s, hs, -, hend⟩ := hk
      have := (hahead s hs).2.2
      omega
    have hback := toNat_point_sub state.rcvNxt (by omega : k < 2 ^ 32)
    obtain ⟨block, hblock, hin⟩ := hcomplete (point state.rcvNxt k) ((buffered_iff hahead _).2 (hback.symm ▸ hk))
    obtain ⟨s, hs, rfl⟩ := mem_map.1 hblock
    rw [inBlock_iff _ (hbetween s hs), hback] at hin
    exact ⟨s, hs, hin⟩
  · intro hholds x hx
    obtain ⟨s, hs, hin⟩ := hholds _ ((buffered_iff hahead x).1 hx)
    exact ⟨_, mem_map_of_mem hs, (inBlock_iff _ (hbetween s hs) x).2 hin⟩

theorem complete_sentSpans_iff (hahead : Ahead (heldSpans state)) :
    Complete state ((sentSpans state).map fun s => (point state.rcvNxt s.1, point state.rcvNxt s.2)) ↔
      Sackable state ∧ NoneDisplaced (sackLimit state) (reported state.rcvNxt.toNat (heldSpans state)) := by
  rw [complete_iff_holds hahead, sentSpans]
  cases hpermitted : state.clientSackPermitted with
  | true =>
    have hsame : Sackable state ↔ OneSided state.rcvNxt.toNat (heldSpans state) := by
      simp [Sackable, OneSided, hpermitted]
    have hkept : ∀ (l : List (Nat × Nat)) k, Holds (l.filter fun s => decide (s.1 < s.2)) k ↔ Holds l k := by
      intro l k
      simp only [Holds, mem_filter, decide_eq_true_iff]
      exact exists_congr fun s => ⟨fun h => ⟨h.1.1, h.2⟩, fun h => ⟨⟨h.1, h.2.1.trans_lt h.2.2⟩, h.2⟩⟩
    simp only [if_true, hkept, hsame]
    exact covers_iff state.rcvNxt.toNat_lt hahead
  | false =>
    simp only [Bool.false_eq_true, if_false, holds_nil, imp_false]
    constructor
    · intro hnone
      refine ⟨fun s hs hpayload => absurd ⟨s, hs, le_rfl, hpayload⟩ (hnone s.1), fun s hs => ?_⟩
      by_contra hpayload
      obtain ⟨t, ht, hin⟩ := holds_islands.1 ⟨s, mem_of_mem_drop hs, le_rfl, not_le.1 hpayload⟩
      rw [reported] at ht
      split_ifs at ht
      · exact hnone s.1 ⟨t, mem_of_mem_filter ht, hin⟩
      · exact hnone s.1 ⟨t, ht, hin⟩
    · rintro ⟨hsackable, -⟩ k ⟨s, hs, hstart, hend⟩
      have := (hsackable s hs (hstart.trans_lt hend)).1
      rw [hpermitted] at this
      cases this

/-- Every acknowledgement carries blocks that are truthful and, if the islands fit, complete, if and only if
SACK was agreed on and no payload lies before the wrap point while something starts past it.  Counting only
islands of payload, FIN markers must not take the room of payload behind them. -/
theorem ack_options_describe_iff {tcp : TunTcpConfig} (hrun : ReceiveRun tcp state) (serverTimestampOffset : UInt32)
    (now : Instant) : ∃ options parsed, ackOptions state serverTimestampOffset now = some options ∧
      parseTcpOptions options = .ok parsed ∧ ((Truthful state parsed.sackBlocks ∧
          ((islands (heldSpans state)).length ≤ sackLimit state → Complete state parsed.sackBlocks)) ↔
        ((islands (heldSpans state)).length ≤ sackLimit state → Sackable state)) ∧
      ((Truthful state parsed.sackBlocks ∧
          ((islands ((heldSpans state).filter fun s => s.1 < s.2)).length ≤ sackLimit state →
            Complete state parsed.sackBlocks)) ↔
        ((islands ((heldSpans state).filter fun s => s.1 < s.2)).length ≤ sackLimit state →
          Sackable state ∧ NoneDisplaced (sackLimit state) (reported state.rcvNxt.toNat (heldSpans state)))) := by
  have hahead := hrun.ahead
  obtain ⟨options, parsed, hoptions, hparsed, hblocks⟩ := parse_ackOptions state serverTimestampOffset now
  rw [filter_sackBlocks hahead] at hblocks
  have htruthful := truthful_sentSpans hahead
  have hcomplete := complete_sentSpans_iff hahead
  rw [← hblocks] at htruthful hcomplete
  refine ⟨options, parsed, hoptions, hparsed, ?_, ?_⟩
  · simp only [htruthful, true_and, hcomplete]
    refine forall_congr' fun hfits => and_iff_left_of_imp fun hsackable s hs => ?_
    -- as many islands as there is room for leave nothing over
    have hside : OneSided state.rcvNxt.toNat (heldSpans state) := fun s hs hpayload => (hsackable s hs hpayload).2
    have hnone := drop_eq_nil_of_le ((length_islands_reported_le hahead hside).trans hfits)
    rw [hnone] at hs
    simp at hs
  · simp only [htruthful, true_and, hcomplete]

def wrappingFlow : TcpFlowState := { sampleFlow with rcvNxt := 4294967288, clientSackPermitted := true }

def segmentAt (sequenceNumber : UInt32) : ParsedTcpPacket :=
  ⟨sequenceNumber, 1000, 65535, none, none, false, [], none, { ack := true }, [1, 2]⟩

theorem wrappingFlow_run : ReceiveRun .standard wrappingFlow :=
  .start (wellQueued_of_empty rfl (by decide)) (by decide) (by decide)

/-- Two segments before the wrap point are reported in two blocks. -/
theorem ack_options_describe_two :
    let one := (handleExistingFlow wrappingFlow .standard (segmentAt 4294967290) (Clock.still 0)).state
    let two := (handleExistingFlow one .standard (segmentAt 4294967293) (Clock.still 1)).state
    ∃ options parsed, ackOptions two 0 2 = some options ∧ parseTcpOptions options = .ok parsed ∧
      Truthful two parsed.sackBlocks ∧ Complete two parsed.sackBlocks := by
  intro one two
  have hone : ReceiveRun .standard one := wrappingFlow_run.packet _ (Clock.still 0) (by decide +kernel)
  have htwo : ReceiveRun .standard two := hone.packet _ (Clock.still 1) (by decide +kernel)
  have hheld : heldSpans two = [(2, 4), (5, 7)] := by decide +kernel
  have hsackable : Sackable two := by
    have hbase : two.rcvNxt = 4294967288 ∧ two.clientSackPermitted = true := by decide +kernel
    rw [Sackable, hheld, hbase.1]
    intro s hs hpayload
    refine ⟨hbase.2, fun _ t ht => ?_⟩
    simp only [mem_cons, not_mem_nil, or_false] at ht
    rcases ht with rfl | rfl <;> decide
  obtain ⟨options, parsed, hoptions, hparsed, hiff, -⟩ := ack_options_describe_iff htwo 0 2
  obtain ⟨htruthful, hcomplete⟩ := hiff.2 fun _ => hsackable
  exact ⟨options, parsed, hoptions, hparsed, htruthful, hcomplete (by rw [hheld]; decide +kernel)⟩

/-- A segment on either side of the wrap point: only the later one is reported. -/
theorem ack_options_lose_segment :
    let one := (handleExistingFlow wrappingFlow .standard (segmentAt 4294967290) (Clock.still 0)).state
    let two := (handleExistingFlow one .standard (segmentAt 4) (Clock.still 1)).state
    ReceiveRun .standard two ∧ (islands (heldSpans two)).length = 2 ∧ sackLimit two = 4 ∧ Buffered two 4294967290 ∧
      ∃ options parsed, ackOptions two 0 2 = some options ∧ parseTcpOptions options = .ok parsed ∧
        parsed.sackBlocks = [(4, 6)] ∧ ¬Complete two parsed.sackBlocks := by
  intro one two
  have hone : ReceiveRun .standard one := wrappingFlow_run.packet _ (Clock.still 0) (by decide +kernel)
  have htwo : ReceiveRun .standard two := hone.packet _ (Clock.still 1) (by decide +kernel)
  have hbuffered : Buffered two 4294967290 := by
    refine ⟨⟨4294967290, { ack := true }, [1, 2]⟩, ?_, ?_⟩
    all_goals decide +kernel
  have hbytes : ackOptions two 0 2 = some [5, 10, 0, 0, 0, 4, 0, 0, 0, 6, 1, 1] := by decide +kernel
  refine ⟨htwo, by decide +kernel, by decide +kernel, hbuffered, _, { sackBlocks := [(4, 6)] }, hbytes,
    by decide +kernel, rfl, fun hcomplete => ?_⟩
  obtain ⟨block, hblock, hin⟩ := hcomplete _ hbuffered
  obtain rfl := mem_singleton.1 hblock
  exact absurd hin (by unfold InBlock; decide)

end OutlineProxy.Tcp
