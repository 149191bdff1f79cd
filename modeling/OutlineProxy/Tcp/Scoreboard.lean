import OutlineProxy.Lib.Spans
import OutlineProxy.Tcp.Congestion

/-! The SACK scoreboard as a list of spans of stream positions, in one half of the number space. -/

namespace OutlineProxy.Tcp

open List Serial Spans

variable {origin : UInt32} {spans merged : List (Nat × Nat)} {span : Nat × Nat} {lo hi ack k stop : Nat}

def toRange (origin : UInt32) (span : Nat × Nat) : SequenceRange :=
  ⟨point origin span.1, point origin span.2⟩

def toBoard (origin : UInt32) (spans : List (Nat × Nat)) : List SequenceRange :=
  spans.map (toRange origin)

theorem exists_toBoard {ranges : List SequenceRange}
    (h : ∀ r ∈ ranges, ∃ s, r = toRange origin s ∧ Proper lo hi s) :
    ∃ spans, ranges = toBoard origin spans ∧ ∀ s ∈ spans, Proper lo hi s := by
  induction ranges with
  | nil => exact ⟨[], rfl, by simp⟩
  | cons r rest ih =>
    obtain ⟨s, rfl, hs⟩ := h r (by simp)
    obtain ⟨spans, rfl, hspans⟩ := ih fun t ht => h t (by simp [ht])
    exact ⟨s :: spans, rfl, by simpa [hs] using hspans⟩

section HalfSpace

variable (hw : hi < lo + 2 ^ 31)

include hw

theorem seqGt_between (hk : lo ≤ k ∧ k ≤ hi) (hs : lo ≤ stop ∧ stop ≤ hi) :
    seqGt (point origin k) (point origin stop) = decide (stop < k) :=
  seqGt_point origin (by omega) (by omega)

theorem seqLt_between (hk : lo ≤ k ∧ k ≤ hi) (hs : lo ≤ stop ∧ stop ≤ hi) :
    seqLt (point origin k) (point origin stop) = decide (k < stop) :=
  seqLt_point origin (by omega) (by omega)

theorem rangeFullyCovered_toBoard (hspans : ∀ s ∈ spans, Proper lo hi s) (hk : lo ≤ k)
    (hlt : k < stop) (hstop : stop ≤ hi) :
    rangeFullyCovered (toBoard origin spans) (point origin k) (point origin stop) = covered k stop spans := by
  have hgo : rangeFullyCovered.go (point origin k) (point origin stop) (toBoard origin spans) =
      covered k stop spans := by
    induction spans with
    | nil => rfl
    | cons s rest ih =>
      obtain ⟨hlo, hne, hhi⟩ := hspans s (by simp)
      have hrest := ih fun t ht => hspans t (by simp [ht])
      have hstart : seqGt (toRange origin s).start (point origin k) = decide (k < s.1) :=
        seqGt_between hw ⟨by omega, by omega⟩ ⟨by omega, by omega⟩
      have hend : seqGt (toRange origin s).end (point origin k) = decide (k < s.2) :=
        seqGt_between hw ⟨by omega, by omega⟩ ⟨by omega, by omega⟩
      have hreach : seqLt (toRange origin s).end (point origin stop) = decide (s.2 < stop) :=
        seqLt_between hw ⟨by omega, by omega⟩ ⟨by omega, by omega⟩
      rw [toBoard] at hrest
      simp only [toBoard, map_cons, rangeFullyCovered.go, covered, hstart, hend, hreach, hrest]
      simp [← decide_not]
  rw [rangeFullyCovered, seqGt_between hw ⟨by omega, by omega⟩ ⟨by omega, by omega⟩, decide_eq_true hlt]
  exact hgo

theorem mergeRange_toBoard (hmerged : ∀ s ∈ merged, Between lo hi s) (hspan : Between lo hi span) :
    mergeRange (toBoard origin merged) (toRange origin span) = toBoard origin (join merged span) := by
  obtain ⟨hlo, hne, hhi⟩ := hspan
  cases merged with
  | nil => rfl
  | cons last before =>
    obtain ⟨hlo', hne', hhi'⟩ := hmerged last (by simp)
    have hstart : seqGt (toRange origin span).start (toRange origin last).end = decide (last.2 < span.1) :=
      seqGt_between hw ⟨by omega, by omega⟩ ⟨by omega, by omega⟩
    have hend : seqGt (toRange origin span).end (toRange origin last).end = decide (last.2 < span.2) :=
      seqGt_between hw ⟨by omega, by omega⟩ ⟨by omega, by omega⟩
    simp only [toBoard, map_cons, mergeRange, join, hstart, hend]
    by_cases htouch : span.1 ≤ last.2
    · grind [toRange]
    · simp [htouch, not_le.1 htouch]

theorem foldl_mergeRange_toBoard (hspans : ∀ s ∈ spans, Between lo hi s) (hmerged : ∀ s ∈ merged, Between lo hi s) :
    (toBoard origin spans).foldl mergeRange (toBoard origin merged) = toBoard origin (spans.foldl join merged) := by
  induction spans generalizing merged with
  | nil => rfl
  | cons s rest ih =>
    have hs := hspans s (by simp)
    change (toBoard origin rest).foldl mergeRange (mergeRange (toBoard origin merged) (toRange origin s)) = _
    rw [mergeRange_toBoard hw hmerged hs]
    exact ih (fun t ht => hspans t (by simp [ht])) (join_between hmerged hs)

theorem foldl_mergeRange_nil (hspans : ∀ s ∈ spans, Between lo hi s) :
    ((toBoard origin spans).foldl mergeRange []).reverse = toBoard origin (spans.foldl join []).reverse := by
  have hnil : ∀ s ∈ ([] : List (Nat × Nat)), Between lo hi s := by simp
  have hfold := @foldl_mergeRange_toBoard origin _ _ _ _ hw hspans hnil
  rw [show toBoard origin [] = [] from rfl] at hfold
  rw [hfold, toBoard, toBoard, map_reverse]

theorem mergeSequenceRanges_spans {ranges : List SequenceRange} (anchor : UInt32)
    (h : ∀ r ∈ ranges, ∃ s, r = toRange origin s ∧ Proper lo hi s) :
    ∃ spans, mergeSequenceRanges ranges anchor = toBoard origin spans ∧ Separated spans ∧
      ∀ s ∈ spans, Proper lo hi s := by
  generalize hsort : (ranges.filter fun range => seqGt range.end range.start).insertionSort
    (fun a b => a.start - anchor ≤ b.start - anchor) = sorted
  have hsorted : ∀ r ∈ sorted, ∃ s, r = toRange origin s ∧ Proper lo hi s := by
    intro r hr
    rw [← hsort, mem_insertionSort] at hr
    exact h r (mem_filter.1 hr).1
  obtain ⟨inputs, hinputs, hproper⟩ := exists_toBoard hsorted
  refine ⟨(inputs.foldl join []).reverse, ?_, foldl_join_separated (fun s hs => (hproper s hs).2.1) .nil,
    fun s hs => foldl_join_proper hproper (by simp) s (mem_reverse.1 hs)⟩
  simp only [mergeSequenceRanges, hsort, hinputs]
  exact foldl_mergeRange_nil hw fun s hs => (hproper s hs).between

theorem filter_toBoard (hspans : ∀ s ∈ spans, Proper lo hi s) :
    (toBoard origin spans).filter (fun range => seqGt range.end range.start) = toBoard origin spans := by
  rw [filter_eq_self]
  intro r hr
  obtain ⟨s, hs, rfl⟩ := mem_map.1 hr
  obtain ⟨hlo, hne, hhi⟩ := hspans s hs
  exact (seqGt_between hw ⟨by omega, by omega⟩ ⟨by omega, by omega⟩).trans (decide_eq_true hne)

theorem mergeSequenceRanges_of_separated (hsep : Separated spans)
    (hspans : ∀ s ∈ spans, Proper lo hi s) (hack : lo ≤ ack) (hbeyond : ∀ s ∈ spans, ack ≤ s.1) :
    mergeSequenceRanges (toBoard origin spans) (point origin ack) = toBoard origin spans := by
  have hsorted : (toBoard origin spans).Pairwise fun a b =>
      a.start - point origin ack ≤ b.start - point origin ack := by
    rw [toBoard, pairwise_map]
    refine hsep.starts_lt.imp_of_mem fun {s t} hs ht hlt => ?_
    have hs' := hspans s hs
    have ht' := hspans t ht
    have hsa := hbeyond s hs
    have hta := hbeyond t ht
    obtain ⟨-, hne', hhi'⟩ := ht'
    rw [UInt32.le_iff_toNat_le, toRange, toRange,
      toNat_point_sub_point origin hsa (by omega), toNat_point_sub_point origin hta (by omega)]
    omega
  simp only [mergeSequenceRanges, filter_toBoard hw hspans, hsorted.insertionSort_eq]
  rw [foldl_mergeRange_nil hw fun s hs => (hspans s hs).between,
    foldl_join_of_separated (by simpa using hsep), append_nil, reverse_reverse]

section Ack

variable (hack : lo ≤ ack ∧ ack ≤ hi)

include hack

theorem clipRange_toRange (hspan : Proper lo hi span) :
    clipRange (point origin ack) (toRange origin span) =
      if ack < span.2 then some (toRange origin (max span.1 ack, span.2), decide (span.1 < ack)) else none := by
  obtain ⟨hlo, hne, hhi⟩ := hspan
  have hend : seqGt (toRange origin span).end (point origin ack) = decide (ack < span.2) :=
    seqGt_between hw ⟨by omega, by omega⟩ hack
  have hstart : seqLt (toRange origin span).start (point origin ack) = decide (span.1 < ack) :=
    seqLt_between hw ⟨by omega, by omega⟩ hack
  simp only [clipRange, hend, hstart]
  by_cases hbeyond : ack < span.2
  · grind [toRange]
  · simp [hbeyond]

theorem filterMap_clipRange_toBoard (hspans : ∀ s ∈ spans, Proper lo hi s)
    (hbeyond : ∀ s ∈ spans, ack < s.2 → ack ≤ s.1) :
    ((toBoard origin spans).filterMap (clipRange (point origin ack))).map Prod.fst =
      toBoard origin (spans.filter fun s => ack < s.2) := by
  induction spans with
  | nil => rfl
  | cons s rest ih =>
    have hclip := @clipRange_toRange origin _ _ _ _ hw hack (hspans s (by simp))
    have hrest := ih (fun t ht => hspans t (by simp [ht])) fun t ht => hbeyond t (by simp [ht])
    simp only [toBoard] at hrest ⊢
    by_cases hend : ack < s.2
    · grind [filterMap_cons_some, filter_cons_of_pos]
    · grind [filterMap_cons_none, filter_cons_of_neg]

theorem trimSackScoreboard_spans (hsep : Separated spans) (hspans : ∀ s ∈ spans, Proper lo hi s) :
    ∃ kept, (trimSackScoreboard (toBoard origin spans) (point origin ack)).1 = toBoard origin kept ∧
      Separated kept ∧ (∀ s ∈ kept, Proper ack hi s) ∧
      ((trimSackScoreboard (toBoard origin spans) (point origin ack)).2 = false →
        kept = spans.filter fun s => ack < s.2) := by
  have hcut : ∀ r ∈ (((toBoard origin spans).filterMap (clipRange (point origin ack))).map Prod.fst).filter
      (fun range => seqGt range.end range.start), ∃ s, r = toRange origin s ∧ Proper ack hi s := by
    intro r hr
    obtain ⟨⟨c, clipped⟩, hc, rfl⟩ := mem_map.1 (mem_filter.1 hr).1
    obtain ⟨b, hb, hclip⟩ := mem_filterMap.1 hc
    obtain ⟨s, hs, rfl⟩ := mem_map.1 hb
    rw [clipRange_toRange hw hack (hspans s hs)] at hclip
    split_ifs at hclip with hbeyond
    obtain ⟨-, hne, hhi⟩ := hspans s hs
    cases hclip
    exact ⟨_, rfl, le_max_right _ _, max_lt hne hbeyond, hhi⟩
  cases hclipped : (trimSackScoreboard (toBoard origin spans) (point origin ack)).2 with
  | true =>
    obtain ⟨kept, hkept, hapart, hproper⟩ :=
      mergeSequenceRanges_spans (by omega : hi < ack + 2 ^ 31) (point origin ack) hcut
    exact ⟨kept, hkept, hapart, hproper, by simp⟩
  | false =>
    have hbeyond : ∀ s ∈ spans, ack < s.2 → ack ≤ s.1 := by
      intro s hs hend
      by_contra hstraddle
      have hm : (toRange origin (max s.1 ack, s.2), decide (s.1 < ack)) ∈
          (toBoard origin spans).filterMap (clipRange (point origin ack)) := by
        refine mem_filterMap.2 ⟨toRange origin s, mem_map_of_mem hs, ?_⟩
        rw [clipRange_toRange hw hack (hspans s hs), if_pos hend]
      have hany : ((toBoard origin spans).filterMap (clipRange (point origin ack))).any Prod.snd = true :=
        any_eq_true.2 ⟨_, hm, decide_eq_true (not_le.1 hstraddle)⟩
      rw [trimSackScoreboard] at hclipped
      rw [hany] at hclipped
      exact Bool.noConfusion hclipped
    have hkept : ∀ s ∈ spans.filter fun s => ack < s.2, Proper ack hi s := by
      intro s hs
      obtain ⟨hm, hend⟩ := mem_filter.1 hs
      have hend' : ack < s.2 := by simpa using hend
      exact ⟨hbeyond s hm hend', (hspans s hm).2.1, (hspans s hm).2.2⟩
    have hapart := hsep.sublist (filter_sublist (p := fun s => ack < s.2))
    have hw' : hi < ack + 2 ^ 31 := by omega
    refine ⟨spans.filter fun s => ack < s.2, ?_, hapart, hkept, fun _ => rfl⟩
    simp only [trimSackScoreboard, filterMap_clipRange_toBoard hw hack hspans hbeyond, filter_toBoard hw' hkept]
    exact mergeSequenceRanges_of_separated hw' hapart hkept le_rfl fun s hs => (hkept s hs).1

theorem clipRange_block {block range : SequenceRange} {clipped : Bool}
    (hclip : clipRange (point origin ack) block = some (range, clipped))
    (hne : seqGt range.end range.start = true) (hblock : seqGt block.end (point origin hi) = false) :
    ∃ s, range = toRange origin s ∧ Proper ack hi s := by
  have hat : ∀ x, x = point origin (ack + (x - point origin ack).toNat) := fun x => by
    rw [← point_point, point_toNat_sub]
  rw [clipRange] at hclip
  split_ifs at hclip with hend
  obtain ⟨hrange, -⟩ := Prod.mk.injEq .. ▸ Option.some.inj hclip
  have habove : 0 < (block.end - point origin ack).toNat ∧ (block.end - point origin ack).toNat < 2 ^ 31 := by
    rw [← seqGt_iff]
    simpa using hend
  have hstop : ack + (block.end - point origin ack).toNat ≤ hi := by
    rw [hat block.end, seqGt_point origin (by omega) (by omega)] at hblock
    simpa using hblock
  by_cases hcut : seqLt block.start (point origin ack) = true
  · rw [if_pos hcut] at hrange
    refine ⟨(ack, ack + (block.end - point origin ack).toNat), ?_, le_rfl, by omega, hstop⟩
    rw [← hrange, toRange, ← hat]
  · rw [if_neg hcut] at hrange
    have hstart : (block.start - point origin ack).toNat < 2 ^ 31 := by
      rw [seqLt_iff] at hcut
      omega
    subst hrange
    rw [hat block.end, hat block.start, seqGt_point origin (by omega) (by omega)] at hne
    refine ⟨(ack + (block.start - point origin ack).toNat, ack + (block.end - point origin ack).toNat), ?_,
      Nat.le_add_right _ _, of_decide_eq_true hne, hstop⟩
    rw [toRange, ← hat, ← hat]

theorem updateSackScoreboard_spans (hspans : ∀ s ∈ spans, Proper lo hi s)
    {blocks : List (UInt32 × UInt32)} (hblocks : ∀ b ∈ blocks, seqGt b.2 (point origin hi) = false) :
    updateSackScoreboard (toBoard origin spans) (point origin ack) blocks = (toBoard origin spans, false) ∨
      ∃ next, updateSackScoreboard (toBoard origin spans) (point origin ack) blocks =
          (toBoard origin next, true) ∧ Separated next ∧ ∀ s ∈ next, Proper lo hi s := by
  simp only [updateSackScoreboard]
  split
  · exact .inl rfl
  · refine .inr ?_
    generalize hnew : filter _ _ = fresh
    have hfresh : ∀ r ∈ fresh, ∃ s, r = toRange origin s ∧ Proper lo hi s := by
      intro r hr
      rw [← hnew] at hr
      obtain ⟨hm, hkeep⟩ := mem_filter.1 hr
      obtain ⟨⟨c, clipped⟩, hc, rfl⟩ := mem_map.1 hm
      obtain ⟨block, hblock, hclip⟩ := mem_filterMap.1 hc
      obtain ⟨b, hb, rfl⟩ := mem_map.1 hblock
      obtain ⟨s, hs, hproper⟩ := clipRange_block hw hack hclip (Bool.and_eq_true_iff.1 hkeep).1 (hblocks b hb)
      exact ⟨s, hs, hack.1.trans hproper.1, hproper.2⟩
    have hall : ∀ r ∈ toBoard origin spans ++ fresh, ∃ s, r = toRange origin s ∧ Proper lo hi s := by
      intro r hr
      rcases mem_append.1 hr with hold | hr
      · obtain ⟨s, hs, rfl⟩ := mem_map.1 hold
        exact ⟨s, rfl, hspans s hs⟩
      · exact hfresh r hr
    obtain ⟨next, hnext, hsep, hproper⟩ := mergeSequenceRanges_spans hw (point origin ack) hall
    exact ⟨next, by rw [hnext], hsep, hproper⟩

end Ack

end HalfSpace

end OutlineProxy.Tcp
