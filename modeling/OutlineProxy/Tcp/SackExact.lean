import OutlineProxy.Tcp.InFlight
import OutlineProxy.Tcp.SackPlaces

/-! The scoreboard as a set of sequence numbers. -/

namespace OutlineProxy.Tcp

open List Serial Spans

variable {o : UInt32} {spans blocks ranges : List (Nat × Nat)} {s : Nat × Nat} {k : Nat}

/-- The block adds nothing: the part of it above the acknowledgement is empty, or it lies in one range
of the scoreboard and starts at most half the number space after the scoreboard does. -/
def Known (spans : List (Nat × Nat)) (block : Nat × Nat) : Prop :=
  block.1 < block.2 → 2 ^ 31 < block.2 →
    Covers spans (above block).1 block.2 ∧ ∀ first ∈ spans.head?, (above block).1 ≤ first.1 + 2 ^ 31

def freshBlocks (o : UInt32) (spans blocks : List (Nat × Nat)) : List (Nat × Nat) :=
  ((blocks.filter fun b => 2 ^ 31 < b.2).map above).filter fun s =>
    decide (s.1 < s.2) && !rangeFullyCovered (toBoard o spans) (point o s.1) (point o s.2)

theorem updateSackScoreboard_places (words : List (UInt32 × UInt32))
    (hwords : (words.map fun block => (⟨block.1, block.2⟩ : SequenceRange)) = toBoard o blocks)
    (hblocks : ∀ b ∈ blocks, Within b) : (updateSackScoreboard (toBoard o spans) (point o (2 ^ 31)) words).1 =
      if freshBlocks o spans blocks = [] then toBoard o spans
      else mergeSequenceRanges (toBoard o (spans ++ freshBlocks o spans blocks)) (point o (2 ^ 31)) := by
  have hnew : (((toBoard o blocks).filterMap (clipRange (point o (2 ^ 31)))).map Prod.fst).filter (fun range =>
      seqGt range.end range.start && !rangeFullyCovered (toBoard o spans) range.start range.end) =
      toBoard o (freshBlocks o spans blocks) := by
    rw [filterMap_clipRange_places hblocks, freshBlocks]
    generalize rangeFullyCovered (toBoard o spans) = scan
    rw [toBoard, filter_map, toBoard]
    congr 1
    refine filter_congr fun s hs => ?_
    obtain ⟨b, hb, rfl⟩ := mem_map.1 hs
    obtain ⟨hb, habove⟩ := mem_filter.1 hb
    have hwithin := hblocks b hb
    have habove' : 2 ^ 31 < b.2 := of_decide_eq_true habove
    rw [Function.comp_apply]
    congr 1
    exact seqGt_between top_lt (k := b.2) ⟨by omega, Nat.le_sub_one_of_lt hwithin.2⟩
      ⟨le_max_right _ _, max_le (Nat.le_sub_one_of_lt hwithin.1) (by decide)⟩
  have happend : toBoard o (spans ++ freshBlocks o spans blocks) =
      toBoard o spans ++ toBoard o (freshBlocks o spans blocks) := map_append ..
  simp only [updateSackScoreboard, hwords, hnew, happend]
  by_cases hempty : freshBlocks o spans blocks = []
  · simp [hempty, toBoard]
  · rw [if_neg hempty, if_neg (by simpa [toBoard] using hempty)]

theorem eq_of_straddles {r : Nat × Nat} (hsep : Separated spans) (hr : r ∈ spans) (hlow : r.1 < 2 ^ 31)
    (hhigh : 2 ^ 31 < r.2) (hs : s ∈ spans) (hstart : s.1 ≤ 2 ^ 31) (hend : 2 ^ 31 < s.2) : s = r :=
  hsep.eq_of_holds (k := 2 ^ 31) hs hr ⟨hstart, hend⟩ ⟨hlow.le, hhigh⟩

theorem head?_lows {r : Nat × Nat} (hsep : Separated spans) (hr : r ∈ spans) (hlow : r.1 < 2 ^ 31)
    (hshort : r.2 < r.1 + 2 ^ 31) : (lows spans).head? = spans.head? := by
  cases spans with
  | nil => simp at hr
  | cons first rest =>
    have hfirst : first.1 < 2 ^ 31 ∧ first.2 < first.1 + 2 ^ 31 := by
      rcases mem_cons.1 hr with rfl | hr
      · exact ⟨hlow, hshort⟩
      · have hgap := (pairwise_cons.1 hsep.gaps).1 r hr
        have hne := hsep.nonempty first (by simp)
        exact ⟨by omega, by omega⟩
    rw [lows, filter_cons_of_pos (by simpa using hfirst.2), filter_cons_of_pos (by simpa using hfirst.1)]
    rfl

section Exact

variable (hsep : Separated spans) (hspans : ∀ s ∈ spans, Within s) (hblocks : ∀ b ∈ blocks, Within b)

include hsep hspans hblocks

theorem mem_freshBlocks : s ∈ freshBlocks o spans blocks ↔
    ∃ b ∈ blocks, s = above b ∧ b.1 < b.2 ∧ 2 ^ 31 < b.2 ∧ ¬Known spans b := by
  have hscan : ∀ b ∈ blocks, b.1 < b.2 → 2 ^ 31 < b.2 →
      (rangeFullyCovered (toBoard o spans) (point o (above b).1) (point o b.2) = true ↔ Known spans b) := by
    intro b hb hne habove
    have hcovered := rangeFullyCovered_places (o := o) hsep hspans (le_max_right b.1 _) (max_lt hne habove)
      (hblocks b hb).2
    exact hcovered.trans ⟨fun h _ _ => h, fun h => h hne habove⟩
  simp only [freshBlocks, mem_filter, mem_map, Bool.and_eq_true, decide_eq_true_eq, Bool.not_eq_true',
    Bool.eq_false_iff, ne_eq]
  constructor
  · rintro ⟨⟨b, ⟨hb, habove⟩, rfl⟩, hne, hnot⟩
    have hne' : b.1 < b.2 := (le_max_left _ _).trans_lt hne
    exact ⟨b, hb, rfl, hne', habove, fun hknown => hnot ((hscan b hb hne' habove).2 hknown)⟩
  · rintro ⟨b, hb, rfl, hne, habove, hnot⟩
    exact ⟨⟨b, ⟨hb, habove⟩, rfl⟩, max_lt hne habove, fun h => hnot ((hscan b hb hne habove).1 h)⟩

theorem freshBlocks_proper : ∀ s ∈ freshBlocks o spans blocks, Proper (2 ^ 31) (2 ^ 32 - 1) s := by
  intro s hs
  obtain ⟨b, hb, rfl, hne, habove, -⟩ := (mem_freshBlocks hsep hspans hblocks).1 hs
  exact ⟨le_max_right _ _, max_lt hne habove, Nat.le_sub_one_of_lt (hblocks b hb).2⟩

theorem freshBlocks_eq_nil : freshBlocks o spans blocks = [] ↔ ∀ b ∈ blocks, Known spans b := by
  constructor
  · intro hnil b hb hne habove
    by_contra hnot
    have hmem : above b ∈ freshBlocks o spans blocks :=
      (mem_freshBlocks hsep hspans hblocks).2 ⟨b, hb, rfl, hne, habove, fun h => hnot (h hne habove)⟩
    rw [hnil] at hmem
    simp at hmem
  · intro hknown
    rw [eq_nil_iff_forall_not_mem]
    intro s hs
    obtain ⟨b, hb, -, -, -, hnot⟩ := (mem_freshBlocks hsep hspans hblocks).1 hs
    exact hnot (hknown b hb)

theorem union_iff (hk : 2 ^ 31 ≤ k) : Holds spans k ∨ Holds blocks k ↔
    Holds (highs spans ++ freshBlocks o spans blocks) k ∨ ∃ r ∈ spans, r.1 < 2 ^ 31 ∧ 2 ^ 31 < r.2 ∧ k < r.2 := by
  have hspan : ∀ s ∈ spans, s.1 ≤ k ∧ k < s.2 → Holds (highs spans ++ freshBlocks o spans blocks) k ∨
      ∃ r ∈ spans, r.1 < 2 ^ 31 ∧ 2 ^ 31 < r.2 ∧ k < r.2 := by
    intro s hs hin
    by_cases hhigh : 2 ^ 31 ≤ s.1
    · exact .inl ⟨s, mem_append_left _ (mem_filter.2 ⟨hs, decide_eq_true hhigh⟩), hin⟩
    · exact .inr ⟨s, hs, by omega, by omega, hin.2⟩
  constructor
  · rintro (⟨s, hs, hin⟩ | ⟨b, hb, hin⟩)
    · exact hspan s hs hin
    · by_cases hknown : Known spans b
      · obtain ⟨⟨s, hs, hstart, hstop⟩, -⟩ := hknown (by omega) (by omega)
        have habove := (holds_above (s := b)).2 ⟨hk, hin⟩
        exact hspan s hs ⟨hstart.trans habove.1, hin.2.trans_le hstop⟩
      · have hmem : above b ∈ freshBlocks o spans blocks :=
          (mem_freshBlocks hsep hspans hblocks).2 ⟨b, hb, rfl, by omega, by omega, hknown⟩
        exact .inl ⟨above b, mem_append_right _ hmem, holds_above.2 ⟨hk, hin⟩⟩
  · rintro (⟨s, hs, hin⟩ | ⟨r, hr, hlow, -, hin⟩)
    · rcases mem_append.1 hs with hs | hs
      · exact .inl ⟨s, (mem_filter.1 hs).1, hin⟩
      · obtain ⟨b, hb, rfl, -⟩ := (mem_freshBlocks hsep hspans hblocks).1 hs
        exact .inr ⟨b, hb, (holds_above.1 hin).2⟩
    · exact .inl ⟨r, hr, by omega, hin⟩

theorem spread_iff {reach : Nat}
    (hmerged : Merged spans (freshBlocks o spans blocks) ranges reach) (hfresh : freshBlocks o spans blocks ≠ []) :
    (∃ first ∈ spans.head?, ∃ s ∈ spans ++ blocks, s.1 < s.2 ∧ first.1 + 2 ^ 31 < s.2) ↔
      ∃ first ∈ spans.head?, first.1 + 2 ^ 31 < reach := by
  constructor
  · rintro ⟨first, hfirst, s, hs, hne, hfar⟩
    refine ⟨first, hfirst, ?_⟩
    have hspan : ∀ s ∈ spans, first.1 + 2 ^ 31 < s.2 → first.1 + 2 ^ 31 < reach := by
      intro s hs hfar
      by_cases habove : 2 ^ 31 ≤ s.1
      · exact hfar.trans_le (hmerged.bound s (mem_append_left _ (mem_filter.2 ⟨hs, decide_eq_true habove⟩)))
      · -- a new block is not inside the straddling range, or the scan has given up on it
        obtain ⟨n, hn⟩ := exists_mem_of_ne_nil _ hfresh
        have hbound := hmerged.bound n (mem_append_right _ hn)
        have hproper := freshBlocks_proper hsep hspans hblocks n hn
        obtain ⟨b, hb, rfl, hbne, hbabove, hnot⟩ := (mem_freshBlocks hsep hspans hblocks).1 hn
        have hend : (above b).2 = b.2 := rfl
        by_cases hin : b.2 ≤ s.2
        · have hgaveUp : ¬∀ other ∈ spans.head?, (above b).1 ≤ other.1 + 2 ^ 31 := fun hnear =>
            hnot fun _ _ => ⟨⟨s, hs, by have := hproper.1; omega, hin⟩, hnear⟩
          by_contra hle
          refine hgaveUp fun other hother => ?_
          obtain rfl := Option.mem_unique hfirst hother
          have := hproper.2.1
          omega
        · omega
    rcases mem_append.1 hs with hs | hs
    · exact hspan s hs hfar
    · by_cases hknown : Known spans s
      · obtain ⟨⟨t, ht, -, hstop⟩, -⟩ := hknown hne (by omega)
        exact hspan t ht (hfar.trans_le hstop)
      · have hmem : above s ∈ freshBlocks o spans blocks :=
          (mem_freshBlocks hsep hspans hblocks).2 ⟨s, hs, rfl, hne, by omega, hknown⟩
        exact hfar.trans_le (hmerged.bound (above s) (mem_append_right _ hmem))
  · rintro ⟨first, hfirst, hfar⟩
    refine ⟨first, hfirst, ?_⟩
    obtain ⟨s, hs, hend⟩ := hmerged.reached
    rcases mem_append.1 hs with hs | hs
    · have hs' := (mem_filter.1 hs).1
      exact ⟨s, mem_append_left _ hs', hsep.nonempty s hs', by omega⟩
    · obtain ⟨b, hb, rfl, hne, -⟩ := (mem_freshBlocks hsep hspans hblocks).1 hs
      exact ⟨b, mem_append_right _ hb, hne, hend ▸ hfar⟩

variable {r : Nat × Nat} (hr : r ∈ spans) (hlow : r.1 < 2 ^ 31) (hhigh : 2 ^ 31 < r.2)

include hr hlow hhigh

theorem mem_freshBlocks_of_beyond {b : Nat × Nat} (hb : b ∈ blocks) (hstart : b.1 ≤ 2 ^ 31) (hend : r.2 < b.2) :
    above b ∈ freshBlocks o spans blocks := by
  refine (mem_freshBlocks hsep hspans hblocks).2 ⟨b, hb, rfl, by omega, by omega, fun hknown => ?_⟩
  obtain ⟨⟨s, hs, hs1, hs2⟩, -⟩ := hknown (by omega) (by omega)
  rw [show (above b).1 = 2 ^ 31 from max_eq_right hstart] at hs1
  have hsame := eq_of_straddles hsep hr hlow hhigh hs hs1 (by omega)
  rw [hsame] at hs2
  omega

theorem beyond_of_holds_half (hholds : Holds (highs spans ++ freshBlocks o spans blocks) (2 ^ 31)) :
    ∃ b ∈ blocks, b.1 ≤ 2 ^ 31 ∧ r.2 < b.2 := by
  obtain ⟨s, hs, hstart, hend⟩ := hholds
  rcases mem_append.1 hs with hs | hs
  · obtain ⟨hs, hhalf⟩ := mem_filter.1 hs
    obtain rfl := eq_of_straddles hsep hr hlow hhigh hs hstart hend
    exact absurd (of_decide_eq_true hhalf) (by omega)
  · obtain ⟨b, hb, rfl, hne, habove, hnot⟩ := (mem_freshBlocks hsep hspans hblocks).1 hs
    have hstart' : b.1 ≤ 2 ^ 31 := (le_max_left _ _).trans hstart
    refine ⟨b, hb, hstart', ?_⟩
    by_contra hshort
    refine hnot fun _ _ => ?_
    rw [show (above b).1 = 2 ^ 31 from max_eq_right hstart']
    exact ⟨⟨r, hr, hlow.le, not_lt.1 hshort⟩, fun _ _ => Nat.le_add_left _ _⟩

theorem exact_iff_beyond (hkeep : ∀ k, Holds (highs spans ++ freshBlocks o spans blocks) k → Holds ranges k)
    (hmore : ∀ k, 2 ^ 31 ≤ k → Holds ranges k →
      Holds (highs spans ++ freshBlocks o spans blocks) k ∨ 2 ^ 31 < k ∧ k < r.2) :
    (∀ k, 2 ^ 31 ≤ k → (Holds ranges k ↔ Holds spans k ∨ Holds blocks k)) ↔ ∃ b ∈ blocks, b.1 ≤ 2 ^ 31 ∧ r.2 < b.2 := by
  constructor
  · grind [Holds, beyond_of_holds_half]
  · rintro ⟨b, hb, hstart, hend⟩ k hk
    have hfresh := mem_freshBlocks_of_beyond (o := o) hsep hspans hblocks hr hlow hhigh hb hstart hend
    rw [union_iff (o := o) hsep hspans hblocks hk]
    constructor
    · grind
    · rintro (hin | ⟨r', hr', hlow', hhigh', hin⟩)
      · exact hkeep k hin
      · obtain rfl := eq_of_straddles hsep hr hlow hhigh hr' hlow'.le hhigh'
        exact hkeep k ⟨above b, mem_append_right _ hfresh, holds_above.2 ⟨hk, by omega, by omega⟩⟩

end Exact

/-- A range that straddles the acknowledgement outlives the blocks: none is new, or one starts at or before the
acknowledgement and ends beyond the range, or those above are set apart because they reach too far from the
scoreboard's start. -/
def Outlives (spans blocks : List (Nat × Nat)) (r : Nat × Nat) : Prop :=
  (∀ b ∈ blocks, Known spans b) ∨ (∃ b ∈ blocks, b.1 ≤ 2 ^ 31 ∧ r.2 < b.2) ∨
    r.2 < r.1 + 2 ^ 31 ∧ ∃ first ∈ spans.head?, ∃ s ∈ spans ++ blocks, s.1 < s.2 ∧ first.1 + 2 ^ 31 < s.2

theorem merged_exact_iff (hsep : Separated spans) (hspans : ∀ s ∈ spans, Within s) (hblocks : ∀ b ∈ blocks, Within b)
    {reach : Nat} (hmerged : Merged spans (freshBlocks o spans blocks) ranges reach)
    (hfresh : freshBlocks o spans blocks ≠ []) :
    (∀ k, 2 ^ 31 ≤ k → (Holds ranges k ↔ Holds spans k ∨ Holds blocks k)) ↔
      ∀ r ∈ spans, r.1 < 2 ^ 31 → 2 ^ 31 < r.2 → Outlives spans blocks r := by
  have hnew : ¬∀ b ∈ blocks, Known spans b := fun hknown =>
    hfresh ((freshBlocks_eq_nil hsep hspans hblocks).2 hknown)
  have hreach : 2 ^ 31 < reach := by
    obtain ⟨n, hn⟩ := exists_mem_of_ne_nil _ hfresh
    obtain ⟨hn1, hn2, -⟩ := freshBlocks_proper hsep hspans hblocks n hn
    have hbound := hmerged.bound n (mem_append_right _ hn)
    omega
  by_cases hstraddle : ∃ r ∈ spans, r.1 < 2 ^ 31 ∧ 2 ^ 31 < r.2
  · obtain ⟨r, hr, hlow, hhigh⟩ := hstraddle
    have honly : (∀ r ∈ spans, r.1 < 2 ^ 31 → 2 ^ 31 < r.2 → Outlives spans blocks r) ↔
      Outlives spans blocks r := by grind [eq_of_straddles]
    have hlowOnly : ∀ s ∈ lows spans, ∀ k, 2 ^ 31 ≤ k → k < s.2 → s = r := by
      intro s hs k hk hend
      obtain ⟨hs, -, hslow⟩ := mem_lows.1 hs
      exact eq_of_straddles hsep hr hlow hhigh hs hslow.le (by omega)
    have hspread := spread_iff hsep hspans hblocks hmerged hfresh
    rw [honly, Outlives, or_iff_right hnew]
    by_cases hshort : r.2 < r.1 + 2 ^ 31
    · have hhead := head?_lows hsep hr hlow hshort
      have hrlow : r ∈ lows spans := mem_lows.2 ⟨hr, hshort, hlow⟩
      have hcases := far_or_near spans reach
      rw [hhead] at hcases
      rcases hcases with ⟨first, hfirst, hfar⟩ | hnear
      · refine iff_of_true (fun k hk => ?_) (.inr ⟨hshort, hspread.2 ⟨first, hfirst, hfar⟩⟩)
        rw [hmerged.apart first (hhead ▸ hfirst) hfar, union_iff (o := o) hsep hspans hblocks hk]
        refine or_congr_right ⟨fun ⟨s, hs, hin⟩ => ?_, fun ⟨r', hr', hlow', hhigh', hin⟩ => ?_⟩
        · obtain rfl := hlowOnly s hs k hk hin.2
          exact ⟨s, hr, hlow, hhigh, hin.2⟩
        · obtain rfl := eq_of_straddles hsep hr hlow hhigh hr' hlow'.le hhigh'
          exact ⟨r', hrlow, by omega, hin⟩
      · have hno : ¬(r.2 < r.1 + 2 ^ 31 ∧ ∃ first ∈ spans.head?, ∃ s ∈ spans ++ blocks, s.1 < s.2 ∧
            first.1 + 2 ^ 31 < s.2) := by grind
        rw [or_iff_left hno]
        refine exact_iff_beyond hsep hspans hblocks hr hlow hhigh (fun _ => hmerged.keeps) fun k hk hin => ?_
        refine ((hmerged.absorbed (hhead ▸ hnear) k).1 hin).imp_right fun ⟨s, hs, hle, hend⟩ => ?_
        obtain rfl := hlowOnly s hs k hk hend
        exact ⟨hreach.trans_le hle, hend⟩
    · rw [or_iff_left (fun h => hshort h.1)]
      refine exact_iff_beyond hsep hspans hblocks hr hlow hhigh (fun _ => hmerged.keeps) fun k hk hin => ?_
      refine (hmerged.more hin).imp_right fun ⟨s, hs, hend⟩ => ?_
      obtain rfl := hlowOnly s hs k hk hend
      exact absurd (mem_lows.1 hs).2.1 hshort
  · refine iff_of_true (fun k hk => ?_) fun r hr hlow hhigh => absurd ⟨r, hr, hlow, hhigh⟩ hstraddle
    rw [union_iff (o := o) hsep hspans hblocks hk]
    constructor
    · intro hin
      refine (hmerged.more hin).imp_right fun ⟨s, hs, hend⟩ => ?_
      obtain ⟨hs, -, hslow⟩ := mem_lows.1 hs
      exact absurd ⟨s, hs, hslow, by omega⟩ hstraddle
    · rintro (hin | ⟨r, hr, hlow, hhigh, -⟩)
      · exact hmerged.keeps hin
      · exact absurd ⟨r, hr, hlow, hhigh⟩ hstraddle

theorem scoreboard_places (words : List (UInt32 × UInt32))
    (hwords : (words.map fun block => (⟨block.1, block.2⟩ : SequenceRange)) = toBoard o blocks)
    (hsep : Separated spans) (hspans : ∀ s ∈ spans, Within s) (hblocks : ∀ b ∈ blocks, Within b) :
    ∃ kept, (trimSackScoreboard (updateSackScoreboard (toBoard o spans) (point o (2 ^ 31)) words).1
        (point o (2 ^ 31))).1 = toBoard o kept ∧ Separated kept ∧ (∀ s ∈ kept, Proper (2 ^ 31) (2 ^ 32 - 1) s) ∧
      ((∀ k, Holds kept k ↔ 2 ^ 31 ≤ k ∧ (Holds spans k ∨ Holds blocks k)) ↔
        ∀ r ∈ spans, r.1 < 2 ^ 31 → 2 ^ 31 < r.2 → Outlives spans blocks r) := by
  have hupdate : (updateSackScoreboard (toBoard o spans) (point o (2 ^ 31)) words).1 = _ :=
    updateSackScoreboard_places words hwords hblocks
  by_cases hfresh : freshBlocks o spans blocks = []
  · rw [if_pos hfresh] at hupdate
    obtain ⟨kept, hkept, hapart, hproper, hholds⟩ := trimSackScoreboard_above (o := o) hspans
    refine ⟨kept, by rw [hupdate, hkept], hapart, hproper, iff_of_true (fun k => ?_) fun r _ _ _ => .inl ?_⟩
    · rw [hholds]
      refine and_congr_right fun hk => ⟨.inl, fun hin => ?_⟩
      rcases (union_iff (o := o) hsep hspans hblocks hk).1 hin with ⟨s, hs, hks⟩ | ⟨r, hr, hlow, -, hkr⟩
      · rw [hfresh, append_nil] at hs
        exact ⟨s, (mem_filter.1 hs).1, hks⟩
      · exact ⟨r, hr, by omega, hkr⟩
    · exact (freshBlocks_eq_nil hsep hspans hblocks).1 hfresh
  · rw [if_neg hfresh] at hupdate
    obtain ⟨ranges, reach, hranges, hmerged⟩ := merge_places (o := o) hsep hspans
      (freshBlocks_proper hsep hspans hblocks) hfresh
    obtain ⟨kept, hkept, hapart, hproper, hholds⟩ := trimSackScoreboard_above (o := o) hmerged.within
    refine ⟨kept, by rw [hupdate, hranges, hkept], hapart, hproper, ?_⟩
    rw [← merged_exact_iff hsep hspans hblocks hmerged hfresh]
    simp only [hholds]
    exact forall_congr' fun k => and_congr_right_iff

theorem sackScoreboard_popAcked (number : UInt32) (clock : Clock) (i : Nat) (segments : List ServerSegment)
    (state : TcpFlowState) (samples : PopSamples) :
    (popAcked number clock i segments state samples).1.sackScoreboard = state.sackScoreboard := by
  induction segments generalizing i state samples with
  | nil => rfl
  | cons segment rest ih =>
    rw [popAcked]
    split
    · rfl
    · dsimp only
      split <;> rw [ih] <;> split <;> rfl

theorem sackScoreboard_processServerAck (state : TcpFlowState) (number : UInt32) (blocks : List (UInt32 × UInt32))
    (clock : Clock) : (processServerAck state number blocks clock).1.sackScoreboard =
      (trimSackScoreboard (updateSackScoreboard state.sackScoreboard number blocks).1 number).1 := by
  have hupdated : (ackUpdated state number blocks).sackScoreboard =
      (updateSackScoreboard state.sackScoreboard number blocks).1 := by
    unfold ackUpdated
    dsimp only
    split <;> rfl
  have hbranch : ∀ (s : TcpFlowState) (advanced : Bool),
      (ackBranch s advanced number clock).1.sackScoreboard = s.sackScoreboard := by
    intro s advanced
    have hboard : ∀ t u : TcpFlowState, t.ledger = u.ledger → t.sackScoreboard = u.sackScoreboard :=
      fun t u h => congrArg (fun ledger => ledger.positions.board) h
    unfold ackBranch
    split_ifs
    · rfl
    · rw [hboard _ _ (ledger_advanceServerAck s number clock)]
      have hrefresh := congrArg Positions.board (refreshEarliestAfterPop_frame (popAcked number clock 0
        s.unackedServerSegments { s with lastClientAck := number, duplicateAckCount := 0 } {}).1).1
      exact hrefresh.trans (sackScoreboard_popAcked ..)
    · exact hboard _ _ (ledger_duplicateServerAck s advanced)
    · rfl
  rw [processServerAck_eq, ackTrimmed, hbranch, hupdated]
  split <;> rfl

/-- The ranges follow each other around `ack`, disjoint and with a gap between any two. -/
def Ordered (ack : UInt32) (ranges : List SequenceRange) : Prop := Separated (placed ack ranges)

def Sacked (ack : UInt32) (ranges : List SequenceRange) (x : UInt32) : Prop := Holds (placed ack ranges) (place ack x)

def blockRanges (blocks : List (UInt32 × UInt32)) : List SequenceRange :=
  blocks.map fun block => ⟨block.1, block.2⟩

theorem placed_toBoard (ack : UInt32) (h : ∀ s ∈ spans, Within s) :
    placed ack (toBoard (floorOf ack) spans) = spans := by
  rw [placed, toBoard, map_map]
  refine (map_congr_left fun s hs => ?_).trans (map_id spans)
  simp only [Function.comp_apply, toRange, place_point ack (h s hs).1, place_point ack (h s hs).2, id]

/-- Processing an acknowledgement leaves the scoreboard in order and holding what it and the blocks held
at or above the acknowledgement, if and only if a range that straddles the acknowledgement outlives the
blocks that come with it. -/
theorem sack_scoreboard_exact_iff (state : TcpFlowState) (ack : UInt32) (blocks : List (UInt32 × UInt32))
    (clock : Clock) (hboard : Ordered ack state.sackScoreboard) :
    (Ordered ack (processServerAck state ack blocks clock).1.sackScoreboard ∧
      (∀ range ∈ (processServerAck state ack blocks clock).1.sackScoreboard, seqGe range.start ack = true) ∧
      ∀ x, Sacked ack (processServerAck state ack blocks clock).1.sackScoreboard x ↔
        seqGe x ack = true ∧ (Sacked ack state.sackScoreboard x ∨ Sacked ack (blockRanges blocks) x)) ↔
      ∀ r ∈ placed ack state.sackScoreboard, r.1 < 2 ^ 31 → 2 ^ 31 < r.2 →
        Outlives (placed ack state.sackScoreboard) (placed ack (blockRanges blocks)) r := by
  obtain ⟨kept, hkept, hsep, hproper, hexact⟩ := scoreboard_places (o := floorOf ack) blocks
    (toBoard_placed ack (blockRanges blocks)).symm hboard (within_placed ack _) (within_placed ack _)
  rw [toBoard_placed, point_half] at hkept
  have hwithin : ∀ s ∈ kept, Within s := fun s hs => within_of_proper (hproper s hs)
  rw [sackScoreboard_processServerAck, hkept, Ordered, placed_toBoard ack hwithin, ← hexact]
  constructor
  · rintro ⟨-, -, hset⟩ k
    by_cases hk : k < 2 ^ 32
    · have hx := hset (point (floorOf ack) k)
      rwa [Sacked, placed_toBoard ack hwithin, Sacked, Sacked, seqGe_ack_iff, place_point ack hk] at hx
    · -- beyond the number space nothing is held
      have hnone : ∀ l : List (Nat × Nat), (∀ s ∈ l, Within s) → ¬Holds l k := by
        rintro l hl ⟨s, hs, -, hend⟩
        exact hk (hend.trans (hl s hs).2)
      simp only [hnone kept hwithin, hnone _ (within_placed ack state.sackScoreboard),
        hnone _ (within_placed ack (blockRanges blocks)), or_self, and_false]
  · intro hset
    refine ⟨hsep, fun range hrange => ?_, fun x => ?_⟩
    · obtain ⟨s, hs, rfl⟩ := mem_map.1 hrange
      rw [seqGe_ack_iff]
      exact (place_point ack (hwithin s hs).1).symm ▸ (hproper s hs).1
    · rw [Sacked, placed_toBoard ack hwithin, Sacked, Sacked, seqGe_ack_iff]
      exact hset (place ack x)

/-- A block above the only range joins it on the scoreboard. -/
theorem sack_scoreboard_exact_above :
    Ordered 1000 [⟨1100, 1200⟩] ∧
      ∀ x, Sacked 1000 (processServerAck { sampleFlow with sackScoreboard := [⟨1100, 1200⟩] } 1000 [(1300, 1400)]
        (Clock.still 0)).1.sackScoreboard x ↔
        seqGe x 1000 = true ∧ (Sacked 1000 [⟨1100, 1200⟩] x ∨ Sacked 1000 (blockRanges [(1300, 1400)]) x) := by
  have hboard : Ordered 1000 [⟨1100, 1200⟩] := ⟨by decide, by decide⟩
  have hnone : ∀ r ∈ placed 1000 [⟨1100, 1200⟩], r.1 < 2 ^ 31 → 2 ^ 31 < r.2 →
      Outlives (placed 1000 [⟨1100, 1200⟩]) (placed 1000 (blockRanges [(1300, 1400)])) r := by
    intro r hr hlow
    obtain rfl : r = _ := mem_singleton.1 hr
    exact absurd hlow (by decide)
  exact ⟨hboard, ((sack_scoreboard_exact_iff { sampleFlow with sackScoreboard := [⟨1100, 1200⟩] } 1000 [(1300, 1400)]
    (Clock.still 0) hboard).2 hnone).2.2⟩

/-- A range that straddles the acknowledgement is forgotten when a block beyond it arrives. -/
theorem sack_scoreboard_forgets :
    Ordered 1000 [⟨950, 1300⟩] ∧ Sacked 1000 [⟨950, 1300⟩] 1100 ∧ seqGe 1100 1000 = true ∧
      (processServerAck { sampleFlow with sackScoreboard := [⟨950, 1300⟩] } 1000 [(1400, 1500)]
        (Clock.still 0)).1.sackScoreboard = [⟨1400, 1500⟩] ∧ ¬Sacked 1000 [⟨1400, 1500⟩] 1100 := by
  refine ⟨⟨by decide, by decide⟩, ⟨_, mem_singleton.2 rfl, by decide⟩, by decide, by decide +kernel, ?_⟩
  rintro ⟨s, hs, hstart, -⟩
  obtain rfl : s = _ := mem_singleton.1 hs
  exact absurd hstart (by decide)

end OutlineProxy.Tcp
