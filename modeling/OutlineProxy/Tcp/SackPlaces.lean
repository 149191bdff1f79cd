import OutlineProxy.Tcp.Scoreboard

/-! Sequence numbers read around an acknowledgement: every word has a place on a line, and the functions of
the scoreboard work on spans of places.  Cutting at the acknowledgement is exact.  The merge is not: a range
that starts below the acknowledgement comes after those above it. -/

namespace OutlineProxy.Tcp

open List Serial Spans

def floorOf (ack : UInt32) : UInt32 := ack - 2147483648

/-- The place of a word when the number space is read around `ack`, which stands at `2 ^ 31`. -/
def place (ack x : UInt32) : Nat := (x - floorOf ack).toNat

def placed (ack : UInt32) (ranges : List SequenceRange) : List (Nat × Nat) :=
  ranges.map fun range => (place ack range.start, place ack range.end)

variable {ack o : UInt32} {spans fresh : List (Nat × Nat)} {s : Nat × Nat} {x y k : Nat}

theorem place_lt (ack x : UInt32) : place ack x < 2 ^ 32 := UInt32.toNat_lt _

theorem point_place (ack x : UInt32) : point (floorOf ack) (place ack x) = x := point_toNat_sub ..

theorem point_half (ack : UInt32) : point (floorOf ack) (2 ^ 31) = ack := by
  have h : UInt32.ofNat (2 ^ 31) = 2147483648 := by decide
  rw [point, h, floorOf, sub_add_cancel]

theorem place_point (ack : UInt32) (hk : k < 2 ^ 32) : place ack (point (floorOf ack) k) = k :=
  toNat_point_sub (floorOf ack) hk

theorem toBoard_placed (ack : UInt32) (ranges : List SequenceRange) :
    toBoard (floorOf ack) (placed ack ranges) = ranges := by
  rw [toBoard, placed, map_map]
  refine (map_congr_left fun range _ => ?_).trans (map_id ranges)
  simp only [Function.comp_apply, toRange, point_place, id]

theorem seqGt_places (hx : x < 2 ^ 32) (hy : y < 2 ^ 32) :
    seqGt (point o x) (point o y) = true ↔ (y < x ∧ x < y + 2 ^ 31) ∨ x + 2 ^ 31 < y := by
  rw [seqGt_iff]
  by_cases hxy : x < y
  · rw [toNat_point_sub_point_of_lt o hxy (by omega)]
    omega
  · rw [toNat_point_sub_point o (by omega) (by omega)]
    omega

theorem seqLt_places (hx : x < 2 ^ 32) (hy : y < 2 ^ 32) :
    seqLt (point o x) (point o y) = true ↔ y + 2 ^ 31 ≤ x ∨ (x < y ∧ y ≤ x + 2 ^ 31) := by
  rw [seqLt_iff]
  by_cases hxy : x < y
  · rw [toNat_point_sub_point_of_lt o hxy (by omega)]
    omega
  · rw [toNat_point_sub_point o (by omega) (by omega)]
    omega

theorem seqGe_ack_iff (ack x : UInt32) : seqGe x ack = true ↔ 2 ^ 31 ≤ place ack x := by
  have hlt := place_lt ack x
  have h := seqLt_places (o := floorOf ack) hlt (by decide : 2 ^ 31 < 2 ^ 32)
  rw [point_place, point_half] at h
  rw [seqGe, Bool.not_eq_true', Bool.eq_false_iff, ne_eq, h]
  omega

def Within (s : Nat × Nat) : Prop := s.1 < 2 ^ 32 ∧ s.2 < 2 ^ 32

theorem within_placed (ack : UInt32) (ranges : List SequenceRange) : ∀ s ∈ placed ack ranges, Within s := by
  intro s hs
  obtain ⟨range, -, rfl⟩ := mem_map.1 hs
  exact ⟨place_lt .., place_lt ..⟩

theorem within_of_proper (h : Proper (2 ^ 31) (2 ^ 32 - 1) s) : Within s := by
  obtain ⟨-, hne, htop⟩ := h
  exact ⟨by omega, by omega⟩

def above (s : Nat × Nat) : Nat × Nat := (max s.1 (2 ^ 31), s.2)

theorem holds_above : (above s).1 ≤ k ∧ k < (above s).2 ↔ 2 ^ 31 ≤ k ∧ s.1 ≤ k ∧ k < s.2 := by
  simp only [above]
  omega

theorem top_lt : 2 ^ 32 - 1 < 2 ^ 31 + 2 ^ 31 := by decide

section Cut

theorem clipRange_places (hs : Within s) : clipRange (point o (2 ^ 31)) (toRange o s) =
    if 2 ^ 31 < s.2 then some (toRange o (above s), decide (s.1 < 2 ^ 31)) else none := by
  obtain ⟨hstart, hend⟩ := hs
  have hgt : seqGt (toRange o s).end (point o (2 ^ 31)) = decide (2 ^ 31 < s.2) :=
    seqGt_point o (by omega) (by omega)
  have hlt : seqLt (toRange o s).start (point o (2 ^ 31)) = decide (s.1 < 2 ^ 31) :=
    seqLt_point o (by omega) (by omega)
  simp only [clipRange, hgt, hlt, above]
  generalize 2 ^ 31 = half
  by_cases habove : half < s.2
  · grind [toRange]
  · simp [habove]

theorem filterMap_clipRange_places (hspans : ∀ s ∈ spans, Within s) :
    ((toBoard o spans).filterMap (clipRange (point o (2 ^ 31)))).map Prod.fst =
      toBoard o ((spans.filter fun s => 2 ^ 31 < s.2).map above) := by
  induction spans with
  | nil => rfl
  | cons s rest ih =>
    have hclip := clipRange_places (o := o) (hspans s (by simp))
    have hrest := ih fun t ht => hspans t (by simp [ht])
    simp only [toBoard] at hrest ⊢
    by_cases habove : 2 ^ 31 < s.2
    · grind [filterMap_cons_some, filter_cons_of_pos]
    · grind [filterMap_cons_none, filter_cons_of_neg]

def lap (s : Nat × Nat) : Nat := if 2 ^ 31 ≤ s.1 then s.1 - 2 ^ 31 else s.1 + 2 ^ 31

theorem toNat_sub_half (hs : s.1 < 2 ^ 32) : ((toRange o s).start - point o (2 ^ 31)).toNat = lap s := by
  rw [toRange, lap]
  split_ifs with hhigh
  · exact toNat_point_sub_point o hhigh (by omega)
  · rw [toNat_point_sub_point_of_lt o (by omega) (by omega)]
    omega

theorem insertionSort_places (h : ∀ s ∈ spans, s.1 < 2 ^ 32) :
    (toBoard o spans).insertionSort (fun a b => a.start - point o (2 ^ 31) ≤ b.start - point o (2 ^ 31)) =
      toBoard o (spans.insertionSort fun s t => lap s ≤ lap t) := by
  refine (map_insertionSort _ _ (toRange o) spans fun s hs t ht => ?_).symm
  rw [UInt32.le_iff_toNat_le, toNat_sub_half (h s hs), toNat_sub_half (h t ht)]

theorem starts_of_laps (h : spans.Pairwise fun s t => lap s ≤ lap t) (hhigh : ∀ s ∈ spans, 2 ^ 31 ≤ s.1) :
    spans.Pairwise fun s t => s.1 ≤ t.1 := by
  refine h.imp_of_mem fun {s t} hs ht hle => ?_
  have hs' := hhigh s hs
  have ht' := hhigh t ht
  simp only [lap, if_pos hs', if_pos ht'] at hle
  omega

theorem mergeSequenceRanges_above (hspans : ∀ s ∈ spans, Proper (2 ^ 31) (2 ^ 32 - 1) s) :
    ∃ merged, mergeSequenceRanges (toBoard o spans) (point o (2 ^ 31)) = toBoard o merged ∧ Separated merged ∧
      (∀ s ∈ merged, Proper (2 ^ 31) (2 ^ 32 - 1) s) ∧ ∀ k, Holds merged k ↔ Holds spans k := by
  have hmem : ∀ s ∈ spans.insertionSort (fun s t => lap s ≤ lap t), Proper (2 ^ 31) (2 ^ 32 - 1) s :=
    fun s hs => hspans s ((mem_insertionSort _).1 hs)
  refine ⟨((spans.insertionSort fun s t => lap s ≤ lap t).foldl join []).reverse, ?_,
    foldl_join_separated (fun s hs => (hmem s hs).2.1) .nil,
    fun s hs => foldl_join_proper hmem (by simp) s (mem_reverse.1 hs), fun k => ?_⟩
  · simp only [mergeSequenceRanges, filter_toBoard top_lt hspans,
      insertionSort_places fun s hs => (within_of_proper (hspans s hs)).1]
    exact foldl_mergeRange_nil top_lt fun s hs => (hmem s hs).between
  · have hstarts := starts_of_laps (pairwise_insertionSort _ spans) fun s hs => (hmem s hs).1
    rw [holds_reverse, holds_foldl_join hstarts (by simp)]
    simp only [holds_nil, false_or]
    exact Holds.of_perm (perm_insertionSort _ _)

theorem holds_filter_above :
    Holds ((spans.filter fun s => 2 ^ 31 < s.2).map above) k ↔ 2 ^ 31 ≤ k ∧ Holds spans k := by
  constructor
  · rintro ⟨t, ht, hk⟩
    obtain ⟨s, hs, rfl⟩ := mem_map.1 ht
    obtain ⟨hhalf, hin⟩ := holds_above.1 hk
    exact ⟨hhalf, s, (mem_filter.1 hs).1, hin⟩
  · rintro ⟨hhalf, s, hs, hk⟩
    refine ⟨above s, mem_map_of_mem (mem_filter.2 ⟨hs, ?_⟩), holds_above.2 ⟨hhalf, hk⟩⟩
    simpa using hhalf.trans_lt hk.2

theorem trimSackScoreboard_above (hspans : ∀ s ∈ spans, Within s) :
    ∃ kept, (trimSackScoreboard (toBoard o spans) (point o (2 ^ 31))).1 = toBoard o kept ∧
      Separated kept ∧ (∀ s ∈ kept, Proper (2 ^ 31) (2 ^ 32 - 1) s) ∧
      ∀ k, Holds kept k ↔ 2 ^ 31 ≤ k ∧ Holds spans k := by
  generalize hpieces : ((spans.filter fun s => 2 ^ 31 < s.2).map above).filter (fun s => s.1 < s.2) = pieces
  have hproper : ∀ s ∈ pieces, Proper (2 ^ 31) (2 ^ 32 - 1) s := by
    intro s hs
    rw [← hpieces] at hs
    obtain ⟨hm, hne⟩ := mem_filter.1 hs
    obtain ⟨t, ht, rfl⟩ := mem_map.1 hm
    have hend := (hspans t (mem_filter.1 ht).1).2
    exact ⟨le_max_right _ _, of_decide_eq_true hne, Nat.le_sub_one_of_lt hend⟩
  have hfilter : (toBoard o ((spans.filter fun s => 2 ^ 31 < s.2).map above)).filter
      (fun range => seqGt range.end range.start) = toBoard o pieces := by
    rw [← hpieces, toBoard, filter_map, toBoard]
    congr 1
    refine filter_congr fun s hs => ?_
    obtain ⟨t, ht, rfl⟩ := mem_map.1 hs
    obtain ⟨ht, habove⟩ := mem_filter.1 ht
    have hwithin := hspans t ht
    have habove' : 2 ^ 31 < t.2 := of_decide_eq_true habove
    exact seqGt_between top_lt (k := t.2) ⟨by omega, Nat.le_sub_one_of_lt hwithin.2⟩
      ⟨le_max_right _ _, max_le (Nat.le_sub_one_of_lt hwithin.1) (by decide)⟩
  obtain ⟨kept, hkept, hsep, hin, hholds⟩ := mergeSequenceRanges_above (o := o) hproper
  refine ⟨kept, ?_, hsep, hin, fun k => ?_⟩
  · simp only [trimSackScoreboard, filterMap_clipRange_places hspans, hfilter]
    exact hkept
  · rw [hholds, ← holds_filter_above, ← hpieces]
    -- an empty piece holds nothing
    constructor
    · rintro ⟨t, ht, hk⟩
      exact ⟨t, (mem_filter.1 ht).1, hk⟩
    · rintro ⟨t, ht, hk⟩
      exact ⟨t, mem_filter.2 ⟨ht, decide_eq_true (hk.1.trans_lt hk.2)⟩, hk⟩

end Cut

section Update

variable {below before : List (Nat × Nat)} {last : Nat × Nat}

theorem rangeFullyCovered_places {q t : Nat} (hsep : Separated spans) (hspans : ∀ s ∈ spans, Within s)
    (hq : 2 ^ 31 ≤ q) (hlt : q < t) (ht : t < 2 ^ 32) :
    rangeFullyCovered (toBoard o spans) (point o q) (point o t) = true ↔
      Covers spans q t ∧ ∀ first ∈ spans.head?, q ≤ first.1 + 2 ^ 31 := by
  have hgo : rangeFullyCovered.go (point o q) (point o t) (toBoard o spans) = true ↔
      covered q t spans = true ∧ ∀ first ∈ spans.head?, q ≤ first.1 + 2 ^ 31 := by
    induction spans with
    | nil => simp [toBoard, rangeFullyCovered.go, covered]
    | cons s rest ih =>
      obtain ⟨hs1, hs2⟩ := hspans s (by simp)
      have hne := hsep.nonempty s (by simp)
      have hrest := ih hsep.tail fun t ht => hspans t (by simp [ht])
      have hnear : q ≤ s.1 + 2 ^ 31 → ∀ first ∈ rest.head?, q ≤ first.1 + 2 ^ 31 := by
        intro hle first hfirst
        have hgap := (pairwise_cons.1 hsep.gaps).1 first (mem_of_mem_head? hfirst)
        omega
      have hstart := seqGt_places (o := o) hs1 (by omega : q < 2 ^ 32)
      have hend := seqGt_places (o := o) hs2 (by omega : q < 2 ^ 32)
      have hreach := seqLt_places (o := o) hs2 ht
      have hgoal : rangeFullyCovered.go (point o q) (point o t) (toBoard o (s :: rest)) =
          if seqGt (point o s.1) (point o q) then false
          else if !seqGt (point o s.2) (point o q) then
            rangeFullyCovered.go (point o q) (point o t) (toBoard o rest)
          else !seqLt (point o s.2) (point o t) := rfl
      rw [hgoal, covered]
      by_cases hfar : seqGt (point o s.1) (point o q) = true
      · grind [Bool.false_eq_true]
      · grind [seqGt, point, Bool.not_true, Bool.false_eq_true, Bool.not_eq_true', Bool.not_false]
  rw [rangeFullyCovered, seqGt_point o (by omega) (by omega), decide_eq_true hlt, ← covered_iff hsep hlt]
  exact hgo

theorem foldl_mergeRange_absorbs (hsep : Separated below) (hbelow : ∀ s ∈ below, s.1 < 2 ^ 31 ∧ s.2 < 2 ^ 32)
    (hreach : 2 ^ 31 < last.2) (htop : last.2 < 2 ^ 32) (hnear : ∀ s ∈ below, last.2 ≤ s.1 + 2 ^ 31) :
    ∃ reach, (toBoard o below).foldl mergeRange (toBoard o (last :: before)) =
        toBoard o ((last.1, reach) :: before) ∧ last.2 ≤ reach ∧ reach < 2 ^ 32 ∧
      ∀ k, last.2 ≤ k → (k < reach ↔ ∃ s ∈ below, k < s.2) := by
  induction below generalizing last with
  | nil => exact ⟨last.2, rfl, le_rfl, htop, fun k hk => by simpa using hk⟩
  | cons s rest ih =>
    obtain ⟨hlow, hs⟩ := hbelow s (by simp)
    have hne := hsep.nonempty s (by simp)
    have hstep : mergeRange (toBoard o (last :: before)) (toRange o s) =
        toBoard o ((last.1, max last.2 s.2) :: before) :=
      by grind [seqGt, point, toBoard, toRange, mergeRange, seqGt_places, Bool.not_false]
    have hrest : ∀ t ∈ rest, (last.1, max last.2 s.2).2 ≤ t.1 + 2 ^ 31 := by
      intro t ht
      have hgap := (pairwise_cons.1 hsep.gaps).1 t ht
      have hlast := hnear t (by simp [ht])
      exact max_le hlast (by omega)
    obtain ⟨reach, hfold, hle, hlt, hin⟩ := @ih (last.1, max last.2 s.2) hsep.tail
      (fun t ht => hbelow t (by simp [ht])) (hreach.trans_le (le_max_left _ _)) (max_lt htop hs) hrest
    refine ⟨reach, (congrArg (foldl mergeRange · (toBoard o rest)) hstep).trans hfold,
      (le_max_left _ _).trans hle, hlt, fun k hk => ?_⟩
    by_cases hks : k < s.2
    · exact iff_of_true (hks.trans_le ((le_max_right _ _).trans hle)) ⟨s, by simp, hks⟩
    · rw [hin k (max_le hk (not_lt.1 hks))]
      simp [hks]

theorem foldl_mergeRange_pushes (hsep : Separated below) (hbelow : ∀ s ∈ below, s.1 < 2 ^ 31 ∧ s.2 < 2 ^ 32)
    (hfirst : ∀ first ∈ below.head?, seqGt (point o first.1) (point o last.2) = true) :
    (toBoard o below).foldl mergeRange (toBoard o (last :: before)) =
      toBoard o (below.reverse ++ last :: before) := by
  induction below generalizing last before with
  | nil => rfl
  | cons s rest ih =>
    obtain ⟨hlow, hs⟩ := hbelow s (by simp)
    have hstep : mergeRange (toBoard o (last :: before)) (toRange o s) = toBoard o (s :: last :: before) := by
      simp [toBoard, toRange, mergeRange, hfirst s rfl]
    have hnext : ∀ first ∈ rest.head?, seqGt (point o first.1) (point o s.2) = true := by
      intro first hmem
      have hin := mem_of_mem_head? hmem
      have hgap := (pairwise_cons.1 hsep.gaps).1 first hin
      obtain ⟨hlow', hs'⟩ := hbelow first (by simp [hin])
      rw [seqGt_places (by omega) hs]
      omega
    have hrest : (toBoard o rest).foldl mergeRange (toBoard o (s :: last :: before)) =
        toBoard o (rest.reverse ++ s :: last :: before) :=
      ih hsep.tail (fun t ht => hbelow t (by simp [ht])) hnext
    rw [reverse_cons, append_assoc]
    exact (congrArg (foldl mergeRange · (toBoard o rest)) hstep).trans hrest

def highs (spans : List (Nat × Nat)) : List (Nat × Nat) := spans.filter fun s => decide (2 ^ 31 ≤ s.1)

def lows (spans : List (Nat × Nat)) : List (Nat × Nat) :=
  (spans.filter fun s => decide (s.2 < s.1 + 2 ^ 31)).filter fun s => !decide (2 ^ 31 ≤ s.1)

theorem mem_lows : s ∈ lows spans ↔ s ∈ spans ∧ s.2 < s.1 + 2 ^ 31 ∧ s.1 < 2 ^ 31 := by
  simp only [lows, mem_filter, decide_eq_true_eq, Bool.not_eq_true', decide_eq_false_iff_not, not_le, and_assoc]

theorem lows_separated (hsep : Separated spans) : Separated (lows spans) :=
  hsep.sublist (filter_sublist.trans filter_sublist)

theorem filter_places (hspans : ∀ s ∈ spans, Within s ∧ s.1 < s.2) :
    (toBoard o spans).filter (fun range => seqGt range.end range.start) =
      toBoard o (spans.filter fun s => decide (s.2 < s.1 + 2 ^ 31)) := by
  rw [toBoard, filter_map, toBoard]
  congr 1
  refine filter_congr fun s hs => ?_
  obtain ⟨⟨hs1, hs2⟩, hne⟩ := hspans s hs
  rw [Bool.eq_iff_iff, decide_eq_true_iff, Function.comp_apply]
  exact (seqGt_places hs2 hs1).trans (by omega)

theorem split_of_laps (h : spans.Pairwise fun s t => lap s ≤ lap t) (hbound : ∀ s ∈ spans, s.1 < 2 ^ 32) :
    spans = spans.filter (fun s => decide (2 ^ 31 ≤ s.1)) ++ spans.filter fun s => !decide (2 ^ 31 ≤ s.1) := by
  refine eq_filter_append (h.imp_of_mem fun {s t} hs ht hle hhigh => ?_)
  have ht' := hbound t ht
  rw [decide_eq_true_iff] at hhigh ⊢
  simp only [lap, if_pos hhigh] at hle
  split_ifs at hle with h
  · exact h
  · omega

theorem lows_of_laps {sorted : List (Nat × Nat)} (hsep : Separated spans)
    (hperm : (sorted.filter fun s => !decide (2 ^ 31 ≤ s.1)).Perm (lows spans))
    (hlaps : sorted.Pairwise fun s t => lap s ≤ lap t) :
    sorted.filter (fun s => !decide (2 ^ 31 ≤ s.1)) = lows spans := by
  have hanti : ∀ s t : Nat × Nat, s ∈ sorted.filter (fun s => !decide (2 ^ 31 ≤ s.1)) → t ∈ lows spans →
      s.1 ≤ t.1 → t.1 ≤ s.1 → s = t := by
    intro s t hs ht hst hts
    have hs' := (mem_lows.1 (hperm.mem_iff.1 hs)).1
    have ht' := (mem_lows.1 ht).1
    exact hsep.eq_of_holds hs' ht' ⟨le_rfl, hsep.nonempty s hs'⟩ ⟨hts, hst.trans_lt (hsep.nonempty t ht')⟩
  have hstarts : (sorted.filter fun s => !decide (2 ^ 31 ≤ s.1)).Pairwise fun s t => s.1 ≤ t.1 := by
    have hfilter := hlaps.filter
    grind [lap]
  exact hperm.eq_of_pairwise hanti hstarts ((lows_separated hsep).starts_lt.imp fun hlt => hlt.le)

theorem sort_places (hsep : Separated spans) (hspans : ∀ s ∈ spans, Within s)
    (hfresh : ∀ s ∈ fresh, Proper (2 ^ 31) (2 ^ 32 - 1) s) :
    ∃ top, top.Perm (highs spans ++ fresh) ∧ (top.Pairwise fun s t => s.1 ≤ t.1) ∧
      mergeSequenceRanges (toBoard o (spans ++ fresh)) (point o (2 ^ 31)) =
        ((toBoard o (top ++ lows spans)).foldl mergeRange []).reverse := by
  have hall : ∀ s ∈ spans ++ fresh, Within s ∧ s.1 < s.2 := by
    intro s hs
    rcases mem_append.1 hs with hs | hs
    · exact ⟨hspans s hs, hsep.nonempty s hs⟩
    · exact ⟨within_of_proper (hfresh s hs), (hfresh s hs).2.1⟩
  have hshort : ∀ s ∈ fresh, s.2 < s.1 + 2 ^ 31 := by
    intro s hs
    obtain ⟨hhigh, -, htop⟩ := hfresh s hs
    omega
  have hkept : (spans ++ fresh).filter (fun s => decide (s.2 < s.1 + 2 ^ 31)) =
      spans.filter (fun s => decide (s.2 < s.1 + 2 ^ 31)) ++ fresh := by
    rw [filter_append, filter_eq_self.2 fun s hs => decide_eq_true (hshort s hs)]
  generalize hkeep : (spans ++ fresh).filter (fun s => decide (s.2 < s.1 + 2 ^ 31)) = kept at hkept
  have hbound : ∀ s ∈ kept, s.1 < 2 ^ 32 := by
    intro s hs
    rw [← hkeep] at hs
    exact (hall s (mem_filter.1 hs).1).1.1
  generalize hsorted : kept.insertionSort (fun s t => lap s ≤ lap t) = sorted
  have hperm : sorted.Perm kept := hsorted ▸ perm_insertionSort _ _
  have hlaps : sorted.Pairwise fun s t => lap s ≤ lap t := hsorted ▸ pairwise_insertionSort _ _
  have hsplit := split_of_laps hlaps fun s hs => hbound s (hperm.mem_iff.1 hs)
  have hlows : sorted.filter (fun s => !decide (2 ^ 31 ≤ s.1)) = lows spans := by
    refine lows_of_laps hsep ((hperm.filter _).trans ?_) hlaps
    have hnone : fresh.filter (fun s => !decide (2 ^ 31 ≤ s.1)) = [] := by
      rw [filter_eq_nil_iff]
      exact fun s hs => by simpa using (hfresh s hs).1
    rw [hkept, filter_append, hnone, append_nil]
    rfl
  refine ⟨sorted.filter fun s => decide (2 ^ 31 ≤ s.1), (hperm.filter _).trans ?_,
    starts_of_laps (hlaps.filter _) fun s hs => of_decide_eq_true (mem_filter.1 hs).2, ?_⟩
  · have hhighs : (spans.filter fun s => decide (s.2 < s.1 + 2 ^ 31)).filter (fun s => decide (2 ^ 31 ≤ s.1)) =
        highs spans := by
      rw [filter_filter, highs]
      refine filter_congr fun s hs => ?_
      have hs2 := (hspans s hs).2
      rw [Bool.and_eq_left_iff_imp, decide_eq_true_iff, decide_eq_true_iff]
      omega
    rw [hkept, filter_append, hhighs, filter_eq_self.2 fun s hs => decide_eq_true (hfresh s hs).1]
  · rw [← hlows, ← hsplit, mergeSequenceRanges, filter_places hall, hkeep]
    simp only [insertionSort_places hbound, hsorted]

/-- What the merge of a scoreboard with new blocks holds.  `reach` is the furthest end above the
acknowledgement. -/
structure Merged (spans fresh ranges : List (Nat × Nat)) (reach : Nat) : Prop where
  within : ∀ s ∈ ranges, Within s
  bound : ∀ s ∈ highs spans ++ fresh, s.2 ≤ reach
  reached : ∃ s ∈ highs spans ++ fresh, s.2 = reach
  apart : ∀ first ∈ (lows spans).head?, first.1 + 2 ^ 31 < reach →
    ∀ k, Holds ranges k ↔ Holds (highs spans ++ fresh) k ∨ Holds (lows spans) k
  absorbed : (∀ first ∈ (lows spans).head?, reach ≤ first.1 + 2 ^ 31) →
    ∀ k, Holds ranges k ↔ Holds (highs spans ++ fresh) k ∨ ∃ s ∈ lows spans, reach ≤ k ∧ k < s.2

theorem far_or_near (spans : List (Nat × Nat)) (reach : Nat) :
    (∃ first ∈ (lows spans).head?, first.1 + 2 ^ 31 < reach) ∨
      ∀ first ∈ (lows spans).head?, reach ≤ first.1 + 2 ^ 31 := by
  grind [lows]

theorem Merged.keeps {ranges : List (Nat × Nat)} {reach : Nat} (h : Merged spans fresh ranges reach)
    (hin : Holds (highs spans ++ fresh) k) : Holds ranges k := by
  rcases far_or_near spans reach with ⟨first, hfirst, hfar⟩ | hnear
  · exact (h.apart first hfirst hfar k).2 (.inl hin)
  · exact (h.absorbed hnear k).2 (.inl hin)

theorem Merged.more {ranges : List (Nat × Nat)} {reach : Nat} (h : Merged spans fresh ranges reach)
    (hin : Holds ranges k) : Holds (highs spans ++ fresh) k ∨ ∃ s ∈ lows spans, k < s.2 := by
  rcases far_or_near spans reach with ⟨first, hfirst, hfar⟩ | hnear
  · exact ((h.apart first hfirst hfar k).1 hin).imp_right fun ⟨s, hs, hk⟩ => ⟨s, hs, hk.2⟩
  · exact ((h.absorbed hnear k).1 hin).imp_right fun ⟨s, hs, hk⟩ => ⟨s, hs, hk.2⟩

/-- The ranges above the acknowledgement, merged: what is left of the merge are the ones below. -/
structure Stacked (spans fresh before : List (Nat × Nat)) (last : Nat × Nat) : Prop where
  proper : ∀ s ∈ last :: before, Proper (2 ^ 31) (2 ^ 32 - 1) s
  holds : ∀ k, Holds (last :: before) k ↔ Holds (highs spans ++ fresh) k
  bound : ∀ s ∈ highs spans ++ fresh, s.2 ≤ last.2
  reached : ∃ s ∈ highs spans ++ fresh, s.2 = last.2

theorem stack_places (hsep : Separated spans) (hspans : ∀ s ∈ spans, Within s)
    (hfresh : ∀ s ∈ fresh, Proper (2 ^ 31) (2 ^ 32 - 1) s) (hne : fresh ≠ []) :
    ∃ last before, Stacked spans fresh before last ∧
      mergeSequenceRanges (toBoard o (spans ++ fresh)) (point o (2 ^ 31)) =
        ((toBoard o (lows spans)).foldl mergeRange (toBoard o (last :: before))).reverse := by
  obtain ⟨top, hperm, hsorted, hmerge⟩ := sort_places (o := o) hsep hspans hfresh
  have hproper : ∀ s ∈ top, Proper (2 ^ 31) (2 ^ 32 - 1) s := by
    intro s hs
    rcases mem_append.1 (hperm.mem_iff.1 hs) with hs | hs
    · obtain ⟨hs, hhigh⟩ := mem_filter.1 hs
      exact ⟨of_decide_eq_true hhigh, hsep.nonempty s hs, Nat.le_sub_one_of_lt (hspans s hs).2⟩
    · exact hfresh s hs
  have hholds : ∀ k, Holds (top.foldl join []) k ↔ Holds (highs spans ++ fresh) k := by
    grind [holds_foldl_join, Holds.of_perm, holds_nil]
  obtain ⟨block, hblock⟩ := exists_mem_of_ne_nil fresh hne
  cases hstack : top.foldl join [] with
  | nil =>
    have hin : Holds (highs spans ++ fresh) block.1 :=
      ⟨block, mem_append_right _ hblock, le_rfl, (hfresh block hblock).2.1⟩
    rw [← hholds, hstack] at hin
    exact absurd hin holds_nil
  | cons last before =>
    obtain ⟨hbound, -, hreached⟩ := foldl_join_reach (fun s hs => (hproper s hs).2.1) hstack
    refine ⟨last, before, ⟨fun s hs => foldl_join_proper hproper (by simp) s (hstack ▸ hs), fun k => hstack ▸ hholds k,
      fun s hs => hbound s (hperm.mem_iff.2 hs), ?_⟩, ?_⟩
    · grind
    · have hfold : (toBoard o top).foldl mergeRange (toBoard o []) = toBoard o (top.foldl join []) :=
        foldl_mergeRange_toBoard top_lt (fun s hs => (hproper s hs).between) (by simp)
      rw [hstack, show toBoard o [] = [] from rfl] at hfold
      rw [hmerge, toBoard, map_append, foldl_append]
      exact congrArg (fun board => (foldl mergeRange board (toBoard o (lows spans))).reverse) hfold

section Stack

variable (h : Stacked spans fresh before last) (hsep : Separated spans) (hspans : ∀ s ∈ spans, Within s)

include h hsep hspans

theorem Stacked.pushed {first : Nat × Nat} (hfirst : first ∈ (lows spans).head?) (hfar : first.1 + 2 ^ 31 < last.2) :
    ((toBoard o (lows spans)).foldl mergeRange (toBoard o (last :: before))).reverse =
        toBoard o ((lows spans).reverse ++ last :: before).reverse ∧
      Merged spans fresh ((lows spans).reverse ++ last :: before).reverse last.2 := by
  have hlast := (within_of_proper (h.proper last (by simp))).2
  have hpush : (toBoard o (lows spans)).foldl mergeRange (toBoard o (last :: before)) =
      toBoard o ((lows spans).reverse ++ last :: before) := foldl_mergeRange_pushes (lows_separated hsep)
    (fun s hs => ⟨(mem_lows.1 hs).2.2, (hspans s (mem_lows.1 hs).1).2⟩) (by
      intro other hother
      obtain rfl := Option.mem_unique hfirst hother
      rw [seqGt_places (by omega) hlast]
      omega)
  refine ⟨by rw [hpush, toBoard, toBoard, map_reverse], ?_, h.bound, h.reached, fun _ _ _ k => ?_, fun hnear => ?_⟩
  · intro s hs
    rw [mem_reverse, mem_append, mem_reverse] at hs
    rcases hs with hs | hs
    · exact hspans s (mem_lows.1 hs).1
    · exact within_of_proper (h.proper s hs)
  · rw [holds_reverse, holds_append, holds_reverse, h.holds, or_comm]
  · exact absurd (hnear first hfirst) (not_le.2 hfar)

theorem Stacked.absorbs (hnear : ∀ first ∈ (lows spans).head?, last.2 ≤ first.1 + 2 ^ 31) :
    ∃ ranges, ((toBoard o (lows spans)).foldl mergeRange (toBoard o (last :: before))).reverse =
        toBoard o ranges ∧ Merged spans fresh ranges last.2 := by
  obtain ⟨hlow, hne, -⟩ := h.proper last (by simp)
  have hlast := (within_of_proper (h.proper last (by simp))).2
  have hlowsSep := lows_separated hsep
  have hall : ∀ s ∈ lows spans, last.2 ≤ s.1 + 2 ^ 31 := by
    intro s hs
    cases hhead : (lows spans).head? with
    | none =>
      rw [head?_eq_none_iff.1 hhead] at hs
      simp at hs
    | some first =>
      have hle := hlowsSep.head_le hhead hs
      have := hnear first hhead
      omega
  obtain ⟨reach, habsorb, hle, hlt, hends⟩ : ∃ reach, (toBoard o (lows spans)).foldl mergeRange
      (toBoard o (last :: before)) = toBoard o ((last.1, reach) :: before) ∧ last.2 ≤ reach ∧ reach < 2 ^ 32 ∧
        ∀ k, last.2 ≤ k → (k < reach ↔ ∃ s ∈ lows spans, k < s.2) := foldl_mergeRange_absorbs hlowsSep
    (fun s hs => ⟨(mem_lows.1 hs).2.2, (hspans s (mem_lows.1 hs).1).2⟩) (by omega) hlast hall
  refine ⟨((last.1, reach) :: before).reverse, by rw [habsorb, toBoard, toBoard, map_reverse], ?_, h.bound,
    h.reached, fun first hfirst hfar => absurd (hnear first hfirst) (not_le.2 hfar), fun _ k => ?_⟩
  · intro s hs
    rcases mem_cons.1 (mem_reverse.1 hs) with rfl | hs
    · exact ⟨(within_of_proper (h.proper last (by simp))).1, hlt⟩
    · exact within_of_proper (h.proper s (by simp [hs]))
  · have hholds := h.holds
    grind [lows, holds_reverse, holds_cons]

end Stack

theorem merge_places (hsep : Separated spans) (hspans : ∀ s ∈ spans, Within s)
    (hfresh : ∀ s ∈ fresh, Proper (2 ^ 31) (2 ^ 32 - 1) s) (hne : fresh ≠ []) :
    ∃ ranges reach, mergeSequenceRanges (toBoard o (spans ++ fresh)) (point o (2 ^ 31)) =
      toBoard o ranges ∧ Merged spans fresh ranges reach := by
  obtain ⟨last, before, hstacked, hmerge⟩ := stack_places (o := o) hsep hspans hfresh hne
  rcases far_or_near spans last.2 with ⟨first, hfirst, hlt⟩ | hnear
  · obtain ⟨hpush, hmerged⟩ := hstacked.pushed (o := o) hsep hspans hfirst hlt
    exact ⟨_, last.2, hmerge.trans hpush, hmerged⟩
  · obtain ⟨ranges, habsorb, hmerged⟩ := hstacked.absorbs (o := o) hsep hspans hnear
    exact ⟨ranges, last.2, hmerge.trans habsorb, hmerged⟩

end Update

end OutlineProxy.Tcp
