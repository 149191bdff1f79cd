import OutlineProxy.Tcp.Bbr

/-! A slot of the bandwidth filter is only given up for a rate that is higher and newer, or once it has
expired. -/

namespace OutlineProxy.Tcp

open List

variable {bbr next : BbrState} {past : List BwSample} {rate : Nat}

def BbrState.horizon (bbr : BbrState) : Nat := bbr.roundCount - bbrBwWindowRounds

def windowMax (round : Nat) (past : List BwSample) : Nat :=
  ((past.filter fun sample => decide (round - bbrBwWindowRounds ≤ sample.round)).map
    BwSample.bytesPerSec).foldl max 0

/-- All slots hold rates of earlier rounds of the window that are no lower, so that `rate` gets none. -/
def LeftOut (bbr : BbrState) (rate : Nat) : Prop :=
  0 < rate ∧ ∀ slot ∈ bbr.bwFilter, 0 < slot.bytesPerSec ∧ bbr.horizon ≤ slot.round ∧
    slot.round ≠ bbr.roundCount ∧ rate ≤ slot.bytesPerSec

instance (bbr : BbrState) (rate : Nat) : Decidable (LeftOut bbr rate) := by
  unfold LeftOut
  infer_instance

theorem foldl_max_le_iff {l : List Nat} {a b : Nat} : l.foldl max a ≤ b ↔ a ≤ b ∧ ∀ x ∈ l, x ≤ b := by
  induction l generalizing a with
  | nil => simp
  | cons x l ih => simp [ih, and_assoc]

theorem windowMax_le_iff {round bound : Nat} : windowMax round past ≤ bound ↔
    ∀ sample ∈ past, round - bbrBwWindowRounds ≤ sample.round → sample.bytesPerSec ≤ bound := by
  simp [windowMax, foldl_max_le_iff, -mem_map, forall_mem_map]

theorem btlbwBps_refreshBtlbw_le_iff {bound : Nat} : (refreshBtlbw bbr).btlbwBps ≤ bound ↔
    ∀ slot ∈ bbr.bwFilter, 0 < slot.bytesPerSec → bbr.horizon ≤ slot.round → slot.bytesPerSec ≤ bound := by
  simp [refreshBtlbw, foldl_max_le_iff, BbrState.horizon, -mem_map, forall_mem_map]

variable {i : Nat}

theorem getElem?_of_findIdx? {α : Type} {p : α → Bool} {l : List α} (h : l.findIdx? p = some i) :
    ∃ x, l[i]? = some x ∧ p x = true := by
  obtain ⟨hlt, hp, -⟩ := findIdx?_eq_some_iff_getElem.1 h
  exact ⟨l[i], getElem?_eq_getElem hlt, hp⟩

theorem modify_eq_set {α : Type} {l : List α} {x : α} (h : l[i]? = some x) (f : α → α) :
    l.modify i f = l.set i (f x) := by
  simp [modify_eq_set_getElem?, h]

theorem set_of_getElem? {α : Type} {l : List α} {x : α} (h : l[i]? = some x) : l.set i x = l := by
  obtain ⟨hlt, rfl⟩ := List.getElem?_eq_some_iff.1 h
  exact set_getElem_self hlt

theorem minSampleIndex_spec {filter : List BwSample} (h : minSampleIndex filter = some i) :
    ∃ slot, filter[i]? = some slot ∧ ∀ other ∈ filter, slot.bytesPerSec ≤ other.bytesPerSec := by
  obtain ⟨low, hmin, rfl⟩ := Option.map_eq_some_iff.1 h
  obtain ⟨hmem, hle⟩ := min?_eq_some_iff.1 hmin
  obtain ⟨lowest, hlowest, hlow⟩ := mem_map.1 hmem
  have hlt : filter.findIdx (fun sample => sample.bytesPerSec == low) < filter.length :=
    findIdx_lt_length_of_exists ⟨lowest, hlowest, by simp [hlow]⟩
  refine ⟨_, getElem?_eq_getElem hlt, ?_⟩
  rw [beq_iff_eq.1 (findIdx_getElem (w := hlt))]
  intro other hother
  exact hle _ (mem_map_of_mem hother)

/-- What a call does to the slots: its rate takes the place of one, or it changes none. -/
theorem updateBwFilter_cases (bbr : BbrState) (rate : Nat) :
    ∃ slots, updateBwFilter bbr rate = refreshBtlbw { bbr with bwFilter := slots } ∧
      ((∃ i slot, bbr.bwFilter[i]? = some slot ∧ slots = bbr.bwFilter.set i ⟨rate, bbr.roundCount⟩ ∧
          (slot.bytesPerSec = 0 ∨ slot.round < bbr.horizon ∨ slot.bytesPerSec < rate)) ∨
        slots = bbr.bwFilter ∧ (rate = 0 ∨ LeftOut bbr rate ∨
          ∃ slot ∈ bbr.bwFilter, slot.round = bbr.roundCount ∧ rate ≤ slot.bytesPerSec)) := by
  unfold updateBwFilter
  dsimp only
  split
  next i hfind =>
    obtain ⟨slot, hslot, hround⟩ := getElem?_of_findIdx? hfind
    rw [Bool.and_eq_true, beq_iff_eq] at hround
    refine ⟨_, rfl, ?_⟩
    rw [modify_eq_set hslot]
    split
    next hlt => exact .inl ⟨i, slot, hslot, by rw [← hround.1], .inr (.inr hlt)⟩
    next hge =>
      rw [set_of_getElem? hslot]
      exact .inr ⟨rfl, .inr (.inr ⟨slot, mem_of_getElem? hslot, hround.1, not_lt.1 hge⟩)⟩
  next hcurrent =>
    split
    next i hfind =>
      obtain ⟨slot, hslot, hfree⟩ := getElem?_of_findIdx? hfind
      rw [Bool.or_eq_true, beq_iff_eq, decide_eq_true_eq] at hfree
      exact ⟨_, rfl, .inl ⟨i, slot, hslot, rfl, hfree.imp_right .inl⟩⟩
    next hlive =>
      simp only [findIdx?_eq_none_iff, Bool.and_eq_false_imp, beq_iff_eq, decide_eq_false_iff_not,
        Bool.or_eq_false_iff, beq_eq_false_iff_ne] at hcurrent hlive
      have hleft : (∀ slot ∈ bbr.bwFilter, rate ≤ slot.bytesPerSec) → rate = 0 ∨ LeftOut bbr rate := by
        intro hge
        refine (Nat.eq_zero_or_pos rate).imp_right fun hpos => ⟨hpos, fun slot hslot => ?_⟩
        have hstays := hlive slot hslot
        exact ⟨Nat.pos_of_ne_zero hstays.1, not_lt.1 hstays.2,
          fun hround => hcurrent slot hslot hround (Nat.pos_of_ne_zero hstays.1), hge slot hslot⟩
      split
      next i hmin =>
        obtain ⟨slot, hslot, hle⟩ := minSampleIndex_spec hmin
        refine ⟨_, rfl, ?_⟩
        rw [modify_eq_set hslot]
        split
        next hlt => exact .inl ⟨i, slot, hslot, rfl, .inr (.inr hlt)⟩
        next hge =>
          rw [set_of_getElem? hslot]
          have hleft := hleft fun other hother => (not_lt.1 hge).trans (hle other hother)
          exact .inr ⟨rfl, hleft.imp_right .inl⟩
      next hmin =>
        have hempty : bbr.bwFilter = [] := by simpa [minSampleIndex] using hmin
        exact ⟨_, rfl, .inr ⟨rfl, (hleft (by simp [hempty])).imp_right .inl⟩⟩

structure FilterInv (bbr : BbrState) (past : List BwSample) : Prop where
  sampled : ∀ slot ∈ bbr.bwFilter, 0 < slot.bytesPerSec → slot ∈ past
  rounds : ∀ slot ∈ bbr.bwFilter, slot.round ≤ bbr.roundCount
  covers : ∀ sample ∈ past, 0 < sample.bytesPerSec → bbr.horizon ≤ sample.round →
    ∃ slot ∈ bbr.bwFilter, sample.bytesPerSec ≤ slot.bytesPerSec ∧ sample.round ≤ slot.round

theorem FilterInv.later (h : FilterInv bbr past) (hfilter : next.bwFilter = bbr.bwFilter)
    (hround : bbr.roundCount ≤ next.roundCount) : FilterInv next past := by
  have hhorizon : bbr.horizon ≤ next.horizon := Nat.sub_le_sub_right hround _
  constructor <;> rw [hfilter]
  · exact h.sampled
  · exact fun slot hslot => (h.rounds slot hslot).trans hround
  · exact fun sample hsample hpos hlive => h.covers sample hsample hpos (hhorizon.trans hlive)

theorem FilterInv.update (h : FilterInv bbr past) (hkept : ¬LeftOut bbr rate) :
    FilterInv (updateBwFilter bbr rate) (⟨rate, bbr.roundCount⟩ :: past) := by
  obtain ⟨slots, hafter, ⟨i, slot, hslot, rfl, hgiven⟩ | ⟨rfl, hsame⟩⟩ := updateBwFilter_cases bbr rate
  · have hnew : (⟨rate, bbr.roundCount⟩ : BwSample) ∈ bbr.bwFilter.set i ⟨rate, bbr.roundCount⟩ :=
      List.mem_set (List.getElem?_eq_some_iff.1 hslot).1 _
    rw [hafter]
    refine ⟨fun other hother hpos => ?_, fun other hother => ?_, fun sample hsample hpos hlive => ?_⟩
    · rcases mem_or_eq_of_mem_set hother with hold | rfl
      · exact mem_cons_of_mem _ (h.sampled other hold hpos)
      · exact mem_cons_self
    · rcases mem_or_eq_of_mem_set hother with hold | rfl
      · exact h.rounds other hold
      · exact le_rfl
    · rcases mem_cons.1 hsample with rfl | hsample
      · exact ⟨_, hnew, le_rfl, le_rfl⟩
      obtain ⟨other, hother, hrate, hround⟩ := h.covers sample hsample hpos hlive
      obtain ⟨j, hj⟩ := mem_iff_getElem?.1 hother
      by_cases hij : i = j
      · -- the slot that stood for the sample is the one given up
        obtain rfl : slot = other := Option.some_injective _ (hslot.symm.trans (hij ▸ hj))
        rcases hgiven with hzero | hexpired | hlt
        · omega
        · exact absurd (hlive.trans hround) (not_le.2 hexpired)
        · exact ⟨_, hnew, hrate.trans hlt.le, hround.trans (h.rounds slot hother)⟩
      · exact ⟨other, mem_of_getElem? ((getElem?_set_ne hij).trans hj), hrate, hround⟩
  · rw [hafter]
    refine ⟨fun other hother hpos => mem_cons_of_mem _ (h.sampled other hother hpos), h.rounds,
      fun sample hsample hpos hlive => ?_⟩
    rcases mem_cons.1 hsample with rfl | hsample
    · rcases hsame with rfl | hleft | ⟨slot, hslot, hround, hle⟩
      · exact absurd hpos (lt_irrefl 0)
      · exact absurd hleft hkept
      · exact ⟨slot, hslot, hle, hround.ge⟩
    · exact h.covers sample hsample hpos hlive

theorem btlbwBps_updateBwFilter (bbr : BbrState) (rate : Nat) :
    (updateBwFilter bbr rate).btlbwBps = (refreshBtlbw (updateBwFilter bbr rate)).btlbwBps := by
  obtain ⟨slots, hafter, -⟩ := updateBwFilter_cases bbr rate
  rw [hafter]
  rfl

theorem FilterInv.btlbwBps_eq (h : FilterInv bbr past) :
    (refreshBtlbw bbr).btlbwBps = windowMax bbr.roundCount past := by
  apply le_antisymm
  · rw [btlbwBps_refreshBtlbw_le_iff]
    intro slot hslot hpos hlive
    exact windowMax_le_iff.1 le_rfl slot (h.sampled slot hslot hpos) hlive
  · rw [windowMax_le_iff]
    intro sample hsample hlive
    rcases Nat.eq_zero_or_pos sample.bytesPerSec with hzero | hpos
    · exact hzero.le.trans (Nat.zero_le _)
    · obtain ⟨slot, hslot, hrate, hround⟩ := h.covers sample hsample hpos hlive
      exact hrate.trans (btlbwBps_refreshBtlbw_le_iff.1 le_rfl slot hslot (hpos.trans_le hrate) (hlive.trans hround))

/-- Calls of `update_bw_filter`, between which rounds may pass and the rest of the state may change. `past`
has the rates with the rounds they came in, the last one first. -/
inductive FilterRun (ok : BbrState → Nat → Prop) : BbrState → List BwSample → Prop
  | start {bbr : BbrState} (hempty : bbr.bwFilter = replicate 3 ⟨0, 0⟩) (hnone : bbr.btlbwBps = 0) :
      FilterRun ok bbr []
  | call {bbr next : BbrState} {past : List BwSample} (rate : Nat) (run : FilterRun ok bbr past)
      (hfilter : next.bwFilter = bbr.bwFilter) (hround : bbr.roundCount ≤ next.roundCount) (hok : ok next rate) :
      FilterRun ok (updateBwFilter next rate) (⟨rate, next.roundCount⟩ :: past)

theorem FilterRun.inv (h : FilterRun (fun bbr rate => ¬LeftOut bbr rate) bbr past) : FilterInv bbr past := by
  induction h with
  | start hempty _ => constructor <;> simp [hempty]
  | call rate _ hfilter hround hok ih => exact (ih.later hfilter hround).update hok

/-- The bottleneck bandwidth is the largest rate in the window as long as no call leaves its rate out of the
filter. -/
theorem btlbw_is_window_max (h : FilterRun (fun bbr rate => ¬LeftOut bbr rate) bbr past) :
    bbr.btlbwBps = windowMax bbr.roundCount past := by
  have hmax := h.inv.btlbwBps_eq
  cases h with
  | start hempty hnone => rw [hnone, windowMax, filter_nil, map_nil, foldl_nil]
  | call rate _ _ _ _ => rw [btlbwBps_updateBwFilter, hmax]

def filterOf (round : Nat) (slots : List BwSample) : BbrState :=
  { BbrState.new 0 0 with bwFilter := slots, roundCount := round }

theorem btlbw_is_window_max_dip :
    (updateBwFilter (filterOf 1 [⟨100, 0⟩, ⟨0, 0⟩, ⟨0, 0⟩]) 10).btlbwBps = windowMax 1 [⟨10, 1⟩, ⟨100, 0⟩] := by
  have hfirst : FilterRun (fun bbr rate => ¬LeftOut bbr rate)
      (updateBwFilter (filterOf 0 [⟨0, 0⟩, ⟨0, 0⟩, ⟨0, 0⟩]) 100) [⟨100, 0⟩] :=
    .call 100 (.start rfl rfl : FilterRun _ (BbrState.new 0 0) []) rfl le_rfl (by decide)
  exact btlbw_is_window_max (.call 10 hfirst rfl (by decide) (by decide))

/-- The rate of round 10 finds the slots taken by higher ones, which have all expired in round 13. -/
theorem btlbw_forgets_recent_rate :
    ∃ bbr past, FilterRun (fun _ _ => True) bbr past ∧ bbr.btlbwBps = 10 ∧ windowMax bbr.roundCount past = 79 := by
  have h0 : FilterRun (fun _ _ => True) (BbrState.new 0 0) [] := .start rfl rfl
  have h1 : FilterRun _ (updateBwFilter (filterOf 0 [⟨0, 0⟩, ⟨0, 0⟩, ⟨0, 0⟩]) 100) _ :=
    .call 100 h0 rfl (by decide) trivial
  have h2 : FilterRun _ (updateBwFilter (filterOf 1 [⟨100, 0⟩, ⟨0, 0⟩, ⟨0, 0⟩]) 90) _ :=
    .call 90 h1 rfl (by decide) trivial
  have h3 : FilterRun _ (updateBwFilter (filterOf 2 [⟨100, 0⟩, ⟨90, 1⟩, ⟨0, 0⟩]) 80) _ :=
    .call 80 h2 rfl (by decide) trivial
  have h4 : FilterRun _ (updateBwFilter (filterOf 10 [⟨100, 0⟩, ⟨90, 1⟩, ⟨80, 2⟩]) 79) _ :=
    .call 79 h3 rfl (by decide) trivial
  have h5 : FilterRun _ (updateBwFilter (filterOf 13 [⟨100, 0⟩, ⟨90, 1⟩, ⟨80, 2⟩]) 10) _ :=
    .call 10 h4 rfl (by decide) trivial
  exact ⟨_, _, h5, rfl, rfl⟩

end OutlineProxy.Tcp
