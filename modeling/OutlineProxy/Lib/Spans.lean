import Mathlib.Data.List.Sort
import Mathlib.Order.MinMax

/-! Lists of half-open spans `[a, b)` on a line: the scan that asks whether one of them covers a
given span, and the merge that joins spans which touch. -/

namespace OutlineProxy.Spans

open List

variable {α : Type*} [LinearOrder α] {spans merged : List (α × α)} {span : α × α} {k stop lo hi : α}

structure Separated (spans : List (α × α)) : Prop where
  nonempty : ∀ s ∈ spans, s.1 < s.2
  gaps : spans.Pairwise fun s t => s.2 < t.1

theorem Separated.nil : Separated ([] : List (α × α)) := ⟨by simp, .nil⟩

theorem Separated.sublist {kept : List (α × α)} (h : Separated spans) (hs : kept.Sublist spans) :
    Separated kept :=
  ⟨fun s hm => h.nonempty s (hs.subset hm), h.gaps.sublist hs⟩

theorem Separated.tail (h : Separated (span :: spans)) : Separated spans :=
  h.sublist (sublist_cons_self span spans)

theorem Separated.starts_lt (h : Separated spans) : spans.Pairwise fun s t => s.1 < t.1 := by
  refine h.gaps.imp_of_mem fun {s t} hs _ hgap => ?_
  exact (h.nonempty s hs).trans hgap

theorem Separated.head_le {first : α × α} (h : Separated spans) (hfirst : first ∈ spans.head?)
    (hspan : span ∈ spans) : first.1 ≤ span.1 := by
  cases spans with
  | nil => simp at hspan
  | cons head rest =>
    obtain rfl := Option.some.inj hfirst
    rcases mem_cons.1 hspan with rfl | hrest
    · exact le_rfl
    · exact ((pairwise_cons.1 h.starts_lt).1 span hrest).le

def Covers (spans : List (α × α)) (k stop : α) : Prop := ∃ s ∈ spans, s.1 ≤ k ∧ stop ≤ s.2

def covered (k stop : α) : List (α × α) → Bool
  | [] => false
  | s :: rest =>
    if k < s.1 then false
    else if s.2 ≤ k then covered k stop rest
    else decide (stop ≤ s.2)

theorem covered_iff (h : Separated spans) (hk : k < stop) :
    covered k stop spans = true ↔ Covers spans k stop := by
  induction spans with
  | nil => simp [covered, Covers]
  | cons s rest ih =>
    have hgaps := (pairwise_cons.1 h.gaps).1
    have hs := h.nonempty s (by simp)
    rw [covered]
    split_ifs with hbefore hafter
    · -- every later span starts even further right
      refine iff_of_false (by simp) ?_
      rintro ⟨t, ht, hstart, -⟩
      rcases mem_cons.1 ht with rfl | ht
      · exact absurd hbefore (not_lt.2 hstart)
      · exact absurd (hs.trans (hgaps t ht)) (not_lt.2 (hstart.trans hbefore.le))
    · rw [ih h.tail]
      refine ⟨fun ⟨t, ht, hc⟩ => ⟨t, mem_cons_of_mem s ht, hc⟩, ?_⟩
      rintro ⟨t, ht, hstart, hstop⟩
      rcases mem_cons.1 ht with rfl | ht
      · exact absurd (hstop.trans hafter) (not_le.2 hk)
      · exact ⟨t, ht, hstart, hstop⟩
    · rw [decide_eq_true_iff]
      refine ⟨fun hstop => ⟨s, by simp, not_lt.1 hbefore, hstop⟩, ?_⟩
      rintro ⟨t, ht, hstart, hstop⟩
      rcases mem_cons.1 ht with rfl | ht
      · exact hstop
      · exact absurd ((not_le.1 hafter).trans (hgaps t ht)) (not_lt.2 hstart)

/-- One step of the merge: `span` joins the last merged one if it touches it.  The merged spans
are kept last first. -/
def join (merged : List (α × α)) (span : α × α) : List (α × α) :=
  match merged with
  | last :: before =>
    if span.1 ≤ last.2 then (last.1, max last.2 span.2) :: before else span :: last :: before
  | [] => [span]

def Between (lo hi : α) (span : α × α) : Prop := lo ≤ span.1 ∧ span.1 ≤ span.2 ∧ span.2 ≤ hi

theorem join_between (h : ∀ s ∈ merged, Between lo hi s) (hspan : Between lo hi span) :
    ∀ s ∈ join merged span, Between lo hi s := by
  intro s hs
  cases merged with
  | nil =>
    obtain rfl : s = span := by simpa [join] using hs
    exact hspan
  | cons last before =>
    have hlast := h last (by simp)
    rw [join] at hs
    split_ifs at hs
    · rcases mem_cons.1 hs with rfl | hs
      · exact ⟨hlast.1, hlast.2.1.trans (le_max_left _ _), max_le hlast.2.2 hspan.2.2⟩
      · exact h s (by simp [hs])
    · rcases mem_cons.1 hs with rfl | hs
      · exact hspan
      · exact h s hs

theorem foldl_join_between (hspans : ∀ s ∈ spans, Between lo hi s) (h : ∀ s ∈ merged, Between lo hi s) :
    ∀ s ∈ spans.foldl join merged, Between lo hi s := by
  induction spans generalizing merged with
  | nil => exact h
  | cons s rest ih =>
    exact ih (fun t ht => hspans t (by simp [ht])) (join_between h (hspans s (by simp)))

theorem foldl_join_nonempty (hspans : ∀ s ∈ spans, s.1 < s.2) (h : ∀ s ∈ merged, s.1 < s.2) :
    ∀ s ∈ spans.foldl join merged, s.1 < s.2 := by
  induction spans generalizing merged with
  | nil => exact h
  | cons s rest ih =>
    refine ih (fun t ht => hspans t (by simp [ht])) fun t ht => ?_
    cases merged with
    | nil =>
      obtain rfl : t = s := by simpa [join] using ht
      exact hspans t (by simp)
    | cons last before => grind [join]

theorem foldl_join_gaps (hspans : ∀ s ∈ spans, s.1 ≤ s.2) (hmerged : ∀ s ∈ merged, s.1 ≤ s.2)
    (h : merged.Pairwise fun s t => t.2 < s.1) : (spans.foldl join merged).Pairwise fun s t => t.2 < s.1 := by
  induction spans generalizing merged with
  | nil => exact h
  | cons s rest ih =>
    have hs := hspans s (by simp)
    have hrest : ∀ t ∈ rest, t.1 ≤ t.2 := fun t ht => hspans t (by simp [ht])
    rw [foldl_cons]
    cases merged with
    | nil => exact ih hrest (by simpa [join] using hs) (by simp [join])
    | cons last before =>
      obtain ⟨hgap, hgaps⟩ := pairwise_cons.1 h
      have hlast := hmerged last (by simp)
      rw [join]
      split_ifs with htouch
      · refine ih hrest (fun t ht => ?_) (pairwise_cons.2 ⟨hgap, hgaps⟩)
        rcases mem_cons.1 ht with rfl | ht
        · exact hlast.trans (le_max_left _ _)
        · exact hmerged t (by simp [ht])
      · refine ih hrest (fun t ht => ?_) (pairwise_cons.2 ⟨fun t ht => ?_, h⟩)
        · rcases mem_cons.1 ht with rfl | ht
          · exact hs
          · exact hmerged t ht
        · grind

theorem foldl_join_separated (hspans : ∀ s ∈ spans, s.1 < s.2) (h : Separated merged.reverse) :
    Separated (spans.foldl join merged).reverse := by
  have hmerged : ∀ s ∈ merged, s.1 < s.2 := fun s hs => h.nonempty s (by simpa using hs)
  refine ⟨fun s hs => foldl_join_nonempty hspans hmerged s (by simpa using hs), pairwise_reverse.2 ?_⟩
  exact foldl_join_gaps (fun s hs => (hspans s hs).le) (fun s hs => (hmerged s hs).le) (pairwise_reverse.1 h.gaps)

def Proper (lo hi : α) (span : α × α) : Prop := lo ≤ span.1 ∧ span.1 < span.2 ∧ span.2 ≤ hi

theorem Proper.between (h : Proper lo hi span) : Between lo hi span := ⟨h.1, h.2.1.le, h.2.2⟩

theorem foldl_join_proper (hspans : ∀ s ∈ spans, Proper lo hi s) (h : ∀ s ∈ merged, Proper lo hi s) :
    ∀ s ∈ spans.foldl join merged, Proper lo hi s := by
  intro s hs
  have hbetween := foldl_join_between (fun t ht => (hspans t ht).between) (fun t ht => (h t ht).between) s hs
  exact ⟨hbetween.1, foldl_join_nonempty (fun t ht => (hspans t ht).2.1) (fun t ht => (h t ht).2.1) s hs, hbetween.2.2⟩

theorem foldl_join_of_separated (h : Separated (merged.reverse ++ spans)) :
    spans.foldl join merged = spans.reverse ++ merged := by
  induction spans generalizing merged with
  | nil => simp
  | cons s rest ih =>
    have hjoin : join merged s = s :: merged := by
      cases merged with
      | nil => rfl
      | cons last before =>
        have hgaps := h.gaps
        grind [join]
    rw [foldl_cons, hjoin, ih (by simpa using h)]
    simp

def Holds (spans : List (α × α)) (k : α) : Prop := ∃ s ∈ spans, s.1 ≤ k ∧ k < s.2

@[simp] theorem holds_nil : ¬Holds [] k := by simp [Holds]

@[simp] theorem holds_cons : Holds (span :: spans) k ↔ (span.1 ≤ k ∧ k < span.2) ∨ Holds spans k := by
  simp [Holds]

@[simp] theorem holds_append : Holds (merged ++ spans) k ↔ Holds merged k ∨ Holds spans k := by
  simp [Holds, or_and_right, exists_or]

@[simp] theorem holds_reverse : Holds spans.reverse k ↔ Holds spans k := by
  simp [Holds]

theorem Holds.of_perm {other : List (α × α)} (h : spans.Perm other) : Holds spans k ↔ Holds other k := by
  simp only [Holds, h.mem_iff]

theorem Separated.eq_of_holds {s t : α × α} (h : Separated spans) (hs : s ∈ spans) (ht : t ∈ spans)
    (hks : s.1 ≤ k ∧ k < s.2) (hkt : t.1 ≤ k ∧ k < t.2) : s = t := by
  induction spans with
  | nil => simp at hs
  | cons first rest ih =>
    have hgaps := (pairwise_cons.1 h.gaps).1
    rcases mem_cons.1 hs with hfirst | hlater
    · grind
    · have htail := h.tail
      grind

theorem holds_join (hle : ∀ last ∈ merged.head?, last.1 ≤ span.1) :
    Holds (join merged span) k ↔ Holds merged k ∨ (span.1 ≤ k ∧ k < span.2) := by
  cases merged with
  | nil => simp [join]
  | cons last before => grind [join, holds_cons]

theorem holds_foldl_join (hsorted : spans.Pairwise fun s t => s.1 ≤ t.1)
    (hle : ∀ last ∈ merged.head?, ∀ s ∈ spans, last.1 ≤ s.1) :
    Holds (spans.foldl join merged) k ↔ Holds merged k ∨ Holds spans k := by
  induction spans generalizing merged with
  | nil => simp
  | cons s rest ih =>
    obtain ⟨hrest, hsorted⟩ := pairwise_cons.1 hsorted
    have hstep : ∀ last ∈ (join merged s).head?, ∀ t ∈ rest, last.1 ≤ t.1 := by
      intro last hlast t ht
      cases merged with
      | nil =>
        obtain rfl : s = last := by simpa [join] using hlast
        exact hrest t ht
      | cons first before => grind [join, Option.some.inj]
    rw [foldl_cons, ih hsorted hstep, holds_join fun last hlast => hle last hlast s (by simp), holds_cons, or_assoc]

theorem foldl_join_reach {last : α × α} {before : List (α × α)} (hspans : ∀ s ∈ spans, s.1 < s.2)
    (h : spans.foldl join merged = last :: before) :
    (∀ s ∈ spans, s.2 ≤ last.2) ∧ (∀ s ∈ merged.head?, s.2 ≤ last.2) ∧
      ((∃ s ∈ spans, s.2 = last.2) ∨ ∃ s ∈ merged.head?, s.2 = last.2) := by
  induction spans generalizing merged with
  | nil =>
    obtain rfl : merged = last :: before := h
    simp
  | cons s rest ih =>
    obtain ⟨hrest, hhead, hend⟩ := ih (fun t ht => hspans t (by simp [ht])) h
    cases merged with
    | nil => grind [join]
    | cons first others =>
      rw [join] at hhead hend
      split_ifs at hhead hend with htouch
      · have hle : max first.2 s.2 ≤ last.2 := hhead _ rfl
        refine ⟨by simpa [(le_max_right _ _).trans hle] using hrest, by simpa using (le_max_left _ _).trans hle, ?_⟩
        rcases hend with ⟨t, ht, hreach⟩ | ⟨t, ht, hreach⟩
        · exact .inl ⟨t, by simp [ht], hreach⟩
        · grind [Option.some.inj]
      · grind [Option.some.inj]

theorem holds_of_join (h : Holds (join merged span) k) : Holds merged k ∨ (span.1 ≤ k ∧ k < span.2) := by
  cases merged with
  | nil => simpa [join] using h
  | cons last before =>
    rw [join] at h
    split_ifs at h with htouch
    · rcases holds_cons.1 h with ⟨hstart, hend⟩ | hbefore
      · rcases lt_max_iff.1 hend with hin | hin
        · exact .inl (holds_cons.2 (.inl ⟨hstart, hin⟩))
        · by_cases hk : k < last.2
          · exact .inl (holds_cons.2 (.inl ⟨hstart, hk⟩))
          · exact .inr ⟨htouch.trans (not_lt.1 hk), hin⟩
      · exact .inl (holds_cons.2 (.inr hbefore))
    · exact (holds_cons.1 h).symm

theorem holds_of_foldl_join (h : Holds (spans.foldl join merged) k) : Holds merged k ∨ Holds spans k := by
  induction spans generalizing merged with
  | nil => exact .inl h
  | cons s rest ih =>
    rcases ih h with hjoined | hrest
    · rcases holds_of_join hjoined with hold | hnew
      · exact .inl hold
      · exact .inr (holds_cons.2 (.inl hnew))
    · exact .inr (holds_cons.2 (.inr hrest))

theorem eq_nil_of_foldl_join (h : spans.foldl join merged = []) : spans = [] := by
  induction spans generalizing merged with
  | nil => rfl
  | cons s rest ih =>
    obtain rfl := ih h
    cases merged with
    | nil => simp [join] at h
    | cons last before =>
      rw [foldl_cons, foldl_nil, join] at h
      split_ifs at h

theorem foldl_join_append {top : List (α × α)} (htop : top ≠ []) :
    spans.foldl join (top ++ merged) = spans.foldl join top ++ merged := by
  induction spans generalizing top with
  | nil => rfl
  | cons s rest ih =>
    obtain ⟨last, before, rfl⟩ := exists_cons_of_ne_nil htop
    have hstep : join (last :: before ++ merged) s = join (last :: before) s ++ merged := by
      simp only [cons_append, join]
      split_ifs <;> rfl
    rw [foldl_cons, foldl_cons, hstep]
    refine ih ?_
    rw [join]
    split_ifs <;> simp

theorem foldl_join_beyond (h : ∀ s ∈ spans, ∀ t ∈ merged, t.2 < s.1) :
    spans.foldl join merged = spans.foldl join [] ++ merged := by
  cases spans with
  | nil => rfl
  | cons s rest =>
    have hstep : join merged s = [s] ++ merged := by
      cases merged with
      | nil => rfl
      | cons last before => simp [join, h s (by simp) last (by simp)]
    rw [foldl_cons, hstep, foldl_join_append (by simp)]
    rfl

theorem foldl_join_absorbed {last : α × α} {before : List (α × α)} (h : ∀ s ∈ spans, s.1 ≤ last.2) :
    ∃ reach, last.2 ≤ reach ∧ spans.foldl join (last :: before) = (last.1, reach) :: before ∧
      ((∀ s ∈ spans, s.2 ≤ last.2) → reach = last.2) := by
  induction spans generalizing last with
  | nil => exact ⟨last.2, le_rfl, rfl, fun _ => rfl⟩
  | cons s rest ih =>
    have hstep : join (last :: before) s = (last.1, max last.2 s.2) :: before := by
      rw [join, if_pos (h s (by simp))]
    obtain ⟨reach, hreach, hfold, hsame⟩ := @ih (last.1, max last.2 s.2) fun t ht =>
      (h t (by simp [ht])).trans (le_max_left _ _)
    refine ⟨reach, (le_max_left _ _).trans hreach, by rw [foldl_cons, hstep, hfold], fun hends => ?_⟩
    have hmax : max last.2 s.2 = last.2 := max_eq_left (hends s (by simp))
    rw [hsame fun t ht => (hends t (by simp [ht])).trans (le_max_left _ _), hmax]

section Sorting

variable {β : Type*} {r : β → β → Prop} [DecidableRel r] [IsTrans β r]

theorem eq_filter_append {p : β → Bool} {l : List β} (h : l.Pairwise fun a b => p b = true → p a = true) :
    l = l.filter p ++ l.filter fun a => !p a := by
  induction l with
  | nil => rfl
  | cons a rest ih =>
    obtain ⟨hfirst, hrest⟩ := pairwise_cons.1 h
    by_cases ha : p a = true
    · rw [filter_cons_of_pos ha, filter_cons_of_neg (by simp [ha]), cons_append, ← ih hrest]
    · have hnone : rest.filter p = [] := by
        rw [filter_eq_nil_iff]
        exact fun b hb hp => ha (hfirst b hb hp)
      have hall : rest.filter (fun b => !p b) = rest := by
        rw [hnone, nil_append] at ih
        exact (ih hrest).symm
      rw [filter_cons_of_neg ha, filter_cons_of_pos (by simpa using ha), hnone, hall, nil_append]

theorem filter_orderedInsert (p : β → Bool) (a : β) {l : List β} (h : l.Pairwise r) :
    (l.orderedInsert r a).filter p = if p a then (l.filter p).orderedInsert r a else l.filter p := by
  induction l with
  | nil => cases ha : p a <;> simp [ha]
  | cons b rest ih =>
    obtain ⟨hb, hrest⟩ := pairwise_cons.1 h
    by_cases hab : r a b
    · rw [orderedInsert_cons_of_le r rest hab, filter_cons]
      split_ifs with hp
      · -- what is left of the list is still beyond the new entry
        cases hleft : (b :: rest).filter p with
        | nil => rfl
        | cons c others =>
          have hc : c ∈ b :: rest := mem_of_mem_filter (hleft ▸ mem_cons_self ..)
          have hac : r a c := by
            rcases mem_cons.1 hc with rfl | hc
            · exact hab
            · exact IsTrans.trans a b c hab (hb c hc)
          rw [orderedInsert_cons_of_le r others hac]
      · rfl
    · grind [orderedInsert_of_not_le]

theorem filter_insertionSort [Std.Total r] (p : β → Bool) (l : List β) :
    (l.insertionSort r).filter p = (l.filter p).insertionSort r := by
  induction l with
  | nil => rfl
  | cons a rest ih => grind [filter_orderedInsert, pairwise_insertionSort]

end Sorting

theorem covers_filter_iff (p : α × α → Bool) (hp : ∀ s ∈ spans, p s = true ↔ lo < s.2) (hlo : lo < stop) :
    Covers (spans.filter p) k stop ↔ Covers spans k stop := by
  constructor
  · rintro ⟨s, hs, hc⟩
    exact ⟨s, (mem_filter.1 hs).1, hc⟩
  · rintro ⟨s, hs, hstart, hstop⟩
    exact ⟨s, mem_filter.2 ⟨hs, (hp s hs).2 (hlo.trans_le hstop)⟩, hstart, hstop⟩

end OutlineProxy.Spans
