import Mathlib.Algebra.Ring.Nat
import Mathlib.Data.List.Basic
import Mathlib.Algebra.Order.BigOperators.Group.List

/-! Reassembly of a stream from blocks that arrive in any order and overlap freely.  A queue is kept sorted by
position, a new block is cut around those already queued, and blocks that have become contiguous are drained.
-/

namespace OutlineProxy.Reassembly

open List

variable {α : Type*}

structure Block (α : Type*) where
  pos : Nat
  data : List α
  fin : Bool

open Block

def Block.stop (b : Block α) : Nat := b.pos + b.data.length

def bytes (q : List (Block α)) : Nat := (q.map fun b => b.data.length).sum

def Sorted (q : List (Block α)) : Prop := q.Pairwise fun a b => a.pos ≤ b.pos

def insert : List (Block α) → Block α → List (Block α)
  | [], b => [b]
  | x :: xs, b => if b.pos < x.pos then b :: x :: xs else x :: insert xs b

@[simp] theorem bytes_nil : bytes ([] : List (Block α)) = 0 := rfl

@[simp] theorem bytes_cons (b : Block α) (q : List (Block α)) :
    bytes (b :: q) = b.data.length + bytes q := by
  simp [bytes]

theorem insert_perm (q : List (Block α)) (b : Block α) : (insert q b).Perm (b :: q) := by
  induction q with
  | nil => exact List.Perm.refl _
  | cons x xs ih =>
    by_cases hh : b.pos < x.pos
    · rw [insert, if_pos hh]
    · rw [insert, if_neg hh]
      exact (ih.cons x).trans (List.Perm.swap b x xs)

variable {q : List (Block α)} {b x : Block α}

theorem mem_insert : x ∈ insert q b ↔ x = b ∨ x ∈ q := by
  rw [(insert_perm q b).mem_iff, mem_cons]

theorem bytes_insert (q : List (Block α)) (b : Block α) :
    bytes (insert q b) = b.data.length + bytes q := by
  have hp := ((insert_perm q b).map fun b : Block α => b.data.length).sum_eq
  simpa [bytes] using hp

theorem length_insert (q : List (Block α)) (b : Block α) : (insert q b).length = q.length + 1 := by
  simpa using (insert_perm q b).length_eq

theorem Sorted.insert (hq : Sorted q) (b : Block α) : Sorted (insert q b) := by
  induction q with
  | nil => exact pairwise_singleton _ _
  | cons x xs ih =>
    obtain ⟨hx, hxs⟩ := pairwise_cons.1 hq
    by_cases hh : b.pos < x.pos
    · rw [Reassembly.insert, if_pos hh]
      refine pairwise_cons.2 ⟨fun y hy => ?_, hq⟩
      rcases mem_cons.1 hy with rfl | hy
      · exact hh.le
      · exact hh.le.trans (hx y hy)
    · rw [Reassembly.insert, if_neg hh]
      refine pairwise_cons.2 ⟨fun y hy => ?_, ih hxs⟩
      rcases mem_insert.1 hy with rfl | hy
      · omega
      · exact hx y hy

/-- The ranges below `limit` that no queued block covers, from `cursor` on, and the position
up to which the walk has decided. -/
def holes (limit : Nat) : Nat → List (Block α) → List (Nat × Nat) × Nat
  | cursor, [] => ([], cursor)
  | cursor, x :: xs =>
    if x.stop ≤ cursor then holes limit cursor xs
    else if limit ≤ x.pos then ([], cursor)
    else
      let hole := if cursor < x.pos then [(cursor, x.pos)] else []
      if limit ≤ x.stop then (hole, x.stop)
      else (hole ++ (holes limit x.stop xs).1, (holes limit x.stop xs).2)

def rangesLen (hs : List (Nat × Nat)) : Nat := (hs.map fun h => h.2 - h.1).sum

theorem holes_cursor (limit cursor : Nat) (q : List (Block α)) :
    cursor ≤ (holes limit cursor q).2 := by
  induction q generalizing cursor with
  | nil => exact le_rfl
  | cons x xs ih => grind [holes]

variable {limit : Nat}

theorem holes_cursor_lt {cursor n : Nat} (hq : ∀ b ∈ q, b.stop < n)
    (hc : cursor < n) : (holes limit cursor q).2 < n := by
  induction q generalizing cursor with
  | nil => exact hc
  | cons x xs ih => grind [holes]

variable {h : Nat × Nat}

theorem holes_mem {cursor : Nat} (hh : h ∈ (holes limit cursor q).1) : cursor ≤ h.1 ∧ h.1 < h.2 ∧ h.2 ≤ limit := by
  induction q generalizing cursor with
  | nil => simp [holes] at hh
  | cons x xs ih => grind [holes]

theorem holes_len (limit cursor : Nat) (q : List (Block α)) :
    rangesLen (holes limit cursor q).1 + (limit - (holes limit cursor q).2) ≤ limit - cursor := by
  induction q generalizing cursor with
  | nil => simp [holes, rangesLen]
  | cons x xs ih =>
    have hstop : x.pos ≤ x.stop := Nat.le_add_right _ _
    have hx := ih x.stop
    simp only [holes]
    split_ifs with h1 h2 h3 h4 h4
    · exact ih cursor
    · simp [rangesLen]
    all_goals simp only [rangesLen, nil_append, cons_append, map_cons, map_nil, sum_cons, sum_nil] at hx ⊢; omega

theorem length_holes_le (limit cursor : Nat) (q : List (Block α)) :
    (holes limit cursor q).1.length + (if (holes limit cursor q).2 < limit then 1 else 0) ≤
      q.countP (fun x => decide (cursor < x.pos) && decide (x.stop < limit)) + 1 := by
  induction q generalizing cursor with
  | nil => by_cases hc : cursor < limit <;> simp [holes, hc]
  | cons x xs ih =>
    by_cases h1 : x.stop ≤ cursor
    · have hh := ih cursor
      rw [holes, if_pos h1, countP_cons]
      omega
    · by_cases h2 : limit ≤ x.pos
      · simp only [holes, h1, h2, if_true, if_false]
        split_ifs <;> simp
      · by_cases h3 : limit ≤ x.stop
        · simp only [holes, h1, h2, h3, if_true, if_false, Nat.not_lt.2 h3]
          split_ifs <;> simp
        · -- a block that ends inside opens a hole only if it also starts inside
          have hmono : xs.countP (fun y => decide (x.stop < y.pos) && decide (y.stop < limit)) ≤
              xs.countP (fun y => decide (cursor < y.pos) && decide (y.stop < limit)) := by
            apply countP_mono_left
            intro y _ hy
            simp only [Bool.and_eq_true, decide_eq_true_eq] at hy ⊢
            omega
          have hh := ih x.stop
          simp only [holes, h1, h2, h3, if_false, length_append, countP_cons]
          by_cases hc : cursor < x.pos
          · grind [Bool.and_self, length_singleton]
          · simp only [hc, decide_false, Bool.false_and, if_false, length_nil]
            omega

def Block.part (b : Block α) (h : Nat × Nat) : Block α :=
  ⟨h.1, (b.data.take (h.2 - b.pos)).drop (h.1 - b.pos), false⟩

def pieces (b : Block α) (q : List (Block α)) : List (Block α) :=
  let (hs, cursor) := holes b.stop b.pos q
  hs.map b.part ++ if cursor < b.stop then [b.part (cursor, b.stop)] else []

def needsMarker (b : Block α) (q : List (Block α)) : Bool :=
  b.fin && !q.any fun x => x.fin && decide (x.stop = b.stop)

def Block.marker (b : Block α) : Block α := ⟨b.stop, [], true⟩

def add (q : List (Block α)) (b : Block α) : List (Block α) :=
  let filled := (pieces b q).foldl insert q
  if needsMarker b filled then insert filled b.marker else filled

structure IsPart (b x : Block α) : Prop where
  pos_le : b.pos ≤ x.pos
  stop_le : x.stop ≤ b.stop
  data_eq : x.data = (b.data.drop (x.pos - b.pos)).take x.data.length
  fin_imp : x.fin = true → b.fin = true ∧ x.pos = b.stop ∧ x.data = []

theorem length_part (h1 : b.pos ≤ h.1) (h2 : h.2 ≤ b.stop) : (b.part h).data.length = h.2 - h.1 := by
  have hs : b.stop = b.pos + b.data.length := rfl
  simp only [part, length_drop, length_take]
  omega

theorem isPart_part (h1 : b.pos ≤ h.1) (h2 : h.1 ≤ h.2) (h3 : h.2 ≤ b.stop) : IsPart b (b.part h) where
  pos_le := h1
  stop_le := by
    have hl := length_part h1 h3
    simp only [stop, hl]
    simp only [part, stop] at h3 ⊢
    omega
  data_eq := by
    have hl := length_part h1 h3
    rw [hl]
    simp only [part, drop_take]
    congr 1
    omega
  fin_imp hf := by simp [part] at hf

theorem isPart_marker (hf : b.fin = true) : IsPart b b.marker where
  pos_le := Nat.le_add_right _ _
  stop_le := le_rfl
  data_eq := by simp [marker]
  fin_imp _ := ⟨hf, rfl, rfl⟩

theorem isPart_of_mem_pieces (hx : x ∈ pieces b q) :
    IsPart b x := by
  simp only [pieces, mem_append, mem_map] at hx
  rcases hx with ⟨h, hm, rfl⟩ | hx
  · obtain ⟨h1, h2, h3⟩ := holes_mem hm
    exact isPart_part h1 h2.le h3
  · grind [isPart_part, holes_cursor]

theorem bytes_pieces_le (b : Block α) (q : List (Block α)) : bytes (pieces b q) ≤ b.data.length := by
  have hlen := holes_len b.stop b.pos q
  have hholes : bytes ((holes b.stop b.pos q).1.map b.part) = rangesLen (holes b.stop b.pos q).1 := by
    rw [bytes, rangesLen, map_map]
    congr 1
    refine map_congr_left fun h hm => ?_
    obtain ⟨h1, h2, h3⟩ := holes_mem hm
    exact length_part h1 h3
  have hb : b.stop - b.pos = b.data.length := Nat.add_sub_cancel_left ..
  simp only [pieces]
  split_ifs with hc
  · have hl := length_part (b := b) (h := ((holes b.stop b.pos q).2, b.stop)) (holes_cursor _ _ q) le_rfl
    simp only [bytes, map_append, sum_append, map_cons, map_nil, sum_cons, sum_nil] at hholes hl ⊢
    omega
  · simp only [append_nil]
    omega

theorem mem_foldl_insert {ps : List (Block α)} :
    x ∈ ps.foldl insert q ↔ x ∈ ps ∨ x ∈ q := by
  induction ps generalizing q with
  | nil => simp
  | cons p ps ih => rw [foldl_cons, ih, mem_insert, mem_cons]; tauto

theorem bytes_foldl_insert (ps q : List (Block α)) :
    bytes (ps.foldl insert q) = bytes ps + bytes q := by
  induction ps generalizing q with
  | nil => simp
  | cons p ps ih => rw [foldl_cons, ih, bytes_insert, bytes_cons]; omega

theorem length_foldl_insert (ps q : List (Block α)) : (ps.foldl insert q).length = ps.length + q.length := by
  induction ps generalizing q with
  | nil => simp
  | cons p ps ih => rw [foldl_cons, ih, length_insert, length_cons]; omega

theorem Sorted.foldl_insert {ps : List (Block α)} (hq : Sorted q) : Sorted (ps.foldl Reassembly.insert q) := by
  induction ps generalizing q with
  | nil => exact hq
  | cons p ps ih => exact ih (hq.insert p)

theorem mem_add (hx : x ∈ add q b) : x ∈ q ∨ IsPart b x := by
  have hfilled : x ∈ (pieces b q).foldl insert q → x ∈ q ∨ IsPart b x := by
    intro hm
    rcases mem_foldl_insert.1 hm with hm | hm
    · exact Or.inr (isPart_of_mem_pieces hm)
    · exact Or.inl hm
  rw [add] at hx
  split_ifs at hx with hn
  · rcases mem_insert.1 hx with rfl | hm
    · exact Or.inr (isPart_marker (Bool.and_eq_true_iff.1 hn).1)
    · exact hfilled hm
  · exact hfilled hx

theorem Sorted.add (hq : Sorted q) (b : Block α) : Sorted (add q b) := by
  rw [Reassembly.add]
  split_ifs
  · exact hq.foldl_insert.insert _
  · exact hq.foldl_insert

theorem bytes_add_le (q : List (Block α)) (b : Block α) : bytes (add q b) ≤ bytes q + b.data.length := by
  grind [pieces, add, marker, bytes_pieces_le, bytes_foldl_insert, bytes_insert, length_nil]

theorem length_add (q : List (Block α)) (b : Block α) : (add q b).length = q.length + (pieces b q).length
      + if needsMarker b ((pieces b q).foldl insert q) then 1 else 0 := by
  have hf := length_foldl_insert (pieces b q) q
  rw [add]
  split_ifs
  · rw [length_insert]
    omega
  · omega

def islands (b : Block α) (q : List (Block α)) : Nat :=
  q.countP fun x => decide (b.pos < x.pos) && decide (x.stop < b.stop)

theorem length_pieces_le (b : Block α) (q : List (Block α)) : (pieces b q).length ≤ islands b q + 1 := by
  have hh := length_holes_le b.stop b.pos q
  simp only [pieces, islands, length_append, length_map] at hh ⊢
  split_ifs at hh ⊢ <;> simpa using hh

theorem length_add_le (q : List (Block α)) (b : Block α) :
    (add q b).length ≤ q.length + islands b q + 1 + b.fin.toNat := by
  grind [needsMarker, pieces, insert, length_pieces_le, length_add]

/-- Outcome of a drain: the next expected position, the blocks left, the data handed out and
whether the end of the stream was reached. -/
structure Drained (α : Type*) where
  next : Nat
  rest : List (Block α)
  out : List (List α)
  closed : Bool

/-- Hand out the blocks that continue the stream at `r`, without what was handed out before. -/
def drain : Nat → List (Block α) → Drained α
  | r, [] => ⟨r, [], [], false⟩
  | r, b :: rest =>
    if r < b.pos then ⟨r, b :: rest, [], false⟩
    else
      let data := b.data.drop (r - b.pos)
      let fin := b.fin && decide (r ≤ b.stop)
      if data.isEmpty && !fin then drain r rest
      else
        let out := if data.isEmpty then [] else [data]
        if fin then ⟨r + data.length + 1, rest, out, true⟩
        else
          let d := drain (r + data.length) rest
          { d with out := out ++ d.out }

theorem drain_cons_cases (r : Nat) (b : Block α) (rest : List (Block α)) :
    (r < b.pos ∧ drain r (b :: rest) = ⟨r, b :: rest, [], false⟩) ∨
    (b.pos ≤ r ∧ b.stop ≤ r ∧ drain r (b :: rest) = drain r rest) ∨
    (b.pos ≤ r ∧ r ≤ b.stop ∧ b.fin = true ∧ ∃ out, out.flatten = b.data.drop (r - b.pos) ∧
      drain r (b :: rest) = ⟨b.stop + 1, rest, out, true⟩) ∨
    (b.pos ≤ r ∧ r < b.stop ∧ b.fin = false ∧ drain r (b :: rest) =
      { drain b.stop rest with out := b.data.drop (r - b.pos) :: (drain b.stop rest).out }) := by
  have hs : b.stop = b.pos + b.data.length := rfl
  by_cases h1 : r < b.pos
  · exact Or.inl ⟨h1, by rw [drain, if_pos h1]⟩
  have hempty : (b.data.drop (r - b.pos)).isEmpty = true ↔ b.stop ≤ r := by
    rw [List.isEmpty_iff, List.drop_eq_nil_iff]
    omega
  by_cases h2 : b.stop ≤ r
  · grind [drain, flatten_nil]
  · have he : (b.data.drop (r - b.pos)).isEmpty = false := by
      rw [Bool.eq_false_iff, ne_eq, hempty]
      exact h2
    have hr : r + (b.data.length - (r - b.pos)) = b.stop := by omega
    have hle : decide (r ≤ b.stop) = true := decide_eq_true_iff.2 (by omega)
    refine Or.inr (Or.inr ?_)
    cases hf : b.fin with
    | true =>
      refine Or.inl ⟨by omega, by omega, rfl, [b.data.drop (r - b.pos)], by simp, ?_⟩
      simp [drain, h1, he, hf, hle, hr]
    | false =>
      refine Or.inr ⟨by omega, by omega, rfl, ?_⟩
      simp [drain, h1, he, hf, hr]

theorem drain_next (r : Nat) (q : List (Block α)) :
    (drain r q).next = r + (drain r q).out.flatten.length + (drain r q).closed.toNat := by
  induction q generalizing r with
  | nil => simp [drain]
  | cons b rest ih =>
    have hs : b.stop = b.pos + b.data.length := rfl
    rcases drain_cons_cases r b rest with ⟨_, he⟩ | ⟨_, _, he⟩ | ⟨h1, h2, _, out, ho, he⟩ | ⟨h1, h2, _, he⟩
    · simp [he]
    · rw [he]
      exact ih r
    · rw [he, ho, length_drop]
      simp only [Bool.toNat_true]
      omega
    · grind [flatten_cons, length_append, length_drop]

theorem drain_bytes (r : Nat) (q : List (Block α)) :
    (drain r q).out.flatten.length + bytes (drain r q).rest ≤ bytes q := by
  induction q generalizing r with
  | nil => simp [drain]
  | cons b rest ih =>
    rcases drain_cons_cases r b rest with ⟨_, he⟩ | ⟨_, _, he⟩ | ⟨h1, h2, _, out, ho, he⟩ | ⟨h1, h2, _, he⟩
    · simp [he]
    · have hh := ih r
      rw [he, bytes_cons]
      omega
    · rw [he, ho, bytes_cons, length_drop]
      simp only
      omega
    · grind [bytes_cons, flatten_cons, length_append, length_drop]

theorem drain_rest_suffix (r : Nat) (q : List (Block α)) : (drain r q).rest <:+ q := by
  induction q generalizing r with
  | nil => simp [drain]
  | cons b rest ih =>
    rcases drain_cons_cases r b rest with ⟨_, he⟩ | ⟨_, _, he⟩ | ⟨h1, h2, _, out, ho, he⟩ | ⟨h1, h2, _, he⟩
    · simp [he]
    · rw [he]
      exact (ih r).trans (suffix_cons b rest)
    · rw [he]
      exact suffix_cons b rest
    · rw [he]
      exact (ih b.stop).trans (suffix_cons b rest)

variable {r : Nat}

theorem drain_rest_bytes (hb : b.pos ≤ r) :
    bytes (drain r (b :: q)).rest ≤ bytes q := by
  have hsuffix : ∀ n, bytes (drain n q).rest ≤ bytes q := by
    intro n
    have hh := drain_bytes n q
    omega
  rcases drain_cons_cases r b q with ⟨h1, _⟩ | ⟨_, _, he⟩ | ⟨_, _, _, out, _, he⟩ | ⟨_, _, _, he⟩
  · omega
  · rw [he]
    exact hsuffix r
  · rw [he]
  · rw [he]
    exact hsuffix b.stop

theorem drain_rest_beyond (hq : Sorted q) (hc : (drain r q).closed = false) (hx : x ∈ (drain r q).rest) :
    (drain r q).next < x.pos := by
  induction q generalizing r with
  | nil => simp [drain] at hx
  | cons b rest ih =>
    obtain ⟨hb, hrest⟩ := pairwise_cons.1 hq
    rcases drain_cons_cases r b rest with ⟨h1, he⟩ | ⟨_, _, he⟩ | ⟨h1, h2, _, out, ho, he⟩ | ⟨h1, h2, _, he⟩
    · grind
    · rw [he] at hx hc ⊢
      exact ih hrest hc hx
    · simp [he] at hc
    · rw [he] at hx hc ⊢
      exact ih hrest hc hx

theorem drain_next_le (hq : ∀ b ∈ q, b.stop ≤ limit)
    (hr : r ≤ limit) : (drain r q).next ≤ limit + (drain r q).closed.toNat := by
  induction q generalizing r with
  | nil => simpa [drain] using hr
  | cons b rest ih =>
    obtain ⟨hb, hrest⟩ := forall_mem_cons.1 hq
    rcases drain_cons_cases r b rest with ⟨_, he⟩ | ⟨_, _, he⟩ | ⟨h1, h2, _, out, ho, he⟩ | ⟨h1, h2, _, he⟩
    · simpa [he] using hr
    · rw [he]
      exact ih hrest hr
    · rw [he]
      simpa using hb
    · rw [he]
      exact ih hrest hb

/-- The block is data of the stream `S` at its place, and ends it only where `S` ends. -/
structure Fits (S : List α) (b : Block α) : Prop where
  data_eq : b.data = (S.drop b.pos).take b.data.length
  stop_le : b.stop ≤ S.length
  fin_imp : b.fin = true → b.stop = S.length

variable {S : List α}

theorem Fits.drop (hb : Fits S b) (h1 : b.pos ≤ r) :
    b.data.drop (r - b.pos) = (S.drop r).take (b.stop - r) := by
  have hs : b.stop = b.pos + b.data.length := rfl
  rw [hb.data_eq, drop_take, drop_drop]
  congr 1
  · omega
  · congr 1
    omega

theorem Fits.part (hb : Fits S b) (hx : IsPart b x) : Fits S x where
  data_eq := by
    have hxs : x.stop = x.pos + x.data.length := rfl
    have hp := hx.pos_le
    have hl := hx.stop_le
    have hd := hx.data_eq
    rw [hb.drop hp, take_take] at hd
    rwa [Nat.min_eq_left (by omega)] at hd
  stop_le := hx.stop_le.trans hb.stop_le
  fin_imp hf := by
    obtain ⟨hbf, hp, hd⟩ := hx.fin_imp hf
    rw [stop, hp, hd, length_nil, Nat.add_zero, hb.fin_imp hbf]

theorem drain_fits (hq : ∀ b ∈ q, Fits S b) (hr : r ≤ S.length) :
    (drain r q).out.flatten = (S.drop r).take (drain r q).out.flatten.length ∧
      r + (drain r q).out.flatten.length ≤ S.length ∧ ((drain r q).closed = true →
        r + (drain r q).out.flatten.length = S.length ∧ ∃ b ∈ q, b.fin = true) := by
  induction q generalizing r with
  | nil => simpa [drain] using hr
  | cons b rest ih =>
    have hs : b.stop = b.pos + b.data.length := rfl
    obtain ⟨hb, hrest⟩ := forall_mem_cons.1 hq
    rcases drain_cons_cases r b rest with ⟨_, he⟩ | ⟨_, _, he⟩ | ⟨h1, h2, hf, out, ho, he⟩ | ⟨h1, h2, _, he⟩
    · simpa [he] using hr
    · grind [mem_cons_of_mem]
    · have hlen : out.flatten.length = b.stop - r := by
        rw [ho, length_drop]
        omega
      have hstop := hb.fin_imp hf
      rw [he]
      refine ⟨?_, ?_, fun _ => ⟨?_, b, mem_cons_self, hf⟩⟩
      · rw [hlen, ho, hb.drop h1]
      all_goals simp only [hlen]; omega
    · obtain ⟨hd, hl, hc⟩ := ih hrest hb.stop_le
      have hlen : (b.data.drop (r - b.pos)).length = b.stop - r := by
        rw [length_drop]
        omega
      rw [he]
      simp only [flatten_cons, length_append, hlen]
      refine ⟨?_, by omega, fun h => ⟨?_, ?_⟩⟩
      · rw [take_add, ← hb.drop h1, drop_drop]
        congr 1
        rw [show r + (b.stop - r) = b.stop by omega]
        exact hd
      · have := (hc h).1
        omega
      · exact (hc h).2.imp fun x hx => ⟨mem_cons_of_mem _ hx.1, hx.2⟩

end OutlineProxy.Reassembly
