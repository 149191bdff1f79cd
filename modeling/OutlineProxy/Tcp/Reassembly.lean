import OutlineProxy.Lib.Reassembly
import OutlineProxy.Tcp.Recv

/-! The reassembly queue of a flow refines the queue of blocks: within half the sequence space the wrapping
comparisons decide the order of the positions. -/

namespace OutlineProxy.Tcp

open List Serial Reassembly Reassembly

variable {isn : UInt32}

structure Rep (isn : UInt32) (segment : BufferedClientSegment) (b : Block UInt8) : Prop where
  seq : segment.sequenceNumber = point isn b.pos
  data : segment.payload = b.data
  fin : segment.flags.fin = b.fin

abbrev Reps (isn : UInt32) (queue : List BufferedClientSegment) (q : List (Block UInt8)) : Prop :=
  List.Forall₂ (Rep isn) queue q

def Near (r : Nat) (q : List (Block UInt8)) : Prop := ∀ b ∈ q, r ≤ b.pos ∧ b.stop < r + 2 ^ 31

variable {b : Block UInt8}

theorem Rep.dataEnd {segment : BufferedClientSegment} (h : Rep isn segment b) :
    bufferedClientSegmentDataEnd segment = point isn b.stop := by
  rw [bufferedClientSegmentDataEnd, h.seq, h.data, Block.stop, point_add]

variable {queue : List BufferedClientSegment} {q : List (Block UInt8)}

theorem Reps.bytes_eq (h : Reps isn queue q) : (queue.map fun segment => segment.payload.length).sum = bytes q := by
  induction h with
  | nil => rfl
  | cons hx _ ih => simp [hx.data, ih]

theorem insertClientSegment_cons (x : BufferedClientSegment) (xs : List BufferedClientSegment)
    (segment : BufferedClientSegment) (expectedSeq : UInt32) :
    insertClientSegment (x :: xs) segment expectedSeq =
      if segment.sequenceNumber - expectedSeq < x.sequenceNumber - expectedSeq then segment :: x :: xs
      else x :: insertClientSegment xs segment expectedSeq := by
  grind [insertClientSegment]

variable {r : Nat}

theorem Reps.insert {segment : BufferedClientSegment} (h : Reps isn queue q)
    (hb : Rep isn segment b) (hq : Near r q) (hn : Near r [b]) :
    Reps isn (insertClientSegment queue segment (point isn r)) (Reassembly.insert q b) := by
  induction h with
  | nil => exact List.Forall₂.cons hb List.Forall₂.nil
  | @cons x y xs ys hx hxs ih =>
    have hy := hq y mem_cons_self
    have hbb := hn b mem_cons_self
    have hys : y.pos ≤ y.stop := Nat.le_add_right _ _
    have hbs : b.pos ≤ b.stop := Nat.le_add_right _ _
    have hlt : segment.sequenceNumber - point isn r < x.sequenceNumber - point isn r ↔ b.pos < y.pos := by
      rw [UInt32.lt_iff_toNat_lt, hb.seq, hx.seq, toNat_point_sub_point isn (by omega) (by omega),
        toNat_point_sub_point isn (by omega) (by omega)]
      omega
    rw [insertClientSegment_cons, Reassembly.insert]
    by_cases hh : b.pos < y.pos
    · rw [if_pos (hlt.2 hh), if_pos hh]
      exact List.Forall₂.cons hb (List.Forall₂.cons hx hxs)
    · rw [if_neg (fun h => hh (hlt.1 h)), if_neg hh]
      exact List.Forall₂.cons hx (ih fun z hz => hq z (mem_cons_of_mem _ hz))

theorem futureHoles_reps {origin limit cursor : Nat} (h : Reps isn queue q) (hq : Near r q) (ho : origin ≤ cursor)
    (hr : r ≤ origin) (hc : cursor < r + 2 ^ 31) (hrl : r ≤ limit) (hl : limit < r + 2 ^ 31) :
    futureHoles (point isn origin) (point isn limit) (point isn cursor) queue =
      ((holes limit cursor q).1.map fun h => (point isn h.1, h.1 - origin, h.2 - origin),
        point isn (holes limit cursor q).2) := by
  induction h generalizing cursor with
  | nil => rfl
  | @cons x y xs ys hx hxs ih =>
    obtain ⟨hy1, hy2⟩ := hq y mem_cons_self
    have hys : y.pos ≤ y.stop := Nat.le_add_right _ _
    have hrest : Near r ys := fun z hz => hq z (mem_cons_of_mem _ hz)
    simp only [futureHoles, holes, hx.dataEnd, hx.seq,
      seqGt_point isn (show cursor ≤ y.stop + 2 ^ 31 by omega) (show y.stop < cursor + 2 ^ 31 by omega),
      seqGt_point isn (show y.pos ≤ limit + 2 ^ 31 by omega) (show limit < y.pos + 2 ^ 31 by omega),
      seqGt_point isn (show cursor ≤ y.pos + 2 ^ 31 by omega) (show y.pos < cursor + 2 ^ 31 by omega),
      seqLt_point isn (show y.pos ≤ limit + 2 ^ 31 by omega) (show limit < y.pos + 2 ^ 31 by omega)]
    by_cases h1 : y.stop ≤ cursor
    · simp only [Nat.not_lt.2 h1, h1, decide_false, Bool.not_false, if_true]
      exact ih hrest ho hc
    have h1' : cursor < y.stop := Nat.lt_of_not_le h1
    by_cases h2 : limit ≤ y.pos
    · simp [h1, h1', h2, Nat.not_lt.2 h2]
    have h2' : y.pos < limit := Nat.lt_of_not_le h2
    have hgt := seqGt_point isn (show y.stop ≤ limit + 2 ^ 31 by omega) (show limit < y.stop + 2 ^ 31 by omega)
    have hhole : (if cursor < y.pos then
        [(point isn cursor, (point isn cursor - point isn origin).toNat,
          (point isn y.pos - point isn origin).toNat)] else []) =
        (if cursor < y.pos then [(cursor, y.pos)] else []).map
          fun h => (point isn h.1, h.1 - origin, h.2 - origin) := by
      split_ifs with hc'
      · simp [toNat_point_sub_point isn ho (by omega),
          toNat_point_sub_point isn (show origin ≤ y.pos by omega) (by omega)]
      · rfl
    simp only [h1, h2, h1', h2', Nat.not_lt.2 h2'.le, decide_true, decide_false, Bool.not_true, if_true,
      if_false, Bool.false_eq_true, hgt, decide_eq_true_eq, hhole, Bool.not_eq_true', decide_eq_false_iff_not,
      Nat.not_lt]
    by_cases h3 : limit ≤ y.stop
    · simp [h3]
    · simp only [h3, if_false, map_append]
      rw [ih hrest (by omega) (by omega)]

structure PacketRep (isn : UInt32) (packet : TrimmedSegment) (b : Block UInt8) : Prop where
  seq : packet.sequenceNumber = point isn b.pos
  data : packet.payload = b.data
  fin : packet.flags.fin = b.fin

variable {packet : TrimmedSegment}

theorem rep_part (h : PacketRep isn packet b) (hole : Nat × Nat) :
    Rep isn ⟨point isn hole.1, { ack := packet.flags.ack },
      slice packet.payload (hole.1 - b.pos) (hole.2 - b.pos)⟩ (b.part hole) where
  seq := rfl
  data := by rw [h.data]; rfl
  fin := rfl

theorem near_of_isPart {x : Block UInt8} (hb : Near r [b]) (hx : IsPart b x) :
    r ≤ x.pos ∧ x.stop < r + 2 ^ 31 := by
  have h := hb b mem_cons_self
  exact ⟨h.1.trans hx.pos_le, hx.stop_le.trans_lt h.2⟩

theorem Near.insert (hq : Near r q) (hb : Near r [b]) : Near r (insert q b) := by
  intro x hx
  rcases mem_insert.1 hx with rfl | hx
  · exact hb x mem_cons_self
  · exact hq x hx

theorem Reps.fillHoles (hp : PacketRep isn packet b) {hs : List (Nat × Nat)} (hhs : ∀ h ∈ hs, Near r [b.part h])
    (h : Reps isn queue q) (hq : Near r q) :
    Reps isn (fillHoles packet (point isn r) queue
        (hs.map fun h => (point isn h.1, h.1 - b.pos, h.2 - b.pos)))
      ((hs.map b.part).foldl Reassembly.insert q) ∧ Near r ((hs.map b.part).foldl Reassembly.insert q) := by
  induction hs generalizing queue q with
  | nil => exact ⟨h, hq⟩
  | cons hole hs ih =>
    have hhole := hhs hole mem_cons_self
    exact ih (fun h hh => hhs h (mem_cons_of_mem _ hh)) (h.insert (rep_part hp hole) hq hhole)
      (hq.insert hhole)

theorem Reps.any_fin {stop : Nat} (h : Reps isn queue q) (hq : Near r q) (h1 : r ≤ stop) (h2 : stop < r + 2 ^ 31) :
    (queue.any fun existing =>
      existing.flags.fin && bufferedClientSegmentDataEnd existing == point isn stop) =
      q.any fun x => x.fin && decide (x.stop = stop) := by
  induction h with
  | nil => rfl
  | @cons x y xs ys hx _ ih =>
    obtain ⟨hy1, hy2⟩ := hq y mem_cons_self
    have hys : y.pos ≤ y.stop := Nat.le_add_right _ _
    have he : (point isn y.stop == point isn stop) = decide (y.stop = stop) := by
      rw [Bool.eq_iff_iff, beq_iff_eq, decide_eq_true_iff]
      exact point_inj (by omega) (by omega)
    rw [any_cons, any_cons, ih fun z hz => hq z (mem_cons_of_mem _ hz), hx.fin, hx.dataEnd, he]

theorem add_of_isEmpty (hd : b.data = []) (hf : b.fin = false) :
    add q b = q := by
  have hs : b.stop = b.pos := by simp [Block.stop, hd]
  have hp : pieces b q = [] := by
    have hc := holes_cursor b.pos b.pos q
    have hh : (holes b.pos b.pos q).1 = [] := by
      refine eq_nil_iff_forall_not_mem.2 fun h hm => ?_
      have := holes_mem hm
      omega
    simp [pieces, hs, hh, hc]
  simp [add, hp, needsMarker, hf]

theorem Reps.fillFutureSegment (h : Reps isn queue q) (hq : Near r q)
    (hp : PacketRep isn packet b) (hb : Near r [b]) :
    Reps isn (fillFutureSegment queue packet (point isn r)) ((pieces b q).foldl Reassembly.insert q) ∧
      Near r ((pieces b q).foldl Reassembly.insert q) := by
  obtain ⟨hb1, hb2⟩ := hb b mem_cons_self
  have hbs : b.pos ≤ b.stop := Nat.le_add_right _ _
  have hc1 := holes_cursor b.stop b.pos q
  have hc2 : (holes b.stop b.pos q).2 < r + 2 ^ 31 := holes_cursor_lt (fun x hx => (hq x hx).2) (by omega)
  have hend : point isn b.pos + UInt32.ofNat b.data.length = point isn b.stop := (point_add ..).symm
  have hparts : ∀ h ∈ (holes b.stop b.pos q).1, Near r [b.part h] := by
    intro h hh x hx
    obtain ⟨h1, h2, h3⟩ := holes_mem hh
    rw [mem_singleton.1 hx]
    exact near_of_isPart hb (isPart_part h1 h2.le h3)
  obtain ⟨hfill, hnear⟩ := Reps.fillHoles hp hparts h hq
  simp only [Tcp.fillFutureSegment, hp.seq, hp.data, hend,
    futureHoles_reps h hq le_rfl hb1 (show b.pos < r + 2 ^ 31 by omega) (show r ≤ b.stop by omega) hb2,
    seqGt_point isn (show (holes b.stop b.pos q).2 ≤ b.stop + 2 ^ 31 by omega)
      (show b.stop < (holes b.stop b.pos q).2 + 2 ^ 31 by omega), decide_eq_true_eq, pieces]
  by_cases hc : (holes b.stop b.pos q).2 < b.stop
  · -- the walk stopped inside the packet: what is left of it is one more piece
    have hpart := isPart_part (b := b) (h := ((holes b.stop b.pos q).2, b.stop)) hc1 hc.le le_rfl
    have hrep := rep_part hp ((holes b.stop b.pos q).2, b.stop)
    have hslice : slice b.data ((holes b.stop b.pos q).2 - b.pos) (b.stop - b.pos) =
        b.data.drop ((holes b.stop b.pos q).2 - b.pos) := by
      rw [slice, Block.stop, Nat.add_sub_cancel_left, take_length]
    rw [hp.data, hslice] at hrep
    have hn : Near r [b.part ((holes b.stop b.pos q).2, b.stop)] := by
      intro x hx
      rw [mem_singleton.1 hx]
      exact near_of_isPart hb hpart
    simp only [hc, if_true, foldl_append, foldl_cons, foldl_nil,
      toNat_point_sub_point isn hc1 (show (holes b.stop b.pos q).2 < b.pos + 2 ^ 32 by omega)]
    exact ⟨hfill.insert hrep hnear hn, hnear.insert hn⟩
  · simp only [hc, if_false, append_nil]
    exact ⟨hfill, hnear⟩

theorem Reps.queueFutureSegment (h : Reps isn queue q) (hq : Near r q)
    (hp : PacketRep isn packet b) (hb : Near r [b]) :
    Reps isn (queueFutureSegment queue packet (point isn r)) (add q b) := by
  obtain ⟨hb1, hb2⟩ := hb b mem_cons_self
  have hbs : b.pos ≤ b.stop := Nat.le_add_right _ _
  have hend : point isn b.pos + UInt32.ofNat b.data.length = point isn b.stop := (point_add ..).symm
  obtain ⟨hfill, hnear⟩ := h.fillFutureSegment hq hp hb
  have hany := hfill.any_fin hnear (show r ≤ b.stop by omega) hb2
  simp only [Tcp.queueFutureSegment, hp.seq, hp.data, hp.fin, hend, hany]
  by_cases hempty : (b.data.isEmpty && !b.fin) = true
  · grind [List.isEmpty_iff, Bool.not_eq_true', add_of_isEmpty]
  · rw [if_neg hempty, add, needsMarker]
    by_cases hm : (b.fin && !((pieces b q).foldl Reassembly.insert q).any fun x =>
        x.fin && decide (x.stop = b.stop)) = true
    · rw [if_pos hm, if_pos hm]
      have hmark : Rep isn ⟨point isn b.stop, { fin := b.fin, ack := packet.flags.ack }, []⟩ b.marker :=
        ⟨rfl, rfl, (Bool.and_eq_true_iff.1 hm).1⟩
      refine hfill.insert hmark hnear fun x hx => ?_
      rw [mem_singleton.1 hx]
      exact ⟨by simp only [Block.marker]; omega, hb2⟩
    · rw [if_neg hm, if_neg hm]
      exact hfill

theorem normalizeClientSegmentParts_point {p : Nat} (hp : p ≤ r) (hr : r ≤ p + 2 ^ 31)
    (flags : TcpFlags) (payload : Bytes) :
    normalizeClientSegmentParts (point isn p) flags payload (point isn r) =
      ⟨payload.drop (r - p), flags.fin && decide (r ≤ p + payload.length)⟩ := by
  have hoverlap : (if seqLt (point isn p) (point isn r) = true then (point isn r - point isn p).toNat
      else 0) = r - p := by grind [seqLt_point, toNat_point_sub_point]
  have hfin : decide (r - p ≤ payload.length) = decide (r ≤ p + payload.length) := by
    rw [decide_eq_decide]
    omega
  simp only [normalizeClientSegmentParts, hoverlap, hfin]
  congr 1
  split_ifs with hh
  · exact (drop_eq_nil_iff.2 hh).symm
  · rfl

theorem applyClientSegment_point (r : Nat) (segment : ClientSegmentView) (payload : List Bytes) :
    applyClientSegment (point isn r) segment payload = (point isn (r + segment.payload.length + segment.fin.toNat),
        payload ++ (if segment.payload.isEmpty then [] else [segment.payload]), segment.fin) := by
  obtain ⟨data, fin⟩ := segment
  cases data with
  | nil => cases fin <;> simp [applyClientSegment, point_succ]
  | cons x xs => cases fin <;> simp [applyClientSegment, point_succ, point_add]

theorem Reps.drain {base : Nat} (h : Reps isn queue q) (hq : Near base q) (h1 : base ≤ r) (h2 : r < base + 2 ^ 31)
    (payload : List Bytes) : ∃ rest, Reps isn rest (drain r q).rest ∧
      drainReadyBufferedSegments (point isn r) queue payload =
        (point isn (drain r q).next, rest, payload ++ (drain r q).out, (drain r q).closed) := by
  induction h generalizing r payload with
  | nil => exact ⟨[], List.Forall₂.nil, by simp [drainReadyBufferedSegments, drain]⟩
  | @cons x y xs ys hx hxs ih =>
    obtain ⟨hy1, hy2⟩ := hq y mem_cons_self
    have hys : y.stop = y.pos + y.data.length := rfl
    have hrest : Near base ys := fun z hz => hq z (mem_cons_of_mem _ hz)
    rw [drainReadyBufferedSegments, hx.seq,
      seqGt_point isn (show r ≤ y.pos + 2 ^ 31 by omega) (show y.pos < r + 2 ^ 31 by omega)]
    by_cases hgt : r < y.pos
    · simp_all [drain]
    · rw [if_neg (by simpa using hgt), normalizeClientSegmentParts_point (by omega) (by omega), hx.data,
        hx.fin, ← hys, drain, if_neg hgt]
      dsimp only
      by_cases hskip : ((y.data.drop (r - y.pos)).isEmpty && !(y.fin && decide (r ≤ y.stop))) = true
      · rw [if_pos hskip, if_pos hskip]
        exact ih hrest h1 h2 payload
      · rw [if_neg hskip, if_neg hskip, applyClientSegment_point]
        cases hf : (y.fin && decide (r ≤ y.stop)) with
        | true => exact ⟨xs, by simpa using hxs, by simp [Bool.toNat]⟩
        | false =>
          have hnext : r + (y.data.drop (r - y.pos)).length < base + 2 ^ 31 := by
            rw [length_drop]
            omega
          obtain ⟨rest, hreps, he⟩ := ih hrest (by omega) hnext
            (payload ++ if (y.data.drop (r - y.pos)).isEmpty then [] else [y.data.drop (r - y.pos)])
          refine ⟨rest, by simpa using hreps, ?_⟩
          simp only [Bool.toNat_false, Nat.add_zero, he, append_assoc]
          simp

end OutlineProxy.Tcp
