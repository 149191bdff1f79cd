import OutlineProxy.Tun.Defrag.Model

/-! Buffered chunks are kept in order and apart. -/

namespace OutlineProxy.Tun.Defrag

open List

section Insertion

variable {new c : FragmentChunk} {chunks result : List FragmentChunk} {bytes : Nat}

def Apart (chunks : List FragmentChunk) : Prop := chunks.Pairwise fun a b => a.stop ≤ b.offset

theorem FragmentChunk.offset_le_stop (chunk : FragmentChunk) : chunk.offset ≤ chunk.stop := Nat.le_add_right _ _

theorem FragmentChunk.offset_lt_stop {chunk : FragmentChunk} (h : chunk.data ≠ []) : chunk.offset < chunk.stop :=
  Nat.lt_add_of_pos_right (length_pos_iff.mpr h)

theorem insertChunk_inserted (hapart : Apart chunks) (h : insertChunk new chunks = (.inserted bytes, result)) :
    bytes = new.data.length ∧ Apart result ∧ result.Perm (new :: chunks) := by
  induction chunks generalizing result with
  | nil =>
    cases h
    exact ⟨rfl, pairwise_singleton _ _, List.Perm.refl _⟩
  | cons existing chunks ih =>
    obtain ⟨hfirst, hrest⟩ := pairwise_cons.mp hapart
    rw [insertChunk] at h
    by_cases hbefore : new.stop ≤ existing.offset
    · rw [if_pos hbefore] at h
      cases h
      refine ⟨rfl, pairwise_cons.mpr ⟨?_, hapart⟩, List.Perm.refl _⟩
      intro later hlater
      rcases mem_cons.mp hlater with rfl | hlater
      · exact hbefore
      · have hgap := hfirst later hlater
        have hle := existing.offset_le_stop
        omega
    · rw [if_neg hbefore] at h
      by_cases hafter : existing.stop ≤ new.offset
      · rw [if_pos hafter] at h
        rcases hinsert : insertChunk new chunks with ⟨outcome, rest⟩
        rw [hinsert] at h
        cases h
        obtain ⟨hbytes, hapart', hperm⟩ := ih hrest hinsert
        refine ⟨hbytes, pairwise_cons.mpr ⟨?_, hapart'⟩, ?_⟩
        · grind
        · exact (hperm.cons existing).trans (List.Perm.swap new existing chunks)
      · rw [if_neg hafter] at h
        split at h <;> cases h

theorem insertChunk_of_disjoint (hdisjoint : ∀ c ∈ chunks, new.stop ≤ c.offset ∨ c.stop ≤ new.offset) :
    ∃ result, insertChunk new chunks = (.inserted new.data.length, result) := by
  induction chunks with
  | nil => exact ⟨_, rfl⟩
  | cons existing chunks ih => grind [insertChunk, mem_cons_self, mem_cons_of_mem]

theorem insertChunk_of_mem (hapart : Apart chunks) (hmem : new ∈ chunks) (hne : new.data ≠ []) :
    insertChunk new chunks = (.duplicateExact, chunks) := by
  have hlt := FragmentChunk.offset_lt_stop hne
  induction chunks with
  | nil => cases hmem
  | cons existing chunks ih =>
    obtain ⟨hfirst, hrest⟩ := pairwise_cons.mp hapart
    rw [insertChunk]
    rcases mem_cons.mp hmem with rfl | hmem
    · rw [if_neg (by omega), if_neg (by omega), if_pos ⟨rfl, rfl, rfl⟩]
    · have hgap := hfirst new hmem
      have hle := existing.offset_le_stop
      rw [if_neg (by omega), if_pos hgap, ih hrest hmem]

theorem insertChunk_of_overlap (hapart : Apart chunks) (hc : c ∈ chunks) (hstart : new.offset < c.stop)
    (hstop : c.offset < new.stop) (hne : c ≠ new) : (insertChunk new chunks).1 = .overlap := by
  induction chunks with
  | nil => cases hc
  | cons existing chunks ih =>
    obtain ⟨hfirst, hrest⟩ := pairwise_cons.mp hapart
    rw [insertChunk]
    rcases mem_cons.mp hc with rfl | hc
    · have hdiffer : ¬(new.offset = c.offset ∧ new.stop = c.stop ∧ new.data = c.data) := by
        rintro ⟨hoffset, -, hdata⟩
        exact hne (by cases c; cases new; simp_all)
      rw [if_neg (by omega), if_neg (by omega), if_neg hdiffer]
    · have hgap := hfirst c hc
      have hle := existing.offset_le_stop
      rw [if_neg (by omega)]
      by_cases hafter : existing.stop ≤ new.offset
      · rw [if_pos hafter]
        exact ih hrest hc
      · grind

end Insertion

section Coverage

variable {chunks full : List FragmentChunk} {start stop total : Nat}

def Contiguous : Nat → List FragmentChunk → Nat → Prop
  | start, [], stop => start = stop
  | start, chunk :: chunks, stop => chunk.offset = start ∧ Contiguous chunk.stop chunks stop

theorem chunksCoverFrom_iff : chunksCoverFrom start total chunks = true ↔ Contiguous start chunks total := by
  induction chunks generalizing start with
  | nil => exact beq_iff_eq
  | cons chunk chunks ih => grind [chunksCoverFrom, Contiguous, FragmentChunk.stop]

theorem chunksAreComplete_iff : chunksAreComplete chunks total = true ↔ Contiguous 0 chunks total :=
  chunksCoverFrom_iff

theorem chunkBytes_cons (chunk : FragmentChunk) (chunks : List FragmentChunk) :
    chunkBytes (chunk :: chunks) = chunk.data.length + chunkBytes chunks :=
  sum_cons

theorem Contiguous.chunkBytes (h : Contiguous start chunks stop) : start + chunkBytes chunks = stop := by
  induction chunks generalizing start with
  | nil => exact h
  | cons chunk chunks ih =>
    obtain ⟨hoffset, hrest⟩ := h
    have hbytes := ih hrest
    rw [chunkBytes_cons]
    rw [FragmentChunk.stop] at hbytes
    omega

def tile : Nat → List Bytes → List FragmentChunk
  | _, [] => []
  | start, piece :: pieces => ⟨start, piece⟩ :: tile (start + piece.length) pieces

theorem contiguous_tile (start : Nat) (pieces : List Bytes) :
    Contiguous start (tile start pieces) (start + pieces.flatten.length) := by
  induction pieces generalizing start with
  | nil => rfl
  | cons piece pieces ih =>
    refine ⟨rfl, ?_⟩
    rw [flatten_cons, length_append, ← Nat.add_assoc]
    exact ih _

theorem payloadOf_tile (start : Nat) (pieces : List Bytes) : payloadOf (tile start pieces) = pieces.flatten := by
  induction pieces generalizing start with
  | nil => rfl
  | cons piece pieces ih =>
    exact congrArg (piece ++ ·) (ih _)

theorem Contiguous.apart (h : Contiguous start chunks stop) : Apart chunks ∧ ∀ c ∈ chunks, start ≤ c.offset := by
  induction chunks generalizing start with
  | nil => exact ⟨List.Pairwise.nil, fun c hc => absurd hc not_mem_nil⟩
  | cons chunk chunks ih =>
    obtain ⟨hoffset, hrest⟩ := h
    obtain ⟨hapart, hle⟩ := ih hrest
    refine ⟨pairwise_cons.mpr ⟨hle, hapart⟩, fun c hc => ?_⟩
    rcases mem_cons.mp hc with rfl | hc
    · exact Nat.le_of_eq hoffset.symm
    · have hlate := hle c hc
      have hstop := chunk.offset_le_stop
      omega

theorem Apart.nodup (h : Apart chunks) (hne : ∀ c ∈ chunks, c.data ≠ []) : chunks.Nodup := by
  induction chunks with
  | nil => exact nodup_nil
  | cons chunk chunks ih =>
    obtain ⟨hfirst, hrest⟩ := pairwise_cons.mp h
    refine nodup_cons.mpr ⟨fun hmem => ?_, ih hrest fun c hc => hne c (mem_cons_of_mem _ hc)⟩
    have hgap := hfirst chunk hmem
    have hlt := FragmentChunk.offset_lt_stop (hne chunk mem_cons_self)
    omega

theorem Apart.eq_of_mem_iff (hchunks : Apart chunks) (hfull : Apart full) (hne : ∀ c ∈ full, c.data ≠ [])
    (hmem : ∀ c, c ∈ chunks ↔ c ∈ full) : chunks = full := by
  have hne' : ∀ c ∈ chunks, c.data ≠ [] := fun c hc => hne c ((hmem c).mp hc)
  apply List.Perm.eq_of_pairwise _ hchunks hfull
  · exact (perm_ext_iff_of_nodup (hchunks.nodup hne') (hfull.nodup hne)).mpr hmem
  · grind [FragmentChunk.offset_lt_stop]

theorem chunkBytes_le_of_subset (hnodup : chunks.Nodup) (hsub : chunks ⊆ full) :
    chunkBytes chunks ≤ chunkBytes full := by
  obtain ⟨part, hperm, hpart⟩ := subperm_of_subset hnodup hsub
  have hsame : chunkBytes part = chunkBytes chunks := (hperm.map _).sum_nat
  rw [← hsame]
  clear hsame hperm hsub hnodup
  induction hpart with
  | slnil => exact Nat.le_refl _
  | cons chunk _ ih =>
    rw [chunkBytes_cons]
    omega
  | cons_cons chunk _ ih =>
    rw [chunkBytes_cons, chunkBytes_cons]
    omega

theorem complete_iff_subset (hfull : Contiguous 0 full total) (hne : ∀ c ∈ full, c.data ≠ []) (hchunks : Apart chunks)
    (hsub : chunks ⊆ full) : chunksAreComplete chunks total = true ↔ full ⊆ chunks := by
  rw [chunksAreComplete_iff]
  constructor
  · intro hcover c hc
    by_contra hmissing
    have hne' : ∀ c ∈ chunks, c.data ≠ [] := fun c hc => hne c (hsub hc)
    have hle : chunkBytes (c :: chunks) ≤ chunkBytes full :=
      chunkBytes_le_of_subset (nodup_cons.mpr ⟨hmissing, hchunks.nodup hne'⟩) (cons_subset.mpr ⟨hc, hsub⟩)
    have hpos : 0 < c.data.length := length_pos_iff.mpr (hne c hc)
    have hbytes := hcover.chunkBytes
    have hbytes' := hfull.chunkBytes
    rw [chunkBytes_cons] at hle
    omega
  · intro hall
    rw [hchunks.eq_of_mem_iff hfull.apart.1 hne fun c => ⟨fun hc => hsub hc, fun hc => hall hc⟩]
    exact hfull

end Coverage

end OutlineProxy.Tun.Defrag
