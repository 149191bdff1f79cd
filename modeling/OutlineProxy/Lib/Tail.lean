import Mathlib.Data.List.Basic
import Mathlib.Tactic.Cases

/-! Chunks that hold the end of a stream, each under the offset of its first element.  Chunks are
added behind and dropped in front; what is held can be read from any offset on. -/

namespace OutlineProxy.Tail

open List

variable {α : Type*}

structure Chunk (α : Type*) where
  offset : Nat
  payload : List α

def contents (chunks : List (Chunk α)) : List α :=
  chunks.flatMap Chunk.payload

@[simp] theorem contents_nil : contents ([] : List (Chunk α)) = [] := rfl

@[simp] theorem contents_cons (chunk : Chunk α) (chunks : List (Chunk α)) :
    contents (chunk :: chunks) = chunk.payload ++ contents chunks := rfl

@[simp] theorem contents_append (chunks more : List (Chunk α)) :
    contents (chunks ++ more) = contents chunks ++ contents more :=
  flatMap_append

def Consecutive (start : Nat) : List (Chunk α) → Prop
  | [] => True
  | chunk :: rest => chunk.offset = start ∧ Consecutive (start + chunk.payload.length) rest

variable {start : Nat} {chunks : List (Chunk α)}

theorem Consecutive.snoc (h : Consecutive start chunks) (payload : List α) :
    Consecutive start (chunks ++ [⟨start + (contents chunks).length, payload⟩]) := by
  induction chunks generalizing start with
  | nil => exact ⟨rfl, trivial⟩
  | cons chunk rest ih =>
    refine ⟨h.1, ?_⟩
    have hrest := ih h.2
    rw [contents_cons, length_append, ← Nat.add_assoc]
    exact hrest

def readFrom (offset : Nat) : List (Chunk α) → List α
  | [] => []
  | chunk :: rest =>
    if chunk.offset + chunk.payload.length ≤ offset then readFrom offset rest
    else if offset ≤ chunk.offset then chunk.payload ++ readFrom offset rest
    else chunk.payload.drop (offset - chunk.offset) ++ readFrom offset rest

variable {offset : Nat}

theorem readFrom_all (h : Consecutive start chunks)
    (hoffset : offset ≤ start) : readFrom offset chunks = contents chunks := by
  induction chunks generalizing start with
  | nil => rfl
  | cons chunk rest ih =>
    obtain ⟨hstart, hrest⟩ := h
    have hread := ih hrest (by omega)
    unfold readFrom
    by_cases hempty : chunk.offset + chunk.payload.length ≤ offset
    · have hnil : chunk.payload = [] := eq_nil_of_length_eq_zero (by omega)
      rw [if_pos hempty, hread, contents_cons, hnil, nil_append]
    · rw [if_neg hempty, if_pos (by omega), hread, contents_cons]

theorem readFrom_eq (h : Consecutive start chunks)
    (hoffset : start ≤ offset) : readFrom offset chunks = (contents chunks).drop (offset - start) := by
  induction chunks generalizing start with
  | nil => exact drop_nil.symm
  | cons chunk rest ih =>
    obtain ⟨hstart, hrest⟩ := h
    unfold readFrom
    rw [contents_cons, drop_append]
    by_cases hpast : chunk.offset + chunk.payload.length ≤ offset
    · grind [drop_eq_nil_of_le, Nat.sub_add_eq]
    · -- the cursor is in this chunk, and the chunks behind it are read whole
      have hzero : offset - start - chunk.payload.length = 0 := by omega
      rw [if_neg hpast, readFrom_all hrest (by omega), hzero, drop_zero]
      by_cases hwhole : offset ≤ chunk.offset
      · have hnone : offset - start = 0 := by omega
        rw [if_pos hwhole, hnone, drop_zero]
      · rw [if_neg hwhole, hstart]

def Holds (stream : List α) (chunks : List (Chunk α)) : Prop :=
  ∃ start ≤ stream.length, Consecutive start chunks ∧ contents chunks = stream.drop start

theorem holds_nil (stream : List α) : Holds stream [] :=
  ⟨stream.length, Nat.le_refl _, trivial, by simp⟩

theorem holds_suffix (stream payload : List α) {skip : Nat} (hskip : skip ≤ payload.length) :
    Holds (stream ++ payload) [⟨stream.length + skip, payload.drop skip⟩] := by
  refine ⟨stream.length + skip, ?_, ⟨rfl, trivial⟩, ?_⟩
  · rw [length_append]
    omega
  · simp [contents]

variable {stream : List α} {chunks : List (Chunk α)} {chunk : Chunk α}

theorem Holds.snoc (h : Holds stream chunks) (payload : List α) :
    Holds (stream ++ payload) (chunks ++ [⟨stream.length, payload⟩]) := by
  obtain ⟨start, hstart, hchunks, hcontents⟩ := h
  have hend : start + (contents chunks).length = stream.length := by
    rw [hcontents, length_drop]
    omega
  refine ⟨start, ?_, ?_, ?_⟩
  · rw [length_append]
    omega
  · rw [← hend]
    exact hchunks.snoc payload
  · rw [contents_append, hcontents, drop_append_of_le_length hstart]
    simp

theorem Holds.tail (h : Holds stream (chunk :: chunks)) : Holds stream chunks := by
  obtain ⟨start, hstart, ⟨-, hrest⟩, hcontents⟩ := h
  have hlength := congrArg length hcontents
  rw [contents_cons, length_append, length_drop] at hlength
  refine ⟨start + chunk.payload.length, by omega, hrest, ?_⟩
  rw [← drop_drop, ← hcontents, contents_cons, drop_left]

def oldest (last : Nat) (chunks : List (Chunk α)) : Nat :=
  (chunks.head?.map Chunk.offset).getD last

theorem Holds.readFrom (h : Holds stream chunks) (holdest : oldest stream.length chunks ≤ offset) :
    readFrom offset chunks = stream.drop offset := by
  obtain ⟨start, hstart, hchunks, hcontents⟩ := h
  cases chunks with
  | nil => exact (drop_eq_nil_of_le holdest).symm
  | cons chunk rest =>
    have hoffset : start ≤ offset := hchunks.1 ▸ holdest
    rw [readFrom_eq hchunks hoffset, hcontents, drop_drop, Nat.add_sub_cancel' hoffset]

theorem Holds.oldest_eq (h : Holds stream chunks) :
    oldest stream.length chunks + (contents chunks).length = stream.length := by
  obtain ⟨start, hstart, hchunks, hcontents⟩ := h
  cases chunks with
  | nil => rfl
  | cons chunk rest =>
    have hlength := congrArg length hcontents
    rw [length_drop] at hlength
    change chunk.offset + _ = _
    rw [hchunks.1]
    omega

theorem Holds.replay {β : Type*} (h : Holds stream chunks) (offset : Nat) (ahead evicted : β) (kept : List α → β) :
    (if stream.length < offset then ahead
      else if offset = stream.length then kept []
      else if offset < oldest stream.length chunks then evicted
      else kept (Tail.readFrom offset chunks)) =
    if stream.length < offset then ahead
    else if offset < oldest stream.length chunks then evicted
    else kept (stream.drop offset) := by
  have holdest := h.oldest_eq
  by_cases hahead : stream.length < offset
  · rw [if_pos hahead, if_pos hahead]
  rw [if_neg hahead, if_neg hahead]
  by_cases hall : offset = stream.length
  · rw [if_pos hall, if_neg (by omega), hall, drop_length]
  rw [if_neg hall]
  by_cases hold : offset < oldest stream.length chunks
  · rw [if_pos hold, if_pos hold]
  · rw [if_neg hold, if_neg hold, h.readFrom (Nat.le_of_not_lt hold)]

end OutlineProxy.Tail
