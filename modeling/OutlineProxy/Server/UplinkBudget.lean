import Mathlib.Algebra.BigOperators.Group.List.Basic
import OutlineProxy.Server.XhttpUplink
import OutlineProxy.Lib.Tables

/-! The memory of a packet-up uplink: what its counters say about the bodies that are held. -/

namespace OutlineProxy.Server

open List Runs Tables

def maxPostBytes : Nat := 256 * 1024

inductive UplinkOp where
  | post (seq : Nat) (data : List UInt8)
  | pop
  | close

namespace UplinkState

variable (state : UplinkState)

def queuedBytes : Nat := (state.ready.map length).sum

def parkedBytes : Nat := total length state.reorder

def apply : UplinkOp → Option UplinkState
  | .post seq data => some (state.ingestUplink seq data).1
  | .pop => some state.popUplinkReady.1
  | .close => some { state with closed := true }

/-- A body within the limit of a POST, as long as the one that is parked under its number. -/
def Repeats : UplinkOp → Prop
  | .post seq data => data.length ≤ maxPostBytes ∧ ∀ parked ∈ state.reorder.lookup seq, data.length = parked.length
  | .pop | .close => True

instance (state : UplinkState) : (op : UplinkOp) → Decidable (Repeats state op)
  | .post _ _ => inferInstanceAs (Decidable (_ ∧ _))
  | .pop | .close => inferInstanceAs (Decidable True)

variable {state next : UplinkState} {data parked : List UInt8} {seq : Nat} {op : UplinkOp}

structure Budget (state : UplinkState) : Prop where
  ready : state.readyBytes = state.queuedBytes
  parked : state.reorderBytes = state.parkedBytes
  readyCap : state.readyBytes ≤ uplinkReadyBytesCap
  reorderCap : state.reorderBytes ≤ uplinkReorderBufferBytesCap
  ahead : ∀ seq data, state.reorder.lookup seq = some data → state.expectedSeq ≤ seq

theorem total_erase {t : Table Nat (List UInt8)} (h : t.lookup seq = some parked) :
    total length t = parked.length + total length (t.erase seq) := by
  have hperm := ((entries_perm_erase h).map fun entry => entry.2.length).sum_eq
  simpa [total] using hperm

theorem total_insert (t : Table Nat (List UInt8)) (seq : Nat) (data : List UInt8) :
    total length (t.insert seq data) = data.length + total length (t.erase seq) := by
  rw [total, total, AList.entries_insert, show (t.erase seq).entries = t.entries.kerase seq from rfl]
  simp

attribute [local grind =] lookup_insert_eq lookup_erase_eq

theorem Budget.enqueue (h : Budget state) (hmissing : state.reorder.lookup state.expectedSeq = none)
    (hfits : state.readyBytes + data.length ≤ uplinkReadyBytesCap) : Budget (state.enqueue data) := by
  obtain ⟨hready, hparked, -, hreorder, hahead⟩ := h
  refine ⟨?_, hparked, hfits, hreorder, ?_⟩
  · simp [UplinkState.enqueue, queuedBytes, hready]
  · intro seq parked hlookup
    have hle := hahead seq parked hlookup
    have hne : state.expectedSeq ≠ seq := by
      rintro rfl
      simp [UplinkState.enqueue, hmissing] at hlookup
    exact Nat.le_trans (Nat.min_le_left _ _) (Nat.lt_of_le_of_ne hle hne)

theorem Budget.unpark (h : Budget state) (hnext : state.reorder.lookup state.expectedSeq = some parked) :
    Budget (state.unpark parked) := by
  obtain ⟨hready, hparked, hcap, hreorder, hahead⟩ := h
  have htotal := total_erase hnext
  refine ⟨hready, ?_, hcap, Nat.le_trans (Nat.sub_le _ _) hreorder, by grind [UplinkState.unpark]⟩
  unfold parkedBytes at hparked ⊢
  simp only [UplinkState.unpark]
  omega

theorem Budget.promoteWithin (h : Budget state) (fuel : Nat) : Budget (promoteWithin fuel state) := by
  induction fuel generalizing state with
  | zero => exact h
  | succ fuel ih =>
    unfold UplinkState.promoteWithin
    cases hnext : state.reorder.lookup state.expectedSeq with
    | none => exact h
    | some next =>
      by_cases hfull : uplinkReadyBytesCap < state.readyBytes + next.length
      · simpa only [if_pos hfull] using h
      · simp only [if_neg hfull]
        exact ih ((h.unpark hnext).enqueue (AList.lookup_erase _ _) (Nat.le_of_not_lt hfull))

/-- A number that is expected and parked waits for room: a body as long as the parked one is refused. -/
theorem Budget.missing (h : Budget state) (hsettled : Settled state)
    (hsame : ∀ parked ∈ state.reorder.lookup state.expectedSeq, data.length = parked.length)
    (hdata : data.length ≤ maxPostBytes)
    (hroom : state.ready = [] ∨ state.readyBytes + data.length ≤ uplinkReadyBytesCap) :
    state.reorder.lookup state.expectedSeq = none ∧ state.readyBytes + data.length ≤ uplinkReadyBytesCap := by
  have hfits : state.readyBytes + data.length ≤ uplinkReadyBytesCap := by
    rcases hroom with hempty | hfits
    · rw [h.ready, queuedBytes, hempty]
      simpa using show data.length ≤ uplinkReadyBytesCap from hdata
    · exact hfits
  refine ⟨?_, hfits⟩
  by_contra hnext
  obtain ⟨parked, hnext⟩ := Option.ne_none_iff_exists'.mp hnext
  have hfull := hsettled parked hnext
  have hlen := hsame parked hnext
  omega

theorem Budget.park (h : Budget state) (hahead : state.expectedSeq < seq)
    (hsame : ∀ parked ∈ state.reorder.lookup seq, data.length = parked.length)
    (hfits : state.reorderBytes + data.length ≤ uplinkReorderBufferBytesCap) : Budget (state.park seq data) := by
  obtain ⟨hready, hparked, hcap, hreorder, hall⟩ := h
  have hinsert := total_insert state.reorder seq data
  unfold parkedBytes at hparked
  refine ⟨hready, ?_, hcap, ?_, by grind [UplinkState.park]⟩ <;> simp only [UplinkState.park, parkedBytes]
  · cases hlookup : state.reorder.lookup seq with
    | none =>
      have herase : state.reorder.erase seq = state.reorder :=
        AList.ext (kerase_of_notMem_keys (AList.lookup_eq_none.mp hlookup))
      simp [hinsert, herase, hparked, Nat.add_comm]
    | some parked =>
      have htotal := total_erase hlookup
      have hlen := hsame parked hlookup
      simp only [Option.isNone_some, Bool.false_eq_true, if_false]
      omega
  · split <;> omega

theorem Budget.apply (h : Budget state ∧ Settled state) (hrepeats : Repeats state op)
    (happly : state.apply op = some next) : Budget next ∧ Settled next := by
  obtain ⟨hbudget, hsettled⟩ := h
  cases op with
  | close =>
    cases happly
    exact ⟨⟨hbudget.ready, hbudget.parked, hbudget.readyCap, hbudget.reorderCap, hbudget.ahead⟩, hsettled⟩
  | pop =>
    cases happly
    unfold popUplinkReady
    cases hready : state.ready with
    | nil => exact ⟨hbudget, hsettled⟩
    | cons chunk rest =>
      have hrest : Budget { state with ready := rest, readyBytes := state.readyBytes - chunk.length } := by
        have hbytes : state.readyBytes = chunk.length + (rest.map length).sum := by
          rw [hbudget.ready, queuedBytes, hready, map_cons, sum_cons]
        have hcap := hbudget.readyCap
        exact { hbudget with ready := by simp [queuedBytes, hbytes], readyCap := Nat.le_trans (Nat.sub_le _ _) hcap }
      exact ⟨hrest.promoteWithin _, settled_promoteWithin (Nat.le_refl _)⟩
  | post seq data =>
    cases happly
    by_cases hempty : data = []
    · simp [ingestUplink, hempty, hbudget, hsettled]
    rcases ingestUplink_cases state seq hempty with ⟨hsame, -⟩ | ⟨rfl, hroom, heq⟩ | ⟨hahead, -, hfits, heq⟩
    · rw [hsame]
      exact ⟨hbudget, hsettled⟩
    · rw [heq]
      obtain ⟨hmissing, hfits⟩ := hbudget.missing hsettled hrepeats.2 hrepeats.1 hroom
      exact ⟨(hbudget.enqueue hmissing hfits).promoteWithin _, settled_promoteWithin (Nat.le_refl _)⟩
    · rw [heq]
      refine ⟨hbudget.park hahead hrepeats.2 hfits, ?_⟩
      intro parked hparked
      rw [UplinkState.park, AList.lookup_insert_ne (Nat.ne_of_lt hahead)] at hparked
      exact hsettled parked hparked

/-- As long as a number that is parked is repeated with bodies of its length, the counters are the bytes
held, these stay within the two caps, and nothing stays parked below the expected number. -/
theorem uplink_within_budget {ops : List UplinkOp} (hrun : Run UplinkState.apply Repeats {} ops state) :
    state.reorderBytes = state.parkedBytes ∧ state.readyBytes = state.queuedBytes ∧
      state.queuedBytes + state.parkedBytes ≤ uplinkReadyBytesCap + uplinkReorderBufferBytesCap ∧
      ∀ seq data, state.reorder.lookup seq = some data → state.expectedSeq ≤ seq := by
  have hstart : Budget {} ∧ Settled {} := ⟨⟨rfl, rfl, Nat.zero_le _, Nat.zero_le _, nofun⟩, nofun⟩
  obtain ⟨hbudget, -⟩ := hrun.invariant (P := fun _ state => Budget state ∧ Settled state) hstart
    fun _ _ _ _ h hrepeats happly => Budget.apply h hrepeats happly
  have hready := hbudget.readyCap
  have hreorder := hbudget.reorderCap
  rw [hbudget.ready] at hready
  rw [hbudget.parked] at hreorder
  exact ⟨hbudget.parked, hbudget.ready, Nat.add_le_add hready hreorder, hbudget.ahead⟩

theorem uplink_within_budget_repeated :
    ∃ state, Run UplinkState.apply Repeats {} [.post 1 [1], .post 1 [2], .post 0 [3], .pop] state ∧
      state.queuedBytes = 1 ∧ state.reorderBytes = state.parkedBytes := by
  refine exists_run rfl fun hrun => ?_
  exact ⟨rfl, (uplink_within_budget hrun).1⟩

theorem apply_parks (hdata : data ≠ []) (hopen : state.closed = false) (hahead : state.expectedSeq < seq)
    (hgap : seq - state.expectedSeq ≤ uplinkReorderMaxGap)
    (hfits : state.reorderBytes + data.length ≤ uplinkReorderBufferBytesCap) :
    state.apply (.post seq data) = some (state.park seq data) := by
  grind [UplinkState.apply, ingestUplink]

theorem apply_enqueues (hdata : data ≠ []) (hopen : state.closed = false)
    (hroom : state.ready = [] ∨ state.readyBytes + data.length ≤ uplinkReadyBytesCap) :
    state.apply (.post state.expectedSeq data) = some (state.enqueue data).promoteParked := by
  grind [UplinkState.apply, ingestUplink]

/-- Three numbers parked with a byte each, and then with a longer body. -/
def swollen (body : List UInt8) : List UplinkOp :=
  [.post 1 [0], .post 2 [0], .post 3 [0], .post 1 body, .post 2 body, .post 3 body]

variable {body : List UInt8}

theorem swollen_run (hbody : body ≠ []) (hlen : 3 + body.length ≤ uplinkReorderBufferBytesCap) :
    ∃ state, Run UplinkState.apply (fun _ _ => True) {} (swollen body) state ∧ state.reorderBytes = 3 ∧
      state.parkedBytes = 3 * body.length := by
  let parked : UplinkState := ((({} : UplinkState).park 1 [0]).park 2 [0]).park 3 [0]
  have hones : Run UplinkState.apply (fun _ _ => True) {} [.post 1 [0], .post 2 [0], .post 3 [0]] parked :=
    run_of_foldlM rfl
  have hfirst := hones.snoc trivial (apply_parks hbody rfl (show 0 < 1 by decide) (by decide) hlen)
  have hsecond := hfirst.snoc trivial (apply_parks hbody rfl (show 0 < 2 by decide) (show 2 - 0 ≤ 64 by decide) hlen)
  have hthird := hsecond.snoc trivial (apply_parks hbody rfl (show 0 < 3 by decide) (show 3 - 0 ≤ 64 by decide) hlen)
  refine ⟨_, hthird, rfl, ?_⟩
  change body.length + (body.length + (body.length + 0)) = _
  omega

theorem overtaken_run (hlen : body.length + 1 = uplinkReadyBytesCap) :
    ∃ state, Run UplinkState.apply (fun _ _ => True) {} [.post 1 [0, 0], .post 0 body, .post 1 [0]] state ∧
      state.expectedSeq = 2 ∧ state.reorder.lookup 1 = some [0, 0] := by
  have hbody : body ≠ [] := by
    rintro rfl
    cases hlen
  have hparked : Run UplinkState.apply (fun _ _ => True) {} [.post 1 [0, 0]] (({} : UplinkState).park 1 [0, 0]) :=
    run_of_foldlM rfl
  -- the parked body is one byte too long for the room that is left, the repetition fits
  have hstays : promoteParked ((({} : UplinkState).park 1 [0, 0]).enqueue body) =
      (({} : UplinkState).park 1 [0, 0]).enqueue body :=
    promoteWithin_of_full (show _ = some [0, 0] from rfl) (show uplinkReadyBytesCap < 0 + body.length + 2 by omega) _
  have hfull := hparked.snoc trivial (apply_enqueues hbody rfl (.inl rfl))
  rw [hstays] at hfull
  have hagain := hfull.snoc trivial (apply_enqueues (cons_ne_nil 0 []) rfl
    (.inr (show 0 + body.length + 1 ≤ uplinkReadyBytesCap by omega)))
  exact ⟨_, hagain, rfl, rfl⟩

theorem length_of_mem_swollen (h : .post seq data ∈ swollen body) : data.length = 1 ∨ data = body := by
  simp only [swollen, mem_cons, UplinkOp.post.injEq, not_mem_nil, or_false] at h
  rcases h with h | h | h | h | h | h <;> simp [h.2]

/-- A body that takes the place of a parked one is not counted, so that the reorder buffer grows past both
caps; and a number that is expected and still parked may come in again, which leaves the parked body behind. -/
theorem uplink_past_budget : (∃ ops state, Run UplinkState.apply (fun _ _ => True) {} ops state ∧
      (∀ seq data, .post seq data ∈ ops → data.length ≤ maxPostBytes) ∧ state.reorderBytes = 3 ∧
      uplinkReadyBytesCap + uplinkReorderBufferBytesCap < state.parkedBytes) ∧
    ∃ body state, body.length ≤ maxPostBytes ∧
      Run UplinkState.apply (fun _ _ => True) {} [.post 1 [0, 0], .post 0 body, .post 1 [0]] state ∧
      state.expectedSeq = 2 ∧ state.reorder.lookup 1 = some [0, 0] := by
  refine ⟨?_, replicate 262143 0, ?_⟩
  swap
  · have hlen : (replicate 262143 (0 : UInt8)).length = 262143 := length_replicate
    obtain ⟨state, hrun, hstate⟩ := @overtaken_run (replicate 262143 0) (by rw [hlen]; rfl)
    exact ⟨state, by rw [hlen]; decide, hrun, hstate⟩
  have hlen : (replicate 262000 (0 : UInt8)).length = 262000 := length_replicate
  obtain ⟨state, hrun, hcounted, hparked⟩ := @swollen_run (replicate 262000 0)
    (ne_nil_of_length_pos (by omega)) (by rw [hlen]; decide)
  refine ⟨_, state, hrun, ?_, hcounted, ?_⟩
  · intro seq data hmem
    rcases length_of_mem_swollen hmem with h | h
    · rw [h]
      decide
    · rw [h, hlen]
      decide
  · rw [hparked, hlen]
    decide

end UplinkState

end OutlineProxy.Server
