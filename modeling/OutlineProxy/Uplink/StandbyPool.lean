import OutlineProxy.Lib.Runs
import Mathlib.Data.List.Perm.Basic

/-! The warm-standby pool of one transport, shared by takes, refills and validation sweeps. -/

namespace OutlineProxy.Uplink

open List Runs

/-- Of a stream only the wire it was dialled on matters here. -/
structure TransportStream where
  dialedOn : UInt8

structure PooledCarrier where
  wire : UInt8
  stream : TransportStream

inductive PushOutcome where
  | pooled (length : Nat)
  | full
  | wrongWire

structure WirePool where
  entries : List PooledCarrier := []
  wire : UInt8 := 0

namespace WirePool

variable (pool : WirePool) (wire : UInt8)

def claimWire : WirePool := ⟨pool.entries.filter (·.wire = wire), wire⟩

def popLoop : List PooledCarrier → Option TransportStream × List PooledCarrier
  | [] => (none, [])
  | entry :: entries => if entry.wire = wire then (some entry.stream, entries) else popLoop entries

def popFrontForWire : Option TransportStream × WirePool :=
  let (stream, entries) := popLoop wire pool.entries
  (stream, { pool with entries })

def pushForWire (desired : Nat) (stream : TransportStream) : PushOutcome × WirePool :=
  if pool.wire ≠ wire then (.wrongWire, pool)
  else if desired ≤ pool.entries.length then (.full, pool)
  else (.pooled (pool.entries.length + 1), { pool with entries := pool.entries ++ [⟨wire, stream⟩] })

def takeAll : List PooledCarrier × WirePool := (pool.entries, { pool with entries := [] })

def restore (carriers : List PooledCarrier) : WirePool :=
  { pool with entries := pool.entries ++ carriers.filter (·.wire = pool.wire) }

end WirePool

/-- A take in its loop. -/
structure Take where
  wanted : UInt8
  wire : UInt8

/-- The refill that holds the refill lock. -/
structure Refill where
  wire : UInt8
  currentLen : Nat

structure Standby where
  pool : WirePool := {}
  takes : List Take := []
  refill : Option Refill := none
  sweeps : List (List PooledCarrier) := []
  handed : List (UInt8 × TransportStream) := []

open Standby

/-- What the tasks do under the pool lock, each with the wire it holds for the active one. A popped carrier may be
dead, a dial may end without a stream to pool, and a sweep finds some of its carriers alive. -/
inductive StandbyEvent where
  | take (wanted wire : UInt8)
  | pop (k : Nat) (alive : Bool)
  | refill (wire : UInt8)
  | dialed (usable : Bool)
  | sweep
  | probed (k : Nat) (alive : List Bool)

def survivors : List PooledCarrier → List Bool → List PooledCarrier
  | carrier :: drained, true :: alive => carrier :: survivors drained alive
  | _ :: drained, false :: alive => survivors drained alive
  | _, _ => []

namespace Standby

/-- The carriers of the pool, with those that sweeps have taken out of it. -/
def size (s : Standby) : Nat := s.pool.entries.length + s.sweeps.flatten.length

variable (desired : Nat) (s : Standby)

def step : StandbyEvent → Option Standby
  | .take wanted wire =>
    if wanted ≠ wire then some s
    else if s.pool.wire ≠ wire then some { s with pool := s.pool.claimWire wire }
    else some { s with takes := s.takes ++ [⟨wanted, wire⟩] }
  | .pop k alive => do
    let take ← s.takes[k]?
    let pool := (s.pool.popFrontForWire take.wire).2
    match (s.pool.popFrontForWire take.wire).1 with
    | none => some { s with pool, takes := s.takes.eraseIdx k }
    | some stream =>
      if alive then some { s with pool, takes := s.takes.eraseIdx k, handed := (take.wanted, stream) :: s.handed }
      else some { s with pool }
  | .refill wire =>
    if desired = 0 ∨ s.refill.isSome then none
    else
      let pool := if s.pool.entries.isEmpty then s.pool.claimWire wire else s.pool
      some { s with pool, refill := some ⟨wire, pool.entries.length⟩ }
  | .dialed usable => do
    let refill ← s.refill
    if desired ≤ refill.currentLen ∨ !usable then some { s with refill := none }
    else
      let pushed := s.pool.pushForWire refill.wire desired ⟨refill.wire⟩
      some { s with
        pool := pushed.2
        refill := match pushed.1 with
          | .pooled length => some { refill with currentLen := length }
          | .full | .wrongWire => none }
  | .sweep =>
    if desired = 0 then none
    else if s.pool.entries.isEmpty then some s
    else some { s with pool := s.pool.takeAll.2, sweeps := s.sweeps ++ [s.pool.takeAll.1] }
  | .probed k alive => do
    let drained ← s.sweeps[k]?
    some { s with pool := s.pool.restore (survivors drained alive), sweeps := s.sweeps.eraseIdx k }

/-- A dial that ends while sweeps are out finds room for the carriers they hold, if it finds room at all. -/
def LeavesRoom : StandbyEvent → Bool
  | .dialed _ => s.pool.entries.length < desired → s.size < desired
  | _ => true

end Standby

open Standby WirePool

variable {s next : Standby} {desired : Nat} {event : StandbyEvent} {events : List StandbyEvent}

theorem popLoop_spec (wire : UInt8) (entries : List PooledCarrier) :
    (popLoop wire entries).2 <+ entries ∧ ∀ stream ∈ (popLoop wire entries).1, ⟨wire, stream⟩ ∈ entries := by
  induction entries with
  | nil => simp [popLoop]
  | cons entry entries ih =>
    unfold popLoop
    split
    · rename_i hwire
      simp [← hwire]
    · exact ⟨ih.1.cons _, fun stream hstream => mem_cons_of_mem _ (ih.2 stream hstream)⟩

theorem survivors_sublist (drained : List PooledCarrier) (alive : List Bool) : survivors drained alive <+ drained := by
  fun_induction survivors drained alive with
  | case1 carrier drained alive ih => exact ih.cons_cons _
  | case2 carrier drained alive ih => exact ih.cons _
  | case3 => exact nil_sublist _

theorem pushForWire_cases (desired : Nat) (pool : WirePool) (wire : UInt8) (stream : TransportStream) :
    (pool.pushForWire wire desired stream).2 = pool ∨ pool.wire = wire ∧ pool.entries.length < desired ∧
      (pool.pushForWire wire desired stream).2 = { pool with entries := pool.entries ++ [⟨wire, stream⟩] } := by
  by_cases hwire : pool.wire = wire
  · by_cases hfull : desired ≤ pool.entries.length
    · simp [pushForWire, hwire, hfull]
    · exact Or.inr ⟨hwire, Nat.lt_of_not_le hfull, by simp [pushForWire, hwire, hfull]⟩
  · simp [pushForWire, hwire]

/-- The carriers in the pool are of its wire, and every carrier anywhere was dialled on the wire it is tagged with. -/
structure Tagged (s : Standby) : Prop where
  pooled : ∀ entry ∈ s.pool.entries, entry.wire = s.pool.wire ∧ entry.stream.dialedOn = entry.wire
  taking : ∀ take ∈ s.takes, take.wanted = take.wire
  swept : ∀ drained ∈ s.sweeps, ∀ entry ∈ drained, entry.stream.dialedOn = entry.wire
  handed : ∀ out ∈ s.handed, out.2.dialedOn = out.1

theorem Tagged.step (h : Tagged s) (hstep : s.step desired event = some next) : Tagged next := by
  have hpooled := h.pooled
  have hclaim : ∀ wire, ∀ entry ∈ (s.pool.claimWire wire).entries,
      entry.wire = wire ∧ entry.stream.dialedOn = entry.wire := by
    intro wire entry hentry
    obtain ⟨hmem, hwire⟩ := mem_filter.mp hentry
    exact ⟨of_decide_eq_true hwire, (hpooled entry hmem).2⟩
  cases event with
  | take wanted wire =>
    simp only [Standby.step] at hstep
    split at hstep
    · cases hstep
      exact h
    split at hstep <;> cases hstep
    · exact { h with pooled := hclaim wire }
    · rename_i hwanted _
      exact { h with taking := forall_mem_snoc h.taking (not_not.mp hwanted) }
  | pop k alive =>
    obtain ⟨take, htake, hthen⟩ := Option.bind_eq_some_iff.mp hstep
    obtain ⟨hleft, hfound⟩ := popLoop_spec take.wire s.pool.entries
    have hpop : Tagged { s with pool := (s.pool.popFrontForWire take.wire).2 } :=
      { h with pooled := fun entry hentry => hpooled entry (hleft.subset hentry) }
    have htaking : ∀ take ∈ s.takes.eraseIdx k, take.wanted = take.wire := fun take hmem =>
      h.taking take (mem_of_mem_eraseIdx hmem)
    dsimp only at hthen
    split at hthen
    · cases hthen
      exact { hpop with taking := htaking }
    rename_i stream hstream
    split at hthen <;> cases hthen
    · refine { hpop with taking := htaking, handed := forall_mem_cons.mpr ⟨?_, h.handed⟩ }
      rw [h.taking take (mem_of_getElem? htake)]
      exact (hpooled _ (hfound stream hstream)).2
    · exact hpop
  | refill wire =>
    simp only [Standby.step] at hstep
    split at hstep <;> cases hstep
    refine { h with pooled := ?_ }
    dsimp only
    split
    · exact hclaim wire
    · exact hpooled
  | dialed usable =>
    obtain ⟨refill, -, hthen⟩ := Option.bind_eq_some_iff.mp hstep
    split at hthen <;> cases hthen
    · exact { h with }
    refine { h with pooled := ?_ }
    dsimp only
    rcases pushForWire_cases desired s.pool refill.wire ⟨refill.wire⟩ with hpush | ⟨hwire, -, hpush⟩
    · rw [hpush]
      exact hpooled
    · rw [hpush]
      exact forall_mem_snoc hpooled ⟨hwire.symm, rfl⟩
  | sweep =>
    simp only [Standby.step] at hstep
    split at hstep
    · cases hstep
    split at hstep <;> cases hstep
    · exact h
    · exact { h with
        pooled := nofun
        swept := forall_mem_snoc h.swept fun entry hentry => (hpooled entry hentry).2 }
  | probed k alive =>
    obtain ⟨drained, hdrained, hthen⟩ := Option.bind_eq_some_iff.mp hstep
    cases hthen
    refine { h with
      pooled := forall_mem_append.mpr ⟨hpooled, fun entry hentry => ?_⟩
      swept := fun drained hmem => h.swept drained (mem_of_mem_eraseIdx hmem) }
    obtain ⟨hmem, hwire⟩ := mem_filter.mp hentry
    exact ⟨of_decide_eq_true hwire,
      h.swept drained (mem_of_getElem? hdrained) entry ((survivors_sublist drained alive).subset hmem)⟩

/-- Whatever wires the tasks bring, the pool holds carriers of its own wire only, and a take gets none but carriers
dialled on the wire it wants. -/
theorem warm_carriers_keep_wire (hrun : Run (Standby.step desired) (fun _ _ => True) {} events s) :
    (∀ entry ∈ s.pool.entries, entry.wire = s.pool.wire) ∧ ∀ out ∈ s.handed, out.2.dialedOn = out.1 := by
  have h : Tagged s := hrun.invariant (P := fun _ s => Tagged s) ⟨nofun, nofun, nofun, nofun⟩
    fun _ _ _ _ h _ hstep => h.step hstep
  exact ⟨fun entry hentry => (h.pooled entry hentry).1, h.handed⟩

/-- The pool rotates while a sweep and a dial for the old wire are out, and takes neither carrier in. -/
theorem warm_carriers_keep_wire_rotated : ∃ s, Run (Standby.step 2) (fun _ _ => True) {}
    [.refill 3, .dialed true, .sweep, .take 5 5, .probed 0 [true], .dialed true, .refill 5, .dialed true, .take 5 5,
      .pop 0 true] s ∧ s.handed = [(5, ⟨5⟩)] ∧ ∀ out ∈ s.handed, out.2.dialedOn = out.1 := by
  refine exists_run rfl fun hrun => ?_
  exact ⟨rfl, (warm_carriers_keep_wire hrun).2⟩

theorem Standby.size_step (hstep : s.step desired event = some next) :
    next.size ≤ s.size ∨ next.size = s.size + 1 ∧ (∃ usable, event = .dialed usable) ∧
      s.pool.entries.length < desired := by
  cases event with
  | take wanted wire => grind [Standby.step, claimWire, size, length_filter_le]
  | pop k alive =>
    have hleft := fun take : Take => (popLoop_spec take.wire s.pool.entries).1.length_le
    grind [Standby.step, size, popFrontForWire]
  | refill wire => grind [Standby.step, claimWire, size, length_filter_le]
  | dialed usable =>
    obtain ⟨refill, -, hthen⟩ := Option.bind_eq_some_iff.mp hstep
    have hpush := pushForWire_cases desired s.pool refill.wire ⟨refill.wire⟩
    split at hthen <;> cases hthen <;> grind [size]
  | sweep => grind [Standby.step, size, takeAll]
  | probed k alive =>
    obtain ⟨drained, hdrained, hthen⟩ := Option.bind_eq_some_iff.mp hstep
    cases hthen
    obtain ⟨hk, rfl⟩ := List.getElem?_eq_some_iff.mp hdrained
    have hheld := (getElem_cons_eraseIdx_perm hk).flatten.length_eq
    have hkept := (survivors_sublist s.sweeps[k] alive).length_le
    have hown := length_filter_le (fun entry => entry.wire = s.pool.wire) (survivors s.sweeps[k] alive)
    left
    simp only [size, restore, length_append, flatten_cons] at hheld ⊢
    omega

/-- While every dial that pools a carrier leaves room for those the sweeps hold, the pool stays within its size. -/
theorem warm_pool_within_desired (hrun : Run (Standby.step desired) (LeavesRoom desired · ·) {} events s) :
    s.pool.entries.length ≤ desired :=
  Nat.le_of_add_right_le (hrun.invariant (P := fun _ s => s.size ≤ desired) (Nat.zero_le _)
    fun _ _ _ _ h hroom hstep => by
      rcases size_step hstep with hle | ⟨hsize, ⟨usable, rfl⟩, hlt⟩
      · exact Nat.le_trans hle h
      · have := of_decide_eq_true hroom hlt
        omega)

/-- A dial ends while a sweep has the first carrier out, and the probe then fills the pool. -/
theorem warm_pool_within_desired_swept : ∃ s, Run (Standby.step 2) (LeavesRoom 2 · ·) {}
    [.refill 3, .dialed true, .sweep, .dialed true, .probed 0 [true]] s ∧
      s.pool.entries.length = 2 ∧ s.pool.entries.length ≤ 2 :=
  exists_run rfl fun hrun => ⟨rfl, warm_pool_within_desired hrun⟩

/-- A refill fills the pool up while a sweep holds its one carrier, and the sweep then puts that back. -/
theorem warm_pool_overfilled : ∃ s, Run (Standby.step 1) (fun _ _ => True) {}
    [.refill 0, .dialed true, .dialed true, .sweep, .refill 0, .dialed true, .probed 0 [true]] s ∧
      s.pool.entries.length = 2 :=
  ⟨_, run_of_foldlM rfl, rfl⟩

end OutlineProxy.Uplink
