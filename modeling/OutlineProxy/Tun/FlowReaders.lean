import OutlineProxy.Lib.Runs

/-! The uplink task of a UDP flow replaces the carrier while the readers it has spawned read and tear down. -/

namespace OutlineProxy.Tun.FlowReaders

open List Runs

/-- A reader waits in an await, runs on a worker, has met a read error and is about to tear the flow down
(on a worker too), or has ended. -/
inductive Stage where
  | waiting
  | running
  | failed
  | ended
deriving DecidableEq

structure Reader where
  stage : Stage := .waiting
  aborted : Bool := false

/-- `readFailed`: its carrier's read returns an error; `verdict`: it finds the abort verdict; `yield`: it
comes to an await that is not ready. -/
inductive Act where
  | resume
  | readFailed
  | teardown
  | verdict
  | yield
deriving DecidableEq

/-- The runtime drops an aborted reader where it waits; one that is on a worker goes on to its next await. -/
def Reader.after (reader : Reader) (act : Act) : Option Stage :=
  match act, reader.stage with
  | .resume, .waiting => some (if reader.aborted then .ended else .running)
  | .readFailed, .waiting => some (if reader.aborted then .ended else .failed)
  | .readFailed, .running => some .failed
  | .teardown, .failed | .verdict, .running => some .ended
  | .yield, .running => some (if reader.aborted then .ended else .waiting)
  | .yield, .waiting | .yield, .failed => if reader.aborted then some .ended else none
  | _, _ => none

/-- It can still do something for the flow. -/
def Reader.acts (reader : Reader) : Bool :=
  match reader.stage with
  | .waiting => !reader.aborted
  | .running | .failed => true
  | .ended => false

inductive Phase where
  | dialling
  | serving
  | redialling
  | migrating
  | ended
deriving DecidableEq

/-- `readers` from the newest on: the first is the one the task holds, if it has not dropped it. -/
structure Flow where
  recorded : Bool := true
  phase : Phase := .dialling
  readers : List Reader := []

inductive Event where
  | connected
  | connectFailed
  | sendFailed
  | migrate
  /-- The abort verdict, or a repoint to an uplink that is not there. -/
  | switched
  | evict
  | taskEnds
  | reader (c : Nat) (act : Act)

/-- The task drops the reader it holds. -/
def retire : List Reader → List Reader
  | [] => []
  | reader :: rest => { reader with aborted := true } :: rest

namespace Flow

variable (s : Flow)

/-- A send error leaves the reader running for the redial, a migration retires it first. -/
def step : Event → Option Flow
  | .connected =>
    if s.phase = .serving ∨ s.phase = .ended then none
    else if s.recorded then some { s with phase := .serving, readers := {} :: retire s.readers }
    else some { s with phase := .ended, readers := retire s.readers }
  | .connectFailed =>
    if s.phase = .serving ∨ s.phase = .ended then none else some ⟨false, .ended, retire s.readers⟩
  | .sendFailed => if s.phase = .serving then some { s with phase := .redialling } else none
  | .migrate => if s.phase = .serving then some { s with phase := .migrating, readers := retire s.readers } else none
  | .switched => if s.phase = .serving then some ⟨false, .ended, retire s.readers⟩ else none
  | .evict => some { s with recorded := false }
  | .taskEnds => if s.recorded then none else some { s with phase := .ended, readers := retire s.readers }
  | .reader c act => do
    let reader ← s.readers[c]?
    let stage ← reader.after act
    -- both the teardown and the abort verdict are a `close_flow_if_current`
    let recorded := s.recorded && act ≠ .teardown && act ≠ .verdict
    some ⟨recorded, s.phase, s.readers.set c { reader with stage }⟩

/-- During a redial after a send error the reader that still runs meets no read error, none is pending when
it starts, and the task replaces a reader while it waits. -/
def Apart : Event → Bool
  | .reader c .readFailed => s.phase ≠ .redialling ∨ s.readers[c]?.all (·.aborted)
  | .sendFailed => s.readers[0]?.all (·.stage ≠ .failed)
  | .migrate | .connected => s.readers[0]?.all fun reader => reader.stage = .waiting ∨ reader.stage = .ended
  | _ => true

def Acts (c : Nat) : Prop := ∃ reader, s.readers[c]? = some reader ∧ reader.acts = true

/-- Who may close the flow: of the readers that met an error only that of the carrier in use. -/
def MayClose : Event → Prop
  | .reader c .teardown => s.phase = .serving ∧ c = 0
  | .reader c .verdict => c = 0
  | .connectFailed | .switched | .evict => True
  | _ => False

end Flow

variable {s next : Flow} {event : Event} {events : List Event} {c : Nat} {reader : Reader}

/-- Only the newest reader acts, and not during a migration; its errors are for the carrier in use. -/
structure Led (s : Flow) : Prop where
  replaced : ∀ c reader, s.readers[c]? = some reader → c ≠ 0 ∨ s.phase = .migrating → reader.acts = false
  held : s.phase = .serving ∨ s.phase = .redialling → ∀ reader, s.readers[0]? = some reader → reader.aborted = false
  redialling : s.phase = .redialling → ∀ reader, s.readers[0]? = some reader → reader.stage ≠ .failed
  dialling : s.phase = .dialling → s.readers = []
  ended : s.phase = .ended → s.recorded = false

theorem getElem?_retire (readers : List Reader) (c : Nat) :
    (retire readers)[c]? = readers[c]?.map fun reader => if c = 0 then { reader with aborted := true } else reader := by
  cases readers with
  | nil => rfl
  | cons reader rest => cases c <;> simp [retire]

/-- A reader that does not act is ended by whatever comes, and stays one that does not act. -/
theorem Reader.after_of_not_acts (h : reader.acts = false) {act : Act} {stage : Stage}
    (hafter : reader.after act = some stage) : act ≠ .teardown ∧ act ≠ .verdict ∧ reader.aborted = true ∧
    stage = .ended := by
  obtain ⟨_ | _ | _ | _, _ | _⟩ := reader <;> cases h <;> cases act <;> cases hafter <;> decide

theorem Reader.after_eq_failed {act : Act} (hafter : reader.after act = some .failed) : act = .readFailed := by
  obtain ⟨_ | _ | _ | _, _ | _⟩ := reader <;> cases act <;> first | rfl | cases hafter

/-- A reader that waits is out of the way once it is dropped. -/
theorem acts_retire (hreplaced : ∀ c reader, s.readers[c]? = some reader → c ≠ 0 → reader.acts = false)
    (hwaits : s.readers[0]?.all fun reader => reader.stage = .waiting ∨ reader.stage = .ended)
    (c : Nat) (reader : Reader) (hreader : (retire s.readers)[c]? = some reader) : reader.acts = false := by
  rw [getElem?_retire, Option.map_eq_some_iff] at hreader
  obtain ⟨old, hold, rfl⟩ := hreader
  by_cases hc : c = 0
  · subst hc
    rw [hold] at hwaits
    grind [Reader.acts]
  · rw [if_neg hc]
    exact hreplaced c old hold hc

theorem Led.step (h : Led s) (hapart : s.Apart event) (hstep : s.step event = some next) : Led next := by
  obtain ⟨hreplaced, hheld, hredialling, hdialling, hended⟩ := h
  cases event with
  | connected =>
    have hretired := acts_retire (fun c reader hreader hc => hreplaced c reader hreader (.inl hc)) hapart
    simp only [Flow.step] at hstep
    split at hstep
    · cases hstep
    split at hstep <;> cases hstep
    · constructor <;> grind
    · constructor <;> grind
  | migrate =>
    have hretired := acts_retire (fun c reader hreader hc => hreplaced c reader hreader (.inl hc)) hapart
    obtain ⟨-, hnext⟩ := Option.ite_none_right_eq_some.mp hstep
    cases hnext
    constructor <;> grind
  | sendFailed =>
    obtain ⟨hserving, hnext⟩ := Option.ite_none_right_eq_some.mp hstep
    cases hnext
    refine ⟨by grind, by grind, fun _ reader hreader => ?_, by grind, by grind⟩
    simpa [Flow.Apart, hreader] using hapart
  | evict =>
    cases hstep
    exact ⟨hreplaced, hheld, hredialling, hdialling, fun _ => rfl⟩
  | connectFailed | switched | taskEnds =>
    simp only [Flow.step] at hstep
    split at hstep <;> cases hstep
    constructor <;> grind [getElem?_retire]
  | reader c act =>
    obtain ⟨reader, hreader, hthen⟩ := Option.bind_eq_some_iff.mp hstep
    obtain ⟨stage, hstage, hnext⟩ := Option.bind_eq_some_iff.mp hthen
    cases hnext
    have hquiet := fun hacts => Reader.after_of_not_acts hacts hstage
    have hfailed : stage = .failed → act = .readFailed := fun h => Reader.after_eq_failed (h ▸ hstage)
    constructor <;> grind [Flow.Apart, Reader.acts]

end OutlineProxy.Tun.FlowReaders
