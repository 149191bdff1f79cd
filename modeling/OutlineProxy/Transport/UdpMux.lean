import Mathlib.Data.List.MinMax
import OutlineProxy.Lib.Runs
import OutlineProxy.Lib.Tables

/-! The sessions of the UDP mux, one for each target, opened when first needed. -/

namespace OutlineProxy.Transport.UdpMux

open Runs Tables Option

/-- A session.  `openedAt` and `failedAt` count events, the other times are of the clock. -/
structure SessionEntry where
  created : Nat
  lastUseNs : Nat
  openedAt : Nat
  failedAt : Option Nat

def SessionEntry.touch (now : Nat) (entry : SessionEntry) : SessionEntry :=
  { entry with lastUseNs := min (now - entry.created) (2 ^ 64 - 1) }

def SessionEntry.lastUse (entry : SessionEntry) : Nat := entry.created + entry.lastUseNs

structure SessionSlot where
  cell : Option SessionEntry
  created : Nat

def SessionSlot.lastUse (slot : SessionSlot) : Nat := (slot.cell.map SessionEntry.lastUse).getD slot.created

/-- A call of `session_for` past its first look, and later the slot it waits on. -/
structure Call (Target : Type) where
  target : Target
  since : Nat
  slot : Option Nat

structure Returned (Target : Type) where
  target : Target
  since : Nat
  slot : Nat

structure Limits where
  maxSessions : Nat
  sessionIdleTimeout : Option Nat

/-- `slots` are all slots ever made; the map and the calls name them by number. `returned` and `failures` record what
calls returned and which sessions failed while in the map. -/
structure Mux (Target : Type) where
  limits : Limits
  sessions : Table Target Nat
  slots : List SessionSlot
  calls : List (Call Target)
  clock : Nat
  returned : List (Returned Target)
  failures : List (Target × Nat)

open Mux

inductive Event (Target : Type) where
  /-- The first look of `session_for`. -/
  | begin (target : Target) (now : Nat)
  /-- The slot is found or made under the write lock. -/
  | lock (i now : Nat) (walk : Walk Target Nat)
  /-- The dial that a waiting call runs. -/
  | dialed (i now : Nat)
  | dialFailed (i : Nat)
  | finish (i now : Nat)
  | cancel (i : Nat)
  | send (slot now : Nat)
  | readError (slot : Nat)
  /-- The targets come from a scan the janitor made before. -/
  | janitor (now : Nat) (candidates : List Target)
  | close

section Model

variable {Target : Type} [DecidableEq Target]

def Mux.new (limits : Limits) : Mux Target := ⟨limits, ∅, [], [], 0, [], []⟩

namespace Mux

variable (m : Mux Target)

def entry (k : Nat) : Option SessionEntry := m.slots[k]?.bind SessionSlot.cell

def lastUse (k : Nat) : Nat := (m.slots[k]?.map SessionSlot.lastUse).getD 0

def updateSlot (k : Nat) (f : SessionSlot → SessionSlot) : Mux Target := { m with slots := m.slots.modify k f }

def updateEntry (k : Nat) (f : SessionEntry → SessionEntry) : Mux Target :=
  m.updateSlot k fun slot => { slot with cell := slot.cell.map f }

def populated (target : Target) : Option Nat :=
  (m.sessions.lookup target).bind fun k => if (m.entry k).isSome then some k else none

def evictLruPopulatedSession (walk : Walk Target Nat) : Table Target Nat :=
  match ((walk.order m.sessions).filter fun s => (m.entry s.2).isSome).argmin fun s => m.lastUse s.2 with
  | some oldest => m.sessions.erase oldest.1
  | none => m.sessions

def expire (now idleTimeout : Nat) (sessions : Table Target Nat) (target : Target) : Table Target Nat :=
  match sessions.lookup target with
  | some k => if idleTimeout ≤ now - m.lastUse k then sessions.erase target else sessions
  | none => sessions

def targetsOf (k : Nat) : List Target := (m.sessions.entries.filter fun s => s.2 = k).map Sigma.fst

def handle : Event Target → Option (Mux Target)
  | .begin target now =>
    match m.populated target with
    | some k => some { m.updateEntry k (.touch now) with returned := ⟨target, m.clock, k⟩ :: m.returned }
    | none => some { m with calls := m.calls ++ [⟨target, m.clock, none⟩] }
  | .lock i now walk =>
    match m.calls[i]? with
    | some ⟨target, since, none⟩ =>
      match m.sessions.lookup target with
      | some k => some { m with calls := m.calls.set i ⟨target, since, some k⟩ }
      | none =>
        let sessions := if m.limits.maxSessions ≤ size m.sessions then m.evictLruPopulatedSession walk else m.sessions
        some { m with
          sessions := sessions.insert target m.slots.length
          slots := m.slots ++ [⟨none, now⟩]
          calls := m.calls.set i ⟨target, since, some m.slots.length⟩ }
    | _ => none
  | .dialed i now =>
    match m.calls[i]? with
    | some ⟨_, _, some k⟩ =>
      if (m.entry k).isSome then none
      else some (m.updateSlot k fun slot => { slot with cell := some ⟨now, 0, m.clock, none⟩ })
    | _ => none
  | .dialFailed i =>
    match m.calls[i]? with
    | some ⟨target, _, some k⟩ =>
      if (m.entry k).isSome then none
      else some { m with
        sessions := if m.sessions.lookup target = some k then m.sessions.erase target else m.sessions
        calls := m.calls.eraseIdx i }
    | _ => none
  | .finish i now =>
    match m.calls[i]? with
    | some ⟨target, since, some k⟩ =>
      if (m.entry k).isSome then
        some { m.updateEntry k (.touch now) with
          calls := m.calls.eraseIdx i
          returned := ⟨target, since, k⟩ :: m.returned }
      else none
    | _ => none
  | .cancel i => some { m with calls := m.calls.eraseIdx i }
  | .send k now => some (m.updateEntry k (.touch now))
  | .readError k =>
    match m.entry k with
    | some ⟨_, _, _, none⟩ =>
      some { m.updateEntry k fun entry => { entry with failedAt := some m.clock } with
        failures := (m.targetsOf k).map (fun target => (target, m.clock)) ++ m.failures }
    | _ => none
  | .janitor now candidates =>
    match m.limits.sessionIdleTimeout with
    | some idleTimeout => some { m with sessions := candidates.foldl (m.expire now idleTimeout) m.sessions }
    | none => none
  | .close => some { m with sessions := ∅ }

end Mux

def step (m : Mux Target) (event : Event Target) : Option (Mux Target) :=
  (m.handle event).map fun next => { next with clock := next.clock + 1 }

end Model

section Entries

variable {Target : Type} {m : Mux Target} {k j : Nat}

def Mux.times (m : Mux Target) (k : Nat) : Option (Nat × Option Nat) :=
  (m.entry k).map fun entry => (entry.openedAt, entry.failedAt)

theorem entry_updateSlot (m : Mux Target) (k j : Nat) (f : SessionSlot → SessionSlot) :
    (m.updateSlot k f).entry j = if k = j then m.slots[j]?.bind fun slot => (f slot).cell else m.entry j := by
  rw [entry, updateSlot, List.getElem?_modify]
  split
  · cases m.slots[j]? <;> rfl
  · cases h : m.slots[j]? <;> simp [entry, h]

theorem entry_updateEntry (m : Mux Target) (k j : Nat) (f : SessionEntry → SessionEntry) :
    (m.updateEntry k f).entry j = if k = j then (m.entry j).map f else m.entry j := by
  rw [updateEntry, entry_updateSlot]
  split
  · rw [entry]
    cases m.slots[j]? <;> rfl
  · rfl

theorem times_touch (m : Mux Target) (k j now : Nat) : (m.updateEntry k (.touch now)).times j = m.times j := by
  rw [times, entry_updateEntry]
  split
  · rw [times, map_map]
    rfl
  · rfl

theorem length_updateSlot (m : Mux Target) (k : Nat) (f : SessionSlot → SessionSlot) :
    (m.updateSlot k f).slots.length = m.slots.length :=
  List.length_modify _ _ _

theorem times_eq_none_iff : m.times k = none ↔ m.entry k = none := map_eq_none_iff

end Entries

section Invariant

variable {Target : Type} [DecidableEq Target] {m next : Mux Target} {target : Target} {k : Nat}

/-- A call has got a session opened after every failure that was before it, and the session had not failed before. -/
def Answered (m : Mux Target) (r : Returned Target) : Prop :=
  ∃ opened failed, m.times r.slot = some (opened, failed) ∧
    (∀ before, (r.target, before) ∈ m.failures → before < r.since → before < opened) ∧
    ∀ died, failed = some died → r.since ≤ died

/-- A session in the map has been opened after every failure in the map of a session of its target, unless it has failed
itself, and a call that has begun gets a session opened after its beginning. -/
structure Sane (m : Mux Target) : Prop where
  bound : ∀ target k, m.sessions.lookup target = some k → k < m.slots.length
  distinct : ∀ target other k, m.sessions.lookup target = some k → m.sessions.lookup other = some k → target = other
  fresh : ∀ target k opened, m.sessions.lookup target = some k → m.times k = some (opened, none) →
    ∀ failed, (target, failed) ∈ m.failures → failed < opened
  order : ∀ k opened failed, m.times k = some (opened, some failed) → opened < failed
  looking : ∀ call ∈ m.calls, call.slot = none → ∀ k opened failed, m.sessions.lookup call.target = some k →
    m.times k = some (opened, failed) → call.since < opened
  waiting : ∀ call ∈ m.calls, ∀ k, call.slot = some k →
    k < m.slots.length ∧ ∀ opened failed, m.times k = some (opened, failed) → call.since < opened
  called : ∀ call ∈ m.calls, call.since < m.clock
  opened : ∀ k opened failed, m.times k = some (opened, failed) → opened < m.clock
  failed : ∀ target failed, (target, failed) ∈ m.failures → failed < m.clock
  asked : ∀ r ∈ m.returned, r.since < m.clock
  answered : ∀ r ∈ m.returned, Answered m r

theorem sane_new (limits : Limits) : Sane (new limits : Mux Target) := by
  constructor
  all_goals intros; contradiction

variable {r : Returned Target}

omit [DecidableEq Target] in
theorem Answered.congr (h : Answered m r) (htimes : ∀ k, next.times k = m.times k)
    (hfailures : next.failures = m.failures) : Answered next r := by
  unfold Answered
  rw [htimes, hfailures]
  exact h

theorem Sane.shrink (h : Sane m)
    (hsessions : ∀ target k, next.sessions.lookup target = some k → m.sessions.lookup target = some k)
    (htimes : ∀ k, next.times k = m.times k) (hslots : next.slots.length = m.slots.length)
    (hcalls : next.calls ⊆ m.calls) (hfailures : next.failures = m.failures) (hclock : m.clock ≤ next.clock)
    (hreturned : ∀ r ∈ next.returned, r ∈ m.returned ∨ (r.since < next.clock ∧ Answered m r)) : Sane next := by
  have answered := h.answered
  cases h
  constructor
  case answered =>
    intro r hr
    rcases hreturned r hr with hold | ⟨-, hnew⟩
    · exact (answered r hold).congr htimes hfailures
    · exact hnew.congr htimes hfailures
  all_goals grind

def Mux.tick (m : Mux Target) : Mux Target := { m with clock := m.clock + 1 }

theorem Sane.tick (h : Sane m) : Sane m.tick :=
  h.shrink (fun _ _ hk => hk) (fun _ => rfl) rfl (List.Subset.refl _) rfl (Nat.le_succ _) fun _ hr => Or.inl hr

theorem Sane.begin (h : Sane m) (target : Target) (hnone : m.populated target = none) :
    Sane { m with calls := m.calls ++ [⟨target, m.clock, none⟩], clock := m.clock + 1 } := by
  have hempty : ∀ k, m.sessions.lookup target = some k → m.times k = none := by
    intro k hk
    rw [populated, hk, bind_some] at hnone
    split at hnone
    · cases hnone
    · rename_i hcell
      exact times_eq_none_iff.mpr (not_isSome_iff_eq_none.mp hcell)
  cases h
  have htimes : ∀ k, ({ m with calls := m.calls ++ [⟨target, m.clock, none⟩], clock := m.clock + 1 } :
    Mux Target).times k = m.times k := fun _ => rfl
  constructor <;> grind [Answered]

variable {i now : Nat} {after : Mux Target}

omit [DecidableEq Target] in
theorem mem_calls_set {calls : List (Call Target)} {new call : Call Target} (h : call ∈ calls.set i new) :
    call = new ∨ call ∈ calls := (List.mem_or_eq_of_mem_set h).symm

theorem Sane.join (h : Sane m) {since : Nat} (hcall : m.calls[i]? = some ⟨target, since, none⟩)
    (hk : m.sessions.lookup target = some k) : Sane { m with calls := m.calls.set i ⟨target, since, some k⟩ } := by
  have hmem := List.mem_of_getElem? hcall
  have htimes : ∀ j, ({ m with calls := m.calls.set i ⟨target, since, some k⟩ } : Mux Target).times j = m.times j :=
    fun _ => rfl
  have answered := h.answered
  cases h
  constructor
  case answered => exact fun r hr => (answered r hr).congr htimes rfl
  all_goals grind [mem_calls_set]

omit [DecidableEq Target] in
theorem times_append (m : Mux Target) (now k : Nat) :
    ({ m with slots := m.slots ++ [⟨none, now⟩] } : Mux Target).times k = m.times k := by
  grind [times, entry, List.getElem?_append_left, List.getElem?_eq_none, Nat.le_of_not_lt]

theorem Sane.open (h : Sane m) {since now : Nat} (hcall : m.calls[i]? = some ⟨target, since, none⟩)
    {sessions : Table Target Nat}
    (hsessions : ∀ target k, sessions.lookup target = some k → m.sessions.lookup target = some k) (hafter : { m with
      sessions := sessions.insert target m.slots.length
      slots := m.slots ++ [⟨none, now⟩]
      calls := m.calls.set i ⟨target, since, some m.slots.length⟩ } = after) : Sane after := by
  have hmem := List.mem_of_getElem? hcall
  have htimes : ∀ k, after.times k = m.times k := hafter ▸ times_append m now
  have hnew : m.times m.slots.length = none := by
    rw [times, entry, List.getElem?_eq_none (Nat.le_refl _)]
    rfl
  have hlookup : ∀ other j, after.sessions.lookup other = some j →
      (other = target ∧ j = m.slots.length) ∨ m.sessions.lookup other = some j := by
    subst hafter
    grind [lookup_insert_eq]
  have hcalls : ∀ call ∈ after.calls, call = ⟨target, since, some m.slots.length⟩ ∨ call ∈ m.calls := by
    subst hafter
    exact fun call hset => mem_calls_set hset
  have hsame : after.slots.length = m.slots.length + 1 ∧ after.clock = m.clock ∧ after.returned = m.returned ∧
      after.failures = m.failures := by
    subst hafter
    exact ⟨by simp, rfl, rfl, rfl⟩
  clear hafter
  have answered := h.answered
  cases h
  constructor
  case answered => exact fun r hr => (answered r (hsame.2.2.1 ▸ hr)).congr htimes hsame.2.2.2
  case waiting =>
    intro call hcall k hslot
    rcases hcalls call hcall with rfl | hold <;> grind
  all_goals grind

theorem Sane.dial (h : Sane m) (hlt : k < m.slots.length) (hempty : m.times k = none) {now : Nat}
    (hafter : (m.updateSlot k fun slot => { slot with cell := some ⟨now, 0, m.clock, none⟩ }).tick = after) :
    Sane after := by
  have htimes : ∀ j, after.times j = if k = j then some (m.clock, none) else m.times j := by
    intro j
    subst hafter
    change (m.updateSlot k fun slot => { slot with cell := some ⟨now, 0, m.clock, none⟩ }).times j = _
    rw [times, entry_updateSlot]
    split
    next heq =>
      subst heq
      rw [List.getElem?_eq_getElem hlt]
      rfl
    next => rfl
  have hsame : after.slots.length = m.slots.length ∧ after.sessions = m.sessions ∧ after.calls = m.calls ∧
      after.clock = m.clock + 1 ∧ after.returned = m.returned ∧ after.failures = m.failures := by
    subst hafter
    exact ⟨length_updateSlot m k _, rfl, rfl, rfl, rfl, rfl⟩
  clear hafter
  cases h
  constructor <;> grind [Answered]

theorem mem_targetsOf : target ∈ m.targetsOf k ↔ m.sessions.lookup target = some k := by
  rw [targetsOf, List.mem_map, lookup_eq_some_iff]
  constructor
  · grind
  · intro hmem
    exact ⟨_, List.mem_filter.mpr ⟨hmem, decide_eq_true rfl⟩, rfl⟩

omit [DecidableEq Target] in
theorem Answered.fail {opened : Nat} (h : Answered m r) (hsince : r.since < m.clock)
    (hk : m.times k = some (opened, none))
    (htimes : ∀ j, next.times j = if k = j then some (opened, some m.clock) else m.times j)
    (hnew : ∀ before, (r.target, before) ∈ next.failures → before = m.clock ∨ (r.target, before) ∈ m.failures) :
    Answered next r := by
  obtain ⟨start, died, ht, hafter, hlate⟩ := h
  have hbefore : ∀ before, (r.target, before) ∈ next.failures → before < r.since → before < start := by grind
  by_cases heq : k = r.slot
  · rw [← heq, hk] at ht
    cases ht
    refine ⟨opened, some m.clock, by rw [htimes, if_pos heq], hbefore, ?_⟩
    rintro _ ⟨⟩
    exact Nat.le_of_lt hsince
  · exact ⟨start, died, by rw [htimes, if_neg heq, ht], hbefore, hlate⟩

theorem Sane.fail (h : Sane m) {opened : Nat} (hk : m.times k = some (opened, none))
    (hafter : { m.updateEntry k fun entry => { entry with failedAt := some m.clock } with
      failures := (m.targetsOf k).map (fun target => (target, m.clock)) ++ m.failures
      clock := m.clock + 1 } = after) : Sane after := by
  have htimes : ∀ j, after.times j = if k = j then some (opened, some m.clock) else m.times j := by
    intro j
    subst hafter
    change (m.updateEntry k fun entry => { entry with failedAt := some m.clock }).times j = _
    rw [times, entry_updateEntry]
    split
    next heq =>
      subst heq
      rw [times, map_eq_some_iff] at hk
      obtain ⟨entry, hentry, hsame⟩ := hk
      rw [hentry, ← (Prod.mk.inj hsame).1]
      rfl
    next => rfl
  have hfailures : ∀ target failed, (target, failed) ∈ after.failures ↔
      (m.sessions.lookup target = some k ∧ failed = m.clock) ∨ (target, failed) ∈ m.failures := by
    subst hafter
    simp only [List.mem_append, List.mem_map, mem_targetsOf]
    grind
  have hsame : after.slots.length = m.slots.length ∧ after.sessions = m.sessions ∧ after.calls = m.calls ∧
      after.clock = m.clock + 1 ∧ after.returned = m.returned := by
    subst hafter
    exact ⟨length_updateSlot m k _, rfl, rfl, rfl, rfl⟩
  clear hafter
  have asked := h.asked
  have answered := h.answered
  cases h
  constructor
  case answered =>
    intro r hr
    rw [hsame.2.2.2.2] at hr
    refine (answered r hr).fail (asked r hr) hk htimes fun before hf => ?_
    exact ((hfailures r.target before).1 hf).imp_left And.right
  all_goals grind

theorem lookup_of_lookup_erase {t : Table Target Nat} {other : Target} (h : (t.erase other).lookup target = some k) :
    t.lookup target = some k := by
  rw [lookup_erase_eq] at h
  split at h
  · cases h
  · exact h

variable {walk : Walk Target Nat}

theorem lookup_of_lookup_evict
    (h : (m.evictLruPopulatedSession walk).lookup target = some k) : m.sessions.lookup target = some k := by
  unfold evictLruPopulatedSession at h
  split at h
  · exact lookup_of_lookup_erase h
  · exact h

theorem lookup_of_lookup_expire {now idleTimeout : Nat} {candidates : List Target} {sessions : Table Target Nat}
    (h : (candidates.foldl (m.expire now idleTimeout) sessions).lookup target = some k) :
    sessions.lookup target = some k := by
  induction candidates generalizing sessions with
  | nil => exact h
  | cons other candidates ih => grind [expire, lookup_of_lookup_erase]

omit [DecidableEq Target] in
theorem times_of_isSome {m : Mux Target} (h : (m.entry k).isSome) :
    ∃ opened failed, m.times k = some (opened, failed) := by
  obtain ⟨entry, hentry⟩ := isSome_iff_exists.mp h
  exact ⟨entry.openedAt, entry.failedAt, by rw [times, hentry]; rfl⟩

theorem populated_eq_some (h : m.populated target = some k) :
    m.sessions.lookup target = some k ∧ (m.entry k).isSome := by
  obtain ⟨j, hj, hcell⟩ := bind_eq_some_iff.mp h
  split at hcell
  · cases hcell
    exact ⟨hj, by assumption⟩
  · cases hcell

theorem Sane.answered_begin (h : Sane m) (hk : m.sessions.lookup target = some k) (hcell : (m.entry k).isSome)
    (hlive : ∀ opened died, m.times k ≠ some (opened, some died)) : Answered m ⟨target, m.clock, k⟩ := by
  obtain ⟨opened, failed, ht⟩ := times_of_isSome hcell
  cases failed with
  | none => exact ⟨opened, none, ht, fun before hbefore _ => h.fresh target k opened hk ht before hbefore, nofun⟩
  | some died => exact absurd ht (hlive opened died)

theorem Sane.answered_finish (h : Sane m) {call : Call Target} (hcall : call ∈ m.calls) (hslot : call.slot = some k)
    (hcell : (m.entry k).isSome) : Answered m ⟨call.target, call.since, k⟩ := by
  obtain ⟨opened, failed, ht⟩ := times_of_isSome hcell
  have hsince := (h.waiting call hcall k hslot).2 opened failed ht
  refine ⟨opened, failed, ht, fun before _ hbefore => Nat.lt_trans hbefore hsince, ?_⟩
  rintro died rfl
  exact Nat.le_of_lt (Nat.lt_trans hsince (h.order k opened died ht))

def Mux.Tended (m : Mux Target) : Event Target → Prop
  | .begin target _ => ∀ k opened died, m.sessions.lookup target = some k → m.times k ≠ some (opened, some died)
  | _ => True

variable {event : Event Target}

theorem Sane.step (h : Sane m) (htended : m.Tended event) (hstep : step m event = some next) : Sane next := by
  obtain ⟨after, hafter, rfl⟩ := map_eq_some_iff.mp hstep
  cases event with
  | begin target now =>
    rw [handle] at hafter
    split at hafter
    · rename_i k hpopulated
      cases hafter
      obtain ⟨hk, hcell⟩ := populated_eq_some hpopulated
      refine h.shrink (fun _ _ hk => hk) (times_touch m _ · now) (length_updateSlot m _ _) (List.Subset.refl _) rfl
        (Nat.le_succ _) fun r hr => ?_
      rcases List.mem_cons.mp hr with rfl | hr
      · exact Or.inr ⟨Nat.lt_succ_self _, h.answered_begin hk hcell fun opened died => htended k opened died hk⟩
      · exact Or.inl hr
    · rename_i hnone
      cases hafter
      exact h.begin target hnone
  | lock i now walk =>
    rw [handle] at hafter
    split at hafter
    · rename_i target since hcall
      split at hafter
      · rename_i k hk
        cases hafter
        exact (h.join hcall hk).tick
      · cases hafter
        refine (h.open hcall (fun other k hk => ?_) rfl).tick
        split at hk
        · exact lookup_of_lookup_evict hk
        · exact hk
    · cases hafter
  | dialed i now =>
    rw [handle] at hafter
    split at hafter
    · rename_i k hcall
      split at hafter
      · cases hafter
      · rename_i hcell
        cases hafter
        exact h.dial (h.waiting _ (List.mem_of_getElem? hcall) k rfl).1
          (times_eq_none_iff.mpr (not_isSome_iff_eq_none.mp hcell)) rfl
    · cases hafter
  | dialFailed i =>
    rw [handle] at hafter
    split at hafter
    · split at hafter
      · cases hafter
      · cases hafter
        refine h.shrink (fun other j hj => ?_) (fun _ => rfl) rfl List.eraseIdx_subset rfl (Nat.le_succ _)
          fun _ hr => Or.inl hr
        split at hj
        · exact lookup_of_lookup_erase hj
        · exact hj
    · cases hafter
  | finish i now =>
    rw [handle] at hafter
    split at hafter
    · rename_i target since k hcall
      have hmem := List.mem_of_getElem? hcall
      split at hafter
      · rename_i hcell
        cases hafter
        refine h.shrink (fun _ _ hk => hk) (times_touch m _ · now) (length_updateSlot m _ _) List.eraseIdx_subset rfl
          (Nat.le_succ _) fun r hr => ?_
        rcases List.mem_cons.mp hr with rfl | hr
        · exact Or.inr ⟨Nat.lt_succ_of_lt (h.called _ hmem), h.answered_finish hmem rfl hcell⟩
        · exact Or.inl hr
      · cases hafter
    · cases hafter
  | cancel i =>
    cases hafter
    exact h.shrink (fun _ _ hk => hk) (fun _ => rfl) rfl List.eraseIdx_subset rfl (Nat.le_succ _) fun _ hr => Or.inl hr
  | send k now =>
    cases hafter
    exact h.shrink (fun _ _ hk => hk) (times_touch m _ · now) (length_updateSlot m _ _) (List.Subset.refl _) rfl
      (Nat.le_succ _) fun _ hr => Or.inl hr
  | readError k =>
    rw [handle] at hafter
    split at hafter
    · rename_i created lastUseNs opened hentry
      cases hafter
      have hk : m.times k = some (opened, none) := by rw [times, hentry, map_some]
      exact h.fail hk rfl
    · cases hafter
  | janitor now candidates =>
    rw [handle] at hafter
    split at hafter
    · cases hafter
      exact h.shrink (fun _ _ hk => lookup_of_lookup_expire hk) (fun _ => rfl) rfl (List.Subset.refl _) rfl
        (Nat.le_succ _) fun _ hr => Or.inl hr
    · cases hafter
  | close =>
    cases hafter
    exact h.shrink (fun _ _ hk => by cases hk) (fun _ => rfl) rfl (List.Subset.refl _) rfl (Nat.le_succ _)
      fun _ hr => Or.inl hr

end Invariant

section Size

variable {Target : Type} [DecidableEq Target] {m next : Mux Target} {target : Target} {k : Nat}

/-- A slot is added only while there are fewer than `max_sessions` or one of them is populated. -/
def Roomy (m : Mux Target) : Event Target → Prop
  | .lock i _ _ => ∀ target since, m.calls[i]? = some ⟨target, since, none⟩ → m.sessions.lookup target = none →
      size m.sessions < m.limits.maxSessions ∨ ∃ other k, m.sessions.lookup other = some k ∧ (m.entry k).isSome
  | _ => True

theorem size_evict {other : Target} (hk : m.sessions.lookup other = some k)
    (hcell : (m.entry k).isSome) : size (m.evictLruPopulatedSession walk) + 1 = size m.sessions := by
  unfold evictLruPopulatedSession
  split
  · rename_i oldest holdest
    have hmem := (List.mem_filter.mp (List.argmin_mem (mem_def.mpr holdest))).1
    exact size_erase (lookup_eq_some_iff.mpr ((walk.perm m.sessions).mem_iff.mp hmem))
  · rename_i hnone
    have hmem : (⟨other, k⟩ : Sigma fun _ : Target => Nat) ∈ walk.order m.sessions :=
      (walk.perm m.sessions).mem_iff.mpr (lookup_eq_some_iff.mp hk)
    have hempty := List.argmin_eq_none.mp hnone
    exact absurd (List.mem_filter.mpr ⟨hmem, hcell⟩) (hempty ▸ List.not_mem_nil)

theorem size_expire_le (m : Mux Target) (now idleTimeout : Nat) (candidates : List Target)
    (sessions : Table Target Nat) :
    size (candidates.foldl (m.expire now idleTimeout) sessions) ≤ size sessions := by
  induction candidates generalizing sessions with
  | nil => exact Nat.le_refl _
  | cons other candidates ih => grind [expire, Nat.le_trans, size_erase_le]

theorem size_open (habsent : m.sessions.lookup target = none) (hsize : size m.sessions ≤ m.limits.maxSessions)
    (hroomy : size m.sessions < m.limits.maxSessions ∨ ∃ other k, m.sessions.lookup other = some k ∧
      (m.entry k).isSome) :
    size ((if m.limits.maxSessions ≤ size m.sessions then m.evictLruPopulatedSession walk else m.sessions).insert target
      m.slots.length) ≤ m.limits.maxSessions := by
  split
  · rename_i hfull
    rcases hroomy with hlt | ⟨other, k, hk, hcell⟩
    · omega
    · have hevict : size (m.evictLruPopulatedSession walk) + 1 = size m.sessions := size_evict hk hcell
      have hnot : target ∉ m.evictLruPopulatedSession walk := by
        intro hmem
        obtain ⟨j, hj⟩ := isSome_iff_exists.mp (AList.lookup_isSome.mpr hmem)
        rw [lookup_of_lookup_evict hj] at habsent
        cases habsent
      rw [size_insert hnot]
      omega
  · rename_i hroom
    rw [size_insert (AList.lookup_eq_none.mp habsent)]
    omega

theorem size_step (hroomy : Roomy m event) (hsize : size m.sessions ≤ m.limits.maxSessions)
    (hstep : step m event = some next) : size next.sessions ≤ next.limits.maxSessions := by
  obtain ⟨after, hafter, rfl⟩ := map_eq_some_iff.mp hstep
  cases event with
  | close =>
    cases hafter
    exact Nat.zero_le _
  | lock i now walk =>
    rw [handle] at hafter
    split at hafter
    · rename_i target since hcall
      split at hafter
      · cases hafter
        exact hsize
      · rename_i habsent
        cases hafter
        exact size_open habsent hsize (hroomy target since hcall habsent)
    · cases hafter
  | _ =>
    rw [handle] at hafter
    grind [updateEntry, updateSlot, size_erase_le, size_expire_le]

end Size

section Main

variable {Target : Type} [DecidableEq Target] {limits : Limits} {events : List (Event Target)} {m : Mux Target}

def Mux.populatedSlots (m : Mux Target) : List (Sigma fun _ : Target => Nat) :=
  m.sessions.entries.filter fun s => (m.entry s.2).isSome

/-- The session of a call was opened after every failure there had been for its target when the call began. -/
def OpenedAfterFailures (m : Mux Target) (r : Returned Target) : Prop :=
  ∃ opened failed, m.times r.slot = some (opened, failed) ∧
    ∀ before, (r.target, before) ∈ m.failures → before < r.since → before < opened

def WasDead (m : Mux Target) (r : Returned Target) : Prop :=
  ∃ opened died, m.times r.slot = some (opened, some died) ∧ died < r.since

omit [DecidableEq Target] in
theorem Answered.lives (h : Answered m r) : OpenedAfterFailures m r ∧ ¬ WasDead m r := by
  obtain ⟨opened, failed, ht, hafter, hlate⟩ := h
  refine ⟨⟨opened, failed, ht, hafter⟩, ?_⟩
  rintro ⟨opened', died, ht', hdied⟩
  cases ht.symm.trans ht'
  exact absurd (hlate died rfl) (Nat.not_le_of_lt hdied)

theorem limits_step {next : Mux Target} (hstep : step m event = some next) :
    next.limits = m.limits := by
  obtain ⟨after, hafter, rfl⟩ := map_eq_some_iff.mp hstep
  cases event <;> rw [handle] at hafter <;> grind [updateEntry, updateSlot]

/-- While no call begins on a failed session and there is room for every slot that is added, a call gets a session
opened after all failures of its target, and the map has one populated slot for a target and `max_sessions` at most. -/
theorem mux_replaces_dead_session
    (hrun : Run step (fun m event => m.Tended event ∧ Roomy m event) (new limits) events m) :
    (∀ r ∈ m.returned, OpenedAfterFailures m r ∧ ¬ WasDead m r) ∧
    (∀ target, (m.populatedSlots.filter fun s => s.1 = target).length ≤ 1) ∧
    (∀ target other k, m.sessions.lookup target = some k → m.sessions.lookup other = some k → target = other) ∧
    m.populatedSlots.length ≤ limits.maxSessions := by
  have h : Sane m := hrun.invariant (P := fun _ m => Sane m) (sane_new limits)
    fun _ _ _ _ h hallowed hstep => h.step hallowed.1 hstep
  have hsize := hrun.invariant (P := fun _ m => m.limits = limits ∧ size m.sessions ≤ m.limits.maxSessions)
    ⟨rfl, Nat.zero_le _⟩ fun _ _ _ _ h hallowed hstep =>
      ⟨(limits_step hstep).trans h.1, size_step hallowed.2 h.2 hstep⟩
  refine ⟨fun r hr => (h.answered r hr).lives, fun target => length_filter_key_le _ m.sessions target, h.distinct, ?_⟩
  exact Nat.le_trans (List.length_filter_le _ _) (hsize.1 ▸ hsize.2)

def oneSession : Limits := ⟨1, some 60⟩

def inOrder : Walk Nat Nat := ⟨AList.entries, fun _ => List.Perm.refl _⟩

def deadReused : List (Event Nat) :=
  [.begin 7 0, .lock 0 0 inOrder, .dialed 0 1, .finish 0 1, .readError 0, .begin 7 5]

def twoDialled : List (Event Nat) :=
  [.begin 7 0, .lock 0 0 inOrder, .begin 8 0, .lock 1 0 inOrder, .dialed 0 1, .dialed 1 1]

theorem dead_session_returned : (∃ m, Run step (fun _ _ => True) (new oneSession) deadReused m ∧
      m.returned = [⟨7, 5, 0⟩, ⟨7, 0, 0⟩] ∧ m.failures = [(7, 4)] ∧ m.times 0 = some (2, some 4) ∧
      ¬ OpenedAfterFailures m ⟨7, 5, 0⟩) ∧ ∃ m, Run step (fun _ _ => True) (new oneSession) twoDialled m ∧
      m.populatedSlots.length = 2 ∧ m.limits.maxSessions = 1 := by
  have hdead :
      ∀ m, deadReused.foldlM (fun m event => if True then step m event else none) (new oneSession) = some m →
      m.times 0 = some (2, some 4) → m.failures = [(7, 4)] → ¬ OpenedAfterFailures m ⟨7, 5, 0⟩ := by
    rintro m - ht hf ⟨opened, failed, ht', hall⟩
    cases ht.symm.trans ht'
    exact absurd (hall 4 (hf ▸ List.mem_singleton.mpr rfl) (by decide)) (by decide)
  exact ⟨⟨_, run_of_foldlM rfl, rfl, rfl, rfl, hdead _ rfl rfl rfl⟩, _, run_of_foldlM rfl, rfl, rfl⟩

def deadReplaced : List (Event Nat) :=
  deadReused.dropLast ++ [.janitor 61 [7], .begin 7 62, .lock 0 62 inOrder, .dialed 0 63, .finish 0 63]

theorem mux_replaces_dead_session_idle : ∃ m,
    Run step (fun m event => m.Tended event ∧ Roomy m event) (new oneSession) deadReplaced m ∧
    m.returned = [⟨7, 6, 1⟩, ⟨7, 0, 0⟩] ∧ m.times 1 = some (8, none) ∧ OpenedAfterFailures m ⟨7, 6, 1⟩ := by
  let Ran (n : Nat) :=
    Run step (fun m event => m.Tended event ∧ Roomy m event) (new oneSession) (deadReplaced.take n)
  have hbegin : Ran 1 _ := Run.snoc .refl ⟨fun _ _ _ h => (by cases h), trivial⟩ rfl
  have hlock : Ran 2 _ := hbegin.snoc ⟨trivial, fun _ _ _ _ => Or.inl (by decide)⟩ rfl
  have hdialed : Ran 3 _ := hlock.snoc ⟨trivial, trivial⟩ rfl
  have hfinish : Ran 4 _ := hdialed.snoc ⟨trivial, trivial⟩ rfl
  have herror : Ran 5 _ := hfinish.snoc ⟨trivial, trivial⟩ rfl
  have hjanitor : Ran 6 _ := herror.snoc ⟨trivial, trivial⟩ rfl
  have hbegin' : Ran 7 _ := hjanitor.snoc ⟨fun _ _ _ h => (by cases h), trivial⟩ rfl
  have hlock' : Ran 8 _ := hbegin'.snoc ⟨trivial, fun _ _ _ _ => Or.inl (by decide)⟩ rfl
  have hdialed' : Ran 9 _ := hlock'.snoc ⟨trivial, trivial⟩ rfl
  have hrun : Ran 10 _ := hdialed'.snoc ⟨trivial, trivial⟩ rfl
  exact ⟨_, hrun, rfl, rfl, ((mux_replaces_dead_session hrun).1 ⟨7, 6, 1⟩ List.mem_cons_self).1⟩

end Main

end OutlineProxy.Transport.UdpMux
