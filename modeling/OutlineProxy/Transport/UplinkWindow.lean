import Mathlib.Data.List.TakeWhile
import OutlineProxy.Server.XhttpUplink

/-! The client's send window for packet-up POSTs against the server's limit on gaps.  One is anchored at the
lowest number not answered, the other at the lowest not queued; a parked body is answered, so the two drift
apart. -/

namespace OutlineProxy.Transport

open List Server Server.UplinkState Runs PacketUp

def uplinkWindowPosts : Nat := 30

def maxPostBytes : Nat := 256 * 1024

/-- Numbers are admitted in increasing order, so the map is the list of its entries by admission. -/
structure UplinkWindow where
  posts : List (Nat × Bool) := []
  maxPosts : Nat := uplinkWindowPosts

namespace UplinkWindow

def tryAdmit (window : UplinkWindow) (seq : Nat) : Option UplinkWindow :=
  match window.posts with
  | (low, _) :: _ =>
    if window.maxPosts ≤ seq - low then none else some { window with posts := window.posts ++ [(seq, false)] }
  | [] => some { window with posts := [(seq, false)] }

def complete (window : UplinkWindow) (seq : Nat) : UplinkWindow :=
  { window with
    posts := (window.posts.map fun post => if post.1 = seq then (post.1, true) else post).dropWhile (·.2) }

end UplinkWindow

/-- The client and the server of one session.  A POST that was admitted may arrive at any time, and an
answer may reach the client at any time after it was given. -/
structure Carrier where
  window : UplinkWindow := {}
  nextSeq : Nat := 0
  uplink : PacketUp := {}

open Transport.Carrier

inductive CarrierEvent where
  | slot
  | server (event : UplinkEvent)
  | answered (seq : Nat)

def CarrierEvent.arrivesAdmitted (nextSeq : Nat) : UplinkEvent → Bool
  | .arrive seq => decide (seq < nextSeq)
  | _ => true

namespace Carrier

def step (body : Nat → List UInt8) (carrier : Carrier) : CarrierEvent → Option Carrier
  | .slot =>
    -- `seq + 1` has to be a u64
    if carrier.nextSeq < u64Max then
      (carrier.window.tryAdmit carrier.nextSeq).map fun window =>
        { carrier with window := window, nextSeq := carrier.nextSeq + 1 }
    else none
  | .server event =>
    if CarrierEvent.arrivesAdmitted carrier.nextSeq event = true then
      (carrier.uplink.step body event).map fun uplink => { carrier with uplink := uplink }
    else none
  | .answered seq =>
    if (carrier.uplink.answers.any fun answer => answer.1 == seq && answer.2.isOk) = true then
      some { carrier with window := carrier.window.complete seq }
    else none

def someMissing (state : UplinkState) : Bool :=
  (range (uplinkReorderMaxGap + 2 - uplinkWindowPosts)).any fun i =>
    (state.reorder.lookup (state.expectedSeq + i)).isNone

def someMissingAt (carrier : Carrier) : CarrierEvent → Bool
  | .server (.arrive _) => someMissing carrier.uplink.state
  | .server (.retry _) => someMissing carrier.uplink.state
  | _ => true

structure Anchored (window : UplinkWindow) (nextSeq : Nat) (answers : List (Nat × Except UplinkIngestError Unit)) :
    Prop where
  limit : window.maxPosts = uplinkWindowPosts
  ascending : window.posts.Pairwise fun a b => a.1 < b.1
  admitted : ∀ post ∈ window.posts, post.1 < nextSeq
  finished : ∀ post ∈ window.posts, post.2 = true → (post.1, .ok ()) ∈ answers
  complete : ∀ seq < nextSeq, seq ∈ window.posts.map Prod.fst ∨ (seq, .ok ()) ∈ answers
  answered : ∀ seq < nextSeq, ∀ m, m + uplinkWindowPosts ≤ seq → (m, .ok ()) ∈ answers

variable {window next : UplinkWindow} {nextSeq seq : Nat} {answers more : List (Nat × Except UplinkIngestError Unit)}

theorem Anchored.mono (h : Anchored window nextSeq answers) (hmore : ∀ answer ∈ answers, answer ∈ more) :
    Anchored window nextSeq more where
  limit := h.limit
  ascending := h.ascending
  admitted := h.admitted
  finished := fun post hpost hdone => hmore _ (h.finished post hpost hdone)
  complete := fun seq hseq => (h.complete seq hseq).imp id (hmore _)
  answered := fun seq hseq m hm => hmore _ (h.answered seq hseq m hm)

theorem Anchored.answered_of_below (h : Anchored window nextSeq answers) {m : Nat} (hm : m < nextSeq)
    (hbelow : ∀ post ∈ window.posts, m < post.1) : (m, .ok ()) ∈ answers := by
  have hcomplete := h.complete
  grind

theorem Anchored.slot (h : Anchored window nextSeq answers) (hslot : window.tryAdmit nextSeq = some next) :
    Anchored next (nextSeq + 1) answers := by
  obtain ⟨rfl, hlow⟩ : next = { window with posts := window.posts ++ [(nextSeq, false)] } ∧
      ∀ low ∈ window.posts.head?, nextSeq - low.1 < window.maxPosts := by grind [UplinkWindow.tryAdmit]
  refine ⟨h.limit, ?_, ?_, ?_, ?_, ?_⟩
  · have hascending := h.ascending
    have hadmitted := h.admitted
    grind
  · have hadmitted := h.admitted
    grind [Nat.lt_succ_of_lt]
  · have hfinished := h.finished
    grind
  · have hcomplete := h.complete
    grind [mem_append_left]
  · intro seq hseq m hm
    have hpositive : 0 < uplinkWindowPosts := by decide
    by_cases hnew : seq = nextSeq
    · apply h.answered_of_below (by omega)
      intro post hpost
      cases hposts : window.posts with
      | nil =>
        rw [hposts] at hpost
        cases hpost
      | cons low rest =>
        have hwithin := hlow low (by rw [hposts]; rfl)
        have hascending := h.ascending
        rw [h.limit] at hwithin
        rw [hposts] at hpost hascending
        have hle : low.1 ≤ post.1 := by
          rcases mem_cons.mp hpost with rfl | hpost
          · exact Nat.le_refl _
          · exact Nat.le_of_lt ((pairwise_cons.mp hascending).1 post hpost)
        omega
    · exact h.answered seq (by omega) m hm

theorem Anchored.completed (h : Anchored window nextSeq answers) (hanswer : (seq, .ok ()) ∈ answers) :
    Anchored (window.complete seq) nextSeq answers := by
  have hkeys : (window.posts.map fun post => if post.1 = seq then (post.1, true) else post).map Prod.fst =
      window.posts.map Prod.fst := by grind [map_map, map_congr_left]
  have hmarked : ∀ post ∈ window.posts.map fun post => if post.1 = seq then (post.1, true) else post,
      post.1 < nextSeq ∧ (post.2 = true → (post.1, .ok ()) ∈ answers) := by
    intro post hpost
    obtain ⟨old, hold, rfl⟩ := mem_map.mp hpost
    by_cases hseq : old.1 = seq
    · simp only [if_pos hseq]
      exact ⟨h.admitted old hold, fun _ => hseq ▸ hanswer⟩
    · simp only [if_neg hseq]
      exact ⟨h.admitted old hold, h.finished old hold⟩
  have hsublist := dropWhile_sublist (fun post : Nat × Bool => post.2)
    (l := window.posts.map fun post => if post.1 = seq then (post.1, true) else post)
  refine ⟨h.limit, ?_, fun post hpost => (hmarked post (hsublist.subset hpost)).1,
    fun post hpost => (hmarked post (hsublist.subset hpost)).2, ?_, h.answered⟩
  · refine List.Pairwise.sublist hsublist ?_
    rw [← pairwise_map (f := Prod.fst), hkeys, pairwise_map]
    exact h.ascending
  · intro m hm
    rcases h.complete m hm with hmem | hanswered
    · rw [← hkeys, ← takeWhile_append_dropWhile (p := fun post : Nat × Bool => post.2)
        (l := window.posts.map fun post => if post.1 = seq then (post.1, true) else post), map_append] at hmem
      rcases mem_append.mp hmem with hmem | hmem
      · grind [mem_takeWhile_imp, takeWhile_sublist]
      · exact .inl hmem
    · exact .inr hanswered

/-- The session so far: the window is anchored, the server delivers in order, and no POST ran too far
ahead. -/
structure InReach (body : Nat → List UInt8) (carrier : Carrier) : Prop where
  anchored : Anchored carrier.window carrier.nextSeq carrier.uplink.answers
  delivering : Delivering body carrier.uplink
  bound : carrier.nextSeq ≤ u64Max
  held : ∀ post ∈ carrier.uplink.held, post.seq < carrier.nextSeq
  noGap : ∀ answer ∈ carrier.uplink.answers, ∀ expected got, answer.2 ≠ .error (.gapTooLarge expected got)

theorem inReach_start (body : Nat → List UInt8) : InReach body {} where
  anchored := ⟨rfl, .nil, nofun, nofun, nofun, nofun⟩
  delivering := delivering_start body
  bound := Nat.zero_le _
  held := nofun
  noGap := nofun

theorem ingestUplink_gap {state : UplinkState} {data : List UInt8} {expected got : Nat}
    (h : (state.ingestUplink seq data).2 = .error (.gapTooLarge expected got)) :
    uplinkReorderMaxGap < seq - state.expectedSeq := by
  unfold ingestUplink at h
  by_cases hgap : uplinkReorderMaxGap < seq - state.expectedSeq
  · exact hgap
  · repeat' split at h
    all_goals cases h

variable {body : Nat → List UInt8} {carrier : Carrier}

theorem InReach.within_gap (h : InReach body carrier) (hseq : seq < carrier.nextSeq)
    (hmissing : someMissing carrier.uplink.state = true) :
    ¬ uplinkReorderMaxGap < seq - carrier.uplink.state.expectedSeq := by
  intro hgap
  obtain ⟨i, hi, hnone⟩ := any_eq_true.mp hmissing
  have hi' := mem_range.mp hi
  unfold uplinkWindowPosts at hi'
  have hanswered := h.anchored.answered seq hseq (carrier.uplink.state.expectedSeq + i) (by
    unfold uplinkWindowPosts
    omega)
  rcases h.delivering.answered _ hanswered with hlt | hsome
  · omega
  · rw [Option.isNone_iff_eq_none.mp hnone] at hsome
    cases hsome

theorem InReach.attempt {uplink : PacketUp} (h : InReach body carrier) (hbody : ∀ n, body n ≠ [])
    (hseq : seq < carrier.nextSeq) (hmissing : someMissing carrier.uplink.state = true)
    (hattempt : Attempt body carrier.uplink seq uplink) :
    InReach body { carrier with uplink := uplink } where
  anchored := h.anchored.mono hattempt.kept
  delivering := (h.delivering.attempt hbody (Nat.lt_of_lt_of_le hseq h.bound) hattempt).1
  bound := h.bound
  held := by
    intro post hpost
    rcases hattempt.held post hpost with hpost | ⟨rfl, -⟩
    · exact h.held post hpost
    · exact hseq
  noGap := by
    intro answer hanswer expected got hgap
    rcases hattempt.answers answer hanswer with hold | rfl
    · exact h.noGap answer hold expected got hgap
    · exact h.within_gap hseq hmissing (ingestUplink_gap hgap)

theorem InReach.step {event : CarrierEvent} {next : Carrier} (h : InReach body carrier)
    (hbody : ∀ n, body n ≠ []) (hallowed : carrier.someMissingAt event = true)
    (hstep : carrier.step body event = some next) : InReach body next := by
  cases event with
  | slot =>
    simp only [Carrier.step] at hstep
    split at hstep
    · rename_i hbound
      obtain ⟨window, hslot, rfl⟩ := Option.map_eq_some_iff.mp hstep
      exact ⟨h.anchored.slot hslot, h.delivering, hbound,
        fun post hpost => Nat.lt_succ_of_lt (h.held post hpost), h.noGap⟩
    · cases hstep
  | answered seq =>
    simp only [Carrier.step] at hstep
    split at hstep
    · rename_i hanswer
      cases hstep
      obtain ⟨⟨seq', result⟩, hmem, hok⟩ := any_eq_true.mp hanswer
      simp only [Bool.and_eq_true, beq_iff_eq] at hok
      obtain ⟨rfl, hok⟩ := hok
      cases result with
      | error error => cases hok
      | ok result => exact { h with anchored := h.anchored.completed hmem }
    · cases hstep
  | server event =>
    simp only [Carrier.step] at hstep
    split at hstep
    · rename_i hadmitted
      obtain ⟨uplink, hserver, rfl⟩ := Option.map_eq_some_iff.mp hstep
      have hbelow : belowMax event = true := by
        cases event with
        | arrive seq =>
          exact decide_eq_true (Nat.lt_of_lt_of_le (of_decide_eq_true hadmitted) h.bound)
        | _ => rfl
      have hdelivering := (h.delivering.step hbody hbelow hserver).1
      rcases step_cases hserver with
        ⟨seq, hseq, hattempt⟩ | ⟨-, -, hkept, hanswers, hheld, -⟩ | ⟨-, chunk, rest, -, rfl⟩
      · rcases hseq with rfl | ⟨⟨index, rfl⟩, post, hpost, rfl⟩
        · exact h.attempt hbody (of_decide_eq_true hadmitted) hallowed hattempt
        · exact h.attempt hbody (h.held post hpost) hallowed hattempt
      · refine ⟨h.anchored.mono hkept, hdelivering, h.bound, fun post hpost => h.held post (hheld post hpost), ?_⟩
        intro answer hanswer expected got hgap
        rcases hanswers answer hanswer with hold | ⟨post, hpost, rfl⟩
        · exact h.noGap answer hold expected got hgap
        · have hfull := (h.delivering.held post hpost).2
          rw [Except.error.inj hgap] at hfull
          cases hfull
      · exact { h with delivering := hdelivering }
    · cases hstep

/-- While the server misses one of the next 36 bodies whenever it tries to take one, no POST of the
client is answered with a gap. -/
theorem no_gap_of_someMissing {labels : List CarrierEvent} (hbody : ∀ n, body n ≠ [])
    (hrun : Run (step body) (fun carrier event => carrier.someMissingAt event = true) {} labels carrier) :
    ∀ answer ∈ carrier.uplink.answers, ∀ expected got, answer.2 ≠ .error (.gapTooLarge expected got) :=
  (hrun.invariant (P := fun _ carrier => InReach body carrier) (inReach_start body)
    fun _ _ _ _ h hallowed hstep => h.step hbody hallowed hstep).noGap

theorem no_gap_of_someMissing_two : ∃ carrier, Run (step fun seq => [seq.toUInt8])
        (fun carrier event => carrier.someMissingAt event = true) {}
        [.slot, .slot, .server (.arrive 1), .server (.arrive 0), .answered 1] carrier ∧
      ∀ answer ∈ carrier.uplink.answers, ∀ expected got, answer.2 ≠ .error (.gapTooLarge expected got) :=
  exists_run rfl fun hrun => no_gap_of_someMissing (fun _ => cons_ne_nil _ _) hrun

section Stalled

structure FillsFirst (body : Nat → List UInt8) : Prop where
  first : (body 0).length = maxPostBytes
  others : ∀ seq ≠ 0, (body seq).length = 1

theorem FillsFirst.ne_nil (hfills : FillsFirst body) (seq : Nat) : body seq ≠ [] := by
  apply ne_nil_of_length_pos
  by_cases hseq : seq = 0
  · rw [hseq, hfills.first]
    decide
  · rw [hfills.others seq hseq]
    decide

/-- All POSTs below `seq` are answered, while the server still waits for number 1 to be queued. -/
structure Stalled (carrier : Carrier) (seq : Nat) : Prop where
  window : carrier.window = {}
  nextSeq : carrier.nextSeq = seq
  expectedSeq : carrier.uplink.state.expectedSeq = 1
  closed : carrier.uplink.state.closed = false
  reorderBytes : carrier.uplink.state.reorderBytes ≤ seq

variable {labels : List CarrierEvent}

theorem Stalled.slot (h : Stalled carrier seq) (body : Nat → List UInt8) (hseq : seq < u64Max) :
    carrier.step body .slot = some { carrier with window := { posts := [(seq, false)] }, nextSeq := seq + 1 } := by
  simp [step, h.nextSeq, h.window, hseq, UplinkWindow.tryAdmit]

theorem Stalled.post (hfills : FillsFirst body) (h : Stalled carrier seq) (hseq : 1 < seq)
    (hgap : seq - 1 ≤ uplinkReorderMaxGap) (hrun : Run (step body) (fun _ _ => True) {} labels carrier) :
    ∃ labels next, Run (step body) (fun _ _ => True) {} labels next ∧ Stalled next (seq + 1) := by
  have hlength : (body seq).length = 1 := hfills.others seq (by omega)
  have hbound : seq ≤ 65 := by
    unfold uplinkReorderMaxGap at hgap
    omega
  have hbytes := h.reorderBytes
  have hpark : carrier.uplink.state.ingestUplink seq (body seq) =
      (carrier.uplink.state.park seq (body seq), .ok ()) := by
    have hfits : ¬ uplinkReorderBufferBytesCap < carrier.uplink.state.reorderBytes + (body seq).length := by
      unfold uplinkReorderBufferBytesCap
      omega
    have hnotStale : ¬ seq < 1 := by omega
    have hnotNext : seq ≠ 1 := by omega
    simp [ingestUplink, hfills.ne_nil, h.closed, h.expectedSeq, hnotStale, hnotNext, hgap, hfits]
  have harrive : carrier.uplink.arrive body seq = { carrier.uplink with
        state := { carrier.uplink.state.park seq (body seq) with closed := false }
        answers := carrier.uplink.answers ++ [(seq, .ok ())] } := by
    simp [PacketUp.arrive, hpark, PacketUp.respond, park, h.closed]
  have hslot := h.slot body (show seq < u64Max by unfold u64Max; omega)
  have harrived : ({ carrier with window := { posts := [(seq, false)] }, nextSeq := seq + 1 } : Carrier).step
      body (.server (.arrive seq)) =
      some ⟨{ posts := [(seq, false)] }, seq + 1, carrier.uplink.arrive body seq⟩ := by
    simp [step, CarrierEvent.arrivesAdmitted, PacketUp.step]
  have hanswered : (⟨{ posts := [(seq, false)] }, seq + 1, carrier.uplink.arrive body seq⟩ : Carrier).step
      body (.answered seq) = some ⟨{}, seq + 1, carrier.uplink.arrive body seq⟩ := by
    simp [step, harrive, UplinkWindow.complete, Except.isOk, Except.toBool]
  have hrun' := ((hrun.snoc trivial hslot).snoc trivial harrived).snoc trivial hanswered
  refine ⟨_, _, hrun', rfl, rfl, ?_, ?_, ?_⟩
  · rw [harrive]
    exact h.expectedSeq
  · rw [harrive]
  · rw [harrive]
    simp only [park, hlength]
    split <;> omega

def fullQueue (body : Nat → List UInt8) : UplinkState :=
  (({} : UplinkState).park 1 (body 1)).enqueue (body 0)

section

variable (hfills : FillsFirst body)

include hfills

theorem ingestUplink_fullQueue :
    (({} : UplinkState).park 1 (body 1)).ingestUplink 0 (body 0) = (fullQueue body, .ok ()) := by
  have hnext : (fullQueue body).reorder.lookup (fullQueue body).expectedSeq = some (body 1) := rfl
  have hfull : uplinkReadyBytesCap < (fullQueue body).readyBytes + (body 1).length := by
    simp only [fullQueue, enqueue, park, hfills.first, hfills.others 1 Nat.one_ne_zero]
    decide
  have hpromoted : (fullQueue body).promoteParked = fullQueue body := promoteWithin_of_full hnext hfull _
  rw [← hpromoted]
  simp [ingestUplink, hfills.ne_nil, park, fullQueue]

theorem ingestUplink_early :
    ({} : UplinkState).ingestUplink 1 (body 1) = (({} : UplinkState).park 1 (body 1), .ok ()) := by
  simp [ingestUplink, hfills.ne_nil, hfills.others 1 Nat.one_ne_zero, uplinkReorderMaxGap,
    uplinkReorderBufferBytesCap]

theorem exists_stalled : ∃ labels carrier,
    Run (step body) (fun _ _ => True) {} labels carrier ∧ Stalled carrier 2 := by
  let parked : PacketUp := ⟨({} : UplinkState).park 1 (body 1), [], [(1, .ok ())], []⟩
  let queued : PacketUp := ⟨fullQueue body, [], [(1, .ok ()), (0, .ok ())], []⟩
  have hparked : ({} : PacketUp).arrive body 1 = parked := by
    simp only [PacketUp.arrive, ingestUplink_early hfills]
    rfl
  have hqueued : parked.arrive body 0 = queued := by
    simp only [PacketUp.arrive, parked, ingestUplink_fullQueue hfills]
    rfl
  have hslot : ({} : Carrier).step body .slot = some ⟨{ posts := [(0, false)] }, 1, {}⟩ := rfl
  have hslot' : (⟨{ posts := [(0, false)] }, 1, {}⟩ : Carrier).step body .slot =
      some ⟨{ posts := [(0, false), (1, false)] }, 2, {}⟩ := rfl
  have harrive : (⟨{ posts := [(0, false), (1, false)] }, 2, {}⟩ : Carrier).step body (.server (.arrive 1)) =
      some ⟨{ posts := [(0, false), (1, false)] }, 2, parked⟩ := by
    simp [step, CarrierEvent.arrivesAdmitted, PacketUp.step, hparked]
  have harrive' : (⟨{ posts := [(0, false), (1, false)] }, 2, parked⟩ : Carrier).step body
      (.server (.arrive 0)) = some ⟨{ posts := [(0, false), (1, false)] }, 2, queued⟩ := by
    simp [step, CarrierEvent.arrivesAdmitted, PacketUp.step, hqueued]
  have hanswered : (⟨{ posts := [(0, false), (1, false)] }, 2, queued⟩ : Carrier).step body (.answered 1) =
      some ⟨{ posts := [(0, false), (1, true)] }, 2, queued⟩ := rfl
  have hanswered' : (⟨{ posts := [(0, false), (1, true)] }, 2, queued⟩ : Carrier).step body (.answered 0) =
      some ⟨{}, 2, queued⟩ := rfl
  have hstart : Run (step body) (fun _ _ => True) {} [] {} := .refl
  have hrun := (((((hstart.snoc trivial hslot).snoc trivial hslot').snoc trivial harrive).snoc trivial
    harrive').snoc trivial hanswered).snoc trivial hanswered'
  refine ⟨_, _, hrun, rfl, rfl, rfl, rfl, ?_⟩
  have hbytes : (fullQueue body).reorderBytes ≤ 2 := by
    simp [fullQueue, enqueue, park, hfills.others 1 Nat.one_ne_zero]
  exact hbytes

theorem exists_stalled_at {n : Nat} (hn : n ≤ 64) : ∃ labels carrier,
    Run (step body) (fun _ _ => True) {} labels carrier ∧ Stalled carrier (n + 2) := by
  induction n with
  | zero => exact exists_stalled hfills
  | succ n ih =>
    obtain ⟨labels, carrier, hrun, hstalled⟩ := ih (by omega)
    exact hstalled.post hfills (by omega) (by unfold uplinkReorderMaxGap; omega) hrun

theorem exists_gap : ∃ labels carrier, Run (step body) (fun _ _ => True) {} labels carrier ∧
      (66, .error (.gapTooLarge 1 66)) ∈ carrier.uplink.answers := by
  obtain ⟨labels, carrier, hrun, hstalled⟩ := exists_stalled_at hfills (Nat.le_refl 64)
  have hgap : carrier.uplink.state.ingestUplink 66 (body 66) =
      (carrier.uplink.state, .error (.gapTooLarge 1 66)) := by
    simp [ingestUplink, hfills.ne_nil, hstalled.closed, hstalled.expectedSeq, uplinkReorderMaxGap]
  have hslot := hstalled.slot body (by decide)
  have harrived : ({ carrier with window := { posts := [(66, false)] }, nextSeq := 67 } : Carrier).step
      body (.server (.arrive 66)) = some ⟨{ posts := [(66, false)] }, 67, carrier.uplink.arrive body 66⟩ := by
    simp [step, CarrierEvent.arrivesAdmitted, PacketUp.step]
  refine ⟨_, _, (hrun.snoc trivial hslot).snoc trivial harrived, ?_⟩
  simp [arrive, hgap, UplinkIngestError.isFull, respond]

end

def fillFirst (seq : Nat) : List UInt8 := replicate (if seq = 0 then maxPostBytes else 1) 0

theorem fillsFirst_fillFirst : FillsFirst fillFirst where
  first := length_replicate
  others seq hseq := by rw [fillFirst, length_replicate, if_neg hseq]

/-- Bodies of at most the largest size, POSTs sent only after they were admitted, a relay that pauses:
number 66 is admitted while the server waits for number 1 and is answered with a gap. -/
theorem admitted_post_trips_gap : (∀ seq, fillFirst seq ≠ [] ∧ (fillFirst seq).length ≤ maxPostBytes) ∧
    ∃ labels carrier, Run (step fillFirst) (fun _ _ => True) {} labels carrier ∧
      (66, .error (.gapTooLarge 1 66)) ∈ carrier.uplink.answers := by
  refine ⟨fun seq => ⟨fillsFirst_fillFirst.ne_nil seq, ?_⟩, exists_gap fillsFirst_fillFirst⟩
  rw [fillFirst, length_replicate]
  split <;> decide

end Stalled

end Carrier

end OutlineProxy.Transport
