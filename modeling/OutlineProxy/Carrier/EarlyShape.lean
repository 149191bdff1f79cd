import Mathlib.Algebra.Ring.Nat

/-! Early-session shaping: the first messages of a session are cut into pieces and led in by covers.  What the
code panics on gives `none`. -/

namespace OutlineProxy.Carrier

inductive ShapeDirection where
  | clientToServer
  | serverToClient
deriving DecidableEq

structure ShapePlan where
  covers : List Nat
  pieces : List Nat
deriving DecidableEq

structure EarlyShaper where
  direction : ShapeDirection
  msgsLeft : Nat
  bytesLeft : Nat
  coversPending : Bool
deriving DecidableEq

/-- The answers of `draw` while one function runs, by the number of draws before it. They may be anything. -/
abbrev Draw := Nat → Nat → Nat → Nat

def windowMsgs : Nat × Nat := (6, 10)
def windowBytes : Nat × Nat := (16 * 1024, 24 * 1024)
def c2sSplitAbove : Nat := 900
def c2sPiece : Nat × Nat := (300, 850)
def s2cSplitAbove : Nat := 1500
def s2cPiece : Nat × Nat := (600, 2800)
def coverCount : Nat × Nat := (1, 2)
def coverPad : Nat × Nat := (40, 100)

def checkedSub (a b : Nat) : Option Nat := if b ≤ a then some (a - b) else none

def clamp (x low high : Nat) : Option Nat := if low ≤ high then some (max low (min x high)) else none

def EarlyShaper.new (direction : ShapeDirection) (coversAllowed : Bool) (draw : Draw) : EarlyShaper where
  direction := direction
  msgsLeft := draw 0 windowMsgs.1 windowMsgs.2
  bytesLeft := draw 1 windowBytes.1 windowBytes.2
  coversPending := coversAllowed && direction == .clientToServer && draw 2 0 1 == 1

def EarlyShaper.isActive (shaper : EarlyShaper) : Bool :=
  decide (0 < shaper.msgsLeft) && decide (0 < shaper.bytesLeft)

def splitAbove : ShapeDirection → Nat
  | .clientToServer => c2sSplitAbove
  | .serverToClient => s2cSplitAbove

def pieceRange : ShapeDirection → Nat × Nat
  | .clientToServer => c2sPiece
  | .serverToClient => s2cPiece

def drawCovers (draw : Draw) : Option (List Nat) := do
  let count ← clamp (draw 0 coverCount.1 coverCount.2) coverCount.1 coverCount.2
  (List.range count).mapM fun i => clamp (draw (1 + i) coverPad.1 coverPad.2) coverPad.1 coverPad.2

def coversFor (pending : Bool) (draw : Draw) : Option (List Nat) := if pending then drawCovers draw else some []

def unshapedTail (len shaped : Nat) : Option (List Nat) :=
  if shaped < len then (checkedSub len shaped).map fun n => [n] else some []

def cutPieces (piece : Nat × Nat) (draw : Draw) : Nat → Nat → Nat → Option (List Nat)
  | 0, _, _ => none
  | fuel + 1, i, left =>
    if left < 2 * piece.1 then none
    else do
      let room ← checkedSub left piece.1
      let hi := min piece.2 room
      let p ← clamp (draw i piece.1 hi) piece.1 hi
      let left ← checkedSub left p
      if left ≤ piece.2 then
        if left < piece.1 then none else some [p, left]
      else
        let rest ← cutPieces piece draw fuel (i + 1) left
        some (p :: rest)

def EarlyShaper.plan (shaper : EarlyShaper) (len : Nat) (draw : Draw) : Option (EarlyShaper × ShapePlan) :=
  if len = 0 ∨ shaper.isActive = false then some (shaper, ⟨[], [len]⟩)
  else do
    let msgsLeft ← checkedSub shaper.msgsLeft 1
    let shaped := min len shaper.bytesLeft
    let bytesLeft ← checkedSub shaper.bytesLeft shaped
    let shaper := { shaper with msgsLeft := msgsLeft, bytesLeft := bytesLeft }
    if len ≤ splitAbove shaper.direction ∨ shaped ≤ splitAbove shaper.direction then
      some (shaper, ⟨[], [len]⟩)
    else do
      let covers ← coversFor shaper.coversPending draw
      let drawn := if shaper.coversPending then 1 + covers.length else 0
      let pieces ← cutPieces (pieceRange shaper.direction) draw shaped drawn shaped
      let unshaped ← unshapedTail len shaped
      some ({ shaper with coversPending := false }, ⟨covers, pieces ++ unshaped⟩)

variable {shaper next : EarlyShaper} {plan : ShapePlan} {len : Nat} {piece : Nat × Nat}

theorem checkedSub_of_le {a b : Nat} (h : b ≤ a) : checkedSub a b = some (a - b) := if_pos h

theorem clamp_of_le {x low high : Nat} (h : low ≤ high) : clamp x low high = some (max low (min x high)) := if_pos h

theorem unshapedTail_eq (len shaped : Nat) :
    unshapedTail len shaped = some (if shaped < len then [len - shaped] else []) := by
  unfold unshapedTail
  split
  next hlt => rw [checkedSub_of_le (Nat.le_of_lt hlt), Option.map_some]
  · rfl

/-- With `left` at twice the floor or more, every turn leaves a floor's worth for the next piece. -/
theorem cutPieces_spec (draw : Draw) (hfloor : 0 < piece.1) (hwide : 2 * piece.1 ≤ piece.2) {fuel : Nat} (i : Nat)
    {left : Nat} (hleft : 2 * piece.1 ≤ left) (hfuel : left ≤ fuel) :
    ∃ pieces, cutPieces piece draw fuel i left = some pieces ∧ pieces.sum = left ∧ 2 ≤ pieces.length ∧
      ∀ p ∈ pieces, piece.1 ≤ p ∧ p ≤ piece.2 := by
  induction fuel generalizing i left with
  | zero => omega
  | succ fuel ih =>
    have hhi : piece.1 ≤ min piece.2 (left - piece.1) := by omega
    have hclamp := clamp_of_le (x := draw i piece.1 (min piece.2 (left - piece.1))) hhi
    generalize hp : max piece.1 (min (draw i piece.1 (min piece.2 (left - piece.1))) (min piece.2 (left - piece.1))) = p
      at hclamp
    have hlow : piece.1 ≤ p := by omega
    have hhigh : p ≤ min piece.2 (left - piece.1) := by omega
    clear hp
    have hroom := checkedSub_of_le (show piece.1 ≤ left by omega)
    have htaken := checkedSub_of_le (show p ≤ left by omega)
    by_cases hlast : left - p ≤ piece.2
    · refine ⟨[p, left - p], ?_, by simp; omega, by simp, ?_⟩
      · grind [cutPieces, Option.bind_eq_bind]
      · grind
    · obtain ⟨rest, hrest, hsum, hlength, hrange⟩ := ih (i + 1) (show 2 * piece.1 ≤ left - p by omega) (by omega)
      refine ⟨p :: rest, ?_, by simp [hsum]; omega, by simp; omega, ?_⟩
      · simp only [cutPieces, hroom, hclamp, htaken, hrest, Option.bind_eq_bind, Option.bind_some]
        rw [if_neg (by omega), if_neg hlast]
      · rw [List.forall_mem_cons]
        exact ⟨by omega, hrange⟩

theorem coversFor_spec (pending : Bool) (draw : Draw) :
    ∃ covers, coversFor pending draw = some covers ∧ (covers ≠ [] → pending = true) := by
  cases pending with
  | false => exact ⟨[], rfl, fun hne => absurd rfl hne⟩
  | true =>
    have hpads : (fun i => clamp (draw (1 + i) coverPad.1 coverPad.2) coverPad.1 coverPad.2) =
        fun i => some _ := funext fun i => clamp_of_le (by decide)
    exact ⟨_, List.mapM_pure, fun _ => rfl⟩

def EarlyShaper.shaped (shaper : EarlyShaper) (len : Nat) : Nat :=
  if len = 0 ∨ shaper.isActive = false then 0 else min len shaper.bytesLeft

structure Plans (shaper : EarlyShaper) (len : Nat) (next : EarlyShaper) (plan : ShapePlan) : Prop where
  direction : next.direction = shaper.direction
  bytes : shaper.shaped len + next.bytesLeft = shaper.bytesLeft
  sum : plan.pieces.sum = len
  whole : shaper.shaped len ≤ splitAbove shaper.direction → plan.pieces = [len]
  split : splitAbove shaper.direction < shaper.shaped len → ∃ cut,
    plan.pieces = cut ++ (if shaper.shaped len < len then [len - shaper.shaped len] else []) ∧ 2 ≤ cut.length ∧
      ∀ p ∈ cut, (pieceRange shaper.direction).1 ≤ p ∧ p ≤ (pieceRange shaper.direction).2
  covers : plan.covers ≠ [] → shaper.coversPending = true ∧ next.coversPending = false
  pending : next.coversPending = true → shaper.coversPending = true

theorem plan_spec (shaper : EarlyShaper) (len : Nat) (draw : Draw) :
    ∃ next plan, shaper.plan len draw = some (next, plan) ∧ Plans shaper len next plan := by
  obtain ⟨hfloor, hwide, habove⟩ : 0 < (pieceRange shaper.direction).1 ∧
      2 * (pieceRange shaper.direction).1 ≤ (pieceRange shaper.direction).2 ∧
        2 * (pieceRange shaper.direction).1 ≤ splitAbove shaper.direction := by cases shaper.direction <;> decide
  by_cases hopen : len = 0 ∨ shaper.isActive = false
  · have hshaped : shaper.shaped len = 0 := if_pos hopen
    exact ⟨shaper, ⟨[], [len]⟩, if_pos hopen, rfl, by simp [hshaped], by simp, fun _ => rfl,
      fun hlt => absurd hlt (by omega), fun hcovers => absurd rfl hcovers, id⟩
  have hshaped : shaper.shaped len = min len shaper.bytesLeft := if_neg hopen
  have hactive : 0 < shaper.msgsLeft ∧ 0 < shaper.bytesLeft := by
    simpa [EarlyShaper.isActive, Nat.pos_iff_ne_zero] using (not_or.1 hopen).2
  have hmsgs := checkedSub_of_le (show 1 ≤ shaper.msgsLeft by omega)
  have hbytes := checkedSub_of_le (show min len shaper.bytesLeft ≤ shaper.bytesLeft by omega)
  unfold EarlyShaper.plan
  simp only [hopen, if_false, hmsgs, hbytes, Option.bind_eq_bind, Option.bind_some]
  split
  next hsmall =>
    exact ⟨_, _, rfl, rfl, by dsimp only; omega, by simp, fun _ => rfl, fun hlt => absurd hlt (by omega),
      fun hcovers => absurd rfl hcovers, id⟩
  next hlarge =>
    obtain ⟨covers, hcovers, hpending⟩ := coversFor_spec shaper.coversPending draw
    obtain ⟨cut, hcut, hsum, hlength, hrange⟩ := cutPieces_spec draw hfloor hwide
      (if shaper.coversPending then 1 + covers.length else 0)
      (show 2 * (pieceRange shaper.direction).1 ≤ min len shaper.bytesLeft by omega) le_rfl
    simp only [hcovers, hcut, unshapedTail_eq, Option.bind_some]
    refine ⟨_, _, rfl, rfl, by dsimp only; omega, ?_, fun hle => absurd hle (by omega), fun _ => ?_,
      fun hne => ⟨hpending hne, rfl⟩, fun hfalse => by cases hfalse⟩
    · split <;> simp <;> omega
    · rw [hshaped]
      exact ⟨cut, rfl, hlength, hrange⟩

structure ShapedMessage where
  len : Nat
  shaped : Nat
  plan : ShapePlan

inductive Session (direction : ShapeDirection) (coversAllowed : Bool) (drawn : Draw) :
    EarlyShaper → List ShapedMessage → Prop
  | new : Session direction coversAllowed drawn (.new direction coversAllowed drawn) []
  | plan {shaper next : EarlyShaper} {past : List ShapedMessage} {made : ShapePlan} (len : Nat) (draw : Draw)
      (run : Session direction coversAllowed drawn shaper past) (hplan : shaper.plan len draw = some (next, made)) :
      Session direction coversAllowed drawn next (⟨len, shaper.shaped len, made⟩ :: past)

section Sessions

variable {direction : ShapeDirection} {coversAllowed : Bool} {drawn : Draw} {past : List ShapedMessage}

def leadIns (past : List ShapedMessage) : List ShapedMessage := past.filter fun message => message.plan.covers ≠ []

structure SessionInv (direction : ShapeDirection) (coversAllowed : Bool) (window : Nat) (shaper : EarlyShaper)
    (past : List ShapedMessage) : Prop where
  way : shaper.direction = direction
  window : (past.map ShapedMessage.shaped).sum + shaper.bytesLeft = window
  once : (leadIns past).length ≤ 1
  pending : shaper.coversPending = true → leadIns past = []
  allowed : shaper.coversPending = true ∨ leadIns past ≠ [] → direction = .clientToServer ∧ coversAllowed = true

theorem Session.inv (h : Session direction coversAllowed drawn shaper past) :
    SessionInv direction coversAllowed (drawn 1 windowBytes.1 windowBytes.2) shaper past := by
  induction h with
  | new =>
    refine ⟨rfl, by simp [EarlyShaper.new], by simp [leadIns], fun _ => rfl, fun hpending => ?_⟩
    simp only [EarlyShaper.new, leadIns, List.filter_nil, ne_eq, not_true_eq_false, or_false, Bool.and_eq_true,
      beq_iff_eq] at hpending
    exact ⟨hpending.1.2, hpending.1.1⟩
  | @plan shaper next past made len draw _ hplan ih =>
    obtain ⟨_, _, hspec, hplans⟩ := plan_spec shaper len draw
    rw [hplan] at hspec
    cases hspec
    have hway := hplans.direction.trans ih.way
    have hwindow : shaper.shaped len + (past.map ShapedMessage.shaped).sum + next.bytesLeft =
        drawn 1 windowBytes.1 windowBytes.2 := by
      have hbytes := hplans.bytes
      have hpast := ih.window
      omega
    by_cases hcovers : made.covers = []
    · have hsame : leadIns (⟨len, shaper.shaped len, made⟩ :: past) = leadIns past := by simp [leadIns, hcovers]
      exact ⟨hway, hwindow, hsame ▸ ih.once, fun hnext => hsame.trans (ih.pending (hplans.pending hnext)),
        fun hlead => ih.allowed (hlead.imp hplans.pending fun hne => hsame ▸ hne)⟩
    · obtain ⟨hbefore, hafter⟩ := hplans.covers hcovers
      have hfirst : leadIns (⟨len, shaper.shaped len, made⟩ :: past) = [⟨len, shaper.shaped len, made⟩] := by
        have hnone := ih.pending hbefore
        simpa [leadIns, hcovers] using hnone
      exact ⟨hway, hwindow, by simp [hfirst], fun hnext => absurd hnext (by simp [hafter]),
        fun _ => ih.allowed (.inl hbefore)⟩

/-- Early shaping cuts a message without loss, and within a session stays in the window it has drawn. -/
theorem early_shaping_keeps_stream (h : Session direction coversAllowed drawn shaper past) :
    (∀ len draw, ∃ next made, shaper.plan len draw = some (next, made) ∧ made.pieces.sum = len ∧
      (shaper.shaped len ≤ splitAbove direction → made.pieces = [len]) ∧
      (splitAbove direction < shaper.shaped len → ∃ cut,
        made.pieces = cut ++ (if shaper.shaped len < len then [len - shaper.shaped len] else []) ∧
          2 ≤ cut.length ∧ ∀ p ∈ cut, (pieceRange direction).1 ≤ p ∧ p ≤ (pieceRange direction).2)) ∧
      (past.map ShapedMessage.shaped).sum ≤ drawn 1 windowBytes.1 windowBytes.2 ∧ (leadIns past).length ≤ 1 ∧
      (leadIns past ≠ [] → direction = .clientToServer ∧ coversAllowed = true) := by
  obtain ⟨rfl, hwindow, honce, -, hallowed⟩ := h.inv
  refine ⟨fun len draw => ?_, by omega, honce, fun hne => hallowed (.inr hne)⟩
  obtain ⟨next, made, hplan, hplans⟩ := plan_spec shaper len draw
  exact ⟨next, made, hplan, hplans.sum, hplans.whole, hplans.split⟩

/-- A first message of 1000 bytes with every draw at its lower bound. -/
theorem early_shaping_keeps_stream_first :
    Session .clientToServer true (fun _ low _ => low) ⟨.clientToServer, 5, 15384, false⟩
        [⟨1000, 1000, ⟨[], [300, 700]⟩⟩] ∧ [300, 700].sum = 1000 ∧ 1000 ≤ 16384 := by
  have hrun : Session .clientToServer true (fun _ low _ => low) ⟨.clientToServer, 5, 15384, false⟩
      [⟨1000, 1000, ⟨[], [300, 700]⟩⟩] := .plan 1000 (fun _ low _ => low) .new (by decide)
  obtain ⟨-, hwindow, -⟩ := early_shaping_keeps_stream hrun
  exact ⟨hrun, rfl, hwindow⟩

end Sessions

end OutlineProxy.Carrier
