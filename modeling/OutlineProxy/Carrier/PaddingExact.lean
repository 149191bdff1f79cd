import OutlineProxy.Carrier.Padding

/-! What the decoder does on a stream of frames, however it is cut. -/

namespace OutlineProxy.Carrier

open List Sealing PaddingDecoder

structure PaddingFrame where
  real : List UInt8
  pad : List UInt8
  real_le : real.length ≤ maxPaddingSegment
  pad_le : pad.length ≤ maxPaddingSegment

open PaddingFrame

namespace PaddingFrame

def bytes (f : PaddingFrame) : List UInt8 := toBe 2 f.real.length ++ (toBe 2 f.pad.length ++ (f.real ++ f.pad))

def total (f : PaddingFrame) : Nat := 4 + f.real.length + f.pad.length

def Signals (f : PaddingFrame) : Prop := f.real = [] ∧ 6 ≤ f.pad.length ∧ (parseControl (f.pad.take 6)).isSome

theorem length_bytes (f : PaddingFrame) : f.bytes.length = f.total := by
  simp only [bytes, total, length_append, length_toBe]
  omega

end PaddingFrame

section Within

variable {f : PaddingFrame} {k : Nat} {d : PaddingDecoder}

def Within (f : PaddingFrame) (k : Nat) (d : PaddingDecoder) : Prop :=
  (k < 4 ∧ d.state = .header ∧ d.header = f.bytes.take k) ∨
  (4 ≤ k ∧ k < 4 + f.real.length ∧ d.state = .real (4 + f.real.length - k) f.pad.length ∧ d.header = []) ∨
  (4 + f.real.length ≤ k ∧ k < f.total ∧ d.state = .pad (f.total - k) (f.real = []) ∧ d.header = [] ∧
    (f.real = [] → d.ctrl = (f.pad.take (k - 4)).take controlPrefixLen)) ∨
  (k = f.total ∧ d.state = .header ∧ d.header = [])

theorem bytes_take_four (f : PaddingFrame) : f.bytes.take 4 = toBe 2 f.real.length ++ toBe 2 f.pad.length := by
  rw [bytes, ← append_assoc]
  exact take_left' (by simp)

theorem afterHeader_bytes (f : PaddingFrame) (d : PaddingDecoder) :
    d.afterHeader (f.bytes.take 4) = { d with
      state := nextAfterHeader f.real.length f.pad.length
      header := []
      ctrl := if f.real.length = 0 then [] else d.ctrl } := by
  have hreal : ofBe (toBe 2 f.real.length) = f.real.length := ofBe_toBe (Nat.lt_of_le_of_lt f.real_le (by decide))
  have hpad : ofBe (toBe 2 f.pad.length) = f.pad.length := ofBe_toBe (Nat.lt_of_le_of_lt f.pad_le (by decide))
  have htake : (toBe 2 f.real.length ++ toBe 2 f.pad.length).take 2 = toBe 2 f.real.length := take_left' (by simp)
  have hdrop : (toBe 2 f.real.length ++ toBe 2 f.pad.length).drop 2 = toBe 2 f.pad.length := drop_left' (by simp)
  rw [bytes_take_four, afterHeader, htake, hdrop, hreal, hpad]

theorem within_afterHeader (f : PaddingFrame) (d : PaddingDecoder) : Within f 4 (d.afterHeader (f.bytes.take 4)) := by
  rw [afterHeader_bytes]
  by_cases hreal : 0 < f.real.length
  · refine .inr (.inl ⟨Nat.le_refl _, by omega, ?_, rfl⟩)
    dsimp only
    rw [nextAfterHeader, if_pos hreal, Nat.add_sub_cancel_left]
  have hnil : f.real = [] := length_eq_zero_iff.mp (by omega)
  by_cases hpad : 0 < f.pad.length
  · refine .inr (.inr (.inl ⟨by omega, by rw [total]; omega, ?_, rfl, ?_⟩))
    · dsimp only
      rw [nextAfterHeader, if_neg hreal, if_pos hpad, total, hnil]
      simp
    · intro _
      simp [hnil]
  · refine .inr (.inr (.inr ⟨by rw [total]; omega, ?_, rfl⟩))
    dsimp only
    rw [nextAfterHeader, if_neg hreal, if_neg hpad]

variable {input more rest : List UInt8} {t : Nat}

theorem drop_bytes (f : PaddingFrame) (h : 4 ≤ k) : f.bytes.drop k = (f.real ++ f.pad).drop (k - 4) := by
  have hfour : f.bytes.drop 4 = f.real ++ f.pad := by
    rw [bytes, ← append_assoc]
    exact drop_left' (by simp)
  rw [← hfour, drop_drop, Nat.add_sub_cancel' h]

theorem take_next (hnext : f.bytes.drop k ++ more = input ++ rest) (hinput : t ≤ input.length)
    (hfit : k + t ≤ f.total) :
    input.take t = (f.bytes.drop k).take t := by
  have hlength : t ≤ (f.bytes.drop k).length := by
    rw [length_drop, f.length_bytes]
    omega
  rw [← take_append_of_le_length hlength, hnext, take_append_of_le_length hinput]

theorem probe_pad {pad : List UInt8} {m : Nat} (hctrl : d.ctrl = (pad.take m).take controlPrefixLen)
    (hfit : m + t ≤ pad.length) : (d.probe ((pad.drop m).take t)).ctrl = (pad.take (m + t)).take controlPrefixLen ∧
      ((d.probe ((pad.drop m).take t)).pendingControl.isSome ↔ d.pendingControl.isSome ∨
        m < controlPrefixLen ∧ controlPrefixLen ≤ m + t ∧ (parseControl (pad.take controlPrefixLen)).isSome) := by
  have hlength : d.ctrl.length = min controlPrefixLen m := by
    rw [hctrl, length_take, length_take_of_le (by omega)]
  by_cases hpart : m < controlPrefixLen
  · have hctrl' : d.ctrl ++ ((pad.drop m).take t).take (controlPrefixLen - d.ctrl.length) =
        (pad.take (m + t)).take controlPrefixLen := by
      rw [hlength, Nat.min_eq_right (Nat.le_of_lt hpart), hctrl, take_take, take_take, take_take,
        Nat.min_eq_right (Nat.le_of_lt hpart), ← take_add]
      congr 1
      omega
    have hlength' : ((pad.take (m + t)).take controlPrefixLen).length = min controlPrefixLen (m + t) := by
      rw [length_take, length_take_of_le hfit]
    rw [probe, if_pos (by omega)]
    dsimp only
    rw [hctrl', hlength']
    refine ⟨rfl, ?_⟩
    by_cases hlast : controlPrefixLen ≤ m + t
    · rw [if_pos (Nat.min_eq_left hlast), take_take, Nat.min_eq_left hlast, Option.isSome_or]
      simp [hpart, hlast, or_comm]
    · rw [if_neg (by omega)]
      simp [hlast]
  · rw [probe, if_neg (by omega), hctrl, take_take, take_take, Nat.min_eq_left (by omega),
      Nat.min_eq_left (by omega)]
    simp [hpart]

/-- What one turn of the loop does with `t` bytes of a frame: the decoder gets on, hands out the payload among them, and
notes the signal that they complete. -/
structure Stepped (f : PaddingFrame) (k t : Nat) (d : PaddingDecoder) (input : List UInt8) : Prop where
  pos : 0 < t
  le : t ≤ input.length
  fits : k + t ≤ f.total
  within : Within f (k + t) (d.pushStep input).1
  rest : (d.pushStep input).2.1 = input.drop t
  payload : f.real.take (k - 4) ++ (d.pushStep input).2.2 = f.real.take (k + t - 4)
  signal : (d.pushStep input).1.pendingControl.isSome ↔ d.pendingControl.isSome ∨ f.Signals ∧ k < 10 ∧ 10 ≤ k + t

theorem stepped_header (hnext : f.bytes.drop k ++ more = input ++ rest) (hinput : input ≠ []) (hk : k < 4)
    (hstate : d.state = .header) (hheader : d.header = f.bytes.take k) : ∃ t, Stepped f k t d input := by
  have hpos := length_pos_of_ne_nil hinput
  have htotal : f.total = 4 + f.real.length + f.pad.length := rfl
  have hpart : d.header.length = k := by rw [hheader, length_take_of_le (by rw [f.length_bytes]; omega)]
  obtain ⟨t, ht⟩ : ∃ t, t = min (4 - k) input.length := ⟨_, rfl⟩
  have hheader' : d.header ++ input.take t = f.bytes.take (k + t) := by
    rw [take_next hnext (by omega) (by omega), hheader, take_add]
  have hlength : (f.bytes.take (k + t)).length = k + t := length_take_of_le (by rw [f.length_bytes]; omega)
  have hstep : d.pushStep input = (if k + t = 4 then d.afterHeader (f.bytes.take (k + t))
      else { d with header := f.bytes.take (k + t) }, input.drop t, []) := by
    rw [pushStep, hstate]
    dsimp only
    rw [hpart, paddingFrameHeaderLen, ← ht, hheader', hlength]
  have hout : f.real.take (k - 4) ++ [] = f.real.take (k + t - 4) := by
    rw [show k - 4 = 0 by omega, show k + t - 4 = 0 by omega]
    rfl
  refine ⟨t, by omega, by omega, by omega, ?_, by rw [hstep], by rw [hstep]; exact hout, ?_⟩
  · rw [hstep]
    by_cases hlast : k + t = 4
    · rw [if_pos hlast, hlast]
      exact within_afterHeader f d
    · rw [if_neg hlast]
      exact .inl ⟨by omega, hstate, rfl⟩
  · have hkeep : (d.pushStep input).1.pendingControl = d.pendingControl := by
      rw [hstep]
      split <;> rfl
    rw [hkeep]
    exact ⟨.inl, fun h => h.resolve_right fun h => by omega⟩

theorem stepped_real (hnext : f.bytes.drop k ++ more = input ++ rest) (hinput : input ≠ []) (hmin : 4 ≤ k)
    (hmax : k < 4 + f.real.length) (hstate : d.state = .real (4 + f.real.length - k) f.pad.length)
    (hheader : d.header = []) : ∃ t, Stepped f k t d input := by
  have hpos := length_pos_of_ne_nil hinput
  have htotal : f.total = 4 + f.real.length + f.pad.length := rfl
  obtain ⟨t, ht⟩ : ∃ t, t = min (4 + f.real.length - k) input.length := ⟨_, rfl⟩
  have hstep : d.pushStep input =
      ({ d with state := nextAfterReal (4 + f.real.length - k - t) f.pad.length }, input.drop t, input.take t) := by
    rw [pushStep, hstate]
    dsimp only
    rw [← ht]
  have hsome : f.real ≠ [] := by
    intro hnil
    rw [hnil, length_nil] at hmax
    omega
  refine ⟨t, by omega, by omega, by omega, ?_, by rw [hstep], ?_, ?_⟩
  · rw [hstep]
    by_cases hlast : k + t < 4 + f.real.length
    · refine .inr (.inl ⟨by omega, hlast, ?_, hheader⟩)
      dsimp only
      rw [nextAfterReal, if_pos (by omega), Nat.sub_sub]
    by_cases hpad : 0 < f.pad.length
    · refine .inr (.inr (.inl ⟨by omega, by omega, ?_, hheader, fun h => absurd h hsome⟩))
      dsimp only
      rw [nextAfterReal, if_neg (by omega), if_pos hpad, decide_eq_false hsome]
      congr 1
      omega
    · refine .inr (.inr (.inr ⟨by omega, ?_, hheader⟩))
      dsimp only
      rw [nextAfterReal, if_neg (by omega), if_neg hpad]
  · have hreal : input.take t = (f.real.drop (k - 4)).take t := by
      rw [take_next hnext (by omega) (by omega), drop_bytes f hmin, drop_append_of_le_length (by omega),
        take_append_of_le_length (by rw [length_drop]; omega)]
    rw [hstep, hreal, ← take_add, show k - 4 + t = k + t - 4 by omega]
  · rw [hstep]
    exact ⟨.inl, fun h => h.resolve_right fun h => hsome h.1.1⟩

theorem stepped_pad (hnext : f.bytes.drop k ++ more = input ++ rest) (hinput : input ≠ [])
    (hmin : 4 + f.real.length ≤ k) (hlt : k < f.total) (hstate : d.state = .pad (f.total - k) (f.real = []))
    (hheader : d.header = []) (hctrl : f.real = [] → d.ctrl = (f.pad.take (k - 4)).take controlPrefixLen) :
    ∃ t, Stepped f k t d input := by
  have hpos := length_pos_of_ne_nil hinput
  obtain ⟨t, ht⟩ : ∃ t, t = min (f.total - k) input.length := ⟨_, rfl⟩
  have hstep : d.pushStep input = ({ (if f.real = [] then d.probe (input.take t) else d) with
      state := nextAfterPad (f.total - k - t) (f.real = []) }, input.drop t, []) := by
    rw [pushStep, hstate]
    simp only [decide_eq_true_eq, ← ht]
  have hwithin : ∀ next : PaddingDecoder, next.state = nextAfterPad (f.total - k - t) (f.real = []) →
      next.header = [] → (f.real = [] → next.ctrl = (f.pad.take (k + t - 4)).take controlPrefixLen) →
      Within f (k + t) next := by
    intro next hnext hheader hctrl
    by_cases hlast : k + t = f.total
    · refine .inr (.inr (.inr ⟨hlast, ?_, hheader⟩))
      rw [hnext, nextAfterPad, if_neg (by omega)]
    · refine .inr (.inr (.inl ⟨by omega, by omega, ?_, hheader, hctrl⟩))
      rw [hnext, nextAfterPad, if_pos (by omega), Nat.sub_sub]
  have hout : f.real.take (k - 4) ++ [] = f.real.take (k + t - 4) := by
    rw [append_nil, take_of_length_le (by omega), take_of_length_le (by omega)]
  by_cases hnil : f.real = []
  · have htotal : f.total = 4 + f.pad.length := by rw [total, hnil, length_nil, Nat.add_zero]
    have hpad : input.take t = (f.pad.drop (k - 4)).take t := by
      rw [take_next hnext (by omega) (by omega), drop_bytes f (by omega), hnil, nil_append]
    obtain ⟨hprobe, hpending⟩ := probe_pad (t := t) (hctrl hnil) (by omega)
    rw [if_pos hnil, hpad] at hstep
    refine ⟨t, by omega, by omega, by omega, ?_, by rw [hstep], by rw [hstep]; exact hout, ?_⟩
    · rw [hstep]
      refine hwithin _ rfl ((header_probe _ _).trans hheader) fun _ => hprobe.trans ?_
      rw [show k - 4 + t = k + t - 4 by omega]
    · rw [hstep, Signals]
      refine hpending.trans (or_congr_right ?_)
      rw [controlPrefixLen]
      constructor
      · exact fun ⟨hlo, hhi, hsome⟩ => ⟨⟨hnil, by omega, hsome⟩, by omega, by omega⟩
      · exact fun ⟨⟨_, _, hsome⟩, hlo, hhi⟩ => ⟨by omega, by omega, hsome⟩
  · rw [if_neg hnil] at hstep
    refine ⟨t, by omega, by omega, by omega, ?_, by rw [hstep], by rw [hstep]; exact hout, ?_⟩
    · rw [hstep]
      exact hwithin _ rfl hheader fun h => absurd h hnil
    · rw [hstep]
      exact ⟨.inl, fun h => h.resolve_right fun h => hnil h.1.1⟩

theorem Within.pushStep (h : Within f k d) (hlt : k < f.total) (hinput : input ≠ [])
    (hnext : f.bytes.drop k ++ more = input ++ rest) : ∃ t, Stepped f k t d input := by
  obtain ⟨hk, hstate, hheader⟩ | ⟨hmin, hmax, hstate, hheader⟩ | ⟨hmin, -, hstate, hheader, hctrl⟩ | ⟨rfl, -⟩ := h
  · exact stepped_header hnext hinput hk hstate hheader
  · exact stepped_real hnext hinput hmin hmax hstate hheader
  · exact stepped_pad hnext hinput hmin hlt hstate hheader hctrl
  · exact absurd hlt (Nat.lt_irrefl _)

end Within

section Streams

variable {frames : List PaddingFrame} {n : Nat} {d : PaddingDecoder}

def InStream : List PaddingFrame → Nat → PaddingDecoder → Prop
  | [], n, d => n = 0 ∧ d.state = .header ∧ d.header = []
  | f :: rest, n, d => (n < f.total ∧ Within f n d) ∨ (f.total ≤ n ∧ InStream rest (n - f.total) d)

def payloadOf : List PaddingFrame → Nat → List UInt8
  | [], _ => []
  | f :: rest, n => if n < f.total then f.real.take (n - 4) else f.real ++ payloadOf rest (n - f.total)

/-- A frame has its control prefix complete with the first `n` bytes, and not before. -/
def SignalEnds : List PaddingFrame → Nat → Prop
  | [], _ => False
  | f :: rest, n => (f.Signals ∧ n = 10) ∨ (f.total < n ∧ SignalEnds rest (n - f.total))

def WholeFrames : List PaddingFrame → Nat → Prop
  | [], n => n = 0
  | f :: rest, n => n = 0 ∨ (f.total ≤ n ∧ WholeFrames rest (n - f.total))

theorem PaddingFrame.total_pos (f : PaddingFrame) : 0 < f.total := by
  rw [total]
  omega

theorem payloadOf_zero (frames : List PaddingFrame) : payloadOf frames 0 = [] := by
  cases frames with
  | nil => rfl
  | cons f rest => rw [payloadOf, if_pos f.total_pos, Nat.zero_sub, take_zero]

theorem Within.boundary {f : PaddingFrame} (h : Within f f.total d) : d.state = .header ∧ d.header = [] := by
  have htotal : f.total = 4 + f.real.length + f.pad.length := rfl
  obtain ⟨hk, -⟩ | ⟨-, hmax, -⟩ | ⟨-, hlt, -⟩ | ⟨-, hboundary⟩ := h
  · omega
  · omega
  · omega
  · exact hboundary

theorem inStream_zero (hstate : d.state = .header) (hheader : d.header = []) : InStream frames 0 d := by
  cases frames with
  | nil => exact ⟨rfl, hstate, hheader⟩
  | cons f rest => exact .inl ⟨f.total_pos, .inl ⟨by decide, hstate, hheader⟩⟩

variable {input rest : List UInt8}

/-- One turn of the loop in a stream of frames. -/
structure Advanced (frames : List PaddingFrame) (n t : Nat) (d : PaddingDecoder) (input : List UInt8) : Prop where
  pos : 0 < t
  le : t ≤ input.length
  inStream : InStream frames (n + t) (d.pushStep input).1
  rest : (d.pushStep input).2.1 = input.drop t
  payload : payloadOf frames n ++ (d.pushStep input).2.2 = payloadOf frames (n + t)
  signal : (d.pushStep input).1.pendingControl.isSome ↔
    d.pendingControl.isSome ∨ ∃ p, n < p ∧ p ≤ n + t ∧ SignalEnds frames p

theorem InStream.pushStep (h : InStream frames n d) (hinput : input ≠ [])
    (hnext : (frames.flatMap bytes).drop n = input ++ rest) : ∃ t, Advanced frames n t d input := by
  induction frames generalizing n with
  | nil =>
    rw [flatMap_nil, drop_nil] at hnext
    exact absurd (append_eq_nil_iff.mp hnext.symm).1 hinput
  | cons f frames ih =>
    have hlength := f.length_bytes
    rw [flatMap_cons] at hnext
    rcases h with ⟨hlt, h⟩ | ⟨hle, h⟩
    · rw [drop_append_of_le_length (by omega)] at hnext
      obtain ⟨t, hpos, hle, hfits, hwithin, hrest, hout, hsignal⟩ := h.pushStep hlt hinput hnext
      refine ⟨t, hpos, hle, ?_, hrest, ?_, hsignal.trans (or_congr_right ?_)⟩
      · by_cases hlast : n + t < f.total
        · exact .inl ⟨hlast, hwithin⟩
        · have hend : n + t = f.total := by omega
          rw [hend] at hwithin ⊢
          obtain ⟨hstate, hheader⟩ := hwithin.boundary
          refine .inr ⟨Nat.le_refl _, ?_⟩
          rw [Nat.sub_self]
          exact inStream_zero hstate hheader
      · rw [payloadOf, if_pos hlt, hout, payloadOf]
        by_cases hlast : n + t < f.total
        · rw [if_pos hlast]
        · have hend : n + t = f.total := by omega
          rw [if_neg hlast, hend, Nat.sub_self, payloadOf_zero, append_nil]
          exact take_of_length_le (by rw [total]; omega)
      · constructor
        · exact fun ⟨h, hlo, hhi⟩ => ⟨10, hlo, hhi, .inl ⟨h, rfl⟩⟩
        · rintro ⟨p, hlo, hhi, ⟨h, rfl⟩ | ⟨hlate, -⟩⟩
          · exact ⟨h, hlo, hhi⟩
          · omega
    · rw [drop_append, drop_of_length_le (by omega), nil_append, hlength] at hnext
      obtain ⟨t, hpos, hle', hnext, hrest, hout, hsignal⟩ := ih h hnext
      have hadd : n + t - f.total = n - f.total + t := by omega
      refine ⟨t, hpos, hle', .inr ⟨by omega, hadd ▸ hnext⟩, hrest, ?_, hsignal.trans (or_congr_right ?_)⟩
      · rw [payloadOf, if_neg (by omega), payloadOf, if_neg (by omega), append_assoc, hout, hadd]
      · constructor
        · rintro ⟨p, hlo, hhi, h⟩
          exact ⟨p + f.total, by omega, by omega, .inr ⟨by omega, by rwa [Nat.add_sub_cancel]⟩⟩
        · rintro ⟨p, hlo, hhi, ⟨⟨-, hpad, -⟩, rfl⟩ | ⟨hlate, h⟩⟩
          · have htotal : f.total = 4 + f.real.length + f.pad.length := rfl
            omega
          · exact ⟨p - f.total, by omega, by omega, h⟩

theorem InStream.pushLoop (h : InStream frames n d) {fuel : Nat} (hfuel : input.length ≤ fuel)
    (hnext : (frames.flatMap bytes).drop n = input ++ rest) (out : List UInt8) :
    InStream frames (n + input.length) (PaddingDecoder.pushLoop fuel d input out).1 ∧
      (∃ payload, (PaddingDecoder.pushLoop fuel d input out).2 = out ++ payload ∧
        payloadOf frames n ++ payload = payloadOf frames (n + input.length)) ∧
      ((PaddingDecoder.pushLoop fuel d input out).1.pendingControl.isSome ↔
        d.pendingControl.isSome ∨ ∃ p, n < p ∧ p ≤ n + input.length ∧ SignalEnds frames p) := by
  fun_induction PaddingDecoder.pushLoop fuel d input out generalizing n with
  | case1 =>
    have hnone : ¬ ∃ p, n < p ∧ p ≤ n + 0 ∧ SignalEnds frames p := fun ⟨p, hlo, hhi, _⟩ => by omega
    exact ⟨h, ⟨[], (append_nil _).symm, append_nil _⟩, (or_iff_left hnone).symm⟩
  | case2 input d out hinput => exact absurd (length_eq_zero_iff.mp (Nat.le_zero.mp hfuel)) hinput
  | case3 fuel d input out hinput next left payload hstep ih =>
    obtain ⟨t, hpos, hle, hstream, hrest, hout, hsignal⟩ := h.pushStep hinput hnext
    rw [hstep] at hstream hrest hout hsignal
    have hdrop : (frames.flatMap bytes).drop (n + t) = left ++ rest := by
      rw [← drop_drop, hnext, drop_append_of_le_length hle, ← hrest]
    have hleft : left.length = input.length - t := (congrArg length hrest).trans length_drop
    obtain ⟨hlast, ⟨later, hlater, htotal⟩, hsignal'⟩ := ih hstream (by omega) hdrop
    rw [hleft, show n + t + (input.length - t) = n + input.length by omega] at hlast htotal hsignal'
    refine ⟨hlast, ⟨payload ++ later, ?_, ?_⟩, hsignal'.trans ?_⟩
    · rw [hlater, append_assoc]
    · rw [← append_assoc, hout, htotal]
    · rw [hsignal]
      grind

theorem isAtFrameBoundary_iff : d.isAtFrameBoundary ↔ d.state = .header ∧ d.header = [] := by
  simp [isAtFrameBoundary]

theorem Within.boundary_iff {f : PaddingFrame} (h : Within f n d) (hlt : n < f.total) :
    d.isAtFrameBoundary ↔ n = 0 := by
  rw [isAtFrameBoundary_iff]
  obtain ⟨hk, hstate, hheader⟩ | ⟨hmin, -, hstate, -⟩ | ⟨hmin, -, hstate, -⟩ | ⟨rfl, -⟩ := h
  · have hlength : (f.bytes.take n).length = n := length_take_of_le (by rw [length_bytes]; exact Nat.le_of_lt hlt)
    rw [hstate, hheader, ← length_eq_zero_iff, hlength]
    exact ⟨fun h => h.2, fun h => ⟨rfl, h⟩⟩
  · rw [hstate]
    exact ⟨fun h => (by cases h.1), fun h => (by omega)⟩
  · rw [hstate]
    exact ⟨fun h => (by cases h.1), fun h => (by omega)⟩
  · exact absurd hlt (Nat.lt_irrefl _)

theorem InStream.boundary_iff (h : InStream frames n d) : d.isAtFrameBoundary ↔ WholeFrames frames n := by
  induction frames generalizing n with
  | nil => exact ⟨fun _ => h.1, fun _ => isAtFrameBoundary_iff.mpr h.2⟩
  | cons f rest ih =>
    have hpos := f.total_pos
    rcases h with ⟨hlt, h⟩ | ⟨hle, h⟩
    · rw [h.boundary_iff hlt]
      constructor
      · exact .inl
      · rintro (h | ⟨hle, -⟩)
        · exact h
        · omega
    · rw [ih h]
      constructor
      · exact fun h => .inr ⟨hle, h⟩
      · rintro (h | ⟨-, h⟩)
        · omega
        · exact h

theorem wholeFrames_length (frames : List PaddingFrame) :
    WholeFrames frames (frames.flatMap bytes).length := by
  induction frames with
  | nil => rfl
  | cons f rest ih =>
    refine .inr ⟨?_, ?_⟩
    · rw [flatMap_cons, length_append, f.length_bytes]
      exact Nat.le_add_right _ _
    · rw [flatMap_cons, length_append, f.length_bytes, Nat.add_sub_cancel_left]
      exact ih

theorem exists_take_of_wholeFrames (h : WholeFrames frames n) :
    ∃ k, (frames.flatMap bytes).take n = (frames.take k).flatMap bytes := by
  induction frames generalizing n with
  | nil => exact ⟨0, by simp⟩
  | cons f rest ih =>
    rcases h with rfl | ⟨hle, h⟩
    · exact ⟨0, rfl⟩
    · obtain ⟨k, hk⟩ := ih h
      refine ⟨k + 1, ?_⟩
      rw [flatMap_cons, take_append, f.length_bytes, hk, take_of_length_le (by rw [f.length_bytes]; exact hle)]
      rfl

theorem payloadOf_length (frames : List PaddingFrame) :
    payloadOf frames (frames.flatMap bytes).length = frames.flatMap real := by
  induction frames with
  | nil => rfl
  | cons f rest ih =>
    rw [flatMap_cons, length_append, f.length_bytes, payloadOf, if_neg (by omega), Nat.add_sub_cancel_left, ih,
      flatMap_cons]

theorem signalEnds_iff : SignalEnds frames n ↔ ∃ before f after, frames = before ++ f :: after ∧ f.Signals ∧
    n = (before.flatMap bytes).length + 10 := by
  induction frames generalizing n with
  | nil =>
    constructor
    · intro h
      cases h
    · rintro ⟨before, f, after, hsplit, -⟩
      cases before <;> cases hsplit
  | cons first rest ih =>
    constructor
    · rintro (⟨h, hn⟩ | ⟨hlt, h⟩)
      · exact ⟨[], first, rest, rfl, h, by rw [hn]; rfl⟩
      · obtain ⟨before, f, after, hsplit, hf, hn⟩ := ih.mp h
        refine ⟨first :: before, f, after, by rw [hsplit]; rfl, hf, ?_⟩
        rw [flatMap_cons, length_append, first.length_bytes]
        omega
    · rintro ⟨before, f, after, hsplit, hf, hn⟩
      cases before with
      | nil =>
        cases hsplit
        exact .inl ⟨hf, by rw [hn]; rfl⟩
      | cons head before =>
        cases hsplit
        rw [flatMap_cons, length_append, first.length_bytes] at hn
        exact .inr ⟨by omega, ih.mpr ⟨before, f, after, rfl, hf, by omega⟩⟩

theorem InStream.drained (h : InStream frames n d) : InStream frames n { d with pendingControl := none } := by
  induction frames generalizing n with
  | nil => exact h
  | cons f rest ih =>
    rcases h with h | ⟨hle, h⟩
    · exact .inl h
    · exact .inr ⟨hle, ih h⟩

end Streams

section Pushing

def pushAll (d : PaddingDecoder) (out : List UInt8) : List (List UInt8) →
    PaddingDecoder × List UInt8 × List (Option ControlSignal)
  | [] => (d, out, [])
  | chunk :: chunks =>
    let (pushed, out) := d.push chunk out
    let (signal, drained) := pushed.takeControl
    let (last, out, signals) := pushAll drained out chunks
    (last, out, signal :: signals)

variable {frames : List PaddingFrame} {n : Nat} {d : PaddingDecoder}

theorem pushAll_spec (h : InStream frames n d) (hpending : d.pendingControl = none) {chunks : List (List UInt8)}
    (hchunks : (frames.flatMap bytes).drop n = chunks.flatten ++ rest) (out : List UInt8) :
    InStream frames (n + chunks.flatten.length) (pushAll d out chunks).1 ∧
      (∃ payload, (pushAll d out chunks).2.1 = out ++ payload ∧
        payloadOf frames n ++ payload = payloadOf frames (n + chunks.flatten.length)) ∧
      (pushAll d out chunks).2.2.length = chunks.length ∧
      ∀ i, i < chunks.length → (((pushAll d out chunks).2.2.getD i none).isSome ↔
        ∃ p, n + (chunks.take i).flatten.length < p ∧ p ≤ n + (chunks.take (i + 1)).flatten.length ∧
          SignalEnds frames p) := by
  induction chunks generalizing n d out with
  | nil => exact ⟨h, ⟨[], (append_nil _).symm, append_nil _⟩, rfl, fun i hi => by cases hi⟩
  | cons chunk chunks ih =>
    rw [flatten_cons, append_assoc] at hchunks
    obtain ⟨hnext, ⟨pushed, hpushed, hout⟩, hsignal⟩ := h.pushLoop (Nat.le_refl _) hchunks out
    have hdrop : (frames.flatMap bytes).drop (n + chunk.length) = chunks.flatten ++ rest := by
      rw [← drop_drop, hchunks, drop_left]
    obtain ⟨hlast, ⟨payload, hpayload, htotal⟩, hlength, hsignals⟩ := ih hnext.drained rfl hdrop (d.push chunk out).2
    have hadd : n + (chunk :: chunks).flatten.length = n + chunk.length + chunks.flatten.length := by
      rw [flatten_cons, length_append, Nat.add_assoc]
    rw [hadd]
    refine ⟨hlast, ⟨pushed ++ payload, ?_, ?_⟩, ?_, ?_⟩
    · rw [← append_assoc, ← hpushed]
      exact hpayload
    · rw [← append_assoc, hout, htotal]
    · exact congrArg Nat.succ hlength
    · intro i hi
      cases i with
      | zero =>
        refine hsignal.trans ?_
        simp [hpending]
      | succ i =>
        refine (hsignals i (Nat.lt_of_succ_lt_succ hi)).trans ?_
        simp [Nat.add_assoc]

end Pushing

section Main

inductive Sent where
  | frame (real pad : List UInt8)
  | control (signal : ControlSignal) (extraPad : List UInt8)

namespace Sent

def encodeInto (out : List UInt8) : Sent → Except PaddingError (List UInt8)
  | frame real pad => encodeFrameInto out real pad
  | control signal extraPad => encodeControlFrameInto out signal extraPad

def real : Sent → List UInt8
  | frame real _ => real
  | control _ _ => []

def pad : Sent → List UInt8
  | frame _ pad => pad
  | control signal extraPad => controlMagic ++ [controlVersion, signal.opcode] ++ extraPad

def Signals (sent : Sent) : Prop :=
  sent.real = [] ∧ ∃ (signal : ControlSignal) (rest : List UInt8),
    sent.pad = controlMagic ++ [controlVersion, signal.opcode] ++ rest

end Sent

def encodeAll : List UInt8 → List Sent → Except PaddingError (List UInt8)
  | out, [] => .ok out
  | out, sent :: rest =>
    match sent.encodeInto out with
    | .error error => .error error
    | .ok out => encodeAll out rest

theorem encodeInto_eq (sent : Sent) (out : List UInt8) :
    sent.encodeInto out = encodeFrameInto out sent.real sent.pad := by
  cases sent <;> rfl

theorem frames_of_encodeAll {sent : List Sent} {out bytes : List UInt8} (h : encodeAll out sent = .ok bytes) :
    ∃ frames : List PaddingFrame, frames.map (fun f => (f.real, f.pad)) = sent.map (fun s => (s.real, s.pad)) ∧
      bytes = out ++ frames.flatMap PaddingFrame.bytes := by
  induction sent generalizing out with
  | nil =>
    cases h
    exact ⟨[], rfl, (append_nil _).symm⟩
  | cons first rest ih =>
    rw [encodeAll, encodeInto_eq, encodeFrameInto] at h
    split at h
    · cases h
    · rename_i written hwritten
      split at hwritten
      · cases hwritten
      split at hwritten
      · cases hwritten
      rename_i hreal hpad
      cases hwritten
      obtain ⟨frames, hmap, hbytes⟩ := ih h
      refine ⟨⟨first.real, first.pad, Nat.le_of_not_lt hreal, Nat.le_of_not_lt hpad⟩ :: frames, ?_, ?_⟩
      · rw [map_cons, map_cons, hmap]
      · rw [hbytes, flatMap_cons, append_assoc]
        rfl

theorem encodeAll_of_frames {sent : List Sent} {frames : List PaddingFrame}
    (h : frames.map (fun f => (f.real, f.pad)) = sent.map (fun s => (s.real, s.pad))) (out : List UInt8) :
    encodeAll out sent = .ok (out ++ frames.flatMap bytes) := by
  induction sent generalizing out frames with
  | nil => simp_all [encodeAll]
  | cons first rest ih =>
    cases frames with
    | nil => cases h
    | cons f frames =>
      obtain ⟨hfirst, hrest⟩ := cons.inj h
      obtain ⟨hreal, hpad⟩ := Prod.mk.inj hfirst
      have hwritten : first.encodeInto out = .ok (out ++ f.bytes) := by
        rw [encodeInto_eq, ← hreal, ← hpad, encodeFrameInto, if_neg (Nat.not_lt.mpr f.real_le),
          if_neg (Nat.not_lt.mpr f.pad_le)]
        rfl
      rw [encodeAll, hwritten]
      dsimp only
      rw [ih hrest, flatMap_cons, append_assoc]

theorem parseControl_isSome_iff (pad : List UInt8) : (6 ≤ pad.length ∧ (parseControl (pad.take 6)).isSome) ↔
      ∃ (signal : ControlSignal) (rest : List UInt8),
        pad = controlMagic ++ [controlVersion, signal.opcode] ++ rest := by
  constructor
  · rintro ⟨hlength, hsome⟩
    obtain ⟨a, b, c, d, e, o, rest, rfl⟩ : ∃ a b c d e o rest, pad = a :: b :: c :: d :: e :: o :: rest := by
      match pad, hlength with
      | a :: b :: c :: d :: e :: o :: rest, _ => exact ⟨a, b, c, d, e, o, rest, rfl⟩
    unfold parseControl at hsome
    split at hsome
    · cases hsome
    rename_i hmagic
    split at hsome
    · cases hsome
    rename_i hversion
    unfold ControlSignal.fromOpcode at hsome
    split at hsome
    · rename_i hopcode
      have hmagic' : [a, b, c, d] = controlMagic := not_not.mp hmagic
      have hversion' : e = controlVersion := not_not.mp hversion
      have hopcode' : o = ControlSignal.throttleSwitchUplink.opcode := hopcode
      refine ⟨.throttleSwitchUplink, rest, ?_⟩
      rw [← hmagic', ← hversion', ← hopcode']
      rfl
    · cases hsome
  · rintro ⟨signal, rest, rfl⟩
    cases signal
    exact ⟨by simp [controlMagic], rfl⟩

theorem exists_split_of_map_eq {α β γ : Type} {g : α → γ} {g' : β → γ} {l : List α} {l' : List β}
    (h : l.map g = l'.map g') {before : List α} {a : α} {after : List α} (hsplit : l = before ++ a :: after) :
    ∃ before' a' after', l' = before' ++ a' :: after' ∧ before.map g = before'.map g' ∧ g a = g' a' := by
  rw [hsplit, map_append, map_cons] at h
  obtain ⟨before', rest, rfl, hbefore, hrest⟩ := map_eq_append_iff.mp h.symm
  obtain ⟨a', after', rfl, ha, -⟩ := map_eq_cons_iff.mp hrest
  exact ⟨before', a', after', rfl, hbefore.symm, ha.symm⟩

theorem signals_iff {f : PaddingFrame} {sent : Sent} (h : (f.real, f.pad) = (sent.real, sent.pad)) :
    f.Signals ↔ sent.Signals := by
  obtain ⟨hreal, hpad⟩ := Prod.mk.inj h
  rw [Signals, Sent.Signals, hreal, hpad, parseControl_isSome_iff]

theorem pushAll_new {frames : List PaddingFrame} {chunks : List (List UInt8)}
    (h : frames.flatMap bytes = chunks.flatten ++ rest) :
    InStream frames chunks.flatten.length (pushAll .new [] chunks).1 ∧
      (pushAll .new [] chunks).2.1 = payloadOf frames chunks.flatten.length ∧
      (pushAll .new [] chunks).2.2.length = chunks.length ∧
      ∀ i, i < chunks.length → (((pushAll .new [] chunks).2.2.getD i none).isSome ↔
        ∃ p, (chunks.take i).flatten.length < p ∧ p ≤ (chunks.take (i + 1)).flatten.length ∧ SignalEnds frames p) := by
  have hstart : InStream frames 0 .new := inStream_zero rfl rfl
  obtain ⟨hstream, ⟨payload, hout, htotal⟩, hlength, hsignals⟩ := pushAll_spec hstart rfl (drop_zero.trans h) []
  rw [payloadOf_zero, nil_append] at htotal
  rw [Nat.zero_add] at hstream htotal
  refine ⟨hstream, by rw [hout, htotal, nil_append], hlength, fun i hi => ?_⟩
  rw [hsignals i hi, Nat.zero_add, Nat.zero_add]

/-- The stream comes back without its padding however it is cut.  The decoder is at a boundary where whole frames end,
and a signal is drained after the chunk that completes its prefix. -/
theorem padding_lossless (sent : List Sent) (bytes : List UInt8) (hencoded : encodeAll [] sent = .ok bytes)
    (chunks : List (List UInt8)) (hchunks : chunks.flatten = bytes) :
    (pushAll .new [] chunks).2.1 = sent.flatMap Sent.real ∧ (pushAll .new [] chunks).1.isAtFrameBoundary ∧
    (∀ i, (pushAll .new [] (chunks.take i)).1.isAtFrameBoundary ↔
      ∃ whole, encodeAll [] whole = .ok (chunks.take i).flatten) ∧
    (pushAll .new [] chunks).2.2.length = chunks.length ∧
    ∀ i, i < chunks.length → (((pushAll .new [] chunks).2.2.getD i none).isSome ↔
      ∃ before cover after encoded, sent = before ++ cover :: after ∧ cover.Signals ∧
        encodeAll [] before = .ok encoded ∧ (chunks.take i).flatten.length < encoded.length + 10 ∧
        encoded.length + 10 ≤ (chunks.take (i + 1)).flatten.length) := by
  obtain ⟨frames, hmap, hbytes⟩ := frames_of_encodeAll hencoded
  rw [nil_append, ← hchunks] at hbytes
  have hwhole : frames.flatMap PaddingFrame.bytes = chunks.flatten ++ [] := by rw [← hbytes, append_nil]
  obtain ⟨hstream, hout, hlength, hsignals⟩ := pushAll_new hwhole
  refine ⟨?_, ?_, ?_, hlength, ?_⟩
  · have hreal : frames.map PaddingFrame.real = sent.map Sent.real := by
      have := congrArg (map Prod.fst) hmap
      rwa [map_map, map_map] at this
    rw [hout, hbytes, payloadOf_length, flatMap_def, hreal, ← flatMap_def]
  · rw [hstream.boundary_iff, hbytes]
    exact wholeFrames_length frames
  · intro i
    have hcut : frames.flatMap PaddingFrame.bytes = (chunks.take i).flatten ++ (chunks.drop i).flatten := by
      rw [← flatten_append, take_append_drop, hbytes]
    rw [(pushAll_new hcut).1.boundary_iff]
    constructor
    · intro hboundary
      obtain ⟨k, hk⟩ := exists_take_of_wholeFrames hboundary
      rw [hcut, take_left] at hk
      have hmap' : (frames.take k).map (fun f => (f.real, f.pad)) = (sent.take k).map (fun s => (s.real, s.pad)) := by
        rw [map_take, map_take, hmap]
      refine ⟨sent.take k, ?_⟩
      rw [encodeAll_of_frames hmap', nil_append, hk]
    · rintro ⟨whole, hencoded'⟩
      obtain ⟨frames', -, hbytes'⟩ := frames_of_encodeAll hencoded'
      rw [nil_append] at hbytes'
      -- the same chunks as a stream of their own
      have hown : frames'.flatMap PaddingFrame.bytes = (chunks.take i).flatten ++ [] := by rw [append_nil, hbytes']
      rw [← (pushAll_new hcut).1.boundary_iff, (pushAll_new hown).1.boundary_iff, hbytes']
      exact wholeFrames_length frames'
  · intro i hi
    rw [hsignals i hi]
    constructor
    · rintro ⟨p, hlt, hle, hends⟩
      obtain ⟨before, f, after, hsplit, hf, rfl⟩ := signalEnds_iff.mp hends
      obtain ⟨before', cover, after', hsent, hbefore, hcover⟩ := exists_split_of_map_eq hmap hsplit
      exact ⟨before', cover, after', _, hsent, (signals_iff hcover).mp hf, encodeAll_of_frames hbefore [], hlt, hle⟩
    · rintro ⟨before, cover, after, encoded, hsent, hcover, hbefore, hlt, hle⟩
      obtain ⟨before', f, after', hsplit, hmapped, hf⟩ := exists_split_of_map_eq hmap.symm hsent
      rw [encodeAll_of_frames hmapped.symm] at hbefore
      cases hbefore
      exact ⟨_, hlt, hle, signalEnds_iff.mpr ⟨before', f, after', hsplit, (signals_iff hf.symm).mpr hcover, rfl⟩⟩

/-- A control frame cut inside its prefix, and one that only looks like it behind a payload. -/
theorem padding_lossless_cut :
    ∃ bytes, encodeAll [] [.frame [1, 2] (controlMagic ++ [1, 1]), .control .throttleSwitchUplink [9]] = .ok bytes ∧
      (pushAll .new [] [bytes.take 20, bytes.drop 20]).2.1 = [1, 2] ∧
      (pushAll .new [] [bytes.take 20, bytes.drop 20]).2.2 = [none, some .throttleSwitchUplink] := by
  have hencoded :
      encodeAll [] [.frame [1, 2] (controlMagic ++ [1, 1]), .control .throttleSwitchUplink [9]] = .ok _ := rfl
  exact ⟨_, hencoded, (padding_lossless _ _ hencoded [take 20 _, drop 20 _] rfl).1, rfl⟩

end Main

end OutlineProxy.Carrier
