import OutlineProxy.Lib.Sealing

/-! Parsers of a growing buffer: they ask for more bytes until they have decided, and then keep to their decision. -/

namespace OutlineProxy.Incremental

open Sealing

variable {ε α : Type} {x y before after : List UInt8} {i start stop : Nat}

def byteAt (input : List UInt8) (i : Nat) : UInt8 := input.getD i 0

def slice (input : List UInt8) (start stop : Nat) : List UInt8 := (input.take stop).drop start

theorem byteAt_append (h : i < x.length) : byteAt (x ++ y) i = byteAt x i := by
  rw [byteAt, List.getD_eq_getElem?_getD, List.getElem?_append_left h, byteAt, List.getD_eq_getElem?_getD]

theorem byteAt_length (h : before.length = i) (byte : UInt8) : byteAt (before ++ byte :: after) i = byte := by
  rw [byteAt, List.getD_eq_getElem?_getD, List.getElem?_append_right (Nat.le_of_eq h), h, Nat.sub_self]
  rfl

theorem slice_append (h : stop ≤ x.length) : slice (x ++ y) start stop = slice x start stop := by
  rw [slice, List.take_append_of_le_length h, slice]

theorem length_slice (h : stop ≤ x.length) : (slice x start stop).length = stop - start := by
  rw [slice, List.length_drop, List.length_take, Nat.min_eq_left h]

theorem slice_length {field : List UInt8} (hstart : before.length = start) (hstop : start + field.length = stop) :
    slice (before ++ (field ++ after)) start stop = field := by
  rw [slice, ← List.append_assoc]
  exact drop_take_field before field after hstart.symm (by rw [hstart, hstop])

theorem length_octetsAt {n : Nat} (h : ¬ x.length < start + n) : (slice x start (start + n)).length = n := by
  rw [length_slice (Nat.le_of_not_lt h), Nat.add_sub_cancel_left]

def octetsAt (input : List UInt8) (start n : Nat) (h : ¬ input.length < start + n) :
    { bytes : List UInt8 // bytes.length = n } :=
  ⟨slice input start (start + n), length_octetsAt h⟩

theorem octetsAt_append {n : Nat} (h : ¬ x.length < start + n) (y : List UInt8) (h' : ¬ (x ++ y).length < start + n) :
    octetsAt (x ++ y) start n h' = octetsAt x start n h :=
  Subtype.ext (slice_append (Nat.le_of_not_lt h))

theorem octetsAt_length {n : Nat} (octets : { bytes : List UInt8 // bytes.length = n })
    (hbefore : before.length = start) (h : ¬ (before ++ (octets.val ++ after)).length < start + n) :
    octetsAt (before ++ (octets.val ++ after)) start n h = octets :=
  Subtype.ext (slice_length hbefore (by rw [octets.property]))

def Stable (parse : List UInt8 → Except ε (Option α)) : Prop :=
  ∀ x y, parse x ≠ .ok none → parse (x ++ y) = parse x

theorem Stable.incomplete {parse : List UInt8 → Except ε (Option α)} (hstable : Stable parse) {consumed : α → Nat}
    (hconsumed : ∀ x a, parse x = .ok (some a) → consumed a ≤ x.length) {a : α}
    (hwhole : parse (x ++ y) = .ok (some a)) (hlength : consumed a = (x ++ y).length) (hy : y ≠ []) :
    parse x = .ok none := by
  by_contra hdecided
  rw [hstable x y hdecided] at hwhole
  have hle := hconsumed x a hwhole
  have hpos := List.length_pos_of_ne_nil hy
  rw [hlength, List.length_append] at hle
  omega

end OutlineProxy.Incremental
