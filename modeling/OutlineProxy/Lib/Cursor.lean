import OutlineProxy.Lib.Sealing

/-! Bounds-checked reads from the front of a buffer: what a read has found stays when bytes are added behind. -/

namespace OutlineProxy.Cursor

open Sealing

variable {α β : Type} {x y rest : List UInt8} {a : α}

/-- What is read and the bytes behind it; nothing where the buffer is too short. -/
abbrev Reader := StateT (List UInt8) Option

def byte : Reader UInt8
  | [] => none
  | first :: rest => some (first, rest)

def take (n : Nat) : Reader (List UInt8) := fun bytes =>
  if n ≤ bytes.length then some (bytes.take n, bytes.drop n) else none

def be (width : Nat) : Reader Nat := do
  return ofBe (← take width)

def vec (width : Nat) (bytes : List UInt8) : List UInt8 := toBe width bytes.length ++ bytes

def readVec (width : Nat) : Reader (List UInt8) := do
  take (← be width)

theorem bind_of_eq_some {read : Reader α} (next : α → Reader β) (h : read x = some (a, rest)) :
    (read >>= next) x = next a rest := by
  change (read x).bind _ = _
  rw [h]
  rfl

theorem byte_cons (first : UInt8) (rest : List UInt8) : byte (first :: rest) = some (first, rest) := rfl

theorem take_append {field : List UInt8} {n : Nat} (h : field.length = n) (rest : List UInt8) :
    take n (field ++ rest) = some (field, rest) := by
  simp [take, ← h]

theorem be_append {width n : Nat} (h : n < 256 ^ width) (rest : List UInt8) :
    be width (toBe width n ++ rest) = some (n, rest) := by
  rw [be, bind_of_eq_some _ (take_append (length_toBe width n) rest), ofBe_toBe h]
  rfl

theorem readVec_append {width : Nat} {bytes : List UInt8} (h : bytes.length < 256 ^ width) (rest : List UInt8) :
    readVec width (vec width bytes ++ rest) = some (bytes, rest) := by
  rw [readVec, vec, List.append_assoc, bind_of_eq_some _ (be_append h _), take_append rfl]

def Settled (read : Reader α) : Prop :=
  ∀ x y a rest, read x = some (a, rest) → read (x ++ y) = some (a, rest ++ y)

theorem settled_pure (a : α) : Settled (pure a : Reader α) := by
  intro x y found rest h
  cases h
  rfl

theorem Settled.bind {read : Reader α} {next : α → Reader β} (hread : Settled read)
    (hnext : ∀ a, Settled (next a)) : Settled (read >>= next) := by
  intro x y found rest h
  obtain ⟨⟨a, middle⟩, hfirst, hrest⟩ := Option.bind_eq_some_iff.mp h
  exact Option.bind_eq_some_iff.mpr ⟨_, hread x y a middle hfirst, hnext a middle y found rest hrest⟩

theorem settled_byte : Settled byte := by
  rintro (_ | ⟨first, x⟩) y found rest h <;> cases h
  rfl

theorem settled_take (n : Nat) : Settled (take n) := by
  intro x y found rest h
  obtain ⟨hle, hfound⟩ := Option.ite_none_right_eq_some.mp h
  cases hfound
  have hmore : n ≤ (x ++ y).length := by
    rw [List.length_append]
    omega
  rw [take, if_pos hmore, List.take_append_of_le_length hle, List.drop_append_of_le_length hle]

theorem settled_be (width : Nat) : Settled (be width) := (settled_take width).bind fun _ => settled_pure _

theorem settled_readVec (width : Nat) : Settled (readVec width) := (settled_be width).bind settled_take

end OutlineProxy.Cursor
