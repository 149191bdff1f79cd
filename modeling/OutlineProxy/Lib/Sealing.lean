import Mathlib.Algebra.Ring.Nat
import Mathlib.Data.List.Basic

/-! Numbers of a fixed width, most significant byte first, and messages sealed under a key and a nonce. -/

namespace OutlineProxy.Sealing

def toBe : Nat → Nat → List UInt8
  | 0, _ => []
  | width + 1, n => toBe width (n / 256) ++ [UInt8.ofNat (n % 256)]

def ofBe (bytes : List UInt8) : Nat := bytes.foldl (fun n byte => n * 256 + byte.toNat) 0

@[simp] theorem length_toBe (width n : Nat) : (toBe width n).length = width := by
  induction width generalizing n with
  | zero => rfl
  | succ width ih => simp [toBe, ih]

theorem ofBe_toBe {width n : Nat} (h : n < 256 ^ width) : ofBe (toBe width n) = n := by
  induction width generalizing n with
  | zero =>
    simp only [toBe, ofBe, List.foldl_nil]
    omega
  | succ width ih => grind [ofBe, toBe, Nat.pow_succ, UInt8.toNat_ofNat']

theorem drop_take_field {start stop : Nat} (before field after : List UInt8) (hstart : start = before.length)
    (hstop : stop = before.length + field.length) : ((before ++ field ++ after).take stop).drop start = field := by
  rw [hstart, hstop, ← List.length_append, List.take_left, List.drop_left]

theorem take_of_append {buffer rest field after : List UInt8} {n : Nat} (h : buffer ++ rest = field ++ after)
    (hfield : field.length = n) (hn : n ≤ buffer.length) : buffer.take n = field ∧ buffer.drop n ++ rest = after := by
  constructor
  · grind [List.take, List.take_left]
  · grind [List.drop, List.drop_left]

structure Aead (κ : Type) (tagLen : Nat) where
  encrypt : κ → Nat → List UInt8 → List UInt8
  decrypt : κ → Nat → List UInt8 → Option (List UInt8)
  length_encrypt : ∀ key nonce message, (encrypt key nonce message).length = message.length + tagLen
  decrypt_encrypt : ∀ key nonce message, decrypt key nonce (encrypt key nonce message) = some message

namespace Aead

variable {κ : Type} {tagLen : Nat} (aead : Aead κ tagLen)

def frame (key : κ) (nonce : Nat) (head message : List UInt8) : List UInt8 :=
  aead.encrypt key nonce head ++ aead.encrypt key (nonce + 1) message

end Aead

def nameTag (key : List UInt8) (nonce : Nat) : List UInt8 :=
  toBe 8 nonce ++ (key ++ List.replicate 8 0).take 8

def named : Aead (List UInt8) 16 where
  encrypt key nonce message := message ++ nameTag key nonce
  decrypt key nonce bytes :=
    if bytes.drop (bytes.length - 16) = nameTag key nonce then some (bytes.take (bytes.length - 16)) else none
  length_encrypt key nonce message := by simp [nameTag]
  decrypt_encrypt key nonce message := by simp [nameTag]

end OutlineProxy.Sealing
