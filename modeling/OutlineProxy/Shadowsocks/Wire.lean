import OutlineProxy.Lib.Sealing

/-! The formats of a Shadowsocks stream. -/

namespace OutlineProxy.Shadowsocks

open Sealing

abbrev Bytes := List UInt8

inductive CipherKind where
  | aes128Gcm
  | aes256Gcm
  | chacha20IetfPoly1305
  | aes128Gcm2022
  | aes256Gcm2022
  | chacha20Poly13052022

namespace CipherKind

def keyLen : CipherKind → Nat
  | aes128Gcm | aes128Gcm2022 => 16
  | aes256Gcm | chacha20IetfPoly1305 | aes256Gcm2022 | chacha20Poly13052022 => 32

variable (cipher : CipherKind)

def saltLen : Nat := cipher.keyLen

def isSs2022 : CipherKind → Bool
  | aes128Gcm2022 | aes256Gcm2022 | chacha20Poly13052022 => true
  | aes128Gcm | aes256Gcm | chacha20IetfPoly1305 => false

def maxPayloadLen : Nat := if cipher.isSs2022 then 0xffff else 0x3fff

theorem saltLen_pos : 0 < cipher.saltLen := by
  cases cipher <;> decide

theorem maxPayloadLen_lt : cipher.maxPayloadLen < 256 ^ 2 := by
  cases cipher <;> decide

end CipherKind

def tagLen : Nat := 16

def legacyMaxChunkSize : Nat := 0x3fff

def maxChunkSize : Nat := 0xffff

def maxNonceCounter : Nat := 2 ^ 32

structure Primitives (κ : Type) where
  aead : Aead κ tagLen
  deriveSubkey : CipherKind → Bytes → Bytes → κ

theorem exists_of_bind_ok {ε α β : Type} {x : Except ε α} {f : α → Except ε β} {b : β} (h : x >>= f = .ok b) :
    ∃ a, x = .ok a ∧ f a = .ok b := by
  cases x with
  | error error => cases h
  | ok a => exact ⟨a, rfl, h⟩

def namedPrimitives : Primitives Bytes where
  aead := named
  deriveSubkey := fun _ masterKey _ => masterKey

def ss2022TcpRequestType : UInt8 := 0

def ss2022TcpResponseType : UInt8 := 1

def ss2022MaxTimeDiffSecs : Nat := 30

inductive Ss2022HeaderError where
  | invalid
  | timestampSkew (skewSecs : Nat)
  | invalidResponseLength (length : Nat)
  | invalidResponseType (type : UInt8)
  | requestSaltMismatch
  | clientSessionMismatch
  | target
deriving DecidableEq

def validateTimestamp (timestamp now : Nat) : Except Ss2022HeaderError Unit :=
  let skew := (now - timestamp) + (timestamp - now)
  if ss2022MaxTimeDiffSecs < skew then .error (.timestampSkew skew) else .ok ()

def Fresh (timestamp now : Nat) : Prop :=
  timestamp < 2 ^ 64 ∧ now ≤ timestamp + ss2022MaxTimeDiffSecs ∧ timestamp ≤ now + ss2022MaxTimeDiffSecs

theorem validateTimestamp_of_fresh {timestamp now : Nat} (h : Fresh timestamp now) :
    validateTimestamp timestamp now = .ok () := by
  obtain ⟨_, hold, hahead⟩ := h
  apply if_neg
  omega

def responseHeader (timestamp : Nat) (requestSalt : Bytes) (firstChunkLen : Nat) : Bytes :=
  [ss2022TcpResponseType] ++ toBe 8 timestamp ++ requestSalt ++ toBe 2 firstChunkLen

def parseResponseHeader (cipher : CipherKind) (requestSalt plaintext : Bytes) (now : Nat) :
    Except Ss2022HeaderError Nat :=
  if plaintext.length ≠ 1 + 8 + cipher.saltLen + 2 then .error (.invalidResponseLength plaintext.length)
  else if plaintext.headD 0 ≠ ss2022TcpResponseType then .error (.invalidResponseType (plaintext.headD 0))
  else
    match validateTimestamp (ofBe ((plaintext.take 9).drop 1)) now with
    | .error error => .error error
    | .ok () =>
      if (plaintext.take (9 + cipher.saltLen)).drop 9 ≠ requestSalt then .error .requestSaltMismatch
      else .ok (ofBe (plaintext.drop (9 + cipher.saltLen)))

theorem length_responseHeader (timestamp : Nat) (requestSalt : Bytes) (firstChunkLen : Nat) :
    (responseHeader timestamp requestSalt firstChunkLen).length = 1 + 8 + requestSalt.length + 2 := by
  simp only [responseHeader, List.length_append, List.length_singleton, length_toBe]

theorem parseResponseHeader_responseHeader {cipher : CipherKind} {requestSalt : Bytes} {timestamp now n : Nat}
    (hsalt : requestSalt.length = cipher.saltLen) (hfresh : Fresh timestamp now) (hn : n < 256 ^ 2) :
    parseResponseHeader cipher requestSalt (responseHeader timestamp requestSalt n) now = .ok n := by
  have hstamp : ((responseHeader timestamp requestSalt n).take 9).drop 1 = toBe 8 timestamp := by
    rw [responseHeader, List.append_assoc]
    exact drop_take_field _ _ _ rfl (by simp)
  have hecho : ((responseHeader timestamp requestSalt n).take (9 + cipher.saltLen)).drop 9 = requestSalt :=
    drop_take_field _ _ _ (by simp) (by simp [hsalt])
  have hlen : (responseHeader timestamp requestSalt n).drop (9 + cipher.saltLen) = toBe 2 n := by
    have hlength : 9 + cipher.saltLen = ([ss2022TcpResponseType] ++ toBe 8 timestamp ++ requestSalt).length := by
      simp only [List.length_append, List.length_singleton, length_toBe, hsalt]
    rw [hlength]
    exact List.drop_left
  have htype : (responseHeader timestamp requestSalt n).headD 0 = ss2022TcpResponseType := by
    simp [responseHeader]
  rw [parseResponseHeader, if_neg (by simp [length_responseHeader, hsalt]), htype, if_neg (by simp), hstamp,
    ofBe_toBe hfresh.1, validateTimestamp_of_fresh hfresh, hecho, hlen, ofBe_toBe hn]
  simp

end OutlineProxy.Shadowsocks
