import OutlineProxy.Lib.Pieces
import OutlineProxy.Shadowsocks.Wire

/-! The server's side of the downlink: plaintext in, sealed chunks out. -/

namespace OutlineProxy.Shadowsocks

open Sealing Pieces

variable {κ : Type}

inductive CryptoError where
  | invalidChunkSize (size : Nat)
  | invalidLengthHeader
  | invalidHeader
  | invalidTimestamp
  | cipher
  | unknownUser
  | nonceExhausted
deriving DecidableEq

def nextStreamNonce (counter : Nat) : Except CryptoError (Nat × Nat) :=
  if maxNonceCounter ≤ counter then .error .nonceExhausted else .ok (counter, counter + 1)

inductive AeadStreamEncryptor (κ : Type) where
  | legacy (key : κ) (nonceCounter : Nat) (salt : Bytes) (sentSalt : Bool)
  | ss2022 (key : κ) (nonceCounter : Nat) (salt : Bytes) (sentHeader : Bool) (requestSalt : Bytes)

namespace AeadStreamEncryptor

def pendingPrefixLen : AeadStreamEncryptor κ → Nat
  | legacy _ _ salt sentSalt => if sentSalt then 0 else salt.length
  | ss2022 _ _ salt sentHeader requestSalt => if sentHeader then 0 else salt.length + 1 + 8 + requestSalt.length

/-- `head` and `plaintext` sealed under the next two nonces, and the counter after them. -/
def sealChunk (p : Primitives κ) (key : κ) (nonceCounter : Nat) (head plaintext : Bytes) :
    Except CryptoError (Bytes × Nat) := do
  let (headNonce, nonceCounter) ← nextStreamNonce nonceCounter
  let (payloadNonce, nonceCounter) ← nextStreamNonce nonceCounter
  return (p.aead.encrypt key headNonce head ++ p.aead.encrypt key payloadNonce plaintext, nonceCounter)

def encryptLegacyChunk (p : Primitives κ) (key : κ) (nonceCounter : Nat) (salt : Bytes) (sentSalt : Bool)
    (plaintext : Bytes) : Except CryptoError (Bytes × Nat × Bool) :=
  if legacyMaxChunkSize < plaintext.length then .error (.invalidChunkSize plaintext.length)
  else do
    let (chunk, nonceCounter) ← sealChunk p key nonceCounter (toBe 2 plaintext.length) plaintext
    return ((if sentSalt then [] else salt) ++ chunk, nonceCounter, true)

/-- The loop of `encrypt_legacy_chunks` over what is left to encrypt. -/
def encryptLegacyLoop (p : Primitives κ) (key : κ) (salt : Bytes) :
    Nat → Bool → List Bytes → Except CryptoError (Bytes × Nat × Bool)
  | nonceCounter, sentSalt, [] => .ok ([], nonceCounter, sentSalt)
  | nonceCounter, sentSalt, chunk :: rest => do
    let (first, nonceCounter, sentSalt) ← encryptLegacyChunk p key nonceCounter salt sentSalt chunk
    let (others, nonceCounter, sentSalt) ← encryptLegacyLoop p key salt nonceCounter sentSalt rest
    return (first ++ others, nonceCounter, sentSalt)

def encryptSs2022Chunk (p : Primitives κ) (now : Nat) (key : κ) (nonceCounter : Nat) (salt : Bytes)
    (sentHeader : Bool) (requestSalt plaintext : Bytes) : Except CryptoError (Bytes × Nat × Bool) :=
  if maxChunkSize < plaintext.length then .error (.invalidChunkSize plaintext.length)
  else if !sentHeader then do
    let (chunk, nonceCounter) ←
      sealChunk p key nonceCounter (responseHeader now requestSalt plaintext.length) plaintext
    return (salt ++ chunk, nonceCounter, true)
  else do
    let (chunk, nonceCounter) ← sealChunk p key nonceCounter (toBe 2 plaintext.length) plaintext
    return (chunk, nonceCounter, true)

def encryptChunk (p : Primitives κ) (now : Nat) (plaintext : Bytes) :
    AeadStreamEncryptor κ → Except CryptoError (Bytes × AeadStreamEncryptor κ)
  | legacy key nonceCounter salt sentSalt => do
    let (out, nonceCounter, sentSalt) ←
      encryptLegacyLoop p key salt nonceCounter sentSalt (chunks legacyMaxChunkSize plaintext)
    return (out, legacy key nonceCounter salt sentSalt)
  | ss2022 key nonceCounter salt sentHeader requestSalt => do
    let (out, nonceCounter, sentHeader) ←
      encryptSs2022Chunk p now key nonceCounter salt sentHeader requestSalt plaintext
    return (out, ss2022 key nonceCounter salt sentHeader requestSalt)

end AeadStreamEncryptor

structure Downlink (κ : Type) where
  cipher : CipherKind
  key : κ
  salt : Bytes
  requestSalt : Bytes
  timestamp : Nat

namespace Downlink

variable (d : Downlink κ)

def head (started : Bool) (n : Nat) : Bytes :=
  if d.cipher.isSs2022 && !started then responseHeader d.timestamp d.requestSalt n else toBe 2 n

def wire (p : Primitives κ) : Bool → Nat → List Bytes → Bytes
  | _, _, [] => []
  | started, nonce, chunk :: rest =>
    (if started then [] else d.salt) ++ p.aead.frame d.key nonce (d.head started chunk.length) chunk ++
      wire p true (nonce + 2) rest

def encryptor (started : Bool) (nonce : Nat) : AeadStreamEncryptor κ :=
  if d.cipher.isSs2022 then .ss2022 d.key nonce d.salt started d.requestSalt else .legacy d.key nonce d.salt started

def pieces (plaintext : Bytes) : List Bytes :=
  if d.cipher.isSs2022 then [plaintext] else chunks legacyMaxChunkSize plaintext

variable {d}

theorem wire_append (p : Primitives κ) (started : Bool) (nonce : Nat) (xs ys : List Bytes) :
    d.wire p started nonce (xs ++ ys) =
      d.wire p started nonce xs ++ d.wire p (started || !xs.isEmpty) (nonce + 2 * xs.length) ys := by
  induction xs generalizing started nonce with
  | nil => simp [wire]
  | cons chunk rest ih => grind [wire, List.length_cons]

end Downlink

open AeadStreamEncryptor Downlink

theorem nextStreamNonce_ok {counter : Nat} (h : counter < maxNonceCounter) :
    nextStreamNonce counter = .ok (counter, counter + 1) :=
  if_neg (by omega)

variable {p : Primitives κ} {nonce : Nat} {d : Downlink κ}

theorem sealChunk_ok (h : nonce + 2 ≤ maxNonceCounter) (key : κ) (head plaintext : Bytes) :
    sealChunk p key nonce head plaintext = .ok (p.aead.frame key nonce head plaintext, nonce + 2) := by
  rw [sealChunk, nextStreamNonce_ok (by omega)]
  simp only [bind, Except.bind]
  rw [nextStreamNonce_ok (by omega)]
  rfl

theorem sealChunk_error (h : maxNonceCounter < nonce + 2) (key : κ)
    (head plaintext : Bytes) : sealChunk p key nonce head plaintext = .error .nonceExhausted := by
  rw [sealChunk]
  by_cases hfull : maxNonceCounter ≤ nonce
  · rw [nextStreamNonce, if_pos hfull]
    rfl
  · rw [nextStreamNonce_ok (by omega)]
    simp only [bind, Except.bind]
    rw [nextStreamNonce, if_pos (by omega)]

theorem encryptLegacyLoop_ok (hlegacy : d.cipher.isSs2022 = false)
    {pieces : List Bytes} (hsize : ∀ piece ∈ pieces, piece.length ≤ legacyMaxChunkSize)
    (hroom : nonce + 2 * pieces.length ≤ maxNonceCounter) (started : Bool) :
    encryptLegacyLoop p d.key d.salt nonce started pieces =
      .ok (d.wire p started nonce pieces, nonce + 2 * pieces.length, started || !pieces.isEmpty) := by
  induction pieces generalizing nonce started with
  | nil => simp [encryptLegacyLoop, wire]
  | cons piece rest ih =>
    rw [List.length_cons] at hroom
    have hpiece := hsize piece List.mem_cons_self
    have hroom' : nonce + 2 + 2 * rest.length ≤ maxNonceCounter := by omega
    have hrest := ih (fun other hother => hsize other (List.mem_cons_of_mem _ hother)) hroom' true
    have hhead : d.head started piece.length = toBe 2 piece.length := by simp [head, hlegacy]
    rw [encryptLegacyLoop, encryptLegacyChunk, if_neg (by omega), sealChunk_ok (by omega)]
    simp only [bind, Except.bind, pure, Except.pure, hrest, wire, hhead]
    simp only [List.length_cons, Except.ok.injEq, Prod.mk.injEq, true_and]
    exact ⟨by omega, by simp⟩

theorem encryptLegacyLoop_error {key : κ} {salt : Bytes} {pieces : List Bytes}
    (hsize : ∀ piece ∈ pieces, piece.length ≤ legacyMaxChunkSize) (hnonce : nonce ≤ maxNonceCounter)
    (hfull : maxNonceCounter < nonce + 2 * pieces.length) (started : Bool) :
    encryptLegacyLoop p key salt nonce started pieces = .error .nonceExhausted := by
  induction pieces generalizing nonce started with
  | nil =>
    rw [List.length_nil] at hfull
    omega
  | cons piece rest ih =>
    rw [List.length_cons] at hfull
    have hpiece := hsize piece List.mem_cons_self
    rw [encryptLegacyLoop, encryptLegacyChunk, if_neg (by omega)]
    by_cases hroom : nonce + 2 ≤ maxNonceCounter
    · have hrest := ih (fun other hother => hsize other (List.mem_cons_of_mem _ hother)) hroom (by omega) true
      rw [sealChunk_ok hroom]
      simp only [bind, Except.bind, pure, Except.pure, hrest]
    · rw [sealChunk_error (by omega)]
      rfl

def Fits (d : Downlink κ) (nonce : Nat) (plaintext : Bytes) : Prop :=
  (d.cipher.isSs2022 = true → plaintext.length ≤ maxChunkSize) ∧
    nonce + 2 * (d.pieces plaintext).length ≤ maxNonceCounter

variable {plaintext : Bytes}

theorem length_le_of_mem_pieces {piece : Bytes}
    (hsize : d.cipher.isSs2022 = true → plaintext.length ≤ maxChunkSize) (h : piece ∈ d.pieces plaintext) :
    piece.length ≤ d.cipher.maxPayloadLen := by
  rw [Downlink.pieces] at h
  rw [CipherKind.maxPayloadLen]
  by_cases hss2022 : d.cipher.isSs2022 = true
  · rw [if_pos hss2022, List.mem_singleton] at h
    rw [if_pos hss2022, h]
    exact hsize hss2022
  · rw [if_neg hss2022] at h ⊢
    exact length_le_of_mem_chunks h

theorem flatten_pieces (d : Downlink κ) (plaintext : Bytes) : (d.pieces plaintext).flatten = plaintext := by
  rw [Downlink.pieces]
  split
  · simp
  · exact flatten_chunks (by decide) plaintext

theorem encryptChunk_ok (h : Fits d nonce plaintext) (started : Bool) :
    (d.encryptor started nonce).encryptChunk p d.timestamp plaintext = .ok (d.wire p started nonce (d.pieces plaintext),
        d.encryptor (started || !(d.pieces plaintext).isEmpty) (nonce + 2 * (d.pieces plaintext).length)) := by
  obtain ⟨hsize, hroom⟩ := h
  by_cases hss2022 : d.cipher.isSs2022 = true
  · have hpieces : d.pieces plaintext = [plaintext] := if_pos hss2022
    have hlen := hsize hss2022
    rw [hpieces, List.length_singleton] at hroom
    simp only [Downlink.encryptor, hss2022, if_true, encryptChunk, encryptSs2022Chunk, hpieces]
    rw [if_neg (by omega), sealChunk_ok (by omega), sealChunk_ok (by omega)]
    cases started <;> simp [wire, head, hss2022, bind, Except.bind, pure, Except.pure]
  · rw [Bool.not_eq_true] at hss2022
    have hpieces : d.pieces plaintext = chunks legacyMaxChunkSize plaintext := by simp [Downlink.pieces, hss2022]
    rw [hpieces] at hroom
    simp only [Downlink.encryptor, hss2022, Bool.false_eq_true, if_false, encryptChunk, hpieces]
    rw [encryptLegacyLoop_ok hss2022 (fun _ h => length_le_of_mem_chunks h) hroom]
    rfl

theorem encryptChunk_error
    (hnonce : nonce ≤ maxNonceCounter) (h : ¬ Fits d nonce plaintext) (started : Bool) (now : Nat) :
    ∃ error, (d.encryptor started nonce).encryptChunk p now plaintext = .error error := by
  by_cases hss2022 : d.cipher.isSs2022 = true
  · have hpieces : d.pieces plaintext = [plaintext] := if_pos hss2022
    simp only [Downlink.encryptor, hss2022, if_true, encryptChunk, encryptSs2022Chunk]
    by_cases hsize : maxChunkSize < plaintext.length
    · rw [if_pos hsize]
      exact ⟨_, rfl⟩
    · have hfull : maxNonceCounter < nonce + 2 := by
        by_contra hroom
        refine h ⟨fun _ => by omega, ?_⟩
        rw [hpieces, List.length_singleton]
        omega
      rw [if_neg hsize, sealChunk_error hfull, sealChunk_error hfull]
      cases started <;> exact ⟨_, rfl⟩
  · have hpieces : d.pieces plaintext = chunks legacyMaxChunkSize plaintext := by simp [Downlink.pieces, hss2022]
    have hfull : maxNonceCounter < nonce + 2 * (chunks legacyMaxChunkSize plaintext).length := by
      by_contra hroom
      refine h ⟨by simp [hss2022], ?_⟩
      rw [hpieces]
      omega
    simp only [Downlink.encryptor, hss2022, Bool.false_eq_true, if_false, encryptChunk]
    rw [encryptLegacyLoop_error (fun _ h => length_le_of_mem_chunks h) hnonce hfull]
    exact ⟨_, rfl⟩

end OutlineProxy.Shadowsocks
