import OutlineProxy.Shadowsocks.Request

/-! The server's decryptor of an uplink: it finds out whose stream it is, and opens what has arrived of it. -/

namespace OutlineProxy.Shadowsocks

open Sealing

variable {κ : Type}

structure UserKey where
  cipher : CipherKind
  masterKey : Bytes

inductive ActiveStreamMode where
  | legacy (requestSalt : Bytes) (pendingChunkLen : Option Nat)
  | ss2022 (requestSalt : Bytes) (headerParsed : Bool) (pendingHeaderLen pendingChunkLen : Option Nat)

structure ActiveStream (κ : Type) where
  user : UserKey
  userIndex : Nat
  key : κ
  nonceCounter : Nat
  mode : ActiveStreamMode

structure AeadStreamDecryptor (κ : Type) where
  users : List UserKey
  buffer : Bytes := []
  active : Option (ActiveStream κ) := none
  userHint : Option Nat := none

def Ss2022HeaderError.toCryptoError : Ss2022HeaderError → CryptoError
  | .timestampSkew _ => .invalidTimestamp
  | _ => .invalidHeader

def validateSs2022RequestFixedHeader (header : Bytes) (now : Nat) : Except CryptoError Nat :=
  match validateRequestFixedHeader header now with
  | .error error => .error error.toCryptoError
  | .ok headerLen => .ok headerLen

def encodeTargetAndPayload (request : Ss2022Request) : Except CryptoError Bytes :=
  match request.target.toWireBytes with
  | .error _ => .error .invalidHeader
  | .ok target => .ok (target ++ request.payload)

def parseSs2022RequestHeader (header : Bytes) : Except CryptoError Bytes :=
  match parseRequestVariableHeader header with
  | .error error => .error error.toCryptoError
  | .ok request => encodeTargetAndPayload request

variable (p : Primitives κ)

def tryOpenFixedHeader (key : κ) (ciphertext : Bytes) (expectedPlaintextLen : Nat) : Option Bytes :=
  match p.aead.decrypt key 0 ciphertext with
  | none => none
  | some plaintext => if plaintext.length = expectedPlaintextLen then some plaintext else none

def UserKey.firstPlaintextLen (user : UserKey) : Nat :=
  if user.cipher.isSs2022 then ss2022RequestFixedHeaderLen else 2

def UserKey.need (user : UserKey) : Nat := user.cipher.saltLen + (user.firstPlaintextLen + tagLen)

def UserKey.openFirst (user : UserKey) (buffer : Bytes) : Option Bytes :=
  tryOpenFixedHeader p (p.deriveSubkey user.cipher user.masterKey (buffer.take user.cipher.saltLen))
    ((buffer.take user.need).drop user.cipher.saltLen) user.firstPlaintextLen

inductive CandidateOutcome (κ : Type) where
  | authenticated (buffer : Bytes) (active : ActiveStream κ)
  | probed
  | tooShort

def tryUser (now : Nat) (buffer : Bytes) (user : UserKey) (userIndex : Nat) :
    Except CryptoError (CandidateOutcome κ) :=
  let salt := buffer.take user.cipher.saltLen
  let key := p.deriveSubkey user.cipher user.masterKey salt
  if buffer.length < user.need then .ok .tooShort
  else
    match user.openFirst p buffer with
    | none => .ok .probed
    | some plaintext =>
      if user.cipher.isSs2022 then
        match validateSs2022RequestFixedHeader plaintext now with
        | .error error => .error error
        | .ok headerLen =>
          .ok (.authenticated (buffer.drop user.need)
            ⟨user, userIndex, key, 1, .ss2022 salt false (some headerLen) none⟩)
      else if ofBe plaintext ≤ legacyMaxChunkSize then
        -- only the salt is consumed: the length is opened again with the first chunk
        .ok (.authenticated (buffer.drop user.cipher.saltLen) ⟨user, userIndex, key, 0, .legacy salt none⟩)
      else .ok .probed

def drainLengthHeader (buffer : Bytes) (key : κ) (nonceCounter maxSize : Nat) :
    Except CryptoError (Option (Nat × Bytes × Nat)) :=
  if buffer.length < 2 + tagLen then .ok none
  else do
    let (nonce, nonceCounter) ← nextStreamNonce nonceCounter
    match p.aead.decrypt key nonce (buffer.take (2 + tagLen)) with
    | none => .error .invalidLengthHeader
    | some block =>
      if block.length ≠ 2 then .error .invalidLengthHeader
      else if maxSize < ofBe block then .error (.invalidChunkSize (ofBe block))
      else .ok (some (ofBe block, buffer.drop (2 + tagLen), nonceCounter))

/-- What a turn of `drain_plaintext` leaves: the rest of the buffer, the counter, the length still pending, what was
opened, and whether to go on. -/
structure Drained where
  buffer : Bytes
  nonceCounter : Nat
  pendingLen : Option Nat
  output : Bytes
  more : Bool

/-- The part of `drain_payload` for a chunk of known length. -/
def drainChunk (buffer : Bytes) (key : κ) (nonceCounter chunkLen : Nat) :
    Except CryptoError Drained :=
  if buffer.length < chunkLen + tagLen then .ok ⟨buffer, nonceCounter, some chunkLen, [], false⟩
  else do
    let (nonce, nonceCounter) ← nextStreamNonce nonceCounter
    match p.aead.decrypt key nonce (buffer.take (chunkLen + tagLen)) with
    | none => .error .cipher
    | some payload => .ok ⟨buffer.drop (chunkLen + tagLen), nonceCounter, none, payload, true⟩

def drainPayload (buffer : Bytes) (key : κ) (nonceCounter : Nat) (pendingChunkLen : Option Nat)
    (maxSize : Nat) : Except CryptoError Drained :=
  match pendingChunkLen with
  | some chunkLen => drainChunk p buffer key nonceCounter chunkLen
  | none =>
    match drainLengthHeader p buffer key nonceCounter maxSize with
    | .error error => .error error
    | .ok none => .ok ⟨buffer, nonceCounter, none, [], false⟩
    | .ok (some (chunkLen, buffer, nonceCounter)) => drainChunk p buffer key nonceCounter chunkLen

def drainHeader (buffer : Bytes) (key : κ) (nonceCounter headerLen : Nat) :
    Except CryptoError Drained :=
  if buffer.length < headerLen + tagLen then .ok ⟨buffer, nonceCounter, some headerLen, [], false⟩
  else do
    let (nonce, nonceCounter) ← nextStreamNonce nonceCounter
    match p.aead.decrypt key nonce (buffer.take (headerLen + tagLen)) with
    | none => .error .cipher
    | some header =>
      let output ← parseSs2022RequestHeader header
      return ⟨buffer.drop (headerLen + tagLen), nonceCounter, none, output, true⟩

namespace AeadStreamDecryptor

def setUserHint (d : AeadStreamDecryptor κ) (hint : Option Nat) : AeadStreamDecryptor κ :=
  { d with userHint := hint.filter (· < d.users.length) }

def feedCiphertext (d : AeadStreamDecryptor κ) (data : Bytes) : AeadStreamDecryptor κ :=
  { d with buffer := d.buffer ++ data }

def candidates (d : AeadStreamDecryptor κ) : List (UserKey × Nat) :=
  d.users.zipIdx.filter (fun candidate => some candidate.2 = d.userHint) ++
    d.users.zipIdx.filter (fun candidate => some candidate.2 ≠ d.userHint)

/-- The scan of `ensure_session_key` over the candidates that are left. -/
def scan (p : Primitives κ) (now : Nat) (buffer : Bytes) :
    Bool → List (UserKey × Nat) → Except CryptoError (Option (Bytes × ActiveStream κ))
  | anyCandidate, [] => if anyCandidate then .error .unknownUser else .ok none
  | anyCandidate, (user, index) :: rest =>
    match tryUser p now buffer user index with
    | .error error => .error error
    | .ok (.authenticated buffer active) => .ok (some (buffer, active))
    | .ok .probed => scan p now buffer true rest
    | .ok .tooShort => scan p now buffer anyCandidate rest

def ensureSessionKey (p : Primitives κ) (now : Nat) (d : AeadStreamDecryptor κ) :
    Except CryptoError (AeadStreamDecryptor κ) :=
  if d.active.isSome then .ok d
  else
    match scan p now d.buffer false d.candidates with
    | .error error => .error error
    | .ok none => .ok d
    | .ok (some (buffer, active)) => .ok { d with buffer := buffer, active := some active }

/-- One turn of the loop in `drain_plaintext`. -/
def drainTurn (p : Primitives κ) (buffer : Bytes) (active : ActiveStream κ) :
    Except CryptoError (Bytes × ActiveStream κ × Bytes × Bool) :=
  match active.mode with
  | .legacy requestSalt pendingChunkLen => do
    let drained ← drainPayload p buffer active.key active.nonceCounter pendingChunkLen legacyMaxChunkSize
    return (drained.buffer,
      { active with nonceCounter := drained.nonceCounter, mode := .legacy requestSalt drained.pendingLen },
      drained.output, drained.more)
  | .ss2022 requestSalt true pendingHeaderLen pendingChunkLen => do
    let drained ← drainPayload p buffer active.key active.nonceCounter pendingChunkLen maxChunkSize
    return (drained.buffer, { active with
        nonceCounter := drained.nonceCounter
        mode := .ss2022 requestSalt true pendingHeaderLen drained.pendingLen }, drained.output, drained.more)
  | .ss2022 requestSalt false pendingHeaderLen pendingChunkLen =>
    match pendingHeaderLen with
    | none => .error .invalidHeader
    | some headerLen => do
      let drained ← drainHeader p buffer active.key active.nonceCounter headerLen
      return (drained.buffer, { active with
          nonceCounter := drained.nonceCounter
          mode := .ss2022 requestSalt drained.more drained.pendingLen pendingChunkLen },
        drained.output, drained.more)

/-- The loop of `drain_plaintext`, for at most `fuel` turns. -/
def drainLoop (p : Primitives κ) : Nat → Bytes → ActiveStream κ → Except CryptoError (Bytes × ActiveStream κ × Bytes)
  | 0, buffer, active => .ok (buffer, active, [])
  | fuel + 1, buffer, active =>
    match drainTurn p buffer active with
    | .error error => .error error
    | .ok (buffer, active, output, false) => .ok (buffer, active, output)
    | .ok (buffer, active, output, true) => do
      let (buffer, active, more) ← drainLoop p fuel buffer active
      return (buffer, active, output ++ more)

def drainPlaintext (p : Primitives κ) (now : Nat) (d : AeadStreamDecryptor κ) :
    Except CryptoError (AeadStreamDecryptor κ × Bytes) := do
  let d ← d.ensureSessionKey p now
  match d.active with
  | none => return (d, [])
  | some active => do
    let (buffer, active, output) ← drainLoop p (d.buffer.length + 1) d.buffer active
    return ({ d with buffer := buffer, active := some active }, output)

def userIndex (d : AeadStreamDecryptor κ) : Option Nat := d.active.map (·.userIndex)

def drainPieces (p : Primitives κ) (now : Nat) :
    AeadStreamDecryptor κ → List Bytes → Except CryptoError (AeadStreamDecryptor κ × Bytes)
  | d, [] => .ok (d, [])
  | d, piece :: rest => do
    let (d, output) ← (d.feedCiphertext piece).drainPlaintext p now
    let (d, more) ← drainPieces p now d rest
    return (d, output ++ more)

end AeadStreamDecryptor

end OutlineProxy.Shadowsocks
