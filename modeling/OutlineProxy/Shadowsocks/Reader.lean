import OutlineProxy.Lib.Runs
import OutlineProxy.Shadowsocks.Encryptor

/-! The client's reader of a downlink, whose calls are futures that can be dropped where they wait. -/

namespace OutlineProxy.Shadowsocks

open Sealing

variable {κ : Type}

inductive ParseResult where
  | valid (upAcked : Nat)
  | tooShort
  | badMagic
  | unsupportedVersion (version : UInt8)
  | reservedFlagsSet (flags : UInt8)
deriving DecidableEq

def resumeMagic : Bytes := [0x4f, 0x52, 0x53, 0x4d]

def resumeVersionV1 : UInt8 := 1

def frameLenV1 : Nat := 14

def parseV1 (buf : Bytes) : ParseResult :=
  if buf.length < frameLenV1 then .tooShort
  else if buf.take 4 ≠ resumeMagic then .badMagic
  else if buf.getD 4 0 ≠ resumeVersionV1 then .unsupportedVersion (buf.getD 4 0)
  else if buf.getD 5 0 ≠ 0 then .reservedFlagsSet (buf.getD 5 0)
  else .valid (ofBe ((buf.take 14).drop 6))

inductive ReadError where
  | missingCipher
  | decrypt
  | nonceOverflow
  | header (error : Ss2022HeaderError)
  | lengthBlock
  | payloadLength (length : Nat)
  | ackFrame (result : ParseResult)
deriving DecidableEq

def incrementNonce (nonce : Nat) : Except ReadError Nat :=
  if nonce + 1 = 2 ^ 96 then .error .nonceOverflow else .ok (nonce + 1)

structure Ss2022TcpReaderState where
  requestSalt : Bytes
  responseHeaderRead : Bool := false

structure TcpShadowsocksReader (κ : Type) where
  /-- What the transport has received and not handed out. -/
  buffer : Bytes := []
  cipher : CipherKind
  masterKey : Bytes
  cipherState : Option κ := none
  nonce : Nat := 0
  ss2022 : Option Ss2022TcpReaderState
  expectAckPrefix : Bool := false
  upAcked : Option Nat := none
  pendingTail : Option Bytes := none

/-- The `read_exact` a pending call waits in, with what the call remembers there. -/
inductive ReadPoint where
  | salt
  | responseHeader
  | initialPayload (payloadLen : Nat)
  | length
  | payload (payloadLen : Nat)

inductive ReadProgress (κ : Type) where
  | pending (reader : TcpShadowsocksReader κ) (point : ReadPoint)
  | ready (reader : TcpShadowsocksReader κ) (chunk : Bytes)
  | failed (error : ReadError)

namespace TcpShadowsocksReader

def decryptInPlaceSession (p : Primitives κ) (r : TcpShadowsocksReader κ) (buf : Bytes) :
    Except ReadError (Bytes × TcpShadowsocksReader κ) :=
  match r.cipherState with
  | none => .error .missingCipher
  | some key =>
    match p.aead.decrypt key r.nonce buf with
    | none => .error .decrypt
    | some plaintext =>
      match incrementNonce r.nonce with
      | .error error => .error error
      | .ok nonce => .ok (plaintext, { r with nonce := nonce })

variable (r : TcpShadowsocksReader κ)

def need : ReadPoint → Nat
  | .salt => r.cipher.saltLen
  | .responseHeader => 1 + 8 + r.cipher.saltLen + 2 + tagLen
  | .initialPayload payloadLen => payloadLen + tagLen
  | .length => 2 + tagLen
  | .payload payloadLen => payloadLen + tagLen

/-- Where `read_one_decrypted_chunk` first waits once the session cipher exists. -/
def afterSalt : ReadPoint :=
  match r.ss2022 with
  | some state => if state.responseHeaderRead then .length else .responseHeader
  | none => .length

def entry : ReadPoint :=
  if r.cipherState.isNone then .salt else r.afterSalt

/-- What `read_chunk` does with a decrypted chunk. -/
def deliver (chunk : Bytes) : ReadProgress κ :=
  if r.expectAckPrefix then
    match parseV1 chunk with
    | .valid upAcked =>
      let r := { r with upAcked := some upAcked, expectAckPrefix := false }
      if frameLenV1 < chunk.length then .ready r (chunk.drop frameLenV1) else .pending r r.entry
    | result => .failed (.ackFrame result)
  else .ready r chunk

/-- What a call does from the end of a `read_exact` up to its next one. -/
def advance (p : Primitives κ) (now : Nat) (r : TcpShadowsocksReader κ) (bytes : Bytes) : ReadPoint → ReadProgress κ
  | .salt =>
    let r := { r with cipherState := some (p.deriveSubkey r.cipher r.masterKey bytes) }
    .pending r r.afterSalt
  | .responseHeader =>
    match r.decryptInPlaceSession p bytes with
    | .error error => .failed error
    | .ok (header, r) =>
      match parseResponseHeader r.cipher ((r.ss2022.map (·.requestSalt)).getD []) header now with
      | .error error => .failed (.header error)
      | .ok payloadLen => .pending r (.initialPayload payloadLen)
  | .initialPayload _ =>
    match r.decryptInPlaceSession p bytes with
    | .error error => .failed error
    | .ok (payload, r) =>
      let r := { r with ss2022 := r.ss2022.map fun state => { state with responseHeaderRead := true } }
      if payload = [] then .pending r .length else r.deliver payload
  | .length =>
    match r.decryptInPlaceSession p bytes with
    | .error error => .failed error
    | .ok (block, r) =>
      if block.length ≠ 2 then .failed .lengthBlock
      else if r.cipher.maxPayloadLen < ofBe block then .failed (.payloadLength (ofBe block))
      else .pending r (.payload (ofBe block))
  | .payload _ =>
    match r.decryptInPlaceSession p bytes with
    | .error error => .failed error
    | .ok (payload, r) => r.deliver payload

end TcpShadowsocksReader

/-- A reader, its pending call, the messages it has not received and what its calls returned. -/
structure Reading (κ : Type) where
  reader : TcpShadowsocksReader κ
  future : Option ReadPoint := none
  inbox : List Bytes
  returned : List Bytes := []
  failed : Option ReadError := none

inductive ReadEvent where
  | call
  /-- The pending call goes on with bytes that are there. -/
  | resume
  /-- The pending call receives the next message. -/
  | receive
  | drop

namespace Reading

variable (s : Reading κ)

def waits : Bool :=
  match s.future with
  | some point => s.reader.buffer.length < s.reader.need point
  | none => false

def settle : ReadProgress κ → Reading κ
  | .pending reader point => { s with reader := reader, future := some point }
  | .ready reader chunk => { s with reader := reader, future := none, returned := s.returned ++ [chunk] }
  | .failed error => { s with future := none, failed := some error }

def call : Option (Reading κ) :=
  if s.future.isSome ∨ s.failed.isSome then none
  else
    match s.reader.pendingTail with
    | some tail =>
      some { s with reader := { s.reader with pendingTail := none }, returned := s.returned ++ [tail] }
    | none => some { s with future := some s.reader.entry }

def resume (p : Primitives κ) (now : Nat) (s : Reading κ) : Option (Reading κ) :=
  match s.future with
  | none => none
  | some point =>
    if s.waits then none
    else
      let bytes := s.reader.buffer.take (s.reader.need point)
      let reader := { s.reader with buffer := s.reader.buffer.drop (s.reader.need point) }
      some (s.settle (reader.advance p now bytes point))

def receive : Option (Reading κ) :=
  match s.inbox with
  | [] => none
  | message :: rest =>
    if s.waits then
      some { s with reader := { s.reader with buffer := s.reader.buffer ++ message }, inbox := rest }
    else none

def drop : Option (Reading κ) :=
  if s.waits then some { s with future := none } else none

def step (p : Primitives κ) (now : Nat) (s : Reading κ) : ReadEvent → Option (Reading κ)
  | .call => s.call
  | .resume => s.resume p now
  | .receive => s.receive
  | .drop => s.drop

end Reading

end OutlineProxy.Shadowsocks
