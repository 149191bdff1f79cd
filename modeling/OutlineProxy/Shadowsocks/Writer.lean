import OutlineProxy.Shadowsocks.Reader
import OutlineProxy.Shadowsocks.Decryptor

/-! The client's writer of an uplink, and the streams it produces. -/

namespace OutlineProxy.Shadowsocks

open Sealing Pieces

variable {κ : Type}

inductive WriteError where
  | invalidInitialTargetHeader
  | header (error : Ss2022HeaderError)
  | nonceOverflow

structure TcpShadowsocksWriter (κ : Type) where
  cipher : CipherKind
  key : κ
  nonce : Nat := 0
  pendingSalt : Option Bytes
  headerSent : Bool := false

abbrev Written (κ : Type) := Bytes × TcpShadowsocksWriter κ

namespace TcpShadowsocksWriter

variable (p : Primitives κ)

def connect (cipher : CipherKind) (masterKey salt : Bytes) : TcpShadowsocksWriter κ where
  cipher := cipher
  key := p.deriveSubkey cipher masterKey salt
  pendingSalt := some salt

/-- `head` and `payload` sealed under the next two nonces, behind the salt if it is still to be sent. -/
def encryptPair (w : TcpShadowsocksWriter κ) (head payload : Bytes) : Except WriteError (Written κ) :=
  match incrementNonce w.nonce with
  | .error _ => .error .nonceOverflow
  | .ok nonce =>
    match incrementNonce nonce with
    | .error _ => .error .nonceOverflow
    | .ok after =>
      .ok (w.pendingSalt.getD [] ++ (p.aead.encrypt w.key w.nonce head ++ p.aead.encrypt w.key nonce payload),
        { w with nonce := after, pendingSalt := none })

def encryptPayloadFrame (w : TcpShadowsocksWriter κ) (payload : Bytes) : Except WriteError (Written κ) :=
  w.encryptPair p (toBe 2 payload.length) payload

def encryptPayloadFrames (p : Primitives κ) : TcpShadowsocksWriter κ → List Bytes → Except WriteError (Written κ)
  | w, [] => .ok ([], w)
  | w, chunk :: rest => do
    let (first, w) ← w.encryptPayloadFrame p chunk
    let (others, w) ← encryptPayloadFrames p w rest
    return (first ++ others, w)

def sendChunk (now : Nat) (padding : Bytes) (w : TcpShadowsocksWriter κ) (payload : Bytes) :
    Except WriteError (Written κ) :=
  if payload = [] then .ok ([], w)
  else if w.cipher.isSs2022 && !w.headerSent then
    match TargetAddr.fromWireBytes payload with
    | .error _ => .error .invalidInitialTargetHeader
    | .ok (target, _) =>
      match buildRequestHeader target now padding with
      | .error error => .error (.header error)
      | .ok (fixedHeader, variableHeader) => do
        let (frame, w) ← w.encryptPair p fixedHeader variableHeader
        return (frame, { w with headerSent := true })
  else if payload.length ≤ w.cipher.maxPayloadLen then w.encryptPayloadFrame p payload
  else w.encryptPayloadFrames p (chunks w.cipher.maxPayloadLen payload)

def sendKeepalive (w : TcpShadowsocksWriter κ) : Except WriteError (Written κ) :=
  if w.cipher.isSs2022 && w.headerSent then w.encryptPayloadFrame p [] else .ok ([], w)

end TcpShadowsocksWriter

inductive WriteCall where
  | chunk (payload : Bytes)
  | keepalive

@[simp] def WriteCall.payload : WriteCall → Bytes
  | .chunk payload => payload
  | .keepalive => []

namespace TcpShadowsocksWriter

def write (p : Primitives κ) (now : Nat) (padding : Bytes) (w : TcpShadowsocksWriter κ) :
    WriteCall → Except WriteError (Written κ)
  | .chunk payload => w.sendChunk p now padding payload
  | .keepalive => w.sendKeepalive p

def writeAll (p : Primitives κ) (now : Nat) (padding : Bytes) :
    TcpShadowsocksWriter κ → List WriteCall → Except WriteError (Written κ)
  | w, [] => .ok ([], w)
  | w, call :: rest => do
    let (first, w) ← w.write p now padding call
    let (others, w) ← writeAll p now padding w rest
    return (first ++ others, w)

end TcpShadowsocksWriter

def frames (p : Primitives κ) (key : κ) : Nat → List Bytes → Bytes
  | _, [] => []
  | nonce, chunk :: rest => p.aead.frame key nonce (toBe 2 chunk.length) chunk ++ frames p key (nonce + 2) rest

structure Uplink where
  user : UserKey
  salt : Bytes
  /-- The two headers of an SS2022 request, and the target they name. -/
  fixedHeader : Bytes
  variableHeader : Bytes
  target : Bytes
  chunks : List Bytes

namespace Uplink

def key (p : Primitives κ) (u : Uplink) : κ := p.deriveSubkey u.user.cipher u.user.masterKey u.salt

def firstNonce (u : Uplink) : Nat := if u.user.cipher.isSs2022 then 2 else 0

def body (p : Primitives κ) (u : Uplink) : Bytes :=
  (if u.user.cipher.isSs2022 then p.aead.frame (u.key p) 0 u.fixedHeader u.variableHeader else []) ++
    frames p (u.key p) u.firstNonce u.chunks

def wire (p : Primitives κ) (u : Uplink) : Bytes := u.salt ++ u.body p

def plaintext (u : Uplink) : Bytes := (if u.user.cipher.isSs2022 then u.target else []) ++ u.chunks.flatten

structure WellFormed (u : Uplink) (now : Nat) : Prop where
  salt : u.salt.length = u.user.cipher.saltLen
  header : u.user.cipher.isSs2022 = true → ∃ target timestamp padding,
    buildRequestHeader target timestamp padding = .ok (u.fixedHeader, u.variableHeader) ∧
      target.toWireBytes = .ok u.target ∧ Fresh timestamp now ∧ padding ≠ []
  bound : ∀ chunk ∈ u.chunks, chunk.length ≤ u.user.cipher.maxPayloadLen
  begun : u.user.cipher.isSs2022 = false → u.chunks ≠ []

end Uplink

theorem frames_append (p : Primitives κ) (key : κ) (nonce : Nat) (xs ys : List Bytes) :
    frames p key nonce (xs ++ ys) = frames p key nonce xs ++ frames p key (nonce + 2 * xs.length) ys := by
  induction xs generalizing nonce with
  | nil => simp [frames]
  | cons chunk rest ih => grind [frames, List.length_cons, List.append_assoc]

namespace TcpShadowsocksWriter

variable {p : Primitives κ} {w after : TcpShadowsocksWriter κ} {out : Bytes}

theorem encryptPair_cases {head payload : Bytes} (h : w.encryptPair p head payload = .ok (out, after)) :
    out = w.pendingSalt.getD [] ++ p.aead.frame w.key w.nonce head payload ∧
      after = { w with nonce := w.nonce + 2, pendingSalt := none } := by
  rw [encryptPair, incrementNonce] at h
  split_ifs at h
  dsimp only [incrementNonce] at h
  split_ifs at h
  cases h
  exact ⟨rfl, rfl⟩

structure Sends (p : Primitives κ) (w : TcpShadowsocksWriter κ) (records : List Bytes) (out : Bytes)
    (after : TcpShadowsocksWriter κ) : Prop where
  out : out = (if records = [] then [] else w.pendingSalt.getD []) ++ frames p w.key w.nonce records
  after : after = { w with
    nonce := w.nonce + 2 * records.length, pendingSalt := if records = [] then w.pendingSalt else none }

theorem sends_nil (p : Primitives κ) (w : TcpShadowsocksWriter κ) : w.Sends p [] [] w := ⟨rfl, rfl⟩

theorem Sends.append {xs ys : List Bytes} {first second : Bytes} {middle : TcpShadowsocksWriter κ}
    (hx : w.Sends p xs first middle) (hy : middle.Sends p ys second after) :
    w.Sends p (xs ++ ys) (first ++ second) after := by
  obtain ⟨rfl, rfl⟩ := hx
  obtain ⟨rfl, rfl⟩ := hy
  rcases xs with - | ⟨x, xs⟩
  · exact ⟨rfl, rfl⟩
  · refine ⟨?_, ?_⟩
    · rw [frames_append]
      simp
    · simp
      omega

theorem encryptPayloadFrame_sends {payload : Bytes} (h : w.encryptPayloadFrame p payload = .ok (out, after)) :
    w.Sends p [payload] out after := by
  obtain ⟨rfl, rfl⟩ := encryptPair_cases h
  exact ⟨by simp [frames], by simp⟩

theorem encryptPayloadFrames_sends {records : List Bytes} (h : w.encryptPayloadFrames p records = .ok (out, after)) :
    w.Sends p records out after := by
  induction records generalizing w out with
  | nil =>
    cases h
    exact sends_nil p _
  | cons record rest ih =>
    obtain ⟨⟨first, middle⟩, hfirst, h⟩ := exists_of_bind_ok h
    obtain ⟨⟨others, last⟩, hothers, h⟩ := exists_of_bind_ok h
    cases h
    exact (encryptPayloadFrame_sends hfirst).append (ih hothers)

variable {now : Nat} {padding : Bytes}

theorem write_sends {call : WriteCall} (hready : (w.cipher.isSs2022 && !w.headerSent) = false)
    (h : w.write p now padding call = .ok (out, after)) :
    ∃ records, w.Sends p records out after ∧ records.flatten = call.payload ∧
      ∀ record ∈ records, record.length ≤ w.cipher.maxPayloadLen := by
  cases call with
  | keepalive =>
    simp only [write, sendKeepalive] at h
    split at h
    · exact ⟨[[]], encryptPayloadFrame_sends h, rfl, by simp⟩
    · cases h
      exact ⟨[], sends_nil p w, rfl, by simp⟩
  | chunk payload =>
    simp only [write, sendChunk, hready, Bool.false_eq_true, if_false] at h
    split at h
    · rename_i hempty
      cases h
      exact ⟨[], sends_nil p w, hempty.symm, by simp⟩
    · split at h
      · rename_i hsize
        exact ⟨[payload], encryptPayloadFrame_sends h, List.flatten_singleton, by simpa using hsize⟩
      · exact ⟨_, encryptPayloadFrames_sends h, flatten_chunks (by cases w.cipher <;> decide) payload,
          fun record hrecord => length_le_of_mem_chunks hrecord⟩

theorem writeAll_sends {calls : List WriteCall} (hready : (w.cipher.isSs2022 && !w.headerSent) = false)
    (h : w.writeAll p now padding calls = .ok (out, after)) :
    ∃ records, w.Sends p records out after ∧ records.flatten = (calls.map WriteCall.payload).flatten ∧
      ∀ record ∈ records, record.length ≤ w.cipher.maxPayloadLen := by
  induction calls generalizing w out with
  | nil =>
    cases h
    exact ⟨[], sends_nil p _, rfl, by simp⟩
  | cons call rest ih =>
    obtain ⟨⟨first, middle⟩, hfirst, h⟩ := exists_of_bind_ok h
    obtain ⟨⟨others, last⟩, hothers, h⟩ := exists_of_bind_ok h
    cases h
    obtain ⟨xs, hxs, hxbytes, hxbound⟩ := write_sends hready hfirst
    have hsame : middle.cipher = w.cipher ∧ middle.headerSent = w.headerSent := by rw [hxs.after]; exact ⟨rfl, rfl⟩
    obtain ⟨ys, hys, hybytes, hybound⟩ := ih (by rw [hsame.1, hsame.2]; exact hready) hothers
    rw [hsame.1] at hybound
    exact ⟨xs ++ ys, hxs.append hys, by simp [hxbytes, hybytes], List.forall_mem_append.2 ⟨hxbound, hybound⟩⟩

variable {user : UserKey} {salt address : Bytes} {target : TargetAddr}

theorem address_ne_nil (haddress : target.toWireBytes = .ok address) : address ≠ [] := by
  rintro rfl
  cases parseInner_toWireBytes haddress []

theorem sendChunk_connect (haddress : target.toWireBytes = .ok address) (hss2022 : user.cipher.isSs2022 = true)
    (h : (connect p user.cipher user.masterKey salt).sendChunk p now padding address = .ok (out, after)) :
    ∃ fixedHeader variableHeader, buildRequestHeader target now padding = .ok (fixedHeader, variableHeader) ∧
      out = salt ++ p.aead.frame (p.deriveSubkey user.cipher user.masterKey salt) 0 fixedHeader variableHeader ∧
      after = { connect p user.cipher user.masterKey salt with
        nonce := 2, pendingSalt := none, headerSent := true } := by
  have hparse := parseInner_toWireBytes haddress []
  rw [List.append_nil] at hparse
  have hread : TargetAddr.fromWireBytes address = .ok (target, address.length) := by
    rw [TargetAddr.fromWireBytes, if_neg (address_ne_nil haddress), hparse]
  rw [sendChunk, if_neg (address_ne_nil haddress), if_pos (by simp [connect, hss2022]), hread] at h
  dsimp only at h
  split at h
  · cases h
  · rename_i fixedHeader variableHeader hheader
    obtain ⟨⟨frame, middle⟩, hpair, h⟩ := exists_of_bind_ok h
    cases h
    obtain ⟨rfl, rfl⟩ := encryptPair_cases hpair
    exact ⟨fixedHeader, variableHeader, hheader, rfl, rfl⟩

end TcpShadowsocksWriter

end OutlineProxy.Shadowsocks
