import OutlineProxy.Lib.Incremental
import OutlineProxy.Shadowsocks.Request

/-! The frames of the multiplexed command. -/

namespace OutlineProxy.Vless

open List Sealing Incremental
open Shadowsocks (Bytes Octets TargetAddr portAt portAt_append)
open Shadowsocks.TargetAddr (hostBytes)

def atypIpv4 : UInt8 := 1

def atypDomain : UInt8 := 2

def atypIpv6 : UInt8 := 3

def optionData : UInt8 := 1

def optionError : UInt8 := 2

def globalIdLen : Nat := 8

def maxFrameDataSize : Nat := 16 * 1024

inductive MuxError where
  | metaTooShort
  | metaTrailing
  | unknownStatus (status : UInt8)
  | unknownNetwork (network : UInt8)
  | unknownAddressType (atyp : UInt8)
  | invalidDomain
  | dataTooLarge (length : Nat)
  | domainTooLong (length : Nat)
deriving DecidableEq

inductive SessionStatus where
  | new
  | keep
  | finish
  | keepAlive
deriving DecidableEq

namespace SessionStatus

def asU8 : SessionStatus → UInt8
  | new => 1
  | keep => 2
  | finish => 3
  | keepAlive => 4

def fromU8 (byte : UInt8) : Except MuxError SessionStatus :=
  if byte = 1 then .ok new
  else if byte = 2 then .ok keep
  else if byte = 3 then .ok finish
  else if byte = 4 then .ok keepAlive
  else .error (.unknownStatus byte)

@[simp] theorem fromU8_asU8 (status : SessionStatus) : fromU8 status.asU8 = .ok status := by
  cases status <;> rfl

end SessionStatus

inductive Network where
  | tcp
  | udp
deriving DecidableEq

namespace Network

def asU8 : Network → UInt8
  | tcp => 1
  | udp => 2

def fromNibble (nibble : UInt8) : Except MuxError Network :=
  if nibble = 1 then .ok tcp else if nibble = 2 then .ok udp else .error (.unknownNetwork nibble)

end Network

/-- A target, the network of a new session and its global id are there where the status has them. -/
structure FrameMeta where
  sessionId : UInt16
  status : SessionStatus
  option : UInt8
  target : Option TargetAddr
  network : Option Network
  globalId : Option (Octets globalIdLen)

def FrameMeta.hasData (frame : FrameMeta) : Bool := frame.option &&& optionData != 0

structure ParsedFrame where
  frameMeta : FrameMeta
  data : Option Bytes
  consumed : Nat

def parseHostDomain (port : UInt16) : Bytes → Except MuxError (TargetAddr × Nat)
  | [] => .error .metaTooShort
  | len :: rest =>
    if rest.length < len.toNat then .error .metaTooShort
    else
      match String.fromUTF8? ⟨(rest.take len.toNat).toArray⟩ with
      | none => .error .invalidDomain
      | some host => .ok (.domain host port, 1 + len.toNat)

def parseHost (atyp : UInt8) (rest : Bytes) (port : UInt16) : Except MuxError (TargetAddr × Nat) :=
  if atyp = atypIpv4 then
    if h : rest.length < 4 then .error .metaTooShort
    else .ok (.ipV4 ⟨rest.take 4, length_take_of_le (Nat.le_of_not_lt h)⟩ port, 4)
  else if atyp = atypDomain then parseHostDomain port rest
  else if atyp = atypIpv6 then
    if h : rest.length < 16 then .error .metaTooShort
    else .ok (.ipV6 ⟨rest.take 16, length_take_of_le (Nat.le_of_not_lt h)⟩ port, 16)
  else .error (.unknownAddressType atyp)

def parseTarget (input : Bytes) : Except MuxError (TargetAddr × Network × Nat) :=
  if input.length < 3 then .error .metaTooShort
  else do
    let net ← Network.fromNibble (byteAt input 2 >>> 4)
    let (addr, used) ← parseHost (byteAt input 2 &&& 0x0f) (input.drop 3) (portAt input 0)
    return (addr, net, 3 + used)

theorem length_globalId {metaBytes : Bytes} {cursor : Nat} (h : ¬ metaBytes.length < cursor + globalIdLen) :
    (slice metaBytes cursor (cursor + globalIdLen)).length = globalIdLen := by
  rw [length_slice (Nat.le_of_not_lt h), Nat.add_sub_cancel_left]

/-- What stands behind the session id, the status and the option: the target, the network, the global id and where
they end. -/
def parseMetaTail (status : SessionStatus) (metaBytes : Bytes) :
    Except MuxError (Option TargetAddr × Option Network × Option (Octets globalIdLen) × Nat) :=
  match status with
  | .new => do
    let (addr, net, used) ← parseTarget (metaBytes.drop 4)
    let cursor := 4 + used
    if net = .udp then
      if h : metaBytes.length < cursor + globalIdLen then .error .metaTooShort
      else
        .ok (some addr, some net, some ⟨slice metaBytes cursor (cursor + globalIdLen), length_globalId h⟩,
          cursor + globalIdLen)
    else .ok (some addr, some net, none, cursor)
  | .keep =>
    if 4 < metaBytes.length then do
      let (addr, _, used) ← parseTarget (metaBytes.drop 4)
      return (some addr, none, none, 4 + used)
    else .ok (none, none, none, 4)
  | .finish | .keepAlive => .ok (none, none, none, 4)

def parseMeta (metaBytes : Bytes) : Except MuxError (FrameMeta × Nat) :=
  if metaBytes.length < 4 then .error .metaTooShort
  else do
    let status ← SessionStatus.fromU8 (byteAt metaBytes 2)
    let (target, network, globalId, cursor) ← parseMetaTail status metaBytes
    return (⟨portAt metaBytes 0, status, byteAt metaBytes 3, target, network, globalId⟩, cursor)

def parseFrameData (input : Bytes) (frameMeta : FrameMeta) (cursor : Nat) : Except MuxError (Option ParsedFrame) :=
  if frameMeta.hasData then
    if input.length < cursor + 2 then .ok none
    else
      let dataLen := (portAt input cursor).toNat
      if maxFrameDataSize < dataLen then .error (.dataTooLarge dataLen)
      else if input.length < cursor + 2 + dataLen then .ok none
      else .ok (some ⟨frameMeta, some (slice input (cursor + 2) (cursor + 2 + dataLen)), cursor + 2 + dataLen⟩)
  else .ok (some ⟨frameMeta, none, cursor⟩)

def parseFrame (input : Bytes) : Except MuxError (Option ParsedFrame) :=
  if input.length < 2 then .ok none
  else
    let metaLen := (portAt input 0).toNat
    if metaLen < 4 then .error .metaTooShort
    else if input.length < 2 + metaLen then .ok none
    else
      match parseMeta (slice input 2 (2 + metaLen)) with
      | .error error => .error error
      | .ok (frameMeta, metaConsumed) =>
        if metaConsumed ≠ metaLen then .error .metaTrailing else parseFrameData input frameMeta (2 + metaLen)

def writeTarget (out : Bytes) (addr : TargetAddr) (net : Network) : Except MuxError Bytes :=
  match addr with
  | .ipV4 octets port => .ok (out ++ (toBe 2 port.toNat ++ (net.asU8 <<< 4 ||| atypIpv4) :: octets.val))
  | .ipV6 octets port => .ok (out ++ (toBe 2 port.toNat ++ (net.asU8 <<< 4 ||| atypIpv6) :: octets.val))
  | .domain host port =>
    if 255 < (hostBytes host).length then .error (.domainTooLong (hostBytes host).length)
    else
      .ok (out ++ (toBe 2 port.toNat ++
        (net.asU8 <<< 4 ||| atypDomain) :: UInt8.ofNat (hostBytes host).length :: hostBytes host))

def metaHead (sessionId : UInt16) (status : SessionStatus) (option : UInt8) : Bytes :=
  toBe 2 sessionId.toNat ++ [status.asU8, option]

def writeMetaTail (metaBytes : Bytes) (status : SessionStatus) (network : Option Network) (target : Option TargetAddr) :
    Option (Except MuxError Bytes) :=
  match status, network, target with
  | .new, some net, some addr => some (writeTarget metaBytes addr net)
  | .new, _, _ => none
  | .keep, _, some addr => some (writeTarget metaBytes addr (network.getD .udp))
  | .keep, _, none => some (.ok metaBytes)
  | .finish, _, _ | .keepAlive, _, _ => some (.ok metaBytes)

def dataBytes : Option Bytes → Bytes
  | some data => toBe 2 data.length ++ data
  | none => []

def sentData (option : UInt8) (data : Option Bytes) : Option Bytes := if option &&& optionData != 0 then data else none

def encodeFrame (out : Bytes) (sessionId : UInt16) (status : SessionStatus) (option : UInt8) (network : Option Network)
    (target : Option TargetAddr) (data : Option Bytes) : Option (Except MuxError Unit × Bytes) :=
  let data := sentData option data
  if maxFrameDataSize < (data.getD []).length then some (.error (.dataTooLarge (data.getD []).length), out)
  else
    (writeMetaTail (metaHead sessionId status option) status network target).map fun
      | .error error => (.error error, out)
      | .ok metaBytes => (.ok (), out ++ (toBe 2 metaBytes.length ++ (metaBytes ++ dataBytes data)))

section Targets

variable {addr : TargetAddr} {net : Network} {out block : Bytes}

theorem portAt_start (port : UInt16) (after : Bytes) : portAt (toBe 2 port.toNat ++ after) 0 = port :=
  (portAt_append rfl port after : portAt ([] ++ toBe 2 port.toNat ++ after) 0 = port)

theorem typeByte_split (net : Network) {atyp : UInt8} (h : atyp = atypIpv4 ∨ atyp = atypDomain ∨ atyp = atypIpv6) :
    Network.fromNibble ((net.asU8 <<< 4 ||| atyp) >>> 4) = .ok net ∧ (net.asU8 <<< 4 ||| atyp) &&& 0x0f = atyp := by
  rcases h with rfl | rfl | rfl <;> cases net <;> decide

theorem parseTarget_of_parseHost {atyp : UInt8} (h : atyp = atypIpv4 ∨ atyp = atypDomain ∨ atyp = atypIpv6)
    {port : UInt16} {host : Bytes} (hhost : parseHost atyp host port = .ok (addr, host.length)) :
    parseTarget (toBe 2 port.toNat ++ (net.asU8 <<< 4 ||| atyp) :: host) =
      .ok (addr, net, (toBe 2 port.toNat ++ (net.asU8 <<< 4 ||| atyp) :: host).length) := by
  obtain ⟨hnet, hatyp⟩ := typeByte_split net h
  have htype : byteAt (toBe 2 port.toNat ++ (net.asU8 <<< 4 ||| atyp) :: host) 2 = net.asU8 <<< 4 ||| atyp := rfl
  have hrest : (toBe 2 port.toNat ++ (net.asU8 <<< 4 ||| atyp) :: host).drop 3 = host := rfl
  rw [parseTarget, if_neg (by simp; omega), portAt_start, htype, hrest, hnet, hatyp, hhost]
  simp [bind, Except.bind, pure, Except.pure]
  omega

theorem parseTarget_writeTarget (h : writeTarget out addr net = .ok block) :
    ∃ bytes, block = out ++ bytes ∧ bytes.length ≤ 259 ∧ bytes ≠ [] ∧
      parseTarget bytes = .ok (addr, net, bytes.length) := by
  cases addr with
  | ipV4 octets port =>
    cases h
    refine ⟨_, rfl, by simp [octets.property], by simp, parseTarget_of_parseHost (.inl rfl) ?_⟩
    rw [parseHost, if_pos rfl, dif_neg (by simp [octets.property])]
    simp [octets.property, take_of_length_le (Nat.le_of_eq octets.property)]
  | ipV6 octets port =>
    cases h
    refine ⟨_, rfl, by simp [octets.property], by simp, parseTarget_of_parseHost (.inr (.inr rfl)) ?_⟩
    rw [parseHost, if_neg (by decide), if_neg (by decide), if_pos rfl, dif_neg (by simp [octets.property])]
    simp [octets.property, take_of_length_le (Nat.le_of_eq octets.property)]
  | domain host port =>
    rw [writeTarget] at h
    split at h
    · cases h
    · rename_i hlong
      cases h
      have hlen : (UInt8.ofNat (hostBytes host).length).toNat = (hostBytes host).length := by
        rw [UInt8.toNat_ofNat']
        omega
      refine ⟨_, rfl, by simp only [length_append, length_cons, length_toBe]; omega, by simp,
        parseTarget_of_parseHost (.inr (.inl rfl)) ?_⟩
      rw [parseHost, if_neg (by decide), if_pos rfl, parseHostDomain, hlen, take_length, if_neg (by simp),
        Shadowsocks.fromUTF8_hostBytes, length_cons, Nat.add_comm]

end Targets

section Stability

variable {x : Bytes} {offset : Nat}

theorem portAt_stable (h : offset + 2 ≤ x.length) (y : Bytes) : portAt (x ++ y) offset = portAt x offset := by
  rw [portAt, take_append_of_le_length h, portAt]

theorem portAt_toBe {before : Bytes} {n : Nat} (hn : n < 256 ^ 2) (hbefore : before.length = offset) (after : Bytes) :
    (portAt (before ++ (toBe 2 n ++ after)) offset).toNat = n := by
  have hfield : ((before ++ toBe 2 n ++ after).take (offset + 2)).drop offset = toBe 2 n :=
    drop_take_field before _ after hbefore.symm (by simp [hbefore])
  rw [portAt, ← append_assoc, hfield, ofBe_toBe hn, UInt16.toNat_ofNat']
  exact Nat.mod_eq_of_lt hn

theorem stable_parseFrameData (frameMeta : FrameMeta) {cursor : Nat} (y : Bytes)
    (h : parseFrameData x frameMeta cursor ≠ .ok none) :
    parseFrameData (x ++ y) frameMeta cursor = parseFrameData x frameMeta cursor := by
  grind [parseFrameData, maxFrameDataSize, portAt, length_append, portAt_stable, slice_append]

theorem stable_parseFrame : Stable parseFrame := by
  intro x y h
  unfold parseFrame at h ⊢
  by_cases hshort : x.length < 2
  · exact absurd (if_pos hshort) h
  rw [if_neg hshort] at h
  rw [if_neg hshort, if_neg (by rw [length_append]; omega), portAt_stable (by omega)]
  by_cases hmeta : (portAt x 0).toNat < 4
  · rw [if_pos hmeta, if_pos hmeta]
  rw [if_neg hmeta] at h
  rw [if_neg hmeta, if_neg hmeta]
  by_cases hpart : x.length < 2 + (portAt x 0).toNat
  · exact absurd (if_pos hpart) h
  rw [if_neg hpart, if_neg (by rw [length_append]; omega), slice_append (by omega)]
  cases hparse : parseMeta (slice x 2 (2 + (portAt x 0).toNat)) with
  | error error => rfl
  | ok parsed => grind [portAt, stable_parseFrameData]

theorem consumed_parseFrame {frame : ParsedFrame} (h : parseFrame x = .ok (some frame)) :
    frame.consumed ≤ x.length := by
  grind [parseFrame, parseFrameData]

end Stability

section Frames

variable {sessionId : UInt16} {status : SessionStatus} {option : UInt8} {network : Option Network}
  {target : Option TargetAddr} {metaBytes tail : Bytes}

@[simp] theorem length_metaHead (sessionId : UInt16) (status : SessionStatus) (option : UInt8) :
    (metaHead sessionId status option).length = 4 := by simp [metaHead]

theorem parseMeta_metaHead (sessionId : UInt16) (status : SessionStatus) (option : UInt8) (tail : Bytes) :
    parseMeta (metaHead sessionId status option ++ tail) =
      (parseMetaTail status (metaHead sessionId status option ++ tail)).map fun (target, network, globalId, cursor) =>
        (⟨sessionId, status, option, target, network, globalId⟩, cursor) := by
  have hid : portAt (metaHead sessionId status option ++ tail) 0 = sessionId := by
    exact portAt_start sessionId _
  have hstatus : byteAt (metaHead sessionId status option ++ tail) 2 = status.asU8 := rfl
  have hoption : byteAt (metaHead sessionId status option ++ tail) 3 = option := rfl
  rw [parseMeta, if_neg (by simp), hstatus, SessionStatus.fromU8_asU8, hid, hoption]
  dsimp only [bind, Except.bind]
  cases parseMetaTail status (metaHead sessionId status option ++ tail) <;> rfl

def LacksGlobalId (status : SessionStatus) (network : Option Network) : Prop :=
  status = .new ∧ network = some .udp

instance : Decidable (LacksGlobalId status network) := by
  unfold LacksGlobalId
  infer_instance

def SessionStatus.sentTarget (status : SessionStatus) (target : Option TargetAddr) : Option TargetAddr :=
  match status with
  | .new | .keep => target
  | .finish | .keepAlive => none

def SessionStatus.sentNetwork (status : SessionStatus) (network : Option Network) : Option Network :=
  match status with
  | .new => network
  | .keep | .finish | .keepAlive => none

variable {before : Bytes} {data : Option Bytes}

theorem parseMeta_bare (sessionId : UInt16) (option : UInt8) (hopen : status ≠ .new) :
    parseMeta (metaHead sessionId status option) =
      .ok (⟨sessionId, status, option, none, none, none⟩, (metaHead sessionId status option).length) := by
  have hparse := parseMeta_metaHead sessionId status option []
  have hhead := length_metaHead sessionId status option
  rw [append_nil] at hparse
  rw [hparse]
  cases status with
  | new => exact absurd rfl hopen
  | keep =>
    rfl
  | finish | keepAlive =>
    rw [hhead]
    rfl

theorem parseMeta_writeMetaTail
    (h : writeMetaTail (metaHead sessionId status option) status network target = some (.ok metaBytes)) :
    4 ≤ metaBytes.length ∧ metaBytes.length < 256 ^ 2 ∧
      parseMeta metaBytes = if LacksGlobalId status network then .error .metaTooShort
        else .ok (⟨sessionId, status, option, status.sentTarget target, status.sentNetwork network, none⟩,
          metaBytes.length) := by
  have hplain : ∀ status, status ≠ .new → ¬ LacksGlobalId status network := fun status hne hlacks => hne hlacks.1
  have hhead := length_metaHead sessionId status option
  cases status with
  | new =>
    cases network with
    | none => cases h
    | some net =>
      cases target with
      | none => cases h
      | some addr =>
        obtain ⟨tail, rfl, hlength, -, htail⟩ := parseTarget_writeTarget (Option.some.inj h)
        refine ⟨by simp, by simp; omega, ?_⟩
        rw [parseMeta_metaHead]
        cases net <;> simp_all [globalIdLen, parseMetaTail, bind, Except.bind, LacksGlobalId] <;> rfl
  | keep =>
    cases target with
    | none =>
      cases h
      exact ⟨by simp, by simp, parseMeta_bare _ _ (by decide)⟩
    | some addr =>
      obtain ⟨tail, rfl, hlength, hsome, htail⟩ := parseTarget_writeTarget (Option.some.inj h)
      refine ⟨by simp, by simp; omega, ?_⟩
      have hpos := List.length_pos_of_ne_nil hsome
      rw [parseMeta_metaHead]
      simp_all [parseMetaTail]
      rfl
  | finish | keepAlive =>
    cases h
    exact ⟨by simp, by simp, parseMeta_bare _ _ (by decide)⟩

theorem parseFrame_block {rest : Bytes} (hmin : 4 ≤ metaBytes.length) (hmax : metaBytes.length < 256 ^ 2) :
    parseFrame (toBe 2 metaBytes.length ++ (metaBytes ++ rest)) =
      match parseMeta metaBytes with
      | .error error => .error error
      | .ok (frameMeta, metaConsumed) =>
        if metaConsumed ≠ metaBytes.length then .error .metaTrailing
        else parseFrameData (toBe 2 metaBytes.length ++ (metaBytes ++ rest)) frameMeta (2 + metaBytes.length) := by
  have hlen : (portAt (toBe 2 metaBytes.length ++ (metaBytes ++ rest)) 0).toNat = metaBytes.length :=
    portAt_toBe hmax (length_nil : ([] : Bytes).length = 0) _
  have hslice : slice (toBe 2 metaBytes.length ++ (metaBytes ++ rest)) 2 (2 + metaBytes.length) = metaBytes :=
    slice_length (length_toBe _ _) rfl
  rw [parseFrame, if_neg (by simp only [length_append, length_toBe]; omega), hlen, if_neg (by omega),
    if_neg (by simp only [length_append, length_toBe]; omega), hslice]

theorem parseFrameData_some {frameMeta : FrameMeta} {data : Bytes} (hdata : frameMeta.hasData)
    (hmax : data.length ≤ maxFrameDataSize) (after : Bytes) :
    parseFrameData (before ++ (toBe 2 data.length ++ (data ++ after))) frameMeta before.length =
      .ok (some ⟨frameMeta, some data, before.length + 2 + data.length⟩) := by
  have hsize : data.length < 256 ^ 2 := Nat.lt_of_le_of_lt hmax (by decide)
  have hlen : (portAt (before ++ (toBe 2 data.length ++ (data ++ after))) before.length).toNat = data.length :=
    portAt_toBe hsize rfl _
  have hslice : slice (before ++ (toBe 2 data.length ++ (data ++ after))) (before.length + 2)
      (before.length + 2 + data.length) = data := by
    rw [← append_assoc]
    exact slice_length (by simp) rfl
  rw [parseFrameData, if_pos hdata, if_neg (by simp only [length_append, length_toBe]; omega), hlen,
    if_neg (Nat.not_lt.mpr hmax), if_neg (by simp only [length_append, length_toBe]; omega), hslice]

theorem encodeFrame_ok {out after : Bytes}
    (h : encodeFrame out sessionId status option network target data = some (.ok (), after)) :
    ∃ metaBytes, writeMetaTail (metaHead sessionId status option) status network target = some (.ok metaBytes) ∧
      ((sentData option data).getD []).length ≤ maxFrameDataSize ∧
      after = out ++ (toBe 2 metaBytes.length ++ (metaBytes ++ dataBytes (sentData option data))) := by
  rw [encodeFrame] at h
  split at h
  · cases h
  · rename_i hmax
    obtain ⟨written, hwritten, hcase⟩ := Option.map_eq_some_iff.mp h
    cases written with
    | error error => cases hcase
    | ok metaBytes =>
      cases hcase
      exact ⟨metaBytes, hwritten, Nat.le_of_not_lt hmax, rfl⟩

theorem encodeFrame_error {out after : Bytes} {error : MuxError}
    (h : encodeFrame out sessionId status option network target data = some (.error error, after)) : after = out := by
  rw [encodeFrame] at h
  split at h
  · cases h
    rfl
  · obtain ⟨written, -, hcase⟩ := Option.map_eq_some_iff.mp h
    cases written <;> cases hcase
    rfl

theorem parseFrame_encoded
    (hmeta : writeMetaTail (metaHead sessionId status option) status network target = some (.ok metaBytes))
    (hdata : data.isSome ↔ option &&& optionData ≠ 0) (hmax : (data.getD []).length ≤ maxFrameDataSize)
    (after : Bytes) :
    parseFrame (toBe 2 metaBytes.length ++ (metaBytes ++ dataBytes data) ++ after) =
      if LacksGlobalId status network then .error .metaTooShort
      else .ok (some ⟨⟨sessionId, status, option, status.sentTarget target, status.sentNetwork network, none⟩, data,
        (toBe 2 metaBytes.length ++ (metaBytes ++ dataBytes data)).length⟩) := by
  obtain ⟨hmin, hsize, hparse⟩ := parseMeta_writeMetaTail hmeta
  rw [append_assoc, append_assoc, parseFrame_block hmin hsize, hparse]
  by_cases hlacks : LacksGlobalId status network
  · rw [if_pos hlacks, if_pos hlacks]
  rw [if_neg hlacks, if_neg hlacks]
  dsimp only
  rw [if_neg (by simp)]
  cases data with
  | none => simp_all [FrameMeta.hasData, parseFrameData, dataBytes]
  | some data =>
    have hsome : (⟨sessionId, status, option, status.sentTarget target, status.sentNetwork network, none⟩ :
        FrameMeta).hasData := by
      have hone := hdata.mp rfl
      simpa [FrameMeta.hasData] using hone
    rw [Option.getD_some] at hmax
    have hframe :
        parseFrameData (toBe 2 metaBytes.length ++ metaBytes ++ (toBe 2 data.length ++ (data ++ after))) _ _ = _ :=
      parseFrameData_some hsome hmax after
    simp only [dataBytes, append_assoc, length_append, length_toBe] at hframe ⊢
    rw [hframe]
    simp only [Nat.add_assoc]

end Frames

section Main

variable {sessionId : UInt16} {status : SessionStatus} {option : UInt8} {network : Option Network}
  {target : Option TargetAddr} {data : Option Bytes}

/-- A frame is read back with the fields it was written with, whatever follows, and no part of it is a frame. -/
def RoundTrips (sessionId : UInt16) (status : SessionStatus) (option : UInt8) (network : Option Network)
    (target : Option TargetAddr) (data : Option Bytes) (frame : Bytes) : Prop :=
  (∀ after, ∃ parsed, parseFrame (frame ++ after) = .ok (some parsed) ∧
    parsed.frameMeta.sessionId = sessionId ∧ parsed.frameMeta.status = status ∧ parsed.frameMeta.option = option ∧
    parsed.frameMeta.target = target ∧ parsed.data = data ∧ (status = .new → parsed.frameMeta.network = network) ∧
    parsed.consumed = frame.length) ∧ ∀ part rest, part ++ rest = frame → rest ≠ [] → parseFrame part = .ok none

theorem sentTarget_eq_iff :
    status.sentTarget target = target ↔ (status = .finish ∨ status = .keepAlive → target = none) := by
  cases status <;> simp [SessionStatus.sentTarget, eq_comm]

/-- Frames round-trip but for the opening of a UDP session, whose global id is not written, and for a target handed
over with a status that has none.  A refused frame leaves the buffer as it was. -/
theorem frame_roundTrips (out : Bytes) (hdata : data.isSome ↔ option &&& optionData ≠ 0) :
    (∀ after, encodeFrame out sessionId status option network target data = some (.ok (), after) →
      ∃ frame, after = out ++ frame ∧ (RoundTrips sessionId status option network target data frame ↔
          ¬ (status = .new ∧ network = some .udp) ∧ (status = .finish ∨ status = .keepAlive → target = none))) ∧
    ∀ error after, encodeFrame out sessionId status option network target data = some (.error error, after) →
      after = out := by
  have hsame : sentData option data = data := by
    cases data with
    | none => simp [sentData]
    | some data => simpa [sentData] using hdata.mp rfl
  refine ⟨fun after h => ?_, fun error after h => encodeFrame_error h⟩
  obtain ⟨metaBytes, hmeta, hmax, rfl⟩ := encodeFrame_ok h
  rw [hsame] at hmax ⊢
  refine ⟨_, rfl, ?_⟩
  have hparse := parseFrame_encoded hmeta hdata hmax
  constructor
  · rintro ⟨hwhole, -⟩
    obtain ⟨parsed, hparsed, -, -, -, htarget, -⟩ := hwhole []
    rw [hparse] at hparsed
    by_cases hlacks : LacksGlobalId status network
    · rw [if_pos hlacks] at hparsed
      cases hparsed
    · rw [if_neg hlacks] at hparsed
      cases hparsed
      exact ⟨hlacks, sentTarget_eq_iff.mp htarget⟩
  · rintro ⟨hlacks, htarget⟩
    have hnew : status = .new → status.sentNetwork network = network := by
      rintro rfl
      rfl
    have hread :
        ∀ after, parseFrame (toBe 2 metaBytes.length ++ (metaBytes ++ dataBytes data) ++ after) = .ok (some _) :=
      fun after => (hparse after).trans (if_neg hlacks)
    refine ⟨fun after => ⟨_, hread after, rfl, rfl, rfl, sentTarget_eq_iff.mpr htarget, rfl, hnew, rfl⟩, ?_⟩
    intro part rest hframe hrest
    have hwhole := hread []
    rw [append_nil, ← hframe] at hwhole
    exact stable_parseFrame.incomplete (fun _ _ => consumed_parseFrame) hwhole (by rw [hframe]) hrest

/-- A datagram session is opened for a target of four octets. -/
theorem udp_opening_refused :
    ∃ frame, encodeFrame [] 7 .new optionData (some .udp) (some (.ipV4 ⟨[10, 0, 0, 1], rfl⟩ 53)) (some [1, 2]) =
        some (.ok (), frame) ∧ parseFrame frame = .error .metaTooShort ∧
      ¬ RoundTrips 7 .new optionData (some .udp) (some (.ipV4 ⟨[10, 0, 0, 1], rfl⟩ 53)) (some [1, 2]) frame := by
  refine ⟨_, rfl, rfl, ?_⟩
  rintro ⟨hwhole, -⟩
  obtain ⟨parsed, hparsed, -⟩ := hwhole []
  cases hparsed

theorem frame_roundTrips_keep : ∃ frame,
    encodeFrame [9] 7 .keep optionData none (some (.domain "ab" 53)) (some [1, 2]) = some (.ok (), [9] ++ frame) ∧
    RoundTrips 7 .keep optionData none (some (.domain "ab" 53)) (some [1, 2]) frame := by
  have hencoded :
      encodeFrame [9] 7 .keep optionData none (some (.domain "ab" 53)) (some [1, 2]) = some (.ok (), _) := rfl
  obtain ⟨frame, hafter, hiff⟩ := (frame_roundTrips [9] (by decide)).1 _ hencoded
  exact ⟨frame, hafter ▸ hencoded, hiff.mpr (by decide)⟩

end Main

end OutlineProxy.Vless
