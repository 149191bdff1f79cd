import OutlineProxy.Shadowsocks.Encryptor

/-! Target addresses, and the headers of an SS2022 request. -/

namespace OutlineProxy.Shadowsocks

open List Sealing

def socksAtypIpv4 : UInt8 := 1

def socksAtypDomain : UInt8 := 3

def socksAtypIpv6 : UInt8 := 4

abbrev Octets (n : Nat) := { bytes : Bytes // bytes.length = n }

inductive TargetAddr where
  | ipV4 (octets : Octets 4) (port : UInt16)
  | ipV6 (octets : Octets 16) (port : UInt16)
  | domain (host : String) (port : UInt16)
deriving DecidableEq

open TargetAddr

inductive AddressKind where
  | address
  | ipV4
  | ipV6
  | domain

inductive TargetAddrError where
  | emptyBuffer
  | shortAddress (kind : AddressKind)
  | unsupportedAddressType (atyp : UInt8)
  | domainTooLong
  | domainNotUtf8

inductive ParseOutcome where
  | complete (addr : TargetAddr) (consumed : Nat)
  | incomplete (kind : AddressKind)

def portAt (bytes : Bytes) (offset : Nat) : UInt16 := UInt16.ofNat (ofBe ((bytes.take (offset + 2)).drop offset))

def parseIpv4 (rest : Bytes) : ParseOutcome :=
  if h : rest.length < 6 then .incomplete .ipV4
  else .complete (.ipV4 ⟨rest.take 4, by rw [length_take]; omega⟩ (portAt rest 4)) 7

def parseIpv6 (rest : Bytes) : ParseOutcome :=
  if h : rest.length < 18 then .incomplete .ipV6
  else .complete (.ipV6 ⟨rest.take 16, by rw [length_take]; omega⟩ (portAt rest 16)) 19

def parseDomain : Bytes → Except TargetAddrError ParseOutcome
  | [] => .ok (.incomplete .domain)
  | len :: rest =>
    if rest.length < len.toNat + 2 then .ok (.incomplete .domain)
    else
      match String.fromUTF8? ⟨(rest.take len.toNat).toArray⟩ with
      | none => .error .domainNotUtf8
      | some host => .ok (.complete (.domain host (portAt rest len.toNat)) (2 + len.toNat + 2))

def parseInner : Bytes → Except TargetAddrError ParseOutcome
  | [] => .ok (.incomplete .address)
  | atyp :: rest =>
    if atyp = socksAtypIpv4 then .ok (parseIpv4 rest)
    else if atyp = socksAtypIpv6 then .ok (parseIpv6 rest)
    else if atyp = socksAtypDomain then parseDomain rest
    else .error (.unsupportedAddressType atyp)

namespace TargetAddr

def hostBytes (host : String) : Bytes := host.toUTF8.data.toList

def toWireBytes : TargetAddr → Except TargetAddrError Bytes
  | ipV4 octets port => .ok (socksAtypIpv4 :: octets.val ++ toBe 2 port.toNat)
  | ipV6 octets port => .ok (socksAtypIpv6 :: octets.val ++ toBe 2 port.toNat)
  | domain host port =>
    if 255 < (hostBytes host).length then .error .domainTooLong
    else .ok (socksAtypDomain :: UInt8.ofNat (hostBytes host).length :: hostBytes host ++ toBe 2 port.toNat)

def fromWireBytes (bytes : Bytes) : Except TargetAddrError (TargetAddr × Nat) :=
  if bytes = [] then .error .emptyBuffer
  else
    match parseInner bytes with
    | .error error => .error error
    | .ok (.complete addr consumed) => .ok (addr, consumed)
    | .ok (.incomplete kind) => .error (.shortAddress kind)

end TargetAddr

def parseTargetAddr (input : Bytes) : Except TargetAddrError (Option (TargetAddr × Nat)) :=
  match parseInner input with
  | .error error => .error error
  | .ok (.complete addr consumed) => .ok (some (addr, consumed))
  | .ok (.incomplete _) => .ok none

theorem portAt_append {before : Bytes} {offset : Nat} (h : before.length = offset) (port : UInt16) (after : Bytes) :
    portAt (before ++ toBe 2 port.toNat ++ after) offset = port := by
  have hfield : ((before ++ toBe 2 port.toNat ++ after).take (offset + 2)).drop offset = toBe 2 port.toNat :=
    drop_take_field before _ after h.symm (by simp [h])
  rw [portAt, hfield, ofBe_toBe port.toNat_lt, UInt16.ofNat_toNat]

theorem fromUTF8_hostBytes (host : String) :
    String.fromUTF8? ⟨(hostBytes host).toArray⟩ = some host := by
  have hbytes : (⟨(hostBytes host).toArray⟩ : ByteArray) = host.toUTF8 := by
    simp [hostBytes]
  rw [hbytes, String.fromUTF8?, dif_pos (show host.toUTF8.IsValidUTF8 from host.isValidUTF8)]
  rfl

variable {target : TargetAddr} {bytes : Bytes}

theorem parseInner_toWireBytes (h : target.toWireBytes = .ok bytes)
    (after : Bytes) : parseInner (bytes ++ after) = .ok (.complete target bytes.length) := by
  cases target with
  | ipV4 octets port =>
    cases h
    rw [cons_append, cons_append, parseInner, if_pos rfl, parseIpv4, dif_neg (by simp [octets.property]; omega),
      portAt_append octets.property]
    simp [octets.property]
  | ipV6 octets port =>
    cases h
    rw [cons_append, cons_append, parseInner, if_neg (by decide), if_pos rfl, parseIpv6,
      dif_neg (by simp [octets.property]; omega), portAt_append octets.property]
    simp [octets.property]
  | domain host port =>
    rw [toWireBytes] at h
    split at h
    · cases h
    · rename_i hlong
      cases h
      have hlen : (UInt8.ofNat (hostBytes host).length).toNat = (hostBytes host).length := by
        rw [UInt8.toNat_ofNat']
        omega
      have hhost : (hostBytes host ++ toBe 2 port.toNat ++ after).take (hostBytes host).length =
          hostBytes host := by
        rw [append_assoc, take_left]
      simp only [cons_append]
      rw [parseInner, if_neg (by decide), if_neg (by decide), if_pos rfl, parseDomain, hlen,
        if_neg (by simp only [length_append, length_toBe]; omega), hhost, fromUTF8_hostBytes]
      simp only [portAt_append rfl, length_cons, length_append, length_toBe]
      congr 2
      omega

theorem hostBytes_of_fromUTF8 {host : String}
    (h : String.fromUTF8? ⟨bytes.toArray⟩ = some host) : hostBytes host = bytes := by
  rw [String.fromUTF8?] at h
  by_cases hvalid : (⟨bytes.toArray⟩ : ByteArray).IsValidUTF8
  · rw [dif_pos hvalid] at h
    cases h
    simp [hostBytes, String.fromUTF8]
  · rw [dif_neg hvalid] at h
    cases h

theorem length_hostBytes_of_parseDomain {host : String} {port : UInt16} {consumed : Nat}
    (h : parseDomain bytes = .ok (.complete (.domain host port) consumed)) : (hostBytes host).length ≤ 255 := by
  cases bytes with
  | nil => cases h
  | cons len rest =>
    rw [parseDomain] at h
    split at h
    · cases h
    · split at h
      · cases h
      · rename_i hhost
        cases h
        rw [hostBytes_of_fromUTF8 hhost, length_take]
        have := len.toNat_lt
        omega

theorem toWireBytes_of_fromWireBytes {consumed : Nat} (h : fromWireBytes bytes = .ok (target, consumed)) :
    ∃ wire, target.toWireBytes = .ok wire := by
  cases target with
  | ipV4 octets port => exact ⟨_, rfl⟩
  | ipV6 octets port => exact ⟨_, rfl⟩
  | domain host port =>
    suffices hlen : (hostBytes host).length ≤ 255 from ⟨_, if_neg (Nat.not_lt.mpr hlen)⟩
    cases bytes with
    | nil => cases h
    | cons atyp rest =>
      have hparse : parseInner (atyp :: rest) = .ok (.complete (.domain host port) consumed) := by
        rw [fromWireBytes, if_neg (cons_ne_nil _ _)] at h
        split at h <;> cases h
        assumption
      rw [parseInner] at hparse
      by_cases hv4 : atyp = socksAtypIpv4
      · rw [if_pos hv4, parseIpv4] at hparse
        split at hparse <;> cases hparse
      by_cases hv6 : atyp = socksAtypIpv6
      · rw [if_neg hv4, if_pos hv6, parseIpv6] at hparse
        split at hparse <;> cases hparse
      by_cases hdomain : atyp = socksAtypDomain
      · rw [if_neg hv4, if_neg hv6, if_pos hdomain] at hparse
        exact length_hostBytes_of_parseDomain hparse
      · rw [if_neg hv4, if_neg hv6, if_neg hdomain] at hparse
        cases hparse

def ss2022RequestFixedHeaderLen : Nat := 11

def ss2022MaxPaddingLen : Nat := 900

def validateRequestFixedHeader (header : Bytes) (now : Nat) : Except Ss2022HeaderError Nat :=
  if header.length ≠ ss2022RequestFixedHeaderLen then .error .invalid
  else if header.headD 0 ≠ ss2022TcpRequestType then .error .invalid
  else
    match validateTimestamp (ofBe ((header.take 9).drop 1)) now with
    | .error error => .error error
    | .ok () => .ok (ofBe (header.drop 9))

structure Ss2022Request where
  target : TargetAddr
  payload : Bytes

def parseRequestVariableHeader (header : Bytes) : Except Ss2022HeaderError Ss2022Request :=
  match parseTargetAddr header with
  | .error _ => .error .target
  | .ok none => .error .invalid
  | .ok (some (target, consumed)) =>
    if header.length < consumed + 2 then .error .invalid
    else
      let paddingLen := ofBe ((header.take (consumed + 2)).drop consumed)
      if ss2022MaxPaddingLen < paddingLen then .error .invalid
      else if header.length < consumed + 2 + paddingLen then .error .invalid
      else
        let payload := header.drop (consumed + 2 + paddingLen)
        if paddingLen = 0 ∧ payload = [] then .error .invalid else .ok ⟨target, payload⟩

def buildRequestHeader (target : TargetAddr) (now : Nat) (padding : Bytes) : Except Ss2022HeaderError (Bytes × Bytes) :=
  match target.toWireBytes with
  | .error _ => .error .target
  | .ok target =>
    if ss2022MaxPaddingLen < padding.length then .error .invalid
    else
      .ok ([ss2022TcpRequestType] ++ toBe 8 now ++ toBe 2 (target.length + 2 + padding.length),
        target ++ toBe 2 padding.length ++ padding)

variable {padding : Bytes}

theorem buildRequestHeader_cases {now : Nat} {fixed rest : Bytes}
    (h : buildRequestHeader target now padding = .ok (fixed, rest)) :
    ∃ bytes, target.toWireBytes = .ok bytes ∧ padding.length ≤ ss2022MaxPaddingLen ∧
      fixed = [ss2022TcpRequestType] ++ toBe 8 now ++ toBe 2 rest.length ∧
      rest = bytes ++ toBe 2 padding.length ++ padding := by
  rw [buildRequestHeader] at h
  split at h
  · cases h
  · rename_i bytes hbytes
    split at h
    · cases h
    · cases h
      exact ⟨bytes, hbytes, by omega, by simp [Nat.add_assoc], rfl⟩

theorem length_toWireBytes_le (h : target.toWireBytes = .ok bytes) :
    bytes.length ≤ 259 := by
  cases target with
  | ipV4 octets port =>
    cases h
    simp [octets.property]
  | ipV6 octets port =>
    cases h
    simp [octets.property]
  | domain host port =>
    rw [toWireBytes] at h
    split at h <;> cases h
    simp
    omega

theorem validateRequestFixedHeader_of_fresh {timestamp now n : Nat} (hfresh : Fresh timestamp now) (hn : n < 256 ^ 2) :
    validateRequestFixedHeader ([ss2022TcpRequestType] ++ toBe 8 timestamp ++ toBe 2 n) now = .ok n := by
  have hstamp : (([ss2022TcpRequestType] ++ toBe 8 timestamp ++ toBe 2 n).take 9).drop 1 = toBe 8 timestamp :=
    drop_take_field _ _ _ rfl (by simp)
  have hlen : ([ss2022TcpRequestType] ++ toBe 8 timestamp ++ toBe 2 n).drop 9 = toBe 2 n := by
    have hlength : 9 = ([ss2022TcpRequestType] ++ toBe 8 timestamp).length := by simp
    rw [hlength]
    exact drop_left
  rw [validateRequestFixedHeader, if_neg (by simp [ss2022RequestFixedHeaderLen]), if_neg (by simp), hstamp,
    ofBe_toBe hfresh.1, validateTimestamp_of_fresh hfresh, hlen, ofBe_toBe hn]

theorem parseRequestVariableHeader_append
    (htarget : target.toWireBytes = .ok bytes) (hpadding : padding.length ≤ ss2022MaxPaddingLen) (payload : Bytes) :
    parseRequestVariableHeader (bytes ++ toBe 2 padding.length ++ padding ++ payload) =
      if padding = [] ∧ payload = [] then .error .invalid else .ok ⟨target, payload⟩ := by
  have hfield : ((bytes ++ toBe 2 padding.length ++ padding ++ payload).take (bytes.length + 2)).drop bytes.length =
      toBe 2 padding.length := by
    rw [append_assoc (bytes ++ _)]
    exact drop_take_field _ _ _ rfl (by simp)
  have hsize : padding.length < 256 ^ 2 := by
    rw [ss2022MaxPaddingLen] at hpadding
    omega
  have hrest :
      (bytes ++ toBe 2 padding.length ++ padding ++ payload).drop (bytes.length + 2 + padding.length) = payload :=
    drop_left' (by simp [Nat.add_assoc])
  have hparse : parseTargetAddr (bytes ++ toBe 2 padding.length ++ padding ++ payload) =
    .ok (some (target, bytes.length)) := by
    rw [parseTargetAddr, append_assoc, append_assoc, parseInner_toWireBytes htarget]
  simp only [parseRequestVariableHeader, hparse, hfield, ofBe_toBe hsize, hrest, length_eq_zero_iff]
  rw [if_neg (by simp only [length_append, length_toBe]; omega), if_neg (by omega),
    if_neg (by simp only [length_append, length_toBe]; omega)]

theorem parseRequestVariableHeader_of_target
    (htarget : target.toWireBytes = .ok bytes) (hpadding : padding.length ≤ ss2022MaxPaddingLen)
    (hsome : padding ≠ []) :
    parseRequestVariableHeader (bytes ++ toBe 2 padding.length ++ padding) = .ok ⟨target, []⟩ := by
  have hparse := parseRequestVariableHeader_append htarget hpadding []
  rwa [append_nil, if_neg (fun h => hsome h.1)] at hparse

end OutlineProxy.Shadowsocks
