import OutlineProxy.Vless.MuxFrame

/-! The header in front of a request. -/

namespace OutlineProxy.Vless

open List Sealing Incremental
open Shadowsocks (Bytes Octets TargetAddr portAt portAt_append)
open Shadowsocks.TargetAddr (hostBytes)

def version : UInt8 := 0

def commandTcp : UInt8 := 1

def commandUdp : UInt8 := 2

def commandMux : UInt8 := 3

def addonTagResumeCapable : UInt8 := 0x10

def addonTagResumeId : UInt8 := 0x11

inductive VlessCommand where
  | tcp
  | udp
  | mux
deriving DecidableEq

open VlessCommand

def VlessCommand.asU8 : VlessCommand → UInt8
  | tcp => commandTcp
  | udp => commandUdp
  | mux => commandMux

def VlessCommand.fromU8 (byte : UInt8) : Option VlessCommand :=
  if byte = commandTcp then some tcp
  else if byte = commandUdp then some udp
  else if byte = commandMux then some mux
  else none

structure VlessRequestAddons where
  resumeCapable : Bool
  resumeId : Option (Octets 16)

structure VlessRequest where
  userId : Octets 16
  command : VlessCommand
  target : TargetAddr
  consumed : Nat
  addons : VlessRequestAddons

inductive VlessError where
  | invalidVersion (version : UInt8)
  | unsupportedCommand (command : UInt8)
  | unsupportedAddressType (atyp : UInt8)
  | invalidDomain
  | domainTooLong (length : Nat)
  | addonsTooLong (length : Nat)

def VlessRequestAddons.note (addons : VlessRequestAddons) (tag : UInt8) (value : Bytes) : VlessRequestAddons :=
  if tag = addonTagResumeCapable then { addons with resumeCapable := value == [1] }
  else if tag = addonTagResumeId then
    if h : value.length = 16 then { addons with resumeId := some ⟨value, h⟩ } else addons
  else addons

def parseRequestAddonsFrom (addons : VlessRequestAddons) : Bytes → VlessRequestAddons
  | tag :: len :: rest =>
    if rest.length < len.toNat then addons
    else parseRequestAddonsFrom (addons.note tag (rest.take len.toNat)) (rest.drop len.toNat)
  | _ => addons
termination_by block => block.length
decreasing_by
  simp only [length_drop, length_cons]
  omega

def parseRequestAddons (block : Bytes) : VlessRequestAddons := parseRequestAddonsFrom ⟨false, none⟩ block

def parseRequestTarget (input : Bytes) (portOffset : Nat) : Except VlessError (Option (TargetAddr × Nat)) :=
  if input.length < portOffset + 2 + 1 then .ok none
  else
    let port := portAt input portOffset
    let atyp := byteAt input (portOffset + 2)
    let addrOffset := portOffset + 2 + 1
    if atyp = atypIpv4 then
      if h : input.length < addrOffset + 4 then .ok none
      else .ok (some (.ipV4 (octetsAt input addrOffset 4 h) port, addrOffset + 4))
    else if atyp = atypDomain then
      if input.length < addrOffset + 1 then .ok none
      else
        let len := (byteAt input addrOffset).toNat
        let domainOffset := addrOffset + 1
        if input.length < domainOffset + len then .ok none
        else
          match String.fromUTF8? ⟨(slice input domainOffset (domainOffset + len)).toArray⟩ with
          | none => .error .invalidDomain
          | some host => .ok (some (.domain host port, domainOffset + len))
    else if atyp = atypIpv6 then
      if h : input.length < addrOffset + 16 then .ok none
      else .ok (some (.ipV6 (octetsAt input addrOffset 16 h) port, addrOffset + 16))
    else .error (.unsupportedAddressType atyp)

theorem userId_inside {input : Bytes} (h : ¬ input.length < 1 + 16 + 1) : ¬ input.length < 1 + 16 := by omega

def unspecified : TargetAddr := .ipV4 ⟨[0, 0, 0, 0], rfl⟩ 0

def parseRequest (input : Bytes) : Except VlessError (Option VlessRequest) :=
  if h : input.length < 1 + 16 + 1 then .ok none
  else if byteAt input 0 ≠ version then .error (.invalidVersion (byteAt input 0))
  else
    let userId := octetsAt input 1 16 (userId_inside h)
    let commandOffset := 18 + (byteAt input 17).toNat
    if input.length < commandOffset + 1 then .ok none
    else
      let addons := parseRequestAddons (slice input 18 commandOffset)
      match fromU8 (byteAt input commandOffset) with
      | none => .error (.unsupportedCommand (byteAt input commandOffset))
      | some .mux => .ok (some ⟨userId, .mux, unspecified, commandOffset + 1, addons⟩)
      | some command =>
        match parseRequestTarget input (commandOffset + 1) with
        | .error error => .error error
        | .ok none => .ok none
        | .ok (some (target, consumed)) => .ok (some ⟨userId, command, target, consumed, addons⟩)

def encodeRequestAddons (resumeCapable : Bool) (resumeId : Option (Octets 16)) : Bytes :=
  (if resumeCapable then [addonTagResumeCapable, 1, 1] else []) ++
    match resumeId with
    | some id => addonTagResumeId :: 16 :: id.val
    | none => []

def requestTargetBytes : TargetAddr → Except VlessError Bytes
  | .ipV4 octets port => .ok (toBe 2 port.toNat ++ atypIpv4 :: octets.val)
  | .ipV6 octets port => .ok (toBe 2 port.toNat ++ atypIpv6 :: octets.val)
  | .domain host port =>
    if 255 < (hostBytes host).length then .error (.domainTooLong (hostBytes host).length)
    else .ok (toBe 2 port.toNat ++ atypDomain :: UInt8.ofNat (hostBytes host).length :: hostBytes host)

def buildRequestHeader (uuid : Octets 16) (command : UInt8) (target : TargetAddr) (addons : Bytes) :
    Except VlessError Bytes :=
  if 255 < addons.length then .error (.addonsTooLong addons.length)
  else
    let out := version :: uuid.val ++ UInt8.ofNat addons.length :: addons ++ [command]
    if command = commandMux then .ok out
    else (requestTargetBytes target).map fun bytes => out ++ bytes

section Stability

variable {x : Bytes}

theorem stable_parseRequestTarget (portOffset : Nat) : Stable fun input => parseRequestTarget input portOffset := by
  intro x y h
  have hlength : (x ++ y).length = x.length + y.length := length_append
  dsimp only at h ⊢
  unfold parseRequestTarget at h ⊢
  by_cases hshort : x.length < portOffset + 2 + 1
  · exact absurd (if_pos hshort) h
  rw [if_neg hshort, if_neg (by omega), portAt_stable (by omega), byteAt_append (by omega)]
  by_cases hv4 : byteAt x (portOffset + 2) = atypIpv4
  · grind [octetsAt_append]
  rw [if_neg hv4, if_neg hv4]
  by_cases hdomain : byteAt x (portOffset + 2) = atypDomain
  · grind [byteAt, byteAt_append, slice_append]
  rw [if_neg hdomain, if_neg hdomain]
  by_cases hv6 : byteAt x (portOffset + 2) = atypIpv6
  · grind [octetsAt_append]
  · rw [if_neg hv6, if_neg hv6]

theorem stable_parseRequest : Stable parseRequest := by
  intro x y h
  have hlength : (x ++ y).length = x.length + y.length := length_append
  unfold parseRequest at h ⊢
  by_cases hshort : x.length < 1 + 16 + 1
  · exact absurd (dif_pos hshort) h
  rw [dif_neg hshort] at h
  rw [dif_neg hshort, dif_neg (by omega), byteAt_append (by omega)]
  by_cases hversion : byteAt x 0 ≠ version
  · rw [if_pos hversion, if_pos hversion]
  rw [if_neg hversion] at h
  rw [if_neg hversion, if_neg hversion, byteAt_append (by omega), octetsAt_append (userId_inside hshort)]
  by_cases hcommand : x.length < 18 + (byteAt x 17).toNat + 1
  · exact absurd (if_pos hcommand) h
  rw [if_neg hcommand, if_neg (by omega), byteAt_append (by omega), slice_append (by omega)]
  cases hcase : fromU8 (byteAt x (18 + (byteAt x 17).toNat)) with
  | none => rfl
  | some command =>
    have htarget : command ≠ .mux → parseRequestTarget (x ++ y) (18 + (byteAt x 17).toNat + 1) =
        parseRequestTarget x (18 + (byteAt x 17).toNat + 1) := by grind [stable_parseRequestTarget]
    cases command with
    | mux => rfl
    | tcp => rw [htarget (by decide)]
    | udp => rw [htarget (by decide)]

theorem consumed_parseRequest {request : VlessRequest} (h : parseRequest x = .ok (some request)) :
    request.consumed ≤ x.length := by
  unfold parseRequest at h
  split at h
  · cases h
  split at h
  · cases h
  dsimp only at h
  split at h
  · cases h
  rename_i hcommand
  split at h
  · cases h
  · cases h
    dsimp only
    omega
  · split at h
    · cases h
    · cases h
    · rename_i hparse
      cases h
      grind [parseRequestTarget]

end Stability

section Building

variable {uuid : Octets 16} {command : VlessCommand} {target : TargetAddr} {addons header bytes : Bytes}

/-- A target behind `before`: what stands in front of its address, and the fields there. -/
theorem targetFront {before : Bytes} {offset : Nat} (hbefore : before.length = offset) (port : UInt16) (atyp : UInt8)
    (host after : Bytes) :
    ∃ front, before ++ (toBe 2 port.toNat ++ atyp :: host ++ after) = front ++ (host ++ after) ∧
      front.length = offset + 2 + 1 ∧ portAt (front ++ (host ++ after)) offset = port ∧
      byteAt (front ++ (host ++ after)) (offset + 2) = atyp := by
  refine ⟨before ++ toBe 2 port.toNat ++ [atyp], by simp, by simp [hbefore], ?_, ?_⟩
  · rw [append_assoc (before ++ _)]
    exact portAt_append hbefore port _
  · rw [append_assoc (before ++ _)]
    exact byteAt_length (by simp [hbefore]) atyp

theorem parseRequestTarget_bytes (h : requestTargetBytes target = .ok bytes) {before : Bytes} {offset : Nat}
    (hbefore : before.length = offset) (after : Bytes) :
    parseRequestTarget (before ++ (bytes ++ after)) offset = .ok (some (target, offset + bytes.length)) := by
  cases target with
  | ipV4 octets port =>
    cases h
    obtain ⟨front, hinput, hlength, hport, hatyp⟩ := targetFront hbefore port atypIpv4 octets.val after
    have hoctets := octets.property
    rw [hinput, parseRequestTarget, if_neg (by rw [length_append, hlength]; omega), hport, hatyp, if_pos rfl,
      dif_neg (by rw [length_append, hlength, length_append]; omega), octetsAt_length octets hlength]
    simp [hoctets, Nat.add_assoc]
  | ipV6 octets port =>
    cases h
    obtain ⟨front, hinput, hlength, hport, hatyp⟩ := targetFront hbefore port atypIpv6 octets.val after
    have hoctets := octets.property
    rw [hinput, parseRequestTarget, if_neg (by rw [length_append, hlength]; omega), hport, hatyp,
      if_neg (by decide), if_neg (by decide), if_pos rfl,
      dif_neg (by rw [length_append, hlength, length_append]; omega), octetsAt_length octets hlength]
    simp [hoctets, Nat.add_assoc]
  | domain host port =>
    rw [requestTargetBytes] at h
    split at h
    · cases h
    · rename_i hlong
      cases h
      let len := UInt8.ofNat (hostBytes host).length
      have hlen : len.toNat = (hostBytes host).length := by
        rw [UInt8.toNat_ofNat']
        omega
      obtain ⟨front, hinput, hlength, hport, hatyp⟩ := targetFront hbefore port atypDomain (len :: hostBytes host) after
      have hbyte : byteAt (front ++ (len :: hostBytes host ++ after)) (offset + 2 + 1) = len :=
        byteAt_length hlength len
      have hhost : slice (front ++ (len :: hostBytes host ++ after)) (offset + 2 + 1 + 1)
          (offset + 2 + 1 + 1 + (hostBytes host).length) = hostBytes host := by
        rw [cons_append, append_cons]
        exact slice_length (by rw [length_append, hlength]; rfl) rfl
      rw [hinput, parseRequestTarget, if_neg (by rw [length_append, hlength]; omega), hport, hatyp,
        if_neg (by decide), if_pos rfl, if_neg (by rw [length_append, hlength, cons_append, length_cons]; omega), hbyte,
        hlen, if_neg (by rw [length_append, hlength, cons_append, length_cons, length_append]; omega), hhost,
        Shadowsocks.fromUTF8_hostBytes]
      simp [Nat.add_assoc]
      omega

theorem parseRequestAddons_encoded (resumeCapable : Bool) (resumeId : Option (Octets 16)) :
    parseRequestAddons (encodeRequestAddons resumeCapable resumeId) = ⟨resumeCapable, resumeId⟩ := by
  have hid : ∀ (addons : VlessRequestAddons) (id : Octets 16),
      parseRequestAddonsFrom addons (addonTagResumeId :: 16 :: id.val) = { addons with resumeId := some id } := by
    intro addons id
    have htake : id.val.take (16 : UInt8).toNat = id.val := take_of_length_le (Nat.le_of_eq id.property)
    have hdrop : id.val.drop (16 : UInt8).toNat = [] := drop_eq_nil_of_le (Nat.le_of_eq id.property)
    rw [parseRequestAddonsFrom, if_neg (by rw [id.property]; decide), htake, hdrop, parseRequestAddonsFrom,
      VlessRequestAddons.note, if_neg (by decide), if_pos rfl, dif_pos id.property]
    simp
  have hcapable : ∀ (addons : VlessRequestAddons) (rest : Bytes),
      parseRequestAddonsFrom addons ([addonTagResumeCapable, 1, 1] ++ rest) =
        parseRequestAddonsFrom { addons with resumeCapable := true } rest := by
    intro addons rest
    rw [cons_append, cons_append, parseRequestAddonsFrom, if_neg (by simp)]
    rfl
  rw [parseRequestAddons]
  unfold encodeRequestAddons
  cases resumeCapable with
  | false =>
    cases resumeId with
    | none => simp [parseRequestAddonsFrom]
    | some id => exact hid ⟨false, none⟩ id
  | true =>
    rw [if_pos rfl, hcapable]
    cases resumeId with
    | none => simp [parseRequestAddonsFrom]
    | some id => exact hid ⟨true, none⟩ id

@[simp] theorem fromU8_asU8 (command : VlessCommand) : fromU8 command.asU8 = some command := by
  cases command <;> rfl

def headerFront (uuid : Octets 16) (command : VlessCommand) (addons : Bytes) : Bytes :=
  version :: uuid.val ++ UInt8.ofNat addons.length :: addons ++ [command.asU8]

theorem length_headerFront (uuid : Octets 16) (command : VlessCommand) (addons : Bytes) :
    (headerFront uuid command addons).length = 18 + addons.length + 1 := by
  simp [headerFront, uuid.property]
  omega

theorem parseRequest_front (haddons : addons.length ≤ 255) (rest : Bytes) :
    parseRequest (headerFront uuid command addons ++ rest) =
      match command with
      | .mux => .ok (some ⟨uuid, .mux, unspecified, 18 + addons.length + 1, parseRequestAddons addons⟩)
      | command =>
        match parseRequestTarget (headerFront uuid command addons ++ rest) (18 + addons.length + 1) with
        | .error error => .error error
        | .ok none => .ok none
        | .ok (some (target, consumed)) => .ok (some ⟨uuid, command, target, consumed, parseRequestAddons addons⟩) := by
  have hlength : (headerFront uuid command addons ++ rest).length = 18 + addons.length + 1 + rest.length := by
    rw [length_append, length_headerFront]
  have huuid := uuid.property
  have hlen : (UInt8.ofNat addons.length).toNat = addons.length := by
    rw [UInt8.toNat_ofNat']
    omega
  have hversion : byteAt (headerFront uuid command addons ++ rest) 0 = version := rfl
  have hid : ∀ h, octetsAt (headerFront uuid command addons ++ rest) 1 16 h = uuid := by
    rw [headerFront, append_assoc, append_assoc, cons_append]
    exact octetsAt_length uuid (length_singleton : [version].length = 1)
  have hopt : byteAt (headerFront uuid command addons ++ rest) 17 = UInt8.ofNat addons.length := by
    grind [headerFront, version, UInt8.ofNat, byteAt_length]
  have hblock : slice (headerFront uuid command addons ++ rest) 18 (18 + addons.length) = addons := by
    have hinput : headerFront uuid command addons ++ rest =
        (version :: uuid.val ++ [UInt8.ofNat addons.length]) ++ (addons ++ ([command.asU8] ++ rest)) := by
      simp [headerFront]
    rw [hinput]
    exact slice_length (by simp [huuid]) rfl
  have hcommand : byteAt (headerFront uuid command addons ++ rest) (18 + addons.length) = command.asU8 := by
    grind [headerFront, version, UInt8.ofNat, byteAt_length]
  rw [parseRequest, dif_neg (by omega), hversion, if_neg (by simp), hid, hopt, hlen]
  dsimp only
  rw [if_neg (by omega), hblock, hcommand, fromU8_asU8]
  cases command <;> rfl

theorem parseRequest_header (h : buildRequestHeader uuid command.asU8 target addons = .ok header) (after : Bytes) :
    parseRequest (header ++ after) = .ok (some ⟨uuid, command, if command = .mux then unspecified else target,
      header.length, parseRequestAddons addons⟩) := by
  rw [buildRequestHeader] at h
  split at h
  · cases h
  rename_i haddons
  have hfront := length_headerFront uuid command addons
  change (if command.asU8 = commandMux then Except.ok (headerFront uuid command addons)
    else (requestTargetBytes target).map fun bytes => headerFront uuid command addons ++ bytes) = .ok header at h
  cases command with
  | mux =>
    cases h
    rw [parseRequest_front (Nat.le_of_not_lt haddons), if_pos rfl, hfront]
  | tcp | udp =>
    cases hbytes : requestTargetBytes target with
    | error error =>
      rw [hbytes] at h
      cases h
    | ok bytes =>
      rw [hbytes] at h
      cases h
      rw [append_assoc, parseRequest_front (Nat.le_of_not_lt haddons)]
      dsimp only
      rw [parseRequestTarget_bytes hbytes hfront, if_neg (by decide), length_append, hfront]

end Building

section Main

/-- Headers round-trip with whatever follows, no part of a header is parsed or refused, and what is parsed or refused
stays so when more bytes come. -/
theorem request_roundTrips :
    (∀ (uuid : Octets 16) (command : VlessCommand) (target : TargetAddr) (addons header : Bytes),
      buildRequestHeader uuid command.asU8 target addons = .ok header →
      (∀ after, ∃ request, parseRequest (header ++ after) = .ok (some request) ∧ request.userId = uuid ∧
        request.command = command ∧ request.target = (if command = .mux then unspecified else target) ∧
        request.consumed = header.length ∧
        ∀ resumeCapable resumeId, addons = encodeRequestAddons resumeCapable resumeId →
          request.addons = ⟨resumeCapable, resumeId⟩) ∧
      ∀ part rest, part ++ rest = header → rest ≠ [] → parseRequest part = .ok none) ∧
    (∀ x y request, parseRequest x = .ok (some request) → parseRequest (x ++ y) = .ok (some request)) ∧
    ∀ x y error, parseRequest x = .error error → parseRequest (x ++ y) = .error error := by
  refine ⟨fun uuid command target addons header h => ⟨fun after => ?_, fun part rest hpart hrest => ?_⟩, ?_, ?_⟩
  · refine ⟨_, parseRequest_header h after, rfl, rfl, rfl, rfl, ?_⟩
    rintro resumeCapable resumeId rfl
    exact parseRequestAddons_encoded resumeCapable resumeId
  · have hwhole := parseRequest_header h []
    rw [append_nil, ← hpart] at hwhole
    exact stable_parseRequest.incomplete (fun _ _ => consumed_parseRequest) hwhole rfl hrest
  · intro x y request hx
    rw [stable_parseRequest x y (by rw [hx]; exact fun h => by cases h), hx]
  · intro x y error hx
    rw [stable_parseRequest x y (by rw [hx]; exact fun h => by cases h), hx]

def someUuid : Octets 16 := ⟨replicate 16 7, rfl⟩

theorem request_roundTrips_resumable : ∃ header request,
    buildRequestHeader someUuid udp.asU8 (.domain "ab" 53) (encodeRequestAddons true (some someUuid)) = .ok header ∧
    parseRequest (header ++ [1, 2]) = .ok (some request) ∧ request.target = .domain "ab" 53 ∧
    request.addons = ⟨true, some someUuid⟩ := by
  have hbuilt : buildRequestHeader someUuid udp.asU8 (.domain "ab" 53)
      (encodeRequestAddons true (some someUuid)) = .ok _ := rfl
  obtain ⟨request, hparse, -, -, htarget, -, haddons⟩ := (request_roundTrips.1 _ _ _ _ _ hbuilt).1 [1, 2]
  exact ⟨_, request, hbuilt, hparse, htarget, haddons true (some someUuid) rfl⟩

end Main

end OutlineProxy.Vless
