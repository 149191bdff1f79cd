import OutlineProxy.Lib.Incremental
import OutlineProxy.Shadowsocks.Request

/-! The bodies of SS2022 datagrams, for both kinds of ciphers. -/

namespace OutlineProxy.Shadowsocks

open List Sealing Incremental

def ss2022UdpClientType : UInt8 := 0

def ss2022UdpServerType : UInt8 := 1

def u64At (bytes : Bytes) (offset : Nat) : UInt64 := UInt64.ofNat (ofBe (slice bytes offset (offset + 8)))

def parseUdpRequestRest (body : Bytes) (now : Nat) : Except Ss2022HeaderError Ss2022Request :=
  if byteAt body 0 ≠ ss2022UdpClientType then .error .invalid
  else
    match validateTimestamp (u64At body 1).toNat now with
    | .error error => .error error
    | .ok () =>
      let paddingLen := ofBe (slice body 9 11)
      let body := body.drop 11
      if body.length < paddingLen then .error .invalid
      else
        let body := body.drop paddingLen
        match parseTargetAddr body with
        | .error _ => .error .target
        | .ok none => .error .invalid
        | .ok (some (target, consumed)) => .ok ⟨target, body.drop consumed⟩

def parseUdpRequestBody (body : Bytes) (now : Nat) : Except Ss2022HeaderError Ss2022Request :=
  if body.length < 1 + 8 + 2 then .error .invalid else parseUdpRequestRest body now

structure Ss2022ChachaUdpRequest where
  target : TargetAddr
  payload : Bytes
  clientSessionId : Octets 8
  packetId : UInt64

variable {body : Bytes}

theorem requestId_inside (h : ¬ body.length < 8 + 8 + 1 + 8 + 2) : ¬ body.length < 0 + 8 := by omega

def parseChachaUdpRequestBody (body : Bytes) (now : Nat) : Except Ss2022HeaderError Ss2022ChachaUdpRequest :=
  if h : body.length < 8 + 8 + 1 + 8 + 2 then .error .invalid
  else
    match parseUdpRequestRest (body.drop 16) now with
    | .error error => .error error
    | .ok request => .ok ⟨request.target, request.payload, octetsAt body 0 8 (requestId_inside h), u64At body 8⟩

def buildUdpRequestBody (chachaSession : Option (Octets 8 × UInt64)) (now : Nat) (addressedPayload : Bytes) : Bytes :=
  (match chachaSession with
    | some (sessionId, packetId) => sessionId.val ++ toBe 8 packetId.toNat
    | none => []) ++ (ss2022UdpClientType :: (toBe 8 now ++ (toBe 2 0 ++ addressedPayload)))

def writeUdpResponseBody (out : Bytes) (now : Nat) (clientSessionId : Octets 8) (targetWire payload : Bytes) : Bytes :=
  out ++ ss2022UdpServerType :: (toBe 8 now ++ (clientSessionId.val ++ (toBe 2 0 ++ (targetWire ++ payload))))

def writeChachaUdpResponseBody (out : Bytes) (serverSessionId : Octets 8) (packetId : UInt64) (now : Nat)
    (clientSessionId : Octets 8) (targetWire payload : Bytes) : Bytes :=
  writeUdpResponseBody (out ++ serverSessionId.val ++ toBe 8 packetId.toNat) now clientSessionId targetWire payload

def parseUdpResponseBody (body : Bytes) (expectedClientSessionId : Option (Octets 8)) (now : Nat) :
    Except Ss2022HeaderError Bytes :=
  if body.length < 1 + 8 + 8 + 2 then .error .invalid
  else if byteAt body 0 ≠ ss2022UdpServerType then .error (.invalidResponseType (byteAt body 0))
  else
    match validateTimestamp (u64At body 1).toNat now with
    | .error error => .error error
    | .ok () =>
      if expectedClientSessionId.any fun expected => slice body 9 17 ≠ expected.val then .error .clientSessionMismatch
      else
        let paddingLen := ofBe (slice body 17 19)
        let rest := body.drop 19
        if rest.length < paddingLen then .error .invalid else .ok (rest.drop paddingLen)

structure Ss2022ChachaUdpResponse where
  serverSessionId : Octets 8
  packetId : UInt64
  addressedPayload : Bytes

theorem responseId_inside (h : ¬ body.length < 8 + 8) : ¬ body.length < 0 + 8 := by omega

def parseChachaUdpResponseBody (body : Bytes) (expectedClientSessionId : Option (Octets 8)) (now : Nat) :
    Except Ss2022HeaderError Ss2022ChachaUdpResponse :=
  if h : body.length < 8 + 8 then .error .invalid
  else
    match parseUdpResponseBody (body.drop 16) expectedClientSessionId now with
    | .error error => .error error
    | .ok addressedPayload => .ok ⟨octetsAt body 0 8 (responseId_inside h), u64At body 8, addressedPayload⟩

section Reading

variable {target : TargetAddr} {wire payload : Bytes} {now now' : Nat}

theorem u64At_toBe {n offset : Nat} {before : Bytes} (hn : n < 2 ^ 64) (hbefore : before.length = offset)
    (after : Bytes) : (u64At (before ++ (toBe 8 n ++ after)) offset).toNat = n := by
  have hpow : (256 : Nat) ^ 8 = 2 ^ 64 := by decide
  rw [u64At, slice_length hbefore (by rw [length_toBe]), ofBe_toBe (hpow ▸ hn), UInt64.toNat_ofNat']
  exact Nat.mod_eq_of_lt hn

theorem stampedFront (type : UInt8) (hfresh : Fresh now now') (after : Bytes) :
    byteAt (type :: (toBe 8 now ++ after)) 0 = type ∧
      validateTimestamp (u64At (type :: (toBe 8 now ++ after)) 1).toNat now' = .ok () := by
  have hstamp : (u64At ([type] ++ (toBe 8 now ++ after)) 1).toNat = now := u64At_toBe hfresh.1 rfl after
  exact ⟨rfl, by rw [singleton_append] at hstamp; rw [hstamp, validateTimestamp_of_fresh hfresh]⟩

theorem parseUdpRequestRest_built (hfresh : Fresh now now') (hwire : target.toWireBytes = .ok wire) :
    parseUdpRequestRest (buildUdpRequestBody none now (wire ++ payload)) now' = .ok ⟨target, payload⟩ := by
  obtain ⟨htype, hstamp⟩ := stampedFront ss2022UdpClientType hfresh (toBe 2 0 ++ (wire ++ payload))
  have hpadding : slice ((ss2022UdpClientType :: toBe 8 now) ++ (toBe 2 0 ++ (wire ++ payload))) 9 11 = toBe 2 0 :=
    slice_length (by simp) rfl
  have hrest : ((ss2022UdpClientType :: toBe 8 now ++ toBe 2 0) ++ (wire ++ payload)).drop 11 = wire ++ payload :=
    drop_left' (by simp)
  rw [append_assoc] at hrest
  have hparse : parseTargetAddr (wire ++ payload) = .ok (some (target, wire.length)) := by
    rw [parseTargetAddr, parseInner_toWireBytes hwire]
  have hzero : ofBe (toBe 2 0) = 0 := by decide
  change parseUdpRequestRest (ss2022UdpClientType :: (toBe 8 now ++ (toBe 2 0 ++ (wire ++ payload)))) now' = _
  rw [parseUdpRequestRest, htype, if_neg (by simp), hstamp]
  dsimp only
  rw [cons_append] at hpadding hrest
  rw [hpadding, hrest, hzero, if_neg (Nat.not_lt_zero _), drop_zero, hparse]
  simp

theorem parseUdpRequestBody_built (hfresh : Fresh now now') (hwire : target.toWireBytes = .ok wire) :
    parseUdpRequestBody (buildUdpRequestBody none now (wire ++ payload)) now' = .ok ⟨target, payload⟩ := by
  rw [parseUdpRequestBody, if_neg (by simp [buildUdpRequestBody]; omega), parseUdpRequestRest_built hfresh hwire]

theorem idsFront (sessionId : Octets 8) (packetId : UInt64) (after : Bytes) :
    (∀ h, octetsAt (sessionId.val ++ (toBe 8 packetId.toNat ++ after)) 0 8 h = sessionId) ∧
      u64At (sessionId.val ++ (toBe 8 packetId.toNat ++ after)) 8 = packetId ∧
      (sessionId.val ++ (toBe 8 packetId.toNat ++ after)).drop 16 = after := by
  refine ⟨?_, ?_, ?_⟩
  · have hid : ∀ h, octetsAt ([] ++ (sessionId.val ++ (toBe 8 packetId.toNat ++ after))) 0 8 h = sessionId :=
      octetsAt_length sessionId rfl
    exact hid
  · exact UInt64.toNat_inj.mp (u64At_toBe packetId.toNat_lt sessionId.property after)
  · rw [← append_assoc]
    exact drop_left' (by simp [sessionId.property])

theorem parseChachaUdpRequestBody_built (hfresh : Fresh now now') (hwire : target.toWireBytes = .ok wire)
    (sessionId : Octets 8) (packetId : UInt64) :
    parseChachaUdpRequestBody (buildUdpRequestBody (some (sessionId, packetId)) now (wire ++ payload)) now' =
      .ok ⟨target, payload, sessionId, packetId⟩ := by
  have hbody : buildUdpRequestBody (some (sessionId, packetId)) now (wire ++ payload) =
      sessionId.val ++ (toBe 8 packetId.toNat ++ buildUdpRequestBody none now (wire ++ payload)) := by
    simp [buildUdpRequestBody]
  obtain ⟨hid, hpacket, hrest⟩ := idsFront sessionId packetId (buildUdpRequestBody none now (wire ++ payload))
  rw [hbody, parseChachaUdpRequestBody,
    dif_neg (by simp only [buildUdpRequestBody, nil_append, length_append, length_cons, length_toBe]; omega),
    hrest, parseUdpRequestRest_built hfresh hwire]
  dsimp only
  rw [hid, hpacket]

theorem parseUdpResponseBody_written (hfresh : Fresh now now') (clientSessionId : Octets 8)
    (expected : Option (Octets 8)) :
    parseUdpResponseBody (writeUdpResponseBody [] now clientSessionId wire payload) expected now' =
      if expected = none ∨ expected = some clientSessionId then .ok (wire ++ payload)
      else .error .clientSessionMismatch := by
  obtain ⟨htype, hstamp⟩ := stampedFront ss2022UdpServerType hfresh
    (clientSessionId.val ++ (toBe 2 0 ++ (wire ++ payload)))
  have hsession := clientSessionId.property
  have hid :
      slice ((ss2022UdpServerType :: toBe 8 now) ++ (clientSessionId.val ++ (toBe 2 0 ++ (wire ++ payload)))) 9 17 =
      clientSessionId.val := slice_length (by simp) (by rw [hsession])
  have hpadding : slice ((ss2022UdpServerType :: toBe 8 now ++ clientSessionId.val) ++ (toBe 2 0 ++ (wire ++ payload)))
      17 19 = toBe 2 0 := slice_length (by simp [hsession]) rfl
  have hrest : ((ss2022UdpServerType :: toBe 8 now ++ clientSessionId.val ++ toBe 2 0) ++ (wire ++ payload)).drop 19 =
      wire ++ payload := drop_left' (by simp [hsession])
  have hzero : ofBe (toBe 2 0) = 0 := by decide
  simp only [append_assoc, cons_append] at hid hpadding hrest
  have hmatch : (expected.any fun expected => clientSessionId.val ≠ expected.val) = true ↔
      ¬ (expected = none ∨ expected = some clientSessionId) := by
    cases expected with
    | none => simp
    | some expected => grind [Option.some.inj]
  rw [writeUdpResponseBody, nil_append, parseUdpResponseBody,
    if_neg (by simp only [length_cons, length_append, length_toBe]; omega), htype, if_neg (by simp), hstamp]
  dsimp only
  rw [hid, hpadding, hrest, hzero, if_neg (Nat.not_lt_zero _), drop_zero]
  by_cases hexpected : expected = none ∨ expected = some clientSessionId
  · rw [if_pos hexpected, if_neg (fun h => hmatch.mp h hexpected)]
  · rw [if_neg hexpected, if_pos (hmatch.mpr hexpected)]

theorem parseChachaUdpResponseBody_written (hfresh : Fresh now now') (serverSessionId clientSessionId : Octets 8)
    (packetId : UInt64) (expected : Option (Octets 8)) :
    parseChachaUdpResponseBody (writeChachaUdpResponseBody [] serverSessionId packetId now clientSessionId wire payload)
        expected now' =
      if expected = none ∨ expected = some clientSessionId then .ok ⟨serverSessionId, packetId, wire ++ payload⟩
      else .error .clientSessionMismatch := by
  have hbody : writeChachaUdpResponseBody [] serverSessionId packetId now clientSessionId wire payload =
      serverSessionId.val ++ (toBe 8 packetId.toNat ++ writeUdpResponseBody [] now clientSessionId wire payload) := by
    simp [writeChachaUdpResponseBody, writeUdpResponseBody]
  obtain ⟨hid, hpacket, hrest⟩ :=
    idsFront serverSessionId packetId (writeUdpResponseBody [] now clientSessionId wire payload)
  rw [hbody, parseChachaUdpResponseBody, dif_neg (by simp only [length_append, length_toBe]; omega), hrest,
    parseUdpResponseBody_written hfresh]
  by_cases hexpected : expected = none ∨ expected = some clientSessionId
  · rw [if_pos hexpected, if_pos hexpected]
    dsimp only
    rw [hid, hpacket]
  · rw [if_neg hexpected, if_neg hexpected]

theorem sessionId_of_parseUdpResponseBody {rest : Bytes} {expected : Octets 8}
    (h : parseUdpResponseBody body (some expected) now = .ok rest) : slice body 9 17 = expected.val := by
  grind [parseUdpResponseBody]

theorem sessionId_of_parseChachaUdpResponseBody {response : Ss2022ChachaUdpResponse} {expected : Octets 8}
    (h : parseChachaUdpResponseBody body (some expected) now = .ok response) :
    slice (body.drop 16) 9 17 = expected.val := by
  unfold parseChachaUdpResponseBody at h
  split at h
  · cases h
  split at h
  · cases h
  · rename_i hparse
    exact sessionId_of_parseUdpResponseBody hparse

end Reading

section Main

/-- While the clocks agree, the server reads what the client wrote, and the client what the server wrote,
on both paths. -/
theorem ss2022_headers_agree (now now' : Nat) (hfresh : Fresh now now') (target : TargetAddr) (wire : Bytes)
    (hwire : target.toWireBytes = .ok wire) :
    (∀ padding payload, padding.length ≤ ss2022MaxPaddingLen → ∃ fixed rest,
      buildRequestHeader target now padding = .ok (fixed, rest) ∧
      validateRequestFixedHeader fixed now' = .ok rest.length ∧ parseRequestVariableHeader (rest ++ payload) =
        if padding = [] ∧ payload = [] then .error .invalid else .ok ⟨target, payload⟩) ∧
    (∀ payload, parseUdpRequestBody (buildUdpRequestBody none now (wire ++ payload)) now' = .ok ⟨target, payload⟩ ∧
      ∀ sessionId packetId,
        parseChachaUdpRequestBody (buildUdpRequestBody (some (sessionId, packetId)) now (wire ++ payload)) now' =
          .ok ⟨target, payload, sessionId, packetId⟩) ∧ (∀ out payload clientSessionId expected, ∃ body,
      writeUdpResponseBody out now clientSessionId wire payload = out ++ body ∧
      parseUdpResponseBody body expected now' =
        if expected = none ∨ expected = some clientSessionId then .ok (wire ++ payload)
        else .error .clientSessionMismatch) ∧
    (∀ out payload serverSessionId packetId clientSessionId expected, ∃ body,
      writeChachaUdpResponseBody out serverSessionId packetId now clientSessionId wire payload = out ++ body ∧
      parseChachaUdpResponseBody body expected now' =
        if expected = none ∨ expected = some clientSessionId then .ok ⟨serverSessionId, packetId, wire ++ payload⟩
        else .error .clientSessionMismatch) ∧
    (∀ body rest expected, parseUdpResponseBody body (some expected) now' = .ok rest → slice body 9 17 = expected.val) ∧
    ∀ body response expected, parseChachaUdpResponseBody body (some expected) now' = .ok response →
      slice (body.drop 16) 9 17 = expected.val := by
  refine ⟨?_, ?_, ?_, ?_, ?_, ?_⟩
  · intro padding payload hpadding
    obtain ⟨fixed, rest, hbuilt⟩ : ∃ fixed rest, buildRequestHeader target now padding = .ok (fixed, rest) := by
      rw [buildRequestHeader, hwire]
      exact ⟨_, _, if_neg (Nat.not_lt.mpr hpadding)⟩
    obtain ⟨bytes, hbytes, -, hfixed, hrest⟩ := buildRequestHeader_cases hbuilt
    cases hwire.symm.trans hbytes
    have hsize : rest.length < 256 ^ 2 := by
      grind [ss2022MaxPaddingLen, length_toWireBytes_le, length_append, length_toBe]
    refine ⟨fixed, rest, hbuilt, ?_, ?_⟩
    · rw [hfixed, validateRequestFixedHeader_of_fresh hfresh hsize]
    · rw [hrest, parseRequestVariableHeader_append hwire hpadding]
  · grind [parseUdpRequestBody_built, parseChachaUdpRequestBody_built]
  · intro out payload clientSessionId expected
    exact ⟨writeUdpResponseBody [] now clientSessionId wire payload, rfl,
      parseUdpResponseBody_written hfresh clientSessionId expected⟩
  · intro out payload serverSessionId packetId clientSessionId expected
    refine ⟨writeChachaUdpResponseBody [] serverSessionId packetId now clientSessionId wire payload, ?_,
      parseChachaUdpResponseBody_written hfresh serverSessionId clientSessionId packetId expected⟩
    simp [writeChachaUdpResponseBody, writeUdpResponseBody]
  · intro body rest expected h
    exact sessionId_of_parseUdpResponseBody h
  · intro body response expected h
    exact sessionId_of_parseChachaUdpResponseBody h

/-- The server's clock is ten seconds ahead. -/
theorem ss2022_headers_agree_ahead :
    parseUdpRequestBody (buildUdpRequestBody none 100 ([1, 10, 0, 0, 1, 0, 53] ++ [7, 8])) 110 =
      .ok ⟨.ipV4 ⟨[10, 0, 0, 1], rfl⟩ 53, [7, 8]⟩ :=
  ((ss2022_headers_agree 100 110 ⟨by decide, by decide, by decide⟩ (.ipV4 ⟨[10, 0, 0, 1], rfl⟩ 53) [1, 10, 0, 0,
    1, 0, 53] rfl).2.1 [7, 8]).1

end Main

end OutlineProxy.Shadowsocks
