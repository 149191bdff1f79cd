import OutlineProxy.Lib.Sealing

/-! Padding frames of a carrier and their streaming decoder. -/

namespace OutlineProxy.Carrier

open Sealing

def paddingFrameHeaderLen : Nat := 4

def maxPaddingSegment : Nat := 65535

def controlMagic : List UInt8 := [0x4f, 0x43, 0x54, 0x4c]

def controlVersion : UInt8 := 1

def controlPrefixLen : Nat := 6

inductive ControlSignal where
  | throttleSwitchUplink

namespace ControlSignal

def opcode : ControlSignal → UInt8
  | throttleSwitchUplink => 1

def fromOpcode (opcode : UInt8) : Option ControlSignal := if opcode = 1 then some throttleSwitchUplink else none

end ControlSignal

def parseControl (probe : List UInt8) : Option ControlSignal :=
  if probe.take 4 ≠ controlMagic then none
  else if probe.getD 4 0 ≠ controlVersion then none
  else ControlSignal.fromOpcode (probe.getD 5 0)

inductive PaddingError where
  | realTooLarge (length : Nat)
  | padTooLarge (length : Nat)

def encodeFrameInto (out real pad : List UInt8) : Except PaddingError (List UInt8) :=
  if maxPaddingSegment < real.length then .error (.realTooLarge real.length)
  else if maxPaddingSegment < pad.length then .error (.padTooLarge pad.length)
  else .ok (out ++ (toBe 2 real.length ++ (toBe 2 pad.length ++ (real ++ pad))))

def encodeControlFrameInto (out : List UInt8) (signal : ControlSignal) (extraPad : List UInt8) :
    Except PaddingError (List UInt8) :=
  encodeFrameInto out [] (controlMagic ++ [controlVersion, signal.opcode] ++ extraPad)

inductive DecodeState where
  | header
  | real (realRem pad : Nat)
  | pad (padRem : Nat) (inspect : Bool)
deriving DecidableEq

structure PaddingDecoder where
  state : DecodeState
  header : List UInt8
  ctrl : List UInt8
  pendingControl : Option ControlSignal

def nextAfterHeader (real pad : Nat) : DecodeState :=
  if 0 < real then .real real pad else if 0 < pad then .pad pad true else .header

def nextAfterReal (realRem pad : Nat) : DecodeState :=
  if 0 < realRem then .real realRem pad else if 0 < pad then .pad pad false else .header

def nextAfterPad (padRem : Nat) (inspect : Bool) : DecodeState :=
  if 0 < padRem then .pad padRem inspect else .header

namespace PaddingDecoder

def new : PaddingDecoder := ⟨.header, [], [], none⟩

variable (d : PaddingDecoder)

def takeControl : Option ControlSignal × PaddingDecoder :=
  (d.pendingControl, { d with pendingControl := none })

def afterHeader (header : List UInt8) : PaddingDecoder :=
  { d with
    state := nextAfterHeader (ofBe (header.take 2)) (ofBe (header.drop 2))
    header := []
    ctrl := if ofBe (header.take 2) = 0 then [] else d.ctrl }

def probe (bytes : List UInt8) : PaddingDecoder :=
  if d.ctrl.length < controlPrefixLen then
    let ctrl := d.ctrl ++ bytes.take (controlPrefixLen - d.ctrl.length)
    { d with
      ctrl
      pendingControl := if ctrl.length = controlPrefixLen then (parseControl ctrl).or d.pendingControl
        else d.pendingControl }
  else d

def pushStep (input : List UInt8) : PaddingDecoder × List UInt8 × List UInt8 :=
  match d.state with
  | .header =>
    let take := min (paddingFrameHeaderLen - d.header.length) input.length
    let header := d.header ++ input.take take
    (if header.length = paddingFrameHeaderLen then d.afterHeader header else { d with header }, input.drop take, [])
  | .real realRem pad =>
    let take := min realRem input.length
    ({ d with state := nextAfterReal (realRem - take) pad }, input.drop take, input.take take)
  | .pad padRem inspect =>
    let take := min padRem input.length
    ({ (if inspect then d.probe (input.take take) else d) with state := nextAfterPad (padRem - take) inspect },
      input.drop take, [])

def pushLoop : Nat → PaddingDecoder → List UInt8 → List UInt8 → PaddingDecoder × List UInt8
  | _, d, [], out => (d, out)
  | 0, d, _, out => (d, out)
  | fuel + 1, d, input, out =>
    let (d, rest, payload) := d.pushStep input
    pushLoop fuel d rest (out ++ payload)

def push (input out : List UInt8) : PaddingDecoder × List UInt8 := pushLoop input.length d input out

def isAtFrameBoundary : Bool := d.state = .header && d.header.length = 0

end PaddingDecoder

theorem header_probe (d : PaddingDecoder) (bytes : List UInt8) : (d.probe bytes).header = d.header := by
  unfold PaddingDecoder.probe
  split <;> rfl

end OutlineProxy.Carrier
