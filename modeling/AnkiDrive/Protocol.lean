import AnkiDrive.Advertisement

/-! `protocol.c`: the messages a central sends to a vehicle. A message is the memory from
the first byte of an `anki_vehicle_msg_t` on, with whatever it held before; a float is
its 32-bit pattern. -/
namespace AnkiDrive
open CModel

def ankiVehicleMsgMaxSize : Nat := 20
def ankiVehicleMsgBaseSize : Nat := 1
def ankiVehicleMsgTypeSize : UInt8 := 2

def ankiVehicleMsgC2vDisconnect : UInt8 := 0x0d
def ankiVehicleMsgC2vPingRequest : UInt8 := 0x16
def ankiVehicleMsgC2vVersionRequest : UInt8 := 0x18
def ankiVehicleMsgC2vSetLights : UInt8 := 0x1d
def ankiVehicleMsgC2vSetSpeed : UInt8 := 0x24
def ankiVehicleMsgC2vChangeLane : UInt8 := 0x25
def ankiVehicleMsgC2vCancelLaneChange : UInt8 := 0x26
def ankiVehicleMsgC2vTurn180 : UInt8 := 0x32
def ankiVehicleMsgC2vSetOffsetFromRoadCenter : UInt8 := 0x2c
def ankiVehicleMsgC2vLightsPattern : UInt8 := 0x33
def ankiVehicleMsgC2vSdkMode : UInt8 := 0x90

namespace AnkiVehicleMsg

def size : Field := ⟨0, 1⟩
def msgId : Field := ⟨1, 1⟩
def payload : Field := ⟨2, 18⟩
def sizeof : Nat := 20

end AnkiVehicleMsg

namespace AnkiVehicleMsgSdkMode

def on : Field := ⟨2, 1⟩
def sizeof : Nat := 3

end AnkiVehicleMsgSdkMode

def ankiVehicleMsgSdkModeSize : UInt8 := 2

namespace AnkiVehicleMsgSetSpeed

def speedMmPerSec : Field := ⟨2, 2⟩
def accelMmPerSec2 : Field := ⟨4, 2⟩
def reserved : Field := ⟨6, 1⟩
def sizeof : Nat := 7

end AnkiVehicleMsgSetSpeed

def ankiVehicleMsgC2vSetSpeedSize : UInt8 := 6

namespace AnkiVehicleMsgSetOffsetFromRoadCenter

def offsetMm : Field := ⟨2, 4⟩
def sizeof : Nat := 6

end AnkiVehicleMsgSetOffsetFromRoadCenter

namespace AnkiVehicleMsgChangeLane

def horizontalSpeedMmPerSec : Field := ⟨2, 2⟩
def offsetFromRoadCenterMm : Field := ⟨4, 4⟩
def reserved0 : Field := ⟨8, 1⟩
def reserved1 : Field := ⟨9, 1⟩
def sizeof : Nat := 10

end AnkiVehicleMsgChangeLane

def ankiVehicleMsgC2vChangeLaneSize : UInt8 := 9

namespace AnkiVehicleMsgSetLights

def lightMask : Field := ⟨2, 1⟩
def sizeof : Nat := 3

end AnkiVehicleMsgSetLights

def ankiVehicleMsgC2vSetLightsSize : UInt8 := 2

namespace AnkiVehicleMsgLightsPattern

def channel : Field := ⟨2, 1⟩
def effect : Field := ⟨3, 1⟩
def start : Field := ⟨4, 1⟩
def «end» : Field := ⟨5, 1⟩
def cyclesPerMin : Field := ⟨6, 2⟩
def sizeof : Nat := 8

end AnkiVehicleMsgLightsPattern

def ankiVehicleMsgC2vLightsPatternSize : UInt8 := 7

def ankiVehicleMsgSetSdkMode (message : Memory) (on : UInt8) : UInt8 × Memory :=
  let msg := message.fill 0 0 AnkiVehicleMsgSdkMode.sizeof
  let msg := msg.store AnkiVehicleMsg.size.offset ankiVehicleMsgSdkModeSize
  let msg := msg.store AnkiVehicleMsg.msgId.offset ankiVehicleMsgC2vSdkMode
  let msg := msg.store AnkiVehicleMsgSdkMode.on.offset on
  (UInt8.ofNat AnkiVehicleMsgSdkMode.sizeof, msg)

/- The fields are signed and the arguments are not; the assignment keeps the bits. -/
def ankiVehicleMsgSetSpeed (message : Memory) (speedMmPerSec accelMmPerSec2 : UInt16) :
    UInt8 × Memory :=
  let msg := message.fill 0 0 AnkiVehicleMsgSetSpeed.sizeof
  let msg := msg.store AnkiVehicleMsg.size.offset ankiVehicleMsgC2vSetSpeedSize
  let msg := msg.store AnkiVehicleMsg.msgId.offset ankiVehicleMsgC2vSetSpeed
  let msg := msg.store16 AnkiVehicleMsgSetSpeed.speedMmPerSec.offset speedMmPerSec
  let msg := msg.store16 AnkiVehicleMsgSetSpeed.accelMmPerSec2.offset accelMmPerSec2
  (UInt8.ofNat AnkiVehicleMsgSetSpeed.sizeof, msg)

def ankiVehicleMsgSetOffsetFromRoadCenter (msg : Memory) (offsetMm : UInt32) : UInt8 × Memory :=
  let m := msg.fill 0 0 AnkiVehicleMsgSetOffsetFromRoadCenter.sizeof
  let m := m.store AnkiVehicleMsg.size.offset
    (UInt8.ofNat (AnkiVehicleMsgSetOffsetFromRoadCenter.sizeof - ankiVehicleMsgBaseSize))
  let m := m.store AnkiVehicleMsg.msgId.offset ankiVehicleMsgC2vSetOffsetFromRoadCenter
  let m := m.store32 AnkiVehicleMsgSetOffsetFromRoadCenter.offsetMm.offset offsetMm
  (UInt8.ofNat AnkiVehicleMsgSetOffsetFromRoadCenter.sizeof, m)

def ankiVehicleMsgChangeLane (message : Memory) (horizontalSpeedMmPerSec : UInt16)
    (offsetFromCenterMm : UInt32) : UInt8 × Memory :=
  let msg := message.fill 0 0 AnkiVehicleMsg.sizeof
  let msg := msg.store AnkiVehicleMsg.size.offset ankiVehicleMsgC2vChangeLaneSize
  let msg := msg.store AnkiVehicleMsg.msgId.offset ankiVehicleMsgC2vChangeLane
  let msg := msg.store16 AnkiVehicleMsgChangeLane.horizontalSpeedMmPerSec.offset
    horizontalSpeedMmPerSec
  let msg := msg.store32 AnkiVehicleMsgChangeLane.offsetFromRoadCenterMm.offset offsetFromCenterMm
  (UInt8.ofNat AnkiVehicleMsgChangeLane.sizeof, msg)

def ankiVehicleMsgSetLights (message : Memory) (mask : UInt8) : UInt8 × Memory :=
  let msg := message.fill 0 0 AnkiVehicleMsgSetLights.sizeof
  let msg := msg.store AnkiVehicleMsg.size.offset ankiVehicleMsgC2vSetLightsSize
  let msg := msg.store AnkiVehicleMsg.msgId.offset ankiVehicleMsgC2vSetLights
  let msg := msg.store AnkiVehicleMsgSetLights.lightMask.offset mask
  (UInt8.ofNat AnkiVehicleMsgSetLights.sizeof, msg)

def ankiVehicleMsgLightsPattern (message : Memory) (channel effect start «end» : UInt8)
    (cyclesPerMin : UInt16) : UInt8 × Memory :=
  let msg := message.fill 0 0 AnkiVehicleMsgLightsPattern.sizeof
  let msg := msg.store AnkiVehicleMsg.size.offset ankiVehicleMsgC2vLightsPatternSize
  let msg := msg.store AnkiVehicleMsg.msgId.offset ankiVehicleMsgC2vLightsPattern
  let msg := msg.store AnkiVehicleMsgLightsPattern.channel.offset channel
  let msg := msg.store AnkiVehicleMsgLightsPattern.effect.offset effect
  let msg := msg.store AnkiVehicleMsgLightsPattern.start.offset start
  let msg := msg.store AnkiVehicleMsgLightsPattern.end.offset «end»
  let msg := msg.store16 AnkiVehicleMsgLightsPattern.cyclesPerMin.offset cyclesPerMin
  (UInt8.ofNat AnkiVehicleMsgLightsPattern.sizeof, msg)

/-- The messages without a payload clear nothing. -/
def ankiVehicleMsgType (msg : Memory) (msgId : UInt8) : UInt8 × Memory :=
  let msg := msg.store AnkiVehicleMsg.size.offset (UInt8.ofNat ankiVehicleMsgBaseSize)
  let msg := msg.store AnkiVehicleMsg.msgId.offset msgId
  (ankiVehicleMsgTypeSize, msg)

def ankiVehicleMsgDisconnect (msg : Memory) : UInt8 × Memory :=
  ankiVehicleMsgType msg ankiVehicleMsgC2vDisconnect

def ankiVehicleMsgCancelLaneChange (msg : Memory) : UInt8 × Memory :=
  ankiVehicleMsgType msg ankiVehicleMsgC2vCancelLaneChange

def ankiVehicleMsgTurn180 (msg : Memory) : UInt8 × Memory :=
  ankiVehicleMsgType msg ankiVehicleMsgC2vTurn180

def ankiVehicleMsgPing (msg : Memory) : UInt8 × Memory :=
  ankiVehicleMsgType msg ankiVehicleMsgC2vPingRequest

def ankiVehicleMsgGetVersion (msg : Memory) : UInt8 × Memory :=
  ankiVehicleMsgType msg ankiVehicleMsgC2vVersionRequest

end AnkiDrive
