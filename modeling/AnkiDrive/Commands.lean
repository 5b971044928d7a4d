import AnkiDrive.Protocol
import AnkiDrive.Lib.Frames

/-! Commands and the frames they are sent in. A decoder that knows the layouts reads every
command back, out of its own frame and out of any stream of frames. -/
namespace AnkiDrive
open CModel

/-- A builder with its arguments. -/
inductive Command where
  | setSdkMode (on : UInt8)
  | setSpeed (speedMmPerSec accelMmPerSec2 : UInt16)
  | setOffsetFromRoadCenter (offsetMm : UInt32)
  | changeLane (horizontalSpeedMmPerSec : UInt16) (offsetFromCenterMm : UInt32)
  | setLights (mask : UInt8)
  | lightsPattern (channel effect start «end» : UInt8) (cyclesPerMin : UInt16)
  | disconnect
  | cancelLaneChange
  | turn180
  | ping
  | getVersion
  deriving DecidableEq, Repr

namespace Command

/-- The call of the builder on a message that held `message`. -/
def build (message : Memory) : Command → UInt8 × Memory
  | setSdkMode on => ankiVehicleMsgSetSdkMode message on
  | setSpeed speed accel => ankiVehicleMsgSetSpeed message speed accel
  | setOffsetFromRoadCenter offset => ankiVehicleMsgSetOffsetFromRoadCenter message offset
  | changeLane speed offset => ankiVehicleMsgChangeLane message speed offset
  | setLights mask => ankiVehicleMsgSetLights message mask
  | lightsPattern channel effect start «end» cycles =>
    ankiVehicleMsgLightsPattern message channel effect start «end» cycles
  | disconnect => ankiVehicleMsgDisconnect message
  | cancelLaneChange => ankiVehicleMsgCancelLaneChange message
  | turn180 => ankiVehicleMsgTurn180 message
  | ping => ankiVehicleMsgPing message
  | getVersion => ankiVehicleMsgGetVersion message

/-- The bytes sent: the message, cut to the length the builder returned. -/
def sent (message : Memory) (c : Command) : List UInt8 :=
  slice (c.build message).2 0 (c.build message).1.toNat

/-- A message read by the layout its identifier belongs to; the size byte is not part of
the body. -/
def decode (body : List UInt8) : Option Command :=
  let msg := ofBytes (frame body)
  let sized := fun (sizeof : Nat) (c : Command) => if body.length + 1 = sizeof then some c else none
  let id := msg AnkiVehicleMsg.msgId.offset
  if id = ankiVehicleMsgC2vSdkMode then
    sized AnkiVehicleMsgSdkMode.sizeof (setSdkMode (msg AnkiVehicleMsgSdkMode.on.offset))
  else if id = ankiVehicleMsgC2vSetSpeed then
    sized AnkiVehicleMsgSetSpeed.sizeof (setSpeed
      (msg.load16 AnkiVehicleMsgSetSpeed.speedMmPerSec.offset)
      (msg.load16 AnkiVehicleMsgSetSpeed.accelMmPerSec2.offset))
  else if id = ankiVehicleMsgC2vSetOffsetFromRoadCenter then
    sized AnkiVehicleMsgSetOffsetFromRoadCenter.sizeof (setOffsetFromRoadCenter
      (msg.load32 AnkiVehicleMsgSetOffsetFromRoadCenter.offsetMm.offset))
  else if id = ankiVehicleMsgC2vChangeLane then
    sized AnkiVehicleMsgChangeLane.sizeof (changeLane
      (msg.load16 AnkiVehicleMsgChangeLane.horizontalSpeedMmPerSec.offset)
      (msg.load32 AnkiVehicleMsgChangeLane.offsetFromRoadCenterMm.offset))
  else if id = ankiVehicleMsgC2vSetLights then
    sized AnkiVehicleMsgSetLights.sizeof (setLights (msg AnkiVehicleMsgSetLights.lightMask.offset))
  else if id = ankiVehicleMsgC2vLightsPattern then
    sized AnkiVehicleMsgLightsPattern.sizeof (lightsPattern
      (msg AnkiVehicleMsgLightsPattern.channel.offset) (msg AnkiVehicleMsgLightsPattern.effect.offset)
      (msg AnkiVehicleMsgLightsPattern.start.offset) (msg AnkiVehicleMsgLightsPattern.end.offset)
      (msg.load16 AnkiVehicleMsgLightsPattern.cyclesPerMin.offset))
  else if id = ankiVehicleMsgC2vDisconnect then sized ankiVehicleMsgTypeSize.toNat disconnect
  else if id = ankiVehicleMsgC2vCancelLaneChange then
    sized ankiVehicleMsgTypeSize.toNat cancelLaneChange
  else if id = ankiVehicleMsgC2vTurn180 then sized ankiVehicleMsgTypeSize.toNat turn180
  else if id = ankiVehicleMsgC2vPingRequest then sized ankiVehicleMsgTypeSize.toNat ping
  else if id = ankiVehicleMsgC2vVersionRequest then sized ankiVehicleMsgTypeSize.toNat getVersion
  else none

/-- What a frame holds behind its size byte. -/
def body : Command → List UInt8
  | setSdkMode on => [ankiVehicleMsgC2vSdkMode, on]
  | setSpeed speed accel => ankiVehicleMsgC2vSetSpeed :: (le16 speed ++ le16 accel ++ [0])
  | setOffsetFromRoadCenter offset => ankiVehicleMsgC2vSetOffsetFromRoadCenter :: le32 offset
  | changeLane speed offset => ankiVehicleMsgC2vChangeLane :: (le16 speed ++ le32 offset ++ [0, 0])
  | setLights mask => [ankiVehicleMsgC2vSetLights, mask]
  | lightsPattern channel effect start «end» cycles =>
    ankiVehicleMsgC2vLightsPattern :: ([channel, effect, start, «end»] ++ le16 cycles)
  | disconnect => [ankiVehicleMsgC2vDisconnect]
  | cancelLaneChange => [ankiVehicleMsgC2vCancelLaneChange]
  | turn180 => [ankiVehicleMsgC2vTurn180]
  | ping => [ankiVehicleMsgC2vPingRequest]
  | getVersion => [ankiVehicleMsgC2vVersionRequest]

theorem body_length (c : Command) : c.body.length + 1 ≤ 10 := by
  cases c <;> simp [body, le16, le32]

theorem build_length (message : Memory) (c : Command) :
    (c.build message).1.toNat = c.body.length + 1 := by
  cases c <;> rfl

theorem type_sent (message : Memory) (msgId : UInt8) :
    slice (ankiVehicleMsgType message msgId).2 0 2 = frame [msgId] := by
  simp [ankiVehicleMsgType, slice, List.range', Memory.store, Memory.write, AnkiVehicleMsg.size,
    AnkiVehicleMsg.msgId, frame, ankiVehicleMsgBaseSize]

theorem sent_eq (message : Memory) (c : Command) : c.sent message = frame c.body := by
  cases c with
  | setSdkMode on =>
    simp [sent, build, ankiVehicleMsgSetSdkMode, slice, List.range', Memory.store, Memory.fill,
      Memory.write, AnkiVehicleMsg.size, AnkiVehicleMsg.msgId, AnkiVehicleMsgSdkMode.on, frame, body,
      ankiVehicleMsgSdkModeSize, AnkiVehicleMsgSdkMode.sizeof]
  | setSpeed speed accel =>
    simp [sent, build, ankiVehicleMsgSetSpeed, slice, List.range', Memory.store, Memory.fill,
      Memory.write, Memory.store16, le16, AnkiVehicleMsg.size, AnkiVehicleMsg.msgId, frame, body,
      AnkiVehicleMsgSetSpeed.speedMmPerSec, AnkiVehicleMsgSetSpeed.accelMmPerSec2,
      ankiVehicleMsgC2vSetSpeedSize, AnkiVehicleMsgSetSpeed.sizeof]
  | setOffsetFromRoadCenter offset =>
    simp [sent, build, ankiVehicleMsgSetOffsetFromRoadCenter, slice, List.range', Memory.store,
      Memory.fill, Memory.write, Memory.store32, le32, AnkiVehicleMsg.size, AnkiVehicleMsg.msgId,
      frame, body, AnkiVehicleMsgSetOffsetFromRoadCenter.offsetMm, ankiVehicleMsgBaseSize,
      AnkiVehicleMsgSetOffsetFromRoadCenter.sizeof]
  | changeLane speed offset =>
    simp [sent, build, ankiVehicleMsgChangeLane, slice, List.range', Memory.store, Memory.fill,
      Memory.write, Memory.store16, Memory.store32, le16, le32, AnkiVehicleMsg.size,
      AnkiVehicleMsg.msgId, frame, body, AnkiVehicleMsgChangeLane.horizontalSpeedMmPerSec,
      AnkiVehicleMsgChangeLane.offsetFromRoadCenterMm, ankiVehicleMsgC2vChangeLaneSize,
      AnkiVehicleMsg.sizeof, AnkiVehicleMsgChangeLane.sizeof]
  | setLights mask =>
    simp [sent, build, ankiVehicleMsgSetLights, slice, List.range', Memory.store, Memory.fill,
      Memory.write, AnkiVehicleMsg.size, AnkiVehicleMsg.msgId, AnkiVehicleMsgSetLights.lightMask,
      frame, body, ankiVehicleMsgC2vSetLightsSize, AnkiVehicleMsgSetLights.sizeof]
  | lightsPattern channel effect start «end» cycles =>
    simp [sent, build, ankiVehicleMsgLightsPattern, slice, List.range', Memory.store, Memory.fill,
      Memory.write, Memory.store16, le16, AnkiVehicleMsg.size, AnkiVehicleMsg.msgId, frame, body,
      AnkiVehicleMsgLightsPattern.channel, AnkiVehicleMsgLightsPattern.effect,
      AnkiVehicleMsgLightsPattern.start, AnkiVehicleMsgLightsPattern.end,
      AnkiVehicleMsgLightsPattern.cyclesPerMin, ankiVehicleMsgC2vLightsPatternSize,
      AnkiVehicleMsgLightsPattern.sizeof]
  | disconnect | cancelLaneChange | turn180 | ping | getVersion => exact type_sent message _

theorem decode_body (c : Command) : decode c.body = some c := by
  cases c with
  | setSpeed speed accel =>
    simp only [decode, body, le16]
    exact congrArg some (congrArg₂ setSpeed (word16_le16 speed) (word16_le16 accel))
  | setOffsetFromRoadCenter offset =>
    simp only [decode, body, le32]
    exact congrArg some (congrArg setOffsetFromRoadCenter (word32_le32 offset))
  | changeLane speed offset =>
    simp only [decode, body, le16, le32]
    exact congrArg some (congrArg₂ changeLane (word16_le16 speed) (word32_le32 offset))
  | lightsPattern channel effect start «end» cycles =>
    simp only [decode, body, le16]
    exact congrArg some (congrArg (lightsPattern channel effect start «end») (word16_le16 cycles))
  | setSdkMode | setLights | disconnect | cancelLaneChange | turn180 | ping | getVersion => rfl

theorem build_size (message : Memory) (c : Command) :
    ((c.build message).2 AnkiVehicleMsg.size.offset).toNat = c.body.length := by
  have sent := sent_eq message c
  simp only [Command.sent, build_length, slice_succ, frame, List.cons.injEq] at sent
  have small := Nat.le_of_succ_le c.body_length
  simp only [AnkiVehicleMsg.size, sent.1]
  exact UInt8.toNat_ofNat_of_lt (Nat.lt_of_le_of_lt small (by decide))

theorem build_inside (message : Memory) (c : Command) {a : Nat} (behind : AnkiVehicleMsg.sizeof ≤ a) :
    (c.build message).2 a = message a := by
  have outside : ∀ (m : Memory) (p : Nat) (bs : List UInt8), p + bs.length ≤ AnkiVehicleMsg.sizeof →
      m.write p bs a = m a :=
    fun m _ _ fits => Memory.write_outside m (Or.inr (Nat.le_trans fits behind))
  have byte : ∀ (m : Memory) p b, p + 1 ≤ AnkiVehicleMsg.sizeof → m.store p b a = m a :=
    fun m p b => outside m p [b]
  have half : ∀ (m : Memory) p v, p + 2 ≤ AnkiVehicleMsg.sizeof → m.store16 p v a = m a :=
    fun m p v => outside m p (le16 v)
  have word : ∀ (m : Memory) p v, p + 4 ≤ AnkiVehicleMsg.sizeof → m.store32 p v a = m a :=
    fun m p v => outside m p (le32 v)
  have clear : ∀ (m : Memory) b k, k ≤ AnkiVehicleMsg.sizeof → m.fill 0 b k a = m a :=
    fun m b k fits => outside m 0 (List.replicate k b) (by simpa using fits)
  cases c <;>
    simp (disch := decide) only [build, ankiVehicleMsgSetSdkMode, ankiVehicleMsgSetSpeed,
      ankiVehicleMsgSetOffsetFromRoadCenter, ankiVehicleMsgChangeLane, ankiVehicleMsgSetLights,
      ankiVehicleMsgLightsPattern, ankiVehicleMsgDisconnect, ankiVehicleMsgCancelLaneChange,
      ankiVehicleMsgTurn180, ankiVehicleMsgPing, ankiVehicleMsgGetVersion, ankiVehicleMsgType,
      byte, half, word, clear]

theorem stream_decoded (commands : List (Command × Memory)) :
    decodeStream decode (commands.flatMap fun x => x.1.sent x.2) = some (commands.map Prod.fst) := by
  have read : ∀ x ∈ commands.map fun x => (x.1, x.1.body), decode x.2 = some x.1 := by
    intro x member
    obtain ⟨⟨c, message⟩, _, rfl⟩ := List.mem_map.mp member
    exact decode_body c
  have short : ∀ x ∈ commands.map fun x => (x.1, x.1.body), x.2.length ≤ 255 := by
    intro x member
    obtain ⟨⟨c, message⟩, _, rfl⟩ := List.mem_map.mp member
    exact Nat.le_trans (Nat.le_of_succ_le c.body_length) (by decide)
  have whole := decodeStream_frames decode read short
  simpa only [List.flatMap_map, List.map_map, sent_eq, Function.comp_def] using whole

theorem sent_inj {c d : Command} {message message' : Memory} :
    c.sent message = d.sent message' ↔ c = d := by
  constructor
  · intro same
    simp only [sent_eq, frame, List.cons.injEq] at same
    have read := congrArg decode same.2
    simpa only [decode_body, Option.some.injEq] using read
  · rintro rfl
    simp only [sent_eq]

/-- A stream of commands, each built into a message of its own, comes apart into the same
commands: what is sent depends on the arguments alone and tells the commands apart. -/
theorem command_stream_lossless :
    (∀ (c : Command) (message : Memory),
      (c.build message).1.toNat = ((c.build message).2 AnkiVehicleMsg.size.offset).toNat + 1 ∧
      (c.build message).1.toNat ≤ ankiVehicleMsgMaxSize) ∧
    (∀ commands : List (Command × Memory),
      decodeStream decode (commands.flatMap fun x => x.1.sent x.2) = some (commands.map Prod.fst)) ∧
    ∀ (c d : Command) (message message' : Memory), c.sent message = d.sent message' ↔ c = d := by
  refine ⟨fun c message => ⟨?_, ?_⟩, stream_decoded, fun c d message message' => sent_inj⟩
  · simp only [build_length, build_size]
  · have small := c.body_length
    simp only [build_length, ankiVehicleMsgMaxSize]
    omega

end Command

end AnkiDrive
