import AnkiDrive.Lib.Query
import AnkiDrive.Protocol
import AnkiDrive.VehicleTool

/-! `vehicle_cmd.c`: the commands. A handler gets its words through `argvp`, where what is
behind the last word is `NULL`. A handler that uses `NULL` as a string does not return: it
has no result. -/
namespace AnkiDrive
open CModel

/-- A computation that may look at the words of the command. -/
abbrev Args (α : Type) := OptionT (Query Nat (Option CString)) α

/-- `argvp[k]` as a string. -/
def word (k : Nat) : Args CString := OptionT.mk (Query.read k)

/-- A computation that looks at no word. -/
def computed {α : Type} (result : Option α) : Args α := OptionT.mk (pure result)

/-- What it comes to for given words, unless one it uses is `NULL`. -/
def Args.result {α : Type} (q : Args α) (argvp : Nat → Option CString) : Option α :=
  q.run.run argvp

section Result

variable {α β : Type} (argvp : Nat → Option CString)

@[simp] theorem result_pure (a : α) : Args.result (pure a) argvp = some a := rfl

@[simp] theorem result_word (k : Nat) : Args.result (word k) argvp = argvp k := rfl

@[simp] theorem result_computed (r : Option α) : Args.result (computed r) argvp = r := rfl

@[simp] theorem result_bind (q : Args α) (k : α → Args β) :
    Args.result (q >>= k) argvp = (q.result argvp).bind fun a => (k a).result argvp := by
  refine (Query.run_bind argvp q.run _).trans ?_
  simp only [Args.result]
  cases Query.run argvp q.run with
  | none => rfl
  | some a => rfl

@[simp] theorem result_ite (c : Prop) [Decidable c] (q r : Args α) :
    Args.result (if c then q else r) argvp = if c then q.result argvp else r.result argvp :=
  apply_ite (fun q => Args.result q argvp) c q r

end Result

abbrev Handler := Tool → Nat → Args (Tool × List Output)

/-- What the handlers get from outside: the bytes that are where a local message is put, the
library on floating point numbers, which are their 32-bit patterns, and what `gatt_connect`
returns should it be called, a channel or a message. -/
structure Outside where
  stack : Memory
  strtof : CString → UInt32
  /-- `(uint8_t)(ANKI_VEHICLE_MAX_LIGHT_INTENSITY * x)` -/
  intensity : UInt32 → UInt8
  /-- `%1.2f` -/
  float : UInt32 → List UInt8
  gattConnect : Except (List UInt8) IOChannel

def effectsByName : List (Option CString) :=
  [some (CString.literal "STEADY"), some (CString.literal "FADE"), some (CString.literal "THROB"),
    some (CString.literal "FLASH"), some (CString.literal "RANDOM"), none]

def channelsByName : List (Option CString) :=
  [some (CString.literal "RED"), some (CString.literal "TAIL"), some (CString.literal "BLUE"),
    some (CString.literal "GREEN"), some (CString.literal "FRONTL"),
    some (CString.literal "FRONTR"), none]

def effectInvalid : UInt8 := 0xff
def channelInvalid : UInt8 := 0xff

def lightRed : UInt8 := 0
def lightBlue : UInt8 := 2
def lightGreen : UInt8 := 3
def effectSteady : UInt8 := 0

/-- The `for` loops of `get_channel_by_name` and `get_effect_by_name`, which pass different
numbers of characters to `strncmp`. -/
def findName (len : CString → CString → Nat) (name : CString) :
    UInt8 → List (Option CString) → Option UInt8
  | _, [] => some channelInvalid
  | _, none :: _ => none
  | i, some entry :: rest =>
    if strncmp name entry (len name entry) = 0 then some i else findName len name (i + 1) rest

def getChannelByName (name : Option CString) : Option UInt8 :=
  match name with
  | none => some channelInvalid
  | some name =>
    findName (fun name entry => (UInt8.ofNat (max (strlen name) (strlen entry))).toNat) name 0
      channelsByName

def pointerSize : Nat := 8

def getEffectByName (name : Option CString) : Option UInt8 :=
  match name with
  | none => some channelInvalid
  | some name => findName (fun _ _ => pointerSize) name 0 effectsByName

/-- `gatt_attr_data_from_string`: two characters a byte. -/
def gattAttrDataFromString : List UInt8 → List UInt8
  | c :: d :: rest => UInt8.ofInt (strtol 16 [c, d]) :: gattAttrDataFromString rest
  | _ => []

/-- A command prints, or writes to the handle it has been given. -/
inductive Action where
  | printf (line : List UInt8)
  | writeChar (value : List UInt8)
  | writeCmd (value : List UInt8)

def Action.output (attrib : Option IOChannel) (handle : UInt16) : Action → Output
  | .printf line => .printf line
  | .writeChar value => .gattWriteChar attrib handle value
  | .writeCmd value => .gattWriteCmd attrib handle value

def messageBytes (built : UInt8 × Memory) : List UInt8 := slice built.2 0 built.1.toNat

def usage (params : String) : Args (List UInt8) := do
  let name ← word 0
  return text "Usage: " ++ name.chars ++ text params ++ text "\n"

/-- `params` and `more` are for the lines that are printed when there are too few words. -/
def vehicleCommand (words : Nat) (params : String) (more : List String)
    (body : Nat → Args (List Action)) : Handler := fun s argcp => do
  if s.connState ≠ .connected then return (s, [failed (text "Disconnected\n")])
  if argcp < words then
    let line ← usage params
    return (s, .printf line :: more.map rlPrintf)
  let handle := s.vehicle.writeChar.valueHandle
  let actions ← body argcp
  return (s, actions.map (Action.output s.attrib handle))

def cmdAnkiVehicleRead : Handler := fun s argcp => do
  if s.connState ≠ .connected then return (s, [failed (text "Disconnected\n")])
  if argcp < 1 then return (s, [error (text "Missing argument: handle\n")])
  let handle : Int := s.vehicle.readChar.valueHandle.toNat
  if handle < 0 then
    let given ← word 1
    return (s, [error (text "Invalid handle: " ++ given.chars ++ text "\n")])
  return (s, [.gattReadChar s.attrib (UInt16.ofInt handle)])

def cmdAnkiVehicleWrite : Handler :=
  vehicleCommand 2 " <handle> <new value>" [] fun _ => do
    let given ← word 1
    let value := gattAttrDataFromString given.chars
    if value.length = 0 then return [.printf (errorLine (text "Invalid value\n"))]
    let name ← word 0
    if strcmp (CString.literal "send-data-req") name = 0 then return [.writeChar value]
    return [.writeCmd value]

variable (out : Outside)

def cmdAnkiVehicleDisconnect : Handler :=
  vehicleCommand 1 "" [] fun _ =>
    return [.writeChar (messageBytes (ankiVehicleMsgDisconnect out.stack))]

def cmdAnkiVehicleSdkMode : Handler :=
  vehicleCommand 2 " <new value>" [] fun _ => do
    let arg := atoi (← word 1)
    return [.writeChar (messageBytes (ankiVehicleMsgSetSdkMode out.stack arg.toInt8.toUInt8))]

def cmdAnkiVehiclePing : Handler :=
  vehicleCommand 1 "" [] fun _ =>
    return [.writeChar (messageBytes (ankiVehicleMsgPing out.stack))]

def cmdAnkiVehicleGetVersion : Handler :=
  vehicleCommand 1 "" [] fun _ =>
    return [.writeChar (messageBytes (ankiVehicleMsgGetVersion out.stack))]

def cmdAnkiVehicleSetSpeed : Handler :=
  vehicleCommand 2 " <new value>" [] fun argcp => do
    let speed := (atoi (← word 1)).toInt16
    let accel ← if argcp > 2 then (fun w => (atoi w).toInt16) <$> word 2 else pure 25000
    return [.printf (text "setting speed to " ++ decimal speed.toInt ++ text " (accel = " ++
        decimal accel.toInt ++ text ")\n"),
      .writeChar (messageBytes
        (ankiVehicleMsgSetSpeed out.stack speed.toUInt16 accel.toUInt16))]

def cmdAnkiVehicleChangeLane : Handler :=
  vehicleCommand 2 " <horizontal speed (mm/sec)> <offset (mm)>" [] fun argcp => do
    let hspeed := (atoi (← word 1)).toInt16
    let offset ← if argcp > 2 then out.strtof <$> word 2 else pure 0x3f800000
    return [.printf (text "changing lane at " ++ decimal hspeed.toInt ++ text " (offset = " ++
        out.float offset ++ text ")\n"),
      .writeChar (messageBytes (ankiVehicleMsgSetOffsetFromRoadCenter out.stack 0)),
      .writeChar (messageBytes (ankiVehicleMsgChangeLane out.stack hspeed.toUInt16 offset))]

def effectsLine : String := "   effects: STEADY, FADE, THROB, FLASH, RANDOM\n"

def cmdAnkiVehicleLightsPattern : Handler :=
  vehicleCommand 6 " <channel> <effect> <start> <end> <cycles_per_min>"
    ["  channels: RED, TAIL, BLUE, GREEN, FRONTL, FRONTR\n", effectsLine] fun _ => do
    let unrecognized (name : CString) : Action :=
      .printf (text "Unrecognized channel: " ++ name.chars ++ text "\n")
    let channelName ← word 1
    let channel ← computed (getChannelByName (some channelName))
    if channel = channelInvalid then return [unrecognized channelName]
    let effectName ← word 2
    let effect ← computed (getEffectByName (some effectName))
    if effect = effectInvalid then return [unrecognized effectName]
    let start := (atoi (← word 3)).toInt8.toUInt8
    let «end» := (atoi (← word 4)).toInt8.toUInt8
    let cyclesPerMin := (atoi (← word 5)).toInt16.toUInt16
    return [.writeChar (messageBytes
      (ankiVehicleMsgLightsPattern out.stack channel effect start «end» cyclesPerMin))]

def vehicleSetRgbLights (effect startRed endRed startGreen endGreen startBlue endBlue : UInt8)
    (cyclesPerMin : UInt16) : List Action :=
  let pattern (channel start «end» : UInt8) : Action := .writeChar (messageBytes
    (ankiVehicleMsgLightsPattern out.stack channel effect start «end» cyclesPerMin))
  [pattern lightRed startRed endRed, pattern lightGreen startGreen endGreen,
    pattern lightBlue startBlue endBlue]

def cmdAnkiVehicleEngineLights : Handler :=
  vehicleCommand 5 " <red> <green> <blue> <effect> <cycles per min>" [effectsLine] fun _ => do
    let r := out.intensity (out.strtof (← word 1))
    let g := out.intensity (out.strtof (← word 2))
    let b := out.intensity (out.strtof (← word 3))
    let effect ← computed (getEffectByName (some (← word 4)))
    let cyclesPerMin := (atoi (← word 5)).toInt16.toUInt16
    if effect = effectSteady then return vehicleSetRgbLights out effect r r g g b b 0
    return vehicleSetRgbLights out effect 0 r 0 g b 0 cyclesPerMin

end AnkiDrive
