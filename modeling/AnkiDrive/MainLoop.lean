import AnkiDrive.VehicleCmd

/-! `vehicle_cmd.c`: the other commands, the table of commands, and the main loop, which
makes one call after another, for whatever happens next. -/
namespace AnkiDrive
open CModel

variable (out : Outside)

def cmdExit : Handler := fun s _ => return (s, [.mainLoopQuit])

def cmdConnect.takeAddress (s : Tool) (argcp : Nat) : Args Tool := do
  if argcp > 1 then
    let dst ← word 1
    let dstType ← if argcp > 2 then word 2 else pure (CString.literal "public")
    return { s with optDst := some dst, optDstType := some dstType }
  return s

def cmdConnect.attempt (s : Tool) : Tool × List Output :=
  match s.optDst with
  | none => (s, [error (text "Remote Bluetooth address required\n")])
  | some dst =>
    let calls := [.printf (text "Attempting to connect to " ++ dst.chars ++ text "\n"),
      .gattConnect dst s.optDstType s.optPsm s.optMtu]
    match out.gattConnect with
    | .error message =>
      ({ s with iochannel := none, connState := .disconnected },
        calls ++ [error (message ++ text "\n")])
    | .ok io => ({ s with iochannel := some io, connState := .connecting }, calls)

def cmdConnect : Handler := fun s argcp => do
  if s.connState ≠ .disconnected then return (s, [])
  let s ← cmdConnect.takeAddress s argcp
  return cmdConnect.attempt out s

def cmdDisconnect : Handler := fun s _ => return (disconnectIo s, [])

def attDefaultLeMtu : Int32 := 23

def cmdMtu : Handler := fun s argcp => do
  if s.connState ≠ .connected then return (s, [failed (text "Disconnected\n")])
  if s.optPsm ≠ 0 then
    return (s, [failed (text "Operation is only available for LE transport.\n")])
  if argcp < 2 then return (s, [rlPrintf "Usage: mtu <value>\n"])
  if s.optMtu ≠ 0 then
    return (s, [failed (text "MTU exchange can only occur once per connection.\n")])
  let given ← word 1
  let s := { s with optMtu := Int32.ofInt (strtol 0 given.chars) }
  if strtolFails 0 given.chars ∨ s.optMtu < attDefaultLeMtu then
    return (s, [error (text "Invalid value. Minimum MTU size is " ++
      decimal attDefaultLeMtu.toInt ++ text "\n")])
  return (s, [.gattExchangeMtu s.attrib s.optMtu.toInt16.toUInt16])

inductive CmdFunc where
  | cmdHelp
  | cmdExit
  | cmdConnect
  | cmdDisconnect
  | cmdMtu
  | cmdAnkiVehicleSdkMode
  | cmdAnkiVehiclePing
  | cmdAnkiVehicleGetVersion
  | cmdAnkiVehicleSetSpeed
  | cmdAnkiVehicleChangeLane
  | cmdAnkiVehicleLightsPattern
  | cmdAnkiVehicleEngineLights
  | cmdAnkiVehicleDisconnect
  | cmdAnkiVehicleWrite
  | cmdAnkiVehicleRead
  deriving DecidableEq

structure CommandEntry where
  cmd : CString
  func : CmdFunc
  params : String
  desc : String

def commands : List CommandEntry := [
  ⟨CString.literal "help", .cmdHelp, "", "Show this help"⟩,
  ⟨CString.literal "exit", .cmdExit, "", "Exit interactive mode"⟩,
  ⟨CString.literal "quit", .cmdExit, "", "Exit interactive mode"⟩,
  ⟨CString.literal "connect", .cmdConnect, "[address [address type]]",
    "Connect to a remote device"⟩,
  ⟨CString.literal "disconnect", .cmdDisconnect, "", "Disconnect from a remote device"⟩,
  ⟨CString.literal "mtu", .cmdMtu, "<value>", "Exchange MTU for GATT/ATT"⟩,
  ⟨CString.literal "sdk-mode", .cmdAnkiVehicleSdkMode, "[on]", "Set SDK Mode"⟩,
  ⟨CString.literal "ping", .cmdAnkiVehiclePing, "", "Send ping message to vehicle."⟩,
  ⟨CString.literal "get-version", .cmdAnkiVehicleGetVersion, "",
    "Request vehicle software version."⟩,
  ⟨CString.literal "set-speed", .cmdAnkiVehicleSetSpeed, "<speed> <accel>",
    "Set vehicle Speed (mm/sec) with acceleration (mm/sec^2)"⟩,
  ⟨CString.literal "change-lane", .cmdAnkiVehicleChangeLane,
    "<horizontal speed> <relative offset> (right(+), left(-))",
    "Change lanes at speed (mm/sec) in the specified direction (offset)"⟩,
  ⟨CString.literal "set-lights-pattern", .cmdAnkiVehicleLightsPattern,
    "<channel> <effect> <start> <end> <cycles_per_min>", "Set lights pattern for vehicle LEDs."⟩,
  ⟨CString.literal "set-engine-lights", .cmdAnkiVehicleEngineLights,
    "<red> <green> <blue> <effect> <cycles_per_min>", "Set the pattern for the engine lights."⟩,
  ⟨CString.literal "vehicle-disconnect", .cmdAnkiVehicleDisconnect, "",
    "Request that the vehicle disconnect (often more reliable than disconnect)"⟩,
  ⟨CString.literal "send-data-req", .cmdAnkiVehicleWrite, "<new value>",
    "Write data to vehicle (Request response)"⟩,
  ⟨CString.literal "send-data", .cmdAnkiVehicleWrite, "<new value>",
    "Write data to vehicle (No response)"⟩,
  ⟨CString.literal "read-data", .cmdAnkiVehicleRead, "", "Read last message from vehicle"⟩]

def cmdHelp : Handler := fun s _ =>
  return (s, commands.map fun c => .printf (leftAligned 15 c.cmd.chars ++ text " " ++
    leftAligned 30 (text c.params) ++ text " " ++ text c.desc ++ text "\n"))

def CmdFunc.handler : CmdFunc → Handler
  | .cmdHelp => AnkiDrive.cmdHelp
  | .cmdExit => AnkiDrive.cmdExit
  | .cmdConnect => AnkiDrive.cmdConnect out
  | .cmdDisconnect => AnkiDrive.cmdDisconnect
  | .cmdMtu => AnkiDrive.cmdMtu
  | .cmdAnkiVehicleSdkMode => AnkiDrive.cmdAnkiVehicleSdkMode out
  | .cmdAnkiVehiclePing => AnkiDrive.cmdAnkiVehiclePing out
  | .cmdAnkiVehicleGetVersion => AnkiDrive.cmdAnkiVehicleGetVersion out
  | .cmdAnkiVehicleSetSpeed => AnkiDrive.cmdAnkiVehicleSetSpeed out
  | .cmdAnkiVehicleChangeLane => AnkiDrive.cmdAnkiVehicleChangeLane out
  | .cmdAnkiVehicleLightsPattern => AnkiDrive.cmdAnkiVehicleLightsPattern out
  | .cmdAnkiVehicleEngineLights => AnkiDrive.cmdAnkiVehicleEngineLights out
  | .cmdAnkiVehicleDisconnect => AnkiDrive.cmdAnkiVehicleDisconnect out
  | .cmdAnkiVehicleWrite => AnkiDrive.cmdAnkiVehicleWrite
  | .cmdAnkiVehicleRead => AnkiDrive.cmdAnkiVehicleRead

def findCommand (name : CString) : Option CmdFunc :=
  (commands.find? fun c => strcasecmp c.cmd name = 0).map CommandEntry.func

/-- A line by the words `g_shell_parse_argv` finds in it: none where it is blank or does not
parse. The end of the input is no line. -/
def parseLine (s : Tool) (line : Option (List CString)) : Option (Tool × List Output) :=
  match line with
  | none => some (s, [.printf (text "\n"), .mainLoopQuit])
  | some [] => some (s, [])
  | some (name :: words) =>
    match findCommand name with
    | none => some (s, [error (name.chars ++ text ": command not found\n")])
    | some func =>
      let argvp (k : Nat) : Option CString := (name :: words)[k]?
      (func.handler out s (words.length + 1)).result argvp

inductive Event where
  | line (out : Outside) (words : Option (List CString))
  | connected (err : Option (List UInt8))
  | hangUp
  | discoveredServices (ranges : List AttRange) (status : UInt8)
  | discoveredChars (characteristics : List GattChar) (status : UInt8)

/-- What the tool does at an event, unless it does not return. -/
def step (s : Tool) : Event → Option (Tool × List Output)
  | .line out words => parseLine out s words
  | .connected err => some (connectCb s err)
  | .hangUp => some (disconnectIo s, [])
  | .discoveredServices ranges status => some (s, discoverServicesCb s ranges status)
  | .discoveredChars characteristics status => some (discoverCharCb s characteristics status)

/-- The state a run reaches. A run may go on here after `mainLoopQuit`. -/
def mainLoop (s : Tool) (events : List Event) : Option Tool :=
  events.foldlM (fun s e => (step s e).map Prod.fst) s

end AnkiDrive
