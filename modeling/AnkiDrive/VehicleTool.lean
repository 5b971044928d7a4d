import AnkiDrive.CStrings

/-! `vehicle_cmd.c`: the connection of the command line tool and what it knows of the vehicle
at its other end. The tool is driven by its main loop: it is called back when a connection
attempt ends, when an answer to a discovery arrives, when the connection is lost, and for
every line that is typed. What it does to the world is the list of its outputs. -/
namespace AnkiDrive

structure GattChar where
  uuid : CString
  handle : UInt16
  properties : UInt8
  valueHandle : UInt16
  deriving DecidableEq

structure AttRange where
  start : UInt16
  «end» : UInt16

structure AnkiVehicle where
  readChar : GattChar
  writeChar : GattChar
  deriving DecidableEq

def GattChar.zero : GattChar := ⟨⟨[], by decide⟩, 0, 0, 0⟩

inductive ConnState where
  | disconnected
  | connecting
  | connected
  deriving DecidableEq

/-- The connections that `gatt_connect` opens, by number. -/
abbrev IOChannel := Nat

/-- The variables of the program. A `GAttrib` is made for a channel and named by it. -/
structure Tool where
  iochannel : Option IOChannel
  attrib : Option IOChannel
  optDst : Option CString
  optDstType : Option CString
  optPsm : Int32
  optMtu : Int32
  vehicle : AnkiVehicle
  connState : ConnState
  deriving DecidableEq

/-- `interactive`, up to the main loop. -/
def Tool.interactive (dst dstType : Option CString) (psm : Int32) : Tool where
  iochannel := none
  attrib := none
  optDst := dst
  optDstType := dstType
  optPsm := psm
  optMtu := 0
  vehicle := ⟨GattChar.zero, GattChar.zero⟩
  connState := .disconnected

inductive Output where
  | printf (line : List UInt8)
  | gattConnect (dst : CString) (dstType : Option CString) (psm mtu : Int32)
  | gattDiscoverPrimary (attrib : Option IOChannel) (uuid : CString)
  | gattDiscoverChar (attrib : Option IOChannel) (start «end» : UInt16)
  | gattReadChar (attrib : Option IOChannel) (handle : UInt16)
  | gattWriteChar (attrib : Option IOChannel) (handle : UInt16) (value : List UInt8)
  | gattWriteCmd (attrib : Option IOChannel) (handle : UInt16) (value : List UInt8)
  | gattExchangeMtu (attrib : Option IOChannel) (mtu : UInt16)
  | mainLoopQuit
  deriving DecidableEq

def rlPrintf (line : String) : Output := .printf (text line)

def colorRed : List UInt8 := text "\x1b[0;91m"
def colorOff : List UInt8 := text "\x1b[0m"

def errorLine (line : List UInt8) : List UInt8 := colorRed ++ text "Error: " ++ colorOff ++ line

def error (line : List UInt8) : Output := .printf (errorLine line)

def failed (line : List UInt8) : Output :=
  .printf (colorRed ++ text "Command Failed: " ++ colorOff ++ line)

def attEcode2str (status : UInt8) : String :=
  match status.toNat with
  | 0x01 => "Invalid handle"
  | 0x02 => "Attribute can't be read"
  | 0x03 => "Attribute can't be written"
  | 0x04 => "Attribute PDU was invalid"
  | 0x05 => "Attribute requires authentication before read/write"
  | 0x06 => "Server doesn't support the request received"
  | 0x07 => "Offset past the end of the attribute"
  | 0x08 => "Attribute requires authorization before read/write"
  | 0x09 => "Too many prepare writes have been queued"
  | 0x0a => "No attribute found within the given range"
  | 0x0b => "Attribute can't be read/written using Read Blob Req"
  | 0x0c => "Encryption Key Size is insufficient"
  | 0x0d => "Attribute value length is invalid"
  | 0x0e => "Request attribute has encountered an unlikely error"
  | 0x0f => "Encryption required before read/write"
  | 0x10 => "Attribute type is not a supported grouping attribute"
  | 0x11 => "Insufficient Resources to complete the request"
  | 0x80 => "Internal application error: I/O"
  | 0x81 => "A timeout occured"
  | 0x82 => "The operation was aborted"
  | _ => "Unexpected error code"

def ankiStrServiceUuid : CString := CString.literal "BE15BEEF-6186-407E-8381-0BD89C4D8DF4"
def ankiStrChrReadUuid : CString := CString.literal "BE15BEE0-6186-407E-8381-0BD89C4D8DF4"
def ankiStrChrWriteUuid : CString := CString.literal "BE15BEE1-6186-407E-8381-0BD89C4D8DF4"

/-- The service UUID is a constant that `bt_string_to_uuid` accepts. -/
def discoverServices (s : Tool) : List Output :=
  if s.connState ≠ .connected then [failed (text "Disconnected\n")]
  else [.gattDiscoverPrimary s.attrib ankiStrServiceUuid]

def connectCb (s : Tool) (err : Option (List UInt8)) : Tool × List Output :=
  match err with
  | some message => ({ s with connState := .disconnected }, [error (message ++ text "\n")])
  | none =>
    let s := { s with attrib := s.iochannel, connState := .connected }
    (s, rlPrintf "Connection successful\n" :: discoverServices s)

def disconnectIo (s : Tool) : Tool :=
  if s.connState = .disconnected then s
  else { s with attrib := none, optMtu := 0, iochannel := none, connState := .disconnected }

def discoverServicesCb (s : Tool) (ranges : List AttRange) (status : UInt8) : List Output :=
  if status ≠ 0 then
    [error (text "Discover primary services by UUID failed: " ++ text (attEcode2str status) ++
      text "\n")]
  else if ranges.isEmpty then [error (text "No service UUID found\n")]
  else
    ranges.map (fun range => .printf (text "Starting handle: 0x" ++
      hexadecimal 4 range.start.toNat ++ text " Ending handle: 0x" ++
      hexadecimal 4 range.end.toNat ++ text "\n")) ++
    [.gattDiscoverChar s.attrib 0x1 0xffff]

def isAnkiReadChar (chars : GattChar) : Bool :=
  strncasecmp chars.uuid ankiStrChrReadUuid (strlen ankiStrChrReadUuid) = 0

def isAnkiWriteChar (chars : GattChar) : Bool :=
  strncasecmp chars.uuid ankiStrChrWriteUuid (strlen ankiStrChrWriteUuid) = 0

def foundLines (kind : String) (chars : GattChar) : List Output :=
  [.printf (text "Anki " ++ text kind ++ text " Characteristic: " ++ chars.uuid.chars ++ text " "),
    .printf (text "[handle: 0x" ++ hexadecimal 4 chars.handle.toNat ++
      text ", char properties: 0x" ++ hexadecimal 2 chars.properties.toNat ++
      text ", char value handle: 0x" ++ hexadecimal 4 chars.valueHandle.toNat ++ text "]\n")]

/-- The `for` loop: what it makes of `vehicle`, and what it prints. -/
def discoverCharCb.loop (vehicle : AnkiVehicle) : List GattChar → AnkiVehicle × List Output
  | [] => (vehicle, [])
  | chars :: characteristics =>
    let vehicle := if isAnkiReadChar chars then { vehicle with readChar := chars } else vehicle
    let readLines := if isAnkiReadChar chars then foundLines "Read" chars else []
    let vehicle := if isAnkiWriteChar chars then { vehicle with writeChar := chars } else vehicle
    let writeLines := if isAnkiWriteChar chars then foundLines "Write" chars else []
    let (vehicle, lines) := discoverCharCb.loop vehicle characteristics
    (vehicle, readLines ++ writeLines ++ lines)

def discoverCharCb (s : Tool) (characteristics : List GattChar) (status : UInt8) :
    Tool × List Output :=
  if status ≠ 0 then
    (s, [error (text "Discover all characteristics failed: " ++ text (attEcode2str status) ++
      text "\n")])
  else
    let (vehicle, lines) := discoverCharCb.loop s.vehicle characteristics
    let notify : List Output :=
      if 0 < vehicle.readChar.handle ∧ 0 < vehicle.writeChar.handle then
        [.gattWriteCmd s.attrib vehicle.writeChar.properties.toUInt16 [0x01, 0x00]]
      else []
    ({ s with vehicle := vehicle }, lines ++ notify)

end AnkiDrive
