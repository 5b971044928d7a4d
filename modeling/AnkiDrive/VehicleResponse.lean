import AnkiDrive.Lib.Query
import AnkiDrive.Protocol
import AnkiDrive.VehicleScan
import AnkiDrive.VehicleTool

/-! `vehicle_cmd.c`: what the tool does with the messages of the vehicle, which come as
notifications and as answers to reads. -/
namespace AnkiDrive
open CModel

def ankiVehicleMsgV2cPingResponse : UInt8 := 0x17
def ankiVehicleMsgV2cVersionResponse : UInt8 := 0x19

namespace AnkiVehicleMsgVersionResponse

def version : Field := ⟨2, 2⟩
def sizeof : Nat := 4

end AnkiVehicleMsgVersionResponse

def attOpReadResp : UInt8 := 0x0b
def attOpHandleNotify : UInt8 := 0x1b

def enobufs : Int := 105

/-- Two bytes, little-endian: `att_get_u16`, and the fields of a packed struct. -/
def readWord16 (p : Nat) : Query Nat UInt8 UInt16 := do
  let lo ← Query.read p
  let hi ← Query.read (p + 1)
  return word16 lo hi

/-- `.ok` is what is copied to `value`; its length is returned. -/
def decReadResp (len vlen : UInt64) : Query Nat UInt8 (Except Int (List UInt8)) := do
  let opcode ← Query.read 0
  if opcode ≠ attOpReadResp then return .error (-einval)
  if vlen < len - 1 then return .error (-enobufs)
  let value ← Query.readAll (List.range' 1 (len - 1).toNat)
  return .ok value

def versionResponse (version : UInt16) : Output :=
  .printf (text "[read] VERSION_RESPONSE: 0x" ++ hexadecimal 4 version.toNat ++ text "\n")

/-- The input is `data`. -/
def handleVehicleMsgResponse (len : UInt16) : Query Nat UInt8 (List Output) := do
  if AnkiVehicleMsg.sizeof < len.toNat then return [error (text "Invalid vehicle response\n")]
  let msgId ← Query.read AnkiVehicleMsg.msgId.offset
  if msgId = ankiVehicleMsgV2cPingResponse then return [rlPrintf "[read] PING_RESPONSE\n"]
  if msgId = ankiVehicleMsgV2cVersionResponse then
    let version ← readWord16 AnkiVehicleMsgVersionResponse.version.offset
    return [versionResponse version]
  return []

/-- The input is `pdu`. -/
def eventsHandler (s : Tool) (len : UInt16) : Query Nat UInt8 (List Output) := do
  let _ ← readWord16 1
  let opcode ← Query.read 0
  if opcode ≠ attOpHandleNotify then return []
  let handle ← readWord16 1
  if handle ≠ s.vehicle.readChar.valueHandle then
    return [error (text "Invalid vehicle read handle: 0x" ++ hexadecimal 4 handle.toNat ++
      text "\n")]
  let datalen := len - 3
  (handleVehicleMsgResponse datalen).via fun i => Query.read (3 + i)

/-- What `char_read_cb` has before it: the answer, and on the stack what `value` holds before
anything is copied there. -/
inductive ReadCell where
  | pdu (i : Nat)
  | value (i : Nat)
  deriving DecidableEq

/-- `value[i]` once `copied` is at its front. -/
def readValue (copied : List UInt8) (i : Nat) : Query ReadCell UInt8 UInt8 :=
  match copied[i]? with
  | some b => pure b
  | none => Query.read (.value i)

def charReadCb.decoded : Except Int (List UInt8) → Query ReadCell UInt8 (List Output)
  | .error _ => pure [error (text "Protocol error\n")]
  | .ok value => (handleVehicleMsgResponse (UInt16.ofNat value.length)).via (readValue value)

def charReadCb (status : UInt8) (plen : UInt16) : Query ReadCell UInt8 (List Output) := do
  if status ≠ 0 then
    return [error (text "Characteristic value/descriptor read failed: " ++
      text (attEcode2str status) ++ text "\n")]
  let outcome ← (decReadResp plen.toUInt64 plen.toUInt64).via fun i => Query.read (.pdu i)
  charReadCb.decoded outcome

end AnkiDrive
