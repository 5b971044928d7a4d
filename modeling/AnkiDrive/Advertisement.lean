import AnkiDrive.Eir

/-! `advertisement.c` and `uuid.c`: gathering what a vehicle advertises in an
`anki_vehicle_adv_t`. The struct is the bytes of its C layout, so a copy that is
longer than its field lands where it lands in C. Pointers to its members are
offsets, and a pointer into the scanned bytes is the index it points to. -/
namespace AnkiDrive
open CModel

structure Field where
  offset : Nat
  size : Nat
  deriving DecidableEq

namespace AnkiVehicleAdv

def flags : Field := ⟨0, 1⟩
def txPower : Field := ⟨1, 1⟩
def mfgData : Field := ⟨4, 8⟩
def localName : Field := ⟨12, 22⟩
def serviceId : Field := ⟨34, 16⟩
def size : Nat := 52

end AnkiVehicleAdv

namespace AnkiVehicleAdvMfg

def identifier : Field := ⟨0, 4⟩
def modelId : Field := ⟨4, 1⟩
def reserved : Field := ⟨5, 1⟩
def productId : Field := ⟨6, 2⟩

end AnkiVehicleAdvMfg

namespace AnkiVehicleAdvInfo

def state : Field := ⟨0, 1⟩
def version : Field := ⟨2, 2⟩
def reserved : Field := ⟨4, 5⟩
def name : Field := ⟨9, 13⟩

end AnkiVehicleAdvInfo

/- The bit-fields of `anki_vehicle_adv_state_t`, lowest bit first behind four reserved ones. -/
def fullBatteryBit : Nat := 4
def lowBatteryBit : Nat := 5
def onChargerBit : Nat := 6

structure AdvState where
  fullBattery : Bool
  lowBattery : Bool
  onCharger : Bool
  deriving DecidableEq, Repr

structure AdvMfg where
  identifier : UInt32
  modelId : UInt8
  reserved : UInt8
  productId : UInt16
  deriving DecidableEq, Repr

structure AdvInfo where
  state : AdvState
  version : UInt16
  name : List UInt8
  deriving DecidableEq, Repr

def serviceIdOf (adv : Memory) : List UInt8 :=
  slice adv AnkiVehicleAdv.serviceId.offset AnkiVehicleAdv.serviceId.size

def flagsOf (adv : Memory) : UInt8 := adv AnkiVehicleAdv.flags.offset

def txPowerOf (adv : Memory) : UInt8 := adv AnkiVehicleAdv.txPower.offset

def advMfgAt (m : Memory) (p : Nat) : AdvMfg where
  identifier := m.load32 (p + AnkiVehicleAdvMfg.identifier.offset)
  modelId := m (p + AnkiVehicleAdvMfg.modelId.offset)
  reserved := m (p + AnkiVehicleAdvMfg.reserved.offset)
  productId := m.load16 (p + AnkiVehicleAdvMfg.productId.offset)

def advInfoAt (m : Memory) (p : Nat) : AdvInfo where
  state := {
    fullBattery := m.loadBit (p + AnkiVehicleAdvInfo.state.offset) fullBatteryBit
    lowBattery := m.loadBit (p + AnkiVehicleAdvInfo.state.offset) lowBatteryBit
    onCharger := m.loadBit (p + AnkiVehicleAdvInfo.state.offset) onChargerBit }
  version := m.load16 (p + AnkiVehicleAdvInfo.version.offset)
  name := slice m (p + AnkiVehicleAdvInfo.name.offset) AnkiVehicleAdvInfo.name.size

def mfgDataOf (adv : Memory) : AdvMfg := advMfgAt adv AnkiVehicleAdv.mfgData.offset

def localNameOf (adv : Memory) : AdvInfo := advInfoAt adv AnkiVehicleAdv.localName.offset

def uuid128Size : Nat := 16

def uuid128Cmp (a b : List UInt8) : Int := memcmp a b

def ankiServiceUuidLE : List UInt8 :=
  [0xf4, 0x8d, 0x4d, 0x9c, 0xd8, 0x0b, 0x81, 0x83, 0x7e, 0x40, 0x86, 0x61, 0xef, 0xbe, 0x15, 0xbe]

def isAnkiVehicleServiceUuid (a : List UInt8) : Bool := uuid128Cmp a ankiServiceUuidLE == 0

def vehicleStateFullBattery : UInt8 := (1 : UInt8) <<< 4
def vehicleStateLowBattery : UInt8 := (1 : UInt8) <<< 5
def vehicleStateOnCharger : UInt8 := (1 : UInt8) <<< 6

def isVehicleStateSet (state flag : UInt8) : Bool := state &&& flag == flag

/- `bytes[4] << 24` may reach the sign bit of an `int`; the stored word wraps. -/
def ankiVehicleParseMfgData (bytes : Nat) (len : UInt8) (mfgData : Nat) (m : Memory) :
    Query Nat UInt8 (UInt8 × Memory) :=
  if len ≠ 8 then return (1, m)
  else do
    let b1 ← Query.read (bytes + 1)
    let b0 ← Query.read bytes
    let m := m.store16 (mfgData + AnkiVehicleAdvMfg.productId.offset) (word16 b1 b0)
    let b2 ← Query.read (bytes + 2)
    let m := m.store (mfgData + AnkiVehicleAdvMfg.reserved.offset) b2
    let b3 ← Query.read (bytes + 3)
    let m := m.store (mfgData + AnkiVehicleAdvMfg.modelId.offset) b3
    let b7 ← Query.read (bytes + 7)
    let b6 ← Query.read (bytes + 6)
    let b5 ← Query.read (bytes + 5)
    let b4 ← Query.read (bytes + 4)
    let m := m.store32 (mfgData + AnkiVehicleAdvMfg.identifier.offset) (word32 b7 b6 b5 b4)
    return (0, m)

def ankiVehicleParseLocalName (bytes : Nat) (len : UInt8) (localName : Nat) (m : Memory) :
    Query Nat UInt8 (UInt8 × Memory) :=
  if len = 0 then return (1, m)
  else do
    let state := (← Query.read bytes) &&& 0xff
    let stateAt := localName + AnkiVehicleAdvInfo.state.offset
    let m := m.storeBit stateAt fullBatteryBit (isVehicleStateSet state vehicleStateFullBattery)
    let m := m.storeBit stateAt lowBatteryBit (isVehicleStateSet state vehicleStateLowBattery)
    let m := m.storeBit stateAt onChargerBit (isVehicleStateSet state vehicleStateOnCharger)
    let versionAt := localName + AnkiVehicleAdvInfo.version.offset
    let m ← (if 1 < len then do
        let b1 ← Query.read (bytes + 1)
        return m.store16 versionAt b1.toUInt16
      else return m)
    let m ← (if 2 < len then do
        let b2 ← Query.read (bytes + 2)
        return m.store16 versionAt (m.load16 versionAt ||| b2.toUInt16 <<< 8)
      else return m)
    let nameAt := localName + AnkiVehicleAdvInfo.name.offset
    let m ← (if 8 < len then
        memmove (m.fill nameAt 0 AnkiVehicleAdvInfo.name.size) nameAt (bytes + 8) (len - 8).toNat
      else return m)
    return (0, m)

/-- The `switch (type)` of the loop: `.error` is a `return` out of it, `.ok` a `break`. -/
def ankiVehicleParseAdvRecord.switch (type : UInt8) (data : Nat) (dataLen : UInt8)
    (adv : Option Memory) : Query Nat UInt8 (Except UInt8 (Option Memory)) :=
  if type = advTypeInvalid then return .error 0xff
  else if type = advTypeFlags then
    match adv with
    | none => return .ok none
    | some m => do
      let m ← memmove m AnkiVehicleAdv.flags.offset data dataLen.toNat
      return .ok (some m)
  else if type = advTypeUuid128 then do
    let foreign ← (if dataLen.toNat = uuid128Size then do
        let uuid ← Query.readAll (List.range' data uuid128Size)
        return !isAnkiVehicleServiceUuid uuid
      else return false)
    if foreign then return .error 2
    else
      match adv with
      | none => return .error 0
      | some m => do
        let m ← memmove m AnkiVehicleAdv.serviceId.offset data dataLen.toNat
        return .ok (some m)
  else if type = advTypeLocalName then
    match adv with
    | none => return .ok none
    | some m => do
      let (_, m) ← ankiVehicleParseLocalName data dataLen AnkiVehicleAdv.localName.offset m
      return .ok (some m)
  else if type = advTypeTxPower then
    match adv with
    | none => return .ok none
    | some m => do
      let m ← memmove m AnkiVehicleAdv.txPower.offset data dataLen.toNat
      return .ok (some m)
  else if type = advTypeManufacturerData then
    match adv with
    | none => return .ok none
    | some m => do
      let (_, m) ← ankiVehicleParseMfgData data dataLen AnkiVehicleAdv.mfgData.offset m
      return .ok (some m)
  else return .error 3

/-- The return value once the loop has run to its end. -/
def ankiVehicleParseAdvRecord.verdict : Option Memory → UInt8
  | some adv => if isAnkiVehicleServiceUuid (serviceIdOf adv) then 0 else 2
  | none => 2

def ankiVehicleParseAdvRecord.loop (scanDataLen : Nat) (adv : Option Memory) (i : Nat) :
    Query Nat UInt8 (UInt8 × Option Memory) :=
  if _h : i < scanDataLen then do
    let len ← Query.read i
    if len = 0 then return (verdict adv, adv)
    let type ← Query.read (i + 1)
    if type = advTypeInvalid then return (verdict adv, adv)
    let handled ← switch type (i + 2) (len - 1) adv
    match handled with
    | .error code => return (code, adv)
    | .ok adv => ankiVehicleParseAdvRecord.loop scanDataLen adv (i + 1 + len.toNat)
  else return (verdict adv, adv)
termination_by scanDataLen - i

/-- The return code, and what `*anki_vehicle_adv` holds afterwards unless that is NULL. -/
def ankiVehicleParseAdvRecord (scanData : Option Memory) (scanDataLen : Nat) (adv : Option Memory) :
    UInt8 × Option Memory :=
  match scanData with
  | none => (1, adv)
  | some data => (ankiVehicleParseAdvRecord.loop scanDataLen adv 0).run data

def ankiVehicleAdvRecordHasAnkiUuid (scanData : Option Memory) (scanDataLen : Nat) : UInt8 :=
  if (ankiVehicleParseAdvRecord scanData scanDataLen none).1 = 0 then 1 else 0

end AnkiDrive
