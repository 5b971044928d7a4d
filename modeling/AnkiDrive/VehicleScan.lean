import AnkiDrive.Advertisement

/-! `vehicle-scan.c`: the scanner. It keeps one entry for every address it has heard,
gathers what the vehicle advertises in it, and prints the vehicle once it is complete.
The table is the list of its entries, found by their address. -/
namespace AnkiDrive
open CModel

abbrev BdAddr := Vector UInt8 6

structure LeAdvertisingInfo where
  bdaddr : BdAddr
  length : UInt8
  data : Memory

def einval : Int := 22
def enoent : Int := 2

def flagsAdType : UInt8 := 0x01
def flagsLimitedModeBit : UInt8 := 0x01
def flagsGeneralModeBit : UInt8 := 0x02

/-- The `while` loop: `.ok` is what is stored through `flags` before `return 0`. -/
def readFlags.loop (size offset : Nat) : Query Nat UInt8 (Except Int UInt8) :=
  if _h : offset < size then do
    let len ← Query.read offset
    if len = 0 then return .error (-enoent)
    if size < len.toNat + offset then return .error (-enoent)
    let type ← Query.read (offset + 1)
    if type = flagsAdType then
      let flags ← Query.read (offset + 2)
      return .ok flags
    readFlags.loop size (offset + (1 + len.toNat))
  else return .error (-enoent)
termination_by size - offset

def readFlags (data : Option Memory) (size : Nat) : Except Int UInt8 :=
  match data with
  | none => .error (-einval)
  | some data => (readFlags.loop size 0).run data

def limitedDiscovery : UInt8 := 0x6c
def generalDiscovery : UInt8 := 0x67

def checkReportFilter (procedure : UInt8) (info : LeAdvertisingInfo) : Int :=
  if procedure = 0 then 1
  else
    match readFlags (some info.data) info.length.toNat with
    | .error _ => 0
    | .ok flags =>
      if procedure = limitedDiscovery then
        if flags &&& flagsLimitedModeBit ≠ 0 then 1 else 0
      else if procedure = generalDiscovery then
        if flags &&& (flagsLimitedModeBit ||| flagsGeneralModeBit) ≠ 0 then 1 else 0
      else 0

/-- `vehicle_t`: the address, and the memory from `&v->adv` on, where `adv` is followed by
`scan_complete`, by `hh` and by what is not the entry's. -/
structure Vehicle where
  address : BdAddr
  adv : Memory

/-- `scan_complete` is the byte behind `adv`. -/
def Vehicle.scanCompleteOffset : Nat := AnkiVehicleAdv.size

/-- `hh`, six pointers and two words, at the next multiple of eight. -/
def Vehicle.hh : Field := ⟨56, 56⟩

def Vehicle.scanComplete (v : Vehicle) : UInt8 := v.adv Vehicle.scanCompleteOffset

def hashFind (vehicles : List Vehicle) (address : BdAddr) : Option Vehicle :=
  vehicles.find? (fun v => v.address = address)

def hashAdd (vehicles : List Vehicle) (v : Vehicle) : List Vehicle := vehicles ++ [v]

/-- What is stored through a pointer that `HASH_FIND` returned. -/
def hashStore : List Vehicle → Vehicle → List Vehicle
  | [], _ => []
  | u :: vehicles, v =>
    if u.address = v.address then v :: vehicles else u :: hashStore vehicles v

/-- A new entry, in memory that holds what `malloc` returned: only `adv` is cleared. -/
def Vehicle.new (malloc : BdAddr → Memory) (address : BdAddr) : Vehicle where
  address := address
  adv := (malloc address).fill 0 0 AnkiVehicleAdv.size

/-- No copy has run into the handle of the entry since it was made. What uthash itself keeps
there is not in this memory but in the table. -/
def Vehicle.HandleKept (malloc : BdAddr → Memory) (v : Vehicle) : Prop :=
  slice v.adv Vehicle.hh.offset Vehicle.hh.size =
    slice (malloc v.address) Vehicle.hh.offset Vehicle.hh.size

instance (malloc : BdAddr → Memory) : DecidablePred (Vehicle.HandleKept malloc) :=
  fun _ => inferInstanceAs (Decidable (_ = _))

def modelName (modelId : UInt8) : String :=
  if modelId = 1 then "Kourai"
  else if modelId = 2 then "Boson"
  else if modelId = 3 then "Rho"
  else if modelId = 4 then "Katal"
  else "Unknown"

/-- The line printed for a vehicle, by the arguments of the two `printf`. -/
structure Announcement where
  addr : BdAddr
  name : List UInt8
  version : UInt16
  model : String
  identifier : UInt32
  deriving DecidableEq

/-- What the loop does to the entry of the address that a report came from. -/
def Vehicle.hear (info : LeAdvertisingInfo) (v : Vehicle) : Vehicle × Option Announcement :=
  let (err, after) := ankiVehicleParseAdvRecord (some info.data) info.length.toNat (some v.adv)
  let v := { v with adv := after.getD v.adv }
  let mfgData := mfgDataOf v.adv
  let localName := localNameOf v.adv
  if err = 0 ∧ 0 < mfgData.identifier ∧ 0 < localName.version ∧ v.scanComplete = 0 then
    ({ v with adv := v.adv.store Vehicle.scanCompleteOffset 1 },
      some {
        addr := info.bdaddr
        name := localName.name
        version := localName.version &&& 0xffff
        model := modelName mfgData.modelId
        identifier := mfgData.identifier &&& 0xffff })
  else (v, none)

/-- One advertising report. `malloc` is what the memory for the entry of an address holds
from `adv` on when it is allocated. -/
def printAdvertisingDevices.report (filterType : UInt8) (malloc : BdAddr → Memory)
    (vehicles : List Vehicle) (info : LeAdvertisingInfo) : List Vehicle × Option Announcement :=
  if checkReportFilter filterType info ≠ 0 then
    let (v, vehicles) := match hashFind vehicles info.bdaddr with
      | some v => (v, vehicles)
      | none =>
        let v := Vehicle.new malloc info.bdaddr
        (v, hashAdd vehicles v)
    let (v, line) := v.hear info
    (hashStore vehicles v, line)
  else (vehicles, none)

def printAdvertisingDevices (filterType : UInt8) (malloc : BdAddr → Memory)
    (infos : List LeAdvertisingInfo) : List Vehicle :=
  infos.foldl (fun vehicles info =>
    (printAdvertisingDevices.report filterType malloc vehicles info).1) []

def printAdvertisingDevices.lines (filterType : UInt8) (malloc : BdAddr → Memory) :
    List Vehicle → List LeAdvertisingInfo → List (LeAdvertisingInfo × Option Announcement)
  | _, [] => []
  | vehicles, info :: infos =>
    let (after, line) := printAdvertisingDevices.report filterType malloc vehicles info
    (info, line) :: printAdvertisingDevices.lines filterType malloc after infos

end AnkiDrive
