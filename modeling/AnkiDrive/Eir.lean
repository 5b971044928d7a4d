import AnkiDrive.Lib.Query
import AnkiDrive.Lib.Memory

/-! `eir.c`: splitting an advertising packet into its AD records. -/
namespace AnkiDrive
open CModel

def advTypeInvalid : UInt8 := 0
def advTypeFlags : UInt8 := 0x1
def advTypeUuid128 : UInt8 := 0x7
def advTypeLocalName : UInt8 := 0x9
def advTypeTxPower : UInt8 := 0xa
def advTypeManufacturerData : UInt8 := 0xff

/-- `memmove` out of the scanned bytes, which are read one by one. -/
def memmove (m : Memory) (dst src len : Nat) : Query Nat UInt8 Memory := do
  let bytes ← Query.readAll (List.range' src len)
  return m.write dst bytes

structure BleAdvRecord where
  type : UInt8
  length : UInt8
  data : List UInt8
  deriving DecidableEq, Repr

/-- `sizeof(ble_adv_record_t)`: a type byte, a length byte and 30 data bytes. -/
def bleAdvRecordSize : Nat := 32

def bleAdvRecordAt (records : Memory) (k : Nat) : BleAdvRecord where
  type := records (bleAdvRecordSize * k)
  length := records (bleAdvRecordSize * k + 1)
  data := slice records (bleAdvRecordSize * k + 2) 30

/-- The body of `if (records != NULL)`: `records[record_index]` receives one record, and
the copy has the length from the air. -/
def storeRecord (records : Option Memory) (recordIndex : UInt8) (type len : UInt8) (data : Nat) :
    Query Nat UInt8 (Option Memory) :=
  match records with
  | none => return none
  | some records => do
    let record := bleAdvRecordSize * recordIndex.toNat
    let records := records.store record type
    let records := records.store (record + 1) (len - 1)
    let records ← memmove records (record + 2) data (len - 1).toNat
    return some records

/-- The `while` loop. `record_index` is a `uint8_t`, and `records` may be NULL. -/
def bleAdvParseScan.loop (dataLen : Nat) (records : Option Memory) (recordIndex : UInt8) (i : Nat) :
    Query Nat UInt8 (UInt8 × Option Memory) :=
  if _h : i < dataLen then do
    let len ← Query.read i
    if len = 0 then return (recordIndex, records)
    let type ← Query.read (i + 1)
    if type = advTypeInvalid then return (recordIndex, records)
    let records ← storeRecord records recordIndex type len (i + 2)
    bleAdvParseScan.loop dataLen records (recordIndex + 1) (i + 1 + len.toNat)
  else return (recordIndex, records)
termination_by dataLen - i

/-- What a call leaves behind: the return value, `*record_count` unless that is
NULL, and the record array unless that is NULL. -/
structure ScanResult where
  code : Int
  recordCount : Option Nat
  records : Option Memory

def bleAdvParseScan (data : Option Memory) (dataLen : Nat) (recordCount : Option Nat)
    (records : Option Memory) : ScanResult :=
  match data with
  | none => ⟨1, recordCount, records⟩
  | some data =>
    let (recordIndex, records) := (bleAdvParseScan.loop dataLen records 0 0).run data
    ⟨0, recordCount.map (fun _ => recordIndex.toNat), records⟩

end AnkiDrive
