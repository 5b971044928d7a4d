import AnkiDrive.Packets

/-! The two walks over a packet, one in `eir.c` and one in `advertisement.c`. The scan
leaves an array of records; parsing the packet is handling that array. -/
namespace AnkiDrive
open CModel

def BleAdvRecord.bytes (r : BleAdvRecord) : List UInt8 := r.data.take r.length.toNat

def handleRecords : List BleAdvRecord → Memory → UInt8 × Memory
  | [], adv => (if serviceIdOf adv = ankiServiceUuidLE then 0 else 2, adv)
  | r :: rs, adv =>
    if r.type = advTypeFlags then
      handleRecords rs (adv.write AnkiVehicleAdv.flags.offset r.bytes)
    else if r.type = advTypeUuid128 then
      if r.length.toNat = uuid128Size ∧ r.bytes ≠ ankiServiceUuidLE then (2, adv)
      else handleRecords rs (adv.write AnkiVehicleAdv.serviceId.offset r.bytes)
    else if r.type = advTypeLocalName then
      handleRecords rs ((ankiVehicleParseLocalName 0 r.length AnkiVehicleAdv.localName.offset
        adv).run (ofBytes r.data)).2
    else if r.type = advTypeTxPower then
      handleRecords rs (adv.write AnkiVehicleAdv.txPower.offset r.bytes)
    else if r.type = advTypeManufacturerData then
      handleRecords rs ((ankiVehicleParseMfgData 0 r.length AnkiVehicleAdv.mfgData.offset
        adv).run (ofBytes r.data)).2
    else (3, adv)

def scanned (records : Memory) (count : Nat) : List BleAdvRecord :=
  (List.range' 0 count).map (bleAdvRecordAt records)

/-- The stored record holds what was in the packet; bytes behind its payload are as they were. -/
structure Stores (b : BleAdvRecord) (r : Record) : Prop where
  type : b.type = r.type
  length : b.length.toNat = r.payload.length
  bytes : b.bytes = r.payload

theorem Stores.seen {b : BleAdvRecord} {r : Record} (stores : Stores b r) :
    slice (ofBytes b.data) 0 b.length.toNat = r.payload := by
  have size := congrArg List.length stores.bytes
  rw [BleAdvRecord.bytes, List.length_take, ← stores.length] at size
  rw [slice_ofBytes_take (by omega)]
  exact stores.bytes

theorem handleRecords_step {b : BleAdvRecord} {r : Record} (stores : Stores b r)
    (bs : List BleAdvRecord) (adv : Memory) :
    handleRecords (b :: bs) adv =
      match abortCode r.type r.payload with
      | some code => (code, adv)
      | none => handleRecords bs (handle adv r) := by
  have seen := stores.seen
  rw [abortCode_eq, handleRecords, stores.type, stores.bytes, stores.length]
  cases known : kindOf r.type with
  | none =>
    obtain ⟨flags, uuid128, localName, txPower, manufacturerData⟩ := kindOf_eq_none known
    simp [UnknownType, known, flags, uuid128, localName, txPower, manufacturerData]
  | some k =>
    have type := kindOf_eq_some known
    rw [handle_kind known]
    cases k with
    | flags => simp [type, Kind.type, UnknownType, ForeignUuid, Kind.patch, Kind.field, advTypeFlags,
        advTypeUuid128, kindOf]
    | uuid128 =>
      by_cases foreign : r.payload.length = uuid128Size ∧ r.payload ≠ ankiServiceUuidLE
      · simp [type, Kind.type, UnknownType, ForeignUuid, foreign, advTypeFlags, advTypeUuid128, kindOf]
      · simp [type, Kind.type, UnknownType, ForeignUuid, foreign, Kind.patch, Kind.field, advTypeFlags,
          advTypeUuid128, kindOf]
    | localName => simp [type, Kind.type, UnknownType, ForeignUuid, Kind.patch, Kind.field,
        advTypeFlags, advTypeUuid128, advTypeLocalName, kindOf, parseLocalName_run, seen]
    | txPower => simp [type, Kind.type, UnknownType, ForeignUuid, Kind.patch, Kind.field, advTypeFlags,
        advTypeUuid128, advTypeLocalName, advTypeTxPower, kindOf]
    | manufacturerData => simp [type, Kind.type, UnknownType, ForeignUuid, Kind.patch, Kind.field,
        advTypeFlags, advTypeUuid128, advTypeLocalName, advTypeTxPower, advTypeManufacturerData,
        kindOf, parseMfgData_run, seen]

theorem handleRecords_eq {bs : List BleAdvRecord} {rs : List Record}
    (stores : List.Forall₂ Stores bs rs) (adv : Memory) :
    handleRecords bs adv = parseRecords rs adv := by
  induction stores generalizing adv with
  | nil =>
    simp only [handleRecords, parseRecords, ankiVehicleParseAdvRecord.verdict,
      isAnkiVehicleServiceUuid_iff (serviceIdOf_length adv)]
  | @cons b r bs rs here _ ih =>
    rw [handleRecords_step here, parseRecords]
    cases abortCode r.type r.payload with
    | some code => rfl
    | none => exact ih _

theorem storeRecord_run (data m : Memory) (k type len : UInt8) (p : Nat) :
    (storeRecord (some m) k type len p).run data =
      some (m.write (bleAdvRecordSize * k.toNat)
        (type :: (len - 1) :: slice data p (len - 1).toNat)) := by
  have split : type :: (len - 1) :: slice data p (len - 1).toNat =
      [type] ++ ([len - 1] ++ slice data p (len - 1).toNat) := rfl
  rw [split, Memory.write_append, Memory.write_append]
  simp [storeRecord, run_memmove, Memory.store]

def stored (r : Record) : List UInt8 := r.type :: UInt8.ofNat r.payload.length :: r.payload

/-- The array after `rs` were put into it from position `k` on. -/
def fillRecords (m : Memory) (k : Nat) : List Record → Memory
  | [] => m
  | r :: rs => fillRecords (m.write (bleAdvRecordSize * k) (stored r)) (k + 1) rs

theorem stored_recordAt {data : Memory} {i : Nat} (counted : data i ≠ 0) (typed : data (i + 1) ≠ 0) :
    data (i + 1) :: (data i - 1) :: slice data (i + 2) (data i - 1).toNat =
      stored (recordAt data i typed) := by
  have size : UInt8.ofNat (recordAt data i typed).payload.length = data i - 1 := by
    rw [← recordAt_payload data counted typed, slice_length, UInt8.ofNat_toNat]
  rw [stored, size, recordAt_payload data counted typed]
  rfl

theorem visitScan_run {data : Memory} {i : Nat} (m : Memory) (k : UInt8) (counted : data i ≠ 0)
    (typed : data (i + 1) ≠ 0) :
    (visitScan (data (i + 1)) (data i) (i + 2) (k, some m)).run data =
      .ok (k + 1, some (m.write (bleAdvRecordSize * k.toNat) (stored (recordAt data i typed)))) := by
  rw [visitScan, Query.run_bind, storeRecord_run, stored_recordAt counted typed]
  rfl

theorem scan_run (data m : Memory) (n i : Nat) (k : UInt8)
    (few : k.toNat + (decode data n i).length ≤ 255) :
    (bleAdvParseScan.loop n (some m) k i).run data =
      (UInt8.ofNat (k.toNat + (decode data n i).length),
        some (fillRecords m k.toNat (decode data n i))) := by
  rw [scan_eq_walk]
  fun_induction decode data n i generalizing m k with
  | case1 i h zero =>
    rw [walk_end_run _ _ _ (Or.inr (Or.inl zero))]
    simp [fillRecords]
  | case2 i h counted typed ih =>
    rw [List.length_cons] at few ⊢
    have next : (k + 1).toNat = k.toNat + 1 := by
      rw [UInt8.toNat_add]
      exact Nat.mod_eq_of_lt (by change k.toNat + 1 < 256; omega)
    rw [walk_record_run _ _ _ h counted typed, visitScan_run m k counted typed]
    change (walk visitScan id n (k + 1, some _) (i + 1 + (data i).toNat)).run data = _
    rw [ih _ (k + 1) (by omega), next, fillRecords]
    congr 2
    omega
  | case3 i h counted invalid =>
    rw [walk_end_run _ _ _ (Or.inr (Or.inr (by simpa using invalid)))]
    simp [fillRecords]
  | case4 i h =>
    rw [walk_end_run _ _ _ (Or.inl (by omega))]
    simp [fillRecords]

theorem fillRecords_below {rs : List Record} (m : Memory) {k a : Nat}
    (below : a < bleAdvRecordSize * k) : fillRecords m k rs a = m a := by
  induction rs generalizing m k with
  | nil => rfl
  | cons r rs ih =>
    have further : a < bleAdvRecordSize * (k + 1) := by
      rw [Nat.mul_succ]
      omega
    rw [fillRecords, ih _ further, Memory.write_outside m (Or.inl below)]

theorem stores_written (m : Memory) (k : Nat) {r : Record} (short : r.payload.length ≤ 30)
    {m' : Memory} (kept : ∀ a < bleAdvRecordSize * (k + 1),
      m' a = m.write (bleAdvRecordSize * k) (stored r) a) :
    Stores (bleAdvRecordAt m' k) r := by
  have size : (stored r).length = r.payload.length + 2 := rfl
  have place : bleAdvRecordSize * (k + 1) = bleAdvRecordSize * k + 32 := rfl
  have front : slice m' (bleAdvRecordSize * k) (stored r).length = stored r := by
    rw [slice_congr (fun a _ hi => kept a (by omega))]
    exact Memory.slice_write_same m _ _
  rw [size] at front
  simp only [slice_succ, stored, List.cons.injEq] at front
  obtain ⟨type, length, payload⟩ := front
  have count : (bleAdvRecordAt m' k).length.toNat = r.payload.length := by
    simp only [bleAdvRecordAt, length, UInt8.toNat_ofNat']
    omega
  refine ⟨type, count, ?_⟩
  rw [BleAdvRecord.bytes, count]
  exact (slice_take m' _ short).trans payload

theorem stores_scanned {rs : List Record} (m : Memory) (k : Nat)
    (short : ∀ r ∈ rs, r.payload.length ≤ 30) :
    List.Forall₂ Stores ((List.range' k rs.length).map (bleAdvRecordAt (fillRecords m k rs))) rs := by
  induction rs generalizing m k with
  | nil => exact .nil
  | cons r rs ih =>
    rw [List.length_cons, List.range'_succ, List.map_cons]
    refine .cons ?_ ?_
    · exact stores_written m k (short r List.mem_cons_self) fun a below => fillRecords_below _ below
    · exact ih _ (k + 1) (fun s hs => short s (List.mem_cons_of_mem r hs))

/-- Parsing a packet is scanning it and handling the array. -/
theorem walkers_agree {p : Packet} (few : p.records.length ≤ 255)
    (short : ∀ r ∈ p.records, r.payload.length ≤ 30) (array adv : Memory) (count : Nat) :
    ∃ n records, bleAdvParseScan (some p.data) p.len (some count) (some array) =
        ⟨0, some n, some records⟩ ∧
      parsePacket p adv = handleRecords (scanned records n) adv := by
  have run := scan_run p.data array p.len 0 0 (by rw [UInt8.toNat_zero, Nat.zero_add]; exact few)
  have size : (UInt8.ofNat ((0 : UInt8).toNat + p.records.length)).toNat = p.records.length := by
    simp
    omega
  refine ⟨p.records.length, fillRecords array 0 p.records, ?_, ?_⟩
  · rw [bleAdvParseScan, run]
    exact congrArg (fun n => ScanResult.mk 0 (some n) _) size
  · rw [parsePacket_eq, scanned]
    exact (handleRecords_eq (stores_scanned array 0 short) adv).symm

theorem uuid_packet_walkers_agree :
    let flags : Record := ⟨advTypeFlags, [0x06], by decide, by decide⟩
    let p := Packet.ofRecords [flags, ankiUuidRecord]
    ∃ n records, bleAdvParseScan (some p.data) p.len (some 0) (some fun _ => 0xaa) =
        ⟨0, some n, some records⟩ ∧
      parsePacket p (fun _ => 0) = handleRecords (scanned records n) (fun _ => 0) := by
  intro flags p
  have records : p.records = [flags, ankiUuidRecord] := Packet.ofRecords_records _
  have few : p.records.length ≤ 255 := by
    rw [records]
    decide
  have short : ∀ r ∈ p.records, r.payload.length ≤ 30 := by
    rw [records]
    decide
  exact walkers_agree few short _ _ 0

end AnkiDrive
