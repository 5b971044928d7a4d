import AnkiDrive.Advertisement
import AnkiDrive.Lib.Patch
import AnkiDrive.Lib.Records

/-! What the two C helpers and the `switch` do to one record, apart from how they
read it: whether the record ends the parse, and the patch it lays over the struct.
Neither depends on what the struct held before. -/
namespace AnkiDrive
open CModel

theorem isAnkiVehicleServiceUuid_iff {a : List UInt8} (size : a.length = uuid128Size) :
    isAnkiVehicleServiceUuid a = true ↔ a = ankiServiceUuidLE := by
  rw [isAnkiVehicleServiceUuid, beq_iff_eq, uuid128Cmp, memcmp_eq_zero size]

theorem serviceIdOf_length (adv : Memory) : (serviceIdOf adv).length = uuid128Size := slice_length ..

def mfgPatch (mfgData : Nat) (payload : List UInt8) : Patch :=
  if payload.length = 8 then Patch.write mfgData payload.reverse else Patch.id

/-- The bits of the state byte that `anki_vehicle_parse_local_name` assigns. -/
def stateMask : UInt8 := 0x70

def versionPatch (versionAt : Nat) : List UInt8 → Patch
  | [] => Patch.id
  | [lo] => Patch.write versionAt [lo, 0]
  | lo :: hi :: _ => Patch.write versionAt [lo, hi]

def namePatch (nameAt : Nat) (payload : List UInt8) : Patch :=
  if 8 < payload.length then
    (Patch.write nameAt (List.replicate AnkiVehicleAdvInfo.name.size 0)).then_
      (Patch.write nameAt (payload.drop 8))
  else Patch.id

def localNamePatch (localName : Nat) (payload : List UInt8) : Patch :=
  match payload with
  | [] => Patch.id
  | state :: rest =>
    (Patch.writeBits (localName + AnkiVehicleAdvInfo.state.offset) stateMask state).then_
      ((versionPatch (localName + AnkiVehicleAdvInfo.version.offset) rest).then_
        (namePatch (localName + AnkiVehicleAdvInfo.name.offset) payload))

theorem run_memmove (data m : Memory) (dst src len : Nat) :
    (memmove m dst src len).run data = m.write dst (slice data src len) := by
  simp [memmove, slice]

theorem parseMfgData_run (data m : Memory) (bytes : Nat) (len : UInt8) (mfgData : Nat) :
    ((ankiVehicleParseMfgData bytes len mfgData m).run data).2 =
      (mfgPatch mfgData (slice data bytes len.toNat)).apply m := by
  by_cases eight : len = 8
  · have reversed : (slice data bytes 8).reverse =
        [data (bytes + 7), data (bytes + 6), data (bytes + 5), data (bytes + 4)] ++
          ([data (bytes + 3)] ++ ([data (bytes + 2)] ++ [data (bytes + 1), data bytes])) := by
      simp [slice, List.range']
    subst eight
    rw [mfgPatch, if_pos (by simp), Patch.apply_write,
      show (8 : UInt8).toNat = 8 from rfl, reversed, ← Memory.write_prepend, ← Memory.write_prepend,
      ← Memory.write_prepend]
    simp [ankiVehicleParseMfgData, Memory.store16, Memory.store32, Memory.store, le16_word16,
      le32_word32, AnkiVehicleAdvMfg.productId, AnkiVehicleAdvMfg.reserved,
      AnkiVehicleAdvMfg.modelId, AnkiVehicleAdvMfg.identifier]
  · have size : len.toNat ≠ 8 := fun h => eight (UInt8.toNat_inj.mp h)
    simp [ankiVehicleParseMfgData, mfgPatch, eight, size]

theorem storeState (m : Memory) (p : Nat) (state : UInt8) :
    ((m.storeBit p fullBatteryBit (isVehicleStateSet state vehicleStateFullBattery)).storeBit p
      lowBatteryBit (isVehicleStateSet state vehicleStateLowBattery)).storeBit p
      onChargerBit (isVehicleStateSet state vehicleStateOnCharger) =
    (Patch.writeBits p stateMask state).apply m := by
  have full := Patch.storeBit_flag m p state (show 4 < 8 by decide)
  have low := fun m => Patch.storeBit_flag m p state (show 5 < 8 by decide)
  have charger := fun m => Patch.storeBit_flag m p state (show 6 < 8 by decide)
  have mask : ((1 : UInt8) <<< UInt8.ofNat 4 ||| 1 <<< UInt8.ofNat 5) ||| 1 <<< UInt8.ofNat 6 =
      stateMask := by decide
  rw [← mask, ← Patch.apply_writeBits_twice, ← Patch.apply_writeBits_twice, ← full, ← low, ← charger]
  rfl

theorem storeVersion (m : Memory) (p : Nat) (lo hi : UInt8) :
    (m.store16 p lo.toUInt16).store16 p
      ((m.store16 p lo.toUInt16).load16 p ||| hi.toUInt16 <<< 8) = m.write p [lo, hi] := by
  have held : (m.store16 p lo.toUInt16).load16 p = lo.toUInt16 :=
    Memory.load16_eq (Memory.slice_write_same m p (le16 lo.toUInt16))
  rw [held, Memory.store16, Memory.store16, Memory.write_write m (Nat.le_refl p) (by simp [le16])]
  exact congrArg (m.write p) (le16_word16 lo hi)

theorem store16_byte (m : Memory) (p : Nat) (lo : UInt8) :
    m.store16 p lo.toUInt16 = m.write p [lo, 0] := by
  have word : word16 lo 0 = lo.toUInt16 := by simp [word16]
  rw [Memory.store16, ← word, le16_word16]

theorem parseVersion_run (data m : Memory) (bytes : Nat) (len : UInt8) (versionAt k : Nat)
    (size : len.toNat = k + 1) :
    (let m := if 1 < len then m.store16 versionAt (data (bytes + 1)).toUInt16 else m
      if 2 < len then m.store16 versionAt
        (m.load16 versionAt ||| (data (bytes + 2)).toUInt16 <<< 8) else m) =
      (versionPatch versionAt (slice data (bytes + 1) k)).apply m := by
  have one : 1 < len ↔ 1 < k + 1 := size ▸ UInt8.lt_iff_toNat_lt
  have two : 2 < len ↔ 2 < k + 1 := size ▸ UInt8.lt_iff_toNat_lt
  match k with
  | 0 =>
    simp only [one, two]
    exact (Patch.apply_id m).symm
  | 1 =>
    simp only [one, two, Nat.reduceAdd, Nat.reduceLT, if_true, if_false, store16_byte]
    exact (Patch.apply_write versionAt [data (bytes + 1), 0] m).symm
  | k + 2 =>
    rw [if_pos (one.mpr (by omega)), if_pos (two.mpr (by omega)), storeVersion]
    exact (Patch.apply_write versionAt [data (bytes + 1), data (bytes + 2)] m).symm

theorem parseName_run (data m : Memory) (bytes : Nat) (len : UInt8) (nameAt : Nat) :
    (if 8 < len then (m.fill nameAt 0 AnkiVehicleAdvInfo.name.size).write nameAt
        (slice data (bytes + 8) (len - 8).toNat) else m) =
      (namePatch nameAt (slice data bytes len.toNat)).apply m := by
  have eight : 8 < len ↔ 8 < len.toNat := UInt8.lt_iff_toNat_lt
  by_cases long : 8 < len
  · have count : (len - 8).toNat = len.toNat - 8 :=
      UInt8.toNat_sub_of_le len 8 (UInt8.le_of_lt long)
    rw [if_pos long, namePatch, if_pos (by simpa using eight.mp long), Patch.apply_then,
      Patch.apply_write, Patch.apply_write, slice_drop, count]
    rfl
  · rw [if_neg long, namePatch, if_neg (by simpa using fun h => long (eight.mpr h)),
      Patch.apply_id]

theorem parseLocalName_run (data m : Memory) (bytes : Nat) (len : UInt8) (localName : Nat) :
    ((ankiVehicleParseLocalName bytes len localName m).run data).2 =
      (localNamePatch localName (slice data bytes len.toNat)).apply m := by
  by_cases empty : len = 0
  · subst empty
    simp [ankiVehicleParseLocalName, localNamePatch]
  · obtain ⟨k, size⟩ := Nat.exists_eq_succ_of_ne_zero (Nat.ne_of_gt (length_pos empty))
    have state : data bytes &&& 0xff = data bytes := UInt8.and_neg_one
    have payload : slice data bytes len.toNat = data bytes :: slice data (bytes + 1) k := by
      rw [size, slice_succ]
    rw [payload, localNamePatch, Patch.apply_then, Patch.apply_then, ← payload, ← parseName_run,
      ← parseVersion_run data _ bytes len _ k size, ← storeState]
    simp only [ankiVehicleParseLocalName, if_neg empty, Query.run_bind, Query.run_ite,
      Query.run_read, Query.run_pure, run_memmove, state]

inductive Kind where
  | flags | uuid128 | localName | txPower | manufacturerData
  deriving DecidableEq, Repr

def Kind.type : Kind → UInt8
  | .flags => advTypeFlags
  | .uuid128 => advTypeUuid128
  | .localName => advTypeLocalName
  | .txPower => advTypeTxPower
  | .manufacturerData => advTypeManufacturerData

def kindOf (type : UInt8) : Option Kind :=
  if type = advTypeFlags then some .flags
  else if type = advTypeUuid128 then some .uuid128
  else if type = advTypeLocalName then some .localName
  else if type = advTypeTxPower then some .txPower
  else if type = advTypeManufacturerData then some .manufacturerData
  else none

@[simp] theorem kindOf_type (k : Kind) : kindOf k.type = some k := by
  cases k <;> decide

theorem kindOf_eq_some {type : UInt8} {k : Kind} (known : kindOf type = some k) : type = k.type := by
  unfold kindOf at known
  split_ifs at known <;> cases known <;> assumption

theorem kindOf_eq_none {type : UInt8} (unknown : kindOf type = none) :
    type ≠ advTypeFlags ∧ type ≠ advTypeUuid128 ∧ type ≠ advTypeLocalName ∧
      type ≠ advTypeTxPower ∧ type ≠ advTypeManufacturerData := by
  have other : ∀ k : Kind, type ≠ k.type := by
    rintro k rfl
    rw [kindOf_type] at unknown
    cases unknown
  exact ⟨other .flags, other .uuid128, other .localName, other .txPower, other .manufacturerData⟩

def Kind.field : Kind → Field
  | .flags => AnkiVehicleAdv.flags
  | .uuid128 => AnkiVehicleAdv.serviceId
  | .localName => AnkiVehicleAdv.localName
  | .txPower => AnkiVehicleAdv.txPower
  | .manufacturerData => AnkiVehicleAdv.mfgData

def Kind.patch (k : Kind) (payload : List UInt8) : Patch :=
  match k with
  | .localName => localNamePatch k.field.offset payload
  | .manufacturerData => mfgPatch k.field.offset payload
  | _ => Patch.write k.field.offset payload

/-- A 128-bit service UUID that is not Anki's. -/
def Kind.foreign (k : Kind) (payload : List UInt8) : Bool :=
  decide (k = .uuid128 ∧ payload.length = uuid128Size) && !isAnkiVehicleServiceUuid payload

/-- The code with which a record ends the parse, if it does. -/
def abortCode (type : UInt8) (payload : List UInt8) : Option UInt8 :=
  match kindOf type with
  | none => some 3
  | some k => if k.foreign payload then some 2 else none

def recordPatch (type : UInt8) (payload : List UInt8) : Patch :=
  match kindOf type with
  | none => Patch.id
  | some k => k.patch payload

variable (data : Memory) (p : Nat) (len : UInt8)

theorem switch_kind (k : Kind) (m : Memory) :
    (ankiVehicleParseAdvRecord.switch k.type p len (some m)).run data =
      if k.foreign (slice data p len.toNat) then .error 2
      else .ok (some ((k.patch (slice data p len.toNat)).apply m)) := by
  cases k with
  | flags =>
    simp [ankiVehicleParseAdvRecord.switch, Kind.type, Kind.foreign, Kind.patch, Kind.field,
      run_memmove, advTypeFlags, advTypeInvalid]
  | uuid128 =>
    by_cases full : len.toNat = uuid128Size
    · simp [ankiVehicleParseAdvRecord.switch, Kind.type, Kind.foreign, Kind.patch, Kind.field,
        run_memmove, advTypeFlags, advTypeInvalid, advTypeUuid128, full, slice]
    · simp [ankiVehicleParseAdvRecord.switch, Kind.type, Kind.foreign, Kind.patch, Kind.field,
        run_memmove, advTypeFlags, advTypeInvalid, advTypeUuid128, full]
  | localName =>
    simp [ankiVehicleParseAdvRecord.switch, Kind.type, Kind.foreign, Kind.patch, Kind.field,
      parseLocalName_run, advTypeFlags, advTypeInvalid, advTypeUuid128, advTypeLocalName]
  | txPower =>
    simp [ankiVehicleParseAdvRecord.switch, Kind.type, Kind.foreign, Kind.patch, Kind.field,
      run_memmove, advTypeFlags, advTypeInvalid, advTypeUuid128, advTypeLocalName, advTypeTxPower]
  | manufacturerData =>
    simp [ankiVehicleParseAdvRecord.switch, Kind.type, Kind.foreign, Kind.patch, Kind.field,
      parseMfgData_run, advTypeFlags, advTypeInvalid, advTypeUuid128, advTypeLocalName,
      advTypeTxPower, advTypeManufacturerData]

theorem switch_query_kind (k : Kind) :
    (ankiVehicleParseAdvRecord.switch k.type p len none).run data =
      if k.foreign (slice data p len.toNat) then .error 2
      else if k = .uuid128 then .error 0 else .ok none := by
  cases k with
  | uuid128 =>
    by_cases full : len.toNat = uuid128Size <;>
      simp [ankiVehicleParseAdvRecord.switch, Kind.type, Kind.foreign, advTypeFlags,
        advTypeInvalid, advTypeUuid128, full, slice]
  | flags | localName | txPower | manufacturerData =>
    simp [ankiVehicleParseAdvRecord.switch, Kind.type, Kind.foreign, advTypeFlags, advTypeInvalid,
      advTypeUuid128, advTypeLocalName, advTypeTxPower, advTypeManufacturerData]

theorem switch_unknown {type : UInt8} (typed : type ≠ 0) (unknown : kindOf type = none)
    (adv : Option Memory) :
    ankiVehicleParseAdvRecord.switch type p len adv = pure (.error 3) := by
  obtain ⟨flags, uuid128, localName, txPower, manufacturerData⟩ := kindOf_eq_none unknown
  simp [ankiVehicleParseAdvRecord.switch, advTypeInvalid, typed, flags, uuid128, localName, txPower,
    manufacturerData]

theorem switch_run {type : UInt8} (typed : type ≠ 0) (m : Memory) :
    (ankiVehicleParseAdvRecord.switch type p len (some m)).run data =
      match abortCode type (slice data p len.toNat) with
      | some code => .error code
      | none => .ok (some ((recordPatch type (slice data p len.toNat)).apply m)) := by
  cases known : kindOf type with
  | none => simp only [abortCode, known, switch_unknown p len typed known, Query.run_pure]
  | some k =>
    rw [kindOf_eq_some known, switch_kind]
    simp only [abortCode, recordPatch, kindOf_type]
    split <;> rfl

theorem switch_query {type : UInt8} (typed : type ≠ 0) :
    (ankiVehicleParseAdvRecord.switch type p len none).run data =
      match abortCode type (slice data p len.toNat) with
      | some code => .error code
      | none => if kindOf type = some .uuid128 then .error 0 else .ok none := by
  cases known : kindOf type with
  | none => simp only [abortCode, known, switch_unknown p len typed known, Query.run_pure]
  | some k =>
    rw [kindOf_eq_some known, switch_query_kind]
    simp only [abortCode, kindOf_type, Option.some.injEq]
    split <;> rfl

end AnkiDrive
