import AnkiDrive.Footprint

/-! Which of the scanned bytes the two parsers look at. Both trust the length byte, so
a record that is cut off by the end of the data is read past the end; how far depends
on what its handler needs of the payload. -/
namespace AnkiDrive
open CModel

/-- How much of a payload the handler of a record looks at; `stored` says that there is
a struct to fill. -/
def Kind.need (k : Kind) (len : Nat) (stored : Bool) : Nat :=
  match k with
  | .uuid128 => if len = uuid128Size ∨ stored then len else 0
  | .localName => if stored then (if 8 < len then len else min len 3) else 0
  | .manufacturerData => if stored ∧ len = 8 then 8 else 0
  | _ => if stored then len else 0

def payloadNeed (type : UInt8) (len : Nat) (stored : Bool) : Nat :=
  match kindOf type with
  | none => 0
  | some k => k.need len stored

/-- The record at `i` ends the call: it is rejected, or it is the UUID a query asks for. -/
def ParseStops (data : Memory) (stored : Bool) (i : Nat) : Prop :=
  abortCode (data (i + 1)) (slice data (i + 2) ((data i).toNat - 1)) ≠ none ∨
    stored = false ∧ kindOf (data (i + 1)) = some .uuid128

/-- No record that the parser reaches is cut off before what its handler looks at. -/
def ParseInside (data : Memory) (n : Nat) (stored : Bool) (i : Nat) : Prop :=
  WalkInside data n (fun i => payloadNeed (data (i + 1)) ((data i).toNat - 1) stored)
    (ParseStops data stored) i

/-- No record that the scan reaches is cut off; without an array only its type byte counts. -/
def ScanInside (data : Memory) (n : Nat) (stored : Bool) (i : Nat) : Prop :=
  WalkInside data n (fun i => if stored then (data i).toNat - 1 else 0) (fun _ => False) i

theorem range_below {p k n : Nat} :
    (∀ j ∈ List.range' p k, j < n) ↔ (k = 0 ∨ p + k ≤ n) := by
  constructor
  · intro below
    cases k with
    | zero => exact Or.inl rfl
    | succ k =>
      have last := below (p + k) (List.mem_range'_1.mpr (by omega))
      exact Or.inr (by omega)
  · intro fits j member
    have bounds := List.mem_range'_1.mp member
    omega

theorem ite_below {c : Prop} [Decidable c] {is : List Nat} {n : Nat} :
    (∀ j ∈ (if c then is else []), j < n) ↔ (c → ∀ j ∈ is, j < n) := by
  by_cases h : c
  · rw [if_pos h]
    exact ⟨fun below _ => below, fun below => below h⟩
  · simp [h]

theorem asked_memmove (data m : Memory) (dst src len : Nat) :
    (memmove m dst src len).asked data = List.range' src len := by
  simp [memmove]

theorem localName_asked (data m : Memory) (p : Nat) {len : UInt8} (q : Nat) (present : len ≠ 0) :
    (ankiVehicleParseLocalName p len q m).asked data =
      p :: ((if 1 < len then [p + 1] else []) ++ ((if 2 < len then [p + 2] else []) ++
        if 8 < len then List.range' (p + 8) (len - 8).toNat else [])) := by
  simp [ankiVehicleParseLocalName, if_neg present, asked_memmove]

theorem localName_below (data m : Memory) {p n : Nat} (len : UInt8) (q : Nat) (start : p ≤ n) :
    (∀ j ∈ (ankiVehicleParseLocalName p len q m).asked data, j < n) ↔
      p + Kind.localName.need len.toNat true ≤ n := by
  by_cases empty : len = 0
  · subst empty
    simpa [ankiVehicleParseLocalName, Kind.need] using start
  · have pos := length_pos empty
    have one : 1 < len ↔ 1 < len.toNat := UInt8.lt_iff_toNat_lt
    have two : 2 < len ↔ 2 < len.toNat := UInt8.lt_iff_toNat_lt
    have eight : 8 < len ↔ 8 < len.toNat := UInt8.lt_iff_toNat_lt
    have count : 8 < len.toNat → (len - 8).toNat = len.toNat - 8 := fun long =>
      UInt8.toNat_sub_of_le len 8 (UInt8.le_of_lt (eight.mpr long))
    simp only [localName_asked data m p q empty, List.forall_mem_cons, List.forall_mem_append,
      ite_below, range_below, List.not_mem_nil, false_imp_iff, implies_true, and_true, Kind.need,
      if_true, one, two, eight]
    split <;> omega

theorem mfgData_below (data m : Memory) {p n : Nat} (len : UInt8) (q : Nat) (start : p ≤ n) :
    (∀ j ∈ (ankiVehicleParseMfgData p len q m).asked data, j < n) ↔
      p + Kind.manufacturerData.need len.toNat true ≤ n := by
  by_cases eight : len = 8
  · subst eight
    simp [ankiVehicleParseMfgData, Kind.need]
    omega
  · have size : len.toNat ≠ 8 := fun h => eight (UInt8.toNat_inj.mp h)
    simpa [ankiVehicleParseMfgData, Kind.need, eight, size] using start

theorem copy_asked (data : Memory) (p : Nat) (len : UInt8) (adv : Option Memory) {k : Kind}
    (copies : k = .flags ∨ k = .txPower) :
    (ankiVehicleParseAdvRecord.switch k.type p len adv).asked data =
      if adv.isSome then List.range' p len.toNat else [] := by
  rcases copies with rfl | rfl <;> cases adv <;>
    simp [ankiVehicleParseAdvRecord.switch, Kind.type, advTypeFlags, advTypeInvalid, advTypeUuid128,
      advTypeLocalName, advTypeTxPower, asked_memmove]

theorem uuid_asked (data : Memory) (p : Nat) (len : UInt8) (adv : Option Memory) :
    (ankiVehicleParseAdvRecord.switch Kind.uuid128.type p len adv).asked data =
      (if len.toNat = uuid128Size then List.range' p len.toNat else []) ++
        if adv.isSome ∧ ¬ Kind.uuid128.foreign (slice data p len.toNat) then List.range' p len.toNat
        else [] := by
  by_cases full : len.toNat = uuid128Size
  · cases foreign : isAnkiVehicleServiceUuid (slice data p uuid128Size) <;> cases adv <;>
      simp [slice] at foreign <;>
      simp [ankiVehicleParseAdvRecord.switch, Kind.type, Kind.foreign, advTypeFlags, advTypeInvalid,
        advTypeUuid128, full, slice, foreign, asked_memmove]
  · cases adv <;>
      simp [ankiVehicleParseAdvRecord.switch, Kind.type, Kind.foreign, advTypeFlags, advTypeInvalid,
        advTypeUuid128, full, asked_memmove]

theorem localName_switch_asked (data : Memory) (p : Nat) (len : UInt8) (adv : Option Memory) :
    (ankiVehicleParseAdvRecord.switch Kind.localName.type p len adv).asked data =
      match adv with
      | none => []
      | some m =>
        (ankiVehicleParseLocalName p len AnkiVehicleAdv.localName.offset m).asked data := by
  cases adv <;>
    simp [ankiVehicleParseAdvRecord.switch, Kind.type, advTypeFlags, advTypeInvalid,
      advTypeUuid128, advTypeLocalName]

theorem mfgData_switch_asked (data : Memory) (p : Nat) (len : UInt8) (adv : Option Memory) :
    (ankiVehicleParseAdvRecord.switch Kind.manufacturerData.type p len adv).asked data =
      match adv with
      | none => []
      | some m => (ankiVehicleParseMfgData p len AnkiVehicleAdv.mfgData.offset m).asked data := by
  cases adv <;>
    simp [ankiVehicleParseAdvRecord.switch, Kind.type, advTypeFlags, advTypeInvalid,
      advTypeUuid128, advTypeLocalName, advTypeTxPower, advTypeManufacturerData]

theorem switch_below (data : Memory) {p n : Nat} (len : UInt8) (adv : Option Memory) (k : Kind)
    (start : p ≤ n) :
    (∀ j ∈ (ankiVehicleParseAdvRecord.switch k.type p len adv).asked data, j < n) ↔
      p + k.need len.toNat adv.isSome ≤ n := by
  cases k with
  | flags | txPower =>
    rw [copy_asked data p len adv (by simp), ite_below, range_below]
    cases adv <;> simp [Kind.need, start]
    omega
  | uuid128 =>
    rw [uuid_asked, List.forall_mem_append, ite_below, ite_below, range_below]
    by_cases full : len.toNat = uuid128Size
    · simp only [full, Kind.need, true_or, if_true, true_imp_iff]
      omega
    · have other : Kind.uuid128.foreign (slice data p len.toNat) = false := by
        simp [Kind.foreign, full]
      cases adv <;> simp [Kind.need, full, other, start]
      omega
  | localName =>
    rw [localName_switch_asked]
    cases adv with
    | none => simpa [Kind.need] using start
    | some m => exact localName_below data m len _ start
  | manufacturerData =>
    rw [mfgData_switch_asked]
    cases adv with
    | none => simpa [Kind.need] using start
    | some m => exact mfgData_below data m len _ start

theorem switch_type_below (data : Memory) {p n : Nat} (len : UInt8) (adv : Option Memory)
    {type : UInt8} (typed : type ≠ 0) (start : p ≤ n) :
    (∀ j ∈ (ankiVehicleParseAdvRecord.switch type p len adv).asked data, j < n) ↔
      p + payloadNeed type len.toNat adv.isSome ≤ n := by
  cases known : kindOf type with
  | some k =>
    rw [kindOf_eq_some known, switch_below data len adv k start]
    simp only [payloadNeed, kindOf_type]
  | none =>
    simp [switch_unknown p len typed known, payloadNeed, known, start]

variable (data : Memory) (n : Nat)

theorem scan_visits (stored : Bool) :
    Visits visitScan data n (fun i => if stored then (data i).toNat - 1 else 0) (fun _ => False)
      (fun s => s.2.isSome = stored) where
  below := by
    rintro i ⟨k, records⟩ rfl start counted typed
    have copied : (visitScan (data (i + 1)) (data i) (i + 2) (k, records)).asked data =
        if records.isSome then List.range' (i + 2) ((data i).toNat - 1) else [] := by
      cases records <;> simp [visitScan, storeRecord, asked_memmove, length_pred counted]
    rw [copied, ite_below, range_below]
    cases records <;> simp <;> omega
  stopped := by
    rintro i ⟨k, records⟩ _ counted typed result ended
    simp [visitScan] at ended
  goes := by
    rintro i ⟨k, records⟩ rfl counted typed t gone
    cases records <;> simp [visitScan, storeRecord] at gone <;> simp [← gone]

theorem parse_visits (stored : Bool) :
    Visits visitRecord data n (fun i => payloadNeed (data (i + 1)) ((data i).toNat - 1) stored)
      (ParseStops data stored) (fun adv => adv.isSome = stored) where
  below := by
    rintro i adv rfl start counted typed
    have asked : (visitRecord (data (i + 1)) (data i) (i + 2) adv).asked data =
        (ankiVehicleParseAdvRecord.switch (data (i + 1)) (i + 2) (data i - 1) adv).asked data := by
      simp [visitRecord]
    rw [asked, switch_type_below data _ adv typed start, length_pred counted]
  stopped := by
    rintro i adv rfl counted typed result ended
    cases adv with
    | some m =>
      rw [visitRecord_run data m counted typed] at ended
      left
      intro goes
      simp [recordAt, goes] at ended
    | none =>
      rw [visitRecord_query data counted typed] at ended
      by_cases goes : abortCode (data (i + 1)) (slice data (i + 2) ((data i).toNat - 1)) = none
      · by_cases uuid : kindOf (data (i + 1)) = some .uuid128
        · exact Or.inr ⟨rfl, uuid⟩
        · simp [recordAt, goes, uuid] at ended
      · exact Or.inl goes
  goes := by
    rintro i adv rfl counted typed t gone
    cases outcome : abortCode (data (i + 1)) (slice data (i + 2) ((data i).toNat - 1)) with
    | some code =>
      cases adv with
      | some m => simp [visitRecord_run data m counted typed, recordAt, outcome] at gone
      | none => simp [visitRecord_query data counted typed, recordAt, outcome] at gone
    | none =>
      cases adv with
      | some m =>
        simp [visitRecord_run data m counted typed, recordAt, outcome] at gone
        simp [ParseStops, outcome, ← gone]
      | none =>
        rw [visitRecord_query data counted typed] at gone
        by_cases uuid : kindOf (data (i + 1)) = some .uuid128
        · simp [recordAt, outcome, uuid] at gone
        · simp [recordAt, outcome, uuid] at gone
          simp [ParseStops, outcome, uuid, ← gone]

theorem scan_below_iff (records : Option Memory) (k : UInt8) (i : Nat) :
    (∀ j ∈ (bleAdvParseScan.loop n records k i).asked data, j < n) ↔
      ScanInside data n records.isSome i := by
  rw [scan_eq_walk]
  exact walk_below_iff (scan_visits data n records.isSome) id i rfl

theorem parse_below_iff (adv : Option Memory) (i : Nat) :
    (∀ j ∈ (ankiVehicleParseAdvRecord.loop n adv i).asked data, j < n) ↔
      ParseInside data n adv.isSome i := by
  rw [parse_eq_walk]
  exact walk_below_iff (parse_visits data n adv.isSome) finishParse i rfl

theorem need_le (k : Kind) (len : Nat) (stored : Bool) : k.need len stored ≤ len := by
  cases k <;> simp only [Kind.need] <;> split <;> try omega
  split <;> omega

theorem payloadNeed_le (type : UInt8) (len : Nat) (stored : Bool) : payloadNeed type len stored ≤ len := by
  unfold payloadNeed
  split
  · exact Nat.zero_le len
  · exact need_le _ _ _

theorem packet_parse_inside (p : Packet) (stored : Bool) : ParseInside p.data p.len stored 0 :=
  inside_walk p.inside (fun _ => payloadNeed_le _ _ stored)

theorem packet_scan_inside (p : Packet) (stored : Bool) : ScanInside p.data p.len stored 0 := by
  apply inside_walk p.inside
  intro i
  split <;> omega

theorem packet_reads_inside (p : Packet) (records adv : Option Memory) :
    (∀ j ∈ (bleAdvParseScan.loop p.len records 0 0).asked p.data, j < p.len) ∧
      ∀ j ∈ (ankiVehicleParseAdvRecord.loop p.len adv 0).asked p.data, j < p.len := by
  constructor
  · exact (scan_below_iff p.data p.len records 0 0).mpr (packet_scan_inside p records.isSome)
  · exact (parse_below_iff p.data p.len adv 0).mpr (packet_parse_inside p adv.isSome)

/-- The parsers look below `n` only exactly when no record they reach is cut off before
what its handler looks at, and then the bytes from `n` on make no difference to them. -/
theorem reads_below_iff (data : Memory) (n : Nat) :
    (∀ records, (∀ j ∈ (bleAdvParseScan.loop n records 0 0).asked data, j < n) ↔
      ScanInside data n records.isSome 0) ∧
    (∀ adv, (∀ j ∈ (ankiVehicleParseAdvRecord.loop n adv 0).asked data, j < n) ↔
      ParseInside data n adv.isSome 0) ∧
    ∀ other : Memory, (∀ a < n, data a = other a) →
      (∀ count records, ScanInside data n records.isSome 0 →
        bleAdvParseScan (some data) n count records = bleAdvParseScan (some other) n count records) ∧
      ∀ adv, ParseInside data n adv.isSome 0 →
        ankiVehicleParseAdvRecord (some data) n adv = ankiVehicleParseAdvRecord (some other) n adv := by
  refine ⟨fun records => scan_below_iff data n records 0 0, fun adv => parse_below_iff data n adv 0, ?_⟩
  intro other agree
  constructor
  · intro count records inside
    have below := (scan_below_iff data n records 0 0).mpr inside
    have same := (Query.run_congr data other _ (fun j asked => agree j (below j asked))).1
    simp only [bleAdvParseScan, same]
  · intro adv inside
    have below := (parse_below_iff data n adv 0).mpr inside
    exact (Query.run_congr data other _ (fun j asked => agree j (below j asked))).1

theorem whole_record_reads_inside :
    let p := Packet.ofRecords [⟨advTypeFlags, [0x06], by decide, by decide⟩, ankiUuidRecord,
      ⟨advTypeTxPower, [0xf4], by decide, by decide⟩]
    ∀ adv, ankiVehicleParseAdvRecord (some p.data) p.len adv =
      ankiVehicleParseAdvRecord (some fun a => if a < p.len then p.data a else 0xff) p.len adv := by
  intro p adv
  have agree : ∀ a < p.len, p.data a = if a < p.len then p.data a else 0xff :=
    fun a below => (if_pos below).symm
  exact ((reads_below_iff p.data p.len).2.2 _ agree).2 adv (packet_parse_inside p adv.isSome)

/-- A lone length byte at the end: the byte behind it is taken for a type, and decides. -/
theorem lone_length_reads_past_end :
    ¬ (∀ j ∈ (bleAdvParseScan.loop 1 none 0 0).asked (ofBytes [2]), j < 1) ∧
    ¬ (∀ j ∈ (ankiVehicleParseAdvRecord.loop 1 none 0).asked (ofBytes [2]), j < 1) ∧
    (ankiVehicleParseAdvRecord (some (ofBytes [2])) 1 none).1 = 2 ∧
    (ankiVehicleParseAdvRecord (some (ofBytes [2, 0x12])) 1 none).1 = 3 := by
  decide +kernel

end AnkiDrive
