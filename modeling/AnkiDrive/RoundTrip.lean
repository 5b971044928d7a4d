import AnkiDrive.LocalName

/-! What a vehicle advertises arrives: whatever the order of its five records and however
they are cut into packets, the struct ends up holding the values that were sent. -/
namespace AnkiDrive
open CModel

/-- The values a vehicle advertises. The three state bits are sent in one byte, and the
name has room for a terminating zero. -/
structure Advertisement where
  flags : UInt8
  txPower : UInt8
  mfgData : AdvMfg
  state : UInt8
  version : UInt16
  reserved : List UInt8
  name : List UInt8
  filled : reserved.length = AnkiVehicleAdvInfo.reserved.size
  named : 1 ≤ name.length
  terminated : name.length < AnkiVehicleAdvInfo.name.size

namespace Advertisement

variable (v : Advertisement)

def flagsRecord : Record := ⟨advTypeFlags, [v.flags], by decide, by simp⟩

def txPowerRecord : Record := ⟨advTypeTxPower, [v.txPower], by decide, by simp⟩

def mfgDataRecord : Record where
  type := advTypeManufacturerData
  payload := be16 v.mfgData.productId ++ [v.mfgData.reserved, v.mfgData.modelId] ++
    be32 v.mfgData.identifier
  typed := by decide
  short := by simp [be16, be32, le16, le32]

theorem localName_length :
    (v.state :: (le16 v.version ++ v.reserved ++ v.name)).length = 8 + v.name.length := by
  have filled := v.filled
  simp only [AnkiVehicleAdvInfo.reserved] at filled
  simp [le16, filled]
  omega

theorem localName_short : (v.state :: (le16 v.version ++ v.reserved ++ v.name)).length ≤ 254 := by
  have terminated := v.terminated
  simp only [AnkiVehicleAdvInfo.name] at terminated
  rw [localName_length]
  omega

def localNameRecord : Record where
  type := advTypeLocalName
  payload := v.state :: (le16 v.version ++ v.reserved ++ v.name)
  typed := by decide
  short := v.localName_short

def records : List Record :=
  [v.flagsRecord, ankiUuidRecord, v.mfgDataRecord, v.localNameRecord, v.txPowerRecord]

def localName : AdvInfo where
  state := {
    fullBattery := v.state.toBitVec.getLsbD 4
    lowBattery := v.state.toBitVec.getLsbD 5
    onCharger := v.state.toBitVec.getLsbD 6 }
  version := v.version
  name := v.name ++ List.replicate (AnkiVehicleAdvInfo.name.size - v.name.length) 0

theorem localName_fits : v.localNameRecord.payload.length ≤ 8 + AnkiVehicleAdvInfo.name.size :=
  v.localName_length ▸ Nat.add_le_add_left (Nat.le_of_lt v.terminated) 8

theorem records_fit : ∀ r ∈ v.records, Fits r := by
  simp only [records, List.forall_mem_cons, fits_iff]
  exact ⟨rfl, rfl, rfl, decide_eq_true v.localName_fits, rfl, by simp⟩

theorem records_accepted : ∀ r ∈ v.records, abortCode r.type r.payload = none := by
  simp only [records, List.forall_mem_cons]
  exact ⟨rfl, rfl, rfl, rfl, rfl, by simp⟩

theorem records_types : (v.records.map Record.type).Nodup := by
  have types : v.records.map Record.type = [advTypeFlags, advTypeUuid128, advTypeManufacturerData,
    advTypeLocalName, advTypeTxPower] := rfl
  rw [types]
  decide

theorem records_comm : ∀ r ∈ v.records, ∀ s ∈ v.records, ∀ m,
    handle (handle m r) s = handle (handle m s) r := by
  intro r hr s hs m
  rcases eq_or_ne r s with rfl | other
  · rfl
  · have types : r.type ≠ s.type := fun equal =>
      other (List.inj_on_of_nodup_map v.records_types hr hs equal)
    exact handle_comm (v.records_fit r hr) (v.records_fit s hs) types m

theorem flags_read (m : Memory) : flagsOf (handle m v.flagsRecord) = v.flags := by
  rw [handle_kind (k := .flags) rfl]
  exact (congrFun (Patch.apply_write 0 [v.flags] m) 0).trans (by simp [Memory.write])

theorem txPower_read (m : Memory) : txPowerOf (handle m v.txPowerRecord) = v.txPower := by
  rw [handle_kind (k := .txPower) rfl]
  exact (congrFun (Patch.apply_write 1 [v.txPower] m) 1).trans (by simp [Memory.write])

theorem serviceId_read (m : Memory) : serviceIdOf (handle m ankiUuidRecord) = ankiServiceUuidLE := by
  rw [handle_kind (k := .uuid128) rfl]
  exact (congrArg serviceIdOf (Patch.apply_write _ ankiServiceUuidLE m)).trans
    (Memory.slice_write_same m _ ankiServiceUuidLE)

theorem mfgData_read (m : Memory) : mfgDataOf (handle m v.mfgDataRecord) = v.mfgData := by
  have patch : Kind.manufacturerData.patch v.mfgDataRecord.payload =
      Patch.write AnkiVehicleAdv.mfgData.offset (le32 v.mfgData.identifier ++
        [v.mfgData.modelId, v.mfgData.reserved] ++ le16 v.mfgData.productId) := rfl
  rw [handle_kind (k := .manufacturerData) rfl, patch, Patch.apply_write]
  simp [mfgDataOf, advMfgAt, Memory.load32, Memory.load16, Memory.write, le32, le16, word32_le32,
    word16_le16, AnkiVehicleAdv.mfgData, AnkiVehicleAdvMfg.identifier, AnkiVehicleAdvMfg.modelId,
    AnkiVehicleAdvMfg.reserved, AnkiVehicleAdvMfg.productId]

theorem localName_read (m : Memory) : localNameOf (handle m v.localNameRecord) = v.localName := by
  have read := localNamePatch_read AnkiVehicleAdv.localName.offset v.localName_fits m
  have long : 8 < v.localNameRecord.payload.length :=
    v.localName_length ▸ Nat.lt_add_of_pos_right v.named
  have filled := v.filled
  simp only [AnkiVehicleAdvInfo.reserved] at filled
  have name : v.localNameRecord.payload.drop 8 = v.name := by
    have front : v.localNameRecord.payload = (v.state :: (le16 v.version ++ v.reserved)) ++ v.name := by
      simp [localNameRecord]
    rw [front, List.drop_left' (by simp [le16, filled])]
  have size : v.localNameRecord.payload.length - 8 = v.name.length :=
    v.localName_length ▸ Nat.add_sub_cancel_left 8 v.name.length
  have written : handle m v.localNameRecord =
      (localNamePatch AnkiVehicleAdv.localName.offset v.localNameRecord.payload).apply m :=
    handle_kind (k := .localName) rfl m
  have version : ∀ old, heardVersion old (le16 v.version ++ v.reserved ++ v.name) = v.version :=
    fun _ => word16_le16 v.version
  have heard : ∀ old, heardName old v.localNameRecord.payload = v.localName.name := by
    intro old
    simp only [heardName, if_pos long, name, size, localName]
  rw [written]
  exact read.trans ((AdvInfo.mk.injEq ..).mpr ⟨rfl, version _, heard _⟩)

end Advertisement

theorem handled_cut {ps : List Packet} {cut : List (List Record)}
    (packets : ps.map Packet.bytes = cut.map encode)
    (goes : ∀ r ∈ cut.flatten, abortCode r.type r.payload = none) : handled ps = cut.flatten := by
  induction ps generalizing cut with
  | nil =>
    cases cut with
    | nil => rfl
    | cons c cut => cases packets
  | cons p ps ih =>
    cases cut with
    | nil => cases packets
    | cons c cut =>
      obtain ⟨first, rest⟩ := List.cons.inj packets
      have here := accepted_eq_self.mpr fun r hr => goes r (List.mem_append_left _ hr)
      have later := ih rest fun r hr => goes r (List.mem_append_right c hr)
      rw [List.flatten_cons, ← later, ← here, ← Packet.records_encode first]
      rfl

theorem last_code_zero {ps : List Packet} {adv : Memory} (heard : ps ≠ [])
    (goes : ∀ p ∈ ps, ∀ r ∈ p.records, abortCode r.type r.payload = none)
    (anki : serviceIdOf (parsePackets ps adv).2 = ankiServiceUuidLE) :
    (parsePackets ps adv).1.getLast? = some 0 := by
  obtain ⟨before, p, rfl⟩ := (List.eq_nil_or_concat ps).resolve_left heard
  rw [List.concat_eq_append] at goes anki ⊢
  rw [parsePackets_append] at anki
  have zero : (parsePacket p (parsePackets before adv).2).1 = 0 := by
    rw [parsePacket_eq, parseRecords_eq_zero_iff, ← parsePacket_eq]
    exact ⟨goes p (by simp), anki⟩
  rw [parsePackets_codes_append]
  simp [parsePackets, zero]

/-- Decoding undoes encoding, for every order of the records and every cut. -/
theorem parse_advertisement (v : Advertisement) {cut : List (List Record)} {ps : List Packet}
    (order : cut.flatten.Perm v.records) (packets : ps.map Packet.bytes = cut.map encode)
    (adv : Memory) :
    (parsePackets ps adv).1.getLast? = some 0 ∧
      flagsOf (parsePackets ps adv).2 = v.flags ∧
      txPowerOf (parsePackets ps adv).2 = v.txPower ∧
      mfgDataOf (parsePackets ps adv).2 = v.mfgData ∧
      localNameOf (parsePackets ps adv).2 = v.localName ∧
      serviceIdOf (parsePackets ps adv).2 = ankiServiceUuidLE := by
  have goes : ∀ r ∈ cut.flatten, abortCode r.type r.payload = none :=
    fun r hr => v.records_accepted r (order.mem_iff.mp hr)
  have all := handled_cut packets goes
  have last : ∀ r ∈ v.records, ∃ m, (parsePackets ps adv).2 = handle m r := by
    intro r hr
    rw [parsePackets_handled, all]
    refine foldl_last_of_mem handle (order.mem_iff.mpr hr) ?_ adv
    exact fun s hs t ht => v.records_comm s (order.mem_iff.mp hs) t (order.mem_iff.mp ht)
  obtain ⟨_, flags⟩ := last v.flagsRecord (by simp [Advertisement.records])
  obtain ⟨_, uuid⟩ := last ankiUuidRecord (by simp [Advertisement.records])
  obtain ⟨_, mfgData⟩ := last v.mfgDataRecord (by simp [Advertisement.records])
  obtain ⟨_, localName⟩ := last v.localNameRecord (by simp [Advertisement.records])
  obtain ⟨_, txPower⟩ := last v.txPowerRecord (by simp [Advertisement.records])
  have anki : serviceIdOf (parsePackets ps adv).2 = ankiServiceUuidLE := by
    rw [uuid]
    exact Advertisement.serviceId_read _
  refine ⟨?_, ?_, ?_, ?_, ?_, anki⟩
  · refine last_code_zero ?_ ?_ anki
    · rintro rfl
      have size := order.length_eq
      rw [← all] at size
      cases size
    · intro p hp r hr
      have piece : p.bytes ∈ cut.map encode := packets ▸ List.mem_map_of_mem hp
      obtain ⟨c, hc, held⟩ := List.mem_map.mp piece
      rw [Packet.records_encode held.symm] at hr
      exact goes r (List.mem_flatten_of_mem hc hr)
  · rw [flags]
    exact v.flags_read _
  · rw [txPower]
    exact v.txPower_read _
  · rw [mfgData]
    exact v.mfgData_read _
  · rw [localName]
    exact v.localName_read _

def advData : Advertisement where
  flags := 0x06
  txPower := 0x00
  mfgData := ⟨0x00e00aa3, 0x01, 0x00, 0xbeef⟩
  state := 0x50
  version := 0x2120
  reserved := [0x01, 0x20, 0x20, 0x5a, 0x39]
  name := [0x41, 0x41, 0x33, 0x20, 0x54, 0x4f, 0x4d, 0x4d, 0x59, 0x00]
  filled := by decide
  named := by decide
  terminated := by decide

def adv0 : List Record := [advData.flagsRecord, ankiUuidRecord, advData.mfgDataRecord]

def adv1 : List Record := [advData.localNameRecord, advData.txPowerRecord]

example : encode adv1 =
    [0x13, 0x09, 0x50, 0x20, 0x21, 0x01, 0x20, 0x20, 0x5a, 0x39, 0x41, 0x41, 0x33, 0x20, 0x54, 0x4f,
      0x4d, 0x4d, 0x59, 0x00, 0x02, 0x0a, 0x00] := by
  decide

theorem adv_data_parsed :
    let ps := [Packet.ofRecords adv0, Packet.ofRecords adv1]
    (parsePackets ps (fun _ => 0xaa)).1.getLast? = some 0 ∧
      flagsOf (parsePackets ps (fun _ => 0xaa)).2 = advData.flags ∧
      txPowerOf (parsePackets ps (fun _ => 0xaa)).2 = advData.txPower ∧
      mfgDataOf (parsePackets ps (fun _ => 0xaa)).2 = advData.mfgData ∧
      localNameOf (parsePackets ps (fun _ => 0xaa)).2 = advData.localName ∧
      serviceIdOf (parsePackets ps (fun _ => 0xaa)).2 = ankiServiceUuidLE := by
  have order : [adv0, adv1].flatten.Perm advData.records := List.Perm.refl _
  exact parse_advertisement advData order (by simp) _

end AnkiDrive
