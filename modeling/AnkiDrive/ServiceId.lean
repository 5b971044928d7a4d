import AnkiDrive.Footprint

/-! The service id over whole runs. The other records leave it alone, so it is a
16-byte value that each service UUID record lays its payload over. Only the length of
a payload is checked before it is laid down, and only when it is 16. -/
namespace AnkiDrive
open CModel

def heardId (id : List UInt8) (r : Record) : List UInt8 :=
  if r.type = advTypeUuid128 then r.payload ++ id.drop r.payload.length else id

theorem serviceId_handle {r : Record} (fits : Fits r) (m : Memory) :
    serviceIdOf (handle m r) = heardId (serviceIdOf m) r := by
  unfold heardId
  split
  · rename_i uuid
    have known := kindOf_uuid128.mpr uuid
    have laid : handle m r = m.write AnkiVehicleAdv.serviceId.offset r.payload :=
      (handle_kind known m).trans (Patch.apply_write _ _ m)
    rw [laid]
    exact Memory.slice_write_front m _ _ _ (fits .uuid128 known)
  · rename_i other
    apply slice_congr
    intro a lo hi
    have untouched : (recordPatch r.type r.payload).Leaves a := by
      apply record_leaves fits
      intro k known
      apply fields_apart (j := .uuid128) _ ⟨lo, hi⟩
      rintro rfl
      exact other (kindOf_uuid128.mp known)
    exact Patch.apply_leaves untouched m

theorem serviceId_run {rs : List Record} (fits : ∀ r ∈ rs, Fits r) (m : Memory) :
    serviceIdOf (rs.foldl handle m) = rs.foldl heardId (serviceIdOf m) := by
  induction rs generalizing m with
  | nil => rfl
  | cons r rs ih =>
    have here := serviceId_handle (fits r List.mem_cons_self) m
    rw [List.foldl_cons, List.foldl_cons, ← here]
    exact ih (fun s hs => fits s (List.mem_cons_of_mem r hs)) _

theorem serviceId_zeroed {adv : Memory} (zeroed : ∀ a < AnkiVehicleAdv.size, adv a = 0) :
    serviceIdOf adv = List.replicate uuid128Size 0 :=
  slice_eq_replicate fun i hi => zeroed _ (by
    have size : i < 16 := hi
    simp only [AnkiVehicleAdv.serviceId, AnkiVehicleAdv.size]
    omega)

theorem payload_le {r : Record} (fits : Fits r) (uuid : r.type = advTypeUuid128) :
    r.payload.length ≤ uuid128Size :=
  fits .uuid128 (kindOf_uuid128.mpr uuid)

theorem handled_uuid {r : Record} (goes : abortCode r.type r.payload = none)
    (uuid : r.type = advTypeUuid128) (full : r.payload.length = uuid128Size) :
    r.payload = ankiServiceUuidLE := by
  by_contra other
  exact (abortCode_eq_none_iff.mp goes).2 ⟨uuid, full, other⟩

def EmptyOrAnki (id : List UInt8) : Prop :=
  id = List.replicate uuid128Size 0 ∨ id = ankiServiceUuidLE

instance : DecidablePred EmptyOrAnki := fun _ => inferInstanceAs (Decidable (_ ∨ _))

/-- A service UUID that does no harm to the id it is laid over: it is a whole one, or
repeats what the id begins with. -/
def BenignOver (id : List UInt8) (r : Record) : Prop :=
  r.type = advTypeUuid128 → r.payload.length = uuid128Size ∨ r.payload <+: id

def Benign : List Record → List UInt8 → Prop
  | [], _ => True
  | r :: rs, id => BenignOver id r ∧ Benign rs (heardId id r)

instance (id : List UInt8) : DecidablePred (BenignOver id) :=
  fun _ => inferInstanceAs (Decidable (_ → _))

instance decidableBenign : ∀ rs id, Decidable (Benign rs id)
  | [], _ => isTrue trivial
  | r :: rs, id =>
    have := decidableBenign rs (heardId id r)
    inferInstanceAs (Decidable (_ ∧ _))

theorem heardId_last {id : List UInt8} {r : Record}
    (short : r.type = advTypeUuid128 → r.payload.length < uuid128Size) :
    (heardId id r).drop 15 = id.drop 15 := by
  unfold heardId
  split
  · rename_i uuid
    have size := short uuid
    simp only [uuid128Size] at size
    rw [List.drop_append, List.drop_of_length_le (by omega), List.nil_append, List.drop_drop,
      Nat.add_sub_cancel' (by omega)]
  · rfl

theorem emptyOrAnki_length {id : List UInt8} (held : EmptyOrAnki id) : id.length = uuid128Size := by
  rcases held with rfl | rfl <;> rfl

theorem heardId_benign {id : List UInt8} {r : Record} (size : id.length = uuid128Size)
    (goes : abortCode r.type r.payload = none) (benign : BenignOver id r) :
    heardId id r = id ∨ heardId id r = ankiServiceUuidLE := by
  unfold heardId
  split
  · rename_i uuid
    rcases benign uuid with full | repeats
    · right
      rw [full, ← size, List.drop_length, List.append_nil]
      exact handled_uuid goes uuid full
    · left
      exact List.prefix_iff_eq_append.mp repeats
  · exact Or.inl rfl

theorem heardId_emptyOrAnki_iff {id : List UInt8} {r : Record} (held : EmptyOrAnki id)
    (fits : Fits r) (goes : abortCode r.type r.payload = none) :
    EmptyOrAnki (heardId id r) ↔ BenignOver id r := by
  constructor
  · intro after uuid
    by_cases full : r.payload.length = uuid128Size
    · exact Or.inl full
    · have size := payload_le fits uuid
      have last : (heardId id r).drop 15 = id.drop 15 := heardId_last fun _ => by omega
      have same : heardId id r = id := by
        rcases held with rfl | rfl <;> rcases after with after | after <;> rw [after] at last ⊢
        · exact absurd last (by decide)
        · exact absurd last (by decide)
      rw [heardId, if_pos uuid] at same
      exact Or.inr (List.prefix_iff_eq_append.mpr same)
  · intro benign
    rcases heardId_benign (emptyOrAnki_length held) goes benign with same | anki
    · rw [same]
      exact held
    · exact Or.inr anki

theorem foldl_benign {rs : List Record} {id : List UInt8}
    (goes : ∀ r ∈ rs, abortCode r.type r.payload = none) (benign : Benign rs id)
    (held : EmptyOrAnki id) :
    EmptyOrAnki (rs.foldl heardId id) ∧
      (id = ankiServiceUuidLE → rs.foldl heardId id = ankiServiceUuidLE) := by
  induction rs generalizing id with
  | nil => exact ⟨held, fun anki => anki⟩
  | cons r rs ih =>
    obtain ⟨first, rest⟩ := benign
    have here := heardId_benign (emptyOrAnki_length held) (goes r List.mem_cons_self) first
    have after : EmptyOrAnki (heardId id r) := by
      rcases here with same | anki
      · exact same.symm ▸ held
      · exact Or.inr anki
    have tail := ih (fun s hs => goes s (List.mem_cons_of_mem r hs)) rest after
    refine ⟨tail.1, fun anki => tail.2 ?_⟩
    rcases here with same | whole
    · exact same.trans anki
    · exact whole

theorem benign_iff {rs : List Record} {id : List UInt8} (held : EmptyOrAnki id)
    (fits : ∀ r ∈ rs, Fits r) (goes : ∀ r ∈ rs, abortCode r.type r.payload = none) :
    Benign rs id ↔ ∀ ss, ss <+: rs → EmptyOrAnki (ss.foldl heardId id) := by
  induction rs generalizing id with
  | nil =>
    constructor
    · intro _ ss front
      rw [List.prefix_nil.mp front]
      exact held
    · exact fun _ => trivial
  | cons r rs ih =>
    have first := heardId_emptyOrAnki_iff held (fits r List.mem_cons_self) (goes r List.mem_cons_self)
    have rest := fun after : EmptyOrAnki (heardId id r) =>
      ih after (fun s hs => fits s (List.mem_cons_of_mem r hs))
        (fun s hs => goes s (List.mem_cons_of_mem r hs))
    constructor
    · rintro ⟨here, later⟩ ss front
      have after := first.mpr here
      cases ss with
      | nil => exact held
      | cons s ss =>
        obtain ⟨rfl, tail⟩ := List.cons_prefix_cons.mp front
        exact (rest after).mp later ss tail
    · intro way
      have after : EmptyOrAnki (heardId id r) :=
        way [r] (List.cons_prefix_cons.mpr ⟨rfl, List.nil_prefix⟩)
      refine ⟨first.mp after, (rest after).mpr fun ss front => ?_⟩
      exact way (r :: ss) (List.cons_prefix_cons.mpr ⟨rfl, front⟩)

theorem benign_append {rs ss : List Record} {id : List UInt8} :
    Benign (rs ++ ss) id ↔ Benign rs id ∧ Benign ss (rs.foldl heardId id) := by
  induction rs generalizing id with
  | nil => simp [Benign]
  | cons r rs ih => simp only [List.cons_append, Benign, ih, List.foldl_cons, and_assoc]

/-- From a struct full of zeros: the service id is empty or Anki's after every record
exactly when every service UUID is benign where it is handled, and then it is so after every
call, and Anki's for good once it is Anki's. -/
theorem service_id_empty_or_anki {ps : List Packet} {adv : Memory}
    (zeroed : ∀ a < AnkiVehicleAdv.size, adv a = 0) (fits : ∀ p ∈ ps, ∀ r ∈ p.records, Fits r) :
    (Benign (handled ps) (serviceIdOf adv) ↔
      ∀ rs, rs <+: handled ps → EmptyOrAnki (serviceIdOf (rs.foldl handle adv))) ∧
    (Benign (handled ps) (serviceIdOf adv) → ∀ before after, ps = before ++ after →
      EmptyOrAnki (serviceIdOf (parsePackets before adv).2) ∧
      (serviceIdOf (parsePackets before adv).2 = ankiServiceUuidLE →
        serviceIdOf (parsePackets ps adv).2 = ankiServiceUuidLE)) := by
  have empty : EmptyOrAnki (serviceIdOf adv) := Or.inl (serviceId_zeroed zeroed)
  have all : ∀ r ∈ handled ps, Fits r ∧ abortCode r.type r.payload = none := by
    intro r member
    obtain ⟨p, hp, hr, goes⟩ := mem_handled member
    exact ⟨fits p hp r hr, goes⟩
  constructor
  · rw [benign_iff empty (fun r hr => (all r hr).1) (fun r hr => (all r hr).2)]
    refine forall₂_congr fun rs front => ?_
    rw [serviceId_run (fun r hr => (all r (front.subset hr)).1)]
  · rintro benign before after rfl
    rw [handled_append] at benign all
    obtain ⟨first, rest⟩ := benign_append.mp benign
    have front : ∀ r ∈ handled before, Fits r ∧ abortCode r.type r.payload = none :=
      fun r hr => all r (List.mem_append_left _ hr)
    have back : ∀ r ∈ handled after, Fits r ∧ abortCode r.type r.payload = none :=
      fun r hr => all r (List.mem_append_right _ hr)
    have reached := (foldl_benign (fun r hr => (front r hr).2) first empty).1
    have stays := (foldl_benign (fun r hr => (back r hr).2) rest reached).2
    rw [parsePackets_append, parsePackets_handled before, parsePackets_handled after,
      serviceId_run (fun r hr => (back r hr).1), serviceId_run (fun r hr => (front r hr).1)]
    exact ⟨reached, stays⟩

theorem repeated_uuid_keeps_service_id :
    let ps := [Packet.ofRecords [ankiUuidRecord], Packet.ofRecords [ankiUuidRecord]]
    ∀ before after, ps = before ++ after →
      EmptyOrAnki (serviceIdOf (parsePackets before (fun _ => 0)).2) ∧
      (serviceIdOf (parsePackets before (fun _ => 0)).2 = ankiServiceUuidLE →
        serviceIdOf (parsePackets ps (fun _ => 0)).2 = ankiServiceUuidLE) := by
  intro ps
  have fits : ∀ p ∈ ps, ∀ r ∈ p.records, Fits r := by
    simp only [ps, List.forall_mem_cons, Packet.ofRecords_records]
    decide
  have benign : Benign (handled ps) (serviceIdOf fun _ => 0) := by
    simp only [ps, handled, List.flatMap_cons, Packet.ofRecords_records]
    decide
  exact (service_id_empty_or_anki (fun _ _ => rfl) fits).2 benign

/-- Two bytes of a service UUID make the vehicle stop being Anki's. -/
theorem short_uuid_overwrites_service_id :
    let ps := [Packet.ofRecords [ankiUuidRecord],
      Packet.ofRecords [⟨advTypeUuid128, [0xaa, 0xbb], by decide, by decide⟩]]
    (∀ p ∈ ps, ∀ r ∈ p.records, Fits r) ∧ (parsePackets ps (fun _ => 0)).1 = [0, 2] ∧
      ¬ EmptyOrAnki (serviceIdOf (parsePackets ps (fun _ => 0)).2) := by
  refine ⟨?_, by decide +kernel, by decide +kernel⟩
  simp only [List.forall_mem_cons, Packet.ofRecords_records]
  decide

theorem foldl_last {rs : List Record} (id : List UInt8) (fits : ∀ r ∈ rs, Fits r)
    (goes : ∀ r ∈ rs, abortCode r.type r.payload = none) (unheard : ∀ r ∈ rs, ¬ AnkiUuid r) :
    (rs.foldl heardId id).drop 15 = id.drop 15 := by
  induction rs generalizing id with
  | nil => rfl
  | cons r rs ih =>
    have short : r.type = advTypeUuid128 → r.payload.length < uuid128Size := by
      intro uuid
      have size := payload_le (fits r List.mem_cons_self) uuid
      have part : r.payload.length ≠ uuid128Size := fun full =>
        unheard r List.mem_cons_self ⟨uuid, handled_uuid (goes r List.mem_cons_self) uuid full⟩
      omega
    rw [List.foldl_cons, ih _ (fun s hs => fits s (List.mem_cons_of_mem r hs))
      (fun s hs => goes s (List.mem_cons_of_mem r hs))
      (fun s hs => unheard s (List.mem_cons_of_mem r hs)), heardId_last short]

theorem serviceId_heard {ps : List Packet} {adv : Memory}
    (zeroed : ∀ a < AnkiVehicleAdv.size, adv a = 0) (fits : ∀ p ∈ ps, ∀ r ∈ p.records, Fits r)
    (found : serviceIdOf (parsePackets ps adv).2 = ankiServiceUuidLE) :
    ∃ p ∈ ps, ∃ r ∈ p.records, AnkiUuid r := by
  by_contra unheard
  have all : ∀ r ∈ handled ps,
      Fits r ∧ abortCode r.type r.payload = none ∧ ¬ AnkiUuid r := by
    intro r member
    obtain ⟨p, hp, hr, goes⟩ := mem_handled member
    exact ⟨fits p hp r hr, goes, fun anki => unheard ⟨p, hp, r, hr, anki⟩⟩
  have last := foldl_last (serviceIdOf adv) (fun r hr => (all r hr).1) (fun r hr => (all r hr).2.1)
    (fun r hr => (all r hr).2.2)
  rw [← serviceId_run (fun r hr => (all r hr).1), ← parsePackets_handled, found,
    serviceId_zeroed zeroed] at last
  exact absurd last (by decide)

/-- A call returns 0 only if Anki's service UUID was heard in it or before it. -/
theorem success_needs_anki_uuid {ps : List Packet} {adv : Memory} {i : Nat}
    (zeroed : ∀ a < AnkiVehicleAdv.size, adv a = 0) (fits : ∀ p ∈ ps, ∀ r ∈ p.records, Fits r)
    (found : (parsePackets ps adv).1[i]? = some 0) :
    ∃ p ∈ ps.take (i + 1), ∃ r ∈ p.records, AnkiUuid r := by
  rw [parsePackets_code, Option.map_eq_some_iff] at found
  obtain ⟨p, here, zero⟩ := found
  rw [parsePacket_eq, parseRecords_eq_zero_iff] at zero
  have upto : ps.take (i + 1) = ps.take i ++ [p] := by
    rw [List.take_add_one, here, Option.toList_some]
  have after : (parsePackets (ps.take (i + 1)) adv).2 =
      (parseRecords p.records (parsePackets (ps.take i) adv).2).2 := by
    rw [upto, parsePackets_append, ← parsePacket_eq]
    rfl
  refine serviceId_heard zeroed (fun q hq => fits q (List.mem_of_mem_take hq)) ?_
  rw [after]
  exact zero.2

theorem uuid_before_name_recognised :
    let name : Record := ⟨advTypeLocalName, [0x50, 0x20, 0x21], by decide, by decide⟩
    let ps := [Packet.ofRecords [ankiUuidRecord], Packet.ofRecords [name]]
    ∃ p ∈ ps.take 2, ∃ r ∈ p.records, AnkiUuid r := by
  intro name ps
  have fits : ∀ p ∈ ps, ∀ r ∈ p.records, Fits r := by
    simp only [ps, List.forall_mem_cons, Packet.ofRecords_records]
    decide
  have found : (parsePackets ps (fun _ => 0)).1[1]? = some 0 := by decide +kernel
  exact success_needs_anki_uuid (fun _ _ => rfl) fits found

end AnkiDrive
