import AnkiDrive.ServiceId

/-! Asking whether a packet is a vehicle's. With NULL for the struct the loop ends at
the first record that is of an unknown type or a service UUID of whatever length, and
sees nothing of what stands behind it. -/
namespace AnkiDrive
open CModel

def Decides (r : Record) : Prop := UnknownType r ∨ r.type = advTypeUuid128

/-- A service UUID record whose payload has another length than a UUID. -/
def OddUuid (r : Record) : Prop := r.type = advTypeUuid128 ∧ r.payload.length ≠ uuid128Size

instance : DecidablePred Decides := fun _ => inferInstanceAs (Decidable (_ ∨ _))

instance : DecidablePred OddUuid := fun _ => inferInstanceAs (Decidable (_ ∧ _))

def firstDeciding (rs : List Record) : Option Record := rs.find? (fun r => decide (Decides r))

theorem query_cons {r : Record} {rs : List Record} :
    queryRecords (r :: rs) =
      if Decides r then (abortCode r.type r.payload).getD 0 else queryRecords rs := by
  cases outcome : abortCode r.type r.payload with
  | some code =>
    have decides : Decides r := by
      by_contra other
      have unknown : ¬ UnknownType r := fun u => other (Or.inl u)
      have foreign : ¬ ForeignUuid r := fun f => other (Or.inr f.1)
      rw [abortCode_eq_none_iff.mpr ⟨unknown, foreign⟩] at outcome
      cases outcome
    simp only [queryRecords, outcome, if_pos decides, Option.getD_some]
  | none =>
    have known := (abortCode_eq_none_iff.mp outcome).1
    have uuid : Decides r ↔ r.type = advTypeUuid128 := ⟨fun d => d.resolve_left known, Or.inr⟩
    simp only [queryRecords, outcome, kindOf_uuid128, uuid, Option.getD_none]

theorem query_eq_zero_iff {rs : List Record} :
    queryRecords rs = 0 ↔
      ∃ r, firstDeciding rs = some r ∧ ¬ UnknownType r ∧ ¬ ForeignUuid r := by
  induction rs with
  | nil => simp [queryRecords, firstDeciding]
  | cons r rs ih =>
    rw [query_cons]
    by_cases decides : Decides r
    · have found : firstDeciding (r :: rs) = some r := by simp [firstDeciding, decides]
      simp only [found, if_pos decides, Option.some.injEq, exists_eq_left', ← abortCode_eq_none_iff]
      cases outcome : abortCode r.type r.payload with
      | none => simp
      | some code =>
        have code : code ≠ 0 := fun zero => abortCode_ne_zero r (zero ▸ outcome)
        simpa using code
    · have later : firstDeciding (r :: rs) = firstDeciding rs := by simp [firstDeciding, decides]
      rw [if_neg decides, later, ih]

theorem hasAnkiUuid_eq_one_iff (p : Packet) :
    ankiVehicleAdvRecordHasAnkiUuid (some p.data) p.len = 1 ↔ queryPacket p = 0 := by
  unfold ankiVehicleAdvRecordHasAnkiUuid
  split
  · rename_i zero
    exact ⟨fun _ => zero, fun _ => rfl⟩
  · rename_i other
    exact ⟨fun one => absurd one (by decide), fun zero => absurd zero other⟩

theorem decides_cases {r : Record} (decides : Decides r) :
    UnknownType r ∨ ForeignUuid r ∨ AnkiUuid r ∨ OddUuid r := by
  rcases decides with unknown | uuid
  · exact Or.inl unknown
  · by_cases full : r.payload.length = uuid128Size
    · by_cases anki : r.payload = ankiServiceUuidLE
      · exact Or.inr (Or.inr (Or.inl ⟨uuid, anki⟩))
      · exact Or.inr (Or.inl ⟨uuid, full, anki⟩)
    · exact Or.inr (Or.inr (Or.inr ⟨uuid, full⟩))

theorem known_uuid {r : Record} (uuid : r.type = advTypeUuid128) : ¬ UnknownType r := by
  intro unknown
  have known := kindOf_uuid128.mpr uuid
  rw [unknown] at known
  cases known

/-- The packets the test judges rightly, by the record that decides it: one that ends the
parse must not hide a service UUID of Anki's, and one of an odd length, which passes for
Anki's, must stand in for one. -/
def TestExact (rs : List Record) : Prop :=
  ∀ r, firstDeciding rs = some r →
    (UnknownType r ∨ ForeignUuid r → ∀ s ∈ rs, ¬ AnkiUuid s) ∧
    (OddUuid r → ∃ s ∈ rs, AnkiUuid s)

/-- The vehicle test finds Anki's service UUID exactly in these packets. -/
theorem vehicle_test_exact_iff (p : Packet) :
    (ankiVehicleAdvRecordHasAnkiUuid (some p.data) p.len = 1 ↔ ∃ r ∈ p.records, AnkiUuid r) ↔
      TestExact p.records := by
  rw [hasAnkiUuid_eq_one_iff, queryPacket_eq, query_eq_zero_iff, TestExact]
  cases found : firstDeciding p.records with
  | none =>
    have unheard : ¬ ∃ r ∈ p.records, AnkiUuid r := by
      rintro ⟨r, member, anki⟩
      have undecided := List.find?_eq_none.mp found r member
      exact undecided (decide_eq_true (Or.inr anki.1))
    simp [unheard]
  | some r =>
    have member := List.mem_of_find?_eq_some found
    have decides : Decides r := by
      unfold firstDeciding at found
      simpa using List.find?_some found
    simp only [Option.some.injEq, exists_eq_left', forall_eq']
    rcases decides_cases decides with unknown | foreign | anki | odd
    · have even : ¬ OddUuid r := fun odd => known_uuid odd.1 unknown
      simp [unknown, even]
    · have even : ¬ OddUuid r := fun odd => odd.2 foreign.2.1
      simp [foreign, even]
    · have known := known_uuid anki.1
      have own : ¬ ForeignUuid r := fun foreign => foreign.2.2 anki.2
      have even : ¬ OddUuid r := fun odd => odd.2 (anki.2 ▸ rfl)
      have heard : ∃ s ∈ p.records, AnkiUuid s := ⟨r, member, anki⟩
      simp [known, own, even, heard]
    · have known := known_uuid odd.1
      have own : ¬ ForeignUuid r := fun foreign => odd.2 foreign.2.1
      simp [known, own, odd]

/-- Two bytes that are no UUID at all pass for Anki's. -/
theorem short_uuid_passes_for_anki :
    let p := Packet.ofRecords [⟨advTypeUuid128, [0xaa, 0xbb], by decide, by decide⟩]
    ankiVehicleAdvRecordHasAnkiUuid (some p.data) p.len = 1 ∧ ¬ ∃ r ∈ p.records, AnkiUuid r := by
  refine ⟨by decide +kernel, ?_⟩
  rw [Packet.ofRecords_records]
  decide

/-- The records behind the first service UUID, which a query does not see. -/
def behindUuid (rs : List Record) : List Record :=
  (rs.dropWhile (fun r => decide (r.type ≠ advTypeUuid128))).tail

theorem foldl_whole {rs : List Record} {id : List UInt8} (size : id.length = uuid128Size)
    (whole : ∀ r ∈ rs, r.type = advTypeUuid128 → r.payload.length = uuid128Size)
    (goes : ∀ r ∈ rs, abortCode r.type r.payload = none) :
    rs.foldl heardId id = ankiServiceUuidLE ↔
      id = ankiServiceUuidLE ∨ ∃ r ∈ rs, AnkiUuid r := by
  induction rs generalizing id with
  | nil => simp
  | cons r rs ih =>
    have later := fun id size => @ih id size (fun s hs => whole s (List.mem_cons_of_mem r hs))
      (fun s hs => goes s (List.mem_cons_of_mem r hs))
    by_cases uuid : r.type = advTypeUuid128
    · have full := whole r List.mem_cons_self uuid
      have anki := handled_uuid (goes r List.mem_cons_self) uuid full
      have laid : heardId id r = ankiServiceUuidLE := by
        rw [heardId, if_pos uuid, full, ← size, List.drop_length, List.append_nil, anki]
      have own : AnkiUuid r := ⟨uuid, anki⟩
      rw [List.foldl_cons, laid, later ankiServiceUuidLE rfl]
      simp [own]
    · have kept : heardId id r = id := if_neg uuid
      have other : ¬ AnkiUuid r := fun anki => uuid anki.1
      rw [List.foldl_cons, kept, later id size]
      simp [other]

theorem query_zero_behind_iff {rs : List Record}
    (whole : ∀ r ∈ rs, r.type = advTypeUuid128 → r.payload.length = uuid128Size) :
    (queryRecords rs = 0 ∧ ∀ r ∈ behindUuid rs, ¬ UnknownType r ∧ ¬ ForeignUuid r) ↔
      (∀ r ∈ rs, abortCode r.type r.payload = none) ∧ ∃ r ∈ rs, AnkiUuid r := by
  induction rs with
  | nil => simp [queryRecords]
  | cons r rs ih =>
    have later := ih (fun s hs => whole s (List.mem_cons_of_mem r hs))
    cases outcome : abortCode r.type r.payload with
    | some code =>
      have code : code ≠ 0 := fun zero => abortCode_ne_zero r (zero ▸ outcome)
      simp [queryRecords, outcome, code]
    | none =>
      by_cases uuid : r.type = advTypeUuid128
      · have anki := handled_uuid outcome uuid (whole r List.mem_cons_self uuid)
        have own : AnkiUuid r := ⟨uuid, anki⟩
        have behind : behindUuid (r :: rs) = rs := by simp [behindUuid, uuid]
        have answer : queryRecords (r :: rs) = 0 := by
          simp only [queryRecords, outcome, kindOf_uuid128, if_pos uuid]
        have here := abortCode_eq_none_iff.mp outcome
        simp only [answer, behind, true_and, List.forall_mem_cons, List.exists_mem_cons_iff, own,
          true_or, and_true, abortCode_eq_none_iff]
        exact ⟨fun rest => ⟨here, rest⟩, And.right⟩
      · have other : ¬ AnkiUuid r := fun anki => uuid anki.1
        have behind : behindUuid (r :: rs) = behindUuid rs := by simp [behindUuid, uuid]
        simp only [queryRecords, outcome, kindOf_uuid128, if_neg uuid, behind, later,
          List.forall_mem_cons, true_and, List.exists_mem_cons_iff, other, false_or]

/-- A full parse into an empty struct succeeds when the query does and nothing behind the
first service UUID ends the parse. -/
theorem parse_zero_iff_query {p : Packet} {adv : Memory}
    (zeroed : ∀ a < AnkiVehicleAdv.size, adv a = 0) (fits : ∀ r ∈ p.records, Fits r)
    (whole : ∀ r ∈ p.records, r.type = advTypeUuid128 → r.payload.length = uuid128Size) :
    (parsePacket p adv).1 = 0 ↔
      queryPacket p = 0 ∧ ∀ r ∈ behindUuid p.records, ¬ UnknownType r ∧ ¬ ForeignUuid r := by
  rw [queryPacket_eq, query_zero_behind_iff whole, parsePacket_eq, parseRecords_eq_zero_iff]
  refine and_congr_right fun all => ?_
  rw [parseRecords_handled, accepted_eq_self.mpr all, serviceId_run fits,
    foldl_whole (serviceIdOf_length adv) whole all, serviceId_zeroed zeroed]
  have empty : List.replicate uuid128Size 0 ≠ ankiServiceUuidLE := by decide
  simp [empty]

theorem uuid_packet_parse_agrees :
    let flags : Record := ⟨advTypeFlags, [0x06], by decide, by decide⟩
    let power : Record := ⟨advTypeTxPower, [0x00], by decide, by decide⟩
    let p := Packet.ofRecords [flags, ankiUuidRecord, power]
    (parsePacket p (fun _ => 0)).1 = 0 ↔
      queryPacket p = 0 ∧ ∀ r ∈ behindUuid p.records, ¬ UnknownType r ∧ ¬ ForeignUuid r := by
  intro flags power p
  have records : p.records = [flags, ankiUuidRecord, power] := Packet.ofRecords_records _
  have fits : ∀ r ∈ p.records, Fits r := by
    rw [records]
    decide
  have whole : ∀ r ∈ p.records, r.type = advTypeUuid128 → r.payload.length = uuid128Size := by
    rw [records]
    decide
  exact parse_zero_iff_query (fun _ _ => rfl) fits whole

/-- A record of unknown type behind the service UUID: the query finds a vehicle, the parse
gives up. -/
theorem unknown_behind_uuid_differs :
    let p := Packet.ofRecords [ankiUuidRecord, ⟨0x12, [0x06], by decide, by decide⟩]
    (∀ r ∈ p.records, Fits r) ∧
      (∀ r ∈ p.records, r.type = advTypeUuid128 → r.payload.length = uuid128Size) ∧
      queryPacket p = 0 ∧ (parsePacket p (fun _ => 0)).1 = 3 := by
  refine ⟨?_, ?_, by decide +kernel, by decide +kernel⟩ <;> rw [Packet.ofRecords_records] <;> decide

end AnkiDrive
