import AnkiDrive.Packets

/-! Which bytes of the struct a record touches. The copies take their length from
the air, so this is a question about payload lengths: a payload that fits its member
stays inside it, and a longer one runs into the next member or past the struct. -/
namespace AnkiDrive
open CModel

def Field.Covers (f : Field) (a : Nat) : Prop := f.offset ≤ a ∧ a < f.offset + f.size

def Kind.Fits (k : Kind) (size : Nat) : Prop :=
  match k with
  | .manufacturerData => True
  | .localName => size ≤ 8 + AnkiVehicleAdvInfo.name.size
  | k => size ≤ k.field.size

def Fits (r : Record) : Prop := ∀ k, kindOf r.type = some k → k.Fits r.payload.length

instance (k : Kind) (size : Nat) : Decidable (k.Fits size) :=
  match k with
  | .manufacturerData => isTrue trivial
  | .flags | .uuid128 | .localName | .txPower => inferInstanceAs (Decidable (_ ≤ _))

theorem fits_iff {r : Record} :
    Fits r ↔ (kindOf r.type).all (fun k => decide (k.Fits r.payload.length)) = true := by
  cases known : kindOf r.type <;> simp [Fits, known]

instance : DecidablePred Fits := fun _ => decidable_of_iff' _ fits_iff

/-- The `switch` on the record at index `i` of the scanned bytes. -/
def handleAt (data : Memory) (i : Nat) (adv : Memory) : Memory :=
  match (ankiVehicleParseAdvRecord.switch (data (i + 1)) (i + 2) (data i - 1) (some adv)).run data with
  | .ok (some after) => after
  | _ => adv

/-- What a call does to the struct when it is past `before`: what the `switch` does there, and
nothing if one of `before` has ended the call. -/
def callHandling (p : Packet) (before : List Record) (adv : Memory) : Memory :=
  if ∀ s ∈ before, abortCode s.type s.payload = none then handleAt p.data (encode before).length adv
  else adv

theorem field_in_struct (k : Kind) : k.field.offset + k.field.size ≤ AnkiVehicleAdv.size := by
  cases k <;> decide

theorem fields_apart {j k : Kind} (other : j ≠ k) {a : Nat} (covers : j.field.Covers a) :
    ¬ k.field.Covers a := by
  unfold Field.Covers at covers ⊢
  cases j <;> cases k <;> first | exact absurd rfl other | skip
  all_goals
    simp only [Kind.field, AnkiVehicleAdv.flags, AnkiVehicleAdv.serviceId, AnkiVehicleAdv.localName,
      AnkiVehicleAdv.txPower, AnkiVehicleAdv.mfgData] at covers ⊢
    omega

theorem versionPatch_within (p : Nat) (rest : List UInt8) : (versionPatch p rest).Within p (p + 2) := by
  match rest with
  | [] => exact Patch.id_within _ _
  | [lo] => exact Patch.write_within (Nat.le_refl p) (Nat.le_refl _)
  | lo :: hi :: _ => exact Patch.write_within (Nat.le_refl p) (Nat.le_refl _)

theorem namePatch_below (p : Nat) {hi : Nat} {payload : List UInt8}
    (room : p + AnkiVehicleAdvInfo.name.size ≤ hi) (ends : p + (payload.length - 8) ≤ hi) :
    (namePatch p payload).Within p hi := by
  unfold namePatch
  split
  · apply Patch.then_within
    · exact Patch.write_within (Nat.le_refl p) (by simpa using room)
    · exact Patch.write_within (Nat.le_refl p) (by simpa using ends)
  · exact Patch.id_within _ _

theorem namePatch_within (p : Nat) {payload : List UInt8}
    (fits : payload.length ≤ 8 + AnkiVehicleAdvInfo.name.size) :
    (namePatch p payload).Within p (p + AnkiVehicleAdvInfo.name.size) :=
  namePatch_below p (Nat.le_refl _) (by omega)

theorem localNamePatch_below (p : Nat) {hi : Nat} {payload : List UInt8}
    (room : p + AnkiVehicleAdv.localName.size ≤ hi)
    (ends : p + AnkiVehicleAdvInfo.name.offset + (payload.length - 8) ≤ hi) :
    (localNamePatch p payload).Within p hi := by
  simp only [AnkiVehicleAdv.localName] at room
  cases payload with
  | nil => exact Patch.id_within _ _
  | cons state rest =>
    apply Patch.then_within
    · exact Patch.writeBits_within _ _ (by simp) (by simp [AnkiVehicleAdvInfo.state]; omega)
    · apply Patch.then_within
      · exact Patch.within_mono (versionPatch_within _ _) (by simp)
          (by simp [AnkiVehicleAdvInfo.version]; omega)
      · exact Patch.within_mono (namePatch_below _
          (by simp [AnkiVehicleAdvInfo.name]; omega) ends) (by simp) (Nat.le_refl hi)

theorem localNamePatch_within (p : Nat) {payload : List UInt8}
    (fits : payload.length ≤ 8 + AnkiVehicleAdvInfo.name.size) :
    (localNamePatch p payload).Within p (p + AnkiVehicleAdv.localName.size) := by
  refine localNamePatch_below p (Nat.le_refl _) ?_
  simp only [AnkiVehicleAdvInfo.name, AnkiVehicleAdv.localName] at fits ⊢
  omega

theorem mfgPatch_within (p : Nat) (payload : List UInt8) :
    (mfgPatch p payload).Within p (p + AnkiVehicleAdv.mfgData.size) := by
  unfold mfgPatch
  split
  · rename_i eight
    exact Patch.write_within (Nat.le_refl p) (by simp [eight, AnkiVehicleAdv.mfgData])
  · exact Patch.id_within _ _

theorem patch_within (k : Kind) {payload : List UInt8} (fits : k.Fits payload.length) :
    (k.patch payload).Within k.field.offset (k.field.offset + k.field.size) := by
  cases k with
  | flags => exact Patch.write_within (Nat.le_refl _) (Nat.add_le_add_left fits _)
  | uuid128 => exact Patch.write_within (Nat.le_refl _) (Nat.add_le_add_left fits _)
  | localName => exact localNamePatch_within _ fits
  | txPower => exact Patch.write_within (Nat.le_refl _) (Nat.add_le_add_left fits _)
  | manufacturerData => exact mfgPatch_within _ payload

theorem patch_overflows (k : Kind) {payload : List UInt8} (long : ¬ k.Fits payload.length) :
    ¬ (k.patch payload).Leaves (k.field.offset + k.field.size) := by
  cases k with
  | flags => exact Patch.write_touches (Nat.lt_of_not_le long)
  | uuid128 => exact Patch.write_touches (Nat.lt_of_not_le long)
  | txPower => exact Patch.write_touches (Nat.lt_of_not_le long)
  | manufacturerData => exact absurd trivial long
  | localName =>
    have size : 8 + AnkiVehicleAdvInfo.name.size < payload.length := Nat.lt_of_not_le long
    have name : AnkiVehicleAdvInfo.name.size < (payload.drop 8).length := by
      rw [List.length_drop]
      omega
    cases payload with
    | nil => simp at size
    | cons state rest =>
      intro untouched
      have last := Patch.leaves_of_then (Patch.leaves_of_then untouched)
      rw [namePatch, if_pos (by omega)] at last
      exact Patch.write_touches name (Patch.leaves_of_then last)

theorem foreign_fits {k : Kind} {payload : List UInt8} (foreign : k.foreign payload = true) :
    k.Fits payload.length := by
  simp only [Kind.foreign, Bool.and_eq_true, decide_eq_true_eq] at foreign
  obtain ⟨⟨rfl, size⟩, _⟩ := foreign
  exact Nat.le_of_eq size

theorem covers_iff {f : Field} {a : Nat} :
    ¬ f.Covers a ↔ a < f.offset ∨ f.offset + f.size ≤ a := by
  simp only [Field.Covers]
  omega

theorem record_leaves {r : Record} (fits : Fits r) {a : Nat}
    (miss : ∀ k, kindOf r.type = some k → ¬ k.field.Covers a) :
    (recordPatch r.type r.payload).Leaves a := by
  cases known : kindOf r.type with
  | none =>
    simp only [recordPatch, known]
    exact ⟨rfl, rfl⟩
  | some k =>
    simp only [recordPatch, known]
    exact patch_within k (fits k known) a (covers_iff.mp (miss k known))

theorem records_apart {r s : Record} (fitsR : Fits r) (fitsS : Fits s) (other : r.type ≠ s.type)
    (a : Nat) :
    (recordPatch r.type r.payload).Leaves a ∨ (recordPatch s.type s.payload).Leaves a := by
  by_cases covered : ∃ k, kindOf r.type = some k ∧ k.field.Covers a
  · obtain ⟨k, known, covers⟩ := covered
    right
    apply record_leaves fitsS
    intro j known'
    apply fields_apart _ covers
    rintro rfl
    exact other ((kindOf_eq_some known).trans (kindOf_eq_some known').symm)
  · left
    apply record_leaves fitsR
    exact fun k known covers => covered ⟨k, known, covers⟩

theorem handle_comm {r s : Record} (fitsR : Fits r) (fitsS : Fits s) (other : r.type ≠ s.type)
    (m : Memory) : handle (handle m r) s = handle (handle m s) r :=
  Patch.apply_comm (records_apart fitsR fitsS other) m

theorem handleAt_eq {data : Memory} {i : Nat} {r : Record} {k : Kind} (held : Holds data i r)
    (known : kindOf r.type = some k) (adv : Memory) :
    handleAt data i adv = if k.foreign r.payload then adv else (k.patch r.payload).apply adv := by
  have payload : slice data (i + 2) (data i - 1).toNat = r.payload := by
    rw [recordAt_payload data held.counted held.typed, held.eq_recordAt]
  rw [handleAt, switch_run _ _ _ held.typed, payload, held.type]
  simp only [abortCode, recordPatch, known]
  split
  · rename_i foreign
    split at foreign <;> simp_all
  · rename_i foreign
    split at foreign <;> simp_all

/-- Handling a record changes its own member only: no byte of another member or of the
padding, and none outside the struct. -/
def StaysInField (k : Kind) (handle : Memory → Memory) : Prop :=
  ∀ adv, (∀ a, ¬ k.field.Covers a → handle adv a = adv a) ∧
    ∀ a, AnkiVehicleAdv.size ≤ a → handle adv a = adv a

theorem patch_stays_iff (k : Kind) (payload : List UInt8) :
    StaysInField k (k.patch payload).apply ↔ k.Fits payload.length := by
  constructor
  · intro stays
    by_contra long
    apply patch_overflows k long
    apply Patch.leaves_of_apply
    intro adv
    exact (stays adv).1 _ (fun covers => absurd covers.2 (Nat.lt_irrefl _))
  · intro fits adv
    have within := patch_within k fits
    have size := field_in_struct k
    constructor
    · intro a out
      exact Patch.apply_leaves (within a (covers_iff.mp out)) adv
    · intro a out
      exact Patch.apply_leaves (within a (Or.inr (by omega))) adv

section Call

variable (p : Packet) {before after : List Record} {r : Record} {k : Kind}

theorem handleAt_of_occurs (occurs : p.records = before ++ r :: after)
    (known : kindOf r.type = some k) (adv : Memory) :
    handleAt p.data (encode before).length adv =
      if k.foreign r.payload then adv else (k.patch r.payload).apply adv := by
  have held : Holds p.data (0 + (encode before).length) r := holds_of_decode occurs
  rw [Nat.zero_add] at held
  exact handleAt_eq held known adv

/-- The call up to the record and the call behind it differ by what is done at the record. -/
theorem parsePacket_callHandling (occurs : p.records = before ++ r :: after)
    (known : kindOf r.type = some k) (adv : Memory) :
    (parsePacket (Packet.ofRecords (before ++ [r])) adv).2 =
      callHandling p before (parsePacket (Packet.ofRecords before) adv).2 := by
  simp only [parsePacket_eq, Packet.ofRecords_records]
  by_cases reached : ∀ s ∈ before, abortCode s.type s.payload = none
  · rw [callHandling, if_pos reached, handleAt_of_occurs p occurs known,
      parseRecords_append_accepted [r] adv reached]
    by_cases foreign : k.foreign r.payload = true
    · simp only [parseRecords, abortCode, known, foreign, if_true]
    · simp only [parseRecords, abortCode, recordPatch, known, if_neg foreign]
  · have aborts : ∃ s ∈ before, abortCode s.type s.payload ≠ none := by simpa using reached
    rw [callHandling, if_neg reached, parseRecords_append_aborted [r] adv aborts]

theorem handleAt_stays_iff (occurs : p.records = before ++ r :: after)
    (known : kindOf r.type = some k) :
    StaysInField k (handleAt p.data (encode before).length) ↔ k.Fits r.payload.length := by
  have handled := handleAt_of_occurs p occurs known
  by_cases foreign : k.foreign r.payload = true
  · have fits := foreign_fits foreign
    have same : handleAt p.data (encode before).length = id := by
      funext adv
      rw [handled, if_pos foreign]
      rfl
    rw [same]
    exact ⟨fun _ => fits, fun _ adv => ⟨fun _ _ => rfl, fun _ _ => rfl⟩⟩
  · have same : handleAt p.data (encode before).length = (k.patch r.payload).apply := by
      funext adv
      rw [handled, if_neg foreign]
    rw [same]
    exact patch_stays_iff k r.payload

/-- At a record of a packet the call stays inside the record's member exactly when it does not
get there or the payload fits. -/
theorem record_stays_in_field_iff (occurs : p.records = before ++ r :: after)
    (known : kindOf r.type = some k) :
    (∀ adv, (parsePacket (Packet.ofRecords (before ++ [r])) adv).2 =
      callHandling p before (parsePacket (Packet.ofRecords before) adv).2) ∧
    (StaysInField k (callHandling p before) ↔
      ((∀ s ∈ before, ¬ UnknownType s ∧ ¬ ForeignUuid s) → k.Fits r.payload.length)) := by
  refine ⟨parsePacket_callHandling p occurs known, ?_⟩
  have same : (∀ s ∈ before, ¬ UnknownType s ∧ ¬ ForeignUuid s) ↔
      ∀ s ∈ before, abortCode s.type s.payload = none :=
    forall₂_congr fun s _ => abortCode_eq_none_iff.symm
  rw [same]
  by_cases reached : ∀ s ∈ before, abortCode s.type s.payload = none
  · have here : callHandling p before = handleAt p.data (encode before).length := by
      funext adv
      rw [callHandling, if_pos reached]
    rw [here, handleAt_stays_iff p occurs known]
    exact ⟨fun fits _ => fits, fun fits => fits reached⟩
  · have untouched : callHandling p before = id := by
      funext adv
      rw [callHandling, if_neg reached]
      rfl
    rw [untouched]
    exact ⟨fun _ all => absurd all reached, fun _ adv => ⟨fun _ _ => rfl, fun _ _ => rfl⟩⟩

end Call

theorem txPower_stays_in_field_behind_flags :
    let flags : Record := ⟨advTypeFlags, [0x06], by decide, by decide⟩
    let txPower : Record := ⟨advTypeTxPower, [0x55], by decide, by decide⟩
    StaysInField .txPower (callHandling (Packet.ofRecords [flags, txPower]) [flags]) := by
  intro flags txPower
  have stays := @record_stays_in_field_iff (Packet.ofRecords [flags, txPower]) [flags] [] txPower
    .txPower (Packet.ofRecords_records _) rfl
  exact stays.2.mpr fun _ => by decide

/-- A FLAGS record of two bytes also sets the transmission power. -/
theorem flags_overruns_txPower :
    ¬ StaysInField .flags (callHandling (Packet.ofRecords
      [⟨advTypeFlags, [0x06, 0x55], by decide, by decide⟩]) []) := by
  intro stays
  have kept := (stays (fun _ => 0)).1 1 (by simp [Field.Covers, Kind.field, AnkiVehicleAdv.flags])
  exact absurd kept (by decide)

end AnkiDrive
