import AnkiDrive.History
import AnkiDrive.LocalName
import AnkiDrive.VehicleScan
import AnkiDrive.Lib.Registry

/-! The scanner's entries. The table is a find-or-create store, so the entry of an address
is what the reports from that address made of it: its first 52 bytes are what parsing them
into a zeroed struct gives, and the flag behind tells whether it has been printed. -/
namespace AnkiDrive
open CModel

def LeAdvertisingInfo.records (info : LeAdvertisingInfo) : List Record :=
  decode info.data info.length.toNat 0

def LeAdvertisingInfo.bytes (info : LeAdvertisingInfo) : List UInt8 :=
  slice info.data 0 info.length.toNat

def parseReport (info : LeAdvertisingInfo) (adv : Memory) : UInt8 × Memory :=
  let (code, after) := ankiVehicleParseAdvRecord (some info.data) info.length.toNat (some adv)
  (code, after.getD adv)

theorem parseReport_eq (info : LeAdvertisingInfo) (adv : Memory) :
    parseReport info adv = parseRecords info.records adv := by
  simp only [parseReport, ankiVehicleParseAdvRecord, loop_run, Option.getD_some]
  rfl

/-- What parsing reports one after another into a zeroed struct leaves in it. -/
def accumulated (infos : List LeAdvertisingInfo) : Memory :=
  infos.foldl (fun adv info => (parseReport info adv).2) (fun _ => 0)

theorem accumulated_updates (infos : List LeAdvertisingInfo) :
    accumulated infos = (infos.map LeAdvertisingInfo.records).foldl handlePacket fun _ => 0 := by
  have step : (fun (adv : Memory) info => (parseReport info adv).2) =
      fun adv info => handlePacket adv info.records := by
    funext adv info
    rw [parseReport_eq]
    exact parseRecords_patch _ _
  rw [accumulated, step, List.foldl_map]

theorem accumulated_concat (infos : List LeAdvertisingInfo) (info : LeAdvertisingInfo) :
    accumulated (infos ++ [info]) = (parseReport info (accumulated infos)).2 := List.foldl_append

/-- The identifier and the version are known. -/
def Complete (adv : Memory) : Prop :=
  0 < (mfgDataOf adv).identifier ∧ 0 < (localNameOf adv).version

instance : DecidablePred Complete := fun _ => inferInstanceAs (Decidable (_ ∧ _))

/-- The report is parsed with success and leaves the struct complete. -/
def Completes (before : List LeAdvertisingInfo) (info : LeAdvertisingInfo) : Prop :=
  (parseReport info (accumulated before)).1 = 0 ∧ Complete (parseReport info (accumulated before)).2

instance (before : List LeAdvertisingInfo) : DecidablePred (Completes before) :=
  fun _ => inferInstanceAs (Decidable (_ ∧ _))

def Field.Agree (f : Field) (m m' : Memory) : Prop := ∀ a, f.Covers a → m a = m' a

section Members

variable {m m' : Memory}

theorem serviceIdOf_member (agree : Kind.uuid128.field.Agree m m') :
    serviceIdOf m = serviceIdOf m' :=
  slice_congr fun a lo hi => agree a ⟨lo, hi⟩

theorem localNameOf_member (agree : Kind.localName.field.Agree m m') :
    localNameOf m = localNameOf m' :=
  advInfoAt_congr fun a lo hi => agree a ⟨lo, hi⟩

theorem mfgDataOf_member (agree : Kind.manufacturerData.field.Agree m m') :
    mfgDataOf m = mfgDataOf m' := by
  have bytes : ∀ a, 4 ≤ a → a < 12 → m a = m' a := fun a lo hi => agree a ⟨lo, hi⟩
  simp only [mfgDataOf, advMfgAt, Memory.load32, Memory.load16, AnkiVehicleAdv.mfgData,
    AnkiVehicleAdvMfg.identifier, AnkiVehicleAdvMfg.modelId, AnkiVehicleAdvMfg.reserved,
    AnkiVehicleAdvMfg.productId, bytes, Nat.reduceAdd, Nat.reduceLeDiff, Nat.reduceLT]

end Members

/-- The same struct, whatever is behind it. -/
def AgreeOnAdv (m m' : Memory) : Prop := ∀ a < AnkiVehicleAdv.size, m a = m' a

section Agree

variable {m m' : Memory} (agree : AgreeOnAdv m m')

include agree

theorem agree_field (k : Kind) : k.field.Agree m m' :=
  fun a covers => agree a (Nat.lt_of_lt_of_le covers.2 (field_in_struct k))

theorem complete_congr : Complete m ↔ Complete m' := by
  simp only [Complete, mfgDataOf_member (agree_field agree _), localNameOf_member (agree_field agree _)]

end Agree

theorem handle_congr {m m' : Memory} (agree : AgreeOnAdv m m') (P : Patch) :
    AgreeOnAdv (P.apply m) (P.apply m') := by
  intro a low
  simp only [Patch.apply, agree a low]

theorem parseRecords_congr (rs : List Record) {m m' : Memory} (agree : AgreeOnAdv m m') :
    (parseRecords rs m).1 = (parseRecords rs m').1 ∧
      AgreeOnAdv (parseRecords rs m).2 (parseRecords rs m').2 := by
  induction rs generalizing m m' with
  | nil =>
    have same := serviceIdOf_member (agree_field agree .uuid128)
    refine ⟨?_, agree⟩
    simp only [parseRecords, ankiVehicleParseAdvRecord.verdict, same]
  | cons r rs ih =>
    cases outcome : abortCode r.type r.payload with
    | some code =>
      simp only [parseRecords, outcome]
      exact ⟨trivial, agree⟩
    | none =>
      simp only [parseRecords, outcome]
      exact ih (handle_congr agree _)

theorem parseReport_congr (info : LeAdvertisingInfo) {m m' : Memory} (agree : AgreeOnAdv m m') :
    (parseReport info m).1 = (parseReport info m').1 ∧
      AgreeOnAdv (parseReport info m).2 (parseReport info m').2 := by
  simp only [parseReport_eq]
  exact parseRecords_congr _ agree

theorem hear_address (info : LeAdvertisingInfo) (v : Vehicle) :
    (v.hear info).1.address = v.address := by
  simp only [Vehicle.hear]
  split <;> rfl

def scanner (malloc : BdAddr → Memory) :
    Registry BdAddr LeAdvertisingInfo Vehicle (Option Announcement) where
  key := LeAdvertisingInfo.bdaddr
  keyOf := Vehicle.address
  create := Vehicle.new malloc
  update := Vehicle.hear
  create_key _ := rfl
  update_key := hear_address

section Store

variable {filterType : UInt8} {malloc : BdAddr → Memory} {infos : List LeAdvertisingInfo}

theorem hashStore_eq (vehicles : List Vehicle) (v : Vehicle) :
    hashStore vehicles v = (scanner malloc).overwrite vehicles v := by
  induction vehicles with
  | nil => rfl
  | cons u vehicles ih =>
    simp only [hashStore, Registry.overwrite, ih]
    rfl

theorem report_eq {info : LeAdvertisingInfo} (passes : checkReportFilter filterType info ≠ 0)
    (vehicles : List Vehicle) :
    printAdvertisingDevices.report filterType malloc vehicles info =
      (scanner malloc).visit vehicles info := by
  have found : hashFind vehicles info.bdaddr = (scanner malloc).lookup vehicles info.bdaddr := rfl
  have key : (scanner malloc).key info = info.bdaddr := rfl
  simp only [printAdvertisingDevices.report, if_pos passes, Registry.visit, key, ← found,
    @hashStore_eq malloc]
  cases hashFind vehicles info.bdaddr with
  | some v => rfl
  | none => rfl

theorem vehicles_eq (pass : ∀ info ∈ infos, checkReportFilter filterType info ≠ 0) :
    printAdvertisingDevices filterType malloc infos = (scanner malloc).run [] infos := by
  have all : ∀ (is : List LeAdvertisingInfo) vehicles,
      (∀ info ∈ is, checkReportFilter filterType info ≠ 0) →
      is.foldl (fun vehicles info =>
        (printAdvertisingDevices.report filterType malloc vehicles info).1) vehicles =
        (scanner malloc).run vehicles is := by
    intro is
    induction is with
    | nil => exact fun _ _ => rfl
    | cons info is ih =>
      intro vehicles pass
      have here := @report_eq filterType malloc info (pass info List.mem_cons_self) vehicles
      simp only [List.foldl_cons, here]
      exact ih _ fun i hi => pass i (List.mem_cons_of_mem info hi)
  exact all infos [] pass

theorem lines_eq (vehicles : List Vehicle)
    (pass : ∀ info ∈ infos, checkReportFilter filterType info ≠ 0) :
    printAdvertisingDevices.lines filterType malloc vehicles infos =
      (scanner malloc).trace vehicles infos := by
  induction infos generalizing vehicles with
  | nil => rfl
  | cons info infos ih =>
    have here := @report_eq filterType malloc info (pass info List.mem_cons_self) vehicles
    have rest := ih ((scanner malloc).visit vehicles info).1
      fun i hi => pass i (List.mem_cons_of_mem info hi)
    simp only [printAdvertisingDevices.lines, Registry.trace, here, rest]

end Store

def Announced (info : LeAdvertisingInfo) (v : Vehicle) : Prop :=
  (parseReport info v.adv).1 = 0 ∧ Complete (parseReport info v.adv).2 ∧
    (parseReport info v.adv).2 Vehicle.scanCompleteOffset = 0

instance (info : LeAdvertisingInfo) : DecidablePred (Announced info) :=
  fun _ => inferInstanceAs (Decidable (_ ∧ _ ∧ _))

variable {info : LeAdvertisingInfo} {v : Vehicle}

theorem hear_announced (announced : Announced info v) : ∃ line, line.addr = info.bdaddr ∧
    v.hear info = (⟨v.address, (parseReport info v.adv).2.store Vehicle.scanCompleteOffset 1⟩,
      some line) := by
  obtain ⟨zero, ⟨identifier, version⟩, unset⟩ := announced
  exact ⟨_, rfl, if_pos ⟨zero, identifier, version, unset⟩⟩

theorem hear_silent (silent : ¬ Announced info v) :
    v.hear info = (⟨v.address, (parseReport info v.adv).2⟩, none) := by
  refine if_neg ?_
  rintro ⟨zero, identifier, version, unset⟩
  exact silent ⟨zero, ⟨identifier, version⟩, unset⟩

theorem hear_line {a : BdAddr} :
    (v.hear info).2.map Announcement.addr = some a ↔ info.bdaddr = a ∧ Announced info v := by
  rcases Decidable.em (Announced info v) with announced | silent
  · obtain ⟨line, addr, heard⟩ := hear_announced announced
    simp only [heard, Option.map_some, addr, Option.some.injEq, announced, and_true]
  · simp only [hear_silent silent, Option.map_none, reduceCtorEq, silent, and_false]

theorem hear_agrees {adv : Memory} (agree : AgreeOnAdv v.adv adv) :
    AgreeOnAdv (v.hear info).1.adv (parseReport info adv).2 := by
  have parsed := (parseReport_congr info agree).2
  rcases Decidable.em (Announced info v) with announced | silent
  · obtain ⟨line, _, heard⟩ := hear_announced announced
    intro a low
    have other : a ≠ Vehicle.scanCompleteOffset := Nat.ne_of_lt low
    simp only [heard, Memory.store_other _ _ other]
    exact parsed a low
  · simp only [hear_silent silent]
    exact parsed

def Kind.Spares (k : Kind) (limit size : Nat) : Prop :=
  match k with
  | .manufacturerData => True
  | .localName => k.field.offset + AnkiVehicleAdvInfo.name.offset + size ≤ 8 + limit
  | k => k.field.offset + size ≤ limit

/-- The copy of the record's payload ends in front of the limit. -/
def Spares (limit : Nat) (r : Record) : Prop :=
  ∀ k, kindOf r.type = some k → k.Spares limit r.payload.length

def SparesFlag (r : Record) : Prop := Spares Vehicle.scanCompleteOffset r

def SparesHandle (r : Record) : Prop := Spares Vehicle.hh.offset r

instance (k : Kind) (limit size : Nat) : Decidable (k.Spares limit size) :=
  match k with
  | .manufacturerData => isTrue trivial
  | .flags | .uuid128 | .localName | .txPower => inferInstanceAs (Decidable (_ ≤ _))

instance (limit : Nat) : DecidablePred (Spares limit) := fun r =>
  inferInstanceAs (Decidable (∀ k ∈ kindOf r.type, k.Spares limit r.payload.length))

instance : DecidablePred SparesHandle := fun r => inferInstanceAs (Decidable (Spares _ r))

theorem fits_sparesFlag {r : Record} (fits : Fits r) : SparesFlag r := by
  intro k known
  have size := fits k known
  have room := field_in_struct k
  cases k with
  | manufacturerData => trivial
  | localName => exact Nat.le_trans (Nat.add_le_add_left size 21) (by decide)
  | flags | uuid128 | txPower => exact Nat.le_trans (Nat.add_le_add_left size _) room

theorem sparesFlag_sparesHandle {r : Record} (spares : SparesFlag r) : SparesHandle r := by
  intro k known
  have ends := spares k known
  have behind : Vehicle.scanCompleteOffset ≤ Vehicle.hh.offset := by decide
  cases k with
  | manufacturerData => trivial
  | localName => exact Nat.le_trans ends (Nat.add_le_add_left behind 8)
  | flags | uuid128 | txPower => exact Nat.le_trans ends behind

section Spared

variable {limit x : Nat} (room : AnkiVehicleAdv.size ≤ limit) (beyond : limit ≤ x)

include room beyond

theorem patch_spares (k : Kind) {payload : List UInt8} (spares : k.Spares limit payload.length) :
    (k.patch payload).Leaves x := by
  simp only [AnkiVehicleAdv.size] at room
  cases k with
  | flags => exact Patch.write_within (Nat.zero_le 0) spares _ (Or.inr beyond)
  | uuid128 => exact Patch.write_within (Nat.le_refl 34) spares _ (Or.inr beyond)
  | txPower => exact Patch.write_within (Nat.le_refl 1) spares _ (Or.inr beyond)
  | manufacturerData =>
    apply mfgPatch_within _ payload _ (Or.inr _)
    simp only [Kind.field, AnkiVehicleAdv.mfgData]
    omega
  | localName =>
    simp only [Kind.Spares, Kind.field, AnkiVehicleAdv.localName, AnkiVehicleAdvInfo.name] at spares
    exact localNamePatch_below 12 (by simp only [AnkiVehicleAdv.localName]; omega)
      (by simp only [AnkiVehicleAdvInfo.name]; omega) _ (Or.inr beyond)

theorem parseReport_spares {info : LeAdvertisingInfo}
    (spares : ∀ r ∈ accepted info.records, Spares limit r) (adv : Memory) :
    (parseReport info adv).2 x = adv x := by
  have untouched : ∀ r ∈ accepted info.records, (recordPatch r.type r.payload).Leaves x := by
    intro r member
    cases known : kindOf r.type with
    | none =>
      simp only [recordPatch, known]
      exact ⟨rfl, rfl⟩
    | some k =>
      simp only [recordPatch, known]
      exact patch_spares room beyond k (spares r member k known)
  rw [parseReport_eq, parseRecords_patch]
  exact Patch.apply_leaves (packetPatch_leaves untouched) adv

end Spared

theorem parseReport_sparesFlag {info : LeAdvertisingInfo}
    (spares : ∀ r ∈ accepted info.records, SparesFlag r) (adv : Memory) :
    (parseReport info adv).2 Vehicle.scanCompleteOffset = adv Vehicle.scanCompleteOffset :=
  parseReport_spares (Nat.le_refl _) (Nat.le_refl _) spares adv

theorem new_handleKept (malloc : BdAddr → Memory) (a : BdAddr) :
    (Vehicle.new malloc a).HandleKept malloc := by
  apply slice_congr
  intro x lo _
  apply Memory.write_outside _ (Or.inr _)
  simp only [List.length_replicate, Nat.zero_add]
  exact Nat.le_trans (by decide) lo

theorem hear_handleKept {malloc : BdAddr → Memory}
    (spares : ∀ r ∈ accepted info.records, SparesHandle r) (kept : v.HandleKept malloc) :
    (v.hear info).1.HandleKept malloc := by
  have untouched : ∀ x, Vehicle.hh.offset ≤ x → (v.hear info).1.adv x = v.adv x := by
    intro x beyond
    have parsed := parseReport_spares (by decide) beyond spares v.adv
    rcases Decidable.em (Announced info v) with announced | silent
    · obtain ⟨line, _, heard⟩ := hear_announced announced
      have other : x ≠ Vehicle.scanCompleteOffset := Nat.ne_of_gt (Nat.lt_of_lt_of_le (by decide) beyond)
      simp only [heard, Memory.store_other _ _ other, parsed]
    · simp only [hear_silent silent, parsed]
  rw [Vehicle.HandleKept, hear_address, slice_congr fun x lo _ => untouched x lo]
  exact kept

section Entry

variable (malloc : BdAddr → Memory) (a : BdAddr)

theorem new_agrees : AgreeOnAdv (Vehicle.new malloc a).adv fun _ => 0 := by
  intro x low
  have inside := @Memory.write_inside (malloc a) 0 x (List.replicate AnkiVehicleAdv.size 0)
    (by simpa using low)
  simpa [Vehicle.new, Memory.fill] using inside

theorem new_flag : (Vehicle.new malloc a).scanComplete = malloc a Vehicle.scanCompleteOffset := by
  simp only [Vehicle.scanComplete, Vehicle.new, Memory.fill]
  apply Memory.write_outside _ (Or.inr _)
  simp only [List.length_replicate, Nat.zero_add]
  exact Nat.le_refl _

theorem entry_agrees (infos : List LeAdvertisingInfo) :
    AgreeOnAdv ((scanner malloc).ownEntry a infos).adv (accumulated infos) := by
  have all : ∀ (is : List LeAdvertisingInfo) (v : Vehicle) adv, AgreeOnAdv v.adv adv →
      AgreeOnAdv (is.foldl (fun v info => (v.hear info).1) v).adv
        (is.foldl (fun adv info => (parseReport info adv).2) adv) := by
    intro is
    induction is with
    | nil => exact fun _ _ agree => agree
    | cons info is ih => exact fun v adv agree => ih _ _ (hear_agrees agree)
  exact all infos _ _ (new_agrees malloc a)

theorem ownEntry_concat (infos : List LeAdvertisingInfo) (info : LeAdvertisingInfo) :
    (scanner malloc).ownEntry a (infos ++ [info]) =
      (((scanner malloc).ownEntry a infos).hear info).1 := List.foldl_append

theorem announced_entry (infos : List LeAdvertisingInfo) (info : LeAdvertisingInfo) :
    Announced info ((scanner malloc).ownEntry a infos) ↔ Completes infos info ∧
      (parseReport info ((scanner malloc).ownEntry a infos).adv).2 Vehicle.scanCompleteOffset = 0 := by
  obtain ⟨code, after⟩ := parseReport_congr info (entry_agrees malloc a infos)
  simp only [Announced, Completes, code, complete_congr after, and_assoc]

variable {malloc a}

/-- The flag says whether a report has completed the vehicle, unless it was set from the
beginning or overwritten. -/
theorem entry_flag (fresh : malloc a Vehicle.scanCompleteOffset = 0) {infos : List LeAdvertisingInfo}
    (spares : ∀ info ∈ infos, ∀ r ∈ accepted info.records, SparesFlag r) :
    ((scanner malloc).ownEntry a infos).scanComplete = 0 ↔ ¬ Happened Completes infos := by
  induction infos using List.reverseRecOn with
  | nil => exact ⟨fun _ => happened_nil, fun _ => (new_flag malloc a).trans fresh⟩
  | append_singleton infos info ih =>
    have before := ih fun i hi => spares i (List.mem_append_left _ hi)
    have kept := parseReport_sparesFlag (spares info (by simp))
      ((scanner malloc).ownEntry a infos).adv
    have printed := announced_entry malloc a infos info
    rw [kept] at printed
    simp only [Vehicle.scanComplete] at before
    rw [happened_concat, not_or, ← before, ownEntry_concat]
    rcases Decidable.em (Announced info ((scanner malloc).ownEntry a infos)) with announced | silent
    · obtain ⟨line, _, heard⟩ := hear_announced announced
      have completes := (printed.mp announced).1
      simp only [heard, Vehicle.scanComplete, Memory.store_same, completes, not_true, and_false]
      decide
    · simp only [hear_silent silent, Vehicle.scanComplete, kept]
      constructor
      · exact fun unset => ⟨unset, fun completes => silent (printed.mpr ⟨completes, unset⟩)⟩
      · exact fun unset => unset.1

end Entry

end AnkiDrive
