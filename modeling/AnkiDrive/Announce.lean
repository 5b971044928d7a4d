import Mathlib.Data.List.Infix
import AnkiDrive.Entries
import AnkiDrive.RoundTrip

/-! What the scanner prints, and when: each vehicle once, as soon as it is complete,
whatever other vehicles are heard in between. -/
namespace AnkiDrive
open CModel

def fromAddress (a : BdAddr) (infos : List LeAdvertisingInfo) : List LeAdvertisingInfo :=
  infos.filter (fun info => info.bdaddr = a)

/-- The report is from the address and completes what its own reports have gathered. -/
def CompletesVehicle (a : BdAddr) (before : List LeAdvertisingInfo) (info : LeAdvertisingInfo) :
    Prop :=
  info.bdaddr = a ∧ Completes (fromAddress a before) info

instance (a : BdAddr) (before : List LeAdvertisingInfo) : DecidablePred (CompletesVehicle a before) :=
  fun _ => inferInstanceAs (Decidable (_ ∧ _))

/-- The address is printed at the report that follows these. -/
def Announces (filterType : UInt8) (malloc : BdAddr → Memory) (a : BdAddr)
    (before : List LeAdvertisingInfo) (info : LeAdvertisingInfo) : Prop :=
  (printAdvertisingDevices.report filterType malloc
    (printAdvertisingDevices filterType malloc before) info).2.map Announcement.addr = some a

instance (filterType : UInt8) (malloc : BdAddr → Memory) (a : BdAddr)
    (before : List LeAdvertisingInfo) : DecidablePred (Announces filterType malloc a before) :=
  fun _ => inferInstanceAs (Decidable (_ = _))

/-- The scanner gets to the report that follows these, with the handles of its table as they
were made at every report, and prints the address there. What a search does that meets another
handle is not told. -/
def Prints (filterType : UInt8) (malloc : BdAddr → Memory) (a : BdAddr)
    (before : List LeAdvertisingInfo) (info : LeAdvertisingInfo) : Prop :=
  (∀ heard ∈ before.inits, ∀ v ∈ printAdvertisingDevices filterType malloc heard,
    v.HandleKept malloc) ∧ Announces filterType malloc a before info

instance (filterType : UInt8) (malloc : BdAddr → Memory) (a : BdAddr)
    (before : List LeAdvertisingInfo) : DecidablePred (Prints filterType malloc a before) :=
  fun _ => inferInstanceAs (Decidable (_ ∧ _))

section Scan

variable {filterType : UInt8} {malloc : BdAddr → Memory} {a : BdAddr}

theorem announces_entry {before : List LeAdvertisingInfo} {info : LeAdvertisingInfo}
    (pass : ∀ i ∈ before ++ [info], checkReportFilter filterType i ≠ 0) :
    Announces filterType malloc a before info ↔
      info.bdaddr = a ∧ Announced info ((scanner malloc).ownEntry a (fromAddress a before)) := by
  have table := @vehicles_eq filterType malloc before fun i hi => pass i (List.mem_append_left _ hi)
  have here := @report_eq filterType malloc info (pass info (by simp))
  have output := Registry.output_run (R := scanner malloc) before info
  simp only [Announces, table, here, output]
  refine hear_line.trans (and_congr_right ?_)
  rintro rfl
  rfl

theorem vehicle_history {infos : List LeAdvertisingInfo} :
    Happened (CompletesVehicle a) infos ↔ Happened Completes (fromAddress a infos) := by
  have vehicle : CompletesVehicle a = fun before i =>
      decide (i.bdaddr = a) = true ∧ Completes (fromAddress a before) i := by
    simp only [decide_eq_true_eq]
    rfl
  rw [vehicle]
  exact happened_filter.symm

theorem announces_iff {before : List LeAdvertisingInfo} {info : LeAdvertisingInfo}
    (pass : ∀ i ∈ before ++ [info], checkReportFilter filterType i ≠ 0)
    (fresh : malloc a Vehicle.scanCompleteOffset = 0)
    (spares : ∀ i ∈ before ++ [info], i.bdaddr = a → ∀ r ∈ accepted i.records, SparesFlag r) :
    Announces filterType malloc a before info ↔
      CompletesVehicle a before info ∧ ¬ Happened (CompletesVehicle a) before := by
  have own : ∀ i ∈ fromAddress a before, ∀ r ∈ accepted i.records, SparesFlag r := by
    intro i member
    obtain ⟨heard, addr⟩ := List.mem_filter.mp member
    exact spares i (List.mem_append_left _ heard) (by simpa using addr)
  have flag := entry_flag fresh own
  rw [announces_entry pass, announced_entry, CompletesVehicle, and_assoc]
  refine and_congr_right fun addr => and_congr_right fun _ => ?_
  rw [parseReport_sparesFlag (spares info (by simp) addr), vehicle_history, ← flag]
  rfl

theorem heard_so_far {before after : List LeAdvertisingInfo} {info i : LeAdvertisingInfo}
    (member : i ∈ before ++ [info]) : i ∈ before ++ info :: after := by
  rcases List.mem_append.mp member with early | last
  · exact List.mem_append_left _ early
  · exact List.mem_append_right _ (List.mem_cons.mpr (Or.inl (List.mem_singleton.mp last)))

theorem ownEntry_handleKept {infos : List LeAdvertisingInfo} (a : BdAddr)
    (handles : ∀ info ∈ infos, ∀ r ∈ accepted info.records, SparesHandle r) :
    ((scanner malloc).ownEntry a infos).HandleKept malloc := by
  induction infos using List.reverseRecOn with
  | nil => exact new_handleKept malloc a
  | append_singleton infos info ih =>
    rw [ownEntry_concat]
    exact hear_handleKept (handles info (by simp))
      (ih fun i hi => handles i (List.mem_append_left _ hi))

/-- The handles of a run are those of its entries, and no report runs into the one it is for. -/
theorem handles_kept {infos : List LeAdvertisingInfo}
    (pass : ∀ info ∈ infos, checkReportFilter filterType info ≠ 0)
    (handles : ∀ info ∈ infos, ∀ r ∈ accepted info.records, SparesHandle r) :
    ∀ v ∈ printAdvertisingDevices filterType malloc infos, v.HandleKept malloc := by
  intro v member
  rw [vehicles_eq pass] at member
  rw [Registry.mem_run member]
  exact ownEntry_handleKept v.address fun info own => handles info (List.mem_of_mem_filter own)

theorem prints_iff {before : List LeAdvertisingInfo} {info : LeAdvertisingInfo}
    (pass : ∀ i ∈ before, checkReportFilter filterType i ≠ 0)
    (handles : ∀ i ∈ before, ∀ r ∈ accepted i.records, SparesHandle r) :
    Prints filterType malloc a before info ↔ Announces filterType malloc a before info := by
  refine and_iff_right fun heard early => ?_
  have front : ∀ i ∈ heard, i ∈ before := fun i hi => ((List.mem_inits _ _).mp early).subset hi
  exact handles_kept (fun i hi => pass i (front i hi)) fun i hi => handles i (front i hi)

/-- A vehicle whose entry starts with the flag clear, and whose reports do not overwrite the
flag, is printed at the first report that completes it and at no other, as long as nobody's
reports overwrite a handle. -/
theorem announced_once {infos : List LeAdvertisingInfo}
    (pass : ∀ info ∈ infos, checkReportFilter filterType info ≠ 0)
    (fresh : malloc a Vehicle.scanCompleteOffset = 0)
    (handles : ∀ info ∈ infos, ∀ r ∈ accepted info.records, SparesHandle r)
    (spares : ∀ info ∈ infos, info.bdaddr = a → ∀ r ∈ accepted info.records, SparesFlag r) :
    ∀ before info after, infos = before ++ info :: after →
      (Prints filterType malloc a before info ↔
        CompletesVehicle a before info ∧ ¬ Happened (CompletesVehicle a) before) := by
  rintro before info after rfl
  have early := @prints_iff filterType malloc a before info
    (fun i hi => pass i (List.mem_append_left _ hi)) fun i hi => handles i (List.mem_append_left _ hi)
  exact early.trans (announces_iff (fun i hi => pass i (heard_so_far hi)) fresh
    fun i hi => spares i (heard_so_far hi))

theorem printed_iff_completes {infos : List LeAdvertisingInfo}
    (pass : ∀ info ∈ infos, checkReportFilter filterType info ≠ 0)
    (fresh : malloc a Vehicle.scanCompleteOffset = 0)
    (spares : ∀ info ∈ infos, info.bdaddr = a → ∀ r ∈ accepted info.records, SparesFlag r) :
    Happened (Announces filterType malloc a) infos ↔
      Happened Completes (fromAddress a infos) := by
  have first : Happened (Announces filterType malloc a) infos ↔
      Happened (fun before info => CompletesVehicle a before info ∧
        ¬ Happened (CompletesVehicle a) before) infos := by
    refine happened_congr ?_
    rintro before info after rfl
    exact announces_iff (fun i hi => pass i (heard_so_far hi)) fresh
      fun i hi => spares i (heard_so_far hi)
  exact first.trans (happened_first.symm.trans vehicle_history)

def reportOf (a : BdAddr) (rs : List Record) : LeAdvertisingInfo where
  bdaddr := a
  length := UInt8.ofNat (encode rs).length
  data := ofBytes (encode rs)

/-- Another vehicle sends a service id of 22 bytes, which runs over its own flag. -/
theorem announced_at_second_packet :
    let a : BdAddr := #v[0x12, 0x34, 0x56, 0x78, 0x9a, 0xbc]
    let b : BdAddr := #v[0x12, 0x34, 0x56, 0x78, 0x9a, 0xbd]
    let first := reportOf a adv0
    let other := reportOf b
      [⟨advTypeUuid128, List.replicate 22 0x41, by decide, by decide⟩]
    let second := reportOf a adv1
    Prints 0 (fun _ _ => 0) a [first, other] second ↔
      CompletesVehicle a [first, other] second ∧ ¬ Happened (CompletesVehicle a) [first, other] := by
  intro a b first other second
  have pass : ∀ info ∈ [first, other, second], checkReportFilter 0 info ≠ 0 := by decide
  have handles : ∀ info ∈ [first, other, second], ∀ r ∈ accepted info.records, SparesHandle r := by
    decide +kernel
  have fits : ∀ info ∈ [first, other, second], info.bdaddr = a →
      ∀ r ∈ accepted info.records, Fits r := by decide +kernel
  exact @announced_once 0 (fun _ _ => 0) a [first, other, second] pass rfl handles
    (fun info member addr r hr => fits_sparesFlag (fits info member addr r hr))
    [first, other] second [] rfl

/-- Only `adv` is cleared in a new entry. Where the memory for it holds something else than
zero at `scan_complete`, the vehicle is not printed when it is complete. -/
theorem complete_vehicle_missed :
    let a : BdAddr := #v[0x12, 0x34, 0x56, 0x78, 0x9a, 0xbc]
    let first := reportOf a adv0
    let second := reportOf a adv1
    CompletesVehicle a [first] second ∧ ¬ Happened (CompletesVehicle a) [first] ∧
      (∀ v ∈ printAdvertisingDevices 0 (fun _ _ => 0xff) [first, second],
        v.HandleKept fun _ _ => 0xff) ∧
      ¬ Prints 0 (fun _ _ => 0xff) a [first] second := by
  decide +kernel

/-- Vehicles do not disturb each other. The memory of an entry is its own here; in the program
it is up to the end of the handle, so this tells what happens while the payloads fit. -/
theorem vehicles_apart {infos : List LeAdvertisingInfo}
    (pass : ∀ info ∈ infos, checkReportFilter filterType info ≠ 0) :
    let vehicles := printAdvertisingDevices filterType malloc infos
    (vehicles.map Vehicle.address).Nodup ∧
    (∀ a, a ∈ vehicles.map Vehicle.address ↔ a ∈ infos.map LeAdvertisingInfo.bdaddr) ∧
    (∀ v ∈ vehicles, AgreeOnAdv v.adv (accumulated (fromAddress v.address infos))) ∧
    ∀ a, (printAdvertisingDevices.lines filterType malloc [] infos).filter
        (fun x => x.1.bdaddr = a) =
      printAdvertisingDevices.lines filterType malloc [] (fromAddress a infos) := by
  intro vehicles
  have table : vehicles = (scanner malloc).run [] infos := vehicles_eq pass
  have empty : (([] : List Vehicle).map (scanner malloc).keyOf).Nodup := List.nodup_nil
  rw [table]
  refine ⟨Registry.keys_run_nodup empty, ?_, ?_, ?_⟩
  · intro a
    have keys := @Registry.mem_keys_run _ _ _ _ _ (scanner malloc) a infos []
    simp only [List.map_nil, List.not_mem_nil, false_or] at keys
    exact keys
  · intro v member x low
    have held := congrArg (fun u => u.adv x) (Registry.mem_run member)
    exact held.trans (entry_agrees malloc v.address (fromAddress v.address infos) x low)
  · intro a
    have own : ∀ info ∈ fromAddress a infos, checkReportFilter filterType info ≠ 0 :=
      fun info member => pass info (List.mem_of_mem_filter member)
    rw [lines_eq [] pass, lines_eq [] own]
    exact @Registry.trace_own _ _ _ _ _ (scanner malloc) [] [] a rfl infos

theorem interleaved_vehicles_apart :
    let a : BdAddr := #v[0x12, 0x34, 0x56, 0x78, 0x9a, 0xbc]
    let b : BdAddr := #v[0x12, 0x34, 0x56, 0x78, 0x9a, 0xbd]
    let infos := [reportOf a adv0, reportOf b adv1, reportOf a adv1]
    ((printAdvertisingDevices 0 (fun _ _ => 0xff) infos).map Vehicle.address).Nodup ∧
      (printAdvertisingDevices.lines 0 (fun _ _ => 0xff) [] infos).filter
          (fun x => x.1.bdaddr = a) =
        printAdvertisingDevices.lines 0 (fun _ _ => 0xff) [] (fromAddress a infos) := by
  intro a b infos
  have pass : ∀ info ∈ infos, checkReportFilter 0 info ≠ 0 := by decide
  have apart := @vehicles_apart 0 (fun _ _ => 0xff) infos pass
  exact ⟨apart.1, apart.2.2.2 a⟩

end Scan

end AnkiDrive
