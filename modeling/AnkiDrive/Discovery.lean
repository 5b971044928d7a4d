import AnkiDrive.Announce

/-! The scanner with a discovery mode. The mode is asked of every report by itself, and a
report that it turns down reaches neither the table nor the parser, so a vehicle is what its
selected reports say. -/
namespace AnkiDrive
open CModel

def selected (filterType : UInt8) (infos : List LeAdvertisingInfo) : List LeAdvertisingInfo :=
  infos.filter (fun info => checkReportFilter filterType info ≠ 0)

section Selected

variable {filterType : UInt8} {malloc : BdAddr → Memory} {a : BdAddr}

theorem selected_pass {infos : List LeAdvertisingInfo} :
    ∀ info ∈ selected filterType infos, checkReportFilter filterType info ≠ 0 := by
  intro info member
  simpa using (List.mem_filter.mp member).2

theorem report_turned_down {vehicles : List Vehicle} {info : LeAdvertisingInfo}
    (down : checkReportFilter filterType info = 0) :
    printAdvertisingDevices.report filterType malloc vehicles info = (vehicles, none) := by
  unfold printAdvertisingDevices.report
  exact if_neg (not_not.mpr down)

/-- The reports that are turned down leave no trace in the table. -/
theorem vehicles_selected (infos : List LeAdvertisingInfo) :
    printAdvertisingDevices filterType malloc infos =
      printAdvertisingDevices filterType malloc (selected filterType infos) := by
  unfold printAdvertisingDevices selected
  rw [List.foldl_filter]
  refine List.foldl_ext _ _ [] fun vehicles info _ => ?_
  split
  · rfl
  · rename_i verdict
    have down : checkReportFilter filterType info = 0 := by simpa using verdict
    rw [report_turned_down down]

theorem announces_selected {before : List LeAdvertisingInfo} {info : LeAdvertisingInfo} :
    Announces filterType malloc a before info ↔
      decide (checkReportFilter filterType info ≠ 0) = true ∧
        Announces filterType malloc a (selected filterType before) info := by
  unfold Announces
  rw [vehicles_selected before]
  constructor
  · intro printed
    refine ⟨?_, printed⟩
    by_contra verdict
    have down : checkReportFilter filterType info = 0 := by simpa using verdict
    rw [report_turned_down down] at printed
    cases printed
  · exact And.right

theorem printed_selected {infos : List LeAdvertisingInfo} :
    Happened (Announces filterType malloc a) infos ↔
      Happened (Announces filterType malloc a) (selected filterType infos) := by
  refine Iff.trans (happened_congr ?_) happened_filter.symm
  intro before info after _
  exact announces_selected

theorem handles_kept_selected {infos : List LeAdvertisingInfo}
    (handles : ∀ info ∈ selected filterType infos, ∀ r ∈ accepted info.records, SparesHandle r) :
    ∀ v ∈ printAdvertisingDevices filterType malloc infos, v.HandleKept malloc := by
  rw [vehicles_selected infos]
  exact handles_kept selected_pass handles

theorem prints_selected {infos : List LeAdvertisingInfo}
    (handles : ∀ info ∈ selected filterType infos, ∀ r ∈ accepted info.records, SparesHandle r) :
    Happened (Prints filterType malloc a) infos ↔ Happened (Announces filterType malloc a) infos := by
  refine happened_congr ?_
  rintro before info after rfl
  refine and_iff_right fun heard early => ?_
  have front : heard <+: before ++ info :: after :=
    ((List.mem_inits _ _).mp early).trans (List.prefix_append _ _)
  exact handles_kept_selected fun i hi => handles i ((front.filter _).subset hi)

/-- In every discovery mode, a vehicle is printed exactly when those of its reports that pass
the filter, parsed in order into a zeroed struct, are at some report complete. -/
theorem printed_iff_selected_complete {infos : List LeAdvertisingInfo}
    (fresh : malloc a Vehicle.scanCompleteOffset = 0)
    (handles : ∀ info ∈ selected filterType infos, ∀ r ∈ accepted info.records, SparesHandle r)
    (spares : ∀ info ∈ selected filterType infos, info.bdaddr = a →
      ∀ r ∈ accepted info.records, SparesFlag r) :
    Happened (Prints filterType malloc a) infos ↔
      Happened Completes (fromAddress a (selected filterType infos)) :=
  (prints_selected handles).trans
    (printed_selected.trans (printed_iff_completes selected_pass fresh spares))

theorem printed_with_flags_in_both_packets :
    let a : BdAddr := #v[0x12, 0x34, 0x56, 0x78, 0x9a, 0xbc]
    let first := reportOf a adv0
    let second := reportOf a [advData.flagsRecord, advData.localNameRecord]
    Happened (Prints generalDiscovery (fun _ _ => 0) a) [first, second, reportOf a adv1] := by
  intro a first second
  have passes : checkReportFilter generalDiscovery first ≠ 0 ∧
      checkReportFilter generalDiscovery second ≠ 0 ∧
      checkReportFilter generalDiscovery (reportOf a adv1) = 0 := by decide +kernel
  have chosen : selected generalDiscovery [first, second, reportOf a adv1] = [first, second] := by
    simp [selected, passes]
  have fits : ∀ info ∈ [first, second], ∀ r ∈ accepted info.records, Fits r := by decide +kernel
  have spares : ∀ info ∈ selected generalDiscovery [first, second, reportOf a adv1],
      ∀ r ∈ accepted info.records, SparesFlag r := by
    intro info member r hr
    rw [chosen] at member
    exact fits_sparesFlag (fits info member r hr)
  refine (@printed_iff_selected_complete generalDiscovery (fun _ _ => 0) a _ rfl
    (fun info member r hr => sparesFlag_sparesHandle (spares info member r hr))
    fun info member _ => spares info member).mpr ?_
  rw [chosen]
  exact ⟨[first], second, [], rfl, by decide +kernel⟩

/-- The packet with the name has no flags. In general discovery it is turned down, and the
vehicle is not printed, although its reports are complete and one of them is let through.
Without a discovery mode it is not printed either if a service id comes first that is three
bytes too long, the last of which is copied to `scan_complete`. -/
theorem complete_vehicle_turned_down :
    let a : BdAddr := #v[0x12, 0x34, 0x56, 0x78, 0x9a, 0xbc]
    let first := reportOf a adv0
    let second := reportOf a adv1
    let tooLong := reportOf a
      [⟨advTypeUuid128, ankiServiceUuidLE ++ [0x01, 0x01, 0x01], by decide, by decide⟩]
    (checkReportFilter generalDiscovery first ≠ 0 ∧
      Happened Completes (fromAddress a [first, second]) ∧
      ¬ Happened (Prints generalDiscovery (fun _ _ => 0) a) [first, second]) ∧
    Happened Completes (fromAddress a [tooLong, first, second]) ∧
      ¬ Happened (Prints 0 (fun _ _ => 0) a) [tooLong, first, second] := by
  decide +kernel

end Selected

end AnkiDrive
