import AnkiDrive.Announce

/-! A vehicle whose packets are about different things is announced in whatever order they
are heard. A member stays unset until the packet that sets it is heard, and keeps from then
on what that packet says, so what has once been complete stays complete. -/
namespace AnkiDrive
open CModel

section Settled

variable {ps : List Packet} (unrelated : Unrelated ps) (fits : ∀ p ∈ ps, ∀ r ∈ p.records, Fits r)

include fits

theorem other_packet_leaves {k : Kind} {rs : List Record} (ours : rs ∈ ps.map Packet.records)
    (none : ∀ r ∈ rs, kindOf r.type ≠ some k) (m : Memory) : k.field.Agree m (handlePacket m rs) := by
  obtain ⟨p, hp, rfl⟩ := List.mem_map.mp ours
  intro a covers
  have untouched : (packetPatch p.records).Leaves a := by
    refine packetPatch_leaves fun r hr => ?_
    have member := accepted_subset hr
    refine record_leaves (fits p hp r member) fun j known => ?_
    apply fields_apart _ covers
    rintro rfl
    exact none r member known
  exact (Patch.apply_leaves untouched m).symm

theorem unheard {k : Kind} {rss : List (List Record)}
    (ours : ∀ rs ∈ rss, rs ∈ ps.map Packet.records)
    (none : ∀ rs ∈ rss, ∀ r ∈ rs, kindOf r.type ≠ some k) (m : Memory) :
    k.field.Agree m (rss.foldl handlePacket m) := by
  induction rss generalizing m with
  | nil => exact fun _ _ => rfl
  | cons rs rss ih =>
    obtain ⟨here, rest⟩ := List.forall_mem_cons.mp ours
    obtain ⟨first, later⟩ := List.forall_mem_cons.mp none
    intro a covers
    have left := other_packet_leaves fits here first m a covers
    exact left.trans (ih rest later (handlePacket m rs) a covers)

include unrelated

theorem settled {k : Kind} {rss : List (List Record)} {rs ss : List Record}
    (ours : ∀ rs ∈ rss, rs ∈ ps.map Packet.records) (next : ss ∈ ps.map Packet.records)
    (heard : rs ∈ rss) (known : ∃ r ∈ rs, kindOf r.type = some k) (m : Memory) :
    k.field.Agree (rss.foldl handlePacket m) (handlePacket (rss.foldl handlePacket m) ss) := by
  rcases eq_or_ne rs ss with rfl | other
  · have comm := unrelated_comm unrelated fits
    obtain ⟨last, replayed⟩ := foldl_last_of_mem handlePacket heard
      (fun as hs bs ht => comm as (ours as hs) bs (ours bs ht)) m
    intro a _
    rw [replayed]
    exact (congrFun (Patch.apply_twice _ last) a).symm
  · obtain ⟨r, member, type⟩ := known
    refine other_packet_leaves fits next (fun s hs same => ?_) _
    have types := unrelated_apart unrelated rs (ours rs heard) ss next other r member s hs
    exact types ((kindOf_eq_some type).trans (kindOf_eq_some same).symm)

theorem stays_known {k : Kind} {Q : Memory → Prop}
    (member : ∀ {m m'}, k.field.Agree m m' → Q m → Q m') (unset : ¬ Q fun _ => 0)
    {rss tss : List (List Record)} (ours : ∀ rs ∈ rss ++ tss, rs ∈ ps.map Packet.records)
    (holds : Q (rss.foldl handlePacket fun _ => 0)) :
    Q ((rss ++ tss).foldl handlePacket fun _ => 0) := by
  induction tss using List.reverseRecOn with
  | nil =>
    rw [List.append_nil]
    exact holds
  | append_singleton tss ss ih =>
    rw [← List.append_assoc] at ours ⊢
    have before : ∀ rs ∈ rss ++ tss, rs ∈ ps.map Packet.records :=
      fun rs hrs => ours rs (List.mem_append_left _ hrs)
    have here := ih before
    rw [List.foldl_append]
    rcases Classical.em (∃ rs ∈ rss ++ tss, ∃ r ∈ rs, kindOf r.type = some k) with
      ⟨rs, heard, known⟩ | never
    · exact member (settled unrelated fits before (ours ss (by simp)) heard known _) here
    · have none : ∀ rs ∈ rss ++ tss, ∀ r ∈ rs, kindOf r.type ≠ some k :=
        fun rs hrs r hr known => never ⟨rs, hrs, r, hr, known⟩
      have zero := unheard fits before none fun _ => 0
      exact absurd (member (fun a covers => (zero a covers).symm) here) unset

end Settled

/-- What the scanner waits for: the service, the identifier and the version. -/
def Recognised (adv : Memory) : Prop :=
  serviceIdOf adv = ankiServiceUuidLE ∧ Complete adv

instance : DecidablePred Recognised := fun _ => inferInstanceAs (Decidable (_ ∧ _))

theorem unset_not_recognised : ¬ Recognised fun _ => 0 := by decide

theorem recognised_stays {ps : List Packet} (unrelated : Unrelated ps)
    (fits : ∀ p ∈ ps, ∀ r ∈ p.records, Fits r) {rss tss : List (List Record)}
    (ours : ∀ rs ∈ rss ++ tss, rs ∈ ps.map Packet.records)
    (here : Recognised (rss.foldl handlePacket fun _ => 0)) :
    Recognised ((rss ++ tss).foldl handlePacket fun _ => 0) := by
  obtain ⟨service, identifier, version⟩ := here
  refine ⟨?_, ?_, ?_⟩
  · refine @stays_known _ unrelated fits .uuid128 (fun m => serviceIdOf m = ankiServiceUuidLE)
      (fun agree => ?_) (by decide) _ _ ours service
    rw [serviceIdOf_member agree]
    exact id
  · refine @stays_known _ unrelated fits .manufacturerData (fun m => 0 < (mfgDataOf m).identifier)
      (fun agree => ?_) (by decide) _ _ ours identifier
    rw [mfgDataOf_member agree]
    exact id
  · refine @stays_known _ unrelated fits .localName (fun m => 0 < (localNameOf m).version)
      (fun agree => ?_) (by decide) _ _ ours version
    rw [localNameOf_member agree]
    exact id

theorem completes_iff {before : List LeAdvertisingInfo} {info : LeAdvertisingInfo}
    (goes : ∀ r ∈ info.records, abortCode r.type r.payload = none) :
    Completes before info ↔ Recognised (accumulated (before ++ [info])) := by
  rw [accumulated_concat]
  simp only [Completes, Recognised, parseReport_eq, parseRecords_eq_zero_iff]
  exact and_congr_left fun _ => and_iff_right goes

theorem happened_iff_recognised {ps : List Packet} (unrelated : Unrelated ps)
    (fits : ∀ p ∈ ps, ∀ r ∈ p.records, Fits r)
    (goes : ∀ p ∈ ps, ∀ r ∈ p.records, abortCode r.type r.payload = none)
    {infos : List LeAdvertisingInfo}
    (ours : ∀ info ∈ infos, info.records ∈ ps.map Packet.records) :
    Happened Completes infos ↔ Recognised (accumulated infos) := by
  have accepts : ∀ info ∈ infos, ∀ r ∈ info.records, abortCode r.type r.payload = none := by
    intro info member
    obtain ⟨p, hp, same⟩ := List.mem_map.mp (ours info member)
    exact same ▸ goes p hp
  constructor
  · rintro ⟨before, info, after, rfl, completes⟩
    have split : before ++ info :: after = (before ++ [info]) ++ after := by simp
    have here := (completes_iff (accepts info (by simp))).mp completes
    rw [accumulated_updates] at here
    rw [split, accumulated_updates, List.map_append]
    refine recognised_stays unrelated fits ?_ here
    rw [← List.map_append, ← split]
    exact List.forall_mem_map.mpr ours
  · intro found
    rcases List.eq_nil_or_concat infos with rfl | ⟨before, info, rfl⟩
    · exact absurd found unset_not_recognised
    · rw [List.concat_eq_append] at found accepts ⊢
      exact ⟨before, info, [], rfl, (completes_iff (accepts info (by simp))).mpr found⟩

theorem report_records {info : LeAdvertisingInfo} {p : Packet} (same : info.bytes = p.bytes) :
    info.records = p.records := by
  have len : info.length.toNat = p.len := by
    have sizes := congrArg List.length same
    simpa only [LeAdvertisingInfo.bytes, slice_length, Packet.bytes_length] using sizes
  have agree : ∀ a < p.len, p.data a = info.data a := by
    intro a low
    rw [LeAdvertisingInfo.bytes, Packet.bytes, len] at same
    simpa using (slice_eq_iff.mp same a low).symm
  rw [LeAdvertisingInfo.records, len]
  exact (decode_congr p.inside agree).symm

/-- Whether a vehicle is announced is a matter of which packets were heard from it. -/
theorem announced_in_any_order {malloc : BdAddr → Memory} {a : BdAddr} {ps : List Packet}
    {infos : List LeAdvertisingInfo} (fresh : malloc a Vehicle.scanCompleteOffset = 0)
    (one : ∀ info ∈ infos, info.bdaddr = a)
    (same : ∀ bytes, bytes ∈ infos.map LeAdvertisingInfo.bytes ↔ bytes ∈ ps.map Packet.bytes)
    (unrelated : Unrelated ps) (fits : ∀ p ∈ ps, ∀ r ∈ p.records, Fits r)
    (known : ∀ p ∈ ps, ∀ r ∈ p.records, ¬ UnknownType r)
    (anki : ∀ p ∈ ps, ∀ r ∈ p.records, r.type = advTypeUuid128 → r.payload = ankiServiceUuidLE) :
    Happened (Announces 0 malloc a) infos ↔
      serviceIdOf (parsePackets ps fun _ => 0).2 = ankiServiceUuidLE ∧
      0 < (mfgDataOf (parsePackets ps fun _ => 0).2).identifier ∧
      0 < (localNameOf (parsePackets ps fun _ => 0).2).version := by
  have members : ∀ rs, rs ∈ infos.map LeAdvertisingInfo.records ↔ rs ∈ ps.map Packet.records :=
    mem_map_determined (fun _ _ _ _ => report_records) same
  have ours : ∀ info ∈ infos, info.records ∈ ps.map Packet.records :=
    fun info member => (members _).mp (List.mem_map_of_mem member)
  have goes : ∀ p ∈ ps, ∀ r ∈ p.records, abortCode r.type r.payload = none :=
    fun p hp r hr => abortCode_eq_none_iff.mpr
      ⟨known p hp r hr, fun foreign => foreign.2.2 (anki p hp r hr foreign.1)⟩
  have spares : ∀ info ∈ infos, ∀ r ∈ accepted info.records, SparesFlag r := by
    intro info member r hr
    obtain ⟨p, hp, equal⟩ := List.mem_map.mp (ours info member)
    exact fits_sparesFlag (fits p hp r (equal ▸ accepted_subset hr))
  have printed : Happened (Announces 0 malloc a) infos ↔ Happened Completes (fromAddress a infos) :=
    printed_iff_completes (fun _ _ => by simp [checkReportFilter]) fresh fun i hi _ => spares i hi
  have all : fromAddress a infos = infos :=
    List.filter_eq_self.mpr fun info member => by simpa using one info member
  have struct : accumulated infos = (parsePackets ps fun _ => 0).2 := by
    rw [accumulated_updates, parsePackets_updates]
    refine foldl_same_members handlePacket members ?_ (fun rs _ m => Patch.apply_twice _ m) _
    have comm := unrelated_comm unrelated fits
    exact fun rs hrs ss hss => comm rs ((members rs).mp hrs) ss ((members ss).mp hss)
  rw [printed, all, happened_iff_recognised unrelated fits goes ours, struct]
  rfl

theorem announced_with_name_heard_first :
    let a : BdAddr := #v[0x12, 0x34, 0x56, 0x78, 0x9a, 0xbc]
    Happened (Announces 0 (fun _ _ => 0) a) [reportOf a adv1, reportOf a adv0, reportOf a adv1] := by
  intro a
  let ps := [Packet.ofRecords adv0, Packet.ofRecords adv1]
  have heard : [reportOf a adv1, reportOf a adv0, reportOf a adv1].map LeAdvertisingInfo.bytes =
      [encode adv1, encode adv0, encode adv1] := by decide +kernel
  have same : ∀ bytes, bytes ∈ [reportOf a adv1, reportOf a adv0, reportOf a adv1].map
      LeAdvertisingInfo.bytes ↔ bytes ∈ ps.map Packet.bytes := by
    intro bytes
    rw [heard]
    simp only [ps, List.map_cons, List.map_nil, Packet.ofRecords_bytes, List.mem_cons,
      List.not_mem_nil, or_false]
    tauto
  have records : ∀ {P : Record → Prop}, (∀ rs ∈ [adv0, adv1], ∀ r ∈ rs, P r) →
      ∀ p ∈ ps, ∀ r ∈ p.records, P r := by
    intro P all p hp
    have decoded : p.records ∈ ps.map Packet.records := List.mem_map_of_mem hp
    simp only [ps, List.map_cons, List.map_nil, Packet.ofRecords_records] at decoded
    exact all p.records decoded
  have unrelated : Unrelated ps := by
    simp only [Unrelated, ps, List.forall_mem_cons, Packet.ofRecords_records,
      Packet.ofRecords_bytes]
    decide
  refine (announced_in_any_order rfl (by simp [reportOf]) same unrelated (records (by decide))
    (records (by decide)) (records (by decide))).mpr ?_
  decide +kernel

end AnkiDrive
