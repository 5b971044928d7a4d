import AnkiDrive.Footprint

/-! What a run leaves behind does not depend on how its records arrived: not on the
order or the repetition of packets that are about different things, and not on how a
sequence of records was cut into packets. A packet that is turned down counts as if it
had ended in front of the record it is turned down for. -/
namespace AnkiDrive
open CModel

/-- The packets of a run that differ are about different types of record. -/
def Unrelated (ps : List Packet) : Prop :=
  ∀ p ∈ ps, ∀ q ∈ ps, p.bytes ≠ q.bytes → ∀ r ∈ p.records, ∀ s ∈ q.records, r.type ≠ s.type

def handlePacket (m : Memory) (rs : List Record) : Memory := (packetPatch rs).apply m

theorem parsePackets_updates (ps : List Packet) (adv : Memory) :
    (parsePackets ps adv).2 = (ps.map Packet.records).foldl handlePacket adv := by
  induction ps generalizing adv with
  | nil => rfl
  | cons p ps ih =>
    have here : (parsePacket p adv).2 = handlePacket adv p.records := by
      rw [parsePacket_eq]
      exact parseRecords_patch _ _
    rw [List.map_cons, List.foldl_cons, ← here]
    exact ih _

theorem packetPatch_leaves {rs : List Record} {a : Nat}
    (all : ∀ r ∈ accepted rs, (recordPatch r.type r.payload).Leaves a) :
    (packetPatch rs).Leaves a := by
  refine Patch.seq_leaves fun P member => ?_
  obtain ⟨r, hr, rfl⟩ := List.mem_map.mp member
  exact all r hr

theorem handlePacket_comm {rs ss : List Record} (fitsR : ∀ r ∈ rs, Fits r)
    (fitsS : ∀ s ∈ ss, Fits s) (apart : ∀ r ∈ rs, ∀ s ∈ ss, r.type ≠ s.type) (m : Memory) :
    handlePacket (handlePacket m rs) ss = handlePacket (handlePacket m ss) rs := by
  refine Patch.apply_comm (fun a => ?_) m
  by_cases all : ∀ r ∈ accepted rs, (recordPatch r.type r.payload).Leaves a
  · exact Or.inl (packetPatch_leaves all)
  · right
    push Not at all
    obtain ⟨r, hr, touched⟩ := all
    refine packetPatch_leaves fun s hs => ?_
    have inR := accepted_subset hr
    have inS := accepted_subset hs
    rcases records_apart (fitsR r inR) (fitsS s inS) (apart r inR s inS) a with left | right
    · exact absurd left touched
    · exact right

theorem unrelated_apart {ps : List Packet} (unrelated : Unrelated ps) :
    ∀ rs ∈ ps.map Packet.records, ∀ ss ∈ ps.map Packet.records, rs ≠ ss →
      ∀ r ∈ rs, ∀ s ∈ ss, r.type ≠ s.type := by
  intro rs hrs ss hss other
  obtain ⟨p, hp, rfl⟩ := List.mem_map.mp hrs
  obtain ⟨q, hq, rfl⟩ := List.mem_map.mp hss
  exact unrelated p hp q hq fun equal => other (Packet.records_of_bytes equal)

theorem unrelated_comm {ps : List Packet} (unrelated : Unrelated ps)
    (fits : ∀ p ∈ ps, ∀ r ∈ p.records, Fits r) :
    ∀ rs ∈ ps.map Packet.records, ∀ ss ∈ ps.map Packet.records, ∀ m,
      handlePacket (handlePacket m rs) ss = handlePacket (handlePacket m ss) rs := by
  intro rs hrs ss hss m
  rcases eq_or_ne rs ss with rfl | other
  · rfl
  · have apart := unrelated_apart unrelated rs hrs ss hss other
    obtain ⟨p, hp, rfl⟩ := List.mem_map.mp hrs
    obtain ⟨q, hq, rfl⟩ := List.mem_map.mp hss
    exact handlePacket_comm (fits p hp) (fits q hq) apart m

/-- Only which packets were heard matters, not in which order nor how often. -/
theorem same_packets_same_struct {ps qs : List Packet}
    (same : ∀ bytes, bytes ∈ ps.map Packet.bytes ↔ bytes ∈ qs.map Packet.bytes)
    (unrelated : Unrelated ps) (fits : ∀ p ∈ ps, ∀ r ∈ p.records, Fits r) (adv : Memory) :
    (parsePackets ps adv).2 = (parsePackets qs adv).2 := by
  have members : ∀ rs, rs ∈ ps.map Packet.records ↔ rs ∈ qs.map Packet.records :=
    mem_map_determined (fun _ _ _ _ => Packet.records_of_bytes) same
  rw [parsePackets_updates, parsePackets_updates]
  exact foldl_same_members handlePacket members (unrelated_comm unrelated fits)
    (fun rs _ m => Patch.apply_twice _ m) adv

theorem heard_again_same_struct :
    let flags : Record := ⟨advTypeFlags, [0x06], by decide, by decide⟩
    let name : Record := ⟨advTypeLocalName, [0x50, 0x20, 0x21], by decide, by decide⟩
    let adv0 := Packet.ofRecords [flags, ankiUuidRecord]
    let adv1 := Packet.ofRecords [name]
    (parsePackets [adv0, adv1] (fun _ => 0xaa)).2 =
      (parsePackets [adv1, adv0, adv1] (fun _ => 0xaa)).2 := by
  intro flags name adv0 adv1
  have same : ∀ bytes, bytes ∈ [adv0, adv1].map Packet.bytes ↔
      bytes ∈ [adv1, adv0, adv1].map Packet.bytes := by
    intro bytes
    simp only [List.map_cons, List.map_nil, List.mem_cons, List.not_mem_nil, or_false]
    tauto
  have unrelated : Unrelated [adv0, adv1] := by
    simp only [Unrelated, adv0, adv1, List.forall_mem_cons, Packet.ofRecords_records]
    simp [flags, name, ankiUuidRecord, advTypeFlags, advTypeLocalName, advTypeUuid128]
  have fits : ∀ p ∈ [adv0, adv1], ∀ r ∈ p.records, Fits r := by
    simp only [adv0, adv1, List.forall_mem_cons, Packet.ofRecords_records]
    decide
  exact same_packets_same_struct same unrelated fits _

/-- Parsing a sequence of records at one go or in two packets is the same, unless the
first of the two packets ends the parse; then the second is not looked at. -/
theorem parse_append {p a b : Packet} {rs : List Record} (front : a.bytes = encode rs)
    (whole : p.bytes = a.bytes ++ b.bytes) (adv : Memory) :
    ((∀ r ∈ rs, ¬ UnknownType r ∧ ¬ ForeignUuid r) →
      parsePacket p adv = parsePacket b (parsePacket a adv).2) ∧
    ((∃ r ∈ rs, UnknownType r ∨ ForeignUuid r) → parsePacket p adv = parsePacket a adv) := by
  have split : p.records = rs ++ b.records := Packet.records_append (front ▸ whole)
  simp only [parsePacket_eq, split, Packet.records_encode front]
  constructor
  · intro all
    exact parseRecords_append_accepted _ adv fun r hr => abortCode_eq_none_iff.mpr (all r hr)
  · rintro ⟨r, hr, ends⟩
    refine parseRecords_append_aborted _ adv ⟨r, hr, fun goes => ?_⟩
    obtain ⟨known, own⟩ := abortCode_eq_none_iff.mp goes
    exact ends.elim known own

theorem uuid_moved_to_second_packet :
    let flags : Record := ⟨advTypeFlags, [0x06], by decide, by decide⟩
    let b := Packet.ofRecords [ankiUuidRecord]
    let p := Packet.prepend [flags] b
    parsePacket p (fun _ => 0) =
      parsePacket b (parsePacket (Packet.ofRecords [flags]) (fun _ => 0)).2 := by
  intro flags b p
  have front : (Packet.ofRecords [flags]).bytes = encode [flags] := Packet.ofRecords_bytes _
  have whole : p.bytes = (Packet.ofRecords [flags]).bytes ++ b.bytes := by simp [p]
  have goes : ∀ r ∈ [flags], ¬ UnknownType r ∧ ¬ ForeignUuid r := by decide
  exact (parse_append front whole _).1 goes

theorem verdict_cases (adv : Option Memory) :
    ankiVehicleParseAdvRecord.verdict adv = 0 ∨ ankiVehicleParseAdvRecord.verdict adv = 2 := by
  cases adv with
  | none => exact Or.inr rfl
  | some adv =>
    simp only [ankiVehicleParseAdvRecord.verdict]
    split
    · exact Or.inl rfl
    · exact Or.inr rfl

theorem parseRecords_ne_one (rs : List Record) (m : Memory) : (parseRecords rs m).1 ≠ 1 := by
  induction rs generalizing m with
  | nil =>
    rcases verdict_cases (some m) with zero | two
    · exact fun one => absurd (zero.symm.trans one) (by decide)
    · exact fun one => absurd (two.symm.trans one) (by decide)
  | cons r rs ih =>
    cases outcome : abortCode r.type r.payload with
    | none =>
      simp only [parseRecords, outcome]
      exact ih _
    | some code =>
      simp only [parseRecords, outcome]
      rintro rfl
      rw [abortCode_eq] at outcome
      split at outcome
      · cases outcome
      · split at outcome <;> cases outcome

theorem parseRecords_aborted {rs : List Record} (adv : Memory)
    (aborts : ∃ r ∈ rs, abortCode r.type r.payload ≠ none) :
    ∃ before r after, rs = before ++ r :: after ∧
      (∀ s ∈ before, abortCode s.type s.payload = none) ∧ abortCode r.type r.payload ≠ none ∧
      (parseRecords rs adv).2 = (parseRecords before adv).2 := by
  obtain ⟨r, member, ends⟩ := aborts
  have found : (rs.find? fun r => (abortCode r.type r.payload).isSome).isSome :=
    List.find?_isSome.mpr ⟨r, member, Option.isSome_iff_ne_none.mpr ends⟩
  obtain ⟨r, first⟩ := Option.isSome_iff_exists.mp found
  obtain ⟨ends, before, after, split, goes⟩ := List.find?_eq_some_iff_append.mp first
  have front : ∀ s ∈ before, abortCode s.type s.payload = none := by
    intro s hs
    simpa using goes s hs
  refine ⟨before, r, after, split, front, Option.isSome_iff_ne_none.mp ends, ?_⟩
  obtain ⟨code, outcome⟩ := Option.isSome_iff_exists.mp ends
  rw [split, parseRecords_append_accepted _ adv front]
  simp only [parseRecords, outcome]

/-- A call that fails for want of data leaves the struct as it was. A packet that is turned
down for one of its records leaves in it what the records in front of that one leave. -/
theorem rejected_packet_cut_short :
    (∀ scanData n adv, (ankiVehicleParseAdvRecord scanData n (some adv)).1 = 1 →
      (ankiVehicleParseAdvRecord scanData n (some adv)).2 = some adv) ∧
    ∀ p adv, (parsePacket p adv).1 = 3 ∨
        ((parsePacket p adv).1 = 2 ∧ ∃ r ∈ p.records, ForeignUuid r) →
      ∃ before r after, p.records = before ++ r :: after ∧
        (∀ s ∈ before, ¬ UnknownType s ∧ ¬ ForeignUuid s) ∧ (UnknownType r ∨ ForeignUuid r) ∧
        (parsePacket p adv).2 = (parsePacket (Packet.ofRecords before) adv).2 ∧
        (before = [] → (parsePacket p adv).2 = adv) := by
  constructor
  · intro scanData n adv one
    cases scanData with
    | none => rfl
    | some data =>
      simp only [ankiVehicleParseAdvRecord, loop_run] at one
      exact absurd one (parseRecords_ne_one _ adv)
  · intro p adv rejected
    rw [parsePacket_eq] at rejected
    have aborts : ∃ r ∈ p.records, abortCode r.type r.payload ≠ none := by
      by_contra all
      push Not at all
      rcases rejected with three | ⟨_, r, member, foreign⟩
      · rw [parseRecords_accepted adv all] at three
        rcases verdict_cases (some (parseRecords p.records adv).2) with zero | two
        · exact absurd (zero.symm.trans three) (by decide)
        · exact absurd (two.symm.trans three) (by decide)
      · exact (abortCode_eq_none_iff.mp (all r member)).2 foreign
    obtain ⟨before, r, after, split, goes, ends, left⟩ := parseRecords_aborted adv aborts
    have result : (parsePacket p adv).2 = (parsePacket (Packet.ofRecords before) adv).2 := by
      rw [parsePacket_eq, parsePacket_eq, Packet.ofRecords_records]
      exact left
    refine ⟨before, r, after, split, fun s hs => abortCode_eq_none_iff.mp (goes s hs), ?_, result, ?_⟩
    · by_contra neither
      obtain ⟨known, own⟩ := not_or.mp neither
      exact ends (abortCode_eq_none_iff.mpr ⟨known, own⟩)
    · rintro rfl
      rw [result, parsePacket_eq, Packet.ofRecords_records]
      rfl

theorem unknown_first_leaves_struct :
    let unknown : Record := ⟨0x12, [0x08], by decide, by decide⟩
    let p := Packet.ofRecords [unknown, ankiUuidRecord]
    ∃ before r after, p.records = before ++ r :: after ∧
      (∀ s ∈ before, ¬ UnknownType s ∧ ¬ ForeignUuid s) ∧ (UnknownType r ∨ ForeignUuid r) ∧
      (parsePacket p fun _ => 0xaa).2 = (parsePacket (Packet.ofRecords before) fun _ => 0xaa).2 ∧
      (before = [] → (parsePacket p fun _ => 0xaa).2 = fun _ => 0xaa) := by
  intro unknown p
  exact rejected_packet_cut_short.2 p _ (Or.inl (by decide +kernel))

/-- The flags of a packet that is turned down for its second record are in the struct. -/
theorem rejected_packet_leaves_flags :
    let flags : Record := ⟨advTypeFlags, [0x06], by decide, by decide⟩
    let unknown : Record := ⟨0x12, [0x08], by decide, by decide⟩
    let p := Packet.ofRecords [flags, unknown]
    (∀ r ∈ p.records, Fits r) ∧ (parsePacket p fun _ => 0).1 = 3 ∧
      flagsOf (parsePacket p fun _ => 0).2 = 0x06 := by
  intro flags unknown p
  refine ⟨?_, by decide +kernel, by decide +kernel⟩
  simp only [p, Packet.ofRecords_records]
  decide

end AnkiDrive
