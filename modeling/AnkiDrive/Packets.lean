import Mathlib.Data.List.TakeWhile
import AnkiDrive.Handling
import AnkiDrive.Loops

/-! The loop of `anki_vehicle_parse_adv_record` as a run over the decoded records,
and what follows for whole packets. -/
namespace AnkiDrive
open CModel

/-- What the loop does to a sequence of records, with somewhere to put them. -/
def parseRecords : List Record → Memory → UInt8 × Memory
  | [], m => (ankiVehicleParseAdvRecord.verdict (some m), m)
  | r :: rs, m =>
    match abortCode r.type r.payload with
    | some code => (code, m)
    | none => parseRecords rs ((recordPatch r.type r.payload).apply m)

/-- What the loop does to a sequence of records in query mode. -/
def queryRecords : List Record → UInt8
  | [] => 2
  | r :: rs =>
    match abortCode r.type r.payload with
    | some code => code
    | none => if kindOf r.type = some .uuid128 then 0 else queryRecords rs

variable (data : Memory) (n i : Nat)

theorem length_pred {len : UInt8} (counted : len ≠ 0) : (len - 1).toNat = len.toNat - 1 :=
  UInt8.toNat_sub_of_le len 1 (UInt8.le_iff_toNat_le.mpr (length_pos counted))

theorem recordAt_payload {i : Nat} (counted : data i ≠ 0) (typed : data (i + 1) ≠ 0) :
    slice data (i + 2) (data i - 1).toNat = (recordAt data i typed).payload := by
  rw [length_pred counted]
  rfl

theorem visitRecord_run {i : Nat} (m : Memory) (counted : data i ≠ 0) (typed : data (i + 1) ≠ 0) :
    (visitRecord (data (i + 1)) (data i) (i + 2) (some m)).run data =
      match abortCode (data (i + 1)) (recordAt data i typed).payload with
      | some code => .error (code, some m)
      | none => .ok (some ((recordPatch (data (i + 1)) (recordAt data i typed).payload).apply m)) := by
  rw [visitRecord, Query.run_bind, switch_run _ _ _ typed, recordAt_payload data counted typed]
  cases abortCode (data (i + 1)) (recordAt data i typed).payload with
  | some code => rfl
  | none => rfl

theorem visitRecord_query {i : Nat} (counted : data i ≠ 0) (typed : data (i + 1) ≠ 0) :
    (visitRecord (data (i + 1)) (data i) (i + 2) none).run data =
      match abortCode (data (i + 1)) (recordAt data i typed).payload with
      | some code => .error (code, none)
      | none => if kindOf (data (i + 1)) = some .uuid128 then .error (0, none) else .ok none := by
  rw [visitRecord, Query.run_bind, switch_query _ _ _ typed, recordAt_payload data counted typed]
  cases abortCode (data (i + 1)) (recordAt data i typed).payload with
  | some code => rfl
  | none => by_cases uuid : kindOf (data (i + 1)) = some .uuid128 <;> simp [uuid, Except.mapError]

theorem loop_run (m : Memory) :
    (ankiVehicleParseAdvRecord.loop n (some m) i).run data =
      ((parseRecords (decode data n i) m).1, some (parseRecords (decode data n i) m).2) := by
  rw [parse_eq_walk]
  fun_induction decode data n i generalizing m with
  | case1 i h zero => exact walk_end_run _ _ _ (Or.inr (Or.inl zero))
  | case2 i h counted typed ih =>
    rw [walk_record_run _ _ _ h counted typed, visitRecord_run data m counted typed, parseRecords,
      show (recordAt data i typed).type = data (i + 1) from rfl]
    cases abortCode (data (i + 1)) (recordAt data i typed).payload with
    | some code => rfl
    | none => exact ih _
  | case3 i h counted invalid =>
    exact walk_end_run _ _ _ (Or.inr (Or.inr (by simpa using invalid)))
  | case4 i h => exact walk_end_run _ _ _ (Or.inl (by omega))

theorem loop_query :
    ((ankiVehicleParseAdvRecord.loop n none i).run data).1 = queryRecords (decode data n i) := by
  rw [parse_eq_walk]
  fun_induction decode data n i with
  | case1 i h zero =>
    rw [walk_end_run _ _ _ (Or.inr (Or.inl zero))]
    rfl
  | case2 i h counted typed ih =>
    rw [walk_record_run _ _ _ h counted typed, visitRecord_query data counted typed, queryRecords,
      show (recordAt data i typed).type = data (i + 1) from rfl]
    cases abortCode (data (i + 1)) (recordAt data i typed).payload with
    | some code => rfl
    | none =>
      by_cases uuid : kindOf (data (i + 1)) = some .uuid128
      · simp only [if_pos uuid]
      · simp only [if_neg uuid, ih]
  | case3 i h counted invalid =>
    rw [walk_end_run _ _ _ (Or.inr (Or.inr (by simpa using invalid)))]
    rfl
  | case4 i h =>
    rw [walk_end_run _ _ _ (Or.inl (by omega))]
    rfl

/-- `anki_vehicle_parse_adv_record(p.data, p.len, &adv)`: the code, and `adv` afterwards. -/
def parsePacket (p : Packet) (adv : Memory) : UInt8 × Memory :=
  let (code, after) := ankiVehicleParseAdvRecord (some p.data) p.len (some adv)
  (code, after.getD adv)

/-- `anki_vehicle_parse_adv_record(p.data, p.len, NULL)`. -/
def queryPacket (p : Packet) : UInt8 := (ankiVehicleParseAdvRecord (some p.data) p.len none).1

theorem parsePacket_eq (p : Packet) (adv : Memory) :
    parsePacket p adv = parseRecords p.records adv := by
  simp only [parsePacket, ankiVehicleParseAdvRecord, loop_run, Option.getD_some]
  rfl

theorem queryPacket_eq (p : Packet) : queryPacket p = queryRecords p.records :=
  loop_query p.data p.len 0

/-- One packet after another into the same struct: the codes returned, and the struct. -/
def parsePackets : List Packet → Memory → List UInt8 × Memory
  | [], adv => ([], adv)
  | p :: ps, adv =>
    let (code, after) := parsePacket p adv
    let (codes, final) := parsePackets ps after
    (code :: codes, final)

def UnknownType (r : Record) : Prop := kindOf r.type = none

def AnkiUuid (r : Record) : Prop := r.type = advTypeUuid128 ∧ r.payload = ankiServiceUuidLE

def ankiUuidRecord : Record := ⟨advTypeUuid128, ankiServiceUuidLE, by decide, by decide⟩

def ForeignUuid (r : Record) : Prop :=
  r.type = advTypeUuid128 ∧ r.payload.length = uuid128Size ∧ r.payload ≠ ankiServiceUuidLE

instance : DecidablePred UnknownType := fun _ => inferInstanceAs (Decidable (_ = _))

instance : DecidablePred AnkiUuid := fun _ => inferInstanceAs (Decidable (_ ∧ _))

instance : DecidablePred ForeignUuid := fun _ => inferInstanceAs (Decidable (_ ∧ _ ∧ _))

theorem kindOf_uuid128 {type : UInt8} : kindOf type = some .uuid128 ↔ type = advTypeUuid128 := by
  constructor
  · exact kindOf_eq_some
  · rintro rfl
    exact kindOf_type .uuid128

theorem abortCode_eq (r : Record) :
    abortCode r.type r.payload =
      if UnknownType r then some 3 else if ForeignUuid r then some 2 else none := by
  cases known : kindOf r.type with
  | none => simp [abortCode, UnknownType, known]
  | some k =>
    have foreign : k.foreign r.payload = true ↔ ForeignUuid r := by
      have type : k = .uuid128 ↔ r.type = advTypeUuid128 := by
        rw [← kindOf_uuid128, known, Option.some.injEq]
      simp only [Kind.foreign, ForeignUuid, Bool.and_eq_true, decide_eq_true_eq, type,
        Bool.not_eq_true', and_assoc]
      refine and_congr_right (fun _ => and_congr_right fun size => ?_)
      rw [← Bool.not_eq_true, isAnkiVehicleServiceUuid_iff size]
    simp only [abortCode, UnknownType, known, foreign, reduceCtorEq, if_false]

theorem abortCode_eq_none_iff {r : Record} :
    abortCode r.type r.payload = none ↔ ¬ UnknownType r ∧ ¬ ForeignUuid r := by
  rw [abortCode_eq]
  split
  · simp [*]
  · split <;> simp [*]

theorem abortCode_ne_zero (r : Record) : abortCode r.type r.payload ≠ some 0 := by
  rw [abortCode_eq]
  split
  · decide
  · split <;> simp

theorem verdict_eq_zero_iff {adv : Memory} :
    ankiVehicleParseAdvRecord.verdict (some adv) = 0 ↔ serviceIdOf adv = ankiServiceUuidLE := by
  rw [← isAnkiVehicleServiceUuid_iff (serviceIdOf_length adv), ankiVehicleParseAdvRecord.verdict]
  split <;> simp [*]

/-- The records up to the one that ends the parse. -/
def accepted (rs : List Record) : List Record :=
  rs.takeWhile (fun r => (abortCode r.type r.payload).isNone)

/-- The records a run handles: of each packet those in front of the one that ends its parse. -/
def handled (ps : List Packet) : List Record := ps.flatMap (fun p => accepted p.records)

def handle (m : Memory) (r : Record) : Memory := (recordPatch r.type r.payload).apply m

theorem handle_kind {r : Record} {k : Kind} (known : kindOf r.type = some k) (m : Memory) :
    handle m r = (k.patch r.payload).apply m := by
  simp only [handle, recordPatch, known]

theorem handled_append (ps qs : List Packet) : handled (ps ++ qs) = handled ps ++ handled qs :=
  List.flatMap_append

theorem accepted_none {rs : List Record} {r : Record} (member : r ∈ accepted rs) :
    abortCode r.type r.payload = none := by
  unfold accepted at member
  have goes := List.mem_takeWhile_imp member
  exact Option.isNone_iff_eq_none.mp goes

theorem accepted_subset {rs : List Record} {r : Record} (member : r ∈ accepted rs) : r ∈ rs :=
  (List.takeWhile_prefix _).subset member

theorem mem_handled {ps : List Packet} {r : Record} (member : r ∈ handled ps) :
    ∃ p ∈ ps, r ∈ p.records ∧ abortCode r.type r.payload = none := by
  obtain ⟨p, hp, hr⟩ := List.mem_flatMap.mp member
  exact ⟨p, hp, accepted_subset hr, accepted_none hr⟩

theorem accepted_eq_self {rs : List Record} :
    accepted rs = rs ↔ ∀ r ∈ rs, abortCode r.type r.payload = none := by
  simp only [accepted, List.takeWhile_eq_self_iff, Option.isNone_iff_eq_none]

theorem parseRecords_handled (rs : List Record) (m : Memory) :
    (parseRecords rs m).2 = (accepted rs).foldl handle m := by
  induction rs generalizing m with
  | nil => rfl
  | cons r rs ih =>
    cases outcome : abortCode r.type r.payload with
    | some code => simp [parseRecords, accepted, outcome]
    | none =>
      have split : accepted (r :: rs) = r :: accepted rs := by simp [accepted, outcome]
      simp only [split, parseRecords, outcome, List.foldl_cons]
      exact ih _

theorem parsePackets_handled (ps : List Packet) (adv : Memory) :
    (parsePackets ps adv).2 = (handled ps).foldl handle adv := by
  induction ps generalizing adv with
  | nil => rfl
  | cons p ps ih =>
    have split : handled (p :: ps) = accepted p.records ++ handled ps := rfl
    rw [split, List.foldl_append, ← parseRecords_handled, ← parsePacket_eq]
    exact ih _

def packetPatch (rs : List Record) : Patch :=
  Patch.seq ((accepted rs).map (fun r => recordPatch r.type r.payload))

/-- What a packet leaves behind does not depend on what was there: it is a patch. -/
theorem parseRecords_patch (rs : List Record) (m : Memory) :
    (parseRecords rs m).2 = (packetPatch rs).apply m := by
  rw [parseRecords_handled, packetPatch, Patch.apply_seq, List.foldl_map]
  rfl

theorem parseRecords_append_accepted {as : List Record} (bs : List Record) (m : Memory)
    (all : ∀ r ∈ as, abortCode r.type r.payload = none) :
    parseRecords (as ++ bs) m = parseRecords bs (parseRecords as m).2 := by
  induction as generalizing m with
  | nil => rfl
  | cons r rs ih =>
    have here := all r List.mem_cons_self
    simp only [List.cons_append, parseRecords, here]
    exact ih _ (fun s hs => all s (List.mem_cons_of_mem r hs))

theorem parseRecords_append_aborted {as : List Record} (bs : List Record) (m : Memory)
    (aborts : ∃ r ∈ as, abortCode r.type r.payload ≠ none) :
    parseRecords (as ++ bs) m = parseRecords as m := by
  induction as generalizing m with
  | nil => simp at aborts
  | cons r rs ih =>
    cases outcome : abortCode r.type r.payload with
    | some code => simp only [List.cons_append, parseRecords, outcome]
    | none =>
      simp only [List.cons_append, parseRecords, outcome]
      obtain ⟨s, member, ends⟩ := aborts
      rcases List.mem_cons.mp member with rfl | later
      · exact absurd outcome ends
      · exact ih _ ⟨s, later, ends⟩

theorem parseRecords_accepted {rs : List Record} (m : Memory)
    (all : ∀ r ∈ rs, abortCode r.type r.payload = none) :
    (parseRecords rs m).1 = ankiVehicleParseAdvRecord.verdict (some (parseRecords rs m).2) := by
  have ends := parseRecords_append_accepted [] m all
  rw [List.append_nil] at ends
  rw [ends]
  rfl

theorem parseRecords_eq_zero_iff {rs : List Record} {m : Memory} :
    (parseRecords rs m).1 = 0 ↔ (∀ r ∈ rs, abortCode r.type r.payload = none) ∧
      serviceIdOf (parseRecords rs m).2 = ankiServiceUuidLE := by
  by_cases all : ∀ r ∈ rs, abortCode r.type r.payload = none
  · rw [parseRecords_accepted m all, verdict_eq_zero_iff]
    exact ⟨fun found => ⟨all, found⟩, fun found => found.2⟩
  · refine ⟨?_, fun found => absurd found.1 all⟩
    intro zero
    exfalso
    induction rs generalizing m with
    | nil => simp at all
    | cons r rs ih =>
      cases outcome : abortCode r.type r.payload with
      | some code =>
        simp only [parseRecords, outcome] at zero
        exact abortCode_ne_zero r (zero ▸ outcome)
      | none =>
        simp only [parseRecords, outcome] at zero
        exact ih (by simpa [outcome] using all) zero

theorem parsePackets_code (ps : List Packet) (adv : Memory) (i : Nat) :
    (parsePackets ps adv).1[i]? =
      ps[i]?.map fun p => (parsePacket p (parsePackets (ps.take i) adv).2).1 := by
  induction ps generalizing adv i with
  | nil => rfl
  | cons p ps ih =>
    cases i with
    | zero => rfl
    | succ i => exact ih _ i

theorem parsePackets_codes_append (ps qs : List Packet) (adv : Memory) :
    (parsePackets (ps ++ qs) adv).1 =
      (parsePackets ps adv).1 ++ (parsePackets qs (parsePackets ps adv).2).1 := by
  induction ps generalizing adv with
  | nil => rfl
  | cons p ps ih => exact congrArg (_ :: ·) (ih _)

theorem parsePackets_append (ps qs : List Packet) (adv : Memory) :
    (parsePackets (ps ++ qs) adv).2 = (parsePackets qs (parsePackets ps adv).2).2 := by
  induction ps generalizing adv with
  | nil => rfl
  | cons p ps ih => exact ih _

end AnkiDrive
