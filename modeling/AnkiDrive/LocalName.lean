import AnkiDrive.Footprint

/-! What a LOCAL_NAME record makes of the info it is laid over: the state bits always
change, the version and the name only when the payload is long enough to carry them.
A payload of 21 bytes fills the name to its last byte. -/
namespace AnkiDrive
open CModel

def AdvState.ofByte (state : UInt8) : AdvState where
  fullBattery := state.toBitVec.getLsbD fullBatteryBit
  lowBattery := state.toBitVec.getLsbD lowBatteryBit
  onCharger := state.toBitVec.getLsbD onChargerBit

def heardVersion (version : UInt16) : List UInt8 → UInt16
  | [] => version
  | [lo] => word16 lo 0
  | lo :: hi :: _ => word16 lo hi

def heardName (name payload : List UInt8) : List UInt8 :=
  if 8 < payload.length then
    payload.drop 8 ++ List.replicate (AnkiVehicleAdvInfo.name.size - (payload.length - 8)) 0
  else name

/-- The info after a LOCAL_NAME payload. -/
def AdvInfo.heard (info : AdvInfo) : List UInt8 → AdvInfo
  | [] => info
  | state :: rest => {
    state := AdvState.ofByte state
    version := heardVersion info.version rest
    name := heardName info.name (state :: rest) }

theorem versionPatch_read (p : Nat) (rest : List UInt8) (m : Memory) :
    ((versionPatch p rest).apply m).load16 p = heardVersion (m.load16 p) rest := by
  have laid : ∀ lo hi, (m.write p [lo, hi]).load16 p = word16 lo hi := by
    intro lo hi
    apply Memory.load16_eq
    rw [le16_word16]
    exact Memory.slice_write_same m p [lo, hi]
  match rest with
  | [] => simp only [versionPatch, Patch.apply_id, heardVersion]
  | [lo] => simp only [versionPatch, Patch.apply_write, heardVersion, laid]
  | lo :: hi :: _ => simp only [versionPatch, Patch.apply_write, heardVersion, laid]

theorem namePatch_read (p : Nat) {payload : List UInt8}
    (fits : payload.length ≤ 8 + AnkiVehicleAdvInfo.name.size) (m : Memory) :
    slice ((namePatch p payload).apply m) p AnkiVehicleAdvInfo.name.size =
      heardName (slice m p AnkiVehicleAdvInfo.name.size) payload := by
  unfold namePatch heardName
  split
  · have size : (payload.drop 8).length = payload.length - 8 := List.length_drop
    have short : (payload.drop 8).length ≤ AnkiVehicleAdvInfo.name.size := by omega
    have cleared := Memory.slice_write_same m p (List.replicate AnkiVehicleAdvInfo.name.size 0)
    simp only [List.length_replicate] at cleared
    simp only [Patch.apply_then, Patch.apply_write, Memory.slice_write_front _ _ _ _ short, cleared,
      List.drop_replicate, size]
  · simp only [Patch.apply_id]

theorem localNamePatch_read (p : Nat) {payload : List UInt8}
    (fits : payload.length ≤ 8 + AnkiVehicleAdvInfo.name.size) (m : Memory) :
    advInfoAt ((localNamePatch p payload).apply m) p = (advInfoAt m p).heard payload := by
  cases payload with
  | nil => simp only [localNamePatch, Patch.apply_id, AdvInfo.heard]
  | cons state rest =>
    have version := versionPatch_within (p + 2) rest
    have name := namePatch_within (p + 9) fits
    have bits : (Patch.writeBits p stateMask state).Within p (p + 1) :=
      Patch.writeBits_within _ _ (Nat.le_refl p) (Nat.lt_succ_self p)
    have stateRead : ∀ k, stateMask.toBitVec.getLsbD k = true →
        ((localNamePatch p (state :: rest)).apply m).loadBit p k = state.toBitVec.getLsbD k := by
      intro k masked
      simp only [localNamePatch, Patch.apply_then, AnkiVehicleAdvInfo.state, Nat.add_zero,
        AnkiVehicleAdvInfo.version, AnkiVehicleAdvInfo.name]
      rw [Patch.loadBit_leaves (name p (Or.inl (by omega))),
        Patch.loadBit_leaves (version p (Or.inl (by omega))),
        Patch.loadBit_writeBits m p k stateMask state masked]
    have versionRead : ((localNamePatch p (state :: rest)).apply m).load16 (p + 2) =
        heardVersion (m.load16 (p + 2)) rest := by
      simp only [localNamePatch, Patch.apply_then, AnkiVehicleAdvInfo.state, Nat.add_zero,
        AnkiVehicleAdvInfo.version, AnkiVehicleAdvInfo.name]
      rw [Patch.load16_leaves (name _ (Or.inl (by omega))) (name _ (Or.inl (by omega))),
        versionPatch_read, Patch.load16_leaves (bits _ (Or.inr (by omega))) (bits _ (Or.inr (by omega)))]
    have nameRead : slice ((localNamePatch p (state :: rest)).apply m) (p + 9)
          AnkiVehicleAdvInfo.name.size =
        heardName (slice m (p + 9) AnkiVehicleAdvInfo.name.size) (state :: rest) := by
      simp only [localNamePatch, Patch.apply_then, AnkiVehicleAdvInfo.state, Nat.add_zero,
        AnkiVehicleAdvInfo.version]
      rw [show p + AnkiVehicleAdvInfo.name.offset = p + 9 from rfl, namePatch_read _ fits,
        Patch.slice_leaves (fun a lo _ => version a (Or.inr (by omega))),
        Patch.slice_leaves (fun a lo _ => bits a (Or.inr (by omega)))]
    simp only [advInfoAt, AdvInfo.heard, AdvInfo.mk.injEq, AdvState.ofByte, AdvState.mk.injEq]
    exact ⟨⟨stateRead 4 (by decide), stateRead 5 (by decide), stateRead 6 (by decide)⟩,
      versionRead, nameRead⟩

theorem advInfoAt_congr {m m' : Memory} {p : Nat}
    (agree : ∀ a, p ≤ a → a < p + AnkiVehicleAdv.localName.size → m a = m' a) :
    advInfoAt m p = advInfoAt m' p := by
  simp only [AnkiVehicleAdv.localName] at agree
  have name : slice m (p + 9) 13 = slice m' (p + 9) 13 :=
    slice_congr fun a lo hi => agree a (by omega) (by omega)
  simp only [advInfoAt, AnkiVehicleAdvInfo.state, AnkiVehicleAdvInfo.version,
    AnkiVehicleAdvInfo.name, Memory.loadBit, Memory.load16, name, agree (p + 0) (by omega) (by omega),
    agree (p + 2) (by omega) (by omega), agree (p + 2 + 1) (by omega) (by omega)]

theorem localName_handle {r : Record} (fits : Fits r) (m : Memory) :
    localNameOf (handle m r) =
      if r.type = advTypeLocalName then (localNameOf m).heard r.payload else localNameOf m := by
  split
  · rename_i named
    have known : kindOf r.type = some .localName := named ▸ kindOf_type .localName
    have read := localNamePatch_read AnkiVehicleAdv.localName.offset (fits .localName known) m
    exact (congrArg localNameOf (handle_kind known m)).trans read
  · rename_i other
    apply advInfoAt_congr
    intro a lo hi
    have untouched : (recordPatch r.type r.payload).Leaves a := by
      apply record_leaves fits
      intro k known
      apply fields_apart (j := .localName) _ ⟨lo, hi⟩
      rintro rfl
      exact other (kindOf_eq_some known)
    exact Patch.apply_leaves untouched m

theorem localName_run {rs : List Record} (fits : ∀ r ∈ rs, Fits r)
    (others : ∀ r ∈ rs, r.type ≠ advTypeLocalName) (m : Memory) :
    localNameOf (rs.foldl handle m) = localNameOf m := by
  induction rs generalizing m with
  | nil => rfl
  | cons r rs ih =>
    have here := localName_handle (fits r List.mem_cons_self) m
    rw [if_neg (others r List.mem_cons_self)] at here
    rw [List.foldl_cons, ← here]
    exact ih (fun s hs => fits s (List.mem_cons_of_mem r hs))
      (fun s hs => others s (List.mem_cons_of_mem r hs)) _

theorem parseLocalName_code (data m : Memory) (bytes : Nat) {len : UInt8} (localName : Nat)
    (carried : len ≠ 0) : ((ankiVehicleParseLocalName bytes len localName m).run data).1 = 0 := by
  simp only [ankiVehicleParseLocalName, if_neg carried, Query.run_bind, Query.run_pure]

theorem parseLocalName_heard {payload : List UInt8} (carried : 1 ≤ payload.length)
    (fits : payload.length ≤ 8 + AnkiVehicleAdvInfo.name.size) {data : Memory} {bytes : Nat}
    (held : slice data bytes payload.length = payload) (m : Memory) (localName : Nat) :
    ∃ after, (ankiVehicleParseLocalName bytes (UInt8.ofNat payload.length) localName m).run data =
      (0, after) ∧ advInfoAt after localName = (advInfoAt m localName).heard payload := by
  have size : (UInt8.ofNat payload.length).toNat = payload.length :=
    UInt8.toNat_ofNat_of_lt (Nat.lt_of_le_of_lt fits (by decide))
  have some : UInt8.ofNat payload.length ≠ 0 := by
    intro none
    have zero := size.symm.trans (congrArg UInt8.toNat none)
    exact absurd zero (Nat.ne_of_gt carried)
  have laid := parseLocalName_run data m bytes (UInt8.ofNat payload.length) localName
  simp only [size, held] at laid
  exact ⟨_, Prod.ext (parseLocalName_code data m bytes localName some) laid,
    localNamePatch_read localName fits m⟩

theorem accepted_append_cons {before : List Record} {r : Record} (after : List Record)
    (reached : ∀ s ∈ before, abortCode s.type s.payload = none)
    (goes : abortCode r.type r.payload = none) :
    accepted (before ++ r :: after) = before ++ r :: accepted after := by
  have front : ∀ s ∈ before, (abortCode s.type s.payload).isNone = true :=
    fun s hs => Option.isNone_iff_eq_none.mpr (reached s hs)
  rw [accepted, List.takeWhile_append_of_pos front, List.takeWhile_cons, goes]
  rfl

section Reached

variable {before after : List Record} {r : Record} {adv : Memory}
    (named : r.type = advTypeLocalName) (fits : Fits r)
    (reached : ∀ s ∈ before, abortCode s.type s.payload = none)

include named

theorem localName_goes : abortCode r.type r.payload = none := by
  apply abortCode_eq_none_iff.mpr
  have known : kindOf r.type = some .localName := named ▸ kindOf_type .localName
  refine ⟨fun unknown => ?_, fun foreign => ?_⟩
  · rw [UnknownType, known] at unknown
    cases unknown
  · exact absurd (named.symm.trans foreign.1) (by decide)

include fits reached

theorem parsePacket_heard_here :
    localNameOf (parsePacket (Packet.ofRecords (before ++ [r])) adv).2 =
      (localNameOf (parsePacket (Packet.ofRecords before) adv).2).heard r.payload := by
  have goes := localName_goes named
  have here := localName_handle fits (parseRecords before adv).2
  rw [if_pos named] at here
  simp only [parsePacket_eq, Packet.ofRecords_records,
    parseRecords_append_accepted [r] adv reached, parseRecords, goes]
  exact here

theorem parsePacket_heard {p : Packet} (split : p.records = before ++ r :: after)
    (others : ∀ s ∈ before ++ accepted after, s.type ≠ advTypeLocalName ∧ Fits s) :
    localNameOf (parsePacket p adv).2 = (localNameOf adv).heard r.payload := by
  have front := localName_run (fun s hs => (others s (List.mem_append_left _ hs)).2)
    (fun s hs => (others s (List.mem_append_left _ hs)).1) adv
  have here := localName_handle fits (before.foldl handle adv)
  have back := localName_run (fun s hs => (others s (List.mem_append_right _ hs)).2)
    (fun s hs => (others s (List.mem_append_right _ hs)).1) (handle (before.foldl handle adv) r)
  rw [if_pos named, front] at here
  rw [parsePacket_eq, parseRecords_handled, split,
    accepted_append_cons after reached (localName_goes named), List.foldl_append, List.foldl_cons]
  exact back.trans here

end Reached

theorem heard_version (info info' : AdvInfo) (payload : List UInt8) :
    if 2 ≤ payload.length then (info.heard payload).version = (info'.heard payload).version
    else (info.heard payload).version = info.version := by
  match payload with
  | [] | [_] | [_, _] | _ :: _ :: _ :: _ => rfl

theorem heard_name (info info' : AdvInfo) (payload : List UInt8) :
    if 9 ≤ payload.length then (info.heard payload).name = (info'.heard payload).name
    else (info.heard payload).name = info.name := by
  cases payload with
  | nil => rfl
  | cons state rest =>
    simp only [AdvInfo.heard, heardName]
    split
    · rename_i long
      simp only [if_pos (Nat.lt_of_succ_le long)]
    · rename_i long
      simp only [if_neg (fun h => long (Nat.succ_le_of_lt h))]

/-- A LOCAL_NAME payload replaces what it carries and nothing else: the state bits, the
version from two bytes on, the name from nine bytes on. -/
theorem local_name_replaces_what_it_carries {payload : List UInt8} (carried : 1 ≤ payload.length)
    (short : payload.length ≤ 20) :
    (∀ data m bytes localName, slice data bytes payload.length = payload →
      ∃ after, (ankiVehicleParseLocalName bytes (UInt8.ofNat payload.length) localName m).run data =
        (0, after) ∧ advInfoAt after localName = (advInfoAt m localName).heard payload) ∧
    (∀ p adv before r after, p.records = before ++ r :: after → r.type = advTypeLocalName →
      r.payload = payload → (∀ s ∈ before, ¬ UnknownType s ∧ ¬ ForeignUuid s) →
      localNameOf (parsePacket (Packet.ofRecords (before ++ [r])) adv).2 =
        (localNameOf (parsePacket (Packet.ofRecords before) adv).2).heard payload ∧
      ((∀ s ∈ before ++ accepted after, s.type ≠ advTypeLocalName ∧ Fits s) →
        localNameOf (parsePacket p adv).2 = (localNameOf adv).heard payload)) ∧
    ∀ info info' : AdvInfo, (info.heard payload).state = (info'.heard payload).state ∧
      (if 2 ≤ payload.length then (info.heard payload).version = (info'.heard payload).version
        else (info.heard payload).version = info.version) ∧
      (if 9 ≤ payload.length then (info.heard payload).name = (info'.heard payload).name
        else (info.heard payload).name = info.name) := by
  have fits : payload.length ≤ 8 + AnkiVehicleAdvInfo.name.size := Nat.le_trans short (by decide)
  refine ⟨?_, ?_, ?_⟩
  · intro data m bytes localName held
    exact parseLocalName_heard carried fits held m localName
  · rintro p adv before r after split named rfl passed
    have reached : ∀ s ∈ before, abortCode s.type s.payload = none :=
      fun s hs => abortCode_eq_none_iff.mpr (passed s hs)
    have fitsHere : Fits r := by
      intro k known
      have name : kindOf r.type = some .localName := named ▸ kindOf_type .localName
      cases Option.some.inj (name.symm.trans known)
      exact fits
    exact ⟨parsePacket_heard_here named fitsHere reached,
      parsePacket_heard named fitsHere reached split⟩
  · intro info info'
    refine ⟨?_, heard_version info info' payload, heard_name info info' payload⟩
    cases payload with
    | nil => exact absurd carried (by decide)
    | cons state rest => rfl

/-- The packet has a name in front of a type the parser does not know. -/
theorem version_replaced_name_kept :
    let payload : List UInt8 := [0x50, 0x20, 0x21]
    let name : Record := ⟨advTypeLocalName, payload, by decide, by decide⟩
    let flags : Record := ⟨advTypeFlags, [0x06], by decide, by decide⟩
    let unknown : Record := ⟨0x16, [0x00], by decide, by decide⟩
    (∀ adv, localNameOf (parsePacket (Packet.ofRecords [flags, name, unknown]) adv).2 =
      (localNameOf adv).heard payload) ∧
    ∀ info info' : AdvInfo, (info.heard payload).state = (info'.heard payload).state ∧
      (info.heard payload).version = (info'.heard payload).version ∧
      (info.heard payload).name = info.name := by
  intro payload name flags unknown
  obtain ⟨_, heard, parts⟩ := @local_name_replaces_what_it_carries payload (by decide) (by decide)
  refine ⟨fun adv => ?_, parts⟩
  exact (heard (Packet.ofRecords [flags, name, unknown]) adv [flags] name [unknown]
    (Packet.ofRecords_records _) rfl rfl (by decide)).2 (by decide)

/-- A payload of the state alone leaves the version and the name of an older record. -/
theorem lone_state_keeps_version_and_name :
    let parse := fun m => (ankiVehicleParseLocalName 0 1 0 m).run (ofBytes [0x50])
    let info := advInfoAt (parse fun _ => 0).2 0
    let info' := advInfoAt (parse fun _ => 0x41).2 0
    (parse fun _ => 0).1 = 0 ∧ (parse fun _ => 0x41).1 = 0 ∧ info.state = info'.state ∧
      info.version = 0 ∧ info'.version = 0x4141 ∧ info.name ≠ info'.name := by
  decide +kernel

/-- The name ends in a zero that the record itself brings, or that is there already. -/
def BringsZero (r : Record) : Prop :=
  r.type = advTypeLocalName → r.payload.length = 8 + AnkiVehicleAdvInfo.name.size →
    0 ∈ r.payload.drop 8

instance : DecidablePred BringsZero := fun _ => inferInstanceAs (Decidable (_ → _ → _))

def nameOf (adv : Memory) : List UInt8 := (localNameOf adv).name

theorem heardName_zero_iff {name payload : List UInt8} (held : 0 ∈ name)
    (fits : payload.length ≤ 8 + AnkiVehicleAdvInfo.name.size) :
    0 ∈ heardName name payload ↔
      (payload.length = 8 + AnkiVehicleAdvInfo.name.size → 0 ∈ payload.drop 8) := by
  unfold heardName
  split
  · simp only [List.mem_append, List.mem_replicate, and_true]
    constructor
    · rintro (brought | padded) full
      · exact brought
      · exact absurd padded (by omega)
    · intro brings
      rcases Nat.lt_or_ge payload.length (8 + AnkiVehicleAdvInfo.name.size) with part | whole
      · exact Or.inr (by omega)
      · exact Or.inl (brings (Nat.le_antisymm fits whole))
  · rename_i short
    exact ⟨fun _ full => absurd (full ▸ short) (by decide), fun _ => held⟩

/-- Handling a record keeps a zero in the name exactly when the record does not fill
the name to its last byte. -/
theorem name_zero_handle {r : Record} (fits : Fits r) {m : Memory} (held : 0 ∈ nameOf m) :
    0 ∈ nameOf (handle m r) ↔ BringsZero r := by
  simp only [nameOf, localName_handle fits, BringsZero]
  split
  · rename_i named
    have known : kindOf r.type = some .localName := named ▸ kindOf_type .localName
    have size := fits .localName known
    cases payload : r.payload with
    | nil => exact ⟨fun _ _ empty => absurd empty (by decide), fun _ => held⟩
    | cons state rest =>
      simp only [AdvInfo.heard, named, true_imp_iff, ← payload]
      exact heardName_zero_iff held size
  · rename_i other
    exact ⟨fun _ named => absurd named other, fun _ => held⟩

theorem nameOf_zeroed {adv : Memory} (zeroed : ∀ a < AnkiVehicleAdv.size, adv a = 0) :
    0 ∈ nameOf adv := by
  have first : adv 21 = 0 := zeroed 21 (by decide)
  exact first ▸ List.mem_map_of_mem (by decide)

/-- From a struct full of zeros: the name holds a zero after every record exactly when no
record handled fills it, and then it holds one after every call. -/
theorem name_holds_zero {ps : List Packet} {adv : Memory}
    (zeroed : ∀ a < AnkiVehicleAdv.size, adv a = 0) (fits : ∀ p ∈ ps, ∀ r ∈ p.records, Fits r) :
    ((∀ r ∈ handled ps, BringsZero r) ↔
      ∀ rs, rs <+: handled ps → 0 ∈ nameOf (rs.foldl handle adv)) ∧
    ((∀ r ∈ handled ps, BringsZero r) → ∀ before after, ps = before ++ after →
      0 ∈ nameOf (parsePackets before adv).2) := by
  have step : ∀ r ∈ handled ps, ∀ m, 0 ∈ nameOf m → (0 ∈ nameOf (handle m r) ↔ BringsZero r) := by
    intro r member m held
    obtain ⟨p, hp, hr, _⟩ := mem_handled member
    exact name_zero_handle (fits p hp r hr) held
  have way := foldl_invariant_iff handle step (nameOf_zeroed zeroed)
  refine ⟨way, ?_⟩
  rintro all before after rfl
  have front : handled before <+: handled (before ++ after) := by
    simp only [handled_append, List.prefix_append]
  have here := way.mp all _ front
  simpa only [parsePackets_handled] using here

theorem short_name_holds_zero :
    let name : Record := ⟨advTypeLocalName, List.replicate 20 0x41, by decide, by decide⟩
    let ps := [Packet.ofRecords [name], Packet.ofRecords [name]]
    ∀ before after, ps = before ++ after → 0 ∈ nameOf (parsePackets before (fun _ => 0)).2 := by
  intro name ps
  have fits : ∀ p ∈ ps, ∀ r ∈ p.records, Fits r := by
    simp only [ps, List.forall_mem_cons, Packet.ofRecords_records]
    decide
  have brings : ∀ r ∈ handled ps, BringsZero r := by
    simp only [ps, handled, List.flatMap_cons, Packet.ofRecords_records]
    decide
  exact (name_holds_zero (fun _ _ => rfl) fits).2 brings

/-- A name of 13 bytes leaves no room for the zero. -/
theorem full_name_unterminated :
    let name : Record := ⟨advTypeLocalName, List.replicate 21 0x41, by decide, by decide⟩
    let ps := [Packet.ofRecords [ankiUuidRecord], Packet.ofRecords [name]]
    (∀ p ∈ ps, ∀ r ∈ p.records, Fits r) ∧ (parsePackets ps (fun _ => 0)).1 = [0, 0] ∧
      0 ∉ nameOf (parsePackets ps (fun _ => 0)).2 := by
  refine ⟨?_, by decide +kernel, by decide +kernel⟩
  simp only [List.forall_mem_cons, Packet.ofRecords_records]
  decide

end AnkiDrive
