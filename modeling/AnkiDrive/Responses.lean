import AnkiDrive.VehicleResponse

/-! Which bytes the tool looks at in what the vehicle sends, and when it reports a version. A
message is turned down when it is too long, and never because it is too short. -/
namespace AnkiDrive
open CModel

def VersionLine (o : Output) : Prop := ∃ version, o = versionResponse version

/-- A message of at least four bytes that reports the version. -/
def Reports (message : List UInt8) (version : UInt16) : Prop :=
  ∃ size lo hi rest, message = size :: ankiVehicleMsgV2cVersionResponse :: lo :: hi :: rest ∧
    version = word16 lo hi

/-- Every line about a version is about the version that the message reports. -/
def VersionsFrom (message : List UInt8) (outputs : List Output) : Prop :=
  ∀ o ∈ outputs, VersionLine o → ∃ version, Reports message version ∧ o = versionResponse version

theorem versionLine_letter {bytes : List UInt8} (is : VersionLine (.printf bytes)) :
    bytes[7]? = some 0x56 := by
  obtain ⟨version, same⟩ := is
  cases same
  have letter : (text "[read] VERSION_RESPONSE: 0x")[7]? = some 0x56 := by decide +kernel
  have inside : 7 < (text "[read] VERSION_RESPONSE: 0x").length := by decide +kernel
  rw [List.append_assoc, List.getElem?_append_left inside, letter]

theorem error_not_version (line : List UInt8) : ¬ VersionLine (error line) := by
  intro is
  have letter : (colorRed ++ text "Error: ")[7]? = some 0x45 := by decide +kernel
  have inside : 7 < (colorRed ++ text "Error: ").length := by decide +kernel
  have other := versionLine_letter is
  rw [errorLine, List.append_assoc, List.getElem?_append_left inside, letter] at other
  cases other

theorem ping_not_version : ¬ VersionLine (rlPrintf "[read] PING_RESPONSE\n") := by
  intro is
  have letter : (text "[read] PING_RESPONSE\n")[7]? = some 0x50 := by decide +kernel
  cases letter.symm.trans (versionLine_letter is)

section Words

variable {α : Type} (m : Memory) (p : Nat) (k : UInt16 → Query Nat UInt8 α)

theorem asked_readWord16_bind :
    (readWord16 p >>= k).asked m = p :: (p + 1) :: (k (m.load16 p)).asked m := rfl

theorem run_readWord16_bind : (readWord16 p >>= k).run m = (k (m.load16 p)).run m := rfl

end Words

section Message

variable (data : Memory) (len : UInt16)

theorem message_asked : (handleVehicleMsgResponse len).asked data =
    if AnkiVehicleMsg.sizeof < len.toNat then []
    else 1 :: if data 1 = ankiVehicleMsgV2cVersionResponse then [2, 3] else [] := by
  unfold handleVehicleMsgResponse
  split
  · rfl
  · refine congrArg (1 :: ·) ?_
    change Query.asked data (if data 1 = ankiVehicleMsgV2cPingResponse then _ else _) = _
    split
    · rename_i ping
      rw [ping]
      rfl
    · split
      · rename_i version
        exact (if_pos version).symm
      · rename_i other
        exact (if_neg other).symm

theorem message_version {o : Output} (member : o ∈ (handleVehicleMsgResponse len).run data)
    (line : VersionLine o) : len.toNat ≤ AnkiVehicleMsg.sizeof ∧
      data 1 = ankiVehicleMsgV2cVersionResponse ∧ o = versionResponse (word16 (data 2) (data 3)) := by
  unfold handleVehicleMsgResponse at member
  split at member
  · cases List.mem_singleton.mp member
    exact absurd line (error_not_version _)
  · rename_i fits
    change o ∈ Query.run data (if data 1 = ankiVehicleMsgV2cPingResponse then _ else _) at member
    split at member
    · cases List.mem_singleton.mp member
      exact absurd line ping_not_version
    · split at member
      · rename_i version
        exact ⟨Nat.le_of_not_lt fits, version, List.mem_singleton.mp member⟩
      · cases member

theorem message_inside_iff (n : Nat) :
    (∀ i ∈ (handleVehicleMsgResponse len).asked data, i < n) ↔
      (len.toNat ≤ AnkiVehicleMsg.sizeof →
        2 ≤ n ∧ (data 1 = ankiVehicleMsgV2cVersionResponse → 4 ≤ n)) := by
  rw [message_asked]
  split
  · rename_i long
    exact ⟨fun _ fits => absurd fits (Nat.not_le_of_lt long), fun _ i none => absurd none (by simp)⟩
  · rename_i fits
    split
    · rename_i version
      simp only [List.forall_mem_cons, List.not_mem_nil, Nat.le_of_not_lt fits, version]
      simp
      omega
    · rename_i other
      simp [Nat.le_of_not_lt fits, other]
      omega

theorem message_reports {n : Nat} {o : Output}
    (inside : ∀ i ∈ (handleVehicleMsgResponse len).asked data, i < n)
    (member : o ∈ (handleVehicleMsgResponse len).run data) (line : VersionLine o) :
    ∃ version, Reports (slice data 0 n) version ∧ o = versionResponse version := by
  obtain ⟨fits, version, rfl⟩ := message_version data len member line
  have arrived := ((message_inside_iff data len n).mp inside fits).2 version
  obtain ⟨rest, rfl⟩ := Nat.exists_eq_add_of_le' arrived
  refine ⟨_, ⟨data 0, data 2, data 3, slice data 4 rest, ?_, rfl⟩, rfl⟩
  simp only [slice_succ, version]

end Message

section Notification

variable (s : Tool) (pdu : Memory) (len : UInt16)

/-- Only what has arrived of a notification is looked at and reported. -/
def DecodesNotification : Prop :=
  (∀ i ∈ (eventsHandler s len).asked pdu, i < len.toNat) ∧
    VersionsFrom (slice pdu 3 (len.toNat - 3)) ((eventsHandler s len).run pdu)

/-- The notification is one of the read characteristic. -/
def NotifiesRead : Prop :=
  pdu 0 = attOpHandleNotify ∧ pdu.load16 1 = s.vehicle.readChar.valueHandle

theorem notification_asked : (eventsHandler s len).asked pdu = [1, 2, 0] ++
    if pdu 0 = attOpHandleNotify then [1, 2] ++
      if pdu.load16 1 = s.vehicle.readChar.valueHandle then
        ((handleVehicleMsgResponse (len - 3)).asked fun i => pdu (3 + i)).map (3 + ·)
      else []
    else [] := by
  simp only [eventsHandler, asked_readWord16_bind, Query.asked_read_bind, ne_eq, ite_not,
    Query.asked_ite, Query.asked_via, Query.run_read, Query.asked_read, Query.asked_pure,
    List.map_eq_flatMap, List.cons_append, List.nil_append, Nat.reduceAdd]

theorem notification_run : (eventsHandler s len).run pdu =
    if pdu 0 = attOpHandleNotify then
      if pdu.load16 1 = s.vehicle.readChar.valueHandle then
        (handleVehicleMsgResponse (len - 3)).run fun i => pdu (3 + i)
      else [error (text "Invalid vehicle read handle: 0x" ++ hexadecimal 4 (pdu.load16 1).toNat ++
        text "\n")]
    else [] := by
  simp only [eventsHandler, run_readWord16_bind, Query.run_read_bind, ne_eq, ite_not,
    Query.run_ite, Query.run_via, Query.run_read, Query.run_pure]

theorem notification_inside_iff : (∀ i ∈ (eventsHandler s len).asked pdu, i < len.toNat) ↔
    3 ≤ len.toNat ∧ (NotifiesRead s pdu →
      ∀ i ∈ (handleVehicleMsgResponse (len - 3)).asked fun i => pdu (3 + i),
        i < len.toNat - 3) := by
  have header : (∀ i ∈ [1, 2, 0], i < len.toNat) ↔ 3 ≤ len.toNat := by
    simp
    omega
  have again : 3 ≤ len.toNat → ∀ i ∈ [1, 2], i < len.toNat := by
    simp
    omega
  rw [notification_asked, List.forall_mem_append, header]
  refine and_congr_right fun three => ?_
  by_cases opcode : pdu 0 = attOpHandleNotify
  · rw [if_pos opcode, List.forall_mem_append, and_iff_right (again three)]
    by_cases handle : pdu.load16 1 = s.vehicle.readChar.valueHandle
    · rw [if_pos handle, List.forall_mem_map, forall_prop_of_true ⟨opcode, handle⟩]
      simp only [Nat.lt_sub_iff_add_lt']
    · rw [if_neg handle]
      exact ⟨fun _ ours => absurd ours.2 handle, fun _ => List.forall_mem_nil _⟩
  · rw [if_neg opcode]
    exact ⟨fun _ ours => absurd ours.1 opcode, fun _ => List.forall_mem_nil _⟩

theorem notification_version {o : Output} (member : o ∈ (eventsHandler s len).run pdu)
    (line : VersionLine o) : NotifiesRead s pdu ∧
      o ∈ (handleVehicleMsgResponse (len - 3)).run fun i => pdu (3 + i) := by
  rw [notification_run] at member
  split at member
  · rename_i opcode
    split at member
    · rename_i handle
      exact ⟨⟨opcode, handle⟩, member⟩
    · cases List.mem_singleton.mp member
      exact absurd line (error_not_version _)
  · cases member

theorem decodesNotification_iff : DecodesNotification s pdu len ↔
    3 ≤ len.toNat ∧ (NotifiesRead s pdu → len.toNat ≤ 3 + AnkiVehicleMsg.sizeof →
      5 ≤ len.toNat ∧ (pdu 4 = ankiVehicleMsgV2cVersionResponse → 7 ≤ len.toNat)) := by
  have versions : (∀ i ∈ (eventsHandler s len).asked pdu, i < len.toNat) →
      VersionsFrom (slice pdu 3 (len.toNat - 3)) ((eventsHandler s len).run pdu) := by
    intro inside o member line
    obtain ⟨ours, printed⟩ := notification_version s pdu len member line
    have message := ((notification_inside_iff s pdu len).mp inside).2 ours
    have reports := message_reports _ _ message printed line
    rw [slice_shift] at reports
    exact reports
  rw [DecodesNotification, and_iff_left_of_imp versions, notification_inside_iff]
  refine and_congr_right fun three => forall_congr' fun _ => ?_
  have datalen : (len - 3).toNat = len.toNat - 3 := UInt16.toNat_sub_of_le len 3 three
  rw [message_inside_iff, datalen]
  refine imp_congr ?_ (and_congr ?_ (imp_congr_right fun _ => ?_))
  · exact Nat.sub_le_iff_le_add'
  · omega
  · omega

end Notification

section Read

variable (status : UInt8) (plen : UInt16) (cells : ReadCell → UInt8)

/-- The bytes of the answer. -/
def answer : Memory := fun i => cells (.pdu i)

/-- Only what has arrived of an answer is looked at and reported. -/
def DecodesRead : Prop :=
  (∀ c ∈ (charReadCb status plen).asked cells, ∃ i < plen.toNat, c = .pdu i) ∧
    VersionsFrom (slice (answer cells) 1 (plen.toNat - 1)) ((charReadCb status plen).run cells)

theorem copied_size (some : 1 ≤ plen.toNat) : (plen.toUInt64 - 1).toNat = plen.toNat - 1 := by
  refine (UInt64.toNat_sub_of_le _ _ ?_).trans (by simp)
  simpa [UInt64.le_iff_toNat_le] using some

/-- `value` is as long as the answer, so it is too short only for an answer without an opcode. -/
theorem copied_fits : ¬ plen.toUInt64 < plen.toUInt64 - 1 ↔ 1 ≤ plen.toNat := by
  constructor
  · contrapose!
    intro none
    have zero : plen = 0 := UInt16.toNat_inj.mp (Nat.lt_one_iff.mp none)
    subst zero
    decide
  · intro some
    simp only [UInt64.lt_iff_toNat_lt, copied_size plen some, UInt16.toNat_toUInt64]
    omega

theorem decReadResp_asked (pdu : Memory) (len vlen : UInt64) : (decReadResp len vlen).asked pdu =
    0 :: if pdu 0 = attOpReadResp then
      if vlen < len - 1 then [] else List.range' 1 (len - 1).toNat
    else [] := by
  simp only [decReadResp, Query.asked_read_bind, ne_eq, ite_not, Query.asked_ite]
  simp only [Query.asked_bind, Query.asked_readAll, Query.asked_pure, List.append_nil]

theorem decReadResp_run (pdu : Memory) (len vlen : UInt64) : (decReadResp len vlen).run pdu =
    if pdu 0 = attOpReadResp then
      if vlen < len - 1 then .error (-enobufs) else .ok (slice pdu 1 (len - 1).toNat)
    else .error (-einval) := by
  simp only [decReadResp, Query.run_read_bind, ne_eq, ite_not, Query.run_ite]
  simp only [Query.run_bind, Query.run_readAll, Query.run_pure, slice]

/-- `value` once the payload of the answer is at its front. -/
def held (copied : List UInt8) : Memory := fun i => (readValue copied i).run cells

theorem held_front (copied : List UInt8) : slice (held cells copied) 0 copied.length = copied := by
  apply List.ext_getElem (by simp)
  intro i _ inside
  simp only [slice_getElem, Nat.zero_add, held, readValue, List.getElem?_eq_getElem inside,
    Query.run_pure]

theorem readValue_asked (copied : List UInt8) (i : Nat) :
    (readValue copied i).asked cells = if i < copied.length then [] else [.value i] := by
  unfold readValue
  split
  · rename_i found
    exact (if_pos (List.getElem?_eq_some_iff.mp found).1).symm
  · rename_i behind
    exact (if_neg (Nat.not_lt_of_le (List.getElem?_eq_none_iff.mp behind))).symm

/-- The payload of the answer. -/
def payload : List UInt8 := slice (answer cells) 1 (plen.toNat - 1)

variable {status plen cells}

theorem charReadCb_failed (failed : status ≠ 0) : (charReadCb status plen).asked cells = [] ∧
    ∀ o ∈ (charReadCb status plen).run cells, ¬ VersionLine o := by
  unfold charReadCb
  rw [if_pos failed]
  refine ⟨rfl, fun o member => ?_⟩
  cases List.mem_singleton.mp member
  exact error_not_version _

theorem decodes_payload (answers : answer cells 0 = attOpReadResp) (some : 1 ≤ plen.toNat) :
    (decReadResp plen.toUInt64 plen.toUInt64).asked (answer cells) = List.range' 0 plen.toNat ∧
      (decReadResp plen.toUInt64 plen.toUInt64).run (answer cells) = .ok (payload plen cells) := by
  have all : 0 :: List.range' 1 (plen.toNat - 1) = List.range' 0 plen.toNat := by
    obtain ⟨n, same⟩ := Nat.exists_eq_add_of_le' some
    rw [same]
    rfl
  have fits := (copied_fits plen).mpr some
  simp only [decReadResp_asked, decReadResp_run, if_pos answers, if_neg fits, copied_size plen some,
    all, payload, and_self]

theorem decodes_nothing (other : ¬ (answer cells 0 = attOpReadResp ∧ 1 ≤ plen.toNat)) :
    (decReadResp plen.toUInt64 plen.toUInt64).asked (answer cells) = [0] ∧
      ∃ err, (decReadResp plen.toUInt64 plen.toUInt64).run (answer cells) = .error err := by
  simp only [decReadResp_asked, decReadResp_run]
  by_cases answers : answer cells 0 = attOpReadResp
  · have short : plen.toUInt64 < plen.toUInt64 - 1 := by
      by_contra fits
      exact other ⟨answers, (copied_fits plen).mp fits⟩
    simp only [if_pos answers, if_pos short]
    exact ⟨trivial, _, rfl⟩
  · simp only [if_neg answers]
    exact ⟨trivial, _, rfl⟩

theorem charReadCb_ok (ok : status = 0) {outcome : Except Int (List UInt8)}
    (run : (decReadResp plen.toUInt64 plen.toUInt64).run (answer cells) = outcome) :
    (charReadCb status plen).asked cells =
        ((decReadResp plen.toUInt64 plen.toUInt64).asked (answer cells)).map .pdu ++
          (charReadCb.decoded outcome).asked cells ∧
      (charReadCb status plen).run cells = (charReadCb.decoded outcome).run cells := by
  subst run
  unfold charReadCb
  rw [if_neg (not_not.mpr ok)]
  simp only [Query.asked_bind, Query.asked_via, Query.run_bind, Query.run_via, Query.run_read,
    Query.asked_read, List.map_eq_flatMap]
  exact ⟨rfl, rfl⟩

theorem charReadCb_refused (ok : status = 0)
    (other : ¬ (answer cells 0 = attOpReadResp ∧ 1 ≤ plen.toNat)) :
    (charReadCb status plen).asked cells = [.pdu 0] ∧
      ∀ o ∈ (charReadCb status plen).run cells, ¬ VersionLine o := by
  obtain ⟨asked, err, run⟩ := decodes_nothing other
  obtain ⟨asked', run'⟩ := charReadCb_ok ok run
  rw [asked', asked, run']
  refine ⟨rfl, fun o member => ?_⟩
  cases List.mem_singleton.mp member
  exact error_not_version _

theorem charReadCb_copied (ok : status = 0) (answers : answer cells 0 = attOpReadResp)
    (some : 1 ≤ plen.toNat) :
    (charReadCb status plen).asked cells = (List.range' 0 plen.toNat).map .pdu ++
        ((handleVehicleMsgResponse (UInt16.ofNat (payload plen cells).length)).asked
          (held cells (payload plen cells))).flatMap
            (fun i => (readValue (payload plen cells) i).asked cells) ∧
      (charReadCb status plen).run cells =
        (handleVehicleMsgResponse (UInt16.ofNat (payload plen cells).length)).run
          (held cells (payload plen cells)) := by
  obtain ⟨asked, run⟩ := decodes_payload answers some
  obtain ⟨asked', run'⟩ := charReadCb_ok ok run
  rw [asked', asked, run']
  simp only [charReadCb.decoded, Query.asked_via, Query.run_via]
  exact ⟨rfl, rfl⟩

theorem payload_length : (payload plen cells).length = plen.toNat - 1 := slice_length ..

theorem read_inside_iff :
    (∀ c ∈ (charReadCb status plen).asked cells, ∃ i < plen.toNat, c = .pdu i) ↔
      (status = 0 → 1 ≤ plen.toNat ∧ (answer cells 0 = attOpReadResp →
        ∀ i ∈ (handleVehicleMsgResponse (UInt16.ofNat (payload plen cells).length)).asked
          (held cells (payload plen cells)), i < plen.toNat - 1)) := by
  by_cases ok : status = 0
  · rw [forall_prop_of_true ok]
    by_cases copies : answer cells 0 = attOpReadResp ∧ 1 ≤ plen.toNat
    · obtain ⟨answers, some⟩ := copies
      rw [(charReadCb_copied ok answers some).1, List.forall_mem_append, and_iff_right some,
        forall_prop_of_true answers]
      constructor
      · rintro ⟨_, behind⟩ i asked
        by_contra out
        have looked : ReadCell.value i ∈ (readValue (payload plen cells) i).asked cells := by
          rw [readValue_asked, payload_length, if_neg out]
          exact List.mem_singleton_self _
        obtain ⟨j, _, never⟩ := behind _ (List.mem_flatMap.mpr ⟨i, asked, looked⟩)
        cases never
      · intro inside
        refine ⟨?_, fun c looked => ?_⟩
        · simp
        · obtain ⟨i, asked, looked⟩ := List.mem_flatMap.mp looked
          rw [readValue_asked, payload_length, if_pos (inside i asked)] at looked
          cases looked
    · rw [(charReadCb_refused ok copies).1, List.forall_mem_singleton]
      constructor
      · rintro ⟨i, some, here⟩
        cases here
        exact ⟨some, fun answers => absurd ⟨answers, some⟩ copies⟩
      · rintro ⟨some, _⟩
        exact ⟨0, some, rfl⟩
  · rw [(charReadCb_failed ok).1]
    exact ⟨fun _ zero => absurd zero ok, fun _ => List.forall_mem_nil _⟩

theorem read_version {o : Output} (member : o ∈ (charReadCb status plen).run cells)
    (line : VersionLine o) : status = 0 ∧ answer cells 0 = attOpReadResp ∧
      o ∈ (handleVehicleMsgResponse (UInt16.ofNat (payload plen cells).length)).run
        (held cells (payload plen cells)) := by
  by_cases ok : status = 0
  · by_cases copies : answer cells 0 = attOpReadResp ∧ 1 ≤ plen.toNat
    · rw [(charReadCb_copied ok copies.1 copies.2).2] at member
      exact ⟨ok, copies.1, member⟩
    · exact absurd line ((charReadCb_refused ok copies).2 o member)
  · exact absurd line ((charReadCb_failed ok).2 o member)

theorem decodesRead_iff : DecodesRead status plen cells ↔ (status = 0 → 1 ≤ plen.toNat ∧
    (answer cells 0 = attOpReadResp → plen.toNat ≤ 1 + AnkiVehicleMsg.sizeof →
      3 ≤ plen.toNat ∧ (answer cells 2 = ankiVehicleMsgV2cVersionResponse → 5 ≤ plen.toNat))) := by
  have front : slice (held cells (payload plen cells)) 0 (plen.toNat - 1) = payload plen cells := by
    have whole := held_front cells (payload plen cells)
    rw [payload_length] at whole
    exact whole
  have versions : (∀ c ∈ (charReadCb status plen).asked cells, ∃ i < plen.toNat, c = .pdu i) →
      VersionsFrom (slice (answer cells) 1 (plen.toNat - 1))
        ((charReadCb status plen).run cells) := by
    intro inside o member line
    obtain ⟨ok, answers, printed⟩ := read_version member line
    have message := (read_inside_iff.mp inside ok).2 answers
    have reports := message_reports _ _ message printed line
    rw [front] at reports
    exact reports
  rw [DecodesRead, and_iff_left_of_imp versions, read_inside_iff]
  refine forall_congr' fun _ => and_congr_right fun some => forall_congr' fun _ => ?_
  have copied : (UInt16.ofNat (payload plen cells).length).toNat = plen.toNat - 1 := by
    have small := plen.toNat_lt
    rw [payload_length, UInt16.toNat_ofNat_of_lt' (by simp only [UInt16.size]; omega)]
  rw [message_inside_iff, copied]
  refine imp_congr ?_ ?_
  · exact Nat.sub_le_iff_le_add'
  · have two : 2 ≤ plen.toNat - 1 ↔ 3 ≤ plen.toNat := by omega
    rw [two]
    refine and_congr_right fun three => imp_congr ?_ ?_
    · have msgId : held cells (payload plen cells) 1 = answer cells 2 := by
        have same := slice_eq_iff.mp front 1 (by omega)
        simpa using same
      rw [msgId]
    · omega

end Read

/-- The tool looks at what has arrived, and reports versions from it alone, exactly when the
messages it does not find too long are not too short: a notification has its header, the
message behind it an identifier, and one that is identified as a version response the
version. -/
theorem responses_decoded_iff (s : Tool) (pdu : Memory) (len : UInt16) (status : UInt8)
    (cells : ReadCell → UInt8) (plen : UInt16) :
    (DecodesNotification s pdu len ↔
      3 ≤ len.toNat ∧ (NotifiesRead s pdu → len.toNat ≤ 3 + AnkiVehicleMsg.sizeof →
        5 ≤ len.toNat ∧ (pdu 4 = ankiVehicleMsgV2cVersionResponse → 7 ≤ len.toNat))) ∧
    (DecodesRead status plen cells ↔ (status = 0 → 1 ≤ plen.toNat ∧
      (answer cells 0 = attOpReadResp → plen.toNat ≤ 1 + AnkiVehicleMsg.sizeof →
        3 ≤ plen.toNat ∧
          (answer cells 2 = ankiVehicleMsgV2cVersionResponse → 5 ≤ plen.toNat)))) :=
  ⟨decodesNotification_iff s pdu len, decodesRead_iff⟩

/-- Of a version response that is cut off behind its identifier, a version is printed that is
in two bytes that have not arrived. -/
theorem version_not_received :
    let s : Tool := { Tool.interactive none none 0 with
      vehicle := ⟨⟨ankiStrChrReadUuid, 0x000b, 0x12, 0x000c⟩, GattChar.zero⟩ }
    let pdu := ofBytes [attOpHandleNotify, 0x0c, 0x00, 0x01, ankiVehicleMsgV2cVersionResponse]
    (∃ i ∈ (eventsHandler s 5).asked pdu, 5 ≤ i) ∧
      versionResponse 0 ∈ (eventsHandler s 5).run pdu ∧ ¬ DecodesNotification s pdu 5 := by
  intro s pdu
  have behind : ∃ i ∈ (eventsHandler s 5).asked pdu, 5 ≤ i := by decide +kernel
  refine ⟨behind, by decide +kernel, ?_⟩
  rintro ⟨inside, _⟩
  obtain ⟨i, asked, out⟩ := behind
  exact Nat.not_lt_of_le out (inside i asked)

end AnkiDrive
