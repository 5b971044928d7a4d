import AnkiDrive.AttPdu

/-! The lists in the answers of the attribute protocol: what is read back of them, and that no
answer is longer than its buffer. -/
namespace AnkiDrive
open CModel

section Records

variable {l len w : Nat} {data : List (List UInt8)}

/-- The records that fit are written, each cut to the length that is announced. -/
theorem putRecords_eq (positive : 0 < l) : putRecords l len w data =
    ((data.take ((len - w) / l)).map (·.take l)).flatten := by
  induction data generalizing w with
  | nil => simp [putRecords]
  | cons d data ih =>
    unfold putRecords
    split
    · have more : (len - w) / l = (len - (w + l)) / l + 1 := by
        rw [Nat.div_eq_sub_div positive (by omega), Nat.sub_add_eq]
      rw [more, List.take_succ_cons, List.map_cons, List.flatten_cons, ih]
    · have nothing : (len - w) / l = 0 := Nat.div_eq_of_lt (by omega)
      simp [nothing]

/-- In a buffer of at most 65535 bytes the counter does not wrap. -/
theorem putGroups_eq {w : UInt16} (small : len ≤ 0xffff) :
    putGroups l len w data = putRecords l len w.toNat data := by
  induction data generalizing w with
  | nil => rfl
  | cons d data ih =>
    unfold putGroups putRecords
    split
    · have next : (w + UInt16.ofNat l).toNat = w.toNat + l := by
        rw [UInt16.toNat_add, UInt16.toNat_ofNat']
        omega
      rw [ih, next]
    · rfl

def AttDataList.contents (list : Option AttDataList) : Option (Nat × List (List UInt8)) :=
  list.map fun list => (list.len, list.data)

theorem decDataList_put {opcode tag : UInt8} (positive : 0 < l)
    (sized : ∀ d ∈ data, d.length = l) :
    AttDataList.contents (decDataList opcode l (opcode :: tag :: data.flatten)) =
      some (l, data) := by
  have size : (opcode :: tag :: data.flatten).length - 2 = data.length * l := by
    rw [List.length_cons, List.length_cons, flatten_length sized]
    omega
  have cut : chunks l data.length data.flatten = data := by
    have whole : chunks l data.length (data.flatten ++ []) = data := chunks_flatten sized
    rwa [List.append_nil] at whole
  simp only [AttDataList.contents, decDataList, opcodeOf_cons, ne_eq, not_true_eq_false, if_false,
    Option.map_some, size, Nat.mul_div_cancel _ positive, List.drop_succ_cons, List.drop_zero, cut]

theorem sized_take (list : AttDataList) (n : Nat) : ∀ d ∈ list.data.take n, d.length = list.len :=
  fun d inside => list.sized d (List.mem_of_mem_take inside)

/-- The records that fit a buffer with room for one of them. -/
theorem putRecords_whole (list : AttDataList) (positive : 0 < list.len) :
    putRecords list.len len 2 list.data = (list.data.take ((len - 2) / list.len)).flatten := by
  have whole : (list.data.take ((len - 2) / list.len)).map (·.take list.len) =
      list.data.take ((len - 2) / list.len) := by
    refine (List.map_congr_left fun d inside => ?_).trans (List.map_id _)
    exact List.take_of_length_le (Nat.le_of_eq (sized_take list _ d inside))
  rw [putRecords_eq positive, whole]

theorem ofNat_small {n : Nat} (small : n ≤ 255) : (UInt8.ofNat n).toNat = n :=
  UInt8.toNat_ofNat_of_lt (Nat.lt_of_le_of_lt small (by decide))

end Records

theorem putRecords_length {l len w : Nat} {data : List (List UInt8)} (inside : w ≤ len) :
    w + (putRecords l len w data).length ≤ len := by
  induction data generalizing w with
  | nil => exact inside
  | cons d data ih =>
    unfold putRecords
    split
    · rename_i fits
      have rest := ih fits
      rw [List.length_append, List.length_take]
      omega
    · exact inside

section Lists

variable (list : AttDataList) {len : Nat}

theorem encReadByGrpResp_eq (small : len ≤ 0xffff) :
    encReadByGrpResp list len = if len < list.len + 2 then []
      else attOpReadByGroupResp :: UInt8.ofNat list.len ::
        putRecords list.len len 2 list.data := by
  rw [encReadByGrpResp, putGroups_eq small]
  rfl

theorem encReadByGrpResp_within (small : len ≤ 0xffff) :
    (encReadByGrpResp list len).length ≤ len := by
  rw [encReadByGrpResp_eq list small]
  refine within_ite fun fits => ?_
  have records := @putRecords_length list.len len 2 list.data (by omega)
  simp only [List.length_cons]
  omega

theorem encReadByTypeResp_within (room : 2 ≤ len) : (encReadByTypeResp list len).length ≤ len := by
  have records := @putRecords_length (min (len - 2) list.len) len 2 list.data room
  simp only [encReadByTypeResp, List.length_cons]
  omega

theorem encFindInfoResp_within (format : UInt8) :
    (encFindInfoResp format list len).length ≤ len := by
  refine within_ite fun fits => ?_
  have records := @putRecords_length list.len len 2 list.data (by omega)
  simp only [List.length_cons]
  omega

end Lists

/-- A list of records of at most 255 bytes is read back as far as the buffer holds it: whole
records, or for the values of a type records that are cut to the buffer. -/
theorem list_round_trip {list : AttDataList} {len : Nat} (positive : 0 < list.len)
    (byte : list.len ≤ 255) (room : 2 < len) (small : len ≤ 0xffff) :
    (list.len + 2 ≤ len →
      AttDataList.contents (decReadByGrpResp (returned (encReadByGrpResp list len))) =
        some (list.len, list.data.take ((len - 2) / list.len)) ∧
      ∀ format, findInfoLen format = list.len →
        (decFindInfoResp (returned (encFindInfoResp format list len))).map
            (fun r => (r.1, r.2.len, r.2.data)) =
          some (format, list.len, list.data.take ((len - 2) / list.len))) ∧
    AttDataList.contents (decReadByTypeResp (returned (encReadByTypeResp list len))) =
      some (min (len - 2) list.len, (list.data.take ((len - 2) / min (len - 2) list.len)).map
        (·.take (min (len - 2) list.len))) := by
  constructor
  · intro fits
    constructor
    · rw [returned_small (Nat.le_trans (encReadByGrpResp_within list small) small),
        encReadByGrpResp_eq list small, if_neg (by omega), putRecords_whole list positive]
      simp only [decReadByGrpResp, List.getD_cons_succ, List.getD_cons_zero, ofNat_small byte]
      exact decDataList_put positive (sized_take list _)
    · intro format same
      rw [returned_small (Nat.le_trans (encFindInfoResp_within list format) small),
        encFindInfoResp, if_neg (by omega), putRecords_whole list positive]
      have taken := @decDataList_put list.len (list.data.take ((len - 2) / list.len))
        attOpFindInfoResp format positive (sized_take list _)
      simp only [AttDataList.contents, Option.map_eq_some_iff, Prod.mk.injEq] at taken
      obtain ⟨read, decoded, size, data⟩ := taken
      simp only [decFindInfoResp, List.getD_cons_succ, List.getD_cons_zero, same, decoded,
        Option.map_some, size, data]
  · have some_byte : 0 < min (len - 2) list.len := by omega
    have least : min (len - 2) list.len ≤ 255 := by omega
    rw [returned_small (Nat.le_trans (encReadByTypeResp_within list (Nat.le_of_lt room)) small)]
    simp only [encReadByTypeResp, decReadByTypeResp, putRecords_eq some_byte,
      List.getD_cons_succ, List.getD_cons_zero, ofNat_small least]
    refine decDataList_put some_byte fun d inside => ?_
    obtain ⟨e, old, rfl⟩ := List.mem_map.mp inside
    rw [List.length_take, sized_take list _ e old]
    omega

theorem list_round_trip_threeOfThem :
    let list : AttDataList := ⟨4, [[1, 0, 2, 3], [4, 0, 5, 6], [7, 0, 8, 9]], by decide⟩
    (list.len + 2 ≤ 12 →
      AttDataList.contents (decReadByGrpResp (returned (encReadByGrpResp list 12))) =
        some (list.len, list.data.take ((12 - 2) / list.len)) ∧
      ∀ format, findInfoLen format = list.len →
        (decFindInfoResp (returned (encFindInfoResp format list 12))).map
            (fun r => (r.1, r.2.len, r.2.data)) =
          some (format, list.len, list.data.take ((12 - 2) / list.len))) ∧
    AttDataList.contents (decReadByTypeResp (returned (encReadByTypeResp list 12))) =
      some (min (12 - 2) list.len, (list.data.take ((12 - 2) / min (12 - 2) list.len)).map
        (·.take (min (12 - 2) list.len))) :=
  list_round_trip (by decide) (by decide) (by decide) (by decide)

theorem ranges_length (ranges : List AttRange) :
    (ranges.flatMap fun range => le16 range.start ++ le16 range.end).length = 4 * ranges.length := by
  induction ranges with
  | nil => rfl
  | cons range ranges ih =>
    rw [List.flatMap_cons, List.length_append, ih, List.length_append, List.length_cons]
    simp only [le16_length]
    omega

/-- Before the offset wraps the ranges stand one behind the other. -/
theorem putRanges_eq {len : Nat} {offset : UInt16} {pdu : List UInt8} {ranges : List AttRange}
    (small : len ≤ 0xffff) (here : pdu.length = offset.toNat) :
    putRanges len offset pdu ranges =
      pdu ++ (ranges.take ((len - offset.toNat) / 4)).flatMap fun range =>
        le16 range.start ++ le16 range.end := by
  induction ranges generalizing offset pdu with
  | nil => simp [putRanges]
  | cons range ranges ih =>
    unfold putRanges
    split
    · rename_i fits
      have next : (offset + 4).toNat = offset.toNat + 4 := by
        rw [UInt16.toNat_add]
        simp only [UInt16.reduceToNat]
        omega
      have more : (len - offset.toNat) / 4 = (len - (offset.toNat + 4)) / 4 + 1 := by omega
      have front : pdu.take offset.toNat = pdu := List.take_of_length_le (Nat.le_of_eq here)
      have behind : pdu.drop (offset.toNat + 4) = [] := List.drop_of_length_le (by omega)
      have longer : (pdu ++ (le16 range.start ++ le16 range.end)).length = (offset + 4).toNat := by
        simp only [List.length_append, le16_length, next, here]
      simp only [front, behind, List.append_nil]
      rw [ih longer, next, more, List.take_succ_cons, List.flatMap_cons, List.append_assoc]
    · have nothing : (len - offset.toNat) / 4 = 0 := by omega
      simp [nothing]

theorem encFindByTypeResp_eq {len : Nat} (small : len ≤ 0xffff) (ranges : List AttRange) :
    encFindByTypeResp ranges len = if len < 5 then []
      else attOpFindByTypeResp :: (ranges.take ((len - 1) / 4)).flatMap fun range =>
        le16 range.start ++ le16 range.end := by
  rw [encFindByTypeResp, putRanges_eq small rfl]
  rfl

theorem encFindByTypeResp_within {len : Nat} (small : len ≤ 0xffff) (ranges : List AttRange) :
    (encFindByTypeResp ranges len).length ≤ len := by
  rw [encFindByTypeResp_eq small]
  refine within_ite fun fits => ?_
  rw [List.length_cons, ranges_length, List.length_take]
  omega

theorem encReadBlobRespAt_within (value : Memory) (vlen : UInt64) (offset : UInt16) {len : UInt64}
    (room : 0 < len.toNat) : (encReadBlobRespAt value vlen offset len).length ≤ len.toNat := by
  have behind : (len - 1).toNat = len.toNat - 1 := by
    refine UInt64.toNat_sub_of_le _ _ ?_
    rw [UInt64.le_iff_toNat_le, UInt64.toNat_one]
    omega
  simp only [encReadBlobRespAt, List.length_cons, slice_length]
  split
  · omega
  · rename_i more
    rw [UInt64.lt_iff_toNat_lt] at more
    omega

theorem encReadBlobRespAt_eq {value : List UInt8} {offset : UInt16} {len : UInt64}
    (room : 0 < len.toNat) (inside : offset.toNat ≤ value.length)
    (small : value.length < 0xffffffffffffffff) :
    encReadBlobRespAt (ofBytes value) (UInt64.ofNat value.length) offset len =
      encReadBlobResp value offset len.toNat := by
  have size : (UInt64.ofNat value.length).toNat = value.length := by
    rw [UInt64.toNat_ofNat']
    omega
  have rest : (UInt64.ofNat value.length - offset.toUInt64).toNat =
      value.length - offset.toNat := by
    refine (UInt64.toNat_sub_of_le _ _ ?_).trans ?_
    · rwa [UInt64.le_iff_toNat_le, size, UInt16.toNat_toUInt64]
    · rw [size, UInt16.toNat_toUInt64]
  have last : (len - 1).toNat = len.toNat - 1 := by
    refine UInt64.toNat_sub_of_le _ _ ?_
    rw [UInt64.le_iff_toNat_le, UInt64.toNat_one]
    omega
  have whole : slice (ofBytes value) offset.toNat (value.length - offset.toNat) =
      value.drop offset.toNat := by
    have from_start := congrArg (List.drop offset.toNat) (slice_ofBytes value)
    rwa [slice_drop, Nat.zero_add] at from_start
  simp only [encReadBlobRespAt, encReadBlobResp, List.cons.injEq, true_and, ← whole]
  split
  · rename_i cut
    rw [UInt64.lt_iff_toNat_lt, rest, last] at cut
    rw [last, slice_take _ _ (Nat.le_of_lt cut)]
  · rename_i fits
    rw [UInt64.lt_iff_toNat_lt, rest, last] at fits
    rw [rest, List.take_of_length_le (by rw [slice_length]; omega)]

theorem answers_within (list : AttDataList) (ranges : List AttRange) (value : Memory)
    (vlen : UInt64) (notified : List UInt8) (format opcode status : UInt8)
    (handle offset : UInt16) {len : Nat} (room : 1 < len) (small : len ≤ 0xffff) :
    (encReadByGrpResp list len).length ≤ len ∧ (encReadByTypeResp list len).length ≤ len ∧
    (encFindInfoResp format list len).length ≤ len ∧
    (encFindByTypeResp ranges len).length ≤ len ∧
    (encReadBlobRespAt value vlen offset (UInt64.ofNat len)).length ≤ len ∧
    (encNotification handle notified len).length ≤ len ∧
    (encErrorResp opcode handle status len).length ≤ len ∧ (encConfirmation len).length ≤ len := by
  have size : (UInt64.ofNat len).toNat = len := by
    rw [UInt64.toNat_ofNat']
    omega
  refine ⟨encReadByGrpResp_within list small, encReadByTypeResp_within list room,
    encFindInfoResp_within list format, encFindByTypeResp_within small ranges, ?_,
    within_ite fun _ => ?_, within_ite fun _ => ?_, within_ite fun _ => ?_⟩
  · have blob := encReadBlobRespAt_within value vlen offset (size ▸ Nat.zero_lt_of_lt room)
    rwa [size] at blob
  · simp
    omega
  · simp
    omega
  · exact Nat.le_of_lt room

/-- No encoder writes behind its buffer, whatever it is given to encode. -/
theorem encoders_within {len : Nat} (room : 1 < len) (small : len ≤ 0xffff) :
    (∀ m : AttMsg, (m.encode len).length ≤ len) ∧
    ∀ (list : AttDataList) (ranges : List AttRange) (value : Memory) (vlen : UInt64)
      (notified : List UInt8) (format opcode status : UInt8) (handle offset : UInt16),
      (encReadByGrpResp list len).length ≤ len ∧ (encReadByTypeResp list len).length ≤ len ∧
      (encFindInfoResp format list len).length ≤ len ∧
      (encFindByTypeResp ranges len).length ≤ len ∧
      (encReadBlobRespAt value vlen offset (UInt64.ofNat len)).length ≤ len ∧
      (encNotification handle notified len).length ≤ len ∧
      (encErrorResp opcode handle status len).length ≤ len ∧
      (encConfirmation len).length ≤ len := by
  constructor
  · intro m
    exact encode_within m (Nat.zero_lt_of_lt room)
  · intro list ranges value vlen notified format opcode status handle offset
    exact answers_within list ranges value vlen notified format opcode status handle offset room
      small

theorem encoders_within_smallest :
    (∀ m : AttMsg, (m.encode 2).length ≤ 2) ∧
    ∀ (list : AttDataList) (ranges : List AttRange) (value : Memory) (vlen : UInt64)
      (notified : List UInt8) (format opcode status : UInt8) (handle offset : UInt16),
      (encReadByGrpResp list 2).length ≤ 2 ∧ (encReadByTypeResp list 2).length ≤ 2 ∧
      (encFindInfoResp format list 2).length ≤ 2 ∧
      (encFindByTypeResp ranges 2).length ≤ 2 ∧
      (encReadBlobRespAt value vlen offset (UInt64.ofNat 2)).length ≤ 2 ∧
      (encNotification handle notified 2).length ≤ 2 ∧
      (encErrorResp opcode handle status 2).length ≤ 2 ∧
      (encConfirmation 2).length ≤ 2 :=
  encoders_within (by decide) (by decide)

end AnkiDrive
