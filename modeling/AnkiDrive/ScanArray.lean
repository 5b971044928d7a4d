import AnkiDrive.Walkers

/-! The array `ble_adv_parse_scan` leaves behind. The scan reads back what the encoding
of a list of records put into the buffer; counting first and filling afterwards works
as long as the index, which is a byte, does not wrap. -/
namespace AnkiDrive
open CModel

/-- The bytes with which a sequence of records may end: none, or one of the two end markers
and anything behind it. -/
inductive EndsScan : List UInt8 → Prop where
  | done : EndsScan []
  | zero (rest : List UInt8) : EndsScan (0 :: rest)
  | invalid {len : UInt8} (rest : List UInt8) : len ≠ 0 → EndsScan (len :: 0 :: rest)

theorem decode_ends {data : Memory} {i : Nat} {tail : List UInt8} (ends : EndsScan tail)
    (held : slice data i tail.length = tail) : decode data (i + tail.length) i = [] := by
  cases ends with
  | done => exact decode_done (Nat.le_refl i)
  | zero rest =>
    simp only [List.length_cons, slice_succ, List.cons.injEq] at held
    exact decode_zero held.1
  | @invalid len rest counted =>
    simp only [List.length_cons, slice_succ, List.cons.injEq] at held
    exact decode_invalid held.2.1

theorem decode_encoding {data : Memory} {rs : List Record} {tail : List UInt8}
    (ends : EndsScan tail)
    (held : slice data 0 (encode rs ++ tail).length = encode rs ++ tail) :
    decode data (encode rs ++ tail).length 0 = rs := by
  simp only [List.length_append, slice_append, Nat.zero_add] at held ⊢
  obtain ⟨front, back⟩ := List.append_inj held (by simp)
  have rest := decode_ends ends back
  have whole := decode_encode rs front (Nat.le_trans (Nat.le_of_eq (Nat.zero_add _))
    (Nat.le_add_right (encode rs).length tail.length))
  simp only [Nat.zero_add] at whole
  simp only [whole, rest, List.append_nil]

theorem fillRecords_above {rs : List Record} (m : Memory) {k a : Nat}
    (short : ∀ r ∈ rs, r.payload.length ≤ 30) (above : bleAdvRecordSize * (k + rs.length) ≤ a) :
    fillRecords m k rs a = m a := by
  induction rs generalizing m k with
  | nil => rfl
  | cons r rs ih =>
    have size : (stored r).length ≤ bleAdvRecordSize := by
      have fits := short r List.mem_cons_self
      simp only [stored, List.length_cons, bleAdvRecordSize]
      omega
    have next : k + 1 + rs.length = k + (rs.length + 1) := by omega
    have place : bleAdvRecordSize * k + bleAdvRecordSize ≤ a := by
      simp only [bleAdvRecordSize, List.length_cons] at above ⊢
      omega
    have rest := ih (m.write (bleAdvRecordSize * k) (stored r))
      (fun s hs => short s (List.mem_cons_of_mem r hs)) (next ▸ above)
    simp only [fillRecords, rest]
    exact Memory.write_outside m (Or.inr (by omega))

/-- One entry written: its place in the array, and the record that goes there. -/
def writeEntry (m : Memory) (entry : Nat × Record) : Memory :=
  m.write (bleAdvRecordSize * entry.1) (stored entry.2)

theorem fillRecords_entries (m : Memory) (k : Nat) (rs : List Record) :
    fillRecords m k rs = ((List.range' k rs.length).zip rs).foldl writeEntry m := by
  induction rs generalizing m k with
  | nil => rfl
  | cons r rs ih =>
    simp only [fillRecords, List.length_cons, List.range'_succ, List.zip_cons_cons, List.foldl_cons]
    exact ih _ (k + 1)

theorem scan_filled {data m : Memory} {n : Nat} (few : (decode data n 0).length ≤ 255)
    (count : Nat) :
    bleAdvParseScan (some data) n (some count) (some m) =
      ⟨0, some (decode data n 0).length, some (fillRecords m 0 (decode data n 0))⟩ := by
  have run := scan_run data m n 0 0 (by simpa using few)
  simp only [UInt8.toNat_zero, Nat.zero_add] at run
  have size : (UInt8.ofNat (decode data n 0).length).toNat = (decode data n 0).length :=
    UInt8.toNat_ofNat_of_lt (Nat.lt_succ_of_le few)
  simp only [bleAdvParseScan, run, Option.map_some, size]

theorem stores_filled {rs : List Record} (array : Memory)
    (short : ∀ r ∈ rs, r.payload.length ≤ 30) (k : Nat) (inside : k < rs.length) :
    Stores (bleAdvRecordAt (fillRecords array 0 rs) k) rs[k] := by
  have here := (stores_scanned array 0 short).get (by simpa using inside) inside
  simpa using here

/-- The scan reads back what was encoded, whatever follows the end marker. -/
theorem scan_inverts_encoding {data : Memory} {rs : List Record} {tail : List UInt8}
    (held : slice data 0 (encode rs ++ tail).length = encode rs ++ tail) (ends : EndsScan tail)
    (few : rs.length ≤ 255) (short : ∀ r ∈ rs, r.payload.length ≤ 30)
    (count : Nat) (array : Memory) :
    ∃ records, bleAdvParseScan (some data) (encode rs ++ tail).length (some count) (some array) =
        ⟨0, some rs.length, some records⟩ ∧
      (∀ k (inside : k < rs.length), Stores (bleAdvRecordAt records k) rs[k]) ∧
      ∀ a, bleAdvRecordSize * rs.length ≤ a → records a = array a := by
  have whole := decode_encoding ends held
  have run := @scan_filled data array _ (whole.symm ▸ few) count
  simp only [whole] at run
  refine ⟨fillRecords array 0 rs, run, stores_filled array short, ?_⟩
  intro a above
  exact fillRecords_above array short (by simpa using above)

theorem adv_packet_scanned :
    let flags : Record := ⟨advTypeFlags, [0x06], by decide, by decide⟩
    let power : Record := ⟨advTypeTxPower, [0xf4], by decide, by decide⟩
    ∃ records, bleAdvParseScan (some (ofBytes (encode [flags, power] ++ [0, 0xff]))) 8 (some 7)
        (some fun _ => 0xaa) = ⟨0, some 2, some records⟩ ∧
      (∀ k (inside : k < [flags, power].length),
        Stores (bleAdvRecordAt records k) [flags, power][k]) ∧
      ∀ a, bleAdvRecordSize * 2 ≤ a → records a = 0xaa := by
  intro flags power
  have held := slice_ofBytes (encode [flags, power] ++ [0, 0xff])
  exact scan_inverts_encoding held (.zero [0xff]) (by decide) (by decide) 7 _

theorem count_run (data : Memory) (n i : Nat) (k : UInt8) :
    (bleAdvParseScan.loop n none k i).run data =
      (k + UInt8.ofNat (decode data n i).length, none) := by
  have stay : k + UInt8.ofNat ([] : List Record).length = k := by simp
  rw [scan_eq_walk]
  fun_induction decode data n i generalizing k with
  | case1 i h zero =>
    simp only [walk_end_run _ _ _ (Or.inr (Or.inl zero)), id, stay]
  | case2 i h counted typed ih =>
    have next : k + UInt8.ofNat ((decode data n (i + 1 + (data i).toNat)).length + 1) =
        k + 1 + UInt8.ofNat (decode data n (i + 1 + (data i).toNat)).length := by
      rw [UInt8.ofNat_add, UInt8.add_assoc, UInt8.add_comm 1]
      rfl
    rw [walk_record_run _ _ _ h counted typed, List.length_cons, next]
    exact ih (k + 1) (by simp)
  | case3 i h counted invalid =>
    simp only [walk_end_run _ _ _ (Or.inr (Or.inr (by simpa using invalid))), id, stay]
  | case4 i h =>
    have out : n ≤ i := Nat.le_of_not_lt h
    simp only [walk_end_run _ _ _ (Or.inl out), id, stay]

theorem scan_counts (data : Memory) (n count : Nat) :
    bleAdvParseScan (some data) n (some count) none =
      ⟨0, some ((decode data n 0).length % 256), none⟩ := by
  have run := count_run data n 0 0
  simp only [UInt8.zero_add] at run
  simp only [bleAdvParseScan, run, Option.map_some, UInt8.toNat_ofNat']

/-- A call without an array counts the records, and a second one that is handed an array
writes the records to its first entries, each once and in order, and nothing else. -/
def CountsThenFills (p : Packet) : Prop :=
  ∃ c, (∀ count, bleAdvParseScan (some p.data) p.len (some count) none = ⟨0, some c, none⟩) ∧
    c = p.records.length ∧
    ∀ count array, ∃ records,
      bleAdvParseScan (some p.data) p.len (some count) (some array) = ⟨0, some c, some records⟩ ∧
      records = ((List.range c).zip p.records).foldl writeEntry array ∧
      (∀ k (inside : k < p.records.length), Stores (bleAdvRecordAt records k) p.records[k]) ∧
      ∀ a, bleAdvRecordSize * c ≤ a → records a = array a

/-- Counting first and filling afterwards works for up to 255 records. -/
theorem counts_then_fills_iff {p : Packet} (short : ∀ r ∈ p.records, r.payload.length ≤ 30) :
    CountsThenFills p ↔ p.records.length ≤ 255 := by
  have counts := scan_counts p.data p.len
  constructor
  · rintro ⟨c, counted, size, _⟩
    have same := (counts 0).symm.trans (counted 0)
    simp only [ScanResult.mk.injEq, Option.some.injEq, true_and, and_true] at same
    have byte := Nat.mod_lt p.records.length (show 0 < 256 by decide)
    have cut : p.records.length % 256 = p.records.length := same.trans size
    omega
  · intro few
    have whole : p.records.length % 256 = p.records.length := Nat.mod_eq_of_lt (by omega)
    refine ⟨p.records.length, fun count => ?_, rfl, fun count array => ?_⟩
    · exact (counts count).trans (congrArg (fun c => ScanResult.mk 0 (some c) none) whole)
    · refine ⟨fillRecords array 0 p.records, scan_filled few count, ?_, ?_, ?_⟩
      · simp only [fillRecords_entries, List.range_eq_range']
      · exact stores_filled array short
      · intro a above
        exact fillRecords_above array short (by simpa using above)

theorem flags_packet_counts_then_fills :
    let flags : Record := ⟨advTypeFlags, [0x06], by decide, by decide⟩
    let power : Record := ⟨advTypeTxPower, [0xf4], by decide, by decide⟩
    CountsThenFills (Packet.ofRecords [flags, power]) ↔ 2 ≤ 255 := by
  intro flags power
  have records := Packet.ofRecords_records [flags, power]
  have iff := counts_then_fills_iff (p := Packet.ofRecords [flags, power])
    (by simp only [records]; decide)
  simpa only [records, List.length_cons, List.length_nil] using iff

theorem encode_replicate_length (k : Nat) (r : Record) :
    (encode (List.replicate k r)).length = k * r.encode.length := by
  induction k with
  | zero => simp [encode]
  | succ k ih =>
    rw [List.replicate_succ, encode_cons, List.length_append, ih, Nat.succ_mul, Nat.add_comm]

/-- With 256 records the count is 0. -/
theorem count_wraps_at_256 :
    let power : Record := ⟨advTypeTxPower, [], by decide, by decide⟩
    let p := Packet.ofRecords (List.replicate 256 power)
    (∀ r ∈ p.records, r.payload.length ≤ 30) ∧ p.len < 0x80000000 ∧
      bleAdvParseScan (some p.data) p.len (some 7) none = ⟨0, some 0, none⟩ ∧
      ¬ CountsThenFills p := by
  intro power p
  have records : p.records = List.replicate 256 power := Packet.ofRecords_records _
  have zero := scan_counts p.data p.len
  have size : p.records.length = 256 := (congrArg List.length records).trans List.length_replicate
  have packet : decode p.data p.len 0 = p.records := rfl
  simp only [packet, size] at zero
  refine ⟨?_, ?_, zero 7, ?_⟩
  · intro r member
    have same : r = power := List.eq_of_mem_replicate (records ▸ member)
    exact same ▸ Nat.zero_le 30
  · have bytes : p.len = 256 * power.encode.length := encode_replicate_length 256 power
    rw [bytes]
    decide
  · rintro ⟨c, counted, whole, _⟩
    have none := (zero 0).symm.trans (counted 0)
    simp only [ScanResult.mk.injEq, Option.some.injEq, true_and, and_true] at none
    omega

end AnkiDrive
