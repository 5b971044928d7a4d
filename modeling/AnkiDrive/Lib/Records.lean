import AnkiDrive.Lib.Memory

/-! Length-type-value records in a byte buffer. The length byte counts the type
byte and the payload; a zero length byte or a zero type byte ends the sequence.
`decode` is the meaning of a buffer and `encode` its inverse; a `Packet` is a
buffer none of whose records is cut off by the end. -/
namespace CModel

@[ext] structure Record where
  type : UInt8
  payload : List UInt8
  typed : type ≠ 0
  short : payload.length ≤ 254
  deriving DecidableEq

def Record.encode (r : Record) : List UInt8 :=
  UInt8.ofNat (r.payload.length + 1) :: r.type :: r.payload

def encode (rs : List Record) : List UInt8 := rs.flatMap Record.encode

theorem payload_short (data : Memory) (i : Nat) :
    (slice data (i + 2) ((data i).toNat - 1)).length ≤ 254 := by
  have byte := (data i).toNat_lt
  rw [slice_length]
  omega

/-- The record whose length byte is at index `i`. -/
def recordAt (data : Memory) (i : Nat) (typed : data (i + 1) ≠ 0) : Record :=
  ⟨data (i + 1), slice data (i + 2) ((data i).toNat - 1), typed, payload_short data i⟩

/-- The records from index `i` up to the end of the buffer or of the sequence. -/
def decode (data : Memory) (n i : Nat) : List Record :=
  if i < n then
    if data i = 0 then []
    else if typed : data (i + 1) ≠ 0 then
      recordAt data i typed :: decode data n (i + 1 + (data i).toNat)
    else []
  else []
termination_by n - i

/-- From index `i` on, every length byte, type byte and payload lies below `n`. -/
inductive Inside (data : Memory) (n : Nat) : Nat → Prop where
  | done {i : Nat} : n ≤ i → Inside data n i
  | zero {i : Nat} : i < n → data i = 0 → Inside data n i
  | invalid {i : Nat} : i + 1 < n → data i ≠ 0 → data (i + 1) = 0 → Inside data n i
  | record {i : Nat} : data i ≠ 0 → data (i + 1) ≠ 0 → i + 1 + (data i).toNat ≤ n →
      Inside data n (i + 1 + (data i).toNat) → Inside data n i

theorem length_pos {b : UInt8} (h : b ≠ 0) : 0 < b.toNat :=
  Nat.pos_of_ne_zero (fun zero => h (UInt8.toNat_inj.mp zero))

variable {data other : Memory} {n i : Nat}

theorem decode_done (h : n ≤ i) : decode data n i = [] := by
  rw [decode, if_neg (Nat.not_lt_of_le h)]

theorem decode_zero (h : data i = 0) : decode data n i = [] := by
  rw [decode]
  simp [h]

theorem decode_invalid (h : data (i + 1) = 0) : decode data n i = [] := by
  rw [decode]
  simp [h]

theorem decode_record (h : i < n) (counted : data i ≠ 0) (typed : data (i + 1) ≠ 0) :
    decode data n i = recordAt data i typed :: decode data n (i + 1 + (data i).toNat) := by
  rw [decode, if_pos h, if_neg counted, dif_pos typed]

/-- The record `r` sits at index `i`: its length byte, its type byte, its payload. -/
structure Holds (data : Memory) (i : Nat) (r : Record) : Prop where
  len : (data i).toNat = r.payload.length + 1
  type : data (i + 1) = r.type
  payload : slice data (i + 2) r.payload.length = r.payload

theorem recordAt_holds (counted : data i ≠ 0) (typed : data (i + 1) ≠ 0) :
    Holds data i (recordAt data i typed) := by
  have pos := length_pos counted
  have size : (recordAt data i typed).payload.length = (data i).toNat - 1 := slice_length ..
  refine ⟨?_, rfl, ?_⟩
  · omega
  · rw [size]
    rfl

theorem Holds.counted {r : Record} (held : Holds data i r) : data i ≠ 0 := by
  intro zero
  have len := held.len
  simp [zero] at len

theorem Holds.typed {r : Record} (held : Holds data i r) : data (i + 1) ≠ 0 := held.type ▸ r.typed

theorem Holds.eq_recordAt {r : Record} (held : Holds data i r) : recordAt data i held.typed = r := by
  have count : (data i).toNat - 1 = r.payload.length := by
    have len := held.len
    omega
  ext1
  · exact held.type
  · change slice data (i + 2) ((data i).toNat - 1) = r.payload
    rw [count]
    exact held.payload

theorem decode_holds {r : Record} (h : i < n) (held : Holds data i r) :
    decode data n i = r :: decode data n (i + (r.payload.length + 2)) := by
  have next : i + 1 + (data i).toNat = i + (r.payload.length + 2) := by
    have len := held.len
    omega
  rw [decode_record h held.counted held.typed, held.eq_recordAt, next]

theorem Record.encode_length (r : Record) : r.encode.length = r.payload.length + 2 := rfl

theorem encode_cons (r : Record) (rs : List Record) : encode (r :: rs) = r.encode ++ encode rs := rfl

theorem decode_eq_cons {r : Record} {rs : List Record} (first : decode data n i = r :: rs) :
    i < n ∧ Holds data i r ∧ decode data n (i + (r.payload.length + 2)) = rs := by
  fun_cases decode data n i with
  | case1 h zero => rw [decode_zero zero] at first; cases first
  | case2 h counted typed =>
    have here := recordAt_holds counted typed
    rw [decode_holds h here] at first
    obtain ⟨rfl, rest⟩ := List.cons.inj first
    exact ⟨h, here, rest⟩
  | case3 h counted invalid => rw [decode_invalid (by simpa using invalid)] at first; cases first
  | case4 h => rw [decode_done (by omega)] at first; cases first

theorem holds_of_decode {before after : List Record} {r : Record}
    (occurs : decode data n i = before ++ r :: after) :
    Holds data (i + (encode before).length) r := by
  induction before generalizing i with
  | nil => exact (decode_eq_cons occurs).2.1
  | cons s before ih =>
    have place : i + (encode (s :: before)).length =
        i + (s.payload.length + 2) + (encode before).length := by
      rw [encode_cons, List.length_append, s.encode_length]
      omega
    rw [place]
    exact ih (decode_eq_cons occurs).2.2

theorem decode_congr (inside : Inside data n i) (agree : ∀ a < n, data a = other a) :
    decode data n i = decode other n i := by
  induction inside with
  | done h => rw [decode_done h, decode_done h]
  | @zero i h zero => rw [decode_zero zero, decode_zero (agree i h ▸ zero)]
  | @invalid i h _ zero => rw [decode_invalid zero, decode_invalid (agree (i + 1) h ▸ zero)]
  | @record i counted typed fits _ ih =>
    have here := recordAt_holds counted typed
    have len := here.len
    have there : Holds other i (recordAt data i typed) := by
      refine ⟨agree i (by omega) ▸ here.len, agree (i + 1) (by omega) ▸ here.type, ?_⟩
      rw [← slice_congr (m := data) (fun a _ hi => agree a (by omega))]
      exact here.payload
    have next : i + 1 + (data i).toNat = i + ((recordAt data i typed).payload.length + 2) := by omega
    rw [decode_record (by omega) counted typed, ih, decode_holds (by omega) there, next]

theorem inside_congr (inside : Inside data n i) (agree : ∀ a < n, data a = other a) :
    Inside other n i := by
  induction inside with
  | done h => exact .done h
  | @zero i h zero => exact .zero h (agree i h ▸ zero)
  | @invalid i h counted zero =>
    exact .invalid h (agree i (by omega) ▸ counted) (agree (i + 1) h ▸ zero)
  | @record i counted typed fits _ ih =>
    have pos := length_pos counted
    have type : data (i + 1) = other (i + 1) := agree (i + 1) (by omega)
    have same : data i = other i := agree i (by omega)
    rw [same] at counted fits ih
    exact .record counted (type ▸ typed) fits ih

theorem inside_shift {b : Nat} (inside : Inside (fun a => data (b + a)) n i) :
    Inside data (b + n) (b + i) := by
  induction inside with
  | done h => exact .done (by omega)
  | zero h zero => exact .zero (by omega) zero
  | invalid h counted zero => exact .invalid (by omega) counted zero
  | record counted typed fits _ ih =>
    refine .record counted typed (by omega) ?_
    simpa only [Nat.add_assoc] using ih

theorem decode_shift (b : Nat) : decode (fun a => data (b + a)) n i = decode data (b + n) (b + i) := by
  fun_induction decode (fun a => data (b + a)) n i with
  | case1 i h zero => rw [decode_zero zero]
  | case2 i h counted typed ih =>
    have here := @recordAt_holds (fun a => data (b + a)) i counted typed
    have there : Holds data (b + i) (recordAt (fun a => data (b + a)) i typed) := by
      refine ⟨here.len, here.type, ?_⟩
      rw [Nat.add_assoc, ← slice_shift]
      exact here.payload
    have len := here.len
    have next : b + (i + 1 + (data (b + i)).toNat) =
        b + i + ((recordAt (fun a => data (b + a)) i typed).payload.length + 2) := by omega
    rw [decode_holds (by omega) there, ih, next]
  | case3 i h counted invalid => rw [decode_invalid (by simpa [Nat.add_assoc] using invalid)]
  | case4 i h => rw [decode_done (by omega)]

theorem holds_of_slice {r : Record} (held : slice data i r.encode.length = r.encode) :
    Holds data i r := by
  rw [r.encode_length] at held
  simp only [Record.encode, slice_succ, List.cons.injEq] at held
  obtain ⟨len, type, payload⟩ := held
  have short := r.short
  refine ⟨?_, type, payload⟩
  rw [len, UInt8.toNat_ofNat']
  omega

theorem holds_cons {r : Record} {rs : List Record}
    (held : slice data i (encode (r :: rs)).length = encode (r :: rs)) :
    Holds data i r ∧ slice data (i + (r.payload.length + 2)) (encode rs).length = encode rs := by
  rw [encode_cons, List.length_append, slice_append] at held
  obtain ⟨first, rest⟩ := List.append_inj held (by simp)
  exact ⟨holds_of_slice first, rest⟩

theorem decode_encode (rs : List Record) (held : slice data i (encode rs).length = encode rs)
    (fits : i + (encode rs).length ≤ n) :
    decode data n i = rs ++ decode data n (i + (encode rs).length) := by
  induction rs generalizing i with
  | nil => rfl
  | cons r rs ih =>
    obtain ⟨first, rest⟩ := holds_cons held
    rw [encode_cons, List.length_append, r.encode_length] at fits ⊢
    rw [decode_holds (by omega) first, ih rest (by omega), Nat.add_assoc, List.cons_append]

theorem inside_encode (rs : List Record) (held : slice data i (encode rs).length = encode rs)
    (fits : i + (encode rs).length ≤ n) (rest : Inside data n (i + (encode rs).length)) :
    Inside data n i := by
  induction rs generalizing i with
  | nil => exact rest
  | cons r rs ih =>
    obtain ⟨first, tail⟩ := holds_cons held
    rw [encode_cons, List.length_append, r.encode_length] at fits rest
    have len := first.len
    have next : i + 1 + (data i).toNat = i + (r.payload.length + 2) := by omega
    refine .record first.counted first.typed (by omega) ?_
    rw [next]
    exact ih tail (by omega) (by simpa only [Nat.add_assoc] using rest)

/-- A buffer whose records all end inside it. -/
structure Packet where
  data : Memory
  len : Nat
  inside : Inside data len 0

namespace Packet

def bytes (p : Packet) : List UInt8 := slice p.data 0 p.len

def records (p : Packet) : List Record := decode p.data p.len 0

def ofRecords (rs : List Record) : Packet where
  data := ofBytes (encode rs)
  len := (encode rs).length
  inside := inside_encode rs (slice_ofBytes _) (by omega) (.done (by omega))

def prepend (rs : List Record) (q : Packet) : Packet where
  data := Memory.write (fun a => q.data (a - (encode rs).length)) 0 (encode rs)
  len := (encode rs).length + q.len
  inside := by
    have front := Memory.slice_write_same (fun a => q.data (a - (encode rs).length)) 0 (encode rs)
    refine inside_encode rs front (by omega) ?_
    rw [Nat.zero_add]
    refine inside_shift (inside_congr q.inside fun a _ => ?_)
    rw [Memory.write_outside _ (Or.inr (by omega)), Nat.add_sub_cancel_left]

@[simp] theorem bytes_length (p : Packet) : p.bytes.length = p.len := slice_length ..

@[simp] theorem ofRecords_bytes (rs : List Record) : (ofRecords rs).bytes = encode rs :=
  slice_ofBytes _

@[simp] theorem prepend_bytes (rs : List Record) (q : Packet) :
    (prepend rs q).bytes = encode rs ++ q.bytes := by
  have front := Memory.slice_write_same (fun a => q.data (a - (encode rs).length)) 0 (encode rs)
  simp only [bytes, prepend, slice_append, Nat.zero_add, front, List.append_cancel_left_eq]
  refine slice_eq_iff.mpr fun a _ => ?_
  rw [Memory.write_outside _ (Or.inr (by omega)), Nat.add_sub_cancel_left, Nat.zero_add]

theorem bytes_append {p q : Packet} {bs : List UInt8} (held : p.bytes = bs ++ q.bytes) :
    p.len = bs.length + q.len ∧ slice p.data 0 bs.length = bs ∧
      ∀ a < q.len, q.data a = p.data (bs.length + a) := by
  have size : p.len = bs.length + q.len := by
    have := congrArg List.length held
    simpa using this
  rw [bytes, bytes, size, slice_append, Nat.zero_add] at held
  obtain ⟨front, back⟩ := List.append_inj held (by simp)
  refine ⟨size, front, fun a ha => ?_⟩
  simpa using (slice_eq_iff.mp back a ha).symm

/-- The records of a packet are a matter of its bytes alone. -/
theorem records_append {p q : Packet} {rs : List Record} (held : p.bytes = encode rs ++ q.bytes) :
    p.records = rs ++ q.records := by
  obtain ⟨size, front, back⟩ := bytes_append held
  have tail : decode p.data p.len (0 + (encode rs).length) = q.records := by
    have moved := @decode_shift p.data q.len 0 (encode rs).length
    rw [Nat.zero_add, size]
    rw [Nat.add_zero] at moved
    rw [← moved, records]
    exact (decode_congr q.inside back).symm
  rw [records, decode_encode rs (by simpa using front) (by omega), tail]

theorem records_of_bytes {p q : Packet} (same : p.bytes = q.bytes) : p.records = q.records :=
  @records_append p q [] same

theorem records_encode {p : Packet} {rs : List Record} (held : p.bytes = encode rs) :
    p.records = rs := by
  have none : (ofRecords []).records = [] := decode_done (by simp [ofRecords, encode])
  have empty : (ofRecords []).bytes = [] := ofRecords_bytes []
  have whole : p.bytes = encode rs ++ (ofRecords []).bytes := by simp [held, empty]
  have split := records_append whole
  rw [split, none, List.append_nil]

@[simp] theorem ofRecords_records (rs : List Record) : (ofRecords rs).records = rs :=
  records_encode (ofRecords_bytes rs)

end Packet

end CModel
