import AnkiDrive.AttPdu
import AnkiDrive.Exchange
import AnkiDrive.Lib.Dialogue

/-! `gatt_read_char`: the dialogue that reads a value of any length. A callback is called with the
status of the answer and with the bytes that the channel has read of it. The channel lives and
there is memory. -/
namespace AnkiDrive
open CModel

/-- The callback that waits, with `buffer` and `size` of `struct read_long_data`. -/
inductive ReadCb where
  | char
  | blob (buffer : List UInt8) (size : UInt16)

/-- What a callback of the user is called with. -/
abbrev AttResult := UInt8 × List UInt8

section Model

variable (buflen : Nat) (handle : UInt16)

def readBlobHelper (buffer : List UInt8) (size : UInt16) (status : UInt8) (rpdu : List UInt8) :
    Turn (List UInt8) ReadCb AttResult :=
  -- an error ends the value as well, and is not reported
  if status ≠ 0 ∨ rpdu.length = 1 then .done (0, buffer.take size.toNat)
  else
    let buffer := buffer.take size.toNat ++ rpdu.drop 1
    let size := size + UInt16.ofNat (rpdu.length - 1)
    if rpdu.length < buflen then .done (status, buffer.take size.toNat)
    else .ask (encReadBlobReq handle (size - 1) buflen) (.blob buffer size)

def readCharHelper (status : UInt8) (rpdu : List UInt8) : Turn (List UInt8) ReadCb AttResult :=
  if status ≠ 0 ∨ rpdu.length < buflen then .done (status, rpdu)
  else
    .ask (encReadBlobReq handle (UInt16.ofNat (rpdu.length - 1)) buflen)
      (.blob rpdu (UInt16.ofNat rpdu.length))

def readNext (s : ReadCb) (answer : List UInt8) : Turn (List UInt8) ReadCb AttResult :=
  match s with
  | .char =>
    readCharHelper buflen handle (statusOf (opcode2expected attOpReadReq) answer) (answer.take 512)
  | .blob buffer size =>
    readBlobHelper buflen handle buffer size (statusOf (opcode2expected attOpReadBlobReq) answer)
      (answer.take 512)

def gattReadChar : Turn (List UInt8) ReadCb AttResult := .ask (encReadReq handle buflen) .char

end Model

/-- A server with a value behind the handle. Behind the end of the value it may send nothing or
an error. -/
structure ServesValue (mtu : Nat) (handle : UInt16) (value request answer : List UInt8) : Prop where
  read : decReadReq request = some handle → answer = encReadResp value mtu
  blob : ∀ offset, decReadBlobReq request = some (handle, offset) →
    offset.toNat < value.length → answer = encReadBlobResp value offset mtu
  behind : ∀ offset, decReadBlobReq request = some (handle, offset) →
    offset.toNat = value.length →
      answer = [attOpReadBlobResp] ∨ opcodeOf answer = attOpError ∧ statusGiven answer ≠ 0

/-- The dialogue after `k` bytes of the value. -/
inductive ReadTurn (mtu : Nat) (handle : UInt16) (value : List UInt8) :
    Turn (List UInt8) ReadCb AttResult → Prop where
  | start : ReadTurn mtu handle value (gattReadChar mtu handle)
  | more (k : Nat) (inside : k ≤ value.length) :
      ReadTurn mtu handle value (.ask (encReadBlobReq handle (UInt16.ofNat k) mtu)
        (.blob (attOpReadResp :: value.take k) (UInt16.ofNat (k + 1))))
  | whole : ReadTurn mtu handle value (.done (0, attOpReadResp :: value))

/-- The bytes that are still to be read, and more while the dialogue goes on. -/
def readLeft (value : List UInt8) : Turn (List UInt8) ReadCb AttResult → Nat
  | .ask _ .char => value.length + 2
  | .ask _ (.blob buffer _) => value.length + 2 - buffer.length
  | .done _ => 0

variable {mtu : Nat} {handle : UInt16} {value answer : List UInt8}

theorem statusOf_response {opcode : UInt8} (response : opcode ≠ attOpError) (rest : List UInt8) :
    statusOf opcode (opcode :: rest) = 0 := by
  rw [statusOf, opcodeOf_cons, if_neg response, if_neg (not_not.mpr rfl)]

theorem statusOf_given (expected : UInt8) (error : opcodeOf answer = attOpError) :
    statusOf expected answer = statusGiven answer := by
  rw [statusOf, statusGiven, if_pos error, if_pos error]

theorem statusOf_error (room : 5 ≤ mtu) (expected opcode status : UInt8) :
    statusOf expected (encErrorResp opcode handle status mtu) = status := by
  rw [encErrorResp, if_neg (by omega)]
  rfl

theorem toNat_ofNat_u16 {n : Nat} (small : n < 0x10000) : (UInt16.ofNat n).toNat = n :=
  UInt16.toNat_ofNat_of_lt small

theorem encReadReq_read (room : 5 ≤ mtu) : decReadReq (encReadReq handle mtu) = some handle := by
  refine (decWord_enc ?_).2
  rw [encWord, if_neg (by omega)]
  exact List.cons_ne_nil _ _

theorem readTurn_char (room : 5 ≤ mtu) (fits : mtu ≤ 512)
    (serves : ServesValue mtu handle value (encReadReq handle mtu) answer) :
    ReadTurn mtu handle value (readNext mtu handle .char answer) ∧
      readLeft value (readNext mtu handle .char answer) < value.length + 2 := by
  have asked := @encReadReq_read mtu handle room
  rw [serves.read asked, encReadResp]
  have all : (attOpReadResp :: value.take (mtu - 1)).take 512 =
      attOpReadResp :: value.take (mtu - 1) := by
    refine List.take_of_length_le ?_
    rw [List.length_cons, List.length_take]
    omega
  have status := statusOf_response (show attOpReadResp ≠ attOpError by decide)
    (value.take (mtu - 1))
  simp only [readNext, readCharHelper, show opcode2expected attOpReadReq = attOpReadResp from rfl,
    status, all, List.length_cons, List.length_take, ne_eq, not_true_eq_false, false_or]
  split
  · rename_i short
    have whole : value.take (mtu - 1) = value := List.take_of_length_le (by omega)
    rw [whole]
    exact ⟨.whole, by simp [readLeft]⟩
  · rename_i long
    have size : min (mtu - 1) value.length = mtu - 1 := by omega
    simp only [size, Nat.add_sub_cancel]
    refine ⟨.more (mtu - 1) (by omega), ?_⟩
    simp only [readLeft, List.length_cons, List.length_take]
    omega

theorem encReadBlobReq_read (room : 5 ≤ mtu) (offset : UInt16) :
    decReadBlobReq (encReadBlobReq handle offset mtu) = some (handle, offset) := by
  refine (decReadBlobReq_enc ?_).2
  rw [encReadBlobReq, if_neg (by omega)]
  exact List.cons_ne_nil _ _

/-- The buffer of the dialogue holds what has been read, up to its size. -/
theorem buffer_held {k : Nat} (small : k < 0xffff) :
    (attOpReadResp :: value.take k).take (UInt16.ofNat (k + 1)).toNat =
      attOpReadResp :: value.take k := by
  rw [toNat_ofNat_u16 (by omega)]
  refine List.take_of_length_le ?_
  rw [List.length_cons, List.length_take]
  omega

theorem readTurn_inside {k : Nat} (room : 5 ≤ mtu) (fits : mtu ≤ 512)
    (short : value.length < 0xffff) (inside : k < value.length)
    (serves : ServesValue mtu handle value
      (encReadBlobReq handle (UInt16.ofNat k) mtu) answer) :
    ReadTurn mtu handle value (readNext mtu handle
        (.blob (attOpReadResp :: value.take k) (UInt16.ofNat (k + 1))) answer) ∧
      readLeft value (readNext mtu handle
        (.blob (attOpReadResp :: value.take k) (UInt16.ofNat (k + 1))) answer) <
        value.length + 2 - (k + 1) := by
  have asked := @encReadBlobReq_read mtu handle room (UInt16.ofNat k)
  have offset : (UInt16.ofNat k).toNat = k := toNat_ofNat_u16 (by omega)
  rw [serves.blob _ asked (by omega), encReadBlobResp, offset]
  have all : (attOpReadBlobResp :: (value.drop k).take (mtu - 1)).take 512 =
      attOpReadBlobResp :: (value.drop k).take (mtu - 1) := by
    refine List.take_of_length_le ?_
    rw [List.length_cons, List.length_take]
    omega
  obtain ⟨n, read, some, end_of⟩ : ∃ n, min (mtu - 1) (value.length - k) = n ∧ 0 < n ∧
      (n + 1 < mtu → k + n = value.length) := ⟨_, rfl, by omega, by omega⟩
  have joined : value.take k ++ (value.drop k).take (mtu - 1) = value.take (k + n) := by
    rw [← List.take_add, List.take_eq_take_iff]
    omega
  have size : UInt16.ofNat (k + 1) + UInt16.ofNat n = UInt16.ofNat (k + n + 1) := by
    rw [← UInt16.ofNat_add]
    congr 1
    omega
  have last : UInt16.ofNat (k + n + 1) - 1 = UInt16.ofNat (k + n) := by
    rw [UInt16.ofNat_add]
    exact UInt16.add_sub_cancel _ _
  have grown : (attOpReadResp :: value.take (k + n)).length = k + n + 1 := by
    rw [List.length_cons, List.length_take]
    omega
  have status := statusOf_response (show attOpReadBlobResp ≠ attOpError by decide)
    ((value.drop k).take (mtu - 1))
  simp only [readNext, readBlobHelper,
    show opcode2expected attOpReadBlobReq = attOpReadBlobResp from rfl, status, all,
    buffer_held (Nat.lt_trans inside short), List.length_cons, List.length_take,
    List.length_drop, read, ne_eq, not_true_eq_false, false_or, List.drop_succ_cons,
    List.drop_zero, List.cons_append, joined, Nat.add_sub_cancel, size, last]
  rw [if_neg (by omega)]
  split
  · rename_i short
    have whole : value.take (k + n) = value := List.take_of_length_le (by omega)
    rw [toNat_ofNat_u16 (by omega), ← grown, List.take_length, whole]
    refine ⟨.whole, ?_⟩
    simp only [readLeft]
    omega
  · refine ⟨.more (k + n) (by omega), ?_⟩
    simp only [readLeft, grown]
    omega

/-- At the end of the value nothing or an error is read, and the dialogue is over. -/
theorem readNext_behind (room : 5 ≤ mtu) (short : value.length < 0xffff)
    (serves : ServesValue mtu handle value
      (encReadBlobReq handle (UInt16.ofNat value.length) mtu) answer) :
    readNext mtu handle (.blob (attOpReadResp :: value.take value.length)
      (UInt16.ofNat (value.length + 1))) answer = .done (0, attOpReadResp :: value) := by
  have asked := @encReadBlobReq_read mtu handle room (UInt16.ofNat value.length)
  have offset : (UInt16.ofNat value.length).toNat = value.length := toNat_ofNat_u16 (by omega)
  have stop : statusOf (opcode2expected attOpReadBlobReq) answer ≠ 0 ∨
      (answer.take 512).length = 1 := by
    rcases serves.behind _ asked offset with rfl | ⟨error, status⟩
    · exact Or.inr rfl
    · exact Or.inl (statusOf_given _ error ▸ status)
  simp only [readNext, readBlobHelper, if_pos stop, buffer_held short]
  rw [List.take_length]

theorem readTurn_blob {k : Nat} (room : 5 ≤ mtu) (fits : mtu ≤ 512)
    (short : value.length < 0xffff) (inside : k ≤ value.length)
    (serves : ServesValue mtu handle value
      (encReadBlobReq handle (UInt16.ofNat k) mtu) answer) :
    ReadTurn mtu handle value (readNext mtu handle
        (.blob (attOpReadResp :: value.take k) (UInt16.ofNat (k + 1))) answer) ∧
      readLeft value (readNext mtu handle
        (.blob (attOpReadResp :: value.take k) (UInt16.ofNat (k + 1))) answer) <
        value.length + 2 - (attOpReadResp :: value.take k).length := by
  have before : (attOpReadResp :: value.take k).length = k + 1 := by
    rw [List.length_cons, List.length_take]
    omega
  rw [before]
  rcases Nat.lt_or_eq_of_le inside with inside | rfl
  · exact readTurn_inside room fits short inside serves
  · rw [readNext_behind room short serves]
    refine ⟨.whole, ?_⟩
    simp only [readLeft]
    omega

/-- A server with the value is read to the end of the value, whatever it does behind it; what goes
over the 512 bytes that the channel reads is lost. -/
theorem gatt_read_whole (room : 5 ≤ mtu) (short : value.length < 0xffff) :
    EndsIn (fun _ request answer _ => ServesValue mtu handle value request answer)
      (readNext mtu handle) (fun _ result => result =
        (0, attOpReadResp :: if mtu ≤ 512 then value else value.take 511))
      () (gattReadChar mtu handle) := by
  by_cases fits : mtu ≤ 512
  · rw [if_pos fits]
    apply EndsIn.of_invariant (fun _ turn => ReadTurn mtu handle value turn)
      (fun _ turn => readLeft value turn)
    · rintro - result (_ | _ | _)
      rfl
    · rintro - request s answer - turn serves
      cases turn with
      | start => exact readTurn_char room fits serves
      | more k inside => exact readTurn_blob room fits short inside serves
    · exact .start
  · rw [if_neg fits]
    refine .ask fun answer _ serves => ?_
    have asked := @encReadReq_read mtu handle room
    have cut : (attOpReadResp :: value.take 511).length < mtu := by
      rw [List.length_cons, List.length_take]
      omega
    have read : (attOpReadResp :: value.take (mtu - 1)).take 512 =
        attOpReadResp :: value.take 511 := by
      rw [List.take_succ_cons, List.take_take, Nat.min_eq_left (by omega)]
    rw [serves.read asked, encReadResp]
    have status := statusOf_response (show attOpReadResp ≠ attOpError by decide)
      (value.take (mtu - 1))
    simp only [readNext, readCharHelper, show opcode2expected attOpReadReq = attOpReadResp from rfl,
      status, read, if_pos (Or.inr cut)]
    exact .done rfl

def serveValue (mtu : Nat) (value request : List UInt8) : List UInt8 :=
  match decReadBlobReq request with
  | some (_, offset) => encReadBlobResp value offset mtu
  | none => encReadResp value mtu

theorem serveValue_serves (mtu : Nat) (handle : UInt16) (value request : List UInt8) :
    ServesValue mtu handle value request (serveValue mtu value request) where
  read := by
    intro asked
    have other : decReadBlobReq request = none := by
      refine if_pos (Or.inr fun blob => ?_)
      rw [decReadReq, decWord_other (by rw [blob]; decide)] at asked
      cases asked
    simp only [serveValue, other]
  blob := by
    intro offset asked _
    simp only [serveValue, asked]
  behind := by
    intro offset asked last
    simp only [serveValue, asked, encReadBlobResp, last, List.drop_length, List.take_nil, true_or]

theorem gatt_read_whole_battery : ∃ fuel t r,
    runDialogue (readNext 23 0x10)
        (fun t request => (serveValue 23 (List.replicate 100 7) request, t)) fuel ()
        (gattReadChar 23 0x10) = some (t, r) ∧
      r = (0, attOpReadResp :: List.replicate 100 7) :=
  (gatt_read_whole (by decide) (by decide)).run fun _ request =>
    serveValue_serves 23 0x10 (List.replicate 100 7) request

end AnkiDrive
