import AnkiDrive.GattRead

/-! `gatt_write_char`: the dialogue that writes a value of any length. The channel lives and there
is memory. -/
namespace AnkiDrive
open CModel

/-- The callback that waits: that of the user, for the answer to a request of some operation, or the
one for prepared writes with `offset` of `struct write_long_data`. -/
inductive WriteCb where
  | user (request : UInt8)
  | prepare (offset : UInt16)

/-- A turn of the dialogue; there is no result when nothing is called any more. -/
abbrev WriteTurn := Turn (List UInt8) WriteCb (Option AttResult)

section Model

variable (buflen : Nat) (handle : UInt16) (value : List UInt8)

def executeWrite (flags : UInt8) : WriteTurn :=
  let pdu := encExecWriteReq flags buflen
  if pdu = [] then .done none else .ask pdu (.user attOpExecWriteReq)

def prepareWrite (offset : UInt16) : WriteTurn :=
  let pdu := returned (encPrepWriteReq handle offset (value.drop offset.toNat) buflen)
  if pdu = [] then .done none else .ask pdu (.prepare offset)

def prepareWriteCb (offset : UInt16) (status : UInt8) (rpdu : List UInt8) : WriteTurn :=
  if status ≠ 0 then .done (some (status, rpdu))
  else
    let offset := offset + UInt16.ofInt (rpdu.length - 5)
    if offset.toNat = value.length then executeWrite buflen attWriteAllPrepWrites
    else prepareWrite buflen handle value offset

def writeNext (s : WriteCb) (answer : List UInt8) : WriteTurn :=
  match s with
  | .user request => .done (some (statusOf (opcode2expected request) answer, answer.take 512))
  | .prepare offset =>
    prepareWriteCb buflen handle value offset
      (statusOf (opcode2expected attOpPrepWriteReq) answer) (answer.take 512)

def gattWriteChar : WriteTurn :=
  if value.length ≤ buflen - 3 then
    let pdu := returned (encWriteReq handle value buflen)
    if pdu = [] then .done none else .ask pdu (.user attOpWriteReq)
  else prepareWrite buflen handle value 0

end Model

/-- The value, and what has been prepared to be written at which offset. -/
structure Stored where
  value : List UInt8
  prepared : List (Nat × List UInt8)

def writeAt (value : List UInt8) (part : Nat × List UInt8) : List UInt8 :=
  value.take part.1 ++ part.2 ++ value.drop (part.1 + part.2.length)

/-- What an execution makes of the value. -/
def Stored.executed (t : Stored) : List UInt8 := t.prepared.foldl writeAt t.value

/-- It may refuse any request. -/
inductive TakesWrites (mtu : Nat) (handle : UInt16) :
    Stored → List UInt8 → List UInt8 → Stored → Prop where
  | refuse {t request answer} (prepared : List (Nat × List UInt8))
      (error : opcodeOf answer = attOpError) (status : statusGiven answer ≠ 0) :
      TakesWrites mtu handle t request answer { t with prepared := prepared }
  | write {t request v} (asked : decWriteReq request = some (handle, v)) :
      TakesWrites mtu handle t request encWriteResp { t with value := writeAt t.value (0, v) }
  | prepare {t request offset v} (asked : decPrepWriteReq request = some (handle, offset, v)) :
      TakesWrites mtu handle t request (encPrepWriteResp handle offset v mtu)
        { t with prepared := t.prepared ++ [(offset.toNat, v)] }
  | execute {t request} (asked : decExecWriteReq request = some attWriteAllPrepWrites) :
      TakesWrites mtu handle t request encExecWriteResp ⟨t.executed, []⟩
  | cancel {t request} (asked : decExecWriteReq request = some attCancelAllPrepWrites) :
      TakesWrites mtu handle t request encExecWriteResp { t with prepared := [] }

theorem writeAt_over {value base : List UInt8} {o m n : Nat} (front : o ≤ m) (behind : m ≤ o + n)
    (inside : o + n ≤ value.length) :
    writeAt (value.take m ++ base.drop m) (o, (value.drop o).take n) =
      value.take (o + n) ++ base.drop (o + n) := by
  have size : (value.take m).length = m := by
    rw [List.length_take]
    omega
  have part : ((value.drop o).take n).length = n := by
    rw [List.length_take, List.length_drop]
    omega
  have before : (value.take m ++ base.drop m).take o = value.take o := by
    rw [List.take_append_of_le_length (by omega), List.take_take, Nat.min_eq_left front]
  have after : (value.take m ++ base.drop m).drop (o + n) = base.drop (o + n) := by
    rw [List.drop_append, size, List.drop_eq_nil_of_le (by omega), List.nil_append, List.drop_drop]
    congr 1
    omega
  simp only [writeAt, part, before, after]
  rw [← List.take_add]

/-- The dialogue with a server that had `t₀`; `o` bytes have been acknowledged, `m` prepared. -/
inductive Writes (mtu : Nat) (handle : UInt16) (value : List UInt8) (t₀ : Stored) :
    Stored → WriteTurn → Prop where
  | single (fits : value.length ≤ mtu - 3) :
      Writes mtu handle value t₀ t₀ (.ask (encWriteReq handle value mtu) (.user attOpWriteReq))
  | prepare {t : Stored} (o m : Nat) (long : mtu - 3 < value.length) (left : o < value.length)
      (front : o ≤ m) (behind : m ≤ o + (mtu - 5)) (inside : m ≤ value.length)
      (kept : t.value = t₀.value)
      (queue : t.executed = value.take m ++ t₀.executed.drop m) :
      Writes mtu handle value t₀ t
        (.ask (encPrepWriteReq handle (UInt16.ofNat o) (value.drop o) mtu)
          (.prepare (UInt16.ofNat o)))
  | execute {t : Stored} (long : mtu - 3 < value.length) (kept : t.value = t₀.value)
      (queue : t.executed = value ++ t₀.executed.drop value.length) :
      Writes mtu handle value t₀ t
        (.ask (encExecWriteReq attWriteAllPrepWrites mtu) (.user attOpExecWriteReq))
  | finished {t : Stored} (status : UInt8) (pdu : List UInt8)
      (wrote : status = 0 → t.value = value ++
        (if value.length ≤ mtu - 3 then t₀.value else t₀.executed).drop value.length)
      (refused : status ≠ 0 → t.value = t₀.value) :
      Writes mtu handle value t₀ t (.done (some (status, pdu)))

/-- The bytes that are still to be acknowledged, and more while the dialogue goes on. -/
def writeLeft (value : List UInt8) : WriteTurn → Nat
  | .ask _ (.user _) => 1
  | .ask _ (.prepare offset) => value.length + 2 - offset.toNat
  | .done _ => 0

section Steps

variable {mtu : Nat} {handle : UInt16} {value request answer : List UInt8} {t₀ t t' : Stored}

theorem takesWrites_cases (takes : TakesWrites mtu handle t request answer t') :
    (opcodeOf answer = attOpError ∧ statusGiven answer ≠ 0 ∧ t'.value = t.value) ∨
    (opcodeOf request = attOpWriteReq ∧ ∃ v, decWriteReq request = some (handle, v) ∧
      answer = encWriteResp ∧ t' = { t with value := writeAt t.value (0, v) }) ∨
    (opcodeOf request = attOpPrepWriteReq ∧ ∃ offset v,
      decPrepWriteReq request = some (handle, offset, v) ∧
      answer = encPrepWriteResp handle offset v mtu ∧
      t' = { t with prepared := t.prepared ++ [(offset.toNat, v)] }) ∨
    (opcodeOf request = attOpExecWriteReq ∧ answer = encExecWriteResp ∧
      (decExecWriteReq request = some attWriteAllPrepWrites ∧ t' = ⟨t.executed, []⟩ ∨
        decExecWriteReq request = some attCancelAllPrepWrites)) := by
  have write : ∀ m, decWriteReq request = some m → opcodeOf request = attOpWriteReq := by
    intro m asked
    by_contra other
    rw [decWriteReq, decValue_other other] at asked
    cases asked
  have prepare : ∀ m, decPrepWriteReq request = some m → opcodeOf request = attOpPrepWriteReq := by
    intro m asked
    by_contra other
    rw [decPrepWriteReq, decPrepWrite_other other] at asked
    cases asked
  have execute : ∀ m, decExecWriteReq request = some m →
      opcodeOf request = attOpExecWriteReq := by
    intro m asked
    by_contra other
    rw [decExecWriteReq, if_pos (Or.inr other)] at asked
    cases asked
  cases takes with
  | refuse prepared error status => exact Or.inl ⟨error, status, rfl⟩
  | write asked => exact Or.inr (Or.inl ⟨write _ asked, _, asked, rfl, rfl⟩)
  | prepare asked => exact Or.inr (Or.inr (Or.inl ⟨prepare _ asked, _, _, asked, rfl, rfl⟩))
  | execute asked =>
    exact Or.inr (Or.inr (Or.inr ⟨execute _ asked, rfl, Or.inl ⟨asked, rfl⟩⟩))
  | cancel asked => exact Or.inr (Or.inr (Or.inr ⟨execute _ asked, rfl, Or.inr asked⟩))

theorem encWriteReq_read (room : 6 ≤ mtu) (fits : value.length ≤ mtu - 3) :
    opcodeOf (encWriteReq handle value mtu) = attOpWriteReq ∧
      decWriteReq (encWriteReq handle value mtu) = some (handle, value) := by
  have bytes : encValue attOpWriteReq handle value mtu ≠ [] := by
    rw [encValue, if_neg (by omega)]
    exact List.cons_ne_nil _ _
  have read := decValue_enc bytes
  rwa [List.take_of_length_le (by omega)] at read

theorem encPrepWriteReq_read (room : 6 ≤ mtu) (offset : UInt16) (v : List UInt8) :
    opcodeOf (encPrepWriteReq handle offset v mtu) = attOpPrepWriteReq ∧
      decPrepWriteReq (encPrepWriteReq handle offset v mtu) =
        some (handle, offset, v.take (mtu - 5)) := by
  refine decPrepWrite_enc ?_
  rw [encPrepWrite, if_neg (by omega)]
  exact List.cons_ne_nil _ _

theorem encExecWriteReq_eq (room : 6 ≤ mtu) :
    encExecWriteReq attWriteAllPrepWrites mtu = [attOpExecWriteReq, attWriteAllPrepWrites] := by
  rw [encExecWriteReq, if_neg (by omega), if_neg (by decide)]

theorem prepareWrite_eq (room : 6 ≤ mtu) (buffer : mtu ≤ 0xffff) (offset : UInt16) :
    prepareWrite mtu handle value offset =
      .ask (encPrepWriteReq handle offset (value.drop offset.toNat) mtu) (.prepare offset) := by
  have short : (encPrepWriteReq handle offset (value.drop offset.toNat) mtu).length ≤ 0xffff :=
    Nat.le_trans (encode_within (.prepWriteReq handle offset (value.drop offset.toNat)) (by omega))
      buffer
  have nonempty : ¬ encPrepWriteReq handle offset (value.drop offset.toNat) mtu = [] := by
    rw [encPrepWriteReq, encPrepWrite, if_neg (by omega)]
    exact List.cons_ne_nil _ _
  simp only [prepareWrite, returned_small short, if_neg nonempty]

theorem writes_refused {s : WriteCb} (error : opcodeOf answer = attOpError)
    (status : statusGiven answer ≠ 0) (kept : t'.value = t₀.value) :
    Writes mtu handle value t₀ t' (writeNext mtu handle value s answer) ∧
      writeLeft value (writeNext mtu handle value s answer) = 0 := by
  have ended : writeNext mtu handle value s answer =
      .done (some (statusGiven answer, answer.take 512)) := by
    cases s with
    | user request => rw [writeNext, statusOf_given _ error]
    | prepare offset =>
      rw [writeNext, statusOf_given _ error]
      exact if_pos status
  rw [ended]
  exact ⟨.finished _ _ (fun zero => absurd zero status) fun _ => kept, rfl⟩

theorem writes_single (room : 6 ≤ mtu) (fits : value.length ≤ mtu - 3)
    (takes : TakesWrites mtu handle t₀ (encWriteReq handle value mtu) answer t') :
    Writes mtu handle value t₀ t' (writeNext mtu handle value (.user attOpWriteReq) answer) ∧
      writeLeft value (writeNext mtu handle value (.user attOpWriteReq) answer) = 0 := by
  obtain ⟨opcode, read⟩ := @encWriteReq_read mtu handle value room fits
  rcases takesWrites_cases takes with ⟨error, status, kept⟩ | ⟨-, v, asked, rfl, rfl⟩ |
    ⟨other, -⟩ | ⟨other, -⟩
  · exact writes_refused error status kept
  · obtain rfl : value = v := by
      rw [read, Option.some.injEq, Prod.mk.injEq] at asked
      exact asked.2
    refine ⟨.finished _ _ (fun _ => ?_) fun status => absurd rfl status, rfl⟩
    simp [writeAt, fits]
  · rw [opcode] at other
    exact absurd other (by decide)
  · rw [opcode] at other
    exact absurd other (by decide)

theorem writes_execute (room : 6 ≤ mtu) (long : mtu - 3 < value.length)
    (kept : t.value = t₀.value) (queue : t.executed = value ++ t₀.executed.drop value.length)
    (takes : TakesWrites mtu handle t (encExecWriteReq attWriteAllPrepWrites mtu) answer t') :
    Writes mtu handle value t₀ t' (writeNext mtu handle value (.user attOpExecWriteReq) answer) ∧
      writeLeft value (writeNext mtu handle value (.user attOpExecWriteReq) answer) = 0 := by
  rw [encExecWriteReq_eq room] at takes
  rcases takesWrites_cases takes with ⟨error, status, same⟩ | ⟨other, -⟩ | ⟨other, -⟩ |
    ⟨-, rfl, ⟨-, rfl⟩ | cancelled⟩
  · exact writes_refused error status (same.trans kept)
  · exact absurd other (by decide)
  · exact absurd other (by decide)
  · refine ⟨.finished _ _ (fun _ => ?_) fun status => absurd rfl status, rfl⟩
    rw [if_neg (by omega)]
    exact queue
  · exact absurd cancelled (by decide)

theorem ofInt_natCast_u16 (n : Nat) : UInt16.ofInt (n : Int) = UInt16.ofNat n := by
  have word : ((n : Int) % 2 ^ 16).toNat = n % 2 ^ 16 := by omega
  rw [UInt16.ofInt, word]
  exact UInt16.ofNat_mod_size

/-- The channel reads 512 bytes of an answer, five of them in front of the part. -/
theorem encPrepWriteResp_acknowledged {part : List UInt8} (room : 6 ≤ mtu)
    (fits : part.length ≤ mtu - 5) (o : Nat) :
    statusOf (opcode2expected attOpPrepWriteReq)
        (encPrepWriteResp handle (UInt16.ofNat o) part mtu) = 0 ∧
      UInt16.ofNat o + UInt16.ofInt
          (((encPrepWriteResp handle (UInt16.ofNat o) part mtu).take 512).length - 5) =
        UInt16.ofNat (o + min 507 part.length) := by
  have bytes : encPrepWriteResp handle (UInt16.ofNat o) part mtu =
      attOpPrepWriteResp :: (le16 handle ++ le16 (UInt16.ofNat o) ++ part) := by
    rw [encPrepWriteResp, encPrepWrite, if_neg (by omega), List.take_of_length_le fits]
  constructor
  · rw [bytes]
    exact statusOf_response (by decide) _
  · have length : ((encPrepWriteResp handle (UInt16.ofNat o) part mtu).take 512).length =
        min 507 part.length + 5 := by
      rw [bytes, List.length_take, List.length_cons, List.length_append, List.length_append]
      simp only [le16_length]
      omega
    have rest : ((min 507 part.length + 5 : Nat) : Int) - 5 = (min 507 part.length : Nat) := by
      omega
    rw [length, rest, ofInt_natCast_u16, UInt16.ofNat_add]

/-- Another part is laid over what the server would make of the value. -/
theorem executed_prepare {o m : Nat} {part : List UInt8}
    (now : part = (value.drop o).take part.length) (front : o ≤ m) (behind : m ≤ o + part.length)
    (inside : o + part.length ≤ value.length)
    (queue : t.executed = value.take m ++ t₀.executed.drop m) :
    ({ t with prepared := t.prepared ++ [(o, part)] } : Stored).executed =
      value.take (o + part.length) ++ t₀.executed.drop (o + part.length) := by
  have written := @writeAt_over value t₀.executed o m part.length front behind inside
  have folded : t.prepared.foldl writeAt t.value = value.take m ++ t₀.executed.drop m := queue
  rw [← now] at written
  simp only [Stored.executed, List.foldl_append, List.foldl_cons, List.foldl_nil]
  rw [folded]
  exact written

/-- The part that was sent has been prepared, and what the channel reads of the answer is
acknowledged. -/
theorem writes_acknowledged {o m : Nat} (room : 6 ≤ mtu) (buffer : mtu ≤ 0xffff)
    (small : value.length < 0x10000)
    (long : mtu - 3 < value.length) (left : o < value.length) (front : o ≤ m)
    (behind : m ≤ o + (mtu - 5)) (inside : m ≤ value.length) (kept : t.value = t₀.value)
    (queue : t.executed = value.take m ++ t₀.executed.drop m) :
    let part := (value.drop o).take (mtu - 5)
    let turn := writeNext mtu handle value (.prepare (UInt16.ofNat o))
      (encPrepWriteResp handle (UInt16.ofNat o) part mtu)
    Writes mtu handle value t₀
        { t with prepared := t.prepared ++ [((UInt16.ofNat o).toNat, part)] } turn ∧
      writeLeft value turn < value.length + 2 - o := by
  intro part turn
  have offset : (UInt16.ofNat o).toNat = o := toNat_ofNat_u16 (by omega)
  obtain ⟨n, size, some_bytes, whole, fits, within⟩ : ∃ n, part.length = n ∧ 0 < n ∧
      (n = mtu - 5 ∨ o + n = value.length) ∧ n ≤ mtu - 5 ∧ o + n ≤ value.length := by
    refine ⟨_, rfl, ?_⟩
    simp only [part, List.length_take, List.length_drop]
    omega
  obtain ⟨status, acknowledged⟩ :=
    @encPrepWriteResp_acknowledged mtu handle part room (by omega) o
  have now : part = (value.drop o).take part.length := by
    rw [List.take_eq_take_iff, List.length_drop]
    omega
  have prepared := executed_prepare now front (by omega) (by omega) queue
  rw [size] at acknowledged prepared
  have reached : (UInt16.ofNat (o + min 507 n)).toNat = o + min 507 n :=
    toNat_ofNat_u16 (by omega)
  have next : turn = if o + min 507 n = value.length then executeWrite mtu attWriteAllPrepWrites
      else prepareWrite mtu handle value (UInt16.ofNat (o + min 507 n)) := by
    simp only [turn, writeNext, prepareWriteCb, status, ne_eq, not_true_eq_false, if_false,
      acknowledged, reached]
  rw [next, offset]
  split
  · rename_i last
    have nonempty : ¬ encExecWriteReq attWriteAllPrepWrites mtu = [] := by
      rw [encExecWriteReq_eq room]
      exact List.cons_ne_nil _ _
    have all : o + n = value.length := by omega
    rw [all, List.take_length] at prepared
    simp only [executeWrite, if_neg nonempty]
    refine ⟨.execute long kept prepared, ?_⟩
    simp only [writeLeft]
    omega
  · rename_i more
    rw [prepareWrite_eq room buffer, reached]
    refine ⟨.prepare (o + min 507 n) (o + n) long (by omega) (by omega) (by omega) within kept
      prepared, ?_⟩
    simp only [writeLeft, reached]
    omega

theorem writes_prepare {o m : Nat} (room : 6 ≤ mtu) (buffer : mtu ≤ 0xffff)
    (small : value.length < 0x10000)
    (long : mtu - 3 < value.length) (left : o < value.length) (front : o ≤ m)
    (behind : m ≤ o + (mtu - 5)) (inside : m ≤ value.length) (kept : t.value = t₀.value)
    (queue : t.executed = value.take m ++ t₀.executed.drop m)
    (takes : TakesWrites mtu handle t
      (encPrepWriteReq handle (UInt16.ofNat o) (value.drop o) mtu) answer t') :
    Writes mtu handle value t₀ t' (writeNext mtu handle value (.prepare (UInt16.ofNat o)) answer) ∧
      writeLeft value (writeNext mtu handle value (.prepare (UInt16.ofNat o)) answer) <
        value.length + 2 - o := by
  obtain ⟨opcode, read⟩ := @encPrepWriteReq_read mtu handle room (UInt16.ofNat o) (value.drop o)
  have offset : (UInt16.ofNat o).toNat = o := toNat_ofNat_u16 (by omega)
  rcases takesWrites_cases takes with ⟨error, status, same⟩ | ⟨other, -⟩ |
    ⟨-, offset', v, asked, rfl, rfl⟩ | ⟨other, -⟩
  · obtain ⟨writes, zero⟩ := @writes_refused mtu handle value answer t₀ t'
      (.prepare (UInt16.ofNat o)) error status (same.trans kept)
    exact ⟨writes, by omega⟩
  · rw [opcode] at other
    exact absurd other (by decide)
  · rw [read, Option.some.injEq, Prod.mk.injEq, Prod.mk.injEq] at asked
    obtain ⟨-, rfl, rfl⟩ := asked
    exact writes_acknowledged room buffer small long left front behind inside kept queue
  · rw [opcode] at other
    exact absurd other (by decide)

end Steps

/-- A value of less than 65536 bytes is written to the server as a whole, or the server refuses it
and keeps its own. What an earlier write left prepared is written before a long value. -/
theorem gatt_write_whole {mtu : Nat} {handle : UInt16} {value : List UInt8} (room : 6 ≤ mtu)
    (buffer : mtu ≤ 0xffff) (small : value.length < 0x10000) (t₀ : Stored) :
    EndsIn (TakesWrites mtu handle) (writeNext mtu handle value)
      (fun t result => ∃ status pdu, result = some (status, pdu) ∧
        (status = 0 → t.value = value ++
          (if value.length ≤ mtu - 3 then t₀.value else t₀.executed).drop value.length) ∧
        (status ≠ 0 → t.value = t₀.value))
      t₀ (gattWriteChar mtu handle value) := by
  apply EndsIn.of_invariant (Writes mtu handle value t₀) (fun _ turn => writeLeft value turn)
  · rintro t result (_ | _ | _ | ⟨status, pdu, wrote, refused⟩)
    exact ⟨status, pdu, rfl, wrote, refused⟩
  · intro t request s answer t' writes takes
    cases writes with
    | single fits =>
      obtain ⟨kept, zero⟩ := writes_single room fits takes
      exact ⟨kept, Nat.lt_of_le_of_lt (Nat.le_of_eq zero) Nat.one_pos⟩
    | prepare o m long left front behind inside kept queue =>
      have offset : (UInt16.ofNat o).toNat = o := toNat_ofNat_u16 (by omega)
      simp only [writeLeft, offset]
      exact writes_prepare room buffer small long left front behind inside kept queue takes
    | execute long kept queue =>
      obtain ⟨kept, zero⟩ := writes_execute room long kept queue takes
      exact ⟨kept, Nat.lt_of_le_of_lt (Nat.le_of_eq zero) Nat.one_pos⟩
  · unfold gattWriteChar
    split
    · rename_i fits
      have short : (encWriteReq handle value mtu).length ≤ 0xffff :=
        Nat.le_trans (encode_within (.writeReq handle value) (by omega)) buffer
      have nonempty : ¬ encWriteReq handle value mtu = [] := by
        rw [encWriteReq, encValue, if_neg (by omega)]
        exact List.cons_ne_nil _ _
      simp only [returned_small short, if_neg nonempty]
      exact .single fits
    · rename_i long
      rw [prepareWrite_eq room buffer, UInt16.toNat_zero, List.drop_zero]
      exact .prepare 0 0 (by omega) (by omega) (Nat.le_refl 0) (by omega) (Nat.zero_le _) rfl
        (by simp)

/-- A server that takes all that it can decode. -/
def serveWrites (mtu : Nat) (handle : UInt16) (t : Stored) (request : List UInt8) :
    List UInt8 × Stored :=
  match decWriteReq request, decPrepWriteReq request, decExecWriteReq request with
  | some (asked, v), none, none =>
    if asked = handle then (encWriteResp, { t with value := writeAt t.value (0, v) })
    else ([attOpError, attOpWriteReq, 0, 0, 0x01], t)
  | none, some (asked, offset, v), none =>
    if asked = handle then (encPrepWriteResp handle offset v mtu,
      { t with prepared := t.prepared ++ [(offset.toNat, v)] })
    else ([attOpError, attOpPrepWriteReq, 0, 0, 0x01], t)
  | none, none, some flags =>
    if flags = attWriteAllPrepWrites then (encExecWriteResp, ⟨t.executed, []⟩)
    else ([attOpError, attOpExecWriteReq, 0, 0, 0x04], t)
  | _, _, _ => ([attOpError, 0, 0, 0, 0x06], t)

theorem refused_status (opcode : UInt8) {status : UInt8} (error : status ≠ 0) :
    statusGiven [attOpError, opcode, 0, 0, status] ≠ 0 := error

theorem serveWrites_takes (mtu : Nat) (handle : UInt16) (t : Stored) (request : List UInt8) :
    TakesWrites mtu handle t request (serveWrites mtu handle t request).1
      (serveWrites mtu handle t request).2 := by
  unfold serveWrites
  split
  · rename_i asked v write _ _
    split
    · rename_i same
      exact .write (same ▸ write)
    · exact .refuse t.prepared rfl (refused_status _ (by decide))
  · rename_i asked offset v _ prepare _
    split
    · rename_i same
      exact .prepare (same ▸ prepare)
    · exact .refuse t.prepared rfl (refused_status _ (by decide))
  · rename_i flags _ _ execute
    split
    · rename_i same
      exact .execute (same ▸ execute)
    · exact .refuse t.prepared rfl (refused_status _ (by decide))
  · exact .refuse t.prepared rfl (refused_status _ (by decide))

theorem gatt_write_whole_lights : ∃ fuel t r,
    runDialogue (writeNext 23 0x12 (List.replicate 50 3)) (serveWrites 23 0x12) fuel
        ⟨List.replicate 60 0, [(55, [1])]⟩ (gattWriteChar 23 0x12 (List.replicate 50 3)) =
        some (t, r) ∧
      ∃ status pdu, r = some (status, pdu) ∧
        (status = 0 → t.value = List.replicate 50 3 ++
          (if (List.replicate 50 (3 : UInt8)).length ≤ 23 - 3 then List.replicate 60 0
            else (⟨List.replicate 60 0, [(55, [1])]⟩ : Stored).executed).drop
              (List.replicate 50 (3 : UInt8)).length) ∧
        (status ≠ 0 → t.value = List.replicate 60 0) :=
  (gatt_write_whole (by decide) (by decide) (by decide) ⟨List.replicate 60 0, [(55, [1])]⟩).run
    (serveWrites_takes 23 0x12)

end AnkiDrive
