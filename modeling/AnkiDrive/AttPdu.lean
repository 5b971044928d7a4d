import AnkiDrive.Att
import AnkiDrive.Responses
import AnkiDrive.VehicleTool
import AnkiDrive.Lib.Codec

/-! `att.c`: the messages of the attribute protocol as bytes. An encoder is given the length of
the buffer and gives the bytes it writes, none when it returns zero; it returns their number as a
`uint16_t`, so what its caller takes of them is `returned`. A decoder is given the bytes that were
received, at most 65535 of them. Pointers are never null. -/
namespace AnkiDrive
open CModel

/-- `bt_uuid_t`; the bytes of a long one in the order in which they are sent. -/
inductive BtUuid where
  | uuid16 (value : UInt16)
  | uuid32 (value : UInt32)
  | uuid128 (value : Vector UInt8 16)
  deriving DecidableEq

structure AttDataList where
  len : Nat
  data : List (List UInt8)
  sized : ∀ d ∈ data, d.length = len
  deriving DecidableEq

def attGetUuid128 (pdu : List UInt8) (i : Nat) : BtUuid :=
  .uuid128 (Vector.ofFn fun k => pdu.getD (i + k) 0)

def encUuidReq (opcode : UInt8) (start «end» : UInt16) (uuid : BtUuid) (len : Nat) : List UInt8 :=
  match uuid with
  | .uuid16 value =>
    if len < 7 then [] else opcode :: (le16 start ++ le16 «end» ++ le16 value)
  | .uuid128 value =>
    if len < 21 then [] else opcode :: (le16 start ++ le16 «end» ++ value.toList)
  | .uuid32 _ => []

def decUuidReq (opcode : UInt8) (pdu : List UInt8) : Option (UInt16 × UInt16 × BtUuid) :=
  if opcodeOf pdu ≠ opcode ∨ pdu.length < 7 then none
  else
    let uuid := if pdu.length = 7 then .uuid16 (attGetU16 pdu 5) else attGetUuid128 pdu 5
    some (attGetU16 pdu 1, attGetU16 pdu 3, uuid)

def encReadByGrpReq := encUuidReq attOpReadByGroupReq
def decReadByGrpReq := decUuidReq attOpReadByGroupReq
def encReadByTypeReq := encUuidReq attOpReadByTypeReq
def decReadByTypeReq := decUuidReq attOpReadByTypeReq

/-- What the caller of an encoder takes. -/
def returned (pdu : List UInt8) : List UInt8 := pdu.take (UInt16.ofNat pdu.length).toNat

theorem returned_small {pdu : List UInt8} (small : pdu.length ≤ 0xffff) : returned pdu = pdu := by
  have size : (UInt16.ofNat pdu.length).toNat = pdu.length :=
    UInt16.toNat_ofNat_of_lt (Nat.lt_of_le_of_lt small (by decide))
  rw [returned, size, List.take_length]

/-- The loop of an encoder over the list; `w` bytes have been written. -/
def putRecords (l len : Nat) : Nat → List (List UInt8) → List UInt8
  | _, [] => []
  | w, d :: data => if w + l ≤ len then d.take l ++ putRecords l len (w + l) data else []

/-- The same loop where `w` is a `uint16_t`. -/
def putGroups (l len : Nat) : UInt16 → List (List UInt8) → List UInt8
  | _, [] => []
  | w, d :: data =>
    if w.toNat + l ≤ len then d.take l ++ putGroups l len (w + UInt16.ofNat l) data else []

/-- A record has at least one byte: the code divides by `l`. -/
def decDataList (opcode : UInt8) (l : Nat) (pdu : List UInt8) : Option AttDataList :=
  if opcodeOf pdu ≠ opcode then none
  else
    some {
      len := l
      data := chunks l ((pdu.length - 2) / l) (pdu.drop 2)
      sized := chunks_sized (by
        rw [List.length_drop]
        exact Nat.div_mul_le_self _ _) }

def encReadByGrpResp (list : AttDataList) (len : Nat) : List UInt8 :=
  if len < list.len + 2 then []
  else attOpReadByGroupResp :: UInt8.ofNat list.len :: putGroups list.len len 2 list.data

def decReadByGrpResp (pdu : List UInt8) : Option AttDataList :=
  decDataList attOpReadByGroupResp (pdu.getD 1 0).toNat pdu

/-- The buffer has room for two bytes. -/
def encReadByTypeResp (list : AttDataList) (len : Nat) : List UInt8 :=
  let l := min (len - 2) list.len
  attOpReadByTypeResp :: UInt8.ofNat l :: putRecords l len 2 list.data

def decReadByTypeResp (pdu : List UInt8) : Option AttDataList :=
  decDataList attOpReadByTypeResp (pdu.getD 1 0).toNat pdu

def encFindInfoReq (start «end» : UInt16) (len : Nat) : List UInt8 :=
  if len < 5 then [] else attOpFindInfoReq :: (le16 start ++ le16 «end»)

def decFindInfoReq (pdu : List UInt8) : Option (UInt16 × UInt16) :=
  if pdu.length < 5 ∨ opcodeOf pdu ≠ attOpFindInfoReq then none
  else some (attGetU16 pdu 1, attGetU16 pdu 3)

def encFindInfoResp (format : UInt8) (list : AttDataList) (len : Nat) : List UInt8 :=
  if len < list.len + 2 then []
  else attOpFindInfoResp :: format :: putRecords list.len len 2 list.data

def findInfoLen (format : UInt8) : Nat :=
  2 + if format = 0x01 then 2 else if format = 0x02 then 16 else 0

def decFindInfoResp (pdu : List UInt8) : Option (UInt8 × AttDataList) :=
  (decDataList attOpFindInfoResp (findInfoLen (pdu.getD 1 0)) pdu).map fun list =>
    (pdu.getD 1 0, list)

def encFindByTypeReq (start «end» : UInt16) (uuid : BtUuid) (value : List UInt8) (len : Nat) :
    List UInt8 :=
  match uuid with
  | .uuid16 type =>
    if len < 7 then []
    else attOpFindByTypeReq :: (le16 start ++ le16 «end» ++ le16 type ++ value.take (len - 7))
  | _ => []

def decFindByTypeReq (pdu : List UInt8) : Option (UInt16 × UInt16 × BtUuid × List UInt8) :=
  if pdu.length < 7 ∨ opcodeOf pdu ≠ attOpFindByTypeReq then none
  else some (attGetU16 pdu 1, attGetU16 pdu 3, .uuid16 (attGetU16 pdu 5), pdu.drop 7)

/-- Writes the ranges at `offset`, which wraps, to a buffer that holds `pdu`. -/
def putRanges (len : Nat) : UInt16 → List UInt8 → List AttRange → List UInt8
  | _, pdu, [] => pdu
  | offset, pdu, range :: ranges =>
    if offset.toNat + 4 ≤ len then
      let words := le16 range.start ++ le16 range.end
      putRanges len (offset + 4)
        (pdu.take offset.toNat ++ words ++ pdu.drop (offset.toNat + 4)) ranges
    else pdu

def encFindByTypeResp (ranges : List AttRange) (len : Nat) : List UInt8 :=
  if len < 5 then [] else putRanges len 1 [attOpFindByTypeResp] ranges

def getRanges : List UInt8 → List AttRange
  | a :: b :: c :: d :: rest => ⟨word16 a b, word16 c d⟩ :: getRanges rest
  | _ => []

/-- The empty list is `NULL`. -/
def decFindByTypeResp (pdu : List UInt8) : List AttRange :=
  if pdu.length < 5 ∨ opcodeOf pdu ≠ attOpFindByTypeResp then [] else getRanges (pdu.drop 1)

/-- What fits of a value goes behind the handle. -/
def encValue (opcode : UInt8) (handle : UInt16) (value : List UInt8) (len : Nat) : List UInt8 :=
  if len < 3 then [] else opcode :: (le16 handle ++ value.take (len - 3))

def decValue (opcode : UInt8) (pdu : List UInt8) : Option (UInt16 × List UInt8) :=
  if pdu.length < 3 ∨ opcodeOf pdu ≠ opcode then none else some (attGetU16 pdu 1, pdu.drop 3)

def encWriteCmd := encValue attOpWriteCmd
def decWriteCmd := decValue attOpWriteCmd
def encWriteReq := encValue attOpWriteReq
def decWriteReq := decValue attOpWriteReq

/-- A value that does not fit is not sent. -/
def encWhole (opcode : UInt8) (handle : UInt16) (value : List UInt8) (len : Nat) : List UInt8 :=
  if len < value.length + 3 then [] else opcode :: (le16 handle ++ value)

def encNotification := encWhole attOpHandleNotify
def encIndication := encWhole attOpHandleInd

/-- `vlen` bytes at most are copied. Their number is returned, so an empty value looks like a
message that is not taken. -/
def decIndication (pdu : List UInt8) (vlen : Nat) : Option (UInt16 × List UInt8) :=
  if opcodeOf pdu ≠ attOpHandleInd ∨ pdu.length < 3 then none
  else
    let value := (pdu.drop 3).take vlen
    if value = [] then none else some (attGetU16 pdu 1, value)

/-- A message without parameters, in a buffer with room for it. -/
def decBare (opcode : UInt8) (pdu : List UInt8) : Option Unit :=
  if pdu = [] ∨ opcodeOf pdu ≠ opcode then none else some ()

def encWriteResp : List UInt8 := [attOpWriteResp]
def decWriteResp := decBare attOpWriteResp
def encExecWriteResp : List UInt8 := [attOpExecWriteResp]
def decExecWriteResp := decBare attOpExecWriteResp
def encConfirmation (len : Nat) : List UInt8 := if len < 1 then [] else [attOpHandleCnf]

def encWord (opcode : UInt8) (word : UInt16) (len : Nat) : List UInt8 :=
  if len < 3 then [] else opcode :: le16 word

def decWord (opcode : UInt8) (pdu : List UInt8) : Option UInt16 :=
  if pdu.length < 3 ∨ opcodeOf pdu ≠ opcode then none else some (attGetU16 pdu 1)

def encReadReq := encWord attOpReadReq
def decReadReq := decWord attOpReadReq
def encMtuReq := encWord attOpMtuReq
def decMtuReq := decWord attOpMtuReq
def encMtuResp := encWord attOpMtuResp
def decMtuResp := decWord attOpMtuResp

def encReadBlobReq (handle offset : UInt16) (len : Nat) : List UInt8 :=
  if len < 5 then [] else attOpReadBlobReq :: (le16 handle ++ le16 offset)

def decReadBlobReq (pdu : List UInt8) : Option (UInt16 × UInt16) :=
  if pdu.length < 5 ∨ opcodeOf pdu ≠ attOpReadBlobReq then none
  else some (attGetU16 pdu 1, attGetU16 pdu 3)

/-- The buffer has room for one byte. -/
def encReadResp (value : List UInt8) (len : Nat) : List UInt8 :=
  attOpReadResp :: value.take (len - 1)

/-- What is received is copied to a value with room for it. -/
def decReadResponse (pdu : List UInt8) : Option (List UInt8) :=
  let len := UInt64.ofNat pdu.length
  ((decReadResp len len).run (ofBytes pdu)).toOption

/-- The value is at `value`. An offset behind its end wraps the length. -/
def encReadBlobRespAt (value : Memory) (vlen : UInt64) (offset : UInt16) (len : UInt64) :
    List UInt8 :=
  let vlen := vlen - offset.toUInt64
  let vlen := if len - 1 < vlen then len - 1 else vlen
  attOpReadBlobResp :: slice value offset.toNat vlen.toNat

/-- The same for an offset in the value. -/
def encReadBlobResp (value : List UInt8) (offset : UInt16) (len : Nat) : List UInt8 :=
  attOpReadBlobResp :: (value.drop offset.toNat).take (len - 1)

def encErrorResp (opcode : UInt8) (handle : UInt16) (status : UInt8) (len : Nat) : List UInt8 :=
  if len < 5 then [] else attOpError :: opcode :: (le16 handle ++ [status])

def encPrepWrite (opcode : UInt8) (handle offset : UInt16) (value : List UInt8) (len : Nat) :
    List UInt8 :=
  if len < 5 then [] else opcode :: (le16 handle ++ le16 offset ++ value.take (len - 5))

def decPrepWrite (opcode : UInt8) (pdu : List UInt8) : Option (UInt16 × UInt16 × List UInt8) :=
  if pdu.length < 5 ∨ opcodeOf pdu ≠ opcode then none
  else some (attGetU16 pdu 1, attGetU16 pdu 3, pdu.drop 5)

def encPrepWriteReq := encPrepWrite attOpPrepWriteReq
def decPrepWriteReq := decPrepWrite attOpPrepWriteReq
def encPrepWriteResp := encPrepWrite attOpPrepWriteResp

/-- The code tests for the request. -/
def decPrepWriteResp := decPrepWrite attOpPrepWriteReq

def encExecWriteReq (flags : UInt8) (len : Nat) : List UInt8 :=
  if len < 2 then [] else if 1 < flags then [] else [attOpExecWriteReq, flags]

def decExecWriteReq (pdu : List UInt8) : Option UInt8 :=
  if pdu.length < 2 ∨ opcodeOf pdu ≠ attOpExecWriteReq then none else some (pdu.getD 1 0)

@[simp] theorem le16_length (word : UInt16) : (le16 word).length = 2 := rfl

@[simp] theorem attGetU16_one (op : UInt8) (word : UInt16) (rest : List UInt8) :
    attGetU16 (op :: (le16 word ++ rest)) 1 = word := word16_le16 word

@[simp] theorem attGetU16_three (op : UInt8) (first word : UInt16) (rest : List UInt8) :
    attGetU16 (op :: (le16 first ++ (le16 word ++ rest))) 3 = word := word16_le16 word

@[simp] theorem attGetU16_five (op : UInt8) (first second word : UInt16) (rest : List UInt8) :
    attGetU16 (op :: (le16 first ++ (le16 second ++ (le16 word ++ rest)))) 5 = word :=
  word16_le16 word

@[simp] theorem attGetUuid128_five (op : UInt8) (first second : UInt16) (value : Vector UInt8 16) :
    attGetUuid128 (op :: (le16 first ++ (le16 second ++ value.toList))) 5 = .uuid128 value := by
  simp only [attGetUuid128, BtUuid.uuid128.injEq]
  ext k inside
  have skip : 5 + k = k + 4 + 1 := by omega
  simp [le16, skip, inside]

/-- The messages that have a decoder. -/
inductive AttMsg where
  | readByGrpReq (start «end» : UInt16) (uuid : BtUuid)
  | readByTypeReq (start «end» : UInt16) (uuid : BtUuid)
  | findByTypeReq (start «end» : UInt16) (uuid : BtUuid) (value : List UInt8)
  | findInfoReq (start «end» : UInt16)
  | writeCmd (handle : UInt16) (value : List UInt8)
  | writeReq (handle : UInt16) (value : List UInt8)
  | writeResp
  | readReq (handle : UInt16)
  | readBlobReq (handle offset : UInt16)
  | readResp (value : List UInt8)
  | indication (handle : UInt16) (value : List UInt8)
  | mtuReq (mtu : UInt16)
  | mtuResp (mtu : UInt16)
  | prepWriteReq (handle offset : UInt16) (value : List UInt8)
  | prepWriteResp (handle offset : UInt16) (value : List UInt8)
  | execWriteReq (flags : UInt8)
  | execWriteResp
  deriving DecidableEq

namespace AttMsg

def encode (len : Nat) : AttMsg → List UInt8
  | readByGrpReq start «end» uuid => encReadByGrpReq start «end» uuid len
  | readByTypeReq start «end» uuid => encReadByTypeReq start «end» uuid len
  | findByTypeReq start «end» uuid value => encFindByTypeReq start «end» uuid value len
  | findInfoReq start «end» => encFindInfoReq start «end» len
  | writeCmd handle value => encWriteCmd handle value len
  | writeReq handle value => encWriteReq handle value len
  | writeResp => encWriteResp
  | readReq handle => encReadReq handle len
  | readBlobReq handle offset => encReadBlobReq handle offset len
  | readResp value => encReadResp value len
  | indication handle value => encIndication handle value len
  | mtuReq mtu => encMtuReq mtu len
  | mtuResp mtu => encMtuResp mtu len
  | prepWriteReq handle offset value => encPrepWriteReq handle offset value len
  | prepWriteResp handle offset value => encPrepWriteResp handle offset value len
  | execWriteReq flags => encExecWriteReq flags len
  | execWriteResp => encExecWriteResp

def opcode : AttMsg → UInt8
  | readByGrpReq _ _ _ => attOpReadByGroupReq
  | readByTypeReq _ _ _ => attOpReadByTypeReq
  | findByTypeReq _ _ _ _ => attOpFindByTypeReq
  | findInfoReq _ _ => attOpFindInfoReq
  | writeCmd _ _ => attOpWriteCmd
  | writeReq _ _ => attOpWriteReq
  | writeResp => attOpWriteResp
  | readReq _ => attOpReadReq
  | readBlobReq _ _ => attOpReadBlobReq
  | readResp _ => attOpReadResp
  | indication _ _ => attOpHandleInd
  | mtuReq _ => attOpMtuReq
  | mtuResp _ => attOpMtuResp
  | prepWriteReq _ _ _ => attOpPrepWriteReq
  | prepWriteResp _ _ _ => attOpPrepWriteResp
  | execWriteReq _ => attOpExecWriteReq
  | execWriteResp => attOpExecWriteResp

/-- What a buffer of `len` bytes holds of a message. -/
def cut (len : Nat) : AttMsg → AttMsg
  | findByTypeReq start «end» uuid value => findByTypeReq start «end» uuid (value.take (len - 7))
  | writeCmd handle value => writeCmd handle (value.take (len - 3))
  | writeReq handle value => writeReq handle (value.take (len - 3))
  | readResp value => readResp (value.take (len - 1))
  | prepWriteReq handle offset value => prepWriteReq handle offset (value.take (len - 5))
  | prepWriteResp handle offset value => prepWriteResp handle offset (value.take (len - 5))
  | m => m

/-- The messages that no decoder takes. -/
def untaken : AttMsg → Bool
  | prepWriteResp _ _ _ => true
  | indication _ value => value.isEmpty
  | _ => false

/-- The decoders by the operation that each tests for, with all the room they need. -/
def decoders : List (UInt8 × (List UInt8 → Option AttMsg)) := [
  (attOpReadByGroupReq, fun pdu =>
    (decReadByGrpReq pdu).map fun m => readByGrpReq m.1 m.2.1 m.2.2),
  (attOpReadByTypeReq, fun pdu =>
    (decReadByTypeReq pdu).map fun m => readByTypeReq m.1 m.2.1 m.2.2),
  (attOpFindByTypeReq, fun pdu =>
    (decFindByTypeReq pdu).map fun m => findByTypeReq m.1 m.2.1 m.2.2.1 m.2.2.2),
  (attOpFindInfoReq, fun pdu => (decFindInfoReq pdu).map fun m => findInfoReq m.1 m.2),
  (attOpWriteCmd, fun pdu => (decWriteCmd pdu).map fun m => writeCmd m.1 m.2),
  (attOpWriteReq, fun pdu => (decWriteReq pdu).map fun m => writeReq m.1 m.2),
  (attOpWriteResp, fun pdu => (decWriteResp pdu).map fun _ => writeResp),
  (attOpReadReq, fun pdu => (decReadReq pdu).map readReq),
  (attOpReadBlobReq, fun pdu => (decReadBlobReq pdu).map fun m => readBlobReq m.1 m.2),
  (attOpReadResp, fun pdu => (decReadResponse pdu).map readResp),
  (attOpHandleInd, fun pdu =>
    (decIndication pdu pdu.length).map fun m => indication m.1 m.2),
  (attOpMtuReq, fun pdu => (decMtuReq pdu).map mtuReq),
  (attOpMtuResp, fun pdu => (decMtuResp pdu).map mtuResp),
  (attOpPrepWriteReq, fun pdu =>
    (decPrepWriteReq pdu).map fun m => prepWriteReq m.1 m.2.1 m.2.2),
  (attOpExecWriteReq, fun pdu => (decExecWriteReq pdu).map execWriteReq),
  (attOpExecWriteResp, fun pdu => (decExecWriteResp pdu).map fun _ => execWriteResp)]

/-- The decoders of the answers with a list, by the operation that each tests for. -/
def listDecoders : List (UInt8 × (List UInt8 → Bool)) := [
  (attOpReadByGroupResp, fun pdu => (decReadByGrpResp pdu).isSome),
  (attOpReadByTypeResp, fun pdu => (decReadByTypeResp pdu).isSome),
  (attOpFindInfoResp, fun pdu => (decFindInfoResp pdu).isSome),
  (attOpFindByTypeResp, fun pdu => decFindByTypeResp pdu ≠ [])]

/-- What the decoders make of some bytes. -/
def decode (pdu : List UInt8) : List AttMsg := decoders.filterMap fun d => d.2 pdu

end AttMsg

section Decoders

variable {opcode : UInt8} {pdu : List UInt8}

theorem decUuidReq_other (other : opcodeOf pdu ≠ opcode) : decUuidReq opcode pdu = none :=
  if_pos (Or.inl other)

theorem decValue_other (other : opcodeOf pdu ≠ opcode) : decValue opcode pdu = none :=
  if_pos (Or.inr other)

theorem decBare_other (other : opcodeOf pdu ≠ opcode) : decBare opcode pdu = none :=
  if_pos (Or.inr other)

theorem decWord_other (other : opcodeOf pdu ≠ opcode) : decWord opcode pdu = none :=
  if_pos (Or.inr other)

theorem decPrepWrite_other (other : opcodeOf pdu ≠ opcode) : decPrepWrite opcode pdu = none :=
  if_pos (Or.inr other)

theorem decReadResponse_other (other : opcodeOf pdu ≠ attOpReadResp) :
    decReadResponse pdu = none := by
  have first : ofBytes pdu 0 = opcodeOf pdu := by cases pdu <;> rfl
  rw [decReadResponse, decReadResp_run, first, if_neg other]
  rfl

theorem decDataList_other (other : opcodeOf pdu ≠ opcode) (l : Nat) :
    decDataList opcode l pdu = none :=
  dif_pos other

end Decoders

theorem decoders_other {pdu : List UInt8} :
    ∀ d ∈ AttMsg.decoders, opcodeOf pdu ≠ d.1 → d.2 pdu = none := by
  simp only [AttMsg.decoders, List.forall_mem_cons]
  refine ⟨?_, ?_, ?_, ?_, ?_, ?_, ?_, ?_, ?_, ?_, ?_, ?_, ?_, ?_, ?_, ?_,
    fun _ inside => absurd inside List.not_mem_nil⟩
  all_goals intro other
  · simp only [decReadByGrpReq, decUuidReq_other other, Option.map_none]
  · simp only [decReadByTypeReq, decUuidReq_other other, Option.map_none]
  · simp only [decFindByTypeReq, if_pos (Or.inr other), Option.map_none]
  · simp only [decFindInfoReq, if_pos (Or.inr other), Option.map_none]
  · simp only [decWriteCmd, decValue_other other, Option.map_none]
  · simp only [decWriteReq, decValue_other other, Option.map_none]
  · simp only [decWriteResp, decBare_other other, Option.map_none]
  · simp only [decReadReq, decWord_other other, Option.map_none]
  · simp only [decReadBlobReq, if_pos (Or.inr other), Option.map_none]
  · simp only [decReadResponse_other other, Option.map_none]
  · simp only [decIndication, if_pos (Or.inl other), Option.map_none]
  · simp only [decMtuReq, decWord_other other, Option.map_none]
  · simp only [decMtuResp, decWord_other other, Option.map_none]
  · simp only [decPrepWriteReq, decPrepWrite_other other, Option.map_none]
  · simp only [decExecWriteReq, if_pos (Or.inr other), Option.map_none]
  · simp only [decExecWriteResp, decBare_other other, Option.map_none]

theorem listDecoders_other {pdu : List UInt8} :
    ∀ d ∈ AttMsg.listDecoders, opcodeOf pdu ≠ d.1 → d.2 pdu = false := by
  simp only [AttMsg.listDecoders, List.forall_mem_cons]
  refine ⟨?_, ?_, ?_, ?_, fun _ inside => absurd inside List.not_mem_nil⟩
  all_goals intro other
  · simp only [decReadByGrpResp, decDataList_other other, Option.isSome_none]
  · simp only [decReadByTypeResp, decDataList_other other, Option.isSome_none]
  · simp only [decFindInfoResp, decDataList_other other, Option.map_none, Option.isSome_none]
  · simp [decFindByTypeResp, if_pos (Or.inr other)]

theorem decode_of_mem {pdu : List UInt8} {f : List UInt8 → Option AttMsg}
    (inside : (opcodeOf pdu, f) ∈ AttMsg.decoders) : AttMsg.decode pdu = (f pdu).toList :=
  filterMap_keyed (by decide) decoders_other inside

theorem decodes {opcode : UInt8} {pdu : List UInt8} {m : AttMsg} {f : List UInt8 → Option AttMsg}
    (n : Nat) (place : AttMsg.decoders[n]? = some (opcode, f)) (own : opcodeOf pdu = opcode)
    (taken : f pdu = some m) : AttMsg.decode pdu = [m] := by
  subst own
  rw [decode_of_mem (List.mem_of_getElem? place), taken, Option.toList_some]

theorem long_of_fits {short : Prop} [Decidable short] {pdu : List UInt8}
    (fits : (if short then [] else pdu) ≠ []) : ¬ short :=
  fun isShort => fits (if_pos isShort)

section Shapes

variable {opcode : UInt8} {handle offset start stop word : UInt16} {uuid : BtUuid}
  {value : List UInt8} {len : Nat}

theorem decUuidReq_enc (fits : encUuidReq opcode start stop uuid len ≠ []) :
    opcodeOf (encUuidReq opcode start stop uuid len) = opcode ∧
      decUuidReq opcode (encUuidReq opcode start stop uuid len) = some (start, stop, uuid) := by
  cases uuid with
  | uuid16 value =>
    simp only [encUuidReq] at fits ⊢
    rw [if_neg (long_of_fits fits)]
    refine ⟨rfl, ?_⟩
    simp [decUuidReq]
    exact word16_le16 value
  | uuid32 value => exact absurd rfl fits
  | uuid128 value =>
    simp only [encUuidReq] at fits ⊢
    rw [if_neg (long_of_fits fits)]
    exact ⟨rfl, by simp [decUuidReq]⟩

theorem decValue_enc (fits : encValue opcode handle value len ≠ []) :
    opcodeOf (encValue opcode handle value len) = opcode ∧
      decValue opcode (encValue opcode handle value len) =
        some (handle, value.take (len - 3)) := by
  unfold encValue at fits ⊢
  rw [if_neg (long_of_fits fits)]
  refine ⟨rfl, ?_⟩
  simp [decValue]
  rfl

theorem decWord_enc (fits : encWord opcode word len ≠ []) :
    opcodeOf (encWord opcode word len) = opcode ∧
      decWord opcode (encWord opcode word len) = some word := by
  unfold encWord at fits ⊢
  rw [if_neg (long_of_fits fits)]
  refine ⟨rfl, ?_⟩
  simp [decWord]
  exact word16_le16 word

theorem decPrepWrite_enc (fits : encPrepWrite opcode handle offset value len ≠ []) :
    opcodeOf (encPrepWrite opcode handle offset value len) = opcode ∧
      decPrepWrite opcode (encPrepWrite opcode handle offset value len) =
        some (handle, offset, value.take (len - 5)) := by
  unfold encPrepWrite at fits ⊢
  rw [if_neg (long_of_fits fits)]
  refine ⟨rfl, ?_⟩
  simp [decPrepWrite]
  exact ⟨by omega, rfl⟩

theorem decReadBlobReq_enc (fits : encReadBlobReq handle offset len ≠ []) :
    opcodeOf (encReadBlobReq handle offset len) = attOpReadBlobReq ∧
      decReadBlobReq (encReadBlobReq handle offset len) = some (handle, offset) := by
  unfold encReadBlobReq at fits ⊢
  rw [if_neg (long_of_fits fits)]
  refine ⟨rfl, ?_⟩
  simp [decReadBlobReq]
  exact word16_le16 offset

theorem decFindInfoReq_enc (fits : encFindInfoReq start stop len ≠ []) :
    opcodeOf (encFindInfoReq start stop len) = attOpFindInfoReq ∧
      decFindInfoReq (encFindInfoReq start stop len) = some (start, stop) := by
  unfold encFindInfoReq at fits ⊢
  rw [if_neg (long_of_fits fits)]
  refine ⟨rfl, ?_⟩
  simp [decFindInfoReq]
  exact word16_le16 stop

theorem decFindByTypeReq_enc (fits : encFindByTypeReq start stop uuid value len ≠ []) :
    opcodeOf (encFindByTypeReq start stop uuid value len) = attOpFindByTypeReq ∧
      decFindByTypeReq (encFindByTypeReq start stop uuid value len) =
        some (start, stop, uuid, value.take (len - 7)) := by
  cases uuid with
  | uuid16 type =>
    simp only [encFindByTypeReq] at fits ⊢
    rw [if_neg (long_of_fits fits)]
    refine ⟨rfl, ?_⟩
    simp [decFindByTypeReq]
    exact ⟨by omega, rfl⟩
  | uuid32 _ => exact absurd rfl fits
  | uuid128 _ => exact absurd rfl fits

theorem decIndication_enc (fits : encIndication handle value len ≠ []) :
    opcodeOf (encIndication handle value len) = attOpHandleInd ∧
      decIndication (encIndication handle value len) (encIndication handle value len).length =
        if value = [] then none else some (handle, value) := by
  unfold encIndication encWhole at fits ⊢
  rw [if_neg (long_of_fits fits)]
  refine ⟨rfl, ?_⟩
  have rest : (le16 handle ++ value).drop 2 = value := rfl
  have size : (attOpHandleInd :: (le16 handle ++ value)).length = value.length + 3 := by
    rw [List.length_cons, List.length_append, le16_length, Nat.add_comm 2]
  have long : ¬ (attOpHandleInd :: (le16 handle ++ value)).length < 3 := by omega
  have whole : value.take (attOpHandleInd :: (le16 handle ++ value)).length = value :=
    List.take_of_length_le (by omega)
  simp only [decIndication, opcodeOf_cons, ne_eq, not_true_eq_false, long, or_self, if_false,
    attGetU16_one, List.drop_succ_cons, rest, whole]

theorem decReadResponse_enc (small : (encReadResp value len).length ≤ 0xffff) :
    decReadResponse (encReadResp value len) = some (value.take (len - 1)) := by
  obtain ⟨taken, named⟩ : ∃ taken, taken = value.take (len - 1) := ⟨_, rfl⟩
  rw [encReadResp, ← named, List.length_cons] at small
  rw [encReadResp, ← named]
  have size : (UInt64.ofNat (taken.length + 1)).toNat = taken.length + 1 :=
    UInt64.toNat_ofNat_of_lt (Nat.lt_of_le_of_lt small (by decide))
  have behind : (UInt64.ofNat (taken.length + 1) - 1).toNat = taken.length := by
    refine (UInt64.toNat_sub_of_le _ _ ?_).trans ?_
    · rw [UInt64.le_iff_toNat_le, size, UInt64.toNat_one]
      omega
    · rw [size, UInt64.toNat_one, Nat.add_sub_cancel]
  have holds : ¬ UInt64.ofNat (taken.length + 1) < UInt64.ofNat (taken.length + 1) - 1 := by
    rw [UInt64.lt_iff_toNat_lt, size, behind]
    omega
  have front : slice (ofBytes (attOpReadResp :: taken)) 1 taken.length = taken := by
    have whole := congrArg (List.drop 1) (slice_ofBytes (attOpReadResp :: taken))
    rwa [slice_drop, List.length_cons, Nat.add_sub_cancel] at whole
  have opcode : ofBytes (attOpReadResp :: taken) 0 = attOpReadResp := rfl
  simp only [decReadResponse, List.length_cons, decReadResp_run, opcode, if_true, if_neg holds,
    behind, front, Except.toOption]

theorem decExecWriteReq_enc {flags : UInt8} (fits : encExecWriteReq flags len ≠ []) :
    opcodeOf (encExecWriteReq flags len) = attOpExecWriteReq ∧
      decExecWriteReq (encExecWriteReq flags len) = some flags := by
  unfold encExecWriteReq at fits ⊢
  have long := long_of_fits fits
  rw [if_neg long] at fits ⊢
  rw [if_neg (long_of_fits fits)]
  exact ⟨rfl, rfl⟩

end Shapes

theorem within_ite {short : Prop} [Decidable short] {pdu : List UInt8} {len : Nat}
    (fits : ¬ short → pdu.length ≤ len) : (if short then [] else pdu).length ≤ len := by
  split
  · exact Nat.zero_le len
  · exact fits ‹_›

theorem encUuidReq_within (opcode : UInt8) (start stop : UInt16) (uuid : BtUuid) (len : Nat) :
    (encUuidReq opcode start stop uuid len).length ≤ len := by
  cases uuid with
  | uuid16 value =>
    refine within_ite fun fits => ?_
    simp
    omega
  | uuid32 value => exact Nat.zero_le len
  | uuid128 value =>
    refine within_ite fun fits => ?_
    simp
    omega

theorem encode_within (m : AttMsg) {len : Nat} (room : 0 < len) : (m.encode len).length ≤ len := by
  cases m with
  | readByGrpReq start stop uuid => exact encUuidReq_within _ start stop uuid len
  | readByTypeReq start stop uuid => exact encUuidReq_within _ start stop uuid len
  | writeResp => exact room
  | execWriteResp => exact room
  | readResp value =>
    simp only [AttMsg.encode, encReadResp, List.length_cons, List.length_take]
    omega
  | findByTypeReq start stop uuid value =>
    cases uuid with
    | uuid16 type =>
      refine within_ite fun fits => ?_
      simp
      omega
    | uuid32 value => exact Nat.zero_le len
    | uuid128 value => exact Nat.zero_le len
  | execWriteReq flags =>
    refine within_ite fun fits => within_ite fun _ => ?_
    simp
    omega
  | _ =>
    refine within_ite fun fits => ?_
    simp
    omega

theorem encode_opcode {m : AttMsg} {len : Nat} (fits : m.encode len ≠ []) :
    opcodeOf (m.encode len) = m.opcode := by
  cases m with
  | readByGrpReq start stop uuid => exact (decUuidReq_enc fits).1
  | readByTypeReq start stop uuid => exact (decUuidReq_enc fits).1
  | findByTypeReq start stop uuid value => exact (decFindByTypeReq_enc fits).1
  | findInfoReq start stop => exact (decFindInfoReq_enc fits).1
  | writeCmd handle value => exact (decValue_enc fits).1
  | writeReq handle value => exact (decValue_enc fits).1
  | writeResp => rfl
  | readReq handle => exact (decWord_enc fits).1
  | readBlobReq handle offset => exact (decReadBlobReq_enc fits).1
  | readResp value => rfl
  | indication handle value => exact (decIndication_enc fits).1
  | mtuReq mtu => exact (decWord_enc fits).1
  | mtuResp mtu => exact (decWord_enc fits).1
  | prepWriteReq handle offset value => exact (decPrepWrite_enc fits).1
  | prepWriteResp handle offset value => exact (decPrepWrite_enc fits).1
  | execWriteReq flags => exact (decExecWriteReq_enc fits).1
  | execWriteResp => rfl

/-- A message that fits is taken by the decoder for its operation, and by no other one of them. -/
theorem decode_message {m : AttMsg} {len : Nat} (small : (m.encode len).length ≤ 0xffff)
    (fits : m.encode len ≠ []) :
    AttMsg.decode (m.encode len) = if m.untaken then [] else [m.cut len] := by
  have own := encode_opcode fits
  cases m with
  | readByGrpReq start stop uuid =>
    exact decodes 0 rfl own (congrArg (Option.map _) (decUuidReq_enc fits).2)
  | readByTypeReq start stop uuid =>
    exact decodes 1 rfl own (congrArg (Option.map _) (decUuidReq_enc fits).2)
  | findByTypeReq start stop uuid value =>
    exact decodes 2 rfl own (congrArg (Option.map _) (decFindByTypeReq_enc fits).2)
  | findInfoReq start stop =>
    exact decodes 3 rfl own (congrArg (Option.map _) (decFindInfoReq_enc fits).2)
  | writeCmd handle value =>
    exact decodes 4 rfl own (congrArg (Option.map _) (decValue_enc fits).2)
  | writeReq handle value =>
    exact decodes 5 rfl own (congrArg (Option.map _) (decValue_enc fits).2)
  | writeResp => exact decodes 6 rfl own rfl
  | readReq handle => exact decodes 7 rfl own (congrArg (Option.map _) (decWord_enc fits).2)
  | readBlobReq handle offset =>
    exact decodes 8 rfl own (congrArg (Option.map _) (decReadBlobReq_enc fits).2)
  | readResp value =>
    exact decodes 9 rfl own (congrArg (Option.map _) (decReadResponse_enc small))
  | indication handle value =>
    obtain ⟨-, taken⟩ := decIndication_enc fits
    cases value with
    | nil =>
      have place : AttMsg.decoders[10]? = some (attOpHandleInd, fun pdu =>
        (decIndication pdu pdu.length).map fun m => .indication m.1 m.2) := rfl
      have inside := List.mem_of_getElem? place
      rw [← show _ = attOpHandleInd from own] at inside
      rw [decode_of_mem inside]
      exact congrArg (fun read => (Option.map _ read).toList) taken
    | cons b rest => exact decodes 10 rfl own (congrArg (Option.map _) taken)
  | mtuReq mtu => exact decodes 11 rfl own (congrArg (Option.map _) (decWord_enc fits).2)
  | mtuResp mtu => exact decodes 12 rfl own (congrArg (Option.map _) (decWord_enc fits).2)
  | prepWriteReq handle offset value =>
    exact decodes 13 rfl own (congrArg (Option.map _) (decPrepWrite_enc fits).2)
  | prepWriteResp handle offset value =>
    have none_of : ∀ d ∈ AttMsg.decoders, attOpPrepWriteResp ≠ d.1 := by decide
    refine List.filterMap_eq_nil_iff.mpr fun d inside => decoders_other d inside ?_
    exact fun same => none_of d inside (own.symm.trans same)
  | execWriteReq flags =>
    exact decodes 14 rfl own (congrArg (Option.map _) (decExecWriteReq_enc fits).2)
  | execWriteResp => exact decodes 15 rfl own rfl

theorem opcode_no_list (m : AttMsg) : ∀ d ∈ AttMsg.listDecoders, m.opcode ≠ d.1 := by
  cases m <;> simp only [AttMsg.opcode] <;> decide

theorem decPrepWriteResp_iff {m : AttMsg} {len : Nat} (small : (m.encode len).length ≤ 0xffff)
    (fits : m.encode len ≠ []) (handle offset : UInt16) (value : List UInt8) :
    decPrepWriteResp (m.encode len) = some (handle, offset, value) ↔
      m.cut len = .prepWriteReq handle offset value := by
  constructor
  · intro taken
    have request : AttMsg.prepWriteReq handle offset value ∈ AttMsg.decode (m.encode len) := by
      refine List.mem_filterMap.mpr ⟨(attOpPrepWriteReq, fun pdu =>
        (decPrepWriteReq pdu).map fun m => .prepWriteReq m.1 m.2.1 m.2.2), ?_, ?_⟩
      · exact List.mem_of_getElem? (show AttMsg.decoders[13]? = some _ from rfl)
      · exact congrArg (Option.map _) taken
    rw [decode_message small fits] at request
    split at request
    · cases request
    · exact (List.mem_singleton.mp request).symm
  · intro cut
    cases m with
    | prepWriteReq handle' offset' value' =>
      obtain ⟨rfl, rfl, rfl⟩ := AttMsg.prepWriteReq.inj cut
      exact (decPrepWrite_enc fits).2
    | _ => cases cut

/-- Every message that fits the buffer is taken by the decoder for its operation, which finds what
the buffer held of it, and by no other one. Two are taken by none: an indication of an empty value,
and the response to a prepared write, whose decoder takes the requests. -/
theorem att_round_trip {m : AttMsg} {len : Nat} (room : 0 < len) (small : len ≤ 0xffff)
    (fits : m.encode len ≠ []) :
    AttMsg.decode (returned (m.encode len)) = (if m.untaken then [] else [m.cut len]) ∧
    (∀ d ∈ AttMsg.listDecoders, d.2 (returned (m.encode len)) = false) ∧
    ∀ handle offset value,
      decPrepWriteResp (returned (m.encode len)) = some (handle, offset, value) ↔
        m.cut len = .prepWriteReq handle offset value := by
  have short := Nat.le_trans (encode_within m room) small
  rw [returned_small short]
  refine ⟨decode_message short fits, fun d inside => ?_, decPrepWriteResp_iff short fits⟩
  refine listDecoders_other d inside ?_
  rw [encode_opcode fits]
  exact opcode_no_list m d inside

theorem att_round_trip_writeReq :
    AttMsg.decode (returned ((AttMsg.writeReq 0x12 [1, 2, 3]).encode 5)) =
        (if (AttMsg.writeReq 0x12 [1, 2, 3]).untaken then []
          else [(AttMsg.writeReq 0x12 [1, 2, 3]).cut 5]) ∧
      (∀ d ∈ AttMsg.listDecoders,
        d.2 (returned ((AttMsg.writeReq 0x12 [1, 2, 3]).encode 5)) = false) ∧
      ∀ handle offset value,
        decPrepWriteResp (returned ((AttMsg.writeReq 0x12 [1, 2, 3]).encode 5)) =
            some (handle, offset, value) ↔
          (AttMsg.writeReq 0x12 [1, 2, 3]).cut 5 = .prepWriteReq handle offset value :=
  att_round_trip (by decide) (by decide) (by decide)

end AnkiDrive
