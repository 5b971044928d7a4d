import AnkiDrive.AttLists
import AnkiDrive.GattRead
import AnkiDrive.Uuid
import AnkiDrive.Lib.Paging

/-! `gatt_discover_primary` by UUID and `gatt_discover_char`: the dialogues that read what a server
has page by page. The result is what the user is called back with, the status last. -/
namespace AnkiDrive
open CModel

def gattPrimSvcUuid : UInt16 := 0x2800
def gattCharacUuid : UInt16 := 0x2803

/-- The value that is searched for. Behind a `u32` the union is zero, as `bt_uuid32_create` leaves
it. -/
def uuidValue : BtUuid → List UInt8
  | .uuid16 value => le16 value
  | .uuid32 value => le32 value ++ List.replicate 12 0
  | .uuid128 value => value.toList

section Model

variable (buflen : Nat)

def encodeDiscoverPrimary (uuid : BtUuid) (start «end» : UInt16) : List UInt8 :=
  encFindByTypeReq start «end» (.uuid16 gattPrimSvcUuid) (uuidValue uuid) buflen

def primaryByUuidCb (uuid : BtUuid) (primaries : List AttRange) (status : UInt8)
    (ipdu : List UInt8) : Turn (List UInt8) (List AttRange) (List AttRange × UInt8) :=
  if status ≠ 0 then .done (primaries, if status = attEcodeAttrNotFound then 0 else status)
  else
    let ranges := decFindByTypeResp ipdu
    match ranges.getLast? with
    | none => .done (primaries, 0)
    | some range =>
      let primaries := primaries ++ ranges
      if range.end = 0xffff then .done (primaries, 0)
      else
        let opdu := encodeDiscoverPrimary buflen uuid (range.end + 1) 0xffff
        if opdu = [] then .done (primaries, 0) else .ask opdu primaries

def primaryNext (uuid : BtUuid) (primaries : List AttRange) (answer : List UInt8) :
    Turn (List UInt8) (List AttRange) (List AttRange × UInt8) :=
  primaryByUuidCb buflen uuid primaries (statusOf (opcode2expected attOpFindByTypeReq) answer)
    (answer.take 512)

def gattDiscoverPrimary (uuid : BtUuid) :
    Turn (List UInt8) (List AttRange) (List AttRange × UInt8) :=
  .ask (encodeDiscoverPrimary buflen uuid 0x0001 0xffff) []

/-- What `char_discovered_cb` makes of a record: the long UUID, and the `struct gatt_char`. -/
def charOfRecord (len : Nat) (value : List UInt8) : Vector UInt8 16 × GattChar :=
  let uuid := btUuidToUuid128
    (if len = 7 then .uuid16 (attGetU16 value 5) else attGetUuid128 value 5)
  (uuid, {
    uuid := btUuidToString (.uuid128 uuid) (maxLenUuidStr + 1)
    handle := attGetU16 value 0
    properties := value.getD 2 0
    valueHandle := attGetU16 value 3 })

def charWanted (filter : Option BtUuid) (char : Vector UInt8 16 × GattChar) : Bool :=
  filter.all fun uuid => btUuidSame uuid (.uuid128 char.1)

/-- An error counts only when nothing has been found. -/
def charDone (characteristics : List GattChar) (err : UInt8) :
    Turn (List UInt8) (List GattChar) (List GattChar × UInt8) :=
  .done (characteristics, if characteristics = [] then err else 0)

def charDiscoveredCb («end» : UInt16) (filter : Option BtUuid) (characteristics : List GattChar)
    (status : UInt8) (ipdu : List UInt8) :
    Turn (List UInt8) (List GattChar) (List GattChar × UInt8) :=
  if status ≠ 0 then charDone characteristics status
  else
    match decReadByTypeResp ipdu with
    | none => charDone characteristics attEcodeIo
    | some list =>
      let chars := (list.data.map (charOfRecord list.len)).filter (charWanted filter)
      let characteristics := characteristics ++ chars.map (·.2)
      let last := (list.data.getLast?.map fun value => attGetU16 value 0).getD 0
      if last ≠ 0 ∧ last.toNat + 1 < «end».toNat then
        .ask (encReadByTypeReq (last + 1) «end» (.uuid16 gattCharacUuid) buflen) characteristics
      else charDone characteristics attEcodeAttrNotFound

def charNext («end» : UInt16) (filter : Option BtUuid) (characteristics : List GattChar)
    (answer : List UInt8) : Turn (List UInt8) (List GattChar) (List GattChar × UInt8) :=
  charDiscoveredCb buflen «end» filter characteristics
    (statusOf (opcode2expected attOpReadByTypeReq) answer) (answer.take 512)

def gattDiscoverChar (start «end» : UInt16) :
    Turn (List UInt8) (List GattChar) (List GattChar × UInt8) :=
  .ask (encReadByTypeReq start «end» (.uuid16 gattCharacUuid) buflen) []

end Model

/-- The attribute protocol has no UUIDs of 32 bits. -/
def BtUuid.sendable : BtUuid → Bool
  | .uuid32 _ => false
  | _ => true

/-- A primary service, with the UUID that it is declared with. -/
structure Service where
  range : AttRange
  uuid : BtUuid
  sendable : uuid.sendable = true

def servicesOf (uuid : BtUuid) (services : List Service) : List AttRange :=
  (services.filter (·.uuid = uuid)).map (·.range)

/-- The value of a declaration is the UUID. -/
def servicesWith (value : List UInt8) (services : List Service) : List AttRange :=
  (services.filter (uuidValue ·.uuid = value)).map (·.range)

def AttRange.first (range : AttRange) : Nat := range.start.toNat

def AttRange.last (range : AttRange) : Nat := range.end.toNat

/-- An answer has some of the services from a handle on, or says that there are none. -/
structure FindsServices (mtu : Nat) (services : List Service) (request answer : List UInt8) :
    Prop where
  answers : ∀ start value,
    decFindByTypeReq request = some (start, 0xffff, .uuid16 gattPrimSvcUuid, value) →
    (∃ page, Page AttRange.first (servicesWith value services) start.toNat page ∧
      answer = encFindByTypeResp page mtu) ∨
    entriesFrom AttRange.first (servicesWith value services) start.toNat = [] ∧
      answer = encErrorResp attOpFindByTypeReq start attEcodeAttrNotFound mtu

/-- A characteristic. Its UUID is sent as a short or as a long one. -/
structure CharDecl where
  handle : UInt16
  properties : UInt8
  valueHandle : UInt16
  uuid : BtUuid

namespace CharDecl

def first (d : CharDecl) : Nat := d.handle.toNat

def longUuid (d : CharDecl) : Vector UInt8 16 := btUuidToUuid128 d.uuid

def sentUuid (d : CharDecl) : List UInt8 :=
  match d.uuid with
  | .uuid16 value => le16 value
  | uuid => (btUuidToUuid128 uuid).toList

/-- The record of its declaration. -/
def record (d : CharDecl) : List UInt8 :=
  le16 d.handle ++ d.properties :: (le16 d.valueHandle ++ d.sentUuid)

def char (d : CharDecl) : GattChar where
  uuid := btUuidToString (.uuid128 d.longUuid) (maxLenUuidStr + 1)
  handle := d.handle
  properties := d.properties
  valueHandle := d.valueHandle

end CharDecl

/-- The characteristics that pass the filter. -/
def charsWith (filter : Option BtUuid) (decls : List CharDecl) : List GattChar :=
  (decls.filter fun d => charWanted filter (d.longUuid, d.char)).map (·.char)

/-- An answer has some of the characteristics from a handle on, those whose UUIDs are of one
length, or says that there are none. -/
structure ListsChars (mtu : Nat) («end» : UInt16) (decls : List CharDecl)
    (request answer : List UInt8) : Prop where
  answers : ∀ start, decReadByTypeReq request = some (start, «end», .uuid16 gattCharacUuid) →
    (∃ page, ∃ list : AttDataList, Page CharDecl.first decls start.toNat page ∧
      list.data = page.map CharDecl.record ∧ list.len + 2 ≤ mtu ∧
      answer = encReadByTypeResp list mtu) ∨
    entriesFrom CharDecl.first decls start.toNat = [] ∧
      answer = encErrorResp attOpReadByTypeReq start attEcodeAttrNotFound mtu

theorem getRanges_take (ranges : List AttRange) (n : Nat) :
    getRanges ((ranges.flatMap fun range => le16 range.start ++ le16 range.end).take n) =
      ranges.take (n / 4) := by
  induction ranges generalizing n with
  | nil => simp [getRanges]
  | cons range ranges ih =>
    rcases Nat.lt_or_ge n 4 with few | more
    · have zero : n / 4 = 0 := Nat.div_eq_of_lt few
      rw [zero, List.take_zero]
      obtain rfl | rfl | rfl | rfl : n = 0 ∨ n = 1 ∨ n = 2 ∨ n = 3 := by omega
      all_goals rfl
    · obtain ⟨m, rfl⟩ := Nat.exists_eq_add_of_le' more
      have next : (m + 4) / 4 = m / 4 + 1 := by omega
      have rest := ih m
      simp only [le16, List.cons_append, List.nil_append, List.flatMap_cons, List.take_succ_cons,
        getRanges, word16_le16, next] at rest ⊢
      rw [rest]

theorem decFindByTypeResp_page {mtu : Nat} {page : List AttRange} (room : 23 ≤ mtu)
    (small : mtu ≤ 0xffff) (nonempty : page ≠ []) : ∃ count, 0 < count ∧
      decFindByTypeResp ((encFindByTypeResp page mtu).take 512) = page.take count ∧
      statusOf attOpFindByTypeResp (encFindByTypeResp page mtu) = 0 := by
  have some_range := List.length_pos_iff.mpr nonempty
  have bytes : encFindByTypeResp page mtu = attOpFindByTypeResp ::
      ((page.take ((mtu - 1) / 4)).flatMap fun range => le16 range.start ++ le16 range.end) := by
    rw [encFindByTypeResp_eq small, if_neg (by omega)]
  have size := ranges_length (page.take ((mtu - 1) / 4))
  rw [List.length_take] at size
  rw [bytes, List.take_succ_cons]
  refine ⟨min 127 ((mtu - 1) / 4), by omega, ?_, statusOf_response (by decide) _⟩
  rw [decFindByTypeResp, if_neg]
  · rw [List.drop_succ_cons, List.drop_zero, getRanges_take, List.take_take]
  · simp only [List.length_cons, List.length_take, size, opcodeOf_cons, ne_eq, not_true_eq_false,
      or_false]
    omega

theorem decReadByTypeResp_page {mtu : Nat} {list : AttDataList} (nonempty : list.data ≠ [])
    (positive : 0 < list.len) (small : list.len ≤ 255) (fits : list.len + 2 ≤ mtu) :
    ∃ count, 0 < count ∧
      AttDataList.contents (decReadByTypeResp ((encReadByTypeResp list mtu).take 512)) =
        some (list.len, list.data.take count) ∧
      statusOf attOpReadByTypeResp (encReadByTypeResp list mtu) = 0 := by
  have some_record := List.length_pos_iff.mpr nonempty
  have whole : min (mtu - 2) list.len = list.len := by omega
  obtain ⟨room, holds, one⟩ : ∃ room, room = (mtu - 2) / list.len ∧ 0 < room :=
    ⟨_, rfl, Nat.div_pos (by omega) positive⟩
  have bytes : encReadByTypeResp list mtu =
      attOpReadByTypeResp :: UInt8.ofNat list.len :: (list.data.take room).flatten := by
    simp only [encReadByTypeResp, whole, putRecords_whole list positive, holds]
  have sized := sized_take list room
  have size := flatten_length sized
  obtain ⟨num, count⟩ : ∃ num, num = min 510 (list.data.take room).flatten.length / list.len :=
    ⟨_, rfl⟩
  have inside : num * list.len ≤ 510 := by
    rw [count]
    exact Nat.le_trans (Nat.div_mul_le_self _ _) (Nat.min_le_left _ _)
  have few : num ≤ (list.data.take room).length := by
    rw [count, size]
    refine Nat.le_trans (Nat.div_le_div_right (Nat.min_le_right _ _)) ?_
    rw [Nat.mul_div_cancel _ positive]
  have more : 0 < num := by
    rw [count, size]
    refine Nat.div_pos (Nat.le_min.mpr ⟨by omega, ?_⟩) positive
    exact Nat.le_mul_of_pos_left _ (by rw [List.length_take]; omega)
  refine ⟨min num room, by omega, ?_, by rw [bytes]; exact statusOf_response (by decide) _⟩
  have read : (attOpReadByTypeResp :: UInt8.ofNat list.len ::
      (list.data.take room).flatten).take 512 = attOpReadByTypeResp :: UInt8.ofNat list.len ::
        (list.data.take room).flatten.take 510 := rfl
  have cut : chunks list.len num ((list.data.take room).flatten.take 510) =
      list.data.take (min num room) := by
    rw [chunks_take inside, chunks_front sized few, List.take_take]
  have behind : ∀ n : Nat, n + 1 + 1 - 2 = n := fun n => Nat.add_sub_cancel n 2
  rw [bytes, read]
  simp only [AttDataList.contents, decReadByTypeResp, List.getD_cons_succ, List.getD_cons_zero,
    ofNat_small small, decDataList, opcodeOf_cons, ne_eq, not_true_eq_false, if_false,
    Option.map_some, List.length_cons, List.drop_succ_cons, List.drop_zero,
    behind, List.length_take, ← count, cut]

section Services

variable {mtu : Nat} {uuid : BtUuid} {services : List Service}

theorem uuidValue_length (uuid : BtUuid) : (uuidValue uuid).length ≤ 16 := by
  cases uuid <;> simp [uuidValue, le16, le32]

theorem uuidValue_inj {declared : BtUuid} (declarable : declared.sendable = true)
    (searched : uuid.sendable = true) : uuidValue declared = uuidValue uuid ↔ declared = uuid := by
  refine ⟨fun same => ?_, congrArg uuidValue⟩
  have size := congrArg List.length same
  cases declared with
  | uuid16 first =>
    cases uuid with
    | uuid16 second =>
      have words : attGetU16 (le16 first) 0 = attGetU16 (le16 second) 0 :=
        congrArg (attGetU16 · 0) same
      exact congrArg BtUuid.uuid16
        ((word16_le16 first).symm.trans (words.trans (word16_le16 second)))
    | uuid32 second => cases searched
    | uuid128 second => simp [uuidValue] at size
  | uuid32 first => cases declarable
  | uuid128 first =>
    cases uuid with
    | uuid16 second => simp [uuidValue] at size
    | uuid32 second => cases searched
    | uuid128 second => exact congrArg BtUuid.uuid128 (Vector.toList_inj.mp same)

theorem servicesWith_value (searched : uuid.sendable = true) :
    servicesWith (uuidValue uuid) services = servicesOf uuid services := by
  have same : ∀ s ∈ services, decide (uuidValue s.uuid = uuidValue uuid) = decide (s.uuid = uuid) :=
    fun s _ => decide_eq_decide.mpr (uuidValue_inj s.sendable searched)
  rw [servicesWith, servicesOf, List.filter_congr same]

theorem encodeDiscoverPrimary_read (room : 23 ≤ mtu) (start stop : UInt16) :
    encodeDiscoverPrimary mtu uuid start stop ≠ [] ∧
      decFindByTypeReq (encodeDiscoverPrimary mtu uuid start stop) =
        some (start, stop, .uuid16 gattPrimSvcUuid, uuidValue uuid) := by
  have short := uuidValue_length uuid
  have bytes : encodeDiscoverPrimary mtu uuid start stop ≠ [] := by
    simp only [encodeDiscoverPrimary, encFindByTypeReq]
    rw [if_neg (by omega)]
    exact List.cons_ne_nil _ _
  have read := (decFindByTypeReq_enc bytes).2
  rw [List.take_of_length_le (by omega)] at read
  exact ⟨bytes, read⟩

theorem primary_step (room : 23 ≤ mtu) (small : mtu ≤ 0xffff) {n : UInt16} {seen : List AttRange}
    {answer : List UInt8}
    (finds : FindsServices mtu services (encodeDiscoverPrimary mtu uuid n 0xffff) answer) :
    entriesFrom AttRange.first (servicesWith (uuidValue uuid) services) n.toNat = [] ∧
        primaryNext mtu uuid seen answer = .done (seen, 0) ∨
      ∃ page e, Page AttRange.first (servicesWith (uuidValue uuid) services) n.toNat page ∧
        page.getLast? = some e ∧
        (entriesFrom AttRange.first (servicesWith (uuidValue uuid) services) (e.last + 1) = [] ∧
            primaryNext mtu uuid seen answer = .done (seen ++ page, 0) ∨
          ∃ m : UInt16, m.toNat = e.last + 1 ∧ primaryNext mtu uuid seen answer =
            .ask (encodeDiscoverPrimary mtu uuid m 0xffff) (seen ++ page)) := by
  have asked := (@encodeDiscoverPrimary_read mtu uuid room n 0xffff).2
  rcases finds.answers n _ asked with ⟨page, paged, rfl⟩ | ⟨none_left, rfl⟩
  · obtain ⟨count, positive, read, status⟩ := decFindByTypeResp_page room small paged.nonempty
    have cut := paged.take positive
    obtain ⟨e, ends⟩ := Option.isSome_iff_exists.mp (List.getLast?_isSome.mpr cut.nonempty)
    refine Or.inr ⟨page.take count, e, cut, ends, ?_⟩
    simp only [primaryNext, primaryByUuidCb,
      show opcode2expected attOpFindByTypeReq = attOpFindByTypeResp from rfl, status, ne_eq,
      not_true_eq_false, if_false, read, ends]
    by_cases last : e.end = 0xffff
    · left
      rw [if_pos last]
      refine ⟨entriesFrom_none fun d _ => ?_, rfl⟩
      have small := d.start.toNat_lt
      simp only [AttRange.first, AttRange.last, last, UInt16.reduceToNat]
      omega
    · right
      have bytes := (@encodeDiscoverPrimary_read mtu uuid room (e.end + 1) 0xffff).1
      rw [if_neg last, if_neg bytes]
      refine ⟨e.end + 1, ?_, rfl⟩
      have small := e.end.toNat_lt
      have other : e.end.toNat ≠ 0xffff := fun same => last (UInt16.toNat_inj.mp same)
      simp only [AttRange.last, UInt16.toNat_add, UInt16.toNat_one]
      omega
  · refine Or.inl ⟨none_left, ?_⟩
    have status := @statusOf_error mtu n (by omega) (opcode2expected attOpFindByTypeReq)
      attOpFindByTypeReq attEcodeAttrNotFound
    simp only [primaryNext, primaryByUuidCb, status]
    rfl

/-- The services with the UUID are found, all of them and in order. -/
theorem primaries_found (room : 23 ≤ mtu) (small : mtu ≤ 0xffff)
    (searched : uuid.sendable = true)
    (ordered : Ordered AttRange.first AttRange.last (services.map (·.range)))
    (low : ∀ s ∈ services, 1 ≤ s.range.start.toNat) :
    EndsIn (fun _ request answer _ => FindsServices mtu services request answer)
      (primaryNext mtu uuid) (fun _ r => r = (servicesOf uuid services, 0))
      () (gattDiscoverPrimary mtu uuid) := by
  rw [← servicesWith_value searched]
  have sub : (servicesWith (uuidValue uuid) services).Sublist (services.map (·.range)) :=
    List.filter_sublist.map _
  have sorted : Ordered AttRange.first AttRange.last (servicesWith (uuidValue uuid) services) :=
    ⟨ordered.apart.sublist sub, fun e inside => ordered.forward e (sub.subset inside)⟩
  have all : entriesFrom AttRange.first (servicesWith (uuidValue uuid) services)
      (1 : UInt16).toNat = servicesWith (uuidValue uuid) services := by
    refine entriesFrom_all fun e inside => ?_
    obtain ⟨s, member, rfl⟩ := List.mem_map.mp (sub.subset inside)
    exact low s member
  have whole : EndsIn (fun _ request answer _ => FindsServices mtu services request answer)
      (primaryNext mtu uuid) (fun _ r => r = ([] ++ entriesFrom AttRange.first
        (servicesWith (uuidValue uuid) services) (1 : UInt16).toNat, 0))
      () (gattDiscoverPrimary mtu uuid) :=
    EndsIn.of_pages sorted UInt16.toNat (fun n => encodeDiscoverPrimary mtu uuid n 0xffff) id
      (fun found => (found, 0)) (fun _ _ _ _ _ finds => primary_step room small finds) 1 [] ()
  rwa [all, List.nil_append] at whole

end Services

/-- The witness of the search: a vehicle with its own service between two others. -/
def threeServices : List Service :=
  [⟨⟨1, 5⟩, .uuid16 0x1800, rfl⟩, ⟨⟨6, 9⟩, .uuid16 0x180f, rfl⟩,
    ⟨⟨16, 0xffff⟩, .uuid16 0x1800, rfl⟩]

/-- A server that sends one service at a time. -/
def serveServices (mtu : Nat) (services : List Service) (request : List UInt8) : List UInt8 :=
  match decFindByTypeReq request with
  | some (start, _, _, value) =>
    match entriesFrom AttRange.first (servicesWith value services) start.toNat with
    | range :: _ => encFindByTypeResp [range] mtu
    | [] => encErrorResp attOpFindByTypeReq start attEcodeAttrNotFound mtu
  | none => []

theorem serveServices_finds (mtu : Nat) (services : List Service) (request : List UInt8) :
    FindsServices mtu services request (serveServices mtu services request) := by
  constructor
  intro start value asked
  simp only [serveServices, asked]
  split
  · rename_i range rest front
    exact Or.inl ⟨[range], ⟨List.cons_ne_nil _ _, rest, front.symm⟩, rfl⟩
  · rename_i none_left
    exact Or.inr ⟨none_left, rfl⟩

theorem primaries_found_gap : ∃ fuel t r,
    runDialogue (primaryNext 23 (.uuid16 0x1800))
        (fun t request => (serveServices 23 threeServices request, t)) fuel ()
        (gattDiscoverPrimary 23 (.uuid16 0x1800)) = some (t, r) ∧
      r = (servicesOf (.uuid16 0x1800) threeServices, 0) :=
  (primaries_found (by decide) (by decide) rfl ⟨by decide, by decide⟩ (by decide)).run
    fun _ request => serveServices_finds 23 threeServices request

theorem record_length (d : CharDecl) : d.record.length = 7 ∨ d.record.length = 21 := by
  cases named : d.uuid <;> simp [CharDecl.record, CharDecl.sentUuid, named]

theorem attGetUuid128_record (handle valueHandle : UInt16) (properties : UInt8)
    (value : Vector UInt8 16) :
    attGetUuid128 (le16 handle ++ properties :: (le16 valueHandle ++ value.toList)) 5 =
      .uuid128 value := by
  simp only [attGetUuid128, BtUuid.uuid128.injEq]
  ext k inside
  have skip : 5 + k = k + 4 + 1 := by omega
  simp [le16, skip, inside]

theorem attGetU16_record (handle valueHandle value : UInt16) (properties : UInt8) :
    attGetU16 (le16 handle ++ properties :: (le16 valueHandle ++ le16 value)) 5 = value :=
  word16_le16 value

theorem record_long_uuid {d : CharDecl} (long : d.sentUuid = d.longUuid.toList) : btUuidToUuid128
    (if d.record.length = 7 then .uuid16 (attGetU16 d.record 5) else attGetUuid128 d.record 5) =
      d.longUuid := by
  have size : ¬ d.record.length = 7 := by simp [CharDecl.record, long]
  rw [if_neg size, CharDecl.record, long, attGetUuid128_record, btUuidToUuid128]

theorem record_uuid (d : CharDecl) : btUuidToUuid128
    (if d.record.length = 7 then .uuid16 (attGetU16 d.record 5) else attGetUuid128 d.record 5) =
      d.longUuid := by
  cases named : d.uuid with
  | uuid16 value =>
    have sent : d.sentUuid = le16 value := by simp only [CharDecl.sentUuid, named]
    have short : d.record.length = 7 := by simp [CharDecl.record, sent]
    rw [if_pos short, CharDecl.record, sent, attGetU16_record, CharDecl.longUuid, named]
  | uuid32 value =>
    exact record_long_uuid (by simp only [CharDecl.sentUuid, CharDecl.longUuid, named])
  | uuid128 value =>
    exact record_long_uuid (by simp only [CharDecl.sentUuid, CharDecl.longUuid, named])

theorem record_handle (d : CharDecl) : attGetU16 d.record 0 = d.handle := word16_le16 d.handle

theorem record_valueHandle (d : CharDecl) : attGetU16 d.record 3 = d.valueHandle :=
  word16_le16 d.valueHandle

theorem charOfRecord_record (d : CharDecl) :
    charOfRecord d.record.length d.record = (d.longUuid, d.char) := by
  have properties : d.record.getD 2 0 = d.properties := rfl
  simp only [charOfRecord, record_uuid, record_handle, record_valueHandle, properties,
    CharDecl.char]

section Chars

variable {mtu : Nat} {stop : UInt16} {filter : Option BtUuid} {decls seen : List CharDecl}

theorem charsWith_append (filter : Option BtUuid) (seen page : List CharDecl) :
    charsWith filter (seen ++ page) = charsWith filter seen ++ charsWith filter page := by
  simp only [charsWith, List.filter_append, List.map_append]

theorem filed_page (len : Nat) (page : List CharDecl) (sized : ∀ d ∈ page, d.record.length = len) :
    (((page.map CharDecl.record).map (charOfRecord len)).filter (charWanted filter)).map (·.2) =
      charsWith filter page := by
  induction page with
  | nil => rfl
  | cons d page ih =>
    have here := charOfRecord_record d
    rw [List.forall_mem_cons] at sized
    rw [sized.1] at here
    simp only [List.map_cons, here, charsWith, List.filter_cons]
    split
    · simp only [List.map_cons, List.cons.injEq, true_and]
      exact ih sized.2
    · exact ih sized.2

theorem encReadByTypeReq_read (room : 23 ≤ mtu) (n stop : UInt16) :
    decReadByTypeReq (encReadByTypeReq n stop (.uuid16 gattCharacUuid) mtu) =
      some (n, stop, .uuid16 gattCharacUuid) := by
  refine (decUuidReq_enc ?_).2
  simp only [encUuidReq]
  rw [if_neg (by omega)]
  exact List.cons_ne_nil _ _

theorem char_step (room : 23 ≤ mtu) {n : UInt16} {answer : List UInt8}
    (inside : ∀ d ∈ decls, 0 < d.handle.toNat ∧ d.handle.toNat < stop.toNat)
    (lists : ListsChars mtu stop decls
      (encReadByTypeReq n stop (.uuid16 gattCharacUuid) mtu) answer) :
    entriesFrom CharDecl.first decls n.toNat = [] ∧
        charNext mtu stop filter (charsWith filter seen) answer =
          charDone (charsWith filter seen) attEcodeAttrNotFound ∨
      ∃ page e, Page CharDecl.first decls n.toNat page ∧ page.getLast? = some e ∧
        (entriesFrom CharDecl.first decls (e.first + 1) = [] ∧
            charNext mtu stop filter (charsWith filter seen) answer =
              charDone (charsWith filter (seen ++ page)) attEcodeAttrNotFound ∨
          ∃ m : UInt16, m.toNat = e.first + 1 ∧
            charNext mtu stop filter (charsWith filter seen) answer =
              .ask (encReadByTypeReq m stop (.uuid16 gattCharacUuid) mtu)
                (charsWith filter (seen ++ page))) := by
  rcases lists.answers n (encReadByTypeReq_read room n stop) with
    ⟨page, list, paged, records, fits, rfl⟩ | ⟨none_left, rfl⟩
  · have sized : ∀ d ∈ page, d.record.length = list.len := fun d member =>
      list.sized d.record (records ▸ List.mem_map_of_mem member)
    obtain ⟨d, rest, split⟩ := List.exists_cons_of_ne_nil paged.nonempty
    have length := record_length d
    rw [sized d (split ▸ List.mem_cons_self)] at length
    have nonempty : list.data ≠ [] := by
      rw [records, split]
      exact List.cons_ne_nil _ _
    obtain ⟨count, positive, read, status⟩ :=
      decReadByTypeResp_page nonempty (by omega) (by omega) fits
    obtain ⟨decoded, taken, same⟩ := Option.map_eq_some_iff.mp read
    obtain ⟨len, data⟩ := Prod.mk.inj same
    have cut := paged.take positive
    obtain ⟨e, ends⟩ := Option.isSome_iff_exists.mp (List.getLast?_isSome.mpr cut.nonempty)
    have member : e ∈ decls := by
      have front := cut.front.subset (List.mem_of_getLast? ends)
      exact (List.mem_filter.mp front).1
    refine Or.inr ⟨page.take count, e, cut, ends, ?_⟩
    have filed := @filed_page filter list.len (page.take count) fun d front =>
      sized d (List.mem_of_mem_take front)
    rw [records, ← List.map_take] at data
    have last : (((page.take count).map CharDecl.record).getLast?.map fun value =>
        attGetU16 value 0).getD 0 = e.handle := by
      rw [List.getLast?_map, ends]
      exact record_handle e
    obtain ⟨low, high⟩ := inside e member
    have some_handle : e.handle ≠ 0 := fun zero => by simp [zero] at low
    simp only [charNext, charDiscoveredCb,
      show opcode2expected attOpReadByTypeReq = attOpReadByTypeResp from rfl, status, ne_eq,
      not_true_eq_false, if_false, taken, len, data, filed, last, some_handle, not_false_eq_true,
      true_and, ← charsWith_append]
    by_cases more : e.handle.toNat + 1 < stop.toNat
    · right
      have small := stop.toNat_lt
      rw [if_pos more]
      refine ⟨e.handle + 1, ?_, rfl⟩
      simp only [CharDecl.first, UInt16.toNat_add, UInt16.toNat_one]
      omega
    · left
      rw [if_neg more]
      refine ⟨entriesFrom_none fun d there => ?_, rfl⟩
      have below := (inside d there).2
      simp only [CharDecl.first]
      omega
  · refine Or.inl ⟨none_left, ?_⟩
    have status := @statusOf_error mtu n (by omega) (opcode2expected attOpReadByTypeReq)
      attOpReadByTypeReq attEcodeAttrNotFound
    simp only [charNext, charDiscoveredCb, status]
    rfl

theorem discoverChar_ends (room : 23 ≤ mtu) {start : UInt16}
    (ordered : Ordered CharDecl.first CharDecl.first decls)
    (inside : ∀ d ∈ decls, 0 < d.handle.toNat ∧ d.handle.toNat < stop.toNat)
    (low : ∀ d ∈ decls, start.toNat ≤ d.handle.toNat) :
    EndsIn (fun _ request answer _ => ListsChars mtu stop decls request answer)
      (charNext mtu stop filter) (fun _ r => r = (charsWith filter decls,
        if charsWith filter decls = [] then attEcodeAttrNotFound else 0))
      () (gattDiscoverChar mtu start stop) := by
  have all : entriesFrom CharDecl.first decls start.toNat = decls := entriesFrom_all low
  have whole : EndsIn (fun _ request answer _ => ListsChars mtu stop decls request answer)
      (charNext mtu stop filter) (fun _ r =>
        r = (charsWith filter ([] ++ entriesFrom CharDecl.first decls start.toNat),
          if charsWith filter ([] ++ entriesFrom CharDecl.first decls start.toNat) = []
            then attEcodeAttrNotFound else 0))
      () (gattDiscoverChar mtu start stop) :=
    EndsIn.of_pages ordered UInt16.toNat
      (fun n => encReadByTypeReq n stop (.uuid16 gattCharacUuid) mtu) (charsWith filter)
      (fun seen => (charsWith filter seen,
        if charsWith filter seen = [] then attEcodeAttrNotFound else 0))
      (fun _ _ _ _ _ lists => char_step room inside lists) start [] ()
  rwa [all, List.nil_append] at whole

end Chars

def ankiStr : CharRole → CString
  | .read => ankiStrChrReadUuid
  | .write => ankiStrChrWriteUuid

def ankiUuid : CharRole → Vector UInt8 16
  | .read => #v[0xf4, 0x8d, 0x4d, 0x9c, 0xd8, 0x0b, 0x81, 0x83,
      0x7e, 0x40, 0x86, 0x61, 0xe0, 0xbe, 0x15, 0xbe]
  | .write => #v[0xf4, 0x8d, 0x4d, 0x9c, 0xd8, 0x0b, 0x81, 0x83,
      0x7e, 0x40, 0x86, 0x61, 0xe1, 0xbe, 0x15, 0xbe]

theorem ankiStr_folded (role : CharRole) :
    (ankiStr role).chars.map tolower = uuidText (.uuid128 (ankiUuid role)) := by
  cases role <;> decide +kernel

/-- A text that is compared with one of the tool's is the same UUID. -/
theorem isAnkiChar_iff {role : CharRole} {value : Vector UInt8 16} {char : GattChar}
    (named : char.uuid = btUuidToString (.uuid128 value) (maxLenUuidStr + 1)) :
    isAnkiChar role char = true ↔ btStringToUuid (ankiStr role) = some (.uuid128 value) := by
  have compared : isAnkiChar role char = true ↔
      uuidText (.uuid128 value) = uuidText (.uuid128 (ankiUuid role)) := by
    have long : strlen (ankiStr role) = 36 := by
      have size := congrArg List.length (ankiStr_folded role)
      rwa [List.length_map, uuidText_length, textSize] at size
    have same : isAnkiChar role char = decide (strncasecmp char.uuid (ankiStr role) 36 = 0) := by
      rw [← long]
      cases role <;> rfl
    have whole : ∀ uuid, (uuidText uuid).take 36 = uuidText uuid := fun uuid =>
      List.take_of_length_le (uuidText_length uuid ▸ textSize_le uuid)
    rw [same, decide_eq_true_iff, strncasecmp_eq_zero, named, btUuidToString_chars,
      uuidText_lower, ankiStr_folded, whole, whole]
  rw [compared]
  constructor
  · intro same
    exact btStringToUuid_folded ((ankiStr_folded role).trans same.symm)
  · intro read
    rw [btStringToUuid_folded (ankiStr_folded role)] at read
    cases read
    rfl

/-- What the tool knows of a vehicle after discovery: the last characteristic with the UUID, and
what it knew before where the vehicle has none. -/
theorem anki_chars_recorded {mtu : Nat} {decls : List CharDecl} (room : 23 ≤ mtu)
    (ordered : Ordered CharDecl.first CharDecl.first decls)
    (inside : ∀ d ∈ decls, 0 < d.handle.toNat ∧ d.handle.toNat < 0xffff)
    (s : Tool) (role : CharRole) :
    EndsIn (fun _ request answer _ => ListsChars mtu 0xffff decls request answer)
      (charNext mtu 0xffff none) (fun _ r =>
        (discoverCharCb s r.1 r.2).1.vehicle.char role =
          (((decls.filter fun d =>
            btStringToUuid (ankiStr role) = some (.uuid128 d.longUuid)).map
              CharDecl.char).getLast?).getD (s.vehicle.char role))
      () (gattDiscoverChar mtu 0x1 0xffff) := by
  have found := @discoverChar_ends mtu 0xffff none decls room 0x1 ordered inside
    fun d member => (inside d member).1
  have all : charsWith none decls = decls.map CharDecl.char := by
    simp [charsWith, charWanted]
  refine found.mono fun _ r same => ?_
  rw [same, all]
  cases decls with
  | nil => rfl
  | cons d rest =>
    have kept : ((d :: rest).map CharDecl.char).filter (isAnkiChar role) =
        ((d :: rest).filter fun d =>
          btStringToUuid (ankiStr role) = some (.uuid128 d.longUuid)).map CharDecl.char := by
      rw [List.filter_map]
      congr 1
      refine List.filter_congr fun e _ => ?_
      rw [Bool.eq_iff_iff, decide_eq_true_iff]
      exact @isAnkiChar_iff role e.longUuid e.char rfl
    have held := loop_char role s.vehicle ((d :: rest).map CharDecl.char)
    rw [kept] at held
    exact held

def threeChars : List CharDecl :=
  [⟨2, 0x02, 3, .uuid16 0x2a00⟩, ⟨0x0b, 0x12, 0x0c, .uuid128 (ankiUuid .read)⟩,
    ⟨0x0e, 0x0c, 0x0f, .uuid128 (ankiUuid .write)⟩]

/-- A server that sends one characteristic at a time. -/
def serveChars (mtu : Nat) (decls : List CharDecl) (request : List UInt8) : List UInt8 :=
  match decReadByTypeReq request with
  | some (start, _, _) =>
    match entriesFrom CharDecl.first decls start.toNat with
    | d :: _ => encReadByTypeResp ⟨d.record.length, [d.record], by simp⟩ mtu
    | [] => encErrorResp attOpReadByTypeReq start attEcodeAttrNotFound mtu
  | none => []

theorem serveChars_lists {mtu : Nat} (room : 23 ≤ mtu) (stop : UInt16) (decls : List CharDecl)
    (request : List UInt8) : ListsChars mtu stop decls request (serveChars mtu decls request) := by
  constructor
  intro start asked
  simp only [serveChars, asked]
  split
  · rename_i d rest front
    have length := record_length d
    exact Or.inl ⟨[d], ⟨d.record.length, [d.record], by simp⟩,
      ⟨List.cons_ne_nil _ _, rest, front.symm⟩, rfl, by simp only; omega, rfl⟩
  · rename_i none_left
    exact Or.inr ⟨none_left, rfl⟩

theorem anki_chars_recorded_vehicle : ∃ fuel t r,
    runDialogue (charNext 23 0xffff none)
        (fun t request => (serveChars 23 threeChars request, t)) fuel ()
        (gattDiscoverChar 23 0x1 0xffff) = some (t, r) ∧
      (discoverCharCb (Tool.interactive none none 0) r.1 r.2).1.vehicle.char .write =
        (((threeChars.filter fun d =>
          btStringToUuid (ankiStr .write) = some (.uuid128 d.longUuid)).map
            CharDecl.char).getLast?).getD ((Tool.interactive none none 0).vehicle.char .write) :=
  (anki_chars_recorded (by decide) ⟨by decide, by decide⟩ (by decide) _ .write).run
    fun _ request => serveChars_lists (by decide) 0xffff threeChars request

end AnkiDrive
