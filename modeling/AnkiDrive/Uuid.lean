import AnkiDrive.AttPdu
import AnkiDrive.Handles

/-! `lib/uuid.c`: UUIDs as texts, and the short ones among the long ones. The host is
little-endian, so a long UUID lies in memory as it is sent. -/
namespace AnkiDrive
open CModel

/-- The length of the number, with a `0x` in front of a digit. -/
def hexLength (s : List UInt8) : Nat :=
  match s with
  | 0x30 :: x :: d :: rest =>
    if tolower x = 0x78 ∧ isDigit 16 d then 2 + ((d :: rest).takeWhile (isDigit 16)).length
    else (s.takeWhile (isDigit 16)).length
  | _ => (s.takeWhile (isDigit 16)).length

def signLength (s : List UInt8) : Nat := if s.head? = some 0x2d ∨ s.head? = some 0x2b then 1 else 0

/-- `endptr` of `strtol`: what is behind the number, or all of it where there is none. -/
def strtolEnd (s : List UInt8) : List UInt8 :=
  let number := s.dropWhile isspace
  let digits := number.drop (signLength number)
  if hexLength digits = 0 then s else digits.drop (hexLength digits)

/-- `%x` of `sscanf` with a width: the number, and what is behind it. A `0x` without a digit is
no number. -/
def scanHex (width : Nat) (s : List UInt8) : Option (Int × List UInt8) :=
  let number := s.dropWhile isspace
  let field := number.take width
  let digits := field.drop (signLength field)
  let bare := digits.head? = some 0x30 ∧ digits[1]?.map tolower = some 0x78 ∧ hexLength digits = 1
  if hexLength digits = 0 ∨ bare then none
  else some (numberIn 16 field, number.drop (signLength field + hexLength digits))

def scanDash (s : List UInt8) : Option (List UInt8) :=
  if s.head? = some 0x2d then some s.tail else none

def hton128 (value : Vector UInt8 16) : List UInt8 := value.toList.reverse

def ntoh128 (data : List UInt8) : Vector UInt8 16 := Vector.ofFn fun k => data.reverse.getD k 0

/-- `ntohs` of the word at `k` -/
def getBe16 (data : List UInt8) (k : Nat) : UInt16 := word16 (data.getD (k + 1) 0) (data.getD k 0)

/-- `ntohl` of the word at `k` -/
def getBe32 (data : List UInt8) (k : Nat) : UInt32 :=
  word32 (data.getD (k + 3) 0) (data.getD (k + 2) 0) (data.getD (k + 1) 0) (data.getD k 0)

def bluetoothBaseUuid : List UInt8 :=
  [0xfb, 0x34, 0x9b, 0x5f, 0x80, 0x00, 0x00, 0x80, 0x00, 0x10, 0x00, 0x00, 0x00, 0x00, 0x00, 0x00]

/-- The base UUID with other bytes from `BASE_UUID16_OFFSET` on. -/
def baseUuidWith (bytes : List UInt8) : Vector UInt8 16 :=
  let front := bluetoothBaseUuid.take 12
  let back := bluetoothBaseUuid.drop (12 + bytes.length)
  Vector.ofFn fun k => (front ++ bytes ++ back).getD k 0

def btUuidToUuid128 : BtUuid → Vector UInt8 16
  | .uuid16 value => baseUuidWith (le16 value)
  | .uuid32 value => baseUuidWith (le32 value)
  | .uuid128 value => value

/-- `bt_uuid_cmp` says that there is no difference. -/
def btUuidSame (uuid1 uuid2 : BtUuid) : Bool := btUuidToUuid128 uuid1 = btUuidToUuid128 uuid2

/-- What `bt_uuid_to_string` prints. -/
def uuidText : BtUuid → List UInt8
  | .uuid16 value => hexadecimal 4 value.toNat
  | .uuid32 value => hexadecimal 8 value.toNat
  | .uuid128 value =>
    let data := hton128 value
    hexadecimal 8 (getBe32 data 0).toNat ++ 0x2d :: (hexadecimal 4 (getBe16 data 4).toNat ++
      0x2d :: (hexadecimal 4 (getBe16 data 6).toNat ++
      0x2d :: (hexadecimal 4 (getBe16 data 8).toNat ++
      0x2d :: (hexadecimal 8 (getBe32 data 10).toNat ++
        hexadecimal 4 (getBe16 data 14).toNat))))

def isUuid128 (string : CString) : Bool :=
  strlen string = 36 ∧ string.chars[8]? = some 0x2d ∧ string.chars[13]? = some 0x2d ∧
    string.chars[18]? = some 0x2d ∧ string.chars[23]? = some 0x2d

def isUuid32 (string : CString) : Bool := strlen string = 8 ∨ strlen string = 10

def isUuid16 (string : CString) : Bool := strlen string = 4 ∨ strlen string = 6

def btStringToUuid16 (string : CString) : Option BtUuid :=
  if strtolEnd string.chars = [] then some (.uuid16 (UInt16.ofInt (strtol 16 string.chars)))
  else none

def btStringToUuid32 (string : CString) : Option BtUuid :=
  if strtolEnd string.chars = [] then some (.uuid32 (UInt32.ofInt (strtol 16 string.chars)))
  else none

def btStringToUuid128 (string : CString) : Option BtUuid := do
  let (data0, s) ← scanHex 8 string.chars
  let s ← scanDash s
  let (data1, s) ← scanHex 4 s
  let s ← scanDash s
  let (data2, s) ← scanHex 4 s
  let s ← scanDash s
  let (data3, s) ← scanHex 4 s
  let s ← scanDash s
  let (data4, s) ← scanHex 8 s
  let (data5, _) ← scanHex 4 s
  let n128 := be32 (UInt32.ofInt data0) ++ be16 (UInt16.ofInt data1) ++ be16 (UInt16.ofInt data2) ++
    be16 (UInt16.ofInt data3) ++ be32 (UInt32.ofInt data4) ++ be16 (UInt16.ofInt data5)
  return .uuid128 (ntoh128 n128)

/-- `none` is `-EINVAL`. -/
def btStringToUuid (string : CString) : Option BtUuid :=
  if isUuid128 string then btStringToUuid128 string
  else if isUuid32 string then btStringToUuid32 string
  else if isUuid16 string then btStringToUuid16 string
  else none

def hexDigit (n : Nat) : UInt8 := UInt8.ofNat (if n < 10 then 0x30 + n else 0x57 + n)

theorem utf8_digit : ∀ n < 16, String.utf8EncodeChar n.digitChar = [hexDigit n] := by decide

theorem digitOf_folded : ∀ b < 256, ∀ n < 16, tolower (UInt8.ofNat b) = hexDigit n →
    digitOf (UInt8.ofNat b) = some n := by
  decide +kernel

theorem digit_plain : ∀ b < 256, isDigit 16 (UInt8.ofNat b) →
    isspace (UInt8.ofNat b) = false ∧ UInt8.ofNat b ≠ 0x2d ∧ UInt8.ofNat b ≠ 0x2b ∧
      tolower (UInt8.ofNat b) ≠ 0x78 := by
  decide +kernel

theorem toList_loop (bytes : List UInt8) (i : Nat) (front : List UInt8) :
    ByteArray.toList.loop bytes.toByteArray i front = front.reverse ++ bytes.drop i := by
  fun_induction ByteArray.toList.loop bytes.toByteArray i front with
  | case1 i front inside ih =>
    rw [List.size_toByteArray] at inside
    have here : bytes.toByteArray.get! i = bytes[i] := by
      simp [ByteArray.get!, inside]
    rw [ih, here, List.drop_eq_getElem_cons inside]
    simp
  | case2 i front outside =>
    rw [List.size_toByteArray] at outside
    rw [List.drop_of_length_le (by omega), List.append_nil]

theorem text_ofList (chars : List Char) :
    text (String.ofList chars) = chars.flatMap String.utf8EncodeChar := by
  simp [text, List.utf8Encode, ByteArray.toList, toList_loop]

theorem hexadecimal_succ {width : Nat} (positive : 0 < width) (n : Nat) :
    hexadecimal (width + 1) n = hexadecimal width (n / 16) ++ [hexDigit (n % 16)] := by
  have last := utf8_digit (n % 16) (Nat.mod_lt n (by decide))
  unfold hexadecimal
  simp only [text_ofList]
  by_cases small : n < 16
  · rw [Nat.toDigits_of_lt_base small, Nat.div_eq_of_lt small, Nat.toDigits_zero]
    rw [Nat.mod_eq_of_lt small] at last ⊢
    have zero : String.utf8EncodeChar '0' = [0x30] := by decide
    obtain ⟨w, rfl⟩ := Nat.exists_eq_add_of_lt positive
    simp [last, zero, List.replicate_succ']
  · rw [Nat.toDigits_of_base_le (by decide) (Nat.le_of_not_lt small)]
    simp [last]

/-- A text that is made of digits, and the number they are for. -/
structure Digits (s : List UInt8) (width n : Nat) : Prop where
  size : s.length = width
  digits : ∀ c ∈ s, isDigit 16 c
  value : s.foldl (fun m c => m * 16 + (digitOf c).getD 0) 0 = n

theorem Digits.concat {s : List UInt8} {width n d : Nat} {c : UInt8} (front : Digits s width n)
    (small : d < 16) (same : tolower c = hexDigit d) :
    Digits (s ++ [c]) (width + 1) (n * 16 + d) := by
  have digit : digitOf c = some d := by
    have folded := digitOf_folded c.toNat c.toNat_lt d small
    rw [UInt8.ofNat_toNat] at folded
    exact folded same
  refine ⟨by rw [List.length_append, front.size, List.length_singleton], ?_, ?_⟩
  · intro b inside
    rcases List.mem_append.mp inside with old | last
    · exact front.digits b old
    · rw [List.mem_singleton.mp last, isDigit, digit]
      exact decide_eq_true small
  · rw [List.foldl_append, front.value, List.foldl_cons, List.foldl_nil, digit, Option.getD_some]

theorem hexadecimal_one {n : Nat} (small : n < 16) : hexadecimal 1 n = [hexDigit n] := by
  have digit : text (String.ofList (Nat.toDigits 16 n)) = [hexDigit n] := by
    rw [text_ofList, Nat.toDigits_of_lt_base small, List.flatMap_singleton, utf8_digit n small]
  simp [hexadecimal, digit]

theorem div_small {width n : Nat} (small : n < Nat.pow 16 (width + 1)) :
    n / 16 < Nat.pow 16 width := by
  refine Nat.div_lt_of_lt_mul ?_
  rwa [Nat.mul_comm]

theorem hexadecimal_digits {width n : Nat} (positive : 0 < width) (small : n < Nat.pow 16 width) :
    (hexadecimal width n).length = width ∧
      ∀ c ∈ hexadecimal width n, ∃ d < 16, c = hexDigit d := by
  induction width, positive using Nat.le_induction generalizing n with
  | base =>
    rw [hexadecimal_one small]
    exact ⟨rfl, fun c inside => ⟨n, small, List.mem_singleton.mp inside⟩⟩
  | succ width positive ih =>
    obtain ⟨size, digits⟩ := ih (div_small small)
    rw [hexadecimal_succ positive]
    constructor
    · rw [List.length_append, size, List.length_singleton]
    · intro c inside
      rcases List.mem_append.mp inside with front | last
      · exact digits c front
      · exact ⟨n % 16, Nat.mod_lt n (by decide), List.mem_singleton.mp last⟩

theorem digits_folded {width n : Nat} {s : List UInt8} (positive : 0 < width)
    (small : n < Nat.pow 16 width) (same : s.map tolower = hexadecimal width n) :
    Digits s width n := by
  induction width, positive using Nat.le_induction generalizing n s with
  | base =>
    rw [hexadecimal_one small] at same
    obtain ⟨c, rfl, digit⟩ := List.map_eq_singleton_iff.mp same
    have empty : Digits [] 0 0 := ⟨rfl, fun _ inside => absurd inside List.not_mem_nil, rfl⟩
    have one := empty.concat small digit
    simpa using one
  | succ width positive ih =>
    rw [hexadecimal_succ positive] at same
    obtain ⟨front, last, rfl, high, low⟩ := List.map_eq_append_iff.mp same
    obtain ⟨c, rfl, digit⟩ := List.map_eq_singleton_iff.mp low
    have last := Nat.mod_lt n (show 0 < 16 by decide)
    have whole := (ih (div_small small) high).concat last digit
    rwa [Nat.div_add_mod'] at whole

section Scanned

variable {s rest : List UInt8} {width n : Nat}

theorem Digits.plain (read : Digits s width n) : ∀ c ∈ s,
    isspace c = false ∧ c ≠ 0x2d ∧ c ≠ 0x2b ∧ tolower c ≠ 0x78 := by
  intro c inside
  have plain := digit_plain c.toNat c.toNat_lt
  rw [UInt8.ofNat_toNat] at plain
  exact plain (read.digits c inside)

theorem Digits.takeWhile (read : Digits s width n) : s.takeWhile (isDigit 16) = s :=
  List.takeWhile_eq_self_iff.mpr read.digits

theorem Digits.hexLength (read : Digits s width n) : hexLength s = width := by
  unfold AnkiDrive.hexLength
  split
  · rename_i x d rest
    have plain := read.plain x (by simp)
    rw [if_neg fun bare => plain.2.2.2 bare.1, read.takeWhile, read.size]
  · rw [read.takeWhile, read.size]

theorem Digits.magnitude (read : Digits s width n) : magnitude 16 s = n := by
  have value : digitsValue 16 s = n := by rw [digitsValue, read.takeWhile, read.value]
  unfold AnkiDrive.magnitude
  split
  · rename_i x d rest
    have plain := read.plain x (by simp)
    rw [if_neg fun bare => plain.2.2.2 bare.2.1, if_neg (by decide), value]
  · rw [if_neg (by decide), value]
  · rw [if_neg (by decide), value]

theorem Digits.numberIn (read : Digits s width n) (positive : 0 < width) : numberIn 16 s = n := by
  obtain ⟨c, t, rfl⟩ := List.exists_cons_of_length_pos (read.size ▸ positive)
  obtain ⟨space, minus, plus, -⟩ := read.plain c List.mem_cons_self
  unfold AnkiDrive.numberIn
  rw [List.dropWhile_cons_of_neg (by simp [space])]
  split
  · rename_i same
    cases same
    exact absurd rfl minus
  · rename_i same
    cases same
    exact absurd rfl plus
  · rw [read.magnitude]

theorem Digits.head (read : Digits s width n) (positive : 0 < width) (rest : List UInt8) :
    (s ++ rest).dropWhile isspace = s ++ rest ∧ signLength s = 0 := by
  obtain ⟨c, t, rfl⟩ := List.exists_cons_of_length_pos (read.size ▸ positive)
  obtain ⟨space, minus, plus, -⟩ := read.plain c List.mem_cons_self
  constructor
  · exact List.dropWhile_cons_of_neg (by simp [space])
  · simp [signLength, minus, plus]

theorem Digits.strtol (read : Digits s width n) (positive : 0 < width)
    (small : n ≤ 0x7fffffffffffffff) : strtol 16 s = n ∧ strtolEnd s = [] := by
  obtain ⟨front, unsigned⟩ := read.head positive []
  rw [List.append_nil] at front
  constructor
  · rw [AnkiDrive.strtol, read.numberIn positive]
    omega
  · simp only [strtolEnd, front, unsigned, List.drop_zero, read.hexLength]
    rw [if_neg (by omega), ← read.size, List.drop_length]

theorem Digits.scanHex (read : Digits s width n) (positive : 0 < width) :
    scanHex width (s ++ rest) = some ((n : Int), rest) := by
  obtain ⟨front, unsigned⟩ := read.head positive rest
  have field : (s ++ rest).take width = s := List.take_left' read.size
  have plain : s[1]?.map tolower ≠ some 0x78 := by
    intro same
    obtain ⟨x, second, bare⟩ := Option.map_eq_some_iff.mp same
    exact (read.plain x (List.mem_of_getElem? second)).2.2.2 bare
  simp only [AnkiDrive.scanHex, front, field, unsigned, List.drop_zero, read.hexLength, plain,
    read.numberIn positive, Nat.zero_add, false_and, and_false, or_false]
  rw [if_neg (by omega), List.drop_left' read.size]

end Scanned

theorem ofInt_toNat_u32 (x : UInt32) : UInt32.ofInt x.toNat = x := by
  have small := x.toNat_lt
  apply UInt32.toNat_inj.mp
  simp only [UInt32.ofInt, UInt32.toNat_ofNat']
  omega

theorem tolower_dash : ∀ b < 256, tolower (UInt8.ofNat b) = 0x2d → UInt8.ofNat b = 0x2d := by
  decide +kernel

theorem compareChars_map {fold : UInt8 → UInt8} (zero : fold 0 = 0) (n : Nat) (s t : List UInt8) :
    compareChars fold n s t = compareChars id n (s.map fold) (t.map fold) := by
  have head : ∀ s : List UInt8, (s.map fold).headD 0 = fold (s.headD 0) := by
    intro s
    cases s with
    | nil => exact zero.symm
    | cons c s => rfl
  induction n generalizing s t with
  | zero => rfl
  | succ n ih => simp only [compareChars, head, ← List.map_tail, id, ih]

theorem be16_getBe16 (data : List UInt8) (k : Nat) :
    be16 (getBe16 data k) = [data.getD k 0, data.getD (k + 1) 0] := by
  rw [be16, getBe16, le16_word16]
  rfl

theorem be32_getBe32 (data : List UInt8) (k : Nat) : be32 (getBe32 data k) =
    [data.getD k 0, data.getD (k + 1) 0, data.getD (k + 2) 0, data.getD (k + 3) 0] := by
  rw [be32, getBe32, le32_word32]
  rfl

theorem ntoh128_hton128 (value : Vector UInt8 16) : ntoh128 (hton128 value) = value := by
  ext k inside
  simp [ntoh128, hton128]

theorem words_of_data (value : Vector UInt8 16) :
    let data := hton128 value
    be32 (getBe32 data 0) ++ be16 (getBe16 data 4) ++ be16 (getBe16 data 6) ++
      be16 (getBe16 data 8) ++ be32 (getBe32 data 10) ++ be16 (getBe16 data 14) = data := by
  intro data
  have size : data.length = 16 := by simp [data, hton128]
  have bytes : (List.range 16).map (fun k => data.getD k 0) = data := by
    apply List.ext_getElem
    · simp [size]
    · intro k _ inside
      simp [inside]
  simp only [be16_getBe16, be32_getBe32]
  exact bytes

theorem folded_dash {s t : List UInt8} (same : s.map tolower = 0x2d :: t) :
    ∃ rest, s = 0x2d :: rest ∧ rest.map tolower = t := by
  obtain ⟨c, rest, rfl, dash, folded⟩ := List.map_eq_cons_iff.mp same
  have plain := tolower_dash c.toNat c.toNat_lt
  rw [UInt8.ofNat_toNat] at plain
  exact ⟨rest, by rw [plain dash], folded⟩

@[simp] theorem scanDash_cons (s : List UInt8) : scanDash (0x2d :: s) = some s := rfl

theorem btStringToUuid_folded {uuid : BtUuid} {string : CString}
    (same : string.chars.map tolower = uuidText uuid) : btStringToUuid string = some uuid := by
  cases uuid with
  | uuid16 value =>
    have read : Digits string.chars 4 value.toNat := digits_folded (by decide) value.toNat_lt same
    have small := value.toNat_lt
    obtain ⟨number, whole⟩ := read.strtol (by decide) (by omega)
    have size : strlen string = 4 := read.size
    simp [btStringToUuid, isUuid128, isUuid32, isUuid16, size, btStringToUuid16, whole, number,
      ofInt_toNat]
  | uuid32 value =>
    have read : Digits string.chars 8 value.toNat := digits_folded (by decide) value.toNat_lt same
    have small := value.toNat_lt
    obtain ⟨number, whole⟩ := read.strtol (by decide) (by omega)
    have size : strlen string = 8 := read.size
    simp [btStringToUuid, isUuid128, isUuid32, size, btStringToUuid32, whole, number,
      ofInt_toNat_u32]
  | uuid128 value =>
    have words := words_of_data value
    simp only [uuidText] at same words
    obtain ⟨s₀, t₀, split, same₀, rest⟩ := List.map_eq_append_iff.mp same
    obtain ⟨t₁, rfl, rest₁⟩ := folded_dash rest
    obtain ⟨s₁, t₂, rfl, same₁, rest₂⟩ := List.map_eq_append_iff.mp rest₁
    obtain ⟨t₃, rfl, rest₃⟩ := folded_dash rest₂
    obtain ⟨s₂, t₄, rfl, same₂, rest₄⟩ := List.map_eq_append_iff.mp rest₃
    obtain ⟨t₅, rfl, rest₅⟩ := folded_dash rest₄
    obtain ⟨s₃, t₆, rfl, same₃, rest₆⟩ := List.map_eq_append_iff.mp rest₅
    obtain ⟨t₇, rfl, rest₇⟩ := folded_dash rest₆
    obtain ⟨s₄, s₅, rfl, same₄, same₅⟩ := List.map_eq_append_iff.mp rest₇
    have last : s₅ = s₅ ++ [] := (List.append_nil s₅).symm
    have read₀ : Digits s₀ 8 (getBe32 (hton128 value) 0).toNat :=
      digits_folded (by decide) (UInt32.toNat_lt _) same₀
    have read₁ : Digits s₁ 4 (getBe16 (hton128 value) 4).toNat :=
      digits_folded (by decide) (UInt16.toNat_lt _) same₁
    have read₂ : Digits s₂ 4 (getBe16 (hton128 value) 6).toNat :=
      digits_folded (by decide) (UInt16.toNat_lt _) same₂
    have read₃ : Digits s₃ 4 (getBe16 (hton128 value) 8).toNat :=
      digits_folded (by decide) (UInt16.toNat_lt _) same₃
    have read₄ : Digits s₄ 8 (getBe32 (hton128 value) 10).toNat :=
      digits_folded (by decide) (UInt32.toNat_lt _) same₄
    have read₅ : Digits s₅ 4 (getBe16 (hton128 value) 14).toNat :=
      digits_folded (by decide) (UInt16.toNat_lt _) same₅
    have long : isUuid128 string = true := by
      simp [isUuid128, strlen, split, read₀.size, read₁.size, read₂.size, read₃.size, read₄.size,
        read₅.size]
    rw [last] at split
    simp only [btStringToUuid, long, if_true, btStringToUuid128, split, read₀.scanHex (by decide),
      read₁.scanHex (by decide), read₂.scanHex (by decide), read₃.scanHex (by decide),
      read₄.scanHex (by decide), read₅.scanHex (by decide), scanDash_cons, Option.bind_eq_bind,
      Option.bind_some, ofInt_toNat, ofInt_toNat_u32, words, ntoh128_hton128, Option.pure_def]

theorem hexDigit_lower : ∀ n < 16, hexDigit n ≠ 0 ∧ tolower (hexDigit n) = hexDigit n := by decide

/-- A character of a UUID: a digit or a dash. -/
def Printed (c : UInt8) : Prop := c ≠ 0 ∧ tolower c = c

theorem printed_dash : Printed 0x2d := by
  constructor <;> decide

theorem hexadecimal_printed {width n : Nat} (positive : 0 < width) (small : n < Nat.pow 16 width) :
    ∀ c ∈ hexadecimal width n, Printed c := by
  intro c inside
  obtain ⟨d, digit, rfl⟩ := (hexadecimal_digits positive small).2 c inside
  exact hexDigit_lower d digit

theorem uuidText_printed (uuid : BtUuid) : ∀ c ∈ uuidText uuid, Printed c := by
  have four : ∀ word : UInt16, ∀ c ∈ hexadecimal 4 word.toNat, Printed c := fun word =>
    hexadecimal_printed (by decide) word.toNat_lt
  have eight : ∀ word : UInt32, ∀ c ∈ hexadecimal 8 word.toNat, Printed c := fun word =>
    hexadecimal_printed (by decide) word.toNat_lt
  cases uuid with
  | uuid16 value => exact four value
  | uuid32 value => exact eight value
  | uuid128 value =>
    simp only [uuidText, List.forall_mem_append, List.forall_mem_cons]
    exact ⟨eight _, printed_dash, four _, printed_dash, four _, printed_dash, four _, printed_dash,
      eight _, four _⟩

def textSize : BtUuid → Nat
  | .uuid16 _ => 4
  | .uuid32 _ => 8
  | .uuid128 _ => 36

theorem uuidText_length (uuid : BtUuid) : (uuidText uuid).length = textSize uuid := by
  have four : ∀ word : UInt16, (hexadecimal 4 word.toNat).length = 4 := fun word =>
    (hexadecimal_digits (by decide) word.toNat_lt).1
  have eight : ∀ word : UInt32, (hexadecimal 8 word.toNat).length = 8 := fun word =>
    (hexadecimal_digits (by decide) word.toNat_lt).1
  cases uuid with
  | uuid16 value => exact four value
  | uuid32 value => exact eight value
  | uuid128 value => simp only [uuidText, List.length_append, List.length_cons, four, eight, textSize]

theorem textSize_le (uuid : BtUuid) : textSize uuid ≤ 36 := by
  cases uuid <;> simp [textSize]

/-- `bt_uuid_to_string` into `n` characters. -/
def btUuidToString (uuid : BtUuid) (n : Nat) : CString where
  chars := (uuidText uuid).take (n - 1)
  terminated := fun zero => (uuidText_printed uuid 0 (List.mem_of_mem_take zero)).1 rfl

def maxLenUuidStr : Nat := 37

theorem btUuidToString_chars (uuid : BtUuid) :
    (btUuidToString uuid (maxLenUuidStr + 1)).chars = uuidText uuid := by
  refine List.take_of_length_le ?_
  rw [uuidText_length]
  exact Nat.le_trans (textSize_le uuid) (by decide)

theorem uuidText_lower (uuid : BtUuid) : (uuidText uuid).map tolower = uuidText uuid := by
  refine (List.map_congr_left fun c inside => ?_).trans (List.map_id _)
  exact (uuidText_printed uuid c inside).2

def btUuidStrcmp (a b : CString) : Int := strcasecmp a b

theorem tolower_nonzero : ∀ b < 256, tolower (UInt8.ofNat b) = 0 → UInt8.ofNat b = 0 := by
  decide +kernel

theorem folded_terminated (s : CString) : 0 ∉ s.chars.map tolower := by
  intro zero
  obtain ⟨c, inside, folded⟩ := List.mem_map.mp zero
  have ends := tolower_nonzero c.toNat c.toNat_lt
  rw [UInt8.ofNat_toNat] at ends
  exact s.terminated (ends folded ▸ inside)

theorem strncasecmp_eq_zero {s t : CString} {n : Nat} : strncasecmp s t n = 0 ↔
    (s.chars.map tolower).take n = (t.chars.map tolower).take n := by
  rw [strncasecmp, compareChars_map (by decide)]
  exact compareChars_eq_zero (folded_terminated s) (folded_terminated t)

theorem strcasecmp_eq_zero {s t : CString} :
    strcasecmp s t = 0 ↔ s.chars.map tolower = t.chars.map tolower := by
  rw [strcasecmp, strncasecmp_eq_zero]
  constructor
  · intro fronts
    have size := congrArg List.length fronts
    simp only [List.length_take, List.length_map, strlen] at size
    rwa [List.take_of_length_le (by simp [strlen]), List.take_of_length_le (by simp [strlen]; omega)]
      at fronts
  · intro same
    rw [same]

/-- Any spelling of the text of a UUID, in upper or lower case, is read as that UUID. -/
theorem uuid_text_read {uuid : BtUuid} {string : CString}
    (same : btUuidStrcmp string (btUuidToString uuid (maxLenUuidStr + 1)) = 0) :
    btStringToUuid string = some uuid := by
  have folded := strcasecmp_eq_zero.mp same
  rw [btUuidToString_chars, uuidText_lower] at folded
  exact btStringToUuid_folded folded

theorem uuid_text_read_deviceName :
    btStringToUuid (CString.literal "2A00") = some (.uuid16 0x2a00) :=
  uuid_text_read (by decide +kernel)

end AnkiDrive
