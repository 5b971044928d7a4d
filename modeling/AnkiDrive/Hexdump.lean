import AnkiDrive.BytesToHex

/-! The rows of `hexdump`. Every row is made from the whole of `value`, and is put where the
first bytes of the row buffer, which have just been cleared, point to. -/
namespace AnkiDrive
open CModel

/-- A call with a byte string that is apart from the row buffer. -/
structure HexdumpCall where
  stack : Memory
  mem : Memory
  s : Nat
  placed : s ≠ 0
  prefixText : CString
  columnLen : UInt64
  positive : columnLen ≠ 0
  value : Nat
  len : UInt64
  apart : value + len.toNat ≤ s ∨ s + (columnLen * 3).toNat ≤ value

namespace HexdumpCall

variable (call : HexdumpCall)

def slen : Nat := (call.columnLen * 3).toNat

def rows : Option (List Row) :=
  hexdump call.stack call.mem call.s (some call.prefixText) call.columnLen call.value call.len

def bytes : List UInt8 := slice call.mem call.value call.len.toNat

/-- Nothing of the row goes past the row buffer. -/
def Inside (row : Row) : Prop :=
  ∀ move ∈ row.moves, call.s ≤ move.dst ∧ move.dst + move.bytes.length ≤ call.s + call.slen

/-- The rows are parts of the byte string, one after the other. -/
def ShowsEveryByte : Prop :=
  ∃ (rows : List Row) (parts : List (List UInt8)), call.rows = some rows ∧
    rows.map (fun row => Hex.parse 0x20 row.shown) = parts.map some ∧
    parts.flatten = call.bytes ∧ (∀ part ∈ parts, part.length ≤ call.columnLen.toNat) ∧
    ∀ row ∈ rows, call.Inside row

/-- The memory after the `memset`. -/
def cleared : Memory := call.mem.fill call.s 0 call.slen

/-- What `bytes_to_hex` finds at `&s`. -/
def passed : Nat := loadPointer call.cleared call.s

def rowCount : Nat := ((call.len / call.columnLen + 1).toUInt32.toInt32).toInt.toNat

theorem rows_eq : call.rows = hexdump.rows call.stack call.prefixText call.s call.slen call.value
    call.len call.rowCount call.mem := by
  simp only [rows, hexdump, if_neg call.positive]
  rfl

theorem cleared_bytes : slice call.cleared call.value call.len.toNat = call.bytes := by
  apply Memory.slice_write_apart call.mem
  simpa only [List.length_replicate, slen] using call.apart

theorem cleared_zero (i : Nat) (inside : i < call.slen) : call.cleared (call.s + i) = 0 := by
  have written := @Memory.write_inside call.mem call.s i (List.replicate call.slen 0)
    (by simpa only [List.length_replicate] using inside)
  exact written.trans (List.getElem_replicate _)

end HexdumpCall

section Buffer

variable (m : Memory) {s size : Nat}

theorem stringAt_text {bs : List UInt8} (room : (hexText bs).length ≤ size) :
    stringAt (m.write s (hexText bs)) s size = some (Hex.render 0x20 bs) := by
  have held := Memory.slice_write_front m s size (hexText bs) room
  have zero : 0 ∈ slice (m.write s (hexText bs)) s size := by
    rw [held]
    simp [hexText]
  have digits : ∀ c ∈ Hex.render 0x20 bs, decide (c ≠ 0) = true := by
    intro c found
    exact decide_eq_true fun null => Hex.render_nonzero (by decide) bs (null ▸ found)
  rw [stringAt, if_pos zero, held, hexText, List.append_assoc,
    List.takeWhile_append_of_pos digits]
  simp

theorem stringAt_empty {shown : List UInt8} (zero : m s = 0) (found : stringAt m s size = some shown) :
    shown = [] := by
  cases size with
  | zero => simp [stringAt] at found
  | succ size =>
    simpa [stringAt, slice_succ, zero] using found.symm

end Buffer

theorem rowCount_small {q : UInt64} (small : q.toNat < 0x7fffffff) :
    ((q + 1).toUInt32.toInt32).toInt.toNat = q.toNat + 1 := by
  have counted : (q + 1).toNat = q.toNat + 1 := by
    simp only [UInt64.toNat_add, UInt64.reduceToNat]
    omega
  have word : (q + 1).toUInt32.toNat = q.toNat + 1 := by
    simp only [UInt64.toNat_toUInt32, counted]
    omega
  have signed : (q + 1).toUInt32.toInt32.toInt = (q.toNat + 1 : Int) := by
    rw [← Int32.toInt_toBitVec, UInt32.toBitVec_toInt32, BitVec.toInt_eq_toNat_of_lt]
    · rw [UInt32.toNat_toBitVec, word]
      rfl
    · rw [UInt32.toNat_toBitVec, word]
      omega
  omega

namespace HexdumpCall

variable (call : HexdumpCall)

/-- What is known of every row that is printed. -/
structure Made (row : Row) : Prop where
  fits : TextFits call.len
  moves : row.moves = [⟨call.passed, hexText call.bytes⟩]
  shown : stringAt (call.cleared.write call.passed (hexText call.bytes)) call.s call.slen =
    some row.shown

theorem row_made {mem after : Memory} {row : Row}
    (cleared : mem.fill call.s 0 call.slen = call.cleared)
    (ran : hexdump.row call.stack call.prefixText call.s call.slen call.value call.len mem =
      some (after, row)) :
    call.Made row ∧ after = call.cleared.write call.passed (hexText call.bytes) := by
  simp only [hexdump.row, cleared, Option.bind_eq_bind, Option.bind_eq_some_iff, Option.pure_def,
    Option.some.injEq, Prod.mk.injEq] at ran
  obtain ⟨moves, moved, shown, found, rfl, rfl⟩ := ran
  have fits : TextFits call.len := by
    by_contra unfit
    rw [bytesToHex_overflows call.stack call.cleared call.value (some call.s) unfit] at moved
    cases moved
  rw [bytesToHex_fits call.stack call.cleared call.value (some call.s) fits, cleared_bytes] at moved
  have pointer : loadPointer call.cleared call.s = call.passed := rfl
  simp only [bytesToHex.moveOut, pointer] at moved
  split at moved
  · cases moved
  · obtain rfl := Option.some.inj moved
    simp only [List.foldl_cons, List.foldl_nil, Move.apply, and_true] at found ⊢
    exact ⟨fits, rfl, found⟩

theorem made_inside {row : Row} (made : call.Made row) (inside : call.Inside row) :
    call.s ≤ call.passed ∧ call.passed + (hexText call.bytes).length ≤ call.s + call.slen :=
  inside ⟨call.passed, hexText call.bytes⟩ (by simp only [made.moves, List.mem_singleton])

theorem cleared_again {row : Row} (made : call.Made row) (inside : call.Inside row) :
    (call.cleared.write call.passed (hexText call.bytes)).fill call.s 0 call.slen =
      call.cleared := by
  obtain ⟨starts, ends⟩ := call.made_inside made inside
  have covered : call.passed + (hexText call.bytes).length ≤
      call.s + (List.replicate call.slen (0 : UInt8)).length := by
    simpa only [List.length_replicate] using ends
  unfold Memory.fill
  rw [Memory.write_write call.cleared starts covered]
  exact Memory.write_write call.mem (Nat.le_refl _) (Nat.le_refl _)

theorem rows_made {n : Nat} {mem : Memory} {rows : List Row}
    (cleared : mem.fill call.s 0 call.slen = call.cleared)
    (ran : hexdump.rows call.stack call.prefixText call.s call.slen call.value call.len n mem =
      some rows)
    (inside : ∀ row ∈ rows, call.Inside row) :
    rows.length = n ∧ ∀ row ∈ rows, call.Made row := by
  induction n generalizing mem rows with
  | zero =>
    cases ran
    exact ⟨rfl, List.forall_mem_nil _⟩
  | succ n ih =>
    simp only [hexdump.rows, Option.bind_eq_bind, Option.bind_eq_some_iff, Option.pure_def,
      Option.some.injEq] at ran
    obtain ⟨⟨after, row⟩, first, later, others, rfl⟩ := ran
    obtain ⟨made, rfl⟩ := call.row_made cleared first
    dsimp only at others inside ⊢
    obtain ⟨here, there⟩ := List.forall_mem_cons.mp inside
    obtain ⟨count, rest⟩ := ih (call.cleared_again made here) others there
    exact ⟨congrArg Nat.succ count, List.forall_mem_cons.mpr ⟨made, rest⟩⟩

/-- A buffer that does not point to itself stays empty, and one that does holds the whole. -/
theorem made_shown {row : Row} (made : call.Made row) (inside : call.Inside row) :
    row.shown = if call.passed = call.s then Hex.render 0x20 call.bytes else [] := by
  obtain ⟨starts, ends⟩ := call.made_inside made inside
  have shown := made.shown
  by_cases here : call.passed = call.s
  · have room : (hexText call.bytes).length ≤ call.slen := by omega
    rw [here, stringAt_text call.cleared room] at shown
    rw [if_pos here]
    exact (Option.some.inj shown).symm
  · rw [if_neg here]
    have nonempty : 0 < (hexText call.bytes).length := by simp [hexText]
    have zero : call.cleared.write call.passed (hexText call.bytes) call.s = 0 := by
      rw [Memory.write_outside call.cleared (Or.inl (by omega))]
      exact call.cleared_zero 0 (by omega)
    exact stringAt_empty _ zero shown

theorem bytes_length : call.bytes.length = call.len.toNat := slice_length ..

theorem text_length (occupied : 0 < call.len.toNat) :
    (hexText call.bytes).length = 3 * call.len.toNat := by
  have nonempty : call.bytes ≠ [] := List.ne_nil_of_length_pos (call.bytes_length ▸ occupied)
  rw [hexText_length nonempty, bytes_length]

theorem rowCount_eq (small : call.len.toNat / call.columnLen.toNat < 0x7fffffff) :
    call.rowCount = call.len.toNat / call.columnLen.toNat + 1 := by
  have quotient := UInt64.toNat_div call.len call.columnLen
  rw [← quotient] at small ⊢
  exact rowCount_small small

theorem parts_alike {rows : List Row} {parts : List (List UInt8)} {shown part : List UInt8}
    (alike : ∀ row ∈ rows, row.shown = shown) (read : Hex.parse 0x20 shown = some part)
    (parsed : rows.map (fun row => Hex.parse 0x20 row.shown) = parts.map some) :
    parts = List.replicate rows.length part := by
  apply List.eq_replicate_iff.mpr
  constructor
  · have lengths := congrArg List.length parsed
    simpa only [List.length_map] using lengths.symm
  · intro found member
    have listed : some found ∈ rows.map (fun row => Hex.parse 0x20 row.shown) :=
      parsed ▸ List.mem_map_of_mem member
    obtain ⟨row, printed, same⟩ := List.mem_map.mp listed
    rw [alike row printed, read] at same
    exact (Option.some.inj same).symm

/-- One row, shorter than a row may be, in a buffer that points to itself. -/
def PointsToItself : Prop :=
  0 < call.len.toNat ∧ call.len.toNat < call.columnLen.toNat ∧
    3 * call.len.toNat ≤ call.slen ∧ call.passed = call.s

theorem rows_printed {rows : List Row} {parts : List (List UInt8)}
    (count : rows.length = call.rowCount)
    (parsed : rows.map (fun row => Hex.parse 0x20 row.shown) = parts.map some)
    (whole : parts.flatten = call.bytes) : rows ≠ [] := by
  rintro rfl
  obtain rfl := List.map_eq_nil_iff.mp parsed.symm
  have empty : call.len.toNat = 0 := by
    rw [← bytes_length, ← whole]
    rfl
  have one := call.rowCount_eq (by simp [empty])
  simp only [List.length_nil, empty, Nat.zero_div] at count one
  omega

/-- The whole, once in every row, is the whole only if there is one row. -/
theorem single_row {n : Nat} (occupied : 0 < call.len.toNat)
    (whole : (List.replicate n call.bytes).flatten = call.bytes) : n = 1 := by
  have total := congrArg List.length whole
  rw [List.length_flatten, List.map_replicate, List.sum_replicate_nat, bytes_length] at total
  exact Nat.eq_of_mul_eq_mul_right occupied (total.trans (Nat.one_mul _).symm)

theorem shorter_of_single (occupied : 0 < call.len.toNat)
    (short : call.len.toNat ≤ call.columnLen.toNat) (single : call.rowCount = 1) :
    call.len.toNat < call.columnLen.toNat := by
  have positive : 0 < call.columnLen.toNat := Nat.lt_of_lt_of_le occupied short
  have quotient : call.len.toNat / call.columnLen.toNat ≤ 1 := Nat.div_le_of_le_mul (by omega)
  have turns := call.rowCount_eq (by omega)
  exact (Nat.div_eq_zero_iff_lt positive).mp (by omega)

theorem pointsToItself_of_shows (shows : call.ShowsEveryByte) : call.PointsToItself := by
  obtain ⟨rows, parts, ran, parsed, whole, narrow, inside⟩ := shows
  rw [rows_eq] at ran
  obtain ⟨count, made⟩ := call.rows_made rfl ran inside
  obtain ⟨row, printed⟩ :=
    List.exists_mem_of_ne_nil rows (call.rows_printed count parsed whole)
  have occupied := (made row printed).fits.1
  by_cases here : call.passed = call.s
  · have alike : ∀ row ∈ rows, row.shown = Hex.render 0x20 call.bytes := by
      intro row printed
      rw [call.made_shown (made row printed) (inside row printed), if_pos here]
    have copies := parts_alike alike (Hex.parse_render call.bytes) parsed
    have single := call.single_row occupied (copies ▸ whole)
    have short := narrow call.bytes (copies ▸ List.mem_replicate.mpr ⟨by omega, rfl⟩)
    rw [bytes_length] at short
    have below := call.shorter_of_single occupied short (count.symm.trans single)
    obtain ⟨-, ends⟩ := call.made_inside (made row printed) (inside row printed)
    rw [call.text_length occupied, here] at ends
    exact ⟨occupied, below, by omega, here⟩
  · have alike : ∀ row ∈ rows, row.shown = [] := by
      intro row printed
      rw [call.made_shown (made row printed) (inside row printed), if_neg here]
    have copies := @parts_alike rows parts [] [] alike rfl parsed
    have nothing : call.bytes.length = 0 := by
      rw [← whole, copies, List.flatten_replicate_nil, List.length_nil]
    rw [bytes_length] at nothing
    omega

theorem shows_of_pointsToItself (right : call.PointsToItself) : call.ShowsEveryByte := by
  obtain ⟨occupied, below, room, here⟩ := right
  have counted := (call.columnLen * 3).toNat_lt
  have fits : TextFits call.len := ⟨occupied, Nat.lt_of_le_of_lt room counted⟩
  have quotient : call.len.toNat / call.columnLen.toNat = 0 := Nat.div_eq_of_lt below
  have turns : call.rowCount = 1 := by
    rw [call.rowCount_eq (by omega), quotient]
  have size := call.text_length occupied
  have shown := @stringAt_text call.cleared call.s call.slen call.bytes (by omega)
  have pointer : loadPointer call.cleared call.s = call.s := here
  have moved : bytesToHex call.stack call.cleared call.value call.len (some call.s) =
      some [⟨call.s, hexText call.bytes⟩] := by
    rw [bytesToHex_fits call.stack call.cleared call.value (some call.s) fits, cleared_bytes]
    simp only [bytesToHex.moveOut, pointer, if_neg call.placed]
  have ran : call.rows = some [⟨[⟨call.s, hexText call.bytes⟩], Hex.render 0x20 call.bytes,
      call.prefixText.chars ++ text " " ++ Hex.render 0x20 call.bytes ++ text "\n"⟩] := by
    have cleared : call.mem.fill call.s 0 call.slen = call.cleared := rfl
    simp only [rows_eq, turns, hexdump.rows, hexdump.row, cleared, moved, shown,
      Option.bind_eq_bind, Option.bind_some, List.foldl_cons, List.foldl_nil, Move.apply,
      Option.pure_def]
  refine ⟨_, [call.bytes], ran, ?_, ?_, ?_, ?_⟩
  · simp only [List.map_cons, List.map_nil, Hex.parse_render]
  · simp only [List.flatten_cons, List.flatten_nil, List.append_nil]
  · intro part member
    rw [List.mem_singleton.mp member, bytes_length]
    exact Nat.le_of_lt below
  · intro row printed move member
    obtain rfl := List.mem_singleton.mp printed
    obtain rfl := List.mem_singleton.mp member
    dsimp only
    omega

/-- With three columns or more the pointer is made of zeros only, and no row is printed. -/
theorem rows_null (wide : 8 ≤ call.slen) (turns : 0 < call.rowCount) : call.rows = none := by
  have null : loadPointer call.cleared call.s = 0 := by
    have zeros : slice call.cleared call.s 8 = List.replicate 8 0 :=
      slice_eq_replicate fun i inside => call.cleared_zero i (by omega)
    rw [loadPointer, zeros]
    rfl
  obtain ⟨n, again⟩ := Nat.exists_eq_add_of_le' turns
  have cleared : call.mem.fill call.s 0 call.slen = call.cleared := rfl
  simp only [rows_eq, again, hexdump.rows, hexdump.row, cleared, Option.bind_eq_bind]
  by_cases fits : TextFits call.len
  · rw [bytesToHex_fits _ _ _ _ fits, bytesToHex.moveOut, if_pos null]
    rfl
  · rw [bytesToHex_overflows _ _ _ _ fits]
    rfl

/-- No address of 48 bits can be read from a buffer that begins with six zeros. -/
theorem nothing_shown_right (canonical : call.s < 0x1000000000000)
    (counted : 3 * call.columnLen.toNat < 0x10000000000000000) : ¬ call.ShowsEveryByte := by
  intro shows
  obtain ⟨occupied, below, -, here⟩ := call.pointsToItself_of_shows shows
  have placed := call.placed
  have size : call.slen = 3 * call.columnLen.toNat := by
    simp only [slen, UInt64.toNat_mul, UInt64.reduceToNat]
    omega
  have zeros : slice call.cleared call.s 6 = List.replicate 6 0 :=
    slice_eq_replicate fun i inside => call.cleared_zero i (by omega)
  have split : slice call.cleared call.s 8 = List.replicate 6 0 ++ slice call.cleared (call.s + 6) 2 := by
    rw [← zeros]
    exact slice_append call.cleared call.s 6 2
  have pointer : call.passed = 0x1000000000000 *
      ((slice call.cleared (call.s + 6) 2).foldr (fun b n => b.toNat + 256 * n) 0) := by
    rw [passed, loadPointer, split, List.foldr_append]
    simp only [List.replicate_succ, List.replicate_zero, List.foldr_cons, List.foldr_nil,
      UInt8.toNat_zero]
    omega
  omega

end HexdumpCall

/-- The whole is shown once only if the row buffer points to itself. -/
theorem hexdump_shows_every_byte_iff (call : HexdumpCall) : call.ShowsEveryByte ↔
    0 < call.len.toNat ∧ call.len.toNat < call.columnLen.toNat ∧
      3 * call.len.toNat ≤ (call.columnLen * 3).toNat ∧
      loadPointer (call.mem.fill call.s 0 (call.columnLen * 3).toNat) call.s = call.s :=
  ⟨call.pointsToItself_of_shows, call.shows_of_pointsToItself⟩

def threeOfEighty : HexdumpCall where
  stack := ofBytes []
  mem := ofBytes [0x00, 0x9a, 0xff]
  s := 0x1000
  placed := by decide
  prefixText := CString.literal "data: "
  columnLen := 80
  positive := by decide
  value := 0
  len := 3
  apart := by decide

theorem three_bytes_not_dumped : ¬ threeOfEighty.ShowsEveryByte := by
  rintro ⟨rows, parts, ran, -⟩
  have null : threeOfEighty.rows = none := by decide +kernel
  rw [null] at ran
  cases ran

/-- One byte in a buffer of six, and the address of the buffer behind its zeros. -/
def oneOfTwo : HexdumpCall where
  stack := ofBytes []
  mem a := if a = 0x1000000000006 then 1 else 0
  s := 0x1000000000000
  placed := by decide
  prefixText := CString.literal "data: "
  columnLen := 2
  positive := by decide
  value := 0
  len := 1
  apart := by decide

theorem one_byte_dumped : oneOfTwo.ShowsEveryByte :=
  (hexdump_shows_every_byte_iff oneOfTwo).mpr (by decide +kernel)

end AnkiDrive
