import AnkiDrive.AnkiUtil
import AnkiDrive.Lib.Hex

/-! What `bytes_to_hex` makes of a byte string, for every length for which the array it is
made in has the size it is meant to have, and that there is nothing to be had for any other. -/
namespace AnkiDrive
open CModel

def hexText (bs : List UInt8) : List UInt8 := Hex.render 0x20 bs ++ [0]

theorem hexText_length {bs : List UInt8} (some : bs ≠ []) :
    (hexText bs).length = 3 * bs.length := by
  simp only [hexText, List.length_append, List.length_singleton]
  exact Hex.render_closed_length some

theorem hex_digits : ∀ n < 16, hex.chars.getD n 0 = Hex.upperDigit n := by decide +kernel

theorem hexChar_eq (b : UInt8) : hexChar b = Hex.upperDigit (b.toNat % 16) := by
  have low : (b &&& 0xf).toNat = b.toNat % 16 := by
    rw [UInt8.toNat_and]
    exact Nat.and_two_pow_sub_one_eq_mod b.toNat 4
  rw [hexChar, low]
  exact hex_digits _ (Nat.mod_lt _ (by decide))

theorem hexChar_high (b : UInt8) : hexChar (b >>> 4) = Hex.upperDigit (b.toNat / 16) := by
  have small := b.toNat_lt
  have high : (b >>> 4).toNat = b.toNat / 16 := by
    rw [UInt8.toNat_shiftRight]
    exact Nat.shiftRight_eq_div_pow b.toNat 4
  rw [hexChar_eq, high, Nat.mod_eq_of_lt (by omega)]

section Loop

variable (mem : Memory) {size : Nat}

theorem put_inside {bytes s : Nat} (str : Memory) (c : UInt8) (room : s + 3 ≤ size) :
    bytesToHex.put mem size bytes s str c = some (str.write s (Hex.pair (mem bytes) ++ [c])) := by
  have first : s < size := by omega
  have second : s + 1 < size := by omega
  have third : s + 2 < size := by omega
  have three : ∀ a b : UInt8, ((str.store s a).store (s + 1) b).store (s + 2) c =
      str.write s [a, b, c] := by
    intro a b
    have two : (str.store s a).store (s + 1) b = str.write s [a, b] :=
      (Memory.write_append str s [a] [b]).symm
    rw [two]
    exact (Memory.write_append str s [a, b] [c]).symm
  simp only [bytesToHex.put, putChar, if_pos first, if_pos second, if_pos third,
    Option.bind_eq_bind, Option.bind_some, three]
  rw [hexChar_high, hexChar_eq]
  rfl

theorem put_outside {bytes s : Nat} (str : Memory) (c : UInt8) (full : size < s + 3) :
    bytesToHex.put mem size bytes s str c = none := by
  have third : ¬ s + 2 < size := by omega
  simp only [bytesToHex.put, putChar, if_neg third, Option.bind_eq_bind]
  split
  · simp
  · rfl

theorem loop_inside {n bytes s : Nat} {str : Memory} (room : s + 3 * n ≤ size) :
    bytesToHex.loop mem size n bytes s str = some (bytes + n, s + 3 * n,
      str.write s ((slice mem bytes n).flatMap fun b => Hex.pair b ++ [0x20])) := by
  induction n generalizing bytes s str with
  | zero =>
    have nothing : str.write s [] = str := by
      funext a
      exact Memory.write_outside str (by simp only [List.length_nil]; omega)
    simp only [bytesToHex.loop, slice_zero, List.flatMap_nil, nothing]
    rfl
  | succ n ih =>
    simp only [bytesToHex.loop, put_inside mem str 0x20 (by omega : s + 3 ≤ size),
      Option.bind_eq_bind, Option.bind_some, slice_succ, List.flatMap_cons]
    have group : s + (Hex.pair (mem bytes) ++ [0x20]).length = s + 3 := rfl
    rw [ih (by omega), Memory.write_append str s (Hex.pair (mem bytes) ++ [0x20]), group]
    simp only [Option.some.injEq, Prod.mk.injEq, and_true]
    exact ⟨by omega, by omega⟩

theorem loop_outside {n bytes s : Nat} {str : Memory} (start : s ≤ size)
    (exceeds : size < s + 3 * n) : bytesToHex.loop mem size n bytes s str = none := by
  induction n generalizing bytes s str with
  | zero => omega
  | succ n ih =>
    simp only [bytesToHex.loop, Option.bind_eq_bind]
    rcases Nat.lt_or_ge size (s + 3) with full | room
    · rw [put_outside mem str 0x20 full, Option.bind_none]
    · rw [put_inside mem str 0x20 room, Option.bind_some]
      exact ih room (by omega)

end Loop

/-- There is a byte, and the size of the text can be counted. -/
def TextFits (len : UInt64) : Prop := 0 < len.toNat ∧ 3 * len.toNat < 0x10000000000000000

instance : DecidablePred TextFits := fun _ => inferInstanceAs (Decidable (_ ∧ _))

section Whole

variable (stack mem : Memory) (value : Nat) {len : UInt64} (output : Option Nat)

theorem slice_last (p n : Nat) : slice mem p (n + 1) = slice mem p n ++ [mem (p + n)] :=
  slice_append mem p n 1

theorem bytesToHex_fits (fits : TextFits len) : bytesToHex stack mem value len output =
    bytesToHex.moveOut mem (hexText (slice mem value len.toNat)) output := by
  obtain ⟨occupied, counted⟩ := fits
  obtain ⟨n, size⟩ := Nat.exists_eq_add_of_le' occupied
  have bufferLen : (len * 3).toNat = 3 * n + 3 := by
    simp only [UInt64.toNat_mul, UInt64.reduceToNat]
    omega
  have turns : (len - 1).toNat = n := by
    rw [UInt64.toNat_sub_of_le len 1 (UInt64.le_iff_toNat_le.mpr occupied), size]
    rfl
  have loop := @loop_inside mem (3 * n + 3) n value 0 (stack.fill 0 0 (3 * n + 3)) (by omega)
  have last := @put_inside mem (3 * n + 3) (value + n) (0 + 3 * n)
    ((stack.fill 0 0 (3 * n + 3)).write 0
      ((slice mem value n).flatMap fun b => Hex.pair b ++ [0x20])) 0 (by omega)
  have whole : hexText (slice mem value len.toNat) =
      ((slice mem value n).flatMap fun b => Hex.pair b ++ [0x20]) ++
        (Hex.pair (mem (value + n)) ++ [0]) := by
    rw [hexText, size, slice_last, Hex.render_concat, List.append_assoc]
  have long : (hexText (slice mem value len.toNat)).length = 3 * n + 3 := by
    have nonempty : slice mem value len.toNat ≠ [] := List.ne_nil_of_length_pos (by simp [size])
    rw [hexText_length nonempty, slice_length, size]
    rfl
  have front : (((slice mem value n).flatMap fun b => Hex.pair b ++ [0x20])).length = 3 * n := by
    rw [whole, List.length_append] at long
    exact Nat.add_right_cancel long
  simp only [bytesToHex, bufferLen, turns, loop, last, Option.bind_eq_bind, Option.bind_some]
  have at_end := Memory.write_append (stack.fill 0 0 (3 * n + 3)) 0
    ((slice mem value n).flatMap fun b => Hex.pair b ++ [0x20]) (Hex.pair (mem (value + n)) ++ [0])
  rw [front, ← whole] at at_end
  rw [← at_end, ← long, Memory.slice_write_same]

/-- A length of zero goes round the counter once, and a length whose text cannot be counted
has an array that is too small. -/
theorem bytesToHex_overflows (unfit : ¬ TextFits len) :
    bytesToHex stack mem value len output = none := by
  have below := len.toNat_lt
  have room : (len * 3).toNat = len.toNat * 3 % 0x10000000000000000 := by
    simp only [UInt64.toNat_mul, UInt64.reduceToNat]
  have turns : (len - 1).toNat = (0x10000000000000000 - 1 + len.toNat) % 0x10000000000000000 := by
    simp only [UInt64.toNat_sub, UInt64.reduceToNat]
  simp only [TextFits, not_and_or] at unfit
  simp only [bytesToHex, Option.bind_eq_bind]
  rcases Nat.lt_or_ge (len * 3).toNat (0 + 3 * (len - 1).toNat) with short | enough
  · rw [loop_outside mem (Nat.zero_le _) short, Option.bind_none]
  · have full : (len * 3).toNat < 0 + 3 * (len - 1).toNat + 3 := by omega
    rw [loop_inside mem enough, Option.bind_some, put_outside mem _ 0 full, Option.bind_none]

end Whole

/-- A call with a byte string and an output buffer that has room for its text. -/
structure HexCall (bs : List UInt8) where
  stack : Memory
  mem : Memory
  value : Nat
  held : slice mem value bs.length = bs
  output : Nat
  pointed : loadPointer mem output ≠ 0
  room : UInt64
  long : 3 * bs.length ≤ room.toNat

def HexCall.moves {bs : List UInt8} (call : HexCall bs) : Option (List Move) :=
  bytesToHex call.stack call.mem call.value (UInt64.ofNat bs.length) (some call.output)

/-- Two upper-case digits for each byte, a space between one byte and the next, and the only
zero behind the last. -/
structure Renders (text bs : List UInt8) : Prop where
  size : text.length = 3 * bs.length
  groups : ∀ i, ∀ inside : i < bs.length, (text.drop (3 * i)).take 3 =
    [Hex.upperDigit (bs[i].toNat / 16), Hex.upperDigit (bs[i].toNat % 16),
      if i + 1 = bs.length then 0 else 0x20]
  ends : text.getLast? = some 0
  inside : 0 ∉ text.dropLast
  decodes : Hex.parse 0x20 text.dropLast = some bs

theorem hexText_renders {bs : List UInt8} (some : bs ≠ []) : Renders (hexText bs) bs where
  size := hexText_length some
  groups _ inside := Hex.render_group inside
  ends := List.getLast?_concat
  inside := by
    simp only [hexText, List.dropLast_concat]
    exact Hex.render_nonzero (by decide) bs
  decodes := by
    simp only [hexText, List.dropLast_concat]
    exact Hex.parse_render bs

theorem hexText_inj {bs cs : List UInt8} : hexText bs = hexText cs ↔ bs = cs := by
  simp only [hexText, List.append_cancel_right_eq]
  exact Hex.render_inj

theorem HexCall.moves_eq {bs : List UInt8} (call : HexCall bs) (nonempty : bs ≠ []) :
    call.moves = some [⟨loadPointer call.mem call.output, hexText bs⟩] := by
  obtain ⟨stack, mem, value, held, output, pointed, room, long⟩ := call
  have below := room.toNat_lt
  have short : bs.length ≤ room.toNat := by omega
  have counted : (UInt64.ofNat bs.length).toNat = bs.length :=
    UInt64.toNat_ofNat_of_lt' (Nat.lt_of_le_of_lt short below)
  have occupied : 0 < bs.length := List.length_pos_iff.mpr nonempty
  have fits : TextFits (UInt64.ofNat bs.length) := by
    simp only [TextFits, counted]
    omega
  simp only [HexCall.moves, bytesToHex_fits stack mem value (some output) fits, counted, held,
    bytesToHex.moveOut, if_neg pointed]

/-- What is moved to the output buffer is the text of the byte string, which no other byte
string of any length has. -/
theorem bytes_to_hex_invertible {bs : List UInt8} (nonempty : bs ≠ []) (call : HexCall bs) :
    ∃ text, call.moves = some [⟨loadPointer call.mem call.output, text⟩] ∧ Renders text bs ∧
      ∀ (cs : List UInt8) (other : HexCall cs) (dst : Nat), cs ≠ [] →
        other.moves = some [⟨dst, text⟩] → cs = bs := by
  refine ⟨hexText bs, call.moves_eq nonempty, hexText_renders nonempty, ?_⟩
  intro cs other dst filled same
  rw [other.moves_eq filled] at same
  simp only [Option.some.injEq, List.cons.injEq, Move.mk.injEq, and_true] at same
  exact hexText_inj.mp same.2

def threeBytes : HexCall [0x00, 0x9a, 0xff] where
  stack := ofBytes []
  mem := ofBytes [0x00, 0x9a, 0xff, 64]
  value := 0
  held := by decide
  output := 3
  pointed := by decide
  room := 9
  long := by decide

theorem three_bytes_rendered : threeBytes.moves = some [⟨64, text "00 9A FF\x00"⟩] ∧
    ∃ text, threeBytes.moves = some [⟨loadPointer threeBytes.mem threeBytes.output, text⟩] ∧
      Renders text [0x00, 0x9a, 0xff] ∧
      ∀ (cs : List UInt8) (other : HexCall cs) (dst : Nat), cs ≠ [] →
        other.moves = some [⟨dst, text⟩] → cs = [0x00, 0x9a, 0xff] :=
  ⟨by decide +kernel, bytes_to_hex_invertible (by decide) threeBytes⟩

end AnkiDrive
