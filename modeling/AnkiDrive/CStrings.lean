import Mathlib.Data.List.TakeWhile

/-! Strings of C, and what the command line tool uses of the C library on them. -/
namespace AnkiDrive

/-- The characters in front of the terminating zero. -/
structure CString where
  chars : List UInt8
  terminated : 0 ∉ chars
  deriving DecidableEq

def text (s : String) : List UInt8 := s.toUTF8.toList

/-- A literal ends at its first zero. -/
def CString.literal (s : String) : CString where
  chars := (text s).takeWhile (· ≠ 0)
  terminated := fun zero => by simpa using List.mem_takeWhile_imp zero

def strlen (s : CString) : Nat := s.chars.length

def compareChars (fold : UInt8 → UInt8) : Nat → List UInt8 → List UInt8 → Int
  | 0, _, _ => 0
  | n + 1, s, t =>
    let a := fold (s.headD 0)
    let b := fold (t.headD 0)
    if a ≠ b then (a.toNat : Int) - b.toNat
    else if a = 0 then 0
    else compareChars fold n s.tail t.tail

theorem compareChars_eq_zero {n : Nat} {s t : List UInt8} (left : 0 ∉ s) (right : 0 ∉ t) :
    compareChars id n s t = 0 ↔ s.take n = t.take n := by
  induction n generalizing s t with
  | zero => simp [compareChars]
  | succ n ih =>
    cases s with
    | nil =>
      cases t with
      | nil => simp [compareChars]
      | cons b t =>
        have end_first : (0 : UInt8) ≠ b := fun zero => right (zero ▸ List.mem_cons_self)
        have positive : 0 < b.toNat := Nat.pos_of_ne_zero fun zero =>
          end_first (UInt8.toNat_inj.mp zero.symm)
        simp [compareChars, end_first]
        omega
    | cons a s =>
      have goes_on : a ≠ 0 := fun zero => left (zero ▸ List.mem_cons_self)
      cases t with
      | nil =>
        have positive : 0 < a.toNat := Nat.pos_of_ne_zero fun zero =>
          goes_on (UInt8.toNat_inj.mp zero)
        simp [compareChars, goes_on]
        omega
      | cons b t =>
        by_cases same : a = b
        · subst same
          have rest := @ih s t (fun zero => left (List.mem_cons_of_mem a zero))
            fun zero => right (List.mem_cons_of_mem a zero)
          simpa [compareChars, goes_on] using rest
        · have apart : a.toNat ≠ b.toNat := fun equal => same (UInt8.toNat_inj.mp equal)
          simp [compareChars, same]
          omega

def tolower (c : UInt8) : UInt8 := if 0x41 ≤ c ∧ c ≤ 0x5a then c + 0x20 else c

def strncmp (s t : CString) (n : Nat) : Int := compareChars id n s.chars t.chars

theorem strncmp_eq_zero {s t : CString} {n : Nat} :
    strncmp s t n = 0 ↔ s.chars.take n = t.chars.take n :=
  compareChars_eq_zero s.terminated t.terminated

def strcmp (s t : CString) : Int := strncmp s t (strlen s + 1)

def strncasecmp (s t : CString) (n : Nat) : Int := compareChars tolower n s.chars t.chars

def strcasecmp (s t : CString) : Int := strncasecmp s t (strlen s + 1)

def isspace (c : UInt8) : Bool := c = 0x20 ∨ (0x09 ≤ c ∧ c ≤ 0x0d)

def digitOf (c : UInt8) : Option Nat :=
  if 0x30 ≤ c ∧ c ≤ 0x39 then some (c.toNat - 0x30)
  else if 0x41 ≤ c ∧ c ≤ 0x5a then some (c.toNat - 0x41 + 10)
  else if 0x61 ≤ c ∧ c ≤ 0x7a then some (c.toNat - 0x61 + 10)
  else none

def isDigit (base : Nat) (c : UInt8) : Bool := (digitOf c).any (· < base)

def digitsValue (base : Nat) (s : List UInt8) : Nat :=
  (s.takeWhile (isDigit base)).foldl (fun n c => n * base + (digitOf c).getD 0) 0

/-- Base 0 reads the base off the number; a `0x` only counts in front of a digit. -/
def magnitude (base : Nat) (s : List UInt8) : Nat :=
  match s with
  | 0x30 :: x :: d :: rest =>
    if (base = 0 ∨ base = 16) ∧ tolower x = 0x78 ∧ isDigit 16 d then digitsValue 16 (d :: rest)
    else if base = 0 then digitsValue 8 s
    else digitsValue base s
  | 0x30 :: _ => if base = 0 then digitsValue 8 s else digitsValue base s
  | _ => if base = 0 then digitsValue 10 s else digitsValue base s

/-- The number a string starts with, of any size. -/
def numberIn (base : Nat) (s : List UInt8) : Int :=
  match s.dropWhile isspace with
  | 0x2d :: rest => -magnitude base rest
  | 0x2b :: rest => magnitude base rest
  | rest => magnitude base rest

/-- `strtol` and `strtoll`, for a `long` of 64 bits. -/
def strtol (base : Nat) (s : List UInt8) : Int :=
  max (-0x8000000000000000) (min 0x7fffffffffffffff (numberIn base s))

/-- `errno` after `strtol`: the number is out of range. -/
def strtolFails (base : Nat) (s : List UInt8) : Bool := strtol base s ≠ numberIn base s

def atoi (s : CString) : Int32 := Int32.ofInt (strtol 10 s.chars)

example : atoi (CString.literal " -70000x") = -70000 := by decide +kernel

def decimal (n : Int) : List UInt8 := text (toString n)

def hexadecimal (width n : Nat) : List UInt8 :=
  let digits := text (String.ofList (Nat.toDigits 16 n))
  List.replicate (width - digits.length) 0x30 ++ digits

def leftAligned (width : Nat) (s : List UInt8) : List UInt8 :=
  s ++ List.replicate (width - s.length) 0x20

end AnkiDrive
