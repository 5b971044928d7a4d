import Mathlib.Tactic.Common

/-! Bytes as text: two upper-case hexadecimal digits for each byte, and a separator between
one byte and the next. -/
namespace CModel

namespace Hex

def upperDigit (n : Nat) : UInt8 := UInt8.ofNat (if n < 10 then 0x30 + n else 0x37 + n)

def digitValue (c : UInt8) : Option Nat :=
  if 0x30 ≤ c ∧ c ≤ 0x39 then some (c.toNat - 0x30)
  else if 0x41 ≤ c ∧ c ≤ 0x46 then some (c.toNat - 0x37)
  else none

def pair (b : UInt8) : List UInt8 := [upperDigit (b.toNat / 16), upperDigit (b.toNat % 16)]

def pairValue (high low : UInt8) : Option UInt8 :=
  match digitValue high, digitValue low with
  | some h, some l => some (UInt8.ofNat (16 * h + l))
  | _, _ => none

def render (sep : UInt8) : List UInt8 → List UInt8
  | [] => []
  | [b] => pair b
  | b :: c :: bs => pair b ++ sep :: render sep (c :: bs)

def parse (sep : UInt8) : List UInt8 → Option (List UInt8)
  | [] => some []
  | [high, low] => (pairValue high low).map fun b => [b]
  | high :: low :: s :: rest =>
    if s ≠ sep ∨ rest = [] then none
    else (pairValue high low).bind fun b => (parse sep rest).map fun bs => b :: bs
  | _ => none

@[simp] theorem pair_length (b : UInt8) : (pair b).length = 2 := rfl

theorem digitValue_upperDigit : ∀ n < 16, digitValue (upperDigit n) = some n := by decide

theorem upperDigit_ne_zero : ∀ n < 16, upperDigit n ≠ 0 := by decide

theorem pairValue_pair (b : UInt8) :
    pairValue (upperDigit (b.toNat / 16)) (upperDigit (b.toNat % 16)) = some b := by
  have small := b.toNat_lt
  have high : digitValue (upperDigit (b.toNat / 16)) = some (b.toNat / 16) :=
    digitValue_upperDigit _ (by omega)
  have low : digitValue (upperDigit (b.toNat % 16)) = some (b.toNat % 16) :=
    digitValue_upperDigit _ (by omega)
  have whole : 16 * (b.toNat / 16) + b.toNat % 16 = b.toNat := Nat.div_add_mod b.toNat 16
  simp only [pairValue, high, low, whole, UInt8.ofNat_toNat]

variable {sep : UInt8}

theorem render_ne_nil {b : UInt8} {bs : List UInt8} : render sep (b :: bs) ≠ [] := by
  cases bs with
  | nil => exact List.cons_ne_nil _ _
  | cons c bs => exact List.cons_ne_nil _ _

theorem parse_render (bs : List UInt8) : parse sep (render sep bs) = some bs := by
  fun_induction render sep bs with
  | case1 => rfl
  | case2 b => simp only [pair, parse, pairValue_pair, Option.map_some]
  | case3 b c bs ih =>
    have goes_on : ¬ (sep ≠ sep ∨ render sep (c :: bs) = []) :=
      not_or.mpr ⟨not_not.mpr rfl, render_ne_nil⟩
    simp only [pair, List.cons_append, List.nil_append, parse, if_neg goes_on, pairValue_pair, ih,
      Option.bind_some, Option.map_some]

theorem render_inj {bs cs : List UInt8} : render sep bs = render sep cs ↔ bs = cs := by
  constructor
  · intro same
    have read := congrArg (parse sep) same
    simpa only [parse_render, Option.some.injEq] using read
  · rintro rfl
    rfl

theorem render_closed_length {bs : List UInt8} (some : bs ≠ []) :
    (render sep bs).length + 1 = 3 * bs.length := by
  fun_induction render sep bs with
  | case1 => exact absurd rfl some
  | case2 b => rfl
  | case3 b c bs ih =>
    have rest := ih (List.cons_ne_nil c bs)
    simp only [List.length_append, pair_length, List.length_cons] at rest ⊢
    omega

theorem render_group {fin : UInt8} {bs : List UInt8} {i : Nat} (inside : i < bs.length) :
    ((render sep bs ++ [fin]).drop (3 * i)).take 3 =
      pair bs[i] ++ [if i + 1 = bs.length then fin else sep] := by
  fun_induction render sep bs generalizing i with
  | case1 => cases inside
  | case2 b =>
    obtain rfl : i = 0 := Nat.lt_one_iff.mp inside
    rfl
  | case3 b c bs ih =>
    cases i with
    | zero => simp [pair]
    | succ i =>
      have rest := @ih i (Nat.lt_of_succ_lt_succ inside)
      have skip : 3 * (i + 1) = 3 + 3 * i := by omega
      rw [skip, ← List.drop_drop]
      simpa [pair] using rest

/-- No digit is a zero, so a text without zeros in between has none. -/
theorem render_nonzero (apart : sep ≠ 0) (bs : List UInt8) : 0 ∉ render sep bs := by
  have digits : ∀ b : UInt8, 0 ∉ pair b := by
    intro b zero
    have small := b.toNat_lt
    rcases List.mem_cons.mp zero with high | low
    · exact upperDigit_ne_zero _ (by omega) high.symm
    · exact upperDigit_ne_zero _ (by omega) (List.mem_singleton.mp low).symm
  fun_induction render sep bs with
  | case1 => exact List.not_mem_nil
  | case2 b => exact digits b
  | case3 b c bs ih =>
    intro zero
    rcases List.mem_append.mp zero with front | rest
    · exact digits b front
    · rcases List.mem_cons.mp rest with same | later
      · exact apart same.symm
      · exact ih later

/-- The text as it is written from the front: every byte but the last with a separator. -/
theorem render_concat (bs : List UInt8) (b : UInt8) :
    render sep (bs ++ [b]) = (bs.flatMap fun c => pair c ++ [sep]) ++ pair b := by
  induction bs with
  | nil => rfl
  | cons c bs ih =>
    cases bs with
    | nil => rfl
    | cons d bs =>
      simp only [List.cons_append, render, List.flatMap_cons, List.append_assoc] at ih ⊢
      rw [ih]
      rfl

end Hex

end CModel
