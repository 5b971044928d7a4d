import Mathlib.Data.List.GetD
import Mathlib.Logic.Function.Basic
import Mathlib.Tactic.Common

/-! Byte memory as a C program sees it: a byte at every offset, runs of bytes
copied in, and little-endian words read back. Offsets are relative to the object
a pointer points to, so an offset past the object is a neighbour's byte. -/
namespace CModel

abbrev Memory := Nat → UInt8

def slice (m : Memory) (p k : Nat) : List UInt8 := (List.range' p k).map m

@[simp] theorem slice_length (m : Memory) (p k : Nat) : (slice m p k).length = k := by
  simp [slice]

@[simp] theorem slice_zero (m : Memory) (p : Nat) : slice m p 0 = [] := rfl

theorem slice_succ (m : Memory) (p k : Nat) : slice m p (k + 1) = m p :: slice m (p + 1) k := rfl

theorem slice_getElem (m : Memory) (p k i : Nat) (h : i < (slice m p k).length) :
    (slice m p k)[i] = m (p + i) := by
  simp [slice]

theorem slice_append (m : Memory) (p j k : Nat) :
    slice m p (j + k) = slice m p j ++ slice m (p + j) k := by
  simp only [slice, ← List.map_append, List.range'_append_1]

theorem slice_take (m : Memory) (p : Nat) {j k : Nat} (front : j ≤ k) :
    (slice m p k).take j = slice m p j := by
  obtain ⟨rest, rfl⟩ := Nat.exists_eq_add_of_le front
  rw [slice_append, List.take_left' (slice_length ..)]

theorem slice_drop (m : Memory) (p k j : Nat) : (slice m p k).drop j = slice m (p + j) (k - j) := by
  simp [slice, ← List.map_drop, List.drop_range']

theorem slice_shift (m : Memory) (b p k : Nat) :
    slice (fun a => m (b + a)) p k = slice m (b + p) k := by
  induction k generalizing p with
  | zero => rfl
  | succ k ih => simp only [slice_succ, ih, Nat.add_assoc]

theorem slice_congr {m m' : Memory} {p k : Nat} (agree : ∀ a, p ≤ a → a < p + k → m a = m' a) :
    slice m p k = slice m' p k := by
  apply List.map_congr_left
  intro a ha
  have bounds := List.mem_range'_1.mp ha
  exact agree a bounds.1 bounds.2

theorem slice_eq_iff {m m' : Memory} {p p' k : Nat} :
    slice m p k = slice m' p' k ↔ ∀ i < k, m (p + i) = m' (p' + i) := by
  constructor
  · intro same i hi
    have left := slice_getElem m p k i (by simpa using hi)
    have right := slice_getElem m' p' k i (by simpa using hi)
    rw [← left, ← right]
    simp only [same]
  · intro agree
    apply List.ext_getElem (by simp)
    intro i hi _
    rw [slice_getElem, slice_getElem]
    exact agree i (by simpa using hi)

theorem slice_eq_replicate {m : Memory} {p k : Nat} {b : UInt8} (all : ∀ i < k, m (p + i) = b) :
    slice m p k = List.replicate k b := by
  apply List.ext_getElem (by simp)
  intro i hi _
  rw [slice_getElem, List.getElem_replicate]
  exact all i (by simpa using hi)

/-- The memory that holds `bs` from offset 0 on, and zeros behind them. -/
def ofBytes (bs : List UInt8) : Memory := fun a => bs.getD a 0

theorem slice_ofBytes_take {bs : List UInt8} {k : Nat} (short : k ≤ bs.length) :
    slice (ofBytes bs) 0 k = bs.take k := by
  apply List.ext_getElem (by simp [short])
  intro i hi _
  rw [slice_length] at hi
  rw [slice_getElem, Nat.zero_add, List.getElem_take]
  exact List.getD_eq_getElem bs 0 (by omega)

@[simp] theorem slice_ofBytes (bs : List UInt8) : slice (ofBytes bs) 0 bs.length = bs := by
  rw [slice_ofBytes_take (Nat.le_refl _), List.take_length]

namespace Memory

/-- `memmove(p, bs, sizeof bs)`, and every multi-byte store. -/
def write (m : Memory) (p : Nat) (bs : List UInt8) : Memory :=
  fun a => if p ≤ a ∧ a < p + bs.length then bs.getD (a - p) 0 else m a

def fill (m : Memory) (p : Nat) (b : UInt8) (k : Nat) : Memory := m.write p (List.replicate k b)

def store (m : Memory) (p : Nat) (b : UInt8) : Memory := m.write p [b]

@[simp] theorem store_same (m : Memory) (p : Nat) (b : UInt8) : m.store p b p = b := by
  simp [store, write]

@[simp] theorem store_other (m : Memory) {p a : Nat} (b : UInt8) (other : a ≠ p) :
    m.store p b a = m a := by
  have miss : ¬ (p ≤ a ∧ a < p + 1) := by omega
  simp only [store, write, List.length_singleton, if_neg miss]

theorem write_outside (m : Memory) {p a : Nat} {bs : List UInt8}
    (out : a < p ∨ p + bs.length ≤ a) : m.write p bs a = m a := by
  have miss : ¬ (p ≤ a ∧ a < p + bs.length) := by omega
  simp only [write, if_neg miss]

theorem write_inside (m : Memory) {p i : Nat} {bs : List UInt8} (h : i < bs.length) :
    m.write p bs (p + i) = bs[i] := by
  have hit : p ≤ p + i ∧ p + i < p + bs.length := by omega
  simp only [write, if_pos hit, Nat.add_sub_cancel_left]
  exact List.getD_eq_getElem bs 0 h

theorem write_append (m : Memory) (p : Nat) (bs cs : List UInt8) :
    m.write p (bs ++ cs) = (m.write p bs).write (p + bs.length) cs := by
  funext a
  simp only [write, List.length_append]
  by_cases low : p ≤ a ∧ a < p + bs.length
  · rw [if_pos (by omega), if_neg (by omega), if_pos low, List.getD_append _ _ _ _ (by omega)]
  · by_cases high : p + bs.length ≤ a ∧ a < p + bs.length + cs.length
    · rw [if_pos (by omega), if_pos high, List.getD_append_right _ _ _ _ (by omega)]
      congr 1
      omega
    · rw [if_neg (by omega), if_neg high, if_neg low]

/-- Two adjacent runs written back to front. -/
theorem write_prepend (m : Memory) (p : Nat) (bs cs : List UInt8) :
    (m.write (p + bs.length) cs).write p bs = m.write p (bs ++ cs) := by
  rw [write_append]
  funext a
  simp only [write]
  by_cases low : p ≤ a ∧ a < p + bs.length
  · rw [if_pos low, if_neg (by omega), if_pos low]
  · rw [if_neg low, if_neg low]

/-- Nothing is left of a run that is written over. -/
theorem write_write (m : Memory) {p q : Nat} {bs cs : List UInt8} (starts : p ≤ q)
    (covers : q + bs.length ≤ p + cs.length) : (m.write q bs).write p cs = m.write p cs := by
  funext a
  by_cases hit : p ≤ a ∧ a < p + cs.length
  · simp only [write, if_pos hit]
  · have miss : ¬ (q ≤ a ∧ a < q + bs.length) := by omega
    simp only [write, if_neg hit, if_neg miss]

theorem slice_write_same (m : Memory) (p : Nat) (bs : List UInt8) :
    slice (m.write p bs) p bs.length = bs := by
  apply List.ext_getElem (by simp)
  intro i hi hb
  rw [slice_getElem, write_inside m hb]

theorem slice_write_apart (m : Memory) {p q k : Nat} {bs : List UInt8}
    (apart : q + k ≤ p ∨ p + bs.length ≤ q) : slice (m.write p bs) q k = slice m q k := by
  apply slice_congr
  intro a lo hi
  exact write_outside m (by omega)

theorem slice_write_front (m : Memory) (p k : Nat) (bs : List UInt8) (fits : bs.length ≤ k) :
    slice (m.write p bs) p k = bs ++ (slice m p k).drop bs.length := by
  obtain ⟨rest, rfl⟩ := Nat.exists_eq_add_of_le fits
  rw [slice_append, slice_append, slice_write_same, slice_write_apart m (Or.inr (Nat.le_refl _)),
    List.drop_left' (by simp)]

end Memory

def memcmp : List UInt8 → List UInt8 → Int
  | a :: as, b :: bs => if a = b then memcmp as bs else (a.toNat : Int) - b.toNat
  | _, _ => 0

theorem memcmp_eq_zero {as bs : List UInt8} (size : as.length = bs.length) :
    memcmp as bs = 0 ↔ as = bs := by
  induction as generalizing bs with
  | nil =>
    cases bs with
    | nil => simp [memcmp]
    | cons b bs => cases size
  | cons a as ih =>
    cases bs with
    | nil => cases size
    | cons b bs =>
      by_cases same : a = b
      · subst same
        simp only [memcmp, if_pos, List.cons.injEq, true_and]
        exact ih (by simpa using size)
      · have apart : a.toNat ≠ b.toNat := fun h => same (UInt8.toNat_inj.mp h)
        have differ : (a.toNat : Int) - b.toNat ≠ 0 := by omega
        simp [memcmp, same, differ]

def word16 (lo hi : UInt8) : UInt16 := lo.toUInt16 ||| hi.toUInt16 <<< 8

def word32 (b0 b1 b2 b3 : UInt8) : UInt32 :=
  b0.toUInt32 ||| b1.toUInt32 <<< 8 ||| b2.toUInt32 <<< 16 ||| b3.toUInt32 <<< 24

def le16 (v : UInt16) : List UInt8 := [v.toUInt8, (v >>> 8).toUInt8]

def le32 (v : UInt32) : List UInt8 :=
  [v.toUInt8, (v >>> 8).toUInt8, (v >>> 16).toUInt8, (v >>> 24).toUInt8]

def be16 (v : UInt16) : List UInt8 := (le16 v).reverse

def be32 (v : UInt32) : List UInt8 := (le32 v).reverse

theorem le16_word16 (lo hi : UInt8) : le16 (word16 lo hi) = [lo, hi] := by
  have low : (word16 lo hi).toUInt8 = lo := by
    rw [← UInt8.toBitVec_inj]
    apply BitVec.eq_of_getLsbD_eq
    intro i h
    simp [word16]
  have high : (word16 lo hi >>> 8).toUInt8 = hi := by
    rw [← UInt8.toBitVec_inj]
    apply BitVec.eq_of_getLsbD_eq
    intro i h
    simp [word16]
    grind
  rw [le16, low, high]

theorem word16_le16 (v : UInt16) : word16 v.toUInt8 (v >>> 8).toUInt8 = v := by
  rw [← UInt16.toBitVec_inj]
  apply BitVec.eq_of_getLsbD_eq
  intro i h
  simp [word16, -UInt16.toUInt16_toUInt8]
  grind

theorem le32_word32 (b0 b1 b2 b3 : UInt8) : le32 (word32 b0 b1 b2 b3) = [b0, b1, b2, b3] := by
  simp only [le32, List.cons.injEq, and_true]
  refine ⟨?_, ?_, ?_, ?_⟩ <;> rw [← UInt8.toBitVec_inj] <;> apply BitVec.eq_of_getLsbD_eq <;>
    intro i h <;> simp [word32] <;> grind

theorem word32_le32 (v : UInt32) :
    word32 v.toUInt8 (v >>> 8).toUInt8 (v >>> 16).toUInt8 (v >>> 24).toUInt8 = v := by
  rw [← UInt32.toBitVec_inj]
  apply BitVec.eq_of_getLsbD_eq
  intro i h
  simp [word32, -UInt32.toUInt32_toUInt8]
  grind

namespace Memory

def load16 (m : Memory) (p : Nat) : UInt16 := word16 (m p) (m (p + 1))

def store16 (m : Memory) (p : Nat) (v : UInt16) : Memory := m.write p (le16 v)

def load32 (m : Memory) (p : Nat) : UInt32 := word32 (m p) (m (p + 1)) (m (p + 2)) (m (p + 3))

def store32 (m : Memory) (p : Nat) (v : UInt32) : Memory := m.write p (le32 v)

/-- Assignment to a one-bit bit-field, bit `k` of byte `p`. -/
def storeBit (m : Memory) (p k : Nat) (b : Bool) : Memory :=
  m.store p (if b then m p ||| 1 <<< UInt8.ofNat k else m p &&& ~~~(1 <<< UInt8.ofNat k))

def loadBit (m : Memory) (p k : Nat) : Bool := (m p).toBitVec.getLsbD k

theorem load16_eq {m : Memory} {p : Nat} {v : UInt16} (held : slice m p 2 = le16 v) :
    m.load16 p = v := by
  simp only [slice, le16, List.range'_succ, List.range'_zero, List.map_cons, List.map_nil,
    List.cons.injEq] at held
  rw [load16, held.1, held.2.1, word16_le16]

end Memory

end CModel
