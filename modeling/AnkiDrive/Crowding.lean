import AnkiDrive.Doubling

/-! How long the chains get. A bucket may hold ten items for every unit of its multiplier and
ten more; while expansion is not inhibited, the multipliers together stay within the number
of buckets, so that a table has at most twenty items for each of its buckets. -/
namespace AnkiDrive
open CModel

/-- The length at which an addition to the bucket expands the table. -/
def HashBucket.threshold (b : HashBucket) : Nat := (b.expandMult + 1) * hashBktCapacityThresh

/-- A bucket within its threshold; only one that was never crowded is full. -/
structure HashBucket.Fits (b : HashBucket) : Prop where
  within : b.count ≤ b.threshold
  full : b.count = b.threshold → b.expandMult = 0

def multSum (bs : List HashBucket) : Nat := (bs.map HashBucket.expandMult).sum

def countSum (bs : List HashBucket) : Nat := (bs.map HashBucket.count).sum

structure Roomy (tbl : HashTable) : Prop where
  fits : tbl.noexpand ≠ 1 → ∀ b ∈ tbl.buckets, b.Fits
  mults : tbl.noexpand ≠ 1 → multSum tbl.buckets ≤ tbl.numBuckets

variable {bs : List HashBucket} {b : HashBucket} {n k m ideal : Nat} {hh : Handles}
  {items : List Ptr} {chains : Nat → List Ptr} {tbl : HashTable}

theorem Filed.countSum_eq (filed : Filed hh bs n items chains) (power : n = 2 ^ k) :
    countSum bs = items.length := by
  have counts : bs.map HashBucket.count = ((List.range n).map chains).map List.length := by
    apply List.ext_getElem
    · simp [filed.length]
    · intro i inside _
      have within : i < bs.length := by simpa using inside
      have counted := (filed.holds i (filed.length ▸ within)).counted
      simpa [List.getD_eq_getElem?_getD, within] using counted
  rw [countSum, counts, ← List.length_flatten]
  exact (filed.flatten_perm power).length_eq

theorem countSum_le (fits : ∀ b ∈ bs, b.Fits) :
    countSum bs ≤ 10 * (multSum bs + bs.length) ∧
      (countSum bs = 10 * (multSum bs + bs.length) → multSum bs = 0) := by
  induction bs with
  | nil => exact ⟨Nat.le_refl _, fun _ => rfl⟩
  | cons b bs ih =>
    obtain ⟨within, full⟩ := fits b List.mem_cons_self
    obtain ⟨below, equal⟩ := ih fun c inside => fits c (List.mem_cons_of_mem b inside)
    simp only [HashBucket.threshold, hashBktCapacityThresh] at within full
    simp only [countSum, multSum, List.map_cons, List.sum_cons, List.length_cons] at below equal ⊢
    constructor
    · omega
    · intro all
      have first := full (by omega)
      have rest := equal (by omega)
      omega

/-- The item that makes a table expand leaves it with at most twenty for each bucket. -/
theorem items_le (fits : ∀ b ∈ bs, b.Fits) (mults : multSum bs ≤ bs.length) (nonempty : 0 < bs.length) :
    countSum bs + 1 ≤ 20 * bs.length := by
  obtain ⟨below, equal⟩ := countSum_le fits
  by_cases all : countSum bs = 10 * (multSum bs + bs.length)
  · have zero := equal all
    omega
  · omega

theorem multOf_mul_le (ideal count : Nat) : ideal * multOf ideal count ≤ count := by
  unfold multOf
  split
  · exact Nat.mul_div_le count ideal
  · exact Nat.zero_le _

theorem multSum_le (mults : ∀ b ∈ bs, b.expandMult = multOf ideal b.count) :
    ideal * multSum bs ≤ countSum bs := by
  induction bs with
  | nil => exact Nat.zero_le _
  | cons b bs ih =>
    have first := multOf_mul_le ideal b.count
    have rest := ih fun c inside => mults c (List.mem_cons_of_mem b inside)
    rw [← mults b List.mem_cons_self] at first
    simp only [countSum, multSum, List.map_cons, List.sum_cons] at rest ⊢
    rw [Nat.mul_add]
    omega

theorem fits_multOf (mults : b.expandMult = multOf ideal b.count) (positive : 0 < ideal)
    (few : ideal ≤ 10) : b.Fits := by
  by_cases crowded : ideal < b.count
  · have mult : b.expandMult = b.count / ideal := by
      rw [mults, multOf, if_pos crowded]
    have below : b.count < (b.expandMult + 1) * ideal := by
      rw [mult, Nat.mul_comm]
      exact Nat.lt_mul_div_succ b.count positive
    have wide : (b.expandMult + 1) * ideal ≤ b.threshold := Nat.mul_le_mul_left _ few
    exact ⟨by omega, fun full => by omega⟩
  · have mult : b.expandMult = 0 := by
      rw [mults, multOf, if_neg crowded]
    refine ⟨?_, fun _ => mult⟩
    simp only [HashBucket.threshold, hashBktCapacityThresh, mult]
    omega

theorem mem_buckets_iff (bs : List HashBucket) :
    b ∈ bs ↔ ∃ i < bs.length, bs.getD i HashBucket.zero = b := by
  rw [List.mem_iff_getElem]
  constructor
  · rintro ⟨i, inside, rfl⟩
    exact ⟨i, inside, by simp [List.getD_eq_getElem?_getD, inside]⟩
  · rintro ⟨i, inside, rfl⟩
    exact ⟨i, inside, by simp [List.getD_eq_getElem?_getD, inside]⟩

theorem multSum_set {i : Nat}
    (same : b.expandMult = (bs.getD i HashBucket.zero).expandMult) :
    multSum (bs.set i b) = multSum bs := by
  rw [multSum, List.map_set, same]
  by_cases inside : i < bs.length
  · have mapped : i < (bs.map HashBucket.expandMult).length := by simpa using inside
    have here : (bs.getD i HashBucket.zero).expandMult = (bs.map HashBucket.expandMult)[i] := by
      simp [List.getD_eq_getElem?_getD, inside]
    rw [here, List.set_getElem_self]
    rfl
  · rw [List.set_eq_of_length_le (by simpa using inside)]
    rfl

theorem Roomy.set {tail : Option Ptr} {i : Nat} (roomy : Roomy tbl)
    (same : b.expandMult = (tbl.buckets.getD i HashBucket.zero).expandMult)
    (fits : tbl.noexpand ≠ 1 → b.Fits) :
    Roomy { tbl with buckets := tbl.buckets.set i b, numItems := m, tail := tail } := by
  constructor
  · intro going c inside
    rcases List.mem_or_eq_of_mem_set inside with old | rfl
    · exact roomy.fits going c old
    · exact fits going
  · intro going
    have kept := multSum_set same
    exact kept.symm ▸ roomy.mults going

theorem Expanded.roomy {hh' : Handles} {tbl' : HashTable} (expanded : Expanded hh tbl items hh' tbl')
    (power : tbl.numBuckets = 2 ^ tbl.log2NumBuckets) (nonempty : 0 < tbl.numItems)
    (counted : tbl.numItems = items.length) (few : tbl.numItems ≤ 20 * tbl.numBuckets) :
    Roomy tbl' := by
  obtain ⟨chains, filed⟩ := expanded.filed
  obtain ⟨above, below⟩ := idealOf_bounds (n := tbl.numBuckets) (m := tbl.numItems) power
  have mults : ∀ b ∈ tbl'.buckets, b.expandMult =
      multOf (idealOf tbl.numItems tbl.numBuckets tbl.log2NumBuckets) b.count := by
    intro b inside
    obtain ⟨i, within, rfl⟩ := (mem_buckets_iff _).mp inside
    exact expanded.mults i (filed.length ▸ within)
  generalize idealOf tbl.numItems tbl.numBuckets tbl.log2NumBuckets = ideal at above below mults
  have positive : 0 < ideal := by
    rcases Nat.eq_zero_or_pos ideal with rfl | positive
    · omega
    · exact positive
  have buckets : 0 < tbl.numBuckets := power ▸ Nat.two_pow_pos _
  have small : ideal ≤ 10 := by
    by_contra large
    have product : 11 * (tbl.numBuckets * 2) ≤ ideal * (tbl.numBuckets * 2) :=
      Nat.mul_le_mul_right _ (by omega)
    omega
  refine ⟨fun _ b inside => fits_multOf (mults b inside) positive small, fun _ => ?_⟩
  have twice : tbl'.numBuckets = 2 ^ tbl'.log2NumBuckets := by
    rw [expanded.numBuckets, expanded.log2NumBuckets, power, Nat.pow_succ]
  have total := multSum_le mults
  rw [filed.countSum_eq twice, ← counted] at total
  rw [expanded.numBuckets]
  exact Nat.le_of_mul_le_mul_left (Nat.le_trans total above) positive

end AnkiDrive
