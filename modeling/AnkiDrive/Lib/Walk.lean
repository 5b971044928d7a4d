import AnkiDrive.Lib.Query
import AnkiDrive.Lib.Records

/-! Walking over length-type-value records: a length byte, a type byte, a visit of the
record, and on by the length. The walk ends at the end of the buffer, at a zero length byte,
at a zero type byte, or when a visit says so. -/
namespace CModel

variable {σ ρ : Type}

/-- `visit type len p s` handles the record of length byte `len` whose payload starts at `p`;
an error is the result of the whole walk. -/
def walk (visit : UInt8 → UInt8 → Nat → σ → Query Nat UInt8 (Except ρ σ)) (finish : σ → ρ)
    (n : Nat) (s : σ) (i : Nat) : Query Nat UInt8 ρ :=
  if _h : i < n then do
    let len ← Query.read i
    if len = 0 then return finish s
    let type ← Query.read (i + 1)
    if type = 0 then return finish s
    let visited ← visit type len (i + 2) s
    match visited with
    | .error result => return result
    | .ok s => walk visit finish n s (i + 1 + len.toNat)
  else return finish s
termination_by n - i

section Rounds

variable (visit : UInt8 → UInt8 → Nat → σ → Query Nat UInt8 (Except ρ σ)) (finish : σ → ρ)
  {data : Memory} {n i : Nat}

theorem walk_done (s : σ) (h : n ≤ i) : walk visit finish n s i = pure (finish s) := by
  rw [walk, dif_neg (by omega)]

theorem walk_unfold (s : σ) (h : i < n) :
    walk visit finish n s i = Query.read i >>= fun len =>
      if len = 0 then pure (finish s) else Query.read (i + 1) >>= fun type =>
        if type = 0 then pure (finish s) else visit type len (i + 2) s >>= fun visited =>
          match visited with
          | .error result => pure result
          | .ok s => walk visit finish n s (i + 1 + len.toNat) := by
  rw [walk, dif_pos h]

theorem walk_record_run (s : σ) (h : i < n) (counted : data i ≠ 0) (typed : data (i + 1) ≠ 0) :
    (walk visit finish n s i).run data =
      match (visit (data (i + 1)) (data i) (i + 2) s).run data with
      | .error result => result
      | .ok s => (walk visit finish n s (i + 1 + (data i).toNat)).run data := by
  rw [walk_unfold visit finish s h, Query.run_read_bind, if_neg counted, Query.run_read_bind,
    if_neg typed, Query.run_bind]
  cases (visit (data (i + 1)) (data i) (i + 2) s).run data with
  | error result => rfl
  | ok s => rfl

theorem walk_end_run (s : σ) (ended : n ≤ i ∨ data i = 0 ∨ data (i + 1) = 0) :
    (walk visit finish n s i).run data = finish s := by
  by_cases h : i < n
  · rw [walk_unfold visit finish s h, Query.run_read_bind]
    by_cases counted : data i = 0
    · rw [if_pos counted]
      rfl
    · rcases ended with out | zero | zero
      · omega
      · exact absurd zero counted
      · rw [if_neg counted, Query.run_read_bind, if_pos zero]
        rfl
  · rw [walk_done visit finish s (by omega)]
    rfl

theorem walk_record_asked (s : σ) (h : i < n) (counted : data i ≠ 0) (typed : data (i + 1) ≠ 0) :
    (walk visit finish n s i).asked data = i :: (i + 1) ::
      ((visit (data (i + 1)) (data i) (i + 2) s).asked data ++
        match (visit (data (i + 1)) (data i) (i + 2) s).run data with
        | .error _ => []
        | .ok s => (walk visit finish n s (i + 1 + (data i).toNat)).asked data) := by
  rw [walk_unfold visit finish s h, Query.asked_read_bind, if_neg counted, Query.asked_read_bind,
    if_neg typed, Query.asked_bind]
  cases (visit (data (i + 1)) (data i) (i + 2) s).run data with
  | error result => rfl
  | ok s => rfl

theorem walk_invalid_asked (s : σ) (h : i < n) (counted : data i ≠ 0) (invalid : data (i + 1) = 0) :
    (walk visit finish n s i).asked data = [i, i + 1] := by
  rw [walk_unfold visit finish s h, Query.asked_read_bind, if_neg counted, Query.asked_read_bind,
    if_pos invalid]
  rfl

theorem walk_zero_asked (s : σ) (h : i < n) (zero : data i = 0) :
    (walk visit finish n s i).asked data = [i] := by
  rw [walk_unfold visit finish s h, Query.asked_read_bind, if_pos zero]
  rfl

end Rounds

/-- The walk from index `i` looks below `n` only, when the visit of a record at `i` looks at
the first `need i` bytes of its payload and the walk ends there if `stops i`. -/
def WalkInside (data : Memory) (n : Nat) (need : Nat → Nat) (stops : Nat → Prop) (i : Nat) : Prop :=
  if i < n then
    data i = 0 ∨ i + 2 ≤ n ∧ (data (i + 1) = 0 ∨ i + 2 + need i ≤ n ∧
      (stops i ∨ WalkInside data n need stops (i + 1 + (data i).toNat)))
  else True
termination_by n - i

section Inside

variable {data : Memory} {n i : Nat} {need : Nat → Nat} {stops : Nat → Prop}

theorem walkInside_done (h : n ≤ i) : WalkInside data n need stops i := by
  rw [WalkInside, if_neg (by omega)]
  trivial

theorem walkInside_zero (h : data i = 0) : WalkInside data n need stops i := by
  rw [WalkInside]
  simp [h]

theorem walkInside_invalid (h : i < n) (counted : data i ≠ 0) (invalid : data (i + 1) = 0) :
    WalkInside data n need stops i ↔ i + 2 ≤ n := by
  rw [WalkInside, if_pos h]
  simp [counted, invalid]

theorem walkInside_record (h : i < n) (counted : data i ≠ 0) (typed : data (i + 1) ≠ 0) :
    WalkInside data n need stops i ↔ i + 2 + need i ≤ n ∧
      (stops i ∨ WalkInside data n need stops (i + 1 + (data i).toNat)) := by
  rw [WalkInside, if_pos h]
  simp only [counted, typed, false_or]
  constructor
  · exact fun inside => inside.2
  · exact fun inside => ⟨by omega, inside⟩

theorem inside_walk (inside : Inside data n i) (enough : ∀ i, need i ≤ (data i).toNat - 1) :
    WalkInside data n need stops i := by
  induction inside with
  | done h => exact walkInside_done h
  | zero _ zero => exact walkInside_zero zero
  | invalid h counted invalid =>
    exact (walkInside_invalid (by omega) counted invalid).mpr (by omega)
  | @record i counted typed fits _ ih =>
    have pos := length_pos counted
    have least := enough i
    exact (walkInside_record (by omega) counted typed).mpr ⟨by omega, Or.inr ih⟩

/-- What a visit must satisfy for `need` and `stops` to describe it, in states that `P`. -/
structure Visits (visit : UInt8 → UInt8 → Nat → σ → Query Nat UInt8 (Except ρ σ)) (data : Memory)
    (n : Nat) (need : Nat → Nat) (stops : Nat → Prop) (P : σ → Prop) : Prop where
  below : ∀ i s, P s → i + 2 ≤ n → data i ≠ 0 → data (i + 1) ≠ 0 →
    ((∀ j ∈ (visit (data (i + 1)) (data i) (i + 2) s).asked data, j < n) ↔ i + 2 + need i ≤ n)
  stopped : ∀ i s, P s → data i ≠ 0 → data (i + 1) ≠ 0 → ∀ result,
    (visit (data (i + 1)) (data i) (i + 2) s).run data = .error result → stops i
  goes : ∀ i s, P s → data i ≠ 0 → data (i + 1) ≠ 0 → ∀ t,
    (visit (data (i + 1)) (data i) (i + 2) s).run data = .ok t → ¬ stops i ∧ P t

theorem walk_below_iff {visit : UInt8 → UInt8 → Nat → σ → Query Nat UInt8 (Except ρ σ)}
    {P : σ → Prop} (visits : Visits visit data n need stops P) (finish : σ → ρ) (i : Nat) {s : σ}
    (held : P s) :
    (∀ j ∈ (walk visit finish n s i).asked data, j < n) ↔ WalkInside data n need stops i := by
  fun_induction decode data n i generalizing s with
  | case1 i h zero =>
    rw [walk_zero_asked visit finish s h zero]
    simpa [walkInside_zero zero] using h
  | case2 i h counted typed ih =>
    have rest : (∀ j ∈ (match (visit (data (i + 1)) (data i) (i + 2) s).run data with
        | .error _ => []
        | .ok s => (walk visit finish n s (i + 1 + (data i).toNat)).asked data), j < n) ↔
        (stops i ∨ WalkInside data n need stops (i + 1 + (data i).toNat)) := by
      cases outcome : (visit (data (i + 1)) (data i) (i + 2) s).run data with
      | error result =>
        have stop := visits.stopped i s held counted typed result outcome
        simp [stop]
      | ok t =>
        obtain ⟨goes, kept⟩ := visits.goes i s held counted typed t outcome
        simp only [goes, false_or]
        exact ih kept
    rw [walk_record_asked visit finish s h counted typed, walkInside_record h counted typed,
      List.forall_mem_cons, List.forall_mem_cons, List.forall_mem_append, rest]
    constructor
    · rintro ⟨_, start, payload, rest⟩
      exact ⟨(visits.below i s held (by omega) counted typed).mp payload, rest⟩
    · rintro ⟨payload, rest⟩
      have start : i + 2 ≤ n := by omega
      exact ⟨h, by omega, (visits.below i s held start counted typed).mpr payload, rest⟩
  | case3 i h counted invalid =>
    have zero : data (i + 1) = 0 := by simpa using invalid
    rw [walk_invalid_asked visit finish s h counted zero, walkInside_invalid h counted zero]
    simp
    omega
  | case4 i h =>
    rw [walk_done visit finish s (by omega)]
    simp [walkInside_done (Nat.le_of_not_lt h)]

end Inside

end CModel
