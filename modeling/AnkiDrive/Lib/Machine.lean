import Mathlib.Data.List.Basic
import Mathlib.Tactic.Common

/-! Machines that answer an input with a new state and what they put out. A relation between
the state and the record of a run holds after every run if each input keeps it. -/
namespace CModel

section Machine

variable {σ ι ω : Type} (step : σ → ι → σ × List ω)

/-- The state after some inputs, and all that is put out. -/
def runMachine : σ → List ι → σ × List ω
  | s, [] => (s, [])
  | s, i :: is =>
    let (s, first) := step s i
    let (s, rest) := runMachine s is
    (s, first ++ rest)

variable {step}

theorem runMachine_append (s : σ) (is js : List ι) :
    runMachine step s (is ++ js) =
      ((runMachine step (runMachine step s is).1 js).1,
        (runMachine step s is).2 ++ (runMachine step (runMachine step s is).1 js).2) := by
  induction is generalizing s with
  | nil => rfl
  | cons i is ih => simp only [List.cons_append, runMachine, ih, List.append_assoc]

/-- The induction over a run, for a relation between the state and what was put out so far. -/
theorem runMachine_induct {P : σ → List ω → Prop} {ok : ι → Prop} {s : σ} {is : List ι}
    (start : P s [])
    (kept : ∀ s out i, P s out → ok i → P (step s i).1 (out ++ (step s i).2))
    (inputs : ∀ i ∈ is, ok i) : P (runMachine step s is).1 (runMachine step s is).2 := by
  have from_here : ∀ out, P s out →
      P (runMachine step s is).1 (out ++ (runMachine step s is).2) := by
    clear start
    induction is generalizing s with
    | nil =>
      intro out held
      simpa [runMachine] using held
    | cons i is ih =>
      intro out held
      have first := kept s out i held (inputs i List.mem_cons_self)
      have rest := ih (fun j later => inputs j (List.mem_cons_of_mem i later)) _ first
      simpa only [runMachine, List.append_assoc] using rest
  exact from_here [] start

theorem runMachine_invariant {P : σ → Prop} {ok : ι → Prop} {s : σ} {is : List ι} (start : P s)
    (kept : ∀ s i, P s → ok i → P (step s i).1) (inputs : ∀ i ∈ is, ok i) :
    P (runMachine step s is).1 :=
  @runMachine_induct σ ι ω step (fun s _ => P s) ok s is start (fun s _ i => kept s i) inputs

/-- A run that ends: while the rank is not zero, some input keeps the property and lowers it. -/
theorem runMachine_descends {P : σ → Prop} {ok : ι → Prop} (rank : σ → Nat)
    (descends : ∀ s, P s → rank s ≠ 0 →
      ∃ i, ok i ∧ P (step s i).1 ∧ rank (step s i).1 < rank s) {s : σ} (start : P s) :
    ∃ is : List ι, is.length ≤ rank s ∧ (∀ i ∈ is, ok i) ∧ P (runMachine step s is).1 ∧
      rank (runMachine step s is).1 = 0 := by
  generalize bound : rank s = n
  induction n using Nat.strongRecOn generalizing s with
  | ind n ih =>
    by_cases done : n = 0
    · exact ⟨[], Nat.zero_le n, fun _ inside => absurd inside List.not_mem_nil, start,
        bound.trans done⟩
    · obtain ⟨i, allowed, kept, lower⟩ := descends s start fun zero => done (bound.symm.trans zero)
      obtain ⟨is, short, rest, held, zero⟩ := ih _ (bound ▸ lower) kept rfl
      refine ⟨i :: is, ?_, List.forall_mem_cons.mpr ⟨allowed, rest⟩, held, zero⟩
      rw [List.length_cons]
      omega

end Machine

end CModel
