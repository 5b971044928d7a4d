import Mathlib.Data.List.Basic
import Mathlib.Tactic.Common

/-! Formats: bytes cut into records of one length, and decoders that are told apart by a key. -/
namespace CModel

section Chunks

variable {α : Type}

def chunks (l : Nat) : Nat → List α → List (List α)
  | 0, _ => []
  | num + 1, xs => xs.take l :: chunks l num (xs.drop l)

variable {l num : Nat} {xs rest : List α} {data : List (List α)}

@[simp] theorem chunks_length : (chunks l num xs).length = num := by
  induction num generalizing xs with
  | zero => rfl
  | succ num ih => exact congrArg (· + 1) ih

theorem chunks_sized (inside : num * l ≤ xs.length) : ∀ d ∈ chunks l num xs, d.length = l := by
  induction num generalizing xs with
  | zero => exact fun _ mem => absurd mem List.not_mem_nil
  | succ num ih =>
    rw [Nat.succ_mul] at inside
    refine List.forall_mem_cons.mpr ⟨?_, ih ?_⟩
    · rw [List.length_take]
      omega
    · rw [List.length_drop]
      omega

theorem flatten_length (sized : ∀ d ∈ data, d.length = l) :
    data.flatten.length = data.length * l := by
  induction data with
  | nil => simp
  | cons d data ih =>
    rw [List.forall_mem_cons] at sized
    rw [List.flatten_cons, List.length_append, sized.1, ih sized.2, List.length_cons, Nat.succ_mul,
      Nat.add_comm]

theorem chunks_flatten (sized : ∀ d ∈ data, d.length = l) :
    chunks l data.length (data.flatten ++ rest) = data := by
  induction data with
  | nil => rfl
  | cons d data ih =>
    rw [List.forall_mem_cons] at sized
    obtain ⟨rfl, sized⟩ := sized
    simp only [List.length_cons, chunks, List.flatten_cons, List.append_assoc, List.take_left',
      List.drop_left', ih sized]

theorem chunks_take {m : Nat} (inside : num * l ≤ m) : chunks l num (xs.take m) = chunks l num xs := by
  induction num generalizing xs m with
  | zero => rfl
  | succ num ih =>
    rw [Nat.succ_mul] at inside
    have first : min l m = l := by omega
    have rest : (xs.take m).drop l = (xs.drop l).take (m - l) := List.drop_take
    simp only [chunks, List.take_take, first, rest]
    rw [ih (by omega)]

theorem chunks_front (sized : ∀ d ∈ data, d.length = l) (inside : num ≤ data.length) :
    chunks l num data.flatten = data.take num := by
  have front : (data.take num).length = num := List.length_take_of_le inside
  have whole := @chunks_flatten α l (data.drop num).flatten (data.take num)
    fun d old => sized d (List.mem_of_mem_take old)
  rwa [← List.flatten_append, List.take_append_drop, front] at whole

end Chunks

/-- Of keyed functions that take nothing but their own key, the one with the key decides. -/
theorem filterMap_keyed {κ α β : Type} {key : κ} {x : α} {f : α → Option β}
    {fs : List (κ × (α → Option β))} (distinct : (fs.map (·.1)).Nodup)
    (others : ∀ d ∈ fs, key ≠ d.1 → d.2 x = none) (inside : (key, f) ∈ fs) :
    fs.filterMap (fun d => d.2 x) = (f x).toList := by
  induction fs with
  | nil => cases inside
  | cons d fs ih =>
    rw [List.map_cons, List.nodup_cons] at distinct
    rw [List.forall_mem_cons] at others
    rcases List.mem_cons.mp inside with rfl | later
    · have rest : fs.filterMap (fun d => d.2 x) = [] := by
        refine List.filterMap_eq_nil_iff.mpr fun e mem => others.2 e mem fun same => ?_
        exact distinct.1 (List.mem_map.mpr ⟨e, mem, same.symm⟩)
      cases found : f x <;> simp [found, rest]
    · have apart : key ≠ d.1 := fun same =>
        distinct.1 (List.mem_map.mpr ⟨(key, f), later, same⟩)
      simpa [List.filterMap_cons, others.1 apart] using ih distinct.2 others.2 later

end CModel
