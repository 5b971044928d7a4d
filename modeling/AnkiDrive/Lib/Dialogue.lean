import Mathlib.Data.List.Basic
import Mathlib.Tactic.Common

/-! Dialogues: one end asks and is called back with each answer, until it has its result. The
other end has a state, and there may be several answers that it can give. -/
namespace CModel

/-- What an end does next. -/
inductive Turn (α σ ρ : Type) where
  | ask (request : α) (s : σ)
  | done (result : ρ)

section Dialogue

variable {α β σ ρ τ : Type} (answers : τ → α → β → τ → Prop) (next : σ → β → Turn α σ ρ)

/-- However the other end answers, the dialogue ends, and with a result as it should be. -/
inductive EndsIn (P : τ → ρ → Prop) : τ → Turn α σ ρ → Prop where
  | done {t : τ} {result : ρ} (holds : P t result) : EndsIn P t (.done result)
  | ask {t : τ} {request : α} {s : σ}
      (more : ∀ answer t', answers t request answer t' → EndsIn P t' (next s answer)) :
      EndsIn P t (.ask request s)

variable {answers next} {P Q : τ → ρ → Prop}

theorem EndsIn.mono {t : τ} {turn : Turn α σ ρ} (ends : EndsIn answers next P t turn)
    (weaker : ∀ t result, P t result → Q t result) : EndsIn answers next Q t turn := by
  induction ends with
  | done holds => exact .done (weaker _ _ holds)
  | ask _ ih => exact .ask ih

theorem EndsIn.of_ranked (I : Nat → τ → Turn α σ ρ → Prop)
    (finish : ∀ n t result, I n t (.done result) → P t result)
    (step : ∀ n t request s answer t', I n t (.ask request s) → answers t request answer t' →
      ∃ m < n, I m t' (next s answer))
    {n : Nat} {t : τ} {turn : Turn α σ ρ} (start : I n t turn) : EndsIn answers next P t turn := by
  induction n using Nat.strongRecOn generalizing t turn with
  | ind n ih =>
    cases turn with
    | done result => exact .done (finish n t result start)
    | ask request s =>
      refine .ask fun answer t' answered => ?_
      obtain ⟨m, lower, kept⟩ := step n t request s answer t' start answered
      exact ih m lower kept

theorem EndsIn.of_invariant (I : τ → Turn α σ ρ → Prop) (variant : τ → Turn α σ ρ → Nat)
    (finish : ∀ t result, I t (.done result) → P t result)
    (step : ∀ t request s answer t', I t (.ask request s) → answers t request answer t' →
      I t' (next s answer) ∧ variant t' (next s answer) < variant t (.ask request s))
    {t : τ} {turn : Turn α σ ρ} (start : I t turn) : EndsIn answers next P t turn := by
  apply EndsIn.of_ranked (fun n t turn => I t turn ∧ variant t turn = n)
  · exact fun _ t result held => finish t result held.1
  · rintro n t request s answer t' ⟨held, rfl⟩ answered
    obtain ⟨kept, lower⟩ := step t request s answer t' held answered
    exact ⟨_, lower, kept, rfl⟩
  · exact ⟨start, rfl⟩

/-- The dialogue with an end that always gives one answer; `none` when the turns run out. -/
def runDialogue (next : σ → β → Turn α σ ρ) (serve : τ → α → β × τ) :
    Nat → τ → Turn α σ ρ → Option (τ × ρ)
  | _, t, .done result => some (t, result)
  | 0, _, .ask _ _ => none
  | fuel + 1, t, .ask request s =>
    let (answer, t) := serve t request
    runDialogue next serve fuel t (next s answer)

theorem EndsIn.run {serve : τ → α → β × τ}
    (serves : ∀ t request, answers t request (serve t request).1 (serve t request).2) {t : τ}
    {turn : Turn α σ ρ} (ends : EndsIn answers next P t turn) :
    ∃ fuel t' result, runDialogue next serve fuel t turn = some (t', result) ∧ P t' result := by
  induction ends with
  | @done t result holds => exact ⟨0, t, result, rfl, holds⟩
  | @ask t request s _ ih =>
    obtain ⟨fuel, t', result, ran, holds⟩ := ih _ _ (serves t request)
    exact ⟨fuel + 1, t', result, ran, holds⟩

end Dialogue

end CModel
