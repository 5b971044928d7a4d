import Mathlib.Data.List.Basic

/-! Computations that reach their input only by asking for one cell at a time.
What such a computation may depend on is then a fact about its questions: two
inputs that agree on every cell asked for cannot be told apart. -/
namespace CModel

/-- A computation over an input `ι → β`; `ask` looks up one cell of it. -/
inductive Query (ι β α : Type) where
  | done (a : α)
  | ask (i : ι) (next : β → Query ι β α)

namespace Query

variable {ι β α γ : Type}

def bind : Query ι β α → (α → Query ι β γ) → Query ι β γ
  | done a, k => k a
  | ask i next, k => ask i (fun b => bind (next b) k)

instance : Monad (Query ι β) where
  pure := done
  bind := bind

def read (i : ι) : Query ι β β := ask i done

def readAll : List ι → Query ι β (List β)
  | [] => pure []
  | i :: is => do
    let b ← read i
    let bs ← readAll is
    return b :: bs

/-- Every question is answered by a computation of its own, over another input. -/
def via {κ δ : Type} : Query ι β α → (ι → Query κ δ β) → Query κ δ α
  | done a, _ => done a
  | ask i next, f => bind (f i) (fun b => via (next b) f)

def run (input : ι → β) : Query ι β α → α
  | done a => a
  | ask i next => run input (next (input i))

def asked (input : ι → β) : Query ι β α → List ι
  | done _ => []
  | ask i next => i :: asked input (next (input i))

theorem bind_assoc {δ : Type} (q : Query ι β α) (k : α → Query ι β γ) (l : γ → Query ι β δ) :
    q >>= k >>= l = q >>= fun a => k a >>= l := by
  change bind (bind q k) l = bind q fun a => bind (k a) l
  induction q with
  | done a => rfl
  | ask i next ih => exact congrArg (ask i) (funext ih)

variable (input : ι → β)

@[simp] theorem run_pure (a : α) : run input (pure a : Query ι β α) = a := rfl

@[simp] theorem asked_pure (a : α) : asked input (pure a : Query ι β α) = [] := rfl

@[simp] theorem run_bind (q : Query ι β α) (k : α → Query ι β γ) :
    run input (q >>= k) = run input (k (run input q)) := by
  change run input (bind q k) = _
  induction q with
  | done a => rfl
  | ask i next ih => exact ih (input i)

@[simp] theorem asked_bind (q : Query ι β α) (k : α → Query ι β γ) :
    asked input (q >>= k) = asked input q ++ asked input (k (run input q)) := by
  change asked input (bind q k) = _
  induction q with
  | done a => rfl
  | ask i next ih => simp only [bind, asked, run, ih, List.cons_append]

@[simp] theorem run_read (i : ι) : run input (read i) = input i := rfl

@[simp] theorem asked_read (i : ι) : asked input (read i) = [i] := rfl

/- The answer is substituted into the rest at once, instances included. -/
theorem run_read_bind (i : ι) (k : β → Query ι β α) :
    run input (read i >>= k) = run input (k (input i)) := rfl

theorem asked_read_bind (i : ι) (k : β → Query ι β α) :
    asked input (read i >>= k) = i :: asked input (k (input i)) := rfl

@[simp] theorem run_readAll (is : List ι) : run input (readAll is) = is.map input := by
  induction is with
  | nil => rfl
  | cons i is ih => simp [readAll, ih]

@[simp] theorem asked_readAll (is : List ι) : asked input (readAll is) = is := by
  induction is with
  | nil => rfl
  | cons i is ih => simp [readAll, ih]

@[simp] theorem run_ite (c : Prop) [Decidable c] (q r : Query ι β α) :
    run input (if c then q else r) = if c then run input q else run input r :=
  apply_ite (run input) c q r

@[simp] theorem asked_ite (c : Prop) [Decidable c] (q r : Query ι β α) :
    asked input (if c then q else r) = if c then asked input q else asked input r :=
  apply_ite (asked input) c q r

@[simp] theorem run_via {κ δ : Type} (inner : κ → δ) (q : Query ι β α) (f : ι → Query κ δ β) :
    run inner (q.via f) = run (fun i => run inner (f i)) q := by
  induction q with
  | done a => rfl
  | ask i next ih =>
    refine (run_bind inner (f i) fun b => via (next b) f).trans ?_
    exact ih (run inner (f i))

@[simp] theorem asked_via {κ δ : Type} (inner : κ → δ) (q : Query ι β α) (f : ι → Query κ δ β) :
    asked inner (q.via f) =
      (asked (fun i => run inner (f i)) q).flatMap fun i => asked inner (f i) := by
  induction q with
  | done a => rfl
  | ask i next ih =>
    refine (asked_bind inner (f i) fun b => via (next b) f).trans ?_
    exact congrArg (asked inner (f i) ++ ·) (ih (run inner (f i)))

/-- Inputs that agree on every cell asked for give the same answer and the same questions. -/
theorem run_congr (other : ι → β) (q : Query ι β α)
    (agree : ∀ i ∈ asked input q, input i = other i) :
    run input q = run other q ∧ asked input q = asked other q := by
  induction q with
  | done a => exact ⟨rfl, rfl⟩
  | ask i next ih =>
    have here : input i = other i := agree i List.mem_cons_self
    have rest := ih (input i) (fun j hj => agree j (List.mem_cons_of_mem i hj))
    simp only [run, asked, ← here]
    exact ⟨rest.1, congrArg (i :: ·) rest.2⟩

end Query

end CModel
