import AnkiDrive.Wakeups
import Mathlib.Data.List.Perm.Subperm

/-! The functions given with a command: that of the result is called at most once, and exactly
once when nothing is cancelled; that of the destruction is called exactly once. -/
namespace AnkiDrive
open CModel

variable {κ : Type}

def GOut.acceptedCommand : GOut κ → Option (GCommand κ)
  | .accepted c => some c
  | _ => none

def GOut.notified : GOut κ → Option κ
  | .notify k => some k
  | _ => none

def GOut.answered : GOut κ → Option κ
  | .result k _ _ => some k
  | _ => none

/-- The commands that were accepted, and the functions that were called. -/
def acceptedIn (out : List (GOut κ)) : List (GCommand κ) := out.filterMap GOut.acceptedCommand
def notifiedIn (out : List (GOut κ)) : List κ := out.filterMap GOut.notified
def resultsIn (out : List (GOut κ)) : List κ := out.filterMap GOut.answered

/-- The functions that are left to be called. -/
def notifiesOf (queue : List (GCommand κ)) : List κ := queue.filterMap (·.notify)
def funcsOf (queue : List (GCommand κ)) : List κ := queue.filterMap (·.func)

def GAttrib.queued (a : GAttrib κ) : List (GCommand κ) := a.requests ++ a.responses

section Lists

variable (x y : List (GOut κ)) (q r : List (GCommand κ)) (c : GCommand κ)

@[simp] theorem acceptedIn_append : acceptedIn (x ++ y) = acceptedIn x ++ acceptedIn y :=
  List.filterMap_append

@[simp] theorem notifiedIn_append : notifiedIn (x ++ y) = notifiedIn x ++ notifiedIn y :=
  List.filterMap_append

@[simp] theorem resultsIn_append : resultsIn (x ++ y) = resultsIn x ++ resultsIn y :=
  List.filterMap_append

@[simp] theorem notifiesOf_append : notifiesOf (q ++ r) = notifiesOf q ++ notifiesOf r :=
  List.filterMap_append

@[simp] theorem funcsOf_append : funcsOf (q ++ r) = funcsOf q ++ funcsOf r :=
  List.filterMap_append

@[simp] theorem acceptedIn_nil : acceptedIn ([] : List (GOut κ)) = [] := rfl
@[simp] theorem notifiedIn_nil : notifiedIn ([] : List (GOut κ)) = [] := rfl
@[simp] theorem resultsIn_nil : resultsIn ([] : List (GOut κ)) = [] := rfl
@[simp] theorem notifiesOf_nil : notifiesOf ([] : List (GCommand κ)) = [] := rfl
@[simp] theorem funcsOf_nil : funcsOf ([] : List (GCommand κ)) = [] := rfl

@[simp] theorem notifiesOf_cons : notifiesOf (c :: q) = c.notify.toList ++ notifiesOf q := by
  cases notify : c.notify <;> simp [notifiesOf, notify]

@[simp] theorem funcsOf_cons : funcsOf (c :: q) = c.func.toList ++ funcsOf q := by
  cases func : c.func <;> simp [funcsOf, func]

@[simp] theorem acceptedIn_accepted : acceptedIn (.accepted c :: x) = c :: acceptedIn x := rfl
@[simp] theorem notifiedIn_accepted : notifiedIn (.accepted c :: x) = notifiedIn x := rfl
@[simp] theorem resultsIn_accepted : resultsIn (.accepted c :: x) = resultsIn x := rfl

@[simp] theorem acceptedIn_write (pdu : List UInt8) :
    acceptedIn (.write pdu :: x) = acceptedIn x := rfl

@[simp] theorem notifiedIn_write (pdu : List UInt8) :
    notifiedIn (.write pdu :: x) = notifiedIn x := rfl

@[simp] theorem resultsIn_write (pdu : List UInt8) :
    resultsIn (.write pdu :: x) = resultsIn x := rfl

@[simp] theorem acceptedIn_destroy : acceptedIn (commandDestroy c) = [] := by
  cases notify : c.notify <;> simp [commandDestroy, notify, acceptedIn, GOut.acceptedCommand]

@[simp] theorem notifiedIn_destroy : notifiedIn (commandDestroy c) = c.notify.toList := by
  cases notify : c.notify <;> simp [commandDestroy, notify, notifiedIn, GOut.notified]

@[simp] theorem resultsIn_destroy : resultsIn (commandDestroy c) = [] := by
  cases notify : c.notify <;> simp [commandDestroy, notify, resultsIn, GOut.answered]

@[simp] theorem acceptedIn_result (s : UInt8) (pdu : Option (List UInt8)) :
    acceptedIn (resultOf c s pdu) = [] := by
  cases func : c.func <;> simp [resultOf, func, acceptedIn, GOut.acceptedCommand]

@[simp] theorem notifiedIn_result (s : UInt8) (pdu : Option (List UInt8)) :
    notifiedIn (resultOf c s pdu) = [] := by
  cases func : c.func <;> simp [resultOf, func, notifiedIn, GOut.notified]

@[simp] theorem resultsIn_result (s : UInt8) (pdu : Option (List UInt8)) :
    resultsIn (resultOf c s pdu) = c.func.toList := by
  cases func : c.func <;> simp [resultOf, func, resultsIn, GOut.answered]

variable {x}

theorem around_nothing (events : ∀ o ∈ x, (∃ k pdu, o = .event k pdu) ∨ ∃ k, o = .eventNotify k) :
    acceptedIn x = [] ∧ notifiedIn x = [] ∧ resultsIn x = [] := by
  refine ⟨List.filterMap_eq_nil_iff.mpr fun o inside => ?_,
    List.filterMap_eq_nil_iff.mpr fun o inside => ?_,
    List.filterMap_eq_nil_iff.mpr fun o inside => ?_⟩
  all_goals rcases events o inside with ⟨k, pdu, rfl⟩ | ⟨k, rfl⟩ <;> rfl

end Lists

variable {a a' : GAttrib κ} {out : List (GOut κ)} {i : Incidents} {steps : List (GStep κ)}
  {queue queue' : List (GCommand κ)} {cancels : UInt32 → Prop}

theorem queued_wakeIfQueued (a : GAttrib κ) : a.wakeIfQueued.queued = a.queued := by
  obtain ⟨requests, responses, -⟩ := wakeIfQueued_queues a
  simp only [GAttrib.queued, requests, responses]

section Count

variable [DecidableEq κ] (k : κ)

theorem Reduces.balance (reduces : Reduces cancels queue queue' out) :
    (notifiesOf queue).count k = (notifiedIn out).count k + (notifiesOf queue').count k ∧
      acceptedIn out = [] ∧ resultsIn out = [] ∧
      (funcsOf queue').count k ≤ (funcsOf queue).count k := by
  induction reduces with
  | nil => simp
  | keep _ ih =>
    obtain ⟨notifies, accepted, results, funcs⟩ := ih
    simp only [notifiesOf_cons, funcsOf_cons, List.count_append]
    exact ⟨by omega, accepted, results, by omega⟩
  | silence _ _ _ ih =>
    obtain ⟨notifies, accepted, results, funcs⟩ := ih
    simp only [notifiesOf_cons, funcsOf_cons, List.count_append, Option.toList_none, List.count_nil]
    exact ⟨by omega, accepted, results, by omega⟩
  | drop _ _ _ ih =>
    obtain ⟨notifies, accepted, results, funcs⟩ := ih
    simp only [notifiesOf_cons, funcsOf_cons, List.count_append, notifiedIn_append,
      notifiedIn_destroy, acceptedIn_append, acceptedIn_destroy, resultsIn_append,
      resultsIn_destroy, accepted, results, List.append_nil]
    exact ⟨by omega, trivial, trivial, by omega⟩

theorem GMove.notifies (move : GMove i a a' out) :
    (notifiesOf (acceptedIn out)).count k + (notifiesOf a.queued).count k =
      (notifiedIn out).count k + (notifiesOf a'.queued).count k := by
  cases move with
  | call called =>
    cases called with
    | refused _ => simp
    | response _ _ _ _ =>
      simp [GAttrib.queued]
      omega
    | request _ _ _ _ first _ =>
      cases first with
      | true => simp [GAttrib.queued]
      | false =>
        simp [GAttrib.queued]
        omega
    | reduced _ left right =>
      obtain ⟨first, accepted, -, -⟩ := left.balance k
      obtain ⟨second, accepted', -, -⟩ := right.balance k
      simp only [GAttrib.queued, acceptedIn_append, accepted, accepted', notifiedIn_append,
        notifiesOf_append, List.count_append, List.append_nil, notifiesOf_nil, List.count_nil]
      omega
  | around requests responses _ _ _ events =>
    obtain ⟨accepted, notified, -⟩ := around_nothing events
    simp [GAttrib.queued, accepted, notified, requests, responses]
  | wake => simp [queued_wakeIfQueued]
  | stop _ => simp [GAttrib.queued]
  | answer _ head =>
    simp [GAttrib.queued, head]
    omega
  | command _ _ head _ _ => simp [GAttrib.queued, head]
  | ask _ _ head _ _ => simp [GAttrib.queued, head]
  | unexpected _ _ _ => simp [GAttrib.queued]
  | result _ head _ =>
    rw [queued_wakeIfQueued]
    simp [GAttrib.queued, head]
  | abort _ _ head => simp [GAttrib.queued, head]
  | expire _ _ => simp [GAttrib.queued]

theorem GMove.results_le (move : GMove i a a' out) :
    (resultsIn out).count k + (funcsOf a'.queued).count k ≤
      (funcsOf (acceptedIn out)).count k + (funcsOf a.queued).count k := by
  cases move with
  | call called =>
    cases called with
    | refused _ => simp
    | response _ _ _ _ =>
      simp [GAttrib.queued]
      omega
    | request _ _ _ _ first _ =>
      cases first with
      | true => simp [GAttrib.queued]
      | false =>
        simp [GAttrib.queued]
        omega
    | reduced _ left right =>
      obtain ⟨-, -, results, first⟩ := left.balance k
      obtain ⟨-, -, results', second⟩ := right.balance k
      simp only [GAttrib.queued, resultsIn_append, results, results', funcsOf_append,
        List.count_append, List.append_nil, List.count_nil]
      omega
  | around requests responses _ _ _ events =>
    obtain ⟨accepted, -, results⟩ := around_nothing events
    simp [GAttrib.queued, accepted, results, requests, responses]
  | wake => simp [queued_wakeIfQueued]
  | stop _ => simp [GAttrib.queued]
  | answer _ head =>
    simp [GAttrib.queued, head]
  | command _ _ head _ _ => simp [GAttrib.queued, head]
  | ask _ _ head _ _ => simp [GAttrib.queued, head]
  | unexpected _ _ _ => simp [GAttrib.queued]
  | result _ head _ =>
    rw [queued_wakeIfQueued]
    simp [GAttrib.queued, head]
  | abort _ _ head => simp [GAttrib.queued, head]
  | expire _ _ => simp [GAttrib.queued]

/-- The functions of a queue are those of commands with a response. -/
def Answerable (queue : List (GCommand κ)) : Prop := ∀ c ∈ queue, c.expected = 0 → c.func = none

/-- While nothing is cancelled, a function leaves a queue by being called. -/
theorem GMove.results_eq (move : GMove i a a' out) (uncancelled : ∀ id, ¬ i.cancels id) (sound : Sound a)
    (accepted : Answerable (acceptedIn out)) (queued : Answerable a.queued) :
    Answerable a'.queued ∧
      (funcsOf (acceptedIn out)).count k + (funcsOf a.queued).count k =
        (resultsIn out).count k + (funcsOf a'.queued).count k := by
  cases move with
  | call called =>
    cases called with
    | refused _ => exact ⟨queued, by simp⟩
    | response _ _ _ _ =>
      simp only [Answerable, acceptedIn_accepted, acceptedIn_nil, List.mem_singleton,
        forall_eq] at accepted
      refine ⟨?_, ?_⟩
      · simp only [Answerable, GAttrib.queued, List.mem_append, List.mem_singleton] at queued ⊢
        rintro d (old | old | rfl)
        · exact queued d (Or.inl old)
        · exact queued d (Or.inr old)
        · exact accepted
      · simp [GAttrib.queued]
        omega
    | request _ _ _ _ first _ =>
      simp only [Answerable, acceptedIn_accepted, acceptedIn_nil, List.mem_singleton,
        forall_eq] at accepted
      cases first with
      | true =>
        refine ⟨?_, by simp [GAttrib.queued]⟩
        simp only [Answerable, GAttrib.queued, if_true, List.mem_append, List.mem_cons] at queued ⊢
        rintro d ((rfl | old) | old)
        · exact accepted
        · exact queued d (Or.inl old)
        · exact queued d (Or.inr old)
      | false =>
        refine ⟨?_, ?_⟩
        · simp only [Answerable, GAttrib.queued, Bool.false_eq_true, if_false, List.mem_append,
            List.mem_singleton] at queued ⊢
          rintro d ((old | rfl) | old)
          · exact queued d (Or.inl old)
          · exact accepted
          · exact queued d (Or.inr old)
        · simp [GAttrib.queued]
          omega
    | reduced cancelled _ _ =>
      obtain ⟨id, cancelled⟩ := cancelled
      exact absurd cancelled (uncancelled id)
  | around requests responses _ _ _ events =>
    obtain ⟨accepted, -, results⟩ := around_nothing events
    have same : a'.queued = a.queued := by simp only [GAttrib.queued, requests, responses]
    rw [same, accepted, results]
    exact ⟨queued, by simp⟩
  | wake =>
    rw [queued_wakeIfQueued]
    exact ⟨queued, by simp⟩
  | stop _ => exact ⟨queued, by simp [GAttrib.queued]⟩
  | @answer c queue _ head =>
    have silent : c.func = none := by
      refine queued c ?_ (sound.responses c ?_).2.1 <;> simp [GAttrib.queued, head]
    refine ⟨fun d inside => queued d ?_, by simp [GAttrib.queued, head, silent]⟩
    simp only [GAttrib.queued, head, List.mem_append, List.mem_cons] at inside ⊢
    exact inside.imp_right Or.inr
  | @command c queue _ _ head _ alone =>
    have silent : c.func = none := queued c (by simp [GAttrib.queued, head]) alone
    refine ⟨fun d inside => queued d ?_, by simp [GAttrib.queued, head, silent]⟩
    simp only [GAttrib.queued, head, List.mem_append, List.mem_cons] at inside ⊢
    exact inside.imp_left Or.inr
  | @ask c queue _ _ head _ expecting =>
    refine ⟨?_, by simp [GAttrib.queued, head]⟩
    simp only [Answerable, GAttrib.queued, head, List.cons_append, List.forall_mem_cons]
      at queued ⊢
    exact ⟨fun alone => absurd alone expecting, queued.2⟩
  | unexpected _ _ _ => exact ⟨queued, by simp [GAttrib.queued]⟩
  | @result c queue buf _ head _ =>
    rw [queued_wakeIfQueued]
    refine ⟨fun d inside => queued d ?_, by simp [GAttrib.queued, head]⟩
    simp only [GAttrib.queued, head, List.cons_append, List.mem_cons] at inside ⊢
    exact Or.inr inside
  | @abort c queue _ _ head =>
    refine ⟨fun d inside => queued d ?_, by simp [GAttrib.queued, head]⟩
    simp only [GAttrib.queued, head, List.cons_append, List.mem_cons] at inside ⊢
    exact Or.inr inside
  | expire _ _ => exact ⟨queued, by simp [GAttrib.queued]⟩

end Count

/-- A relation between two states and what is put out between them, whatever its order. -/
structure Additive (R : GAttrib κ → GAttrib κ → List (GOut κ) → Prop) : Prop where
  none : ∀ a, R a a []
  more : ∀ a a₁ a₂ first rest, R a a₁ first → R a₁ a₂ rest → R a a₂ (first ++ rest)
  perm : ∀ a a' out put, R a a' put → out.Perm put → R a a' out

variable {R : GAttrib κ → GAttrib κ → List (GOut κ) → Prop}

theorem GMoves.additive (moves : GMoves i a a' out) (additive : Additive R)
    (moved : ∀ a a' out, Sound a → GMove i a a' out → R a a' out) (sound : Sound a) :
    R a a' out := by
  induction moves with
  | none => exact additive.none _
  | more move _ ih => exact additive.more _ _ _ _ _ (moved _ _ _ sound move) (ih (move.sound sound))

theorem Additive.run (additive : Additive R) (mtu : Nat) (proper : ∀ s ∈ steps, s.Proper)
    (moved : ∀ s ∈ steps, ∀ a a' out, Sound a → GMove s.incidents a a' out → R a a' out) :
    R (.new mtu) (runMachine GAttrib.step (.new mtu) steps).1
      (runMachine GAttrib.step (.new mtu) steps).2 := by
  have both : ∀ s ∈ steps, s.Proper ∧
      ∀ a a' out, Sound a → GMove s.incidents a a' out → R a a' out :=
    fun s inside => ⟨proper s inside, moved s inside⟩
  have step : ∀ a out s, Sound a ∧ R (.new mtu) a out →
      (s.Proper ∧ ∀ a a' out, Sound a → GMove s.incidents a a' out → R a a' out) →
      Sound (a.step s).1 ∧ R (.new mtu) (a.step s).1 (out ++ (a.step s).2) := by
    intro a out s held ok
    obtain ⟨put, moves, same⟩ := step_moves held.1 ok.1
    have first := moves.additive additive ok.2 held.1
    exact ⟨step_sound ok.1 held.1,
      additive.more _ _ _ _ _ held.2 (additive.perm _ _ _ _ first same)⟩
  exact (runMachine_induct (P := fun a out => Sound a ∧ R (.new mtu) a out)
    ⟨sound_new mtu, additive.none _⟩ step both).2

/-- No function is called twice, nor one that was not given. -/
def ResultsBound [DecidableEq κ] (k : κ) (a a' : GAttrib κ) (out : List (GOut κ)) : Prop :=
  (resultsIn out).count k + (funcsOf a'.queued).count k ≤
    (funcsOf (acceptedIn out)).count k + (funcsOf a.queued).count k

/-- Every function that is given is called or waits to be called. -/
def ResultsBalance [DecidableEq κ] (k : κ) (a a' : GAttrib κ) (out : List (GOut κ)) : Prop :=
  Answerable (acceptedIn out) → Answerable a.queued → Answerable a'.queued ∧
    (funcsOf (acceptedIn out)).count k + (funcsOf a.queued).count k =
      (resultsIn out).count k + (funcsOf a'.queued).count k

/-- Every notification of what is given is made or waits to be made. -/
def NotifyBalance [DecidableEq κ] (k : κ) (a a' : GAttrib κ) (out : List (GOut κ)) : Prop :=
  (notifiesOf (acceptedIn out)).count k + (notifiesOf a.queued).count k =
    (notifiedIn out).count k + (notifiesOf a'.queued).count k

/-- The timeout leaves no request in a stale channel, and nothing comes in afterwards. -/
def Flushed (a : GAttrib κ) : Prop := a.stale = true → a.requests = []

theorem GMove.flushed (move : GMove i a a' out) (flushed : Flushed a) : Flushed a' := by
  intro stale
  cases move with
  | call called =>
    cases called with
    | refused _ => exact flushed stale
    | response live _ _ _ => exact flushed stale
    | request live _ _ _ _ _ => exact Bool.noConfusion (stale.symm.trans live)
    | reduced _ left _ =>
      rw [flushed stale] at left
      cases left
      rfl
  | around requests _ _ _ same _ => exact requests.trans (flushed (same.symm.trans stale))
  | wake =>
    obtain ⟨requests, -, -, same, -⟩ := wakeIfQueued_queues a
    exact requests.trans (flushed (same.symm.trans stale))
  | stop _ => exact flushed stale
  | answer live _ => exact flushed stale
  | command live _ _ _ _ => exact Bool.noConfusion (stale.symm.trans live)
  | ask live _ _ _ _ => exact Bool.noConfusion (stale.symm.trans live)
  | unexpected _ _ empty => exact empty
  | result live _ _ =>
    obtain ⟨-, -, -, same, -⟩ := wakeIfQueued_queues ({ a with
      requests := _, timeoutWatch := false } : GAttrib κ)
    exact Bool.noConfusion ((same.symm.trans stale).symm.trans live)
  | abort _ _ head =>
    rw [flushed stale] at head
    cases head
  | expire _ empty => exact empty

section Balances

variable [DecidableEq κ] (k : κ)

theorem resultsBound_additive : Additive (ResultsBound (κ := κ) k) where
  none a := by simp [ResultsBound]
  more a a₁ a₂ first rest before after := by
    simp only [ResultsBound, acceptedIn_append, funcsOf_append, resultsIn_append,
      List.count_append] at *
    omega
  perm a a' out put held same := by
    have accepted := ((same.filterMap GOut.acceptedCommand).filterMap (·.func)).count_eq k
    have results := (same.filterMap GOut.answered).count_eq k
    unfold ResultsBound funcsOf acceptedIn resultsIn at *
    rwa [accepted, results]

theorem resultsBalance_additive : Additive (ResultsBalance (κ := κ) k) where
  none a := by
    intro _ queued
    exact ⟨queued, by simp⟩
  more a a₁ a₂ first rest before after := by
    intro accepted queued
    simp only [Answerable, acceptedIn_append, List.mem_append] at accepted
    obtain ⟨queued₁, first⟩ := before (fun c inside => accepted c (Or.inl inside)) queued
    obtain ⟨queued₂, second⟩ := after (fun c inside => accepted c (Or.inr inside)) queued₁
    simp only [acceptedIn_append, funcsOf_append, resultsIn_append, List.count_append]
    exact ⟨queued₂, by omega⟩
  perm a a' out put held same := by
    have inside := same.filterMap GOut.acceptedCommand
    have accepted := (inside.filterMap (·.func)).count_eq k
    have results := (same.filterMap GOut.answered).count_eq k
    intro answerable queued
    obtain ⟨queued', balance⟩ := held (fun c mem => answerable c (inside.mem_iff.mpr mem)) queued
    unfold funcsOf acceptedIn resultsIn at *
    rw [accepted, results]
    exact ⟨queued', balance⟩

theorem notifyBalance_additive : Additive (NotifyBalance (κ := κ) k) where
  none a := by simp [NotifyBalance]
  more a a₁ a₂ first rest before after := by
    simp only [NotifyBalance, acceptedIn_append, notifiesOf_append, notifiedIn_append,
      List.count_append] at *
    omega
  perm a a' out put held same := by
    have accepted := ((same.filterMap GOut.acceptedCommand).filterMap (·.notify)).count_eq k
    have notified := (same.filterMap GOut.notified).count_eq k
    unfold NotifyBalance notifiesOf acceptedIn notifiedIn at *
    rwa [accepted, notified]

end Balances

theorem run_flushed (mtu : Nat) (proper : ∀ s ∈ steps, s.Proper) :
    Flushed (runMachine GAttrib.step (.new mtu : GAttrib κ) steps).1 := by
  have held : Sound (runMachine GAttrib.step (.new mtu : GAttrib κ) steps).1 ∧
      Flushed (runMachine GAttrib.step (.new mtu : GAttrib κ) steps).1 := by
    apply runMachine_invariant (P := fun a => Sound a ∧ Flushed a)
      ⟨sound_new mtu, fun stale => Bool.noConfusion stale⟩ _ proper
    intro a s held proper
    obtain ⟨put, moves, -⟩ := step_moves held.1 proper
    exact ⟨step_sound proper held.1,
      moves.invariant (fun _ _ _ move => move.flushed) held.2⟩
  exact held.2

theorem notifiedIn_destroyed (queue : List (GCommand κ)) :
    notifiedIn (queue.flatMap commandDestroy) = notifiesOf queue := by
  induction queue with
  | nil => rfl
  | cons c queue ih =>
    rw [List.flatMap_cons, notifiedIn_append, notifiedIn_destroy, ih, notifiesOf_cons]

theorem notifiedIn_attribDestroy (a : GAttrib κ) :
    notifiedIn a.attribDestroy = notifiesOf a.queued := by
  have events : notifiedIn (a.events.flatMap eventDestroy) = [] := by
    refine (around_nothing fun o inside => Or.inr ?_).2.1
    obtain ⟨e, -, inside⟩ := List.mem_flatMap.mp inside
    exact eventDestroy_notifies inside
  rw [GAttrib.attribDestroy, notifiedIn_append, notifiedIn_append, notifiedIn_destroyed,
    notifiedIn_destroyed, events, GAttrib.queued, notifiesOf_append, List.append_nil]

/-- Whatever happens to a channel until it is destroyed: the notification of each command that it
accepted is made exactly once. -/
theorem notified_once (mtu : Nat) (proper : ∀ s ∈ steps, s.Proper) :
    let r := runMachine GAttrib.step (.new mtu : GAttrib κ) steps
    (notifiesOf (acceptedIn r.2)).Perm (notifiedIn (r.2 ++ r.1.attribDestroy)) := by
  classical
  intro r
  rw [List.perm_iff_count]
  intro k
  have balance : NotifyBalance k (.new mtu) r.1 r.2 :=
    (notifyBalance_additive k).run mtu proper fun _ _ _ _ _ _ move => move.notifies k
  rw [notifiedIn_append, notifiedIn_attribDestroy, List.count_append]
  simpa [NotifyBalance, GAttrib.queued, GAttrib.new] using balance

theorem notified_once_twoReads :
    let r := runMachine GAttrib.step (.new 23) twoReads
    (notifiesOf (acceptedIn r.2)).Perm (notifiedIn (r.2 ++ r.1.attribDestroy)) :=
  notified_once 23 twoReads_proper

/-- Whatever happens to a channel: the functions that are called with a result are among those of
the commands that it accepted, each at most as often as it was given. -/
theorem results_at_most_once (mtu : Nat) (proper : ∀ s ∈ steps, s.Proper) :
    let r := runMachine GAttrib.step (.new mtu : GAttrib κ) steps
    (resultsIn r.2 ++ funcsOf r.1.queued).Subperm (funcsOf (acceptedIn r.2)) := by
  classical
  intro r
  rw [List.subperm_iff_count]
  intro k
  have bound : ResultsBound k (.new mtu) r.1 r.2 :=
    (resultsBound_additive k).run mtu proper fun _ _ _ _ _ _ move => move.results_le k
  rw [List.count_append]
  simpa [ResultsBound, GAttrib.queued, GAttrib.new] using bound

theorem results_at_most_once_twoReads :
    let r := runMachine GAttrib.step (.new 23) twoReads
    (resultsIn r.2 ++ funcsOf r.1.queued).Subperm (funcsOf (acceptedIn r.2)) :=
  results_at_most_once 23 twoReads_proper

theorem run_results (mtu : Nat) (proper : ∀ s ∈ steps, s.Proper)
    (uncancelled : ∀ s ∈ steps, ∀ id, ¬ s.Cancels id)
    (answerable : Answerable
      (acceptedIn (runMachine GAttrib.step (.new mtu : GAttrib κ) steps).2)) :
    let r := runMachine GAttrib.step (.new mtu : GAttrib κ) steps
    (funcsOf (acceptedIn r.2)).Perm (resultsIn r.2 ++ funcsOf r.1.requests) := by
  classical
  intro r
  have balance : ∀ k, ResultsBalance k (.new mtu) r.1 r.2 := fun k =>
    (resultsBalance_additive k).run mtu proper fun s inside _ _ _ sound move =>
      move.results_eq k (uncancelled s inside) sound
  have fresh : Answerable (GAttrib.new mtu : GAttrib κ).queued :=
    fun _ inside => absurd inside List.not_mem_nil
  have silent : funcsOf r.1.responses = [] := by
    refine List.filterMap_eq_nil_iff.mpr fun c inside => ?_
    have alone := ((run_sound mtu proper).responses c inside).2.1
    cases named : c.func with
    | none => rfl
    | some k =>
      have queued := (balance k answerable fresh).1 c (List.mem_append_right _ inside) alone
      exact named.symm.trans queued
  rw [List.perm_iff_count]
  intro k
  have counted := (balance k answerable fresh).2
  rw [List.count_append]
  simpa [GAttrib.queued, GAttrib.new, silent] using counted

/-- While nothing is cancelled, the function of each accepted command that has a response is
called exactly once or waits in the queue, and once the timeout has come all were called. -/
theorem results_exactly_once (mtu : Nat) (proper : ∀ s ∈ steps, s.Proper)
    (uncancelled : ∀ s ∈ steps, ∀ id, ¬ s.Cancels id)
    (answerable : Answerable
      (acceptedIn (runMachine GAttrib.step (.new mtu : GAttrib κ) steps).2)) :
    let r := runMachine GAttrib.step (.new mtu : GAttrib κ) steps
    (funcsOf (acceptedIn r.2)).Perm (resultsIn r.2 ++ funcsOf r.1.requests) ∧
      (r.1.stale = true → (funcsOf (acceptedIn r.2)).Perm (resultsIn r.2)) := by
  intro r
  have all := run_results mtu proper uncancelled answerable
  refine ⟨all, fun stale => ?_⟩
  have flushed : (runMachine GAttrib.step (.new mtu : GAttrib κ) steps).1.requests = [] :=
    run_flushed mtu proper stale
  simpa only [flushed, funcsOf_nil, List.append_nil] using all

/-- The witness of a timeout: one read is answered, another is not, and a third one waits. -/
def threeReads : List (GStep Nat) := [
  .call (.send 0 [0x0a, 0x10, 0x00] (some 1) (some 2)),
  .writable true,
  .received [0x0b, 0x2a] (fun _ => []) [.send 0 [0x0a, 0x12, 0x00] (some 3) none],
  .call (.send 0 [0x0a, 0x14, 0x00] (some 5) none),
  .writable true,
  .timeout [[], [.send 0 [0x0a, 0x16, 0x00] (some 7) none]]]

theorem results_exactly_once_threeReads :
    let r := runMachine GAttrib.step (.new 23) threeReads
    (funcsOf (acceptedIn r.2)).Perm (resultsIn r.2 ++ funcsOf r.1.requests) ∧
      (r.1.stale = true → (funcsOf (acceptedIn r.2)).Perm (resultsIn r.2)) := by
  have proper : ∀ s ∈ threeReads, s.Proper := by simp [threeReads, GStep.Proper, GCall.Plain]
  have uncancelled : ∀ s ∈ threeReads, ∀ id, ¬ s.Cancels id := by
    simp [threeReads, GStep.Cancels, GCall.Cancels]
  have answerable : Answerable (acceptedIn (runMachine GAttrib.step (.new 23) threeReads).2) := by
    have commands : ∀ c ∈ acceptedIn (runMachine GAttrib.step (.new 23) threeReads).2,
        c.expected ≠ 0 := by decide
    exact fun c inside alone => absurd alone (commands c inside)
  exact results_exactly_once 23 proper uncancelled answerable

end AnkiDrive
