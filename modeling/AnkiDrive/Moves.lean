import AnkiDrive.Outstanding

/-! What the main loop does with a channel, taken apart: every step is a sequence of moves, and
each property of the channel is a matter of the single move. -/
namespace AnkiDrive
open CModel

/-- What may happen in a step: the channel refuses to be written to, the timeout comes, or a call
cancels commands, by their numbers. -/
structure Incidents where
  loses : Prop
  expires : Prop
  cancels : UInt32 → Prop

variable {κ : Type} {a a' : GAttrib κ} {out : List (GOut κ)} {i : Incidents}

/-- What a step does to the queues, one thing after the other. -/
inductive GMove (i : Incidents) : GAttrib κ → GAttrib κ → List (GOut κ) → Prop where
  | call {a a' : GAttrib κ} {out} (called : Called i.cancels a a' out) : GMove i a a' out
  /-- The queues and the other watches are left alone. -/
  | around {a a' : GAttrib κ} {out} (requests : a'.requests = a.requests)
      (responses : a'.responses = a.responses) (writeWatch : a'.writeWatch = a.writeWatch)
      (timeoutWatch : a'.timeoutWatch = a.timeoutWatch) (stale : a'.stale = a.stale)
      (events : ∀ o ∈ out, (∃ k pdu, o = .event k pdu) ∨ ∃ k, o = .eventNotify k) :
      GMove i a a' out
  | wake {a : GAttrib κ} : GMove i a a.wakeIfQueued []
  | stop {a : GAttrib κ} (done : a.stale = true ∨ i.loses ∨
      a.responses = [] ∧ ∀ c ∈ a.requests.head?, c.sent = true) :
      GMove i a { a with writeWatch := false } []
  | answer {a : GAttrib κ} {c queue} (live : a.stale = false) (head : a.responses = c :: queue) :
      GMove i a { a with responses := queue } (.write c.pdu :: commandDestroy c)
  | command {a : GAttrib κ} {c queue} (live : a.stale = false) (empty : a.responses = [])
      (head : a.requests = c :: queue) (unsent : c.sent = false) (alone : c.expected = 0) :
      GMove i a { a with requests := queue } (.write c.pdu :: commandDestroy c)
  | ask {a : GAttrib κ} {c queue} (live : a.stale = false) (empty : a.responses = [])
      (head : a.requests = c :: queue) (unsent : c.sent = false) (expecting : c.expected ≠ 0) :
      GMove i a { a with
        requests := { c with sent := true } :: queue
        timeoutWatch := true
        writeWatch := false } [.write c.pdu]
  | unexpected {a : GAttrib κ} (readWatch : Bool) (live : a.stale = false) (empty : a.requests = []) :
      GMove i a { a with timeoutWatch := false, readWatch := readWatch } []
  | result {a : GAttrib κ} {c queue buf} (live : a.stale = false) (head : a.requests = c :: queue)
      (response : isResponse (opcodeOf buf) = true) :
      GMove i a
        ({ a with requests := queue, timeoutWatch := false } : GAttrib κ).wakeIfQueued
        (resultOf c (statusOf c.expected buf) (some buf) ++ commandDestroy c)
  | abort {a : GAttrib κ} {c queue} (status : UInt8) (time : i.expires) (head : a.requests = c :: queue) :
      GMove i a { a with requests := queue }
        (resultOf c status none ++ commandDestroy c)
  | expire {a : GAttrib κ} (time : i.expires) (empty : a.requests = []) :
      GMove i a { a with stale := true } []

inductive GMoves (i : Incidents) : GAttrib κ → GAttrib κ → List (GOut κ) → Prop where
  | none {a : GAttrib κ} : GMoves i a a []
  | more {a a₁ a₂ : GAttrib κ} {first rest} (move : GMove i a a₁ first)
      (moves : GMoves i a₁ a₂ rest) : GMoves i a a₂ (first ++ rest)

theorem GMoves.single (move : GMove i a a' out) : GMoves i a a' out := by
  have moves := GMoves.more move .none
  rwa [List.append_nil] at moves

theorem GMoves.trans {a₁ a₂ a₃ : GAttrib κ} {first rest : List (GOut κ)}
    (before : GMoves i a₁ a₂ first) (after : GMoves i a₂ a₃ rest) :
    GMoves i a₁ a₃ (first ++ rest) := by
  induction before with
  | none => exact after
  | more move _ ih =>
    rw [List.append_assoc]
    exact .more move (ih after)

theorem GMoves.invariant {P : GAttrib κ → Prop} (moves : GMoves i a a' out)
    (kept : ∀ a a' out, GMove i a a' out → P a → P a') (held : P a) : P a' := by
  induction moves with
  | none => exact held
  | more move _ ih => exact ih (kept _ _ _ move held)

theorem sound_congr (sound : Sound a) (requests : a'.requests = a.requests)
    (responses : a'.responses = a.responses) : Sound a' := by
  obtain ⟨waiting, expecting, ofRequests, ofResponses⟩ := sound
  constructor
  · rwa [requests]
  · rwa [requests]
  · rwa [requests]
  · rwa [responses]

theorem wakeIfQueued_queues (a : GAttrib κ) : a.wakeIfQueued.requests = a.requests ∧
    a.wakeIfQueued.responses = a.responses ∧ a.wakeIfQueued.timeoutWatch = a.timeoutWatch ∧
    a.wakeIfQueued.stale = a.stale ∧ a.wakeIfQueued.events = a.events := by
  unfold GAttrib.wakeIfQueued
  split <;> exact ⟨rfl, rfl, rfl, rfl, rfl⟩

theorem Sound.pop {c : GCommand κ} {queue : List (GCommand κ)} (sound : Sound a)
    (head : a.requests = c :: queue) (requests : a'.requests = queue)
    (responses : a'.responses = a.responses) : Sound a' := by
  obtain ⟨waiting, expecting, ofRequests, ofResponses⟩ := sound
  rw [head] at waiting expecting ofRequests
  refine ⟨fun d later => ?_, fun d inside => ?_, fun d inside => ?_, responses ▸ ofResponses⟩
  · rw [requests] at later
    exact waiting d (List.mem_of_mem_tail later)
  · rw [requests] at inside
    exact expecting d (List.mem_cons_of_mem c inside)
  · rw [requests] at inside
    exact ofRequests d (List.mem_cons_of_mem c inside)

theorem Sound.asked_pop {c : GCommand κ} {queue : List (GCommand κ)} (sound : Sound a)
    (head : a.requests = c :: queue) (requests : a'.requests = queue) : a'.asked = none := by
  have waiting := sound.waiting
  rw [head] at waiting
  rw [asked_none_iff, requests]
  exact fun d first => waiting d (List.mem_of_mem_head? first)

theorem GMove.sound (move : GMove i a a' out) (sound : Sound a) : Sound a' := by
  cases move with
  | call called => exact (called.sound sound).1
  | around requests responses => exact sound_congr sound requests responses
  | wake => exact sound_congr sound (wakeIfQueued_queues a).1 (wakeIfQueued_queues a).2.1
  | stop _ => exact sound_congr sound rfl rfl
  | @answer c queue _ head =>
    obtain ⟨waiting, expecting, requests, responses⟩ := sound
    rw [head] at responses
    exact ⟨waiting, expecting, requests, fun d later => responses d (List.mem_cons_of_mem c later)⟩
  | command _ _ head _ _ => exact sound.pop head rfl rfl
  | @ask c queue _ _ head unsent expecting =>
    obtain ⟨waiting, expected, requests, responses⟩ := sound
    rw [head] at waiting expected requests
    refine ⟨waiting, fun d inside sent => ?_, fun d inside => ?_, responses⟩
    · rcases List.mem_cons.mp inside with rfl | later
      · exact expecting
      · exact expected d (List.mem_cons_of_mem c later) sent
    · rcases List.mem_cons.mp inside with rfl | later
      · exact requests c List.mem_cons_self
      · exact requests d (List.mem_cons_of_mem c later)
  | unexpected _ _ _ => exact sound_congr sound rfl rfl
  | result _ head _ =>
    obtain ⟨requests, responses, -⟩ := wakeIfQueued_queues ({ a with
      requests := _, timeoutWatch := false } : GAttrib κ)
    exact sound.pop head requests responses
  | abort _ _ head => exact sound.pop head rfl rfl
  | expire _ _ => exact sound_congr sound rfl rfl

theorem GMoves.sound (moves : GMoves i a a' out) (sound : Sound a) : Sound a' :=
  moves.invariant (fun _ _ _ move => move.sound) sound

def GMovesTo (i : Incidents) (a a' : GAttrib κ) (out : List (GOut κ)) : Prop :=
  ∃ put, GMoves i a a' put ∧ out.Perm put

theorem GMovesTo.single (move : GMove i a a' out) : GMovesTo i a a' out :=
  ⟨out, .single move, .refl out⟩

theorem GMovesTo.trans {a₁ a₂ a₃ : GAttrib κ} {first rest : List (GOut κ)}
    (before : GMovesTo i a₁ a₂ first) (after : GMovesTo i a₂ a₃ rest) :
    GMovesTo i a₁ a₃ (first ++ rest) := by
  obtain ⟨_, moves, same⟩ := before
  obtain ⟨_, later, same'⟩ := after
  exact ⟨_, moves.trans later, same.append same'⟩

theorem GMovesTo.perm {put : List (GOut κ)} (moves : GMovesTo i a a' put)
    (same : out.Perm put) : GMovesTo i a a' out := by
  obtain ⟨_, moves, same'⟩ := moves
  exact ⟨_, moves, same.trans same'⟩

theorem GMovesTo.sound (moves : GMovesTo i a a' out) (sound : Sound a) : Sound a' := by
  obtain ⟨_, moves, _⟩ := moves
  exact moves.sound sound

theorem calls_moves {cs : List (GCall κ)} (sound : Sound a)
    (allowed : ∀ c ∈ cs, c.Plain ∨ a.asked = none)
    (cancelling : ∀ c ∈ cs, ∀ id, c.Cancels id → i.cancels id) :
    GMovesTo i a (a.calls cs).1 (a.calls cs).2 ∧ (a.calls cs).1.asked = a.asked ∧
      (a.calls cs).1.stale = a.stale ∧ (a.calls cs).1.events = a.events := by
  unfold GAttrib.calls
  induction cs generalizing a with
  | nil => exact ⟨⟨_, .none, .refl _⟩, rfl, rfl, rfl⟩
  | cons c cs ih =>
    have called := call_called sound (allowed c List.mem_cons_self)
      (cancelling c List.mem_cons_self)
    obtain ⟨sound', asked⟩ := called.sound sound
    obtain ⟨-, stale, events⟩ := called.watches
    have later : ∀ d ∈ cs, d.Plain ∨ (a.call c).1.asked = none := by
      intro d later
      rw [asked]
      exact allowed d (List.mem_cons_of_mem c later)
    obtain ⟨moves, asked', stale', events'⟩ := ih sound' later
      fun d later => cancelling d (List.mem_cons_of_mem c later)
    exact ⟨(GMovesTo.single (.call called)).trans moves, asked'.trans asked, stale'.trans stale,
      events'.trans events⟩

theorem canWriteData_moves (sound : Sound a) (written : Bool) (losing : written = false → i.loses) :
    GMovesTo i a (a.canWriteData written).1 (a.canWriteData written).2 := by
  unfold GAttrib.canWriteData
  dsimp only
  split
  · rename_i stale
    exact .single (.stop (Or.inl stale))
  · rename_i live
    have live := eq_false_of_ne_true live
    split
    · rename_i c queue head
      obtain ⟨unsent, alone, -⟩ := sound.responses c (head ▸ List.mem_cons_self)
      cases written with
      | false =>
        rw [if_pos (Or.inr Bool.false_ne_true)]
        exact .single (.stop (Or.inr (Or.inl (losing rfl))))
      | true =>
        simp only [unsent, alone, Bool.false_eq_true, not_true, or_self, if_false, if_true]
        exact .single (.answer live head)
    · rename_i c queue empty head
      cases written with
      | false =>
        rw [if_pos (Or.inr Bool.false_ne_true)]
        exact .single (.stop (Or.inr (Or.inl (losing rfl))))
      | true =>
        cases sent : c.sent with
        | true =>
          rw [if_pos (Or.inl rfl)]
          refine .single (.stop (Or.inr (Or.inr ⟨empty, fun d first => ?_⟩)))
          rw [head] at first
          cases first
          exact sent
        | false =>
          simp only [Bool.false_eq_true, not_true, or_self, if_false]
          split
          · rename_i alone
            exact .single (.command live empty head sent alone)
          · rename_i expecting
            exact .single (.ask live empty head sent expecting)
    · rename_i empty nothing
      refine .single (.stop (Or.inr (Or.inr ⟨empty, fun d first => ?_⟩)))
      rw [nothing] at first
      cases first

theorem dispatch_moves {onEvent : κ → List (GCall κ)} (plain : ∀ k, ∀ c ∈ onEvent k, c.Plain)
    (cancelling : ∀ k, ∀ c ∈ onEvent k, ∀ id, c.Cancels id → i.cancels id) (sound : Sound a)
    (pdu : List UInt8) (events : List (GEvent κ)) :
    GMovesTo i a (GAttrib.dispatch onEvent pdu events a).1
        (GAttrib.dispatch onEvent pdu events a).2 ∧
      (GAttrib.dispatch onEvent pdu events a).1.asked = a.asked ∧
      (GAttrib.dispatch onEvent pdu events a).1.stale = a.stale := by
  induction events generalizing a with
  | nil => exact ⟨⟨_, .none, .refl _⟩, rfl, rfl⟩
  | cons e events ih =>
    unfold GAttrib.dispatch
    split
    · have event : GMovesTo i a a [.event e.func pdu] := by
        refine .single (.around rfl rfl rfl rfl rfl fun o inside => ?_)
        exact Or.inl ⟨e.func, pdu, List.mem_singleton.mp inside⟩
      obtain ⟨called, asked, stale, -⟩ := @calls_moves κ a i (onEvent e.func) sound
        (fun c inside => Or.inl (plain e.func c inside)) (cancelling e.func)
      obtain ⟨rest, asked', stale'⟩ := ih (called.sound sound)
      refine ⟨?_, asked'.trans asked, stale'.trans stale⟩
      exact (event.trans called).trans rest
    · exact ih sound

theorem resultCalls_moves {cs : List (GCall κ)}
    (cancelling : ∀ c ∈ cs, ∀ id, c.Cancels id → i.cancels id) (sound : Sound a)
    (idle : a.asked = none) (c : GCommand κ) :
    GMovesTo i a (if c.func.isSome then a.calls cs else (a, [])).1
        (if c.func.isSome then a.calls cs else (a, [])).2 ∧
      (if c.func.isSome then a.calls cs else (a, [])).1.asked = none ∧
      (if c.func.isSome then a.calls cs else (a, [])).1.stale = a.stale := by
  split
  · obtain ⟨moves, asked, stale, -⟩ := @calls_moves κ a i cs sound
      (fun _ _ => Or.inr idle) cancelling
    exact ⟨moves, asked.trans idle, stale⟩
  · exact ⟨⟨_, .none, .refl _⟩, idle, rfl⟩

theorem receivedData_moves {onEvent : κ → List (GCall κ)}
    (plain : ∀ k, ∀ c ∈ onEvent k, c.Plain)
    (cancelling : ∀ k, ∀ c ∈ onEvent k, ∀ id, c.Cancels id → i.cancels id) {onResult : List (GCall κ)}
    (cancelling' : ∀ c ∈ onResult, ∀ id, c.Cancels id → i.cancels id) (sound : Sound a)
    (pdu : List UInt8) :
    GMovesTo i a (a.receivedData pdu onEvent onResult).1
      (a.receivedData pdu onEvent onResult).2 := by
  unfold GAttrib.receivedData
  dsimp only
  split
  · exact .single (.around rfl rfl rfl rfl rfl fun _ inside => absurd inside List.not_mem_nil)
  · rename_i live
    obtain ⟨dispatched, -, stale⟩ :=
      @dispatch_moves κ a i onEvent plain cancelling sound (pdu.take 512) a.events
    have sound₁ := dispatched.sound sound
    have live₁ := stale.trans (eq_false_of_ne_true live)
    generalize GAttrib.dispatch onEvent (pdu.take 512) a.events a = after at *
    obtain ⟨a₁, out₁⟩ := after
    dsimp only at dispatched sound₁ live₁ ⊢
    split
    · exact dispatched
    · rename_i response
      have response := eq_true_of_ne_false response
      split
      · rename_i empty
        have rest : GMovesTo i a₁ _ [] :=
          .single (.unexpected (decide (a₁.events ≠ [])) live₁ empty)
        have both := dispatched.trans rest
        rwa [List.append_nil] at both
      · rename_i c queue head
        have popped : GMove i a₁ _ _ := .result live₁ head response
        have sound₂ := popped.sound sound₁
        have idle : (({ a₁ with requests := queue, timeoutWatch := false } :
            GAttrib κ).wakeIfQueued).asked = none :=
          sound₁.asked_pop head (wakeIfQueued_queues _).1
        obtain ⟨called, -, -⟩ :=
          @resultCalls_moves κ _ i onResult cancelling' sound₂ idle c
        have all := (dispatched.trans (.single popped)).trans called
        refine all.perm ?_
        simp only [List.append_assoc]
        refine List.Perm.append_left _ (List.Perm.append_left _ ?_)
        exact List.perm_append_comm

theorem flush_moves (time : i.expires) (queue : List (GCommand κ)) (head : a.requests = queue) :
    GMovesTo i a { a with requests := [] }
      (queue.flatMap fun c => resultOf c attEcodeAborted none ++ commandDestroy c) := by
  induction queue generalizing a with
  | nil =>
    have same : ({ a with requests := [] } : GAttrib κ) = a := by rw [← head]
    rw [same]
    exact ⟨_, .none, .refl _⟩
  | cons c queue ih =>
    have first : GMovesTo i a _ _ := .single (.abort attEcodeAborted time head)
    rw [List.flatMap_cons]
    exact first.trans (ih rfl)

theorem abort_moves {cs : List (GCall κ)} {c : GCommand κ} {queue : List (GCommand κ)}
    (cancelling : ∀ c ∈ cs, ∀ id, c.Cancels id → i.cancels id) (status : UInt8)
    (time : i.expires) (sound : Sound a) (head : a.requests = c :: queue)
    (called : GAttrib κ × List (GOut κ))
    (calls : called = if c.func.isSome then ({ a with requests := queue } : GAttrib κ).calls cs
      else ({ a with requests := queue }, [])) :
    GMovesTo i a called.1 (resultOf c status none ++ called.2 ++ commandDestroy c) ∧
      called.1.asked = none := by
  have popped : GMove i a _ _ := .abort status time head
  have idle : ({ a with requests := queue } : GAttrib κ).asked = none := sound.asked_pop head rfl
  obtain ⟨moves, asked, -⟩ :=
    @resultCalls_moves κ _ i cs cancelling (popped.sound sound) idle c
  rw [← calls] at moves asked
  refine ⟨?_, asked⟩
  refine ((GMovesTo.single popped).trans moves).perm ?_
  simp only [List.append_assoc]
  exact List.Perm.append_left _ List.perm_append_comm

theorem abortAll_moves {onResult : List (List (GCall κ))}
    (cancelling : ∀ cs ∈ onResult, ∀ c ∈ cs, ∀ id, c.Cancels id → i.cancels id) (time : i.expires)
    (sound : Sound a) (idle : a.asked = none) :
    GMovesTo i a (GAttrib.abortAll onResult a).1 (GAttrib.abortAll onResult a).2 ∧
      (GAttrib.abortAll onResult a).1.requests = [] := by
  induction onResult generalizing a with
  | nil => exact ⟨flush_moves time a.requests rfl, rfl⟩
  | cons cs onResult ih =>
    unfold GAttrib.abortAll
    split
    · rename_i empty
      exact ⟨⟨_, .none, .refl _⟩, empty⟩
    · rename_i c queue head
      dsimp only
      obtain ⟨moves, asked⟩ := @abort_moves κ a i cs c queue
        (cancelling cs List.mem_cons_self) attEcodeAborted time sound head _ rfl
      obtain ⟨rest, empty⟩ := ih (fun cs later => cancelling cs (List.mem_cons_of_mem _ later))
        (moves.sound sound) asked
      exact ⟨moves.trans rest, empty⟩

theorem disconnectTimeout_moves {onResult : List (List (GCall κ))}
    (cancelling : ∀ cs ∈ onResult, ∀ c ∈ cs, ∀ id, c.Cancels id → i.cancels id) (time : i.expires)
    (sound : Sound a) :
    GMovesTo i a (a.disconnectTimeout onResult).1 (a.disconnectTimeout onResult).2 ∧
      (a.disconnectTimeout onResult).1.requests = [] ∧
      (a.disconnectTimeout onResult).1.stale = true := by
  unfold GAttrib.disconnectTimeout
  split
  · rename_i empty
    exact ⟨.single (.expire time empty), empty, rfl⟩
  · rename_i c queue head
    dsimp only
    have first : ∀ c ∈ onResult.headD [], ∀ id, c.Cancels id → i.cancels id := by
      cases onResult with
      | nil => exact fun _ inside => absurd inside List.not_mem_nil
      | cons cs onResult => exact cancelling cs List.mem_cons_self
    obtain ⟨moves, asked⟩ := @abort_moves κ a i (onResult.headD []) c queue first
      attEcodeTimeout time sound head _ rfl
    obtain ⟨rest, empty⟩ := @abortAll_moves κ _ i onResult.tail
      (fun cs later => cancelling cs (List.mem_of_mem_tail later)) time (moves.sound sound) asked
    have last : GMovesTo i _ _ [] := .single (.expire time empty)
    have all := (moves.trans rest).trans last
    rw [List.append_nil] at all
    exact ⟨all, empty, rfl⟩

def GStep.Loses : GStep κ → Prop
  | .writable written => written = false
  | _ => False

def GStep.Expires : GStep κ → Prop
  | .timeout _ => True
  | _ => False

theorem eventDestroy_notifies {e : GEvent κ} {o : GOut κ} (inside : o ∈ eventDestroy e) :
    ∃ k, o = .eventNotify k := by
  simp only [eventDestroy, Option.mem_toList, Option.map_eq_some_iff] at inside
  obtain ⟨k, -, rfl⟩ := inside
  exact ⟨k, rfl⟩

/-- Some call of the step cancels a command of this number. -/
def GStep.Cancels (id : UInt32) : GStep κ → Prop
  | .call c => c.Cancels id
  | .received _ onEvent onResult =>
    (∃ k, ∃ c ∈ onEvent k, c.Cancels id) ∨ ∃ c ∈ onResult, c.Cancels id
  | .timeout onResult => ∃ cs ∈ onResult, ∃ c ∈ cs, c.Cancels id
  | _ => False

def GStep.incidents (step : GStep κ) : Incidents where
  loses := step.Loses
  expires := step.Expires
  cancels := fun id => step.Cancels id

theorem step_moves {step : GStep κ} (sound : Sound a) (proper : step.Proper) :
    GMovesTo step.incidents a (a.step step).1 (a.step step).2 := by
  have none : GMovesTo step.incidents a a [] := ⟨_, .none, .refl _⟩
  cases step with
  | call c => exact .single (.call (call_called sound (Or.inl proper) fun _ cancels => cancels))
  | setMtu mtu =>
    refine .single (.around ?_ ?_ ?_ ?_ ?_ fun _ inside => absurd inside List.not_mem_nil) <;>
      simp only [GAttrib.step, GAttrib.setMtu] <;> split <;> rfl
  | register e =>
    exact .single (.around rfl rfl rfl rfl rfl fun _ inside => absurd inside List.not_mem_nil)
  | unregister id =>
    refine .single (.around ?_ ?_ ?_ ?_ ?_ fun o inside => Or.inr ?_)
    on_goal 6 =>
      simp only [GAttrib.step, GAttrib.unregister] at inside
      split at inside
      · cases inside
      · cases found : a.events.find? fun e => e.id = id with
        | none =>
          rw [found] at inside
          cases inside
        | some e =>
          rw [found] at inside
          exact eventDestroy_notifies inside
    all_goals
      simp only [GAttrib.step, GAttrib.unregister]
      split <;> rfl
  | unregisterAll =>
    refine .single (.around rfl rfl rfl rfl rfl fun o inside => Or.inr ?_)
    obtain ⟨e, -, inside⟩ := List.mem_flatMap.mp inside
    exact eventDestroy_notifies inside
  | writable written =>
    simp only [GAttrib.step]
    split
    · exact canWriteData_moves sound written fun lost => lost
    · exact none
  | received pdu onEvent onResult =>
    simp only [GAttrib.step]
    split
    · exact receivedData_moves proper (fun k c inside _ cancels => Or.inl ⟨k, c, inside, cancels⟩)
        (fun c inside _ cancels => Or.inr ⟨c, inside, cancels⟩) sound pdu
    · exact none
  | receiveFailed =>
    simp only [GAttrib.step]
    split
    · unfold GAttrib.receiveFailed
      split
      · exact .single (.around rfl rfl rfl rfl rfl fun _ inside => absurd inside List.not_mem_nil)
      · exact .single .wake
    · exact none
  | receiveHup =>
    simp only [GAttrib.step]
    split
    · exact .single (.around rfl rfl rfl rfl rfl fun _ inside => absurd inside List.not_mem_nil)
    · exact none
  | timeout onResult =>
    simp only [GAttrib.step]
    split
    · have cancelling : ∀ cs ∈ onResult, ∀ c ∈ cs, ∀ id, c.Cancels id →
          (GStep.timeout onResult).incidents.cancels id :=
        fun cs inside c inside' _ cancels => ⟨cs, inside, c, inside', cancels⟩
      exact (disconnectTimeout_moves cancelling trivial sound).1
    · exact none

end AnkiDrive
