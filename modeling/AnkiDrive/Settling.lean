import AnkiDrive.Alignment

/-! A channel and a server that answers settle: from every state that they reach, everything that
is queued is written, everything that is asked is answered, and every function is called. -/
namespace AnkiDrive
open CModel

variable {κ : Type} {a a' : GAttrib κ} {out : List (GOut κ)} {pdu : List UInt8} {x : Exchange κ}
  {put : List (XOut κ)} {done : List (GCommand κ × List UInt8)}
  {pending : List (List UInt8 × List UInt8)} {steps : List (XStep κ)}

/-- The channel hangs up. -/
def GStep.HangsUp : GStep κ → Prop
  | .receiveHup => True
  | _ => False

/-- The channel takes what is written to it and does not hang up. -/
def XStep.Calm : XStep κ → Prop
  | .here s => ¬ s.Loses ∧ ¬ s.HangsUp
  | _ => True

/-- What a step of the exchange is for the channel. -/
inductive ClientStep (x : Exchange κ) (s : XStep κ) : Prop where
  | same (client : (x.step s).1.client = x.client) (out : clientIn (x.step s).2 = [])
  | step (g : GStep κ) (client : (x.step s).1.client = (x.client.step g).1)
      (out : clientIn (x.step s).2 = (x.client.step g).2) (proper : s.Proper → g.Proper)
      (calm : s.Calm → ¬ g.Loses) (cancels : ∀ id, g.Cancels id → s.Cancels id)

theorem clientStep (x : Exchange κ) (s : XStep κ) : ClientStep x s := by
  cases s with
  | here g => exact .step g rfl (clientIn_map _) here_proper And.left fun _ cancels => cancels
  | serve answer =>
    cases waiting : x.toServer with
    | nil => apply ClientStep.same <;> simp [Exchange.step, waiting]
    | cons pdu rest =>
      cases asks : asksAnswer pdu with
      | false => apply ClientStep.same <;> simp [Exchange.step, waiting, asks]
      | true =>
        apply ClientStep.same <;> simp [Exchange.step, waiting, asks, clientIn, XOut.ofClient]
  | push pdu => exact .same rfl rfl
  | deliver onEvent onResult =>
    cases head : x.toClient with
    | nil => apply ClientStep.same <;> simp [Exchange.step, head]
    | cons pdu rest =>
      refine .step (.received pdu onEvent onResult) ?_ ?_ (fun proper => proper)
        (fun _ loses => loses) fun _ cancels => cancels
      · simp [Exchange.step, head]
      · simp [Exchange.step, head]

theorem exchange_client (mtu : Nat) (proper : ∀ s ∈ steps, s.Proper)
    (calm : ∀ s ∈ steps, s.Calm) :
    ∃ gs : List (GStep κ), (∀ g ∈ gs, g.Proper ∧ ¬ g.Loses) ∧
      ((∀ s ∈ steps, ∀ id, ¬ s.Cancels id) → ∀ g ∈ gs, ∀ id, ¬ g.Cancels id) ∧
      runMachine GAttrib.step (.new mtu) gs =
        ((runMachine Exchange.step (.new mtu : Exchange κ) steps).1.client,
          clientIn (runMachine Exchange.step (.new mtu : Exchange κ) steps).2) := by
  have from_here : ∀ (x : Exchange κ), ∃ gs : List (GStep κ), (∀ g ∈ gs, g.Proper ∧ ¬ g.Loses) ∧
      ((∀ s ∈ steps, ∀ id, ¬ s.Cancels id) → ∀ g ∈ gs, ∀ id, ¬ g.Cancels id) ∧
      runMachine GAttrib.step x.client gs =
        ((runMachine Exchange.step x steps).1.client,
          clientIn (runMachine Exchange.step x steps).2) := by
    induction steps with
    | nil => exact fun x => ⟨[], by simp, by simp, rfl⟩
    | cons s steps ih =>
      intro x
      rw [List.forall_mem_cons] at proper calm
      obtain ⟨gs, fine, uncancelled, ran⟩ := ih proper.2 calm.2 (x.step s).1
      simp only [runMachine]
      cases clientStep x s with
      | same client out =>
        rw [client] at ran
        refine ⟨gs, fine, fun none => uncancelled (List.forall_mem_cons.mp none).2, ?_⟩
        rw [ran, clientIn_append, out, List.nil_append]
      | step g client out allowed quiet cancels =>
        rw [client] at ran
        refine ⟨g :: gs, ?_, fun none => ?_, ?_⟩
        · exact List.forall_mem_cons.mpr ⟨⟨allowed proper.1, quiet calm.1⟩, fine⟩
        · rw [List.forall_mem_cons] at none ⊢
          exact ⟨fun id taken => none.1 id (cancels id taken), uncancelled none.2⟩
        · simp only [runMachine]
          rw [ran, clientIn_append, out]
  exact from_here (.new mtu)

theorem call_readWatch (a : GAttrib κ) (call : GCall κ) :
    (a.call call).1.readWatch = a.readWatch := by
  cases call with
  | send id pdu func notify =>
    simp only [GAttrib.call, GAttrib.send, GAttrib.wakeUpSender]
    split_ifs <;> rfl
  | cancel id =>
    simp only [GAttrib.call, GAttrib.cancel]
    split <;> rfl
  | cancelAll => rfl

theorem calls_readWatch (a : GAttrib κ) (cs : List (GCall κ)) :
    (a.calls cs).1.readWatch = a.readWatch :=
  runMachine_invariant (P := fun b : GAttrib κ => b.readWatch = a.readWatch) rfl
    (fun b call same _ => (call_readWatch b call).trans same)
    (fun _ _ => trivial : ∀ c ∈ cs, (fun _ => True) c)

theorem dispatch_readWatch (onEvent : κ → List (GCall κ)) (pdu : List UInt8)
    (events : List (GEvent κ)) (a : GAttrib κ) :
    (GAttrib.dispatch onEvent pdu events a).1.readWatch = a.readWatch := by
  induction events generalizing a with
  | nil => rfl
  | cons e events ih =>
    unfold GAttrib.dispatch
    split
    · exact (ih _).trans (calls_readWatch a _)
    · exact ih a

theorem wakeIfQueued_readWatch (a : GAttrib κ) : a.wakeIfQueued.readWatch = a.readWatch := by
  unfold GAttrib.wakeIfQueued
  split <;> rfl

theorem canWriteData_readWatch (a : GAttrib κ) (written : Bool) :
    (a.canWriteData written).1.readWatch = a.readWatch := by
  unfold GAttrib.canWriteData
  dsimp only
  split
  · rfl
  · split
    · split_ifs <;> rfl
    · split_ifs <;> rfl
    · rfl

theorem receivedData_readWatch {onEvent : κ → List (GCall κ)}
    (plain : ∀ k, ∀ c ∈ onEvent k, c.Plain) (onResult : List (GCall κ)) (sound : Sound a)
    (live : a.stale = false) (asked : isResponse (opcodeOf pdu) = true → a.asked ≠ none) :
    (a.receivedData pdu onEvent onResult).1.readWatch = a.readWatch := by
  obtain ⟨-, same, -⟩ :=
    @dispatch_moves κ a ⟨False, False, fun _ => True⟩ onEvent plain (fun _ _ _ _ _ => trivial) sound
      (pdu.take 512) a.events
  have watch := dispatch_readWatch onEvent (pdu.take 512) a.events a
  unfold GAttrib.receivedData
  simp only [live, Bool.false_eq_true, if_false, opcodeOf_take]
  generalize GAttrib.dispatch onEvent (pdu.take 512) a.events a = after at *
  obtain ⟨a₁, out₁⟩ := after
  dsimp only at same watch ⊢
  split
  · exact watch
  · rename_i response
    cases head : a₁.requests with
    | nil =>
      have idle : a₁.asked = none := by simp [GAttrib.asked, GAttrib.outstanding, head]
      exact absurd (same.symm.trans idle) (asked (eq_true_of_ne_false response))
    | cons c queue =>
      dsimp only
      split
      · exact (calls_readWatch _ _).trans ((wakeIfQueued_readWatch _).trans watch)
      · exact (wakeIfQueued_readWatch _).trans watch

theorem here_reading {s : GStep κ} (proper : (XStep.here s).Proper) (calm : ¬ s.HangsUp)
    (live : (a.step s).1.stale = false) (sound : Sound a) :
    (a.step s).1.readWatch = a.readWatch := by
  cases s with
  | call c => exact call_readWatch a c
  | setMtu mtu =>
    simp only [GAttrib.step, GAttrib.setMtu]
    split <;> rfl
  | register e => rfl
  | unregister id =>
    simp only [GAttrib.step, GAttrib.unregister]
    split <;> rfl
  | unregisterAll => rfl
  | writable written =>
    simp only [GAttrib.step]
    split
    · exact canWriteData_readWatch a written
    · rfl
  | received pdu onEvent onResult => exact proper.elim
  | receiveFailed =>
    simp only [GAttrib.step, GAttrib.receiveFailed] at live ⊢
    split at live
    · rename_i watch
      rw [if_pos watch]
      split at live
      · rename_i stale
        exact Bool.noConfusion (stale.symm.trans live)
      · rename_i stale
        rw [if_neg stale]
        exact wakeIfQueued_readWatch a
    · rename_i watch
      rw [if_neg watch]
  | receiveHup => exact absurd trivial calm
  | timeout onResult =>
    rcases timeout_stale (s := .timeout onResult) sound trivial with stale | same
    · exact Bool.noConfusion (stale.symm.trans live)
    · rw [same]

def unsentIn (queue : List (GCommand κ)) : List (GCommand κ) := queue.filter fun c => !c.sent

/-- A queued command is to be written, served and answered. -/
def rank (x : Exchange κ) : Nat :=
  3 * (x.client.responses.length + (unsentIn x.client.requests).length) +
    2 * x.toServer.length + x.toClient.length

/-- A step that brings the exchange on: no function calls anything. -/
def XStep.Settles (answer : List UInt8 → List UInt8) (s : XStep κ) : Prop :=
  s = .here (.writable true) ∨ s = .serve answer ∨ s = .deliver (fun _ => []) []

structure Ready (x : Exchange κ) : Prop where
  aligned : ∃ put done pending, Aligned (fun _ => True) x put done pending
  awake : Awake x.client
  live : x.client.stale = false
  reading : x.client.readWatch = true

theorem settles_proper {answer : List UInt8 → List UInt8} {s : XStep κ}
    (answers : ∀ request, asksAnswer request = true → Answers request (answer request))
    (settles : s.Settles answer) : s.Proper ∧ s.Calm := by
  rcases settles with rfl | rfl | rfl
  · exact ⟨trivial, Bool.noConfusion, not_false⟩
  · exact ⟨answers, trivial⟩
  · exact ⟨fun _ _ inside => absurd inside List.not_mem_nil, trivial⟩

theorem dispatch_silent (pdu : List UInt8) (events : List (GEvent κ)) (a : GAttrib κ) :
    (GAttrib.dispatch (fun _ => []) pdu events a).1 = a := by
  induction events generalizing a with
  | nil => rfl
  | cons e events ih =>
    unfold GAttrib.dispatch
    split
    · exact ih a
    · exact ih a

theorem receivedData_silent (pdu : List UInt8) (live : a.stale = false) :
    (a.receivedData pdu (fun _ => []) []).1.responses = a.responses ∧
      (unsentIn (a.receivedData pdu (fun _ => []) []).1.requests).length ≤
        (unsentIn a.requests).length ∧
      (a.receivedData pdu (fun _ => []) []).1.stale = false := by
  have same := dispatch_silent (pdu.take 512) a.events a
  unfold GAttrib.receivedData
  simp only [live, Bool.false_eq_true, if_false, opcodeOf_take]
  generalize GAttrib.dispatch (fun _ => []) (pdu.take 512) a.events a = after at *
  obtain ⟨a₁, out₁⟩ := after
  obtain rfl : a₁ = a := same
  dsimp only
  split
  · exact ⟨rfl, Nat.le_refl _, live⟩
  · cases head : a₁.requests with
    | nil =>
      exact ⟨rfl, Nat.le_refl _, live⟩
    | cons c queue =>
      obtain ⟨requests, responses, -, stale, -⟩ := wakeIfQueued_queues ({ a₁ with
        requests := queue, timeoutWatch := false } : GAttrib κ)
      have fewer : (unsentIn queue).length ≤ (unsentIn (c :: queue)).length :=
        ((List.sublist_cons_self c queue).filter _).length_le
      simp only [GAttrib.calls, runMachine, ite_self, requests, responses, stale]
      exact ⟨trivial, fewer, live⟩

theorem canWriteData_settles (sound : Sound a) (live : a.stale = false) (more : Writable a) :
    (a.canWriteData true).1.stale = false ∧
      (writesIn (a.canWriteData true).2).length = 1 ∧
      (a.canWriteData true).1.responses.length +
          (unsentIn (a.canWriteData true).1.requests).length + 1 =
        a.responses.length + (unsentIn a.requests).length := by
  unfold GAttrib.canWriteData
  simp only [live, Bool.false_eq_true, if_false, not_true, or_false]
  cases responses : a.responses with
  | cons c queue =>
    obtain ⟨unsent, alone, -⟩ := sound.responses c (responses ▸ List.mem_cons_self)
    simp only [unsent, alone, Bool.false_eq_true, if_false, if_true]
    refine ⟨trivial, by simp, ?_⟩
    rw [List.length_cons]
    omega
  | nil =>
    have first : ∃ c ∈ a.requests.head?, c.sent = false := more.resolve_left fun held => held responses
    cases requests : a.requests with
    | nil =>
      rw [requests] at first
      obtain ⟨c, inside, -⟩ := first
      cases inside
    | cons c queue =>
      have unsent : c.sent = false := by
        rw [requests] at first
        obtain ⟨d, inside, unsent⟩ := first
        cases inside
        exact unsent
      simp only [unsent, Bool.false_eq_true, if_false]
      split
      · exact ⟨rfl, by simp, by simp [unsentIn, unsent]⟩
      · exact ⟨rfl, by simp, by simp [unsentIn, unsent]⟩

theorem Ready.idle (ready : Ready x) (unserved : x.toServer = []) (unread : x.toClient = []) :
    x.client.asked = none := by
  obtain ⟨⟨_, _, pending, aligned⟩, -, live, -⟩ := ready
  have back := aligned.flight.back
  have asked := aligned.flight.asked live
  rw [unread, List.filter_nil, eq_comm, List.map_eq_nil_iff] at back
  rw [back, unserved, List.map_nil, List.filter_nil, List.nil_append] at asked
  exact Option.toList_eq_nil_iff.mp asked.symm

theorem Ready.settled (ready : Ready x) (zero : rank x = 0) :
    x.client.requests = [] ∧ x.client.responses = [] ∧ x.toServer = [] ∧ x.toClient = [] := by
  unfold rank at zero
  have responses : x.client.responses = [] := List.length_eq_zero_iff.mp (by omega)
  have unsent : unsentIn x.client.requests = [] := List.length_eq_zero_iff.mp (by omega)
  have unserved : x.toServer = [] := List.length_eq_zero_iff.mp (by omega)
  have unread : x.toClient = [] := List.length_eq_zero_iff.mp (by omega)
  have idle := ready.idle unserved unread
  obtain ⟨⟨_, _, _, aligned⟩, -, -, -⟩ := ready
  have all := aligned.sound.unsent idle
  have requests : unsentIn x.client.requests = x.client.requests :=
    List.filter_eq_self.mpr fun c inside => by simp [all c inside]
  exact ⟨requests.symm.trans unsent, responses, unserved, unread⟩

theorem Ready.deliver {rest : List (List UInt8)} (ready : Ready x) (head : x.toClient = pdu :: rest) :
    Ready (x.step (.deliver (fun _ => []) [])).1 ∧
      rank (x.step (.deliver (fun _ => []) [])).1 < rank x := by
  obtain ⟨⟨put, done, pending, aligned⟩, awake, live, reading⟩ := ready
  have proper : (XStep.deliver (fun _ => []) [] : XStep κ).Proper :=
    fun _ _ inside => absurd inside List.not_mem_nil
  have plain : ∀ k : κ, ∀ c ∈ (fun _ => [] : κ → List (GCall κ)) k, c.Plain := proper
  have aligned' := aligned_step proper (fun _ _ => trivial) aligned
  obtain ⟨responses, unsent, live'⟩ := receivedData_silent pdu live
  have step : x.client.step (.received pdu (fun _ => []) []) =
      x.client.receivedData pdu (fun _ => []) [] := by simp only [GAttrib.step, reading, if_true]
  have awake' : Awake (x.client.receivedData pdu (fun _ => []) []).1 := by
    rw [← step]
    exact step_awake (s := .received pdu (fun _ => []) []) plain not_false aligned.sound awake
  have asked : isResponse (opcodeOf pdu) = true → x.client.asked ≠ none := by
    intro response
    obtain ⟨p, -, -, -, -, -, asked⟩ := aligned.flight.answer head live response
    rw [asked]
    exact Option.some_ne_none _
  have silent : writesIn (x.client.receivedData pdu (fun _ => []) []).2 = [] := by
    cases response : isResponse (opcodeOf pdu) with
    | false => exact (receivedData_other plain [] aligned.sound response).1.1
    | true =>
      obtain ⟨p, -, rfl, -, answers, -, asked⟩ := aligned.flight.answer head live response
      have uncancelled : ∀ k : κ, ∀ c ∈ (fun _ : κ => ([] : List (GCall κ))) k, ∀ id,
          c.Cancels id → False := fun _ _ inside => absurd inside List.not_mem_nil
      obtain ⟨_, -, -, silent, -⟩ :=
        receivedData_answer plain uncancelled [] aligned.sound live asked answers response
      exact silent
  rw [deliver_taken head reading live] at aligned' ⊢
  refine ⟨⟨⟨_, aligned'⟩, awake', live', ?_⟩, ?_⟩
  · exact (receivedData_readWatch plain [] aligned.sound live asked).trans reading
  · simp only [rank, silent, responses, head, List.append_nil, List.length_cons]
    omega

theorem Ready.serve {answer : List UInt8 → List UInt8} {rest : List (List UInt8)}
    (answers : ∀ request, asksAnswer request = true → Answers request (answer request))
    (ready : Ready x) (head : x.toServer = pdu :: rest) :
    Ready (x.step (.serve answer)).1 ∧ rank (x.step (.serve answer)).1 < rank x := by
  obtain ⟨⟨put, done, pending, aligned⟩, awake, live, reading⟩ := ready
  have proper : (XStep.serve answer : XStep κ).Proper := answers
  have aligned' := aligned_step proper (fun _ _ => trivial) aligned
  cases asks : asksAnswer pdu with
  | false =>
    have moved : x.step (.serve answer) = ({ x with toServer := rest }, []) := by
      simp [Exchange.step, head, asks]
    rw [moved] at aligned' ⊢
    refine ⟨⟨⟨_, aligned'⟩, awake, live, reading⟩, ?_⟩
    simp only [rank, head, List.length_cons]
    omega
  | true =>
    have moved : x.step (.serve answer) = ({ x with
        toServer := rest, toClient := x.toClient ++ [answer pdu] },
        [.served pdu (answer pdu)]) := by simp [Exchange.step, head, asks]
    rw [moved] at aligned' ⊢
    refine ⟨⟨⟨_, aligned'⟩, awake, live, reading⟩, ?_⟩
    simp only [rank, head, List.length_cons, List.length_append, List.length_nil]
    omega

theorem Ready.write (ready : Ready x) (more : Writable x.client) :
    Ready (x.step (.here (.writable true))).1 ∧
      rank (x.step (.here (.writable true))).1 < rank x := by
  obtain ⟨⟨put, done, pending, aligned⟩, awake, live, reading⟩ := ready
  have proper : (XStep.here (.writable true) : XStep κ).Proper := trivial
  have aligned' := aligned_step proper (fun _ _ => trivial) aligned
  obtain ⟨live', one, fewer⟩ := canWriteData_settles aligned.sound live more
  have step : x.client.step (.writable true) = x.client.canWriteData true := by
    simp only [GAttrib.step, awake live more, if_true]
  have awake' : Awake (x.client.canWriteData true).1 := by
    rw [← step]
    exact step_awake (s := .writable true) trivial Bool.noConfusion aligned.sound awake
  simp only [Exchange.step, step] at aligned' ⊢
  refine ⟨⟨⟨_, aligned'⟩, awake', live', (canWriteData_readWatch _ _).trans reading⟩, ?_⟩
  simp only [rank, List.length_append, one]
  omega

theorem Ready.descends {answer : List UInt8 → List UInt8}
    (answers : ∀ request, asksAnswer request = true → Answers request (answer request))
    (ready : Ready x) (left : rank x ≠ 0) :
    ∃ s : XStep κ, s.Settles answer ∧ Ready (x.step s).1 ∧ rank (x.step s).1 < rank x := by
  cases unread : x.toClient with
  | cons pdu rest => exact ⟨_, Or.inr (Or.inr rfl), ready.deliver unread⟩
  | nil =>
    cases unserved : x.toServer with
    | cons pdu rest => exact ⟨_, Or.inr (Or.inl rfl), ready.serve answers unserved⟩
    | nil =>
      have idle := ready.idle unserved unread
      refine ⟨_, Or.inl rfl, ready.write ?_⟩
      cases requests : x.client.requests with
      | cons c queue =>
        rw [asked_none_iff, requests] at idle
        exact Or.inr ⟨c, by rw [requests]; rfl, idle c rfl⟩
      | nil =>
        refine Or.inl fun empty => left ?_
        simp [rank, requests, empty, unserved, unread, unsentIn]

def Reading (a : GAttrib κ) : Prop := a.stale = false → a.readWatch = true

theorem serve_client (x : Exchange κ) (answer : List UInt8 → List UInt8) :
    (x.step (.serve answer)).1.client = x.client := by
  cases waiting : x.toServer with
  | nil => simp only [Exchange.step, waiting]
  | cons pdu rest => cases asks : asksAnswer pdu <;> simp [Exchange.step, waiting, asks]

theorem reading_step {s : XStep κ} (proper : s.Proper) (calm : s.Calm)
    (aligned : Aligned (fun _ => True) x put done pending) (reading : Reading x.client) :
    Reading (x.step s).1.client := by
  intro live'
  cases s with
  | here g =>
    have live := (here_written proper aligned.sound).2.live live'
    exact (here_reading proper calm.2 live' aligned.sound).trans (reading live)
  | serve answer =>
    rw [serve_client] at live' ⊢
    exact reading live'
  | push pdu => exact reading live'
  | deliver onEvent onResult =>
    cases head : x.toClient with
    | nil =>
      simp only [Exchange.step, head] at live' ⊢
      exact reading live'
    | cons pdu rest =>
      cases live : x.client.stale with
      | true =>
        have dead : (x.step (.deliver onEvent onResult)).1.client.stale = true := by
          simp only [Exchange.step, head, GAttrib.step, GAttrib.receivedData, live, if_true]
          split
          · rfl
          · exact live
        exact Bool.noConfusion (dead.symm.trans live')
      | false =>
        have asked : isResponse (opcodeOf pdu) = true → x.client.asked ≠ none := by
          intro response
          obtain ⟨p, -, -, -, -, -, asked⟩ := aligned.flight.answer head live response
          rw [asked]
          exact Option.some_ne_none _
        rw [deliver_taken head (reading live) live]
        exact (receivedData_readWatch proper onResult aligned.sound live asked).trans (reading live)

theorem run_ready (mtu : Nat) (proper : ∀ s ∈ steps, s.Proper) (calm : ∀ s ∈ steps, s.Calm)
    (live : (runMachine Exchange.step (.new mtu : Exchange κ) steps).1.client.stale = false) :
    Ready (runMachine Exchange.step (.new mtu : Exchange κ) steps).1 := by
  have both : ∀ s ∈ steps, s.Proper ∧ s.Calm := fun s inside => ⟨proper s inside, calm s inside⟩
  obtain ⟨⟨done, pending, aligned⟩, reading⟩ :
      (∃ done pending, Aligned (fun _ => True)
        (runMachine Exchange.step (.new mtu : Exchange κ) steps).1
        (runMachine Exchange.step (.new mtu : Exchange κ) steps).2 done pending) ∧
      Reading (runMachine Exchange.step (.new mtu : Exchange κ) steps).1.client := by
    apply runMachine_induct
      (P := fun x out => (∃ done pending, Aligned (fun _ => True) x out done pending) ∧
        Reading x.client) _ _ both
    · exact ⟨⟨[], [], aligned_new mtu⟩, fun _ => rfl⟩
    · rintro x out s ⟨⟨done, pending, aligned⟩, reading⟩ ok
      exact ⟨aligned_step ok.1 (fun _ _ => trivial) aligned, reading_step ok.1 ok.2 aligned reading⟩
  obtain ⟨gs, fine, -, ran⟩ := @exchange_client κ steps mtu proper calm
  have awake : Awake (runMachine GAttrib.step (.new mtu : GAttrib κ) gs).1 :=
    run_awake mtu (fun g inside => (fine g inside).1) fun g inside => (fine g inside).2
  rw [ran] at awake
  exact ⟨⟨_, done, pending, aligned⟩, awake, live, reading live⟩

/-- Whatever happened before: while the channel takes what is written and has not hung up, a
bounded number of writes, answers and deliveries leaves nothing queued and nothing on its way, and
when nothing was cancelled every function was called with its result exactly once. -/
theorem exchange_settles (mtu : Nat) {answer : List UInt8 → List UInt8}
    (answers : ∀ request, asksAnswer request = true → Answers request (answer request))
    (proper : ∀ s ∈ steps, s.Proper) (calm : ∀ s ∈ steps, s.Calm)
    (live : (runMachine Exchange.step (.new mtu : Exchange κ) steps).1.client.stale = false) :
    ∃ more : List (XStep κ),
      more.length ≤ rank (runMachine Exchange.step (.new mtu : Exchange κ) steps).1 ∧
      (∀ s ∈ more, s.Settles answer) ∧
      let r := runMachine Exchange.step (.new mtu : Exchange κ) (steps ++ more)
      r.1.client.requests = [] ∧ r.1.client.responses = [] ∧ r.1.toServer = [] ∧
      r.1.toClient = [] ∧
      ((∀ s ∈ steps, ∀ id, ¬ s.Cancels id) → Answerable (acceptedIn (clientIn r.2)) →
        (funcsOf (acceptedIn (clientIn r.2))).Perm (resultsIn (clientIn r.2))) := by
  obtain ⟨more, short, settles, ready, zero⟩ :=
    @runMachine_descends _ _ _ Exchange.step Ready (XStep.Settles answer : XStep κ → Prop) rank
      (fun _ ready left => ready.descends answers left) _ (run_ready mtu proper calm live)
  refine ⟨more, short, settles, ?_⟩
  intro r
  have reached : r.1 = (runMachine Exchange.step
      (runMachine Exchange.step (.new mtu : Exchange κ) steps).1 more).1 := by
    simp only [r, runMachine_append]
  obtain ⟨requests, responses, unserved, unread⟩ := ready.settled zero
  rw [← reached] at requests responses unserved unread
  refine ⟨requests, responses, unserved, unread, fun uncancelled answerable => ?_⟩
  have later : ∀ s ∈ more, s.Proper ∧ s.Calm ∧ ∀ id, ¬ s.Cancels id := by
    intro s inside
    have allowed := settles_proper answers (settles s inside)
    refine ⟨allowed.1, allowed.2, ?_⟩
    rcases settles s inside with rfl | rfl | rfl
    · exact fun _ => not_false
    · exact fun _ => not_false
    · rintro id (⟨_, _, inside, -⟩ | ⟨_, inside, -⟩) <;> exact absurd inside List.not_mem_nil
  have all : ∀ s ∈ steps ++ more, s.Proper ∧ s.Calm ∧ ∀ id, ¬ s.Cancels id := by
    refine List.forall_mem_append.mpr ⟨fun s inside => ?_, later⟩
    exact ⟨proper s inside, calm s inside, uncancelled s inside⟩
  obtain ⟨gs, fine, untaken, ran⟩ := @exchange_client κ (steps ++ more) mtu
    (fun s inside => (all s inside).1) fun s inside => (all s inside).2.1
  have ran : runMachine GAttrib.step (.new mtu : GAttrib κ) gs = (r.1.client, clientIn r.2) := ran
  have results := run_results mtu (fun g inside => (fine g inside).1)
    (untaken fun s inside => (all s inside).2.2) (by rwa [ran])
  rw [ran] at results
  simpa only [requests, funcsOf_nil, List.append_nil] using results

theorem exchange_settles_readAgain :
    ∃ more : List (XStep Nat),
      more.length ≤ rank (runMachine Exchange.step (.new 23) readAgain).1 ∧
      (∀ s ∈ more, s.Settles oneByte) ∧
      let r := runMachine Exchange.step (.new 23) (readAgain ++ more)
      r.1.client.requests = [] ∧ r.1.client.responses = [] ∧ r.1.toServer = [] ∧
      r.1.toClient = [] ∧
      ((∀ s ∈ readAgain, ∀ id, ¬ s.Cancels id) → Answerable (acceptedIn (clientIn r.2)) →
        (funcsOf (acceptedIn (clientIn r.2))).Perm (resultsIn (clientIn r.2))) := by
  have calm : ∀ s ∈ readAgain, s.Calm := by
    simp [readAgain, XStep.Calm, GStep.Loses, GStep.HangsUp]
  exact exchange_settles 23 (fun _ _ => Or.inl rfl) readAgain_proper calm (by decide)

end AnkiDrive
