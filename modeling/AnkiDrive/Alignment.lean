import AnkiDrive.Exchange

/-! Over every interleaving of a channel and its server, the functions are called with the answers
to the requests of their own commands. -/
namespace AnkiDrive
open CModel

variable {κ : Type} {a a' : GAttrib κ} {out : List (GOut κ)} {i : Incidents}
  {queue queue' prior : List (GCommand κ)} {c : GCommand κ} {pdu request : List UInt8}
  {cancelled : UInt32 → Prop}

/-- An accepted command, which may have been sent, and which has lost its function only if it was
cancelled. -/
def Comes (cancelled : UInt32 → Prop) (accepted : List (GCommand κ)) (c : GCommand κ) : Prop :=
  ∃ d ∈ accepted, d.pdu = c.pdu ∧ d.id = c.id ∧
    (c.func = d.func ∨ (c.func = none ∧ cancelled c.id))

def Traced (cancelled : UInt32 → Prop) (accepted : List (GCommand κ)) (a : GAttrib κ) : Prop :=
  ∀ c ∈ a.queued, Comes cancelled accepted c

theorem Comes.more (comes : Comes cancelled prior c) (new : List (GCommand κ)) :
    Comes cancelled (prior ++ new) c := by
  obtain ⟨d, inside, same⟩ := comes
  exact ⟨d, List.mem_append_left _ inside, same⟩

theorem Reduces.comes {cancels : UInt32 → Prop} (reduces : Reduces cancels queue queue' out)
    (known : ∀ id, cancels id → cancelled id) (traced : ∀ c ∈ queue, Comes cancelled prior c) :
    ∀ c ∈ queue', Comes cancelled prior c := by
  induction reduces with
  | nil => exact traced
  | keep _ ih =>
    rw [List.forall_mem_cons] at traced ⊢
    exact ⟨traced.1, ih traced.2⟩
  | silence taken _ _ ih =>
    rw [List.forall_mem_cons] at traced ⊢
    obtain ⟨d, inside, same, number, -⟩ := traced.1
    exact ⟨⟨d, inside, same, number, Or.inr ⟨rfl, known _ taken⟩⟩, ih traced.2⟩
  | drop _ _ _ ih => exact ih fun c inside => traced c (List.mem_cons_of_mem _ inside)

/-- What is queued was accepted before or is accepted now. -/
def TracedOver (cancelled : UInt32 → Prop) (a a' : GAttrib κ) (out : List (GOut κ)) : Prop :=
  ∀ prior, Traced cancelled prior a → Traced cancelled (prior ++ acceptedIn out) a'

theorem tracedOver_additive : Additive (TracedOver (κ := κ) cancelled) where
  none a := by
    intro prior traced
    simpa using traced
  more a a₁ a₂ first rest before after := by
    intro prior traced
    have both := after _ (before prior traced)
    simpa using both
  perm a a' out put held same := by
    intro prior traced c inside
    obtain ⟨d, accepted, comes⟩ := held prior traced c inside
    have moved := (same.filterMap GOut.acceptedCommand).mem_iff (a := d)
    refine ⟨d, ?_, comes⟩
    rw [List.mem_append] at accepted ⊢
    exact accepted.imp_right moved.mpr

theorem tracedOver_of_subset (fewer : ∀ c ∈ a'.queued, c ∈ a.queued) :
    TracedOver cancelled a a' out :=
  fun _ traced c inside => (traced c (fewer c inside)).more _

theorem GMove.traced (move : GMove i a a' out) (known : ∀ id, i.cancels id → cancelled id) :
    TracedOver cancelled a a' out := by
  cases move with
  | call called =>
    cases called with
    | refused _ => exact tracedOver_of_subset fun _ inside => inside
    | @response live c pdu next made kind =>
      intro prior traced d inside
      simp only [GAttrib.queued, List.mem_append, List.mem_singleton] at inside
      rcases inside with old | old | rfl
      · exact (traced d (List.mem_append_left _ old)).more _
      · exact (traced d (List.mem_append_right _ old)).more _
      · exact ⟨d, by simp, rfl, rfl, Or.inl rfl⟩
    | @request live c pdu next made kind first idle =>
      intro prior traced d inside
      have parts : d ∈ a.queued ∨ d = c := by
        cases first with
        | true =>
          simp only [GAttrib.queued, if_true, List.cons_append, List.mem_cons] at inside
          exact inside.symm
        | false =>
          simp only [GAttrib.queued, Bool.false_eq_true, if_false, List.mem_append,
            List.mem_singleton] at inside
          rcases inside with (old | new) | old
          · exact Or.inl (List.mem_append_left _ old)
          · exact Or.inr new
          · exact Or.inl (List.mem_append_right _ old)
      rcases parts with old | rfl
      · exact (traced d old).more _
      · exact ⟨d, by simp, rfl, rfl, Or.inl rfl⟩
    | reduced _ left right =>
      intro prior traced
      have both := List.forall_mem_append.mp traced
      have kept := List.forall_mem_append.mpr ⟨left.comes known both.1, right.comes known both.2⟩
      exact fun d inside => (kept d inside).more _
  | around requests responses _ _ _ _ =>
    refine tracedOver_of_subset fun c inside => ?_
    simpa only [GAttrib.queued, requests, responses] using inside
  | wake =>
    refine tracedOver_of_subset fun c inside => ?_
    rwa [queued_wakeIfQueued] at inside
  | stop _ => exact tracedOver_of_subset fun _ inside => inside
  | answer _ head =>
    refine tracedOver_of_subset fun c inside => ?_
    simp only [GAttrib.queued, head, List.mem_append, List.mem_cons] at inside ⊢
    exact inside.imp_right Or.inr
  | command _ _ head _ _ =>
    refine tracedOver_of_subset fun c inside => ?_
    simp only [GAttrib.queued, head, List.mem_append, List.mem_cons] at inside ⊢
    exact inside.imp_left Or.inr
  | @ask c queue _ _ head _ _ =>
    intro prior traced
    simp only [Traced, GAttrib.queued, head, List.cons_append, List.forall_mem_cons] at traced ⊢
    exact ⟨traced.1.more _, fun d inside => (traced.2 d inside).more _⟩
  | unexpected _ _ _ => exact tracedOver_of_subset fun _ inside => inside
  | @result c queue buf _ head _ =>
    refine tracedOver_of_subset fun d inside => ?_
    rw [queued_wakeIfQueued] at inside
    simp only [GAttrib.queued, head, List.cons_append, List.mem_cons] at inside ⊢
    exact Or.inr inside
  | abort _ _ head =>
    refine tracedOver_of_subset fun d inside => ?_
    simp only [GAttrib.queued, head, List.cons_append, List.mem_cons] at inside ⊢
    exact Or.inr inside
  | expire _ _ => exact tracedOver_of_subset fun _ inside => inside

theorem GMovesTo.traced (moves : GMovesTo i a a' out) (sound : Sound a)
    (known : ∀ id, i.cancels id → cancelled id) : TracedOver cancelled a a' out := by
  obtain ⟨put, moves, same⟩ := moves
  exact tracedOver_additive.perm _ _ _ _
    (moves.additive tracedOver_additive (fun _ _ _ _ move => move.traced known) sound) same

theorem opcodeOf_take (pdu : List UInt8) : opcodeOf (pdu.take 512) = opcodeOf pdu := by
  cases pdu <;> rfl

theorem Answers.status (answers : Answers request pdu) :
    statusOf (opcode2expected (opcodeOf request)) (pdu.take 512) = statusGiven pdu := by
  have fourth : (pdu.take 512).getD 4 0 = pdu.getD 4 0 := by
    simp only [List.getD_eq_getElem?_getD, List.getElem?_take, Nat.reduceLT, if_true]
  rw [statusOf, statusGiven, opcodeOf_take, fourth]
  rcases answers with answer | error
  · rw [answer]
    simp
  · rw [if_pos error, if_pos error]

theorem resultCalls_quiet (a : GAttrib κ) (cs : List (GCall κ)) (named : Bool) :
    Quiet (if named then a.calls cs else (a, [])).2 := by
  split
  · exact calls_quiet a cs
  · exact quiet_nil

/-- What is no response leaves the request waiting. -/
theorem receivedData_other {onEvent : κ → List (GCall κ)}
    (plain : ∀ k, ∀ c ∈ onEvent k, c.Plain) (onResult : List (GCall κ)) (sound : Sound a)
    (other : isResponse (opcodeOf pdu) = false) :
    Quiet (a.receivedData pdu onEvent onResult).2 ∧
      (a.receivedData pdu onEvent onResult).1.asked = a.asked ∧
      (a.receivedData pdu onEvent onResult).1.stale = a.stale := by
  unfold GAttrib.receivedData
  cases live : a.stale with
  | true =>
    simp only [if_true]
    exact ⟨quiet_nil, rfl, trivial⟩
  | false =>
    obtain ⟨-, asked, stale⟩ :=
      @dispatch_moves κ a ⟨False, False, fun _ => True⟩ onEvent plain
        (fun _ _ _ _ _ => trivial) sound (pdu.take 512) a.events
    simp only [Bool.false_eq_true, if_false, opcodeOf_take, other, if_true]
    exact ⟨dispatch_quiet onEvent _ _ a, asked, stale.trans live⟩

/-- The response to the request that waits: its command gets it, and nothing waits any more. -/
theorem receivedData_answer {onEvent : κ → List (GCall κ)}
    (plain : ∀ k, ∀ c ∈ onEvent k, c.Plain)
    (known : ∀ k, ∀ c ∈ onEvent k, ∀ id, c.Cancels id → cancelled id)
    (onResult : List (GCall κ)) (sound : Sound a)
    (live : a.stale = false) (asked : a.asked = some request)
    (answers : Answers request pdu) (response : isResponse (opcodeOf pdu) = true) :
    ∃ c : GCommand κ, c.pdu = request ∧
      (∀ prior, Traced cancelled prior a →
        Comes cancelled (prior ++ acceptedIn (a.receivedData pdu onEvent onResult).2) c) ∧
      writesIn (a.receivedData pdu onEvent onResult).2 = [] ∧
      deliveredIn (a.receivedData pdu onEvent onResult).2 = answered (c, pdu) ∧
      (a.receivedData pdu onEvent onResult).1.asked = none ∧
      (a.receivedData pdu onEvent onResult).1.stale = false := by
  obtain ⟨dispatched, same, stale⟩ :=
    @dispatch_moves κ a ⟨False, False, cancelled⟩ onEvent plain known sound
      (pdu.take 512) a.events
  have quiet := dispatch_quiet onEvent (pdu.take 512) a.events a
  have traced := dispatched.traced sound fun _ taken => taken
  have sound₁ := dispatched.sound sound
  have live₁ := stale.trans live
  have asked₁ := same.trans asked
  unfold GAttrib.receivedData
  simp only [live, Bool.false_eq_true, if_false, opcodeOf_take, response, Bool.true_eq_false]
  generalize GAttrib.dispatch onEvent (pdu.take 512) a.events a = after at *
  obtain ⟨a₁, out₁⟩ := after
  dsimp only at quiet traced sound₁ live₁ asked₁ ⊢
  cases head : a₁.requests with
  | nil => simp [GAttrib.asked, GAttrib.outstanding, head] at asked₁
  | cons c queue =>
    have waiting : c.sent = true ∧ c.pdu = request := by
      simpa [GAttrib.asked, GAttrib.outstanding, head, Option.filter_eq_some_iff] using asked₁
    have expected := (sound₁.requests c (head ▸ List.mem_cons_self)).2
    have status : statusOf c.expected (pdu.take 512) = statusGiven pdu := by
      rw [expected, waiting.2]
      exact answers.status
    have popped : GMove ⟨False, False, fun _ => True⟩ a₁ _ _ := .result live₁ head
      (opcodeOf_take pdu ▸ response)
    have idle : (({ a₁ with requests := queue, timeoutWatch := false } :
        GAttrib κ).wakeIfQueued).asked = none := sound₁.asked_pop head (wakeIfQueued_queues _).1
    obtain ⟨-, idle', stale'⟩ := @resultCalls_moves κ _ ⟨False, False, fun _ => True⟩ onResult
      (fun _ _ _ _ => trivial) (popped.sound sound₁) idle c
    have silent := resultCalls_quiet
      (({ a₁ with requests := queue, timeoutWatch := false } : GAttrib κ).wakeIfQueued) onResult
      c.func.isSome
    refine ⟨c, waiting.2, fun prior from_prior => ?_, ?_, ?_, idle', ?_⟩
    · have comes := traced prior from_prior c (by simp [GAttrib.queued, head])
      simpa only [acceptedIn_append, List.append_assoc] using comes.more _
    · simp [quiet.1, silent.1]
    · simp only [deliveredIn_append, deliveredIn_result, deliveredIn_destroy, quiet.2, silent.2,
        List.nil_append, List.append_nil, status, answered]
    · exact stale'.trans ((wakeIfQueued_queues _).2.2.2.1.trans live₁)

def asksIn (out : List (GOut κ)) : List (List UInt8) := (writesIn out).filter asksAnswer

/-- The requests that a step writes: none, or the one that waits from then on. -/
inductive Written (a a' : GAttrib κ) : List (List UInt8) → Prop where
  | dead (stale : a'.stale = true) : Written a a' []
  | same (stale : a'.stale = a.stale) (asked : a'.asked = a.asked) : Written a a' []
  | ask (request : List UInt8) (live : a.stale = false) (live' : a'.stale = false)
      (idle : a.asked = none) (asked : a'.asked = some request) : Written a a' [request]

theorem Written.live {asks : List (List UInt8)} (written : Written a a' asks)
    (live' : a'.stale = false) : a.stale = false := by
  cases written with
  | dead stale => exact Bool.noConfusion (stale.symm.trans live')
  | same stale _ => exact stale.symm.trans live'
  | ask _ live _ _ _ => exact live

theorem asksIn_quiet (quiet : Quiet out) : asksIn out = [] := by rw [asksIn, quiet.1, List.filter_nil]

theorem quiet_eventDestroy (e : GEvent κ) : Quiet (eventDestroy e) := by
  cases notify : e.notify <;>
    simp [Quiet, eventDestroy, notify, writesIn, deliveredIn, GOut.written, GOut.delivered]

theorem unregister_quiet (a : GAttrib κ) (id : UInt32) : Quiet (a.unregister id).2 := by
  unfold GAttrib.unregister
  split
  · exact quiet_nil
  · cases a.events.find? fun e => e.id = id with
    | none => exact quiet_nil
    | some e => exact quiet_eventDestroy e

theorem unregisterAll_quiet (a : GAttrib κ) : Quiet a.unregisterAll.2 := by
  simp only [GAttrib.unregisterAll]
  induction a.events with
  | nil => exact quiet_nil
  | cons e events ih =>
    rw [List.flatMap_cons]
    exact (quiet_eventDestroy e).append ih

theorem Quiet.written (quiet : Quiet out) (stale : a'.stale = a.stale) (asked : a'.asked = a.asked) :
    deliveredIn out = [] ∧ Written a a' (asksIn out) := by
  rw [asksIn_quiet quiet]
  exact ⟨quiet.2, .same stale asked⟩

theorem asksIn_alone (c : GCommand κ) (alone : c.expected = 0)
    (made : c.expected = opcode2expected (opcodeOf c.pdu)) :
    asksIn (.write c.pdu :: commandDestroy c) = [] := by
  have silent : asksAnswer c.pdu = false := by simp [asksAnswer, ← made, alone]
  simp [asksIn, silent]

theorem canWriteData_written (sound : Sound a) (written : Bool) :
    deliveredIn (a.canWriteData written).2 = [] ∧
      Written a (a.canWriteData written).1 (asksIn (a.canWriteData written).2) := by
  unfold GAttrib.canWriteData
  dsimp only
  split
  · exact quiet_nil.written rfl rfl
  · rename_i live
    split
    · rename_i c queue head
      obtain ⟨unsent, alone, made⟩ := sound.responses c (head ▸ List.mem_cons_self)
      cases written with
      | false =>
        rw [if_pos (Or.inr Bool.false_ne_true)]
        exact quiet_nil.written rfl rfl
      | true =>
        simp only [unsent, Bool.false_eq_true, not_true, or_self, if_false, alone, if_true]
        refine ⟨by simp, ?_⟩
        rw [asksIn_alone c alone made]
        exact .same rfl rfl
    · rename_i c queue empty head
      have made := (sound.requests c (head ▸ List.mem_cons_self)).2
      cases written with
      | false =>
        rw [if_pos (Or.inr Bool.false_ne_true)]
        exact quiet_nil.written rfl rfl
      | true =>
        cases sent : c.sent with
        | true =>
          rw [if_pos (Or.inl rfl)]
          exact quiet_nil.written rfl rfl
        | false =>
          have idle := asked_head_unsent head sent
          simp only [Bool.false_eq_true, not_true, or_self, if_false]
          split
          · rename_i alone
            refine ⟨by simp, ?_⟩
            rw [asksIn_alone c alone made]
            exact .same rfl ((sound.asked_pop head rfl).trans idle.symm)
          · rename_i expecting
            have asks : asksAnswer c.pdu = true := by
              rw [made] at expecting
              simpa [asksAnswer] using expecting
            have asked : asksIn [GOut.write (κ := κ) c.pdu] = [c.pdu] := by simp [asksIn, asks]
            refine ⟨by simp, ?_⟩
            rw [asked]
            exact .ask c.pdu (eq_false_of_ne_true live) (eq_false_of_ne_true live) idle rfl
    · exact quiet_nil.written rfl rfl

theorem here_written {s : GStep κ} (proper : (XStep.here s).Proper) (sound : Sound a) :
    deliveredIn (a.step s).2 = [] ∧ Written a (a.step s).1 (asksIn (a.step s).2) := by
  cases s with
  | call c =>
    have called : Called (fun _ => True) a (a.call c).1 (a.call c).2 :=
      call_called sound (Or.inl proper) fun _ _ => trivial
    exact (call_quiet a c).written called.watches.2.1 (called.sound sound).2
  | setMtu mtu =>
    refine quiet_nil.written ?_ (asked_congr ?_)
    all_goals
      simp only [GAttrib.step, GAttrib.setMtu]
      split <;> rfl
  | register e => exact quiet_nil.written rfl rfl
  | unregister id =>
    refine (unregister_quiet a id).written ?_ (asked_congr ?_)
    all_goals
      simp only [GAttrib.step, GAttrib.unregister]
      split <;> rfl
  | unregisterAll => exact (unregisterAll_quiet a).written rfl rfl
  | writable written =>
    simp only [GAttrib.step]
    split
    · exact canWriteData_written sound written
    · exact quiet_nil.written rfl rfl
  | received pdu onEvent onResult => exact proper.elim
  | receiveFailed =>
    simp only [GAttrib.step]
    split
    · refine quiet_nil.written ?_ (asked_congr ?_)
      all_goals
        simp only [GAttrib.receiveFailed]
        split
        · rfl
        · simp only [wakeIfQueued_queues a]
    · exact quiet_nil.written rfl rfl
  | receiveHup =>
    simp only [GAttrib.step]
    split <;> exact quiet_nil.written rfl rfl
  | timeout onResult =>
    simp only [GAttrib.step]
    split
    · have quiet := disconnectTimeout_quiet onResult a
      have stale := (@disconnectTimeout_moves κ a ⟨True, True, fun _ => True⟩ onResult
        (fun _ _ _ _ _ _ => trivial) trivial sound).2.2
      rw [asksIn_quiet quiet]
      exact ⟨quiet.2, .dead stale⟩
    · exact quiet_nil.written rfl rfl

/-- At most one request is on its way, or the answer to one; while the channel lives it is the
request that waits. -/
structure Flight (x : Exchange κ) (pending : List (List UInt8 × List UInt8)) : Prop where
  few : pending.length + (x.toServer.filter asksAnswer).length ≤ 1
  back : x.toClient.filter (fun pdu => isResponse (opcodeOf pdu)) = pending.map (·.2)
  answers : ∀ p ∈ pending, Answers p.1 p.2
  asked : x.client.stale = false →
    pending.map (·.1) ++ x.toServer.filter asksAnswer = x.client.asked.toList

/-- `done` are the commands that have their answers, `pending` the requests whose answers have
not come in. -/
structure Aligned (cancelled : UInt32 → Prop) (x : Exchange κ) (out : List (XOut κ))
    (done : List (GCommand κ × List UInt8)) (pending : List (List UInt8 × List UInt8)) : Prop where
  sound : Sound x.client
  traced : Traced cancelled (acceptedIn (clientIn out)) x.client
  known : ∀ d ∈ done, Comes cancelled (acceptedIn (clientIn out)) d.1
  results : deliveredIn (clientIn out) = done.flatMap answered
  served : servedIn out = done.map (fun d => (d.1.pdu, d.2)) ++ pending
  flight : Flight x pending

variable {x : Exchange κ} {put : List (XOut κ)} {done : List (GCommand κ × List UInt8)}
  {pending : List (List UInt8 × List UInt8)} {steps : List (XStep κ)}

theorem here_proper {s : GStep κ} (proper : (XStep.here s).Proper) : s.Proper := by
  cases s with
  | received pdu onEvent onResult => exact proper.elim
  | _ => exact proper

theorem step_traced {s : GStep κ} (sound : Sound a) (proper : s.Proper)
    (known : ∀ id, s.Cancels id → cancelled id) :
    TracedOver cancelled a (a.step s).1 (a.step s).2 :=
  (step_moves sound proper).traced sound known

theorem expected_response (opcode : UInt8) :
    opcode2expected opcode = 0 ∨ isResponse (opcode2expected opcode) = true := by
  have branch : ∀ (p : Prop) [Decidable p] (x y : UInt8), isResponse x = true →
      (y = 0 ∨ isResponse y = true) →
      ((if p then x else y) = 0 ∨ isResponse (if p then x else y) = true) := by
    intro p _ x y first rest
    split
    · exact Or.inr first
    · exact rest
  unfold opcode2expected
  iterate 12 apply branch _ _ _ rfl
  exact Or.inl rfl

theorem Answers.response {answer : List UInt8} (answers : Answers request answer)
    (asks : asksAnswer request = true) : isResponse (opcodeOf answer) = true := by
  rcases answers with response | error
  · rw [response]
    exact (expected_response _).resolve_left (by simpa [asksAnswer] using asks)
  · rw [error]
    rfl

theorem Flight.idle (flight : Flight x pending) (live : x.client.stale = false)
    (idle : x.client.asked = none) : pending = [] ∧ x.toServer.filter asksAnswer = [] := by
  have nothing := flight.asked live
  rw [idle, Option.toList_none, List.append_eq_nil_iff, List.map_eq_nil_iff] at nothing
  exact nothing

theorem Flight.written {asks writes : List (List UInt8)} (flight : Flight x pending)
    (written : Written x.client a' asks) (asking : writes.filter asksAnswer = asks) :
    Flight { x with client := a', toServer := x.toServer ++ writes } pending := by
  have filtered : (x.toServer ++ writes).filter asksAnswer =
      x.toServer.filter asksAnswer ++ asks := by rw [List.filter_append, asking]
  cases written with
  | dead stale =>
    rw [List.append_nil] at filtered
    refine ⟨?_, flight.back, flight.answers, fun live => Bool.noConfusion (stale.symm.trans live)⟩
    rw [filtered]
    exact flight.few
  | same stale asked =>
    rw [List.append_nil] at filtered
    refine ⟨?_, flight.back, flight.answers, fun live => ?_⟩
    · rw [filtered]
      exact flight.few
    · rw [filtered, asked]
      exact flight.asked (stale.symm.trans live)
  | ask request live live' idle asked =>
    obtain ⟨nothing, unasked⟩ := flight.idle live idle
    rw [unasked, List.nil_append] at filtered
    refine ⟨?_, flight.back, flight.answers, fun _ => ?_⟩
    · simp [filtered, nothing]
    · simp [filtered, nothing, asked]

theorem aligned_here {s : GStep κ} (proper : (XStep.here s).Proper)
    (cancels : ∀ id, (XStep.here s).Cancels id → cancelled id)
    (aligned : Aligned cancelled x put done pending) :
    Aligned cancelled (x.step (.here s)).1 (put ++ (x.step (.here s)).2) done pending := by
  obtain ⟨sound, traced, known, results, served, flight⟩ := aligned
  obtain ⟨nothing, written⟩ := here_written proper sound
  have proper := here_proper proper
  simp only [Exchange.step]
  constructor
  · exact step_sound proper sound
  · have grown := step_traced sound proper cancels _ traced
    simpa using grown
  · intro d inside
    have comes := (known d inside).more (acceptedIn (x.client.step s).2)
    simpa using comes
  · simp [results, nothing]
  · simp [served]
  · exact flight.written written rfl

theorem aligned_serve {answer : List UInt8 → List UInt8} (proper : (XStep.serve answer : XStep κ).Proper)
    (aligned : Aligned cancelled x put done pending) :
    ∃ pending, Aligned cancelled (x.step (.serve answer)).1 (put ++ (x.step (.serve answer)).2) done
      pending := by
  obtain ⟨sound, traced, known, results, served, few, back, answers, asked⟩ := aligned
  cases waiting : x.toServer with
  | nil =>
    have moved : x.step (.serve answer) = (x, []) := by simp only [Exchange.step, waiting]
    rw [moved, List.append_nil]
    exact ⟨pending, sound, traced, known, results, served, few, back, answers, asked⟩
  | cons pdu rest =>
    rw [waiting] at few asked
    cases asks : asksAnswer pdu with
    | false =>
      have moved : x.step (.serve answer) = ({ x with toServer := rest }, []) := by
        simp [Exchange.step, waiting, asks]
      rw [List.filter_cons_of_neg (by simp [asks])] at few asked
      rw [moved, List.append_nil]
      exact ⟨pending, sound, traced, known, results, served, few, back, answers, asked⟩
    | true =>
      have moved : x.step (.serve answer) = ({ x with
          toServer := rest, toClient := x.toClient ++ [answer pdu] },
          [.served pdu (answer pdu)]) := by simp [Exchange.step, waiting, asks]
      rw [List.filter_cons_of_pos asks] at few asked
      have nothing : pending = [] ∧ rest.filter asksAnswer = [] := by
        rw [List.length_cons] at few
        exact ⟨List.length_eq_zero_iff.mp (by omega), List.length_eq_zero_iff.mp (by omega)⟩
      obtain ⟨rfl, unasked⟩ := nothing
      have right := proper pdu asks
      have same : clientIn (put ++ [.served pdu (answer pdu)]) = clientIn put := by
        simp [clientIn, XOut.ofClient]
      rw [moved]
      refine ⟨[(pdu, answer pdu)], sound, ?_, ?_, ?_, ?_, ?_, ?_, ?_, fun live => ?_⟩
      · rwa [same]
      · rwa [same]
      · rwa [same]
      · rw [servedIn_append, served, List.append_nil]
        rfl
      · simp [unasked]
      · simp [back, right.response asks]
      · simpa using right
      · simpa [unasked] using asked live

theorem aligned_push {pdu : List UInt8} (proper : (XStep.push pdu : XStep κ).Proper)
    (aligned : Aligned cancelled x put done pending) :
    Aligned cancelled (x.step (.push pdu)).1 (put ++ (x.step (.push pdu)).2) done pending := by
  obtain ⟨sound, traced, known, results, served, few, back, answers, asked⟩ := aligned
  simp only [Exchange.step, List.append_nil]
  refine ⟨sound, traced, known, results, served, few, ?_, answers, asked⟩
  have other : isResponse (opcodeOf pdu) = false := proper
  simp [other, back]

theorem aligned_unread {onEvent : κ → List (GCall κ)} {onResult : List (GCall κ)}
    {rest : List (List UInt8)} (head : x.toClient = pdu :: rest)
    (unread : x.client.readWatch = false ∨ x.client.stale = true)
    (aligned : Aligned cancelled x put done pending) :
    Aligned cancelled (x.step (.deliver onEvent onResult)).1
      (put ++ (x.step (.deliver onEvent onResult)).2) done pending := by
  obtain ⟨sound, traced, known, results, served, few, back, answers, asked⟩ := aligned
  have left : ¬ (x.client.readWatch = true ∧ x.client.stale = false) := by
    rintro ⟨watch, live⟩
    rcases unread with off | dead
    · exact Bool.noConfusion (off.symm.trans watch)
    · exact Bool.noConfusion (dead.symm.trans live)
  obtain ⟨watch, moved⟩ : ∃ watch, x.step (.deliver onEvent onResult) =
      ({ x with client := { x.client with readWatch := watch } }, []) := by
    cases watch : x.client.readWatch with
    | false =>
      refine ⟨false, ?_⟩
      simp [Exchange.step, GAttrib.step, head, watch]
      rw [← watch]
    | true =>
      have dead : x.client.stale = true := by
        rcases unread with off | dead
        · exact Bool.noConfusion (off.symm.trans watch)
        · exact dead
      refine ⟨false, ?_⟩
      simp [Exchange.step, GAttrib.step, GAttrib.receivedData, head, watch, dead]
  rw [moved, List.append_nil]
  exact ⟨sound_congr sound rfl rfl, traced, known, results, served, few, back, answers, asked⟩

theorem deliver_taken {onEvent : κ → List (GCall κ)} {onResult : List (GCall κ)}
    {rest : List (List UInt8)} (head : x.toClient = pdu :: rest)
    (watch : x.client.readWatch = true) (live : x.client.stale = false) :
    x.step (.deliver onEvent onResult) = ({
      client := (x.client.receivedData pdu onEvent onResult).1
      toServer := x.toServer ++ writesIn (x.client.receivedData pdu onEvent onResult).2
      toClient := rest }, (x.client.receivedData pdu onEvent onResult).2.map .client) := by
  simp [Exchange.step, GAttrib.step, head, watch, live]

/-- A response on its way is the answer to the request that waits, and there is no other. -/
theorem Flight.answer {rest : List (List UInt8)} (flight : Flight x pending)
    (head : x.toClient = pdu :: rest) (live : x.client.stale = false)
    (response : isResponse (opcodeOf pdu) = true) :
    ∃ p, pending = [p] ∧ p.2 = pdu ∧ x.toServer.filter asksAnswer = [] ∧ Answers p.1 p.2 ∧
      rest.filter (fun pdu => isResponse (opcodeOf pdu)) = [] ∧
      x.client.asked = some p.1 := by
  obtain ⟨few, back, answers, asked⟩ := flight
  rw [head, List.filter_cons_of_pos (by simp [response])] at back
  have waiting := asked live
  cases pending with
  | nil => cases back
  | cons p pending =>
    rw [List.length_cons] at few
    obtain rfl : pending = [] := List.length_eq_zero_iff.mp (by omega)
    have unasked : x.toServer.filter asksAnswer = [] := List.length_eq_zero_iff.mp (by omega)
    rw [unasked] at waiting
    rw [List.map_cons, List.cons.injEq] at back
    exact ⟨p, rfl, back.1.symm, unasked, answers p List.mem_cons_self, back.2,
      Option.toList_eq_singleton_iff.mp waiting.symm⟩

theorem aligned_deliver {onEvent : κ → List (GCall κ)} {onResult : List (GCall κ)}
    (proper : (XStep.deliver onEvent onResult).Proper)
    (cancels : ∀ id, (XStep.deliver onEvent onResult).Cancels id → cancelled id)
    (aligned : Aligned cancelled x put done pending) :
    ∃ done pending, Aligned cancelled (x.step (.deliver onEvent onResult)).1
      (put ++ (x.step (.deliver onEvent onResult)).2) done pending := by
  cases head : x.toClient with
  | nil =>
    have moved : x.step (.deliver onEvent onResult) = (x, []) := by simp only [Exchange.step, head]
    rw [moved, List.append_nil]
    exact ⟨done, pending, aligned⟩
  | cons pdu rest =>
    by_cases unread : x.client.readWatch = false ∨ x.client.stale = true
    · exact ⟨done, pending, aligned_unread head unread aligned⟩
    obtain ⟨watch, live⟩ := not_or.mp unread
    have watch := eq_true_of_ne_false watch
    have live := eq_false_of_ne_true live
    obtain ⟨sound, traced, known, results, served, few, back, answers, asked⟩ := aligned
    have step : x.client.step (.received pdu onEvent onResult) =
        x.client.receivedData pdu onEvent onResult := by simp only [GAttrib.step, watch, if_true]
    have sound' : Sound (x.client.receivedData pdu onEvent onResult).1 := by
      rw [← step]
      exact step_sound proper sound
    have traced' := step_traced (s := .received pdu onEvent onResult) sound proper cancels _ traced
    rw [step] at traced'
    rw [deliver_taken head watch live]
    cases response : isResponse (opcodeOf pdu) with
    | false =>
      obtain ⟨quiet, same, stale⟩ := receivedData_other proper onResult sound response
      rw [head, List.filter_cons_of_neg (by simp [response])] at back
      refine ⟨done, pending, sound', ?_, fun d inside => ?_, ?_, ?_, ?_, back, answers, ?_⟩
      · simpa using traced'
      · have comes := (known d inside).more
          (acceptedIn (x.client.receivedData pdu onEvent onResult).2)
        simpa using comes
      · simp [results, quiet.2]
      · simp [served]
      · simpa [quiet.1] using few
      · intro live
        simpa [quiet.1, same] using asked (stale.symm.trans live)
    | true =>
      obtain ⟨p, rfl, rfl, unasked, right, others, request⟩ :=
        (⟨few, back, answers, asked⟩ : Flight x pending).answer head live response
      obtain ⟨c, bytes, comes, silent, delivered, idle, -⟩ :=
        receivedData_answer proper
          (fun k c inside id taken => cancels id (Or.inl ⟨k, c, inside, taken⟩))
          onResult sound live request right response
      refine ⟨done ++ [(c, p.2)], [], sound', ?_, fun d inside => ?_, ?_, ?_, ?_, others, ?_, ?_⟩
      · simpa using traced'
      · rw [clientIn_append, clientIn_map, acceptedIn_append]
        rcases List.mem_append.mp inside with old | new
        · exact (known d old).more _
        · obtain rfl := List.mem_singleton.mp new
          exact comes _ traced
      · simp [results, delivered]
      · simp [served, bytes]
      · simp [silent, unasked]
      · exact fun _ inside => absurd inside List.not_mem_nil
      · simp [silent, unasked, idle]

theorem aligned_step {s : XStep κ} (proper : s.Proper)
    (cancels : ∀ id, s.Cancels id → cancelled id) (aligned : Aligned cancelled x put done pending) :
    ∃ done pending, Aligned cancelled (x.step s).1 (put ++ (x.step s).2) done pending := by
  cases s with
  | here s => exact ⟨done, pending, aligned_here proper cancels aligned⟩
  | serve answer => exact ⟨done, aligned_serve proper aligned⟩
  | push pdu => exact ⟨done, pending, aligned_push proper aligned⟩
  | deliver onEvent onResult => exact aligned_deliver proper cancels aligned

theorem aligned_new (mtu : Nat) : Aligned cancelled (.new mtu : Exchange κ) [] [] [] := by
  refine ⟨sound_new mtu, ?_, ?_, rfl, rfl, Nat.zero_le 1, rfl, ?_, fun _ => rfl⟩
  all_goals exact fun _ inside => absurd inside List.not_mem_nil

def oneByte (request : List UInt8) : List UInt8 := [opcode2expected (opcodeOf request), 0x2a]

/-- Two reads; a notification overtakes the answer to the first one, whose function reads again. -/
def readAgain : List (XStep Nat) := [
  .here (.call (.send 0 [0x0a, 0x10, 0x00] (some 1) none)),
  .here (.call (.send 0 [0x0a, 0x12, 0x00] (some 2) none)),
  .here (.writable true),
  .push [0x1b, 0x14, 0x00, 0x01],
  .serve oneByte,
  .deliver (fun _ => []) [],
  .deliver (fun _ => []) [.send 7 [0x0a, 0x16, 0x00] (some 3) none],
  .here (.writable true),
  .serve oneByte]

theorem readAgain_proper : ∀ s ∈ readAgain, s.Proper := by
  have own : ∀ request : List UInt8, asksAnswer request = true → Answers request (oneByte request) :=
    fun _ _ => Or.inl rfl
  have notification : isResponse 0x1b = false := by decide
  simpa [readAgain, XStep.Proper, GStep.Proper, GCall.Plain, notification] using own

end AnkiDrive
