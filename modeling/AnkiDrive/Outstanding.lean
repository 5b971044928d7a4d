import AnkiDrive.Gattrib

/-! The discipline of the queues: only the head of the requests has been sent and waits for its
response, and the timeout runs exactly while it waits. -/
namespace AnkiDrive
open CModel

variable {κ : Type} {a : GAttrib κ} {queue : List (GCommand κ)} {c : GCommand κ}
  {cancels : UInt32 → Prop}

/-- The command that waits for a response. -/
def GAttrib.outstanding (a : GAttrib κ) : Option (GCommand κ) := a.requests.head?.filter (·.sent)

/-- The request that was written for it. -/
def GAttrib.asked (a : GAttrib κ) : Option (List UInt8) := a.outstanding.map (·.pdu)

/-- The commands of a queue wait behind its head, and each is what `g_attrib_send` made it. -/
structure Sound (a : GAttrib κ) : Prop where
  waiting : ∀ c ∈ a.requests.tail, c.sent = false
  expecting : ∀ c ∈ a.requests, c.sent = true → c.expected ≠ 0
  requests : ∀ c ∈ a.requests, isResponse (opcodeOf c.pdu) = false ∧
    c.expected = opcode2expected (opcodeOf c.pdu)
  responses : ∀ c ∈ a.responses, c.sent = false ∧ c.expected = 0 ∧
    c.expected = opcode2expected (opcodeOf c.pdu)

/-- The timeout runs while a request waits for its response. -/
def Timed (a : GAttrib κ) : Prop := a.stale = false → a.timeoutWatch = a.asked.isSome

/-- A call without an explicit id goes to the end of its queue. -/
def GCall.Plain : GCall κ → Prop
  | .send id _ _ _ => id = 0
  | .cancel _ => True
  | .cancelAll => True

/-- Only the function of a command that has its result gives an id. -/
def GStep.Proper : GStep κ → Prop
  | .call c => c.Plain
  | .received _ onEvent _ => ∀ k, ∀ c ∈ onEvent k, c.Plain
  | _ => True

theorem response_expected (opcode : UInt8) (response : isResponse opcode = true) :
    opcode2expected opcode = 0 := by
  simp only [isResponse, decide_eq_true_eq, List.mem_cons, List.not_mem_nil, or_false] at response
  rcases response with rfl | rfl | rfl | rfl | rfl | rfl | rfl | rfl | rfl | rfl | rfl | rfl | rfl
  all_goals rfl

theorem asked_none_iff : a.asked = none ↔ ∀ c ∈ a.requests.head?, c.sent = false := by
  simp [GAttrib.asked, GAttrib.outstanding, Option.filter_eq_none_iff]

theorem Sound.unsent (sound : Sound a) (idle : a.asked = none) : ∀ c ∈ a.requests, c.sent = false := by
  intro c inside
  have waiting := sound.waiting
  rw [asked_none_iff] at idle
  cases queued : a.requests with
  | nil =>
    rw [queued] at inside
    cases inside
  | cons d queue =>
    rw [queued] at inside waiting idle
    rcases List.mem_cons.mp inside with rfl | later
    · exact idle c rfl
    · exact waiting c later

/-- Cancelled commands leave a queue and are destroyed; a sent one stays and loses its function. -/
inductive Reduces (cancels : UInt32 → Prop) :
    List (GCommand κ) → List (GCommand κ) → List (GOut κ) → Prop where
  | nil : Reduces cancels [] [] []
  | keep {c queue queue' out} : Reduces cancels queue queue' out →
      Reduces cancels (c :: queue) (c :: queue') out
  | silence {c queue queue' out} (cancelled : cancels c.id) (sent : c.sent = true) :
      Reduces cancels queue queue' out →
      Reduces cancels (c :: queue) ({ c with func := none } :: queue') out
  | drop {c queue queue' out} (cancelled : cancels c.id) (unsent : c.sent = false) :
      Reduces cancels queue queue' out →
      Reduces cancels (c :: queue) queue' (commandDestroy c ++ out)

theorem Reduces.refl (queue : List (GCommand κ)) : Reduces cancels queue queue [] := by
  induction queue with
  | nil => exact .nil
  | cons c queue ih => exact .keep ih

theorem reduces_eraseP {id : UInt32} (cancelled : cancels id)
    (unsent : ∀ c ∈ queue, c.sent = false) :
    Reduces cancels queue (queue.eraseP fun c => c.id = id)
      (((queue.find? fun c => c.id = id).map commandDestroy).getD []) := by
  induction queue with
  | nil => exact .nil
  | cons c queue ih =>
    by_cases here : c.id = id
    · have dropped := Reduces.drop (here ▸ cancelled) (unsent c List.mem_cons_self) (.refl queue)
      simpa [here] using dropped
    · have kept := (ih fun d later => unsent d (List.mem_cons_of_mem c later)).keep (c := c)
      simpa [here] using kept

theorem cancelIn_reduces {id : UInt32} (cancelled : cancels id)
    (waiting : ∀ c ∈ queue.tail, c.sent = false) :
    Reduces cancels queue (GAttrib.cancelIn id queue).1 (GAttrib.cancelIn id queue).2 := by
  cases queue with
  | nil => exact .nil
  | cons c queue =>
    by_cases here : c.id = id
    · cases sent : c.sent with
      | true =>
        simp only [GAttrib.cancelIn, if_pos here, if_pos sent]
        exact .silence (here ▸ cancelled) sent (.refl queue)
      | false =>
        have dropped := Reduces.drop (here ▸ cancelled) sent (.refl queue)
        simpa [GAttrib.cancelIn, here, sent] using dropped
    · have unsent : ∀ c ∈ queue, c.sent = false := waiting
      simp only [GAttrib.cancelIn, if_neg here]
      exact (reduces_eraseP cancelled unsent).keep

theorem cancelAllPerQueue.loop_unsent (unsent : ∀ c ∈ queue, c.sent = false) (first : Bool)
    (head : Option (GCommand κ)) :
    GAttrib.cancelAllPerQueue.loop queue first head = (head, queue.flatMap commandDestroy) := by
  induction queue generalizing first head with
  | nil => rfl
  | cons c queue ih =>
    have here := unsent c List.mem_cons_self
    have rest := ih (fun d later => unsent d (List.mem_cons_of_mem c later)) false head
    simp [GAttrib.cancelAllPerQueue.loop, here, rest]

theorem reduces_all (cancelled : ∀ id, cancels id) (unsent : ∀ c ∈ queue, c.sent = false) :
    Reduces cancels queue [] (queue.flatMap commandDestroy) := by
  induction queue with
  | nil => exact .nil
  | cons c queue ih =>
    rw [List.flatMap_cons]
    exact .drop (cancelled c.id) (unsent c List.mem_cons_self)
      (ih fun d later => unsent d (List.mem_cons_of_mem c later))

theorem cancelAllPerQueue_reduces (cancelled : ∀ id, cancels id)
    (waiting : ∀ c ∈ queue.tail, c.sent = false) :
    Reduces cancels queue (GAttrib.cancelAllPerQueue queue).1 (GAttrib.cancelAllPerQueue queue).2 := by
  cases queue with
  | nil => exact .nil
  | cons c queue =>
    have unsent : ∀ c ∈ queue, c.sent = false := waiting
    cases sent : c.sent with
    | true =>
      have silenced := Reduces.silence (cancelled c.id) sent (reduces_all cancelled unsent)
      simpa [GAttrib.cancelAllPerQueue, GAttrib.cancelAllPerQueue.loop, sent,
        cancelAllPerQueue.loop_unsent unsent] using silenced
    | false =>
      have dropped := Reduces.drop (cancelled c.id) sent (reduces_all cancelled unsent)
      simpa [GAttrib.cancelAllPerQueue, GAttrib.cancelAllPerQueue.loop, sent,
        cancelAllPerQueue.loop_unsent unsent] using dropped

/-- A new command: it has not been sent, and it expects what its bytes ask for. -/
structure Made (c : GCommand κ) (pdu : List UInt8) : Prop where
  bytes : c.pdu = pdu
  unsent : c.sent = false
  expected : c.expected = opcode2expected (opcodeOf pdu)

/-- The call cancels a command of this number. -/
def GCall.Cancels (id : UInt32) : GCall κ → Prop
  | .send _ _ _ _ => False
  | .cancel id' => id' = id
  | .cancelAll => True

/-- The changes that a call makes: none when the channel is stale, a new command in the queue of
its kind, or fewer commands where it `cancels`. -/
inductive Called (cancels : UInt32 → Prop) (a : GAttrib κ) : GAttrib κ → List (GOut κ) → Prop where
  | refused (stale : a.stale = true) : Called cancels a a []
  | response (live : a.stale = false) {c : GCommand κ} {pdu : List UInt8} (next : UInt32)
      (made : Made c pdu) (kind : isResponse (opcodeOf pdu) = true) :
      Called cancels a { a with
        nextCmdId := next
        responses := a.responses ++ [c]
        writeWatch := a.writeWatch || decide (a.responses.length = 0) } [.accepted c]
  | request (live : a.stale = false) {c : GCommand κ} {pdu : List UInt8} (next : UInt32)
      (made : Made c pdu) (kind : isResponse (opcodeOf pdu) = false) (first : Bool)
      (idle : first = true → a.asked = none) :
      Called cancels a { a with
        nextCmdId := next
        requests := if first then c :: a.requests else a.requests ++ [c]
        writeWatch := a.writeWatch || decide (a.requests.length = 0) } [.accepted c]
  | reduced (cancelled : ∃ id, cancels id) {requests responses : List (GCommand κ)}
      {first second : List (GOut κ)} (left : Reduces cancels a.requests requests first)
      (right : Reduces cancels a.responses responses second) :
      Called cancels a { a with requests := requests, responses := responses } (first ++ second)

theorem send_called {id : UInt32} {pdu : List UInt8} {func notify : Option κ}
    (allowed : id = 0 ∨ a.asked = none) :
    Called cancels a (a.send id pdu func notify).1 (a.send id pdu func notify).2 := by
  cases live : a.stale with
  | true =>
    simp only [GAttrib.send, live, if_true]
    exact .refused live
  | false =>
    have made : Made (⟨if id = 0 then a.nextCmdId + 1 else id, opcodeOf pdu, pdu,
        opcode2expected (opcodeOf pdu), false, func, notify⟩ : GCommand κ) pdu := ⟨rfl, rfl, rfl⟩
    cases kind : isResponse (opcodeOf pdu) with
    | true =>
      have added : Called cancels a _ _ :=
        .response live (if id = 0 then a.nextCmdId + 1 else a.nextCmdId) made kind
      by_cases plain : id = 0 <;> by_cases empty : a.responses.length = 0 <;>
        simpa [GAttrib.send, GAttrib.wakeUpSender, live, kind, plain, empty] using added
    | false =>
      have first : decide (id ≠ 0) = true → a.asked = none :=
        fun given => allowed.resolve_left (of_decide_eq_true given)
      have added : Called cancels a _ _ :=
        .request live (if id = 0 then a.nextCmdId + 1 else a.nextCmdId) made kind
        (decide (id ≠ 0)) first
      by_cases plain : id = 0 <;> by_cases empty : a.requests.length = 0 <;>
        simpa [GAttrib.send, GAttrib.wakeUpSender, live, kind, plain, empty] using added

theorem cancel_called {id : UInt32} (cancelled : cancels id) (sound : Sound a) :
    Called cancels a (a.cancel id).1 (a.cancel id).2 := by
  have waiting : ∀ c ∈ a.responses.tail, c.sent = false :=
    fun c later => (sound.responses c (List.mem_of_mem_tail later)).1
  unfold GAttrib.cancel
  split
  · have reduced := Called.reduced ⟨id, cancelled⟩ (cancelIn_reduces cancelled sound.waiting)
      (.refl a.responses)
    simpa using reduced
  · have reduced := Called.reduced ⟨id, cancelled⟩ (.refl a.requests)
      (cancelIn_reduces cancelled waiting)
    simpa using reduced

theorem cancelAll_called (cancelled : ∀ id, cancels id) (sound : Sound a) :
    Called cancels a a.cancelAll.1 a.cancelAll.2 := by
  have waiting : ∀ c ∈ a.responses.tail, c.sent = false :=
    fun c later => (sound.responses c (List.mem_of_mem_tail later)).1
  exact .reduced ⟨0, cancelled 0⟩ (cancelAllPerQueue_reduces cancelled sound.waiting)
    (cancelAllPerQueue_reduces cancelled waiting)

theorem call_called {call : GCall κ} (sound : Sound a) (allowed : call.Plain ∨ a.asked = none)
    (cancelling : ∀ id, call.Cancels id → cancels id) :
    Called cancels a (a.call call).1 (a.call call).2 := by
  cases call with
  | send id pdu func notify => exact send_called allowed
  | cancel id => exact cancel_called (cancelling id rfl) sound
  | cancelAll => exact cancelAll_called (fun id => cancelling id trivial) sound

theorem Reduces.mem {queue' : List (GCommand κ)} {out : List (GOut κ)}
    (reduces : Reduces cancels queue queue' out) {c : GCommand κ} (inside : c ∈ queue') :
    ∃ d ∈ queue, d.pdu = c.pdu ∧ d.sent = c.sent ∧ d.expected = c.expected := by
  induction reduces with
  | nil => cases inside
  | @keep d queue queue' out _ ih =>
    rcases List.mem_cons.mp inside with rfl | later
    · exact ⟨c, List.mem_cons_self, rfl, rfl, rfl⟩
    · obtain ⟨e, old, same⟩ := ih later
      exact ⟨e, List.mem_cons_of_mem d old, same⟩
  | @silence d queue queue' out _ _ _ ih =>
    rcases List.mem_cons.mp inside with rfl | later
    · exact ⟨d, List.mem_cons_self, rfl, rfl, rfl⟩
    · obtain ⟨e, old, same⟩ := ih later
      exact ⟨e, List.mem_cons_of_mem d old, same⟩
  | @drop d queue queue' out _ _ _ ih =>
    obtain ⟨e, old, same⟩ := ih inside
    exact ⟨e, List.mem_cons_of_mem d old, same⟩

theorem Reduces.head {queue' : List (GCommand κ)} {out : List (GOut κ)}
    (reduces : Reduces cancels queue queue' out) (waiting : ∀ c ∈ queue.tail, c.sent = false) :
    (queue'.head?.filter (·.sent)).map (·.pdu) = (queue.head?.filter (·.sent)).map (·.pdu) ∧
      ∀ c ∈ queue'.tail, c.sent = false := by
  cases reduces with
  | nil => exact ⟨rfl, waiting⟩
  | @keep c queue queue' out rest =>
    refine ⟨rfl, fun d later => ?_⟩
    obtain ⟨e, old, -, same, -⟩ := rest.mem later
    exact same.symm.trans (waiting e old)
  | @silence c queue queue' out _ sent rest =>
    refine ⟨by simp [Option.filter, sent], fun d later => ?_⟩
    obtain ⟨e, old, -, same, -⟩ := rest.mem later
    exact same.symm.trans (waiting e old)
  | @drop c queue queue' out _ unsent rest =>
    have all : ∀ d ∈ queue', d.sent = false := by
      intro d inside
      obtain ⟨e, old, -, same, -⟩ := rest.mem inside
      exact same.symm.trans (waiting e old)
    refine ⟨?_, fun d later => all d (List.mem_of_mem_tail later)⟩
    cases queue' with
    | nil => simp [Option.filter, unsent]
    | cons d queue' =>
      have first := all d List.mem_cons_self
      simp [Option.filter, unsent, first]

theorem Called.sound {a' : GAttrib κ} {out : List (GOut κ)} (called : Called cancels a a' out)
    (sound : Sound a) : Sound a' ∧ a'.asked = a.asked := by
  cases called with
  | refused _ => exact ⟨sound, rfl⟩
  | @response live c pdu next made kind =>
    refine ⟨⟨sound.waiting, sound.expecting, sound.requests, fun d inside => ?_⟩, rfl⟩
    rcases List.mem_append.mp inside with old | new
    · exact sound.responses d old
    · obtain rfl := List.mem_singleton.mp new
      have expected := made.expected
      rw [← made.bytes] at expected
      exact ⟨made.unsent, made.expected.trans (response_expected _ kind), expected⟩
  | @request live c pdu next made kind first idle =>
    have parts : ∀ d ∈ (if first then c :: a.requests else a.requests ++ [c]),
        d ∈ a.requests ∨ d = c := by
      intro d inside
      cases first with
      | true => exact (List.mem_cons.mp inside).symm
      | false => simpa using inside
    refine ⟨⟨?_, fun d inside sent => ?_, fun d inside => ?_, sound.responses⟩, ?_⟩
    · intro d later
      cases first with
      | true => exact sound.unsent (idle rfl) d later
      | false =>
        cases queued : a.requests with
        | nil => simp [queued] at later
        | cons e queue =>
          have waiting := sound.waiting
          simp only [queued, List.tail_cons] at waiting
          simp only [queued, Bool.false_eq_true, if_false, List.cons_append, List.tail_cons,
            List.mem_append, List.mem_singleton] at later
          rcases later with old | rfl
          · exact waiting d old
          · exact made.unsent
    · rcases parts d inside with old | rfl
      · exact sound.expecting d old sent
      · rw [made.unsent] at sent
        cases sent
    · rcases parts d inside with old | rfl
      · exact sound.requests d old
      · rw [made.bytes]
        exact ⟨kind, made.expected⟩
    · have unsent := made.unsent
      cases first with
      | true =>
        rw [idle rfl]
        simp [GAttrib.asked, GAttrib.outstanding, Option.filter, unsent]
      | false =>
        cases queued : a.requests with
        | nil => simp [GAttrib.asked, GAttrib.outstanding, Option.filter, queued, unsent]
        | cons e queue => simp [GAttrib.asked, GAttrib.outstanding, queued]
  | @reduced _ requests responses first second left right =>
    obtain ⟨asked, waiting⟩ := left.head sound.waiting
    refine ⟨⟨waiting, fun d inside sent => ?_, fun d inside => ?_, fun d inside => ?_⟩, asked⟩
    · obtain ⟨e, old, -, same, expected⟩ := left.mem inside
      exact expected ▸ sound.expecting e old (same.trans sent)
    · obtain ⟨e, old, bytes, -, expected⟩ := left.mem inside
      rw [← bytes, ← expected]
      exact sound.requests e old
    · obtain ⟨e, old, bytes, same, expected⟩ := right.mem inside
      rw [← bytes, ← same, ← expected]
      exact sound.responses e old

theorem Called.watches {a' : GAttrib κ} {out : List (GOut κ)} (called : Called cancels a a' out) :
    a'.timeoutWatch = a.timeoutWatch ∧ a'.stale = a.stale ∧ a'.events = a.events := by
  cases called <;> exact ⟨rfl, rfl, rfl⟩

end AnkiDrive
