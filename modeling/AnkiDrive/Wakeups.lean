import AnkiDrive.Moves

/-! The watches of a channel: the timeout runs while a request waits for its response, and the
sender is awake while something may be written. -/
namespace AnkiDrive
open CModel

variable {κ : Type} {a a' : GAttrib κ} {out : List (GOut κ)} {i : Incidents}
  {cancels : UInt32 → Prop}
  {steps : List (GStep κ)}

/-- A response, or a request behind nothing that waits. -/
def Writable (a : GAttrib κ) : Prop :=
  a.responses ≠ [] ∨ ∃ c ∈ a.requests.head?, c.sent = false

/-- The sender is called when something may be written. -/
def Awake (a : GAttrib κ) : Prop := a.stale = false → Writable a → a.writeWatch = true

theorem asked_congr (requests : a'.requests = a.requests) : a'.asked = a.asked := by
  simp only [GAttrib.asked, GAttrib.outstanding, requests]

theorem writable_congr (requests : a'.requests = a.requests) (responses : a'.responses = a.responses) :
    Writable a' ↔ Writable a := by
  simp only [Writable, requests, responses]

theorem asked_head_unsent {c : GCommand κ} {queue : List (GCommand κ)} (head : a.requests = c :: queue)
    (unsent : c.sent = false) : a.asked = none := by
  rw [asked_none_iff, head]
  intro d first
  cases first
  exact unsent

theorem GMove.timed (move : GMove i a a' out) (calm : ¬ i.expires) (sound : Sound a) (timed : Timed a) :
    Timed a' := by
  intro live
  cases move with
  | call called =>
    obtain ⟨watch, stale, -⟩ := called.watches
    rw [(called.sound sound).2, watch]
    exact timed (stale.symm.trans live)
  | around requests _ _ watch stale =>
    rw [asked_congr requests, watch]
    exact timed (stale.symm.trans live)
  | wake =>
    obtain ⟨requests, -, watch, stale, -⟩ := wakeIfQueued_queues a
    rw [asked_congr requests, watch]
    exact timed (stale.symm.trans live)
  | stop _ => exact timed live
  | answer live _ => exact timed live
  | command live _ head unsent _ =>
    have watch := timed live
    rw [asked_head_unsent head unsent] at watch
    rw [sound.asked_pop head rfl]
    exact watch
  | @ask c queue _ _ _ _ _ => rfl
  | unexpected _ _ empty =>
    have idle : a.asked = none := by simp [GAttrib.asked, GAttrib.outstanding, empty]
    exact (congrArg Option.isSome idle).symm
  | @result c queue buf _ head _ =>
    obtain ⟨requests, -, watch, -, -⟩ := wakeIfQueued_queues ({ a with
      requests := queue, timeoutWatch := false } : GAttrib κ)
    rw [sound.asked_pop head requests, watch]
    rfl
  | abort _ time _ => exact absurd time calm
  | expire time _ => exact absurd time calm

theorem wakeIfQueued_awake (a : GAttrib κ) : Awake a.wakeIfQueued := by
  unfold GAttrib.wakeIfQueued
  split
  · exact fun _ _ => rfl
  · rename_i empty
    simp only [not_or, not_not] at empty
    obtain ⟨noRequests, noResponses⟩ := empty
    rintro - (held | ⟨c, first, -⟩)
    · exact absurd noResponses held
    · rw [noRequests] at first
      cases first

theorem Reduces.writable {queue queue' : List (GCommand κ)} (reduces : Reduces cancels queue queue' out)
    (waiting : ∀ c ∈ queue.tail, c.sent = false) (first : ∃ c ∈ queue'.head?, c.sent = false) :
    ∃ c ∈ queue.head?, c.sent = false := by
  have asked := (reduces.head waiting).1
  obtain ⟨c, head, unsent⟩ := first
  cases queue with
  | nil =>
    cases reduces
    cases head
  | cons d queue =>
    refine ⟨d, rfl, ?_⟩
    cases sent : d.sent with
    | false => rfl
    | true =>
      cases queue' with
      | nil => cases head
      | cons e queue' =>
        cases head
        simp [Option.filter, sent, unsent] at asked

theorem Called.awake (called : Called cancels a a' out) (sound : Sound a) (awake : Awake a) : Awake a' := by
  intro live writable
  cases called with
  | refused _ => exact awake live writable
  | response live next made kind =>
    cases queued : a.responses with
    | nil => simp
    | cons d queue =>
      have watch := awake live (Or.inl (by simp [queued]))
      simp [watch]
  | @request live c pdu next made kind first idle =>
    cases queued : a.requests with
    | nil => simp
    | cons d queue =>
      have watch : a.writeWatch = true := by
        apply awake live
        rcases writable with held | ⟨e, head, unsent⟩
        · exact Or.inl held
        · refine Or.inr ⟨d, by rw [queued]; rfl, ?_⟩
          cases first with
          | true => exact sound.unsent (idle rfl) d (queued ▸ List.mem_cons_self)
          | false =>
            rw [queued] at head
            cases head
            exact unsent
      simp [watch]
  | reduced _ left right =>
    apply awake live
    rcases writable with held | first
    · refine Or.inl fun empty => ?_
      rw [empty] at right
      cases right
      exact held rfl
    · exact Or.inr (left.writable sound.waiting first)

theorem GMove.awake (move : GMove i a a' out) (calm : ¬ i.expires) (kept : ¬ i.loses)
    (sound : Sound a) (awake : Awake a) : Awake a' := by
  cases move with
  | call called => exact called.awake sound awake
  | around requests responses watch _ stale =>
    intro live writable
    rw [watch]
    exact awake (stale.symm.trans live) ((writable_congr requests responses).mp writable)
  | wake => exact wakeIfQueued_awake a
  | stop done =>
    rintro live (held | ⟨c, first, unsent⟩)
    all_goals
      rcases done with stale | lost | ⟨empty, sent⟩
      · exact Bool.noConfusion (stale.symm.trans live)
      · exact absurd lost kept
    · exact absurd empty held
    · rw [sent c first] at unsent
      cases unsent
  | answer live head =>
    intro _ _
    exact awake live (Or.inl (by simp [head]))
  | @command c queue live empty head unsent _ =>
    intro _ _
    exact awake live (Or.inr ⟨c, by rw [head]; rfl, unsent⟩)
  | ask live empty head unsent _ =>
    rintro - (held | ⟨d, first, unsent⟩)
    · exact absurd empty held
    · cases first
      cases unsent
  | unexpected _ live empty => exact fun _ writable => awake live writable
  | result _ _ _ => exact wakeIfQueued_awake _
  | abort _ time _ => exact absurd time calm
  | expire time _ => exact absurd time calm

theorem GMoves.timed (moves : GMoves i a a' out) (calm : ¬ i.expires) (sound : Sound a)
    (timed : Timed a) : Timed a' := by
  induction moves with
  | none => exact timed
  | more move _ ih => exact ih (move.sound sound) (move.timed calm sound timed)

theorem GMoves.awake (moves : GMoves i a a' out) (calm : ¬ i.expires) (kept : ¬ i.loses)
    (sound : Sound a) (awake : Awake a) : Awake a' := by
  induction moves with
  | none => exact awake
  | more move _ ih => exact ih (move.sound sound) (move.awake calm kept sound awake)

theorem timeout_stale {s : GStep κ} (sound : Sound a) (time : s.Expires) :
    (a.step s).1.stale = true ∨ (a.step s).1 = a := by
  cases s with
  | timeout onResult =>
    simp only [GAttrib.step]
    split
    · exact Or.inl (@disconnectTimeout_moves κ a ⟨True, True, fun _ => True⟩ onResult
        (fun _ _ _ _ _ _ => trivial) trivial sound).2.2
    · exact Or.inr rfl
  | _ => exact time.elim

theorem step_timed {s : GStep κ} (proper : s.Proper) (sound : Sound a) (timed : Timed a) :
    Timed (a.step s).1 := by
  by_cases time : s.Expires
  · rcases timeout_stale sound time with stale | same
    · intro live
      exact Bool.noConfusion (stale.symm.trans live)
    · rwa [same]
  · obtain ⟨put, moves, -⟩ := step_moves sound proper
    exact moves.timed time sound timed

theorem step_awake {s : GStep κ} (proper : s.Proper) (kept : ¬ s.Loses) (sound : Sound a)
    (awake : Awake a) : Awake (a.step s).1 := by
  by_cases time : s.Expires
  · rcases timeout_stale sound time with stale | same
    · intro live
      exact Bool.noConfusion (stale.symm.trans live)
    · rwa [same]
  · obtain ⟨put, moves, -⟩ := step_moves sound proper
    exact moves.awake time kept sound awake

theorem step_sound {s : GStep κ} (proper : s.Proper) (sound : Sound a) :
    Sound (a.step s).1 :=
  (step_moves sound proper).sound sound

theorem sound_new (mtu : Nat) : Sound (GAttrib.new mtu : GAttrib κ) := by
  constructor <;> exact fun _ inside => absurd inside List.not_mem_nil

theorem run_sound (mtu : Nat) (proper : ∀ s ∈ steps, s.Proper) :
    Sound (runMachine GAttrib.step (.new mtu) steps).1 :=
  runMachine_invariant (sound_new mtu) (fun _ _ sound proper => step_sound proper sound) proper

/-- Whatever happens to a channel: at most the head of the requests has been sent without an
answer, no response waits for anything, and the timeout runs exactly while a request waits. -/
theorem one_request_outstanding (mtu : Nat) (proper : ∀ s ∈ steps, s.Proper) :
    let a := (runMachine GAttrib.step (.new mtu : GAttrib κ) steps).1
    (∀ c ∈ a.requests.tail, c.sent = false) ∧ (∀ c ∈ a.responses, c.sent = false) ∧
      (a.stale = false →
        (a.timeoutWatch = true ↔ ∃ c ∈ a.requests.head?, c.sent = true ∧ c.expected ≠ 0)) := by
  intro a
  have sound := @run_sound κ steps mtu proper
  have timed : Sound a ∧ Timed a := by
    apply runMachine_invariant (P := fun a => Sound a ∧ Timed a)
      ⟨sound_new mtu, fun _ => rfl⟩ _ proper
    exact fun _ _ held proper => ⟨step_sound proper held.1, step_timed proper held.1 held.2⟩
  refine ⟨sound.waiting, fun c inside => (sound.responses c inside).1, fun live => ?_⟩
  rw [timed.2 live]
  have expecting := sound.expecting
  cases queued : a.requests with
  | nil => simp [GAttrib.asked, GAttrib.outstanding, queued]
  | cons c queue =>
    cases sent : c.sent with
    | false => simp [GAttrib.asked, GAttrib.outstanding, Option.filter, queued, sent]
    | true =>
      have expected := expecting c (queued ▸ List.mem_cons_self) sent
      simp [GAttrib.asked, GAttrib.outstanding, Option.filter, queued, sent, expected]

def twoReads : List (GStep Nat) := [
  .call (.send 0 [0x0a, 0x10, 0x00] (some 1) (some 2)),
  .call (.send 0 [0x0a, 0x12, 0x00] (some 3) (some 4)),
  .writable true,
  .call (.cancel 1),
  .received [0x0b, 0x2a] (fun _ => []) []]

theorem twoReads_proper : ∀ s ∈ twoReads, s.Proper := by
  simp [twoReads, GStep.Proper, GCall.Plain]

theorem one_request_outstanding_twoReads :
    let a := (runMachine GAttrib.step (.new 23) twoReads).1
    (∀ c ∈ a.requests.tail, c.sent = false) ∧ (∀ c ∈ a.responses, c.sent = false) ∧
      (a.stale = false →
        (a.timeoutWatch = true ↔ ∃ c ∈ a.requests.head?, c.sent = true ∧ c.expected ≠ 0)) :=
  one_request_outstanding 23 twoReads_proper

theorem run_awake (mtu : Nat) (proper : ∀ s ∈ steps, s.Proper) (kept : ∀ s ∈ steps, ¬ s.Loses) :
    Awake (runMachine GAttrib.step (.new mtu : GAttrib κ) steps).1 := by
  have held : Sound (runMachine GAttrib.step (.new mtu : GAttrib κ) steps).1 ∧
      Awake (runMachine GAttrib.step (.new mtu : GAttrib κ) steps).1 := by
    have start : Awake (GAttrib.new mtu : GAttrib κ) := by
      rintro - (held | ⟨c, first, -⟩)
      · exact absurd rfl held
      · cases first
    have both : ∀ s ∈ steps, s.Proper ∧ ¬ s.Loses := fun s inside => ⟨proper s inside, kept s inside⟩
    apply runMachine_invariant (P := fun a => Sound a ∧ Awake a) ⟨sound_new mtu, start⟩ _ both
    exact fun _ _ held ok => ⟨step_sound ok.1 held.1, step_awake ok.1 ok.2 held.1 held.2⟩
  exact held.2

theorem writable_step (sound : Sound a) (awake : Awake a) (live : a.stale = false)
    (more : Writable a) :
    let a' := (a.step (.writable true)).1
    a'.stale = false ∧ (a'.responses.length + a'.requests.length <
        a.responses.length + a.requests.length ∨ ¬ Writable a' ∧ a'.writeWatch = false) := by
  have watch := awake live more
  intro a'
  have moved : a' = (a.canWriteData true).1 := by
    simp only [a', GAttrib.step, watch, if_true]
  rw [moved]
  unfold GAttrib.canWriteData
  simp only [live, Bool.false_eq_true, if_false, not_true, or_false]
  cases responses : a.responses with
  | cons c queue =>
    obtain ⟨unsent, alone, -⟩ := sound.responses c (responses ▸ List.mem_cons_self)
    simp only [unsent, alone, Bool.false_eq_true, if_false, if_true]
    exact ⟨trivial, Or.inl (by simp)⟩
  | nil =>
    cases requests : a.requests with
    | nil =>
      rcases more with held | ⟨c, first, -⟩
      · exact absurd responses held
      · rw [requests] at first
        cases first
    | cons c queue =>
      have unsent : c.sent = false := by
        rcases more with held | ⟨d, first, unsent⟩
        · exact absurd responses held
        · rw [requests] at first
          cases first
          exact unsent
      simp only [unsent, Bool.false_eq_true, if_false]
      split
      · exact ⟨rfl, Or.inl (by simp)⟩
      · refine ⟨rfl, Or.inr ⟨?_, rfl⟩⟩
        rintro (held | ⟨d, first, unsent'⟩)
        · exact held rfl
        · cases first
          cases unsent'

theorem drain (count : Nat) (sound : Sound a) (awake : Awake a) (live : a.stale = false)
    (few : a.responses.length + a.requests.length ≤ count) :
    ∃ n ≤ count,
      ¬ Writable (runMachine GAttrib.step a (List.replicate n (.writable true))).1 := by
  induction count generalizing a with
  | zero =>
    refine ⟨0, Nat.le_refl _, ?_⟩
    rintro (held | ⟨c, first, -⟩)
    · have nothing : a.responses = [] := List.length_eq_zero_iff.mp (by omega)
      exact held nothing
    · have nothing : a.requests = [] := List.length_eq_zero_iff.mp (by omega)
      simp only [List.replicate_zero, runMachine, nothing, List.head?_nil] at first
      cases first
  | succ count ih =>
    by_cases more : Writable a
    · obtain ⟨live', fewer⟩ := writable_step sound awake live more
      rcases fewer with fewer | ⟨done, -⟩
      · have kept : ¬ (GStep.writable true : GStep κ).Loses := by simp [GStep.Loses]
        have proper : (GStep.writable true : GStep κ).Proper := trivial
        obtain ⟨n, below, empty⟩ := ih (step_sound proper sound)
          (step_awake proper kept sound awake) live' (by omega)
        refine ⟨n + 1, Nat.succ_le_succ below, ?_⟩
        simpa only [List.replicate_succ, runMachine] using empty
      · refine ⟨1, Nat.succ_le_succ (Nat.zero_le _), ?_⟩
        simpa only [List.replicate_one, runMachine] using done
    · exact ⟨0, Nat.zero_le _, more⟩

/-- No wake-up is lost: while the channel takes what is written to it, the sender is awake
whenever something may be written, and as many ready channels as there are commands leave
nothing but requests behind one that waits. -/
theorem no_wakeup_lost (mtu : Nat) (proper : ∀ s ∈ steps, s.Proper)
    (kept : ∀ s ∈ steps, ¬ s.Loses)
    (live : (runMachine GAttrib.step (.new mtu : GAttrib κ) steps).1.stale = false) :
    let a := (runMachine GAttrib.step (.new mtu : GAttrib κ) steps).1
    (Writable a → a.writeWatch = true) ∧
      ∃ n ≤ a.responses.length + a.requests.length,
        ¬ Writable (runMachine GAttrib.step a (List.replicate n (.writable true))).1 := by
  intro a
  have awake := @run_awake κ steps mtu proper kept
  exact ⟨awake live, drain _ (run_sound mtu proper) awake live (Nat.le_refl _)⟩

theorem no_wakeup_lost_twoReads :
    let a := (runMachine GAttrib.step (.new 23) twoReads).1
    (Writable a → a.writeWatch = true) ∧
      ∃ n ≤ a.responses.length + a.requests.length,
        ¬ Writable (runMachine GAttrib.step a (List.replicate n (.writable true))).1 := by
  have kept : ∀ s ∈ twoReads, ¬ s.Loses := by simp [twoReads, GStep.Loses]
  exact no_wakeup_lost 23 twoReads_proper kept (by decide)

end AnkiDrive
