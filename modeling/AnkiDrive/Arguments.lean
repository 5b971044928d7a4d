import AnkiDrive.LightNames
import AnkiDrive.MainLoop

/-! Which words of a command line the handlers look at. Every handler checks how many there
are before it uses one, and one of them checks for one too few. -/
namespace AnkiDrive
open CModel

/-- The indices `k` for which `argvp[k]` is used as a string. -/
def Args.asked {α : Type} (q : Args α) (argvp : Nat → Option CString) : List Nat :=
  q.run.asked argvp

/-- Only the first `argcp` words are used. -/
def Args.Inside {α : Type} (q : Args α) (argvp : Nat → Option CString) (argcp : Nat) : Prop :=
  ∀ k ∈ q.asked argvp, k < argcp

section Inside

variable {α β : Type} (argvp : Nat → Option CString)

@[simp] theorem asked_pure (a : α) : Args.asked (pure a) argvp = [] := rfl

@[simp] theorem asked_word (k : Nat) : Args.asked (word k) argvp = [k] := rfl

@[simp] theorem asked_computed (r : Option α) : Args.asked (computed r) argvp = [] := rfl

theorem asked_bind (q : Args α) (k : α → Args β) : Args.asked (q >>= k) argvp =
    q.asked argvp ++ (q.result argvp).elim [] fun a => (k a).asked argvp := by
  refine (Query.asked_bind argvp q.run _).trans ?_
  simp only [Args.asked, Args.result]
  cases Query.run argvp q.run with
  | none => rfl
  | some a => rfl

@[simp] theorem asked_ite (c : Prop) [Decidable c] (q r : Args α) :
    Args.asked (if c then q else r) argvp = if c then q.asked argvp else r.asked argvp :=
  apply_ite (fun q => Args.asked q argvp) c q r

variable {argvp} {argcp : Nat}

theorem inside_pure (a : α) : Args.Inside (pure a) argvp argcp := fun _ none => by cases none

theorem inside_computed (r : Option α) : Args.Inside (computed r) argvp argcp :=
  fun _ none => by cases none

theorem inside_word {k : Nat} (given : k < argcp) : Args.Inside (word k) argvp argcp := by
  intro j member
  cases List.mem_singleton.mp member
  exact given

theorem inside_bind {q : Args α} {k : α → Args β} (first : q.Inside argvp argcp)
    (rest : ∀ a, q.result argvp = some a → (k a).Inside argvp argcp) :
    Args.Inside (q >>= k) argvp argcp := by
  intro j member
  rw [asked_bind] at member
  rcases List.mem_append.mp member with early | late
  · exact first j early
  · cases outcome : q.result argvp with
    | none => simp [outcome] at late
    | some a =>
      simp only [outcome, Option.elim_some] at late
      exact rest a outcome j late

theorem inside_ite {c : Prop} [Decidable c] {q r : Args α} (yes : c → q.Inside argvp argcp)
    (no : ¬ c → r.Inside argvp argcp) : (if c then q else r).Inside argvp argcp := by
  split
  · rename_i holds
    exact yes holds
  · rename_i fails
    exact no fails

theorem inside_map {f : α → β} {q : Args α} (first : q.Inside argvp argcp) :
    Args.Inside (f <$> q) argvp argcp := by
  have bound : f <$> q = q >>= fun a => pure (f a) := rfl
  rw [bound]
  exact inside_bind first fun a _ => inside_pure (f a)

end Inside

/-- A handler that is given a command uses its words only. -/
def StaysInside (handler : Handler) : Prop :=
  ∀ s argcp argvp, 0 < argcp → (handler s argcp).Inside argvp argcp

theorem vehicleCommand_inside {words : Nat} {params : String} {more : List String}
    {body : Nat → Args (List Action)} {s : Tool} {argcp : Nat} {argvp : Nat → Option CString}
    (some : 0 < argcp)
    (used : s.connState = .connected → words ≤ argcp → (body argcp).Inside argvp argcp) :
    (vehicleCommand words params more body s argcp).Inside argvp argcp := by
  refine inside_ite (fun _ => inside_pure _) fun connected => inside_ite (fun _ => ?_) fun enough => ?_
  · refine inside_bind ?_ fun line _ => inside_pure _
    exact inside_bind (inside_word some) fun name _ => inside_pure _
  · refine inside_bind (used (not_not.mp connected) (Nat.le_of_not_lt enough)) fun actions _ => ?_
    exact inside_pure _

theorem vehicleCommand_staysInside {words : Nat} {params : String} {more : List String}
    {body : Nat → Args (List Action)}
    (used : ∀ argcp argvp, words ≤ argcp → (body argcp).Inside argvp argcp) :
    StaysInside (vehicleCommand words params more body) :=
  fun _ argcp argvp some => vehicleCommand_inside some fun _ enough => used argcp argvp enough

theorem plain_staysInside (words : Nat) (params : String) (more : List String)
    (actions : List Action) :
    StaysInside (vehicleCommand words params more fun _ => return actions) :=
  vehicleCommand_staysInside fun _ _ _ => inside_pure actions

theorem cmdAnkiVehicleWrite_staysInside : StaysInside cmdAnkiVehicleWrite := by
  refine vehicleCommand_staysInside fun argcp argvp enough => ?_
  refine inside_bind (inside_word enough) fun given _ => inside_ite (fun _ => inside_pure _) fun _ => ?_
  refine inside_bind (inside_word (by omega)) fun name _ => ?_
  exact inside_ite (fun _ => inside_pure _) fun _ => inside_pure _

theorem cmdAnkiVehicleSdkMode_staysInside (out : Outside) :
    StaysInside (cmdAnkiVehicleSdkMode out) :=
  vehicleCommand_staysInside fun _ _ enough =>
    inside_bind (inside_word enough) fun _ _ => inside_pure _

theorem cmdAnkiVehicleSetSpeed_staysInside (out : Outside) :
    StaysInside (cmdAnkiVehicleSetSpeed out) := by
  refine vehicleCommand_staysInside fun argcp argvp enough => ?_
  refine inside_bind (inside_word enough) fun speed _ => ?_
  refine inside_ite (fun given => ?_) fun _ => inside_bind (inside_pure _) fun accel _ => inside_pure _
  exact inside_bind (inside_map (inside_word given)) fun accel _ => inside_pure _

theorem cmdAnkiVehicleChangeLane_staysInside (out : Outside) :
    StaysInside (cmdAnkiVehicleChangeLane out) := by
  refine vehicleCommand_staysInside fun argcp argvp enough => ?_
  refine inside_bind (inside_word enough) fun hspeed _ => ?_
  refine inside_ite (fun given => ?_) fun _ => inside_bind (inside_pure _) fun offset _ => inside_pure _
  exact inside_bind (inside_map (inside_word given)) fun offset _ => inside_pure _

theorem cmdAnkiVehicleLightsPattern_staysInside (out : Outside) :
    StaysInside (cmdAnkiVehicleLightsPattern out) := by
  refine vehicleCommand_staysInside fun argcp argvp enough => ?_
  refine inside_bind (inside_word (by omega)) fun channelName _ => ?_
  refine inside_bind (inside_computed _) fun channel _ => ?_
  refine inside_ite (fun _ => inside_pure _) fun _ => ?_
  refine inside_bind (inside_word (by omega)) fun effectName _ => ?_
  refine inside_bind (inside_computed _) fun effect _ => ?_
  refine inside_ite (fun _ => inside_pure _) fun _ => ?_
  refine inside_bind (inside_word (by omega)) fun start _ => ?_
  refine inside_bind (inside_word (by omega)) fun finish _ => ?_
  exact inside_bind (inside_word (by omega)) fun cycles _ => inside_pure _

theorem cmdAnkiVehicleRead_staysInside : StaysInside cmdAnkiVehicleRead := by
  intro s argcp argvp some
  refine inside_ite (fun _ => inside_pure _) fun _ => inside_ite (fun _ => inside_pure _) fun _ => ?_
  refine inside_ite (fun negative => ?_) fun _ => inside_pure _
  -- A value handle is not negative.
  exact absurd negative (by omega)

theorem cmdConnect_staysInside (out : Outside) : StaysInside (cmdConnect out) := by
  intro s argcp argvp _
  refine inside_ite (fun _ => inside_pure _) fun _ => inside_bind ?_ fun t _ => inside_pure _
  refine inside_ite (fun given => ?_) fun _ => inside_pure _
  refine inside_bind (inside_word given) fun dst _ => inside_ite (fun more => ?_) fun _ => ?_
  · exact inside_bind (inside_word more) fun dstType _ => inside_pure _
  · exact inside_bind (inside_pure _) fun dstType _ => inside_pure _

theorem cmdMtu_staysInside : StaysInside cmdMtu := by
  intro s argcp argvp _
  refine inside_ite (fun _ => inside_pure _) fun _ => inside_ite (fun _ => inside_pure _) fun _ => ?_
  refine inside_ite (fun _ => inside_pure _) fun enough => inside_ite (fun _ => inside_pure _) fun _ => ?_
  refine inside_bind (inside_word (by omega)) fun given _ => ?_
  exact inside_ite (fun _ => inside_pure _) fun _ => inside_pure _

theorem cmdHelp_staysInside : StaysInside cmdHelp := fun _ _ _ _ => inside_pure _

theorem cmdExit_staysInside : StaysInside cmdExit := fun _ _ _ _ => inside_pure _

theorem cmdDisconnect_staysInside : StaysInside cmdDisconnect := fun _ _ _ _ => inside_pure _

section EngineLights

variable (out : Outside) {s : Tool} {argcp : Nat} {argvp : Nat → Option CString}

theorem engineLights_inside (some : 0 < argcp) (other : ¬ (s.connState = .connected ∧ argcp = 5)) :
    (cmdAnkiVehicleEngineLights out s argcp).Inside argvp argcp := by
  refine vehicleCommand_inside some fun connected enough => ?_
  have six : 5 < argcp := Nat.lt_of_le_of_ne enough fun five => other ⟨connected, five.symm⟩
  refine inside_bind (inside_word (by omega)) fun red _ => ?_
  refine inside_bind (inside_word (by omega)) fun green _ => ?_
  refine inside_bind (inside_word (by omega)) fun blue _ => ?_
  refine inside_bind (inside_word (by omega)) fun effectName _ => ?_
  refine inside_bind (inside_computed _) fun effect _ => ?_
  refine inside_bind (inside_word six) fun cycles _ => ?_
  exact inside_ite (fun _ => inside_pure _) fun _ => inside_pure _

theorem nothing_more {α : Type} (outcome : Option α) :
    (outcome.elim [] fun _ => ([] : List Nat)) = [] := by
  cases outcome <;> rfl

/-- Behind the name of an effect the cycles are looked up, however many words there are. -/
theorem engineLights_asked (connected : s.connState = .connected) (enough : 5 ≤ argcp)
    {red green blue effectName : CString} (first : argvp 1 = some red)
    (second : argvp 2 = some green) (third : argvp 3 = some blue)
    (fourth : argvp 4 = some effectName) :
    (cmdAnkiVehicleEngineLights out s argcp).asked argvp = [1, 2, 3, 4] ++
      if getEffectByName (some effectName) = none then [] else [5] := by
  have running : ¬ s.connState ≠ .connected := not_not.mpr connected
  have words : ¬ argcp < 5 := Nat.not_lt_of_le enough
  cases outcome : getEffectByName (some effectName) with
  | none =>
    simp [cmdAnkiVehicleEngineLights, vehicleCommand, asked_bind, running, words, first, second,
      third, fourth, outcome]
  | some effect =>
    simp [cmdAnkiVehicleEngineLights, vehicleCommand, asked_bind, running, words, first, second,
      third, fourth, outcome, nothing_more]

end EngineLights

theorem handler_staysInside (out : Outside) (func : CmdFunc)
    (other : func ≠ .cmdAnkiVehicleEngineLights) : StaysInside (func.handler out) := by
  cases func with
  | cmdHelp => exact cmdHelp_staysInside
  | cmdExit => exact cmdExit_staysInside
  | cmdConnect => exact cmdConnect_staysInside out
  | cmdDisconnect => exact cmdDisconnect_staysInside
  | cmdMtu => exact cmdMtu_staysInside
  | cmdAnkiVehicleSdkMode => exact cmdAnkiVehicleSdkMode_staysInside out
  | cmdAnkiVehiclePing => exact plain_staysInside _ _ _ _
  | cmdAnkiVehicleGetVersion => exact plain_staysInside _ _ _ _
  | cmdAnkiVehicleSetSpeed => exact cmdAnkiVehicleSetSpeed_staysInside out
  | cmdAnkiVehicleChangeLane => exact cmdAnkiVehicleChangeLane_staysInside out
  | cmdAnkiVehicleLightsPattern => exact cmdAnkiVehicleLightsPattern_staysInside out
  | cmdAnkiVehicleEngineLights => exact absurd rfl other
  | cmdAnkiVehicleDisconnect => exact plain_staysInside _ _ _ _
  | cmdAnkiVehicleWrite => exact cmdAnkiVehicleWrite_staysInside
  | cmdAnkiVehicleRead => exact cmdAnkiVehicleRead_staysInside

/-- Every handler stays inside the words of its command, but for the engine lights: with all
arguments but the last they are set to a number that is looked up behind the last word. -/
theorem arguments_inside_iff (out : Outside) (s : Tool) (func : CmdFunc) (name : CString)
    (words : List CString) :
    (func.handler out s (words.length + 1)).Inside (fun k => (name :: words)[k]?)
        (words.length + 1) ↔
      ¬ (func = .cmdAnkiVehicleEngineLights ∧ s.connState = .connected ∧ words.length + 1 = 5 ∧
        ∃ e, words[3]? = some e ∧ some e ∈ effectsByName) := by
  by_cases engine : func = .cmdAnkiVehicleEngineLights
  · subst engine
    by_cases five : s.connState = .connected ∧ words.length + 1 = 5
    · obtain ⟨connected, count⟩ := five
      obtain ⟨red, green, blue, effectName, rfl⟩ := List.length_eq_four.mp (Nat.succ.inj count)
      have asked := @engineLights_asked out s 5 (fun k => [name, red, green, blue, effectName][k]?)
        connected (Nat.le_refl 5) red green blue effectName rfl rfl rfl rfl
      have inside : (cmdAnkiVehicleEngineLights out s 5).Inside
          (fun k => [name, red, green, blue, effectName][k]?) 5 ↔
            getEffectByName (some effectName) = none := by
        simp only [Args.Inside, asked]
        split
        · rename_i unknown
          exact iff_of_true (by simp) unknown
        · rename_i known
          exact iff_of_false (by simp) known
      refine inside.trans ?_
      rw [← not_iff_not, not_not]
      refine effect_known.trans ⟨fun known => ⟨rfl, connected, rfl, effectName, rfl, known⟩, ?_⟩
      rintro ⟨_, _, _, e, given, known⟩
      cases given
      exact known
    · refine iff_of_true (engineLights_inside out (Nat.succ_pos _) five) ?_
      rintro ⟨_, connected, count, _⟩
      exact five ⟨connected, count⟩
  · refine iff_of_true (handler_staysInside out func engine _ _ _ (Nat.succ_pos _)) ?_
    rintro ⟨same, _⟩
    exact engine same

/-- `set-engine-lights 1 1 1 FADE` looks for a sixth word. -/
theorem engineLights_sixth_word :
    let out : Outside := ⟨fun _ => 0, fun _ => 0, fun _ => 0, fun _ => [], .ok 1⟩
    let s : Tool := { Tool.interactive none none 0 with connState := .connected }
    let one := CString.literal "1"
    let words := [one, one, one, CString.literal "FADE"]
    let argvp (k : Nat) := (CString.literal "set-engine-lights" :: words)[k]?
    findCommand (CString.literal "set-engine-lights") = some .cmdAnkiVehicleEngineLights ∧
      5 ∈ (CmdFunc.handler out .cmdAnkiVehicleEngineLights s 5).asked argvp ∧ argvp 5 = none := by
  decide +kernel

end AnkiDrive
