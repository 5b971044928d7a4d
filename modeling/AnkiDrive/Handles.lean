import Mathlib.Data.List.Induction
import Mathlib.Tactic.Common
import AnkiDrive.MainLoop

/-! Where commands go. A command goes to the handle that is in the tool's record of the
vehicle. The record outlives the connection it was made on, so that is the handle of the
vehicle at the other end only if discovery has found it there. -/
namespace AnkiDrive

inductive CharRole where
  | read
  | write
  deriving DecidableEq

def AnkiVehicle.char (vehicle : AnkiVehicle) : CharRole → GattChar
  | .read => vehicle.readChar
  | .write => vehicle.writeChar

def isAnkiChar : CharRole → GattChar → Bool
  | .read => isAnkiReadChar
  | .write => isAnkiWriteChar

/-- The characteristic an output is for, and the handle it passes. -/
def Output.target : Output → Option (CharRole × UInt16)
  | .gattReadChar _ handle => some (.read, handle)
  | .gattWriteChar _ handle _ => some (.write, handle)
  | .gattWriteCmd _ handle _ => some (.write, handle)
  | _ => none

@[simp] theorem printf_target (line : List UInt8) : (Output.printf line).target = none := rfl

@[simp] theorem rlPrintf_target (line : String) : (rlPrintf line).target = none := rfl

@[simp] theorem error_target (line : List UInt8) : (error line).target = none := rfl

@[simp] theorem failed_target (line : List UInt8) : (failed line).target = none := rfl

@[simp] theorem gattConnect_target (dst : CString) (dstType : Option CString) (psm mtu : Int32) :
    (Output.gattConnect dst dstType psm mtu).target = none := rfl

@[simp] theorem gattExchangeMtu_target (attrib : Option IOChannel) (mtu : UInt16) :
    (Output.gattExchangeMtu attrib mtu).target = none := rfl

@[simp] theorem mainLoopQuit_target : Output.mainLoopQuit.target = none := rfl

/-- The last characteristic of its kind that `discover_char_cb` is called with, if it is
called with success. -/
def discovered (role : CharRole) : Event → Option GattChar
  | .discoveredChars characteristics status =>
    if status = 0 then (characteristics.filter (isAnkiChar role)).getLast? else none
  | _ => none

def report (role : CharRole) (known : Option GattChar) (e : Event) : Option GattChar :=
  match e with
  | .connected none => none
  | e => (discovered role e).or known

/-- The characteristic that `discover_char_cb` has last reported since the most recent
successful `connect_cb`. -/
def reported (role : CharRole) (events : List Event) : Option GattChar :=
  events.foldl (report role) none

theorem report_eq_some {role : CharRole} {known : Option GattChar} {e : Event} {chars : GattChar}
    (found : report role known e = some chars) : e ≠ .connected none ∧
      (discovered role e = some chars ∨ discovered role e = none ∧ known = some chars) := by
  unfold report at found
  split at found
  · cases found
  · rename_i other
    exact ⟨other, Option.or_eq_some_iff.mp found⟩

theorem discovered_chars {role : CharRole} {e : Event} {chars : GattChar}
    (found : discovered role e = some chars) : ∃ characteristics,
      e = .discoveredChars characteristics 0 ∧ chars ∈ characteristics ∧
      isAnkiChar role chars = true := by
  cases e with
  | line out words => cases found
  | connected err => cases found
  | hangUp => cases found
  | discoveredServices ranges status => cases found
  | discoveredChars characteristics status =>
    simp only [discovered] at found
    split at found
    · rename_i succeeded
      obtain ⟨member, anki⟩ := List.mem_filter.mp (List.mem_of_getLast? found)
      exact ⟨characteristics, by rw [succeeded], member, anki⟩
    · cases found

theorem reported_concat (role : CharRole) (events : List Event) (e : Event) :
    reported role (events ++ [e]) = report role (reported role events) e := List.foldl_append

/-- What has been reported is a characteristic that a successful `discover_char_cb` was called
with, and no `connect_cb` has succeeded since. -/
theorem reported_since {role : CharRole} {events : List Event} {chars : GattChar}
    (found : reported role events = some chars) :
    ∃ before characteristics after,
      events = before ++ .discoveredChars characteristics 0 :: after ∧
      chars ∈ characteristics ∧ isAnkiChar role chars = true ∧ ∀ e ∈ after, e ≠ .connected none := by
  induction events using List.reverseRecOn with
  | nil => cases found
  | append_singleton events e ih =>
    rw [reported_concat] at found
    obtain ⟨same, here | ⟨_, known⟩⟩ := report_eq_some found
    · obtain ⟨characteristics, rfl, member, anki⟩ := discovered_chars here
      exact ⟨events, characteristics, [], rfl, member, anki, by simp⟩
    · obtain ⟨before, characteristics, after, rfl, member, anki, rest⟩ := ih known
      refine ⟨before, characteristics, after ++ [e], by simp, member, anki, fun d hd => ?_⟩
      rcases List.mem_append.mp hd with early | last
      · exact rest d early
      · exact List.mem_singleton.mp last ▸ same

theorem loop_char (role : CharRole) (vehicle : AnkiVehicle) (characteristics : List GattChar) :
    (discoverCharCb.loop vehicle characteristics).1.char role =
      (characteristics.filter (isAnkiChar role)).getLast?.getD (vehicle.char role) := by
  induction characteristics generalizing vehicle with
  | nil => rfl
  | cons chars characteristics ih =>
    have here : AnkiVehicle.char
        (let vehicle := if isAnkiReadChar chars then { vehicle with readChar := chars } else vehicle
        if isAnkiWriteChar chars then { vehicle with writeChar := chars } else vehicle) role =
          if isAnkiChar role chars then chars else vehicle.char role := by
      rcases Bool.eq_false_or_eq_true (isAnkiReadChar chars) with read | read <;>
        rcases Bool.eq_false_or_eq_true (isAnkiWriteChar chars) with write | write <;>
        cases role <;> simp only [AnkiVehicle.char, isAnkiChar, read, write] <;> rfl
    simp only [discoverCharCb.loop, ih, here]
    cases found : isAnkiChar role chars with
    | false => simp [found]
    | true => simp [found, List.getLast?_cons]

/-- No handle is passed but those in the record. -/
def PassesHeld (s : Tool) (outputs : List Output) : Prop :=
  ∀ o ∈ outputs, ∀ role handle, o.target = some (role, handle) →
    handle = (s.vehicle.char role).valueHandle

/-- A handler that returns has kept the record, and passed no handle but those in it. -/
def KeepsRecord (handler : Handler) : Prop :=
  ∀ s argcp argvp s' outputs, (handler s argcp).result argvp = some (s', outputs) →
    s'.vehicle = s.vehicle ∧ PassesHeld s outputs

section Return

variable {s t s' : Tool} {sent outputs : List Output}

theorem returned_keeps (done : some (t, sent) = some (s', outputs)) (kept : t.vehicle = s.vehicle)
    (held : PassesHeld s sent) : s'.vehicle = s.vehicle ∧ PassesHeld s outputs := by
  cases done
  exact ⟨kept, held⟩

theorem mute_passesHeld (mute : ∀ o ∈ sent, o.target = none) : PassesHeld s sent := by
  intro o member role handle target
  rw [mute o member] at target
  cases target

theorem returned_mute (done : some (t, sent) = some (s', outputs)) (kept : t.vehicle = s.vehicle)
    (mute : ∀ o ∈ sent, o.target = none) : s'.vehicle = s.vehicle ∧ PassesHeld s outputs :=
  returned_keeps done kept (mute_passesHeld mute)

end Return

theorem vehicleCommand_keepsRecord (words : Nat) (params : String) (more : List String)
    (body : Nat → Args (List Action)) : KeepsRecord (vehicleCommand words params more body) := by
  intro s argcp argvp s' outputs done
  simp only [vehicleCommand, usage, result_ite, result_bind, result_pure, result_word] at done
  split at done
  · exact returned_mute done rfl (by simp)
  · split at done
    · obtain ⟨line, _, done⟩ := Option.bind_eq_some_iff.mp done
      refine returned_mute done rfl fun o member => ?_
      rcases List.mem_cons.mp member with rfl | later
      · rfl
      · obtain ⟨_, _, rfl⟩ := List.mem_map.mp later
        rfl
    · obtain ⟨actions, _, done⟩ := Option.bind_eq_some_iff.mp done
      refine returned_keeps done rfl fun o member role handle target => ?_
      obtain ⟨action, _, rfl⟩ := List.mem_map.mp member
      cases action with
      | printf line => cases target
      | writeChar value => cases target; rfl
      | writeCmd value => cases target; rfl

theorem ofInt_toNat (x : UInt16) : UInt16.ofInt x.toNat = x := by
  have small := x.toNat_lt
  apply UInt16.toNat_inj.mp
  simp only [UInt16.ofInt, UInt16.toNat_ofNat']
  omega

theorem cmdAnkiVehicleRead_keepsRecord : KeepsRecord cmdAnkiVehicleRead := by
  intro s argcp argvp s' outputs done
  have valid : ¬ ((s.vehicle.readChar.valueHandle.toNat : Int) < 0) := by omega
  simp only [cmdAnkiVehicleRead, result_ite, result_pure, if_neg valid] at done
  split at done
  · exact returned_mute done rfl (by simp)
  · split at done
    · exact returned_mute done rfl (by simp)
    · refine returned_keeps done rfl fun o member role handle target => ?_
      cases List.mem_singleton.mp member
      cases target
      exact ofInt_toNat _

theorem cmdHelp_keepsRecord : KeepsRecord cmdHelp := by
  intro s argcp argvp s' outputs done
  refine returned_mute done rfl fun o member => ?_
  obtain ⟨_, _, rfl⟩ := List.mem_map.mp member
  rfl

theorem cmdExit_keepsRecord : KeepsRecord cmdExit := by
  intro s argcp argvp s' outputs done
  exact returned_mute done rfl (by simp)

theorem disconnectIo_vehicle (s : Tool) : (disconnectIo s).vehicle = s.vehicle := by
  unfold disconnectIo
  split <;> rfl

theorem cmdDisconnect_keepsRecord : KeepsRecord cmdDisconnect := by
  intro s argcp argvp s' outputs done
  exact returned_mute done (disconnectIo_vehicle s) (by simp)

theorem takeAddress_vehicle {s t : Tool} {argcp : Nat} {argvp : Nat → Option CString}
    (done : (cmdConnect.takeAddress s argcp).result argvp = some t) : t.vehicle = s.vehicle := by
  simp only [cmdConnect.takeAddress, result_ite, result_bind, result_pure] at done
  split at done
  · obtain ⟨dst, _, done⟩ := Option.bind_eq_some_iff.mp done
    split at done
    · obtain ⟨dstType, _, done⟩ := Option.bind_eq_some_iff.mp done
      cases done
      rfl
    · cases done
      rfl
  · cases done
    rfl

theorem attempt_mute (out : Outside) (s : Tool) :
    (cmdConnect.attempt out s).1.vehicle = s.vehicle ∧
      ∀ o ∈ (cmdConnect.attempt out s).2, o.target = none := by
  unfold cmdConnect.attempt
  cases s.optDst with
  | none => exact ⟨rfl, by simp⟩
  | some dst =>
    cases out.gattConnect with
    | error message => exact ⟨rfl, by simp⟩
    | ok io => exact ⟨rfl, by simp⟩

theorem cmdConnect_keepsRecord (out : Outside) : KeepsRecord (cmdConnect out) := by
  intro s argcp argvp s' outputs done
  simp only [cmdConnect, result_ite, result_bind, result_pure] at done
  split at done
  · exact returned_mute done rfl (by simp)
  · obtain ⟨t, taken, done⟩ := Option.bind_eq_some_iff.mp done
    obtain ⟨kept, mute⟩ := attempt_mute out t
    exact returned_mute done (kept.trans (takeAddress_vehicle taken)) mute

theorem cmdMtu_keepsRecord : KeepsRecord cmdMtu := by
  intro s argcp argvp s' outputs done
  simp only [cmdMtu, result_ite, result_bind, result_pure] at done
  split at done
  · exact returned_mute done rfl (by simp)
  · split at done
    · exact returned_mute done rfl (by simp)
    · split at done
      · exact returned_mute done rfl (by simp)
      · split at done
        · exact returned_mute done rfl (by simp)
        · obtain ⟨given, _, done⟩ := Option.bind_eq_some_iff.mp done
          split at done
          · exact returned_mute done rfl (by simp)
          · exact returned_mute done rfl (by simp)

theorem handler_keepsRecord (out : Outside) (func : CmdFunc) : KeepsRecord (func.handler out) := by
  cases func with
  | cmdHelp => exact cmdHelp_keepsRecord
  | cmdExit => exact cmdExit_keepsRecord
  | cmdConnect => exact cmdConnect_keepsRecord out
  | cmdDisconnect => exact cmdDisconnect_keepsRecord
  | cmdMtu => exact cmdMtu_keepsRecord
  | cmdAnkiVehicleRead => exact cmdAnkiVehicleRead_keepsRecord
  | cmdAnkiVehicleSdkMode | cmdAnkiVehiclePing | cmdAnkiVehicleGetVersion
  | cmdAnkiVehicleSetSpeed | cmdAnkiVehicleChangeLane | cmdAnkiVehicleLightsPattern
  | cmdAnkiVehicleEngineLights | cmdAnkiVehicleDisconnect | cmdAnkiVehicleWrite =>
    exact vehicleCommand_keepsRecord _ _ _ _

theorem parseLine_keepsRecord {out : Outside} {s s' : Tool} {line : Option (List CString)}
    {outputs : List Output} (done : parseLine out s line = some (s', outputs)) :
    s'.vehicle = s.vehicle ∧ PassesHeld s outputs := by
  rcases line with _ | _ | ⟨name, words⟩
  · exact returned_mute done rfl (by simp)
  · exact returned_mute done rfl (by simp)
  · simp only [parseLine] at done
    cases found : findCommand name with
    | none =>
      simp only [found] at done
      exact returned_mute done rfl (by simp)
    | some func =>
      simp only [found] at done
      exact handler_keepsRecord out func _ _ _ _ _ done

theorem mainLoop_concat {start s' : Tool} {events : List Event} {e : Event}
    (reached : mainLoop start (events ++ [e]) = some s') :
    ∃ s outputs, mainLoop start events = some s ∧ step s e = some (s', outputs) := by
  simp only [mainLoop, List.foldlM_append, List.foldlM_cons, List.foldlM_nil, Option.bind_eq_bind,
    Option.bind_eq_some_iff, Option.map_eq_some_iff] at reached
  obtain ⟨s, before, t, ⟨⟨_, outputs⟩, done, rfl⟩, same⟩ := reached
  cases same
  exact ⟨s, outputs, before, done⟩

theorem step_char {s s' : Tool} {e : Event} {outputs : List Output}
    (done : step s e = some (s', outputs)) (role : CharRole) :
    s'.vehicle.char role = (discovered role e).getD (s.vehicle.char role) := by
  cases e with
  | line out words =>
    rw [(parseLine_keepsRecord done).1]
    rfl
  | connected err =>
    cases err with
    | none => cases done; rfl
    | some message => cases done; rfl
  | hangUp =>
    cases done
    rw [disconnectIo_vehicle]
    rfl
  | discoveredServices ranges status =>
    cases done
    rfl
  | discoveredChars characteristics status =>
    simp only [step, discoverCharCb, discovered] at done ⊢
    split at done
    · rename_i failed
      cases done
      rw [if_neg failed]
      rfl
    · rename_i succeeded
      cases done
      rw [if_pos (not_not.mp succeeded)]
      exact loop_char role s.vehicle characteristics

theorem reported_held {start s : Tool} {events : List Event} {role : CharRole} {chars : GattChar}
    (reached : mainLoop start events = some s) (found : reported role events = some chars) :
    s.vehicle.char role = chars := by
  induction events using List.reverseRecOn generalizing s chars with
  | nil => cases found
  | append_singleton events e ih =>
    obtain ⟨t, outputs, before, done⟩ := mainLoop_concat reached
    have changed := step_char done role
    rw [reported_concat] at found
    obtain ⟨_, here | ⟨silent, known⟩⟩ := report_eq_some found
    · rw [changed, here, Option.getD_some]
    · rw [changed, silent, Option.getD_none]
      exact ih before known

/-- What the tool does at an event that follows a run. -/
def outputsAt (start : Tool) (before : List Event) (e : Event) : List Output :=
  match (mainLoop start before).bind fun s => step s e with
  | some (_, outputs) => outputs
  | none => []

/-- In a run, every handle that a command passes for a characteristic is as stated. -/
def EveryPass (start : Tool) (events : List Event)
    (stated : List Event → CharRole → UInt16 → Prop) : Prop :=
  ∀ before out words after, events = before ++ .line out words :: after →
    ∀ o ∈ outputsAt start before (.line out words), ∀ role handle,
      o.target = some (role, handle) → stated before role handle

theorem passes_held {start : Tool} {before : List Event} {out : Outside}
    {words : Option (List CString)} {o : Output}
    (member : o ∈ outputsAt start before (.line out words)) {role : CharRole} {handle : UInt16}
    (target : o.target = some (role, handle)) :
    ∃ s, mainLoop start before = some s ∧ handle = (s.vehicle.char role).valueHandle := by
  simp only [outputsAt] at member
  cases outcome : (mainLoop start before).bind fun s => step s (.line out words) with
  | none =>
    simp only [outcome] at member
    cases member
  | some result =>
    obtain ⟨s, reached, done⟩ := Option.bind_eq_some_iff.mp outcome
    simp only [outcome] at member
    exact ⟨s, reached, (parseLine_keepsRecord done).2 o member role handle target⟩

/-- Commands go to handles of the connection they are given on exactly when no command is
given, or gets as far as passing a handle, before discovery has reported on that connection
the characteristic it is for. -/
theorem commands_pass_reported_iff (dst dstType : Option CString) (psm : Int32)
    (events : List Event) :
    EveryPass (Tool.interactive dst dstType psm) events (fun before role handle =>
        ∃ chars, reported role before = some chars ∧ chars.valueHandle = handle) ↔
      EveryPass (Tool.interactive dst dstType psm) events (fun before role _ =>
        (reported role before).isSome) := by
  constructor
  · intro current before out words after split o member role handle target
    obtain ⟨chars, found, _⟩ := current before out words after split o member role handle target
    simp only [found, Option.isSome_some]
  · intro discovered before out words after split o member role handle target
    obtain ⟨chars, found⟩ := Option.isSome_iff_exists.mp
      (discovered before out words after split o member role handle target)
    obtain ⟨s, reached, passed⟩ := passes_held member target
    exact ⟨chars, found, by rw [passed, reported_held reached found]⟩

/-- After a reconnection, and before discovery, a command goes to a handle of the device that
was connected before. -/
theorem stale_handle_passed :
    let out : Outside := ⟨fun _ => 0, fun _ => 0, fun _ => 0, fun _ => [], .ok 1⟩
    let line (words : List CString) : Event := .line out (some words)
    let connect (dst : CString) : Event := line [CString.literal "connect", dst]
    let readChar : GattChar := ⟨ankiStrChrReadUuid, 0x000b, 0x12, 0x000c⟩
    let writeChar : GattChar := ⟨ankiStrChrWriteUuid, 0x000e, 0x0c, 0x000f⟩
    let events := [connect (CString.literal "D2:48:12:24:D3:1E"), .connected none,
      .discoveredChars [readChar, writeChar] 0, line [CString.literal "disconnect"],
      connect (CString.literal "E6:D8:52:F1:D9:43"), .connected none]
    (∃ o ∈ outputsAt (Tool.interactive none none 0) events (line [CString.literal "ping"]),
        o.target = some (.write, 0x000f)) ∧
      reported .write events = none := by
  decide +kernel

end AnkiDrive
