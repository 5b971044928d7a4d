import Mathlib.Data.Fin.VecNotation
import Mathlib.Logic.Equiv.Basic
import AnkiDrive.Numbers

/-! The engine lights. Three patterns are written, one for each colour. The intensity of blue
is passed in the place of red's and green's lower bound, unless the effect is steady. -/
namespace AnkiDrive
open CModel

/-- What `cmd_anki_vehicle_engine_lights` does with the intensities, the effect and the cycles
it has been given. -/
def engineLights (out : Outside) (effect r g b : UInt8) (cyclesPerMin : UInt16) : List Action :=
  if effect = effectSteady then vehicleSetRgbLights out effect r r g g b b 0
  else vehicleSetRgbLights out effect 0 r 0 g b 0 cyclesPerMin

theorem engineLights_result {out : Outside} {s : Tool} {argcp : Nat} {argvp : Nat → Option CString}
    {red green blue name cycles : CString} {effect : UInt8} (connected : s.connState = .connected)
    (enough : 5 ≤ argcp) (first : argvp 1 = some red) (second : argvp 2 = some green)
    (third : argvp 3 = some blue) (fourth : argvp 4 = some name) (fifth : argvp 5 = some cycles)
    (named : getEffectByName (some name) = some effect) :
    (cmdAnkiVehicleEngineLights out s argcp).result argvp = some (s,
      (engineLights out effect (out.intensity (out.strtof red)) (out.intensity (out.strtof green))
        (out.intensity (out.strtof blue)) (atoi cycles).toInt16.toUInt16).map
          (Action.output s.attrib s.vehicle.writeChar.valueHandle)) := by
  simp only [cmdAnkiVehicleEngineLights, vehicleCommand_result connected enough, result_bind,
    result_word, result_computed, result_ite, result_pure, first, second, third, fourth, fifth,
    named, Option.bind_some, engineLights]
  split <;> rfl

def bounds (effect x : UInt8) : UInt8 × UInt8 := if effect = effectSteady then (x, x) else (0, x)

/-- The commands that are written, as a vehicle reads them. -/
def received : List Action → List (Option Command)
  | [] => []
  | .writeChar value :: actions => Command.decode value.tail :: received actions
  | _ :: actions => received actions

/-- Three patterns that differ in their channels and, as the intensities do, in their bounds. -/
def TreatsAlike (effect r g b : UInt8) (patterns : List (Option Command)) : Prop :=
  ∃ cycles,
    let pattern (channel x : UInt8) : Option Command :=
      some (.lightsPattern channel effect (bounds effect x).1 (bounds effect x).2 cycles)
    patterns = [pattern lightRed r, pattern lightGreen g, pattern lightBlue b]

def boundsOf (channel : UInt8) : List (Option Command) → Option (UInt8 × UInt8)
  | [] => none
  | some (.lightsPattern c _ start «end» _) :: patterns =>
    if c = channel then some (start, «end») else boundsOf channel patterns
  | _ :: patterns => boundsOf channel patterns

section Colours

variable (out : Outside) (effect : UInt8) (cyclesPerMin : UInt16)

theorem rgb_received (startRed endRed startGreen endGreen startBlue endBlue : UInt8)
    (cycles : UInt16) :
    received (vehicleSetRgbLights out effect startRed endRed startGreen endGreen startBlue endBlue
      cycles) = [some (.lightsPattern lightRed effect startRed endRed cycles),
        some (.lightsPattern lightGreen effect startGreen endGreen cycles),
        some (.lightsPattern lightBlue effect startBlue endBlue cycles)] := by
  have pattern : ∀ channel start finish, Command.decode (messageBytes
      (ankiVehicleMsgLightsPattern out.stack channel effect start finish cycles)).tail =
        some (.lightsPattern channel effect start finish cycles) := by
    intro channel start finish
    have sent := Command.sent_eq out.stack (.lightsPattern channel effect start finish cycles)
    have tail := congrArg (fun value => Command.decode value.tail) sent
    exact tail.trans (Command.decode_body (.lightsPattern channel effect start finish cycles))
  simp only [received, vehicleSetRgbLights, pattern]

theorem steady_received (steady : effect = effectSteady) (r g b : UInt8) :
    received (engineLights out effect r g b cyclesPerMin) =
      [some (.lightsPattern lightRed effect r r 0), some (.lightsPattern lightGreen effect g g 0),
        some (.lightsPattern lightBlue effect b b 0)] := by
  unfold engineLights
  rw [if_pos steady]
  exact rgb_received out effect r r g g b b 0

theorem moving_received (moving : effect ≠ effectSteady) (r g b : UInt8) :
    received (engineLights out effect r g b cyclesPerMin) =
      [some (.lightsPattern lightRed effect 0 r cyclesPerMin),
        some (.lightsPattern lightGreen effect 0 g cyclesPerMin),
        some (.lightsPattern lightBlue effect b 0 cyclesPerMin)] := by
  unfold engineLights
  rw [if_neg moving]
  exact rgb_received out effect 0 r 0 g b 0 cyclesPerMin

theorem treatsAlike_iff (r g b : UInt8) :
    TreatsAlike effect r g b (received (engineLights out effect r g b cyclesPerMin)) ↔
      effect = effectSteady ∨ b = 0 := by
  by_cases steady : effect = effectSteady
  · rw [steady_received out effect cyclesPerMin steady]
    refine iff_of_true ⟨0, ?_⟩ (Or.inl steady)
    simp only [bounds, if_pos steady]
  · rw [moving_received out effect cyclesPerMin steady, or_iff_right steady]
    constructor
    · rintro ⟨cycles, same⟩
      simp only [bounds, if_neg steady, List.cons.injEq, Option.some.injEq,
        Command.lightsPattern.injEq] at same
      exact same.2.2.1.2.2.1
    · rintro rfl
      refine ⟨cyclesPerMin, ?_⟩
      simp only [bounds, if_neg steady]

def colour : Fin 3 → UInt8 := ![lightRed, lightGreen, lightBlue]

def colourBounds (x : Fin 3 → UInt8) (i : Fin 3) : Option (UInt8 × UInt8) :=
  boundsOf (colour i) (received (engineLights out effect (x 0) (x 1) (x 2) cyclesPerMin))

theorem steady_bounds (steady : effect = effectSteady) (x : Fin 3 → UInt8) (i : Fin 3) :
    colourBounds out effect cyclesPerMin x i = some (x i, x i) := by
  simp only [colourBounds, steady_received out effect cyclesPerMin steady]
  obtain rfl | rfl | rfl : i = 0 ∨ i = 1 ∨ i = 2 := by omega
  · rfl
  · rfl
  · rfl

theorem permuted_alike_iff :
    (∀ (x : Fin 3 → UInt8) (σ : Equiv.Perm (Fin 3)) (i : Fin 3),
      colourBounds out effect cyclesPerMin (x ∘ σ) i =
        colourBounds out effect cyclesPerMin x (σ i)) ↔ effect = effectSteady := by
  constructor
  · intro permuted
    by_contra moving
    have swapped := permuted ![0, 0, 1] (Equiv.swap 0 2) 0
    simp only [colourBounds, moving_received out effect cyclesPerMin moving] at swapped
    revert swapped
    simp [boundsOf, colour, lightRed, lightGreen, lightBlue]
  · intro steady x σ i
    rw [steady_bounds out effect cyclesPerMin steady, steady_bounds out effect cyclesPerMin steady]
    rfl

/-- Three colours are treated alike exactly when the effect is steady or there is no blue, and
permuted with their intensities exactly when the effect is steady. -/
theorem engine_colours_alike_iff :
    (∀ r g b : UInt8,
      TreatsAlike effect r g b (received (engineLights out effect r g b cyclesPerMin)) ↔
        effect = effectSteady ∨ b = 0) ∧
    ((∀ (x : Fin 3 → UInt8) (σ : Equiv.Perm (Fin 3)) (i : Fin 3),
      colourBounds out effect cyclesPerMin (x ∘ σ) i =
        colourBounds out effect cyclesPerMin x (σ i)) ↔ effect = effectSteady) :=
  ⟨treatsAlike_iff out effect cyclesPerMin, permuted_alike_iff out effect cyclesPerMin⟩

end Colours

/-- In a white that fades in, blue fades out. -/
theorem blue_fades_out :
    let out : Outside := ⟨fun _ => 0, fun _ => 0, fun _ => 14, fun _ => [], .ok 1⟩
    let line := ["set-engine-lights", "1", "1", "1", "FADE", "60"].map CString.literal
    let patterns := received (engineLights out 1 14 14 14 60)
    (outcome out Tool.onLine .cmdAnkiVehicleEngineLights line).map Prod.snd =
        some ((engineLights out 1 14 14 14 60).map (Action.output none 0)) ∧
      boundsOf lightRed patterns = some (0, 14) ∧ boundsOf lightGreen patterns = some (0, 14) ∧
      boundsOf lightBlue patterns = some (14, 0) ∧ ¬ TreatsAlike 1 14 14 14 patterns := by
  intro out line patterns
  refine ⟨by decide +kernel, by decide +kernel, by decide +kernel, by decide +kernel, ?_⟩
  intro alike
  rcases (treatsAlike_iff out 1 60 14 14 14).mp alike with steady | none
  · cases steady
  · cases none

end AnkiDrive
