import AnkiDrive.Commands
import AnkiDrive.LightNames
import AnkiDrive.MainLoop

/-! The numbers in commands. A number is cut to the width of the field it is for, and arrives
as it was typed when that field can hold it. -/
namespace AnkiDrive
open CModel

section Cut

variable (n : Int32)

theorem low_byte : n.toInt8.toUInt8.toNat = n.toBitVec.toNat % 256 := by
  have narrow : n.toInt8.toUInt8.toNat = (n.toBitVec.signExtend 8).toNat := rfl
  rw [narrow, BitVec.signExtend_eq_setWidth_of_le _ (by decide), BitVec.toNat_setWidth]

theorem low_word : n.toInt16.toUInt16.toNat = n.toBitVec.toNat % 65536 := by
  have narrow : n.toInt16.toUInt16.toNat = (n.toBitVec.signExtend 16).toNat := rfl
  rw [narrow, BitVec.signExtend_eq_setWidth_of_le _ (by decide), BitVec.toNat_setWidth]

theorem byte_holds_iff :
    (n.toInt8.toUInt8.toNat : Int) = n.toInt ↔ 0 ≤ n.toInt ∧ n.toInt ≤ 255 := by
  have value := BitVec.toInt_eq_toNat_cond n.toBitVec
  have size := n.toBitVec.isLt
  simp only [low_byte, Int32.toInt, value]
  split <;> omega

theorem word_holds_iff :
    (n.toInt16.toUInt16.toNat : Int) = n.toInt ↔ 0 ≤ n.toInt ∧ n.toInt ≤ 65535 := by
  have value := BitVec.toInt_eq_toNat_cond n.toBitVec
  have size := n.toBitVec.isLt
  simp only [low_word, Int32.toInt, value]
  split <;> omega

theorem signed_holds_iff :
    n.toInt16.toInt = n.toInt ↔ -32768 ≤ n.toInt ∧ n.toInt ≤ 32767 := by
  constructor
  · intro same
    have low := Int16.le_toInt n.toInt16
    have high := Int16.toInt_lt n.toInt16
    omega
  · rintro ⟨low, high⟩
    rw [Int32.toInt_toInt16]
    exact Int.bmod_eq_of_le (by omega) (by omega)

end Cut

/-- All arguments for a pattern of lights, with names that are found. -/
def LightsAccepted (words : List CString) : Prop :=
  5 ≤ words.length ∧ getChannelByName words[0]? ≠ none ∧ getEffectByName words[1]? ≠ none

inductive NumberArg where
  | sdkMode
  | speed
  | accel
  | horizontalSpeed
  | start
  | «end»
  | cyclesPerMin
  deriving DecidableEq

namespace NumberArg

def func : NumberArg → CmdFunc
  | sdkMode => .cmdAnkiVehicleSdkMode
  | speed | accel => .cmdAnkiVehicleSetSpeed
  | horizontalSpeed => .cmdAnkiVehicleChangeLane
  | start | «end» | cyclesPerMin => .cmdAnkiVehicleLightsPattern

/-- Its place in `argvp`. -/
def index : NumberArg → Nat
  | sdkMode | speed | horizontalSpeed => 1
  | accel => 2
  | start => 3
  | «end» => 4
  | cyclesPerMin => 5

def msgId : NumberArg → UInt8
  | sdkMode => ankiVehicleMsgC2vSdkMode
  | speed | accel => ankiVehicleMsgC2vSetSpeed
  | horizontalSpeed => ankiVehicleMsgC2vChangeLane
  | start | «end» | cyclesPerMin => ankiVehicleMsgC2vLightsPattern

def field (msg : Memory) : NumberArg → Int
  | sdkMode => (msg AnkiVehicleMsgSdkMode.on.offset).toNat
  | speed => (msg.load16 AnkiVehicleMsgSetSpeed.speedMmPerSec.offset).toInt16.toInt
  | accel => (msg.load16 AnkiVehicleMsgSetSpeed.accelMmPerSec2.offset).toInt16.toInt
  | horizontalSpeed => (msg.load16 AnkiVehicleMsgChangeLane.horizontalSpeedMmPerSec.offset).toNat
  | start => (msg AnkiVehicleMsgLightsPattern.start.offset).toNat
  | «end» => (msg AnkiVehicleMsgLightsPattern.end.offset).toNat
  | cyclesPerMin => (msg.load16 AnkiVehicleMsgLightsPattern.cyclesPerMin.offset).toNat

/-- The type of the field has the number. -/
def Holds (n : Int) : NumberArg → Prop
  | sdkMode | start | «end» => 0 ≤ n ∧ n ≤ 255
  | speed | accel => -32768 ≤ n ∧ n ≤ 32767
  | horizontalSpeed | cyclesPerMin => 0 ≤ n ∧ n ≤ 65535

/-- The command is one that writes its messages. -/
def Accepted (words : List CString) : NumberArg → Prop
  | sdkMode | speed | accel | horizontalSpeed => True
  | start | «end» | cyclesPerMin => LightsAccepted words

end NumberArg

/-- The messages that are written. -/
def written : List Output → List (List UInt8)
  | [] => []
  | .gattWriteChar _ _ value :: outputs => value :: written outputs
  | _ :: outputs => written outputs

/-- In what a command comes to, every message with the field has the number in it. -/
def NumberArg.Arrives (arg : NumberArg) (outcome : Option (Tool × List Output)) (n : Int) : Prop :=
  ∀ value ∈ written (outcome.elim [] Prod.snd),
    ofBytes value AnkiVehicleMsg.msgId.offset = arg.msgId → arg.field (ofBytes value) = n

section Arrives

variable {arg : NumberArg} {outcome : Option (Tool × List Output)} {n : Int}

theorem arrives_last {others : List (List UInt8)} {value : List UInt8}
    (sent : written (outcome.elim [] Prod.snd) = others ++ [value])
    (apart : ∀ other ∈ others, ofBytes other AnkiVehicleMsg.msgId.offset ≠ arg.msgId)
    (same : ofBytes value AnkiVehicleMsg.msgId.offset = arg.msgId) :
    arg.Arrives outcome n ↔ arg.field (ofBytes value) = n := by
  unfold NumberArg.Arrives
  rw [sent]
  constructor
  · intro arrives
    exact arrives value (by simp) same
  · rintro arrives message member here
    rcases List.mem_append.mp member with early | last
    · exact absurd here (apart message early)
    · cases List.mem_singleton.mp last
      exact arrives

theorem arrives_only {value : List UInt8} (sent : written (outcome.elim [] Prod.snd) = [value])
    (same : ofBytes value AnkiVehicleMsg.msgId.offset = arg.msgId) :
    arg.Arrives outcome n ↔ arg.field (ofBytes value) = n :=
  @arrives_last arg outcome n [] value sent (List.forall_mem_nil _) same

theorem arrives_iff_holds {others : List (List UInt8)} {value : List UInt8}
    (sent : written (outcome.elim [] Prod.snd) = others ++ [value])
    (apart : ∀ other ∈ others, ofBytes other AnkiVehicleMsg.msgId.offset ≠ arg.msgId)
    (same : ofBytes value AnkiVehicleMsg.msgId.offset = arg.msgId)
    (field : arg.field (ofBytes value) = n ↔ arg.Holds n) :
    arg.Arrives outcome n ↔ arg.Holds n ∨ ¬ True := by
  rw [arrives_last sent apart same, field, or_iff_left (not_not.mpr trivial)]

theorem arrives_unwritten (nothing : written (outcome.elim [] Prod.snd) = []) :
    arg.Arrives outcome n := by
  unfold NumberArg.Arrives
  rw [nothing]
  exact List.forall_mem_nil _

end Arrives

section Messages

variable (message : Memory)

theorem setSdkMode_read (on : UInt8) :
    let msg := ofBytes ((Command.setSdkMode on).sent message)
    msg AnkiVehicleMsg.msgId.offset = ankiVehicleMsgC2vSdkMode ∧
      NumberArg.sdkMode.field msg = on.toNat := by
  rw [Command.sent_eq]
  exact ⟨rfl, rfl⟩

theorem setSpeed_read (speed accel : UInt16) :
    let msg := ofBytes ((Command.setSpeed speed accel).sent message)
    msg AnkiVehicleMsg.msgId.offset = ankiVehicleMsgC2vSetSpeed ∧
      NumberArg.speed.field msg = speed.toInt16.toInt ∧
      NumberArg.accel.field msg = accel.toInt16.toInt := by
  rw [Command.sent_eq]
  refine ⟨rfl, ?_, ?_⟩
  · exact congrArg (fun v : UInt16 => v.toInt16.toInt) (word16_le16 speed)
  · exact congrArg (fun v : UInt16 => v.toInt16.toInt) (word16_le16 accel)

theorem changeLane_read (speed : UInt16) (offset : UInt32) :
    let msg := ofBytes ((Command.changeLane speed offset).sent message)
    msg AnkiVehicleMsg.msgId.offset = ankiVehicleMsgC2vChangeLane ∧
      NumberArg.horizontalSpeed.field msg = speed.toNat := by
  rw [Command.sent_eq]
  exact ⟨rfl, congrArg (fun v : UInt16 => (v.toNat : Int)) (word16_le16 speed)⟩

theorem lightsPattern_read (channel effect start «end» : UInt8) (cycles : UInt16) :
    let msg := ofBytes ((Command.lightsPattern channel effect start «end» cycles).sent message)
    msg AnkiVehicleMsg.msgId.offset = ankiVehicleMsgC2vLightsPattern ∧
      NumberArg.start.field msg = start.toNat ∧ NumberArg.end.field msg = «end».toNat ∧
      NumberArg.cyclesPerMin.field msg = cycles.toNat := by
  rw [Command.sent_eq]
  exact ⟨rfl, rfl, rfl, congrArg (fun v : UInt16 => (v.toNat : Int)) (word16_le16 cycles)⟩

end Messages

theorem result_map {α β : Type} (argvp : Nat → Option CString) (f : α → β) (q : Args α) :
    Args.result (f <$> q) argvp = (q.result argvp).map f := by
  have bound : f <$> q = q >>= fun a => pure (f a) := rfl
  rw [bound, result_bind]
  cases q.result argvp <;> rfl

section Handlers

variable {out : Outside} {s : Tool} {argcp : Nat} {argvp : Nat → Option CString}

theorem vehicleCommand_result {words : Nat} {params : String} {more : List String}
    {body : Nat → Args (List Action)} (connected : s.connState = .connected)
    (enough : words ≤ argcp) : (vehicleCommand words params more body s argcp).result argvp =
      ((body argcp).result argvp).map fun actions =>
        (s, actions.map (Action.output s.attrib s.vehicle.writeChar.valueHandle)) := by
  simp only [vehicleCommand, connected, ne_eq, not_true_eq_false, if_false,
    if_neg (Nat.not_lt_of_le enough), result_bind, result_pure]
  cases (body argcp).result argvp with
  | none => rfl
  | some actions => rfl

variable {w : CString} (connected : s.connState = .connected)

include connected

theorem sdkMode_written (enough : 2 ≤ argcp) (typed : argvp 1 = some w) :
    written (((cmdAnkiVehicleSdkMode out s argcp).result argvp).elim [] Prod.snd) =
      [(Command.setSdkMode (atoi w).toInt8.toUInt8).sent out.stack] := by
  simp only [cmdAnkiVehicleSdkMode, vehicleCommand_result connected enough, result_bind,
    result_word, typed, Option.bind_some, result_pure, Option.map_some]
  rfl

theorem setSpeed_written (enough : 2 ≤ argcp) (typed : argvp 1 = some w)
    (more : 2 < argcp → ∃ v, argvp 2 = some v) : ∃ accel : Int16,
    written (((cmdAnkiVehicleSetSpeed out s argcp).result argvp).elim [] Prod.snd) =
        [(Command.setSpeed (atoi w).toInt16.toUInt16 accel.toUInt16).sent out.stack] ∧
      ∀ v, 2 < argcp → argvp 2 = some v → accel = (atoi v).toInt16 := by
  simp only [cmdAnkiVehicleSetSpeed, vehicleCommand_result connected enough, result_bind,
    result_word, typed, Option.bind_some, result_ite, result_pure]
  split
  · rename_i given
    obtain ⟨v, second⟩ := more given
    refine ⟨(atoi v).toInt16, ?_, fun u _ same => ?_⟩
    · simp only [result_map, result_word, second]
      rfl
    · cases second.symm.trans same
      rfl
  · rename_i few
    exact ⟨25000, rfl, fun _ given => absurd given few⟩

theorem changeLane_written (enough : 2 ≤ argcp) (typed : argvp 1 = some w)
    (more : 2 < argcp → ∃ v, argvp 2 = some v) : ∃ offset,
    written (((cmdAnkiVehicleChangeLane out s argcp).result argvp).elim [] Prod.snd) =
      [(Command.setOffsetFromRoadCenter 0).sent out.stack] ++
        [(Command.changeLane (atoi w).toInt16.toUInt16 offset).sent out.stack] := by
  simp only [cmdAnkiVehicleChangeLane, vehicleCommand_result connected enough, result_bind,
    result_word, typed, Option.bind_some, result_ite, result_pure]
  split
  · rename_i given
    obtain ⟨v, second⟩ := more given
    refine ⟨out.strtof v, ?_⟩
    simp only [result_map, result_word, second]
    rfl
  · exact ⟨0x3f800000, rfl⟩

theorem lightsPattern_written {c e v₃ v₄ v₅ : CString} (enough : 6 ≤ argcp)
    (first : argvp 1 = some c) (second : argvp 2 = some e) (third : argvp 3 = some v₃)
    (fourth : argvp 4 = some v₄) (fifth : argvp 5 = some v₅)
    (channels : getChannelByName (some c) ≠ none) (effects : getEffectByName (some e) ≠ none) :
    ∃ channel effect,
      written (((cmdAnkiVehicleLightsPattern out s argcp).result argvp).elim [] Prod.snd) =
        [(Command.lightsPattern channel effect (atoi v₃).toInt8.toUInt8 (atoi v₄).toInt8.toUInt8
          (atoi v₅).toInt16.toUInt16).sent out.stack] := by
  obtain ⟨channel, named⟩ := Option.ne_none_iff_exists'.mp channels
  obtain ⟨effect, called⟩ := Option.ne_none_iff_exists'.mp effects
  have goes : channel ≠ channelInvalid := fun same => channel_not_refused c (same ▸ named)
  have on : effect ≠ effectInvalid := fun same => effect_not_refused e (same ▸ called)
  refine ⟨channel, effect, ?_⟩
  simp only [cmdAnkiVehicleLightsPattern, vehicleCommand_result connected enough, result_bind,
    result_word, result_computed, result_ite, result_pure, first, second, third, fourth, fifth,
    named, called, Option.bind_some, if_neg goes, if_neg on]
  rfl

theorem lightsPattern_unwritten {c e : CString} (enough : 6 ≤ argcp) (first : argvp 1 = some c)
    (second : argvp 2 = some e)
    (unknown : getChannelByName (some c) = none ∨ getEffectByName (some e) = none) :
    written (((cmdAnkiVehicleLightsPattern out s argcp).result argvp).elim [] Prod.snd) = [] := by
  simp only [cmdAnkiVehicleLightsPattern, vehicleCommand_result connected enough, result_bind,
    result_word, result_computed, result_ite, result_pure, first, second, Option.bind_some]
  cases named : getChannelByName (some c) with
  | none => rfl
  | some channel =>
    have goes : channel ≠ channelInvalid := fun same => channel_not_refused c (same ▸ named)
    have called : getEffectByName (some e) = none :=
      unknown.resolve_left (by simp only [named, reduceCtorEq, not_false_eq_true])
    simp only [Option.bind_some, if_neg goes, called, Option.bind_none, Option.map_none]
    rfl

theorem lightsPattern_short (few : argcp < 6) :
    written (((cmdAnkiVehicleLightsPattern out s argcp).result argvp).elim [] Prod.snd) = [] := by
  simp only [cmdAnkiVehicleLightsPattern, vehicleCommand, connected, ne_eq, not_true_eq_false,
    if_false, few, if_true, usage, result_bind, result_word, result_pure]
  cases argvp 0 <;> rfl

end Handlers

section Typed

variable {out : Outside} {s : Tool} {name : CString} {words : List CString}

theorem word_given {k : Nat} (inside : k < words.length) : ∃ w, words[k]? = some w :=
  ⟨_, List.getElem?_eq_getElem inside⟩

/-- What a command line comes to. -/
def outcome (out : Outside) (s : Tool) (func : CmdFunc) (argv : List CString) :
    Option (Tool × List Output) :=
  (func.handler out s argv.length).result fun k => argv[k]?

variable (connected : s.connState = .connected)

include connected

theorem lights_accepted (accepted : LightsAccepted words) : ∃ channel effect v₃ v₄ v₅,
    words[2]? = some v₃ ∧ words[3]? = some v₄ ∧ words[4]? = some v₅ ∧
    written ((outcome out s .cmdAnkiVehicleLightsPattern (name :: words)).elim [] Prod.snd) =
      [(Command.lightsPattern channel effect (atoi v₃).toInt8.toUInt8 (atoi v₄).toInt8.toUInt8
        (atoi v₅).toInt16.toUInt16).sent out.stack] := by
  obtain ⟨enough, channels, effects⟩ := accepted
  obtain ⟨c, first⟩ := @word_given words 0 (by omega)
  obtain ⟨e, second⟩ := @word_given words 1 (by omega)
  obtain ⟨v₃, third⟩ := @word_given words 2 (by omega)
  obtain ⟨v₄, fourth⟩ := @word_given words 3 (by omega)
  obtain ⟨v₅, fifth⟩ := @word_given words 4 (by omega)
  obtain ⟨channel, effect, sent⟩ := @lightsPattern_written out s (words.length + 1)
    (fun k => (name :: words)[k]?) connected c e v₃ v₄ v₅ (Nat.succ_le_succ enough) first second
    third fourth fifth (first ▸ channels) (second ▸ effects)
  exact ⟨channel, effect, v₃, v₄, v₅, third, fourth, fifth, sent⟩

theorem lights_refused (refused : ¬ LightsAccepted words) :
    written ((outcome out s .cmdAnkiVehicleLightsPattern (name :: words)).elim [] Prod.snd) = [] := by
  by_cases enough : 5 ≤ words.length
  · obtain ⟨c, first⟩ := @word_given words 0 (by omega)
    obtain ⟨e, second⟩ := @word_given words 1 (by omega)
    have unknown : getChannelByName (some c) = none ∨ getEffectByName (some e) = none := by
      by_contra known
      obtain ⟨channels, effects⟩ := not_or.mp known
      exact refused ⟨enough, first ▸ channels, second ▸ effects⟩
    exact lightsPattern_unwritten connected (Nat.succ_le_succ enough) first second unknown
  · exact lightsPattern_short connected (Nat.succ_lt_succ (Nat.lt_of_not_le enough))

theorem lights_arrive_iff {arg : NumberArg} {w : CString}
    (lights : arg.func = .cmdAnkiVehicleLightsPattern)
    (message : ∀ channel effect v₃ v₄ v₅, words[2]? = some v₃ → words[3]? = some v₄ →
      words[4]? = some v₅ → let msg := ofBytes ((Command.lightsPattern channel effect
        (atoi v₃).toInt8.toUInt8 (atoi v₄).toInt8.toUInt8 (atoi v₅).toInt16.toUInt16).sent out.stack)
      msg AnkiVehicleMsg.msgId.offset = arg.msgId ∧
        (arg.field msg = (atoi w).toInt ↔ arg.Holds (atoi w).toInt)) :
    arg.Arrives (outcome out s arg.func (name :: words)) (atoi w).toInt ↔
      arg.Holds (atoi w).toInt ∨ ¬ LightsAccepted words := by
  rw [lights]
  by_cases accepted : LightsAccepted words
  · obtain ⟨channel, effect, v₃, v₄, v₅, third, fourth, fifth, sent⟩ :=
      @lights_accepted out s name words connected accepted
    obtain ⟨same, field⟩ := message channel effect v₃ v₄ v₅ third fourth fifth
    rw [arrives_only sent same, field, or_iff_left (not_not.mpr accepted)]
  · exact iff_of_true (arrives_unwritten (lights_refused connected accepted)) (Or.inr accepted)

end Typed

/-- A number that is typed in a command given while connected arrives exactly when the field
it is for can hold it, or no message is written because of a light name or of how many words
there are. -/
theorem numbers_arrive_iff (out : Outside) {s : Tool} (connected : s.connState = .connected)
    (arg : NumberArg) (name : CString) {words : List CString} {w : CString}
    (typed : (name :: words)[arg.index]? = some w) :
    arg.Arrives (outcome out s arg.func (name :: words)) (atoi w).toInt ↔
      arg.Holds (atoi w).toInt ∨ ¬ arg.Accepted words := by
  have inside : arg.index < words.length + 1 := (List.getElem?_eq_some_iff.mp typed).1
  have more : 2 < words.length + 1 → ∃ v, (name :: words)[2]? = some v :=
    @word_given (name :: words) 2
  cases arg with
  | sdkMode =>
    have sent := @sdkMode_written out s _ (fun k => (name :: words)[k]?) w connected inside typed
    obtain ⟨same, field⟩ := setSdkMode_read out.stack (atoi w).toInt8.toUInt8
    exact @arrives_iff_holds .sdkMode _ _ [] _ sent (List.forall_mem_nil _) same
      (field ▸ byte_holds_iff (atoi w))
  | speed =>
    obtain ⟨accel, sent, _⟩ :=
      @setSpeed_written out s _ (fun k => (name :: words)[k]?) w connected inside typed more
    obtain ⟨same, field, _⟩ := setSpeed_read out.stack (atoi w).toInt16.toUInt16 accel.toUInt16
    exact @arrives_iff_holds .speed _ _ [] _ sent (List.forall_mem_nil _) same
      (field ▸ signed_holds_iff (atoi w))
  | accel =>
    obtain ⟨v, first⟩ := @word_given (name :: words) 1 (Nat.lt_of_succ_lt inside)
    obtain ⟨accel, sent, cut⟩ := @setSpeed_written out s _ (fun k => (name :: words)[k]?) v
      connected (Nat.le_of_lt inside) first more
    obtain rfl := cut w inside typed
    obtain ⟨same, _, field⟩ :=
      setSpeed_read out.stack (atoi v).toInt16.toUInt16 (atoi w).toInt16.toUInt16
    exact @arrives_iff_holds .accel _ _ [] _ sent (List.forall_mem_nil _) same
      (field ▸ signed_holds_iff (atoi w))
  | horizontalSpeed =>
    obtain ⟨offset, sent⟩ :=
      @changeLane_written out s _ (fun k => (name :: words)[k]?) w connected inside typed more
    obtain ⟨same, field⟩ := changeLane_read out.stack (atoi w).toInt16.toUInt16 offset
    have apart : ∀ other ∈ [(Command.setOffsetFromRoadCenter 0).sent out.stack],
        ofBytes other AnkiVehicleMsg.msgId.offset ≠ NumberArg.horizontalSpeed.msgId := by
      rw [Command.sent_eq]
      decide
    exact arrives_iff_holds sent apart same (field ▸ word_holds_iff (atoi w))
  | start =>
    refine lights_arrive_iff connected rfl fun channel effect v₃ v₄ v₅ third _ _ => ?_
    cases typed.symm.trans third
    obtain ⟨same, field, _⟩ := lightsPattern_read out.stack channel effect (atoi w).toInt8.toUInt8
      (atoi v₄).toInt8.toUInt8 (atoi v₅).toInt16.toUInt16
    exact ⟨same, field ▸ byte_holds_iff (atoi w)⟩
  | «end» =>
    refine lights_arrive_iff connected rfl fun channel effect v₃ v₄ v₅ _ fourth _ => ?_
    cases typed.symm.trans fourth
    obtain ⟨same, _, field, _⟩ := lightsPattern_read out.stack channel effect
      (atoi v₃).toInt8.toUInt8 (atoi w).toInt8.toUInt8 (atoi v₅).toInt16.toUInt16
    exact ⟨same, field ▸ byte_holds_iff (atoi w)⟩
  | cyclesPerMin =>
    refine lights_arrive_iff connected rfl fun channel effect v₃ v₄ v₅ _ _ fifth => ?_
    cases typed.symm.trans fifth
    obtain ⟨same, _, _, field⟩ := lightsPattern_read out.stack channel effect
      (atoi v₃).toInt8.toUInt8 (atoi v₄).toInt8.toUInt8 (atoi w).toInt16.toUInt16
    exact ⟨same, field ▸ word_holds_iff (atoi w)⟩

/-- What the tool is when it is connected. -/
def Tool.onLine : Tool := { Tool.interactive none none 0 with connState := .connected }

theorem metre_a_second_arrives :
    let out : Outside := ⟨fun _ => 0, fun _ => 0, fun _ => 0, fun _ => [], .ok 1⟩
    NumberArg.speed.Arrives (outcome out Tool.onLine .cmdAnkiVehicleSetSpeed
      [CString.literal "set-speed", CString.literal "1000"]) 1000 := by
  intro out
  have number : (atoi (CString.literal "1000")).toInt = 1000 := by decide +kernel
  have arrives := @numbers_arrive_iff out Tool.onLine rfl .speed (CString.literal "set-speed")
    [CString.literal "1000"] (CString.literal "1000") rfl
  rw [number] at arrives
  exact arrives.mpr (Or.inl (by simp [NumberArg.Holds]))

/-- Forty metres a second forward are sent as a speed backward. -/
theorem forty_metres_backward :
    let out : Outside := ⟨fun _ => 0, fun _ => 0, fun _ => 0, fun _ => [], .ok 1⟩
    let came := outcome out Tool.onLine .cmdAnkiVehicleSetSpeed
      [CString.literal "set-speed", CString.literal "40000"]
    (atoi (CString.literal "40000")).toInt = 40000 ∧
      (written (came.elim [] Prod.snd)).map (fun value => NumberArg.speed.field (ofBytes value)) =
        [-25536] ∧
      ¬ NumberArg.speed.Arrives came 40000 := by
  intro out came
  have sent : ∃ value ∈ written (came.elim [] Prod.snd),
      ofBytes value AnkiVehicleMsg.msgId.offset = NumberArg.speed.msgId ∧
        NumberArg.speed.field (ofBytes value) = -25536 := by
    decide +kernel
  refine ⟨by decide +kernel, by decide +kernel, fun arrives => ?_⟩
  obtain ⟨value, member, same, backward⟩ := sent
  cases backward.symm.trans (arrives value member same)

end AnkiDrive
