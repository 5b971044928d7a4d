import AnkiDrive.Callbacks

/-! A channel and the server behind it, with the bytes that are on their way between them. The
server answers the requests one after the other, in the order in which they come, and may send
notifications, indications and requests of its own at any time. -/
namespace AnkiDrive
open CModel

variable {κ : Type}

inductive XOut (κ : Type) where
  | client (o : GOut κ)
  | served (request answer : List UInt8)

structure Exchange (κ : Type) where
  client : GAttrib κ
  toServer : List (List UInt8)
  toClient : List (List UInt8)

/-- `here` is whatever happens to the channel but the bytes that it receives. -/
inductive XStep (κ : Type) where
  | here (s : GStep κ)
  | serve (answer : List UInt8 → List UInt8)
  | push (pdu : List UInt8)
  | deliver (onEvent : κ → List (GCall κ)) (onResult : List (GCall κ))

def asksAnswer (pdu : List UInt8) : Bool := opcode2expected (opcodeOf pdu) ≠ 0

def GOut.written : GOut κ → Option (List UInt8)
  | .write pdu => some pdu
  | _ => none

def GOut.delivered : GOut κ → Option (κ × UInt8 × List UInt8)
  | .result k status (some pdu) => some (k, status, pdu)
  | _ => none

def writesIn (out : List (GOut κ)) : List (List UInt8) := out.filterMap GOut.written
def deliveredIn (out : List (GOut κ)) : List (κ × UInt8 × List UInt8) :=
  out.filterMap GOut.delivered

def Exchange.step (x : Exchange κ) : XStep κ → Exchange κ × List (XOut κ)
  | .here s =>
    let (a, out) := x.client.step s
    ({ x with client := a, toServer := x.toServer ++ writesIn out }, out.map .client)
  | .serve answer =>
    match x.toServer with
    | [] => (x, [])
    | pdu :: rest =>
      if asksAnswer pdu then
        ({ x with toServer := rest, toClient := x.toClient ++ [answer pdu] },
          [.served pdu (answer pdu)])
      else ({ x with toServer := rest }, [])
  | .push pdu => ({ x with toClient := x.toClient ++ [pdu] }, [])
  | .deliver onEvent onResult =>
    match x.toClient with
    | [] => (x, [])
    | pdu :: rest =>
      let (a, out) := x.client.step (.received pdu onEvent onResult)
      -- a stale channel does not read
      let left := if x.client.readWatch ∧ x.client.stale = false then rest else pdu :: rest
      ({ x with client := a, toClient := left, toServer := x.toServer ++ writesIn out },
        out.map .client)

def Exchange.new (mtu : Nat) : Exchange κ where
  client := .new mtu
  toServer := []
  toClient := []

/-- The answer is a response to the request, or an error. -/
def Answers (request answer : List UInt8) : Prop :=
  opcodeOf answer = opcode2expected (opcodeOf request) ∨ opcodeOf answer = attOpError

def XStep.Proper : XStep κ → Prop
  | .here (.received _ _ _) => False
  | .here s => s.Proper
  | .serve answer => ∀ request, asksAnswer request = true → Answers request (answer request)
  | .push pdu => isResponse (opcodeOf pdu) = false
  | .deliver onEvent _ => ∀ k, ∀ c ∈ onEvent k, c.Plain

/-- Some call of the step cancels a command of this number. -/
def XStep.Cancels (id : UInt32) : XStep κ → Prop
  | .here s => s.Cancels id
  | .deliver onEvent onResult =>
    (∃ k, ∃ c ∈ onEvent k, c.Cancels id) ∨ ∃ c ∈ onResult, c.Cancels id
  | _ => False

def XOut.ofClient : XOut κ → Option (GOut κ)
  | .client o => some o
  | .served _ _ => none

def XOut.ofServer : XOut κ → Option (List UInt8 × List UInt8)
  | .client _ => none
  | .served request answer => some (request, answer)

def clientIn (out : List (XOut κ)) : List (GOut κ) := out.filterMap XOut.ofClient
def servedIn (out : List (XOut κ)) : List (List UInt8 × List UInt8) := out.filterMap XOut.ofServer

/-- The status that the server gives: its error, or none. -/
def statusGiven (answer : List UInt8) : UInt8 :=
  if opcodeOf answer = attOpError then answer.getD 4 0 else 0

/-- How the function of a command is called with an answer. -/
def answered (d : GCommand κ × List UInt8) : List (κ × UInt8 × List UInt8) :=
  (d.1.func.map fun k => (k, statusGiven d.2, d.2.take 512)).toList

section Lists

variable (x y : List (GOut κ)) (u v : List (XOut κ)) (c : GCommand κ)

@[simp] theorem writesIn_append : writesIn (x ++ y) = writesIn x ++ writesIn y :=
  List.filterMap_append

@[simp] theorem deliveredIn_append : deliveredIn (x ++ y) = deliveredIn x ++ deliveredIn y :=
  List.filterMap_append

@[simp] theorem clientIn_append : clientIn (u ++ v) = clientIn u ++ clientIn v :=
  List.filterMap_append

@[simp] theorem servedIn_append : servedIn (u ++ v) = servedIn u ++ servedIn v :=
  List.filterMap_append

@[simp] theorem writesIn_nil : writesIn ([] : List (GOut κ)) = [] := rfl
@[simp] theorem deliveredIn_nil : deliveredIn ([] : List (GOut κ)) = [] := rfl
@[simp] theorem clientIn_nil : clientIn ([] : List (XOut κ)) = [] := rfl
@[simp] theorem servedIn_nil : servedIn ([] : List (XOut κ)) = [] := rfl

@[simp] theorem clientIn_map : clientIn (x.map XOut.client) = x := by
  induction x with
  | nil => rfl
  | cons o x ih => exact congrArg (o :: ·) ih

@[simp] theorem servedIn_map : servedIn (x.map XOut.client) = [] := by
  induction x with
  | nil => rfl
  | cons o x ih => exact ih

@[simp] theorem writesIn_write (pdu : List UInt8) : writesIn (.write pdu :: x) = pdu :: writesIn x :=
  rfl

@[simp] theorem deliveredIn_write (pdu : List UInt8) :
    deliveredIn (.write pdu :: x) = deliveredIn x := rfl

@[simp] theorem writesIn_destroy : writesIn (commandDestroy c) = [] := by
  cases notify : c.notify <;> simp [commandDestroy, notify, writesIn, GOut.written]

@[simp] theorem deliveredIn_destroy : deliveredIn (commandDestroy c) = [] := by
  cases notify : c.notify <;> simp [commandDestroy, notify, deliveredIn, GOut.delivered]

@[simp] theorem writesIn_result (s : UInt8) (pdu : Option (List UInt8)) :
    writesIn (resultOf c s pdu) = [] := by
  cases func : c.func <;> simp [resultOf, func, writesIn, GOut.written]

@[simp] theorem deliveredIn_result (s : UInt8) (pdu : List UInt8) :
    deliveredIn (resultOf c s (some pdu)) = (c.func.map fun k => (k, s, pdu)).toList := by
  cases func : c.func <;> simp [resultOf, func, deliveredIn, GOut.delivered]

@[simp] theorem deliveredIn_lost (s : UInt8) : deliveredIn (resultOf c s none) = [] := by
  cases func : c.func <;> simp [resultOf, func, deliveredIn, GOut.delivered]

end Lists

def Quiet (out : List (GOut κ)) : Prop := writesIn out = [] ∧ deliveredIn out = []

variable {a a' : GAttrib κ} {out first rest : List (GOut κ)} {c : GCommand κ}

theorem Quiet.append (before : Quiet first) (after : Quiet rest) : Quiet (first ++ rest) := by
  simp [Quiet, before.1, before.2, after.1, after.2]

theorem quiet_nil : Quiet ([] : List (GOut κ)) := ⟨rfl, rfl⟩

theorem quiet_destroy (c : GCommand κ) : Quiet (commandDestroy c) :=
  ⟨writesIn_destroy c, deliveredIn_destroy c⟩

theorem quiet_lost (c : GCommand κ) (status : UInt8) : Quiet (resultOf c status none) :=
  ⟨writesIn_result c status none, deliveredIn_lost c status⟩

theorem quiet_found (queue : List (GCommand κ)) (id : UInt32) :
    Quiet (((queue.find? fun c => c.id = id).map commandDestroy).getD []) := by
  cases queue.find? fun c => c.id = id with
  | none => exact quiet_nil
  | some c => exact quiet_destroy c

theorem cancelIn_quiet (id : UInt32) (queue : List (GCommand κ)) :
    Quiet (GAttrib.cancelIn id queue).2 := by
  cases queue with
  | nil => exact quiet_nil
  | cons c queue =>
    simp only [GAttrib.cancelIn]
    split
    · split
      · exact quiet_nil
      · exact quiet_destroy c
    · exact quiet_found queue id

theorem cancelAll_quiet (queue : List (GCommand κ)) (first : Bool) (head : Option (GCommand κ)) :
    Quiet (GAttrib.cancelAllPerQueue.loop queue first head).2 := by
  induction queue generalizing first head with
  | nil => exact quiet_nil
  | cons c queue ih =>
    simp only [GAttrib.cancelAllPerQueue.loop]
    split
    · exact ih first _
    · exact (quiet_destroy c).append (ih false head)

theorem call_quiet (a : GAttrib κ) (call : GCall κ) : Quiet (a.call call).2 := by
  cases call with
  | send id pdu func notify =>
    simp only [GAttrib.call, GAttrib.send]
    split
    · exact quiet_nil
    · split <;> exact ⟨rfl, rfl⟩
  | cancel id =>
    simp only [GAttrib.call, GAttrib.cancel]
    split <;> exact cancelIn_quiet id _
  | cancelAll => exact (cancelAll_quiet _ _ _).append (cancelAll_quiet _ _ _)

theorem calls_quiet (a : GAttrib κ) (cs : List (GCall κ)) : Quiet (a.calls cs).2 :=
  runMachine_induct (P := fun _ out => Quiet out) quiet_nil
    (fun a _ call quiet _ => quiet.append (call_quiet a call))
    (fun _ _ => trivial : ∀ c ∈ cs, (fun _ => True) c)

theorem dispatch_quiet (onEvent : κ → List (GCall κ)) (pdu : List UInt8)
    (events : List (GEvent κ)) (a : GAttrib κ) :
    Quiet (GAttrib.dispatch onEvent pdu events a).2 := by
  induction events generalizing a with
  | nil => exact quiet_nil
  | cons e events ih =>
    unfold GAttrib.dispatch
    split
    · have event : Quiet [GOut.event e.func pdu] := ⟨rfl, rfl⟩
      exact (event.append (calls_quiet a _)).append (ih _)
    · exact ih a

theorem abortAll_quiet (onResult : List (List (GCall κ))) (a : GAttrib κ) :
    Quiet (GAttrib.abortAll onResult a).2 := by
  induction onResult generalizing a with
  | nil =>
    simp only [GAttrib.abortAll]
    induction a.requests with
    | nil => exact quiet_nil
    | cons c queue ih =>
      rw [List.flatMap_cons]
      exact ((quiet_lost c _).append (quiet_destroy c)).append ih
  | cons cs onResult ih =>
    unfold GAttrib.abortAll
    split
    · exact quiet_nil
    · rename_i c queue _
      dsimp only
      refine (((quiet_lost c _).append ?_).append (quiet_destroy c)).append (ih _)
      split
      · exact calls_quiet _ cs
      · exact quiet_nil

theorem disconnectTimeout_quiet (onResult : List (List (GCall κ))) (a : GAttrib κ) :
    Quiet (a.disconnectTimeout onResult).2 := by
  unfold GAttrib.disconnectTimeout
  split
  · exact quiet_nil
  · rename_i c queue _
    dsimp only
    refine (((quiet_lost c _).append ?_).append (quiet_destroy c)).append (abortAll_quiet _ _)
    split
    · exact calls_quiet _ _
    · exact quiet_nil

end AnkiDrive
