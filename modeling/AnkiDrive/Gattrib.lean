import AnkiDrive.Att
import AnkiDrive.Lib.Machine

/-! `gattrib.c`: the queues of an attribute channel, and what the main loop calls on them. What
a callback is (a function and its user data) is left open. -/
namespace AnkiDrive
open CModel

def opcode2expected (opcode : UInt8) : UInt8 :=
  if opcode = attOpMtuReq then attOpMtuResp
  else if opcode = attOpFindInfoReq then attOpFindInfoResp
  else if opcode = attOpFindByTypeReq then attOpFindByTypeResp
  else if opcode = attOpReadByTypeReq then attOpReadByTypeResp
  else if opcode = attOpReadReq then attOpReadResp
  else if opcode = attOpReadBlobReq then attOpReadBlobResp
  else if opcode = attOpReadMultiReq then attOpReadMultiResp
  else if opcode = attOpReadByGroupReq then attOpReadByGroupResp
  else if opcode = attOpWriteReq then attOpWriteResp
  else if opcode = attOpPrepWriteReq then attOpPrepWriteResp
  else if opcode = attOpExecWriteReq then attOpExecWriteResp
  else if opcode = attOpHandleInd then attOpHandleCnf
  else 0

def isResponse (opcode : UInt8) : Bool :=
  opcode ∈ [attOpError, attOpMtuResp, attOpFindInfoResp, attOpFindByTypeResp,
    attOpReadByTypeResp, attOpReadResp, attOpReadBlobResp, attOpReadMultiResp,
    attOpReadByGroupResp, attOpWriteResp, attOpPrepWriteResp, attOpExecWriteResp,
    attOpHandleCnf]

/-- `struct command`; `func` and `notify` go with their user data. -/
structure GCommand (κ : Type) where
  id : UInt32
  opcode : UInt8
  pdu : List UInt8
  expected : UInt8
  sent : Bool
  func : Option κ
  notify : Option κ
  deriving DecidableEq

structure GEvent (κ : Type) where
  id : UInt32
  expected : UInt8
  handle : UInt16
  func : κ
  notify : Option κ
  deriving DecidableEq

/-- `struct _GAttrib`. A watch is set while the main loop has its source; the time of the timeout
has not come while it is set. -/
structure GAttrib (κ : Type) where
  buflen : Nat
  readWatch : Bool
  writeWatch : Bool
  timeoutWatch : Bool
  requests : List (GCommand κ)
  responses : List (GCommand κ)
  events : List (GEvent κ)
  nextCmdId : UInt32
  stale : Bool
  deriving DecidableEq

/-- The status that the function of a command is called with, by the bytes that came in. -/
def statusOf (expected : UInt8) (buf : List UInt8) : UInt8 :=
  if opcodeOf buf = attOpError then buf.getD 4 0
  else if expected ≠ opcodeOf buf then attEcodeIo
  else 0

/-- What is called or written. -/
inductive GOut (κ : Type) where
  | accepted (c : GCommand κ)
  | write (pdu : List UInt8)
  | result (func : κ) (status : UInt8) (pdu : Option (List UInt8))
  | event (func : κ) (pdu : List UInt8)
  | notify (notify : κ)
  | eventNotify (notify : κ)
  deriving DecidableEq

variable {κ : Type}

def commandDestroy (c : GCommand κ) : List (GOut κ) := (c.notify.map GOut.notify).toList

def eventDestroy (e : GEvent κ) : List (GOut κ) := (e.notify.map GOut.eventNotify).toList

def resultOf (c : GCommand κ) (status : UInt8) (pdu : Option (List UInt8)) : List (GOut κ) :=
  (c.func.map fun func => .result func status pdu).toList

namespace GAttrib

def wakeUpSender (a : GAttrib κ) : GAttrib κ := { a with writeWatch := true }

/-- `g_attrib_send`; the memory for the command is there. -/
def send (a : GAttrib κ) (id : UInt32) (pdu : List UInt8) (func notify : Option κ) :
    GAttrib κ × List (GOut κ) :=
  if a.stale then (a, [])
  else
    let opcode := opcodeOf pdu
    let next := a.nextCmdId + 1
    let c : GCommand κ := {
      id := if id = 0 then next else id
      opcode := opcode
      pdu := pdu
      expected := opcode2expected opcode
      sent := false
      func := func
      notify := notify }
    let a := if id = 0 then { a with nextCmdId := next } else a
    if isResponse opcode then
      let a := { a with responses := a.responses ++ [c] }
      (if a.responses.length = 1 then a.wakeUpSender else a, [.accepted c])
    else
      let a := { a with requests := if id = 0 then a.requests ++ [c] else c :: a.requests }
      (if a.requests.length = 1 then a.wakeUpSender else a, [.accepted c])

/-- What is done to the command that is found: a sent one at the head only loses its callback. -/
def cancelIn (id : UInt32) : List (GCommand κ) → List (GCommand κ) × List (GOut κ)
  | [] => ([], [])
  | c :: queue =>
    if c.id = id then
      if c.sent then ({ c with func := none } :: queue, [])
      else (queue, commandDestroy c)
    else
      let rest := queue.eraseP fun c => c.id = id
      (c :: rest, ((queue.find? fun c => c.id = id).map commandDestroy).getD [])

def cancel (a : GAttrib κ) (id : UInt32) : GAttrib κ × List (GOut κ) :=
  if (a.requests.find? fun c => c.id = id).isSome then
    let (requests, out) := cancelIn id a.requests
    ({ a with requests := requests }, out)
  else
    let (responses, out) := cancelIn id a.responses
    ({ a with responses := responses }, out)

/-- The `while` loop: `first` is still set, `head` is the command to be put back. -/
def cancelAllPerQueue.loop : List (GCommand κ) → Bool → Option (GCommand κ) →
    Option (GCommand κ) × List (GOut κ)
  | [], _, head => (head, [])
  | c :: queue, first, head =>
    if first ∧ c.sent then cancelAllPerQueue.loop queue first (some { c with func := none })
    else
      let (head, out) := cancelAllPerQueue.loop queue false head
      (head, commandDestroy c ++ out)

def cancelAllPerQueue (queue : List (GCommand κ)) : List (GCommand κ) × List (GOut κ) :=
  let (head, out) := cancelAllPerQueue.loop queue true none
  (head.toList, out)

def cancelAll (a : GAttrib κ) : GAttrib κ × List (GOut κ) :=
  let (requests, first) := cancelAllPerQueue a.requests
  let (responses, second) := cancelAllPerQueue a.responses
  ({ a with requests := requests, responses := responses }, first ++ second)

end GAttrib

/-- A call that a callback may make. -/
inductive GCall (κ : Type) where
  | send (id : UInt32) (pdu : List UInt8) (func notify : Option κ)
  | cancel (id : UInt32)
  | cancelAll

namespace GAttrib

def call (a : GAttrib κ) : GCall κ → GAttrib κ × List (GOut κ)
  | .send id pdu func notify => a.send id pdu func notify
  | .cancel id => a.cancel id
  | .cancelAll => a.cancelAll

def calls (a : GAttrib κ) (cs : List (GCall κ)) : GAttrib κ × List (GOut κ) :=
  runMachine call a cs

/-- The queue that is written from is the one of the responses until it is empty. `written` tells
whether the channel takes the bytes. -/
def canWriteData (a : GAttrib κ) (written : Bool) : GAttrib κ × List (GOut κ) :=
  let stop := { a with writeWatch := false }
  if a.stale then (stop, [])
  else
    match a.responses, a.requests with
    | c :: queue, _ =>
      if c.sent ∨ ¬ written then (stop, [])
      else if c.expected = 0 then ({ a with responses := queue }, .write c.pdu :: commandDestroy c)
      else
        ({ stop with responses := { c with sent := true } :: queue, timeoutWatch := true },
          [.write c.pdu])
    | [], c :: queue =>
      if c.sent ∨ ¬ written then (stop, [])
      else if c.expected = 0 then ({ a with requests := queue }, .write c.pdu :: commandDestroy c)
      else
        ({ stop with requests := { c with sent := true } :: queue, timeoutWatch := true },
          [.write c.pdu])
    | [], [] => (stop, [])

def gattribAllEvents : UInt8 := 0xff
def gattribAllReqs : UInt8 := 0xfe
def gattribAllHandles : UInt16 := 0x0000

def matchEvent (e : GEvent κ) (pdu : List UInt8) : Bool :=
  if e.expected = gattribAllEvents then true
  else if isResponse (opcodeOf pdu) = false ∧ e.expected = gattribAllReqs then true
  else if e.expected = opcodeOf pdu ∧ e.handle = gattribAllHandles then true
  else if pdu.length < 3 then false
  else e.expected = opcodeOf pdu ∧ e.handle = attGetU16 pdu 1

/-- The loop over the events; `onEvent` is what their functions call in their turn. -/
def dispatch (onEvent : κ → List (GCall κ)) (pdu : List UInt8) :
    List (GEvent κ) → GAttrib κ → GAttrib κ × List (GOut κ)
  | [], a => (a, [])
  | e :: events, a =>
    if matchEvent e pdu then
      let (a, called) := a.calls (onEvent e.func)
      let (a, rest) := dispatch onEvent pdu events a
      (a, .event e.func pdu :: called ++ rest)
    else dispatch onEvent pdu events a

def wakeIfQueued (a : GAttrib κ) : GAttrib κ :=
  if a.requests ≠ [] ∨ a.responses ≠ [] then a.wakeUpSender else a

/-- `received_data` with the 512 bytes of `buf` at most; `onResult` is what the function of the
command calls. -/
def receivedData (a : GAttrib κ) (pdu : List UInt8) (onEvent : κ → List (GCall κ))
    (onResult : List (GCall κ)) : GAttrib κ × List (GOut κ) :=
  if a.stale then ({ a with readWatch := false }, [])
  else
    let buf := pdu.take 512
    let (a, dispatched) := dispatch onEvent buf a.events a
    if isResponse (opcodeOf buf) = false then (a, dispatched)
    else
      let a := { a with timeoutWatch := false }
      match a.requests with
      | [] => ({ a with readWatch := decide (a.events ≠ []) }, dispatched)
      | cmd :: requests =>
        let a := wakeIfQueued { a with requests := requests }
        let (a, called) := if cmd.func.isSome then a.calls onResult else (a, [])
        (a, dispatched ++ resultOf cmd (statusOf cmd.expected buf) (some buf) ++ called ++
          commandDestroy cmd)

def receiveFailed (a : GAttrib κ) : GAttrib κ :=
  if a.stale then { a with readWatch := false } else wakeIfQueued a

def receiveHup (a : GAttrib κ) : GAttrib κ := { a with readWatch := false }

/-- The `while` loop of `disconnect_timeout`; `onResult` is what the functions call, one after the
other. -/
def abortAll : List (List (GCall κ)) → GAttrib κ → GAttrib κ × List (GOut κ)
  | [], a => ({ a with requests := [] }, a.requests.flatMap fun c =>
      resultOf c attEcodeAborted none ++ commandDestroy c)
  | cs :: onResult, a =>
    match a.requests with
    | [] => (a, [])
    | c :: requests =>
      let (a, called) := if c.func.isSome then calls { a with requests := requests } cs
        else ({ a with requests := requests }, [])
      let (a, rest) := abortAll onResult a
      (a, resultOf c attEcodeAborted none ++ called ++ commandDestroy c ++ rest)

def disconnectTimeout (a : GAttrib κ) (onResult : List (List (GCall κ))) :
    GAttrib κ × List (GOut κ) :=
  match a.requests with
  | [] => ({ a with stale := true }, [])
  | c :: requests =>
    let (a, called) := if c.func.isSome then calls { a with requests := requests }
      (onResult.headD []) else ({ a with requests := requests }, [])
    let (a, rest) := abortAll onResult.tail a
    ({ a with stale := true }, resultOf c attEcodeTimeout none ++ called ++ commandDestroy c ++ rest)

def new (attMtu : Nat) : GAttrib κ where
  buflen := attMtu
  readWatch := true
  writeWatch := false
  timeoutWatch := false
  requests := []
  responses := []
  events := []
  nextCmdId := 0
  stale := false

def attDefaultLeMtu : Int := 23

def setMtu (a : GAttrib κ) (mtu : Int) : GAttrib κ :=
  if mtu < attDefaultLeMtu then a else { a with buflen := mtu.toNat }

/-- `g_attrib_register`, with the number that `next_evt_id` gives. -/
def register (a : GAttrib κ) (e : GEvent κ) : GAttrib κ := { a with events := a.events ++ [e] }

def unregister (a : GAttrib κ) (id : UInt32) : GAttrib κ × List (GOut κ) :=
  if id = 0 then (a, [])
  else ({ a with events := a.events.eraseP fun e => e.id = id },
    ((a.events.find? fun e => e.id = id).map eventDestroy).getD [])

def unregisterAll (a : GAttrib κ) : GAttrib κ × List (GOut κ) :=
  ({ a with events := [] }, a.events.flatMap eventDestroy)

def attribDestroy (a : GAttrib κ) : List (GOut κ) :=
  a.requests.flatMap commandDestroy ++ a.responses.flatMap commandDestroy ++
    a.events.flatMap eventDestroy

end GAttrib

/-- What happens to a channel: a call from outside a callback, or one of the main loop, which
calls a watch only while it is set. -/
inductive GStep (κ : Type) where
  | call (c : GCall κ)
  | setMtu (mtu : Int)
  | register (e : GEvent κ)
  | unregister (id : UInt32)
  | unregisterAll
  | writable (written : Bool)
  | received (pdu : List UInt8) (onEvent : κ → List (GCall κ)) (onResult : List (GCall κ))
  | receiveFailed
  | receiveHup
  | timeout (onResult : List (List (GCall κ)))

def GAttrib.step (a : GAttrib κ) : GStep κ → GAttrib κ × List (GOut κ)
  | .call c => a.call c
  | .setMtu mtu => (a.setMtu mtu, [])
  | .register e => (a.register e, [])
  | .unregister id => a.unregister id
  | .unregisterAll => a.unregisterAll
  | .writable written => if a.writeWatch then a.canWriteData written else (a, [])
  | .received pdu onEvent onResult =>
    if a.readWatch then a.receivedData pdu onEvent onResult else (a, [])
  | .receiveFailed => if a.readWatch then (a.receiveFailed, []) else (a, [])
  | .receiveHup => if a.readWatch then (a.receiveHup, []) else (a, [])
  | .timeout onResult =>
    if a.timeoutWatch ∧ a.stale = false then a.disconnectTimeout onResult else (a, [])

end AnkiDrive
