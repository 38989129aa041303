import AcosChat.Lib.Run
import AcosChat.TsMap.Model
import AcosChat.TsQueue.Model

/-!
# `event_loop`

`lib/event_loop/src/event_loop.c`: any number of loops, any number of threads that send
events and do iterations, and one static event that all loops share. A step is one access
to the shared memory: a call of `ts_queue` or `ts_map` on a loop, or the accesses to the
fields of an event between two such calls. A handler or deleter is a function pointer; that
it is called is seen, what it does is not modelled, but that an event is gone when its
deleter has returned. A step is `none` where it touches an event that is gone or a loop
that is destroyed.
-/
namespace AcosChat

open Store Run

variable {η δ : Type}

namespace EventLoop

/-- A function pointer to a deleter. -/
inductive Deleter (δ : Type) where
  /-- `default_deleter` -/
  | default
  /-- `exit_evt_deleter_stub` -/
  | stub
  | other (deleter : δ)
deriving DecidableEq, Repr

/-- `event_t` -/
structure Event (δ : Type) where
  type : Int32
  deleter : Option (Deleter δ)
deriving DecidableEq, Repr

/-- A pointer to an event: to `EXIT_EVT` or into the heap. -/
inductive EventPtr where
  | exitEvt
  | heap (address : Nat)
deriving DecidableEq, Repr

def exitEventType : Int32 := 0

/-- The conversion of an `int` to `uint64_t`. -/
def mapKey (type : Int32) : UInt64 := type.toInt64.toUInt64

end EventLoop

open EventLoop

/-- `event_loop_t` -/
structure EventLoop (η δ : Type) where
  handlers : TsMap η
  deleters : TsMap (Deleter δ)
  eventQueue : TsQueue EventPtr

def eventLoopInit : Option (EventLoop η δ) := do
  let (_, deleters) ← tsMapInsert tsMapInit (mapKey exitEventType) (some .stub)
  return ⟨tsMapInit, deleters, tsQueueInit⟩

namespace EventLoop

/-- A call in flight, before the step that it does next. -/
inductive Stage (η : Type) where
  /-- A send has looked for the deleter. -/
  | found (l : Nat) (evt : EventPtr) (urgent : Bool)
  /-- A send has set the deleter. -/
  | ready (l : Nat) (evt : EventPtr) (urgent : Bool)
  /-- An iteration has taken the event. -/
  | popped (l : Nat) (evt : EventPtr)
  /-- An iteration has looked for the handler. -/
  | handling (l : Nat) (evt : EventPtr) (handler : Option η)
  /-- An iteration has called the handler. -/
  | handled (l : Nat) (evt : EventPtr)
deriving DecidableEq, Repr

def Stage.evt : Stage η → EventPtr
  | .found _ evt _ | .ready _ evt _ | .popped _ evt | .handling _ evt _ | .handled _ evt => evt

/-- The loop that the next step of the call uses. -/
def Stage.uses : Stage η → Option Nat
  | .found l _ _ | .ready l _ _ | .popped l _ => some l
  | .handling _ _ _ | .handled _ _ => none

inductive LoopSighting (η δ : Type) where
  /-- `ts_map_insert` of a deleter. -/
  | registered (l : Nat) (key : UInt64) (deleter : Option (Deleter δ))
  /-- A send begins: it looks for the deleter of its event. -/
  | sent (l : Nat) (evt : EventPtr) (type : Int32)
  | queued (l : Nat) (evt : EventPtr) (urgent : Bool)
  | taken (l : Nat) (evt : EventPtr)
  /-- The handler is called. -/
  | handled (l : Nat) (evt : EventPtr) (handler : η)
  /-- The deleter is called. -/
  | deleted (l : Nat) (evt : EventPtr) (deleter : Deleter δ)
  /-- What an iteration returns. -/
  | returned (l : Nat) (work : Bool)
  | destroyed (l : Nat)
deriving DecidableEq, Repr

/-- Loops of any kind with the events that are sent to them. A loop that is destroyed is
`none`; `owned` are the events that nobody has sent yet. -/
structure System (Λ η δ : Type) where
  loops : List (Option Λ)
  heap : Store (Event δ)
  exitEvt : Event δ
  owned : List Nat
  calls : List (Stage η)

namespace System

variable {Λ : Type} (s : System Λ η δ)

def loop (l : Nat) : Option Λ := s.loops[l]?.join

def setLoop (l : Nat) (el : Λ) : System Λ η δ := { s with loops := s.loops.set l (some el) }

def event : EventPtr → Option (Event δ)
  | .exitEvt => some s.exitEvt
  | .heap address => s.heap.read address

/-- `evt->deleter = deleter` -/
def setDeleter (evt : EventPtr) (deleter : Option (Deleter δ)) : Option (System Λ η δ) :=
  match evt with
  | .exitEvt => some { s with exitEvt := { s.exitEvt with deleter := deleter } }
  | .heap address => do
    return { s with heap := ← s.heap.modify address fun event => { event with deleter := deleter } }

/-- The event is gone; a static event stays. -/
def release : EventPtr → Option (System Λ η δ)
  | .exitEvt => some s
  | .heap address => do
    return { s with heap := ← s.heap.free address }

/-- The owner of an event gives it away. -/
def give : EventPtr → System Λ η δ
  | .exitEvt => s
  | .heap address => { s with owned := s.owned.erase address }

def begin (stage : Stage η) : System Λ η δ := { s with calls := s.calls ++ [stage] }

def setCall (i : Nat) (stage : Stage η) : System Λ η δ := { s with calls := s.calls.set i stage }

def finish (i : Nat) : System Λ η δ := { s with calls := s.calls.eraseIdx i }

end System

/-- The destructor of the queue: it calls `e->deleter(e)`. -/
def eventDestructor (l : Nat) (exitEvt : Event δ) (evt : Option EventPtr)
    (state : Option (Store (Event δ) × List (LoopSighting η δ))) :
    Option (Store (Event δ) × List (LoopSighting η δ)) := do
  let (heap, did) ← state
  match ← evt with
  | .exitEvt => return (heap, did ++ [.deleted l .exitEvt (← exitEvt.deleter)])
  | .heap address =>
    let event ← heap.read address
    return (← heap.free address, did ++ [.deleted l (.heap address) (← event.deleter)])

end EventLoop

abbrev Loops (η δ : Type) := System (EventLoop η δ) η δ

namespace Loops

variable (s : Loops η δ)

/-- `event_loop_init` of a new loop. -/
def init : Option (List (LoopSighting η δ) × Loops η δ) := do
  let el ← eventLoopInit
  return ([.registered s.loops.length (mapKey exitEventType) (some .stub)],
    { s with loops := s.loops ++ [some el] })

/-- `event_loop_destroy` -/
def destroy (l : Nat) (el : EventLoop η δ) : Option (List (LoopSighting η δ) × Loops η δ) := do
  let (_, state) ← tsQueueDestroy (some (eventDestructor l s.exitEvt)) el.eventQueue
    (some (s.heap, []))
  let (heap, did) ← state
  let _ ← tsMapDestroy none el.deleters ()
  let _ ← tsMapDestroy none el.handlers ()
  return (did ++ [.destroyed l], { s with heap := heap, loops := s.loops.set l none })

def registerHandler (l : Nat) (el : EventLoop η δ) (key : UInt64) (handler : Option η) :
    Option (List (LoopSighting η δ) × Loops η δ) := do
  let (_, handlers) ← tsMapInsert el.handlers key handler
  return ([], s.setLoop l { el with handlers := handlers })

/-- `ts_map_erase` of a handler. -/
def unregisterHandler (l : Nat) (el : EventLoop η δ) (key : UInt64) :
    Option (List (LoopSighting η δ) × Loops η δ) := do
  let (_, handlers) ← tsMapErase el.handlers key
  return ([], s.setLoop l { el with handlers := handlers })

def registerDeleter (l : Nat) (el : EventLoop η δ) (key : UInt64) (deleter : Option (Deleter δ)) :
    Option (List (LoopSighting η δ) × Loops η δ) := do
  let (_, deleters) ← tsMapInsert el.deleters key deleter
  return ([.registered l key deleter], s.setLoop l { el with deleters := deleters })

/-- `calloc` of an event, and its type set. -/
def create (type : Int32) : Loops η δ :=
  let (address, heap) := s.heap.alloc ⟨type, none⟩
  { s with heap := heap, owned := s.owned ++ [address] }

/-- `send_event` or `send_urgent_event`: the first statement. -/
def send (l : Nat) (el : EventLoop η δ) (evt : EventPtr) (urgent : Bool) :
    Option (List (LoopSighting η δ) × Loops η δ) := do
  let event ← s.event evt
  let (deleter, deleters) ← tsMapFind el.deleters (mapKey event.type)
  let s ← (s.setLoop l { el with deleters := deleters }).setDeleter evt deleter
  return ([.sent l evt event.type], (s.give evt).begin (.found l evt urgent))

/-- `event_loop_iteration`: `ts_queue_pop`, and what follows at once. -/
def iterate (l : Nat) (el : EventLoop η δ) : Option (List (LoopSighting η δ) × Loops η δ) := do
  let (evt, queue) ← tsQueuePop el.eventQueue
  let s := s.setLoop l { el with eventQueue := queue }
  match evt with
  | none => return ([.returned l true], s)
  | some evt =>
    if (← s.event evt).type = exitEventType then return ([.taken l evt, .returned l false], s)
    else return ([.taken l evt], s.begin (.popped l evt))

/-- The next step of a call. -/
def advance (i : Nat) : Stage η → Option (List (LoopSighting η δ) × Loops η δ)
  | .found l evt urgent => do
    let event ← s.event evt
    let s ← if event.deleter = none then s.setDeleter evt (some .default) else some s
    return ([], s.setCall i (.ready l evt urgent))
  | .ready l evt urgent => do
    let el ← s.loop l
    let (_, queue) ← if urgent then tsQueuePushInFront el.eventQueue (some evt)
      else tsQueuePush el.eventQueue (some evt)
    return ([.queued l evt urgent], (s.setLoop l { el with eventQueue := queue }).finish i)
  | .popped l evt => do
    let el ← s.loop l
    let (handler, handlers) ← tsMapFind el.handlers (mapKey (← s.event evt).type)
    return ([], (s.setLoop l { el with handlers := handlers }).setCall i (.handling l evt handler))
  | .handling l evt handler =>
    return (handler.toList.map (.handled l evt), s.setCall i (.handled l evt))
  | .handled l evt => do
    let deleter ← (← s.event evt).deleter
    return ([.deleted l evt deleter, .returned l true], (← s.release evt).finish i)

end Loops

inductive LoopAction (η δ : Type) where
  | init
  | destroy (l : Nat)
  | registerHandler (l : Nat) (key : UInt64) (handler : Option η)
  | unregisterHandler (l : Nat) (key : UInt64)
  | registerDeleter (l : Nat) (key : UInt64) (deleter : Option (Deleter δ))
  | create (type : Int32)
  | send (l : Nat) (evt : EventPtr) (urgent : Bool)
  | iterate (l : Nat)
  | advance (i : Nat)
deriving DecidableEq, Repr

/-- A step that faults is the last. -/
def Loops.orFault (result : Option (List (LoopSighting η δ) × Loops η δ)) :
    Option (List (LoopSighting η δ) × Option (Loops η δ)) :=
  match result with
  | some (did, s) => some (did, some s)
  | none => some ([], none)

/-- A step on a loop that is not there is none. -/
def loopStep : Step (Loops η δ) (LoopAction η δ) (LoopSighting η δ)
  | s, .init => Loops.orFault s.init
  | s, .destroy l => (s.loop l).bind fun el => Loops.orFault (s.destroy l el)
  | s, .registerHandler l key handler =>
    (s.loop l).bind fun el => Loops.orFault (s.registerHandler l el key handler)
  | s, .unregisterHandler l key =>
    (s.loop l).bind fun el => Loops.orFault (s.unregisterHandler l el key)
  | s, .registerDeleter l key deleter =>
    (s.loop l).bind fun el => Loops.orFault (s.registerDeleter l el key deleter)
  | s, .create type => some ([], some (s.create type))
  | s, .send l evt urgent => (s.loop l).bind fun el => Loops.orFault (s.send l el evt urgent)
  | s, .iterate l => (s.loop l).bind fun el => Loops.orFault (s.iterate l el)
  | s, .advance i => s.calls[i]?.bind fun stage => Loops.orFault (s.advance i stage)

/-- No loop yet; `EXIT_EVT` is `{0}`. -/
def Loops.start : Loops η δ := ⟨[], Store.empty, ⟨exitEventType, none⟩, [], []⟩

end AcosChat
