import RopHive.Network.Socket
import RopHive.Transition.Reentrant

namespace RopHive.Schedule

open Transition
open RopHive.Network (Events)

/-- What `read` on a timerfd returns: the eight bytes of a count, an error, or
anything else. -/
inductive TimerRead where
  | expired (expirations : UInt64)
  | failed (errno : Nat)
  | short
  deriving DecidableEq

/-- `EpollWorkerTimerWatcher` and `PollWorkerTimerWatcher`, which differ in the
type of their source only.  `callback` tells whether `cb` is a non-empty
function. -/
structure WorkerTimerWatcher where
  callback : Bool

namespace WorkerTimer

structure State where
  fd : Option Nat
  attached : Bool := false
  deriving DecidableEq, Repr

inductive Request where
  | start
  | stop
  deriving DecidableEq, Repr

inductive Point where
  | readLoop
  | callLoop (left : Nat)
  deriving DecidableEq, Repr

inductive Input where
  | read (result : TimerRead)
  | proceed
  deriving DecidableEq

inductive Action where
  | cb
  | attachSource
  | detachSource
  | started
  | stopped
  deriving DecidableEq, Repr

abbrev Turn := Transition.Turn State Point Action

def start (state : State) : State × List Action :=
  if state.attached then (state, [.started])
  else ({ state with attached := true }, [.attachSource, .started])

def stop (state : State) : State × List Action :=
  if state.attached then
    ({ state with attached := false }, [.detachSource, .stopped])
  else (state, [.stopped])

variable (watcher : WorkerTimerWatcher)

/-- The loop over the expirations, `left` of which are still to be called. -/
def callLoop (left : Nat) : List (Frame Point) :=
  if 0 < left then [.code (.callLoop left)] else []

/-- The callback of the source. -/
def onReady (state : State) (events : Events) : Turn :=
  if events.readable = false then .rest state
  else
    match state.fd with
    | none => .rest state
    | some _ => .await state .readLoop

def readAnswered (state : State) : TimerRead → Turn
  | .expired expirations =>
      (Turn.rest state).andThen
        ((if watcher.callback then callLoop expirations.toNat else []) ++
          [.code .readLoop])
  | .failed errno =>
      if errno = Network.Errno.eintr then .await state .readLoop
      else .rest state
  | .short => .rest state

def call (state : State) : Request → Turn
  | .start => (Turn.rest (start state).1).preceded (start state).2
  | .stop => (Turn.rest (stop state).1).preceded (stop state).2

def resume (state : State) : Point → Input → Option Turn
  | .readLoop, .read result => some (readAnswered watcher state result)
  | .callLoop left, .proceed =>
      some ((Turn.callBack state watcher.callback .cb).andThen
        (callLoop (left - 1)))
  | _, _ => none

def program : Program State Request Events Point Input Action where
  call state request := some (call state request)
  ready state events := some (onReady state events)
  resume := resume watcher

end WorkerTimer

end RopHive.Schedule
