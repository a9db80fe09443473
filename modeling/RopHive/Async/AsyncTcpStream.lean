import RopHive.Async.AsyncQueue
import RopHive.Network.Connection

namespace RopHive.Async

open Transition
open RopHive.Network (TrySendResult)

/-! `AsyncTcpStream::sendAll`, called by any number of coroutines of one
executor.  A coroutine runs from one suspension to the next in one step, but
callbacks of the watcher may come between two calls of `trySend`.  What comes
in goes to `recv_q_`, which is a queue of its own. -/

abbrev Byte := RopHive.Network.Byte

/-- Where a `sendAll` stands: it waits for the lock, is before the test of its
loop, or waits for `send_ready_q_`. -/
inductive SendFrame where
  | idle
  | waitingLock (data : List Byte)
  | sending
  | awaitingReady
  | returned
  deriving DecidableEq, Repr

/-- Why a `sendAll` returns. -/
inductive SendReason where
  | noWatcher
  | sent
  | failed (err : Nat)
  | closed
  | refused
  deriving DecidableEq, Repr

inductive SendEvent (Sender : Type) where
  | called (sender : Sender) (data : List Byte)
  | entered (sender : Sender) (data : List Byte)
  | took (bytes : List Byte)
  | returned (sender : Sender) (reason : SendReason)
  deriving DecidableEq

/-- `scheduled` has the handles that are with the executor. -/
structure AsyncTcpStream (Sender : Type) where
  watcher : Bool := true
  sendReadyQ : AsyncQueue Unit Unit Sender := { exec := some () }
  out : List Byte := []
  sendLocked : Bool := false
  sendLockWaiters : List Sender := []
  frames : Sender → SendFrame := fun _ => .idle
  scheduled : List Sender := []
  misused : Bool := false
  log : List (SendEvent Sender) := []

inductive StreamLabel (Sender : Type) where
  | sendAll (sender : Sender) (data : List Byte)
  | resume (sender : Sender)
  | trySend (sender : Sender) (result : TrySendResult)
  | onSendReady
  | onClose
  deriving DecidableEq

namespace AsyncTcpStream

variable {Sender : Type} [DecidableEq Sender] (stream : AsyncTcpStream Sender)

def setFrame (sender : Sender) (frame : SendFrame) : AsyncTcpStream Sender :=
  { stream with frames := Function.update stream.frames sender frame }

def withQueue
    (served : AsyncQueue Unit Unit Sender × Wake Unit Sender) :
    AsyncTcpStream Sender :=
  { stream with
    sendReadyQ := served.1
    scheduled := stream.scheduled ++ served.2.handed.toList.map Prod.snd }

/-- The lock is handed to the first that waits for it. -/
def unlockSend : AsyncTcpStream Sender :=
  match stream.sendLockWaiters with
  | [] => { stream with sendLocked := false }
  | h :: rest =>
      { stream with
        sendLockWaiters := rest
        scheduled := stream.scheduled ++ [h] }

def leave (sender : Sender) (reason : SendReason) : AsyncTcpStream Sender :=
  ({ stream with
    log := stream.log ++ [SendEvent.returned sender reason] }.setFrame sender
      .returned).unlockSend

/-- Behind `co_await LockAwaiter{*this}`. -/
def enter (sender : Sender) (data : List Byte) : AsyncTcpStream Sender :=
  let stream := { stream with
    sendLocked := true
    out := stream.out ++ data
    log := stream.log ++ [SendEvent.entered sender data] }.setFrame sender .sending
  if stream.watcher then stream else stream.leave sender .noWatcher

def sendAll (sender : Sender) (data : List Byte) : AsyncTcpStream Sender :=
  let stream := { stream with log := stream.log ++ [SendEvent.called sender data] }
  if stream.sendLocked then
    { stream with
      sendLockWaiters := stream.sendLockWaiters ++ [sender] }.setFrame sender
        (.waitingLock data)
  else stream.enter sender data

/-- Behind `co_await send_ready_q_.pop()`. -/
def readyPopped (sender : Sender) : AsyncTcpStream Sender :=
  let (ready, sendReadyQ) := stream.sendReadyQ.awaitResume
  let stream := { stream with sendReadyQ }.setFrame sender .sending
  match ready with
  | some () => stream
  | none => stream.leave sender .closed

def awaitReady (sender : Sender) : AsyncTcpStream Sender :=
  if stream.sendReadyQ.awaitReady then stream.readyPopped sender
  else
    { stream with
      sendReadyQ := stream.sendReadyQ.awaitSuspend sender }.setFrame sender
        .awaitingReady

/-- One round of the loop of `sendAll`. -/
def round (sender : Sender) (result : TrySendResult) :
    AsyncTcpStream Sender :=
  if stream.out = [] then stream.leave sender .sent
  else if result.err ≠ 0 then
    (stream.withQueue stream.sendReadyQ.close).leave sender
      (.failed result.err)
  else if 0 < result.n then
    { stream with
      out := stream.out.drop result.n
      log := stream.log ++ [SendEvent.took (stream.out.take result.n)] }
  else if result.wouldBlock then stream.awaitReady sender
  else stream.leave sender .refused

def resume (sender : Sender) : AsyncTcpStream Sender :=
  match stream.frames sender with
  | .waitingLock data => stream.enter sender data
  | .awaitingReady => stream.readyPopped sender
  | _ => { stream with misused := true }

def step : StreamLabel Sender → Option (AsyncTcpStream Sender)
  | .sendAll sender data =>
      if stream.frames sender = .idle then some (stream.sendAll sender data)
      else none
  | .resume sender =>
      if sender ∈ stream.scheduled then
        some ({ stream with
          scheduled := stream.scheduled.erase sender }.resume sender)
      else none
  | .trySend sender result =>
      if stream.frames sender = .sending then some (stream.round sender result)
      else none
  | .onSendReady => some (stream.withQueue (stream.sendReadyQ.push ()))
  | .onClose => some (stream.withQueue stream.sendReadyQ.close)

def system : System (AsyncTcpStream Sender) (StreamLabel Sender) where
  initial stream := ∃ watcher, stream = { watcher }
  step := step

end AsyncTcpStream

end RopHive.Async
