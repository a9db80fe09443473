import Mathlib.Tactic.Common

namespace RopHive.Network

/-! What the watchers share: the event bits and error numbers of the platform,
and the answers of the socket calls. -/

abbrev Byte := UInt8

namespace Errno

def eintr : Nat := 4
def eio : Nat := 5
def ebadf : Nat := 9
def eagain : Nat := 11
def einval : Nat := 22
def einprogress : Nat := 115
def ewouldblock : Nat := eagain

end Errno

inductive IpEndpoint where
  | v4 (ip : Vector Byte 4) (port : UInt16)
  | v6 (ip : Vector Byte 16) (port : UInt16) (scopeId : UInt32)
  deriving DecidableEq

def loopback : Vector Byte 4 := #v[127, 0, 0, 1]

inductive Family where
  | inet
  | inet6
  deriving DecidableEq, Repr

/-- The family of the address `toSockaddr` writes.  It fails on no endpoint
that holds a value. -/
def toSockaddr : IpEndpoint → Option Family
  | .v4 _ _ => some .inet
  | .v6 _ _ _ => some .inet6

/-- The bits IN, OUT, ERR, HUP and RDHUP of an epoll or poll event mask. -/
structure Events where
  readable : Bool := false
  writable : Bool := false
  error : Bool := false
  hangUp : Bool := false
  readHangUp : Bool := false
  deriving DecidableEq, Repr

def Events.union (left right : Events) : Events where
  readable := left.readable || right.readable
  writable := left.writable || right.writable
  error := left.error || right.error
  hangUp := left.hangUp || right.hangUp
  readHangUp := left.readHangUp || right.readHangUp

inductive Backend where
  | epoll
  | poll
  deriving DecidableEq, Repr

inductive RecvResult where
  | received (chunk : List Byte)
  | endOfStream
  | failed (errno : Nat)
  deriving DecidableEq, Repr

inductive SendResult where
  | accepted (count : Nat)
  | nothing
  | failed (errno : Nat)
  deriving DecidableEq, Repr

inductive SocketError where
  | pending (err : Nat)
  | failed (errno : Nat)
  deriving DecidableEq, Repr

/-- What `if (getsockopt(..) != 0) err = errno` leaves in `err`. -/
def SocketError.value : SocketError → Nat
  | .pending err => err
  | .failed errno => errno

inductive AcceptResult where
  | accepted (fd : Nat)
  | failed (errno : Nat)
  deriving DecidableEq, Repr

inductive SocketResult where
  | opened (fd : Nat)
  | failed (errno : Nat)
  deriving DecidableEq, Repr

inductive CallResult where
  | ok
  | failed (errno : Nat)
  deriving DecidableEq, Repr

end RopHive.Network
