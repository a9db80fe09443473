import RopHive.Data.IndexedVector

namespace RopHive.Schedule

/-! The interest tables of `EpollBackend` and `PollBackend`, through which
their sources register. -/

inductive BackendType where
  | linuxPoll
  | linuxEpoll
  | macosPoll
  | macosKqueue
  | macosCocoa
  | windowsWin32
  | windowsIocp
  deriving DecidableEq, Repr

/-- A backend as its sources see it: a finite map from descriptors to the
events asked for. -/
structure InterestBackend (Events : Type) where
  type : BackendType
  Table : Type
  empty : Table
  registerFd : Table → Int → Events → Table
  unregisterFd : Table → Int → Table
  interest : Table → Int → Option Events
  interest_empty : ∀ fd, interest empty fd = none
  interest_registerFd : ∀ table fd events other,
    interest (registerFd table fd events) other =
      if other = fd then some events else interest table other
  interest_unregisterFd : ∀ table fd other,
    interest (unregisterFd table fd) other =
      if other = fd then none else interest table other

variable {Events : Type}

/-- The successful calls of `epoll_ctl` leave no more than `fd_events_`. -/
structure EpollBackend (Events : Type) where
  fdEvents : Int → Option Events

namespace EpollBackend

def registerFd [DecidableEq Events] (backend : EpollBackend Events) (fd : Int)
    (events : Events) : EpollBackend Events :=
  match backend.fdEvents fd with
  | none => ⟨Function.update backend.fdEvents fd (some events)⟩
  | some registered =>
      if registered = events then backend
      else ⟨Function.update backend.fdEvents fd (some events)⟩

def unregisterFd (backend : EpollBackend Events) (fd : Int) :
    EpollBackend Events :=
  match backend.fdEvents fd with
  | none => backend
  | some _ => ⟨Function.update backend.fdEvents fd none⟩

theorem fdEvents_registerFd [DecidableEq Events]
    (backend : EpollBackend Events) (fd : Int) (events : Events)
    (other : Int) :
    (backend.registerFd fd events).fdEvents other =
      if other = fd then some events else backend.fdEvents other := by
  unfold registerFd
  split
  · exact Function.update_apply ..
  · next registered found =>
      split
      · next same =>
          split
          · next isFd => rw [isFd, found, same]
          · rfl
      · exact Function.update_apply ..

theorem fdEvents_unregisterFd (backend : EpollBackend Events)
    (fd other : Int) :
    (backend.unregisterFd fd).fdEvents other =
      if other = fd then none else backend.fdEvents other := by
  unfold unregisterFd
  split
  · next found =>
      split
      · next isFd => rw [isFd, found]
      · rfl
  · exact Function.update_apply ..

end EpollBackend

/-- `pollfds_` with `fd_index_`. -/
abbrev PollBackend (Events : Type) := IndexedVector Int Events

namespace PollBackend

abbrev registerFd (backend : PollBackend Events) (fd : Int)
    (events : Events) : PollBackend Events :=
  backend.insert fd events

abbrev unregisterFd (backend : PollBackend Events) (fd : Int) :
    PollBackend Events :=
  backend.erase fd

end PollBackend

inductive LinuxBackend where
  | epoll
  | poll
  deriving DecidableEq, Repr

def LinuxBackend.backend [DecidableEq Events] :
    LinuxBackend → InterestBackend Events
  | .epoll =>
      { type := .linuxEpoll
        Table := EpollBackend Events
        empty := ⟨fun _ => none⟩
        registerFd := EpollBackend.registerFd
        unregisterFd := EpollBackend.unregisterFd
        interest := EpollBackend.fdEvents
        interest_empty := fun _ => rfl
        interest_registerFd := EpollBackend.fdEvents_registerFd
        interest_unregisterFd := EpollBackend.fdEvents_unregisterFd }
  | .poll =>
      { type := .linuxPoll
        Table := PollBackend Events
        empty := .empty
        registerFd := PollBackend.registerFd
        unregisterFd := PollBackend.unregisterFd
        interest := IndexedVector.lookup
        interest_empty := fun _ => rfl
        interest_registerFd := fun table fd events other =>
          table.lookup_insert fd other events
        interest_unregisterFd := IndexedVector.lookup_erase }

end RopHive.Schedule
