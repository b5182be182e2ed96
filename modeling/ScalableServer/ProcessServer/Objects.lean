import ScalableServer.Core.Objects
import ScalableServer.Core.Poll

/-! The state of the parent and of a child of the process server, for `M` client slots. Entry 0 of
the array of `pollfd`s is `listen`, entry 1 is `pipe` and entry `p + 2` is `client p`; index `p` of
`client_addrs` goes with it. A descriptor of an accepted connection names the connection, which the
processes that hold it share, and its peer. -/

namespace ScalableServer.ProcessServer

open ScalableServer.Foundations ScalableServer.Core

def numChildProcesses : ℕ := 8

def maxConnections : ℕ := 5

instance : NeZero maxConnections := ⟨by decide⟩

instance : NeZero numChildProcesses := ⟨by decide⟩

inductive Descriptor
  | accepted (addr : SockAddr) (conn : ℕ)
  | other
  deriving DecidableEq, Repr

def Descriptor.peer : Descriptor → Option SockAddr
  | .accepted addr _ => some addr
  | .other => none

structure PollFds (M : ℕ) where
  listen : PollFd
  pipe : PollFd
  client : Fin M → PollFd

structure ParentStruct (M : ℕ) where
  pollfds : PollFds M
  clientAddrs : Fin M → SockAddr
  numConnections : ℕ

structure ChildStruct where
  clientFdParent : ℤ := 0
  clientFdLocal : ℤ := 0
  clientAddr : SockAddr := {}
  deriving DecidableEq, Repr

def sizeofSockAddr : ℕ := 16

def clearLow (k n : ℕ) : ℕ := n / 256 ^ k * 256 ^ k

/-- What `getpeername` leaves of `addr` in a `sockaddr_in` of zeros when it is given `socklen`. The
port is in bytes 2 and 3 and the address in bytes 4 to 7, with the high byte first. -/
def storeName (socklen : ℕ) (addr : SockAddr) : SockAddr where
  sinAddr := clearLow (4 - (socklen - 4)) addr.sinAddr
  sinPort := clearLow (2 - (socklen - 2)) addr.sinPort

structure LogRow where
  pid : ℕ
  fdInChild : ℤ
  fdInParent : ℤ
  clientAddr : ℕ
  clientPort : ℕ
  bytes : ℕ
  startTime : List Char
  endTime : List Char
  elapsed : ℤ
  timeIndex : ℤ
  deriving DecidableEq, Repr

end ScalableServer.ProcessServer
