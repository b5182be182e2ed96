import ScalableServer.Core.Objects
import ScalableServer.Core.Poll

/-! The state of the poll server. Entry 0 of the array of `pollfd`s is `listen` and entry `i + 1` is
`client i`; index `i` of `client_fd` and `client_addr` goes with it. -/

namespace ScalableServer.PollServer

open ScalableServer.Foundations ScalableServer.Core

def maxConnections : ℕ := 5

instance : NeZero maxConnections := ⟨by decide⟩

structure StateObject where
  listenFd : ℤ
  clientFd : Fin maxConnections → ℤ
  clientAddr : Fin maxConnections → SockAddr
  numConnections : ℕ

structure PollFds where
  listen : PollFd
  client : Fin maxConnections → PollFd

structure LogRow where
  connIndex : ℕ
  fd : ℤ
  clientAddr : ℕ
  clientPort : ℕ
  bytes : ℕ
  startTime : List Char
  endTime : List Char
  elapsed : ℤ
  deriving DecidableEq, Repr

end ScalableServer.PollServer
