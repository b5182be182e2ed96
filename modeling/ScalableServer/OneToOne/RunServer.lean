import ScalableServer.Core.RunCore
import ScalableServer.Foundations.Transitions
import ScalableServer.OneToOne.HandleClient

/-! `run_server` of the one-to-one server. An event is a pass of its loop, with the answers to the
calls of `accept_conn` and the connection that `accept` returns, or a signal between two calls.
`signalled` is the self-pipe, to which the handler writes and from which nothing is read. -/

namespace ScalableServer.OneToOne

open ScalableServer.Foundations ScalableServer.Core

structure Server where
  so : StateObject
  signalled : Bool := false
  result : Option ServerStates := none
  rows : List LogRow := []

structure Calls where
  select : Answer
  accept : Except Errno (ℤ × Conn)
  acceptSignal : Bool
  prior : ℕ → ℕ
  t : ℕ → Timing

inductive Event
  | pass (calls : Calls)
  | signal

def initial (listenFd : ℤ) : Server := { so := ⟨listenFd, 0, {}⟩ }

/-- `check_fd` on the listen socket. -/
def checkListenFd (signalled : Bool) (select : Answer) : ClientResult :=
  match select.outcome with
  | .fail e => if e = .EINTR then .termination else .error
  | _ => if signalled || select.signal then .termination else .success

def acceptConn (s : Server) (calls : Calls) : Server × Except ClientResult Conn :=
  match checkListenFd s.signalled calls.select with
  | .success =>
    let s := { s with signalled := s.signalled || calls.acceptSignal }
    match calls.accept with
    | .error e => (s, .error (if e = .EINTR then .termination else .error))
    | .ok (fd, c) => ({ s with so := { s.so with clientFd := fd } }, .ok c)
  | r => ({ s with signalled := s.signalled || calls.select.signal }, .error r)

def clientResult (r : ClientResult) : Option ServerStates :=
  match r with
  | .success => none
  | .error => some .error
  | .termination => some .closeServer

def pass (h : Host) (s : Server) (calls : Calls) : Option Server :=
  match acceptConn s calls with
  | (s, .error r) => some { s with result := clientResult r }
  | (s, .ok c) =>
    (handleClient h s.so calls.prior calls.t { c with signalled := s.signalled }).map
      fun (r, client) =>
        { s with
          signalled := client.conn.signalled
          result := clientResult r
          rows := s.rows ++ client.rows }

def step (h : Host) (s : Server) : Event → Option Server
  | .pass calls => if s.result = none then pass h s calls else none
  | .signal => some { s with signalled := true }

def server (h : Host) : Machine Server Event := ⟨step h⟩

def runServer (h : Host) (es : List Event) (s : Server) : Option (ServerStates × Server) :=
  ((server h).run es s).bind fun t => t.result.map fun next => (next, t)

/-- `listen` is the result of `open_server_for_listen`; `destroy_state` closes two descriptors. -/
def api (h : Host) (listen : Except Errno ℤ) (es : List Event) : Api Server where
  initializeServer _ :=
    match listen with
    | .error _ => some (.error, initial 0)
    | .ok listenFd => some (.runServer, initial listenFd)
  runServer := runServer h es
  closeServer s := some (.exit, s)

end ScalableServer.OneToOne
