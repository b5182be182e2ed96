import ScalableServer.Core.ConnTable
import ScalableServer.Foundations.Transitions
import ScalableServer.PollServer.PollRecvAndLog

/-! `execute_poll` as a machine. The server runs between its calls of `poll` and `accept`, whose
results are events; other events are the clients' and the signal. `fds` is the descriptor table of
the process, in which a connection carries the address that `accept` stored. `num_connections` is a
`size_t` and counts modulo `2 ^ 64`. -/

namespace ScalableServer.PollServer

open ScalableServer.Foundations ScalableServer.Core

inductive Descriptor
  | accepted (addr : SockAddr) (conn : Conn)
  | other

def Descriptor.peer : Descriptor → Option SockAddr
  | .accepted addr _ => some addr
  | .other => none

structure PollResult where
  listen : Events
  client : Fin maxConnections → Events

inductive Pc
  | head
  | poll
  | accept
  | comm (fdNum : ℕ)
  | returned (ret : ℤ)
  deriving DecidableEq, Repr

structure Server where
  pc : Pc
  gogo : Bool
  so : StateObject
  pollfds : PollFds
  fds : ℤ → Option Descriptor
  rows : List LogRow := []

inductive Event
  | run (prior : ℕ) (t : Timing)
  | poll (result : Except Errno PollResult)
  | accept (result : Except Errno (ℤ × SockAddr × Conn))
  | deliver (fd : ℤ) (bytes : List UInt8)
  | hangup (fd : ℤ)
  | signal

def Server.accepted (s : Server) (fd : ℤ) : Option SockAddr := (s.fds fd).bind Descriptor.peer

def PollFds.setClient (p : PollFds) (i : Fin maxConnections) (q : PollFd) : PollFds :=
  { p with client := Function.update p.client i q }

def PollFds.report (p : PollFds) (r : PollResult) : PollFds where
  listen := { p.listen with revents := r.listen }
  client i := { p.client i with revents := r.client i }

/-- The state in which `execute_poll` starts, when the process has `others` open. -/
def initial (listenFd : ℤ) (others : ℤ → Bool) : Server where
  pc := .head
  gogo := true
  so :=
    { listenFd := listenFd
      clientFd := fun _ => 0
      clientAddr := fun _ => {}
      numConnections := 0 }
  pollfds := { listen := { fd := listenFd, events := POLLIN }, client := fun _ => {} }
  fds fd := if others fd then some .other else none

def getConnIndex (clientFd : Fin maxConnections → ℤ) : Fin maxConnections :=
  (SlotTable.firstFree (· ≠ 0) clientFd).getD 0

def pollAccept (s : Server) (fd : ℤ) (addr : SockAddr) (c : Conn) : Server :=
  let i := getConnIndex s.so.clientFd
  let numConnections := (s.so.numConnections + 1) % sizeMod
  { s with
    so :=
      { s.so with
        clientFd := Function.update s.so.clientFd i fd
        clientAddr := Function.update s.so.clientAddr i addr
        numConnections := numConnections }
    pollfds :=
      { listen := stopListening maxConnections numConnections s.pollfds.listen
        client := Function.update s.pollfds.client i
          { s.pollfds.client i with fd := fd, events := POLLIN } }
    fds := Function.update s.fds fd (some (.accepted addr c)) }

def pollRemoveConnection (s : Server) (i : Fin maxConnections) : Server :=
  let numConnections := (s.so.numConnections + (sizeMod - 1)) % sizeMod
  { s with
    so :=
      { s.so with
        clientFd := Function.update s.so.clientFd i 0
        clientAddr := Function.update s.so.clientAddr i {}
        numConnections := numConnections }
    pollfds :=
      { listen := resumeListening maxConnections numConnections s.pollfds.listen
        client := Function.update s.pollfds.client i {} }
    fds := Function.update s.fds (s.pollfds.client i).fd none }

/-- `pollfd->revents = 0;` at the end of a pass, and the next pass. -/
def sweepOn (s : Server) (i : Fin maxConnections) : Server :=
  { s with
    pc := .comm (i + 1)
    pollfds := s.pollfds.setClient i { s.pollfds.client i with revents := .zero } }

def served (s : Server) (i : Fin maxConnections) (addr : SockAddr) (r : Handled) : Server :=
  let s :=
    { s with
      gogo := s.gogo && !r.conn.signalled
      fds := Function.update s.fds (s.pollfds.client i).fd (some (.accepted addr r.conn))
      rows := s.rows ++ r.rows }
  if r.ret = -1 then { s with pc := .returned (-1) } else sweepOn s i

/-- `recv` fails on what is not a connection. -/
def serveSlot (h : Host) (prior : ℕ) (t : Timing) (s : Server) (i : Fin maxConnections) :
    Option Server :=
  match s.fds (s.pollfds.client i).fd with
  | some (.accepted addr c) => (pollRecvAndLog h s.so i prior t c).map (served s i addr)
  | _ => some { s with pc := .returned (-1) }

def pollComm (h : Host) (prior : ℕ) (t : Timing) (s : Server) (i : Fin maxConnections) :
    Option Server :=
  let revents := (s.pollfds.client i).revents
  if revents = POLLIN then serveSlot h prior t s i
  else if revents.hangup = true then some (sweepOn (pollRemoveConnection s i) i)
  else some (sweepOn s i)

def setConn (s : Server) (fd : ℤ) (addr : SockAddr) (c : Conn) : Server :=
  { s with fds := Function.update s.fds fd (some (.accepted addr c)) }

def onClient (s : Server) (fd : ℤ) (f : Conn → Conn) : Option Server :=
  match s.fds fd with
  | some (.accepted addr c) => some (setConn s fd addr (f c))
  | _ => none

def step (h : Host) (s : Server) : Event → Option Server
  | .run prior t =>
    match s.pc with
    | .head => some { s with pc := if s.gogo then .poll else .returned 0 }
    | .comm k =>
      if hk : k < maxConnections then pollComm h prior t s ⟨k, hk⟩ else some { s with pc := .head }
    | _ => none
  | .poll result =>
    if s.pc = .poll then
      match result with
      | .error e => some { s with pc := .returned (if e = .EINTR then 0 else -1) }
      | .ok r =>
        some { s with
          pc := if r.listen = POLLIN then .accept else .comm 0
          pollfds := s.pollfds.report r }
    else none
  | .accept result =>
    if s.pc = .accept then
      match result with
      | .error _ => some { s with pc := .returned (-1) }
      | .ok (fd, addr, c) => some { pollAccept s fd addr c with pc := .head }
    else none
  | .deliver fd bytes => onClient s fd (Conn.deliver bytes)
  | .hangup fd => onClient s fd Conn.hangup
  | .signal => some { s with gogo := false }

def server (h : Host) : Machine Server Event := ⟨step h⟩

inductive Moves (h : Host) (s : Server) : Event → Server → Prop
  | head {prior : ℕ} {t : Timing} (hpc : s.pc = .head) :
      Moves h s (.run prior t) { s with pc := if s.gogo then .poll else .returned 0 }
  | serve {prior : ℕ} {t : Timing} {i : Fin maxConnections} {addr : SockAddr} {c : Conn}
      {r : Handled} (hpc : s.pc = .comm i) (hin : (s.pollfds.client i).revents = POLLIN)
      (hc : s.fds (s.pollfds.client i).fd = some (.accepted addr c))
      (hr : pollRecvAndLog h s.so i prior t c = some r) :
      Moves h s (.run prior t) (served s i addr r)
  | serveOther {prior : ℕ} {t : Timing} {i : Fin maxConnections} (hpc : s.pc = .comm i)
      (hin : (s.pollfds.client i).revents = POLLIN)
      (hc : ∀ addr c, s.fds (s.pollfds.client i).fd ≠ some (.accepted addr c)) :
      Moves h s (.run prior t) { s with pc := .returned (-1) }
  | remove {prior : ℕ} {t : Timing} {i : Fin maxConnections} (hpc : s.pc = .comm i)
      (hin : (s.pollfds.client i).revents ≠ POLLIN)
      (hup : (s.pollfds.client i).revents.hangup = true) :
      Moves h s (.run prior t) (sweepOn (pollRemoveConnection s i) i)
  | skip {prior : ℕ} {t : Timing} {i : Fin maxConnections} (hpc : s.pc = .comm i)
      (hin : (s.pollfds.client i).revents ≠ POLLIN)
      (hup : ¬ (s.pollfds.client i).revents.hangup = true) :
      Moves h s (.run prior t) (sweepOn s i)
  | swept {prior : ℕ} {t : Timing} {k : ℕ} (hpc : s.pc = .comm k) :
      Moves h s (.run prior t) { s with pc := .head }
  | poll {r : PollResult} (hpc : s.pc = .poll) :
      Moves h s (.poll (.ok r)) { s with
        pc := if r.listen = POLLIN then .accept else .comm 0
        pollfds := s.pollfds.report r }
  | pollFail {e : Errno} (hpc : s.pc = .poll) :
      Moves h s (.poll (.error e)) { s with pc := .returned (if e = .EINTR then 0 else -1) }
  | accept {fd : ℤ} {addr : SockAddr} {c : Conn} (hpc : s.pc = .accept) :
      Moves h s (.accept (.ok (fd, addr, c))) { pollAccept s fd addr c with pc := .head }
  | acceptFail {e : Errno} (hpc : s.pc = .accept) :
      Moves h s (.accept (.error e)) { s with pc := .returned (-1) }
  | deliver {fd : ℤ} {bytes : List UInt8} {addr : SockAddr} {c : Conn}
      (hc : s.fds fd = some (.accepted addr c)) :
      Moves h s (.deliver fd bytes) (setConn s fd addr (c.deliver bytes))
  | hangup {fd : ℤ} {addr : SockAddr} {c : Conn} (hc : s.fds fd = some (.accepted addr c)) :
      Moves h s (.hangup fd) (setConn s fd addr c.hangup)
  | signal : Moves h s .signal { s with gogo := false }

lemma moves_of_pollComm {h : Host} {s t : Server} {i : Fin maxConnections} {prior : ℕ} {ti : Timing}
    (hpc : s.pc = .comm i) (hs : pollComm h prior ti s i = some t) :
    Moves h s (.run prior ti) t := by
  rw [pollComm] at hs
  split_ifs at hs with hin hup
  · rw [serveSlot] at hs
    split at hs
    · rename_i addr c hc
      obtain ⟨r, hr, rfl⟩ := Option.map_eq_some_iff.mp hs
      exact .serve hpc hin hc hr
    · rename_i hc
      obtain rfl := Option.some.inj hs
      exact .serveOther hpc hin hc
  · obtain rfl := Option.some.inj hs
    exact .remove hpc hin hup
  · obtain rfl := Option.some.inj hs
    exact .skip hpc hin hup

lemma onClient_some {s t : Server} {fd : ℤ} {f : Conn → Conn} (hs : onClient s fd f = some t) :
    ∃ addr c, s.fds fd = some (.accepted addr c) ∧ t = setConn s fd addr (f c) := by
  rw [onClient] at hs
  split at hs
  · rename_i addr c hc
    exact ⟨addr, c, hc, (Option.some.inj hs).symm⟩
  · cases hs

lemma moves_of_step {h : Host} {s t : Server} {e : Event} (hs : step h s e = some t) :
    Moves h s e t := by
  cases e with
  | run prior ti =>
    simp only [step] at hs
    split at hs
    · rename_i hpc
      obtain rfl := Option.some.inj hs
      exact .head hpc
    · rename_i k hpc
      split_ifs at hs with hk
      · exact moves_of_pollComm (i := ⟨k, hk⟩) hpc hs
      · obtain rfl := Option.some.inj hs
        exact .swept hpc
    · cases hs
  | poll result =>
    simp only [step] at hs
    split_ifs at hs with hpc
    cases result <;> obtain rfl := Option.some.inj hs
    · exact .pollFail hpc
    · exact .poll hpc
  | accept result =>
    simp only [step] at hs
    split_ifs at hs with hpc
    cases result <;> obtain rfl := Option.some.inj hs
    · exact .acceptFail hpc
    · exact .accept hpc
  | deliver fd bytes =>
    obtain ⟨addr, c, hc, rfl⟩ := onClient_some hs
    exact .deliver hc
  | hangup fd =>
    obtain ⟨addr, c, hc, rfl⟩ := onClient_some hs
    exact .hangup hc
  | signal =>
    obtain rfl := Option.some.inj hs
    exact .signal

def RemovalEntered (s : Server) (i : Fin maxConnections) : Prop :=
  s.pc = .comm i ∧ (s.pollfds.client i).revents ≠ POLLIN ∧
    (s.pollfds.client i).revents.hangup = true

instance (s : Server) (i : Fin maxConnections) : Decidable (RemovalEntered s i) :=
  inferInstanceAs (Decidable (_ ∧ _))

end ScalableServer.PollServer
