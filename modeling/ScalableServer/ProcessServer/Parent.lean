import ScalableServer.Core.ConnTable
import ScalableServer.Foundations.Transitions
import ScalableServer.ProcessServer.Objects
import Mathlib.Data.Multiset.Count

/-! The parent of the process server: `p_run_poll_loop` and what it calls. Between two of its calls
the parent only touches its own memory, so the events are the returns of its calls, with their
results, and `run` where there is none to wait for. `p_read_pipe_reenable_fd` is one event. `fds`
is the descriptor table of the parent, and `num_connections` is a `size_t`, which counts modulo `2
^ 64`.

`Dispatch` adds the numbers that the parent has sent to its children and not read back. -/

namespace ScalableServer.ProcessServer

open ScalableServer.Foundations ScalableServer.Core

variable {M : ℕ}

structure PollResult (M : ℕ) where
  listen : Events
  pipe : Events
  client : Fin M → Events

inductive ParentPc (M : ℕ)
  | head
  | poll
  | accept
  | readPipe
  | sweep (p : ℕ)
  | waitWrite (p : Fin M)
  | sendMsg (p : Fin M)
  | postRead (p : Fin M)
  | flip (p : Fin M)
  | returned (ret : ℤ)
  deriving DecidableEq, Repr

structure Parent (M : ℕ) where
  pc : ParentPc M
  gogo : Bool
  so : ParentStruct M
  fds : ℤ → Option Descriptor

inductive ParentEvent (M : ℕ)
  | run
  | poll (result : Except Errno (PollResult M))
  | accept (result : Except Errno (ℤ × SockAddr × ℕ))
  | read (result : Except Errno ℤ)
  | wait (result : Except Errno Unit)
  | send (result : Except Errno Unit)
  | post
  | signal

def ParentEvent.isError : ParentEvent M → Bool
  | .poll (.error _) | .accept (.error _) | .read (.error _) | .wait (.error _)
  | .send (.error _) => true
  | _ => false

namespace Parent

def client (s : Parent M) (p : Fin M) : PollFd := s.so.pollfds.client p

def accepted (s : Parent M) (fd : ℤ) : Option SockAddr := (s.fds fd).bind Descriptor.peer

def initial (listenFd pipeFd : ℤ) (others : ℤ → Bool) : Parent M where
  pc := .head
  gogo := true
  so :=
    { pollfds :=
        { listen := { fd := listenFd, events := POLLIN }
          pipe := { fd := pipeFd, events := POLLIN }
          client := fun _ => {} }
      clientAddrs := fun _ => {}
      numConnections := 0 }
  fds fd := if others fd then some .other else none

def setClient (s : Parent M) (p : Fin M) (q : PollFd) : Parent M :=
  { s with so := { s.so with
      pollfds := { s.so.pollfds with client := Function.update s.so.pollfds.client p q } } }

def goto (s : Parent M) (pc : ParentPc M) : Parent M := { s with pc := pc }

def report (s : Parent M) (r : PollResult M) : Parent M :=
  { s with so := { s.so with
      pollfds :=
        { listen := { s.so.pollfds.listen with revents := r.listen }
          pipe := { s.so.pollfds.pipe with revents := r.pipe }
          client := fun p => { s.so.pollfds.client p with revents := r.client p } } } }

/-- `p_get_pollfd_index`, less the offset of the client slots. -/
def pGetPollfdIndex [NeZero M] (client : Fin M → PollFd) : Fin M :=
  (SlotTable.firstFree (fun q : PollFd => q.fd ≠ 0) client).getD 0

def pAcceptNewConnection [NeZero M] (s : Parent M) (fd : ℤ) (addr : SockAddr) (conn : ℕ) :
    Parent M :=
  let p := pGetPollfdIndex s.so.pollfds.client
  let numConnections := (s.so.numConnections + 1) % sizeMod
  { s with
    so :=
      { pollfds :=
          { s.so.pollfds with
            listen := stopListening M numConnections s.so.pollfds.listen
            client := Function.update s.so.pollfds.client p
              { s.so.pollfds.client p with fd := fd, events := POLLIN } }
        clientAddrs := Function.update s.so.clientAddrs p addr
        numConnections := numConnections }
    fds := Function.update s.fds fd (some (.accepted addr conn)) }

/-- `if (pollfds[p].fd == fd * -1) pollfds[p].fd *= -1;` -/
def reenable (number : ℤ) (q : PollFd) : PollFd :=
  if q.fd = number * -1 then { q with fd := q.fd * -1 } else q

def pReadPipeReenableFd (s : Parent M) (number : ℤ) : Parent M :=
  { s with so := { s.so with
      pollfds :=
        { s.so.pollfds with client := fun p => reenable number (s.so.pollfds.client p) } } }

def pRemoveConnection (s : Parent M) (p : Fin M) : Parent M :=
  let numConnections := (s.so.numConnections + (sizeMod - 1)) % sizeMod
  { s with
    so :=
      { pollfds :=
          { s.so.pollfds with
            listen := resumeListening M numConnections s.so.pollfds.listen
            client := Function.update s.so.pollfds.client p {} }
        clientAddrs := Function.update s.so.clientAddrs p {}
        numConnections := numConnections }
    fds := Function.update s.fds (s.client p).fd none }

def sweepOn (s : Parent M) (p : Fin M) : Parent M :=
  (s.setClient p { s.client p with revents := .zero }).goto (.sweep (p + 1))

def pHandleSocketAction (s : Parent M) (p : Fin M) : Parent M :=
  if (s.client p).revents = POLLIN then s.goto (.waitWrite p)
  else if (s.client p).revents.hangup = true then (s.pRemoveConnection p).sweepOn p
  else s.sweepOn p

/-- `pollfd->fd *= -1;` after `p_send_to_child` has returned 0. -/
def disable (s : Parent M) (p : Fin M) : Parent M :=
  s.setClient p { s.client p with fd := (s.client p).fd * -1 }

def step [NeZero M] (s : Parent M) : ParentEvent M → Option (Parent M)
  | .run =>
    match s.pc with
    | .head => some (s.goto (if s.gogo then .poll else .returned 0))
    | .sweep k =>
      if hk : k < M then some (s.pHandleSocketAction ⟨k, hk⟩) else some (s.goto .head)
    | .flip p => some ((s.disable p).sweepOn p)
    | _ => none
  | .poll result =>
    if s.pc = .poll then
      match result with
      | .error e => some (s.goto (.returned (if e = .EINTR then 0 else -1)))
      | .ok r =>
        some ((s.report r).goto (if r.listen = POLLIN then .accept
          else if r.pipe = POLLIN then .readPipe else .sweep 0))
    else none
  | .accept result =>
    if s.pc = .accept then
      match result with
      | .error _ => some (s.goto (.returned (-1)))
      | .ok (fd, addr, conn) => some ((s.pAcceptNewConnection fd addr conn).goto .head)
    else none
  | .read result =>
    if s.pc = .readPipe then
      match result with
      | .error _ => some (s.goto (.returned (-1)))
      | .ok number => some ((s.pReadPipeReenableFd number).goto .head)
    else none
  | .wait result =>
    match s.pc with
    | .waitWrite p =>
      match result with
      | .error e => some (s.goto (if e = .EINTR then .flip p else .returned (-1)))
      | .ok () => some (s.goto (.sendMsg p))
    | _ => none
  | .send result =>
    match s.pc with
    | .sendMsg p =>
      match result with
      | .error _ => some (s.goto (.returned (-1)))
      | .ok () => if s.fds (s.client p).fd = none then none else some (s.goto (.postRead p))
    | _ => none
  | .post =>
    match s.pc with
    | .postRead p => some (s.goto (.flip p))
    | _ => none
  | .signal => some { s with gogo := false }

inductive Moves [NeZero M] (s : Parent M) : ParentEvent M → Parent M → Prop
  | head (hpc : s.pc = .head) : s.Moves .run (s.goto (if s.gogo then .poll else .returned 0))
  | sweep {p : Fin M} (hpc : s.pc = .sweep p) : s.Moves .run (s.pHandleSocketAction p)
  | swept {k : ℕ} (hpc : s.pc = .sweep k) : s.Moves .run (s.goto .head)
  | flip {p : Fin M} (hpc : s.pc = .flip p) : s.Moves .run ((s.disable p).sweepOn p)
  | poll {r : PollResult M} (hpc : s.pc = .poll) :
      s.Moves (.poll (.ok r)) ((s.report r).goto (if r.listen = POLLIN then .accept
        else if r.pipe = POLLIN then .readPipe else .sweep 0))
  | accept {fd : ℤ} {addr : SockAddr} {conn : ℕ} (hpc : s.pc = .accept) :
      s.Moves (.accept (.ok (fd, addr, conn))) ((s.pAcceptNewConnection fd addr conn).goto .head)
  | read {number : ℤ} (hpc : s.pc = .readPipe) :
      s.Moves (.read (.ok number)) ((s.pReadPipeReenableFd number).goto .head)
  | wait {p : Fin M} (hpc : s.pc = .waitWrite p) : s.Moves (.wait (.ok ())) (s.goto (.sendMsg p))
  | interrupt {p : Fin M} (hpc : s.pc = .waitWrite p) :
      s.Moves (.wait (.error .EINTR)) (s.goto (.flip p))
  | send {p : Fin M} (hpc : s.pc = .sendMsg p) (hfd : s.fds (s.client p).fd ≠ none) :
      s.Moves (.send (.ok ())) (s.goto (.postRead p))
  | post {p : Fin M} (hpc : s.pc = .postRead p) : s.Moves .post (s.goto (.flip p))
  | signal : s.Moves .signal { s with gogo := false }
  | fail {e : ParentEvent M} {ret : ℤ} (he : e.isError = true) : s.Moves e (s.goto (.returned ret))

lemma moves_of_step [NeZero M] {s t : Parent M} {e : ParentEvent M} (h : s.step e = some t) :
    s.Moves e t := by
  cases e with
  | run =>
    simp only [step] at h
    split at h
    · rename_i hpc
      obtain rfl := Option.some.inj h
      exact .head hpc
    · rename_i k hpc
      split_ifs at h with hk
      · obtain rfl := Option.some.inj h
        exact .sweep (p := ⟨k, hk⟩) hpc
      · obtain rfl := Option.some.inj h
        exact .swept hpc
    · rename_i p hpc
      obtain rfl := Option.some.inj h
      exact .flip hpc
    · cases h
  | poll result =>
    simp only [step] at h
    split_ifs at h with hpc
    cases result <;> obtain rfl := Option.some.inj h
    · exact .fail rfl
    · exact .poll hpc
  | accept result =>
    simp only [step] at h
    split_ifs at h with hpc
    cases result <;> obtain rfl := Option.some.inj h
    · exact .fail rfl
    · exact .accept hpc
  | read result =>
    simp only [step] at h
    split_ifs at h with hpc
    cases result <;> obtain rfl := Option.some.inj h
    · exact .fail rfl
    · exact .read hpc
  | wait result =>
    simp only [step] at h
    split at h
    · rename_i p hpc
      cases result with
      | error e =>
        obtain rfl := Option.some.inj h
        by_cases he : e = .EINTR
        · subst he
          exact .interrupt hpc
        · rw [if_neg he]
          exact .fail rfl
      | ok u =>
        obtain rfl := Option.some.inj h
        exact .wait hpc
    · cases h
  | send result =>
    simp only [step] at h
    split at h
    · rename_i p hpc
      cases result with
      | error e =>
        obtain rfl := Option.some.inj h
        exact .fail rfl
      | ok u =>
        simp only at h
        split_ifs at h with hfd
        obtain rfl := Option.some.inj h
        exact .send hpc hfd
    · cases h
  | post =>
    simp only [step] at h
    split at h
    · rename_i p hpc
      obtain rfl := Option.some.inj h
      exact .post hpc
    · cases h
  | signal =>
    obtain rfl := Option.some.inj h
    exact .signal

def sending (s : Parent M) : Option ℤ :=
  match s.pc with
  | .sendMsg p => some (s.client p).fd
  | _ => none

def RemovalEntered (s : Parent M) (p : Fin M) : Prop :=
  s.pc = .sweep p ∧ (s.client p).revents ≠ POLLIN ∧ (s.client p).revents.hangup = true

instance (s : Parent M) (p : Fin M) : Decidable (s.RemovalEntered p) :=
  inferInstanceAs (Decidable (_ ∧ _))

def machine [NeZero M] : Machine (Parent M) (ParentEvent M) := ⟨step⟩

end Parent

structure Dispatch (M : ℕ) where
  parent : Parent M
  outstanding : Multiset ℤ

namespace Dispatch

def initial (listenFd pipeFd : ℤ) (others : ℤ → Bool) : Dispatch M where
  parent := .initial listenFd pipeFd others
  outstanding := 0

def transit (s : Dispatch M) : ParentEvent M → Multiset ℤ
  | .send (.ok ()) => s.outstanding + Multiset.ofList s.parent.sending.toList
  | .read (.ok number) => s.outstanding.erase number
  | _ => s.outstanding

def machine [NeZero M] : Machine (Dispatch M) (ParentEvent M) where
  step s e := (s.parent.step e).map fun p => { parent := p, outstanding := s.transit e }

end Dispatch

end ScalableServer.ProcessServer
