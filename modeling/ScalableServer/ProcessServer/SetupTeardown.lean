import ScalableServer.Core.RunCore
import ScalableServer.ProcessServer.Objects
import Mathlib.Data.List.FinRange

/-! `setup_process_server` and `destroy_process_state`, in the process that runs them. `Kernel` is
what their calls do outside the memory of that process: the named semaphores, which outlive it, the
children, and the numbers that have been given to `close`. A call of `calls` that gives `false` or an
error has failed. `waitpid` returns when the child has ended, as `ends` tells. -/

namespace ScalableServer.ProcessServer

open ScalableServer.Foundations ScalableServer.Core

inductive SemName
  | pipeWrite
  | domainRead
  | domainWrite
  | log
  deriving DecidableEq, Repr

structure Kernel where
  sems : SemName → Option ℕ
  forked : List ℤ := []
  signalled : List ℤ := []
  reaped : List ℤ := []
  closed : List ℤ := []

namespace Kernel

/-- `sem_open(name, O_CREAT, .., value)`: the value is that of a semaphore which does not exist
yet. -/
def semOpen (granted : Bool) (name : SemName) (value : ℕ) (k : Kernel) : Kernel :=
  if granted = true ∧ k.sems name = none then
    { k with sems := Function.update k.sems name (some value) }
  else k

def semUnlink (name : SemName) (k : Kernel) : Kernel :=
  { k with sems := Function.update k.sems name none }

def unlinkAll (k : Kernel) : Kernel :=
  (((k.semUnlink .pipeWrite).semUnlink .domainRead).semUnlink .domainWrite).semUnlink .log

def closeFdReportUndefinedError (fd : ℤ) (k : Kernel) : Kernel :=
  { k with closed := k.closed ++ [fd] }

def kill (pid : ℤ) (k : Kernel) : Kernel := { k with signalled := k.signalled ++ [pid] }

def waitpid (ends : ℤ → Bool) (k : Kernel) (pid : ℤ) : Option Kernel :=
  if ends pid = true then some { k with reaped := k.reaped ++ [pid] } else none

def openSemaphores (granted : SemName → Bool) (k : Kernel) : ℤ × Kernel :=
  let k := k.semOpen (granted .pipeWrite) .pipeWrite 1
  let k := k.semOpen (granted .domainRead) .domainRead 0
  let k := k.semOpen (granted .domainWrite) .domainWrite 1
  let k := k.semOpen (granted .log) .log 1
  if granted .pipeWrite = false ∨ granted .domainRead = false ∨ granted .domainWrite = false ∨
      granted .log = false then (-1, k.unlinkAll)
  else (0, k)

end Kernel

/-- A pair of descriptors is that of READ and that of WRITE. -/
structure StateObject (M N : ℕ) where
  childPids : Fin N → ℤ := fun _ => 0
  domainFds : ℤ × ℤ := (0, 0)
  cToPPipeFds : ℤ × ℤ := (0, 0)
  parent : Option (ParentStruct M) := none
  child : Option ChildStruct := none

/-- `pid` is what the variable of `fork_child_processes` holds before the loop. -/
structure SetupCalls (N : ℕ) where
  callocState : Bool := true
  pipe : Except Errno (ℤ × ℤ)
  semOpen : SemName → Bool := fun _ => true
  socketpair : Except Errno (ℤ × ℤ)
  pid : ℤ := 0
  fork : Fin N → Except Errno ℤ
  callocChild : Bool := true
  callocParent : Bool := true
  socket : Except Errno ℤ
  bind : Bool := true
  listen : Bool := true

structure CoreObject (M N : ℕ) where
  so : Option (StateObject M N) := none
  kernel : Kernel

structure Setup (M N : ℕ) where
  so : StateObject M N
  kernel : Kernel

variable {M N : ℕ}

def Setup.core (s : Setup M N) : CoreObject M N := ⟨some s.so, s.kernel⟩

def openPipeSemaphoresDomainSockets (calls : SetupCalls N) (s : Setup M N) : ℤ × Setup M N :=
  match calls.pipe with
  | .error _ => (-1, s)
  | .ok pipeFds =>
    let s := { s with so := { s.so with cToPPipeFds := pipeFds } }
    let (r, k) := s.kernel.openSemaphores calls.semOpen
    if r = -1 then (-1, { s with kernel := k })
    else
      match calls.socketpair with
      | .error _ => (-1, { s with kernel := k })
      | .ok domainFds => (0, { so := { s.so with domainFds := domainFds }, kernel := k })

def cSetupChild (calls : SetupCalls N) (s : Setup M N) : ℤ × Setup M N :=
  if calls.callocChild = false then (-1, { s with so := { s.so with parent := none, child := none } })
  else
    (0, { so :=
            { s.so with
              parent := none
              child := some {}
              cToPPipeFds := (0, s.so.cToPPipeFds.2)
              domainFds := (s.so.domainFds.1, 0) }
          kernel := (s.kernel.closeFdReportUndefinedError s.so.cToPPipeFds.1
            ).closeFdReportUndefinedError s.so.domainFds.2 })

def pOpenProcessServerForListen (calls : SetupCalls N) (parent : ParentStruct M) (k : Kernel) :
    ℤ × ParentStruct M × Kernel :=
  match calls.socket with
  | .error _ => (-1, parent, k)
  | .ok fd =>
    if calls.bind = false then (-1, parent, k.closeFdReportUndefinedError fd)
    else if calls.listen = false then (-1, parent, k.closeFdReportUndefinedError fd)
    else
      (0, { parent with pollfds :=
            { parent.pollfds with listen := { parent.pollfds.listen with fd := fd, events := POLLIN } } },
        k)

def callocParentStruct : ParentStruct M where
  pollfds := { listen := {}, pipe := {}, client := fun _ => {} }
  clientAddrs _ := {}
  numConnections := 0

def pSetupParent (calls : SetupCalls N) (s : Setup M N) : ℤ × Setup M N :=
  if calls.callocParent = false then (-1, { s with so := { s.so with parent := none } })
  else
    let k := (s.kernel.closeFdReportUndefinedError s.so.cToPPipeFds.2
      ).closeFdReportUndefinedError s.so.domainFds.1
    let so :=
      { s.so with
        child := none
        cToPPipeFds := (s.so.cToPPipeFds.1, 0)
        domainFds := (0, s.so.domainFds.2) }
    match pOpenProcessServerForListen calls callocParentStruct k with
    | (-1, parent, k) => (-1, { so := { so with parent := some parent }, kernel := k })
    | (_, parent, k) =>
      let pollfds :=
        { parent.pollfds with
          pipe := { parent.pollfds.pipe with fd := so.cToPPipeFds.1, events := POLLIN } }
      (0, { so := { so with parent := some { parent with pollfds := pollfds } }, kernel := k })

/-- The fork as the parent sees it, or as the child does, where it gives 0. -/
def recordFork (c : Fin N) (pid : ℤ) (s : Setup M N) : Setup M N where
  so := { s.so with childPids := Function.update s.so.childPids c pid }
  kernel := if pid = 0 then s.kernel else { s.kernel with forked := s.kernel.forked ++ [pid] }

def forkLoop (calls : SetupCalls N) :
    List (Fin N) → ℤ → Setup M N → Except (Setup M N) (ℤ × Setup M N)
  | [], pid, s => .ok (pid, s)
  | c :: cs, _, s =>
    match calls.fork c with
    | .error _ => .error s
    | .ok pid =>
      let s := recordFork c pid s
      if pid = 0 then
        let (r, s) := cSetupChild calls s
        if r = -1 then .error s else .ok (pid, s)
      else forkLoop calls cs pid s

def forkChildProcesses (calls : SetupCalls N) (s : Setup M N) : ℤ × Setup M N :=
  let s := { s with so := { s.so with childPids := fun _ => 0 } }
  match forkLoop calls (List.finRange N) calls.pid s with
  | .error s => (-1, s)
  | .ok (pid, s) =>
    if 0 < pid then
      let (r, s) := pSetupParent calls s
      (if r = -1 then -1 else 0, s)
    else (0, s)

def setupProcessServer (calls : SetupCalls N) (co : CoreObject M N) : ℤ × CoreObject M N :=
  if calls.callocState = false then (-1, co)
  else
    let (r, s) := openPipeSemaphoresDomainSockets calls { so := {}, kernel := co.kernel }
    if r = -1 then (-1, s.core)
    else
      let (r, s) := forkChildProcesses calls s
      (if r = -1 then -1 else 0, s.core)

def pidList (so : StateObject M N) : List ℤ := (List.finRange N).map so.childPids

/-- What `close` is called on: entry 1 of the array is the read end of the pipe. -/
def closedFds (so : StateObject M N) (parent : ParentStruct M) : List ℤ :=
  [so.cToPPipeFds.1, so.domainFds.2, parent.pollfds.listen.fd, parent.pollfds.pipe.fd] ++
    (List.finRange M).map fun p => (parent.pollfds.client p).fd

def pDestroyParentState (ends : ℤ → Bool) (so : StateObject M N) (parent : ParentStruct M)
    (k : Kernel) : Option Kernel :=
  let k := (pidList so).foldl (fun k pid => k.kill pid) k
  ((pidList so).foldlM (Kernel.waitpid ends) k).map fun k =>
    ((closedFds so parent).foldl (fun k fd => k.closeFdReportUndefinedError fd) k).unlinkAll

lemma Kernel.unlinkAll_eq (k : Kernel) : k.unlinkAll = { k with sems := fun _ => none } := by
  have hsems : k.unlinkAll.sems = fun _ => none := by
    funext name
    cases name <;> rfl
  change ({ k with sems := k.unlinkAll.sems } : Kernel) = _
  rw [hsems]

lemma foldl_kill (pids : List ℤ) (k : Kernel) : pids.foldl (fun k pid => k.kill pid) k =
    { k with signalled := k.signalled ++ pids } := by
  induction pids generalizing k with
  | nil => rw [List.foldl_nil, List.append_nil]
  | cons pid pids ih =>
    rw [List.foldl_cons, ih]
    simp [Kernel.kill]

lemma foldl_close (fds : List ℤ) (k : Kernel) :
    fds.foldl (fun k fd => k.closeFdReportUndefinedError fd) k =
      { k with closed := k.closed ++ fds } := by
  induction fds generalizing k with
  | nil => rw [List.foldl_nil, List.append_nil]
  | cons fd fds ih =>
    rw [List.foldl_cons, ih]
    simp [Kernel.closeFdReportUndefinedError]

lemma foldlM_waitpid (ends : ℤ → Bool) (pids : List ℤ) (k : Kernel) :
    pids.foldlM (Kernel.waitpid ends) k =
      if ∀ pid ∈ pids, ends pid = true then some { k with reaped := k.reaped ++ pids }
      else none := by
  induction pids generalizing k with
  | nil => simp
  | cons pid pids ih =>
    rw [List.foldlM_cons, Kernel.waitpid]
    by_cases hends : ends pid = true
    · rw [if_pos hends]
      simp [ih, hends]
    · rw [if_neg hends, if_neg fun hall => hends (hall pid List.mem_cons_self)]
      rfl

lemma pDestroyParentState_eq (ends : ℤ → Bool) (so : StateObject M N) (parent : ParentStruct M)
    (k : Kernel) : pDestroyParentState ends so parent k =
      if ∀ pid ∈ pidList so, ends pid = true then
        some { k with
          sems := fun _ => none
          signalled := k.signalled ++ pidList so
          reaped := k.reaped ++ pidList so
          closed := k.closed ++ closedFds so parent }
      else none := by
  simp only [pDestroyParentState, foldl_kill, foldlM_waitpid, foldl_close, Kernel.unlinkAll_eq]
  split_ifs <;> rfl

def cDestroyChildState (so : StateObject M N) (k : Kernel) : Kernel :=
  (k.closeFdReportUndefinedError so.cToPPipeFds.2).closeFdReportUndefinedError so.domainFds.1

/-- A state object that has not been allocated is read from all the same. -/
def destroyProcessState (ends : ℤ → Bool) (co : CoreObject M N) : Option (CoreObject M N) :=
  match co.so with
  | none => none
  | some so =>
    match so.parent with
    | some parent => (pDestroyParentState ends so parent co.kernel).map fun k => ⟨some so, k⟩
    | none =>
      match so.child with
      | some _ => some ⟨some so, cDestroyChildState so co.kernel⟩
      | none => some co

def setupApi (calls : SetupCalls N) (ends : ℤ → Bool)
    (run : CoreObject M N → Option (ServerStates × CoreObject M N)) : Api (CoreObject M N) where
  initializeServer co :=
    let (r, co) := setupProcessServer calls co
    some (if r = -1 then .error else .runServer, co)
  runServer := run
  closeServer co := (destroyProcessState ends co).map fun co => (.exit, co)

end ScalableServer.ProcessServer
