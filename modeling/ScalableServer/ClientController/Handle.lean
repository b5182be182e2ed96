import ScalableServer.ClientController.Connection
import ScalableServer.Foundations.CStrings
import ScalableServer.Foundations.Transitions

/-! A `Pass` is what the calls of one pass of the loop of `handle` give: whether SIGINT has come,
what `poll` reports, what `accept` and `read` return, and what the uninitialised buffer that `read`
fills holds before. The fields `revents` keep their values when `poll` fails. -/

namespace ScalableServer.ClientController

open ScalableServer.Foundations ScalableServer.Core

def ERROR : ℤ := -1

def SUCCESS : ℤ := 0

def STARTED : ℤ := 1

def MAX_CONNS : ℕ := 500

def LINE_MAX : ℕ := 2048

def START_COMMAND : List UInt8 := ['s', 't', 'a', 'r', 't'].map fun c => c.toNat.toUInt8

def newlines : List UInt8 := [10, 13]

structure Pass where
  quit : Bool := false
  poll : Except Errno (Bool × Bool)
  accept : Except Errno ℤ := .error .EINTR
  read : Except Errno (List UInt8) := .error .EINTR
  prior : List UInt8 := List.replicate LINE_MAX 0

structure Loop where
  exit : Bool := false
  result : ℤ
  revents : Bool × Bool
  state : State

def pollFds (p : Pass) (l : Loop) : Loop :=
  match p.poll with
  | .error e => { l with result := ERROR, exit := l.exit || e ≠ .EINTR }
  | .ok revents => { l with result := revents.1.toNat + revents.2.toNat, revents := revents }

/-- The descriptor is stored before the number of connections is compared. -/
def handleAccept (accept : Except Errno ℤ) (s : State) : ℤ × State :=
  match accept with
  | .error _ => (ERROR, s)
  | .ok fd =>
    let s := { s with acceptedFds := Function.update s.acceptedFds s.numConns fd }
    if MAX_CONNS ≤ s.numConns then (ERROR, s)
    else (SUCCESS, { s with numConns := s.numConns + 1 })

def readInto (prior bs : List UInt8) : List UInt8 := bs ++ prior.drop bs.length

/-- `strcmp` with the command after `buff[strcspn(buff, "\n\r")] = 0`, or `none` where that runs past
the buffer. -/
def startsOn (prior bs : List UInt8) : Option Bool :=
  let buff := readInto prior bs
  (strcspn newlines buff).bind fun i => strcmp (buff.set i 0) (START_COMMAND ++ [0])

def startClients (h : Host) (s : State) (w : World) : Option (ℤ × State × World) :=
  match sendStart h s w with
  | none => none
  | some (r, s, w) =>
    if r = -1 then some (ERROR, s, w)
    else (sendData h s w).map fun (r, w) => (if r ≠ 0 then ERROR else STARTED, s, w)

/-- A buffer without an end has no NUL where the command has its own, and so is another line. The NUL
that the source then stores behind it is left out. -/
def handleStdin (h : Host) (prior : List UInt8) (read : Except Errno (List UInt8)) (s : State)
    (w : World) : Option (ℤ × State × World) :=
  match read with
  | .error _ => some (ERROR, s, w)
  | .ok bs => if startsOn prior bs = some true then startClients h s w else some (SUCCESS, s, w)

def listenReady (p : Pass) (l : Loop) : Loop :=
  if l.revents.1 then
    let (result, s) := handleAccept p.accept l.state
    { exit := result = ERROR, result, revents := (false, l.revents.2), state := s }
  else l

def Loop.afterStdin (result : ℤ) (s : State) (l : Loop) : Loop where
  exit := l.exit || result = STARTED || result = ERROR
  result := if result = STARTED then SUCCESS else result
  revents := (l.revents.1, false)
  state := s

def stdinReady (h : Host) (p : Pass) (l : Loop) (w : World) : Option (Loop × World) :=
  if l.revents.2 then
    (handleStdin h p.prior p.read l.state w).map fun (result, s, w) => (l.afterStdin result s, w)
  else some (l, w)

def handlePass (h : Host) (p : Pass) (l : Loop) (w : World) : Option (Loop × World) :=
  stdinReady h p (listenReady p (pollFds p l)) w

def handleLoop (h : Host) : List Pass → Loop → World → Option (Loop × World)
  | [], l, w => if l.exit then some (l, w) else none
  | p :: ps, l, w =>
    if l.exit || p.quit then some (l, w)
    else (handlePass h p l w).bind fun (l, w) => handleLoop h ps l w

def passMachine (h : Host) : Machine (Loop × World) Pass where
  step s p := if s.1.exit || p.quit then none else handlePass h p s.1 s.2

/-- `result` and `revents` are what the uninitialised variables hold. -/
def handle (h : Host) (passes : List Pass) (result : ℤ) (revents : Bool × Bool) (s : State)
    (w : World) : Option (ℤ × State × World) :=
  (handleLoop h passes { result, revents, state := s } w).map fun (l, w) => (l.result, l.state, w)

/-- The results of `close` are compared after they have become truth values, so they never make
`error` -1. -/
def destroyState (h : Host) (s : State) (w : World) : Option (ℤ × State × World) :=
  if s.started = true then sendStop h s w else some (0, s, w)

def run (h : Host) (passes : List Pass) (result : ℤ) (revents : Bool × Bool) (s : State)
    (w : World) : Option (Bool × State × World) :=
  match handle h passes result revents s w with
  | none => none
  | some (handleResult, s, w) =>
    (destroyState h s w).map fun (destroyResult, s, w) =>
      (handleResult ≠ 0 || destroyResult ≠ 0, s, w)

def Pass.accepted (p : Pass) : Option ℤ := p.accept.toOption

def State.fds (s : State) : List ℤ := (List.range s.numConns).map s.acceptedFds

variable {h : Host} {p : Pass} {passes : List Pass} {l l' : Loop} {s : State} {w w' : World}

lemma passMachine_step (hstep : (passMachine h).step (l, w) p = some (l', w')) :
    (l.exit || p.quit) = false ∧ handlePass h p l w = some (l', w') := by
  simp only [passMachine] at hstep
  split_ifs at hstep with hend
  exact ⟨Bool.of_not_eq_true hend, hstep⟩

lemma handleLoop_run (hrun : handleLoop h passes l w = some (l', w')) :
    ∃ done rest, passes = done ++ rest ∧ (passMachine h).run done (l, w) = some (l', w') := by
  induction passes generalizing l w with
  | nil =>
    rw [handleLoop] at hrun
    split_ifs at hrun with hexit
    obtain ⟨rfl, rfl⟩ := Prod.mk.inj (Option.some.inj hrun)
    exact ⟨[], [], rfl, rfl⟩
  | cons p ps ih =>
    rw [handleLoop] at hrun
    split_ifs at hrun with hend
    · obtain ⟨rfl, rfl⟩ := Prod.mk.inj (Option.some.inj hrun)
      exact ⟨[], p :: ps, rfl, rfl⟩
    · obtain ⟨⟨l₁, w₁⟩, hpass, hrest⟩ := Option.bind_eq_some_iff.mp hrun
      obtain ⟨done, rest, rfl, hdone⟩ := ih hrest
      refine ⟨p :: done, rest, rfl, Option.bind_eq_some_iff.mpr ⟨(l₁, w₁), ?_, hdone⟩⟩
      change (if l.exit || p.quit then none else handlePass h p l w) = _
      rw [if_neg hend, hpass]

lemma handleAccept_fds (accept : Except Errno ℤ) (s : State) :
    ((handleAccept accept s).2.fds = s.fds ∨
      ∃ fd, accept = .ok fd ∧ (handleAccept accept s).2.fds = s.fds ++ [fd]) := by
  cases accept with
  | error e => exact .inl rfl
  | ok fd =>
    have hkept : (List.range s.numConns).map (Function.update s.acceptedFds s.numConns fd) =
        s.fds := by
      refine List.map_congr_left fun i hi => ?_
      rw [Function.update_of_ne (List.mem_range.mp hi).ne]
    rw [handleAccept]
    split_ifs
    · exact .inl hkept
    · refine .inr ⟨fd, rfl, ?_⟩
      rw [State.fds, List.range_succ, List.map_append, hkept]
      simp

end ScalableServer.ClientController
