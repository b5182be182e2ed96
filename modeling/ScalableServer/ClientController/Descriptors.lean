import ScalableServer.AnnouncedLengths
import ScalableServer.ClientController.ConnectionList
import ScalableServer.Foundations.Descriptors
import ScalableServer.ParsePort

namespace ScalableServer.ClientController

open ScalableServer.Foundations ScalableServer.Core

structure InitStateParams where
  listenPort : CString
  serverIp : Option CString
  serverPort : CString
  dataFileName : Option CString

/-- The calls of `init_state`: `dataFd` is the descriptor of the stream that `fopen` gives. -/
structure InitCalls where
  load : Client.LoadCalls := {}
  dataFd : ℤ
  stSize : ℕ
  contents : List UInt8
  socket : Except Errno ℤ
  bind : Bool := true
  listen : Bool := true

structure Controller where
  state : State
  listenFd : ℤ := 0

def zeroState : State where
  serverIp := []
  serverPort := 0
  acceptedFds _ := 0
  numConns := 0
  data := []
  dataSize := 0

def validateParams (params : InitStateParams) : ℤ :=
  if params.serverIp = none then -1 else if params.dataFileName = none then -1 else 0

def dataFileEvents (h : Host) (calls : InitCalls) : List FdEvent :=
  if calls.load.stat && h.alloc calls.stSize && calls.load.fopen then
    [.opened calls.dataFd, .closed calls.dataFd]
  else []

/-- `init_addr_any` cannot fail, and the result of `setsockopt` is not looked at. -/
def startListen (calls : InitCalls) (s : State) : ℤ × Controller × List FdEvent :=
  match calls.socket with
  | .error _ => (-1, { state := s }, [])
  | .ok fd =>
    (if calls.bind = false then -1 else if calls.listen = false then -1 else 0,
      { state := s, listenFd := fd }, [.opened fd])

def initState (h : Host) (inetAddr : List UInt8 → Option ℕ) (params : InitStateParams)
    (calls : InitCalls) (c : Controller) : ℤ × Controller × List FdEvent :=
  if validateParams params = -1 then (-1, c, [])
  else
    let ip := (params.serverIp.map CString.bytes).getD []
    let s := { zeroState with serverIp := ip }
    if (parsePort 0 params.listenPort).1 = -1 then (-1, { state := s }, [])
    else
      let (r, serverPort) := parsePort 0 params.serverPort
      let s := { s with serverPort }
      if r = -1 then (-1, { state := s }, [])
      else if (Client.initAddr inetAddr ip serverPort).isNone then (-1, { state := s }, [])
      else
        let (r, s) := loadData h calls.load calls.stSize calls.contents s
        if r = -1 then (-1, { state := s }, dataFileEvents h calls)
        else
          let (r, c, events) := startListen calls s
          (r, c, dataFileEvents h calls ++ events)

def acceptEvents (p : Pass) (l : Loop) : List FdEvent :=
  if (pollFds p l).revents.1 then p.accept.toOption.toList.map .opened else []

def loopEvents (h : Host) : List Pass → Loop → World → List FdEvent
  | [], _, _ => []
  | p :: ps, l, w =>
    if l.exit || p.quit then []
    else acceptEvents p l ++ ((handlePass h p l w).elim [] fun (l, w) => loopEvents h ps l w)

def destroyEvents (c : Controller) : List FdEvent :=
  (if c.listenFd ≠ 0 then [.closed c.listenFd] else []) ++ c.state.fds.map .closed

/-- `run` of `main.c` with `init_state` before it: the exit status, and every descriptor that is
opened and closed on the way. -/
def runMain (h : Host) (inetAddr : List UInt8 → Option ℕ) (params : InitStateParams)
    (calls : InitCalls) (c : Controller) (passes : List Pass) (result : ℤ) (revents : Bool × Bool)
    (w : World) : Option (Bool × List FdEvent) :=
  let (r, c, events) := initState h inetAddr params calls c
  if r = -1 then some (true, events)
  else
    (run h passes result revents c.state w).map fun (r, s, _) =>
      (r, events ++ loopEvents h passes { result, revents, state := c.state } w ++
        destroyEvents { c with state := s })

variable {h : Host} {inetAddr : List UInt8 → Option ℕ} {params : InitStateParams}
  {calls : InitCalls} {c : Controller} {p : Pass} {passes : List Pass} {l l' : Loop} {s s' : State}
  {w w' : World} {result : ℤ} {revents : Bool × Bool} {fds : List ℤ} {fd : ℤ}

lemma dataFileEvents_closesAll (h : Host) (calls : InitCalls) :
    ClosesAll (dataFileEvents h calls) := by
  rw [dataFileEvents]
  split_ifs
  · exact ledger_perm (.refl [calls.dataFd])
  · rfl

inductive Initialised (h : Host) (calls : InitCalls) : ℤ × Controller × List FdEvent → Prop
  | failed {c : Controller} {events : List FdEvent} (hclosed : ClosesAll events) :
      Initialised h calls (-1, c, events)
  | unbound {c : Controller} {fd : ℤ} (hsocket : calls.socket = .ok fd)
      (hcall : calls.bind = false ∨ calls.listen = false) :
      Initialised h calls (-1, c, dataFileEvents h calls ++ [.opened fd])
  | listening {s : State} {fd : ℤ} (hsocket : calls.socket = .ok fd) (hconns : s.numConns = 0) :
      Initialised h calls (0, ⟨s, fd⟩, dataFileEvents h calls ++ [.opened fd])

lemma loadData_numConns (stSize : ℕ) (contents : List UInt8) (load : Client.LoadCalls) :
    (loadData h load stSize contents s).2.numConns = s.numConns := by
  rw [loadData]
  split_ifs <;> rfl

lemma startListen_initialised (h : Host) (hconns : s.numConns = 0) :
    Initialised h calls ((startListen calls s).1, (startListen calls s).2.1,
      dataFileEvents h calls ++ (startListen calls s).2.2) := by
  rw [startListen]
  cases hsocket : calls.socket with
  | error e =>
    simp only [List.append_nil]
    exact .failed (dataFileEvents_closesAll h calls)
  | ok fd =>
    simp only
    split_ifs with hbind hlisten
    · exact .unbound hsocket (.inl hbind)
    · exact .unbound hsocket (.inr hlisten)
    · exact .listening hsocket hconns

lemma initState_initialised (h : Host) (inetAddr : List UInt8 → Option ℕ) (params : InitStateParams)
    (calls : InitCalls) (c : Controller) :
    Initialised h calls (initState h inetAddr params calls c) := by
  simp only [initState]
  split_ifs
  · exact .failed rfl
  · exact .failed rfl
  · exact .failed rfl
  · exact .failed rfl
  · exact .failed (dataFileEvents_closesAll h calls)
  · exact startListen_initialised h (loadData_numConns calls.stSize calls.contents calls.load)

lemma handlePass_accepts (hpass : handlePass h p l w = some (l', w'))
    (hroom : l.state.numConns + (acceptEvents p l).length ≤ MAX_CONNS) :
    ∃ fds : List ℤ, acceptEvents p l = fds.map .opened ∧ l'.state.fds = l.state.fds ++ fds ∧
      l'.state.numConns = l.state.numConns + fds.length := by
  obtain ⟨hcount, hfds⟩ := handlePass_list hpass
  simp only [acceptEvents] at hroom ⊢
  split_ifs at hcount hfds hroom ⊢
  · cases haccept : p.accept with
    | error e =>
      rw [haccept] at hcount hfds
      exact ⟨[], rfl, hfds.trans (List.append_nil _).symm, hcount⟩
    | ok fd =>
      rw [haccept] at hcount hfds hroom
      obtain ⟨hcount', hfds'⟩ := @handleAccept_room l.state fd hroom
      exact ⟨[fd], rfl, hfds.trans hfds', hcount.trans hcount'⟩
  · exact ⟨[], rfl, hfds.trans (List.append_nil _).symm, hcount⟩

lemma handleLoop_accepts (hrun : handleLoop h passes l w = some (l', w'))
    (hroom : l.state.numConns + (loopEvents h passes l w).length ≤ MAX_CONNS) :
    ∃ fds : List ℤ, loopEvents h passes l w = fds.map .opened ∧
      l'.state.fds = l.state.fds ++ fds := by
  induction passes generalizing l w with
  | nil =>
    rw [handleLoop] at hrun
    split_ifs at hrun
    obtain ⟨rfl, -⟩ := Prod.mk.inj (Option.some.inj hrun)
    exact ⟨[], rfl, (List.append_nil _).symm⟩
  | cons p ps ih =>
    rw [handleLoop] at hrun
    rw [loopEvents] at hroom ⊢
    split_ifs at hrun hroom ⊢
    · obtain ⟨rfl, -⟩ := Prod.mk.inj (Option.some.inj hrun)
      exact ⟨[], rfl, (List.append_nil _).symm⟩
    · obtain ⟨⟨l₁, w₁⟩, hpass, hrest⟩ := Option.bind_eq_some_iff.mp hrun
      simp only [hpass, Option.elim_some, List.length_append] at hroom ⊢
      obtain ⟨fds, hevents, hfds, hcount⟩ := handlePass_accepts hpass (by omega)
      have hlen : (acceptEvents p l).length = fds.length := by rw [hevents, List.length_map]
      obtain ⟨more, hmore, hmoreFds⟩ := ih hrest (by omega)
      refine ⟨fds ++ more, ?_, ?_⟩
      · rw [hevents, hmore, List.map_append]
      · rw [hmoreFds, hfds, List.append_assoc]

lemma run_accepts {failed : Bool} (hrun : run h passes result revents s w = some (failed, s', w'))
    (hconns : s.numConns = 0)
    (hroom : (loopEvents h passes { result, revents, state := s } w).length ≤ MAX_CONNS) :
    ∃ fds : List ℤ, loopEvents h passes { result, revents, state := s } w = fds.map .opened ∧
      s'.fds = fds := by
  obtain ⟨l', w₁, r, hloop, hdestroy⟩ := run_some hrun
  obtain ⟨fds, hevents, hfds⟩ := handleLoop_accepts hloop (by rw [hconns]; omega)
  refine ⟨fds, hevents, ?_⟩
  rw [destroyState_fds hdestroy, hfds]
  simp [State.fds, hconns]

lemma ledger_destroyed (fds : List ℤ) (c : Controller) (hfds : c.state.fds = fds) :
    ledger [] ([.opened c.listenFd] ++ fds.map .opened ++ destroyEvents c) =
      some (if c.listenFd = 0 then [0] else []) := by
  have hopened : ledger [] ([.opened c.listenFd] ++ fds.map .opened) =
      some (fds.reverse ++ [c.listenFd]) := @ledger_opened [c.listenFd] fds
  rw [ledger_append, hopened, Option.bind_some, destroyEvents, hfds]
  by_cases hzero : c.listenFd = 0
  · rw [if_neg (not_not.mpr hzero), if_pos hzero, hzero]
    exact ledger_frame [0] (ledger_perm fds.reverse_perm)
  · rw [if_pos hzero, if_neg hzero]
    exact ledger_perm
      ((List.perm_append_singleton c.listenFd fds.reverse).trans (fds.reverse_perm.cons c.listenFd))

theorem controller_descriptors (h : Host) (inetAddr : List UInt8 → Option ℕ)
    (params : InitStateParams) (calls : InitCalls) (c : Controller) (passes : List Pass)
    (result : ℤ) (revents : Bool × Bool) (w : World) (status : Bool) (events : List FdEvent)
    (hrun : runMain h inetAddr params calls c passes result revents w = some (status, events)) :
    let init := initState h inetAddr params calls c
    (init.1 = -1 → status = true ∧ (ClosesAll events ∨
      ∃ fd, calls.socket = .ok fd ∧ (calls.bind = false ∨ calls.listen = false) ∧
        ledger [] events = some [fd])) ∧
    (init.1 ≠ -1 → calls.socket = .ok init.2.1.listenFd ∧
      ((loopEvents h passes { result, revents, state := init.2.1.state } w).length ≤ MAX_CONNS →
        ledger [] events = some (if init.2.1.listenFd = 0 then [0] else []))) := by
  intro init
  have hinit : Initialised h calls init := initState_initialised h inetAddr params calls c
  have hmain : (if init.1 = -1 then some (true, init.2.2) else
      (run h passes result revents init.2.1.state w).map fun (r, s, _) =>
        (r, init.2.2 ++ loopEvents h passes { result, revents, state := init.2.1.state } w ++
          destroyEvents { init.2.1 with state := s })) = some (status, events) := hrun
  clear_value init
  have hdata := dataFileEvents_closesAll h calls
  cases hinit with
  | failed hclosed =>
    obtain ⟨rfl, rfl⟩ := Prod.mk.inj (Option.some.inj hmain)
    exact ⟨fun _ => ⟨rfl, .inl hclosed⟩, fun hne => absurd rfl hne⟩
  | unbound hsocket hcall =>
    obtain ⟨rfl, rfl⟩ := Prod.mk.inj (Option.some.inj hmain)
    refine ⟨fun _ => ⟨rfl, .inr ⟨_, hsocket, hcall, ?_⟩⟩, fun hne => absurd rfl hne⟩
    rw [ledger_append, hdata]
    rfl
  | @listening s fd hsocket hconns =>
    have hzero : (0 : ℤ) ≠ -1 := by decide
    refine ⟨fun he => absurd he hzero, fun _ => ⟨hsocket, fun hroom => ?_⟩⟩
    rw [if_neg hzero] at hmain
    obtain ⟨⟨r, t, w'⟩, hloop, he⟩ := Option.map_eq_some_iff.mp hmain
    obtain ⟨-, rfl⟩ := Prod.mk.inj he
    obtain ⟨fds, hopened, hfds⟩ := run_accepts hloop hconns hroom
    rw [List.append_assoc, List.append_assoc, ledger_append, hdata, Option.bind_some,
      ← List.append_assoc, hopened]
    exact ledger_destroyed fds ⟨t, fd⟩ hfds

theorem controller_descriptors_two_clients :
    let ip : CString := ⟨[49, 46, 50], by decide⟩
    let port : CString := ⟨[53, 48, 48, 48], by decide⟩
    let params : InitStateParams := ⟨port, some ip, port, some ip⟩
    let calls : InitCalls := { dataFd := 3, stSize := 2, contents := [7, 8], socket := .ok 3 }
    let passes : List Pass := [{ poll := .ok (true, false), accept := .ok 4 },
      { poll := .ok (true, false), accept := .ok 5 }, { quit := true, poll := .ok (false, false) }]
    let events : List FdEvent := [.opened 3, .closed 3, .opened 3, .opened 4, .opened 5, .closed 3,
      .closed 4, .closed 5]
    runMain oneHost (fun _ => some 9) params calls ⟨emptyState, 0⟩ passes 0 (false, false)
      quietWorld = some (false, events) ∧ ClosesAll events := by
  intro ip port params calls passes events
  have hrun : runMain oneHost (fun _ => some 9) params calls ⟨emptyState, 0⟩ passes 0 (false, false)
      quietWorld = some (false, events) := by decide
  refine ⟨hrun, ?_⟩
  obtain ⟨-, hall⟩ := controller_descriptors oneHost (fun _ => some 9) params calls ⟨emptyState, 0⟩
    passes 0 (false, false) quietWorld false events hrun
  obtain ⟨-, hclosed⟩ := hall (by decide)
  exact hclosed (by decide)

end ScalableServer.ClientController
