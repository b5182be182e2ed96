import ScalableServer.ProcessServer.ChildReceive
import ScalableServer.ProcessServer.Parent
import Mathlib.Algebra.BigOperators.Fin

/-! The process server as a whole: the parent, `N` children and what they share. A child runs
between its calls; each of its steps is a return of a call, with the `Action` that the call has on
the shared objects, and a step is possible when that action is. `conns` are the connections, which
the processes share through their descriptors, numbered in the order in which they are accepted.

`number`s travel from the parent to a child with a message and back in the pipe. `socklen` is the
indeterminate content of the variable that a child gives to `getpeername`. -/

namespace ScalableServer.ProcessServer

open ScalableServer.Foundations ScalableServer.Core

variable {M N : ℕ}

structure Message where
  number : ℤ
  descriptor : Descriptor
  deriving DecidableEq, Repr

inductive ChildPc
  | head
  | waitRead
  | recvMsg
  | postWrite (received : Bool)
  | peerName
  | header
  | payload (bytesToRead bytesRead bytes : ℕ) (buffer : Buffer)
  | waitPipe (bytesRead : ℕ)
  | writePipe (bytesRead : ℕ)
  | waitLog (bytesRead : ℕ)
  | postLog (bytesRead : ℕ)
  | reply (bytesRead : ℕ)
  | close
  | returned (ret : ℤ)
  deriving DecidableEq

structure Child where
  pc : ChildPc := .head
  gogo : Bool := true
  errno : Option Errno := none
  child : ChildStruct := {}
  socklen : ℕ := sizeofSockAddr
  fds : ℤ → Option Descriptor

inductive ChildEvent
  | run (prior : ℕ) (t : Timing)
  | ok
  | received (m : Message) (fd : ℤ) (socklen : ℕ := sizeofSockAddr)
  | fail (e : Errno)
  | signal

inductive Action
  | internal
  | waitRead
  | recvMsg (m : Message)
  | postWrite
  | waitPipe
  | writePipe (number : ℤ)
  | waitLog
  | postLog (row : LogRow)
  | transfer (conn : ℕ) (c : Conn)

namespace Child

def goto (c : Child) (pc : ChildPc) : Child := { c with pc := pc }

def failWith (c : Child) (e : Errno) (pc : ChildPc) : Child := { c with errno := some e, pc := pc }

def conn (c : Child) : Option ℕ :=
  match c.fds c.child.clientFdLocal with
  | some (.accepted _ conn) => some conn
  | _ => none

def hear (c : Child) (a : Answer) : Child := { c with gogo := c.gogo && !a.signal }

def recvHeader (h : Host) (conns : ℕ → Conn) (prior : ℕ) (c : Child) : Option (Child × Action) :=
  match c.conn with
  | none => some (c.goto (.returned (-1)), .internal)
  | some id =>
    ((conns id).recv 4).map fun (r, d) =>
      let c := c.hear (conns id).recvs.head
      match cGetMessageLength h prior r with
      | none => (c.goto (.returned (-1)), .transfer id d)
      | some (bytesToRead, buffer) => (c.goto (.payload bytesToRead 0 1 buffer), .transfer id d)

def recvPayload (conns : ℕ → Conn) (bytesToRead bytesRead bytes : ℕ) (buffer : Buffer) (c : Child) :
    Option (Child × Action) :=
  match c.conn with
  | none => some (c.goto (.returned (-1)), .internal)
  | some id =>
    match payloadBody bytesToRead ⟨bytesRead, bytes, buffer, conns id⟩ with
    | .blocked => none
    | .again s =>
      some ((c.hear (conns id).recvs.head).goto (.payload bytesToRead s.bytesRead s.bytes s.buffer),
        .transfer id s.conn)
    | .done (.error _, s) =>
      some ((c.hear (conns id).recvs.head).goto (.returned (-1)), .transfer id s.conn)
    | .done (.ok (), s) => some (c.goto (.waitPipe s.bytesRead), .internal)

def sendReply (h : Host) (conns : ℕ → Conn) (bytesRead : ℕ) (c : Child) : Child × Action :=
  match c.conn with
  | none => (c.goto (.returned (-1)), .internal)
  | some id =>
    let c := c.hear (conns id).sends.head
    match (conns id).send (h.wordBytes bytesRead) with
    | (.error _, d) => (c.goto (.returned (-1)), .transfer id d)
    | (.ok _, d) => (c.goto .close, .transfer id d)

/-- `getpeername`, and the test of `errno` before the message is received. -/
def getPeerName (c : Child) : Option Child :=
  match c.fds c.child.clientFdLocal with
  | some (.accepted addr _) =>
    some { c with
      child := { c.child with clientAddr := storeName c.socklen addr }
      pc := if c.errno = some .EINTR then .close else .header }
  | _ => none

/-- `close_fd_report_undefined_error`, which clears `errno` after `EBADF`. -/
def closeLocal (c : Child) : Child :=
  { c with
    errno := if c.fds c.child.clientFdLocal = none then none else c.errno
    fds := Function.update c.fds c.child.clientFdLocal none }

/-- `return (errno == EINTR) ? 0 : -1;`, where 0 leads to `next`. -/
def interrupted (c : Child) (e : Errno) (next : ChildPc) : Child × Action :=
  (c.failWith e (if e = .EINTR then next else .returned (-1)), .internal)

def step (h : Host) (pid : ℕ) (conns : ℕ → Conn) (c : Child) : ChildEvent → Option (Child × Action)
  | .run prior t =>
    match c.pc with
    | .head =>
      some (if c.gogo then { c with pc := .waitRead, child := {} } else c.goto (.returned 0), .internal)
    | .header => c.recvHeader h conns prior
    | .payload bytesToRead bytesRead bytes buffer => c.recvPayload conns bytesToRead bytesRead bytes buffer
    | .postLog n => some (c.goto (.reply n), .postLog (cLogRow h pid c.child n t))
    | .reply n => some (c.sendReply h conns n)
    | .close => some (c.closeLocal.goto .head, .internal)
    | _ => none
  | .ok =>
    match c.pc with
    | .waitRead => some (c.goto .recvMsg, .waitRead)
    | .postWrite received =>
      some (c.goto (if received then .peerName else .returned (-1)), .postWrite)
    | .peerName => c.getPeerName.map fun c => (c, .internal)
    | .waitPipe n => some (c.goto (.writePipe n), .waitPipe)
    | .writePipe n => some (c.goto (.waitLog n), .writePipe c.child.clientFdParent)
    | .waitLog n => some (c.goto (.postLog n), .waitLog)
    | _ => none
  | .received m fd socklen =>
    if c.pc = .recvMsg ∧ c.fds fd = none then
      some ({ c with
        pc := .postWrite true
        child := { c.child with clientFdParent := m.number, clientFdLocal := fd }
        socklen := socklen
        fds := Function.update c.fds fd (some m.descriptor) }, .recvMsg m)
    else none
  | .fail e =>
    match c.pc with
    | .waitRead => some (c.interrupted e .close)
    | .recvMsg => some (c.failWith e (.postWrite false), .internal)
    | .peerName => some (c.failWith e (.returned (-1)), .internal)
    | .waitPipe n => some (c.interrupted e (.waitLog n))
    | .writePipe _ => some (c.failWith e (.returned (-1)), .internal)
    | .waitLog n => some (c.interrupted e (.reply n))
    | _ => none
  | .signal => some ({ c with gogo := false }, .internal)

end Child

structure System (M N : ℕ) where
  parent : Parent M
  children : Fin N → Child
  domain : List Message := []
  pipe : List ℤ := []
  domainRead : ℕ := 0
  domainWrite : ℕ := 1
  pipeWrite : ℕ := 1
  logSem : ℕ := 1
  conns : ℕ → Conn
  nextConn : ℕ := 0
  rows : List LogRow := []

inductive Event (M N : ℕ)
  | parent (e : ParentEvent M)
  | child (i : Fin N) (e : ChildEvent)
  | deliver (conn : ℕ) (bytes : List UInt8)
  | hangup (conn : ℕ)

namespace System

/-- The state after `fork_child_processes`: the parent has `others` open and the children
`childOthers`, and `conns` are the connections that will be accepted. -/
def initial (listenFd pipeFd : ℤ) (others childOthers : ℤ → Bool) (conns : ℕ → Conn) :
    System M N where
  parent := .initial listenFd pipeFd others
  children _ := { fds := fun fd => if childOthers fd then some .other else none }
  conns := conns

/-- With only the standard streams open before, 3 is the log file, 4 and 5 are the pipe, 6 and 7 the
domain sockets. The parent closes 5 and 6, and 5 becomes the listen socket; a child closes 4 and 7. -/
def parentDescriptors (fd : ℤ) : Bool := fd ∈ [0, 1, 2, 3, 4, 5, 7]

def childDescriptors (fd : ℤ) : Bool := fd ∈ [0, 1, 2, 3, 5, 6]

def setChild (s : System M N) (i : Fin N) (c : Child) : System M N :=
  { s with children := Function.update s.children i c }

def act (s : System M N) : Action → Option (System M N)
  | .internal => some s
  | .waitRead => if 0 < s.domainRead then some { s with domainRead := s.domainRead - 1 } else none
  | .recvMsg m =>
    match s.domain with
    | [] => none
    | m' :: rest => if m = m' then some { s with domain := rest } else none
  | .postWrite => some { s with domainWrite := s.domainWrite + 1 }
  | .waitPipe => if 0 < s.pipeWrite then some { s with pipeWrite := s.pipeWrite - 1 } else none
  | .writePipe number => some { s with pipe := s.pipe ++ [number] }
  | .waitLog => if 0 < s.logSem then some { s with logSem := s.logSem - 1 } else none
  | .postLog row => some { s with rows := s.rows ++ [row], logSem := s.logSem + 1 }
  | .transfer id d => some { s with conns := Function.update s.conns id d }

def call (s : System M N) : ParentEvent M → Option (System M N)
  | .accept (.ok (_, _, conn)) =>
    if conn = s.nextConn then some { s with nextConn := s.nextConn + 1 } else none
  | .read (.ok number) =>
    match s.pipe with
    | [] => none
    | number' :: rest =>
      if number = number' then some { s with pipe := rest, pipeWrite := s.pipeWrite + 1 } else none
  | .read (.error _) => some { s with pipeWrite := s.pipeWrite + 1 }
  | .wait (.ok ()) =>
    if 0 < s.domainWrite then some { s with domainWrite := s.domainWrite - 1 } else none
  | .send (.ok ()) =>
    s.parent.sending.bind fun fd =>
      (s.parent.fds fd).map fun d => { s with domain := s.domain ++ [⟨fd, d⟩] }
  | .post => some { s with domainRead := s.domainRead + 1 }
  | _ => some s

def step [NeZero M] (h : Host) (s : System M N) : Event M N → Option (System M N)
  | .parent e => (s.parent.step e).bind fun p => (s.call e).map fun s => { s with parent := p }
  | .child i e =>
    ((s.children i).step h i s.conns e).bind fun (c, a) => (s.act a).map fun s => s.setChild i c
  | .deliver id bytes =>
    some { s with conns := Function.update s.conns id ((s.conns id).deliver bytes) }
  | .hangup id => some { s with conns := Function.update s.conns id (s.conns id).hangup }

def machine [NeZero M] (h : Host) : Machine (System M N) (Event M N) := ⟨step h⟩

inductive Acts (s : System M N) : Action → System M N → Prop
  | internal : s.Acts .internal s
  | waitRead (hpos : 0 < s.domainRead) :
      s.Acts .waitRead { s with domainRead := s.domainRead - 1 }
  | recvMsg {m : Message} {rest : List Message} (hdomain : s.domain = m :: rest) :
      s.Acts (.recvMsg m) { s with domain := rest }
  | postWrite : s.Acts .postWrite { s with domainWrite := s.domainWrite + 1 }
  | waitPipe (hpos : 0 < s.pipeWrite) : s.Acts .waitPipe { s with pipeWrite := s.pipeWrite - 1 }
  | writePipe (number : ℤ) : s.Acts (.writePipe number) { s with pipe := s.pipe ++ [number] }
  | waitLog (hpos : 0 < s.logSem) : s.Acts .waitLog { s with logSem := s.logSem - 1 }
  | postLog (row : LogRow) :
      s.Acts (.postLog row) { s with rows := s.rows ++ [row], logSem := s.logSem + 1 }
  | transfer (id : ℕ) (d : Conn) :
      s.Acts (.transfer id d) { s with conns := Function.update s.conns id d }

inductive Calls (s : System M N) : ParentEvent M → System M N → Prop
  | accept {fd : ℤ} {addr : SockAddr} {conn : ℕ} (hconn : conn = s.nextConn) :
      s.Calls (.accept (.ok (fd, addr, conn))) { s with nextConn := s.nextConn + 1 }
  | read {number : ℤ} {rest : List ℤ} (hpipe : s.pipe = number :: rest) :
      s.Calls (.read (.ok number)) { s with pipe := rest, pipeWrite := s.pipeWrite + 1 }
  | readFail {err : Errno} : s.Calls (.read (.error err)) { s with pipeWrite := s.pipeWrite + 1 }
  | wait (hpos : 0 < s.domainWrite) :
      s.Calls (.wait (.ok ())) { s with domainWrite := s.domainWrite - 1 }
  | send {fd : ℤ} {d : Descriptor} (hfd : s.parent.sending = some fd)
      (hd : s.parent.fds fd = some d) :
      s.Calls (.send (.ok ())) { s with domain := s.domain ++ [⟨fd, d⟩] }
  | post : s.Calls .post { s with domainRead := s.domainRead + 1 }
  | run : s.Calls .run s
  | poll {result : Except Errno (PollResult M)} : s.Calls (.poll result) s
  | acceptFail {err : Errno} : s.Calls (.accept (.error err)) s
  | waitFail {err : Errno} : s.Calls (.wait (.error err)) s
  | sendFail {err : Errno} : s.Calls (.send (.error err)) s
  | signal : s.Calls .signal s

variable {s t : System M N}

lemma acts_of_act {a : Action} (hact : s.act a = some t) : s.Acts a t := by
  cases a with
  | recvMsg m =>
    simp only [act] at hact
    split at hact
    · cases hact
    · rename_i m' rest hdomain
      split_ifs at hact with hm
      subst hm
      obtain rfl := Option.some.inj hact
      exact .recvMsg hdomain
  | waitRead | waitPipe | waitLog =>
    simp only [act] at hact
    split_ifs at hact
    obtain rfl := Option.some.inj hact
    constructor
    assumption
  | _ =>
    obtain rfl := Option.some.inj hact
    constructor

lemma calls_of_call {e : ParentEvent M} (hcall : s.call e = some t) : s.Calls e t := by
  cases e with
  | accept result =>
    cases result with
    | error err =>
      obtain rfl := Option.some.inj hcall
      exact .acceptFail
    | ok r =>
      simp only [call] at hcall
      split_ifs at hcall with hconn
      obtain rfl := Option.some.inj hcall
      exact .accept hconn
  | read result =>
    cases result with
    | error err =>
      obtain rfl := Option.some.inj hcall
      exact .readFail
    | ok number =>
      simp only [call] at hcall
      split at hcall
      · cases hcall
      · rename_i number' rest hpipe
        split_ifs at hcall with hnumber
        subst hnumber
        obtain rfl := Option.some.inj hcall
        exact .read hpipe
  | wait result =>
    cases result with
    | error err =>
      obtain rfl := Option.some.inj hcall
      exact .waitFail
    | ok u =>
      simp only [call] at hcall
      split_ifs at hcall with hpos
      obtain rfl := Option.some.inj hcall
      exact .wait hpos
  | send result =>
    cases result with
    | error err =>
      obtain rfl := Option.some.inj hcall
      exact .sendFail
    | ok u =>
      obtain ⟨fd, hfd, hmap⟩ := Option.bind_eq_some_iff.mp hcall
      obtain ⟨d, hd, rfl⟩ := Option.map_eq_some_iff.mp hmap
      exact .send hfd hd
  | _ =>
    obtain rfl := Option.some.inj hcall
    constructor

end System

end ScalableServer.ProcessServer
