import ScalableServer.Core.Objects
import ScalableServer.Foundations.Iteration

/-! `receive_message` of the one-to-one server. `prior` is the indeterminate content of `msg_size`
before the header is received; a connection is the client and, in `signalled`, the self-pipe. -/

namespace ScalableServer.OneToOne

open ScalableServer.Foundations ScalableServer.Core

structure StateObject where
  listenFd : ℤ
  clientFd : ℤ
  clientAddr : SockAddr

structure LogRow where
  connIndex : ℕ
  fd : ℤ
  clientAddr : ℕ
  clientPort : ℕ
  bytes : ℕ
  startTime : List Char
  endTime : List Char
  elapsed : ℤ
  deriving DecidableEq, Repr

inductive ClientResult
  | error
  | termination
  | success
  deriving DecidableEq, Repr

inductive MsgResult
  | success
  | error
  | closed
  | termination
  deriving DecidableEq, Repr

structure Received where
  result : MsgResult
  conn : Conn
  rows : List LogRow := []
  buffer : Option Buffer := none

def checkFd (c : Conn) : Option (ClientResult × Conn) :=
  c.select.map fun (r, d) =>
    match r with
    | .error e => (if e = .EINTR then .termination else .error, d)
    | .ok true => (.termination, d)
    | .ok false => (.success, d)

def checkFdMsg (c : Conn) : Option (MsgResult × Conn) :=
  (checkFd c).map fun (r, d) =>
    match r with
    | .success => (.success, d)
    | .termination => (.termination, d)
    | .error => (.error, d)

/-- `ctime` returns one static buffer, which is trimmed twice and read after both calls. -/
def log (h : Host) (so : StateObject) (bytes : ℕ) (t : Timing) : LogRow :=
  let static := trimLast (trimLast (h.ctime t.endTime))
  { connIndex := 0
    fd := so.clientFd
    clientAddr := so.clientAddr.sinAddr
    clientPort := so.clientAddr.sinPort
    bytes := bytes
    startTime := static
    endTime := static
    elapsed := t.elapsed }

def sizeofBuf : ℕ := 1024 * 1024

structure Payload where
  remainingBytes : ℕ
  buf : Buffer := { size := sizeofBuf }
  conn : Conn

def receivePayloadBody (s : Payload) : Iter Payload (MsgResult × Payload) :=
  if 0 < s.remainingBytes then
    match checkFdMsg s.conn with
    | none => .blocked
    | some (.success, c) =>
      match c.recv (if sizeofBuf < s.remainingBytes then sizeofBuf else s.remainingBytes) with
      | none => .blocked
      | some (.error e, c) =>
        .done (if e = .EINTR then .termination else .error, { s with conn := c })
      | some (.ok [], c) => .done (.closed, { s with conn := c })
      | some (.ok bs, c) =>
        .again
          { remainingBytes := (s.remainingBytes + (2 ^ 32 - bs.length)) % 2 ^ 32
            buf := s.buf.store 0 bs
            conn := c }
    | some (r, c) => .done (r, { s with conn := c })
  else .done (.success, s)

def receivePayload (s : Payload) : Option (MsgResult × Payload) :=
  iterate receivePayloadBody (s.conn.unread.length + 1) s

structure Reply where
  toSend : ℕ
  sizeP : ℕ
  conn : Conn

def sendReplyBody (word : List UInt8) (s : Reply) : Iter Reply (MsgResult × Reply) :=
  if 0 < s.toSend then
    match s.conn.send ((word.drop s.sizeP).take s.toSend) with
    | (.ok 0, c) => .done (.closed, { s with conn := c })
    | (.error _, c) => .done (.error, { s with conn := c })
    | (.ok sentBytes, c) =>
      .again { toSend := s.toSend - sentBytes, sizeP := s.sizeP + sentBytes, conn := c }
  else .done (.success, s)

def sendReply (word : List UInt8) (c : Conn) : Option (MsgResult × Reply) :=
  iterate (sendReplyBody word) 5 { toSend := 4, sizeP := 0, conn := c }

def receiveMessage (h : Host) (so : StateObject) (prior : ℕ) (t : Timing) (c : Conn) :
    Option Received :=
  match checkFdMsg c with
  | none => none
  | some (.success, c) =>
    match c.recvAll 4 with
    | none => none
    | some (.ok [], c) => some { result := .closed, conn := c }
    | some (.error e, c) =>
      some { result := if e = .EINTR then .termination else .error, conn := c }
    | some (.ok header, c) =>
      let msgSize := h.readWord prior header
      match receivePayload { remainingBytes := msgSize, conn := c } with
      | none => none
      | some (.success, s) =>
        let row := log h so msgSize t
        (sendReply (h.wordBytes msgSize) s.conn).map fun (r, reply) =>
          { result := r, conn := reply.conn, rows := [row], buffer := s.buf }
      | some (r, s) => some { result := r, conn := s.conn, buffer := s.buf }
  | some (r, c) => some { result := r, conn := c }

end ScalableServer.OneToOne
