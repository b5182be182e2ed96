import ScalableServer.Core.PayloadLoop
import ScalableServer.ProcessServer.Objects

/-! `c_recv_log_notify_parent_respond` in a child that no other process disturbs. `prior` is the
indeterminate content of `bytes_to_read` before the header is received, and `calls` are the outcomes
of the waits and of the write by which the child meets the parent and the other children. -/

namespace ScalableServer.ProcessServer

open ScalableServer.Foundations ScalableServer.Core

structure SharedCalls where
  pipeWait : Outcome
  pipeWrite : Outcome
  logWait : Outcome

structure Handled where
  ret : ℤ
  conn : Conn
  notified : List ℤ := []
  rows : List LogRow := []
  buffer : Option Buffer := none

def cGetMessageLength (h : Host) (prior : ℕ) (r : Except Errno (List UInt8)) :
    Option (ℕ × Buffer) :=
  match r with
  | .error _ => none
  | .ok header =>
    let bytesToRead := h.readWord prior header
    let bufferSize := bytesToRead + 1
    if h.alloc bufferSize = false then none else some (bytesToRead, { size := bufferSize })

def cInformParentRecvFinished (child : ChildStruct) (pipeWait pipeWrite : Outcome) : ℤ × List ℤ :=
  match pipeWait, pipeWrite with
  | .fail .EINTR, _ => (0, [])
  | .fail _, _ => (-1, [])
  | _, .fail _ => (-1, [])
  | _, _ => (0, [child.clientFdParent])

/-- `ctime` returns one static buffer: both columns are read from it after the second call. -/
def cLogRow (h : Host) (pid : ℕ) (child : ChildStruct) (bytes : ℕ) (t : Timing) : LogRow where
  pid := pid
  fdInChild := child.clientFdLocal
  fdInParent := child.clientFdParent
  clientAddr := child.clientAddr.sinAddr
  clientPort := child.clientAddr.sinPort
  bytes := bytes
  startTime := trimLast (h.ctime t.endTime)
  endTime := trimLast (h.ctime t.endTime)
  elapsed := t.elapsed
  timeIndex := t.endTimeGranular

def cLog (h : Host) (pid : ℕ) (child : ChildStruct) (bytes : ℕ) (t : Timing) (logWait : Outcome) :
    ℤ × List LogRow :=
  match logWait with
  | .fail .EINTR => (0, [])
  | .fail _ => (-1, [])
  | _ => (0, [cLogRow h pid child bytes t])

def cRecvLogNotifyParentRespond (h : Host) (pid : ℕ) (child : ChildStruct) (calls : SharedCalls)
    (prior : ℕ) (t : Timing) (c : Conn) : Option Handled :=
  match c.recv 4 with
  | none => none
  | some (r, c) =>
    match cGetMessageLength h prior r with
    | none => some { ret := -1, conn := c }
    | some (bytesToRead, buffer) =>
      match payloadLoop bytesToRead { bytesRead := 0, bytes := 1, buffer := buffer, conn := c } with
      | none => none
      | some (.error _, s) => some { ret := -1, conn := s.conn, buffer := s.buffer }
      | some (.ok (), s) =>
        match cInformParentRecvFinished child calls.pipeWait calls.pipeWrite with
        | (-1, notified) =>
          some { ret := -1, conn := s.conn, notified := notified, buffer := s.buffer }
        | (_, notified) =>
          match cLog h pid child s.bytesRead t calls.logWait with
          | (-1, rows) =>
            some { ret := -1, conn := s.conn, notified := notified, rows := rows, buffer := s.buffer }
          | (_, rows) =>
            match s.conn.send (h.wordBytes s.bytesRead) with
            | (.error _, c) =>
              some { ret := -1, conn := c, notified := notified, rows := rows, buffer := s.buffer }
            | (.ok _, c) =>
              some { ret := 0, conn := c, notified := notified, rows := rows, buffer := s.buffer }

end ScalableServer.ProcessServer
