import ScalableServer.Core.PayloadLoop
import ScalableServer.PollServer.Objects

/-! `poll_recv_and_log` on the connection of slot `connIndex`, that is `fd_num - 1`. `prior` is the
indeterminate content of `bytes_to_read` before the header is received. -/

namespace ScalableServer.PollServer

open ScalableServer.Foundations ScalableServer.Core

structure Handled where
  ret : ℤ
  conn : Conn
  rows : List LogRow := []
  buffer : Option Buffer := none

/-- `ctime` returns one static buffer: both columns are read from it after the second call. -/
def timeColumns (h : Host) (startTime endTime : ℤ) : List Char × List Char :=
  let static := if startTime ≠ 0 then trimLast (h.ctime startTime) else []
  let static := if endTime ≠ 0 then trimLast (h.ctime endTime) else static
  let null := ['N', 'U', 'L', 'L']
  (if startTime ≠ 0 then static else null, if endTime ≠ 0 then static else null)

def log (h : Host) (so : StateObject) (connIndex : Fin maxConnections) (bytes : ℕ) (t : Timing) :
    LogRow :=
  let columns := timeColumns h t.startTime t.endTime
  { connIndex := connIndex
    fd := so.clientFd connIndex
    clientAddr := (so.clientAddr connIndex).sinAddr
    clientPort := (so.clientAddr connIndex).sinPort
    bytes := bytes
    startTime := columns.1
    endTime := columns.2
    elapsed := t.elapsed }

def pollRecvAndLog (h : Host) (so : StateObject) (connIndex : Fin maxConnections) (prior : ℕ)
    (t : Timing) (c : Conn) : Option Handled :=
  match c.recv 4 with
  | none => none
  | some (.error _, c) => some { ret := -1, conn := c }
  | some (.ok header, c) =>
    let bytesToRead := h.readWord prior header
    let bufferSize := bytesToRead + 1
    if h.alloc bufferSize = false then some { ret := -1, conn := c }
    else
      match payloadLoop bytesToRead
          { bytesRead := 0, bytes := header.length, buffer := { size := bufferSize }, conn := c } with
      | none => none
      | some (.error _, s) => some { ret := -1, conn := s.conn, buffer := s.buffer }
      | some (.ok (), s) =>
        let row := log h so connIndex s.bytesRead t
        match s.conn.send (h.wordBytes s.bytesRead) with
        | (.error _, c) => some { ret := -1, conn := c, rows := [row], buffer := s.buffer }
        | (.ok _, c) => some { ret := 0, conn := c, rows := [row], buffer := s.buffer }

end ScalableServer.PollServer
