import ScalableServer.Core.Transfer

/-! A pass of the loop of `handle`, the thread that sends the data to a server. `peer` is what the
server does with the bytes of the connection, and what it answers. `do_log` is called with the
mutex calls of `calls`; `ctime` returns one static buffer, which the columns of a row share. -/

namespace ScalableServer.Client

open ScalableServer.Foundations ScalableServer.Core

structure HandleArgs where
  serverAddr : SockAddr := {}
  data : List UInt8
  dataSize : ℤ
  threadId : ℤ := 0

structure HandleTiming extends Timing where
  timeStamp : ℤ := 0

structure HandleCalls where
  socket : Bool := true
  connect : Bool := true
  lock : Bool := true
  unlock : Bool := true

structure Logger where
  threadId : ℤ
  dataSize : ℕ
  serverResp : ℕ
  startTime : ℤ
  endTime : ℤ
  elapsed : ℤ
  deriving DecidableEq, Repr

structure LogRow where
  timeStamp : List Char
  threadId : ℤ
  dataSize : ℕ
  serverResp : ℕ
  startTime : List Char
  endTime : List Char
  elapsed : ℤ
  deriving DecidableEq, Repr

inductive PassEnd
  | again
  | returned
  deriving DecidableEq, Repr

structure Pass where
  ended : PassEnd
  rows : List LogRow := []
  deriving DecidableEq, Repr

/-- `data_size = h_args->data_size;` -/
def HandleArgs.dataSizeWord (a : HandleArgs) : ℕ := (a.dataSize % 2 ^ 32).toNat

def log (h : Host) (timeStamp : ℤ) (l : Logger) : LogRow :=
  let last := if l.endTime ≠ 0 then l.endTime else if l.startTime ≠ 0 then l.startTime else timeStamp
  let static := trimLast (h.ctime last)
  let column (time : ℤ) := if time = 0 then trimLast ['N', 'U', 'L', 'L'] else static
  { timeStamp := static
    threadId := l.threadId
    dataSize := l.dataSize
    serverResp := l.serverResp
    startTime := column l.startTime
    endTime := column l.endTime
    elapsed := l.elapsed }

def doLog (h : Host) (calls : HandleCalls) (timeStamp : ℤ) (l : Logger) : ℤ × List LogRow :=
  if calls.lock = false then (-1, [])
  else (if calls.unlock = false then -1 else 0, [log h timeStamp l])

def writeRequest (h : Host) (a : HandleArgs) (c : Conn) : Option (ℤ × Conn) :=
  match writeFully (h.wordBytes a.dataSizeWord) 4 c with
  | none => none
  | some (r, w) =>
    if r = -1 then some (-1, w.conn)
    else (writeFully a.data a.dataSizeWord w.conn).map fun (r, w) => (r, w.conn)

def HandleArgs.logger (a : HandleArgs) (t : HandleTiming) (serverResp : ℕ) : Logger where
  threadId := a.threadId
  dataSize := a.dataSizeWord
  serverResp := serverResp
  startTime := t.startTime
  endTime := t.endTime
  elapsed := t.elapsed

/-- From `server_resp = 0;` to the end of the pass. -/
def readResponse (h : Host) (a : HandleArgs) (calls : HandleCalls) (t : HandleTiming) (c : Conn) :
    Option Pass :=
  (readFully 4 { size := 4 } c).map fun (r, d) =>
    if r = -1 then { ended := .returned }
    else
      let (result, rows) := doLog h calls t.timeStamp (a.logger t (h.readWord 0 d.buffer.cells))
      { ended := if result = -1 then .returned else .again, rows := rows }

def handle {α : Type*} (h : Host) (a : HandleArgs) (calls : HandleCalls) (t : HandleTiming)
    (peer : List UInt8 → Option (α × List UInt8)) (c : Conn) : Option (Pass × Option α) :=
  if calls.socket = false then some ({ ended := .returned }, none)
  else if calls.connect = false then some ({ ended := .again }, none)
  else
    match writeRequest h a c with
    | none => none
    | some (r, c) =>
      if r = -1 then some ({ ended := .returned }, none)
      else
        match peer c.sent with
        | none => none
        | some (x, reply) =>
          (readResponse h a calls t (c.deliver reply)).map fun pass => (pass, some x)

section Conversation

variable {h : Host} {a : HandleArgs} {t : HandleTiming} {c : Conn}

lemma dataSizeWord_eq (hsize : a.dataSize = a.data.length) (hlt : a.data.length < 2 ^ 32) :
    a.dataSizeWord = a.data.length := by
  rw [HandleArgs.dataSizeWord]
  omega

lemma writeRequest_quiet (hsize : a.dataSize = a.data.length) (hlt : a.data.length < 2 ^ 32)
    (hs : Undisturbed c.sends) :
    ∃ d, writeRequest h a c = some (0, d) ∧ d.sent = c.sent ++ frame a.data ∧ c.SameInput d := by
  have hword := dataSizeWord_eq hsize hlt
  have hheader : (bigEndian 4 a.data.length).length = 4 := bigEndian_length _ _
  obtain ⟨w, hw, hsent, hin, hsends⟩ := writeFully_quiet hheader.ge (by norm_num) hs
  obtain ⟨v, hv, hsent', hin', -⟩ := writeFully_quiet (le_refl a.data.length) (by omega) hsends
  refine ⟨v.conn, ?_, ?_, hin.trans hin'⟩
  · rw [writeRequest, hword, h.wordBytes_eq, hw]
    simp only [hv, Option.map_some]
    rfl
  · rw [hsent', hsent, List.take_of_length_le hheader.le, List.take_length, List.append_assoc, frame]

lemma readResponse_quiet {n : ℕ} (hn : n < 2 ^ 32) (hu : c.unread = bigEndian 4 n)
    (hr : Undisturbed c.recvs) :
    readResponse h a {} t c =
      some { ended := .again, rows := [log h t.timeStamp (a.logger t n)] } := by
  have hword : h.readWord 0 (bigEndian 4 n) = n := by
    rw [h.readWord_whole 0 (bigEndian_length _ _), ofBigEndian_bigEndian (by simpa using hn)]
  have hreply : c.unread = bigEndian 4 n ++ [] := by rw [hu, List.append_nil]
  obtain ⟨d, hd, hcells, -⟩ := readFully_quiet (b := { size := 4 }) hreply (bigEndian_length 4 n)
    (by norm_num) hr rfl (by intro st hst; cases hst)
  simp only [readResponse, hd, Option.map_some, hcells, hword]
  rfl

lemma handle_quiet {α : Type*} {peer : List UInt8 → Option (α × List UInt8)} {x : α}
    (hsize : a.dataSize = a.data.length) (hlt : a.data.length < 2 ^ 32) (hsent : c.sent = [])
    (hu : c.unread = []) (hopen : c.closed = false) (hs : Undisturbed c.sends)
    (hr : Undisturbed c.recvs)
    (hpeer : peer (frame a.data) = some (x, bigEndian 4 a.data.length)) :
    handle h a {} t peer c = some ({ ended := .again
                                     rows := [log h t.timeStamp (a.logger t a.data.length)] },
      some x) := by
  obtain ⟨d, hd, hdsent, hin⟩ := writeRequest_quiet (h := h) hsize hlt hs
  rw [hsent, List.nil_append] at hdsent
  have hunread : (d.deliver (bigEndian 4 a.data.length)).unread = bigEndian 4 a.data.length := by
    rw [Conn.deliver, hin.closed, hopen]
    change d.unread ++ _ = _
    rw [hin.unread, hu, List.nil_append]
  have hrecvs : (d.deliver (bigEndian 4 a.data.length)).recvs = c.recvs := by
    rw [Conn.deliver, hin.closed, hopen]
    exact hin.recvs
  have hresponse := readResponse_quiet (h := h) (a := a) (t := t) hlt hunread (hrecvs ▸ hr)
  simp only [handle, hd, hdsent, hpeer, hresponse, Option.map_some]
  rfl

end Conversation

end ScalableServer.Client
