import ScalableServer.Core.Transfer

/-! `handle_controller` and `read_data` of the client. `startThreads` is what `start_threads`
returns on the state that `read_data` leaves. The buffer of `data` is allocated with the length as
it came, before `ntohl`. -/

namespace ScalableServer.Client

open ScalableServer.Foundations ScalableServer.Core

inductive States
  | ERROR
  | SUCCESS
  | END
  deriving DecidableEq, Repr

def START : ℕ := 1

def STOP : ℕ := 2

structure State where
  controller : Conn
  serverPort : ℕ := 0
  serverIp : Buffer := { size := 0 }
  data : Buffer := { size := 0 }
  dataSize : ℤ := 0

def cString (memory : List UInt8) : List UInt8 := memory.takeWhile (· ≠ 0)

/-- `if (read_fully(s->controller_fd, b, size) == -1) return ERROR;` and what comes after it, where
`put` tells whose memory `b` is. -/
def readThen (size : ℕ) (b : Buffer) (put : Buffer → State → State)
    (next : Buffer → State → Option (ℤ × State)) (s : State) : Option (ℤ × State) :=
  match readFully size b s.controller with
  | none => none
  | some (r, d) =>
    let s := put d.buffer { s with controller := d.conn }
    if r = -1 then some (-1, s) else next d.buffer s

def putLocal (_ : Buffer) (s : State) : State := s

def putServerIp (b : Buffer) (s : State) : State := { s with serverIp := b }

def putData (b : Buffer) (s : State) : State := { s with data := b }

def readPayload (h : Host) (size : Buffer) (s : State) : Option (ℤ × State) :=
  let dataSize := h.endian.load size.cells
  let s := { s with dataSize := h.endian.ntoh 4 dataSize }
  if h.alloc dataSize = false then some (-1, s)
  else
    readThen (s.dataSize % 2 ^ 64).toNat { size := dataSize } putData (fun _ s => some (0, s)) s

def readServerIp (h : Host) (size : Buffer) (s : State) : Option (ℤ × State) :=
  let serverIpSize := h.endian.ntoh 4 (h.endian.load size.cells)
  let bufferSize := (serverIpSize + 1) % 2 ^ 32
  if h.alloc bufferSize = false then some (-1, s)
  else
    readThen serverIpSize { size := bufferSize } putServerIp (fun b s =>
      readThen 4 { size := 4 } putLocal (readPayload h)
        (putServerIp (b.store serverIpSize [0]) s)) s

def readData (h : Host) (s : State) : Option (ℤ × State) :=
  readThen 2 { size := 2 } putLocal (fun netPort s =>
    readThen 4 { size := 4 } putLocal (readServerIp h)
      { s with serverPort := h.endian.ntoh 2 (h.endian.load netPort.cells) }) s

def handleController (h : Host) (startThreads : State → ℤ) (s : State) :
    Option (States × State) :=
  match readFully 2 { size := 2 } s.controller with
  | none => none
  | some (r, d) =>
    let s := { s with controller := d.conn }
    if r = -1 then some (.ERROR, s)
    else
      let command := h.endian.ntoh 2 (h.endian.load d.buffer.cells)
      if command = START then
        (readData h s).map fun (r, s) =>
          (if r = -1 then .ERROR else if startThreads s = -1 then .ERROR else .SUCCESS, s)
      else if command = STOP then some (.END, s)
      else some (.ERROR, s)

variable {h : Host} {s : State} {size : ℕ} {b : Buffer} {put : Buffer → State → State}
  {next : Buffer → State → Option (ℤ × State)} {bs after : List UInt8}

lemma ntoh_load_bigEndian (h : Host) {w n : ℕ} (hn : n < 256 ^ w) :
    h.endian.ntoh w (h.endian.load (bigEndian w n)) = n := by
  have hload := Endian.ntoh_load h.endian (bigEndian w n)
  rwa [bigEndian_length, ofBigEndian_bigEndian hn] at hload

lemma readThen_some {t : State} (hread : readThen size b put next s = some (0, t)) :
    ∃ r d, readFully size b s.controller = some (r, d) ∧ r ≠ -1 ∧
      next d.buffer (put d.buffer { s with controller := d.conn }) = some (0, t) := by
  rw [readThen] at hread
  split at hread
  · cases hread
  · rename_i r d hfully
    split_ifs at hread with hr
    · cases hread
    · exact ⟨r, d, hfully, hr, hread⟩

lemma readThen_quiet {P : ℤ × State → Prop} (hu : s.controller.unread = bs ++ after)
    (hlen : bs.length = size) (hsize : size < 2 ^ 63) (hr : Undisturbed s.controller.recvs)
    (hb : b = { size := b.size })
    (hnext : ∀ b' c, b'.cells = bs → c.unread = after → Undisturbed c.recvs →
      ∃ r, next b' (put b' { s with controller := c }) = some r ∧ P r) :
    ∃ r, readThen size b put next s = some r ∧ P r := by
  have hcells : b.cells = [] := by rw [hb]
  have hwithin : b.Within size := by
    rw [hb]
    intro st hst
    cases hst
  obtain ⟨r, hrf, hbs, -, -, hu', hr', -⟩ := readFully_quiet hu hlen hsize hr hcells hwithin
  obtain ⟨q, hq, hp⟩ := hnext r.buffer r.conn hbs hu' hr'
  refine ⟨q, ?_, hp⟩
  rw [readThen, hrf]
  exact hq

lemma readPayload_quiet {data : List UInt8} {size : Buffer} (halloc : ∀ n, h.alloc n = true)
    (hsize : size.cells = bigEndian 4 data.length) (hdata : data.length < 2 ^ 32)
    (hu : s.controller.unread = data ++ after) (hr : Undisturbed s.controller.recvs) :
    ∃ r, readPayload h size s = some r ∧ r.1 = 0 ∧ r.2.serverPort = s.serverPort ∧
      r.2.serverIp = s.serverIp ∧ r.2.dataSize = data.length ∧ r.2.data.cells = data ∧
      r.2.controller.unread = after ∧ Undisturbed r.2.controller.recvs := by
  have hword : h.endian.ntoh 4 (h.endian.load size.cells) = data.length := by
    rw [hsize, ntoh_load_bigEndian h (by simpa using hdata)]
  have hlong : ((data.length : ℤ) % 2 ^ 64).toNat = data.length := by omega
  simp only [readPayload, halloc, hword, hlong, Bool.true_eq_false, if_false]
  refine readThen_quiet hu rfl (by omega) hr rfl fun b c hb hu' hr' => ?_
  exact ⟨_, rfl, rfl, rfl, rfl, rfl, hb, hu', hr'⟩

lemma readServerIp_quiet {ip data : List UInt8} {size : Buffer} (halloc : ∀ n, h.alloc n = true)
    (hsize : size.cells = bigEndian 4 ip.length) (hip : ip.length < 2 ^ 32)
    (hdata : data.length < 2 ^ 32)
    (hu : s.controller.unread = ip ++ (bigEndian 4 data.length ++ (data ++ after)))
    (hr : Undisturbed s.controller.recvs) :
    ∃ r, readServerIp h size s = some r ∧ r.1 = 0 ∧ r.2.serverPort = s.serverPort ∧
      r.2.serverIp.cells = ip ++ [0] ∧ r.2.dataSize = data.length ∧ r.2.data.cells = data ∧
      r.2.controller.unread = after ∧ Undisturbed r.2.controller.recvs := by
  have hword : h.endian.ntoh 4 (h.endian.load size.cells) = ip.length := by
    rw [hsize, ntoh_load_bigEndian h (by simpa using hip)]
  simp only [readServerIp, halloc, hword, Bool.true_eq_false, if_false]
  refine readThen_quiet hu rfl (by omega) hr rfl fun b c hb hu' hr' => ?_
  refine readThen_quiet hu' (bigEndian_length _ _) (by norm_num) hr' rfl fun b' c' hb' hu'' hr'' => ?_
  obtain ⟨r, hread, hret, hport, hserverIp, hrest⟩ := readPayload_quiet
    (s := { s with controller := c', serverIp := b.store ip.length [0] }) halloc hb' hdata hu'' hr''
  refine ⟨r, hread, hret, hport, ?_, hrest⟩
  rw [hserverIp]
  change (b.store ip.length [0]).cells = ip ++ [0]
  rw [Buffer.store_cells (by rw [hb]), hb]

lemma readData_quiet {port : ℕ} {ip data : List UInt8} (halloc : ∀ n, h.alloc n = true)
    (hport : port < 2 ^ 16) (hip : ip.length < 2 ^ 32) (hdata : data.length < 2 ^ 32)
    (hu : s.controller.unread = bigEndian 2 port ++ (bigEndian 4 ip.length ++ (ip ++
      (bigEndian 4 data.length ++ (data ++ after)))))
    (hr : Undisturbed s.controller.recvs) :
    ∃ r, readData h s = some r ∧ r.1 = 0 ∧ r.2.serverPort = port ∧
      r.2.serverIp.cells = ip ++ [0] ∧ r.2.dataSize = data.length ∧ r.2.data.cells = data ∧
      r.2.controller.unread = after ∧ Undisturbed r.2.controller.recvs := by
  refine readThen_quiet hu (bigEndian_length _ _) (by norm_num) hr rfl fun b c hb hu' hr' => ?_
  refine readThen_quiet hu' (bigEndian_length _ _) (by norm_num) hr' rfl fun b' c' hb' hu'' hr'' => ?_
  obtain ⟨r, hread, hret, hserverPort, hrest⟩ :=
    readServerIp_quiet (s := { s with
      controller := c', serverPort := h.endian.ntoh 2 (h.endian.load b.cells) })
      halloc hb' hip hdata hu'' hr''
  refine ⟨r, hread, hret, ?_, hrest⟩
  rw [hserverPort]
  change h.endian.ntoh 2 (h.endian.load b.cells) = port
  rw [hb, ntoh_load_bigEndian h (by simpa using hport)]

lemma readCommand_quiet {command : ℕ} (hcommand : command < 2 ^ 16)
    (hu : s.controller.unread = bigEndian 2 command ++ after)
    (hr : Undisturbed s.controller.recvs) :
    ∃ d, readFully 2 { size := 2 } s.controller = some (0, d) ∧
      h.endian.ntoh 2 (h.endian.load d.buffer.cells) = command ∧ d.conn.unread = after ∧
      Undisturbed d.conn.recvs := by
  obtain ⟨d, hd, hbs, -, -, hu', hr', -⟩ := readFully_quiet (b := { size := 2 }) hu
    (bigEndian_length _ _) (by norm_num) hr rfl (by intro st hst; cases hst)
  refine ⟨d, hd, ?_, hu', hr'⟩
  rw [hbs, ntoh_load_bigEndian h (by simpa using hcommand)]

lemma handleController_start {port : ℕ} {ip data : List UInt8} (startThreads : State → ℤ)
    (halloc : ∀ n, h.alloc n = true) (hport : port < 2 ^ 16) (hip : ip.length < 2 ^ 32)
    (hdata : data.length < 2 ^ 32)
    (hu : s.controller.unread = bigEndian 2 START ++ (bigEndian 2 port ++ (bigEndian 4 ip.length ++
      (ip ++ (bigEndian 4 data.length ++ (data ++ after))))))
    (hr : Undisturbed s.controller.recvs) :
    ∃ t, handleController h startThreads s =
        some (if startThreads t = -1 then .ERROR else .SUCCESS, t) ∧ t.serverPort = port ∧
      t.serverIp.cells = ip ++ [0] ∧ t.dataSize = data.length ∧ t.data.cells = data ∧
      t.controller.unread = after ∧ Undisturbed t.controller.recvs := by
  obtain ⟨d, hd, hcommand, hu', hr'⟩ := readCommand_quiet (h := h) (by decide) hu hr
  obtain ⟨⟨r, t⟩, hread, hret, hrest⟩ := readData_quiet (s := { s with controller := d.conn })
    halloc hport hip hdata hu' hr'
  obtain rfl : r = 0 := hret
  refine ⟨t, ?_, hrest⟩
  simp only [handleController, hd, hcommand, hread, Option.map_some]
  rfl

lemma handleController_stop (startThreads : State → ℤ)
    (hu : s.controller.unread = bigEndian 2 STOP ++ after) (hr : Undisturbed s.controller.recvs) :
    ∃ c, handleController h startThreads s = some (.END, { s with controller := c }) ∧
      c.unread = after := by
  obtain ⟨d, hd, hcommand, hu', -⟩ := readCommand_quiet (h := h) (by decide) hu hr
  refine ⟨d.conn, ?_, hu'⟩
  simp only [handleController, hd, hcommand]
  rfl

end ScalableServer.Client
