import ScalableServer.Client.Payload
import ScalableServer.Client.ReadData
import ScalableServer.Client.ThreadPool

namespace ScalableServer.Client

open ScalableServer.Foundations ScalableServer.Core

structure StartCalls.Succeed (calls : StartCalls) : Prop where
  malloc : calls.malloc = true
  passes : ∀ i, calls.passes i = {}

def startBytes (port : ℕ) (ip data : List UInt8) : List UInt8 :=
  bigEndian 2 START ++ (bigEndian 2 port ++ (bigEndian 4 ip.length ++ (ip ++
    (bigEndian 4 data.length ++ data))))

structure Received (port : ℕ) (ip data : List UInt8) (s : State) : Prop where
  serverPort : s.serverPort = port
  serverIp : s.serverIp.cells = ip ++ [0]
  dataSize : s.dataSize = data.length
  data : s.data.cells = data

structure Fits (h : Host) (port : ℕ) (ip data : List UInt8) : Prop where
  port : port < 2 ^ 16
  ip : ip.length + 1 < 2 ^ 32
  data : data.length ≤ h.endian.hton 4 data.length

def PassWithin (h : Host) (l : Loop) (pass : ControllerPass) : Prop :=
  l.exit = false → (pollController pass l).revents = true →
    ∀ r d, readFully 2 { size := 2 } l.state.controller = some (r, d) → r ≠ -1 →
      h.endian.ntoh 2 (h.endian.load d.buffer.cells) = START →
      StoresWithin h { l.state with controller := d.conn }

def RunWithin (h : Host) (inetAddr : List UInt8 → Option ℕ) : List ControllerPass → Loop → Prop
  | [], _ => True
  | pass :: passes, l =>
    PassWithin h l pass ∧
      ∀ l', controllerPass h inetAddr l pass = some l' → RunWithin h inetAddr passes l'

variable {h : Host} {inetAddr : List UInt8 → Option ℕ} {calls : StartCalls} {s : State}
  {p : Pool} {l : Loop} {idle idle' rest : List ControllerPass} {pass pass' : ControllerPass}
  {port : ℕ} {ip data after : List UInt8} {addr : SockAddr}

lemma createLoop_succeeds {passes : ℕ → CreateCalls} (hpasses : ∀ i, passes i = {})
    (haddr : initAddr inetAddr (cString s.serverIp.cells) s.serverPort = some addr)
    (left i : ℕ) (p : Pool) :
    (createLoop inetAddr passes s left i p).1 = 0 ∧
      (createLoop inetAddr passes s left i p).2.running.map Thread.args =
        p.running.map Thread.args ++ (List.range' i left).map (handleArgs s addr ·) := by
  induction left generalizing i p with
  | zero => exact ⟨rfl, (List.append_nil _).symm⟩
  | succ left ih =>
    have hcreate : createThread inetAddr (passes i) s i p = some (p.add i (handleArgs s addr i)) := by
      simp [createThread, hpasses, haddr]
    obtain ⟨hret, hargs⟩ := ih (i + 1) (p.add i (handleArgs s addr i))
    rw [createLoop, hcreate]
    refine ⟨hret, hargs.trans ?_⟩
    rw [List.range'_succ, List.map_cons, Pool.add, List.map_append, List.append_assoc]
    rfl

lemma startThreads_adds (hcalls : calls.Succeed) (hprocessors : p.nProcessors ≠ -1)
    (haddr : initAddr inetAddr (cString s.serverIp.cells) s.serverPort = some addr) :
    startThreads inetAddr calls s p = (0, (createThreads inetAddr calls calls.processors s
        { p with nProcessors := calls.processors }).2) ∧
      (startThreads inetAddr calls s p).2.running.map Thread.args = p.running.map Thread.args ++
        (List.range calls.processors.toNat).map (handleArgs s addr ·) := by
  let p₁ : Pool := { p with nProcessors := calls.processors }
  have hcreate : createThreads inetAddr calls calls.processors s p₁ =
      createLoop inetAddr calls.passes s calls.processors.toNat 0
        { p₁ with tIds := some (List.replicate calls.processors.toNat none) } := by
    rw [createThreads, if_neg (by simp [hcalls.malloc])]
  obtain ⟨hret, hargs⟩ := createLoop_succeeds hcalls.passes haddr calls.processors.toNat 0
    { p₁ with tIds := some (List.replicate calls.processors.toNat none) }
  rw [← hcreate] at hret hargs
  have hstart : startThreads inetAddr calls s p =
      (0, (createThreads inetAddr calls calls.processors s p₁).2) := by
    rw [startThreads, getProcessors, if_neg hprocessors]
    simp only
    rw [if_neg (by rw [hret]; decide), hret]
  rw [hstart, List.range_eq_range']
  exact ⟨rfl, hargs⟩

lemma startThreads_succeeds (hcalls : calls.Succeed) (hp : p.Kept) (hidle : p.nThreads = 0)
    (hprocessors : p.nProcessors ≠ -1)
    (haddr : initAddr inetAddr (cString s.serverIp.cells) s.serverPort = some addr) :
    ∃ q, startThreads inetAddr calls s p = (0, q) ∧ q.Kept ∧
      q.running.map Thread.args =
        (List.range calls.processors.toNat).map (handleArgs s addr ·) := by
  have hnone : p.running = [] := by
    rw [List.eq_nil_iff_forall_not_mem]
    intro t ht
    obtain ⟨i, hi, -⟩ := hp.listed t ht
    omega
  obtain ⟨hstart, hargs⟩ := startThreads_adds hcalls hprocessors haddr
  have hp₁ : ({ p with nProcessors := calls.processors } : Pool).Kept :=
    ⟨hp.1, hp.2, hp.3, hp.4, hp.5⟩
  refine ⟨_, hstart, createThreads_kept hp₁ hidle calls.processors, ?_⟩
  rw [hstart] at hargs
  rw [hargs, hnone]
  rfl

lemma Fits.data_lt (hfits : Fits h port ip data) : data.length < 2 ^ 32 :=
  lt_of_le_of_lt hfits.data (h.endian.hton_lt 4 data.length)

lemma Fits.sizesFit (hfits : Fits h port ip data) (after : List UInt8) :
    SizesFit h (bigEndian 2 port ++ (bigEndian 4 ip.length ++ (ip ++
      (bigEndian 4 data.length ++ (data ++ after))))) := by
  set u := bigEndian 2 port ++ (bigEndian 4 ip.length ++ (ip ++
    (bigEndian 4 data.length ++ (data ++ after)))) with hu
  have hword : ∀ n < 2 ^ 32, ofBigEndian (bigEndian 4 n) = n := fun n hn =>
    ofBigEndian_bigEndian (by simpa using hn)
  have hheader : ipHeader u = bigEndian 4 ip.length := by
    rw [ipHeader, hu, List.drop_left' (bigEndian_length 2 port),
      List.take_left' (bigEndian_length 4 _)]
  have hip : announcedIp u = ip.length := by
    rw [announcedIp, hheader, hword ip.length (by have := hfits.ip; omega)]
  have hsize : dataHeader u = bigEndian 4 data.length := by
    have hdrop : u.drop (6 + ip.length) = bigEndian 4 data.length ++ (data ++ after) := by
      rw [hu, ← List.append_assoc, ← List.append_assoc]
      exact List.drop_left' (by simp; omega)
    rw [dataHeader, hip, hdrop, List.take_left' (bigEndian_length 4 _)]
  refine ⟨fun _ _ => hip ▸ hfits.ip, fun _ _ _ => ?_⟩
  rw [hsize, hword data.length hfits.data_lt]
  exact (min_le_left _ _).trans hfits.data

lemma passWithin_command (command : ℕ) (after : List UInt8) (pass : ControllerPass)
    (hcommand : command < 2 ^ 16)
    (hu : l.state.controller.unread = bigEndian 2 command ++ after)
    (hr : Undisturbed l.state.controller.recvs) (hfits : command = START → SizesFit h after) :
    PassWithin h l pass := by
  intro _ _ r d hd _ hstart
  obtain ⟨d', hd', hcommand', hunread, hrecvs⟩ := readCommand_quiet (h := h) hcommand hu hr
  rw [hd] at hd'
  obtain ⟨-, rfl⟩ := Prod.mk.inj (Option.some.inj hd')
  refine within_of_sizesFit hrecvs ?_
  change SizesFit h d.conn.unread
  rw [hunread]
  exact hfits (hcommand'.symm.trans hstart)

lemma passWithin_idle (hidle : (pollController pass l).revents = false) : PassWithin h l pass := by
  intro _ hrevents
  rw [hidle] at hrevents
  cases hrevents

lemma runWithin_exit (hexit : l.exit = true) : RunWithin h inetAddr rest l := by
  induction rest with
  | nil => trivial
  | cons pass rest ih =>
    refine ⟨fun hrunning => ?_, fun l' hl' => ?_⟩
    · rw [hexit] at hrunning
      cases hrunning
    · rw [controllerPass, if_pos hexit] at hl'
      exact Option.some.inj hl' ▸ ih

lemma controlThreads_start (inetAddr : List UInt8 → Option ℕ) (calls : StartCalls) (p : Pool)
    (halloc : ∀ n, h.alloc n = true) (hfits : Fits h port ip data)
    (hu : s.controller.unread = startBytes port ip data ++ after)
    (hr : Undisturbed s.controller.recvs) :
    ∃ t, controlThreads h inetAddr calls s p =
        some (if (startThreads inetAddr calls t p).1 = -1 then .ERROR else .SUCCESS, t,
          (startThreads inetAddr calls t p).2) ∧
      Received port ip data t ∧ t.controller.unread = after ∧
      Undisturbed t.controller.recvs := by
  simp only [startBytes, List.append_assoc] at hu
  obtain ⟨d, hd, hcommand, hu', hr'⟩ := readCommand_quiet (h := h) (by decide) hu hr
  obtain ⟨⟨r, t⟩, hread, hret, hserverPort, hserverIp, hdataSize, hcells, hafter, hrecvs⟩ :=
    readData_quiet (s := { s with controller := d.conn }) halloc hfits.port
      (Nat.lt_of_succ_lt hfits.ip) hfits.data_lt hu' hr'
  obtain rfl : r = 0 := hret
  refine ⟨t, ?_, ⟨hserverPort, hserverIp, hdataSize, hcells⟩, hafter, hrecvs⟩
  simp only [controlThreads, hd, hcommand, hread, Option.map_some]
  rfl

lemma controlThreads_end {command : ℕ} (inetAddr : List UInt8 → Option ℕ) (calls : StartCalls)
    (p : Pool) (hcommand : command < 2 ^ 16) (hne : command ≠ START)
    (hu : s.controller.unread = bigEndian 2 command ++ after)
    (hr : Undisturbed s.controller.recvs) :
    ∃ c, controlThreads h inetAddr calls s p =
        some (if command = STOP then .END else .ERROR, { s with controller := c }, p) ∧
      c.unread = after := by
  obtain ⟨d, hd, hread, hu', -⟩ := readCommand_quiet (h := h) hcommand hu hr
  refine ⟨d.conn, ?_, hu'⟩
  simp only [controlThreads, hd, hread]
  rw [if_neg (by decide), if_neg hne]
  split_ifs <;> rfl

lemma runController_idle (inetAddr : List UInt8 → Option ℕ) (rest : List ControllerPass)
    (hidle : ∀ pass ∈ idle, pass.poll = .ok false ∨ pass.poll = .error .EINTR ∧ l.revents = false)
    (hexit : l.exit = false) :
    ∃ l', runController h inetAddr (idle ++ rest) l = runController h inetAddr rest l' ∧
      (RunWithin h inetAddr rest l' → RunWithin h inetAddr (idle ++ rest) l) ∧
      l'.exit = false ∧ l'.state = l.state ∧ l'.pool = l.pool := by
  induction idle generalizing l with
  | nil => exact ⟨l, rfl, id, hexit, rfl, rfl⟩
  | cons pass idle ih =>
    obtain ⟨result, hpoll⟩ : ∃ result,
        pollController pass l = { l with result, revents := false } := by
      rw [pollController]
      rcases hidle pass List.mem_cons_self with hpoll | ⟨hpoll, hrevents⟩ <;> rw [hpoll]
      · exact ⟨.SUCCESS, rfl⟩
      · exact ⟨.ERROR, by simp [hexit, hrevents]⟩
    have hpass : controllerPass h inetAddr l pass = some { l with result, revents := false } := by
      rw [controllerPass, if_neg (by simp [hexit]), hpoll]
      rfl
    obtain ⟨l', hl', hwithin, hrest⟩ := ih (l := { l with result, revents := false })
      (fun pass hmem => (hidle pass (List.mem_cons_of_mem _ hmem)).imp_right fun hp => ⟨hp.1, rfl⟩)
      hexit
    refine ⟨l', ?_, fun hlater => ⟨passWithin_idle (by rw [hpoll]), fun l₁ hl₁ => ?_⟩, hrest⟩
    · rw [List.cons_append, runController, List.foldlM_cons, hpass]
      exact hl'
    · rw [hpass] at hl₁
      exact Option.some.inj hl₁ ▸ hwithin hlater

lemma runController_exit (hexit : l.exit = true) : runController h inetAddr rest l = some l := by
  induction rest with
  | nil => rfl
  | cons pass rest ih =>
    rw [runController, List.foldlM_cons, controllerPass, if_pos hexit]
    exact ih

lemma controllerPass_ready {r : States} {t : State} {q : Pool} (hexit : l.exit = false)
    (hpoll : pass.poll = .ok true)
    (hcontrol : controlThreads h inetAddr pass.calls l.state l.pool = some (r, t, q)) :
    controllerPass h inetAddr l pass =
      some { exit := r = .END || r = .ERROR, result := if r = .END then .SUCCESS else r
             revents := false, state := t, pool := q } := by
  have hready : pollController pass l = { l with result := .END, revents := true } := by
    rw [pollController, hpoll]
    rfl
  rw [controllerPass, if_neg (by simp [hexit]), hready, controllerReady, if_pos rfl, hcontrol]
  simp [hexit]

lemma runController_session (addr : SockAddr) (rest : List ControllerPass)
    (halloc : ∀ n, h.alloc n = true) (hfits : Fits h port ip data)
    (hidle : ∀ pass ∈ idle, pass.poll = .ok false)
    (hidle' : ∀ pass ∈ idle', pass.poll = .ok false)
    (hpass : pass.poll = .ok true) (hpass' : pass'.poll = .ok true) (hcalls : pass.calls.Succeed)
    (haddr : initAddr inetAddr (cString (ip ++ [0])) port = some addr)
    (hexit : l.exit = false) (hp : l.pool.Kept) (hthreads : l.pool.nThreads = 0)
    (hprocessors : l.pool.nProcessors ≠ -1)
    (hu : l.state.controller.unread = startBytes port ip data ++ (bigEndian 2 STOP ++ after))
    (hr : Undisturbed l.state.controller.recvs) :
    ∃ l' t, runController h inetAddr (idle ++ pass :: (idle' ++ pass' :: rest)) l = some l' ∧
      RunWithin h inetAddr (idle ++ pass :: (idle' ++ pass' :: rest)) l ∧ l'.exit = true ∧
      l'.result = .SUCCESS ∧ l'.pool.Kept ∧ Received port ip data t ∧
      l'.pool.running.map Thread.args =
        (List.range pass.calls.processors.toNat).map (handleArgs t addr ·) := by
  obtain ⟨l₁, hl₁, hwithin₁, hexit₁, hstate₁, hpool₁⟩ := runController_idle (h := h) inetAddr
    (pass :: (idle' ++ pass' :: rest)) (fun p hmem => .inl (hidle p hmem)) hexit
  obtain ⟨t, hstart, ht, hafter, hrecvs⟩ := controlThreads_start (h := h) inetAddr pass.calls l.pool
    halloc hfits hu hr
  obtain ⟨q, hq, hkept, hargs⟩ := startThreads_succeeds (s := t) hcalls hp hthreads hprocessors
    (by rw [ht.serverIp, ht.serverPort]; exact haddr)
  rw [hq, ← hstate₁, ← hpool₁] at hstart
  have hfirst := controllerPass_ready hexit₁ hpass hstart
  obtain ⟨l₂, hl₂, hwithin₂, hexit₂, hstate₂, hpool₂⟩ := runController_idle (h := h) inetAddr
    (pass' :: rest) (l := { result := .SUCCESS, state := t, pool := q })
    (fun p hmem => .inl (hidle' p hmem)) rfl
  obtain ⟨c, hstop, -⟩ := controlThreads_end (h := h) inetAddr pass'.calls q (by decide) (by decide)
    hafter hrecvs
  have hlast : controllerPass h inetAddr l₂ pass' = _ := controllerPass_ready hexit₂ hpass'
    (by rw [hstate₂, hpool₂]; exact hstop)
  have hrun : runController h inetAddr (idle ++ pass :: (idle' ++ pass' :: rest)) l =
      some { exit := true, result := .SUCCESS, state := { t with controller := c }, pool := q } := by
    rw [hl₁, runController, List.foldlM_cons, hfirst]
    change runController h inetAddr (idle' ++ pass' :: rest)
      { result := .SUCCESS, state := t, pool := q } = _
    rw [hl₂, runController, List.foldlM_cons, hlast]
    exact runController_exit rfl
  have hlastWithin : RunWithin h inetAddr (pass' :: rest) l₂ := by
    refine ⟨passWithin_command STOP after pass' (by decide)
      (by rw [hstate₂]; exact hafter) (by rw [hstate₂]; exact hrecvs)
      fun hstart => absurd hstart (by decide), fun l' hl' => ?_⟩
    rw [hlast] at hl'
    exact runWithin_exit (Option.some.inj hl' ▸ rfl)
  have hwithin : RunWithin h inetAddr (pass :: (idle' ++ pass' :: rest)) l₁ := by
    refine ⟨passWithin_command START _ pass (by decide) ?_ (by rwa [hstate₁])
      fun _ => hfits.sizesFit (bigEndian 2 STOP ++ after), fun l' hl' => ?_⟩
    · rw [hstate₁, hu]
      simp only [startBytes, List.append_assoc]
    · rw [hfirst] at hl'
      exact Option.some.inj hl' ▸ hwithin₂ hlastWithin
  exact ⟨_, t, hrun, hwithin₁ hwithin, rfl, rfl, hkept, ht, hargs⟩

end ScalableServer.Client
