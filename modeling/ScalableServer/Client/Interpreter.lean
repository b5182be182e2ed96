import ScalableServer.Client.Session

namespace ScalableServer.Client

open ScalableServer.Foundations ScalableServer.Core

structure Request where
  port : ℕ
  ip : List UInt8
  data : List UInt8
  deriving DecidableEq, Repr

inductive Command
  | start (r : Request)
  | stop
  | unknown (n : ℕ)
  deriving DecidableEq, Repr

def Command.bytes : Command → List UInt8
  | .start r => startBytes r.port r.ip r.data
  | .stop => bigEndian 2 STOP
  | .unknown n => bigEndian 2 n

def Command.Valid (h : Host) : Command → Prop
  | .start r => Fits h r.port r.ip r.data
  | .stop => True
  | .unknown n => n < 2 ^ 16 ∧ n ≠ START ∧ n ≠ STOP

structure Order where
  command : Command
  idle : List ControllerPass := []
  calls : StartCalls

namespace Order

def passes (o : Order) : List ControllerPass := o.idle ++ [{ poll := .ok true, calls := o.calls }]

def bytes (orders : List Order) : List UInt8 := orders.flatMap fun o => o.command.bytes

structure Valid (h : Host) (o : Order) : Prop where
  command : o.command.Valid h
  idle : ∀ pass ∈ o.idle, pass.poll = .ok false ∨ pass.poll = .error .EINTR

end Order

def Request.stored (r : Request) (s : State) : State :=
  { s with
    serverPort := r.port
    serverIp := { size := r.ip.length + 1, cells := r.ip ++ [0] }
    data := { size := r.data.length, cells := r.data }
    dataSize := r.data.length }

structure Outcome where
  ended : Option States
  request : Option Request
  pool : Pool
  left : List Order

def interpret (inetAddr : List UInt8 → Option ℕ) (s : State) :
    List Order → Option Request → Pool → Outcome
  | [], request, p => ⟨none, request, p, []⟩
  | o :: os, request, p =>
    match o.command with
    | .start r =>
      let (result, q) := startThreads inetAddr o.calls (r.stored s) p
      if result = -1 then ⟨some .ERROR, some r, q, os⟩ else interpret inetAddr s os (some r) q
    | .stop => ⟨some .SUCCESS, request, p, os⟩
    | .unknown _ => ⟨some .ERROR, request, p, os⟩

def Command.isStart : Command → Bool
  | .start _ => true
  | .stop | .unknown _ => false

def Command.result (c : Command) : States := if c = .stop then .SUCCESS else .ERROR

structure Order.Succeeds (inetAddr : List UInt8 → Option ℕ) (o : Order) : Prop where
  calls : o.calls.Succeed
  processors : o.calls.processors ≠ -1
  addr : ∀ r, o.command = .start r → (inetAddr (cString (r.ip ++ [0]))).isSome = true

def Request.args (r : Request) (addr i : ℕ) : HandleArgs where
  serverAddr := { sinAddr := addr, sinPort := r.port }
  data := strncpy r.data.length r.data
  dataSize := r.data.length
  threadId := i

def Order.threads (inetAddr : List UInt8 → Option ℕ) (o : Order) : List HandleArgs :=
  match o.command with
  | .start r =>
    (inetAddr (cString (r.ip ++ [0]))).elim [] fun addr =>
      (List.range o.calls.processors.toNat).map (r.args addr)
  | .stop | .unknown _ => []

structure Outcome.Reached (out : Outcome) (after : List UInt8) (l : Loop) : Prop where
  exit : l.exit = out.ended.isSome
  result : ∀ r ∈ out.ended, l.result = r
  pool : l.pool = out.pool
  received : ∀ r ∈ out.request, Received r.port r.ip r.data l.state
  unread : l.state.controller.unread = Order.bytes out.left ++ after

variable {h : Host} {inetAddr : List UInt8 → Option ℕ} {calls : StartCalls} {s t : State}
  {p : Pool} {l : Loop} {o : Order} {orders : List Order} {request : Option Request} {r : Request}
  {port : ℕ} {ip data after : List UInt8} {addr : SockAddr}

lemma createLoop_congr (hs : Received port ip data s) (ht : Received port ip data t)
    (passes : ℕ → CreateCalls) (left i : ℕ) (p : Pool) :
    createLoop inetAddr passes s left i p = createLoop inetAddr passes t left i p := by
  induction left generalizing i p with
  | zero => rfl
  | succ left ih =>
    have hargs : ∀ addr, handleArgs s addr i = handleArgs t addr i := fun addr => by
      rw [handleArgs, handleArgs, hs.dataSize, hs.data, ht.dataSize, ht.data]
    have hcreate : createThread inetAddr (passes i) s i p =
        createThread inetAddr (passes i) t i p := by
      simp only [createThread, hargs, hs.serverIp, hs.serverPort, ht.serverIp, ht.serverPort]
    rw [createLoop, createLoop, hcreate]
    cases createThread inetAddr (passes i) t i p with
    | none => rfl
    | some q => exact ih (i + 1) q

lemma startThreads_congr (hs : Received port ip data s) (ht : Received port ip data t) :
    startThreads inetAddr calls s p = startThreads inetAddr calls t p := by
  simp only [startThreads, createThreads, createLoop_congr hs ht]

lemma Request.received_stored (r : Request) (s : State) :
    Received r.port r.ip r.data (r.stored s) := ⟨rfl, rfl, rfl, rfl⟩

lemma order_idle (ho : o.Valid h) (hexit : l.exit = false) (hrevents : l.revents = false)
    (rest : List ControllerPass) :
    ∃ l', l'.exit = false ∧ l'.state = l.state ∧ l'.pool = l.pool ∧
      runController h inetAddr (o.passes ++ rest) l =
        (controllerPass h inetAddr l' { poll := .ok true, calls := o.calls }).bind
          (runController h inetAddr rest) ∧
      (RunWithin h inetAddr ({ poll := .ok true, calls := o.calls } :: rest) l' →
        RunWithin h inetAddr (o.passes ++ rest) l) := by
  obtain ⟨l', hrun, hwithin, hexit', hstate, hpool⟩ := runController_idle (h := h) inetAddr
    ({ poll := .ok true, calls := o.calls } :: rest)
    (fun pass hmem => (ho.idle pass hmem).imp_right fun hp => ⟨hp, hrevents⟩) hexit
  rw [Order.passes, List.append_assoc, List.singleton_append]
  refine ⟨l', hexit', hstate, hpool, ?_, hwithin⟩
  rw [hrun, runController, List.foldlM_cons]
  rfl

lemma order_ends {n : ℕ} {result : States} (ho : o.Valid h) (hexit : l.exit = false)
    (hrevents : l.revents = false) (hrequest : ∀ r ∈ request, Received r.port r.ip r.data l.state)
    (hn : n < 2 ^ 16) (hne : n ≠ START) (hresult : result = if n = STOP then .SUCCESS else .ERROR)
    (hu : l.state.controller.unread = bigEndian 2 n ++ (Order.bytes orders ++ after))
    (hr : Undisturbed l.state.controller.recvs) :
    ∃ l', (∀ rest, runController h inetAddr (o.passes ++ rest) l = some l' ∧
        RunWithin h inetAddr (o.passes ++ rest) l) ∧
      (⟨some result, request, l.pool, orders⟩ : Outcome).Reached after l' := by
  obtain ⟨c, hcontrol, hunread⟩ := controlThreads_end (h := h) inetAddr o.calls l.pool hn hne hu hr
  let l' : Loop :=
    { exit := true, result, state := { l.state with controller := c }, pool := l.pool }
  refine ⟨l', fun rest => ?_, rfl, fun r hr => Option.some.inj hr, rfl, fun r hr => ?_, hunread⟩
  · obtain ⟨l₁, hexit₁, hstate₁, hpool₁, hrun, hwithin⟩ :=
      @order_idle h inetAddr l o ho hexit hrevents rest
    rw [← hstate₁, ← hpool₁] at hcontrol
    have hpass := @controllerPass_ready h inetAddr l₁ { poll := .ok true, calls := o.calls } _ _ _
      hexit₁ rfl hcontrol
    have hlast : controllerPass h inetAddr l₁ { poll := .ok true, calls := o.calls } = some l' := by
      rw [hpass, hpool₁, hstate₁]
      simp only [l', hresult]
      by_cases hstop : n = STOP
      · rw [if_pos hstop, if_pos hstop]
        rfl
      · rw [if_neg hstop, if_neg hstop]
        rfl
    refine ⟨?_, hwithin ⟨passWithin_command n _ _ hn (by rw [hstate₁]; exact hu)
      (by rwa [hstate₁]) fun hstart => (hne hstart).elim, fun l₂ hl₂ => ?_⟩⟩
    · rw [hrun, hlast, Option.bind_some]
      exact runController_exit rfl
    · rw [hlast] at hl₂
      exact runWithin_exit (Option.some.inj hl₂ ▸ rfl)
  · obtain ⟨hserverPort, hserverIp, hdataSize, hdata⟩ := hrequest r hr
    exact ⟨hserverPort, hserverIp, hdataSize, hdata⟩

lemma order_starts (halloc : ∀ n, h.alloc n = true) (ho : o.Valid h) (hcommand : o.command = .start r)
    (hexit : l.exit = false) (hrevents : l.revents = false)
    (hu : l.state.controller.unread = o.command.bytes ++ after)
    (hr : Undisturbed l.state.controller.recvs) :
    ∃ t, Received r.port r.ip r.data t ∧ t.controller.unread = after ∧
      Undisturbed t.controller.recvs ∧
      let started := startThreads inetAddr o.calls (r.stored s) l.pool
      let l' : Loop :=
        if started.1 = -1 then { exit := true, result := .ERROR, state := t, pool := started.2 }
        else { state := t, pool := started.2 }
      ∀ rest,
        runController h inetAddr (o.passes ++ rest) l = runController h inetAddr rest l' ∧
        (RunWithin h inetAddr rest l' → RunWithin h inetAddr (o.passes ++ rest) l) := by
  have hvalid := ho.command
  rw [hcommand] at hvalid hu
  obtain ⟨t, hcontrol, ht, hunread, hrecvs⟩ := controlThreads_start (h := h) inetAddr o.calls l.pool
    halloc hvalid hu hr
  refine ⟨t, ht, hunread, hrecvs, fun rest => ?_⟩
  obtain ⟨l₁, hexit₁, hstate₁, hpool₁, hrun, hwithin⟩ :=
    @order_idle h inetAddr l o ho hexit hrevents rest
  rw [startThreads_congr ht (r.received_stored s), ← hstate₁, ← hpool₁] at hcontrol
  have hpass := @controllerPass_ready h inetAddr l₁ { poll := .ok true, calls := o.calls } _ _ _
    hexit₁ rfl hcontrol
  have hnext : controllerPass h inetAddr l₁ { poll := .ok true, calls := o.calls } =
      some (if (startThreads inetAddr o.calls (r.stored s) l.pool).1 = -1 then
          { exit := true, result := .ERROR, state := t
            pool := (startThreads inetAddr o.calls (r.stored s) l.pool).2 }
        else
          { state := t, pool := (startThreads inetAddr o.calls (r.stored s) l.pool).2 }) := by
    rw [hpass, hpool₁]
    refine congrArg some ?_
    by_cases hfails : (startThreads inetAddr o.calls (r.stored s) l.pool).1 = -1
    · rw [if_pos hfails, if_pos hfails]
      rfl
    · rw [if_neg hfails, if_neg hfails]
      rfl
  refine ⟨by rw [hrun, hnext, Option.bind_some], fun hlater => hwithin ⟨?_, fun l₂ hl₂ => ?_⟩⟩
  · refine passWithin_command START _ _ (by decide) ?_ (by rwa [hstate₁])
      fun _ => hvalid.sizesFit after
    rw [hstate₁, hu]
    simp only [Command.bytes, startBytes, List.append_assoc]
  · rw [hnext] at hl₂
    exact Option.some.inj hl₂ ▸ hlater

lemma orders_run (halloc : ∀ n, h.alloc n = true) (horders : ∀ o ∈ orders, o.Valid h)
    (hexit : l.exit = false) (hrevents : l.revents = false)
    (hrequest : ∀ r ∈ request, Received r.port r.ip r.data l.state)
    (hu : l.state.controller.unread = Order.bytes orders ++ after)
    (hr : Undisturbed l.state.controller.recvs) :
    ∃ l', (∀ rest,
        runController h inetAddr (orders.flatMap Order.passes ++ rest) l =
          runController h inetAddr rest l' ∧
        (RunWithin h inetAddr rest l' →
          RunWithin h inetAddr (orders.flatMap Order.passes ++ rest) l)) ∧
      (interpret inetAddr s orders request l.pool).Reached after l' := by
  induction orders generalizing l request with
  | nil =>
    exact ⟨l, fun _ => ⟨rfl, id⟩, hexit, fun r hr => absurd hr (Option.not_mem_none r), rfl, hrequest, hu⟩
  | cons o os ih =>
    have ho := horders o List.mem_cons_self
    simp only [List.flatMap_cons, List.append_assoc]
    rw [Order.bytes, List.flatMap_cons, List.append_assoc] at hu
    rw [interpret]
    cases hcommand : o.command with
    | start r =>
      obtain ⟨t, ht, hunread, hrecvs, hrun⟩ := @order_starts h inetAddr s l o r _ halloc ho
        hcommand hexit hrevents hu hr
      by_cases hfails : (startThreads inetAddr o.calls (r.stored s) l.pool).1 = -1
      -- A failed `start_threads` sets `exit`, and the passes of the later commands do nothing.
      · simp only [if_pos hfails] at hrun ⊢
        refine ⟨{ exit := true, result := .ERROR, state := t, pool := _ }, fun rest => ?_, rfl,
          fun _ => Option.some.inj, rfl, fun r' hr' => ?_, hunread⟩
        · obtain ⟨hnext, hwithin⟩ := hrun (os.flatMap Order.passes ++ rest)
          rw [hnext, runController_exit rfl, runController_exit rfl]
          exact ⟨rfl, fun _ => hwithin (runWithin_exit rfl)⟩
        · obtain rfl := Option.some.inj hr'
          exact ht
      · simp only [if_neg hfails] at hrun ⊢
        have hreceived : ∀ r' ∈ some r, Received r'.port r'.ip r'.data t := by
          rintro r' hr'
          obtain rfl := Option.some.inj hr'
          exact ht
        obtain ⟨l', hlater, hreached⟩ := ih (l := { state := t, pool := _ })
          (fun o' ho' => horders o' (List.mem_cons_of_mem o ho')) rfl rfl hreceived hunread hrecvs
        refine ⟨l', fun rest => ?_, hreached⟩
        obtain ⟨hnext, hwithin⟩ := hrun (os.flatMap Order.passes ++ rest)
        exact ⟨hnext.trans (hlater rest).1, fun hrest => hwithin ((hlater rest).2 hrest)⟩
    | stop =>
      rw [hcommand] at hu
      obtain ⟨l', hrun, hreached⟩ := @order_ends h inetAddr l o os request after STOP _ ho hexit
        hrevents hrequest (by decide) (by decide) rfl hu hr
      refine ⟨l', fun rest => ?_, hreached⟩
      obtain ⟨hrun, hwithin⟩ := hrun (os.flatMap Order.passes ++ rest)
      exact ⟨hrun.trans (runController_exit hreached.exit).symm, fun _ => hwithin⟩
    | unknown n =>
      have hvalid := ho.command
      rw [hcommand] at hvalid hu
      obtain ⟨l', hrun, hreached⟩ := @order_ends h inetAddr l o os request after n _ ho hexit
        hrevents hrequest hvalid.1 hvalid.2.1 (by rw [if_neg hvalid.2.2]) hu hr
      refine ⟨l', fun rest => ?_, hreached⟩
      obtain ⟨hrun, hwithin⟩ := hrun (os.flatMap Order.passes ++ rest)
      exact ⟨hrun.trans (runController_exit hreached.exit).symm, fun _ => hwithin⟩

lemma createLoop_nProcessors (passes : ℕ → CreateCalls) (left i : ℕ) (p : Pool) :
    (createLoop inetAddr passes s left i p).2.nProcessors = p.nProcessors := by
  induction left generalizing i p with
  | zero => rfl
  | succ left ih =>
    rw [createLoop]
    cases hcreate : createThread inetAddr (passes i) s i p with
    | none => rfl
    | some q =>
      obtain ⟨addr, rfl⟩ := createThread_some hcreate
      exact ih (i + 1) _

lemma createThreads_nProcessors (n : ℤ) :
    (createThreads inetAddr calls n s p).2.nProcessors = p.nProcessors := by
  rw [createThreads]
  split_ifs
  · rfl
  · exact createLoop_nProcessors _ _ _ _

lemma interpret_succeeds (horders : ∀ o ∈ orders, o.Succeeds inetAddr) (hp : p.nProcessors ≠ -1) :
    let out := interpret inetAddr s orders request p
    let others := orders.dropWhile fun o => o.command.isStart
    out.ended = others.head?.map (fun o => o.command.result) ∧ out.left = others.tail ∧
      out.pool.running.map Thread.args = p.running.map Thread.args ++
        (orders.takeWhile fun o => o.command.isStart).flatMap (Order.threads inetAddr) := by
  induction orders generalizing request p with
  | nil => exact ⟨rfl, rfl, (List.append_nil _).symm⟩
  | cons o os ih =>
    have ho := horders o List.mem_cons_self
    simp only [interpret]
    cases hcommand : o.command with
    | start r =>
      obtain ⟨addr, haddr⟩ := Option.isSome_iff_exists.mp (ho.addr r hcommand)
      have hinit : initAddr inetAddr (cString (r.stored s).serverIp.cells) (r.stored s).serverPort =
          some { sinAddr := addr, sinPort := r.port } := congrArg (Option.map _) haddr
      obtain ⟨hstart, hargs⟩ := startThreads_adds ho.calls hp hinit
      have hnProcessors : (startThreads inetAddr o.calls (r.stored s) p).2.nProcessors ≠ -1 := by
        rw [hstart, createThreads_nProcessors]
        exact ho.processors
      have hthreads : o.threads inetAddr =
          (List.range o.calls.processors.toNat).map (r.args addr) := by
        rw [Order.threads, hcommand]
        simp only [haddr, Option.elim_some]
      obtain ⟨hended, hleft, hrunning⟩ := @ih _ (some r)
        (fun o' ho' => horders o' (List.mem_cons_of_mem o ho')) hnProcessors
      have hret : (startThreads inetAddr o.calls (r.stored s) p).1 ≠ -1 := by
        rw [hstart]
        exact (by decide : (0 : ℤ) ≠ -1)
      simp only [if_neg hret, List.dropWhile_cons, List.takeWhile_cons, hcommand, Command.isStart,
        if_true, List.flatMap_cons]
      refine ⟨hended, hleft, hrunning.trans ?_⟩
      rw [hargs, hthreads, List.append_assoc]
      rfl
    | stop => simp [hcommand, Command.isStart, Command.result]
    | unknown n => simp [hcommand, Command.isStart, Command.result]

theorem client_interprets_commands (h : Host) (inetAddr : List UInt8 → Option ℕ)
    (halloc : ∀ n, h.alloc n = true) (orders : List Order) (horders : ∀ o ∈ orders, o.Valid h)
    (after : List UInt8) (l : Loop) (hexit : l.exit = false) (hrevents : l.revents = false)
    (hu : l.state.controller.unread = Order.bytes orders ++ after)
    (hr : Undisturbed l.state.controller.recvs) :
    let out := interpret inetAddr l.state orders none l.pool
    (∃ l', runController h inetAddr (orders.flatMap Order.passes) l = some l' ∧
      RunWithin h inetAddr (orders.flatMap Order.passes) l ∧
      (out.ended ≠ none → ∀ rest,
        runController h inetAddr (orders.flatMap Order.passes ++ rest) l = some l' ∧
          RunWithin h inetAddr (orders.flatMap Order.passes ++ rest) l) ∧
      out.Reached after l') ∧
    ((∀ o ∈ orders, o.Succeeds inetAddr) → l.pool.nProcessors ≠ -1 →
      let others := orders.dropWhile fun o => o.command.isStart
      out.ended = others.head?.map (fun o => o.command.result) ∧ out.left = others.tail ∧
        out.pool.running.map Thread.args = l.pool.running.map Thread.args ++
          (orders.takeWhile fun o => o.command.isStart).flatMap (Order.threads inetAddr)) := by
  intro out
  refine ⟨?_, fun hsucceed hp => interpret_succeeds hsucceed hp⟩
  obtain ⟨l', hrun, hreached⟩ := @orders_run h inetAddr l.state l orders none after halloc horders
    hexit hrevents (fun r hr => by cases hr) hu hr
  obtain ⟨hall, hwithin⟩ := hrun []
  rw [List.append_nil] at hall hwithin
  refine ⟨l', hall, hwithin trivial, fun hended rest => ?_, hreached⟩
  have hexit' : l'.exit = true := hreached.exit.trans (Option.isSome_iff_ne_none.mpr hended)
  exact ⟨(hrun rest).1.trans (runController_exit hexit'), (hrun rest).2 (runWithin_exit hexit')⟩

theorem client_interprets_commands_four :
    let h : Host := ⟨.little, fun _ => true, fun _ => []⟩
    let request (b : UInt8) : Request := ⟨5000, [49, 46, 50], [b, 2]⟩
    let order (c : Command) : Order :=
      { command := c
        idle := [{ poll := .ok false, calls := { processors := 0 } },
          { poll := .error .EINTR, calls := { processors := 0 } }]
        calls := { processors := 2 } }
    let orders : List Order := [order (.start (request 7)), order (.start (request 8)), order .stop,
      order (.start (request 9))]
    let conn : Conn :=
      { unread := Order.bytes orders, recvs := Stream'.const (.moves 1)
        sends := Stream'.const (.moves 0), selects := Stream'.const (.moves 0) }
    let l₀ : Loop := { state := { controller := conn } }
    ∃ l, runController h (fun _ => some 9) (orders.flatMap Order.passes) l₀ = some l ∧
      RunWithin h (fun _ => some 9) (orders.flatMap Order.passes) l₀ ∧ l.exit = true ∧ l.result = .SUCCESS ∧
      l.state.controller.unread = (order (.start (request 9))).command.bytes ∧
      l.pool.running.map Thread.args =
        [(request 7).args 9 0, (request 7).args 9 1, (request 8).args 9 0,
          (request 8).args 9 1] := by
  intro h request order orders conn l₀
  have hvalid : ∀ o ∈ orders, o.Valid h := by
    intro o ho
    simp only [orders, List.mem_cons, List.not_mem_nil, or_false] at ho
    have hidle : ∀ c, ∀ pass ∈ (order c).idle,
        pass.poll = .ok false ∨ pass.poll = .error .EINTR := by
      intro c pass hpass
      rcases List.mem_pair.mp hpass with rfl | rfl
      · exact .inl rfl
      · exact .inr rfl
    have hstart : ∀ b, (Command.start (request b)).Valid h := fun b =>
      ⟨by norm_num [request], by norm_num [request], by change 2 ≤ h.endian.hton 4 2; decide⟩
    rcases ho with rfl | rfl | rfl | rfl
    · exact ⟨hstart 7, hidle _⟩
    · exact ⟨hstart 8, hidle _⟩
    · exact ⟨trivial, hidle _⟩
    · exact ⟨hstart 9, hidle _⟩
  have hsucceed : ∀ o ∈ orders, o.Succeeds fun _ => some 9 := by
    intro o ho
    simp only [orders, List.mem_cons, List.not_mem_nil, or_false] at ho
    rcases ho with rfl | rfl | rfl | rfl <;>
      exact ⟨⟨rfl, fun _ => rfl⟩, by decide, fun _ _ => rfl⟩
  obtain ⟨⟨l, hl, hwithin, -, hreached⟩, hsum⟩ := client_interprets_commands h (fun _ => some 9)
    (fun _ => rfl) orders hvalid [] l₀ rfl rfl (List.append_nil _).symm fun _ => ⟨1, rfl⟩
  obtain ⟨hended, hleft, hrunning⟩ := hsum hsucceed (by decide)
  refine ⟨l, hl, hwithin, ?_, hreached.result _ (by rw [hended]; rfl), ?_, ?_⟩
  · rw [hreached.exit, hended]
    rfl
  · rw [hreached.unread, hleft]
    rfl
  · rw [hreached.pool, hrunning]
    rfl

end ScalableServer.Client
