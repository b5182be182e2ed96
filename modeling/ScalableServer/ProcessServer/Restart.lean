import ScalableServer.ProcessServer.Capacity
import ScalableServer.ProcessServer.SetupTeardown

namespace ScalableServer.ProcessServer

open ScalableServer.Foundations ScalableServer.Core

variable {M N : ℕ}

def SemName.start : SemName → ℕ
  | .pipeWrite => 1
  | .domainRead => 0
  | .domainWrite => 1
  | .log => 1

def Kernel.Restored (k : Kernel) : Prop := ∀ name, k.sems name = some name.start

section Open

variable {k : Kernel} {name : SemName} {value : ℕ}

lemma Kernel.semOpen_sems : (k.semOpen true name value).sems =
    Function.update k.sems name (some ((k.sems name).getD value)) := by
  rw [semOpen]
  cases hname : k.sems name with
  | none => rw [if_pos ⟨rfl, rfl⟩, Option.getD_none]
  | some v =>
    rw [if_neg fun hnone => Option.some_ne_none v hnone.2, Option.getD_some, ← hname,
      Function.update_eq_self]

lemma Kernel.openSemaphores_sems {granted : SemName → Bool} (h : (k.openSemaphores granted).1 = 0)
    (name : SemName) :
    (k.openSemaphores granted).2.sems name = some ((k.sems name).getD name.start) := by
  simp only [openSemaphores] at h ⊢
  split_ifs at h ⊢ with hfails
  · cases h
  simp only [not_or, Bool.not_eq_false] at hfails
  obtain ⟨hpipe, hread, hwrite, hlog⟩ := hfails
  simp only [hpipe, hread, hwrite, hlog, semOpen_sems]
  cases name <;> simp [Function.update, SemName.start]

lemma openSemaphores_of_opened {so : StateObject M N} {calls : SetupCalls N}
    (h : (openPipeSemaphoresDomainSockets calls ⟨so, k⟩).1 = 0) :
    (k.openSemaphores calls.semOpen).1 = 0 ∧
      (openPipeSemaphoresDomainSockets calls ⟨so, k⟩).2.kernel =
        (k.openSemaphores calls.semOpen).2 := by
  rw [openPipeSemaphoresDomainSockets] at h ⊢
  cases hpipe : calls.pipe with
  | error err =>
    rw [hpipe] at h
    cases h
  | ok fds =>
    rw [hpipe] at h
    dsimp only at h ⊢
    split_ifs at h ⊢ with hfails
    · cases h
    · cases hpair : calls.socketpair with
      | error err =>
        rw [hpair] at h
        cases h
      | ok domainFds =>
        refine ⟨?_, rfl⟩
        rw [Kernel.openSemaphores] at hfails ⊢
        split_ifs at hfails ⊢ with hgranted
        · exact (hfails rfl).elim
        · rfl

lemma restored_iff {so : StateObject M N} {calls : SetupCalls N}
    (h : (openPipeSemaphoresDomainSockets calls ⟨so, k⟩).1 = 0) :
    (openPipeSemaphoresDomainSockets calls ⟨so, k⟩).2.kernel.Restored ↔
      ∀ name value, k.sems name = some value → value = name.start := by
  obtain ⟨hok, hkernel⟩ := openSemaphores_of_opened h
  rw [hkernel]
  constructor
  · intro hrestored name value hvalue
    have hsem := Kernel.openSemaphores_sems hok name
    rw [hrestored name, hvalue, Option.getD_some] at hsem
    exact (Option.some.inj hsem).symm
  · intro hstart name
    rw [Kernel.openSemaphores_sems hok]
    cases hname : k.sems name with
    | none => rfl
    | some value => rw [Option.getD_some, hstart name value hname]

end Open

namespace Action

def takesLog : Action → ℕ
  | .waitLog => 1
  | _ => 0

def givesLog : Action → ℕ
  | .postLog _ => 1
  | _ => 0

end Action

namespace Child

def logging (c : Child) : ℕ :=
  match c.pc with
  | .postLog _ => 1
  | _ => 0

variable {h : Host} {pid : ℕ} {conns : ℕ → Conn} {c c' : Child} {e : ChildEvent} {a : Action}

lemma Steps.logging (hsteps : c.Steps h pid conns e c' a) :
    c'.logging + a.givesLog = c.logging + a.takesLog := by
  cases hsteps with
  | unconnected hpc _ =>
    obtain hpc | ⟨n, k, b, buffer, hpc⟩ | ⟨n, hpc⟩ := hpc <;>
      simp [Child.logging, hpc, goto, Action.givesLog, Action.takesLog]
  | postWrite hpc | peerName hpc _ =>
    simp only [Child.logging, hpc, goto, Action.givesLog, Action.takesLog]
    split_ifs <;> rfl
  | interrupted hpc =>
    obtain ⟨hpc, rfl⟩ | ⟨n, hpc, rfl⟩ | ⟨n, hpc, rfl⟩ := hpc
    all_goals
      simp only [Child.logging, hpc, failWith, Action.givesLog, Action.takesLog]
      split_ifs <;> rfl
  | callFail hpc =>
    obtain hpc | ⟨n, hpc⟩ := hpc <;>
      simp [Child.logging, hpc, failWith, Action.givesLog, Action.takesLog]
  | signal => rfl
  | waitRead hpc | recvMsg hpc _ | waitPipe hpc | writePipe hpc | recvMsgFail hpc | start hpc _
  | leave hpc _ | header hpc _ _ _ | headerFail hpc _ _ _ | payload hpc _ _ | payloadFail hpc _ _
  | payloadEnd hpc _ _ | waitLog hpc | postLog hpc | reply hpc _ _ | replyFail hpc _ _
  | close hpc =>
    simp [Child.logging, hpc, goto, hear, failWith, closeLocal, Action.givesLog, Action.takesLog]

lemma Steps.putting (hsteps : c.Steps h pid conns e c' a)
    (hwrite : ∀ err, c.putting = 1 → e ≠ .fail err) :
    c'.putting + a.putsNumber = c.putting + a.takesPipe := by
  cases hsteps with
  | unconnected hpc _ =>
    obtain hpc | ⟨n, k, b, buffer, hpc⟩ | ⟨n, hpc⟩ := hpc <;>
      simp [Child.putting, hpc, goto, Action.putsNumber, Action.takesPipe]
  | postWrite hpc | peerName hpc _ =>
    simp only [Child.putting, hpc, goto, Action.putsNumber, Action.takesPipe]
    split_ifs <;> rfl
  | interrupted hpc =>
    obtain ⟨hpc, rfl⟩ | ⟨n, hpc, rfl⟩ | ⟨n, hpc, rfl⟩ := hpc
    all_goals
      simp only [Child.putting, hpc, failWith, Action.putsNumber, Action.takesPipe]
      split_ifs <;> rfl
  | @callFail err hpc =>
    obtain hpc | ⟨n, hpc⟩ := hpc
    · simp [Child.putting, hpc, failWith, Action.putsNumber, Action.takesPipe]
    · exact (hwrite err (by rw [Child.putting, hpc]) rfl).elim
  | signal => rfl
  | waitRead hpc | recvMsg hpc _ | waitPipe hpc | writePipe hpc | recvMsgFail hpc | start hpc _
  | leave hpc _ | header hpc _ _ _ | headerFail hpc _ _ _ | payload hpc _ _ | payloadFail hpc _ _
  | payloadEnd hpc _ _ | waitLog hpc | postLog hpc | reply hpc _ _ | replyFail hpc _ _
  | close hpc =>
    simp [Child.putting, hpc, goto, hear, failWith, closeLocal, Action.putsNumber,
      Action.takesPipe]

end Child

namespace System

def semaphore (s : System M N) : SemName → ℕ
  | .pipeWrite => s.pipeWrite
  | .domainRead => s.domainRead
  | .domainWrite => s.domainWrite
  | .log => s.logSem

def SendFails (s : System M N) : Event M N → Prop
  | .parent (.send (.error _)) => True
  | .child i (.fail _) => (s.children i).putting = 1
  | _ => False

instance (s : System M N) : (e : Event M N) → Decidable (s.SendFails e)
  | .parent (.send (.error _)) => .isTrue trivial
  | .child i (.fail _) => inferInstanceAs (Decidable ((s.children i).putting = 1))
  | .parent (.send (.ok _)) | .parent .run | .parent (.poll _) | .parent (.accept _)
  | .parent (.wait _) | .parent (.read _) | .parent .post | .parent .signal
  | .child _ (.run _ _) | .child _ .ok | .child _ (.received _ _ _) | .child _ .signal
  | .deliver _ _ | .hangup _ => .isFalse not_false

def HandOverFails (s : System M N) (e : Event M N) : Prop := s.ReceiveFails e ∨ s.SendFails e

instance (s : System M N) (e : Event M N) : Decidable (s.HandOverFails e) :=
  inferInstanceAs (Decidable (_ ∨ _))

/-- Between two hand-overs: nothing is under way in the channels, and no process stands between the
calls that take a semaphore and give it back. -/
structure Idle (s : System M N) : Prop where
  domain : s.domain = []
  pipe : s.pipe = []
  giving : s.parent.giving = 0
  taking : ∀ i, (s.children i).taking = 0
  putting : ∀ i, (s.children i).putting = 0
  logging : ∀ i, (s.children i).logging = 0

structure Balanced (s : System M N) : Prop where
  domainSems : s.domainRead + s.domainWrite + s.parent.giving + ∑ i, (s.children i).taking = 1
  domain : s.domain.length = s.domainRead + s.parent.posting + ∑ i, (s.children i).receiving
  pipe : s.pipeWrite + s.pipe.length + ∑ i, (s.children i).putting = 1
  log : s.logSem + ∑ i, (s.children i).logging = 1

variable {h : Host} {s s' t : System M N} {i : Fin N} {c : Child} {a : Action}

lemma act_logSem (hact : s.act a = some s') : s'.logSem + a.takesLog = s.logSem + a.givesLog := by
  cases acts_of_act hact with
  | waitLog hpos => exact Nat.sub_add_cancel hpos
  | _ => rfl

lemma call_logSem {e : ParentEvent M} (hcall : s.call e = some s') : s'.logSem = s.logSem := by
  cases calls_of_call hcall <;> rfl

lemma Balanced.child {e : ChildEvent} (hs : s.Balanced)
    (hsteps : (s.children i).Steps h i s.conns e c a) (hok : ¬ s.HandOverFails (.child i e))
    (hact : s.act a = some s') : (s'.setChild i c).Balanced := by
  obtain ⟨hread, hwrite, hdomain, hpipeWrite, hpipe⟩ := act_weighed hact
  obtain ⟨htaking, hreceiving, -⟩ := hsteps.weighed
  have hlogging := hsteps.logging
  have hlogSem := act_logSem hact
  have hputting := hsteps.putting fun err hpc he => hok (by subst he; exact .inr hpc)
  replace hreceiving := hreceiving fun err hpc he => hok (by subst he; exact .inl hpc)
  have hparent : (s'.setChild i c).parent = s.parent := (act_frame hact).1
  constructor
  · have hsum := sum_setChild (i := i) (c := c) Child.taking hact
    have hold := hs.domainSems
    change s'.domainRead + s'.domainWrite + (s'.setChild i c).parent.giving +
      ∑ j, ((s'.setChild i c).children j).taking = 1
    rw [hparent]
    omega
  · have hsum := sum_setChild (i := i) (c := c) Child.receiving hact
    have hold := hs.domain
    change s'.domain.length = s'.domainRead + (s'.setChild i c).parent.posting +
      ∑ j, ((s'.setChild i c).children j).receiving
    rw [hparent]
    omega
  · have hsum := sum_setChild (i := i) (c := c) Child.putting hact
    have hold := hs.pipe
    change s'.pipeWrite + s'.pipe.length + ∑ j, ((s'.setChild i c).children j).putting = 1
    omega
  · have hsum := sum_setChild (i := i) (c := c) Child.logging hact
    have hold := hs.log
    change s'.logSem + ∑ j, ((s'.setChild i c).children j).logging = 1
    omega

lemma Balanced.parent [NeZero M] {e : ParentEvent M} {u : Parent M} (hs : s.Balanced)
    (hstep : s.parent.step e = some u) (hok : ¬ s.HandOverFails (.parent e))
    (hcall : s.call e = some s') : ({ s' with parent := u } : System M N).Balanced := by
  obtain ⟨hchildren, -, hdomain, hpipe⟩ := parent_weighed hstep hcall
  have hsems := parent_sems hstep hcall fun err he => hok (by subst he; exact .inr trivial)
  have hlogSem := call_logSem hcall
  replace hpipe := hpipe fun err he => hok (by subst he; exact .inl trivial)
  constructor
  · have hold := hs.domainSems
    change s'.domainRead + s'.domainWrite + u.giving + ∑ j, (s'.children j).taking = 1
    rw [hchildren]
    omega
  · have hold := hs.domain
    change s'.domain.length = s'.domainRead + u.posting + ∑ j, (s'.children j).receiving
    rw [hchildren]
    omega
  · have hold := hs.pipe
    change s'.pipeWrite + s'.pipe.length + ∑ j, (s'.children j).putting = 1
    rw [hchildren]
    omega
  · have hold := hs.log
    change s'.logSem + ∑ j, (s'.children j).logging = 1
    rw [hchildren, hlogSem]
    exact hold

lemma Balanced.step [NeZero M] {e : Event M N} (hs : s.Balanced) (hok : ¬ s.HandOverFails e)
    (hstep : s.step h e = some t) : t.Balanced := by
  cases e with
  | parent e =>
    obtain ⟨u, s', hu, hcall, rfl⟩ := parent_of_step hstep
    exact hs.parent hu hok hcall
  | child i e =>
    obtain ⟨c, a, s', hc, hact, rfl⟩ := acted_of_step hstep
    exact hs.child (Child.steps_of_step hc) hok hact
  | deliver id bytes | hangup id =>
    obtain rfl := Option.some.inj hstep
    exact ⟨hs.domainSems, hs.domain, hs.pipe, hs.log⟩

lemma initial_balanced (listenFd pipeFd : ℤ) (others childOthers : ℤ → Bool)
    (conns : ℕ → Conn) :
    (initial listenFd pipeFd others childOthers conns : System M N).Balanced := by
  have hsum : ∀ f : Child → ℕ,
      (∀ i, f ((initial listenFd pipeFd others childOthers conns : System M N).children i) = 0) →
      ∑ i, f ((initial listenFd pipeFd others childOthers conns : System M N).children i) = 0 :=
    fun f hf => Finset.sum_eq_zero fun i _ => hf i
  constructor
  · rw [hsum Child.taking fun _ => rfl]
    rfl
  · rw [hsum Child.receiving fun _ => rfl]
    rfl
  · rw [hsum Child.putting fun _ => rfl]
    rfl
  · rw [hsum Child.logging fun _ => rfl]
    rfl

lemma Balanced.start_iff_idle (hs : s.Balanced) :
    (∀ name : SemName, s.semaphore name = name.start) ↔ s.Idle := by
  obtain ⟨hturn, hdomain, hpipe, hlog⟩ := hs
  have hposting := s.parent.posting_le_giving
  have hreceiving : ∑ i, (s.children i).receiving ≤ ∑ i, (s.children i).taking :=
    Finset.sum_le_sum fun i _ => (s.children i).receiving_le_taking
  have hzero : ∀ {f : Child → ℕ}, ∑ i, f (s.children i) = 0 ↔ ∀ i, f (s.children i) = 0 := by
    intro f
    simp [Finset.sum_eq_zero_iff]
  constructor
  · intro hstart
    have hpipeWrite : s.pipeWrite = 1 := hstart .pipeWrite
    have hread : s.domainRead = 0 := hstart .domainRead
    have hwrite : s.domainWrite = 1 := hstart .domainWrite
    have hlogSem : s.logSem = 1 := hstart .log
    exact ⟨List.length_eq_zero_iff.mp (by omega), List.length_eq_zero_iff.mp (by omega), by omega,
      hzero.mp (by omega), hzero.mp (by omega), hzero.mp (by omega)⟩
  · rintro ⟨hd, hp, hgiving, htaking, hputting, hlogging⟩
    rw [hd, List.length_nil] at hdomain
    rw [hp, List.length_nil, hzero.mpr hputting] at hpipe
    rw [hzero.mpr htaking] at hturn
    rw [hzero.mpr hlogging] at hlog
    intro name
    cases name <;> simp only [semaphore, SemName.start] <;> omega

lemma balanced_of_reaches [NeZero M] {listenFd pipeFd : ℤ} {others childOthers : ℤ → Bool}
    {conns : ℕ → Conn}
    (hs : (machine h).Reaches (fun s e => ¬ s.HandOverFails e)
      (initial listenFd pipeFd others childOthers conns) s) : s.Balanced :=
  hs.invariant (I := Balanced) (initial_balanced _ _ _ _ _) fun _ _ _ hs hok hstep =>
    hs.step hok hstep

def Leaves (s : System M N) (k : Kernel) : Prop := ∀ name, k.sems name = some (s.semaphore name)

end System

theorem openPipeSemaphoresDomainSockets_restored_iff [NeZero M] (h : Host) (k : Kernel)
    (so : StateObject M N) (calls : SetupCalls N)
    (hopened : (openPipeSemaphoresDomainSockets calls ⟨so, k⟩).1 = 0) :
    ((openPipeSemaphoresDomainSockets calls ⟨so, k⟩).2.kernel.Restored ↔
        ∀ name value, k.sems name = some value → value = name.start) ∧
      ∀ (listenFd pipeFd : ℤ) (others childOthers : ℤ → Bool) (conns : ℕ → Conn) (s : System M N),
        (System.machine h).Reaches (fun s e => ¬ s.HandOverFails e)
          (.initial listenFd pipeFd others childOthers conns) s → s.Leaves k →
        ((openPipeSemaphoresDomainSockets calls ⟨so, k⟩).2.kernel.Restored ↔ s.Idle) := by
  have hrestored := restored_iff hopened
  refine ⟨hrestored, fun listenFd pipeFd others childOthers conns s hs hleaves => ?_⟩
  rw [hrestored, ← (System.balanced_of_reaches hs).start_iff_idle]
  constructor
  · exact fun hstart name => hstart name _ (hleaves name)
  · intro hstart name value hvalue
    rw [hleaves name] at hvalue
    exact Option.some.inj hvalue ▸ hstart name

def dispatchEvents : List (Event maxConnections numChildProcesses) :=
  System.acceptEvents 6 0 (fun _ => .zero) ++
    System.pollEvents (fun p => if p = 0 then POLLIN else .zero) ++ System.passEvents 1

def restartCalls : SetupCalls numChildProcesses where
  pipe := .ok (4, 5)
  socketpair := .ok (6, 7)
  fork c := .ok (100 + c)
  socket := .ok 5

def restartConn : Conn where
  recvs := Stream'.const (.moves 4)
  sends := Stream'.const (.moves 4)
  selects := Stream'.const (.moves 0)

theorem restart_after_kill :
    let h : Host := ⟨.little, fun _ => true, fun _ => []⟩
    ∃ s, (System.machine h).run (dispatchEvents ++ [.parent (.wait (.ok ()))])
        (.initial 5 4 System.parentDescriptors System.childDescriptors fun _ => restartConn) = some s ∧
      ∀ k : Kernel, s.Leaves k →
        let opened := openPipeSemaphoresDomainSockets restartCalls
          (⟨{}, k⟩ : Setup maxConnections numChildProcesses)
        opened.1 = 0 ∧ opened.2.kernel.sems .domainWrite = some 0 ∧ ¬ opened.2.kernel.Restored := by
  intro h
  have hrun : ((System.machine h).run (dispatchEvents ++ [.parent (.wait (.ok ()))])
      (.initial 5 4 System.parentDescriptors System.childDescriptors fun _ => restartConn)).map
        System.domainWrite = some 0 := by decide +kernel
  obtain ⟨s, hs, hwrite⟩ := Option.map_eq_some_iff.mp hrun
  refine ⟨s, hs, fun k hleaves => ?_⟩
  have hok : (k.openSemaphores restartCalls.semOpen).1 = 0 := rfl
  have hopened : (openPipeSemaphoresDomainSockets restartCalls
      (⟨{}, k⟩ : Setup maxConnections numChildProcesses)).1 = 0 := rfl
  have hsem := Kernel.openSemaphores_sems hok .domainWrite
  rw [← (openSemaphores_of_opened hopened).2, hleaves .domainWrite, Option.getD_some] at hsem
  change _ = some s.domainWrite at hsem
  rw [hwrite] at hsem
  refine ⟨hopened, hsem, fun hrestored => ?_⟩
  have hstart := hrestored .domainWrite
  rw [hsem] at hstart
  cases hstart

def takenEvents : List (Event maxConnections numChildProcesses) :=
  dispatchEvents ++ System.handEvents ++
    [.child 0 (.run 0 {}), .child 0 .ok, .child 0 (.received ⟨6, .accepted {} 0⟩ 4), .child 0 .ok]

theorem openPipeSemaphoresDomainSockets_restored_iff_run :
    let h : Host := ⟨.little, fun _ => true, fun _ => []⟩
    ∃ s, (System.machine h).runWithin (fun s e => ¬ s.HandOverFails e) takenEvents
        (.initial 5 4 System.parentDescriptors System.childDescriptors fun _ => restartConn) =
          some s ∧
      (openPipeSemaphoresDomainSockets restartCalls
        (⟨{}, { sems := fun name => some (s.semaphore name) }⟩ :
          Setup maxConnections numChildProcesses)).2.kernel.Restored := by
  intro h
  have hrun : ((System.machine h).runWithin (fun s e => ¬ s.HandOverFails e) takenEvents
      (.initial 5 4 System.parentDescriptors System.childDescriptors fun _ => restartConn)).map
        (fun s => (s.domain.length, s.pipe.length, s.parent.giving,
          fun i => (s.children i).taking + (s.children i).putting + (s.children i).logging)) =
      some (0, 0, 0, fun _ => 0) := by decide +kernel
  obtain ⟨s, hs, hval⟩ := Option.map_eq_some_iff.mp hrun
  simp only [Prod.mk.injEq] at hval
  obtain ⟨hdomain, hpipe, hgiving, hchildren⟩ := hval
  have hzero : ∀ i, ((s.children i).taking = 0 ∧ (s.children i).putting = 0) ∧
      (s.children i).logging = 0 := by
    intro i
    rw [← Nat.add_eq_zero_iff, ← Nat.add_eq_zero_iff]
    exact congrFun hchildren i
  have hidle : s.Idle :=
    ⟨List.length_eq_zero_iff.mp hdomain, List.length_eq_zero_iff.mp hpipe, hgiving,
      fun i => (hzero i).1.1, fun i => (hzero i).1.2, fun i => (hzero i).2⟩
  exact ⟨s, hs, ((openPipeSemaphoresDomainSockets_restored_iff h
    { sems := fun name => some (s.semaphore name) } {} restartCalls rfl).2 5 4
      System.parentDescriptors System.childDescriptors (fun _ => restartConn) s
      (Machine.reaches_of_runWithin hs) fun _ => rfl).mpr hidle⟩

end ScalableServer.ProcessServer
