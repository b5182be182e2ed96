import ScalableServer.ProcessServer.Restart

namespace ScalableServer.ProcessServer

open ScalableServer.Foundations ScalableServer.Core

variable {M N : ℕ}

/-- The calls of `setup_process_server` that may fail in the parent process. -/
inductive SetupStep (N : ℕ)
  | callocState
  | pipe
  | semOpen
  | socketpair
  | fork (c : Fin N)
  | callocParent
  | socket
  | bind
  | listen

namespace SetupCalls

structure Opens (calls : SetupCalls N) : Prop where
  callocState : calls.callocState = true
  pipe : ∃ fds, calls.pipe = .ok fds
  semOpen : ∀ name, calls.semOpen name = true
  socketpair : ∃ fds, calls.socketpair = .ok fds

/-- `p_setup_parent` is reached. Where there are no children, `pid` has not been set. -/
structure Forks (calls : SetupCalls N) : Prop extends calls.Opens where
  fork : ∀ c, ∃ pid, calls.fork c = .ok pid
  pid : N = 0 → 0 < calls.pid

def FailsAt (calls : SetupCalls N) : SetupStep N → Prop
  | .callocState => calls.callocState = false
  | .pipe => calls.callocState = true ∧ ∃ err, calls.pipe = .error err
  | .semOpen => calls.callocState = true ∧ (∃ fds, calls.pipe = .ok fds) ∧
      ∃ name, calls.semOpen name = false
  | .socketpair => calls.callocState = true ∧ (∃ fds, calls.pipe = .ok fds) ∧
      (∀ name, calls.semOpen name = true) ∧ ∃ err, calls.socketpair = .error err
  | .fork c => calls.Opens ∧ (∀ d < c, ∃ pid, calls.fork d = .ok pid) ∧
      ∃ err, calls.fork c = .error err
  | .callocParent => calls.Forks ∧ calls.callocParent = false
  | .socket => calls.Forks ∧ calls.callocParent = true ∧ ∃ err, calls.socket = .error err
  | .bind => calls.Forks ∧ calls.callocParent = true ∧ (∃ fd, calls.socket = .ok fd) ∧
      calls.bind = false
  | .listen => calls.Forks ∧ calls.callocParent = true ∧ (∃ fd, calls.socket = .ok fd) ∧
      calls.bind = true ∧ calls.listen = false

def Recovers (calls : SetupCalls N) (ends : ℤ → Bool) (sems : SemName → Option ℕ) :
    SetupStep N → Prop
  | .callocState => False
  | .pipe | .semOpen => True
  | .socketpair => ∀ name, sems name ≠ none
  | .fork c => c.val = 0 ∧ ∀ name, sems name ≠ none
  | .callocParent => N = 0 ∧ ∀ name, sems name ≠ none
  | .socket | .bind | .listen => ∀ c pid, calls.fork c = .ok pid → ends pid = true

def pidOf (calls : SetupCalls N) (c : Fin N) : ℤ :=
  match calls.fork c with
  | .error _ => 0
  | .ok pid => pid

end SetupCalls

structure CleanedUp (sems : SemName → Option ℕ) (k : Kernel) : Prop where
  signalled : ∀ pid, pid ∈ k.signalled ↔ pid ∈ k.forked
  reaped : ∀ pid ∈ k.forked, pid ∈ k.reaped
  unlinked : ∀ name, sems name = none → k.sems name = none

namespace Setup

structure Begun (sems : SemName → Option ℕ) (forked : List ℤ) (s : Setup M N) : Prop where
  parent : s.so.parent = none
  child : s.so.child = none
  sems : s.kernel.sems = sems
  forked : s.kernel.forked = forked
  signalled : s.kernel.signalled = []
  reaped : s.kernel.reaped = []

structure Assigned (s : Setup M N) : Prop where
  parent : s.so.parent ≠ none
  children : s.kernel.forked = pidList s.so
  signalled : s.kernel.signalled = []
  reaped : s.kernel.reaped = []

end Setup

variable {calls : SetupCalls N} {ends : ℤ → Bool} {sems : SemName → Option ℕ} {s t : Setup M N}
  {k : Kernel} {forked : List ℤ}

section Close

lemma Setup.Begun.destroy (hs : s.Begun sems forked) :
    destroyProcessState ends s.core = some s.core := by
  simp only [destroyProcessState, Setup.core, hs.parent, hs.child]

lemma Setup.Assigned.destroy (hs : s.Assigned) :
    (∃ co, destroyProcessState ends s.core = some co ∧ CleanedUp sems co.kernel) ↔
      ∀ pid ∈ s.kernel.forked, ends pid = true := by
  obtain ⟨parent, hparent⟩ := Option.ne_none_iff_exists'.mp hs.parent
  simp only [destroyProcessState, Setup.core, hparent, pDestroyParentState_eq, ← hs.children]
  constructor
  · rintro ⟨co, hco, -⟩
    by_contra hnot
    rw [if_neg hnot] at hco
    cases hco
  · intro hends
    rw [if_pos hends]
    refine ⟨_, rfl, fun pid => ?_, fun pid hpid => ?_, fun name _ => rfl⟩
    · rw [hs.signalled, List.nil_append]
    · rw [hs.reaped, List.nil_append]
      exact hpid

end Close

section Open

def openedSems (sems : SemName → Option ℕ) (name : SemName) : Option ℕ :=
  some ((sems name).getD name.start)

lemma begun_start (sems : SemName → Option ℕ) :
    Setup.Begun sems [] (⟨{}, { sems := sems }⟩ : Setup M N) :=
  ⟨rfl, rfl, rfl, rfl, rfl, rfl⟩

lemma openSemaphores_frame (granted : SemName → Bool) (k : Kernel) :
    (k.openSemaphores granted).2.forked = k.forked ∧
      (k.openSemaphores granted).2.signalled = k.signalled ∧
      (k.openSemaphores granted).2.reaped = k.reaped := by
  have hopen : ∀ g name value (k : Kernel), (k.semOpen g name value).forked = k.forked ∧
      (k.semOpen g name value).signalled = k.signalled ∧
      (k.semOpen g name value).reaped = k.reaped := by
    intro g name value k
    rw [Kernel.semOpen]
    split_ifs <;> exact ⟨rfl, rfl, rfl⟩
  simp only [Kernel.openSemaphores]
  split_ifs <;> simp [Kernel.unlinkAll, Kernel.semUnlink, hopen]

lemma openSemaphores_granted (hgranted : ∀ name, calls.semOpen name = true) (k : Kernel) :
    (k.openSemaphores calls.semOpen).1 = 0 ∧
      (k.openSemaphores calls.semOpen).2.sems = openedSems k.sems := by
  have hok : (k.openSemaphores calls.semOpen).1 = 0 := by simp [Kernel.openSemaphores, hgranted]
  exact ⟨hok, funext (Kernel.openSemaphores_sems hok)⟩

lemma openSemaphores_refused {name : SemName} (hrefused : calls.semOpen name = false) (k : Kernel) :
    (k.openSemaphores calls.semOpen).1 = -1 ∧
      ∀ name, (k.openSemaphores calls.semOpen).2.sems name = none := by
  have hsome : calls.semOpen .pipeWrite = false ∨ calls.semOpen .domainRead = false ∨
      calls.semOpen .domainWrite = false ∨ calls.semOpen .log = false := by
    cases name <;> simp [hrefused]
  simp only [Kernel.openSemaphores, if_pos hsome, Kernel.unlinkAll_eq, implies_true, and_self]

lemma open_begun (sems : SemName → Option ℕ) (hopens : calls.Opens) :
    ∃ s, openPipeSemaphoresDomainSockets calls (⟨{}, { sems := sems }⟩ : Setup M N) = (0, s) ∧
      s.Begun (openedSems sems) [] := by
  obtain ⟨fds, hpipe⟩ := hopens.pipe
  obtain ⟨domainFds, hpair⟩ := hopens.socketpair
  obtain ⟨hok, hsems⟩ := openSemaphores_granted hopens.semOpen { sems := sems }
  obtain ⟨hforked, hsignalled, hreaped⟩ := openSemaphores_frame calls.semOpen { sems := sems }
  refine ⟨⟨{ cToPPipeFds := fds, domainFds := domainFds },
    (Kernel.openSemaphores calls.semOpen { sems := sems }).2⟩, ?_, rfl, rfl, hsems, hforked,
    hsignalled, hreaped⟩
  simp only [openPipeSemaphoresDomainSockets, hpipe, hok, hpair]
  rfl

end Open

section Fork

variable {c : Fin N} {pid : ℤ} {pre : List (Fin N)}

lemma pidOf_eq (hfork : calls.fork c = .ok pid) : calls.pidOf c = pid := by
  rw [SetupCalls.pidOf, hfork]

lemma Setup.Begun.record (hs : s.Begun sems forked) (hpid : 0 < pid) :
    (recordFork c pid s).Begun sems (forked ++ [pid]) := by
  obtain ⟨hparent, hchild, hsems, hforked, hsignalled, hreaped⟩ := hs
  rw [recordFork, if_neg hpid.ne']
  exact ⟨hparent, hchild, hsems, congrArg (· ++ [pid]) hforked, hsignalled, hreaped⟩

lemma forkLoop_append (cs : List (Fin N)) (hpositive : ∀ c pid, calls.fork c = .ok pid → 0 < pid)
    (hpre : ∀ c ∈ pre, ∃ pid, calls.fork c = .ok pid) (hs : s.Begun sems forked) (pid : ℤ) :
    ∃ s' pid', s'.Begun sems (forked ++ pre.map calls.pidOf) ∧
      forkLoop calls (pre ++ cs) pid s = forkLoop calls cs pid' s' ∧
      (pre = [] → pid' = pid) ∧ (pre ≠ [] → 0 < pid') ∧
      ∀ c, s'.so.childPids c = if c ∈ pre then calls.pidOf c else s.so.childPids c := by
  induction pre generalizing s forked pid with
  | nil =>
    rw [List.map_nil, List.append_nil]
    exact ⟨s, pid, hs, rfl, fun _ => rfl, fun hne => absurd rfl hne, fun _ => by simp⟩
  | cons d pre ih =>
    obtain ⟨p, hfork⟩ := hpre d List.mem_cons_self
    have hpos := hpositive d p hfork
    obtain ⟨s', pid', hs', hloop, hnil, hcons, hpids⟩ :=
      ih (fun c hc => hpre c (List.mem_cons_of_mem d hc)) (hs.record (c := d) hpos) p
    refine ⟨s', pid', ?_, ?_, fun h => absurd h (List.cons_ne_nil d pre), fun _ => ?_, fun c => ?_⟩
    · rw [List.map_cons, pidOf_eq hfork]
      rwa [List.append_assoc] at hs'
    · rw [List.cons_append, forkLoop, hfork]
      simp only [if_neg hpos.ne']
      exact hloop
    · by_cases hpre : pre = []
      · rw [hnil hpre]
        exact hpos
      · exact hcons hpre
    · rw [hpids c]
      by_cases hc : c ∈ pre
      · rw [if_pos hc, if_pos (List.mem_cons_of_mem d hc)]
      · rw [if_neg hc]
        by_cases hd : c = d
        · subst hd
          rw [if_pos List.mem_cons_self, pidOf_eq hfork]
          exact Function.update_self _ _ _
        · rw [if_neg (by simp [hd, hc])]
          exact Function.update_of_ne hd _ _

lemma Setup.Begun.cleared (hs : s.Begun sems forked) : Setup.Begun sems forked
    (⟨{ s.so with childPids := fun _ : Fin N => 0 }, s.kernel⟩ : Setup M N) :=
  ⟨hs.parent, hs.child, hs.sems, hs.forked, hs.signalled, hs.reaped⟩

lemma forkChildProcesses_cut (hpositive : ∀ c pid, calls.fork c = .ok pid → 0 < pid)
    (hearlier : ∀ d < c, ∃ pid, calls.fork d = .ok pid) {err : Errno} (hc : calls.fork c = .error err)
    (hs : s.Begun sems []) : ∃ s', forkChildProcesses calls s = (-1, s') ∧
      s'.Begun sems (((List.finRange N).take c).map calls.pidOf) := by
  have hpre : ∀ d ∈ (List.finRange N).take c, ∃ pid, calls.fork d = .ok pid := by
    intro d hd
    obtain ⟨i, hi, rfl⟩ := List.mem_take_iff_getElem.mp hd
    refine hearlier _ (Fin.lt_def.mpr ?_)
    rw [List.getElem_finRange]
    exact (lt_min_iff.mp hi).1
  have hlen : c.val < (List.finRange N).length := by
    rw [List.length_finRange]
    exact c.isLt
  have hsplit : List.finRange N =
      (List.finRange N).take c ++ c :: (List.finRange N).drop (c + 1) := by
    conv_lhs => rw [← List.take_append_drop c.val (List.finRange N),
      List.drop_eq_getElem_cons hlen, List.getElem_finRange]
    rfl
  obtain ⟨s', pid', hs', hloop, -⟩ := forkLoop_append (c :: (List.finRange N).drop (c + 1))
    hpositive hpre hs.cleared calls.pid
  rw [List.nil_append] at hs'
  refine ⟨s', ?_, hs'⟩
  rw [← hsplit, forkLoop, hc] at hloop
  simp only [forkChildProcesses, hloop]

lemma forkChildProcesses_all (hpositive : ∀ c pid, calls.fork c = .ok pid → 0 < pid)
    (hforks : calls.Forks) (hs : s.Begun sems []) :
    ∃ s', forkChildProcesses calls s =
        (if (pSetupParent calls s').1 = -1 then -1 else 0, (pSetupParent calls s').2) ∧
      s'.Begun sems ((List.finRange N).map calls.pidOf) ∧
      pidList s'.so = (List.finRange N).map calls.pidOf := by
  obtain ⟨s', pid', hs', hloop, hnil, hcons, hpids⟩ := forkLoop_append [] hpositive
    (fun c (_ : c ∈ List.finRange N) => hforks.fork c) hs.cleared calls.pid
  rw [List.nil_append] at hs'
  rw [List.append_nil, forkLoop] at hloop
  have hpos : 0 < pid' := by
    by_cases hN : List.finRange N = []
    · rw [hnil hN]
      exact hforks.pid (List.finRange_eq_nil_iff.mp hN)
    · exact hcons hN
  refine ⟨s', ?_, hs', ?_⟩
  · simp only [forkChildProcesses, hloop, if_pos hpos]
  · refine List.map_congr_left fun c hc => ?_
    rw [hpids c, if_pos hc]

end Fork

section Parent

lemma pSetupParent_refused (hcalloc : calls.callocParent = false) (hs : s.Begun sems forked) :
    ∃ s', pSetupParent calls s = (-1, s') ∧ s'.Begun sems forked := by
  rw [pSetupParent, if_pos hcalloc]
  exact ⟨_, rfl, rfl, hs.child, hs.sems, hs.forked, hs.signalled, hs.reaped⟩

def SetupCalls.ListenFails (calls : SetupCalls N) : Prop :=
  (∃ err, calls.socket = .error err) ∨ (∃ fd, calls.socket = .ok fd) ∧
    (calls.bind = false ∨ calls.bind = true ∧ calls.listen = false)

lemma pOpenProcessServerForListen_fails (hlisten : calls.ListenFails) (parent : ParentStruct M)
    (k : Kernel) : ∃ fds, pOpenProcessServerForListen calls parent k =
      (-1, parent, { k with closed := k.closed ++ fds }) := by
  obtain ⟨err, herr⟩ | ⟨⟨fd, hfd⟩, hbind | ⟨hbind, hlisten⟩⟩ := hlisten
  · refine ⟨[], ?_⟩
    rw [pOpenProcessServerForListen, herr, List.append_nil]
  · exact ⟨[fd], by simp [pOpenProcessServerForListen, hfd, hbind,
      Kernel.closeFdReportUndefinedError]⟩
  · exact ⟨[fd], by simp [pOpenProcessServerForListen, hfd, hbind, hlisten,
      Kernel.closeFdReportUndefinedError]⟩

lemma pSetupParent_fails (hcalloc : calls.callocParent = true) (hlisten : calls.ListenFails)
    (hs : s.Begun sems forked) (hchildren : pidList s.so = forked) :
    ∃ s', pSetupParent calls s = (-1, s') ∧ s'.Assigned ∧ s'.kernel.forked = forked := by
  obtain ⟨fds, hopen⟩ := pOpenProcessServerForListen_fails hlisten (callocParentStruct (M := M))
    ((s.kernel.closeFdReportUndefinedError s.so.cToPPipeFds.2).closeFdReportUndefinedError
      s.so.domainFds.1)
  simp only [pSetupParent, hcalloc, hopen]
  exact ⟨_, rfl, ⟨Option.some_ne_none _, hs.forked.trans hchildren.symm, hs.signalled, hs.reaped⟩,
    hs.forked⟩

end Parent

section Setup

variable {semsBefore : SemName → Option ℕ} {f : SetupStep N}

lemma Setup.Begun.cleanedUp_iff (hs : s.Begun sems forked) :
    (∃ co, destroyProcessState ends s.core = some co ∧ CleanedUp semsBefore co.kernel) ↔
      forked = [] ∧ ∀ name, semsBefore name = none → sems name = none := by
  constructor
  · rintro ⟨co, hco, hclean⟩
    rw [hs.destroy] at hco
    obtain rfl := Option.some.inj hco
    refine ⟨List.eq_nil_iff_forall_not_mem.mpr fun pid hpid => ?_, fun name hname => ?_⟩
    · have hsignalled := (hclean.signalled pid).mpr (by rw [← hs.forked] at hpid; exact hpid)
      rw [← List.mem_nil_iff pid, ← hs.signalled]
      exact hsignalled
    · rw [← hs.sems]
      exact hclean.unlinked name hname
  · rintro ⟨rfl, hnames⟩
    refine ⟨_, hs.destroy, fun pid => ?_, fun pid hpid => ?_, fun name hname => ?_⟩
    · change pid ∈ s.kernel.signalled ↔ pid ∈ s.kernel.forked
      rw [hs.signalled, hs.forked]
    · change pid ∈ s.kernel.forked at hpid
      rw [hs.forked] at hpid
      cases hpid
    · change s.kernel.sems name = none
      rw [hs.sems]
      exact hnames name hname

lemma openedSems_iff :
    (∀ name, sems name = none → openedSems sems name = none) ↔ ∀ name, sems name ≠ none :=
  forall_congr' fun _ => ⟨fun h hname => Option.some_ne_none _ (h hname),
    fun h hname => absurd hname h⟩

lemma setup_forks (sems : SemName → Option ℕ) (hopens : calls.Opens) :
    ∃ s : Setup M N, s.Begun (openedSems sems) [] ∧
      setupProcessServer calls (⟨none, { sems := sems }⟩ : CoreObject M N) =
        (if (forkChildProcesses calls s).1 = -1 then -1 else 0,
          (forkChildProcesses calls s).2.core) := by
  obtain ⟨s, hopen, hs⟩ := open_begun (M := M) sems hopens
  refine ⟨s, hs, ?_⟩
  simp only [setupProcessServer, hopens.callocState, hopen]
  rfl

def LeavesClean (M : ℕ) (calls : SetupCalls N) (ends : ℤ → Bool) (sems : SemName → Option ℕ)
    (P : Prop) : Prop :=
  ∃ co, setupProcessServer calls (⟨none, { sems := sems }⟩ : CoreObject M N) = (-1, co) ∧
    ((∃ co', destroyProcessState ends co = some co' ∧ CleanedUp sems co'.kernel) ↔ P)

variable {ends : ℤ → Bool} {sems : SemName → Option ℕ}

lemma leavesClean_callocState (hstate : calls.callocState = false) :
    LeavesClean M calls ends sems False := by
  refine ⟨⟨none, { sems := sems }⟩, by rw [setupProcessServer, if_pos hstate], ?_⟩
  simp [destroyProcessState]

lemma leavesClean_pipe (hf : calls.FailsAt .pipe) : LeavesClean M calls ends sems True := by
  obtain ⟨hstate, err, hpipe⟩ := hf
  refine ⟨(⟨{}, { sems := sems }⟩ : Setup M N).core, ?_, ?_⟩
  · simp only [setupProcessServer, openPipeSemaphoresDomainSockets, hstate, hpipe]
    rfl
  · rw [(begun_start sems).cleanedUp_iff]
    simp

lemma leavesClean_semOpen (hf : calls.FailsAt .semOpen) : LeavesClean M calls ends sems True := by
  obtain ⟨hstate, ⟨fds, hpipe⟩, name, hname⟩ := hf
  obtain ⟨hfails, hnone⟩ := openSemaphores_refused hname { sems := sems }
  obtain ⟨hforked, hsignalled, hreaped⟩ := openSemaphores_frame calls.semOpen { sems := sems }
  have hs : Setup.Begun (fun _ => none) [] (⟨{ cToPPipeFds := fds },
      (Kernel.openSemaphores calls.semOpen { sems := sems }).2⟩ : Setup M N) :=
    ⟨rfl, rfl, funext hnone, hforked, hsignalled, hreaped⟩
  refine ⟨_, ?_, hs.cleanedUp_iff.trans ?_⟩
  · simp only [setupProcessServer, openPipeSemaphoresDomainSockets, hstate, hpipe, hfails]
    rfl
  · simp

lemma leavesClean_socketpair (hf : calls.FailsAt .socketpair) :
    LeavesClean M calls ends sems (∀ name, sems name ≠ none) := by
  obtain ⟨hstate, ⟨fds, hpipe⟩, hgranted, err, hpair⟩ := hf
  obtain ⟨hok, hsems⟩ := openSemaphores_granted hgranted { sems := sems }
  obtain ⟨hforked, hsignalled, hreaped⟩ := openSemaphores_frame calls.semOpen { sems := sems }
  have hs : Setup.Begun (openedSems sems) [] (⟨{ cToPPipeFds := fds },
      (Kernel.openSemaphores calls.semOpen { sems := sems }).2⟩ : Setup M N) :=
    ⟨rfl, rfl, hsems, hforked, hsignalled, hreaped⟩
  refine ⟨_, ?_, hs.cleanedUp_iff.trans ?_⟩
  · simp only [setupProcessServer, openPipeSemaphoresDomainSockets, hstate, hpipe, hok, hpair]
    rfl
  · rw [openedSems_iff, and_iff_right rfl]

section Forks

variable (hpositive : ∀ c pid, calls.fork c = .ok pid → 0 < pid)

include hpositive

lemma leavesClean_fork {c : Fin N} (hf : calls.FailsAt (.fork c)) :
    LeavesClean M calls ends sems (c.val = 0 ∧ ∀ name, sems name ≠ none) := by
  obtain ⟨hopens, hearlier, err, hc⟩ := hf
  obtain ⟨s, hs, hsetup⟩ := setup_forks (M := M) sems hopens
  obtain ⟨s₁, hfork, hs₁⟩ := forkChildProcesses_cut hpositive hearlier hc hs
  rw [hfork] at hsetup
  refine ⟨s₁.core, hsetup, hs₁.cleanedUp_iff.trans ?_⟩
  rw [openedSems_iff, List.map_eq_nil_iff, ← List.length_eq_zero_iff, List.length_take,
    List.length_finRange, Nat.min_eq_left c.isLt.le]

lemma leavesClean_callocParent (hforks : calls.Forks) (hcalloc : calls.callocParent = false) :
    LeavesClean M calls ends sems (N = 0 ∧ ∀ name, sems name ≠ none) := by
  obtain ⟨s, hs, hsetup⟩ := setup_forks (M := M) sems hforks.toOpens
  obtain ⟨s₁, hfork, hs₁, -⟩ := forkChildProcesses_all hpositive hforks hs
  obtain ⟨s₂, hrole, hs₂⟩ := pSetupParent_refused hcalloc hs₁
  rw [hfork, hrole] at hsetup
  refine ⟨s₂.core, hsetup, hs₂.cleanedUp_iff.trans ?_⟩
  rw [openedSems_iff, List.map_eq_nil_iff, List.finRange_eq_nil_iff]

lemma leavesClean_listen (hforks : calls.Forks) (hcalloc : calls.callocParent = true)
    (hlisten : calls.ListenFails) :
    LeavesClean M calls ends sems (∀ c pid, calls.fork c = .ok pid → ends pid = true) := by
  obtain ⟨s, hs, hsetup⟩ := setup_forks (M := M) sems hforks.toOpens
  obtain ⟨s₁, hfork, hs₁, hpids⟩ := forkChildProcesses_all hpositive hforks hs
  obtain ⟨s₂, hrole, hs₂, hforked⟩ := pSetupParent_fails hcalloc hlisten hs₁ hpids
  rw [hfork, hrole] at hsetup
  refine ⟨s₂.core, hsetup, hs₂.destroy.trans ?_⟩
  rw [hforked]
  simp only [List.mem_map, List.mem_finRange, true_and, forall_exists_index,
    forall_apply_eq_imp_iff]
  refine forall_congr' fun c => ?_
  obtain ⟨pid, hpid⟩ := hforks.fork c
  rw [pidOf_eq hpid, hpid]
  simp

lemma leavesClean_of_failsAt (hf : calls.FailsAt f) :
    LeavesClean M calls ends sems (calls.Recovers ends sems f) := by
  cases f with
  | callocState => exact leavesClean_callocState hf
  | pipe => exact leavesClean_pipe hf
  | semOpen => exact leavesClean_semOpen hf
  | socketpair => exact leavesClean_socketpair hf
  | fork c => exact leavesClean_fork hpositive hf
  | callocParent =>
    obtain ⟨hforks, hcalloc⟩ := hf
    exact leavesClean_callocParent hpositive hforks hcalloc
  | socket =>
    obtain ⟨hforks, hcalloc, hsocket⟩ := hf
    exact leavesClean_listen hpositive hforks hcalloc (.inl hsocket)
  | bind =>
    obtain ⟨hforks, hcalloc, hsocket, hbind⟩ := hf
    exact leavesClean_listen hpositive hforks hcalloc (.inr ⟨hsocket, .inl hbind⟩)
  | listen =>
    obtain ⟨hforks, hcalloc, hsocket, hbind, hlisten⟩ := hf
    exact leavesClean_listen hpositive hforks hcalloc (.inr ⟨hsocket, .inr ⟨hbind, hlisten⟩⟩)

end Forks

end Setup

theorem setup_failed_cleanedUp_iff (calls : SetupCalls N) (ends : ℤ → Bool)
    (run : CoreObject M N → Option (ServerStates × CoreObject M N)) (sems : SemName → Option ℕ)
    (hpositive : ∀ c pid, calls.fork c = .ok pid → 0 < pid) (f : SetupStep N)
    (hf : calls.FailsAt f) :
    (∃ co, runCore (some (setupApi calls ends run)) ⟨none, { sems := sems }⟩ =
        some (exitFailure, co) ∧ CleanedUp sems co.kernel) ↔ calls.Recovers ends sems f := by
  obtain ⟨co, hsetup, hiff⟩ : LeavesClean M calls ends sems _ := leavesClean_of_failsAt hpositive hf
  have hinit : (setupApi calls ends run).initializeServer ⟨none, { sems := sems }⟩ =
      some (.error, co) := by
    simp only [setupApi, hsetup]
    rfl
  rw [← hiff, runCore_failed hinit rfl]
  constructor
  · rintro ⟨co', hco', hclean⟩
    obtain ⟨co'', hdestroy, hval⟩ := Option.map_eq_some_iff.mp hco'
    obtain ⟨-, rfl⟩ := Prod.mk.inj hval
    exact ⟨co'', hdestroy, hclean⟩
  · rintro ⟨co', hdestroy, hclean⟩
    exact ⟨co', by rw [hdestroy]; rfl, hclean⟩

def failingFork : SetupCalls numChildProcesses :=
  { restartCalls with fork := fun c => if c.val = 1 then .error (.other 11) else .ok (100 + c) }

theorem setup_failed_leaves_child :
    failingFork.FailsAt (.fork ⟨1, by decide⟩) ∧
      ∃ co : CoreObject maxConnections numChildProcesses,
        runCore (some (setupApi failingFork (fun _ => true) fun _ => none))
            ⟨none, { sems := fun _ => none }⟩ = some (exitFailure, co) ∧
          co.kernel.forked = [100] ∧ co.kernel.signalled = [] ∧ co.kernel.sems .log = some 1 ∧
          ¬ CleanedUp (fun _ => none) co.kernel := by
  refine ⟨⟨⟨rfl, ⟨_, rfl⟩, fun _ => rfl, _, rfl⟩, fun d hd => ⟨100 + d, ?_⟩, _, rfl⟩, ?_⟩
  · have hzero : d.val = 0 := Nat.lt_one_iff.mp hd
    exact if_neg (by omega)
  · have hrun : (runCore (some (setupApi failingFork (fun _ => true) fun _ => none))
        (⟨none, { sems := fun _ => none }⟩ : CoreObject maxConnections numChildProcesses)).map
        (fun r => (r.1, r.2.kernel.forked, r.2.kernel.signalled, r.2.kernel.sems .log)) =
        some (exitFailure, [100], [], some 1) := by decide
    obtain ⟨⟨status, co⟩, hco, hval⟩ := Option.map_eq_some_iff.mp hrun
    simp only [Prod.mk.injEq] at hval
    obtain ⟨rfl, hforked, hsignalled, hlog⟩ := hval
    refine ⟨co, hco, hforked, hsignalled, hlog, fun hclean => ?_⟩
    have hnone := hclean.unlinked .log rfl
    rw [hlog] at hnone
    cases hnone

theorem setup_failed_cleanedUp_of_listen :
    ∃ co : CoreObject maxConnections numChildProcesses,
      runCore (some (setupApi { restartCalls with listen := false } (fun _ => true) fun _ => none))
          ⟨none, { sems := fun _ => none }⟩ = some (exitFailure, co) ∧
        CleanedUp (fun _ => none) co.kernel := by
  refine (setup_failed_cleanedUp_iff { restartCalls with listen := false } (fun _ => true)
    (fun _ => none) (fun _ => none) ?_ .listen ?_).mpr fun _ _ _ => rfl
  · intro c pid hpid
    obtain rfl := Except.ok.inj hpid
    positivity
  · exact ⟨⟨⟨rfl, ⟨_, rfl⟩, fun _ => rfl, _, rfl⟩, fun c => ⟨_, rfl⟩, by rintro ⟨⟩⟩, rfl, ⟨_, rfl⟩,
      rfl, rfl⟩

end ScalableServer.ProcessServer
