import ScalableServer.OneToOne.Attribution
import ScalableServer.PollServer.Attribution
import ScalableServer.ProcessServer.Attribution

namespace ScalableServer

open ScalableServer.Foundations ScalableServer.Core

theorem rows_attributed (h : Host) (listenFd pipeFd : ℤ) (others childOthers : ℤ → Bool)
    (peers : ℕ → SockAddr) (conns : ℕ → Conn) :
    (∀ s g, ((OneToOne.server h).observe (OneToOne.noteSources h peers)).Reaches (fun _ _ => True)
        (OneToOne.initial listenFd, {}) (s, g) →
        (OneToOne.Attributed s g ↔ ∀ peer ∈ g.rows, peer = {})) ∧
      (∀ s g, ((PollServer.server h).observe (PollServer.noteSources h)).Reaches
        (fun p e => PollServer.PosixEvent p.1 e ∧ PollServer.SparesZero p.1 e)
        (PollServer.initial listenFd others, []) (s, g) → PollServer.Attributed s g) ∧
      ∀ (s : ProcessServer.System ProcessServer.maxConnections ProcessServer.numChildProcesses) g,
        ((ProcessServer.System.machine h).observe (ProcessServer.System.noteSources h)).Reaches
          (fun _ e => e.NameFits) (.initial listenFd pipeFd others childOthers conns, {}) (s, g) →
        s.Attributed g :=
  ⟨fun _ _ => OneToOne.attributed_iff, fun _ _ => PollServer.attributed,
    fun _ _ => ProcessServer.System.attributed⟩

def emptyMessage : Conn :=
  { recvs := Stream'.const (.moves 4), sends := Stream'.const (.moves 4)
    selects := Stream'.const (.moves 0), unread := [0, 0, 0, 0], closed := true }

def OneToOne.oneClient : List Event :=
  [.pass { select := .moves 0, accept := .ok (6, emptyMessage), acceptSignal := false
           prior := fun _ => 0, t := fun _ => {} }]

def PollServer.oneClient : List Event :=
  [.run 0 {}, .poll (.ok ⟨POLLIN, fun _ => .zero⟩), .accept (.ok (5, ⟨1, 2⟩, emptyMessage)), .run 0 {},
    .poll (.ok ⟨.zero, fun i => if i = 0 then POLLIN else .zero⟩), .run 0 {}]

/-- Descriptor 0 is a connection, in slot 1. It hangs up between the looks at slots 1 and 4, and the
sweep closes it for slot 4, which is unused. Descriptor 0 is the next connection again, in slot 0,
and both slots name it. -/
def PollServer.staleSlot : List Event :=
  [.run 0 {}, .poll (.ok ⟨POLLIN, fun _ => .zero⟩), .accept (.ok (5, ⟨1, 2⟩, emptyMessage)), .run 0 {},
    .poll (.ok ⟨POLLIN, fun _ => .zero⟩), .accept (.ok (0, ⟨3, 4⟩, emptyMessage)), .run 0 {},
    .poll (.ok ⟨.zero, fun i => if i = 0 ∨ i = 4 then hungUp else .zero⟩), .run 0 {}, .run 0 {},
    .run 0 {}, .run 0 {}, .run 0 {}, .run 0 {}, .run 0 {}, .poll (.ok ⟨POLLIN, fun _ => .zero⟩),
    .accept (.ok (0, ⟨5, 6⟩, emptyMessage)), .run 0 {},
    .poll (.ok ⟨.zero, fun i => if i = 1 then POLLIN else .zero⟩), .run 0 {}, .run 0 {}]

def ProcessServer.oneClient (socklen : ℕ) :
    List (ProcessServer.Event ProcessServer.maxConnections ProcessServer.numChildProcesses) :=
  [.parent .run, .parent (.poll (.ok ⟨POLLIN, .zero, fun _ => .zero⟩)),
    .parent (.accept (.ok (6, ⟨1, 2⟩, 0))), .parent .run,
    .parent (.poll (.ok ⟨.zero, .zero, fun p => if p = 0 then POLLIN else .zero⟩)), .parent .run,
    .parent (.wait (.ok ())), .parent (.send (.ok ())), .parent .post, .child 1 (.run 0 {}),
    .child 1 .ok, .child 1 (.received ⟨6, .accepted ⟨1, 2⟩ 0⟩ 4 socklen), .child 1 .ok, .child 1 .ok,
    .child 1 (.run 0 {}), .child 1 (.run 0 {}), .child 1 .ok, .child 1 .ok, .child 1 .ok,
    .child 1 (.run 0 {})]

lemma OneToOne.oneClient_run (h : Host) (hd : h = ⟨.little, fun _ => true, fun _ => []⟩) :
    ∃ s g, ((server h).observe (noteSources h fun _ => ⟨1, 2⟩)).Reaches (fun _ _ => True)
        (initial 5, {}) (s, g) ∧ s.rows.map LogRow.client = [{}] ∧ g.rows = [⟨1, 2⟩] := by
  subst hd
  have hrun : (((server ⟨.little, fun _ => true, fun _ => []⟩).observe
      (noteSources ⟨.little, fun _ => true, fun _ => []⟩ fun _ => ⟨1, 2⟩)).run oneClient
        (initial 5, {})).map (fun q => (q.1.rows.map LogRow.client, q.2.rows)) =
          some ([{}], [⟨1, 2⟩]) := by decide
  obtain ⟨⟨s, g⟩, hs, hval⟩ := Option.map_eq_some_iff.mp hrun
  obtain ⟨hrows, hsources⟩ := Prod.mk.inj hval
  exact ⟨s, g, Machine.reaches_of_run (fun _ _ => trivial) hs, hrows, hsources⟩

theorem rows_not_attributed :
    let h : Host := ⟨.little, fun _ => true, fun _ => []⟩
    (¬ ∀ s g, ((OneToOne.server h).observe (OneToOne.noteSources h fun _ => ⟨1, 2⟩)).Reaches
        (fun _ _ => True) (OneToOne.initial 5, {}) (s, g) → OneToOne.Attributed s g) ∧
      (¬ ∀ s g, ((PollServer.server h).observe (PollServer.noteSources h)).Reaches
        (fun p e => PollServer.PosixEvent p.1 e)
        (PollServer.initial 4 fun fd => 1 ≤ fd ∧ fd < 5, []) (s, g) → PollServer.Attributed s g) ∧
      ¬ ∀ (s : ProcessServer.System ProcessServer.maxConnections ProcessServer.numChildProcesses) g,
        ((ProcessServer.System.machine h).observe (ProcessServer.System.noteSources h)).Reaches
          (fun _ _ => True) (.initial 5 4 ProcessServer.System.parentDescriptors
            ProcessServer.System.childDescriptors fun _ => emptyMessage, {}) (s, g) →
        s.Attributed g := by
  intro h
  refine ⟨fun hall => ?_, fun hall => ?_, fun hall => ?_⟩
  · obtain ⟨s, g, hs, hrows, hsources⟩ := OneToOne.oneClient_run h rfl
    have hattributed := hall s g hs
    rw [OneToOne.Attributed, hrows, hsources] at hattributed
    exact absurd hattributed (by decide)
  · have hrun : (((PollServer.server h).observe (PollServer.noteSources h)).runWithin
        (fun p e => PollServer.PosixEvent p.1 e) PollServer.staleSlot
        (PollServer.initial 4 fun fd => 1 ≤ fd ∧ fd < 5, [])).map
          (fun q => (q.1.rows.map fun row => some row.client, q.2)) =
            some ([some ⟨3, 4⟩], [some ⟨5, 6⟩]) := by decide
    obtain ⟨⟨s, g⟩, hs, hval⟩ := Option.map_eq_some_iff.mp hrun
    obtain ⟨hrows, hsources⟩ := Prod.mk.inj hval
    have hattributed := hall s g (Machine.reaches_of_runWithin hs)
    rw [PollServer.Attributed, hrows] at hattributed
    exact absurd (hattributed.trans hsources) (by decide)
  · have hrun : (((ProcessServer.System.machine h).observe (ProcessServer.System.noteSources h)).run
        (ProcessServer.oneClient 0) (.initial 5 4 ProcessServer.System.parentDescriptors
          ProcessServer.System.childDescriptors fun _ => emptyMessage, {})).map
          (fun q => (q.1.rows.map ProcessServer.LogRow.client, q.2.rows, q.2.peers)) =
            some ([{}], [[0]], [⟨1, 2⟩]) := by decide
    obtain ⟨⟨s, g⟩, hs, hval⟩ := Option.map_eq_some_iff.mp hrun
    simp only [Prod.mk.injEq] at hval
    obtain ⟨hrows, hsources, hpeers⟩ := hval
    have hattributed := hall s g (Machine.reaches_of_run (fun _ _ => trivial) hs)
    obtain ⟨row, hrow, hclient⟩ := List.map_eq_singleton_iff.mp hrows
    rw [ProcessServer.System.Attributed, hrow, hsources, hpeers] at hattributed
    cases hattributed with
    | cons hcarries _ =>
      have hpeer := hcarries.2 0 List.mem_cons_self
      rw [hclient] at hpeer
      exact absurd hpeer (by decide)

theorem rows_attributed_one_client :
    let h : Host := ⟨.little, fun _ => true, fun _ => []⟩
    (∃ s g, ((OneToOne.server h).observe (OneToOne.noteSources h fun _ => ⟨1, 2⟩)).Reaches
        (fun _ _ => True) (OneToOne.initial 5, {}) (s, g) ∧ s.rows.length = 1 ∧
        ¬ OneToOne.Attributed s g) ∧
      (∃ s g, ((PollServer.server h).observe (PollServer.noteSources h)).runWithin
          (fun p e => PollServer.PosixEvent p.1 e ∧ PollServer.SparesZero p.1 e)
          PollServer.oneClient (PollServer.initial 4 fun fd => 0 ≤ fd ∧ fd < 5, []) = some (s, g) ∧
        s.rows.length = 1 ∧ PollServer.Attributed s g) ∧
      ∃ (s : ProcessServer.System ProcessServer.maxConnections ProcessServer.numChildProcesses)
        (g : ProcessServer.Sources ProcessServer.numChildProcesses),
        ((ProcessServer.System.machine h).observe (ProcessServer.System.noteSources h)).runWithin
          (fun _ e => e.NameFits) (ProcessServer.oneClient 8)
          (.initial 5 4 ProcessServer.System.parentDescriptors
            ProcessServer.System.childDescriptors fun _ => emptyMessage, {}) = some (s, g) ∧
        s.rows.length = 1 ∧ s.Attributed g := by
  intro h
  obtain ⟨hone, -, -⟩ := rows_attributed h 5 4 (fun _ => false) (fun _ => false) (fun _ => ⟨1, 2⟩)
    fun _ => emptyMessage
  obtain ⟨-, hpoll, -⟩ := rows_attributed h 4 5 (fun fd => 0 ≤ fd ∧ fd < 5) (fun _ => false)
    (fun _ => {}) fun _ => emptyMessage
  obtain ⟨-, -, hprocess⟩ := rows_attributed h 5 4 ProcessServer.System.parentDescriptors
    ProcessServer.System.childDescriptors (fun _ => {}) fun _ => emptyMessage
  refine ⟨?_, ?_, ?_⟩
  · obtain ⟨s, g, hs, hrows, hsources⟩ := OneToOne.oneClient_run h rfl
    have hlen := congrArg List.length hrows
    rw [List.length_map] at hlen
    refine ⟨s, g, hs, hlen, fun hattributed => ?_⟩
    have hzero := (hone s g hs).mp hattributed
    rw [hsources] at hzero
    exact absurd (hzero _ List.mem_cons_self) (by decide)
  · have hrun : (((PollServer.server h).observe (PollServer.noteSources h)).runWithin
        (fun p e => PollServer.PosixEvent p.1 e ∧ PollServer.SparesZero p.1 e) PollServer.oneClient
        (PollServer.initial 4 fun fd => 0 ≤ fd ∧ fd < 5, [])).map (fun q => q.1.rows.length) =
          some 1 := by decide
    obtain ⟨⟨s, g⟩, hs, hlen⟩ := Option.map_eq_some_iff.mp hrun
    exact ⟨s, g, hs, hlen, hpoll s g (Machine.reaches_of_runWithin hs)⟩
  · have hrun : (((ProcessServer.System.machine h).observe
        (ProcessServer.System.noteSources h)).runWithin (fun _ e => e.NameFits)
        (ProcessServer.oneClient 8) (.initial 5 4 ProcessServer.System.parentDescriptors
          ProcessServer.System.childDescriptors fun _ => emptyMessage, {})).map
          (fun q => q.1.rows.length) = some 1 := by decide
    obtain ⟨⟨s, g⟩, hs, hlen⟩ := Option.map_eq_some_iff.mp hrun
    exact ⟨s, g, hs, hlen, hprocess s g (Machine.reaches_of_runWithin hs)⟩

end ScalableServer
