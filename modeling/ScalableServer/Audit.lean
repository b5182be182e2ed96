import ScalableServer.Attribution
import ScalableServer.PollServer.Audit
import ScalableServer.ProcessServer.Audit

namespace ScalableServer

open ScalableServer.Foundations ScalableServer.Core

theorem log_accounts (h : Host) :
    (∀ (listenFd : ℤ) (others : ℤ → Bool) s g,
        ((PollServer.server h).observe (PollServer.noteAudit h)).Reaches
          (fun p e => PollServer.AuditEvent p.1 e) (PollServer.initial listenFd others, {}) (s, g) →
        s.pc ≠ .returned (-1) → PollServer.Accounted s g) ∧
      ∀ (M N : ℕ) [NeZero M] (listenFd pipeFd : ℤ) (others childOthers : ℤ → Bool)
        (conns : ℕ → Conn), (∀ n, h.alloc n = true) →
        (∀ id, (conns id).position = 0 ∧ (conns id).sent = []) →
        ∀ (s : ProcessServer.System M N) g,
          ((ProcessServer.System.machine h).observe (ProcessServer.System.noteAudit h)).Reaches
            (fun p e => p.1.AuditEvent h e) (.initial listenFd pipeFd others childOthers conns, {})
            (s, g) → s.Accounted g :=
  ⟨fun _ _ _ _ hs hpc => PollServer.accounted hs hpc,
    fun _ _ _ _ _ _ _ _ halloc hfresh _ _ hs => ProcessServer.System.accounted hfresh halloc hs⟩

def twoBytes : Conn := { emptyMessage with unread := [0, 0, 0, 2, 7, 8] }

theorem log_accounts_one_client :
    let h : Host := ⟨.little, fun _ => true, fun _ => []⟩
    let polled : List PollServer.Event :=
      [.run 0 {}, .poll (.ok ⟨POLLIN, fun _ => .zero⟩), .accept (.ok (5, ⟨1, 2⟩, twoBytes)), .run 0 {},
        .poll (.ok ⟨.zero, fun i => if i = 0 then POLLIN else .zero⟩), .run 0 {}]
    let received := (ProcessServer.oneClient 8).insertIdx 15 (.child 1 (.run 0 {}))
    (∃ s g, ((PollServer.server h).observe (PollServer.noteAudit h)).runWithin
        (fun p e => PollServer.AuditEvent p.1 e) polled
        (PollServer.initial 4 fun fd => 0 ≤ fd ∧ fd < 5, {}) = some (s, g) ∧
        g.logged = [⟨0, 4, 2⟩] ∧ PollServer.Accounted s g) ∧
      ∃ (s : ProcessServer.System ProcessServer.maxConnections ProcessServer.numChildProcesses)
        (g : ProcessServer.Audit ProcessServer.numChildProcesses),
        ((ProcessServer.System.machine h).observe (ProcessServer.System.noteAudit h)).runWithin
          (fun p e => p.1.AuditEvent h e) received (.initial 5 4 ProcessServer.System.parentDescriptors
            ProcessServer.System.childDescriptors fun _ => twoBytes, {}) = some (s, g) ∧
        g.logged = [⟨0, 4, 2⟩] ∧ g.replied = [] ∧ s.Accounted g := by
  intro h polled received
  obtain ⟨hpoll, hprocess⟩ := log_accounts h
  constructor
  · have hrun : (((PollServer.server h).observe (PollServer.noteAudit h)).runWithin
        (fun p e => PollServer.AuditEvent p.1 e) polled
        (PollServer.initial 4 fun fd => 0 ≤ fd ∧ fd < 5, {})).map
          (fun q => (q.2.logged, decide (q.1.pc = .returned (-1)))) =
            some ([⟨0, 4, 2⟩], false) := by
      decide
    obtain ⟨⟨s, g⟩, hs, hval⟩ := Option.map_eq_some_iff.mp hrun
    obtain ⟨hlogged, hpc⟩ := Prod.mk.inj hval
    exact ⟨s, g, hs, hlogged,
      hpoll 4 _ s g (Machine.reaches_of_runWithin hs) (of_decide_eq_false hpc)⟩
  · have hrun : (((ProcessServer.System.machine h).observe
        (ProcessServer.System.noteAudit h)).runWithin (fun p e => p.1.AuditEvent h e)
        received (.initial 5 4 ProcessServer.System.parentDescriptors
          ProcessServer.System.childDescriptors fun _ => twoBytes, {})).map
          (fun q => (q.2.logged, q.2.replied)) = some ([⟨0, 4, 2⟩], []) := by decide
    obtain ⟨⟨s, g⟩, hs, hval⟩ := Option.map_eq_some_iff.mp hrun
    obtain ⟨hlogged, hreplied⟩ := Prod.mk.inj hval
    exact ⟨s, g, hs, hlogged, hreplied, hprocess _ _ 5 4 _ _ _ (fun _ => rfl)
      (fun _ => ⟨rfl, rfl⟩) s g (Machine.reaches_of_runWithin hs)⟩

end ScalableServer
