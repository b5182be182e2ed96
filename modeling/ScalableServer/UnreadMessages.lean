import ScalableServer.PollServer.Removals
import ScalableServer.ProcessServer.Removals

namespace ScalableServer

open ScalableServer.Foundations ScalableServer.Core

/-- What the connections of the process server bring along is taken for delivered. -/
theorem removals_spare_messages {M N : ℕ} [NeZero M] (h : Host) (listenFd pipeFd : ℤ)
    (others childOthers : ℤ → Bool) (conns : ℕ → Conn) :
    (∀ s came, ((PollServer.server h).observe PollServer.delivered).Reaches
        (fun p e => PollServer.PosixEvent p.1 e ∧ PollServer.HangsUpClosed p.1 e ∧
          PollServer.SparesMessages p.1 p.2 e)
        (PollServer.initial listenFd others, fun _ => []) (s, came) →
        PollServer.RemovesOnlyRead s came) ∧
      ∀ (s : ProcessServer.System M N) (r : ProcessServer.Record),
        ((ProcessServer.System.machine h).observe ProcessServer.System.record).Reaches
          (fun p e => p.1.PosixEvent e ∧ p.1.HangsUpClosed e ∧ p.1.SparesMessages p.2 e)
          (.initial listenFd pipeFd others childOthers conns,
            ⟨fun id => (conns id).unread, fun _ => false⟩) (s, r) → s.RemovesOnlyRead r :=
  ⟨fun _ _ => PollServer.removesOnlyRead, fun _ _ => ProcessServer.System.removesOnlyRead⟩

def sentMessage : List UInt8 := [0, 0, 0, 1, 7]

lemma sentMessage_came : MessageCame sentMessage :=
  ⟨[], [7], [], by decide, by decide⟩

lemma sentMessage_unread : MessageUnread sentMessage sentMessage :=
  ⟨[], [7], [], by decide, by decide, by decide⟩

def steadyConn : Conn :=
  { recvs := Stream'.const (.moves 8), sends := Stream'.const (.moves 4)
    selects := Stream'.const (.moves 0) }

def littleHost : Host := ⟨.little, fun _ => true, fun _ => []⟩

def PollServer.messageEvents : List PollServer.Event :=
  [.run 0 {}, .poll (.ok ⟨POLLIN, fun _ => .zero⟩), .accept (.ok (5, ⟨1, 2⟩, steadyConn)),
    .deliver 5 sentMessage]

def PollServer.sweepEvents (reported : Events) : List PollServer.Event :=
  [.run 0 {}, .poll (.ok ⟨.zero, fun i => if i = 0 then reported else .zero⟩)]

namespace ProcessServer.System

def messageEvents : List (Event maxConnections numChildProcesses) :=
  acceptEvents 6 0 (fun _ => .zero) ++ [.deliver 0 sentMessage]

def sweepEvents (reported : Events) : List (Event maxConnections numChildProcesses) :=
  pollEvents fun p => if p = 0 then reported else .zero

def childEvents : List (Event maxConnections numChildProcesses) :=
  [.child 1 (.run 0 {}), .child 1 .ok, .child 1 (.received ⟨6, .accepted {} 0⟩ 4), .child 1 .ok,
    .child 1 .ok, .child 1 (.run 0 {}), .child 1 (.run 0 {}), .child 1 (.run 0 {}), .child 1 .ok,
    .child 1 .ok, .parent .run, .parent (.poll (.ok ⟨.zero, POLLIN, fun _ => .zero⟩)),
    .parent (.read (.ok 6))]

end ProcessServer.System

theorem not_removals_spare_messages :
    (¬ ∀ (h : Host) (listenFd : ℤ) (others : ℤ → Bool) (s : PollServer.Server)
        (came : ℤ → List UInt8), ((PollServer.server h).observe PollServer.delivered).Reaches
          (fun p e => PollServer.PosixEvent p.1 e ∧ PollServer.HangsUpClosed p.1 e)
          (PollServer.initial listenFd others, fun _ => []) (s, came) →
        PollServer.RemovesOnlyRead s came) ∧
      ¬ ∀ (h : Host) (listenFd pipeFd : ℤ) (others childOthers : ℤ → Bool) (conns : ℕ → Conn)
        (s : ProcessServer.System ProcessServer.maxConnections ProcessServer.numChildProcesses)
        (r : ProcessServer.Record),
        ((ProcessServer.System.machine h).observe ProcessServer.System.record).Reaches
          (fun p e => p.1.PosixEvent e ∧ p.1.HangsUpClosed e)
          (.initial listenFd pipeFd others childOthers conns,
            ⟨fun id => (conns id).unread, fun _ => false⟩) (s, r) → s.RemovesOnlyRead r := by
  constructor
  · intro hall
    have hrun : (((PollServer.server littleHost).observe PollServer.delivered).runWithin
        (fun p e => PollServer.PosixEvent p.1 e ∧ PollServer.HangsUpClosed p.1 e)
        (PollServer.messageEvents ++ [.hangup 5] ++
          PollServer.sweepEvents { pollin := true, pollhup := true })
        (PollServer.initial 4 (· < 5), fun _ => [])).map (fun p =>
          (decide (PollServer.RemovalEntered p.1 0), (p.1.conn 0).map fun c => c.unread,
            p.2 (p.1.pollfds.client 0).fd)) = some (true, some sentMessage, sentMessage) := by
      decide +kernel
    obtain ⟨⟨s, came⟩, hs, hval⟩ := Option.map_eq_some_iff.mp hrun
    simp only [Prod.mk.injEq, decide_eq_true_eq, Option.map_eq_some_iff] at hval
    obtain ⟨hentered, ⟨c, hc, hunread⟩, hcame⟩ := hval
    apply hall littleHost 4 (· < 5) s came (Machine.reaches_of_runWithin hs) 0 hentered c hc
    rw [hcame, hunread]
    exact sentMessage_unread
  · intro hall
    have hrun : (((ProcessServer.System.machine littleHost).observe
        ProcessServer.System.record).runWithin
        (fun p e => p.1.PosixEvent e ∧ p.1.HangsUpClosed e)
        (ProcessServer.System.messageEvents ++ [.hangup 0] ++
          ProcessServer.System.sweepEvents { pollin := true, pollhup := true })
        (.initial 5 4 ProcessServer.System.parentDescriptors ProcessServer.System.childDescriptors
          fun _ => steadyConn, ⟨fun _ => [], fun _ => false⟩)).map (fun p =>
          (decide (p.1.parent.RemovalEntered 0), p.1.parent.conn 0, (p.1.conns 0).unread,
            p.2.came 0)) = some (true, some 0, sentMessage, sentMessage) := by
      decide +kernel
    obtain ⟨⟨s, r⟩, hs, hval⟩ := Option.map_eq_some_iff.mp hrun
    simp only [Prod.mk.injEq, decide_eq_true_eq] at hval
    obtain ⟨hentered, hconn, hunread, hcame⟩ := hval
    refine (hall littleHost 5 4 _ _ (fun _ => steadyConn) s r (Machine.reaches_of_runWithin hs) 0
      hentered 0 hconn).1 ?_
    rw [hcame, hunread]
    exact sentMessage_unread

theorem removals_spare_messages_run :
    (∃ s came, ((PollServer.server littleHost).observe PollServer.delivered).runWithin
        (fun p e => PollServer.PosixEvent p.1 e ∧ PollServer.HangsUpDrained p.1 e)
        (PollServer.messageEvents ++ PollServer.sweepEvents POLLIN ++
          List.replicate 6 (.run 0 {}) ++ [.hangup 5] ++
          PollServer.sweepEvents { pollin := true, pollhup := true })
        (PollServer.initial 4 (· < 5), fun _ => []) = some (s, came) ∧
      PollServer.RemovalEntered s 0 ∧ MessageCame (came 5) ∧
      ∀ c ∈ s.conn 0, ¬ MessageUnread (came 5) c.unread) ∧
      ∃ s r, ((ProcessServer.System.machine littleHost).observe
        ProcessServer.System.record).runWithin
        (fun p e => p.1.PosixEvent e ∧ p.1.HangsUpDrained e)
        (ProcessServer.System.messageEvents ++ ProcessServer.System.sweepEvents POLLIN ++
          ProcessServer.System.passEvents 1 ++ ProcessServer.System.handEvents ++
          ProcessServer.System.passEvents 5 ++ ProcessServer.System.childEvents ++ [.hangup 0] ++
          ProcessServer.System.sweepEvents { pollin := true, pollhup := true })
        (.initial 5 4 ProcessServer.System.parentDescriptors ProcessServer.System.childDescriptors
          fun _ => steadyConn, ⟨fun _ => [], fun _ => false⟩) = some (s, r) ∧
      s.parent.RemovalEntered 0 ∧ MessageCame (r.came 0) ∧
      ¬ MessageUnread (r.came 0) (s.conns 0).unread ∧ r.dispatched 0 = true := by
  obtain ⟨hpoll, -⟩ := removals_spare_messages (M := 1) (N := 1) littleHost 4 0 (· < 5) (· < 5)
    fun _ => steadyConn
  obtain ⟨-, hprocess⟩ := removals_spare_messages (M := ProcessServer.maxConnections)
    (N := ProcessServer.numChildProcesses) littleHost 5 4 ProcessServer.System.parentDescriptors
    ProcessServer.System.childDescriptors fun _ => steadyConn
  constructor
  · have hrun : (((PollServer.server littleHost).observe PollServer.delivered).runWithin
        (fun p e => PollServer.PosixEvent p.1 e ∧ PollServer.HangsUpDrained p.1 e)
        (PollServer.messageEvents ++ PollServer.sweepEvents POLLIN ++
          List.replicate 6 (.run 0 {}) ++ [.hangup 5] ++
          PollServer.sweepEvents { pollin := true, pollhup := true })
        (PollServer.initial 4 (· < 5), fun _ => [])).map (fun p =>
          (decide (PollServer.RemovalEntered p.1 0), (p.1.pollfds.client 0).fd, p.2 5)) =
            some (true, 5, sentMessage) := by decide +kernel
    obtain ⟨⟨s, came⟩, hs, hval⟩ := Option.map_eq_some_iff.mp hrun
    simp only [Prod.mk.injEq, decide_eq_true_eq] at hval
    obtain ⟨hentered, hfd, hcame⟩ := hval
    refine ⟨s, came, hs, hentered, hcame ▸ sentMessage_came, ?_⟩
    rw [← hfd]
    refine hpoll s came ?_ 0 hentered
    exact (Machine.reaches_of_runWithin hs).mono fun p e he => ⟨he.1, he.2.spares⟩
  · have hrun : (((ProcessServer.System.machine littleHost).observe
        ProcessServer.System.record).runWithin
        (fun p e => p.1.PosixEvent e ∧ p.1.HangsUpDrained e)
        (ProcessServer.System.messageEvents ++ ProcessServer.System.sweepEvents POLLIN ++
          ProcessServer.System.passEvents 1 ++ ProcessServer.System.handEvents ++
          ProcessServer.System.passEvents 5 ++ ProcessServer.System.childEvents ++ [.hangup 0] ++
          ProcessServer.System.sweepEvents { pollin := true, pollhup := true })
        (.initial 5 4 ProcessServer.System.parentDescriptors ProcessServer.System.childDescriptors
          fun _ => steadyConn, ⟨fun _ => [], fun _ => false⟩)).map (fun p =>
          (decide (p.1.parent.RemovalEntered 0), p.1.parent.conn 0, p.2.came 0)) =
            some (true, some 0, sentMessage) := by decide +kernel
    obtain ⟨⟨s, r⟩, hs, hval⟩ := Option.map_eq_some_iff.mp hrun
    simp only [Prod.mk.injEq, decide_eq_true_eq] at hval
    obtain ⟨hentered, hconn, hcame⟩ := hval
    have hremoves : s.RemovesOnlyRead r := by
      apply hprocess s r
      exact (Machine.reaches_of_runWithin hs).mono fun p e he => ⟨he.1, he.2.spares⟩
    have hmessage : MessageCame (r.came 0) := hcame ▸ sentMessage_came
    obtain ⟨hread, hdispatched⟩ := hremoves 0 hentered 0 hconn
    exact ⟨s, r, hs, hentered, hmessage, hread, hdispatched hmessage⟩

end ScalableServer
