import ScalableServer.Foundations.Updates
import ScalableServer.PollServer.ConnectionTable
import ScalableServer.ProcessServer.ParentTable

/-! Unused slots under every result that POSIX permits. An unused slot names descriptor 0, for
which `poll` may report a hang-up or an error that no slot requested; the sweeps of both servers
then remove a connection that is not there. `others` are the descriptors that are open when a
server begins to poll; 0 is one of them, standard input or what was opened in its place before. -/

namespace ScalableServer

open ScalableServer.Foundations ScalableServer.Core

namespace PollServer

def PosixEvent (s : Server) : Event → Prop
  | .poll (.ok r) => s.pollfds.listen.MayReport r.listen ∧
      ∀ i, (s.pollfds.client i).MayReport (r.client i)
  | .accept (.ok (fd, _, _)) => 0 ≤ fd ∧ s.fds fd = none
  | _ => True

def UnusedQuiet (s : Server) : Event → Prop
  | .poll (.ok r) => r.listen ≠ POLLIN →
      ∀ i, (s.pollfds.client i).fd = 0 → (r.client i).hangup = false
  | _ => True

instance (s : Server) : (e : Event) → Decidable (PosixEvent s e)
  | .poll (.ok _) => inferInstanceAs (Decidable (_ ∧ _))
  | .accept (.ok (_, _, _)) => inferInstanceAs (Decidable (_ ∧ _))
  | .poll (.error _) | .accept (.error _) | .run _ _ | .deliver _ _ | .hangup _ | .signal =>
    .isTrue trivial

instance (s : Server) : (e : Event) → Decidable (UnusedQuiet s e)
  | .poll (.ok _) => inferInstanceAs (Decidable (_ → _))
  | .poll (.error _) | .accept _ | .run _ _ | .deliver _ _ | .hangup _ | .signal => .isTrue trivial

structure RemovesOnlyAccepted (others : ℤ → Bool) (s : Server) : Prop where
  removal : ∀ i, RemovalEntered s i →
    ∃ addr c, s.fds (s.pollfds.client i).fd = some (.accepted addr c)
  count : s.so.numConnections ≤ maxConnections
  kept : ∀ fd, others fd = true → s.fds fd = some .other

variable {h : Host} {s t : Server} {e : Event} {others : ℤ → Bool} {listenFd g : ℤ}

lemma served_fds (s : Server) (i : Fin maxConnections) (addr : SockAddr) (r : Handled) :
    (served s i addr r).fds =
      Function.update s.fds (s.pollfds.client i).fd (some (.accepted addr r.conn)) := by
  rw [served]
  split_ifs <;> rfl

lemma Sound.other_kept (hs : Sound s) (he : OrderlyEvent s e) (hstep : Moves h s e t)
    (hg : s.fds g = some .other) : t.fds g = some .other := by
  cases hstep with
  | serve hpc hin hc hr =>
    rw [served_fds]
    exact kept_update (by rw [hc]; rintro ⟨⟩) hg
  | remove hpc hin hup =>
    obtain ⟨addr, c, hc⟩ := hs.removal ⟨hpc, hin, hup⟩
    exact kept_update (by rw [hc]; rintro ⟨⟩) hg
  | accept hpc => exact kept_update (by rw [he.2]; rintro ⟨⟩) hg
  | deliver hc => exact kept_update (by rw [hc]; rintro ⟨⟩) hg
  | hangup hc => exact kept_update (by rw [hc]; rintro ⟨⟩) hg
  | _ => exact hg

lemma orderly_of_quiet (h0 : s.fds 0 = some .other) (hposix : PosixEvent s e)
    (hquiet : UnusedQuiet s e) : OrderlyEvent s e := by
  cases e with
  | poll result =>
    cases result with
    | error e => trivial
    | ok r => exact ⟨hposix.1, hposix.2, hquiet⟩
  | accept result =>
    cases result with
    | error e => trivial
    | ok r =>
      refine ⟨?_, hposix.2⟩
      intro hfd
      have hnone := hposix.2
      rw [hfd, h0] at hnone
      cases hnone
  | _ => trivial

lemma removesOnlyAccepted (h0 : others 0 = true)
    (hr : (server h).Reaches (fun s e => PosixEvent s e ∧ UnusedQuiet s e)
      (initial listenFd others) s) : RemovesOnlyAccepted others s := by
  have hinv : Sound s ∧ ∀ fd, others fd = true → s.fds fd = some .other := by
    refine hr.invariant (I := fun s => Sound s ∧ ∀ fd, others fd = true → s.fds fd = some .other)
      ⟨initial_sound listenFd others, fun fd hfd => if_pos hfd⟩ ?_
    rintro a e b ⟨hs, hkept⟩ ⟨hposix, hquiet⟩ hstep
    have he := orderly_of_quiet (hkept 0 h0) hposix hquiet
    have hmoves := moves_of_step hstep
    exact ⟨hs.step he hmoves, fun fd hfd => hs.other_kept he hmoves (hkept fd hfd)⟩
  exact ⟨fun _ => hinv.1.removal, hinv.1.registered.count_le, hinv.2⟩

end PollServer

namespace ProcessServer.Parent

variable {M : ℕ} {s t : Parent M} {e : ParentEvent M} {others : ℤ → Bool} {listenFd pipeFd g : ℤ}

def PosixEvent (s : Parent M) : ParentEvent M → Prop
  | .poll (.ok r) => s.so.pollfds.listen.MayReport r.listen ∧
      s.so.pollfds.pipe.MayReport r.pipe ∧ ∀ p, (s.client p).MayReport (r.client p)
  | .accept (.ok (fd, _, _)) => 0 ≤ fd ∧ s.fds fd = none
  | _ => True

def UnusedQuiet (s : Parent M) : ParentEvent M → Prop
  | .poll (.ok r) => r.listen ≠ POLLIN → r.pipe ≠ POLLIN →
      ∀ p, (s.client p).fd = 0 → (r.client p).hangup = false
  | _ => True

instance (s : Parent M) : (e : ParentEvent M) → Decidable (s.PosixEvent e)
  | .poll (.ok _) => inferInstanceAs (Decidable (_ ∧ _))
  | .accept (.ok (_, _, _)) => inferInstanceAs (Decidable (_ ∧ _))
  | .poll (.error _) | .accept (.error _) | .run | .read _ | .wait _ | .send _ | .post | .signal =>
    .isTrue trivial

instance (s : Parent M) : (e : ParentEvent M) → Decidable (s.UnusedQuiet e)
  | .poll (.ok _) => inferInstanceAs (Decidable (_ → _ → _))
  | .poll (.error _) | .accept _ | .run | .read _ | .wait _ | .send _ | .post | .signal =>
    .isTrue trivial

structure RemovesOnlyAccepted (others : ℤ → Bool) (s : Parent M) : Prop where
  removal : ∀ p, s.RemovalEntered p → ∃ addr conn, s.fds (s.client p).fd = some (.accepted addr conn)
  count : s.so.numConnections ≤ M
  kept : ∀ fd, others fd = true → s.fds fd = some .other

lemma orderly_of_quiet (h0 : s.fds 0 = some .other) (hposix : s.PosixEvent e)
    (hquiet : s.UnusedQuiet e) : s.OrderlyEvent e := by
  cases e with
  | poll result =>
    cases result with
    | error e => trivial
    | ok r => exact ⟨hposix.1, hposix.2.2, hquiet⟩
  | accept result =>
    cases result with
    | error e => trivial
    | ok r =>
      refine ⟨lt_of_le_of_ne hposix.1 ?_, hposix.2⟩
      intro hfd
      have hnone := hposix.2
      rw [← hfd, h0] at hnone
      cases hnone
  | _ => trivial

lemma removesOnlyAccepted [NeZero M] (hM : M < sizeMod) (h0 : others 0 = true)
    (hr : machine.Reaches (fun s e => s.PosixEvent e ∧ s.UnusedQuiet e)
      (initial listenFd pipeFd others) s) : s.RemovesOnlyAccepted others := by
  have hinv : s.Sound ∧ ∀ fd, others fd = true → s.fds fd = some .other := by
    refine hr.invariant (I := fun s => s.Sound ∧ ∀ fd, others fd = true → s.fds fd = some .other)
      ⟨initial_sound listenFd pipeFd others (NeZero.pos M), fun fd hfd => if_pos hfd⟩ ?_
    rintro a e b ⟨hs, hkept⟩ ⟨hposix, hquiet⟩ hstep
    have he := orderly_of_quiet (hkept 0 h0) hposix hquiet
    have hmoves := moves_of_step hstep
    exact ⟨hs.step hM he hmoves, fun fd hfd => hs.other_kept he hmoves (hkept fd hfd)⟩
  exact ⟨fun _ => hinv.1.removed_accepted, hinv.1.table.count_le, hinv.2⟩

end ProcessServer.Parent

theorem removals_only_of_accepted (h : Host) (listenFd pipeFd : ℤ) (others : ℤ → Bool)
    (h0 : others 0 = true) :
    (∀ s, (PollServer.server h).Reaches
        (fun s e => PollServer.PosixEvent s e ∧ PollServer.UnusedQuiet s e)
        (PollServer.initial listenFd others) s → PollServer.RemovesOnlyAccepted others s) ∧
      ∀ s : ProcessServer.Parent ProcessServer.maxConnections, ProcessServer.Parent.machine.Reaches
        (fun s e => s.PosixEvent e ∧ s.UnusedQuiet e)
        (ProcessServer.Parent.initial listenFd pipeFd others) s → s.RemovesOnlyAccepted others :=
  ⟨fun _ => PollServer.removesOnlyAccepted h0,
    fun _ => ProcessServer.Parent.removesOnlyAccepted (by decide) h0⟩

def hungUp : Events := { pollhup := true }

theorem removal_of_unused_slot :
    (¬ ∀ s, (PollServer.server ⟨.little, fun _ => true, fun _ => []⟩).Reaches PollServer.PosixEvent
        (PollServer.initial 4 (· < 5)) s → PollServer.RemovesOnlyAccepted (· < 5) s) ∧
      ¬ ∀ s : ProcessServer.Parent ProcessServer.maxConnections,
        ProcessServer.Parent.machine.Reaches ProcessServer.Parent.PosixEvent
          (ProcessServer.Parent.initial 4 5 (· < 7)) s → s.RemovesOnlyAccepted (· < 7) := by
  constructor
  · intro hall
    have hrun : ((PollServer.server ⟨.little, fun _ => true, fun _ => []⟩).runWithin
        PollServer.PosixEvent [.run 0 {}, .poll (.ok ⟨.zero, fun _ => hungUp⟩), .run 0 {}]
        (PollServer.initial 4 (· < 5))).map (fun s => s.so.numConnections) =
          some (2 ^ 64 - 1) := by decide
    obtain ⟨s, hs, hn⟩ := Option.map_eq_some_iff.mp hrun
    have hcount := (hall s (Machine.reaches_of_runWithin hs)).count
    rw [hn] at hcount
    exact absurd hcount (by decide)
  · intro hall
    have hrun : (ProcessServer.Parent.machine.runWithin ProcessServer.Parent.PosixEvent
        [.run, .poll (.ok ⟨.zero, .zero, fun _ => hungUp⟩), .run]
        (ProcessServer.Parent.initial 4 5 (· < 7))).map
          (fun s : ProcessServer.Parent ProcessServer.maxConnections => s.so.numConnections) =
            some (2 ^ 64 - 1) := by decide
    obtain ⟨s, hs, hn⟩ := Option.map_eq_some_iff.mp hrun
    have hcount := (hall s (Machine.reaches_of_runWithin hs)).count
    rw [hn] at hcount
    exact absurd hcount (by decide)

theorem removals_only_of_accepted_run :
    let c : Conn :=
      { recvs := Stream'.const (.moves 4), sends := Stream'.const (.moves 4)
        selects := Stream'.const (.moves 0) }
    (∃ s, (PollServer.server ⟨.little, fun _ => true, fun _ => []⟩).runWithin
        (fun s e => PollServer.PosixEvent s e ∧ PollServer.UnusedQuiet s e)
        [.run 0 {}, .poll (.ok ⟨POLLIN, fun _ => hungUp⟩), .accept (.ok (5, ⟨1, 2⟩, c)), .run 0 {},
          .poll (.ok ⟨.zero, fun i => if i = 0 then hungUp else .zero⟩)]
        (PollServer.initial 4 (· < 5)) = some s ∧ PollServer.RemovalEntered s 0 ∧
        ∃ addr c, s.fds (s.pollfds.client 0).fd = some (.accepted addr c)) ∧
      ∃ s : ProcessServer.Parent ProcessServer.maxConnections,
        ProcessServer.Parent.machine.runWithin (fun s e => s.PosixEvent e ∧ s.UnusedQuiet e)
          [.run, .poll (.ok ⟨POLLIN, .zero, fun _ => hungUp⟩), .accept (.ok (7, ⟨1, 2⟩, 0)), .run,
            .poll (.ok ⟨.zero, .zero, fun p => if p = 0 then hungUp else .zero⟩)]
          (ProcessServer.Parent.initial 4 5 (· < 7)) = some s ∧ s.RemovalEntered 0 ∧
        ∃ addr conn, s.fds (s.client 0).fd = some (.accepted addr conn) := by
  intro c
  obtain ⟨hpoll, -⟩ := removals_only_of_accepted ⟨.little, fun _ => true, fun _ => []⟩ 4 5 (· < 5) rfl
  obtain ⟨-, hprocess⟩ := removals_only_of_accepted ⟨.little, fun _ => true, fun _ => []⟩ 4 5
    (· < 7) rfl
  constructor
  · have hrun : ((PollServer.server ⟨.little, fun _ => true, fun _ => []⟩).runWithin
        (fun s e => PollServer.PosixEvent s e ∧ PollServer.UnusedQuiet s e)
        [.run 0 {}, .poll (.ok ⟨POLLIN, fun _ => hungUp⟩), .accept (.ok (5, ⟨1, 2⟩, c)), .run 0 {},
          .poll (.ok ⟨.zero, fun i => if i = 0 then hungUp else .zero⟩)]
        (PollServer.initial 4 (· < 5))).map (fun s => decide (PollServer.RemovalEntered s 0)) =
          some true := by decide
    obtain ⟨s, hs, hr⟩ := Option.map_eq_some_iff.mp hrun
    have hentered := of_decide_eq_true hr
    exact ⟨s, hs, hentered, (hpoll s (Machine.reaches_of_runWithin hs)).removal 0 hentered⟩
  · have hrun : (ProcessServer.Parent.machine.runWithin (fun s e => s.PosixEvent e ∧ s.UnusedQuiet e)
        [.run, .poll (.ok ⟨POLLIN, .zero, fun _ => hungUp⟩), .accept (.ok (7, ⟨1, 2⟩, 0)), .run,
          .poll (.ok ⟨.zero, .zero, fun p => if p = 0 then hungUp else .zero⟩)]
        (ProcessServer.Parent.initial 4 5 (· < 7))).map
          (fun s : ProcessServer.Parent ProcessServer.maxConnections => decide (s.RemovalEntered 0)) =
            some true := by decide
    obtain ⟨s, hs, hr⟩ := Option.map_eq_some_iff.mp hrun
    have hentered := of_decide_eq_true hr
    exact ⟨s, hs, hentered, (hprocess s (Machine.reaches_of_runWithin hs)).removal 0 hentered⟩

end ScalableServer
