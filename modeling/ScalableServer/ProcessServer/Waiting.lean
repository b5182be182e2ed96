import ScalableServer.ProcessServer.Channels
import ScalableServer.ProcessServer.Transit
import ScalableServer.UnusedSlots

namespace ScalableServer.ProcessServer

open ScalableServer.Foundations ScalableServer.Core

variable {M N : ℕ}

def Event.isSignal : Event M N → Bool
  | .parent .signal | .parent (.wait (.error .EINTR)) | .child _ .signal | .child _ (.fail .EINTR) =>
    true
  | _ => false

namespace System

def PosixEvent (s : System M N) : Event M N → Prop
  | .parent e => s.parent.PosixEvent e
  | _ => True

def UnusedQuiet (s : System M N) : Event M N → Prop
  | .parent e => s.parent.UnusedQuiet e
  | _ => True

instance (s : System M N) : (e : Event M N) → Decidable (s.PosixEvent e)
  | .parent _ => inferInstanceAs (Decidable (Parent.PosixEvent _ _))
  | .child _ _ | .deliver _ _ | .hangup _ => .isTrue trivial

instance (s : System M N) : (e : Event M N) → Decidable (s.UnusedQuiet e)
  | .parent _ => inferInstanceAs (Decidable (Parent.UnusedQuiet _ _))
  | .child _ _ | .deliver _ _ | .hangup _ => .isTrue trivial

def ParentWaits (s : System M N) : Prop := (∃ p, s.parent.pc = .waitWrite p) ∧ s.domainWrite = 0

def ChildWaits (s : System M N) (i : Fin N) : Prop :=
  ((s.children i).pc = .waitRead ∧ s.domainRead = 0) ∨
    (∃ n, (s.children i).pc = .waitPipe n) ∧ s.pipeWrite = 0

def Deadlock (s : System M N) : Prop := s.ParentWaits ∧ ∀ i, s.ChildWaits i

structure Live (s : System M N) : Prop where
  sound : s.parent.Sound
  zero : s.parent.fds 0 = some .other
  transit : s.project.Transit
  working : ∀ i, (s.children i).Working
  channels : s.Channels

def Going (s : System M N) : Prop :=
  (∃ ret, s.parent.pc = .returned ret) ∨ (∃ i, (s.children i).Failed) ∨ s.Live

variable {h : Host} {s t : System M N} {e : Event M N}

lemma waitPipe_phase {c : Child} {n : ℕ} (hpc : c.pc = .waitPipe n) :
    c.phase = .holding c.message := by
  rw [Child.phase, hpc]

lemma Live.not_deadlock [NeZero M] (hs : s.Live) (hMN : M ≤ N) : ¬ s.Deadlock := by
  rintro ⟨⟨⟨p, hpc⟩, hwrite⟩, hchildren⟩
  obtain ⟨hturn, hunread, hpipe⟩ := hs.channels
  have hgiving : s.parent.giving = 0 := by rw [Parent.giving, hpc]
  have hposting : s.parent.posting = 0 := by rw [Parent.posting, hpc]
  have htaking : ∑ i, (s.children i).phase.taking = 0 := by
    refine Finset.sum_eq_zero fun i _ => ?_
    rcases hchildren i with ⟨hchild, -⟩ | ⟨⟨n, hchild⟩, -⟩ <;> rw [Child.phase, hchild] <;> rfl
  have hread : s.domainRead = 1 := by omega
  have hfull : ∀ i, (∃ n, (s.children i).pc = .waitPipe n) ∧ s.pipeWrite = 0 := by
    intro i
    refine (hchildren i).resolve_left fun hchild => ?_
    omega
  have hphase : ∀ i, (s.children i).phase = .holding (s.children i).message := by
    intro i
    obtain ⟨⟨n, hchild⟩, -⟩ := hfull i
    exact waitPipe_phase hchild
  have hpipeWrite : s.pipeWrite = 0 := (hfull ⟨0, (NeZero.pos M).trans_le hMN⟩).2
  have hzero : ∀ f : Phase → ℕ, (∀ m, f (.holding m) = 0) → ∑ i, f (s.children i).phase = 0 := by
    intro f hf
    refine Finset.sum_eq_zero fun i _ => ?_
    rw [hphase i, hf]
  rw [hposting, hzero Phase.unread fun _ => rfl] at hunread
  rw [hzero Phase.putting fun _ => rfl] at hpipe
  have hheld : (∑ i, (s.children i).phase.held).card = N := by
    rw [Multiset.card_sum]
    calc ∑ i, (s.children i).phase.held.card = ∑ _i : Fin N, 1 := by
          refine Finset.sum_congr rfl fun i _ => ?_
          rw [hphase i]
          rfl
      _ = N := by rw [Finset.sum_const, Finset.card_univ, Fintype.card_fin, smul_eq_mul, mul_one]
  have hcard : s.numbers.card = s.domain.length + N + s.pipe.length := by
    rw [numbers, messages, Multiset.card_add, Multiset.card_map, Multiset.card_add, hheld,
      Multiset.coe_card, Multiset.coe_card]
  have hle : s.numbers.card ≤ M := hs.transit.card_le
  omega

lemma returned_stays [NeZero M] {u v : Parent M} {e : ParentEvent M} {ret : ℤ}
    (hmoves : u.Moves e v) (hpc : u.pc = .returned ret) : ∃ ret, v.pc = .returned ret := by
  cases hmoves with
  | signal => exact ⟨ret, hpc⟩
  | fail he => exact ⟨_, rfl⟩
  | send hpc' hfd =>
    rw [hpc] at hpc'
    cases hpc'
  | _ =>
    rename_i hpc'
    rw [hpc] at hpc'
    cases hpc'

lemma Live.frame (hs : s.Live) (hparent : t.parent = s.parent) (hnumbers : t.numbers = s.numbers)
    (hworking : ∀ i, (t.children i).Working) (hchannels : t.Channels) : t.Live := by
  refine ⟨hparent ▸ hs.sound, hparent ▸ hs.zero, ?_, hworking, hchannels⟩
  have htransit : s.numbers = ∑ p, s.parent.away p := hs.transit
  change t.numbers = ∑ p, t.parent.away p
  rw [hnumbers, hparent, htransit]

lemma Live.parent [NeZero M] {e : ParentEvent M} (hs : s.Live) (hM : M < sizeMod)
    (hsignal : (Event.parent e : Event M N).isSignal = false) (hposix : s.parent.PosixEvent e)
    (hquiet : s.parent.UnusedQuiet e) (hstep : s.step h (.parent e) = some t) : t.Going := by
  obtain ⟨u, s', hu, hcall, rfl⟩ := parent_of_step hstep
  have hmoves := Parent.moves_of_step hu
  have hcalled := called hcall
  have he := Parent.orderly_of_quiet hs.zero hposix hquiet
  by_cases hok : e.isError = true
  · cases hmoves with
    | interrupt hpc => cases hsignal
    | fail => exact .inl ⟨_, rfl⟩
    | _ => cases hok
  rw [Bool.not_eq_true] at hok
  refine .inr (.inr ⟨hs.sound.step hM he hmoves, hs.sound.other_kept he hmoves hs.zero, ?_, fun i => ?_,
    hs.channels.parent hmoves hok hcall⟩)
  · have hread : ∀ n, e = .read (.ok n) → n ∈ s.project.outstanding :=
      fun n hn => Multiset.mem_add.mpr (.inr (hcalled.read n hn))
    exact hcalled.numbers.trans (hs.transit.step hs.sound he hok hread hmoves)
  · change (s'.children i).Working
    rw [hcalled.children]
    exact hs.working i

lemma Live.child [NeZero M] {i : Fin N} {e : ChildEvent} (hs : s.Live)
    (hsignal : (Event.child i e : Event M N).isSignal = false)
    (hstep : s.step h (.child i e) = some t) : t.Going := by
  obtain ⟨c, a, s', hmoves, hact, rfl⟩ := child_of_step hstep
  have he : e ≠ .fail .EINTR := by
    rintro rfl
    cases hsignal
  rcases hmoves.working (hs.working i) he with ⟨hworking, hphase⟩ | ⟨hfailed, -⟩
  · exact .inr (.inr (hs.frame (act_frame hact).1 (act_numbers hphase hact).1
      (working_of_act hs.working hworking hact) (hs.channels.child hphase hact)))
  · refine .inr (.inl ⟨i, ?_⟩)
    change (Function.update s'.children i c i).Failed
    rw [Function.update_self]
    exact hfailed

lemma Going.connections (hs : s.Going) (conns : ℕ → Conn) :
    ({ s with conns := conns } : System M N).Going := by
  rcases hs with hret | hfailed | hlive
  · exact .inl hret
  · exact .inr (.inl hfailed)
  · obtain ⟨hturn, hunread, hpipe⟩ := hlive.channels
    exact .inr (.inr (hlive.frame rfl rfl hlive.working ⟨hturn, hunread, hpipe⟩))

lemma Going.step [NeZero M] (hs : s.Going) (hM : M < sizeMod) (hsignal : e.isSignal = false)
    (hposix : s.PosixEvent e) (hquiet : s.UnusedQuiet e) (hstep : s.step h e = some t) : t.Going := by
  cases e with
  | parent e =>
    rcases hs with ⟨ret, hret⟩ | ⟨i, hfailed⟩ | hlive
    · obtain ⟨u, s', hu, -, rfl⟩ := parent_of_step hstep
      exact .inl (returned_stays (Parent.moves_of_step hu) hret)
    · obtain ⟨u, s', -, hcall, rfl⟩ := parent_of_step hstep
      exact .inr (.inl ⟨i, (called hcall).children ▸ hfailed⟩)
    · exact hlive.parent hM hsignal hposix hquiet hstep
  | child i e =>
    rcases hs with ⟨ret, hret⟩ | ⟨j, hfailed⟩ | hlive
    · obtain ⟨c, a, s', -, hact, rfl⟩ := child_of_step hstep
      exact .inl ⟨ret, (act_frame hact).1 ▸ hret⟩
    · obtain ⟨c, a, s', hmoves, hact, rfl⟩ := child_of_step hstep
      refine .inr (.inl ⟨j, ?_⟩)
      change (Function.update s'.children i c j).Failed
      rw [(act_frame hact).2.1]
      by_cases hj : j = i
      · subst hj
        rw [Function.update_self]
        apply hfailed.step hmoves
        rintro rfl
        cases hsignal
      · rw [Function.update_of_ne hj]
        exact hfailed
    · exact hlive.child hsignal hstep
  | deliver id bytes =>
    obtain rfl := Option.some.inj hstep
    exact hs.connections _
  | hangup id =>
    obtain rfl := Option.some.inj hstep
    exact hs.connections _

lemma Going.not_deadlock [NeZero M] (hs : s.Going) (hMN : M ≤ N) : ¬ s.Deadlock := by
  rcases hs with ⟨ret, hret⟩ | ⟨i, hfailed⟩ | hlive
  · rintro ⟨⟨⟨p, hpc⟩, -⟩, -⟩
    rw [hret] at hpc
    cases hpc
  · rintro ⟨-, hchildren⟩
    have hstopped := hfailed.stopped
    rcases hchildren i with ⟨hpc, -⟩ | ⟨⟨n, hpc⟩, -⟩ <;> simp [Child.running, hpc] at hstopped
  · exact hlive.not_deadlock hMN

theorem processServer_no_deadlock [NeZero M] (h : Host) (hM : M < sizeMod) (hMN : M ≤ N)
    (listenFd pipeFd : ℤ) (others childOthers : ℤ → Bool) (h0 : others 0 = true)
    (conns : ℕ → Conn) (s : System M N)
    (hs : (machine h).Reaches
      (fun s e => e.isSignal = false ∧ s.PosixEvent e ∧ s.UnusedQuiet e)
      (initial listenFd pipeFd others childOthers conns) s) : ¬ s.Deadlock := by
  have hgoing : s.Going := by
    refine hs.invariant (I := Going) (.inr (.inr ?_)) ?_
    · refine ⟨Parent.initial_sound _ _ _ (NeZero.pos M), if_pos h0, ?_,
        initial_working _ _ _ _ _, initial_channels _ _ _ _ _⟩
      rw [initial_project]
      exact Dispatch.initial_transit listenFd pipeFd others
    · intro a e b ha he hstep
      exact ha.step hM he.1 he.2.1 he.2.2 hstep
  exact hgoing.not_deadlock hMN

def acceptEvents (fd : ℤ) (id : ℕ) (reported : Fin maxConnections → Events) :
    List (Event maxConnections numChildProcesses) :=
  [.parent .run, .parent (.poll (.ok ⟨POLLIN, .zero, reported⟩)),
    .parent (.accept (.ok (fd, {}, id)))]

def pollEvents (reported : Fin maxConnections → Events) :
    List (Event maxConnections numChildProcesses) :=
  [.parent .run, .parent (.poll (.ok ⟨.zero, .zero, reported⟩))]

def passEvents (slots : ℕ) : List (Event maxConnections numChildProcesses) :=
  List.replicate slots (.parent .run)

def handEvents : List (Event maxConnections numChildProcesses) :=
  [.parent (.wait (.ok ())), .parent (.send (.ok ())), .parent .post, .parent .run]

def takeEvents (i : Fin numChildProcesses) : List (Event maxConnections numChildProcesses) :=
  [.child i (.run 0 {}), .child i .ok, .child i (.received ⟨0, .accepted {} 1⟩ 4), .child i .ok,
    .child i .ok, .child i (.run 0 {}), .child i (.run 0 {})]

def finishEvents (i : Fin numChildProcesses) : List (Event maxConnections numChildProcesses) :=
  [.child i .ok, .child i .ok, .child i .ok, .child i (.run 0 {}), .child i (.run 0 {}),
    .child i (.run 0 {})]

/-- Standard input hangs up after connection 0 has been accepted. Descriptor 0 is closed, and
connection 1 gets it; as `fd * -1` is 0, the parent dispatches connection 1 again in each sweep.
The pipe is empty whenever the parent polls. -/
def stallEvents : List (Event maxConnections numChildProcesses) :=
  let dispatch := pollEvents (fun p => if p = 1 then POLLIN else .zero) ++ passEvents 2 ++
    handEvents ++ passEvents 4
  acceptEvents 6 0 (fun _ => .zero) ++ pollEvents (fun p => if p = 0 then .zero else hungUp) ++
    passEvents 6 ++ acceptEvents 0 1 (fun p => if p = 0 then .zero else { pollnval := true }) ++
    (List.finRange numChildProcesses).flatMap (fun i => dispatch ++ takeEvents i) ++ dispatch ++
    pollEvents (fun p => if p = 0 ∨ p = 1 then POLLIN else .zero) ++ passEvents 1 ++
    finishEvents 0 ++ takeEvents 0 ++ handEvents ++ passEvents 1

theorem deadlock_of_unused_slot :
    ¬ ∀ (h : Host) (conns : ℕ → Conn) (s : System maxConnections numChildProcesses),
      (machine h).Reaches (fun s e => e.isSignal = false ∧ s.PosixEvent e)
        (initial 5 4 parentDescriptors childDescriptors conns) s → ¬ s.Deadlock := by
  intro hall
  let conn : Conn :=
    { unread := List.replicate 40 0, recvs := Stream'.const (.moves 4)
      sends := Stream'.const (.moves 4), selects := Stream'.const (.moves 0) }
  let h : Host := ⟨.little, fun _ => true, fun _ => []⟩
  have hrun : ((machine h).runWithin (fun s e => e.isSignal = false ∧ s.PosixEvent e) stallEvents
      (initial 5 4 parentDescriptors childDescriptors fun _ => conn)).map (fun s =>
        (s.parent.pc, s.domainWrite, s.pipeWrite, fun i => (s.children i).pc)) =
          some (.waitWrite 1, 0, 0, fun _ => .waitPipe 0) := by decide +kernel
  obtain ⟨s, hs, hval⟩ := Option.map_eq_some_iff.mp hrun
  simp only [Prod.mk.injEq] at hval
  obtain ⟨hpc, hwrite, hpipe, hchildren⟩ := hval
  exact hall h _ s (Machine.reaches_of_runWithin hs)
    ⟨⟨⟨1, hpc⟩, hwrite⟩, fun i => .inr ⟨⟨0, congrFun hchildren i⟩, hpipe⟩⟩

theorem processServer_no_deadlock_run :
    let h : Host := ⟨.little, fun _ => true, fun _ => []⟩
    let conn : Conn :=
      { recvs := Stream'.const (.moves 4), sends := Stream'.const (.moves 4)
        selects := Stream'.const (.moves 0) }
    ∃ s, (machine h).runWithin (fun s e => e.isSignal = false ∧ s.PosixEvent e ∧ s.UnusedQuiet e)
        (acceptEvents 6 0 (fun _ => .zero) ++ acceptEvents 8 1 (fun _ => .zero) ++
          pollEvents (fun p => if p = 0 ∨ p = 1 then POLLIN else .zero) ++ passEvents 1 ++
          handEvents ++ passEvents 1)
        (initial 5 4 parentDescriptors childDescriptors fun _ => conn) = some s ∧
      s.ParentWaits ∧ ∃ i, ¬ s.ChildWaits i := by
  intro h conn
  have hrun : ((machine h).runWithin
      (fun s e => e.isSignal = false ∧ s.PosixEvent e ∧ s.UnusedQuiet e)
      (acceptEvents 6 0 (fun _ => .zero) ++ acceptEvents 8 1 (fun _ => .zero) ++
        pollEvents (fun p => if p = 0 ∨ p = 1 then POLLIN else .zero) ++ passEvents 1 ++
        handEvents ++ passEvents 1)
      (initial 5 4 parentDescriptors childDescriptors fun _ => conn)).map (fun s =>
        (s.parent.pc, s.domainWrite)) = some (.waitWrite 1, 0) := by decide +kernel
  obtain ⟨s, hs, hval⟩ := Option.map_eq_some_iff.mp hrun
  simp only [Prod.mk.injEq] at hval
  have hwaits : s.ParentWaits := ⟨⟨1, hval.1⟩, hval.2⟩
  have hfree := processServer_no_deadlock h (by decide) (by decide) 5 4 parentDescriptors
    childDescriptors rfl (fun _ => conn) s (Machine.reaches_of_runWithin hs)
  exact ⟨s, hs, hwaits, not_forall.mp fun hall => hfree ⟨hwaits, hall⟩⟩

end System

end ScalableServer.ProcessServer
