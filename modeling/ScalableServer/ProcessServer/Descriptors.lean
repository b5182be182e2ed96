import ScalableServer.ProcessServer.Rest

/-! The descriptors of the children. A child is `busy` with a message from where it has received one
until it has closed the descriptor that came with it. A child whose wait for a message is
interrupted closes `client_fd_local` as well, which is 0 there: `cut` says that this may have been. -/

namespace ScalableServer.ProcessServer

open ScalableServer.Foundations ScalableServer.Core

variable {M N : ℕ}

namespace Child

def busy (c : Child) : Bool :=
  match c.pc with
  | .head | .waitRead | .recvMsg => false
  | _ => true

def Inherited (forked : ℤ → Option Descriptor) (cut : Prop) (c : Child) (fd : ℤ) : Prop :=
  c.fds fd = forked fd ∨ fd = 0 ∧ cut ∧ c.fds fd = none

structure Tidy (forked : ℤ → Option Descriptor) (cut : Prop) (c : Child) : Prop where
  others : ∀ fd, c.Inherited forked cut fd ∨ c.busy = true ∧ fd = c.child.clientFdLocal
  received : c.busy = true →
    forked c.child.clientFdLocal = none ∨ c.child.clientFdLocal = 0 ∧ cut
  start : c.pc = .waitRead → c.child.clientFdLocal = 0

variable {forked : ℤ → Option Descriptor} {cut : Prop} {h : Host} {pid : ℕ} {conns : ℕ → Conn}
  {c c' : Child} {e : ChildEvent} {a : Action}

lemma Tidy.inherited (hc : c.Tidy forked cut) (hfree : c.busy = false) (fd : ℤ) :
    c.Inherited forked cut fd := by
  refine (hc.others fd).resolve_right fun hfd => ?_
  rw [hfree] at hfd
  cases hfd.1

lemma Tidy.keep (hc : c.Tidy forked cut) (hbusy : c.busy = true) (hfds : c'.fds = c.fds)
    (hlocal : c'.child.clientFdLocal = c.child.clientFdLocal) (hbusy' : c'.busy = true) :
    c'.Tidy forked cut where
  others fd := by
    rw [Inherited, hfds, hlocal]
    exact (hc.others fd).imp_right fun hfd => ⟨hbusy', hfd.2⟩
  received _ := by
    rw [hlocal]
    exact hc.received hbusy
  start hpc := by
    rw [busy, hpc] at hbusy'
    cases hbusy'

lemma Tidy.receive (hc : c.Tidy forked cut) (hfree : c.busy = false) {fd : ℤ} (hfd : c.fds fd = none)
    {d : Descriptor} (hfds : c'.fds = Function.update c.fds fd (some d))
    (hlocal : c'.child.clientFdLocal = fd) (hbusy' : c'.busy = true) : c'.Tidy forked cut where
  others g := by
    by_cases hg : g = fd
    · exact .inr ⟨hbusy', hg.trans hlocal.symm⟩
    · refine .inl ?_
      rw [Inherited, hfds, Function.update_of_ne hg]
      exact hc.inherited hfree g
  received _ := by
    rw [hlocal]
    rcases hc.inherited hfree fd with hsame | ⟨hzero, hcut, -⟩
    · exact .inl (hsame.symm.trans hfd)
    · exact .inr ⟨hzero, hcut⟩
  start hpc := by
    rw [busy, hpc] at hbusy'
    cases hbusy'

lemma Tidy.closed (hc : c.Tidy forked cut) (hbusy : c.busy = true)
    (hfds : c'.fds = Function.update c.fds c.child.clientFdLocal none) (hpc : c'.pc = .head) :
    c'.Tidy forked cut where
  others g := by
    refine .inl ?_
    rw [Inherited, hfds]
    by_cases hg : g = c.child.clientFdLocal
    · subst hg
      rw [Function.update_self]
      rcases hc.received hbusy with hnone | ⟨hzero, hcut⟩
      · exact .inl hnone.symm
      · exact .inr ⟨hzero, hcut, rfl⟩
    · rw [Function.update_of_ne hg]
      exact (hc.others g).resolve_right fun hlocal => hg hlocal.2
  received hbusy' := by
    rw [busy, hpc] at hbusy'
    cases hbusy'
  start hpc' := by
    rw [hpc] at hpc'
    cases hpc'

lemma Steps.tidy (hsteps : c.Steps h pid conns e c' a) (hc : c.Tidy forked cut)
    (hcut : e = .fail .EINTR → cut) (hrunning : c'.running = true) : c'.Tidy forked cut := by
  cases hsteps with
  | start hpc =>
    refine ⟨fun fd => .inl (hc.inherited ?_ fd), by rintro ⟨⟩, fun _ => rfl⟩
    rw [busy, hpc]
  | waitRead hpc =>
    refine ⟨fun fd => .inl (hc.inherited ?_ fd), by rintro ⟨⟩, by rintro ⟨⟩⟩
    rw [busy, hpc]
  | recvMsg hpc hfd => exact hc.receive (by rw [busy, hpc]) hfd rfl rfl rfl
  | close hpc => exact hc.closed (by rw [busy, hpc]) rfl rfl
  | @interrupted err next hpc =>
    by_cases herr : err = .EINTR
    · subst herr
      obtain ⟨hpc, rfl⟩ | ⟨n, hpc, rfl⟩ | ⟨n, hpc, rfl⟩ := hpc
      · refine ⟨fun fd => .inl (hc.inherited ?_ fd), fun _ => .inr ⟨hc.start hpc, hcut rfl⟩,
          by rintro ⟨⟩⟩
        rw [busy, hpc]
      · exact hc.keep (by rw [busy, hpc]) rfl rfl rfl
      · exact hc.keep (by rw [busy, hpc]) rfl rfl rfl
    · rw [if_neg herr] at hrunning
      cases hrunning
  | signal => exact ⟨hc.others, hc.received, hc.start⟩
  | @postWrite received hpc =>
    cases received with
    | false => cases hrunning
    | true => exact hc.keep (by rw [busy, hpc]) rfl rfl rfl
  | peerName hpc =>
    refine hc.keep (by rw [busy, hpc]) rfl rfl ?_
    rw [busy]
    split_ifs <;> rfl
  | header hpc | payload hpc | payloadEnd hpc | waitPipe hpc | writePipe hpc | waitLog hpc
  | postLog hpc | reply hpc => exact hc.keep (by rw [busy, hpc]) rfl rfl rfl
  | leave | unconnected | headerFail | payloadFail | replyFail | recvMsgFail | callFail =>
    cases hrunning

lemma Steps.running_of (hsteps : c.Steps h pid conns e c' a) (hrunning : c'.running = true) :
    c.running = true := by
  cases hsteps with
  | @postWrite received hpc =>
    cases received with
    | false => cases hrunning
    | true => rw [running, hpc]
  | @interrupted err next hpc =>
    obtain ⟨hpc, -⟩ | ⟨n, hpc, -⟩ | ⟨n, hpc, -⟩ := hpc <;> rw [running, hpc]
  | signal => exact hrunning
  | leave | unconnected | headerFail | payloadFail | replyFail | recvMsgFail | callFail =>
    cases hrunning
  | start hpc | waitRead hpc | recvMsg hpc | close hpc | peerName hpc | header hpc | payload hpc
  | payloadEnd hpc | waitPipe hpc | writePipe hpc | waitLog hpc | postLog hpc | reply hpc =>
    rw [running, hpc]

lemma Working.running (hc : c.Working) (hgogo : c.gogo = true) : c.running = true := by
  rw [Child.running]
  split
  · rename_i hpc
    exact (hc.receiving hpc).elim
  · rename_i ret hpc
    rw [hc.looping ret hpc] at hgogo
    cases hgogo
  · rfl

end Child

namespace System

def forked (childOthers : ℤ → Bool) (fd : ℤ) : Option Descriptor :=
  if childOthers fd then some .other else none

variable {h : Host} {s t : System M N} {e : Event M N} {cut : Prop} {listenFd pipeFd fd : ℤ}
  {others childOthers : ℤ → Bool} {conns : ℕ → Conn} {i : Fin N}

lemma forked_ne_accepted (addr : SockAddr) (id : ℕ) :
    forked childOthers fd ≠ some (.accepted addr id) := by
  rw [forked]
  split_ifs <;> rintro ⟨⟩

lemma callFails_of_fail (s : System M N) (i : Fin N) (err : Errno) :
    s.CallFails h (.child i (.fail err)) := Child.otherCallFails_or

lemma tidy_step [NeZero M]
    (hs : ∀ i, (s.children i).running = true → (s.children i).Tidy (forked childOthers) cut)
    (hcut : ∀ i, e = .child i (.fail .EINTR) → cut) (hstep : s.step h e = some t) :
    ∀ i, (t.children i).running = true → (t.children i).Tidy (forked childOthers) cut := by
  cases e with
  | parent e =>
    obtain ⟨u, s', -, hcall, rfl⟩ := parent_of_step hstep
    have hchildren : s'.children = s.children := (called hcall).children
    intro i hrunning
    change (s'.children i).running = true at hrunning
    change (s'.children i).Tidy _ _
    rw [hchildren] at hrunning ⊢
    exact hs i hrunning
  | child j e =>
    obtain ⟨c, a, s', hc, hact, rfl⟩ := acted_of_step hstep
    have hsteps := Child.steps_of_step hc
    rw [setChild, (act_frame hact).2.1]
    refine (Function.forall_update_iff s.children fun _ d =>
      d.running = true → d.Tidy (forked childOthers) cut).mpr ⟨fun hrunning => ?_, fun i _ => hs i⟩
    exact hsteps.tidy (hs j (hsteps.running_of hrunning)) (fun he => hcut j (he ▸ rfl)) hrunning
  | deliver | hangup =>
    obtain rfl := Option.some.inj hstep
    exact hs

lemma tidy_of_reaches [NeZero M] (cut : Prop) {allowed : System M N → Event M N → Prop}
    (hs : (machine h).Reaches allowed (initial listenFd pipeFd others childOthers conns) s)
    (hcut : ∀ s i, allowed s (.child i (.fail .EINTR)) → cut) (i : Fin N)
    (hrunning : (s.children i).running = true) :
    (s.children i).Tidy (forked childOthers) cut := by
  refine hs.invariant (I := fun s : System M N => ∀ i, (s.children i).running = true →
    (s.children i).Tidy (forked childOthers) cut) (fun i _ => ?_) ?_ i hrunning
  · exact ⟨fun fd => .inl (.inl rfl), by rintro ⟨⟩, by rintro ⟨⟩⟩
  · intro a e b ha he hstep
    exact tidy_step ha (fun i hi => hcut a i (hi ▸ he)) hstep

lemma Waiting.phase (hw : s.Waiting) (hbusy : (s.children i).busy = true) :
    (s.children i).phase = .holding (s.children i).message := by
  rcases hw.child i with hpc | ⟨id, hreceiving, -⟩ | ⟨n, number, hpc, -⟩
  · rw [Child.busy, hpc] at hbusy
    cases hbusy
  · exact hreceiving.phase
  · rw [Child.phase, hpc]

theorem children_descriptors [NeZero M] (h : Host) (listenFd pipeFd : ℤ)
    (others childOthers : ℤ → Bool) (conns : ℕ → Conn) :
    (∀ s : System M N, (machine h).Reaches (fun _ _ => True)
        (initial listenFd pipeFd others childOthers conns) s →
        ∀ i, (s.children i).running = true → ∀ fd,
          ((s.children i).fds fd = forked childOthers fd ∨
              fd = 0 ∧ (s.children i).fds fd = none) ∨
            (s.children i).busy = true ∧ fd = (s.children i).child.clientFdLocal) ∧
      (∀ s : System M N, (machine h).Reaches (fun _ e => ∀ i, e ≠ .child i (.fail .EINTR))
        (initial listenFd pipeFd others childOthers conns) s →
        ∀ i, (s.children i).running = true → ∀ fd,
          (s.children i).fds fd = forked childOthers fd ∨ (s.children i).busy = true ∧
            fd = (s.children i).child.clientFdLocal ∧ childOthers fd = false) ∧
      ((∀ n, h.alloc n = true) → M < sizeMod → M ≤ N → {fd | childOthers fd = true}.Finite →
        (∀ id, Willing (conns id)) → ∀ s : System M N,
        (machine h).Reaches (fun s e => ¬ s.CallFails h e ∧ s.OrderlyEvent e ∧ s.PipeReported e)
          (initial listenFd pipeFd others childOthers conns) s →
        (∀ i, (s.children i).gogo = true) → s.AtRest h →
        ∀ i fd addr id, (s.children i).fds fd = some (.accepted addr id) →
          ∃ fd', s.parent.fds fd' = some (.accepted addr id)) := by
  refine ⟨fun s hs i hrunning fd => ?_, fun s hs i hrunning fd => ?_, ?_⟩
  · refine ((tidy_of_reaches True hs (fun _ _ _ => trivial) i hrunning).others fd).imp_left ?_
    exact Or.imp_right fun hzero => ⟨hzero.1, hzero.2.2⟩
  · have htidy := tidy_of_reaches False hs (fun _ i he => he i rfl) i hrunning
    rcases htidy.others fd with (hsame | ⟨-, hcut, -⟩) | ⟨hbusy, hlocal⟩
    · exact .inl hsame
    · exact hcut.elim
    · refine .inr ⟨hbusy, hlocal, ?_⟩
      have hnone := (htidy.received hbusy).resolve_right fun hcut => hcut.2
      rw [forked, ← hlocal] at hnone
      split_ifs at hnone with hfd
      exact eq_false_of_ne_true hfd
  · intro halloc hM hMN hchild hconns s hs hgogo hrest i fd addr id hfd
    have hsteady : s.Steady := by
      refine hs.invariant (I := Steady) (initial_steady hchild hconns _ _ _) ?_
      intro a e b ha he hstep
      exact ha.step hM halloc he.1 he.2.1 he.2.2 hstep
    have hrunning := (hsteady.consistent.working i).running (hgogo i)
    have htidy := tidy_of_reaches False hs
      (fun a j he => he.1 (callFails_of_fail a j .EINTR)) i hrunning
    rcases htidy.others fd with (hsame | ⟨-, hcut, -⟩) | ⟨hbusy, rfl⟩
    · exact (forked_ne_accepted addr id (hsame.symm.trans hfd)).elim
    · exact hcut.elim
    · have hphase := (hsteady.waiting halloc hMN hgogo hrest).phase hbusy
      have hparent := hsteady.consistent.linked.child (i := i) (m := (s.children i).message)
        (by rw [hphase]; rfl)
      refine ⟨(s.children i).message.number, hparent.trans ?_⟩
      rw [Child.message, hfd]
      rfl

theorem children_descriptors_run :
    let h : Host := ⟨.little, fun _ => true, fun _ => []⟩
    ∃ s, (machine h).Reaches (fun _ e => ∀ i, e ≠ .child i (.fail .EINTR))
        (initial 5 4 parentDescriptors childDescriptors fun _ => restartConn :
          System maxConnections numChildProcesses) s ∧
      (s.children 0).fds 4 = some (.accepted {} 0) ∧ (s.children 0).busy = true ∧
        4 = (s.children 0).child.clientFdLocal := by
  intro h
  have hrun : ((machine h).runWithin
      (fun s e => ¬ s.CallFails h e ∧ s.OrderlyEvent e ∧ s.PipeReported e) restEvents
      (initial 5 4 parentDescriptors childDescriptors fun _ => restartConn)).map (fun s =>
        ((s.children 0).fds 4, (s.children 0).running)) =
      some (some (.accepted {} 0), true) := by decide +kernel
  obtain ⟨s, hs, hval⟩ := Option.map_eq_some_iff.mp hrun
  obtain ⟨hfd, hrunning⟩ := Prod.mk.inj hval
  have hreaches : (machine h).Reaches (fun _ e => ∀ i, e ≠ .child i (.fail .EINTR))
      (initial 5 4 parentDescriptors childDescriptors fun _ => restartConn) s := by
    refine (Machine.reaches_of_runWithin hs).mono ?_
    rintro a e he i rfl
    exact he.1 (callFails_of_fail a i .EINTR)
  have hone := (children_descriptors (M := maxConnections) (N := numChildProcesses) h 5 4
    parentDescriptors childDescriptors fun _ => restartConn).2.1 s hreaches 0 hrunning 4
  rw [hfd] at hone
  rcases hone with hsame | ⟨hbusy, hlocal, -⟩
  · exact (forked_ne_accepted {} 0 hsame.symm).elim
  · exact ⟨s, hreaches, hfd, hbusy, hlocal⟩

end System

end ScalableServer.ProcessServer
