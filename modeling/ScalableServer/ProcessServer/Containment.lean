import ScalableServer.ProcessServer.Waiting

namespace ScalableServer.ProcessServer

open ScalableServer.Foundations ScalableServer.Core

variable {M N : ℕ}

namespace Dispatch

structure Kept (s : Dispatch M) : Prop where
  swept : ∀ k, s.parent.sweepFrom = some k → ∀ p : Fin M, k ≤ p →
    (s.parent.client p).revents = POLLIN → 0 ≤ (s.parent.client p).fd
  handed : ∀ p, s.parent.handing = some p → 0 ≤ (s.parent.client p).fd
  numbers : ∀ n ∈ s.outstanding, 0 ≤ n
  away : ∀ p, s.parent.Away p → |(s.parent.client p).fd| ∈ s.outstanding

variable {s : Dispatch M} {t : Parent M} {e : ParentEvent M} {p : Fin M}

lemma initial_kept (listenFd pipeFd : ℤ) (others : ℤ → Bool) :
    (initial listenFd pipeFd others : Dispatch M).Kept := by
  refine ⟨by rintro k ⟨⟩, by rintro p ⟨⟩, fun n hn => (Multiset.notMem_zero n hn).elim, ?_⟩
  rintro p (hneg | hcrossing)
  · exact absurd hneg (lt_irrefl 0)
  · cases hcrossing

lemma Kept.disabled (hs : s.Kept) (q : Fin M) (hneg : (s.parent.client q).fd < 0) :
    |(s.parent.client q).fd| ∈ s.outstanding := hs.away q (.inl hneg)

lemma Kept.elsewhere (hs : s.Kept) (hsweep : t.sweepFrom = none) (hhanding : t.handing = none)
    (hdisabled : ∀ q, (t.client q).fd < 0 → |(t.client q).fd| ∈ s.outstanding) :
    (⟨t, s.outstanding⟩ : Dispatch M).Kept where
  swept k hk := by
    change t.sweepFrom = some k at hk
    rw [hsweep] at hk
    cases hk
  handed p hp := by
    change t.handing = some p at hp
    rw [hhanding] at hp
    cases hp
  numbers := hs.numbers
  away q hq := by
    rcases hq with hneg | hcrossing
    · exact hdisabled q hneg
    · have hq := Parent.handing_of_crossing hcrossing
      change t.handing = some q at hq
      rw [hhanding] at hq
      cases hq

lemma Kept.sweepOn (hs : s.Kept) (hsweep : s.parent.sweepFrom = some (p : ℕ))
    (hclient : ∀ q, q ≠ p → t.client q = s.parent.client q)
    (hdisabled : ∀ q, (t.client q).fd < 0 → |(t.client q).fd| ∈ s.outstanding) :
    (⟨t.sweepOn p, s.outstanding⟩ : Dispatch M).Kept where
  swept k hk q hq hr := by
    obtain rfl := Option.some.inj hk
    have hne : q ≠ p := by
      rintro rfl
      omega
    have hq' : (t.sweepOn p).client q = s.parent.client q :=
      (Parent.setClient_other hne).trans (hclient q hne)
    change ((t.sweepOn p).client q).revents = POLLIN at hr
    change 0 ≤ ((t.sweepOn p).client q).fd
    rw [hq'] at hr ⊢
    exact hs.swept p hsweep q (by omega) hr
  handed q hq := by cases hq
  numbers := hs.numbers
  away q hq := by
    have hfd : ((t.sweepOn p).client q).fd = (t.client q).fd := Parent.sweepOn_fd t p q
    change |((t.sweepOn p).client q).fd| ∈ s.outstanding
    rw [hfd]
    rcases hq with hneg | hcrossing
    · exact hdisabled q (hfd ▸ hneg)
    · cases hcrossing

lemma Kept.read {n : ℤ} (hs : s.Kept) (hn : n ∈ s.outstanding) :
    (⟨(s.parent.pReadPipeReenableFd n).goto .head, s.outstanding.erase n⟩ : Dispatch M).Kept := by
  have hnonneg := hs.numbers n hn
  refine ⟨by rintro k ⟨⟩, by rintro p ⟨⟩, fun m hm => hs.numbers m (Multiset.mem_of_mem_erase hm), ?_⟩
  rintro q (hneg | hcross)
  · change (Parent.reenable n (s.parent.client q)).fd < 0 at hneg
    change |(Parent.reenable n (s.parent.client q)).fd| ∈ _
    rw [Parent.reenable] at hneg ⊢
    split_ifs at hneg ⊢ with hq
    · change (s.parent.client q).fd * -1 < 0 at hneg
      omega
    · refine (Multiset.mem_erase_of_ne ?_).mpr (hs.away q (.inl hneg))
      rw [abs_of_neg hneg]
      omega
  · cases hcross

lemma Kept.pHandleSocketAction (hs : s.Kept) (hpc : s.parent.pc = .sweep p) :
    (⟨s.parent.pHandleSocketAction p, s.outstanding⟩ : Dispatch M).Kept := by
  have hsweep : s.parent.sweepFrom = some (p : ℕ) := by rw [Parent.sweepFrom, hpc]
  rw [Parent.pHandleSocketAction]
  split_ifs with hin hup
  · refine ⟨fun k hk => ?_, fun q hq => ?_, hs.numbers, ?_⟩
    · obtain rfl := Option.some.inj hk
      exact hs.swept p hsweep
    · obtain rfl := Option.some.inj hq
      exact hs.swept p hsweep p (le_refl _) hin
    · rintro q (hneg | hcrossing)
      · exact hs.disabled q hneg
      · cases hcrossing
  · refine hs.sweepOn hsweep (fun q hq => Function.update_of_ne hq _ _) fun q hneg => ?_
    by_cases hq : q = p
    · subst hq
      have hfree : ((s.parent.pRemoveConnection q).client q).fd = 0 := by
        simp [Parent.pRemoveConnection, Parent.client]
      omega
    · have hclient : (s.parent.pRemoveConnection p).client q = s.parent.client q :=
        Function.update_of_ne hq _ _
      rw [hclient] at hneg ⊢
      exact hs.disabled q hneg
  · exact hs.sweepOn hsweep (fun _ _ => rfl) hs.disabled

lemma Kept.flip (hs : s.Kept) (hpc : s.parent.pc = .flip p) :
    (⟨(s.parent.disable p).sweepOn p, s.outstanding⟩ : Dispatch M).Kept := by
  have hsweep : s.parent.sweepFrom = some (p : ℕ) := by rw [Parent.sweepFrom, hpc]
  have hcrossing : s.parent.crossing = some p := by rw [Parent.crossing, hpc]
  refine hs.sweepOn hsweep (fun q hq => Parent.setClient_other hq) fun q hneg => ?_
  by_cases hq : q = p
  · subst hq
    rw [Parent.disable_fd_self, abs_neg]
    exact hs.away q (.inr hcrossing)
  · have hclient : (s.parent.disable p).client q = s.parent.client q := Parent.setClient_other hq
    rw [hclient] at hneg ⊢
    exact hs.disabled q hneg

lemma Kept.poll {r : PollResult M} (hs : s.Kept)
    (hr : ∀ q, (s.parent.client q).MayReport (r.client q)) :
    (⟨(s.parent.report r).goto (if r.listen = POLLIN then .accept
      else if r.pipe = POLLIN then .readPipe else .sweep 0), s.outstanding⟩ : Dispatch M).Kept := by
  by_cases hlisten : r.listen = POLLIN
  · rw [if_pos hlisten]
    exact hs.elsewhere rfl rfl hs.disabled
  rw [if_neg hlisten]
  by_cases hpipe : r.pipe = POLLIN
  · rw [if_pos hpipe]
    exact hs.elsewhere rfl rfl hs.disabled
  rw [if_neg hpipe]
  refine ⟨fun k _ q _ hq => ?_, by rintro q ⟨⟩, hs.numbers, ?_⟩
  · change r.client q = POLLIN at hq
    change 0 ≤ (s.parent.client q).fd
    by_contra hneg
    have hzero := (hr q).1 (not_le.mp hneg)
    rw [hzero] at hq
    cases hq
  · rintro q (hneg | hcrossing)
    · exact hs.disabled q hneg
    · cases hcrossing

lemma Kept.accept [NeZero M] {fd : ℤ} {addr : SockAddr} {conn : ℕ} (hs : s.Kept) (hfd : 0 ≤ fd) :
    (⟨(s.parent.pAcceptNewConnection fd addr conn).goto .head, s.outstanding⟩ : Dispatch M).Kept := by
  refine hs.elsewhere rfl rfl fun q hneg => ?_
  by_cases hq : q = Parent.pGetPollfdIndex s.parent.so.pollfds.client
  · subst hq
    have hself : (((s.parent.pAcceptNewConnection fd addr conn).goto .head).client
        (Parent.pGetPollfdIndex s.parent.so.pollfds.client)).fd = fd := by
      simp [Parent.pAcceptNewConnection, Parent.goto, Parent.client]
    omega
  · have hclient : ((s.parent.pAcceptNewConnection fd addr conn).goto .head).client q =
        s.parent.client q := Function.update_of_ne hq _ _
    rw [hclient] at hneg ⊢
    exact hs.disabled q hneg

lemma Kept.send (hs : s.Kept) (hpc : s.parent.pc = .sendMsg p) :
    (⟨s.parent.goto (.postRead p), s.outstanding + {(s.parent.client p).fd}⟩ : Dispatch M).Kept := by
  have hsweep : s.parent.sweepFrom = some (p : ℕ) := by rw [Parent.sweepFrom, hpc]
  have hnonneg := hs.handed p (by rw [Parent.handing, hpc])
  refine ⟨fun k hk => ?_, fun q hq => ?_, fun n hn => ?_, ?_⟩
  · obtain rfl := Option.some.inj hk
    exact hs.swept p hsweep
  · obtain rfl := Option.some.inj hq
    exact hnonneg
  · rcases Multiset.mem_add.mp hn with hn | hn
    · exact hs.numbers n hn
    · rw [Multiset.mem_singleton.mp hn]
      exact hnonneg
  · rintro q (hneg | hcrossing)
    · exact Multiset.mem_add.mpr (.inl (hs.disabled q hneg))
    · obtain rfl := Option.some.inj hcrossing
      refine Multiset.mem_add.mpr (.inr (Multiset.mem_singleton.mpr ?_))
      exact abs_of_nonneg hnonneg

lemma Kept.hand {pc : ParentPc M} (hs : s.Kept)
    (hsweep : (s.parent.goto pc).sweepFrom = s.parent.sweepFrom)
    (hhanding : (s.parent.goto pc).handing = s.parent.handing)
    (hcrossing : (s.parent.goto pc).crossing = s.parent.crossing) :
    (⟨s.parent.goto pc, s.outstanding⟩ : Dispatch M).Kept where
  swept k hk := hs.swept k (hsweep.symm.trans hk)
  handed q hq := hs.handed q (hhanding.symm.trans hq)
  numbers := hs.numbers
  away q hq := by
    rcases hq with hneg | hq
    · exact hs.disabled q hneg
    · exact hs.away q (.inr (hcrossing.symm.trans hq))

lemma Kept.step [NeZero M] (hs : s.Kept) (hok : e.isError = false) (he : s.parent.PosixEvent e)
    (hread : ∀ n, e = .read (.ok n) → n ∈ s.outstanding) (hstep : s.parent.Moves e t) :
    (⟨t, s.transit e⟩ : Dispatch M).Kept := by
  cases hstep with
  | head hpc =>
    split_ifs <;> exact hs.elsewhere rfl rfl hs.disabled
  | sweep hpc => exact hs.pHandleSocketAction hpc
  | swept hpc => exact hs.elsewhere rfl rfl hs.disabled
  | flip hpc => exact hs.flip hpc
  | poll hpc => exact hs.poll he.2.2
  | accept hpc => exact hs.accept he.1
  | @read n hpc => exact hs.read (hread n rfl)
  | wait hpc =>
    exact hs.hand (by rw [Parent.sweepFrom, Parent.sweepFrom, hpc]; rfl)
      (by rw [Parent.handing, Parent.handing, hpc]; rfl)
      (by rw [Parent.crossing, Parent.crossing, hpc]; rfl)
  | interrupt hpc => cases hok
  | @send p hpc hfd =>
    have htransit : s.transit (.send (.ok ())) = s.outstanding + {(s.parent.client p).fd} := by
      rw [transit, Parent.sending, hpc]
      rfl
    rw [htransit]
    exact hs.send hpc
  | post hpc =>
    exact hs.hand (by rw [Parent.sweepFrom, Parent.sweepFrom, hpc]; rfl)
      (by rw [Parent.handing, Parent.handing, hpc]; rfl)
      (by rw [Parent.crossing, Parent.crossing, hpc]; rfl)
  | signal => exact ⟨hs.swept, hs.handed, hs.numbers, hs.away⟩
  | fail hfail =>
    rw [hok] at hfail
    cases hfail

end Dispatch

namespace System

structure Contained (s : System M N) : Prop where
  looping : ∀ i, (s.children i).gogo = true → ∀ ret, (s.children i).pc ≠ .returned ret
  disabled : ∀ p, (s.parent.client p).fd < 0 →
    (∃ m ∈ s.domain, m.number = -(s.parent.client p).fd) ∨
      (∃ i, (s.children i).Holds (-(s.parent.client p).fd)) ∨ -(s.parent.client p).fd ∈ s.pipe

variable [NeZero M]

theorem contained_without_failures (h : Host) (halloc : ∀ n, h.alloc n = true)
    (listenFd pipeFd : ℤ) (others childOthers : ℤ → Bool) (conns : ℕ → Conn) (s : System M N)
    (hs : (machine h).Reaches
      (fun s e => (¬ s.OtherCallFails e ∧ s.PosixEvent e) ∧ ¬ s.ClientCallFails h e)
      (initial listenFd pipeFd others childOthers conns) s) : s.Contained := by
  have hallowed : (machine h).Reaches
      (fun s e => ¬ s.CallFails h e ∧ ∀ e', e = .parent e' → s.parent.PosixEvent e')
      (initial listenFd pipeFd others childOthers conns) s := by
    apply hs.mono
    rintro a e ⟨⟨hother, hposix⟩, hclient⟩
    refine ⟨fun hfail => hfail.elim hclient hother, ?_⟩
    rintro e' rfl
    exact hposix
  obtain ⟨hworking, hrun⟩ := reaches_project Parent.PosixEvent halloc hallowed
  have hkept : s.project.Kept := by
    apply hrun.invariant (I := Dispatch.Kept) (Dispatch.initial_kept listenFd pipeFd others)
    rintro a e b ha ⟨hok, hposix, hread⟩ hstep
    obtain ⟨u, hu, rfl⟩ := Option.map_eq_some_iff.mp hstep
    exact ha.step hok hposix hread (Parent.moves_of_step hu)
  refine ⟨fun i hgogo ret hret => ?_, fun p hneg => ?_⟩
  · have hstopped := (hworking i).looping ret hret
    rw [hgogo] at hstopped
    cases hstopped
  · have hmem := hkept.disabled p hneg
    change |(s.parent.client p).fd| ∈ s.numbers at hmem
    rw [abs_of_neg hneg] at hmem
    exact mem_numbers.mp hmem

def receiveEvents : List (Event maxConnections numChildProcesses) :=
  acceptEvents 6 0 (fun _ => .zero) ++ pollEvents (fun p => if p = 0 then POLLIN else .zero) ++
    passEvents 1 ++ handEvents ++ [.hangup 0, .child 1 (.run 0 {}), .child 1 .ok,
      .child 1 (.received ⟨6, .accepted {} 0⟩ 4), .child 1 .ok, .child 1 .ok, .child 1 (.run 0 {})]

theorem not_contained_of_reset :
    ¬ ∀ (h : Host) (conns : ℕ → Conn) (s : System maxConnections numChildProcesses),
      (∀ n, h.alloc n = true) →
      (machine h).Reaches (fun s e => ¬ s.OtherCallFails e ∧ s.PosixEvent e)
        (initial 5 4 parentDescriptors childDescriptors conns) s → s.Contained := by
  intro hall
  let conn : Conn :=
    { recvs := Stream'.const ⟨.fail (.other 104), false⟩, sends := Stream'.const (.moves 4)
      selects := Stream'.const (.moves 0) }
  let h : Host := ⟨.little, fun _ => true, fun _ => []⟩
  have hrun : ((machine h).runWithin (fun s e => ¬ s.OtherCallFails e ∧ s.PosixEvent e)
      receiveEvents (initial 5 4 parentDescriptors childDescriptors fun _ => conn)).map (fun s =>
        ((s.children 1).pc, (s.children 1).gogo)) = some (.returned (-1), true) := by decide
  obtain ⟨s, hs, hval⟩ := Option.map_eq_some_iff.mp hrun
  simp only [Prod.mk.injEq] at hval
  exact (hall h _ s (fun _ => rfl) (Machine.reaches_of_runWithin hs)).looping 1 hval.2 _ hval.1

theorem contained_without_failures_run :
    let h : Host := ⟨.little, fun _ => true, fun _ => []⟩
    let conn : Conn :=
      { unread := List.replicate 4 0, recvs := Stream'.const (.moves 4)
        sends := Stream'.const (.moves 4), selects := Stream'.const (.moves 0) }
    ∃ s, (machine h).runWithin
        (fun s e => (¬ s.OtherCallFails e ∧ s.PosixEvent e) ∧ ¬ s.ClientCallFails h e)
        receiveEvents (initial 5 4 parentDescriptors childDescriptors fun _ => conn) = some s ∧
      (s.parent.client 0).fd = -6 ∧ s.domain = [] ∧ s.pipe = [] ∧
      ∃ i, (s.children i).Holds 6 := by
  intro h conn
  have hrun : ((machine h).runWithin
      (fun s e => (¬ s.OtherCallFails e ∧ s.PosixEvent e) ∧ ¬ s.ClientCallFails h e)
      receiveEvents (initial 5 4 parentDescriptors childDescriptors fun _ => conn)).map (fun s =>
        ((s.parent.client 0).fd, s.domain, s.pipe)) = some (-6, [], []) := by decide
  obtain ⟨s, hs, hval⟩ := Option.map_eq_some_iff.mp hrun
  simp only [Prod.mk.injEq] at hval
  obtain ⟨hfd, hdomain, hpipe⟩ := hval
  have hdisabled := (contained_without_failures h (fun _ => rfl) 5 4 parentDescriptors
    childDescriptors (fun _ => conn) s (Machine.reaches_of_runWithin hs)).disabled 0 (by rw [hfd]; decide)
  rw [hfd, hdomain, hpipe] at hdisabled
  refine ⟨s, hs, hfd, hdomain, hpipe, ?_⟩
  rcases hdisabled with ⟨m, hm, -⟩ | hholds | hm
  · exact (List.not_mem_nil hm).elim
  · exact hholds
  · exact (List.not_mem_nil hm).elim

end System

end ScalableServer.ProcessServer
