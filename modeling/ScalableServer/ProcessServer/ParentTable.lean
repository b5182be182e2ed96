import ScalableServer.Foundations.Updates
import ScalableServer.ProcessServer.Parent

namespace ScalableServer.ProcessServer

open ScalableServer.Foundations ScalableServer.Core

variable {M : ℕ}

namespace Parent

def Table (s : Parent M) : Prop :=
  Registered (fun fd => |fd|) s.so.pollfds.listen s.so.pollfds.client s.so.clientAddrs
    s.so.numConnections s.accepted

def sweepFrom (s : Parent M) : Option ℕ :=
  match s.pc with
  | .sweep k => some k
  | .waitWrite p | .sendMsg p | .postRead p | .flip p => some p
  | _ => none

def handing (s : Parent M) : Option (Fin M) :=
  match s.pc with
  | .waitWrite p | .sendMsg p | .postRead p | .flip p => some p
  | _ => none

structure Sound (s : Parent M) : Prop where
  table : s.Table
  accepting : s.pc = .accept → s.so.numConnections < M
  sweeping : ∀ k, s.sweepFrom = some k → ∀ p : Fin M, k ≤ p →
    (s.client p).revents = POLLIN ∨ (s.client p).revents.hangup = true → 0 < (s.client p).fd
  enabled : ∀ p, s.handing = some p → 0 < (s.client p).fd

/-- A result that POSIX permits, and that reports no hang-up or error for an unused slot when the
slots are looked at. -/
structure Orderly (s : Parent M) (r : PollResult M) : Prop where
  listen : s.so.pollfds.listen.MayReport r.listen
  client : ∀ p, (s.client p).MayReport (r.client p)
  unused : r.listen ≠ POLLIN → r.pipe ≠ POLLIN →
    ∀ p, (s.client p).fd = 0 → (r.client p).hangup = false

def OrderlyEvent (s : Parent M) : ParentEvent M → Prop
  | .poll (.ok r) => s.Orderly r
  | .accept (.ok (fd, _, _)) => 0 < fd ∧ s.fds fd = none
  | _ => True

instance (s : Parent M) (r : PollResult M) : Decidable (s.Orderly r) :=
  decidable_of_iff (s.so.pollfds.listen.MayReport r.listen ∧
      (∀ p, (s.client p).MayReport (r.client p)) ∧
      (r.listen ≠ POLLIN → r.pipe ≠ POLLIN → ∀ p, (s.client p).fd = 0 → (r.client p).hangup = false))
    ⟨fun ⟨hl, hc, hu⟩ => ⟨hl, hc, hu⟩, fun ⟨hl, hc, hu⟩ => ⟨hl, hc, hu⟩⟩

instance (s : Parent M) : (e : ParentEvent M) → Decidable (s.OrderlyEvent e)
  | .poll (.ok r) => inferInstanceAs (Decidable (s.Orderly r))
  | .accept (.ok (_, _, _)) => inferInstanceAs (Decidable (_ ∧ _))
  | .poll (.error _) | .accept (.error _) | .run | .read _ | .wait _ | .send _ | .post | .signal =>
    .isTrue trivial

variable {s t : Parent M} {p : Fin M} {fd : ℤ} {addr : SockAddr} {conn : ℕ}

lemma accepted_update (s : Parent M) (fd : ℤ) (d : Option Descriptor) :
    ({ s with fds := Function.update s.fds fd d } : Parent M).accepted =
      Function.update s.accepted fd (d.bind Descriptor.peer) := by
  funext g
  by_cases hg : g = fd
  · subst hg
    simp [accepted]
  · simp [accepted, Function.update_of_ne hg]

lemma initial_table (listenFd pipeFd : ℤ) (others : ℤ → Bool) (hM : 0 < M) :
    (initial listenFd pipeFd others : Parent M).Table := by
  have hnone : (initial listenFd pipeFd others : Parent M).accepted = fun _ => none := by
    funext fd
    change (if others fd then some Descriptor.other else none).bind Descriptor.peer = none
    split_ifs <;> rfl
  rw [Table]
  rw [hnone]
  exact .start (fun _ => rfl) (if_pos hM).symm

lemma Table.setClient {q : PollFd} (h : s.Table) (hfd : q.fd = 0 ↔ (s.client p).fd = 0)
    (habs : |q.fd| = |(s.client p).fd|) (hevents : q.events = (s.client p).events) :
    (s.setClient p q).Table := by
  refine h.congr rfl (fun i => ?_) (fun i => ?_) fun i => ?_ <;>
  · by_cases hi : i = p
    · subst hi
      simp only [Parent.setClient, Function.update_self]
      assumption
    · simp only [Parent.setClient, Function.update_of_ne hi]

lemma Table.sweepOn (h : s.Table) (p : Fin M) : (s.sweepOn p).Table :=
  Table.setClient h Iff.rfl rfl rfl

lemma Table.disable (h : s.Table) (p : Fin M) : (s.disable p).Table := by
  refine Table.setClient h ?_ ?_ rfl
  · change (s.client p).fd * -1 = 0 ↔ _
    omega
  · change |(s.client p).fd * -1| = _
    rw [mul_neg_one, abs_neg]

lemma reenable_fd (number : ℤ) (q : PollFd) : |(reenable number q).fd| = |q.fd| := by
  rw [reenable]
  split_ifs
  · change |q.fd * -1| = _
    rw [mul_neg_one, abs_neg]
  · rfl

lemma reenable_events (number : ℤ) (q : PollFd) : (reenable number q).events = q.events := by
  rw [reenable]
  split_ifs <;> rfl

lemma Table.pReadPipeReenableFd (h : s.Table) (number : ℤ) :
    (s.pReadPipeReenableFd number).Table := by
  refine h.congr rfl (fun i => ?_) (fun i => reenable_fd _ _) fun i => reenable_events _ _
  rw [← abs_eq_zero, ← abs_eq_zero (a := (s.so.pollfds.client i).fd)]
  exact Eq.congr_left (reenable_fd number (s.so.pollfds.client i))

lemma Table.pGetPollfdIndex_free [NeZero M] (h : s.Table) (hn : s.so.numConnections < M) :
    (s.client (pGetPollfdIndex s.so.pollfds.client)).fd = 0 := by
  have hfree := h.exists_free hn
  obtain ⟨i, hi⟩ : ∃ i, SlotTable.firstFree (fun q : PollFd => q.fd ≠ 0) s.so.pollfds.client =
      some i := SlotTable.exists_firstFree hfree
  have hfd := SlotTable.firstFree_free hi
  rw [pGetPollfdIndex, hi, Option.getD_some]
  exact not_not.mp hfd

lemma Table.pAcceptNewConnection [NeZero M] (h : s.Table) (hM : M < sizeMod)
    (hn : s.so.numConnections < M) (hfd : 0 < fd) (hnew : s.fds fd = none) :
    (s.pAcceptNewConnection fd addr conn).Table := by
  have haccepted : (s.pAcceptNewConnection fd addr conn).accepted =
      Function.update s.accepted |fd| (some addr) := by
    rw [abs_of_pos hfd]
    exact accepted_update s fd _
  rw [Table]
  rw [haccepted]
  apply h.accept hM hn (h.pGetPollfdIndex_free hn) hfd.ne'
  rw [abs_of_pos hfd, accepted, hnew]
  rfl

lemma Table.pRemoveConnection (h : s.Table) (hM : M < sizeMod) (hused : 0 < (s.client p).fd) :
    (s.pRemoveConnection p).Table := by
  have haccepted : (s.pRemoveConnection p).accepted =
      Function.update s.accepted |(s.client p).fd| none := by
    rw [abs_of_pos hused]
    exact accepted_update s _ none
  rw [Table]
  rw [haccepted]
  exact h.remove hM hused.ne'

lemma setClient_other {q : PollFd} {i : Fin M} (hi : i ≠ p) :
    (s.setClient p q).client i = s.client i := Function.update_of_ne hi _ _

lemma sound_elsewhere (h : t.Table) (haccept : t.pc ≠ .accept) (hsweep : t.sweepFrom = none)
    (hhanding : t.handing = none) : t.Sound where
  table := h
  accepting hpc := (haccept hpc).elim
  sweeping k hk := by rw [hsweep] at hk; cases hk
  enabled p hp := by rw [hhanding] at hp; cases hp

lemma sound_sweepOn (h : t.Table) (hlater : ∀ q : Fin M, (p : ℕ) < q →
      (t.client q).revents = POLLIN ∨ (t.client q).revents.hangup = true →
      0 < (t.client q).fd) : (t.sweepOn p).Sound where
  table := h.sweepOn p
  accepting := by rintro ⟨⟩
  sweeping k hk q hq hr := by
    obtain rfl := Option.some.inj hk
    have hne : q ≠ p := by
      rintro rfl
      omega
    have hclient : (t.sweepOn p).client q = t.client q := setClient_other hne
    rw [hclient] at hr ⊢
    exact hlater q hq hr
  enabled q hq := by cases hq

lemma Sound.later (h : s.Sound) (hk : s.sweepFrom = some (p : ℕ)) (q : Fin M) (hq : (p : ℕ) < q)
    (hr : (s.client q).revents = POLLIN ∨ (s.client q).revents.hangup = true) :
    0 < (s.client q).fd := h.sweeping p hk q hq.le hr

lemma Sound.pHandleSocketAction (h : s.Sound) (hM : M < sizeMod) (hpc : s.pc = .sweep p) :
    (s.pHandleSocketAction p).Sound := by
  have hk : s.sweepFrom = some (p : ℕ) := by rw [sweepFrom, hpc]
  rw [Parent.pHandleSocketAction]
  split_ifs with hin hup
  · refine ⟨h.table, by rintro ⟨⟩, fun k hk' => ?_, fun q hq => ?_⟩
    · obtain rfl := Option.some.inj hk'
      exact h.sweeping p hk
    · obtain rfl := Option.some.inj hq
      exact h.sweeping p hk p (le_refl _) (.inl hin)
  · have hused := h.sweeping p hk p (le_refl _) (.inr hup)
    refine sound_sweepOn (h.table.pRemoveConnection hM hused) fun q hq => ?_
    have hne : q ≠ p := by
      rintro rfl
      omega
    have hclient : (s.pRemoveConnection p).client q = s.client q := Function.update_of_ne hne _ _
    rw [hclient]
    exact h.later hk q hq
  · exact sound_sweepOn h.table (h.later hk)

lemma Sound.flip (h : s.Sound) (hpc : s.pc = .flip p) : ((s.disable p).sweepOn p).Sound := by
  have hk : s.sweepFrom = some (p : ℕ) := by rw [sweepFrom, hpc]
  refine sound_sweepOn (h.table.disable p) fun q hq => ?_
  have hne : q ≠ p := by
    rintro rfl
    omega
  rw [disable, setClient_other hne]
  exact h.later hk q hq

lemma Sound.hand {pc : ParentPc M} (h : s.Sound) (hsweep : s.sweepFrom = some (p : ℕ))
    (hhanding : s.handing = some p) (hpc : pc = .sendMsg p ∨ pc = .postRead p ∨ pc = .flip p) :
    (s.goto pc).Sound := by
  refine ⟨h.table, ?_, fun k hk => ?_, fun q hq => ?_⟩
  · rcases hpc with rfl | rfl | rfl <;> rintro ⟨⟩
  · have hpk : k = p := by
      rcases hpc with rfl | rfl | rfl <;> exact (Option.some.inj hk).symm
    subst hpk
    exact h.sweeping p hsweep
  · have hpq : q = p := by
      rcases hpc with rfl | rfl | rfl <;> exact (Option.some.inj hq).symm
    subst hpq
    exact h.enabled q hhanding

lemma Sound.poll {r : PollResult M} (h : s.Sound) (hr : s.Orderly r) :
    ((s.report r).goto (if r.listen = POLLIN then .accept
      else if r.pipe = POLLIN then .readPipe else .sweep 0)).Sound := by
  have htable : (s.report r).Table :=
    h.table.congr rfl (fun _ => Iff.rfl) (fun _ => rfl) fun _ => rfl
  by_cases hlisten : r.listen = POLLIN
  · rw [if_pos hlisten]
    have hroom := Registered.room h.table (hlisten ▸ hr.listen).requested
    exact ⟨htable, fun _ => hroom, by rintro k ⟨⟩, by rintro q ⟨⟩⟩
  rw [if_neg hlisten]
  by_cases hpipe : r.pipe = POLLIN
  · rw [if_pos hpipe]
    exact sound_elsewhere htable (by rintro ⟨⟩) rfl rfl
  rw [if_neg hpipe]
  refine ⟨htable, by rintro ⟨⟩, fun k _ q _ hq => ?_, by rintro q ⟨⟩⟩
  change r.client q = POLLIN ∨ (r.client q).hangup = true at hq
  change 0 < (s.client q).fd
  have hnonneg : ¬ (s.client q).fd < 0 := by
    intro hneg
    have hzero := (hr.client q).1 hneg
    rw [hzero] at hq
    rcases hq with hq | hq <;> cases hq
  have hused : (s.client q).fd ≠ 0 := by
    intro hfree
    rcases hq with hin | hup
    · exact (hin ▸ hr.client q).requested (Registered.free h.table q hfree).2
    · rw [hr.unused hlisten hpipe q hfree] at hup
      cases hup
  omega

lemma Sound.step [NeZero M] {e : ParentEvent M} (h : s.Sound) (hM : M < sizeMod)
    (he : s.OrderlyEvent e) (hstep : s.Moves e t) : t.Sound := by
  cases hstep with
  | head hpc =>
    split_ifs <;> exact sound_elsewhere h.table (by rintro ⟨⟩) rfl rfl
  | sweep hpc => exact h.pHandleSocketAction hM hpc
  | swept hpc => exact sound_elsewhere h.table (by rintro ⟨⟩) rfl rfl
  | flip hpc => exact h.flip hpc
  | poll hpc => exact h.poll he
  | accept hpc =>
    exact sound_elsewhere (h.table.pAcceptNewConnection hM (h.accepting hpc) he.1 he.2)
      (by rintro ⟨⟩) rfl rfl
  | read hpc => exact sound_elsewhere (h.table.pReadPipeReenableFd _) (by rintro ⟨⟩) rfl rfl
  | wait hpc => exact h.hand (by rw [sweepFrom, hpc]) (by rw [handing, hpc]) (.inl rfl)
  | interrupt hpc =>
    exact h.hand (by rw [sweepFrom, hpc]) (by rw [handing, hpc]) (.inr (.inr rfl))
  | send hpc hfd => exact h.hand (by rw [sweepFrom, hpc]) (by rw [handing, hpc]) (.inr (.inl rfl))
  | post hpc => exact h.hand (by rw [sweepFrom, hpc]) (by rw [handing, hpc]) (.inr (.inr rfl))
  | signal => exact ⟨h.table, h.accepting, h.sweeping, h.enabled⟩
  | fail he => exact sound_elsewhere h.table (by rintro ⟨⟩) rfl rfl

lemma initial_sound (listenFd pipeFd : ℤ) (others : ℤ → Bool) (hM : 0 < M) :
    (initial listenFd pipeFd others : Parent M).Sound :=
  sound_elsewhere (initial_table listenFd pipeFd others hM) (by rintro ⟨⟩) rfl rfl

lemma Sound.removal (h : s.Sound) (hr : s.RemovalEntered p) : 0 < (s.client p).fd := by
  obtain ⟨hpc, -, hup⟩ := hr
  exact h.sweeping p (by rw [sweepFrom, hpc]) p (le_refl _) (.inr hup)

lemma Table.stored (h : s.Table) (hused : (s.client p).fd ≠ 0) :
    ∃ conn, s.fds |(s.client p).fd| = some (.accepted (s.so.clientAddrs p) conn) := by
  obtain ⟨d, hd, haddr⟩ := Option.bind_eq_some_iff.mp (Registered.lists h |>.stored p hused)
  cases d with
  | accepted addr conn =>
    obtain rfl := Option.some.inj haddr
    exact ⟨conn, hd⟩
  | other => cases haddr

lemma Sound.removed_accepted (hs : s.Sound) (hr : s.RemovalEntered p) :
    ∃ addr conn, s.fds (s.client p).fd = some (.accepted addr conn) := by
  have hpos := hs.removal hr
  obtain ⟨conn, hc⟩ := hs.table.stored hpos.ne'
  rw [abs_of_pos hpos] at hc
  exact ⟨_, conn, hc⟩

lemma Sound.other_kept [NeZero M] {e : ParentEvent M} {g : ℤ} (hs : s.Sound)
    (he : s.OrderlyEvent e) (hstep : s.Moves e t) (hg : s.fds g = some .other) : t.fds g = some .other := by
  cases hstep with
  | @sweep p hpc =>
    rw [Parent.pHandleSocketAction]
    split_ifs with hin hup
    · exact hg
    · obtain ⟨addr, conn, hc⟩ := hs.removed_accepted ⟨hpc, hin, hup⟩
      exact kept_update (by rw [hc]; rintro ⟨⟩) hg
    · exact hg
  | accept hpc => exact kept_update (by rw [he.2]; rintro ⟨⟩) hg
  | _ => exact hg

end Parent

namespace Dispatch

def WellReported (s : Dispatch M) : ParentEvent M → Prop
  | .poll (.ok r) => s.parent.so.pollfds.listen.MayReport r.listen ∧
      s.parent.so.pollfds.pipe.MayReport r.pipe ∧
      ∀ p, (s.parent.client p).MayReport (r.client p) ∧
        ((s.parent.client p).fd ≤ 0 → r.client p = .zero)
  | .accept (.ok (fd, _, _)) => 0 < fd ∧ s.parent.fds fd = none
  | .read (.ok number) => number ∈ s.outstanding
  | _ => True

instance (s : Dispatch M) : (e : ParentEvent M) → Decidable (s.WellReported e)
  | .poll (.ok _) => inferInstanceAs (Decidable (_ ∧ _))
  | .accept (.ok (_, _, _)) => inferInstanceAs (Decidable (_ ∧ _))
  | .read (.ok _) => inferInstanceAs (Decidable (_ ∈ _))
  | .poll (.error _) | .accept (.error _) | .read (.error _) | .run | .wait _ | .send _ | .post
  | .signal => .isTrue trivial

lemma WellReported.orderly {s : Dispatch M} {e : ParentEvent M} (he : s.WellReported e) :
    s.parent.OrderlyEvent e := by
  cases e with
  | poll result =>
    cases result with
    | error e => trivial
    | ok r =>
      refine ⟨he.1, fun p => (he.2.2 p).1, fun _ _ p hp => ?_⟩
      rw [(he.2.2 p).2 hp.le]
      rfl
  | accept result =>
    cases result with
    | error e => trivial
    | ok r => exact he
  | _ => trivial

lemma parent_sound [NeZero M] {allowed : Dispatch M → ParentEvent M → Prop} {s t : Dispatch M}
    (hM : M < sizeMod) (hallowed : ∀ a e, allowed a e → a.parent.OrderlyEvent e)
    (hr : machine.Reaches allowed s t) (hs : s.parent.Sound) : t.parent.Sound := by
  refine hr.invariant (I := fun a => a.parent.Sound) hs fun a e b ha he hb => ?_
  obtain ⟨p, hp, rfl⟩ := Option.map_eq_some_iff.mp hb
  exact ha.step hM (hallowed a e he) (Parent.moves_of_step hp)

theorem processServer_connection_table (listenFd pipeFd : ℤ) (others : ℤ → Bool)
    (s : Dispatch maxConnections)
    (hs : machine.Reaches WellReported (initial listenFd pipeFd others) s) :
    let parent := s.parent
    parent.so.numConnections = (Finset.univ.filter fun p => (parent.client p).fd ≠ 0).card ∧
      parent.so.numConnections ≤ maxConnections ∧
      (∀ p q, (parent.client p).fd ≠ 0 → |(parent.client p).fd| = |(parent.client q).fd| → p = q) ∧
      (∀ fd, parent.accepted fd ≠ none ↔
        ∃ p, (parent.client p).fd ≠ 0 ∧ |(parent.client p).fd| = fd) ∧
      (parent.so.pollfds.listen.events = POLLIN ↔ parent.so.numConnections < maxConnections) ∧
      (∀ p, (parent.client p).fd ≠ 0 →
        parent.accepted |(parent.client p).fd| = some (parent.so.clientAddrs p)) ∧
      (parent.pc = .accept →
        (parent.client (Parent.pGetPollfdIndex parent.so.pollfds.client)).fd = 0) ∧
      ∀ p, parent.RemovalEntered p → 0 < (parent.client p).fd := by
  intro parent
  have hsound : parent.Sound := parent_sound (by decide) (fun _ _ he => he.orderly) hs
    (Parent.initial_sound listenFd pipeFd others (by decide))
  have htable : Registered _ _ _ _ _ _ := hsound.table
  refine ⟨htable.count, htable.count_le, fun p q hp he => ?_, fun fd => ⟨htable.lists.covers fd, ?_⟩,
    htable.listening_iff, htable.lists.stored,
    fun hpc => hsound.table.pGetPollfdIndex_free (hsound.accepting hpc), fun p => hsound.removal⟩
  · refine htable.lists.distinct p q hp ?_ he
    intro hq
    change (parent.client q).fd = 0 at hq
    rw [hq, abs_zero, abs_eq_zero] at he
    exact hp he
  · rintro ⟨p, hp, rfl⟩
    exact ne_of_eq_of_ne (htable.lists.stored p hp) (Option.some_ne_none _)

theorem processServer_connection_table_run :
    let es : List (ParentEvent maxConnections) :=
      [.run, .poll (.ok ⟨POLLIN, .zero, fun _ => .zero⟩), .accept (.ok (7, ⟨1, 2⟩, 0)), .run,
        .poll (.ok ⟨.zero, .zero, fun p => if p = 0 then POLLIN else .zero⟩), .run, .wait (.ok ()),
        .send (.ok ()), .post, .run, .run, .run, .run, .run, .run, .run,
        .poll (.ok ⟨POLLIN, .zero, fun _ => .zero⟩), .accept (.ok (8, ⟨3, 4⟩, 1)), .run,
        .poll (.ok ⟨.zero, POLLIN, fun _ => .zero⟩), .read (.ok 7), .run,
        .poll (.ok ⟨.zero, .zero, fun p => if p = 0 then { pollhup := true } else .zero⟩), .run]
    ∃ s, machine.runWithin WellReported es (initial 3 4 (· < 7)) = some s ∧
      s.parent.so.numConnections = 1 ∧ s.parent.so.clientAddrs 1 = ⟨3, 4⟩ ∧
      s.parent.so.pollfds.listen.events = POLLIN := by
  intro es
  have hrun : (machine.runWithin WellReported es (initial 3 4 (· < 7))).map (fun s =>
      (s.parent.so.numConnections, (s.parent.client 1).fd, s.parent.accepted 8)) =
        some (1, 8, some ⟨3, 4⟩) := by decide
  obtain ⟨s, hs, hval⟩ := Option.map_eq_some_iff.mp hrun
  simp only [Prod.mk.injEq] at hval
  obtain ⟨hn, hfd, haccepted⟩ := hval
  obtain ⟨-, -, -, -, hlisten, haddr, -, -⟩ := processServer_connection_table 3 4 (· < 7) s
    (Machine.reaches_of_runWithin hs)
  have haddr1 := haddr 1 (by rw [hfd]; decide)
  rw [hfd] at haddr1
  exact ⟨s, hs, hn, Option.some.inj (haddr1.symm.trans haccepted), hlisten.mpr (by rw [hn]; decide)⟩

end Dispatch

end ScalableServer.ProcessServer
