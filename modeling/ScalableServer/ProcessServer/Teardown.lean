import ScalableServer.ProcessServer.ParentTable
import ScalableServer.ProcessServer.SetupTeardown

namespace ScalableServer.ProcessServer

open ScalableServer.Foundations ScalableServer.Core

variable {M N : ℕ}

def Owns (so : StateObject M N) (s : Parent M) (fd : ℤ) : Prop :=
  fd = s.so.pollfds.listen.fd ∨ fd = so.cToPPipeFds.1 ∨ fd = so.domainFds.2 ∨ s.accepted fd ≠ none

structure ClosesWhatItOwns (so : StateObject M N) (s : Parent M) (closed : List ℤ) : Prop where
  connections : ∀ p, (s.client p).fd ≠ 0 → closed.count |(s.client p).fd| = 1
  listen : closed.count s.so.pollfds.listen.fd = 1
  pipe : closed.count so.cToPPipeFds.1 = 1
  domain : closed.count so.domainFds.2 = 1
  own : ∀ fd ∈ closed, Owns so s fd

def TearsDown (ends : ℤ → Bool) (so : StateObject M N) (s : Parent M) (k : Kernel) : Prop :=
  ∃ k' closed, pDestroyParentState ends so s.so k = some k' ∧ k'.closed = k.closed ++ closed ∧
    ClosesWhatItOwns so s closed

structure Opened (so : StateObject M N) (listenFd : ℤ) (others : ℤ → Bool) : Prop where
  positive : 0 < listenFd ∧ 0 < so.cToPPipeFds.1 ∧ 0 < so.domainFds.2
  distinct : listenFd ≠ so.cToPPipeFds.1 ∧ listenFd ≠ so.domainFds.2 ∧
    so.cToPPipeFds.1 ≠ so.domainFds.2
  taken : others listenFd = true ∧ others so.cToPPipeFds.1 = true ∧ others so.domainFds.2 = true

variable {so : StateObject M N} {s t : Parent M} {p : Fin M} {listenFd pipeFd g : ℤ}
  {others : ℤ → Bool} {ends : ℤ → Bool} {k : Kernel}

namespace Parent

structure Fixed (listenFd pipeFd : ℤ) (s : Parent M) : Prop where
  listen : s.so.pollfds.listen.fd = listenFd
  pipe : s.so.pollfds.pipe.fd = pipeFd

lemma stopListening_fd (n : ℕ) (q : PollFd) : (stopListening M n q).fd = q.fd := by
  rw [stopListening]
  split_ifs <;> rfl

lemma resumeListening_fd (n : ℕ) (q : PollFd) : (resumeListening M n q).fd = q.fd := by
  rw [resumeListening]
  split_ifs <;> rfl

lemma Fixed.moves [NeZero M] {e : ParentEvent M} (h : s.Fixed listenFd pipeFd)
    (hstep : s.Moves e t) : t.Fixed listenFd pipeFd := by
  cases hstep with
  | sweep hpc =>
    rw [pHandleSocketAction]
    split_ifs
    · exact ⟨h.listen, h.pipe⟩
    · exact ⟨(resumeListening_fd _ _).trans h.listen, h.pipe⟩
    · exact ⟨h.listen, h.pipe⟩
  | accept hpc => exact ⟨(stopListening_fd _ _).trans h.listen, h.pipe⟩
  | _ => exact ⟨h.listen, h.pipe⟩

lemma fixed_of_reaches [NeZero M] {allowed : Parent M → ParentEvent M → Prop}
    (hs : machine.Reaches allowed (initial listenFd pipeFd others) s) : s.Fixed listenFd pipeFd :=
  hs.invariant (I := Fixed listenFd pipeFd) ⟨rfl, rfl⟩ fun _ _ _ ha _ hstep =>
    ha.moves (moves_of_step hstep)

lemma held_of_reaches [NeZero M] (hM : M < sizeMod) (hg : others g = true)
    (hs : machine.Reaches OrderlyEvent (initial listenFd pipeFd others) s) :
    s.Sound ∧ s.accepted g = none := by
  have hinv : s.Sound ∧ s.fds g = some .other := by
    refine hs.invariant (I := fun a : Parent M => a.Sound ∧ a.fds g = some .other)
      ⟨initial_sound listenFd pipeFd others (NeZero.pos M), if_pos hg⟩ ?_
    rintro a e b ⟨ha, hfd⟩ he hstep
    have hmoves := moves_of_step hstep
    exact ⟨ha.step hM he hmoves, ha.other_kept he hmoves hfd⟩
  refine ⟨hinv.1, ?_⟩
  rw [accepted, hinv.2]
  rfl

end Parent

section Count

variable {client : Fin M → PollFd} {a : ℤ}

lemma count_slots_one (ha : (client p).fd = a) (hone : ∀ q, (client q).fd = a → q = p) :
    ((List.finRange M).map fun q => (client q).fd).count a = 1 := by
  have hcount : ((List.finRange M).map fun q => (client q).fd).count a =
      (List.finRange M).count p := by
    rw [List.count, List.count, List.countP_map]
    refine List.countP_congr fun q _ => ?_
    simp only [Function.comp, beq_iff_eq]
    exact ⟨hone q, fun hq => hq ▸ ha⟩
  rw [hcount]
  exact List.count_eq_one_of_mem (List.nodup_finRange M) (List.mem_finRange p)

lemma count_slots_zero (ha : ∀ q, (client q).fd ≠ a) :
    ((List.finRange M).map fun q => (client q).fd).count a = 0 := by
  rw [List.count_eq_zero]
  intro hmem
  obtain ⟨q, -, hq⟩ := List.mem_map.mp hmem
  exact ha q hq

end Count

lemma closedFds_eq (h : s.Fixed listenFd so.cToPPipeFds.1) : closedFds so s.so =
    [so.cToPPipeFds.1, so.domainFds.2, listenFd, so.cToPPipeFds.1] ++
      (List.finRange M).map fun p => (s.client p).fd := by
  rw [closedFds, h.listen, h.pipe]
  rfl

lemma not_tearsDown (h : s.Fixed listenFd so.cToPPipeFds.1) : ¬ TearsDown ends so s k := by
  rintro ⟨k', closed, hdestroy, hclosed, hcloses⟩
  rw [pDestroyParentState_eq] at hdestroy
  split_ifs at hdestroy
  obtain rfl := Option.some.inj hdestroy
  obtain rfl : closedFds so s.so = closed := List.append_cancel_left hclosed
  have hpipe := hcloses.pipe
  rw [closedFds_eq h] at hpipe
  simp only [List.cons_append, List.count_cons_self, List.count_cons] at hpipe
  omega

structure Closes (so : StateObject M N) (s : Parent M) (closed : List ℤ) : Prop where
  listen : closed.count s.so.pollfds.listen.fd = 1
  domain : closed.count so.domainFds.2 = 1
  pipe : closed.count so.cToPPipeFds.1 = 2
  enabled : ∀ p, 0 < (s.client p).fd → closed.count |(s.client p).fd| = 1
  disabled : ∀ p, (s.client p).fd < 0 → closed.count |(s.client p).fd| = 0
  own : (∀ fd ∈ closed, Owns so s fd) ↔ ∀ p, 0 < (s.client p).fd

lemma Parent.Sound.stored (hsound : s.Sound) {p : Fin M} (hp : (s.client p).fd ≠ 0) :
    s.accepted |(s.client p).fd| ≠ none := by
  have hlists : SlotTable.Lists _ _ _ _ _ := Registered.lists hsound.table
  exact ne_of_eq_of_ne (hlists.stored p hp) (Option.some_ne_none _)

lemma Parent.Sound.fd_ne (hsound : s.Sound) {g : ℤ} (hpos : 0 < g) (hg : s.accepted g = none)
    (p : Fin M) : (s.client p).fd ≠ g := by
  rintro rfl
  apply hsound.stored hpos.ne'
  rwa [abs_of_pos hpos]

lemma Parent.Sound.eq_of_abs (hsound : s.Sound) {p q : Fin M} (hp : (s.client p).fd ≠ 0)
    (hq : (s.client q).fd = |(s.client p).fd|) : q = p := by
  have hlists : SlotTable.Lists _ _ _ _ _ := Registered.lists hsound.table
  have hq0 : (s.client q).fd ≠ 0 := by
    rw [hq]
    exact abs_ne_zero.mpr hp
  apply hlists.distinct q p hq0 hp
  change |(s.client q).fd| = |(s.client p).fd|
  rw [hq, abs_abs]

lemma Parent.Sound.count_opened (hsound : s.Sound) {p : Fin M} (hp : (s.client p).fd ≠ 0) {gs : List ℤ}
    (hgs : ∀ g ∈ gs, s.accepted g = none) : gs.count |(s.client p).fd| = 0 := by
  rw [List.count_eq_zero]
  exact fun hmem => hsound.stored hp (hgs _ hmem)

lemma owns_iff_enabled (hopened : Opened so listenFd others)
    (hfixed : s.Fixed listenFd so.cToPPipeFds.1) (hsound : s.Sound) :
    (∀ fd ∈ closedFds so s.so, Owns so s fd) ↔ ∀ p, 0 < (s.client p).fd := by
  obtain ⟨hlisten, hpipe, hdomain⟩ := hopened.positive
  rw [closedFds_eq hfixed]
  constructor
  · intro hown p
    obtain hl | hp | hd | haccepted := hown (s.client p).fd
      (List.mem_append_right _ (List.mem_map_of_mem (List.mem_finRange p)))
    · rw [hl, hfixed.listen]
      exact hlisten
    · rw [hp]
      exact hpipe
    · rw [hd]
      exact hdomain
    · have hlists : SlotTable.Lists _ _ _ _ _ := Registered.lists hsound.table
      obtain ⟨q, hq, hkey⟩ := hlists.covers _ haccepted
      change |(s.client q).fd| = _ at hkey
      rw [← hkey]
      exact abs_pos.mpr hq
  · intro hpos fd hfd
    rcases List.mem_append.mp hfd with hfd | hfd
    · rw [Owns, hfixed.listen]
      simp only [List.mem_cons, List.not_mem_nil, or_false] at hfd
      tauto
    · obtain ⟨p, -, rfl⟩ := List.mem_map.mp hfd
      refine .inr (.inr (.inr ?_))
      have haccepted := hsound.stored (hpos p).ne'
      rwa [abs_of_pos (hpos p)] at haccepted

lemma closes_of_sound (hopened : Opened so listenFd others)
    (hfixed : s.Fixed listenFd so.cToPPipeFds.1) (hsound : s.Sound)
    (hheld : ∀ g, others g = true → s.accepted g = none) : Closes so s (closedFds so s.so) := by
  have hown := owns_iff_enabled hopened hfixed hsound
  obtain ⟨⟨hlisten, hpipe, hdomain⟩, ⟨hlp, hld, hpd⟩, htl, htp, htd⟩ := hopened
  have hnew : ∀ p, (s.client p).fd ≠ 0 →
      ([so.cToPPipeFds.1, so.domainFds.2, listenFd, so.cToPPipeFds.1]).count |(s.client p).fd| =
        0 := by
    intro p hp
    apply hsound.count_opened hp
    simp [hheld _ htl, hheld _ htp, hheld _ htd]
  rw [closedFds_eq hfixed] at hown ⊢
  constructor
  · rw [hfixed.listen, List.count_append,
      count_slots_zero (hsound.fd_ne hlisten (hheld _ htl))]
    simp [hlp.symm, hld.symm]
  · rw [List.count_append, count_slots_zero (hsound.fd_ne hdomain (hheld _ htd))]
    simp [hpd, hld]
  · rw [List.count_append, count_slots_zero (hsound.fd_ne hpipe (hheld _ htp))]
    simp [hpd.symm, hlp]
  · intro p hp
    rw [List.count_append, hnew p hp.ne',
      count_slots_one (abs_of_pos hp).symm fun q => hsound.eq_of_abs hp.ne']
  · intro p hp
    rw [List.count_append, hnew p hp.ne, count_slots_zero]
    intro q hq
    obtain rfl := hsound.eq_of_abs hp.ne hq
    rw [abs_of_neg hp] at hq
    omega
  · exact hown

theorem parent_teardown_closes [NeZero M] (hM : M < sizeMod) (so : StateObject M N) (listenFd : ℤ)
    (others : ℤ → Bool) (s : Parent M)
    (hs : Parent.machine.Reaches (fun _ _ => True)
      (Parent.initial listenFd so.cToPPipeFds.1 others) s) :
    (∀ ends k, ¬ TearsDown ends so s k) ∧
      (Opened so listenFd others →
        Parent.machine.Reaches Parent.OrderlyEvent
          (Parent.initial listenFd so.cToPPipeFds.1 others) s →
        Closes so s (closedFds so s.so)) := by
  refine ⟨fun ends k => not_tearsDown (Parent.fixed_of_reaches hs), fun hopened horderly => ?_⟩
  have hlistenHeld := Parent.held_of_reaches hM hopened.taken.1 horderly
  exact closes_of_sound hopened (Parent.fixed_of_reaches hs) hlistenHeld.1 fun g hg =>
    (Parent.held_of_reaches hM hg horderly).2

def teardownState : StateObject maxConnections numChildProcesses where
  cToPPipeFds := (4, 0)
  domainFds := (0, 6)

def teardownEvents : List (ParentEvent maxConnections) :=
  [.run, .poll (.ok ⟨POLLIN, .zero, fun _ => .zero⟩), .accept (.ok (7, ⟨1, 2⟩, 0))]

theorem teardown_of_dispatched :
    let es := teardownEvents ++
      [.run, .poll (.ok ⟨.zero, .zero, fun p => if p = 0 then POLLIN else .zero⟩), .run,
        .wait (.ok ()), .send (.ok ()), .post, .run]
    ∃ s, Parent.machine.runWithin Parent.OrderlyEvent es (Parent.initial 5 4 (· < 7)) = some s ∧
      closedFds teardownState s.so = [4, 6, 5, 4, -7, 0, 0, 0, 0] ∧
      ¬ TearsDown (fun _ => true) teardownState s { sems := fun _ => none } := by
  intro es
  have hrun : (Parent.machine.runWithin Parent.OrderlyEvent es (Parent.initial 5 4 (· < 7))).map
      (fun s => closedFds teardownState s.so) = some [4, 6, 5, 4, -7, 0, 0, 0, 0] := by decide
  obtain ⟨s, hs, hclosed⟩ := Option.map_eq_some_iff.mp hrun
  exact ⟨s, hs, hclosed, not_tearsDown (Parent.fixed_of_reaches (Machine.reaches_of_runWithin hs))⟩

theorem parent_teardown_closes_accepted :
    ∃ s, Parent.machine.runWithin Parent.OrderlyEvent teardownEvents
        (Parent.initial 5 4 (· < 7)) = some s ∧
      ¬ TearsDown (fun _ => true) teardownState s { sems := fun _ => none } ∧
      Closes teardownState s (closedFds teardownState s.so) := by
  have hsome : (Parent.machine.runWithin Parent.OrderlyEvent teardownEvents
      (Parent.initial 5 4 (· < 7))).isSome = true := by decide
  obtain ⟨s, hs⟩ := Option.isSome_iff_exists.mp hsome
  have hreaches := Machine.reaches_of_runWithin hs
  obtain ⟨hnot, hcloses⟩ := parent_teardown_closes (by decide) teardownState 5 (· < 7) s
    (hreaches.mono fun _ _ _ => trivial)
  have hopened : Opened teardownState 5 (· < 7) := ⟨by decide, by decide, by decide⟩
  exact ⟨s, hs, hnot (fun _ => true) { sems := fun _ => none }, hcloses hopened hreaches⟩

end ScalableServer.ProcessServer
