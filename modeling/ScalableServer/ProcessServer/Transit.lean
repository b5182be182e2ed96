import ScalableServer.Foundations.Updates
import ScalableServer.ProcessServer.ParentTable

namespace ScalableServer.ProcessServer

open ScalableServer.Foundations ScalableServer.Core

variable {M : ℕ}

namespace Parent

def crossing (s : Parent M) : Option (Fin M) :=
  match s.pc with
  | .postRead p | .flip p => some p
  | _ => none

def Away (s : Parent M) (p : Fin M) : Prop := (s.client p).fd < 0 ∨ s.crossing = some p

instance (s : Parent M) (p : Fin M) : Decidable (s.Away p) := inferInstanceAs (Decidable (_ ∨ _))

def away (s : Parent M) (p : Fin M) : Multiset ℤ := if s.Away p then {|(s.client p).fd|} else 0

variable {s t : Parent M} {e : ParentEvent M} {p q : Fin M} {fd n : ℤ}

lemma away_congr (hfd : (t.client p).fd = (s.client p).fd)
    (hcrossing : t.crossing = some p ↔ s.crossing = some p) : t.away p = s.away p := by
  have haway : t.Away p ↔ s.Away p := by rw [Away, Away, hfd, hcrossing]
  simp only [away, haway, hfd]

lemma away_of_nonneg (hfd : 0 ≤ (s.client p).fd) (hcrossing : s.crossing = none) :
    s.away p = 0 := by
  refine if_neg ?_
  rintro (hneg | hc)
  · omega
  · rw [hcrossing] at hc
    cases hc

lemma handing_of_crossing (hc : s.crossing = some p) : s.handing = some p := by
  rw [crossing] at hc
  rw [handing]
  split at hc <;> simp_all

lemma Sound.away_used (hs : s.Sound) (ha : s.Away p) : (s.client p).fd ≠ 0 := by
  rcases ha with hneg | hc
  · exact hneg.ne
  · exact (hs.enabled p (handing_of_crossing hc)).ne'

lemma Sound.distinct (hs : s.Sound) (hp : (s.client p).fd ≠ 0) (hq : (s.client q).fd ≠ 0)
    (he : |(s.client p).fd| = |(s.client q).fd|) : p = q :=
  (Registered.lists hs.table).distinct p q hp hq he

lemma Sound.fds_of_moves [NeZero M] (hs : s.Sound) (hstep : s.Moves e t) :
    t.fds = s.fds ∨
      (∃ fd addr conn, e = .accept (.ok (fd, addr, conn)) ∧
        t.fds = Function.update s.fds fd (some (.accepted addr conn))) ∨
      ∃ p : Fin M, s.pc = .sweep p ∧ 0 < (s.client p).fd ∧
        t.fds = Function.update s.fds (s.client p).fd none := by
  cases hstep with
  | @sweep p hpc =>
    rw [Parent.pHandleSocketAction]
    split_ifs with hin hup
    · exact .inl rfl
    · exact .inr (.inr ⟨p, hpc, hs.removal ⟨hpc, hin, hup⟩, rfl⟩)
    · exact .inl rfl
  | accept hpc => exact .inr (.inl ⟨_, _, _, rfl, rfl⟩)
  | _ => exact .inl rfl

lemma Moves.opened [NeZero M] {d : Descriptor} (hstep : s.Moves e t) (hd : t.fds fd = some d) :
    s.fds fd = some d ∨ ∃ addr conn, e = .accept (.ok (fd, addr, conn)) ∧ d = .accepted addr conn := by
  cases hstep with
  | @sweep p hpc =>
    rw [Parent.pHandleSocketAction] at hd
    split_ifs at hd
    · exact .inl hd
    · change Function.update s.fds (s.client p).fd none fd = some d at hd
      by_cases hfd : fd = (s.client p).fd
      · rw [hfd, Function.update_self] at hd
        cases hd
      · rw [Function.update_of_ne hfd] at hd
        exact .inl hd
    · exact .inl hd
  | @accept fd' addr conn hpc =>
    change Function.update s.fds fd' (some (.accepted addr conn)) fd = some d at hd
    by_cases hfd : fd = fd'
    · subst hfd
      rw [Function.update_self] at hd
      exact .inr ⟨addr, conn, rfl, (Option.some.inj hd).symm⟩
    · rw [Function.update_of_ne hfd] at hd
      exact .inl hd
  | _ => exact .inl hd

lemma Sound.fds_kept [NeZero M] {d : Descriptor} (hs : s.Sound) (he : s.OrderlyEvent e)
    (hstep : s.Moves e t)
    (hswept : ∀ p : Fin M, s.pc = .sweep p → 0 < (s.client p).fd → fd ≠ (s.client p).fd)
    (hd : s.fds fd = some d) : t.fds fd = some d := by
  rcases hs.fds_of_moves hstep with hfds | ⟨fd', addr, conn, rfl, hfds⟩ | ⟨p, hpc, hpos, hfds⟩ <;>
    rw [hfds]
  · exact hd
  · exact kept_update (by rw [he.2]; rintro ⟨⟩) hd
  · rw [Function.update_of_ne (hswept p hpc hpos), hd]

lemma sweepOn_fd (s : Parent M) (p q : Fin M) : ((s.sweepOn p).client q).fd = (s.client q).fd := by
  by_cases hq : q = p
  · subst hq
    simp [sweepOn, goto, setClient, client]
  · exact congrArg PollFd.fd (setClient_other hq)

lemma disable_fd_self (s : Parent M) (p : Fin M) :
    ((s.disable p).client p).fd = -(s.client p).fd := by
  simp [disable, setClient, client]

lemma pHandleSocketAction_away (hs : s.Sound) (hpc : s.pc = .sweep p) (q : Fin M) :
    (s.pHandleSocketAction p).away q = s.away q := by
  have hcrossing : s.crossing = none := by rw [crossing, hpc]
  rw [pHandleSocketAction]
  split_ifs with hin hup
  · exact away_congr rfl (by rw [hcrossing]; rfl)
  · have hused := hs.removal ⟨hpc, hin, hup⟩
    by_cases hq : q = p
    · subst hq
      have hfree : (((s.pRemoveConnection q).sweepOn q).client q).fd = 0 := by
        rw [sweepOn_fd]
        simp [pRemoveConnection, client]
      rw [away_of_nonneg hused.le hcrossing, away_of_nonneg hfree.ge rfl]
    · refine away_congr ?_ (by rw [hcrossing]; rfl)
      rw [sweepOn_fd]
      exact congrArg PollFd.fd (Function.update_of_ne hq _ _)
  · exact away_congr (sweepOn_fd s p q) (by rw [hcrossing]; rfl)

lemma flip_away (hs : s.Sound) (hpc : s.pc = .flip p) (q : Fin M) :
    ((s.disable p).sweepOn p).away q = s.away q := by
  have hcrossing : s.crossing = some p := by rw [crossing, hpc]
  have hpos : 0 < (s.client p).fd := hs.enabled p (by rw [handing, hpc])
  by_cases hq : q = p
  · subst hq
    have hfd : (((s.disable q).sweepOn q).client q).fd = -(s.client q).fd := by
      rw [sweepOn_fd, disable_fd_self]
    have hneg : ((s.disable q).sweepOn q).Away q := .inl (by rw [hfd]; omega)
    rw [away, if_pos hneg, away, if_pos (.inr hcrossing), hfd, abs_neg]
  · refine away_congr ?_ ?_
    · rw [sweepOn_fd]
      exact congrArg PollFd.fd (setClient_other hq)
    · rw [hcrossing]
      constructor
      · rintro ⟨⟩
      · intro he
        exact (hq (Option.some.inj he).symm).elim

lemma accept_away [NeZero M] {addr : SockAddr} {conn : ℕ} (hs : s.Sound) (hpc : s.pc = .accept)
    (hfd : 0 < fd) (q : Fin M) :
    ((s.pAcceptNewConnection fd addr conn).goto .head).away q = s.away q := by
  have hcrossing : s.crossing = none := by rw [crossing, hpc]
  have hfree := hs.table.pGetPollfdIndex_free (hs.accepting hpc)
  by_cases hq : q = pGetPollfdIndex s.so.pollfds.client
  · subst hq
    have hself : ((((s.pAcceptNewConnection fd addr conn).goto .head).client
        (pGetPollfdIndex s.so.pollfds.client))).fd = fd := by
      simp [pAcceptNewConnection, goto, client]
    rw [away_of_nonneg hfree.ge hcrossing, away_of_nonneg (hfd.le.trans_eq hself.symm) rfl]
  · refine away_congr ?_ (by rw [hcrossing]; rfl)
    exact congrArg PollFd.fd (Function.update_of_ne hq _ _)

lemma send_away (hpc : s.pc = .sendMsg p) :
    (s.goto (.postRead p)).away = Function.update s.away p {|(s.client p).fd|} := by
  have hcrossing : s.crossing = none := by rw [crossing, hpc]
  funext q
  by_cases hq : q = p
  · subst hq
    rw [Function.update_self]
    exact if_pos (.inr rfl)
  · rw [Function.update_of_ne hq]
    refine away_congr rfl ?_
    rw [hcrossing]
    constructor
    · intro he
      exact (hq (Option.some.inj he).symm).elim
    · rintro ⟨⟩

lemma pReadPipeReenableFd_client (hs : s.Sound) (hp : (s.client p).fd = -n) (hn : 0 < n) :
    (s.pReadPipeReenableFd n).so.pollfds.client =
      Function.update s.so.pollfds.client p { s.client p with fd := n } := by
  funext q
  change reenable n (s.client q) = _
  by_cases hq : q = p
  · subst hq
    rw [Function.update_self, reenable, if_pos (by omega), hp]
    congr 1
    omega
  · rw [Function.update_of_ne hq, reenable, if_neg]
    · rfl
    · intro he
      refine hq (hs.distinct (by omega) (by omega) ?_)
      rw [he, hp]
      congr 1
      omega

lemma read_away (hs : s.Sound) (hpc : s.pc = .readPipe) (hp : (s.client p).fd = -n) (hn : 0 < n) :
    ((s.pReadPipeReenableFd n).goto .head).away = Function.update s.away p 0 := by
  have hcrossing : s.crossing = none := by rw [crossing, hpc]
  have hclient := pReadPipeReenableFd_client hs hp hn
  funext q
  by_cases hq : q = p
  · subst hq
    have hself : (((s.pReadPipeReenableFd n).goto .head).client q).fd = n := by
      change ((s.pReadPipeReenableFd n).so.pollfds.client q).fd = n
      rw [hclient, Function.update_self]
    rw [Function.update_self, away_of_nonneg (hn.le.trans_eq hself.symm) rfl]
  · rw [Function.update_of_ne hq]
    refine away_congr ?_ (by rw [hcrossing]; rfl)
    change ((s.pReadPipeReenableFd n).so.pollfds.client q).fd = _
    rw [hclient, Function.update_of_ne hq]
    rfl

end Parent

namespace Dispatch

variable {s : Dispatch M} {t : Parent M} {e : ParentEvent M} {p : Fin M} {n : ℤ}

def Transit (s : Dispatch M) : Prop := s.outstanding = ∑ p, s.parent.away p

lemma initial_transit (listenFd pipeFd : ℤ) (others : ℤ → Bool) :
    (initial listenFd pipeFd others : Dispatch M).Transit := by
  refine (Finset.sum_eq_zero fun p _ => ?_).symm
  exact Parent.away_of_nonneg (le_refl 0) rfl

lemma Transit.away_of_mem (h : s.Transit) (hn : n ∈ s.outstanding) :
    ∃ p, s.parent.Away p ∧ |(s.parent.client p).fd| = n := by
  rw [h, Multiset.mem_sum] at hn
  obtain ⟨p, -, hp⟩ := hn
  by_cases ha : s.parent.Away p
  · rw [Parent.away, if_pos ha, Multiset.mem_singleton] at hp
    exact ⟨p, ha, hp.symm⟩
  · rw [Parent.away, if_neg ha] at hp
    exact (Multiset.notMem_zero n hp).elim

lemma Transit.returning (h : s.Transit) (hs : s.parent.Sound) (hpc : s.parent.pc = .readPipe)
    (hn : n ∈ s.outstanding) : ∃ p, (s.parent.client p).fd = -n ∧ 0 < n := by
  obtain ⟨p, ha, rfl⟩ := h.away_of_mem hn
  refine ⟨p, ?_, abs_pos.mpr (hs.away_used ha)⟩
  rcases ha with hneg | hc
  · rw [abs_of_neg hneg, neg_neg]
  · rw [Parent.crossing, hpc] at hc
    cases hc

lemma Transit.step [NeZero M] (h : s.Transit) (hs : s.parent.Sound)
    (he : s.parent.OrderlyEvent e) (hok : e.isError = false)
    (hread : ∀ n, e = .read (.ok n) → n ∈ s.outstanding) (hstep : s.parent.Moves e t) :
    s.transit e = ∑ p, t.away p := by
  have hsame : (∀ p, t.away p = s.parent.away p) → s.outstanding = ∑ p, t.away p := by
    intro ht
    rw [h]
    exact Finset.sum_congr rfl fun p _ => (ht p).symm
  have hgoto : ∀ {pc}, s.parent.crossing = none → (s.parent.goto pc).crossing = none →
      ∀ p, (s.parent.goto pc).away p = s.parent.away p := by
    intro pc hcrossing hcrossing' p
    exact Parent.away_congr rfl (by rw [hcrossing, hcrossing'])
  cases hstep with
  | head hpc =>
    have hcrossing : s.parent.crossing = none := by rw [Parent.crossing, hpc]
    refine hsame (hgoto hcrossing ?_)
    split_ifs <;> rfl
  | sweep hpc => exact hsame (Parent.pHandleSocketAction_away hs hpc)
  | swept hpc => exact hsame (hgoto (by rw [Parent.crossing, hpc]) rfl)
  | flip hpc => exact hsame (Parent.flip_away hs hpc)
  | poll hpc =>
    have hcrossing : s.parent.crossing = none := by rw [Parent.crossing, hpc]
    refine hsame fun p => Parent.away_congr rfl ?_
    rw [hcrossing]
    split_ifs <;> simp [Parent.crossing, Parent.goto]
  | accept hpc => exact hsame (Parent.accept_away hs hpc he.1)
  | @read n hpc =>
    have hn := hread n rfl
    obtain ⟨p, hp, hpos⟩ := h.returning hs hpc hn
    have haway : s.parent.away p = {n} := by
      rw [Parent.away, if_pos (.inl (by omega)), hp, abs_neg, abs_of_pos hpos]
    have hsum := sum_update id s.parent.away p 0
    rw [id, id, haway, ← Parent.read_away hs hpc hp hpos, add_zero] at hsum
    change s.outstanding.erase n = _
    rw [h]
    simp only [id] at hsum
    rw [← hsum, add_comm, Multiset.singleton_add, Multiset.erase_cons_head]
  | wait hpc => exact hsame (hgoto (by rw [Parent.crossing, hpc]) rfl)
  | interrupt hpc => cases hok
  | @send p hpc hfd =>
    have hpos : 0 < (s.parent.client p).fd := hs.enabled p (by rw [Parent.handing, hpc])
    have hnone : s.parent.away p = 0 :=
      Parent.away_of_nonneg hpos.le (by rw [Parent.crossing, hpc])
    have hsum := sum_update id s.parent.away p {|(s.parent.client p).fd|}
    simp only [id] at hsum
    rw [hnone, add_zero, ← Parent.send_away hpc, abs_of_pos hpos] at hsum
    change s.outstanding + Multiset.ofList s.parent.sending.toList = _
    rw [hsum, h, Parent.sending, hpc]
    rfl
  | @post p hpc =>
    refine hsame fun q => Parent.away_congr rfl ?_
    have hcrossing : s.parent.crossing = some p := by rw [Parent.crossing, hpc]
    rw [hcrossing]
    rfl
  | signal => exact hsame fun p => Parent.away_congr rfl Iff.rfl
  | fail hfail =>
    rw [hok] at hfail
    cases hfail

lemma Transit.count (h : s.Transit) (hs : s.parent.Sound) (hp : (s.parent.client p).fd ≠ 0) :
    s.outstanding.count |(s.parent.client p).fd| = if s.parent.Away p then 1 else 0 := by
  rw [h, Multiset.count_sum', Finset.sum_eq_single p]
  · rw [Parent.away]
    split_ifs
    · exact Multiset.count_singleton_self _
    · rfl
  · intro q _ hq
    by_cases ha : s.parent.Away q
    · rw [Parent.away, if_pos ha, Multiset.count_singleton, if_neg]
      exact fun he => hq (hs.distinct (hs.away_used ha) hp he.symm)
    · rw [Parent.away, if_neg ha, Multiset.count_zero]
  · exact fun hmem => (hmem (Finset.mem_univ p)).elim

lemma Transit.count_le_one (h : s.Transit) (hs : s.parent.Sound) (n : ℤ) :
    s.outstanding.count n ≤ 1 := by
  by_cases hn : n ∈ s.outstanding
  · obtain ⟨p, ha, rfl⟩ := h.away_of_mem hn
    rw [h.count hs (hs.away_used ha), if_pos ha]
  · rw [Multiset.count_eq_zero_of_notMem hn]
    exact Nat.zero_le 1

lemma Transit.card_le (h : s.Transit) : s.outstanding.card ≤ M := by
  have haway : ∀ p, (s.parent.away p).card ≤ 1 := by
    intro p
    rw [Parent.away]
    split_ifs
    · exact (Multiset.card_singleton _).le
    · exact Nat.zero_le 1
  calc s.outstanding.card = ∑ p, (s.parent.away p).card := by rw [h, Multiset.card_sum]
    _ ≤ Finset.univ.card • 1 := Finset.sum_le_card_nsmul _ _ 1 fun p _ => haway p
    _ = M := by rw [Finset.card_univ, Fintype.card_fin, smul_eq_mul, mul_one]

end Dispatch

end ScalableServer.ProcessServer
