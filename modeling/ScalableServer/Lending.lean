import ScalableServer.Foundations.Lending
import ScalableServer.PollServer.Attribution
import ScalableServer.ProcessServer.Handoff

namespace ScalableServer

open ScalableServer.Foundations ScalableServer.Core

structure Keeps {M : ℕ} (p : Lending ℤ M) (accepted : ℤ → Option SockAddr) (away : ℤ → Prop) :
    Prop where
  members : ∀ fd, fd ∈ p.members ↔ accepted fd ≠ none
  lent : ∀ fd, fd ∈ p.lent ↔ away fd

section Keeps

variable {M : ℕ} {p : Lending ℤ M} {accepted : ℤ → Option SockAddr} {away away' : ℤ → Prop} {fd : ℤ}

lemma Keeps.congr (h : Keeps p accepted away) (haway : ∀ fd, away' fd ↔ away fd) :
    Keeps p accepted away' := ⟨h.members, fun fd => (h.lent fd).trans (haway fd).symm⟩

lemma Keeps.join (addr : SockAddr) (h : Keeps p accepted away) (hnew : accepted fd = none)
    (hroom : p.members.card < M) :
    ∃ q, p.step (.join fd) = some q ∧ Keeps q (Function.update accepted fd (some addr)) away := by
  have hnot : fd ∉ p.members := fun hmem => (h.members fd).mp hmem hnew
  refine ⟨_, dif_pos ⟨hnot, hroom⟩, fun g => ?_, h.lent⟩
  by_cases hg : g = fd
  · subst hg
    simp
  · rw [Function.update_of_ne hg, ← h.members g]
    simp [hg]

lemma Keeps.leave (h : Keeps p accepted away) (hin : accepted fd ≠ none) (hhome : ¬ away fd) :
    ∃ q, p.step (.leave fd) = some q ∧ Keeps q (Function.update accepted fd none) away := by
  refine ⟨_, dif_pos ⟨(h.members fd).mpr hin, fun hmem => hhome ((h.lent fd).mp hmem)⟩, fun g => ?_,
    h.lent⟩
  by_cases hg : g = fd
  · subst hg
    simp
  · rw [Function.update_of_ne hg, ← h.members g]
    simp [hg]

lemma Keeps.lend (h : Keeps p accepted away) (hin : accepted fd ≠ none) (hhome : ¬ away fd) :
    ∃ q, p.step (.lend fd) = some q ∧ Keeps q accepted fun g => g = fd ∨ away g := by
  refine ⟨_, dif_pos ⟨(h.members fd).mpr hin, fun hmem => hhome ((h.lent fd).mp hmem)⟩, h.members,
    fun g => ?_⟩
  change g ∈ insert fd p.lent ↔ _
  rw [Finset.mem_insert, h.lent]

lemma Keeps.restore (h : Keeps p accepted away) (haway : away fd) :
    ∃ q, p.step (.restore fd) = some q ∧ Keeps q accepted fun g => g ≠ fd ∧ away g := by
  refine ⟨_, if_pos ((h.lent fd).mpr haway), h.members, fun g => ?_⟩
  change g ∈ p.lent.erase fd ↔ _
  rw [Finset.mem_erase, h.lent]

lemma Keeps.card {listen : PollFd} {client : Fin M → PollFd} {addrs : Fin M → SockAddr} {n : ℕ}
    {key : ℤ → ℤ} (h : Keeps p accepted away)
    (hregistered : Registered key listen client addrs n accepted) : p.members.card = n := by
  rw [hregistered.count]
  exact hregistered.lists.card h.members

end Keeps

namespace PollServer

/-- A message is received, logged and answered in one step, in which the connection is in use. -/
def Server.loans (s : Server) : Event → List (Loan ℤ)
  | .accept (.ok (fd, _, _)) => [.join fd]
  | .run _ _ =>
    match s.pc with
    | .comm k =>
      if hk : k < maxConnections then
        let client := s.pollfds.client ⟨k, hk⟩
        if client.revents = POLLIN then [.lend client.fd, .restore client.fd]
        else if client.revents.hangup = true then [.leave client.fd]
        else []
      else []
    | _ => []
  | _ => []

def noteLoans (s : Server) (e : Event) (us : List (Loan ℤ)) : List (Loan ℤ) := us ++ s.loans e

variable {h : Host} {s t : Server} {e : Event} {p : Lending ℤ maxConnections} {us : List (Loan ℤ)}
  {listenFd : ℤ} {others : ℤ → Bool} {i : Fin maxConnections} {prior : ℕ} {ti : Timing}

lemma Server.loans_comm (hpc : s.pc = .comm i) :
    s.loans (.run prior ti) =
      if (s.pollfds.client i).revents = POLLIN then
        [.lend (s.pollfds.client i).fd, .restore (s.pollfds.client i).fd]
      else if (s.pollfds.client i).revents.hangup = true then [.leave (s.pollfds.client i).fd]
      else [] := by
  simp only [Server.loans, hpc]
  exact dif_pos i.isLt

lemma pollComm_pc (hrun : pollComm h prior ti s i = some t) : t.pc ≠ .head := by
  rw [pollComm] at hrun
  split_ifs at hrun
  · rw [serveSlot] at hrun
    split at hrun
    · obtain ⟨r, -, rfl⟩ := Option.map_eq_some_iff.mp hrun
      rw [served]
      split_ifs <;> rintro ⟨⟩
    · obtain rfl := Option.some.inj hrun
      rintro ⟨⟩
  · obtain rfl := Option.some.inj hrun
    rintro ⟨⟩
  · obtain rfl := Option.some.inj hrun
    rintro ⟨⟩

lemma Sound.loan (hs : Sound s) (hp : Keeps p s.accepted fun _ => False)
    (he : OrderlyEvent s e) (hstep : PollServer.step h s e = some t) :
    ∃ q, Lending.machine.run (s.loans e) p = some q ∧ Keeps q t.accepted fun _ => False := by
  cases moves_of_step hstep with
  | head hpc => exact ⟨p, by simp only [Server.loans, hpc]; rfl, hp⟩
  | @serve _ _ i addr c r hpc hin hc hr =>
    have hin' : s.accepted (s.pollfds.client i).fd ≠ none := by
      rw [Server.accepted, hc]
      exact Option.some_ne_none _
    obtain ⟨q, hq, hlent⟩ := hp.lend hin' id
    obtain ⟨q', hq', hback⟩ := hlent.restore (.inl rfl)
    refine ⟨q', ?_, ?_⟩
    · rw [Server.loans_comm hpc, if_pos hin]
      exact Option.bind_eq_some_iff.mpr ⟨q, hq, Machine.run_singleton.trans hq'⟩
    · have haccepted : (PollServer.served s i addr r).accepted = s.accepted := by
        have hset := accepted_setConn (d := r.conn) hc
        rw [PollServer.served]
        split_ifs <;> exact hset
      rw [haccepted]
      exact hback.congr fun fd => by tauto
  | @serveOther _ _ i hpc hin hc =>
    obtain ⟨d, hd, hpeer⟩ := Option.bind_eq_some_iff.mp
      (hs.registered.lists.stored i (hs.sweeping i hpc i (le_refl _) (.inl hin)))
    cases d with
    | accepted addr c => exact (hc addr c hd).elim
    | other => cases hpeer
  | @remove _ _ i hpc hin hup =>
    have hused := hs.sweeping i hpc i (le_refl _) (.inr hup)
    have hstored := hs.registered.lists.stored i hused
    have hin' : s.accepted (s.pollfds.client i).fd ≠ none := hstored ▸ Option.some_ne_none _
    obtain ⟨q, hq, hleft⟩ := hp.leave hin' id
    refine ⟨q, ?_, ?_⟩
    · rw [Server.loans_comm hpc, if_neg hin, if_pos hup]
      exact Machine.run_singleton.trans hq
    · have haccepted : (sweepOn (pollRemoveConnection s i) i).accepted =
          Function.update s.accepted (s.pollfds.client i).fd none := accepted_update s _ none
      rw [haccepted]
      exact hleft
  | skip hpc hin hup => exact ⟨p, by rw [Server.loans_comm hpc, if_neg hin, if_neg hup]; rfl, hp⟩
  | @swept _ _ k hpc =>
    refine ⟨p, ?_, hp⟩
    simp only [Server.loans, hpc]
    rw [dif_neg]
    · rfl
    · intro hk
      simp only [PollServer.step, hpc, dif_pos hk] at hstep
      exact pollComm_pc hstep rfl
  | poll hpc => exact ⟨p, rfl, hp⟩
  | pollFail hpc => exact ⟨p, rfl, hp⟩
  | @accept fd addr c hpc =>
    have hnew : s.accepted fd = none := by rw [Server.accepted, he.2, Option.bind_none]
    obtain ⟨q, hq, hjoined⟩ := hp.join addr hnew
      (by rw [hp.card hs.registered]; exact hs.accepting hpc)
    refine ⟨q, Machine.run_singleton.trans hq, ?_⟩
    have haccepted : ({ pollAccept s fd addr c with pc := .head } : Server).accepted =
        Function.update s.accepted fd (some addr) := accepted_update s fd _
    rw [haccepted]
    exact hjoined
  | acceptFail hpc => exact ⟨p, rfl, hp⟩
  | deliver hc | hangup hc =>
    refine ⟨p, rfl, ?_⟩
    rw [accepted_setConn hc]
    exact hp
  | signal => exact ⟨p, rfl, hp⟩

lemma keeps_loans
    (hs : ((server h).observe noteLoans).Reaches (fun p e => OrderlyEvent p.1 e)
      (initial listenFd others, []) (s, us)) :
    ∃ p, Lending.machine.run us (Lending.empty ℤ maxConnections) = some p ∧ Sound s ∧
      Keeps p s.accepted fun _ => False := by
  have hstart : Sound (initial listenFd others) ∧
      Keeps (Lending.empty ℤ maxConnections) (initial listenFd others).accepted fun _ => False := by
    refine ⟨initial_sound listenFd others, fun fd => ?_, fun fd => ?_⟩
    · have hnone : (initial listenFd others).accepted fd = none := by
        change (if others fd then some Descriptor.other else none).bind Descriptor.peer = none
        split_ifs <;> rfl
      exact iff_of_false (Finset.notMem_empty fd) (not_not.mpr hnone)
    · exact iff_of_false (Finset.notMem_empty fd) id
  refine Machine.Reaches.refines (R := fun s p => Sound s ∧ Keeps p s.accepted fun _ => False) hs
    hstart ?_
  rintro a e b p ⟨hsound, hp⟩ he hb
  obtain ⟨q, hq, hkeeps⟩ := hsound.loan hp he hb
  exact ⟨q, hq, hsound.step he (moves_of_step hb), hkeeps⟩

end PollServer

namespace ProcessServer

variable {M N : ℕ}

def Parent.loans (s : Parent M) : ParentEvent M → List (Loan ℤ)
  | .accept (.ok (fd, _, _)) => [.join fd]
  | .send (.ok ()) => s.sending.toList.map .lend
  | .read (.ok number) => [.restore number]
  | .run =>
    match s.pc with
    | .sweep k =>
      if hk : k < M then
        if s.RemovalEntered ⟨k, hk⟩ then [.leave (s.client ⟨k, hk⟩).fd] else []
      else []
    | _ => []
  | _ => []

lemma Parent.loans_sweep {s : Parent M} {i : Fin M} (hpc : s.pc = .sweep i) :
    s.loans .run =
      if (s.client i).revents = POLLIN then []
      else if (s.client i).revents.hangup = true then [.leave (s.client i).fd]
      else [] := by
  have hentered : s.RemovalEntered i ↔
      (s.client i).revents ≠ POLLIN ∧ (s.client i).revents.hangup = true := and_iff_right hpc
  simp only [Parent.loans, hpc]
  rw [dif_pos i.isLt]
  change (if s.RemovalEntered i then [Loan.leave (s.client i).fd] else []) = _
  simp only [hentered]
  split_ifs <;> tauto

lemma Parent.pHandleSocketAction_pc (s : Parent M) (i : Fin M) :
    (s.pHandleSocketAction i).pc ≠ .head := by
  rw [pHandleSocketAction]
  split_ifs <;> rintro ⟨⟩

namespace System

def loans (s : System M N) : Event M N → List (Loan ℤ)
  | .parent e => s.parent.loans e
  | _ => []

def noteLoans (s : System M N) (e : Event M N) (us : List (Loan ℤ)) : List (Loan ℤ) :=
  us ++ s.loans e

variable {h : Host} {s t : System M N} {e : Event M N} {p : Lending ℤ M} {us : List (Loan ℤ)}
  {listenFd pipeFd : ℤ} {others childOthers : ℤ → Bool} {conns : ℕ → Conn}

lemma Consistent.home (hs : s.Consistent) {i : Fin M} (hpos : 0 < (s.parent.client i).fd)
    (hcrossing : s.parent.crossing = none) : (s.parent.client i).fd ∉ s.numbers := by
  have hplaces := hs.slot hpos.ne' (by rw [hcrossing]; rintro ⟨⟩)
  rw [places_eq_count] at hplaces
  rcases hplaces with ⟨-, hzero⟩ | ⟨hneg, -⟩
  · exact Multiset.count_eq_zero.mp hzero
  · omega

variable [NeZero M]

lemma Consistent.loanParent {e : ParentEvent M} (hs : s.Consistent)
    (hp : Keeps p s.parent.accepted (· ∈ s.numbers)) (he : s.parent.OrderlyEvent e)
    (hok : e.isError = false) (hstep : s.step h (.parent e) = some t) :
    ∃ q, Lending.machine.run (s.parent.loans e) p = some q ∧
      Keeps q t.parent.accepted (· ∈ t.numbers) := by
  obtain ⟨u, s', hu, hcall, rfl⟩ := parent_of_step hstep
  have hnumbers : ({ s' with parent := u } : System M N).numbers = s.project.transit e :=
    (called hcall).numbers
  rw [hnumbers]
  change ∃ q, _ ∧ Keeps q u.accepted (· ∈ s.project.transit e)
  cases Parent.moves_of_step hu with
  | head hpc => exact ⟨p, by simp only [Parent.loans, hpc]; rfl, hp⟩
  | @sweep i hpc =>
    have hcrossing : s.parent.crossing = none := by rw [Parent.crossing, hpc]
    rw [Parent.loans_sweep hpc, Parent.pHandleSocketAction]
    split_ifs with hin hup
    · exact ⟨p, rfl, hp⟩
    · have hentered : s.parent.RemovalEntered i := ⟨hpc, hin, hup⟩
      obtain ⟨addr, conn, hd⟩ := hs.sound.removed_accepted hentered
      have hin' : s.parent.accepted (s.parent.client i).fd ≠ none := by
        rw [Parent.accepted, hd]
        exact Option.some_ne_none _
      obtain ⟨q, hq, hleft⟩ := hp.leave hin'
        (hs.home (hs.sound.removal hentered) hcrossing)
      refine ⟨q, Machine.run_singleton.trans hq, ?_⟩
      have haccepted : ((s.parent.pRemoveConnection i).sweepOn i).accepted =
          Function.update s.parent.accepted (s.parent.client i).fd none :=
        Parent.accepted_update s.parent _ none
      rw [haccepted]
      exact hleft
    · exact ⟨p, rfl, hp⟩
  | @swept k hpc =>
    refine ⟨p, ?_, hp⟩
    simp only [Parent.loans, hpc]
    rw [dif_neg]
    · rfl
    · intro hk
      simp only [Parent.step, hpc, dif_pos hk, Option.some.injEq] at hu
      exact Parent.pHandleSocketAction_pc s.parent ⟨k, hk⟩ (by rw [hu]; rfl)
  | flip hpc => exact ⟨p, by simp only [Parent.loans, hpc]; rfl, hp⟩
  | poll hpc => exact ⟨p, rfl, hp⟩
  | @accept fd addr conn hpc =>
    have hnew : s.parent.accepted fd = none := by rw [Parent.accepted, he.2, Option.bind_none]
    obtain ⟨q, hq, hjoined⟩ := hp.join addr hnew
      (by rw [hp.card hs.sound.table]; exact hs.sound.accepting hpc)
    refine ⟨q, Machine.run_singleton.trans hq, ?_⟩
    have haccepted : ((s.parent.pAcceptNewConnection fd addr conn).goto .head).accepted =
        Function.update s.parent.accepted fd (some addr) := Parent.accepted_update s.parent fd _
    rw [haccepted]
    exact hjoined
  | @read n hpc =>
    have hn : n ∈ s.numbers := Multiset.mem_add.mpr (.inr ((called hcall).read n rfl))
    obtain ⟨q, hq, hback⟩ := hp.restore hn
    refine ⟨q, Machine.run_singleton.trans hq, hback.congr fun fd => ?_⟩
    change fd ∈ s.numbers.erase n ↔ _
    have hnodup : s.numbers.Nodup :=
      Multiset.nodup_iff_count_le_one.mpr fun m => hs.transit.count_le_one hs.sound m
    exact hnodup.mem_erase_iff
  | wait hpc => exact ⟨p, rfl, hp⟩
  | interrupt hpc => cases hok
  | @send i hpc hfd =>
    have hpos : 0 < (s.parent.client i).fd := hs.sound.enabled i (by rw [Parent.handing, hpc])
    have hcrossing : s.parent.crossing = none := by rw [Parent.crossing, hpc]
    have hsending : s.parent.sending = some (s.parent.client i).fd := by rw [Parent.sending, hpc]
    obtain ⟨conn, hd⟩ := hs.sound.table.stored hpos.ne'
    rw [abs_of_pos hpos] at hd
    have hin : s.parent.accepted (s.parent.client i).fd ≠ none := by
      rw [Parent.accepted, hd]
      exact Option.some_ne_none _
    obtain ⟨q, hq, hlent⟩ := hp.lend hin (hs.home hpos hcrossing)
    refine ⟨q, ?_, hlent.congr fun fd => ?_⟩
    · simp only [Parent.loans, hsending]
      exact Machine.run_singleton.trans hq
    · change fd ∈ s.numbers + Multiset.ofList s.parent.sending.toList ↔ _
      rw [hsending, Multiset.mem_add, or_comm]
      simp
  | post hpc => exact ⟨p, rfl, hp⟩
  | signal => exact ⟨p, rfl, hp⟩
  | fail hfail =>
    rw [hok] at hfail
    cases hfail

lemma Consistent.loan (hs : s.Consistent) (hp : Keeps p s.parent.accepted (· ∈ s.numbers))
    (halloc : ∀ n, h.alloc n = true) (he : s.OrderlyEvent e) (hok : ¬ s.CallFails h e)
    (hstep : s.step h e = some t) :
    ∃ q, Lending.machine.run (s.loans e) p = some q ∧
      Keeps q t.parent.accepted (· ∈ t.numbers) := by
  cases e with
  | parent e => exact hs.loanParent hp he (eq_false_of_ne_true fun hfail => hok (.inr hfail)) hstep
  | child i e =>
    obtain ⟨c, a, s', hmoves, hact, rfl⟩ := child_of_step hstep
    obtain ⟨-, hphase⟩ := works_of_moves (hs.working i) halloc hok hmoves
    obtain ⟨hnumbers, -⟩ := act_numbers hphase hact
    obtain ⟨hparent, -, -⟩ := act_frame hact
    refine ⟨p, rfl, ?_⟩
    rw [hnumbers]
    change Keeps p s'.parent.accepted _
    rw [hparent]
    exact hp
  | deliver id bytes | hangup id =>
    obtain rfl := Option.some.inj hstep
    exact ⟨p, rfl, hp⟩

lemma keeps_loans (halloc : ∀ n, h.alloc n = true) (hM : M < sizeMod)
    (hs : ((machine h).observe noteLoans).Reaches
      (fun p e => ¬ p.1.CallFails h e ∧ p.1.OrderlyEvent e)
      (initial listenFd pipeFd others childOthers conns, []) (s, us)) :
    ∃ p, Lending.machine.run us (Lending.empty ℤ M) = some p ∧ s.Consistent ∧
      Keeps p s.parent.accepted (· ∈ s.numbers) := by
  let allowed : System M N → Event M N → Prop := fun s e => ¬ s.CallFails h e ∧ s.OrderlyEvent e
  have hs' : ((machine h).observe fun s e us => us ++ loans s e).Reaches (fun p e => allowed p.1 e)
      (initial listenFd pipeFd others childOthers conns, []) (s, us) := hs
  have hstart : Keeps (Lending.empty ℤ M)
      (initial listenFd pipeFd others childOthers conns : System M N).parent.accepted
      (· ∈ (initial listenFd pipeFd others childOthers conns : System M N).numbers) := by
    refine ⟨fun fd => ?_, fun fd => ?_⟩
    · have hnone : (initial listenFd pipeFd others childOthers conns : System M N).parent.accepted fd =
          none := by
        change (if others fd then some Descriptor.other else none).bind Descriptor.peer = none
        split_ifs <;> rfl
      exact iff_of_false (Finset.notMem_empty fd) (not_not.mpr hnone)
    · rw [numbers, initial_messages]
      exact iff_of_false (Finset.notMem_empty fd) (Multiset.notMem_zero fd)
  refine hs'.refines (R := fun s p => s.Consistent ∧ Keeps p s.parent.accepted (· ∈ s.numbers))
    ⟨initial_consistent _ _ _ _ _, hstart⟩ ?_
  rintro a e b p ⟨hconsistent, hp⟩ ⟨hok, he⟩ hb
  obtain ⟨q, hq, hkeeps⟩ := hconsistent.loan hp halloc he hok hb
  exact ⟨q, hq, hconsistent.step hM halloc hok he hb, hkeeps⟩

end System

end ProcessServer

theorem servers_lend {M N : ℕ} [NeZero M] (h : Host) (halloc : ∀ n, h.alloc n = true)
    (hM : M < sizeMod) (listenFd pipeFd : ℤ) (others childOthers : ℤ → Bool) (conns : ℕ → Conn) :
    (∀ s us, ((PollServer.server h).observe PollServer.noteLoans).Reaches
        (fun p e => PollServer.OrderlyEvent p.1 e) (PollServer.initial listenFd others, []) (s, us) →
        ∃ p, Lending.machine.run us (Lending.empty ℤ PollServer.maxConnections) = some p ∧
          (∀ fd, fd ∈ p.members ↔ s.accepted fd ≠ none) ∧ p.lent = ∅ ∧
          p.members.card = s.so.numConnections) ∧
      ∀ (s : ProcessServer.System M N) us,
        ((ProcessServer.System.machine h).observe ProcessServer.System.noteLoans).Reaches
          (fun p e => ¬ p.1.CallFails h e ∧ p.1.OrderlyEvent e)
          (.initial listenFd pipeFd others childOthers conns, []) (s, us) →
        (∃ p, Lending.machine.run us (Lending.empty ℤ M) = some p ∧
          (∀ fd, fd ∈ p.members ↔ s.parent.accepted fd ≠ none) ∧
          (∀ fd, fd ∈ p.lent ↔ s.places fd = 1) ∧
          p.members.card = s.parent.so.numConnections) ∧
        ∀ us', us' <+: us → ∀ fd, us'.count (.restore fd) ≤ us'.count (.lend fd) ∧
          us'.count (.lend fd) ≤ us'.count (.restore fd) + 1 := by
  refine ⟨fun s us hs => ?_, fun s us hs => ?_⟩
  · obtain ⟨p, hp, hsound, hkeeps⟩ := PollServer.keeps_loans hs
    refine ⟨p, hp, hkeeps.members, ?_, hkeeps.card hsound.registered⟩
    exact Finset.eq_empty_of_forall_notMem fun fd hmem => (hkeeps.lent fd).mp hmem
  · obtain ⟨p, hp, hconsistent, hkeeps⟩ := ProcessServer.System.keeps_loans halloc hM hs
    refine ⟨⟨p, hp, hkeeps.members, fun fd => ?_, hkeeps.card hconsistent.sound.table⟩,
      fun us' hpre => Lending.loans_exclusive hp hpre⟩
    have hone := hconsistent.places_le_one fd
    rw [hkeeps.lent, ProcessServer.System.places_eq_count] at *
    rw [← Multiset.one_le_count_iff_mem]
    omega

theorem servers_lend_run :
    let h : Host := ⟨.little, fun _ => true, fun _ => []⟩
    let c : Conn :=
      { unread := [0, 0, 0, 1, 7], recvs := Stream'.const (.moves 4)
        sends := Stream'.const (.moves 4), selects := Stream'.const (.moves 0) }
    let poll : List PollServer.Event :=
      [.run 0 {}, .poll (.ok ⟨POLLIN, fun _ => .zero⟩), .accept (.ok (5, {}, c)), .run 0 {},
        .poll (.ok ⟨.zero, fun i => if i = 0 then POLLIN else .zero⟩), .run 0 {}]
    let process : List
        (ProcessServer.Event ProcessServer.maxConnections ProcessServer.numChildProcesses) :=
      [.parent .run, .parent (.poll (.ok ⟨POLLIN, .zero, fun _ => .zero⟩)),
        .parent (.accept (.ok (6, {}, 0))), .parent .run,
        .parent (.poll (.ok ⟨.zero, .zero, fun p => if p = 0 then POLLIN else .zero⟩)), .parent .run,
        .parent (.wait (.ok ())), .parent (.send (.ok ())), .child 1 (.run 0 {}), .parent .post,
        .child 1 .ok, .child 1 (.received ⟨6, .accepted {} 0⟩ 4), .parent .run]
    ∃ s s' p p', ((PollServer.server h).observe PollServer.noteLoans).runWithin
        (fun p e => PollServer.WellReported p.1 e) poll (PollServer.initial 4 (· < 5), []) =
          some (s, [.join 5, .lend 5, .restore 5]) ∧
      Lending.machine.run [.join 5, .lend 5, .restore 5]
        (Lending.empty ℤ PollServer.maxConnections) = some p ∧ p.lent = ∅ ∧
      ((ProcessServer.System.machine h).observe ProcessServer.System.noteLoans).runWithin
        (fun p e => ¬ p.1.CallFails h e ∧ p.1.OrderlyEvent e) process
        (.initial 5 4 ProcessServer.System.parentDescriptors
          ProcessServer.System.childDescriptors fun _ => c, []) = some (s', [.join 6, .lend 6]) ∧
      Lending.machine.run [.join 6, .lend 6] (Lending.empty ℤ ProcessServer.maxConnections) =
        some p' ∧ (6 ∈ p'.lent ↔ s'.places 6 = 1) := by
  intro h c poll process
  have hpoll : (((PollServer.server h).observe PollServer.noteLoans).runWithin
      (fun p e => PollServer.WellReported p.1 e) poll (PollServer.initial 4 (· < 5), [])).map
        Prod.snd = some [.join 5, .lend 5, .restore 5] := by decide
  have hprocess : (((ProcessServer.System.machine h).observe
      ProcessServer.System.noteLoans).runWithin
        (fun p e => ¬ p.1.CallFails h e ∧ p.1.OrderlyEvent e) process
        (.initial 5 4 ProcessServer.System.parentDescriptors
          ProcessServer.System.childDescriptors fun _ => c, [])).map Prod.snd =
        some [.join 6, .lend 6] := by decide
  obtain ⟨⟨s, us⟩, hs, rfl⟩ := Option.map_eq_some_iff.mp hpoll
  obtain ⟨⟨s', us'⟩, hs', rfl⟩ := Option.map_eq_some_iff.mp hprocess
  obtain ⟨hone, -⟩ := servers_lend (M := ProcessServer.maxConnections)
    (N := ProcessServer.numChildProcesses) h (fun _ => rfl) (by decide) 4 4 (· < 5) (· < 5) fun _ => c
  obtain ⟨-, htwo⟩ := servers_lend (M := ProcessServer.maxConnections)
    (N := ProcessServer.numChildProcesses) h (fun _ => rfl) (by decide) 5 4
    ProcessServer.System.parentDescriptors ProcessServer.System.childDescriptors fun _ => c
  obtain ⟨p, hp, -, hlent, -⟩ := hone s _ ((Machine.reaches_of_runWithin hs).mono
    fun _ _ he => he.orderly)
  obtain ⟨⟨p', hp', -, hlent', -⟩, -⟩ := htwo s' _ (Machine.reaches_of_runWithin hs')
  exact ⟨s, s', p, p', hs, hp, hlent, hs', hp', hlent' 6⟩

end ScalableServer
