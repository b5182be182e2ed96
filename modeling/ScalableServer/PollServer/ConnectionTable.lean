import ScalableServer.PollServer.ExecutePoll

namespace ScalableServer.PollServer

open ScalableServer.Foundations ScalableServer.Core

structure Table (s : Server) : Prop where
  agree : ∀ i, s.so.clientFd i = (s.pollfds.client i).fd
  registered : Registered id s.pollfds.listen s.pollfds.client s.so.clientAddr s.so.numConnections
    s.accepted

structure Sound (s : Server) : Prop extends Table s where
  accepting : s.pc = .accept → s.so.numConnections < maxConnections
  sweeping : ∀ k, s.pc = .comm k → ∀ i : Fin maxConnections, k ≤ i →
    (s.pollfds.client i).revents = POLLIN ∨ (s.pollfds.client i).revents.hangup = true →
    (s.pollfds.client i).fd ≠ 0

/-- A result that POSIX permits, and that reports no hang-up or error for an unused slot when the
slots are looked at. -/
structure Orderly (s : Server) (r : PollResult) : Prop where
  listen : s.pollfds.listen.MayReport r.listen
  client : ∀ i, (s.pollfds.client i).MayReport (r.client i)
  unused : r.listen ≠ POLLIN → ∀ i, (s.pollfds.client i).fd = 0 → (r.client i).hangup = false

def OrderlyEvent (s : Server) : Event → Prop
  | .poll (.ok r) => Orderly s r
  | .accept (.ok (fd, _, _)) => fd ≠ 0 ∧ s.fds fd = none
  | _ => True

variable {h : Host} {s t : Server} {i : Fin maxConnections} {fd : ℤ} {addr : SockAddr} {c : Conn}

lemma Table.getConnIndex_free (ht : Table s) (hn : s.so.numConnections < maxConnections) :
    (s.pollfds.client (getConnIndex s.so.clientFd)).fd = 0 := by
  obtain ⟨i, hi⟩ := ht.registered.exists_free hn
  have hfree : ∃ i, ¬ s.so.clientFd i ≠ 0 := ⟨i, by rwa [ht.agree i]⟩
  obtain ⟨j, hj⟩ : ∃ j, SlotTable.firstFree (· ≠ 0) s.so.clientFd = some j :=
    SlotTable.exists_firstFree hfree
  have hfd := SlotTable.firstFree_free hj
  rw [getConnIndex, hj, Option.getD_some, ← ht.agree j]
  exact not_not.mp hfd

lemma accepted_update (s : Server) (fd : ℤ) (d : Option Descriptor) :
    ({ s with fds := Function.update s.fds fd d } : Server).accepted =
      Function.update s.accepted fd (d.bind Descriptor.peer) := by
  funext g
  by_cases hg : g = fd
  · subst hg
    simp [Server.accepted]
  · simp [Server.accepted, Function.update_of_ne hg]

lemma initial_sound (listenFd : ℤ) (others : ℤ → Bool) : Sound (initial listenFd others) where
  agree _ := rfl
  registered := by
    have hnone : (initial listenFd others).accepted = fun _ => none := by
      funext fd
      change (if others fd then some Descriptor.other else none).bind Descriptor.peer = none
      split_ifs <;> rfl
    rw [hnone]
    exact .start (fun _ => rfl) rfl
  accepting := by rintro ⟨⟩
  sweeping := by rintro _ ⟨⟩

lemma Table.congr (ht : Table s) (hso : t.so = s.so) (hfds : t.accepted = s.accepted)
    (hlisten : t.pollfds.listen.events = s.pollfds.listen.events)
    (hfd : ∀ i, (t.pollfds.client i).fd = (s.pollfds.client i).fd)
    (hevents : ∀ i, (t.pollfds.client i).events = (s.pollfds.client i).events) : Table t where
  agree i := by rw [hso, hfd, ht.agree]
  registered := by
    rw [hso, hfds]
    exact ht.registered.congr hlisten (fun i => by rw [hfd]) (fun i => by rw [hfd]) hevents

lemma Table.pollAccept (ht : Table s) (hn : s.so.numConnections < maxConnections) (hfd : fd ≠ 0)
    (hnew : s.fds fd = none) : Table (pollAccept s fd addr c) := by
  have hfree := ht.getConnIndex_free hn
  refine ⟨fun j => ?_, ?_⟩
  · by_cases hj : j = getConnIndex s.so.clientFd
    · simp [PollServer.pollAccept, hj]
    · simp [PollServer.pollAccept, Function.update_of_ne hj, ht.agree]
  · have haccepted : (PollServer.pollAccept s fd addr c).accepted =
        Function.update s.accepted fd (some addr) := accepted_update s fd _
    rw [haccepted]
    exact ht.registered.accept (by decide) hn hfree hfd (by simp [Server.accepted, hnew])

lemma Table.pollRemoveConnection (ht : Table s) (hused : (s.pollfds.client i).fd ≠ 0) :
    Table (pollRemoveConnection s i) := by
  refine ⟨fun j => ?_, ?_⟩
  · by_cases hj : j = i
    · simp [PollServer.pollRemoveConnection, hj]
    · simp [PollServer.pollRemoveConnection, Function.update_of_ne hj, ht.agree]
  · have haccepted : (PollServer.pollRemoveConnection s i).accepted =
        Function.update s.accepted (s.pollfds.client i).fd none := accepted_update s _ none
    rw [haccepted]
    exact ht.registered.remove (by decide) hused

lemma Table.sweepOn (ht : Table s) (i : Fin maxConnections) : Table (sweepOn s i) := by
  refine ht.congr rfl rfl rfl (fun j => ?_) fun j => ?_ <;>
  · by_cases hj : j = i
    · subst hj
      simp [PollServer.sweepOn, PollFds.setClient]
    · simp [PollServer.sweepOn, PollFds.setClient, Function.update_of_ne hj]

lemma Table.setConn (ht : Table s) (hc : s.fds fd = some (.accepted addr c)) (d : Conn) :
    Table (setConn s fd addr d) := by
  refine ht.congr rfl ?_ rfl (fun _ => rfl) fun _ => rfl
  funext g
  by_cases hgf : g = fd
  · subst hgf
    simp [Server.accepted, PollServer.setConn, Descriptor.peer, hc]
  · simp [Server.accepted, PollServer.setConn, Function.update_of_ne hgf]

lemma sweeping_sweepOn (hs : ∀ j : Fin maxConnections, (i : ℕ) < j →
      (s.pollfds.client j).revents = POLLIN ∨ (s.pollfds.client j).revents.hangup = true →
      (s.pollfds.client j).fd ≠ 0) (k : ℕ) (hk : (sweepOn s i).pc = .comm k) :
    ∀ j : Fin maxConnections, k ≤ j →
      ((sweepOn s i).pollfds.client j).revents = POLLIN ∨
        ((sweepOn s i).pollfds.client j).revents.hangup = true →
      ((sweepOn s i).pollfds.client j).fd ≠ 0 := by
  obtain rfl := Pc.comm.inj hk
  intro j hj hr
  have hji : j ≠ i := by
    rintro rfl
    omega
  simp only [sweepOn, PollFds.setClient, Function.update_of_ne hji] at hr ⊢
  exact hs j hj hr

lemma Sound.later (hs : Sound s) (hpc : s.pc = .comm i) (j : Fin maxConnections) (hj : (i : ℕ) < j)
    (hr : (s.pollfds.client j).revents = POLLIN ∨ (s.pollfds.client j).revents.hangup = true) :
    (s.pollfds.client j).fd ≠ 0 := hs.sweeping i hpc j hj.le hr

lemma Table.elsewhere (ht : Table t) (haccept : t.pc ≠ .accept) (hcomm : ∀ k, t.pc ≠ .comm k) :
    Sound t :=
  ⟨ht, fun hpc => (haccept hpc).elim, fun k hpc => (hcomm k hpc).elim⟩

lemma Sound.served {r : Handled} (hs : Sound s) (hpc : s.pc = .comm i)
    (hc : s.fds (s.pollfds.client i).fd = some (.accepted addr c)) : Sound (served s i addr r) := by
  have htable := hs.toTable.setConn hc r.conn
  rw [PollServer.served]
  split_ifs
  · refine Table.elsewhere ?_ (by rintro ⟨⟩) (by rintro k ⟨⟩)
    exact htable.congr rfl rfl rfl (fun _ => rfl) fun _ => rfl
  · refine ⟨Table.sweepOn ?_ i, by rintro ⟨⟩, sweeping_sweepOn (hs.later hpc)⟩
    exact htable.congr rfl rfl rfl (fun _ => rfl) fun _ => rfl

lemma Sound.removed (hs : Sound s) (hpc : s.pc = .comm i)
    (hup : (s.pollfds.client i).revents.hangup = true) :
    Sound (sweepOn (pollRemoveConnection s i) i) := by
  have hused := hs.sweeping i hpc i (le_refl _) (.inr hup)
  refine ⟨(hs.toTable.pollRemoveConnection hused).sweepOn i, by rintro ⟨⟩,
    sweeping_sweepOn fun j hj hr => ?_⟩
  have hji : j ≠ i := by
    rintro rfl
    omega
  simp only [pollRemoveConnection, Function.update_of_ne hji] at hr ⊢
  exact hs.later hpc j hj hr

lemma Sound.poll {r : PollResult} (hs : Sound s) (hr : Orderly s r) :
    Sound { s with
      pc := if r.listen = POLLIN then .accept else .comm 0
      pollfds := s.pollfds.report r } := by
  refine ⟨hs.toTable.congr rfl rfl rfl (fun _ => rfl) fun _ => rfl, fun hpc => ?_,
    fun k hpc i _ hi => ?_⟩
  · have hlisten : r.listen = POLLIN := by
      by_contra hne
      simp [hne] at hpc
    have hrequested := (hlisten ▸ hr.listen).requested
    exact hs.registered.room hrequested
  · have hlisten : r.listen ≠ POLLIN := by
      intro he
      simp [he] at hpc
    intro hfd
    change r.client i = POLLIN ∨ (r.client i).hangup = true at hi
    change (s.pollfds.client i).fd = 0 at hfd
    rcases hi with hin | hup
    · exact (hin ▸ hr.client i).requested (hs.registered.free i hfd).2
    · rw [hr.unused hlisten i hfd] at hup
      cases hup

lemma Sound.step {e : Event} (hs : Sound s) (he : OrderlyEvent s e) (hstep : Moves h s e t) :
    Sound t := by
  have hcongr : ∀ pc gogo, Table { s with pc := pc, gogo := gogo } := fun _ _ =>
    hs.toTable.congr rfl rfl rfl (fun _ => rfl) fun _ => rfl
  cases hstep with
  | head hpc =>
    split_ifs <;> exact (hcongr _ _).elsewhere (by rintro ⟨⟩) (by rintro k ⟨⟩)
  | serve hpc hin hc hr => exact hs.served hpc hc
  | serveOther hpc hin hc => exact (hcongr _ _).elsewhere (by rintro ⟨⟩) (by rintro k ⟨⟩)
  | remove hpc hin hup => exact hs.removed hpc hup
  | skip hpc hin hup => exact ⟨hs.toTable.sweepOn _, by rintro ⟨⟩, sweeping_sweepOn (hs.later hpc)⟩
  | swept hpc => exact (hcongr _ _).elsewhere (by rintro ⟨⟩) (by rintro k ⟨⟩)
  | poll hpc => exact hs.poll he
  | pollFail hpc => exact (hcongr _ _).elsewhere (by rintro ⟨⟩) (by rintro k ⟨⟩)
  | @accept fd addr c hpc =>
    have htable : Table (pollAccept s fd addr c) :=
      hs.toTable.pollAccept (hs.accepting hpc) he.1 he.2
    refine Table.elsewhere ?_ (by rintro ⟨⟩) (by rintro k ⟨⟩)
    exact htable.congr rfl rfl rfl (fun _ => rfl) fun _ => rfl
  | acceptFail hpc => exact (hcongr _ _).elsewhere (by rintro ⟨⟩) (by rintro k ⟨⟩)
  | deliver hc => exact ⟨hs.toTable.setConn hc _, hs.accepting, hs.sweeping⟩
  | hangup hc => exact ⟨hs.toTable.setConn hc _, hs.accepting, hs.sweeping⟩
  | signal => exact ⟨hcongr _ _, hs.accepting, hs.sweeping⟩

lemma Sound.reaches {others : ℤ → Bool} {listenFd : ℤ}
    (hr : (server h).Reaches OrderlyEvent (initial listenFd others) s) : Sound s :=
  hr.invariant (initial_sound listenFd others) fun _ _ _ ha he hb => ha.step he (moves_of_step hb)

lemma Sound.removal (hs : Sound s) (hr : RemovalEntered s i) :
    ∃ addr c, s.fds (s.pollfds.client i).fd = some (.accepted addr c) := by
  obtain ⟨hpc, -, hup⟩ := hr
  have hused := hs.sweeping i hpc i (le_refl _) (.inr hup)
  have hstored := hs.registered.lists.stored i hused
  obtain ⟨d, hd, haddr⟩ := Option.bind_eq_some_iff.mp hstored
  cases d with
  | accepted addr c => exact ⟨addr, c, hd⟩
  | other => cases haddr

def WellReported (s : Server) : Event → Prop
  | .poll (.ok r) => s.pollfds.listen.MayReport r.listen ∧
      ∀ i, (s.pollfds.client i).MayReport (r.client i) ∧
        ((s.pollfds.client i).fd = 0 → r.client i = .zero)
  | .accept (.ok (fd, _, _)) => fd ≠ 0 ∧ s.fds fd = none
  | _ => True

instance (s : Server) : (e : Event) → Decidable (WellReported s e)
  | .poll (.ok _) => inferInstanceAs (Decidable (_ ∧ _))
  | .accept (.ok (_, _, _)) => inferInstanceAs (Decidable (_ ∧ _))
  | .poll (.error _) | .accept (.error _) | .run _ _ | .deliver _ _ | .hangup _ | .signal =>
    .isTrue trivial

lemma WellReported.orderly {e : Event} (he : WellReported s e) : OrderlyEvent s e := by
  cases e with
  | poll result =>
    cases result with
    | error e => trivial
    | ok r =>
      refine ⟨he.1, fun i => (he.2 i).1, fun _ i hi => ?_⟩
      rw [(he.2 i).2 hi]
      rfl
  | accept result =>
    cases result with
    | error e => trivial
    | ok r => exact he
  | _ => trivial

theorem pollServer_connection_table (h : Host) (listenFd : ℤ) (others : ℤ → Bool) (s : Server)
    (hs : (server h).Reaches WellReported (initial listenFd others) s) :
    (∀ i, s.so.clientFd i = (s.pollfds.client i).fd) ∧
      (∀ i j, s.so.clientFd i ≠ 0 → s.so.clientFd i = s.so.clientFd j → i = j) ∧
      (∀ fd, s.accepted fd ≠ none ↔ ∃ i, s.so.clientFd i ≠ 0 ∧ s.so.clientFd i = fd) ∧
      (∀ i, if s.so.clientFd i = 0 then s.so.clientAddr i = {}
        else s.accepted (s.so.clientFd i) = some (s.so.clientAddr i)) ∧
      s.so.numConnections = (Finset.univ.filter fun i => s.so.clientFd i ≠ 0).card ∧
      s.so.numConnections ≤ maxConnections ∧
      (s.pollfds.listen.events = POLLIN ↔ s.so.numConnections < maxConnections) ∧
      (s.pc = .accept → s.so.clientFd (getConnIndex s.so.clientFd) = 0) := by
  have hsound : Sound s := Sound.reaches (hs.mono fun _ _ he => he.orderly)
  have hagree := hsound.agree
  have hregistered := hsound.registered
  refine ⟨hagree, fun i j hi he => ?_, fun fd => ⟨fun hfd => ?_, ?_⟩, fun i => ?_, ?_,
    hregistered.count_le, hregistered.listening_iff, fun hpc => ?_⟩
  · rw [hagree] at hi
    rw [hagree, hagree] at he
    exact hregistered.lists.distinct i j hi (by rwa [Used, ← he]) he
  · obtain ⟨i, hi, hik⟩ := hregistered.lists.covers fd hfd
    exact ⟨i, by rwa [hagree], by rwa [hagree]⟩
  · rintro ⟨i, hi, rfl⟩
    rw [hagree] at hi ⊢
    have hstored := hregistered.lists.stored i hi
    rw [id] at hstored
    rw [hstored]
    exact Option.some_ne_none _
  · rw [hagree]
    split_ifs with hi
    · exact (hregistered.free i hi).1
    · exact hregistered.lists.stored i hi
  · rw [hregistered.count]
    congr 1
    ext i
    simp [Used, hagree]
  · rw [hagree]
    exact hsound.getConnIndex_free (hsound.accepting hpc)

theorem pollServer_connection_table_run :
    let c : Conn :=
      { recvs := Stream'.const (.moves 4), sends := Stream'.const (.moves 4)
        selects := Stream'.const (.moves 0) }
    let es : List Event :=
      [.run 0 {}, .poll (.ok ⟨POLLIN, fun _ => .zero⟩), .accept (.ok (5, ⟨1, 2⟩, c)), .run 0 {},
        .poll (.ok ⟨.zero, fun i => if i = 0 then { pollhup := true } else .zero⟩), .run 0 {},
        .run 0 {}, .run 0 {}, .run 0 {}, .run 0 {}, .run 0 {}, .run 0 {},
        .poll (.ok ⟨POLLIN, fun _ => .zero⟩), .accept (.ok (5, ⟨3, 4⟩, c))]
    let host : Host := ⟨.little, fun _ => true, fun _ => []⟩
    ∃ s, (server host).runWithin WellReported es (initial 3 (· < 5)) = some s ∧
      s.so.numConnections = 1 ∧ s.accepted 5 = some ⟨3, 4⟩ ∧ s.so.clientAddr 0 = ⟨3, 4⟩ ∧
      s.pollfds.listen.events = POLLIN := by
  intro c es host
  have hrun : ((server host).runWithin WellReported es (initial 3 (· < 5))).map
      (fun s => (s.so.numConnections, s.accepted 5, s.so.clientFd 0)) =
        some (1, some ⟨3, 4⟩, 5) := by decide
  obtain ⟨s, hs, hval⟩ := Option.map_eq_some_iff.mp hrun
  simp only [Prod.mk.injEq] at hval
  obtain ⟨hn, haccepted, hfd⟩ := hval
  obtain ⟨-, -, -, haddr, -, -, hlisten, -⟩ := pollServer_connection_table host 3 (· < 5) s
    (Machine.reaches_of_runWithin hs)
  have haddr0 := haddr 0
  rw [hfd, if_neg (by decide), haccepted] at haddr0
  exact ⟨s, hs, hn, haccepted, (Option.some.inj haddr0).symm,
    hlisten.mpr (by rw [hn]; decide)⟩

end ScalableServer.PollServer
