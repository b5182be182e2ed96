import ScalableServer.UnusedSlots

namespace ScalableServer.PollServer

open ScalableServer.Foundations ScalableServer.Core

def LogRow.client (row : LogRow) : SockAddr := ⟨row.clientAddr, row.clientPort⟩

def Server.source (s : Server) : Option SockAddr :=
  match s.pc with
  | .comm k => if hk : k < maxConnections then s.accepted (s.pollfds.client ⟨k, hk⟩).fd else none
  | _ => none

def noteSources (h : Host) (s : Server) (e : Event) (g : List (Option SockAddr)) :
    List (Option SockAddr) :=
  g ++ ((step h s e).map fun t => (t.rows.drop s.rows.length).map fun _ => s.source).getD []

def Attributed (s : Server) (g : List (Option SockAddr)) : Prop :=
  s.rows.map (fun row => some row.client) = g

def Requesting (q : PollFd) : Prop := q.events ≠ .zero

instance (q : PollFd) : Decidable (Requesting q) := inferInstanceAs (Decidable (_ ≠ _))

def SparesZero (s : Server) : Event → Prop
  | .run _ _ => ∀ i, RemovalEntered s i → ¬ Requesting (s.pollfds.client i) →
      ∀ j, Requesting (s.pollfds.client j) → (s.pollfds.client j).fd ≠ 0
  | _ => True

instance (s : Server) : (e : Event) → Decidable (SparesZero s e)
  | .run _ _ => inferInstanceAs (Decidable (∀ _, _ → _ → _))
  | .poll _ | .accept _ | .deliver _ _ | .hangup _ | .signal => .isTrue trivial

structure Addressed (s : Server) : Prop where
  names : SlotTable.Names Requesting PollFd.fd s.pollfds.client s.so.clientAddr s.accepted
  unused : ∀ i, ¬ Requesting (s.pollfds.client i) → (s.pollfds.client i).fd = 0
  reported : ∀ k, s.pc = .comm k → ∀ i : Fin maxConnections, k ≤ i →
    (s.pollfds.client i).revents = POLLIN → Requesting (s.pollfds.client i)

variable {h : Host} {s t : Server} {e : Event} {g : List (Option SockAddr)} {listenFd : ℤ}
  {others : ℤ → Bool} {i : Fin maxConnections}

lemma pollRecvAndLog_client {so : StateObject} {prior : ℕ} {ti : Timing} {c : Conn} {r : Handled}
    (hr : pollRecvAndLog h so i prior ti c = some r) :
    ∀ row ∈ r.rows, row.client = so.clientAddr i := by
  have hlogged : ∀ n, ∀ row ∈ [log h so i n ti], row.client = so.clientAddr i := by
    intro n row hrow
    obtain rfl := List.mem_singleton.mp hrow
    rfl
  rw [pollRecvAndLog] at hr
  split at hr
  · cases hr
  · obtain rfl := Option.some.inj hr
    simp
  · simp only at hr
    split_ifs at hr
    · obtain rfl := Option.some.inj hr
      simp
    · split at hr
      · cases hr
      · obtain rfl := Option.some.inj hr
        simp
      · split at hr <;>
        · obtain rfl := Option.some.inj hr
          exact hlogged _

lemma served_rows (s : Server) (i : Fin maxConnections) (addr : SockAddr) (r : Handled) :
    (served s i addr r).rows = s.rows ++ r.rows := by
  rw [served]
  split_ifs <;> rfl

lemma Server.source_eq (hpc : s.pc = .comm i) :
    s.source = s.accepted (s.pollfds.client i).fd := by
  rw [source, hpc]
  exact dif_pos i.isLt

lemma Attributed.append {rows : List LogRow} (ha : Attributed s g) (hstep : step h s e = some t)
    (hrows : t.rows = s.rows ++ rows) (hsource : ∀ row ∈ rows, some row.client = s.source) :
    Attributed t (noteSources h s e g) := by
  have hmap : rows.map (fun row => some row.client) = rows.map fun _ => s.source :=
    List.map_congr_left hsource
  rw [Attributed, noteSources, hstep, hrows, List.map_append, ha, hmap, Option.map_some,
    Option.getD_some, hrows, List.drop_left]

lemma Addressed.elsewhere (ha : Addressed s) (hso : t.so.clientAddr = s.so.clientAddr)
    (hfds : t.accepted = s.accepted) (hpollfds : t.pollfds.client = s.pollfds.client)
    (hpc : ∀ k, t.pc ≠ .comm k) : Addressed t := by
  refine ⟨?_, ?_, fun k hk => (hpc k hk).elim⟩
  · rw [hso, hfds, hpollfds]
    exact ha.names
  · rw [hpollfds]
    exact ha.unused

lemma accepted_setConn {fd : ℤ} {addr : SockAddr} {c d : Conn}
    (hc : s.fds fd = some (.accepted addr c)) : (setConn s fd addr d).accepted = s.accepted := by
  have hfd : s.accepted fd = some addr := by
    rw [Server.accepted, hc]
    rfl
  have hupdate := accepted_update s fd (some (.accepted addr d))
  change (setConn s fd addr d).accepted = Function.update s.accepted fd (some addr) at hupdate
  rw [hupdate, ← hfd, Function.update_eq_self]

lemma client_sweepOn (s : Server) (i : Fin maxConnections) :
    (sweepOn s i).pollfds.client =
      Function.update s.pollfds.client i { s.pollfds.client i with revents := .zero } := rfl

lemma Addressed.sweepOn (hn : SlotTable.Names Requesting PollFd.fd s.pollfds.client s.so.clientAddr
      s.accepted) (hu : ∀ j, ¬ Requesting (s.pollfds.client j) → (s.pollfds.client j).fd = 0)
    (hr : ∀ j : Fin maxConnections, (i : ℕ) < j → (s.pollfds.client j).revents = POLLIN →
      Requesting (s.pollfds.client j)) : Addressed (sweepOn s i) := by
  have hkept : ∀ j, (((PollServer.sweepOn s i).pollfds.client j).fd = (s.pollfds.client j).fd) ∧
      (Requesting ((PollServer.sweepOn s i).pollfds.client j) ↔ Requesting (s.pollfds.client j)) := by
    intro j
    by_cases hji : j = i
    · subst hji
      rw [client_sweepOn, Function.update_self]
      exact ⟨rfl, Iff.rfl⟩
    · rw [client_sweepOn, Function.update_of_ne hji]
      exact ⟨rfl, Iff.rfl⟩
  refine ⟨hn.congr (fun j => (hkept j).2.mp) fun j => (hkept j).1, fun j hj => ?_,
    fun k hk j hj hrevents => ?_⟩
  · rw [(hkept j).1]
    exact hu j fun hq => hj ((hkept j).2.mpr hq)
  · obtain rfl := Pc.comm.inj hk
    have hji : j ≠ i := by
      rintro rfl
      omega
    rw [client_sweepOn, Function.update_of_ne hji] at hrevents
    exact (hkept j).2.mpr (hr j hj hrevents)

lemma Addressed.later (ha : Addressed s) (hpc : s.pc = .comm i) (j : Fin maxConnections)
    (hj : (i : ℕ) < j) (hr : (s.pollfds.client j).revents = POLLIN) :
    Requesting (s.pollfds.client j) := ha.reported i hpc j hj.le hr

lemma Addressed.served {addr : SockAddr} {c : Conn} {r : Handled} (ha : Addressed s)
    (hpc : s.pc = .comm i) (hc : s.fds (s.pollfds.client i).fd = some (.accepted addr c)) :
    Addressed (served s i addr r) := by
  have hnames : SlotTable.Names Requesting PollFd.fd s.pollfds.client s.so.clientAddr
      (setConn s (s.pollfds.client i).fd addr r.conn).accepted := by
    rw [accepted_setConn hc]
    exact ha.names
  rw [PollServer.served]
  split_ifs
  · exact ⟨hnames, ha.unused, by rintro k ⟨⟩⟩
  · exact Addressed.sweepOn hnames ha.unused (ha.later hpc)

lemma Addressed.removed (ha : Addressed s) (hpc : s.pc = .comm i)
    (hspares : ¬ Requesting (s.pollfds.client i) →
      ∀ j, Requesting (s.pollfds.client j) → (s.pollfds.client j).fd ≠ 0) :
    Addressed (PollServer.sweepOn (pollRemoveConnection s i) i) := by
  have hcleared : ¬ Requesting {} := fun hq => hq rfl
  have hother : ∀ j, j ≠ i → Requesting (s.pollfds.client j) →
      (s.pollfds.client j).fd ≠ (s.pollfds.client i).fd := by
    intro j hji hj he
    by_cases hi : Requesting (s.pollfds.client i)
    · exact hji (ha.names.distinct j i hj hi he)
    · rw [ha.unused i hi] at he
      exact hspares hi j hj he
  refine Addressed.sweepOn ?_ (fun j hj => ?_) fun j hj hr => ?_
  · have haccepted : (pollRemoveConnection s i).accepted =
        Function.update s.accepted (s.pollfds.client i).fd none := accepted_update s _ none
    rw [haccepted]
    exact ha.names.clear hcleared hother
  · by_cases hji : j = i
    · subst hji
      simp [pollRemoveConnection]
    · simp only [pollRemoveConnection, Function.update_of_ne hji] at hj ⊢
      exact ha.unused j hj
  · have hji : j ≠ i := by
      rintro rfl
      omega
    simp only [pollRemoveConnection, Function.update_of_ne hji] at hr ⊢
    exact ha.later hpc j hj hr

lemma Addressed.accepted {fd : ℤ} {addr : SockAddr} {c : Conn} (ha : Addressed s)
    (hnew : s.fds fd = none) : Addressed { pollAccept s fd addr c with pc := .head } := by
  set j := getConnIndex s.so.clientFd with hj
  have hnone : s.accepted fd = none := by rw [Server.accepted, hnew, Option.bind_none]
  have haccepted : ({ pollAccept s fd addr c with pc := .head } : Server).accepted =
      Function.update s.accepted fd (some addr) := accepted_update s fd _
  refine ⟨?_, fun k hk => ?_, by rintro k ⟨⟩⟩
  · rw [haccepted]
    exact ha.names.fill hnone
  · by_cases hkj : k = j
    · subst hkj
      refine (hk ?_).elim
      simp only [pollAccept, ← hj, Function.update_self]
      rintro ⟨⟩
    · simp only [pollAccept, ← hj, Function.update_of_ne hkj] at hk ⊢
      exact ha.unused k hk

lemma Addressed.poll {r : PollResult} (ha : Addressed s)
    (hr : ∀ i, (s.pollfds.client i).MayReport (r.client i)) :
    Addressed { s with
      pc := if r.listen = POLLIN then .accept else .comm 0
      pollfds := s.pollfds.report r } := by
  refine ⟨ha.names.congr (fun _ hi => hi) fun _ => rfl, ha.unused, fun k _ i _ hi => ?_⟩
  change r.client i = POLLIN at hi
  exact (hi ▸ hr i).requested

lemma Addressed.step (ha : Addressed s) (hattr : Attributed s g) (hposix : PosixEvent s e)
    (hspares : SparesZero s e) (hstep : step h s e = some t) :
    Addressed t ∧ Attributed t (noteSources h s e g) := by
  have hquiet : t.rows = s.rows → Attributed t (noteSources h s e g) := fun hrows =>
    hattr.append hstep (hrows.trans (List.append_nil _).symm) (by simp)
  cases moves_of_step hstep with
  | head hpc => exact ⟨ha.elsewhere rfl rfl rfl (by intro k; split_ifs <;> rintro ⟨⟩), hquiet rfl⟩
  | @serve _ _ i addr c r hpc hin hc hr =>
    refine ⟨ha.served hpc hc, hattr.append hstep (served_rows s i addr r) fun row hrow => ?_⟩
    -- the slot was filled with the address of its descriptor
    have hnamed := ha.names.stored i (ha.reported i hpc i (le_refl _) hin)
    rw [Server.source_eq hpc, hnamed, pollRecvAndLog_client hr row hrow]
  | serveOther hpc hin hc => exact ⟨ha.elsewhere rfl rfl rfl (by rintro k ⟨⟩), hquiet rfl⟩
  | remove hpc hin hup => exact ⟨ha.removed hpc (hspares _ ⟨hpc, hin, hup⟩), hquiet rfl⟩
  | skip hpc hin hup => exact ⟨Addressed.sweepOn ha.names ha.unused (ha.later hpc), hquiet rfl⟩
  | swept hpc => exact ⟨ha.elsewhere rfl rfl rfl (by rintro k ⟨⟩), hquiet rfl⟩
  | poll hpc => exact ⟨ha.poll hposix.2, hquiet rfl⟩
  | pollFail hpc => exact ⟨ha.elsewhere rfl rfl rfl (by rintro k ⟨⟩), hquiet rfl⟩
  | accept hpc => exact ⟨ha.accepted hposix.2, hquiet rfl⟩
  | acceptFail hpc => exact ⟨ha.elsewhere rfl rfl rfl (by rintro k ⟨⟩), hquiet rfl⟩
  | deliver hc | hangup hc =>
    refine ⟨⟨?_, ha.unused, ha.reported⟩, hquiet rfl⟩
    rw [accepted_setConn hc]
    exact ha.names
  | signal => exact ⟨⟨ha.names, ha.unused, ha.reported⟩, hquiet rfl⟩

lemma initial_addressed (listenFd : ℤ) (others : ℤ → Bool) : Addressed (initial listenFd others) where
  names := .empty fun _ hi => hi rfl
  unused _ _ := rfl
  reported := by rintro k ⟨⟩

lemma attributed
    (hr : ((server h).observe (noteSources h)).Reaches
      (fun p e => PosixEvent p.1 e ∧ SparesZero p.1 e) (initial listenFd others, []) (s, g)) :
    Attributed s g := by
  have hstart : Addressed (initial listenFd others) ∧ Attributed (initial listenFd others) [] :=
    ⟨initial_addressed listenFd others, rfl⟩
  have hinv : Addressed s ∧ Attributed s g := by
    refine hr.invariant (I := fun q => Addressed q.1 ∧ Attributed q.1 q.2) hstart ?_
    rintro a e b ⟨ha, hattr⟩ ⟨hposix, hspares⟩ hstep
    obtain ⟨hb, hg⟩ := Machine.step_observe hstep
    rw [hg]
    exact ha.step hattr hposix hspares hb
  exact hinv.2

end ScalableServer.PollServer
