import ScalableServer.Core.PayloadLoop
import ScalableServer.UnusedSlots

namespace ScalableServer.PollServer

open ScalableServer.Foundations ScalableServer.Core

def Server.conn (s : Server) (i : Fin maxConnections) : Option Conn :=
  match s.fds (s.pollfds.client i).fd with
  | some (.accepted _ c) => some c
  | _ => none

def HangsUpClosed (s : Server) : Event → Prop
  | .poll (.ok r) => ∀ i, (r.client i).hangup = true → ∀ c ∈ s.conn i, c.closed = true
  | _ => True

instance (s : Server) : (e : Event) → Decidable (HangsUpClosed s e)
  | .poll (.ok r) =>
    inferInstanceAs (Decidable (∀ i, (r.client i).hangup = true → ∀ c ∈ s.conn i, c.closed = true))
  | .poll (.error _) | .accept _ | .run _ _ | .deliver _ _ | .hangup _ | .signal => .isTrue trivial

def delivered (s : Server) (e : Event) (came : ℤ → List UInt8) : ℤ → List UInt8 :=
  match e with
  | .accept (.ok (fd, _, c)) => Function.update came fd c.unread
  | .deliver fd bytes =>
    match s.fds fd with
    | some (.accepted _ c) =>
      if c.closed then came else Function.update came fd (came fd ++ bytes)
    | _ => came
  | _ => came

def SparesMessages (s : Server) (came : ℤ → List UInt8) : Event → Prop
  | .poll (.ok r) => r.listen ≠ POLLIN → ∀ i, (r.client i).hangup = true → ∀ c ∈ s.conn i,
      ¬ MessageUnread (came (s.pollfds.client i).fd) c.unread
  | _ => True

def HangsUpDrained (s : Server) : Event → Prop
  | .poll (.ok r) => ∀ i, (r.client i).hangup = true → ∀ c ∈ s.conn i,
      c.closed = true ∧ c.unread = []
  | _ => True

instance (s : Server) : (e : Event) → Decidable (HangsUpDrained s e)
  | .poll (.ok r) => inferInstanceAs
      (Decidable (∀ i, (r.client i).hangup = true → ∀ c ∈ s.conn i, c.closed = true ∧ c.unread = []))
  | .poll (.error _) | .accept _ | .run _ _ | .deliver _ _ | .hangup _ | .signal => .isTrue trivial

def RemovesOnlyRead (s : Server) (came : ℤ → List UInt8) : Prop :=
  ∀ i, RemovalEntered s i → ∀ c ∈ s.conn i,
    ¬ MessageUnread (came (s.pollfds.client i).fd) c.unread

def Spared (s : Server) (came : ℤ → List UInt8) : Prop :=
  ∀ k, s.pc = .comm k → ∀ i : Fin maxConnections, k ≤ i →
    (s.pollfds.client i).revents.hangup = true → ∀ c ∈ s.conn i,
    c.closed = true ∧ ¬ MessageUnread (came (s.pollfds.client i).fd) c.unread

variable {h : Host} {s t : Server} {e : Event} {came : ℤ → List UInt8} {i j : Fin maxConnections}
  {addr : SockAddr} {c d c' : Conn} {fd : ℤ} {k : ℕ}

lemma HangsUpDrained.spares (he : HangsUpDrained s e) :
    HangsUpClosed s e ∧ SparesMessages s came e := by
  cases e with
  | poll result =>
    cases result with
    | error err => exact ⟨trivial, trivial⟩
    | ok r => exact ⟨fun i hup c hc => (he i hup c hc).1,
        fun _ i hup c hc => not_messageUnread_of_read (he i hup c hc).2⟩
  | _ => exact ⟨trivial, trivial⟩

lemma conn_congr (hd : t.fds (t.pollfds.client i).fd = s.fds (s.pollfds.client i).fd) :
    t.conn i = s.conn i := by
  rw [Server.conn, Server.conn, hd]

lemma mem_conn :
    c ∈ s.conn i ↔ ∃ addr, s.fds (s.pollfds.client i).fd = some (.accepted addr c) := by
  rw [Server.conn]
  split
  · rename_i addr d hd
    constructor
    · intro he
      exact ⟨addr, by rw [hd, Option.some.inj he]⟩
    · rintro ⟨addr', he⟩
      rw [hd, Option.some.injEq, Descriptor.accepted.injEq] at he
      rw [he.2, Option.mem_def]
  · rename_i hd
    constructor
    · rintro ⟨⟩
    · rintro ⟨addr, he⟩
      exact (hd addr c he).elim

lemma sweepOn_conn (s : Server) (i j : Fin maxConnections) : (sweepOn s i).conn j = s.conn j := by
  apply conn_congr
  by_cases hj : j = i
  · subst hj
    simp [sweepOn, PollFds.setClient]
  · simp [sweepOn, PollFds.setClient, Function.update_of_ne hj]

lemma mem_conn_setConn (hc : s.fds fd = some (.accepted addr c))
    (hd : d ∈ (setConn s fd addr c').conn j) :
    (s.pollfds.client j).fd = fd ∧ c ∈ s.conn j ∧ d = c' ∨
      (s.pollfds.client j).fd ≠ fd ∧ d ∈ s.conn j := by
  obtain ⟨addr', hd⟩ := mem_conn.mp hd
  by_cases hfd : (s.pollfds.client j).fd = fd
  · have hd' : some (Descriptor.accepted addr c') = some (.accepted addr' d) := by
      rw [← hd]
      exact (Function.update_self (f := s.fds) fd _).symm.trans (by rw [← hfd]; rfl)
    simp only [Option.some.injEq, Descriptor.accepted.injEq] at hd'
    exact .inl ⟨hfd, mem_conn.mpr ⟨addr, hfd ▸ hc⟩, hd'.2.symm⟩
  · exact .inr ⟨hfd, mem_conn.mpr ⟨addr', (Function.update_of_ne hfd _ _).symm.trans hd⟩⟩

lemma pollRecvAndLog_drains {prior : ℕ} {ti : Timing} {r : Handled}
    (hr : pollRecvAndLog h s.so i prior ti c = some r) : c.Drains r.conn := by
  rw [pollRecvAndLog] at hr
  split at hr
  · cases hr
  · rename_i d hrecv
    cases hr
    exact Conn.recv_drains hrecv
  · rename_i header d hrecv
    have hd := Conn.recv_drains hrecv
    dsimp only at hr
    split_ifs at hr
    · cases hr
      exact hd
    · split at hr
      · cases hr
      · rename_i u hloop
        cases hr
        exact hd.trans (payloadLoop_drains hloop)
      · rename_i u hloop
        have hsend := Conn.send_drains (h.wordBytes u.bytesRead) u.conn
        split at hr <;>
        · rename_i hsent
          cases hr
          rw [hsent] at hsend
          exact (hd.trans (payloadLoop_drains hloop)).trans hsend

lemma Spared.sweepOn (hs : Spared s came) (hpc : s.pc = .comm i) (hpc' : t.pc = .comm (i + 1))
    (hpollfds : ∀ j, j ≠ i → t.pollfds.client j = s.pollfds.client j)
    (hconn : ∀ j, j ≠ i → ∀ d ∈ t.conn j, ∃ c ∈ s.conn j, c.Drains d) : Spared t came := by
  -- The sweep goes on after slot `i`; the connections of the other slots are at most drained.
  intro k hk j hj hup d hd
  have hkj : (i : ℕ) + 1 ≤ j := by
    rw [hpc', Pc.comm.injEq] at hk
    omega
  have hji : j ≠ i := by
    rintro rfl
    omega
  rw [hpollfds j hji] at hup ⊢
  obtain ⟨c, hc, hdrains⟩ := hconn j hji d hd
  obtain ⟨hclosed, hread⟩ := hs i hpc j (by omega) hup c hc
  exact ⟨hdrains.closed.trans hclosed, fun hunread => hread (hunread.mono hdrains.unread)⟩

lemma Spared.served {prior : ℕ} {ti : Timing} {r : Handled} (hs : Spared s came)
    (hpc : s.pc = .comm i) (hc : s.fds (s.pollfds.client i).fd = some (.accepted addr c))
    (hr : pollRecvAndLog h s.so i prior ti c = some r) : Spared (served s i addr r) came := by
  rw [PollServer.served]
  split_ifs
  · intro k hk
    cases hk
  · refine hs.sweepOn hpc rfl (fun j hj => Function.update_of_ne hj _ _) fun j _ d hd => ?_
    rw [sweepOn_conn] at hd
    have hd' : d ∈ (setConn s (s.pollfds.client i).fd addr r.conn).conn j := hd
    rcases mem_conn_setConn hc hd' with ⟨-, hcj, rfl⟩ | ⟨-, hdj⟩
    · exact ⟨c, hcj, pollRecvAndLog_drains hr⟩
    · exact ⟨d, hdj, .refl d⟩

lemma Spared.removed (hs : Spared s came) (hpc : s.pc = .comm i) :
    Spared (PollServer.sweepOn (pollRemoveConnection s i) i) came := by
  have hclient : ∀ j, j ≠ i →
      (pollRemoveConnection s i).pollfds.client j = s.pollfds.client j := fun j hj =>
    Function.update_of_ne hj _ _
  refine hs.sweepOn hpc rfl (fun j hj => ?_) fun j hj d hd => ?_
  · exact (Function.update_of_ne hj _ _).trans (hclient j hj)
  · rw [sweepOn_conn] at hd
    obtain ⟨addr, hd⟩ := mem_conn.mp hd
    rw [hclient j hj] at hd
    change Function.update s.fds (s.pollfds.client i).fd none (s.pollfds.client j).fd = _ at hd
    by_cases hfd : (s.pollfds.client j).fd = (s.pollfds.client i).fd
    · rw [hfd, Function.update_self] at hd
      cases hd
    · rw [Function.update_of_ne hfd] at hd
      exact ⟨d, mem_conn.mpr ⟨addr, hd⟩, .refl d⟩

lemma Spared.poll {r : PollResult} (hclosed : HangsUpClosed s (.poll (.ok r)))
    (hspares : SparesMessages s came (.poll (.ok r))) :
    Spared { s with
      pc := if r.listen = POLLIN then .accept else .comm 0
      pollfds := s.pollfds.report r } came := by
  intro k hk i _ hup c hc
  have hlisten : r.listen ≠ POLLIN := by
    intro he
    simp [he] at hk
  exact ⟨hclosed i hup c hc, hspares hlisten i hup c hc⟩

lemma Spared.deliver (hs : Spared s came) (hc : s.fds fd = some (.accepted addr c))
    (bytes : List UInt8) :
    Spared (setConn s fd addr (c.deliver bytes)) (delivered s (.deliver fd bytes) came) := by
  -- Only a connection that is still open gets anything.
  have hcame : delivered s (.deliver fd bytes) came =
      if c.closed then came else Function.update came fd (came fd ++ bytes) := by
    simp only [delivered, hc]
  intro k hk j hj hup d hd
  rcases mem_conn_setConn hc hd with ⟨rfl, hcj, rfl⟩ | ⟨hne, hdj⟩
  · obtain ⟨hclosed, hread⟩ := hs k hk j hj hup c hcj
    rw [hcame, if_pos hclosed, Conn.deliver_of_closed bytes hclosed]
    exact ⟨hclosed, hread⟩
  · obtain ⟨hclosed, hread⟩ := hs k hk j hj hup d hdj
    refine ⟨hclosed, ?_⟩
    have hsame : delivered s (.deliver fd bytes) came (s.pollfds.client j).fd =
        came (s.pollfds.client j).fd := by
      rw [hcame]
      split_ifs
      · rfl
      · exact Function.update_of_ne hne _ _
    change ¬ MessageUnread (delivered s _ came (s.pollfds.client j).fd) d.unread
    rwa [hsame]

lemma Spared.hangup (hs : Spared s came) (hc : s.fds fd = some (.accepted addr c)) :
    Spared (setConn s fd addr c.hangup) came := by
  intro k hk j hj hup d hd
  rcases mem_conn_setConn hc hd with ⟨-, hcj, rfl⟩ | ⟨-, hdj⟩
  · exact ⟨rfl, (hs k hk j hj hup c hcj).2⟩
  · exact hs k hk j hj hup d hdj

lemma Spared.step (hs : Spared s came) (hclosed : HangsUpClosed s e)
    (hspares : SparesMessages s came e) (hmoves : Moves h s e t) :
    Spared t (delivered s e came) := by
  cases hmoves with
  | head hpc =>
    intro k hk
    split_ifs at hk
  | serve hpc hin hc hr => exact hs.served hpc hc hr
  | serveOther hpc hin hc => rintro k ⟨⟩
  | remove hpc hin hup => exact hs.removed hpc
  | skip hpc hin hup =>
    refine hs.sweepOn hpc rfl (fun j hj => Function.update_of_ne hj _ _) fun j _ d hd => ?_
    rw [sweepOn_conn] at hd
    exact ⟨d, hd, .refl d⟩
  | swept hpc => rintro k ⟨⟩
  | poll hpc => exact .poll hclosed hspares
  | pollFail hpc => rintro k ⟨⟩
  | accept hpc => rintro k ⟨⟩
  | acceptFail hpc => rintro k ⟨⟩
  | deliver hc => exact hs.deliver hc _
  | hangup hc => exact hs.hangup hc
  | signal => exact hs

lemma Spared.removesOnlyRead (hs : Spared s came) : RemovesOnlyRead s came :=
  fun i ⟨hpc, _, hup⟩ c hc => (hs i hpc i (le_refl _) hup c hc).2

lemma removesOnlyRead {listenFd : ℤ} {others : ℤ → Bool}
    (hr : ((server h).observe delivered).Reaches
      (fun p e => PosixEvent p.1 e ∧ HangsUpClosed p.1 e ∧ SparesMessages p.1 p.2 e)
      (initial listenFd others, fun _ => []) (s, came)) : RemovesOnlyRead s came := by
  have hspared : Spared s came := by
    refine hr.invariant (I := fun p => Spared p.1 p.2) (by rintro k ⟨⟩) ?_
    intro a e b ha he hstep
    obtain ⟨hmove, hrecord⟩ := Machine.step_observe hstep
    rw [hrecord]
    exact ha.step he.2.1 he.2.2 (moves_of_step hmove)
  exact hspared.removesOnlyRead

end ScalableServer.PollServer
