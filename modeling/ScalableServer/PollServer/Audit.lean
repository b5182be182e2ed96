import ScalableServer.Core.Audit
import ScalableServer.PollServer.Attribution

/-! The connections are numbered in the order in which they are accepted, as a descriptor can be
that of several. -/

namespace ScalableServer.PollServer

open ScalableServer.Foundations ScalableServer.Core

structure Audit where
  conn : ℤ → ℕ := fun _ => 0
  next : ℕ := 0
  logged : List Entry := []

def Server.servedFd (s : Server) : ℤ :=
  match s.pc with
  | .comm k => if hk : k < maxConnections then (s.pollfds.client ⟨k, hk⟩).fd else 0
  | _ => 0

def Server.headerLength (s : Server) : ℕ :=
  match s.fds s.servedFd with
  | some (.accepted _ c) =>
    match c.recv 4 with
    | some (.ok header, _) => header.length
    | _ => 0
  | _ => 0

def noteAudit (h : Host) (s : Server) (e : Event) (g : Audit) : Audit :=
  match e with
  | .accept (.ok (fd, _, _)) =>
    { g with conn := Function.update g.conn fd g.next, next := g.next + 1 }
  | .run _ _ =>
    { g with
      logged := g.logged ++ ((step h s e).map fun t => (t.rows.drop s.rows.length).map fun row =>
        ⟨g.conn s.servedFd, s.headerLength, row.bytes⟩).getD [] }
  | _ => g

def RepliesWhole : Option Descriptor → Prop
  | some (.accepted _ c) => 4 ≤ c.sends.head.amount
  | _ => True

instance : (d : Option Descriptor) → Decidable (RepliesWhole d)
  | some (.accepted _ _) => inferInstanceAs (Decidable (_ ≤ _))
  | some .other | none => .isTrue trivial

def AuditEvent (s : Server) : Event → Prop
  | .accept (.ok (_, _, c)) => c.position = 0 ∧ c.sent = []
  | .run _ _ => RepliesWhole (s.fds s.servedFd)
  | _ => True

instance (s : Server) : (e : Event) → Decidable (AuditEvent s e)
  | .accept (.ok (_, _, _)) => inferInstanceAs (Decidable (_ ∧ _))
  | .run _ _ => inferInstanceAs (Decidable (RepliesWhole _))
  | .accept (.error _) | .poll _ | .deliver _ _ | .hangup _ | .signal => .isTrue trivial

structure Accounted (s : Server) (g : Audit) : Prop where
  rows : s.rows.map LogRow.bytes = g.logged.map Entry.bytes
  taken : ∀ fd addr c, s.fds fd = some (.accepted addr c) →
    ∃ w, c.position = taken (g.conn fd) g.logged + 2 ^ 32 * w
  sent : ∀ fd addr c, s.fds fd = some (.accepted addr c) → c.sent = replies (g.conn fd) g.logged

def Open (s : Server) (fd : ℤ) : Prop := ∃ addr c, s.fds fd = some (.accepted addr c)

structure Numbered (s : Server) (g : Audit) : Prop where
  old : ∀ fd, Open s fd → g.conn fd < g.next
  injective : ∀ fd fd', Open s fd → Open s fd' → g.conn fd = g.conn fd' → fd = fd'
  logged : ∀ x ∈ g.logged, x.conn < g.next

variable {h : Host} {s t : Server} {g : Audit} {e : Event} {c : Conn} {r : Handled} {so : StateObject}
  {i : Fin maxConnections} {prior : ℕ} {ti : Timing}

lemma counts_of_pollRecvAndLog (hr : pollRecvAndLog h so i prior ti c = some r) (hret : r.ret ≠ -1)
    (hwhole : 4 ≤ c.sends.head.amount) :
    ∃ header d n w, c.recv 4 = some (.ok header, d) ∧ r.rows = [log h so i n ti] ∧
      r.conn.position = c.position + (header.length + n) + 2 ^ 32 * w ∧
      r.conn.sent = c.sent ++ bigEndian 4 n := by
  rw [pollRecvAndLog] at hr
  split at hr
  · cases hr
  · obtain rfl := Option.some.inj hr
    exact (hret rfl).elim
  · rename_i header d hrecv
    obtain ⟨hheader, hsends⟩ := counts_of_recv hrecv
    simp only at hr
    split_ifs at hr
    · obtain rfl := Option.some.inj hr
      exact (hret rfl).elim
    · split at hr
      · cases hr
      · obtain rfl := Option.some.inj hr
        exact (hret rfl).elim
      · rename_i s hloop
        obtain ⟨n, hcounts, hread, hsends'⟩ := counts_of_payloadLoop rfl hloop
        split at hr
        · obtain rfl := Option.some.inj hr
          exact (hret rfl).elim
        · rename_i k d' hsend
          obtain rfl := Option.some.inj hr
          have hwhole' : 4 ≤ s.conn.sends.head.amount := by
            rw [hsends', hsends]
            exact hwhole
          obtain ⟨hposition, hsent⟩ := send_whole (h.wordBytes_length s.bytesRead) hwhole' hsend
          have hsplit := Nat.mod_add_div n (2 ^ 32)
          refine ⟨header, d, s.bytesRead, n / 2 ^ 32, hrecv, rfl, ?_, ?_⟩
          · have hall := (hheader.trans hcounts).position
            change d'.position = _
            omega
          · change d'.sent = _
            rw [hsent, (hheader.trans hcounts).sent, h.wordBytes_eq]

lemma Server.servedFd_eq (hpc : s.pc = .comm i) : s.servedFd = (s.pollfds.client i).fd := by
  rw [servedFd, hpc]
  exact dif_pos i.isLt

lemma noteAudit_run {rows : List LogRow} (hstep : step h s (.run prior ti) = some t)
    (hrows : t.rows = s.rows ++ rows) :
    noteAudit h s (.run prior ti) g = { g with
      logged := g.logged ++ rows.map fun row => ⟨g.conn s.servedFd, s.headerLength, row.bytes⟩ } := by
  rw [noteAudit, hstep, Option.map_some, Option.getD_some, hrows, List.drop_left]

lemma noteAudit_quiet (hstep : step h s (.run prior ti) = some t) (hrows : t.rows = s.rows) :
    noteAudit h s (.run prior ti) g = g := by
  rw [noteAudit_run hstep (hrows.trans (List.append_nil _).symm), List.map_nil, List.append_nil]

lemma Accounted.quiet (ha : Accounted s g) (hn : Numbered s g) (hrows : t.rows = s.rows)
    (hfds : ∀ fd addr d, t.fds fd = some (.accepted addr d) →
      ∃ c, s.fds fd = some (.accepted addr c) ∧ Counts c 0 d) : Accounted t g ∧ Numbered t g := by
  have hopen : ∀ fd, Open t fd → Open s fd := by
    rintro fd ⟨addr, d, hd⟩
    obtain ⟨c, hc, -⟩ := hfds fd addr d hd
    exact ⟨addr, c, hc⟩
  refine ⟨⟨hrows ▸ ha.rows, fun fd addr d hd => ?_, fun fd addr d hd => ?_⟩,
    ⟨fun fd hfd => hn.old fd (hopen fd hfd), fun fd fd' hfd hfd' =>
      hn.injective fd fd' (hopen fd hfd) (hopen fd' hfd'), hn.logged⟩⟩
  · obtain ⟨c, hc, hcounts⟩ := hfds fd addr d hd
    rw [hcounts.position]
    exact ha.taken fd addr c hc
  · obtain ⟨c, hc, hcounts⟩ := hfds fd addr d hd
    rw [hcounts.sent]
    exact ha.sent fd addr c hc

lemma accepted_of_setConn {fd : ℤ} {addr : SockAddr} {d : Conn}
    (hc : s.fds fd = some (.accepted addr c)) (hd : Counts c 0 d) (fd' : ℤ) (addr' : SockAddr)
    (d' : Conn) (hd' : (setConn s fd addr d).fds fd' = some (.accepted addr' d')) :
    ∃ c', s.fds fd' = some (.accepted addr' c') ∧ Counts c' 0 d' := by
  change Function.update s.fds fd _ fd' = _ at hd'
  by_cases hfd : fd' = fd
  · rw [hfd, Function.update_self] at hd'
    obtain ⟨rfl, rfl⟩ := Descriptor.accepted.inj (Option.some.inj hd')
    exact ⟨c, hfd ▸ hc, hd⟩
  · rw [Function.update_of_ne hfd] at hd'
    exact ⟨d', hd', .refl d'⟩

lemma Accounted.accept {fd : ℤ} {addr : SockAddr} (ha : Accounted s g) (hn : Numbered s g)
    (hfresh : c.position = 0 ∧ c.sent = []) :
    Accounted { pollAccept s fd addr c with pc := .head }
        { g with conn := Function.update g.conn fd g.next, next := g.next + 1 } ∧
      Numbered { pollAccept s fd addr c with pc := .head }
        { g with conn := Function.update g.conn fd g.next, next := g.next + 1 } := by
  -- no entry has the number of the new connection
  have hnone : ∀ x ∈ g.logged, x.conn ≠ g.next := fun x hx => (hn.logged x hx).ne
  have hopen : ∀ fd', fd' ≠ fd → Open { pollAccept s fd addr c with pc := .head } fd' →
      Open s fd' := by
    rintro fd' hfd' ⟨addr', d, hd⟩
    change Function.update s.fds fd _ fd' = _ at hd
    rw [Function.update_of_ne hfd'] at hd
    exact ⟨addr', d, hd⟩
  refine ⟨⟨ha.rows, fun fd' addr' d hd => ?_, fun fd' addr' d hd => ?_⟩,
    ⟨fun fd' hfd' => ?_, fun fd' fd'' hfd' hfd'' heq => ?_, fun x hx => ?_⟩⟩
  · change Function.update s.fds fd _ fd' = _ at hd
    change ∃ w, d.position = Core.taken (Function.update g.conn fd g.next fd') g.logged + 2 ^ 32 * w
    by_cases hfd : fd' = fd
    · rw [hfd, Function.update_self] at hd ⊢
      obtain ⟨-, rfl⟩ := Descriptor.accepted.inj (Option.some.inj hd)
      exact ⟨0, by rw [hfresh.1, taken_eq_zero hnone]; rfl⟩
    · rw [Function.update_of_ne hfd] at hd ⊢
      exact ha.taken fd' addr' d hd
  · change Function.update s.fds fd _ fd' = _ at hd
    change d.sent = replies (Function.update g.conn fd g.next fd') g.logged
    by_cases hfd : fd' = fd
    · rw [hfd, Function.update_self] at hd ⊢
      obtain ⟨-, rfl⟩ := Descriptor.accepted.inj (Option.some.inj hd)
      rw [hfresh.2, replies_eq_nil hnone]
    · rw [Function.update_of_ne hfd] at hd ⊢
      exact ha.sent fd' addr' d hd
  · change Function.update g.conn fd g.next fd' < g.next + 1
    by_cases hfd : fd' = fd
    · rw [hfd, Function.update_self]
      exact Nat.lt_succ_self _
    · rw [Function.update_of_ne hfd]
      exact (hn.old fd' (hopen fd' hfd hfd')).trans (Nat.lt_succ_self _)
  · change Function.update g.conn fd g.next fd' = Function.update g.conn fd g.next fd'' at heq
    by_cases hfd : fd' = fd <;> by_cases hfd₂ : fd'' = fd
    · rw [hfd, hfd₂]
    · rw [hfd, Function.update_self, Function.update_of_ne hfd₂] at heq
      exact ((hn.old fd'' (hopen fd'' hfd₂ hfd'')).ne heq.symm).elim
    · rw [hfd₂, Function.update_self, Function.update_of_ne hfd] at heq
      exact ((hn.old fd' (hopen fd' hfd hfd')).ne heq).elim
    · rw [Function.update_of_ne hfd, Function.update_of_ne hfd₂] at heq
      exact hn.injective fd' fd'' (hopen fd' hfd hfd') (hopen fd'' hfd₂ hfd'') heq
  · exact (hn.logged x hx).trans (Nat.lt_succ_self _)

lemma Accounted.serve {addr : SockAddr} (ha : Accounted s g) (hn : Numbered s g) (hpc : s.pc = .comm i)
    (hc : s.fds (s.pollfds.client i).fd = some (.accepted addr c))
    (hr : pollRecvAndLog h s.so i prior ti c = some r) (hret : r.ret ≠ -1)
    (hwhole : 4 ≤ c.sends.head.amount) (hstep : step h s (.run prior ti) = some (served s i addr r)) :
    Accounted (served s i addr r) (noteAudit h s (.run prior ti) g) ∧
      Numbered (served s i addr r) (noteAudit h s (.run prior ti) g) := by
  obtain ⟨header, d, n, w, hrecv, hrows, hposition, hsent⟩ := counts_of_pollRecvAndLog hr hret hwhole
  have hlength : s.headerLength = header.length := by
    simp only [Server.headerLength, Server.servedFd_eq hpc, hc, hrecv]
  have hnote : noteAudit h s (.run prior ti) g = { g with
      logged := g.logged ++ [⟨g.conn (s.pollfds.client i).fd, header.length, n⟩] } := by
    rw [noteAudit_run hstep (served_rows s i addr r), hrows, Server.servedFd_eq hpc, hlength]
    rfl
  have hfds : (served s i addr r).fds =
      Function.update s.fds (s.pollfds.client i).fd (some (.accepted addr r.conn)) := by
    rw [served]
    split_ifs <;> rfl
  have hopen : ∀ fd, Open (served s i addr r) fd → Open s fd := by
    rintro fd ⟨addr', d', hd'⟩
    rw [hfds] at hd'
    by_cases hfd : fd = (s.pollfds.client i).fd
    · exact ⟨addr, c, hfd ▸ hc⟩
    · rw [Function.update_of_ne hfd] at hd'
      exact ⟨addr', d', hd'⟩
  -- the entry is of the served connection and of no other open one
  have hother : ∀ fd, Open s fd → fd ≠ (s.pollfds.client i).fd →
      g.conn (s.pollfds.client i).fd ≠ g.conn fd := fun fd hfd hne heq =>
    hne (hn.injective _ _ ⟨addr, c, hc⟩ hfd heq).symm
  rw [hnote]
  refine ⟨⟨?_, fun fd addr' d' hd' => ?_, fun fd addr' d' hd' => ?_⟩,
    ⟨fun fd hfd => hn.old fd (hopen fd hfd), fun fd fd' hfd hfd' =>
      hn.injective fd fd' (hopen fd hfd) (hopen fd' hfd'), fun x hx => ?_⟩⟩
  · rw [served_rows, hrows, List.map_append, List.map_append, ha.rows]
    rfl
  · rw [← Multiset.coe_add, taken_add, Multiset.coe_singleton, taken_singleton]
    rw [hfds] at hd'
    by_cases hfd : fd = (s.pollfds.client i).fd
    · rw [hfd, Function.update_self] at hd'
      obtain ⟨-, rfl⟩ := Descriptor.accepted.inj (Option.some.inj hd')
      obtain ⟨w', hw'⟩ := ha.taken _ addr c hc
      rw [hfd, Entry.size, if_pos rfl, hposition, hw']
      exact ⟨w + w', by dsimp only; omega⟩
    · rw [Function.update_of_ne hfd] at hd'
      rw [Entry.size, if_neg (hother fd ⟨addr', d', hd'⟩ hfd)]
      exact ha.taken fd addr' d' hd'
  · rw [replies_append]
    rw [hfds] at hd'
    by_cases hfd : fd = (s.pollfds.client i).fd
    · rw [hfd, Function.update_self] at hd'
      obtain ⟨-, rfl⟩ := Descriptor.accepted.inj (Option.some.inj hd')
      rw [hfd, hsent, ha.sent _ addr c hc]
      simp [replies]
    · rw [Function.update_of_ne hfd] at hd'
      have hnone : replies (g.conn fd) [⟨g.conn (s.pollfds.client i).fd, header.length, n⟩] = [] :=
        replies_eq_nil (by simpa using hother fd ⟨addr', d', hd'⟩ hfd)
      rw [ha.sent fd addr' d' hd', hnone, List.append_nil]
  · rcases List.mem_append.mp hx with hx | hx
    · exact hn.logged x hx
    · rw [List.mem_singleton.mp hx]
      exact hn.old _ ⟨addr, c, hc⟩

lemma Accounted.step (ha : s.pc ≠ .returned (-1) → Accounted s g ∧ Numbered s g)
    (he : AuditEvent s e) (hstep : PollServer.step h s e = some t) (ht : t.pc ≠ .returned (-1)) :
    Accounted t (noteAudit h s e g) ∧ Numbered t (noteAudit h s e g) := by
  have hat : ∀ {pc : Pc}, s.pc = pc → pc ≠ .returned (-1) → Accounted s g ∧ Numbered s g := fun hpc hne =>
    ha (hpc ▸ hne)
  have hsame : ∀ fd addr d, s.fds fd = some (.accepted addr d) →
      ∃ c, s.fds fd = some (.accepted addr c) ∧ Counts c 0 d := fun _ _ d hd => ⟨d, hd, .refl d⟩
  cases moves_of_step hstep with
  | head hpc | swept hpc =>
    obtain ⟨has, hns⟩ := hat hpc (by rintro ⟨⟩)
    rw [noteAudit_quiet hstep rfl]
    exact has.quiet hns rfl hsame
  | @serve _ _ i addr c r hpc hin hc hr =>
    obtain ⟨has, hns⟩ := hat hpc (by rintro ⟨⟩)
    have hret : r.ret ≠ -1 := by
      intro hret
      refine ht ?_
      rw [served, if_pos hret]
    rw [AuditEvent, Server.servedFd_eq hpc, hc] at he
    exact has.serve hns hpc hc hr hret he hstep
  | serveOther hpc hin hc => exact (ht rfl).elim
  | @remove _ _ i hpc hin hup =>
    obtain ⟨has, hns⟩ := hat hpc (by rintro ⟨⟩)
    rw [noteAudit_quiet hstep rfl]
    refine has.quiet hns rfl fun fd addr d hd => ⟨d, ?_, .refl d⟩
    change Function.update s.fds (s.pollfds.client i).fd none fd = _ at hd
    by_cases hfd : fd = (s.pollfds.client i).fd
    · rw [hfd, Function.update_self] at hd
      cases hd
    · rwa [Function.update_of_ne hfd] at hd
  | skip hpc hin hup =>
    obtain ⟨has, hns⟩ := hat hpc (by rintro ⟨⟩)
    rw [noteAudit_quiet hstep rfl]
    exact has.quiet hns rfl hsame
  | poll hpc | pollFail hpc | acceptFail hpc =>
    obtain ⟨has, hns⟩ := hat hpc (by rintro ⟨⟩)
    exact has.quiet hns rfl hsame
  | accept hpc =>
    obtain ⟨has, hns⟩ := hat hpc (by rintro ⟨⟩)
    exact has.accept hns he
  | @deliver fd bytes addr c hc =>
    obtain ⟨has, hns⟩ := ha ht
    exact has.quiet hns rfl (accepted_of_setConn hc (counts_deliver bytes c))
  | @hangup fd addr c hc =>
    obtain ⟨has, hns⟩ := ha ht
    exact has.quiet hns rfl (accepted_of_setConn hc (counts_hangup c))
  | signal =>
    obtain ⟨has, hns⟩ := ha ht
    exact has.quiet hns rfl hsame

lemma accounted {listenFd : ℤ} {others : ℤ → Bool}
    (hr : ((server h).observe (noteAudit h)).Reaches (fun p e => AuditEvent p.1 e)
      (initial listenFd others, {}) (s, g)) (hpc : s.pc ≠ .returned (-1)) : Accounted s g := by
  have hnone : ∀ fd, ¬ Open (initial listenFd others) fd := by
    rintro fd ⟨addr, c, hc⟩
    change (if others fd then some Descriptor.other else none) = _ at hc
    split_ifs at hc
    cases hc
  have hstart : Accounted (initial listenFd others) {} ∧ Numbered (initial listenFd others) {} :=
    ⟨⟨rfl, fun fd addr c hc => (hnone fd ⟨addr, c, hc⟩).elim, fun fd addr c hc =>
      (hnone fd ⟨addr, c, hc⟩).elim⟩, ⟨fun fd hfd => (hnone fd hfd).elim, fun fd _ hfd =>
      (hnone fd hfd).elim, fun x hx => (List.not_mem_nil hx).elim⟩⟩
  have hinv : s.pc ≠ .returned (-1) → Accounted s g ∧ Numbered s g := by
    refine hr.invariant
      (I := fun q => q.1.pc ≠ .returned (-1) → Accounted q.1 q.2 ∧ Numbered q.1 q.2)
      (fun _ => hstart) ?_
    rintro a e b ha he hstep hb
    obtain ⟨hab, hg⟩ := Machine.step_observe hstep
    rw [hg]
    exact Accounted.step ha he hab hb
  exact (hinv hpc).1

end ScalableServer.PollServer
