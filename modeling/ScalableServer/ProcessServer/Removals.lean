import ScalableServer.ProcessServer.Messages
import ScalableServer.ProcessServer.Waiting

namespace ScalableServer.ProcessServer

open ScalableServer.Foundations ScalableServer.Core

variable {M N : ℕ}

structure Record where
  came : ℕ → List UInt8
  dispatched : ℕ → Bool

namespace Child

variable {h : Host} {pid : ℕ} {conns : ℕ → Conn} {c c' : Child} {e : ChildEvent} {a : Action}

structure Uses (conns : ℕ → Conn) (c c' : Child) (a : Action) : Prop where
  transfer : ∀ id d, a = .transfer id d → c.conn = some id ∧ (conns id).Drains d
  fds : ∀ fd d, c'.fds fd = some d → c.fds fd = some d ∨ ∃ m, a = .recvMsg m ∧ m.descriptor = d

lemma uses_of_fds (hfds : c'.fds = c.fds) (ha : ∀ id d, a ≠ .transfer id d) : c.Uses conns c' a :=
  ⟨fun id d h => (ha id d h).elim, fun fd d hd => .inl (by rwa [← hfds])⟩

lemma uses_of_drains {id : ℕ} {d : Conn} (hfds : c'.fds = c.fds) (hconn : c.conn = some id)
    (hd : (conns id).Drains d) : c.Uses conns c' (.transfer id d) := by
  refine ⟨fun id' d' he => ?_, fun fd x hx => .inl (by rwa [← hfds])⟩
  cases he
  exact ⟨hconn, hd⟩

lemma Steps.uses (hsteps : c.Steps h pid conns e c' a) : c.Uses conns c' a := by
  cases hsteps with
  | @recvMsg m fd hpc hfree =>
    refine ⟨by rintro _ _ ⟨⟩, fun fd' d hd => ?_⟩
    change Function.update c.fds fd (some m.descriptor) fd' = some d at hd
    by_cases hfd : fd' = fd
    · rw [hfd, Function.update_self] at hd
      exact .inr ⟨m, rfl, Option.some.inj hd⟩
    · rw [Function.update_of_ne hfd] at hd
      exact .inl hd
  | header hpc hconn hrecv hlen | headerFail hpc hconn hrecv hlen =>
    exact uses_of_drains rfl hconn (Conn.recv_drains hrecv)
  | @payload prior id n k b t buffer s hpc hconn hbody =>
    have hdrains := payloadBody_drains n ⟨k, b, buffer, conns id⟩
    rw [hbody] at hdrains
    exact uses_of_drains rfl hconn hdrains
  | @payloadFail prior id n k b t buffer err s hpc hconn hbody =>
    have hdrains := payloadBody_drains n ⟨k, b, buffer, conns id⟩
    rw [hbody] at hdrains
    exact uses_of_drains rfl hconn hdrains
  | @reply prior n id k t d hpc hconn hsend =>
    have hdrains := Conn.send_drains (h.wordBytes n) (conns id)
    rw [hsend] at hdrains
    exact uses_of_drains rfl hconn hdrains
  | @replyFail prior n id t err d hpc hconn hsend =>
    have hdrains := Conn.send_drains (h.wordBytes n) (conns id)
    rw [hsend] at hdrains
    exact uses_of_drains rfl hconn hdrains
  | close hpc =>
    refine ⟨by rintro _ _ ⟨⟩, fun fd d hd => .inl ?_⟩
    change Function.update c.fds c.child.clientFdLocal none fd = some d at hd
    by_cases hfd : fd = c.child.clientFdLocal
    · rw [hfd, Function.update_self] at hd
      cases hd
    · rwa [Function.update_of_ne hfd] at hd
  | _ => exact uses_of_fds rfl (by rintro _ _ ⟨⟩)

lemma uses_of_step (hstep : c.step h pid conns e = some (c', a)) : c.Uses conns c' a :=
  (steps_of_step hstep).uses

end Child

namespace Parent

def conn (s : Parent M) (p : Fin M) : Option ℕ :=
  match s.fds (s.client p).fd with
  | some (.accepted _ id) => some id
  | _ => none

def Spared (s : Parent M) (conns : ℕ → Conn) (came : ℕ → List UInt8) : Prop :=
  ∀ k, s.sweepFrom = some k → ∀ p : Fin M, k ≤ p → (s.client p).revents.hangup = true →
    ∀ id ∈ s.conn p, (conns id).closed = true ∧ ¬ MessageUnread (came id) (conns id).unread

variable {s t : Parent M} {conns conns' : ℕ → Conn} {came came' : ℕ → List UInt8} {p q : Fin M}

lemma conn_congr (hd : t.fds (t.client p).fd = s.fds (s.client p).fd) : t.conn p = s.conn p := by
  rw [conn, conn, hd]

lemma Spared.frame (hs : s.Spared conns came)
    (hconns : ∀ id, (conns id).closed = true → (conns id).Drains (conns' id) ∧ came' id = came id) :
    s.Spared conns' came' := by
  intro k hk p hp hup id hid
  obtain ⟨hclosed, hread⟩ := hs k hk p hp hup id hid
  obtain ⟨hdrains, hcame⟩ := hconns id hclosed
  rw [hcame]
  exact ⟨hdrains.closed.trans hclosed, fun hunread => hread (hunread.mono hdrains.unread)⟩

lemma Spared.update {id : ℕ} {d : Conn} {bytes : List UInt8} (hs : s.Spared conns came)
    (hd : (conns id).closed = true → (conns id).Drains d ∧ bytes = came id) :
    s.Spared (Function.update conns id d) (Function.update came id bytes) := by
  refine hs.frame fun id' hclosed => ?_
  by_cases hid : id' = id
  · subst hid
    rw [Function.update_self, Function.update_self]
    exact hd hclosed
  · rw [Function.update_of_ne hid, Function.update_of_ne hid]
    exact ⟨.refl _, rfl⟩

lemma Spared.hand {pc : ParentPc M} (hs : s.Spared conns came)
    (hfrom : (s.goto pc).sweepFrom = s.sweepFrom) : (s.goto pc).Spared conns came :=
  fun k hk => hs k (hfrom ▸ hk)

lemma spared_elsewhere (hs : s.sweepFrom = none) : s.Spared conns came := by
  intro k hk
  rw [hs] at hk
  cases hk

lemma Spared.sweepOn (hs : s.Spared conns came) (hfrom : s.sweepFrom = some (p : ℕ))
    (hclient : ∀ q, q ≠ p → t.client q = s.client q)
    (hconn : ∀ q, q ≠ p → ∀ id ∈ t.conn q, id ∈ s.conn q) : (t.sweepOn p).Spared conns came := by
  -- The sweep goes on after slot `p`; the other slots keep their connections or lose them.
  intro k hk q hq hup id hid
  obtain rfl := Option.some.inj hk
  have hne : q ≠ p := by
    rintro rfl
    omega
  have hsweep : (t.sweepOn p).client q = t.client q := setClient_other hne
  rw [hsweep, hclient q hne] at hup
  have hidt : id ∈ t.conn q := by
    rwa [conn_congr (s := t) (t := t.sweepOn p) (by rw [hsweep]; rfl)] at hid
  exact hs p hfrom q (by omega) hup id (hconn q hne id hidt)

lemma Spared.pHandleSocketAction (hs : s.Spared conns came) (hpc : s.pc = .sweep p) :
    (s.pHandleSocketAction p).Spared conns came := by
  have hfrom : s.sweepFrom = some (p : ℕ) := by rw [sweepFrom, hpc]
  rw [Parent.pHandleSocketAction]
  split_ifs
  · exact hs.hand hfrom.symm
  · have hclient : ∀ q, q ≠ p → (s.pRemoveConnection p).client q = s.client q := fun q hq =>
      Function.update_of_ne hq _ _
    refine hs.sweepOn hfrom hclient fun q hq id hid => ?_
    rw [conn, hclient q hq] at hid
    change (match Function.update s.fds (s.client p).fd none (s.client q).fd with
      | some (.accepted _ id) => some id
      | _ => none) = some id at hid
    by_cases hfd : (s.client q).fd = (s.client p).fd
    · rw [hfd, Function.update_self] at hid
      cases hid
    · rwa [Function.update_of_ne hfd] at hid
  · exact hs.sweepOn hfrom (fun _ _ => rfl) fun _ _ _ hid => hid

lemma Spared.flip (hs : s.Spared conns came) (hpc : s.pc = .flip p) :
    ((s.disable p).sweepOn p).Spared conns came := by
  have hclient : ∀ q, q ≠ p → (s.disable p).client q = s.client q := fun q hq => setClient_other hq
  refine hs.sweepOn (by rw [sweepFrom, hpc]) hclient fun q hq id hid => ?_
  rwa [conn_congr (s := s) (t := s.disable p) (by rw [hclient q hq]; rfl)] at hid

def HangsUpClosed (s : Parent M) (conns : ℕ → Conn) : ParentEvent M → Prop
  | .poll (.ok r) => ∀ p, (r.client p).hangup = true → ∀ id ∈ s.conn p, (conns id).closed = true
  | _ => True

instance (s : Parent M) (conns : ℕ → Conn) : (e : ParentEvent M) → Decidable (s.HangsUpClosed conns e)
  | .poll (.ok r) => inferInstanceAs
      (Decidable (∀ p, (r.client p).hangup = true → ∀ id ∈ s.conn p, (conns id).closed = true))
  | .poll (.error _) | .accept _ | .run | .read _ | .wait _ | .send _ | .post | .signal =>
    .isTrue trivial

def SparesMessages (s : Parent M) (conns : ℕ → Conn) (came : ℕ → List UInt8) :
    ParentEvent M → Prop
  | .poll (.ok r) => r.listen ≠ POLLIN → r.pipe ≠ POLLIN → ∀ p, (r.client p).hangup = true →
      ∀ id ∈ s.conn p, ¬ MessageUnread (came id) (conns id).unread
  | _ => True

def HangsUpDrained (s : Parent M) (conns : ℕ → Conn) : ParentEvent M → Prop
  | .poll (.ok r) => ∀ p, (r.client p).hangup = true → ∀ id ∈ s.conn p,
      (conns id).closed = true ∧ (conns id).unread = []
  | _ => True

instance (s : Parent M) (conns : ℕ → Conn) :
    (e : ParentEvent M) → Decidable (s.HangsUpDrained conns e)
  | .poll (.ok r) => inferInstanceAs (Decidable (∀ p, (r.client p).hangup = true →
      ∀ id ∈ s.conn p, (conns id).closed = true ∧ (conns id).unread = []))
  | .poll (.error _) | .accept _ | .run | .read _ | .wait _ | .send _ | .post | .signal =>
    .isTrue trivial

lemma HangsUpDrained.spares {e : ParentEvent M} (he : s.HangsUpDrained conns e) :
    s.HangsUpClosed conns e ∧ s.SparesMessages conns came e := by
  cases e with
  | poll result =>
    cases result with
    | error err => exact ⟨trivial, trivial⟩
    | ok r => exact ⟨fun p hup id hid => (he p hup id hid).1,
        fun _ _ p hup id hid => not_messageUnread_of_read (he p hup id hid).2⟩
  | _ => exact ⟨trivial, trivial⟩

lemma Spared.step [NeZero M] {e : ParentEvent M} (hs : s.Spared conns came)
    (hclosed : s.HangsUpClosed conns e) (hspares : s.SparesMessages conns came e)
    (hmoves : s.Moves e t) : t.Spared conns came := by
  cases hmoves with
  | head hpc =>
    apply spared_elsewhere
    split_ifs <;> rfl
  | sweep hpc => exact hs.pHandleSocketAction hpc
  | swept hpc => exact spared_elsewhere rfl
  | flip hpc => exact hs.flip hpc
  | @poll r hpc =>
    by_cases hlisten : r.listen = POLLIN
    · rw [if_pos hlisten]
      exact spared_elsewhere rfl
    by_cases hpipe : r.pipe = POLLIN
    · rw [if_neg hlisten, if_pos hpipe]
      exact spared_elsewhere rfl
    intro k _ p _ hup id hid
    exact ⟨hclosed p hup id hid, hspares hlisten hpipe p hup id hid⟩
  | accept hpc => exact spared_elsewhere rfl
  | read hpc => exact spared_elsewhere rfl
  | wait hpc => exact hs.hand (by rw [sweepFrom, sweepFrom, hpc]; rfl)
  | interrupt hpc => exact hs.hand (by rw [sweepFrom, sweepFrom, hpc]; rfl)
  | send hpc hfd => exact hs.hand (by rw [sweepFrom, sweepFrom, hpc]; rfl)
  | post hpc => exact hs.hand (by rw [sweepFrom, sweepFrom, hpc]; rfl)
  | signal => exact hs
  | fail he => exact spared_elsewhere rfl

end Parent

namespace System

def record (s : System M N) (e : Event M N) (r : Record) : Record :=
  match e with
  | .deliver id bytes =>
    if (s.conns id).closed then r
    else { r with came := Function.update r.came id (r.came id ++ bytes) }
  | .parent (.send (.ok ())) =>
    match s.parent.sending.bind s.parent.fds with
    | some (.accepted _ id) => { r with dispatched := Function.update r.dispatched id true }
    | _ => r
  | _ => r

def HangsUpClosed (s : System M N) : Event M N → Prop
  | .parent e => s.parent.HangsUpClosed s.conns e
  | _ => True

def SparesMessages (s : System M N) (r : Record) : Event M N → Prop
  | .parent e => s.parent.SparesMessages s.conns r.came e
  | _ => True

def HangsUpDrained (s : System M N) : Event M N → Prop
  | .parent e => s.parent.HangsUpDrained s.conns e
  | _ => True

instance (s : System M N) : (e : Event M N) → Decidable (s.HangsUpClosed e)
  | .parent e => inferInstanceAs (Decidable (s.parent.HangsUpClosed s.conns e))
  | .child _ _ | .deliver _ _ | .hangup _ => .isTrue trivial

instance (s : System M N) : (e : Event M N) → Decidable (s.HangsUpDrained e)
  | .parent e => inferInstanceAs (Decidable (s.parent.HangsUpDrained s.conns e))
  | .child _ _ | .deliver _ _ | .hangup _ => .isTrue trivial

def RemovesOnlyRead (s : System M N) (r : Record) : Prop :=
  ∀ p, s.parent.RemovalEntered p → ∀ id ∈ s.parent.conn p,
    ¬ MessageUnread (r.came id) (s.conns id).unread ∧
      (MessageCame (r.came id) → r.dispatched id = true)

structure ReadsDispatched (s : System M N) (r : Record) : Prop where
  queued : ∀ m ∈ s.domain, ∀ addr id, m.descriptor = .accepted addr id → r.dispatched id = true
  held : ∀ i fd addr id, (s.children i).fds fd = some (.accepted addr id) → r.dispatched id = true
  read : ∀ id, (s.conns id).unread.length < (r.came id).length → r.dispatched id = true

variable {h : Host} {s s' t : System M N} {r : Record} {i : Fin N} {c : Child} {a : Action}

lemma HangsUpDrained.spares {e : Event M N} (he : s.HangsUpDrained e) :
    s.HangsUpClosed e ∧ s.SparesMessages r e := by
  cases e with
  | parent e => exact Parent.HangsUpDrained.spares he
  | _ => exact ⟨trivial, trivial⟩

lemma act_uses (hact : s.act a = some s') :
    (∀ m ∈ s'.domain, m ∈ s.domain) ∧ (∀ m, a = .recvMsg m → m ∈ s.domain) ∧
      (s'.conns = s.conns ∨
        ∃ id d, a = .transfer id d ∧ s'.conns = Function.update s.conns id d) := by
  cases acts_of_act hact with
  | @recvMsg m rest hdomain =>
    rw [hdomain]
    refine ⟨fun _ hmem => List.mem_cons_of_mem _ hmem, ?_, .inl rfl⟩
    rintro _ ⟨⟩
    exact List.mem_cons_self
  | transfer id d => exact ⟨fun _ hmem => hmem, by rintro _ ⟨⟩, .inr ⟨id, d, rfl, rfl⟩⟩
  | _ => exact ⟨fun _ hmem => hmem, by rintro _ ⟨⟩, .inl rfl⟩

lemma call_uses {e : ParentEvent M} (hcall : s.call e = some s') :
    s'.conns = s.conns ∧ ∀ m ∈ s'.domain, m ∈ s.domain ∨
      e = .send (.ok ()) ∧ s.parent.sending.bind s.parent.fds = some m.descriptor := by
  cases calls_of_call hcall with
  | @send fd d hfd hd =>
    refine ⟨rfl, fun m hm => ?_⟩
    rcases List.mem_append.mp hm with hm | hm
    · exact .inl hm
    · obtain rfl := List.mem_singleton.mp hm
      exact .inr ⟨rfl, by rw [hfd]; exact hd⟩
  | _ => exact ⟨rfl, fun m hm => .inl hm⟩

lemma record_dispatched (s : System M N) (e : Event M N) {id : ℕ} (h : r.dispatched id = true) :
    (s.record e r).dispatched id = true := by
  -- What has been dispatched stays so, and what has come changes only with a delivery.
  unfold record
  split
  · split_ifs <;> exact h
  · split
    · rename_i id' _
      by_cases hid : id = id'
      · rw [hid]
        exact Function.update_self ..
      · exact (Function.update_of_ne hid _ _).trans h
    · exact h
  · exact h

lemma record_came (s : System M N) {e : Event M N} (he : ∀ id bytes, e ≠ .deliver id bytes) :
    (s.record e r).came = r.came := by
  unfold record
  split
  · rename_i id bytes
    exact (he id bytes rfl).elim
  · split <;> rfl
  · rfl

lemma record_sent {d : Descriptor} {addr : SockAddr} {id : ℕ}
    (hd : s.parent.sending.bind s.parent.fds = some d) (hid : d = .accepted addr id) :
    (s.record (.parent (.send (.ok ()))) r).dispatched id = true := by
  simp only [record, hd, hid]
  exact Function.update_self ..

lemma ReadsDispatched.parent [NeZero M] {e : ParentEvent M} (hs : s.ReadsDispatched r)
    (hstep : s.step h (.parent e) = some t) : t.ReadsDispatched (s.record (.parent e) r) := by
  obtain ⟨u, s', -, hcall, rfl⟩ := parent_of_step hstep
  obtain ⟨hconns, hdomain⟩ := call_uses hcall
  refine ⟨fun m hm addr id hd => ?_, fun i fd addr id hfd => ?_, fun id hread => ?_⟩
  · rcases hdomain m hm with hm | ⟨rfl, hsent⟩
    · exact record_dispatched s _ (hs.queued m hm addr id hd)
    · exact record_sent hsent hd
  · have hchildren : s'.children = s.children := (called hcall).children
    change (s'.children i).fds fd = _ at hfd
    rw [hchildren] at hfd
    exact record_dispatched s _ (hs.held i fd addr id hfd)
  · rw [record_came s (by rintro _ _ ⟨⟩)] at hread
    change (s'.conns id).unread.length < _ at hread
    rw [hconns] at hread
    exact record_dispatched s _ (hs.read id hread)

lemma ReadsDispatched.child [NeZero M] {e : ChildEvent} (hs : s.ReadsDispatched r)
    (hstep : s.step h (.child i e) = some t) : t.ReadsDispatched r := by
  obtain ⟨c, a, s', hc, hs', rfl⟩ := acted_of_step hstep
  have huses := Child.uses_of_step hc
  obtain ⟨hdomain, htaken, hconns⟩ := act_uses hs'
  refine ⟨fun m hm => hs.queued m (hdomain m hm), fun j fd addr id hfd => ?_, fun id hread => ?_⟩
  · change (Function.update s'.children i c j).fds fd = _ at hfd
    by_cases hj : j = i
    · rw [hj, Function.update_self] at hfd
      rcases huses.fds fd _ hfd with hfd | ⟨m, rfl, hm⟩
      · exact hs.held i fd addr id hfd
      · exact hs.queued m (htaken m rfl) addr id hm
    · rw [Function.update_of_ne hj, (act_frame hs').2.1] at hfd
      exact hs.held j fd addr id hfd
  · change (s'.conns id).unread.length < _ at hread
    rcases hconns with hconns | ⟨id', d, rfl, hconns⟩
    · rw [hconns] at hread
      exact hs.read id hread
    · obtain ⟨hconn, -⟩ := huses.transfer id' d rfl
      by_cases hid : id = id'
      · rw [Child.conn] at hconn
        split at hconn
        · rename_i addr _ hfd
          obtain rfl := Option.some.inj hconn
          rw [hid]
          exact hs.held i _ addr _ hfd
        · cases hconn
      · rw [hconns, Function.update_of_ne hid] at hread
        exact hs.read id hread

lemma record_deliver (s : System M N) (id : ℕ) (bytes : List UInt8) :
    s.record (.deliver id bytes) r = { r with
      came := Function.update r.came id
        (if (s.conns id).closed then r.came id else r.came id ++ bytes) } := by
  simp only [record]
  split_ifs
  · rw [Function.update_eq_self]
  · rfl

lemma ReadsDispatched.update {id : ℕ} {d : Conn} {bytes : List UInt8} (hs : s.ReadsDispatched r)
    (hd : d.unread.length < bytes.length → (s.conns id).unread.length < (r.came id).length) :
    ReadsDispatched { s with conns := Function.update s.conns id d }
      { r with came := Function.update r.came id bytes } := by
  refine ⟨hs.queued, hs.held, fun id' hread => hs.read id' ?_⟩
  change (Function.update s.conns id d id').unread.length <
    (Function.update r.came id bytes id').length at hread
  by_cases hid : id' = id
  · subst hid
    rw [Function.update_self, Function.update_self] at hread
    exact hd hread
  · rwa [Function.update_of_ne hid, Function.update_of_ne hid] at hread

structure Reading (s : System M N) (r : Record) : Prop where
  spared : s.parent.Spared s.conns r.came
  dispatched : s.ReadsDispatched r

lemma Reading.step [NeZero M] {e : Event M N} (hs : s.Reading r) (hclosed : s.HangsUpClosed e)
    (hspares : s.SparesMessages r e) (hstep : s.step h e = some t) :
    t.Reading (s.record e r) := by
  cases e with
  | parent e =>
    refine ⟨?_, hs.dispatched.parent hstep⟩
    obtain ⟨u, s', hu, hcall, rfl⟩ := parent_of_step hstep
    change u.Spared s'.conns _
    rw [(call_uses hcall).1, record_came s (by rintro _ _ ⟨⟩)]
    exact hs.spared.step hclosed hspares (Parent.moves_of_step hu)
  | child i e =>
    refine ⟨?_, hs.dispatched.child hstep⟩
    obtain ⟨c, a, s', hc, hs', rfl⟩ := acted_of_step hstep
    change s'.parent.Spared s'.conns r.came
    rw [(act_frame hs').1]
    rcases (act_uses hs').2.2 with hconns | ⟨id, d, rfl, hconns⟩
    · rw [hconns]
      exact hs.spared
    · rw [hconns, ← Function.update_eq_self id r.came]
      exact hs.spared.update fun _ => ⟨((Child.uses_of_step hc).transfer id d rfl).2, rfl⟩
  | deliver id bytes =>
    obtain rfl := Option.some.inj hstep
    rw [record_deliver]
    refine ⟨hs.spared.update fun hclosed => ?_, hs.dispatched.update fun hread => ?_⟩
    · rw [Conn.deliver_of_closed bytes hclosed, if_pos hclosed]
      exact ⟨.refl _, rfl⟩
    · rw [Conn.deliver] at hread
      split_ifs at hread
      · exact hread
      · simpa using hread
  | hangup id =>
    obtain rfl := Option.some.inj hstep
    have hrecord : s.record (.hangup id) r =
        { r with came := Function.update r.came id (r.came id) } := by
      rw [Function.update_eq_self]
      rfl
    rw [hrecord]
    exact ⟨hs.spared.update fun hclosed => ⟨⟨le_refl _, hclosed.symm⟩, rfl⟩,
      hs.dispatched.update fun hread => hread⟩

lemma Reading.removesOnlyRead (hs : s.Reading r) : s.RemovesOnlyRead r := by
  intro p hr id hid
  obtain ⟨hpc, -, hup⟩ := hr
  have hfrom : s.parent.sweepFrom = some (p : ℕ) := by rw [Parent.sweepFrom, hpc]
  have hread := (hs.spared p hfrom p (le_refl _) hup id hid).2
  exact ⟨hread, fun hcame => hs.dispatched.read id (hcame.shorter hread)⟩

lemma initial_reading (listenFd pipeFd : ℤ) (others childOthers : ℤ → Bool) (conns : ℕ → Conn) :
    (initial listenFd pipeFd others childOthers conns : System M N).Reading
      ⟨fun id => (conns id).unread, fun _ => false⟩ := by
  refine ⟨Parent.spared_elsewhere rfl, ⟨fun m hm => ?_, fun i fd addr id hfd => ?_, fun id hread => ?_⟩⟩
  · cases hm
  · change (if childOthers fd then some Descriptor.other else none) = _ at hfd
    split_ifs at hfd
    cases hfd
  · exact (lt_irrefl _ hread).elim

lemma removesOnlyRead [NeZero M] {listenFd pipeFd : ℤ} {others childOthers : ℤ → Bool}
    {conns : ℕ → Conn}
    (hr : ((machine h).observe record).Reaches
      (fun p e => p.1.PosixEvent e ∧ p.1.HangsUpClosed e ∧ p.1.SparesMessages p.2 e)
      (initial listenFd pipeFd others childOthers conns,
        ⟨fun id => (conns id).unread, fun _ => false⟩) (s, r)) : s.RemovesOnlyRead r := by
  have hreading : s.Reading r := by
    refine hr.invariant (I := fun p => p.1.Reading p.2) (initial_reading ..) ?_
    intro a e b ha he hstep
    obtain ⟨hmove, hrecord⟩ := Machine.step_observe hstep
    rw [hrecord]
    exact ha.step he.2.1 he.2.2 hmove
  exact hreading.removesOnlyRead

end System

end ScalableServer.ProcessServer
