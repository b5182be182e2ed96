import ScalableServer.ProcessServer.Handoff
import ScalableServer.ProcessServer.Restart
import ScalableServer.ProcessServer.Settling

namespace ScalableServer.ProcessServer

open ScalableServer.Foundations ScalableServer.Core

variable {M N : ℕ}

structure Willing (c : Conn) : Prop where
  recvs : Writable c.recvs
  sends : Writable c.sends

lemma Willing.recv {c d : Conn} {req : ℕ} {r : Except Errno (List UInt8)} (hc : Willing c)
    (h : c.recv req = some (r, d)) : Willing d := by
  have hreceives := Conn.receives_of_recv h
  exact ⟨hreceives.recvs ▸ hc.recvs.tail, hreceives.sends ▸ hc.sends⟩

lemma Willing.payload {n : ℕ} {s : PayloadLoop} (hs : Willing s.conn) :
    (payloadBody n s).Keeps (fun t => Willing t.conn) fun r => Willing r.2.conn := by
  rw [payloadBody]
  split_ifs
  · cases hrecv : s.conn.recv sizeofBuffer with
    | none => trivial
    | some r =>
      obtain ⟨r, d⟩ := r
      cases r with
      | error e => exact hs.recv hrecv
      | ok bs => exact hs.recv hrecv
  · exact hs

lemma Willing.payload_ok {n : ℕ} {s s' : PayloadLoop} {r : Except Errno Unit} (hs : Willing s.conn)
    (h : payloadBody n s = .done (r, s')) : r = .ok () := by
  rw [payloadBody] at h
  split_ifs at h
  · cases hrecv : s.conn.recv sizeofBuffer with
    | none =>
      rw [hrecv] at h
      cases h
    | some r =>
      obtain ⟨r, d⟩ := r
      obtain ⟨bs, rfl⟩ := Conn.recv_ok hs.recvs hrecv
      rw [hrecv] at h
      cases h
  · cases h
    rfl

lemma Willing.blocked_iff {n : ℕ} {s : PayloadLoop} (hs : Willing s.conn) :
    payloadBody n s = .blocked ↔
      (s.bytesRead < n ∧ s.bytes ≠ 0) ∧ s.conn.unread = [] ∧ s.conn.closed = false := by
  rw [payloadBody]
  split_ifs with hgo
  · rw [and_iff_right hgo, ← Conn.recv_eq_none_iff sizeofBuffer hs.recvs]
    cases hrecv : s.conn.recv sizeofBuffer with
    | none => exact iff_of_true rfl rfl
    | some r =>
      obtain ⟨r, d⟩ := r
      obtain ⟨bs, rfl⟩ := Conn.recv_ok hs.recvs hrecv
      exact iff_of_false (by rintro ⟨⟩) (by rintro ⟨⟩)
  · exact iff_of_false (by rintro ⟨⟩) fun hwait => hgo hwait.1

namespace Child

def Serving (c : Child) : Prop :=
  match c.pc with
  | .postWrite received => received = true
  | .peerName | .header | .payload _ _ _ _ | .waitPipe _ | .writePipe _ | .waitLog _ | .postLog _
  | .reply _ => True
  | _ => False

def Receiving (c : Child) (id : ℕ) : Prop :=
  c.conn = some id ∧ (c.pc = .header ∨
    ∃ n k b buffer, c.pc = .payload n k b buffer ∧ k < n ∧ b ≠ 0)

def Joined (c : Child) : Prop :=
  ∃ addr id, c.fds c.child.clientFdLocal = some (.accepted addr id)

variable {h : Host} {pid : ℕ} {conns : ℕ → Conn} {c c' : Child} {e : ChildEvent} {a : Action}

lemma Receiving.phase {id : ℕ} (hc : c.Receiving id) :
    c.phase = .holding c.message := by
  obtain ⟨-, hpc | ⟨n, k, b, buffer, hpc, -⟩⟩ := hc <;> rw [Child.phase, hpc]

lemma Steps.joined (hsteps : c.Steps h pid conns e c' a)
    (hm : ∀ m, a = .recvMsg m → ∃ addr id, m.descriptor = .accepted addr id)
    (hc : c.Serving → c.Joined) : c'.Serving → c'.Joined := by
  intro hserving
  have hsame : c.Serving → c'.fds = c.fds → c'.child.clientFdLocal = c.child.clientFdLocal →
      c'.Joined := by
    intro hserving hfds hlocal
    rw [Joined, hfds, hlocal]
    exact hc hserving
  cases hsteps with
  | @recvMsg m fd socklen hpc hfd =>
    obtain ⟨addr, id, hd⟩ := hm m rfl
    refine ⟨addr, id, ?_⟩
    change Function.update c.fds fd (some m.descriptor) fd = _
    rw [Function.update_self, hd]
  | @postWrite received hpc =>
    cases received with
    | false => cases hserving
    | true => exact hsame (by rw [Serving, hpc]) rfl rfl
  | @interrupted err next hpc =>
    obtain ⟨hpc, rfl⟩ | ⟨n, hpc, rfl⟩ | ⟨n, hpc, rfl⟩ := hpc
    · rw [failWith] at hserving
      split_ifs at hserving <;> exact hserving.elim
    · exact hsame (by rw [Serving, hpc]; trivial) rfl rfl
    · exact hsame (by rw [Serving, hpc]; trivial) rfl rfl
  | signal => exact hsame hserving rfl rfl
  | recvMsgFail => cases hserving
  | unconnected | headerFail | payloadFail | replyFail | callFail | start | leave | waitRead | reply
  | close => exact hserving.elim
  | peerName hpc | header hpc | payload hpc | payloadEnd hpc | waitPipe hpc | writePipe hpc
  | waitLog hpc | postLog hpc =>
    exact hsame (by rw [Serving, hpc]; trivial) rfl rfl

lemma Steps.holes (hsteps : c.Steps h pid conns e c' a) (hc : {fd | c.fds fd ≠ none}.Finite) :
    {fd | c'.fds fd ≠ none}.Finite := by
  have hupdate : ∀ fd d, {g | Function.update c.fds fd d g ≠ none}.Finite := by
    intro fd d
    refine (hc.insert fd).subset fun g hg => ?_
    by_cases hgfd : g = fd
    · exact .inl hgfd
    · exact .inr (by simpa [Function.update_of_ne hgfd] using hg)
  cases hsteps with
  | recvMsg => exact hupdate _ _
  | close => exact hupdate _ _
  | _ => exact hc

lemma Steps.willing (hsteps : c.Steps h pid conns e c' a) (hconns : ∀ id, Willing (conns id)) :
    ∀ id d, a = .transfer id d → Willing d := by
  rintro id d rfl
  cases hsteps with
  | header hpc hconn hrecv hlen => exact (hconns id).recv hrecv
  | headerFail hpc hconn hrecv hlen => exact (hconns id).recv hrecv
  | @payload prior _ n k b t buffer s hpc hconn hbody =>
    have hkeeps := Willing.payload (n := n) (s := ⟨k, b, buffer, conns id⟩) (hconns id)
    rwa [hbody] at hkeeps
  | @payloadFail prior _ n k b t buffer err s hpc hconn hbody =>
    have hkeeps := Willing.payload (n := n) (s := ⟨k, b, buffer, conns id⟩) (hconns id)
    rwa [hbody] at hkeeps
  | @reply prior n _ k t _ hpc hconn hsend =>
    have hd : d = ((conns id).send (h.wordBytes n)).2 := by rw [hsend]
    exact hd ▸ ⟨(hconns id).recvs, (hconns id).sends.tail⟩
  | @replyFail prior n _ t err _ hpc hconn hsend =>
    have hd : d = ((conns id).send (h.wordBytes n)).2 := by rw [hsend]
    exact hd ▸ ⟨(hconns id).recvs, (hconns id).sends.tail⟩

end Child

namespace System

/-- `poll` reports the pipe only when it holds a number. -/
def PipeReported (s : System M N) : Event M N → Prop
  | .parent (.poll (.ok r)) => r.pipe = POLLIN → s.pipe ≠ []
  | _ => True

instance (s : System M N) : (e : Event M N) → Decidable (s.PipeReported e)
  | .parent (.poll (.ok _)) => inferInstanceAs (Decidable (_ → _))
  | .parent (.poll (.error _)) | .parent .run | .parent (.accept _) | .parent (.read _)
  | .parent (.wait _) | .parent (.send _) | .parent .post | .parent .signal | .child _ _
  | .deliver _ _ | .hangup _ => .isTrue trivial

structure Steady (s : System M N) : Prop where
  consistent : s.Consistent
  balanced : s.Balanced
  joined : ∀ i, (s.children i).Serving → (s.children i).Joined
  accepted : ∀ m ∈ s.domain, ∃ addr id, m.descriptor = .accepted addr id
  reading : s.parent.pc = .readPipe → s.pipe ≠ []
  holes : ∀ i, {fd | (s.children i).fds fd ≠ none}.Finite
  willing : ∀ id, Willing (s.conns id)

variable {h : Host} {s s' t : System M N} {i : Fin N} {c : Child} {a : Action}

lemma initial_steady [NeZero M] {childOthers : ℤ → Bool} (hchild : {fd | childOthers fd = true}.Finite)
    {conns : ℕ → Conn} (hconns : ∀ id, Willing (conns id)) (listenFd pipeFd : ℤ)
    (others : ℤ → Bool) :
    (initial listenFd pipeFd others childOthers conns : System M N).Steady where
  consistent := initial_consistent _ _ _ _ _
  balanced := initial_balanced _ _ _ _ _
  joined _ hserving := hserving.elim
  accepted m hm := (List.not_mem_nil hm).elim
  reading := by rintro ⟨⟩
  holes i := by
    refine hchild.subset fun fd hfd => ?_
    change (if childOthers fd then some Descriptor.other else none) ≠ none at hfd
    by_contra hno
    exact hfd (if_neg hno)
  willing := hconns

lemma callFails_of_handOverFails {e : Event M N} (he : s.HandOverFails e) : s.CallFails h e := by
  refine .inr ?_
  rcases he with hreceive | hsend
  · cases e with
    | parent e =>
      cases e with
      | read r =>
        cases r with
        | error err => rfl
        | ok n => exact hreceive.elim
      | _ => exact hreceive.elim
    | child i e =>
      cases e with
      | fail err =>
        change (s.children i).pc = .recvMsg at hreceive
        exact decide_eq_true (by rw [hreceive]; rintro ⟨⟩)
      | _ => exact hreceive.elim
    | _ => exact hreceive.elim
  · cases e with
    | parent e =>
      cases e with
      | send r =>
        cases r with
        | error err => rfl
        | ok n => exact hsend.elim
      | _ => exact hsend.elim
    | child i e =>
      cases e with
      | fail err =>
        refine decide_eq_true fun hpc => ?_
        change (s.children i).putting = 1 at hsend
        rw [Child.putting, hpc] at hsend
        cases hsend
      | _ => exact hsend.elim
    | _ => exact hsend.elim

lemma Steady.reading_step [NeZero M] {e : Event M N} (hs : s.Steady) (hpipe : s.PipeReported e)
    (hstep : s.step h e = some t) : t.parent.pc = .readPipe → t.pipe ≠ [] := by
  intro hpc
  cases e with
  | parent e =>
    obtain ⟨u, s', hu, hcall, rfl⟩ := parent_of_step hstep
    change u.pc = .readPipe at hpc
    cases Parent.moves_of_step hu with
    | @poll r =>
      obtain rfl := Option.some.inj hcall
      refine hpipe ?_
      change (if r.listen = POLLIN then ParentPc.accept else if r.pipe = POLLIN then .readPipe else
        .sweep 0) = .readPipe at hpc
      split_ifs at hpc with hlisten hreported
      exact hreported
    | head =>
      change (if s.parent.gogo then ParentPc.poll else .returned 0) = .readPipe at hpc
      split_ifs at hpc
    | sweep =>
      rw [Parent.pHandleSocketAction] at hpc
      split_ifs at hpc <;> cases hpc
    | signal =>
      obtain rfl := Option.some.inj hcall
      exact hs.reading hpc
    | _ => cases hpc
  | child i e =>
    obtain ⟨c, a, s', hc, hact, rfl⟩ := acted_of_step hstep
    have hne : s.pipe ≠ [] := by
      apply hs.reading
      rw [← (act_frame hact).1]
      exact hpc
    change s'.pipe ≠ []
    cases acts_of_act hact with
    | writePipe n => exact List.append_ne_nil_of_left_ne_nil hne _
    | _ => exact hne
  | deliver id bytes | hangup id =>
    obtain rfl := Option.some.inj hstep
    exact hs.reading hpc

lemma sent_accepted {d : Descriptor} (hs : s.parent.Sound)
    (hsent : s.parent.sending.bind s.parent.fds = some d) : ∃ addr id, d = .accepted addr id := by
  obtain ⟨fd, hfd, hd⟩ := Option.bind_eq_some_iff.mp hsent
  rw [Parent.sending] at hfd
  split at hfd
  · rename_i p hpc
    obtain rfl := Option.some.inj hfd
    have hpos : 0 < (s.parent.client p).fd := hs.enabled p (by rw [Parent.handing, hpc])
    obtain ⟨id, hstored⟩ := hs.table.stored hpos.ne'
    rw [abs_of_pos hpos, hd] at hstored
    exact ⟨_, id, Option.some.inj hstored⟩
  · cases hfd

lemma Steady.step [NeZero M] {e : Event M N} (hs : s.Steady) (hM : M < sizeMod)
    (halloc : ∀ n, h.alloc n = true) (hok : ¬ s.CallFails h e) (he : s.OrderlyEvent e)
    (hpipe : s.PipeReported e) (hstep : s.step h e = some t) : t.Steady := by
  have hconsistent := hs.consistent.step hM halloc hok he hstep
  have hbalanced := hs.balanced.step (fun hover => hok (callFails_of_handOverFails hover)) hstep
  have hreading := hs.reading_step hpipe hstep
  cases e with
  | parent e =>
    obtain ⟨u, s', hu, hcall, rfl⟩ := parent_of_step hstep
    have hchildren := (called hcall).children
    obtain ⟨hconns, hdomain⟩ := call_uses hcall
    refine ⟨hconsistent, hbalanced, ?_, fun m hm => ?_, hreading, ?_, ?_⟩
    · change ∀ i, (s'.children i).Serving → (s'.children i).Joined
      rw [hchildren]
      exact hs.joined
    · rcases hdomain m hm with hm | ⟨rfl, hsent⟩
      · exact hs.accepted m hm
      · exact sent_accepted hs.consistent.sound hsent
    · change ∀ i, {fd | (s'.children i).fds fd ≠ none}.Finite
      rw [hchildren]
      exact hs.holes
    · change ∀ id, Willing (s'.conns id)
      rw [hconns]
      exact hs.willing
  | child i e =>
    obtain ⟨c, a, s', hc, hact, rfl⟩ := acted_of_step hstep
    have hsteps := Child.steps_of_step hc
    obtain ⟨-, hchildren, -⟩ := act_frame hact
    obtain ⟨hdomain, htaken, hconns⟩ := act_uses hact
    have hother : ∀ {P : Child → Prop}, P c → (∀ j, P (s.children j)) →
        ∀ j, P ((s'.setChild i c).children j) := by
      intro P hself hall
      change ∀ j, P (Function.update s'.children i c j)
      rw [hchildren, Function.forall_update_iff s.children fun _ x => P x]
      exact ⟨hself, fun j _ => hall j⟩
    refine ⟨hconsistent, hbalanced,
      hother (P := fun c => c.Serving → c.Joined)
        (hsteps.joined (fun m hm => hs.accepted m (htaken m hm)) (hs.joined i)) hs.joined,
      fun m hm => hs.accepted m (hdomain m hm), hreading,
      hother (P := fun c => {fd | c.fds fd ≠ none}.Finite) (hsteps.holes (hs.holes i)) hs.holes, ?_⟩
    change ∀ id, Willing (s'.conns id)
    rcases hconns with hconns | ⟨id, d, ha, hconns⟩
    · rw [hconns]
      exact hs.willing
    · rw [hconns, Function.forall_update_iff s.conns fun _ x => Willing x]
      exact ⟨hsteps.willing hs.willing id d ha, fun j _ => hs.willing j⟩
  | deliver id bytes =>
    obtain rfl := Option.some.inj hstep
    refine ⟨hconsistent, hbalanced, hs.joined, hs.accepted, hreading, hs.holes, ?_⟩
    refine (Function.forall_update_iff s.conns fun _ x => Willing x).mpr ⟨?_, fun j _ => hs.willing j⟩
    obtain ⟨hrecvs, hsends⟩ := hs.willing id
    rw [Conn.deliver]
    split_ifs <;> exact ⟨hrecvs, hsends⟩
  | hangup id =>
    obtain rfl := Option.some.inj hstep
    refine ⟨hconsistent, hbalanced, hs.joined, hs.accepted, hreading, hs.holes, ?_⟩
    refine (Function.forall_update_iff s.conns fun _ x => Willing x).mpr ⟨?_, fun j _ => hs.willing j⟩
    exact ⟨(hs.willing id).recvs, (hs.willing id).sends⟩

/-- What is left to do comes from outside, or is a call that fails. -/
def AtRest [NeZero M] (h : Host) (s : System M N) : Prop :=
  ∀ e t, e.fromOutside = false → ¬ s.CallFails h e → s.step h e ≠ some t

def WaitsForClient (s : System M N) (i : Fin N) : Prop :=
  ∃ id, (s.children i).Receiving id ∧ (s.conns id).unread = [] ∧ (s.conns id).closed = false

structure Waiting (s : System M N) : Prop where
  parent : s.parent.pc = .poll ∨ s.parent.pc = .accept ∨ ∃ ret, s.parent.pc = .returned ret
  domain : s.domain = []
  child : ∀ i, (s.children i).pc = .waitRead ∨ s.WaitsForClient i ∨
    ∃ n number, (s.children i).pc = .waitPipe n ∧ s.pipe = [number]

inductive Stands (s : System M N) (i : Fin N) : Prop
  | message (hpc : (s.children i).pc = .waitRead) (hsem : s.domainRead = 0)
  | client (hclient : s.WaitsForClient i)
  | pipe {n : ℕ} (hpc : (s.children i).pc = .waitPipe n) (hsem : s.pipeWrite = 0)
  | log {n : ℕ} (hpc : (s.children i).pc = .waitLog n) (hsem : s.logSem = 0)

lemma Stands.aside (hs : s.Stands i) : (s.children i).Aside ∧ (s.children i).logging = 0 := by
  have hpc : ∀ {pc}, (s.children i).pc = pc → ({ s.children i with pc := pc } : Child).Aside →
      ({ s.children i with pc := pc } : Child).logging = 0 →
      (s.children i).Aside ∧ (s.children i).logging = 0 := by
    rintro pc rfl haside hlogging
    exact ⟨haside, hlogging⟩
  cases hs with
  | message h | pipe h | log h => exact hpc h ⟨rfl, rfl, rfl⟩ rfl
  | client hclient =>
    obtain ⟨id, ⟨-, h | ⟨n, k, b, buffer, h, -⟩⟩, -⟩ := hclient <;> exact hpc h ⟨rfl, rfl, rfl⟩ rfl

lemma numbers_card_of_holding (hphase : ∀ i, ∃ m, (s.children i).phase = .holding m) :
    s.numbers.card = s.domain.length + N + s.pipe.length := by
  have hheld : (∑ i, (s.children i).phase.held).card = N := by
    rw [Multiset.card_sum]
    calc ∑ i, (s.children i).phase.held.card = ∑ _i : Fin N, 1 := by
          refine Finset.sum_congr rfl fun i _ => ?_
          obtain ⟨m, hm⟩ := hphase i
          rw [hm]
          rfl
      _ = N := by rw [Finset.sum_const, Finset.card_univ, Fintype.card_fin, smul_eq_mul, mul_one]
  rw [numbers, messages, Multiset.card_add, Multiset.card_map, Multiset.card_add, hheld,
    Multiset.coe_card, Multiset.coe_card]

lemma Steady.conn (hs : s.Steady) (hserving : (s.children i).Serving) :
    ∃ id, (s.children i).conn = some id := by
  obtain ⟨addr, id, hd⟩ := hs.joined i hserving
  exact ⟨id, by rw [Child.conn, hd]⟩

lemma Steady.sems (hs : s.Steady) (hMN : M ≤ N) (hstands : ∀ i, s.Stands i) :
    s.domainRead = 0 ∧ s.domain.length = s.parent.posting ∧
      s.domainWrite + s.parent.giving = 1 ∧ s.pipeWrite + s.pipe.length = 1 ∧ s.logSem = 1 := by
  obtain ⟨hturn, hdomain, hpipe, hlog⟩ := hs.balanced
  have hzero : ∀ {f : Child → ℕ}, (∀ i, f (s.children i) = 0) → ∑ i, f (s.children i) = 0 :=
    fun hf => Finset.sum_eq_zero fun i _ => hf i
  rw [hzero fun i => (hstands i).aside.1.taking] at hturn
  rw [hzero fun i => (hstands i).aside.1.receiving] at hdomain
  rw [hzero fun i => (hstands i).aside.1.putting] at hpipe
  rw [hzero fun i => (hstands i).aside.2] at hlog
  have hread : s.domainRead = 0 := by
    by_contra hne
    have hphase : ∀ i, ∃ m, (s.children i).phase = .holding m := by
      intro i
      cases hstands i with
      | message hpc hsem => exact (hne hsem).elim
      | client hclient =>
        obtain ⟨id, hreceiving, -⟩ := hclient
        exact ⟨_, Child.Receiving.phase hreceiving⟩
      | pipe hpc => exact ⟨_, waitPipe_phase hpc⟩
      | log hpc hsem => omega
    have hcard := numbers_card_of_holding hphase
    have hle : s.numbers.card ≤ M := hs.consistent.transit.card_le
    omega
  exact ⟨hread, by omega, by omega, by omega, by omega⟩

section Rest

variable [NeZero M]

lemma AtRest.blocks {e : ChildEvent} (hrest : s.AtRest h) (he : e.fromOutside = false)
    (hclient : (s.children i).clientCallFails h s.conns e = false)
    (hother : (s.children i).otherCallFails e = false)
    (hc : (s.children i).step h i s.conns e = some (c, a)) : s.act a = none := by
  by_contra hact
  obtain ⟨s', hs'⟩ := Option.ne_none_iff_exists'.mp hact
  refine hrest (.child i e) (s'.setChild i c) he ?_ ?_
  · rintro (hfails | hfails)
    · exact absurd (hclient.symm.trans hfails) Bool.false_ne_true
    · exact absurd (hother.symm.trans hfails) Bool.false_ne_true
  · exact Option.bind_eq_some_iff.mpr ⟨(c, a), hc, Option.map_eq_some_iff.mpr ⟨s', hs', rfl⟩⟩

lemma AtRest.not_free {e : ChildEvent} (hrest : s.AtRest h) (he : e.fromOutside = false)
    (hclient : (s.children i).clientCallFails h s.conns e = false)
    (hother : (s.children i).otherCallFails e = false)
    (hc : (s.children i).step h i s.conns e = some (c, a)) (hact : s.act a ≠ none) : False :=
  hact (hrest.blocks he hclient hother hc)

lemma Steady.not_recvMsg (hs : s.Steady) (hrest : s.AtRest h) : (s.children i).pc ≠ .recvMsg := by
  intro hpc
  have hreceiving : (s.children i).receiving = 1 := by rw [Child.receiving, hpc]
  have hle : (s.children i).receiving ≤ ∑ j, (s.children j).receiving :=
    Finset.single_le_sum (f := fun j => (s.children j).receiving) (fun _ _ => Nat.zero_le _)
      (Finset.mem_univ i)
  have hlength := hs.balanced.domain
  obtain ⟨m, rest, hdomain⟩ := List.exists_cons_of_length_pos (l := s.domain) (by omega)
  obtain ⟨fd, hfd⟩ := (hs.holes i).infinite_compl.nonempty
  have hfree : (s.children i).fds fd = none := by simpa using hfd
  refine hrest.not_free (i := i) (e := .received m fd) rfl rfl rfl (if_pos ⟨hpc, hfree⟩) ?_
  rw [act, hdomain]
  exact ne_of_eq_of_ne (if_pos rfl) (Option.some_ne_none _)

lemma Steady.header_waits (hs : s.Steady) (halloc : ∀ n, h.alloc n = true) (hrest : s.AtRest h)
    (hpc : (s.children i).pc = .header) : s.WaitsForClient i := by
  obtain ⟨id, hconn⟩ := hs.conn (i := i) (by rw [Child.Serving, hpc]; trivial)
  rcases Conn.recv_of_writable 4 (hs.willing id).recvs with
    ⟨-, hwait⟩ | ⟨⟨bs, d, hrecv⟩, -⟩
  · exact ⟨id, ⟨hconn, .inl hpc⟩, hwait⟩
  refine (hrest.not_free (i := i) (e := .run 0 {}) rfl ?_ rfl
    (c := ((s.children i).hear (s.conns id).recvs.head).goto
      (.payload (h.readWord 0 bs) 0 1 { size := h.readWord 0 bs + 1 }))
    (a := .transfer id d) ?_ (Option.some_ne_none _)).elim
  · simp [Child.clientCallFails, hpc, hconn, hrecv, Except.isOk, Except.toBool]
  · simp [Child.step, hpc, Child.recvHeader, hconn, hrecv, cGetMessageLength, halloc]

lemma Steady.payload_waits {n k b : ℕ} {buffer : Buffer} (hs : s.Steady) (hrest : s.AtRest h)
    (hpc : (s.children i).pc = .payload n k b buffer) : s.WaitsForClient i := by
  obtain ⟨id, hconn⟩ := hs.conn (i := i) (by rw [Child.Serving, hpc]; trivial)
  have hwilling : Willing (⟨k, b, buffer, s.conns id⟩ : PayloadLoop).conn := hs.willing id
  have hclient : (s.children i).clientCallFails h s.conns (.run 0 {}) = false := by
    rw [Child.clientCallFails, hpc]
    cases hbody : payloadBody n ⟨k, b, buffer, s.conns id⟩ with
    | done r =>
      obtain ⟨r, x⟩ := r
      obtain rfl := hwilling.payload_ok hbody
      simp [hconn, hbody, Except.isOk, Except.toBool]
    | _ => simp [hconn, hbody]
  have hblocks : ∀ {c a}, (s.children i).recvPayload s.conns n k b buffer = some (c, a) →
      s.act a = none := fun hc =>
    hrest.blocks (i := i) (e := .run 0 {}) rfl hclient rfl (by rw [Child.step, hpc]; exact hc)
  cases hbody : payloadBody n ⟨k, b, buffer, s.conns id⟩ with
  | blocked =>
    obtain ⟨hgo, hwait⟩ := hwilling.blocked_iff.mp hbody
    exact ⟨id, ⟨hconn, .inr ⟨n, k, b, buffer, hpc, hgo⟩⟩, hwait⟩
  | again x =>
    have hnone := hblocks (by simp only [Child.recvPayload, hconn, hbody]; rfl)
    cases hnone
  | done r =>
    obtain ⟨r, x⟩ := r
    obtain rfl := hwilling.payload_ok hbody
    have hnone := hblocks (by simp only [Child.recvPayload, hconn, hbody]; rfl)
    cases hnone

lemma Steady.not_reply {n : ℕ} (hs : s.Steady) (hrest : s.AtRest h) :
    (s.children i).pc ≠ .reply n := by
  intro hpc
  obtain ⟨id, hconn⟩ := hs.conn (i := i) (by rw [Child.Serving, hpc]; trivial)
  obtain ⟨k, d, hsend, -⟩ := Conn.send_writable (h.wordBytes n) (hs.willing id).sends
  refine hrest.not_free (i := i) (e := .run 0 {}) rfl ?_ rfl
    (c := ((s.children i).hear (s.conns id).sends.head).goto .close) (a := .transfer id d) ?_
    (Option.some_ne_none _)
  · simp [Child.clientCallFails, hpc, hconn, hsend, Except.isOk, Except.toBool]
  · simp [Child.step, hpc, Child.sendReply, hconn, hsend]

lemma Steady.stands (hs : s.Steady) (halloc : ∀ n, h.alloc n = true) (hrest : s.AtRest h)
    (hgogo : (s.children i).gogo = true) : s.Stands i := by
  have hsem : ∀ {k : ℕ} {u : System M N}, (if 0 < k then some u else none) = none → k = 0 := by
    intro k u hnone
    by_contra hne
    rw [if_pos (Nat.pos_of_ne_zero hne)] at hnone
    cases hnone
  have hok : ∀ {c a}, (s.children i).step h i s.conns .ok = some (c, a) → s.act a = none :=
    fun hc => hrest.blocks (e := .ok) rfl rfl rfl hc
  have hrun : ∀ {c a}, (s.children i).clientCallFails h s.conns (.run 0 {}) = false →
      (s.children i).step h i s.conns (.run 0 {}) = some (c, a) → s.act a = none :=
    fun hclient hc => hrest.blocks (e := .run 0 {}) rfl hclient rfl hc
  cases hpc : (s.children i).pc with
  | waitRead =>
    exact .message hpc (hsem (hok (c := (s.children i).goto .recvMsg) (a := .waitRead)
      (by rw [Child.step, hpc])))
  | header => exact .client (hs.header_waits halloc hrest hpc)
  | payload => exact .client (hs.payload_waits hrest hpc)
  | waitPipe n =>
    exact .pipe hpc (hsem (hok (c := (s.children i).goto (.writePipe n)) (a := .waitPipe)
      (by rw [Child.step, hpc])))
  | waitLog n =>
    exact .log hpc (hsem (hok (c := (s.children i).goto (.postLog n)) (a := .waitLog)
      (by rw [Child.step, hpc])))
  | recvMsg => exact (hs.not_recvMsg hrest hpc).elim
  | reply n => exact (hs.not_reply hrest hpc).elim
  | returned ret =>
    have hstopped := (hs.consistent.working i).looping ret hpc
    rw [hgogo] at hstopped
    cases hstopped
  | peerName =>
    obtain ⟨addr, id, hd⟩ := hs.joined i (by rw [Child.Serving, hpc]; trivial)
    have hnone := hok (by simp only [Child.step, hpc, Child.getPeerName, hd, Option.map_some]; rfl)
    cases hnone
  | postWrite | writePipe =>
    have hnone := hok (by rw [Child.step, hpc])
    cases hnone
  | head | postLog | close =>
    have hnone := hrun (by rw [Child.clientCallFails, hpc]) (by rw [Child.step, hpc])
    cases hnone

lemma AtRest.blocksParent {e : ParentEvent M} {u : Parent M} (hrest : s.AtRest h)
    (he : e.fromOutside = false) (hok : e.isError = false) (hu : s.parent.step e = some u) :
    s.call e = none := by
  by_contra hcall
  obtain ⟨s', hs'⟩ := Option.ne_none_iff_exists'.mp hcall
  refine hrest (.parent e) { s' with parent := u } he ?_ ?_
  · rintro (hfails | hfails)
    · exact hfails
    · exact absurd (hok.symm.trans hfails) Bool.false_ne_true
  · exact Option.bind_eq_some_iff.mpr ⟨u, hu, Option.map_eq_some_iff.mpr ⟨s', hs', rfl⟩⟩

lemma Steady.parent_waits (hs : s.Steady) (hwrite : s.domainWrite + s.parent.giving = 1)
    (hrest : s.AtRest h) :
    s.parent.pc = .poll ∨ s.parent.pc = .accept ∨ ∃ ret, s.parent.pc = .returned ret := by
  have hfree : ∀ {e : ParentEvent M} {u}, e.fromOutside = false → e.isError = false →
      s.parent.step e = some u → s.call e ≠ none → False :=
    fun he hok hu hcall => hcall (hrest.blocksParent he hok hu)
  have hrun : ∀ {u}, s.parent.step .run = some u → False :=
    fun hu => hfree (e := .run) rfl rfl hu (Option.some_ne_none _)
  cases hpc : s.parent.pc with
  | poll => exact .inl rfl
  | accept => exact .inr (.inl rfl)
  | returned ret => exact .inr (.inr ⟨ret, rfl⟩)
  | head | flip p => exact (hrun (by rw [Parent.step, hpc])).elim
  | sweep k =>
    by_cases hk : k < M
    · exact (hrun (u := s.parent.pHandleSocketAction ⟨k, hk⟩)
        (by simp only [Parent.step, hpc]; exact dif_pos hk)).elim
    · exact (hrun (u := s.parent.goto .head)
        (by simp only [Parent.step, hpc]; exact dif_neg hk)).elim
  | readPipe =>
    obtain ⟨number, rest, hpipe⟩ := List.exists_cons_of_ne_nil (hs.reading hpc)
    refine (hfree (e := .read (.ok number)) rfl rfl (by rw [Parent.step, if_pos hpc]) ?_).elim
    rw [call, hpipe]
    exact ne_of_eq_of_ne (if_pos rfl) (Option.some_ne_none _)
  | waitWrite p =>
    refine (hfree (e := .wait (.ok ())) rfl rfl (by rw [Parent.step, hpc]) ?_).elim
    have hgiving : s.parent.giving = 0 := by rw [Parent.giving, hpc]
    rw [call, if_pos (by omega : 0 < s.domainWrite)]
    exact Option.some_ne_none _
  | sendMsg p =>
    have hpos : 0 < (s.parent.client p).fd :=
      hs.consistent.sound.enabled p (by rw [Parent.handing, hpc])
    obtain ⟨id, hd⟩ := hs.consistent.sound.table.stored hpos.ne'
    rw [abs_of_pos hpos] at hd
    refine (hfree (e := .send (.ok ())) (u := s.parent.goto (.postRead p)) rfl rfl ?_ ?_).elim
    · simp only [Parent.step, hpc]
      exact if_neg (by rw [hd]; rintro ⟨⟩)
    · simp only [call, Parent.sending, hpc, Option.bind_some, hd, Option.map_some]
      rintro ⟨⟩
  | postRead p =>
    exact (hfree (e := .post) rfl rfl (by rw [Parent.step, hpc]) (Option.some_ne_none _)).elim

lemma Steady.waiting (hs : s.Steady) (halloc : ∀ n, h.alloc n = true) (hMN : M ≤ N)
    (hgogo : ∀ i, (s.children i).gogo = true) (hrest : s.AtRest h) : s.Waiting := by
  have hstands : ∀ i, s.Stands i := fun i => hs.stands halloc hrest (hgogo i)
  obtain ⟨-, hdomain, hwrite, hpipe, hlog⟩ := hs.sems hMN hstands
  have hparent := hs.parent_waits hwrite hrest
  refine ⟨hparent, List.length_eq_zero_iff.mp ?_, fun i => ?_⟩
  · rw [hdomain]
    obtain hpc | hpc | ⟨ret, hpc⟩ := hparent <;> rw [Parent.posting, hpc]
  · cases hstands i with
    | message hpc => exact .inl hpc
    | client hclient => exact .inr (.inl hclient)
    | @pipe n hpc hsem =>
      obtain ⟨number, hnumber⟩ : ∃ number, s.pipe = [number] :=
        List.length_eq_one_iff.mp (by omega)
      exact .inr (.inr ⟨n, number, hpc, hnumber⟩)
    | log hpc hsem => omega

end Rest

def restEvents : List (Event maxConnections numChildProcesses) :=
  (List.finRange numChildProcesses).map (fun i => .child i (.run 0 {})) ++
    acceptEvents 6 0 (fun _ => .zero) ++ pollEvents (fun p => if p = 0 then POLLIN else .zero) ++
    passEvents 1 ++ handEvents ++ passEvents 6 ++
    [.child 0 .ok, .child 0 (.received ⟨6, .accepted {} 0⟩ 4), .child 0 .ok, .child 0 .ok]

end System

end ScalableServer.ProcessServer
