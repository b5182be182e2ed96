import ScalableServer.Foundations.Progress
import ScalableServer.ProcessServer.Removals

/-! What the process server can do between two results of `poll` or `accept`, as long as no signal
and no bytes come. Each process comes forward by a rank; a message that the parent posts and a byte
that has not been read give a child the steps that they make possible. -/

namespace ScalableServer.ProcessServer

open ScalableServer.Foundations ScalableServer.Core

variable {M N : ℕ}

def ChildEvent.fromOutside : ChildEvent → Bool
  | .signal | .fail .EINTR => true
  | _ => false

def ParentEvent.fromOutside : ParentEvent M → Bool
  | .poll (.ok _) | .accept (.ok _) | .signal => true
  | _ => false

def Event.fromOutside : Event M N → Bool
  | .parent e => e.fromOutside
  | .child _ e => e.fromOutside
  | .deliver _ _ | .hangup _ => true

def passSteps : ℕ := 14

def slotSteps : ℕ := 19

namespace Action

def taken (conns : ℕ → Conn) : Action → ℕ
  | .waitRead => passSteps
  | .transfer id _ => (conns id).unread.length
  | _ => 0

def left : Action → ℕ
  | .transfer _ d => d.unread.length
  | _ => 0

end Action

def ChildPc.rank : ChildPc → ℕ
  | .returned _ => 0
  | .waitRead => 1
  | .head => 2
  | .close => 3
  | .reply _ => 4
  | .postLog _ => 5
  | .waitLog _ => 6
  | .writePipe _ => 7
  | .waitPipe _ => 8
  | .payload _ _ bytes _ => if bytes = 0 then 9 else 10
  | .header => 11
  | .peerName => 12
  | .postWrite _ => 13
  | .recvMsg => passSteps

lemma ChildPc.rank_le (pc : ChildPc) : pc.rank ≤ passSteps := by
  cases pc with
  | payload n k b buffer =>
    rw [rank, passSteps]
    split_ifs <;> decide
  | _ => simp only [rank, passSteps]; decide

namespace Child

variable {h : Host} {pid : ℕ} {conns : ℕ → Conn} {c c' : Child} {e : ChildEvent} {a : Action}

lemma accepted_of_conn {id : ℕ} (hc : c.conn = some id) :
    ∃ addr, c.fds c.child.clientFdLocal = some (.accepted addr id) := by
  rw [conn] at hc
  split at hc
  · rename_i addr id' hd
    obtain rfl := Option.some.inj hc
    exact ⟨addr, hd⟩
  · cases hc

lemma payload_again {n : ℕ} {s s' : PayloadLoop} (hbody : payloadBody n s = .again s') :
    s.bytes ≠ 0 ∧ s'.conn.unread.length + s'.bytes = s.conn.unread.length := by
  rw [payloadBody] at hbody
  split_ifs at hbody with hgo
  cases hrecv : s.conn.recv sizeofBuffer with
  | none =>
    rw [hrecv] at hbody
    cases hbody
  | some r =>
    obtain ⟨r, d⟩ := r
    cases r with
    | error err =>
      rw [hrecv] at hbody
      cases hbody
    | ok bs =>
      rw [hrecv] at hbody
      cases hbody
      obtain ⟨m, -, hm, hbs, hd, -⟩ := Conn.recv_takes hrecv
      refine ⟨hgo.2, ?_⟩
      change d.unread.length + bs.length = _
      rw [hd, hbs, List.length_drop, List.length_take]
      omega

lemma Steps.rank_lt (hsteps : c.Steps h pid conns e c' a) (he : e.fromOutside = false) :
    c'.pc.rank + a.left < c.pc.rank + a.taken conns := by
  have hdrains : ∀ id d, a = .transfer id d → d.unread.length ≤ (conns id).unread.length :=
    fun id d ha => (hsteps.uses.transfer id d ha).2.unread
  cases hsteps with
  | signal => cases he
  | @postWrite received hpc =>
    rw [hpc]
    cases received <;> simp [goto, ChildPc.rank, Action.left, Action.taken]
  | @peerName addr id hpc hfd =>
    rw [hpc]
    change (if c.errno = some .EINTR then ChildPc.close else .header).rank + 0 < _
    split_ifs <;> simp [ChildPc.rank, Action.taken]
  | unconnected hpc hconn =>
    obtain hpc | ⟨n, k, b, buffer, hpc⟩ | ⟨n, hpc⟩ := hpc <;> rw [hpc]
    · simp [goto, ChildPc.rank, Action.left, Action.taken]
    · simp only [goto, ChildPc.rank, Action.left, Action.taken]
      split_ifs <;> decide
    · simp [goto, ChildPc.rank, Action.left, Action.taken]
  | header hpc hconn hrecv hlen =>
    have hle := hdrains _ _ rfl
    rw [hpc]
    simp only [goto, ChildPc.rank, Action.left, Action.taken, one_ne_zero, if_false]
    omega
  | headerFail hpc hconn hrecv hlen | reply hpc hconn hsend | replyFail hpc hconn hsend =>
    have hle := hdrains _ _ rfl
    rw [hpc]
    simp only [goto, ChildPc.rank, Action.left, Action.taken]
    omega
  | @payload prior id n k b t buffer s hpc hconn hbody =>
    -- a byte has been read, or none and the loop is at its end
    obtain ⟨hb, hunread⟩ := payload_again hbody
    change b ≠ 0 at hb
    change s.conn.unread.length + s.bytes = (conns id).unread.length at hunread
    rw [hpc]
    simp only [goto, ChildPc.rank, Action.left, Action.taken, if_neg hb]
    split_ifs <;> omega
  | @payloadFail prior id n k b t buffer err s hpc hconn hbody =>
    have hle := hdrains _ _ rfl
    rw [hpc]
    simp only [goto, ChildPc.rank, Action.left, Action.taken]
    split_ifs <;> omega
  | payloadEnd hpc hconn hbody =>
    rw [hpc]
    simp only [goto, ChildPc.rank, Action.left, Action.taken]
    split_ifs <;> decide
  | @interrupted err next hpc =>
    have herr : err ≠ .EINTR := by
      rintro rfl
      cases he
    rw [if_neg herr]
    obtain ⟨hpc, -⟩ | ⟨n, hpc, -⟩ | ⟨n, hpc, -⟩ := hpc <;> rw [hpc] <;>
      simp [failWith, ChildPc.rank, Action.left, Action.taken]
  | callFail hpc =>
    obtain hpc | ⟨n, hpc⟩ := hpc <;> rw [hpc] <;>
      simp [failWith, ChildPc.rank, Action.left, Action.taken]
  | start hpc | leave hpc | waitRead hpc | recvMsg hpc | waitPipe hpc | writePipe hpc | waitLog hpc
  | postLog hpc | close hpc | recvMsgFail hpc =>
    rw [hpc]
    simp [goto, failWith, ChildPc.rank, passSteps, Action.left, Action.taken]

end Child

def ParentPc.rank : ParentPc M → ℕ
  | .returned _ => 0
  | .poll => 1
  | .head => 2
  | .accept | .readPipe => 3
  | .sweep k => 3 + (M - k) * slotSteps
  | .flip p => 4 + (M - (p + 1)) * slotSteps
  | .postRead p => 5 + passSteps + (M - (p + 1)) * slotSteps
  | .sendMsg p => 6 + passSteps + (M - (p + 1)) * slotSteps
  | .waitWrite p => 7 + passSteps + (M - (p + 1)) * slotSteps

lemma sweep_slots (p : Fin M) : (M - (p : ℕ)) * slotSteps = slotSteps + (M - (p + 1)) * slotSteps := by
  have hp : M - (p : ℕ) = M - (p + 1) + 1 := by omega
  rw [hp, Nat.add_mul, Nat.one_mul, Nat.add_comm]

lemma ParentPc.rank_le (pc : ParentPc M) : pc.rank ≤ 3 + M * slotSteps := by
  have hslot : ∀ p : Fin M, slotSteps + (M - (p + 1)) * slotSteps ≤ M * slotSteps := by
    intro p
    rw [← sweep_slots]
    exact Nat.mul_le_mul_right _ (Nat.sub_le _ _)
  cases pc with
  | sweep k =>
    exact Nat.add_le_add_left (Nat.mul_le_mul_right _ (Nat.sub_le _ _)) 3
  | flip p | postRead p | sendMsg p | waitWrite p =>
    have hle := hslot p
    simp only [rank, passSteps, slotSteps] at hle ⊢
    omega
  | _ => simp only [rank]; omega

lemma ParentPc.rank_pos {pc : ParentPc M} (hpc : ∀ ret, pc ≠ .returned ret) : 0 < pc.rank := by
  cases pc with
  | returned ret => exact (hpc ret rfl).elim
  | _ => simp only [rank]; omega

namespace Parent

variable [NeZero M] {s t : Parent M} {e : ParentEvent M}

def posted : ParentEvent M → ℕ
  | .post => passSteps
  | _ => 0

lemma running_of_step {ret : ℤ} (hstep : s.step e = some t) (he : e.fromOutside = false) :
    s.pc ≠ .returned ret := by
  intro hpc
  cases e with
  | signal => cases he
  | _ => simp [step, hpc] at hstep

lemma rank_lt (hstep : s.step e = some t) (he : e.fromOutside = false) :
    t.pc.rank + posted e < s.pc.rank := by
  have hrunning : ∀ ret, s.pc ≠ .returned ret := fun _ => running_of_step hstep he
  cases moves_of_step hstep with
  | poll | accept | signal => cases he
  | head hpc =>
    rw [hpc]
    change (if s.gogo then ParentPc.poll else .returned 0).rank + 0 < 2
    split_ifs <;> simp [ParentPc.rank]
  | @sweep p hpc =>
    have hslots := sweep_slots p
    have hswept : (ParentPc.sweep (M := M) (p + 1)).rank < (ParentPc.sweep (M := M) p).rank := by
      simp only [ParentPc.rank, slotSteps] at hslots ⊢
      omega
    rw [hpc, pHandleSocketAction]
    split_ifs with hin hup
    · simp only [goto, ParentPc.rank, posted, passSteps, slotSteps] at hslots ⊢
      omega
    · exact hswept
    · exact hswept
  | @swept k hpc =>
    rw [hpc]
    simp only [goto, ParentPc.rank, posted]
    omega
  | @flip p hpc =>
    rw [hpc]
    simp only [sweepOn, goto, ParentPc.rank, posted]
    omega
  | read hpc | wait hpc | interrupt hpc | send hpc | post hpc =>
    rw [hpc]
    simp only [goto, ParentPc.rank, posted]
    omega
  | @fail e ret hfail =>
    have hposted : posted e = 0 := by
      cases e with
      | post => cases hfail
      | _ => rfl
    rw [hposted]
    exact ParentPc.rank_pos hrunning

end Parent

namespace System

structure Numbered (s : System M N) : Prop where
  parent : ∀ fd addr id, s.parent.fds fd = some (.accepted addr id) → id < s.nextConn
  domain : ∀ m ∈ s.domain, ∀ addr id, m.descriptor = .accepted addr id → id < s.nextConn
  child : ∀ i fd addr id, (s.children i).fds fd = some (.accepted addr id) → id < s.nextConn

def bytesUnread (s : System M N) : ℕ := ∑ id ∈ Finset.range s.nextConn, (s.conns id).unread.length

def rank (s : System M N) : ℕ :=
  s.parent.pc.rank + passSteps * s.domainRead + ∑ i, (s.children i).pc.rank + s.bytesUnread

variable {h : Host} {s s' t : System M N} {i : Fin N} {c : Child} {a : Action}

lemma initial_numbered (listenFd pipeFd : ℤ) (others childOthers : ℤ → Bool) (conns : ℕ → Conn) :
    (initial listenFd pipeFd others childOthers conns : System M N).Numbered := by
  have hnone : ∀ (open' : ℤ → Bool) fd addr id,
      (if open' fd then some Descriptor.other else none) ≠ some (.accepted addr id) := by
    intro open' fd addr id
    split_ifs <;> rintro ⟨⟩
  exact ⟨fun fd addr id hd => (hnone others fd addr id hd).elim, fun m hm => (List.not_mem_nil hm).elim,
    fun i fd addr id hd => (hnone childOthers fd addr id hd).elim⟩

lemma Numbered.step [NeZero M] {e : Event M N} (hs : s.Numbered) (hstep : s.step h e = some t) :
    t.Numbered := by
  cases e with
  | parent e =>
    obtain ⟨u, s', hu, hcall, rfl⟩ := parent_of_step hstep
    have hcalled := called hcall
    refine ⟨fun fd addr id hd => ?_, fun m hm addr id hd => ?_, fun i fd addr id hd => ?_⟩
    · rcases (Parent.moves_of_step hu).opened hd with hd | ⟨addr', conn, rfl, hnew⟩
      · exact (hs.parent fd addr id hd).trans_le hcalled.nextConn
      · obtain ⟨hconn, hnext⟩ := hcalled.accepted _ _ _ rfl
        cases hnew
        change id < s'.nextConn
        omega
    · refine LT.lt.trans_le ?_ hcalled.nextConn
      rcases (call_uses hcall).2 m hm with hm | ⟨-, hsent⟩
      · exact hs.domain m hm addr id hd
      · obtain ⟨fd, -, hfd⟩ := Option.bind_eq_some_iff.mp hsent
        exact hs.parent fd addr id (hd ▸ hfd)
    · change (s'.children i).fds fd = _ at hd
      rw [hcalled.children] at hd
      exact (hs.child i fd addr id hd).trans_le hcalled.nextConn
  | child i e =>
    obtain ⟨c, a, s', hc, hact, rfl⟩ := acted_of_step hstep
    obtain ⟨hparent, hchildren, hnext⟩ := act_frame hact
    obtain ⟨hdomain, htaken, -⟩ := act_uses hact
    refine ⟨fun fd addr id hd => ?_, fun m hm addr id hd => ?_, fun j fd addr id hd => ?_⟩
    · change s'.parent.fds fd = _ at hd
      rw [hparent] at hd
      exact (hs.parent fd addr id hd).trans_eq hnext.symm
    · exact (hs.domain m (hdomain m hm) addr id hd).trans_eq hnext.symm
    · change (Function.update s'.children i c j).fds fd = _ at hd
      refine LT.lt.trans_eq ?_ hnext.symm
      rw [hchildren] at hd
      by_cases hj : j = i
      · rw [hj, Function.update_self] at hd
        rcases (Child.uses_of_step hc).fds fd _ hd with hd | ⟨m, rfl, hm⟩
        · exact hs.child i fd addr id hd
        · exact hs.domain m (htaken m rfl) addr id hm
      · rw [Function.update_of_ne hj] at hd
        exact hs.child j fd addr id hd
  | deliver id bytes | hangup id =>
    obtain rfl := Option.some.inj hstep
    exact ⟨hs.parent, hs.domain, hs.child⟩

lemma act_settles (hact : s.act a = some s') (hid : ∀ id d, a = .transfer id d → id < s.nextConn) :
    passSteps * s'.domainRead + s'.bytesUnread + a.taken s.conns =
      passSteps * s.domainRead + s.bytesUnread + a.left := by
  cases acts_of_act hact with
  | waitRead hpos =>
    change passSteps * (s.domainRead - 1) + s.bytesUnread + passSteps = _ + 0
    rw [Nat.mul_sub_one]
    have hle : passSteps ≤ passSteps * s.domainRead := Nat.le_mul_of_pos_right _ hpos
    omega
  | transfer id d =>
    have hsum := sum_update_of_mem (fun c : Conn => c.unread.length) s.conns
      (Finset.mem_range.mpr (hid id d rfl)) d
    change passSteps * s.domainRead + ∑ k ∈ Finset.range s.nextConn,
      (Function.update s.conns id d k).unread.length + _ = _
    rw [Nat.add_assoc, Nat.add_assoc]
    exact congrArg (passSteps * s.domainRead + ·) hsum
  | _ => rfl

lemma call_settles {e : ParentEvent M} (he : e.fromOutside = false) (hcall : s.call e = some s') :
    passSteps * s'.domainRead = passSteps * s.domainRead + Parent.posted e ∧
      s'.bytesUnread = s.bytesUnread := by
  cases calls_of_call hcall with
  | accept => cases he
  | post => exact ⟨Nat.mul_succ _ _, rfl⟩
  | _ => exact ⟨rfl, rfl⟩

lemma Numbered.rank_lt [NeZero M] {e : Event M N} (hs : s.Numbered) (he : e.fromOutside = false)
    (hstep : s.step h e = some t) : t.rank < s.rank := by
  cases e with
  | parent e =>
    obtain ⟨u, s', hu, hcall, rfl⟩ := parent_of_step hstep
    obtain ⟨hposted, hbytes⟩ := call_settles he hcall
    have hlt := Parent.rank_lt hu he
    change u.pc.rank + passSteps * s'.domainRead + ∑ i, (s'.children i).pc.rank + s'.bytesUnread <
      s.rank
    rw [hposted, hbytes, (called hcall).children, rank]
    omega
  | child i e =>
    obtain ⟨c, a, s', hc, hact, rfl⟩ := acted_of_step hstep
    have hsteps := Child.steps_of_step hc
    have hlt := hsteps.rank_lt he
    have hnumber : ∀ id d, a = .transfer id d → id < s.nextConn := by
      intro id d ha
      obtain ⟨addr, hd⟩ := Child.accepted_of_conn (hsteps.uses.transfer id d ha).1
      exact hs.child i _ addr id hd
    have hsum := sum_update (fun c : Child => c.pc.rank) s.children i c
    have hacts := act_settles hact hnumber
    obtain ⟨hparent, hchildren, -⟩ := act_frame hact
    change s'.parent.pc.rank + passSteps * s'.domainRead +
      ∑ j, (Function.update s'.children i c j).pc.rank + s'.bytesUnread < s.rank
    rw [hparent, hchildren, rank]
    omega
  | deliver | hangup => cases he

lemma rank_le (s : System M N) :
    s.rank ≤ M * slotSteps + 3 + passSteps * (N + s.domainRead) + s.bytesUnread := by
  have hchildren : ∑ i, (s.children i).pc.rank ≤ N * passSteps := by
    calc ∑ i, (s.children i).pc.rank ≤ ∑ _i : Fin N, passSteps :=
          Finset.sum_le_sum fun i _ => ChildPc.rank_le _
      _ = N * passSteps := by rw [Finset.sum_const, Finset.card_univ, Fintype.card_fin, smul_eq_mul]
  have hparent := ParentPc.rank_le s.parent.pc
  rw [rank, Nat.mul_add, Nat.mul_comm passSteps N]
  omega

theorem processServer_settles [NeZero M] (h : Host) (listenFd pipeFd : ℤ)
    (others childOthers : ℤ → Bool) (conns : ℕ → Conn) (s t : System M N) (es : List (Event M N))
    (hs : (machine h).Reaches (fun _ _ => True) (initial listenFd pipeFd others childOthers conns) s)
    (hes : ∀ e ∈ es, e.fromOutside = false) (hrun : (machine h).run es s = some t) :
    es.length ≤ M * slotSteps + 3 + passSteps * (N + s.domainRead) + s.bytesUnread := by
  have hnumbered : s.Numbered := by
    apply hs.invariant (I := Numbered) (initial_numbered _ _ _ _ _)
    intro a e b ha _ hstep
    exact ha.step hstep
  have hrank := (Machine.length_le_of_run Numbered rank hrun hnumbered fun a e b he ha hb =>
    ⟨ha.step hb, ha.rank_lt (hes e he) hb⟩).2
  calc es.length ≤ es.length + t.rank := Nat.le_add_right _ _
    _ ≤ s.rank := hrank
    _ ≤ _ := rank_le s

theorem processServer_settles_run :
    let h : Host := ⟨.little, fun _ => true, fun _ => []⟩
    let conn : Conn :=
      { recvs := Stream'.const (.moves 4), sends := Stream'.const (.moves 4)
        selects := Stream'.const (.moves 0) }
    let before := acceptEvents 6 0 (fun _ => .zero) ++
      pollEvents (fun p => if p = 0 then POLLIN else .zero) ++ passEvents 1 ++ handEvents
    let es : List (Event maxConnections numChildProcesses) := [.child 0 (.run 0 {}), .child 0 .ok,
      .child 0 (.received ⟨6, .accepted {} 0⟩ 4), .child 0 .ok, .child 0 .ok] ++ passEvents 6
    ∃ s t, (machine h).run before
        (initial 5 4 parentDescriptors childDescriptors fun _ => conn) = some s ∧
      (machine h).run es s = some t ∧
      es.length ≤ maxConnections * slotSteps + 3 + passSteps * (numChildProcesses + s.domainRead) +
        s.bytesUnread := by
  intro h conn before es
  have hrun : ((machine h).run (before ++ es)
      (initial 5 4 parentDescriptors childDescriptors fun _ => conn)).isSome = true := by
    decide +kernel
  obtain ⟨t, ht⟩ := Option.isSome_iff_exists.mp hrun
  rw [Machine.run_append] at ht
  obtain ⟨s, hs, ht⟩ := Option.bind_eq_some_iff.mp ht
  have hreaches : (machine h).Reaches (fun _ _ => True)
      (initial 5 4 parentDescriptors childDescriptors fun _ => conn) s :=
    Machine.reaches_of_run (fun _ _ => trivial) hs
  exact ⟨s, t, hs, ht, processServer_settles h 5 4 parentDescriptors childDescriptors (fun _ => conn)
    s t es hreaches (by decide) ht⟩

end System

end ScalableServer.ProcessServer
