import ScalableServer.ProcessServer.ChildSteps
import ScalableServer.ProcessServer.Waiting

namespace ScalableServer.ProcessServer

open ScalableServer.Foundations ScalableServer.Core

variable {M N : ℕ}

namespace Action

def takesRead : Action → ℕ
  | .waitRead => 1
  | _ => 0

def takesMessage : Action → ℕ
  | .recvMsg _ => 1
  | _ => 0

def givesWrite : Action → ℕ
  | .postWrite => 1
  | _ => 0

def takesPipe : Action → ℕ
  | .waitPipe => 1
  | _ => 0

def putsNumber : Action → ℕ
  | .writePipe _ => 1
  | _ => 0

def apart : Action → Bool
  | .internal | .waitLog | .postLog _ | .transfer _ _ => true
  | _ => false

end Action

namespace Child

def taking (c : Child) : ℕ :=
  match c.pc with
  | .recvMsg | .postWrite _ => 1
  | _ => 0

def receiving (c : Child) : ℕ :=
  match c.pc with
  | .recvMsg => 1
  | _ => 0

def putting (c : Child) : ℕ :=
  match c.pc with
  | .writePipe _ => 1
  | _ => 0

lemma receiving_le_taking (c : Child) : c.receiving ≤ c.taking := by
  rw [receiving, taking]
  split <;> simp_all

structure Weighed (c : Child) (e : ChildEvent) (c' : Child) (a : Action) : Prop where
  taking : c'.taking + a.givesWrite = c.taking + a.takesRead
  receiving : (∀ err, c.pc = .recvMsg → e ≠ .fail err) →
    c'.receiving + a.takesMessage = c.receiving + a.takesRead
  putting : c'.putting + a.putsNumber ≤ c.putting + a.takesPipe

structure Aside (c : Child) : Prop where
  taking : c.taking = 0
  receiving : c.receiving = 0
  putting : c.putting = 0

variable {h : Host} {pid : ℕ} {conns : ℕ → Conn} {c c' : Child} {e : ChildEvent} {a : Action}

lemma Aside.weighed (hc : c.Aside) (hc' : c'.Aside) (ha : a.apart = true) : Weighed c e c' a := by
  obtain ⟨htaking, hreceiving, hputting⟩ := hc
  obtain ⟨htaking', hreceiving', hputting'⟩ := hc'
  cases a with
  | waitRead | recvMsg m | postWrite | waitPipe | writePipe n => cases ha
  | _ => exact ⟨by rw [htaking, htaking']; rfl, fun _ => by rw [hreceiving, hreceiving']; rfl,
      by rw [hputting, hputting']; exact le_refl 0⟩

lemma aside_of_pc {pc : ChildPc} (hpc : c.pc = pc) (haside : ({ c with pc := pc } : Child).Aside) :
    c.Aside := by
  subst hpc
  exact haside

lemma Steps.weighed (hsteps : c.Steps h pid conns e c' a) : Weighed c e c' a := by
  cases hsteps with
  | waitRead hpc | recvMsg hpc hfd | waitPipe hpc | writePipe hpc =>
    constructor <;> simp [taking, receiving, putting, hpc, goto,
      Action.givesWrite, Action.takesRead, Action.takesMessage, Action.putsNumber, Action.takesPipe]
  | @postWrite received hpc =>
    cases received <;> constructor <;> simp [taking, receiving, putting, hpc, goto,
      Action.givesWrite, Action.takesRead, Action.takesMessage, Action.putsNumber, Action.takesPipe]
  | peerName hpc hfd =>
    refine (aside_of_pc hpc ⟨rfl, rfl, rfl⟩).weighed ?_ rfl
    split_ifs <;> exact ⟨rfl, rfl, rfl⟩
  | unconnected hpc hconn =>
    have hc : c.Aside := by
      obtain hpc | ⟨n, k, b, buffer, hpc⟩ | ⟨n, hpc⟩ := hpc <;>
        exact aside_of_pc hpc ⟨rfl, rfl, rfl⟩
    exact hc.weighed ⟨rfl, rfl, rfl⟩ rfl
  | @interrupted err next hpc =>
    obtain ⟨hpc, rfl⟩ | ⟨n, hpc, rfl⟩ | ⟨n, hpc, rfl⟩ := hpc
    all_goals
      refine (aside_of_pc hpc ⟨rfl, rfl, rfl⟩).weighed ?_ rfl
      split_ifs <;> exact ⟨rfl, rfl, rfl⟩
  | @recvMsgFail err hpc =>
    refine ⟨by rw [taking, taking, hpc]; rfl, fun hno => (hno err hpc rfl).elim, ?_⟩
    rw [putting, putting, hpc]
    exact le_refl 0
  | callFail hpc =>
    obtain hpc | ⟨n, hpc⟩ := hpc
    · exact (aside_of_pc hpc ⟨rfl, rfl, rfl⟩).weighed ⟨rfl, rfl, rfl⟩ rfl
    · refine ⟨by rw [taking, taking, hpc]; rfl, fun _ => by rw [receiving, receiving, hpc]; rfl, ?_⟩
      exact Nat.zero_le _
  | signal => exact ⟨rfl, fun _ => rfl, le_refl _⟩
  | start hpc _ | leave hpc _ | header hpc _ _ _ | headerFail hpc _ _ _ | payload hpc _ _
  | payloadFail hpc _ _ | payloadEnd hpc _ _ | waitLog hpc | postLog hpc | reply hpc _ _
  | replyFail hpc _ _ | close hpc =>
    exact (aside_of_pc hpc ⟨rfl, rfl, rfl⟩).weighed ⟨rfl, rfl, rfl⟩ rfl

lemma weighed_of_step (hstep : c.step h pid conns e = some (c', a)) : Weighed c e c' a :=
  (steps_of_step hstep).weighed

end Child

lemma Parent.posting_le_giving (s : Parent M) : s.posting ≤ s.giving := by
  rw [posting, giving]
  split <;> simp_all

lemma Parent.posting_of_error [NeZero M] {s u : Parent M} {e : ParentEvent M}
    (hstep : s.step e = some u) (he : e.isError = true) : s.posting = 0 := by
  rw [posting]
  split
  · rename_i p hpc
    cases e with
    | run | post | signal => cases he
    | poll r | accept r | read r => simp [step, hpc] at hstep
    | wait r | send r => simp [step, hpc] at hstep
  · rfl

lemma Parent.giving_of_error [NeZero M] {s u : Parent M} {e : ParentEvent M}
    (hstep : s.step e = some u) (he : e.isError = true) (hsend : ∀ err, e ≠ .send (.error err)) :
    s.giving = 0 := by
  rw [giving]
  split
  · rename_i p hpc
    cases e with
    | run | post | signal => cases he
    | poll r | accept r | read r | wait r => simp [step, hpc] at hstep
    | send r =>
      cases r with
      | ok _ => cases he
      | error err => exact (hsend err rfl).elim
  · rename_i p hpc
    cases e with
    | run | post | signal => cases he
    | poll r | accept r | read r | wait r | send r => simp [step, hpc] at hstep
  · rfl

namespace System

def ReceiveFails (s : System M N) : Event M N → Prop
  | .parent (.read (.error _)) => True
  | .child i (.fail _) => (s.children i).pc = .recvMsg
  | _ => False

instance (s : System M N) : (e : Event M N) → Decidable (s.ReceiveFails e)
  | .parent (.read (.error _)) => .isTrue trivial
  | .child i (.fail _) => inferInstanceAs (Decidable ((s.children i).pc = .recvMsg))
  | .parent (.read (.ok _)) | .parent .run | .parent (.poll _) | .parent (.accept _)
  | .parent (.wait _) | .parent (.send _) | .parent .post | .parent .signal
  | .child _ (.run _ _) | .child _ .ok | .child _ (.received _ _ _) | .child _ .signal
  | .deliver _ _ | .hangup _ => .isFalse not_false

structure Capacity (s : System M N) : Prop where
  domainSems : s.domainRead + s.domainWrite + s.parent.giving + ∑ i, (s.children i).taking ≤ 1
  domain : s.domain.length ≤ 1
  received : ∀ i, (s.children i).pc = .recvMsg → ∃ m, s.domain = [m]
  pipe : s.pipeWrite + s.pipe.length + ∑ i, (s.children i).putting ≤ 1

def DomainSems (s : System M N) : Prop :=
  s.domainRead + s.domainWrite + s.parent.giving + ∑ i, (s.children i).taking ≤ 1

structure Filled (s : System M N) : Prop where
  domain : s.domain.length = s.domainRead + s.parent.posting + ∑ i, (s.children i).receiving
  pipe : s.pipeWrite + s.pipe.length + ∑ i, (s.children i).putting ≤ 1

variable {h : Host} {s s' t : System M N} {i : Fin N} {c : Child} {a : Action}

lemma act_weighed (hact : s.act a = some s') :
    s'.domainRead + a.takesRead = s.domainRead ∧ s'.domainWrite = s.domainWrite + a.givesWrite ∧
      s'.domain.length + a.takesMessage = s.domain.length ∧
      s'.pipeWrite + a.takesPipe = s.pipeWrite ∧
      s'.pipe.length = s.pipe.length + a.putsNumber := by
  cases acts_of_act hact with
  | recvMsg hdomain => exact ⟨rfl, rfl, by rw [hdomain]; rfl, rfl, rfl⟩
  | waitRead hpos => exact ⟨Nat.sub_add_cancel hpos, rfl, rfl, rfl, rfl⟩
  | waitPipe hpos => exact ⟨rfl, rfl, rfl, Nat.sub_add_cancel hpos, rfl⟩
  | writePipe n => exact ⟨rfl, rfl, rfl, rfl, List.length_append⟩
  | _ => exact ⟨rfl, rfl, rfl, rfl, rfl⟩

lemma sum_setChild (f : Child → ℕ) (hact : s.act a = some s') :
    ∑ j, f ((s'.setChild i c).children j) + f (s.children i) = ∑ j, f (s.children j) + f c := by
  rw [setChild, (act_frame hact).2.1]
  exact sum_update f s.children i c

lemma DomainSems.child {e : ChildEvent} (hs : s.DomainSems)
    (hweighed : (s.children i).Weighed e c a) (hact : s.act a = some s') :
    (s'.setChild i c).DomainSems := by
  obtain ⟨hread, hwrite, -⟩ := act_weighed hact
  have hsum := sum_setChild (i := i) (c := c) Child.taking hact
  have hparent : (s'.setChild i c).parent = s.parent := (act_frame hact).1
  have htaking := hweighed.taking
  have hold : s.domainRead + s.domainWrite + s.parent.giving +
    ∑ j, (s.children j).taking ≤ 1 := hs
  change s'.domainRead + s'.domainWrite + (s'.setChild i c).parent.giving +
    ∑ j, ((s'.setChild i c).children j).taking ≤ 1
  rw [hparent]
  omega

lemma Filled.child {e : ChildEvent} (hs : s.Filled) (hweighed : (s.children i).Weighed e c a)
    (hok : ¬ s.ReceiveFails (.child i e)) (hact : s.act a = some s') :
    (s'.setChild i c).Filled := by
  obtain ⟨hread, -, hdomain, hpipeWrite, hpipe⟩ := act_weighed hact
  have hparent : (s'.setChild i c).parent = s.parent := (act_frame hact).1
  have hreceiving := hweighed.receiving fun err hpc he => hok (by rw [he]; exact hpc)
  constructor
  · have hsum := sum_setChild (i := i) (c := c) Child.receiving hact
    have hold := hs.domain
    change s'.domain.length = s'.domainRead + (s'.setChild i c).parent.posting +
      ∑ j, ((s'.setChild i c).children j).receiving
    rw [hparent]
    omega
  · have hsum := sum_setChild (i := i) (c := c) Child.putting hact
    have hputting := hweighed.putting
    have hold := hs.pipe
    change s'.pipeWrite + s'.pipe.length + ∑ j, ((s'.setChild i c).children j).putting ≤ 1
    omega

structure ParentWeighed (s : System M N) (e : ParentEvent M) (s' : System M N) (u : Parent M) :
    Prop where
  children : s'.children = s.children
  sems : s'.domainRead + s'.domainWrite + u.giving ≤
    s.domainRead + s.domainWrite + s.parent.giving
  domain : s'.domain.length + s.domainRead + s.parent.posting =
    s.domain.length + s'.domainRead + u.posting
  pipe : (∀ err, e ≠ .read (.error err)) →
    s'.pipeWrite + s'.pipe.length = s.pipeWrite + s.pipe.length

variable {e : ParentEvent M} {u : Parent M}

lemma parent_sems [NeZero M] (hstep : s.parent.step e = some u) (hcall : s.call e = some s')
    (hsend : ∀ err, e ≠ .send (.error err)) : s'.domainRead + s'.domainWrite + u.giving =
      s.domainRead + s.domainWrite + s.parent.giving := by
  have hmoves := Parent.moves_of_step hstep
  cases hmoves with
  | @wait p hpc =>
    obtain ⟨hpos⟩ := calls_of_call hcall
    rw [Parent.giving, Parent.giving, hpc]
    change s.domainRead + (s.domainWrite - 1) + 1 = s.domainRead + s.domainWrite + 0
    omega
  | @send p hpc hfd =>
    cases calls_of_call hcall
    rw [Parent.giving, Parent.giving, hpc]
    rfl
  | @post p hpc =>
    obtain rfl := Option.some.inj hcall
    rw [Parent.giving, Parent.giving, hpc]
    change s.domainRead + 1 + s.domainWrite + 0 = s.domainRead + s.domainWrite + 1
    omega
  | accept hpc | read hpc =>
    cases calls_of_call hcall
    rw [Parent.giving, Parent.giving, hpc]
    rfl
  | fail he =>
    rw [Parent.giving_of_error hstep he hsend]
    cases calls_of_call hcall with
    | poll | acceptFail | readFail | waitFail | sendFail => rfl
    | _ => cases he
  | sweep hpc =>
    obtain rfl := Option.some.inj hcall
    rw [Parent.pHandleSocketAction, Parent.giving, Parent.giving, hpc]
    split_ifs <;> rfl
  | head hpc | poll hpc =>
    obtain rfl := Option.some.inj hcall
    rw [Parent.giving, Parent.giving, hpc]
    split_ifs <;> rfl
  | swept hpc | flip hpc | interrupt hpc =>
    obtain rfl := Option.some.inj hcall
    rw [Parent.giving, Parent.giving, hpc]
    rfl
  | signal =>
    obtain rfl := Option.some.inj hcall
    rfl

lemma parent_sems_le [NeZero M] (hstep : s.parent.step e = some u) (hcall : s.call e = some s') :
    s'.domainRead + s'.domainWrite + u.giving ≤
      s.domainRead + s.domainWrite + s.parent.giving := by
  by_cases hsend : ∃ err, e = .send (.error err)
  · obtain ⟨err, rfl⟩ := hsend
    obtain rfl := Option.some.inj hcall
    have hgiving : u.giving = 0 := by
      cases Parent.moves_of_step hstep with
      | fail _ => rfl
    omega
  · exact (parent_sems hstep hcall fun err he => hsend ⟨err, he⟩).le

lemma parentWeighed_of_same (hsems : s.domainRead + s.domainWrite + u.giving ≤
      s.domainRead + s.domainWrite + s.parent.giving) (hposting : u.posting = s.parent.posting) :
    s.ParentWeighed e s u :=
  ⟨rfl, hsems, by omega, fun _ => rfl⟩

lemma parent_weighed [NeZero M] (hstep : s.parent.step e = some u) (hcall : s.call e = some s') :
    s.ParentWeighed e s' u := by
  have hsems := parent_sems_le hstep hcall
  have hmoves := Parent.moves_of_step hstep
  cases hmoves with
  | @wait p hpc =>
    cases calls_of_call hcall
    refine ⟨rfl, hsems, ?_, fun _ => rfl⟩
    rw [Parent.posting, Parent.posting, hpc]
    rfl
  | @send p hpc hfd =>
    cases calls_of_call hcall
    refine ⟨rfl, hsems, ?_, fun _ => rfl⟩
    rw [Parent.posting, Parent.posting, hpc]
    change (s.domain ++ [_]).length + s.domainRead + 0 = s.domain.length + s.domainRead + 1
    rw [List.length_append, List.length_singleton]
    omega
  | @post p hpc =>
    obtain rfl := Option.some.inj hcall
    refine ⟨rfl, hsems, ?_, fun _ => rfl⟩
    rw [Parent.posting, Parent.posting, hpc]
    change s.domain.length + s.domainRead + 1 = s.domain.length + (s.domainRead + 1) + 0
    omega
  | accept hpc =>
    cases calls_of_call hcall
    refine ⟨rfl, hsems, ?_, fun _ => rfl⟩
    rw [Parent.posting, Parent.posting, hpc]
    rfl
  | read hpc =>
    cases calls_of_call hcall with
    | @read _ rest hrest =>
      refine ⟨rfl, hsems, ?_, fun _ => ?_⟩
      · rw [Parent.posting, Parent.posting, hpc]
        rfl
      · change s.pipeWrite + 1 + rest.length = _
        rw [hrest, List.length_cons]
        omega
  | fail he =>
    have hposting := Parent.posting_of_error hstep he
    cases calls_of_call hcall with
    | @readFail err =>
      exact ⟨rfl, hsems, by rw [hposting]; rfl, fun hno => (hno err rfl).elim⟩
    | poll | acceptFail | waitFail | sendFail => exact parentWeighed_of_same hsems hposting.symm
    | _ => cases he
  | head hpc | poll hpc =>
    obtain rfl := Option.some.inj hcall
    apply parentWeighed_of_same hsems
    rw [Parent.posting, Parent.posting, hpc]
    split_ifs <;> rfl
  | sweep hpc =>
    obtain rfl := Option.some.inj hcall
    apply parentWeighed_of_same hsems
    rw [Parent.pHandleSocketAction, Parent.posting, Parent.posting, hpc]
    split_ifs <;> rfl
  | swept hpc | flip hpc | interrupt hpc =>
    obtain rfl := Option.some.inj hcall
    apply parentWeighed_of_same hsems
    rw [Parent.posting, Parent.posting, hpc]
    rfl
  | signal =>
    obtain rfl := Option.some.inj hcall
    exact parentWeighed_of_same hsems rfl

lemma DomainSems.parent (hs : s.DomainSems) (hweighed : s.ParentWeighed e s' u) :
    ({ s' with parent := u } : System M N).DomainSems := by
  have hold : s.domainRead + s.domainWrite + s.parent.giving +
    ∑ j, (s.children j).taking ≤ 1 := hs
  have hsems := hweighed.sems
  change s'.domainRead + s'.domainWrite + u.giving + ∑ j, (s'.children j).taking ≤ 1
  rw [hweighed.children]
  omega

lemma Filled.parent (hs : s.Filled) (hweighed : s.ParentWeighed e s' u)
    (hok : ¬ s.ReceiveFails (.parent e)) : ({ s' with parent := u } : System M N).Filled := by
  constructor
  · have hold := hs.domain
    have hdomain := hweighed.domain
    change s'.domain.length = s'.domainRead + u.posting + ∑ j, (s'.children j).receiving
    rw [hweighed.children]
    omega
  · have hold := hs.pipe
    have hpipe := hweighed.pipe fun err he => hok (by rw [he]; trivial)
    change s'.pipeWrite + s'.pipe.length + ∑ j, (s'.children j).putting ≤ 1
    rw [hweighed.children]
    omega

lemma initial_weighed (listenFd pipeFd : ℤ) (others childOthers : ℤ → Bool) (conns : ℕ → Conn) :
    (initial listenFd pipeFd others childOthers conns : System M N).DomainSems ∧
      (initial listenFd pipeFd others childOthers conns : System M N).Filled := by
  have hsum : ∀ f : Child → ℕ,
      (∀ i, f ((initial listenFd pipeFd others childOthers conns : System M N).children i) = 0) →
      ∑ i, f ((initial listenFd pipeFd others childOthers conns : System M N).children i) = 0 :=
    fun f hf => Finset.sum_eq_zero fun i _ => hf i
  refine ⟨?_, ?_, ?_⟩
  · rw [DomainSems, hsum Child.taking fun _ => rfl]
    exact le_refl 1
  · rw [hsum Child.receiving fun _ => rfl]
    rfl
  · rw [hsum Child.putting fun _ => rfl]
    exact le_refl 1

lemma step_weighed [NeZero M] {e : Event M N} (hsems : s.DomainSems) (hfilled : s.Filled)
    (hok : ¬ s.ReceiveFails e) (hstep : s.step h e = some t) : t.DomainSems ∧ t.Filled := by
  cases e with
  | parent e =>
    obtain ⟨u, s', hu, hcall, rfl⟩ := parent_of_step hstep
    have hweighed := parent_weighed hu hcall
    exact ⟨hsems.parent hweighed, hfilled.parent hweighed hok⟩
  | child i e =>
    obtain ⟨c, a, s', hc, hact, rfl⟩ := acted_of_step hstep
    have hweighed := Child.weighed_of_step hc
    exact ⟨hsems.child hweighed hact, hfilled.child hweighed hok hact⟩
  | deliver id bytes | hangup id =>
    obtain rfl := Option.some.inj hstep
    exact ⟨hsems, hfilled.domain, hfilled.pipe⟩

lemma capacity_of_weighed (hsems : s.DomainSems) (hfilled : s.Filled) : s.Capacity := by
  obtain ⟨hdomain, hpipe⟩ := hfilled
  have hposting := s.parent.posting_le_giving
  have hsum : ∑ i, (s.children i).receiving ≤ ∑ i, (s.children i).taking :=
    Finset.sum_le_sum fun i _ => (s.children i).receiving_le_taking
  have hturn : s.domainRead + s.domainWrite + s.parent.giving +
    ∑ j, (s.children j).taking ≤ 1 := hsems
  have hone : s.domain.length ≤ 1 := by omega
  refine ⟨hsems, hone, fun i hpc => ?_, hpipe⟩
  have hi : (s.children i).receiving ≤ ∑ j, (s.children j).receiving :=
    Finset.single_le_sum (f := fun j => (s.children j).receiving) (fun _ _ => Nat.zero_le _)
      (Finset.mem_univ i)
  have hself : (s.children i).receiving = 1 := by rw [Child.receiving, hpc]
  exact List.length_eq_one_iff.mp (by omega)

theorem processServer_channel_capacity [NeZero M] (h : Host) (listenFd pipeFd : ℤ)
    (others childOthers : ℤ → Bool) (conns : ℕ → Conn) (s : System M N)
    (hs : (machine h).Reaches (fun s e => ¬ s.ReceiveFails e)
      (initial listenFd pipeFd others childOthers conns) s) : s.Capacity := by
  have hweighed : s.DomainSems ∧ s.Filled := by
    refine hs.invariant (I := fun s => s.DomainSems ∧ s.Filled) (initial_weighed _ _ _ _ _) ?_
    rintro a e b ⟨hsems, hfilled⟩ hok hstep
    exact step_weighed hsems hfilled hok hstep
  exact capacity_of_weighed hweighed.1 hweighed.2

theorem processServer_channel_capacity_run :
    let h : Host := ⟨.little, fun _ => true, fun _ => []⟩
    let conn : Conn :=
      { recvs := Stream'.const (.moves 4), sends := Stream'.const (.moves 4)
        selects := Stream'.const (.moves 0) }
    let es : List (Event maxConnections numChildProcesses) :=
      acceptEvents 6 0 (fun _ => .zero) ++ acceptEvents 8 1 (fun _ => .zero) ++
        pollEvents (fun p => if p = 0 ∨ p = 1 then POLLIN else .zero) ++ passEvents 1 ++
        [.parent (.wait (.error .EINTR))] ++ passEvents 2 ++
        [.parent (.wait (.ok ())), .parent (.send (.ok ())), .child 2 (.run 0 {}),
          .child 2 (.fail .EINTR), .parent .post, .child 1 (.run 0 {}), .child 1 .ok]
    ∃ s, (machine h).runWithin (fun s e => ¬ s.ReceiveFails e) es
        (initial 5 4 parentDescriptors childDescriptors fun _ => conn) = some s ∧
      (s.children 1).pc = .recvMsg ∧ ∃ m, s.domain = [m] := by
  intro h conn es
  have hrun : ((machine h).runWithin (fun s e => ¬ s.ReceiveFails e) es
      (initial 5 4 parentDescriptors childDescriptors fun _ => conn)).map (fun s =>
        (s.children 1).pc) = some .recvMsg := by decide +kernel
  obtain ⟨s, hs, hpc⟩ := Option.map_eq_some_iff.mp hrun
  exact ⟨s, hs, hpc, (processServer_channel_capacity h 5 4 parentDescriptors childDescriptors
    (fun _ => conn) s (Machine.reaches_of_runWithin hs)).received 1 hpc⟩

end System

end ScalableServer.ProcessServer
