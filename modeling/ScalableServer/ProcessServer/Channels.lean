import ScalableServer.ProcessServer.Messages

namespace ScalableServer.ProcessServer

open ScalableServer.Foundations ScalableServer.Core

variable {M N : ℕ}

namespace Phase

def taking : Phase → ℕ
  | .receiving | .received _ => 1
  | _ => 0

def unread : Phase → ℕ
  | .receiving => 1
  | _ => 0

def putting : Phase → ℕ
  | .writing _ => 1
  | _ => 0

end Phase

namespace Parent

def giving (s : Parent M) : ℕ :=
  match s.pc with
  | .sendMsg _ | .postRead _ => 1
  | _ => 0

def posting (s : Parent M) : ℕ :=
  match s.pc with
  | .postRead _ => 1
  | _ => 0

end Parent

namespace System

structure Channels (s : System M N) : Prop where
  turn : s.domainRead + s.domainWrite + s.parent.giving + ∑ i, (s.children i).phase.taking = 1
  unread : s.domain.length = s.domainRead + s.parent.posting + ∑ i, (s.children i).phase.unread
  pipe : s.pipeWrite + s.pipe.length + ∑ i, (s.children i).phase.putting = 1

variable {h : Host} {s s' t : System M N} {i : Fin N} {c : Child} {a : Action}

lemma initial_channels (listenFd pipeFd : ℤ) (others childOthers : ℤ → Bool)
    (conns : ℕ → Conn) :
    (initial listenFd pipeFd others childOthers conns : System M N).Channels := by
  have hsum : ∀ f : Phase → ℕ, f .idle = 0 →
      ∑ i, f ((initial listenFd pipeFd others childOthers conns : System M N).children i).phase =
        0 := fun f hf => Finset.sum_eq_zero fun _ _ => hf
  refine ⟨?_, ?_, ?_⟩
  · rw [hsum Phase.taking rfl]
    rfl
  · rw [hsum Phase.unread rfl]
    rfl
  · rw [hsum Phase.putting rfl]
    rfl

lemma Channels.child (hs : s.Channels) (hphase : (s.children i).phase.Step a c.phase)
    (hact : s.act a = some s') : (s'.setChild i c).Channels := by
  obtain ⟨hturn, hunread, hpipe⟩ := hs
  have htaking := sum_of_act (i := i) (c := c) Phase.taking hact
  have hreceiving := sum_of_act (i := i) (c := c) Phase.unread hact
  have hputting := sum_of_act (i := i) (c := c) Phase.putting hact
  have hparent := (act_frame hact).1
  have hmake : s'.domainRead + s'.domainWrite + s.parent.giving +
        ∑ j, ((s'.setChild i c).children j).phase.taking = 1 ∧
      s'.domain.length = s'.domainRead + s.parent.posting +
        ∑ j, ((s'.setChild i c).children j).phase.unread ∧
      s'.pipeWrite + s'.pipe.length + ∑ j, ((s'.setChild i c).children j).phase.putting = 1 →
      (s'.setChild i c).Channels := by
    rintro ⟨ht, hu, hp⟩
    exact ⟨hparent ▸ ht, hparent ▸ hu, hp⟩
  apply hmake
  clear hmake
  generalize hold : (s.children i).phase = old at hphase htaking hreceiving hputting
  generalize hnew : c.phase = new at hphase htaking hreceiving hputting
  cases hphase with
  | recvMsg m =>
    cases acts_of_act hact with
    | recvMsg hdomain =>
      simp only [Phase.taking, Phase.unread, Phase.putting, hdomain, List.length_cons] at *
      omega
  | writePipe m =>
    cases acts_of_act hact
    simp only [Phase.taking, Phase.unread, Phase.putting, List.length_append,
      List.length_singleton] at *
    omega
  | internal =>
    cases acts_of_act hact
    omega
  | _ =>
    cases acts_of_act hact
    simp only [Phase.taking, Phase.unread, Phase.putting] at *
    omega

variable {u : Parent M} {e : ParentEvent M} {p : Fin M}

lemma Channels.same (hs : s.Channels) (hread : t.domainRead = s.domainRead)
    (hwrite : t.domainWrite = s.domainWrite) (hdomain : t.domain = s.domain)
    (hpipe : t.pipeWrite + t.pipe.length = s.pipeWrite + s.pipe.length)
    (hchildren : t.children = s.children) (hold : s.parent.giving = 0 ∧ s.parent.posting = 0)
    (hnew : t.parent.giving = 0 ∧ t.parent.posting = 0) : t.Channels where
  turn := by rw [hread, hwrite, hchildren, hnew.1, ← hold.1, hs.turn]
  unread := by rw [hdomain, hread, hchildren, hnew.2, ← hold.2, hs.unread]
  pipe := by rw [hpipe, hchildren, hs.pipe]

lemma Channels.wait (hs : s.Channels) (hpc : s.parent.pc = .waitWrite p)
    (hcall : s.call (.wait (.ok ())) = some s') :
    ({ s' with parent := s.parent.goto (.sendMsg p) } : System M N).Channels := by
  obtain ⟨hpos⟩ := calls_of_call hcall
  have hturn := hs.turn
  have hunread := hs.unread
  simp only [Parent.giving, hpc] at hturn
  simp only [Parent.posting, hpc] at hunread
  refine ⟨?_, hunread, hs.pipe⟩
  change s.domainRead + (s.domainWrite - 1) + 1 + ∑ i, (s.children i).phase.taking = 1
  omega

lemma Channels.send (hs : s.Channels) (hpc : s.parent.pc = .sendMsg p)
    (hcall : s.call (.send (.ok ())) = some s') :
    ({ s' with parent := s.parent.goto (.postRead p) } : System M N).Channels := by
  obtain ⟨hsending, hd⟩ := calls_of_call hcall
  have hturn := hs.turn
  have hunread := hs.unread
  simp only [Parent.giving, hpc] at hturn
  simp only [Parent.posting, hpc] at hunread
  refine ⟨hturn, ?_, hs.pipe⟩
  change (s.domain ++ [_]).length = s.domainRead + 1 + ∑ i, (s.children i).phase.unread
  rw [List.length_append, hunread, List.length_singleton]
  omega

lemma Channels.post (hs : s.Channels) (hpc : s.parent.pc = .postRead p)
    (hcall : s.call .post = some s') :
    ({ s' with parent := s.parent.goto (.flip p) } : System M N).Channels := by
  obtain rfl := Option.some.inj hcall
  have hturn := hs.turn
  have hunread := hs.unread
  simp only [Parent.giving, hpc] at hturn
  simp only [Parent.posting, hpc] at hunread
  refine ⟨?_, hunread, hs.pipe⟩
  change s.domainRead + 1 + s.domainWrite + 0 + ∑ i, (s.children i).phase.taking = 1
  omega

lemma Channels.parent [NeZero M] (hs : s.Channels) (hmoves : s.parent.Moves e u)
    (hok : e.isError = false) (hcall : s.call e = some s') :
    ({ s' with parent := u } : System M N).Channels := by
  cases hmoves with
  | wait hpc => exact hs.wait hpc hcall
  | send hpc hfd => exact hs.send hpc hcall
  | post hpc => exact hs.post hpc hcall
  | head hpc =>
    obtain rfl := Option.some.inj hcall
    refine hs.same rfl rfl rfl rfl rfl (by simp [Parent.giving, Parent.posting, hpc]) ?_
    split_ifs <;> exact ⟨rfl, rfl⟩
  | @sweep p hpc =>
    obtain rfl := Option.some.inj hcall
    refine hs.same rfl rfl rfl rfl rfl (by simp [Parent.giving, Parent.posting, hpc]) ?_
    rw [Parent.pHandleSocketAction]
    split_ifs <;> exact ⟨rfl, rfl⟩
  | poll hpc =>
    obtain rfl := Option.some.inj hcall
    refine hs.same rfl rfl rfl rfl rfl (by simp [Parent.giving, Parent.posting, hpc]) ?_
    split_ifs <;> exact ⟨rfl, rfl⟩
  | accept hpc =>
    cases calls_of_call hcall
    exact hs.same rfl rfl rfl rfl rfl (by simp [Parent.giving, Parent.posting, hpc]) ⟨rfl, rfl⟩
  | read hpc =>
    cases calls_of_call hcall with
    | @read _ rest hrest =>
      refine hs.same rfl rfl rfl ?_ rfl (by simp [Parent.giving, Parent.posting, hpc]) ⟨rfl, rfl⟩
      change s.pipeWrite + 1 + rest.length = _
      rw [hrest, List.length_cons]
      omega
  | interrupt hpc => cases hok
  | signal =>
    obtain rfl := Option.some.inj hcall
    exact ⟨hs.turn, hs.unread, hs.pipe⟩
  | fail hfail =>
    rw [hok] at hfail
    cases hfail
  | swept hpc | flip hpc =>
    obtain rfl := Option.some.inj hcall
    exact hs.same rfl rfl rfl rfl rfl (by simp [Parent.giving, Parent.posting, hpc]) ⟨rfl, rfl⟩

end System

end ScalableServer.ProcessServer
