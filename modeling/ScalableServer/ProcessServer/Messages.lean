import ScalableServer.Foundations.Updates
import ScalableServer.ProcessServer.ChildSteps

/-! A number that the parent has dispatched is in a message in the domain socket, with a child, or
in the pipe; `project` forgets which, and the steps of the system become steps of `Dispatch`. -/

namespace ScalableServer.ProcessServer

open ScalableServer.Foundations ScalableServer.Core

variable {M N : ℕ}

def Phase.held (p : Phase) : Multiset Message := p.message.elim 0 fun m => {m}

def Child.Holds (c : Child) (n : ℤ) : Prop := c.phase.message.map Message.number = some n

instance (c : Child) (n : ℤ) : Decidable (c.Holds n) := inferInstanceAs (Decidable (_ = _))

namespace System

def messages (s : System M N) : Multiset Message :=
  (s.domain : Multiset Message) + ∑ i, (s.children i).phase.held

def numbers (s : System M N) : Multiset ℤ := s.messages.map Message.number + (s.pipe : Multiset ℤ)

def project (s : System M N) : Dispatch M := ⟨s.parent, s.numbers⟩

def ClientCallFails (h : Host) (s : System M N) : Event M N → Prop
  | .child i e => (s.children i).clientCallFails h s.conns e = true
  | _ => False

def OtherCallFails (s : System M N) : Event M N → Prop
  | .parent e => e.isError = true
  | .child i e => (s.children i).otherCallFails e = true
  | _ => False

def CallFails (h : Host) (s : System M N) (e : Event M N) : Prop :=
  s.ClientCallFails h e ∨ s.OtherCallFails e

instance (h : Host) (s : System M N) : (e : Event M N) → Decidable (s.ClientCallFails h e)
  | .child _ _ => inferInstanceAs (Decidable (_ = true))
  | .parent _ | .deliver _ _ | .hangup _ => .isFalse not_false

instance (s : System M N) : (e : Event M N) → Decidable (s.OtherCallFails e)
  | .parent _ | .child _ _ => inferInstanceAs (Decidable (_ = true))
  | .deliver _ _ | .hangup _ => .isFalse not_false

instance (h : Host) (s : System M N) (e : Event M N) : Decidable (s.CallFails h e) :=
  inferInstanceAs (Decidable (_ ∨ _))

variable {h : Host} {s s' t : System M N} {i : Fin N} {c : Child} {a : Action}

lemma initial_messages (listenFd pipeFd : ℤ) (others childOthers : ℤ → Bool)
    (conns : ℕ → Conn) :
    (initial listenFd pipeFd others childOthers conns : System M N).messages = 0 := by
  change (0 : Multiset Message) + _ = 0
  rw [zero_add]
  exact Finset.sum_eq_zero fun _ _ => rfl

lemma initial_project (listenFd pipeFd : ℤ) (others childOthers : ℤ → Bool)
    (conns : ℕ → Conn) :
    (initial listenFd pipeFd others childOthers conns : System M N).project =
      .initial listenFd pipeFd others := by
  rw [project, numbers, initial_messages]
  rfl

lemma mem_numbers {n : ℤ} : n ∈ s.numbers ↔
    (∃ m ∈ s.domain, m.number = n) ∨ (∃ i, (s.children i).Holds n) ∨ n ∈ s.pipe := by
  have hheld : ∀ c : Child, (∃ m ∈ c.phase.held, m.number = n) ↔ c.Holds n := by
    intro c
    rw [Phase.held, Child.Holds]
    cases c.phase.message with
    | none => simp
    | some m => simp
  simp only [numbers, messages, Multiset.mem_add, Multiset.mem_map, Multiset.mem_coe, ← hheld,
    Multiset.mem_sum, Finset.mem_univ, true_and]
  constructor
  · rintro (⟨m, hm | ⟨i, hi⟩, hn⟩ | hp)
    · exact .inl ⟨m, hm, hn⟩
    · exact .inr (.inl ⟨i, m, hi, hn⟩)
    · exact .inr (.inr hp)
  · rintro (⟨m, hm, hn⟩ | ⟨i, m, hi, hn⟩ | hp)
    · exact .inl ⟨m, .inl hm, hn⟩
    · exact .inl ⟨m, .inr ⟨i, hi⟩, hn⟩
    · exact .inr hp

lemma parent_of_step [NeZero M] {e : ParentEvent M} (hstep : s.step h (.parent e) = some t) :
    ∃ p s', s.parent.step e = some p ∧ s.call e = some s' ∧ t = { s' with parent := p } := by
  obtain ⟨p, hp, hcall⟩ := Option.bind_eq_some_iff.mp hstep
  obtain ⟨s', hs', rfl⟩ := Option.map_eq_some_iff.mp hcall
  exact ⟨p, s', hp, hs', rfl⟩

lemma acted_of_step [NeZero M] {e : ChildEvent} (hstep : s.step h (.child i e) = some t) :
    ∃ c a s', (s.children i).step h i s.conns e = some (c, a) ∧ s.act a = some s' ∧
      t = s'.setChild i c := by
  obtain ⟨⟨c, a⟩, hc, hact⟩ := Option.bind_eq_some_iff.mp hstep
  obtain ⟨s', hs', rfl⟩ := Option.map_eq_some_iff.mp hact
  exact ⟨c, a, s', hc, hs', rfl⟩

lemma child_of_step [NeZero M] {e : ChildEvent} (hstep : s.step h (.child i e) = some t) :
    ∃ c a s', (s.children i).Moves h i s.conns e c a ∧ s.act a = some s' ∧ t = s'.setChild i c := by
  obtain ⟨c, a, s', hc, hact, rfl⟩ := acted_of_step hstep
  exact ⟨c, a, s', Child.moves_of_step hc, hact, rfl⟩

structure Called (s : System M N) (e : ParentEvent M) (s' : System M N) : Prop where
  children : s'.children = s.children
  numbers : s'.numbers = s.project.transit e
  messages : ∀ m ∈ s'.messages, m ∈ s.messages ∨
    s.parent.sending = some m.number ∧ s.parent.fds m.number = some m.descriptor
  read : ∀ n, e = .read (.ok n) → n ∈ s.pipe
  nextConn : s.nextConn ≤ s'.nextConn
  accepted : ∀ fd addr conn, e = .accept (.ok (fd, addr, conn)) →
    conn = s.nextConn ∧ s'.nextConn = s.nextConn + 1

lemma called_of_send {d : Descriptor} {fd : ℤ} (hfd : s.parent.sending = some fd)
    (hd : s.parent.fds fd = some d) :
    s.Called (.send (.ok ())) { s with domain := s.domain ++ [⟨fd, d⟩] } := by
  have hmessages : ({ s with domain := s.domain ++ [⟨fd, d⟩] } : System M N).messages =
      s.messages + {⟨fd, d⟩} := by
    change ((s.domain ++ [⟨fd, d⟩] : List Message) : Multiset Message) + _ = _
    rw [← Multiset.coe_add, messages, add_right_comm]
    rfl
  refine ⟨rfl, ?_, fun m hm => ?_, by rintro _ ⟨⟩, le_refl _, by rintro _ _ _ ⟨⟩⟩
  · change _ = s.numbers + Multiset.ofList s.parent.sending.toList
    rw [numbers, hmessages, Multiset.map_add, hfd, numbers, add_right_comm]
    rfl
  · rw [hmessages, Multiset.mem_add, Multiset.mem_singleton] at hm
    rcases hm with hm | rfl
    · exact .inl hm
    · exact .inr ⟨hfd, hd⟩

lemma called_of_read {n : ℤ} {rest : List ℤ} (hpipe : s.pipe = n :: rest) :
    s.Called (.read (.ok n)) { s with pipe := rest, pipeWrite := s.pipeWrite + 1 } := by
  have hnumbers : s.messages.map Message.number + (rest : Multiset ℤ) = s.numbers.erase n := by
    rw [numbers, hpipe, ← Multiset.cons_coe, Multiset.add_cons, Multiset.erase_cons_head]
  refine ⟨rfl, hnumbers, fun m hm => .inl hm, fun n' hn => ?_, le_refl _, by rintro _ _ _ ⟨⟩⟩
  obtain rfl : n = n' := by
    cases hn
    rfl
  rw [hpipe]
  exact List.mem_cons_self

lemma called {e : ParentEvent M} (hcall : s.call e = some s') : s.Called e s' := by
  have hsame : ∀ {s' : System M N}, s'.children = s.children → s'.messages = s.messages →
      s'.numbers = s.project.transit e → s'.nextConn = s.nextConn →
      (∀ r, e ≠ .accept (.ok r)) → (∀ n, e ≠ .read (.ok n)) → s.Called e s' := by
    intro s' hchildren hmessages hnumbers hnext haccept hread
    exact ⟨hchildren, hnumbers, fun m hm => .inl (hmessages ▸ hm), fun n hn => (hread n hn).elim,
      hnext.ge, fun fd addr conn ha => (haccept _ ha).elim⟩
  cases calls_of_call hcall with
  | accept hconn =>
    refine ⟨rfl, rfl, fun m hm => .inl hm, by rintro _ ⟨⟩, Nat.le_succ _, ?_⟩
    rintro _ _ _ ⟨⟩
    exact ⟨hconn, rfl⟩
  | read hpipe => exact called_of_read hpipe
  | send hfd hd => exact called_of_send hfd hd
  | _ => exact hsame rfl rfl rfl rfl (by rintro _ ⟨⟩) (by rintro _ ⟨⟩)

lemma parent_projects [NeZero M] {e : ParentEvent M} (hstep : s.step h (.parent e) = some t) :
    Dispatch.machine.step s.project e = some t.project := by
  obtain ⟨p, s', hp, hcall, rfl⟩ := parent_of_step hstep
  have hnumbers : ({ s' with parent := p } : System M N).numbers = s.project.transit e :=
    (called hcall).numbers
  change (s.parent.step e).map _ = _
  rw [hp, Option.map_some]
  exact congrArg (fun n => some (⟨p, n⟩ : Dispatch M)) hnumbers.symm

lemma act_frame (hact : s.act a = some s') :
    s'.parent = s.parent ∧ s'.children = s.children ∧ s'.nextConn = s.nextConn := by
  cases acts_of_act hact <;> exact ⟨rfl, rfl, rfl⟩

lemma sum_of_act {A : Type*} [AddCommMonoid A] (f : Phase → A) (hact : s.act a = some s') :
    ∑ j, f ((s'.setChild i c).children j).phase + f (s.children i).phase =
      ∑ j, f (s.children j).phase + f c.phase := by
  have hsum := sum_update (fun c : Child => f c.phase) s'.children i c
  rw [(act_frame hact).2.1] at hsum
  rw [setChild]
  rw [(act_frame hact).2.1]
  exact hsum

lemma act_numbers (hphase : (s.children i).phase.Step a c.phase) (hact : s.act a = some s') :
    (s'.setChild i c).numbers = s.numbers ∧ (s'.setChild i c).messages ≤ s.messages := by
  have hheld := sum_of_act (i := i) (c := c) Phase.held hact
  have hsame : s'.domain = s.domain → s'.pipe = s.pipe →
      c.phase.held = (s.children i).phase.held →
      (s'.setChild i c).numbers = s.numbers ∧ (s'.setChild i c).messages ≤ s.messages := by
    intro hdomain hpipe hc
    rw [hc] at hheld
    have hmessages : (s'.setChild i c).messages = s.messages := by
      change (s'.domain : Multiset Message) + _ = _
      rw [add_right_cancel hheld, hdomain, messages]
    refine ⟨?_, hmessages.le⟩
    rw [numbers, hmessages, numbers]
    change _ + (s'.pipe : Multiset ℤ) = _
    rw [hpipe]
  generalize hold : (s.children i).phase = old at hphase hheld hsame
  generalize hnew : c.phase = new at hphase hheld hsame
  cases hphase with
  | recvMsg m =>
    cases acts_of_act hact with
    | @recvMsg _ rest hdomain =>
      have hmessages : (System.setChild { s with domain := rest } i c).messages = s.messages := by
        change (rest : Multiset Message) + _ = _
        have hnone : Phase.receiving.held = 0 := rfl
        have hsome : (Phase.received m).held = {m} := rfl
        rw [hnone, hsome, add_zero] at hheld
        rw [hheld, messages, hdomain, ← Multiset.cons_coe, ← Multiset.singleton_add]
        abel
      exact ⟨by rw [numbers, hmessages, numbers]; rfl, hmessages.le⟩
  | writePipe m =>
    cases acts_of_act hact
    have hsome : (Phase.writing m).held = {m} := rfl
    have hnone : Phase.idle.held = 0 := rfl
    rw [hsome, hnone, add_zero] at hheld
    have hmessages : (System.setChild { s with pipe := s.pipe ++ [m.number] } i c).messages + {m} =
        s.messages := by
      change (s.domain : Multiset Message) + _ + {m} = _
      rw [add_assoc, hheld, messages]
    refine ⟨?_, hmessages ▸ Multiset.le_add_right _ _⟩
    rw [numbers, numbers, ← hmessages, Multiset.map_add, Multiset.map_singleton]
    change _ + ((s.pipe ++ [m.number] : List ℤ) : Multiset ℤ) = _
    rw [← Multiset.coe_add, Multiset.coe_singleton]
    abel
  | _ =>
    cases acts_of_act hact
    exact hsame rfl rfl rfl

lemma initial_working (listenFd pipeFd : ℤ) (others childOthers : ℤ → Bool)
    (conns : ℕ → Conn) (i : Fin N) :
    ((initial listenFd pipeFd others childOthers conns : System M N).children i).Working :=
  ⟨rfl, by rintro ⟨⟩, by rintro _ ⟨⟩⟩

lemma works_of_moves {e : ChildEvent} (hworking : (s.children i).Working)
    (halloc : ∀ n, h.alloc n = true) (hok : ¬ s.CallFails h (.child i e))
    (hmoves : (s.children i).Moves h i s.conns e c a) :
    c.Working ∧ (s.children i).phase.Step a c.phase := by
  have he : e ≠ .fail .EINTR := by
    rintro rfl
    by_cases hpc : (s.children i).pc = .peerName
    · exact hok (.inl (decide_eq_true hpc))
    · exact hok (.inr (decide_eq_true hpc))
  refine (hmoves.working hworking he).resolve_right ?_
  rintro ⟨-, hfail | hfail | ⟨n, hn⟩⟩
  · exact hok (.inl hfail)
  · exact hok (.inr hfail)
  · rw [halloc] at hn
    cases hn

lemma working_of_act (hworking : ∀ j, (s.children j).Working) (hc : c.Working)
    (hact : s.act a = some s') (j : Fin N) : ((s'.setChild i c).children j).Working := by
  change (Function.update s'.children i c j).Working
  rw [(act_frame hact).2.1]
  by_cases hj : j = i
  · subst hj
    rw [Function.update_self]
    exact hc
  · rw [Function.update_of_ne hj]
    exact hworking j

lemma step_projects [NeZero M] {e : Event M N} (hworking : ∀ i, (s.children i).Working)
    (halloc : ∀ n, h.alloc n = true) (hok : ¬ s.CallFails h e) (hstep : s.step h e = some t) :
    (∀ i, (t.children i).Working) ∧ (t.project = s.project ∨
      ∃ e', e = .parent e' ∧ (∀ n, e' = .read (.ok n) → n ∈ s.project.outstanding) ∧
        Dispatch.machine.step s.project e' = some t.project) := by
  -- Where no call fails, only the steps of the parent are seen in the projection.
  cases e with
  | parent e =>
    obtain ⟨u, s', -, hcall, rfl⟩ := parent_of_step hstep
    have hcalled := called hcall
    refine ⟨fun i => ?_, .inr ⟨e, rfl, fun n hn => ?_, parent_projects hstep⟩⟩
    · change (s'.children i).Working
      rw [hcalled.children]
      exact hworking i
    · exact Multiset.mem_add.mpr (.inr (hcalled.read n hn))
  | child i e =>
    obtain ⟨c, a, s', hmoves, hact, rfl⟩ := child_of_step hstep
    obtain ⟨hc, hphase⟩ := works_of_moves (hworking i) halloc hok hmoves
    refine ⟨working_of_act hworking hc hact, .inl ?_⟩
    have hparent : (s'.setChild i c).parent = s.parent := (act_frame hact).1
    rw [project, project, hparent, (act_numbers hphase hact).1]
  | deliver id bytes =>
    obtain rfl := Option.some.inj hstep
    exact ⟨hworking, .inl rfl⟩
  | hangup id =>
    obtain rfl := Option.some.inj hstep
    exact ⟨hworking, .inl rfl⟩

theorem reaches_project [NeZero M] (allowed : Parent M → ParentEvent M → Prop)
    (halloc : ∀ n, h.alloc n = true) {listenFd pipeFd : ℤ} {others childOthers : ℤ → Bool}
    {conns : ℕ → Conn}
    (hs : (machine h).Reaches
      (fun s e => ¬ s.CallFails h e ∧ ∀ e', e = .parent e' → allowed s.parent e')
      (initial listenFd pipeFd others childOthers conns) s) :
    (∀ i, (s.children i).Working) ∧ Dispatch.machine.Reaches
      (fun d e => e.isError = false ∧ allowed d.parent e ∧
        ∀ n, e = .read (.ok n) → n ∈ d.outstanding)
      (.initial listenFd pipeFd others) s.project := by
  rw [← initial_project (N := N) listenFd pipeFd others childOthers conns]
  refine hs.simulation (I := fun s => ∀ i, (s.children i).Working) project
    (initial_working listenFd pipeFd others childOthers conns) ?_
  rintro a e b hworking ⟨hok, hallowed⟩ hstep
  obtain ⟨hb, hsame | ⟨e', rfl, hread, hproject⟩⟩ := step_projects hworking halloc hok hstep
  · exact ⟨hb, hsame ▸ .refl⟩
  · have hruns : e'.isError = false := eq_false_of_ne_true fun hfail => hok (.inr hfail)
    exact ⟨hb, .single ⟨e', ⟨hruns, hallowed e' rfl, hread⟩, hproject⟩⟩

end System

end ScalableServer.ProcessServer
