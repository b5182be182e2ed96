import ScalableServer.ProcessServer.Messages
import ScalableServer.ProcessServer.Returns

/-! A signal during a call of the process server. The parent takes EINTR from `poll` for the end of
its loop, and the parent and the children take it from `sem_wait` as if the semaphore had been
there; every other call passes it on as an error. Otherwise the signal ends the loop of a process
when it comes to its condition, `callsLeft` steps later. -/

namespace ScalableServer.ProcessServer

open ScalableServer.Foundations ScalableServer.Core

variable {M N : ℕ}

def ParentEvent.callError : ParentEvent M → Option Errno
  | .poll (.error e) | .accept (.error e) | .read (.error e) | .wait (.error e)
  | .send (.error e) => some e
  | _ => none

def ParentEvent.InterruptsOnlyWaits : ParentEvent M → Prop
  | .poll _ | .wait _ => True
  | e => e.callError ≠ some .EINTR

instance : (e : ParentEvent M) → Decidable e.InterruptsOnlyWaits
  | .poll _ | .wait _ => .isTrue trivial
  | .run | .accept _ | .read _ | .send _ | .post | .signal => inferInstanceAs (Decidable (_ ≠ _))

namespace Parent

def Unfailed (s : Parent M) : Prop := ∀ ret, s.pc = .returned ret → ret = 0

variable {s t : Parent M} {e : ParentEvent M} {p : Fin M}

lemma error_of_step [NeZero M] (he : e.isError = true) (hfails : OnlyInterrupted e.callError)
    (hwaits : e.InterruptsOnlyWaits) (hstep : s.step e = some t) :
    t.gogo = s.gogo ∧ (s.pc = .poll ∧ t.pc = .returned 0 ∨
      ∃ p, s.pc = .waitWrite p ∧ t.pc = .flip p) := by
  cases e with
  | poll result =>
    cases result with
    | ok r => cases he
    | error err =>
      obtain rfl : err = .EINTR := hfails err rfl
      simp only [step] at hstep
      split_ifs at hstep with hpc
      obtain rfl := Option.some.inj hstep
      exact ⟨rfl, .inl ⟨hpc, rfl⟩⟩
  | wait result =>
    cases result with
    | ok r => cases he
    | error err =>
      obtain rfl : err = .EINTR := hfails err rfl
      simp only [step] at hstep
      split at hstep
      · rename_i p hpc
        obtain rfl := Option.some.inj hstep
        exact ⟨rfl, .inr ⟨p, hpc, rfl⟩⟩
      · cases hstep
  | accept result | read result | send result =>
    cases result with
    | ok r => cases he
    | error err =>
      obtain rfl : err = .EINTR := hfails err rfl
      exact (hwaits rfl).elim
  | _ => cases he

lemma Unfailed.step [NeZero M] (hs : s.Unfailed) (hfails : OnlyInterrupted e.callError)
    (hwaits : e.InterruptsOnlyWaits) (hstep : s.step e = some t) : t.Unfailed := by
  have hpc' : ∀ {pc : ParentPc M}, t.pc = pc → (∀ ret, pc ≠ .returned ret) → t.Unfailed :=
    fun hpc hne ret hret => (hne ret (hpc ▸ hret)).elim
  by_cases herror : e.isError = true
  · obtain ⟨-, ⟨-, hpc⟩ | ⟨p, -, hpc⟩⟩ := error_of_step herror hfails hwaits hstep
    · intro ret hret
      rw [hpc] at hret
      exact (ParentPc.returned.inj hret).symm
    · exact hpc' hpc (by rintro _ ⟨⟩)
  · cases moves_of_step hstep with
    | head hpc =>
      intro ret hret
      simp only [goto] at hret
      split_ifs at hret
      exact (ParentPc.returned.inj hret).symm
    | @sweep p hpc =>
      intro ret hret
      rw [pHandleSocketAction] at hret
      split_ifs at hret <;> cases hret
    | poll hpc =>
      intro ret hret
      simp only [goto] at hret
      split_ifs at hret
    | signal => exact hs
    | interrupt => exact (herror rfl).elim
    | fail he => exact (herror he).elim
    | _ => exact hpc' rfl (by rintro _ ⟨⟩)

end Parent

def errorOf {α : Type*} : Except Errno α → Option Errno
  | .error e => some e
  | .ok _ => none

namespace Child

def callError (h : Host) (conns : ℕ → Conn) (c : Child) : ChildEvent → Option Errno
  | .fail e => some e
  | .run _ _ =>
    match c.pc, c.conn with
    | .header, some id => ((conns id).recv 4).bind fun r => errorOf r.1
    | .payload n k b buffer, some id =>
      match payloadBody n ⟨k, b, buffer, conns id⟩ with
      | .done (r, _) => errorOf r
      | _ => none
    | .reply n, some id => errorOf ((conns id).send (h.wordBytes n)).1
    | .header, none | .payload _ _ _ _, none | .reply _, none => some .EBADF
    | _, _ => none
  | _ => none

def waiting (c : Child) : Bool :=
  match c.pc with
  | .waitRead | .waitPipe _ | .waitLog _ => true
  | _ => false

def InterruptsOnlyWaits (h : Host) (conns : ℕ → Conn) (c : Child) (e : ChildEvent) : Prop :=
  c.callError h conns e = some .EINTR → c.waiting = true

instance (h : Host) (conns : ℕ → Conn) (c : Child) (e : ChildEvent) :
    Decidable (c.InterruptsOnlyWaits h conns e) :=
  inferInstanceAs (Decidable (_ → _))

structure Unfailed (c : Child) : Prop where
  receiving : c.pc ≠ .postWrite false
  returned : ∀ ret, c.pc = .returned ret → ret = 0

variable {h : Host} {pid prior : ℕ} {t : Timing} {conns : ℕ → Conn} {c c' : Child} {e : ChildEvent}
  {a : Action} {err : Errno}

lemma unfailed_of_pc {pc : ChildPc} (hpc : c.pc = pc) (hreceiving : pc ≠ .postWrite false)
    (hreturned : ∀ ret, pc = .returned ret → ret = 0) : c.Unfailed :=
  ⟨hpc ▸ hreceiving, fun ret hret => hreturned ret (hpc ▸ hret)⟩

lemma errorOf_isSome {α : Type*} {r : Except Errno α} (hr : (!r.isOk) = true) :
    (errorOf r).isSome = true := by
  cases r with
  | error e => rfl
  | ok x => cases hr

lemma callError_of_fails (hfail : c.clientCallFails h conns (.run prior t) = true) :
    (c.callError h conns (.run prior t)).isSome = true := by
  cases hpc : c.pc with
  | header =>
    simp only [clientCallFails, hpc] at hfail
    cases hconn : c.conn with
    | none => simp only [callError, hpc, hconn, Option.isSome_some]
    | some id =>
      simp only [callError, hpc, hconn]
      cases hrecv : (conns id).recv 4 with
      | none => simp [hconn, hrecv] at hfail
      | some r =>
        rw [hconn, Option.all_some, hrecv, Option.any_some] at hfail
        exact errorOf_isSome hfail
  | payload n k b buffer =>
    simp only [clientCallFails, hpc] at hfail
    cases hconn : c.conn with
    | none => simp only [callError, hpc, hconn, Option.isSome_some]
    | some id =>
      simp only [callError, hpc, hconn]
      rw [hconn, Option.all_some] at hfail
      cases hbody : payloadBody n ⟨k, b, buffer, conns id⟩ with
      | done q =>
        rw [hbody] at hfail
        exact errorOf_isSome hfail
      | again s | blocked =>
        rw [hbody] at hfail
        cases hfail
  | reply n =>
    simp only [clientCallFails, hpc] at hfail
    cases hconn : c.conn with
    | none => simp only [callError, hpc, hconn, Option.isSome_some]
    | some id =>
      simp only [callError, hpc, hconn]
      rw [hconn, Option.all_some] at hfail
      exact errorOf_isSome hfail
  | _ => simp [clientCallFails, hpc] at hfail

lemma run_succeeds (hfails : OnlyInterrupted (c.callError h conns (.run prior t)))
    (hwaits : c.InterruptsOnlyWaits h conns (.run prior t)) :
    c.clientCallFails h conns (.run prior t) = false := by
  -- `run` is not a wait, so the call that it returns from has succeeded.
  by_contra hfail
  obtain ⟨err, herr⟩ := Option.isSome_iff_exists.mp
    (callError_of_fails (Bool.eq_true_of_not_eq_false hfail))
  obtain rfl := hfails err herr
  have hwaiting := hwaits herr
  cases hpc : c.pc <;> simp only [waiting, hpc, Bool.false_eq_true] at hwaiting <;>
    simp [callError, hpc] at herr

lemma calls_succeed (halloc : ∀ n, h.alloc n = true)
    (hfails : OnlyInterrupted (c.callError h conns e)) (hwaits : c.InterruptsOnlyWaits h conns e)
    (he : ∀ err, e ≠ .fail err) : ¬ (c.clientCallFails h conns e = true ∨
      c.otherCallFails e = true ∨ ∃ n, h.alloc n = false) := by
  rintro (hclient | hother | ⟨n, hn⟩)
  · cases e with
    | run prior t => simp [run_succeeds hfails hwaits] at hclient
    | fail err => exact he err rfl
    | _ => cases hclient
  · cases e with
    | fail err => exact he err rfl
    | _ => cases hother
  · rw [halloc] at hn
    cases hn

lemma fail_of_step (hfails : OnlyInterrupted (c.callError h conns (.fail err)))
    (hwaits : c.InterruptsOnlyWaits h conns (.fail err))
    (hstep : c.step h pid conns (.fail err) = some (c', a)) :
    c'.gogo = c.gogo ∧ (c.pc = .waitRead ∧ c'.pc = .close ∨
      (∃ n, c.pc = .waitPipe n ∧ c'.pc = .waitLog n) ∨
      ∃ n, c.pc = .waitLog n ∧ c'.pc = .reply n) := by
  obtain rfl : err = .EINTR := hfails err rfl
  have hwaiting := hwaits rfl
  cases hpc : c.pc with
  | waitRead =>
    simp only [step, hpc, interrupted, if_true, Option.some.injEq, Prod.mk.injEq] at hstep
    obtain ⟨rfl, -⟩ := hstep
    exact ⟨rfl, .inl ⟨rfl, rfl⟩⟩
  | waitPipe n =>
    simp only [step, hpc, interrupted, if_true, Option.some.injEq, Prod.mk.injEq] at hstep
    obtain ⟨rfl, -⟩ := hstep
    exact ⟨rfl, .inr (.inl ⟨n, rfl, rfl⟩)⟩
  | waitLog n =>
    simp only [step, hpc, interrupted, if_true, Option.some.injEq, Prod.mk.injEq] at hstep
    obtain ⟨rfl, -⟩ := hstep
    exact ⟨rfl, .inr (.inr ⟨n, rfl, rfl⟩)⟩
  | _ => simp [waiting, hpc] at hwaiting

lemma Unfailed.step (halloc : ∀ n, h.alloc n = true) (hc : c.Unfailed)
    (hfails : OnlyInterrupted (c.callError h conns e)) (hwaits : c.InterruptsOnlyWaits h conns e)
    (hstep : c.step h pid conns e = some (c', a)) : c'.Unfailed := by
  by_cases he : ∃ err, e = .fail err
  · obtain ⟨err, rfl⟩ := he
    obtain ⟨-, ⟨-, hpc⟩ | ⟨n, -, hpc⟩ | ⟨n, -, hpc⟩⟩ := fail_of_step hfails hwaits hstep <;>
      exact unfailed_of_pc hpc (by rintro ⟨⟩) (by rintro _ ⟨⟩)
  · rw [not_exists] at he
    have hmoves := moves_of_step hstep
    cases hmoves with
    | leave hpc hgogo =>
      exact unfailed_of_pc rfl (by rintro ⟨⟩) fun ret hret => (ChildPc.returned.inj hret).symm
    | @postWrite received hpc =>
      cases received with
      | false => exact (hc.receiving hpc).elim
      | true => exact unfailed_of_pc rfl (by rintro ⟨⟩) (by rintro _ ⟨⟩)
    | peerName hpc =>
      refine ⟨?_, fun ret hret => ?_⟩
      · dsimp only
        split_ifs <;> rintro ⟨⟩
      · dsimp only at hret
        split_ifs at hret
    | recv hpc hpc' =>
      obtain ⟨n, k, b, buffer, rfl⟩ := hpc'
      exact unfailed_of_pc rfl (by rintro ⟨⟩) (by rintro _ ⟨⟩)
    | interrupt => exact (he _ rfl).elim
    | signal => exact ⟨hc.receiving, hc.returned⟩
    | fail _ hfail => exact (calls_succeed halloc hfails hwaits he hfail).elim
    | _ => exact unfailed_of_pc rfl (by rintro ⟨⟩) (by rintro _ ⟨⟩)

lemma payloadBody_again {n : ℕ} {s u : PayloadLoop} (hbody : payloadBody n s = .again u) :
    s.bytes ≠ 0 := by
  rw [payloadBody] at hbody
  split_ifs at hbody with hgo
  exact hgo.2

end Child

namespace System

def callError (h : Host) (s : System M N) : Process N → Event M N → Option Errno
  | .parent, .parent e => e.callError
  | .child i, .child j e => if j = i then (s.children i).callError h s.conns e else none
  | _, _ => none

def InterruptsOnlyWaits (h : Host) (s : System M N) : Process N → Event M N → Prop
  | .parent, .parent e => e.InterruptsOnlyWaits
  | .child i, .child j e => j = i → (s.children i).InterruptsOnlyWaits h s.conns e
  | _, _ => True

instance (h : Host) (s : System M N) : (p : Process N) → (e : Event M N) →
    Decidable (s.InterruptsOnlyWaits h p e)
  | .parent, .parent _ => inferInstanceAs (Decidable (ParentEvent.InterruptsOnlyWaits _))
  | .child _, .child _ _ => inferInstanceAs (Decidable (_ → _))
  | .parent, .child _ _ | .parent, .deliver _ _ | .parent, .hangup _ | .child _, .parent _
  | .child _, .deliver _ _ | .child _, .hangup _ => .isTrue trivial

def gogo (s : System M N) : Process N → Bool
  | .parent => s.parent.gogo
  | .child i => (s.children i).gogo

def Unfailed (s : System M N) : Process N → Prop
  | .parent => s.parent.Unfailed
  | .child i => (s.children i).Unfailed

end System

def Process.bound (M : ℕ) : Process N → ℕ
  | .parent => 5 * M + 3
  | .child _ => 14

namespace System

variable {h : Host} {s t : System M N} {p : Process N} {e : Event M N}

lemma Unfailed.closes (hs : s.Unfailed p) : ∀ next ∈ s.result p, next = .closeServer := by
  intro next hnext
  cases p with
  | parent =>
    rw [result, Parent.result] at hnext
    split at hnext
    · rename_i ret hpc
      obtain rfl := hs ret hpc
      exact (Option.some.inj hnext).symm
    · cases hnext
  | child i =>
    rw [result, Child.result] at hnext
    split at hnext
    · rename_i ret hpc
      obtain rfl := hs.returned ret hpc
      exact (Option.some.inj hnext).symm
    · cases hnext

end System

end ScalableServer.ProcessServer
