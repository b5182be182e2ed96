import ScalableServer.OneToOne.Waits

/-! A signal during a call of the one-to-one server. `select`, `accept` and `recv` that end with
EINTR lead to CLOSE_SERVER, as does the self-pipe at the next `select`; the `send` of the reply does
not look at `errno`. -/

namespace ScalableServer.OneToOne

open ScalableServer.Foundations ScalableServer.Core

def Interrupting (answers : Stream' Answer) : Prop :=
  ∀ n e, (answers.get n).outcome = .fail e → e = .EINTR

lemma Interrupting.tail {answers : Stream' Answer} (h : Interrupting answers) :
    Interrupting answers.tail := fun n => h (n + 1)

structure ConnInterrupted (c : Conn) : Prop where
  recvs : Interrupting c.recvs
  sends : Interrupting c.sends
  selects : Interrupting c.selects

def Event.OnlyInterrupted : Event → Prop
  | .pass calls =>
    (∀ e, calls.select.outcome = .fail e → e = .EINTR) ∧
      (∀ e, calls.accept = .error e → e = .EINTR) ∧ ∀ fd c, calls.accept = .ok (fd, c) → ConnInterrupted c
  | .signal => True

structure Served (c : Conn) : Prop where
  recvs : Interrupting c.recvs
  sends : Writable c.sends
  selects : Interrupting c.selects

variable {h : Host} {so : StateObject} {c d : Conn} {r : MsgResult}

lemma ConnInterrupted.served (hc : ConnInterrupted c)
    (hsends : ∀ n, (c.sends.get n).outcome ≠ .fail .EINTR) : Served c := by
  refine ⟨hc.recvs, fun n e he => ?_, hc.selects⟩
  obtain rfl := hc.sends n e he
  exact hsends n he

variable {s s' : Server} {calls : Calls} {e : Event}

def Closes (s : Server) : Prop := ∀ next ∈ s.result, next = .closeServer

end ScalableServer.OneToOne
