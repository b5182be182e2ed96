import ScalableServer.Foundations.Descriptors
import ScalableServer.OneToOne.RunServer

namespace ScalableServer.OneToOne

open ScalableServer.Foundations ScalableServer.Core

def acceptedFd (s : Server) (calls : Calls) : List FdEvent :=
  match acceptConn s calls with
  | (_, .error _) => []
  | (s, .ok _) => [.opened s.so.clientFd]

def noteDescriptors (s : Server) (e : Event) (log : List FdEvent) : List FdEvent :=
  match e with
  | .pass calls => log ++ .closed s.so.clientFd :: acceptedFd s calls
  | .signal => log

def destroyState (s : Server) : List FdEvent := [.closed s.so.listenFd, .closed s.so.clientFd]

def descriptors (listenFd : ℤ) (log : List FdEvent) (s : Server) : List FdEvent :=
  .opened listenFd :: log ++ destroyState s

variable {h : Host} {s t : Server} {e : Event} {log log' : List FdEvent} {listenFd : ℤ}

lemma acceptedFd_count (s : Server) (calls : Calls) :
    closes (acceptedFd s calls) = 0 ∧ opens (acceptedFd s calls) ≤ 1 := by
  rw [acceptedFd]
  split
  · exact ⟨rfl, Nat.zero_le 1⟩
  · exact ⟨rfl, le_refl 1⟩

lemma noteDescriptors_count (s : Server) (e : Event) (hle : opens log ≤ closes log) :
    opens (noteDescriptors s e log) ≤ closes (noteDescriptors s e log) := by
  cases e with
  | signal => exact hle
  | pass calls =>
    obtain ⟨hcloses, hopens⟩ := acceptedFd_count s calls
    rw [noteDescriptors, opens_append, opens_closed, closes_append, closes_closed, hcloses]
    omega

lemma descriptors_count (hle : opens log ≤ closes log) (listenFd : ℤ) (s : Server) :
    opens (descriptors listenFd log s) < closes (descriptors listenFd log s) := by
  have hopens : opens (destroyState s) = 0 := rfl
  have hcloses : closes (destroyState s) = 2 := rfl
  rw [descriptors, opens_append, closes_append, opens_opened, closes_opened, hopens, hcloses]
  omega

theorem not_closesAll (h : Host) (listenFd : ℤ) (es : List Event) (t : Server) (log : List FdEvent)
    (hrun : ((server h).observe noteDescriptors).run es (initial listenFd, []) = some (t, log)) :
    ¬ ClosesAll (descriptors listenFd log t) := by
  intro hcloses
  have hle : opens log ≤ closes log := by
    refine Machine.run_invariant (I := fun q => opens q.2 ≤ closes q.2) (le_refl 0) ?_ es (t, log)
      (List.prefix_refl es) hrun
    intro done e a b _ _ ha hstep
    obtain ⟨-, hlog⟩ := Machine.step_observe hstep
    rw [hlog]
    exact noteDescriptors_count a.1 e ha
  have hlt := descriptors_count hle listenFd t
  exact absurd hcloses.count hlt.ne'

def terminated : List Event :=
  [.signal, .pass { select := .moves 0, accept := .error .EINTR, acceptSignal := false
                    prior := fun _ => 0, t := fun _ => {} }]

theorem not_always_closesAll :
    ¬ ∀ (h : Host) (listenFd : ℤ) (es : List Event) (next : ServerStates) (t : Server)
        (log : List FdEvent), runServer h es (initial listenFd) = some (next, t) →
        ((server h).observe noteDescriptors).run es (initial listenFd, []) = some (t, log) →
        ClosesAll (descriptors listenFd log t) := by
  intro hall
  let h : Host := ⟨.little, fun _ => true, fun _ => []⟩
  let t : Server := { so := ⟨5, 0, {}⟩, signalled := true, result := some .closeServer }
  have hrun : runServer h terminated (initial 5) = some (.closeServer, t) := rfl
  have hlog : ((server h).observe noteDescriptors).run terminated (initial 5, []) =
      some (t, [.closed 0]) := rfl
  exact absurd (hall h 5 terminated .closeServer t [.closed 0] hrun hlog) (by decide)

theorem not_closesAll_terminated :
    let h : Host := ⟨.little, fun _ => true, fun _ => []⟩
    let t : Server := { so := ⟨5, 0, {}⟩, signalled := true, result := some .closeServer }
    ((server h).observe noteDescriptors).run terminated (initial 5, []) = some (t, [.closed 0]) ∧
      ¬ ClosesAll (descriptors 5 [.closed 0] t) := by
  intro h t
  exact ⟨rfl, not_closesAll h 5 terminated t _ rfl⟩

end ScalableServer.OneToOne
