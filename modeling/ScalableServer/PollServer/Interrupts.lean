import ScalableServer.PollServer.Failures

/-! `poll` is the one call whose EINTR `execute_poll` takes for the end of its loop; `accept`,
`recv` and `send` pass it on as an error. Otherwise the signal ends the loop when it comes to its
condition, `callsLeft` steps later. -/

namespace ScalableServer.PollServer

open ScalableServer.Foundations ScalableServer.Core

def Server.callError (h : Host) (s : Server) : Event → Option Errno
  | .poll (.error e) | .accept (.error e) => some e
  | .run prior _ =>
    match s.pc with
    | .comm k =>
      if hk : k < maxConnections then
        if (s.pollfds.client ⟨k, hk⟩).revents = POLLIN then
          match s.fds (s.pollfds.client ⟨k, hk⟩).fd with
          | some (.accepted _ c) => PollServer.callError h prior c
          | _ => some .EBADF
        else none
      else none
    | _ => none
  | _ => none

def InterruptsOnlyPoll (h : Host) (s : Server) : Event → Prop
  | .poll _ => True
  | e => s.callError h e ≠ some .EINTR

instance (h : Host) (s : Server) : (e : Event) → Decidable (InterruptsOnlyPoll h s e)
  | .poll _ => .isTrue trivial
  | .run _ _ | .accept _ | .deliver _ _ | .hangup _ | .signal => inferInstanceAs (Decidable (_ ≠ _))

def VisitWaits (h : Host) (prior : ℕ) (c : Conn) : Prop :=
  c.Silent ∨ ∃ header d, c.recv 4 = some (.ok header, d) ∧
    PayloadWaits (h.readWord prior header)
      { bytesRead := 0, bytes := header.length
        buffer := { size := h.readWord prior header + 1 }, conn := d }

/-- `poll` may have been entered after the signal, and a `recv` waits for what the client does not
send. -/
def Waits (h : Host) (s : Server) : Prop :=
  s.pc = .poll ∨ ∃ (i : Fin maxConnections) (addr : SockAddr) (c : Conn) (prior : ℕ),
    s.pc = .comm i ∧ (s.pollfds.client i).revents = POLLIN ∧
      s.fds (s.pollfds.client i).fd = some (.accepted addr c) ∧ VisitWaits h prior c

def Event.Succeeds : Event → Prop
  | .run _ _ | .poll (.ok _) | .accept (.ok _) => True
  | .poll (.error _) | .accept (.error _) | .deliver _ _ | .hangup _ | .signal => False

variable {h : Host} {s t : Server} {e : Event} {i : Fin maxConnections}

def Unfailed (s : Server) : Prop := ∀ ret, s.pc = .returned ret → ret = 0

lemma unfailed_of_pc {pc : Pc} (hpc : s.pc = pc) (hreturned : ∀ ret, pc = .returned ret → ret = 0) :
    Unfailed s := fun ret hret => hreturned ret (hpc ▸ hret)

lemma callError_of_serve {prior : ℕ} {ti : Timing} {addr : SockAddr} {c : Conn}
    (hpc : s.pc = .comm i) (hin : (s.pollfds.client i).revents = POLLIN)
    (hc : s.fds (s.pollfds.client i).fd = some (.accepted addr c)) :
    s.callError h (.run prior ti) = PollServer.callError h prior c := by
  simp only [Server.callError, hpc, i.isLt, dif_pos, Fin.eta, hin, if_true, hc]

lemma Unfailed.step (halloc : ∀ n, h.alloc n = true) (hs : Unfailed s)
    (hfails : OnlyInterrupted (s.callError h e)) (hpoll : InterruptsOnlyPoll h s e)
    (hmoves : Moves h s e t) : Unfailed t := by
  cases hmoves with
  | head hpc =>
    intro ret hret
    split_ifs at hret
    exact (Pc.returned.inj hret).symm
  | @serve prior ti i addr c r hpc hin hc hr =>
    rw [callError_of_serve hpc hin hc] at hfails
    have hne : s.callError h (.run prior ti) ≠ some .EINTR := hpoll
    rw [callError_of_serve hpc hin hc] at hne
    have hret := pollRecvAndLog_passes halloc (hfails.none_of_ne hne) hr
    rw [served, if_neg (by simp [hret])]
    exact unfailed_of_pc rfl (by rintro _ ⟨⟩)
  | @serveOther prior ti i hpc hin hc =>
    have hbad : s.callError h (.run prior ti) = some .EBADF := by
      simp only [Server.callError, hpc, i.isLt, dif_pos, Fin.eta, hin, if_true]
    rw [hbad] at hfails
    exact absurd (hfails .EBADF rfl) (by decide)
  | remove hpc hin hup => exact unfailed_of_pc rfl (by rintro _ ⟨⟩)
  | skip hpc hin hup => exact unfailed_of_pc rfl (by rintro _ ⟨⟩)
  | swept hpc => exact unfailed_of_pc rfl (by rintro _ ⟨⟩)
  | poll hpc =>
    intro ret hret
    split_ifs at hret
  | @pollFail err hpc =>
    obtain rfl : err = .EINTR := hfails err rfl
    intro ret hret
    exact (Pc.returned.inj hret).symm
  | accept hpc => exact unfailed_of_pc rfl (by rintro _ ⟨⟩)
  | @acceptFail err hpc =>
    obtain rfl : err = .EINTR := hfails err rfl
    exact (hpoll rfl).elim
  | deliver hc => exact hs
  | hangup hc => exact hs
  | signal => exact hs

lemma Unfailed.closes (hs : Unfailed s) : ∀ next ∈ runResult s, next = .closeServer := by
  intro next hnext
  rw [runResult] at hnext
  split at hnext
  · rename_i ret hpc
    obtain rfl := hs ret hpc
    exact (Option.some.inj hnext).symm
  · cases hnext

end ScalableServer.PollServer
