import ScalableServer.PollServer.PollRecvAndLog
import ScalableServer.ProcessServer.ChildReceive

namespace ScalableServer.Conversations

open ScalableServer.Foundations ScalableServer.Core

def Exchanges (h : Host) (first : List UInt8 → ℕ) (prior : ℕ) (c : Conn) (s : PayloadLoop)
    (d : Conn) : Prop :=
  ∃ header c₁, c.recv 4 = some (.ok header, c₁) ∧
    h.alloc (h.readWord prior header + 1) = true ∧
    payloadLoop (h.readWord prior header)
      { bytesRead := 0, bytes := first header
        buffer := { size := h.readWord prior header + 1 }, conn := c₁ } = some (.ok (), s) ∧
    ∃ n, s.conn.send (h.wordBytes s.bytesRead) = (.ok n, d)

section Servers

variable {h : Host} {prior : ℕ} {t : Timing} {c d : Conn} {s : PayloadLoop}

lemma pollRecvAndLog_of_exchanges (so : PollServer.StateObject)
    (i : Fin PollServer.maxConnections) (he : Exchanges h List.length prior c s d) :
    PollServer.pollRecvAndLog h so i prior t c =
      some { ret := 0, conn := d, rows := [PollServer.log h so i s.bytesRead t]
             buffer := s.buffer } := by
  obtain ⟨header, c₁, hrecv, halloc, hloop, n, hsend⟩ := he
  simp [PollServer.pollRecvAndLog, hrecv, halloc, hloop, hsend]

lemma exchanges_of_pollRecvAndLog {so : PollServer.StateObject}
    {i : Fin PollServer.maxConnections} {r : PollServer.Handled}
    (hr : PollServer.pollRecvAndLog h so i prior t c = some r) (hret : r.ret = 0) :
    ∃ s, Exchanges h List.length prior c s r.conn := by
  rw [PollServer.pollRecvAndLog] at hr
  split at hr
  · cases hr
  · cases hr
    cases hret
  · rename_i header c₁ hrecv
    dsimp only at hr
    split_ifs at hr with halloc
    · cases hr
      cases hret
    · split at hr
      · cases hr
      · cases hr
        cases hret
      · rename_i s hloop
        split at hr
        · cases hr
          cases hret
        · rename_i n d hsend
          cases hr
          exact ⟨s, header, c₁, hrecv, by simpa using halloc, hloop, n, hsend⟩

def succeeding : ProcessServer.SharedCalls := ⟨.ok 0, .ok 0, .ok 0⟩

lemma cRecvLog_of_exchanges (pid : ℕ) (child : ProcessServer.ChildStruct)
    (he : Exchanges h (fun _ => 1) prior c s d) :
    ProcessServer.cRecvLogNotifyParentRespond h pid child succeeding prior t c =
      some { ret := 0, conn := d, notified := [child.clientFdParent]
             rows := [ProcessServer.cLogRow h pid child s.bytesRead t], buffer := s.buffer } := by
  obtain ⟨header, c₁, hrecv, halloc, hloop, n, hsend⟩ := he
  simp [ProcessServer.cRecvLogNotifyParentRespond, ProcessServer.cGetMessageLength, hrecv, halloc,
    hloop, hsend, ProcessServer.cInformParentRecvFinished, ProcessServer.cLog, succeeding]

lemma exchanges_of_cRecvLog {pid : ℕ} {child : ProcessServer.ChildStruct}
    {r : ProcessServer.Handled}
    (hr : ProcessServer.cRecvLogNotifyParentRespond h pid child succeeding prior t c = some r)
    (hret : r.ret = 0) : ∃ s, Exchanges h (fun _ => 1) prior c s r.conn := by
  rw [ProcessServer.cRecvLogNotifyParentRespond] at hr
  split at hr
  · cases hr
  · rename_i r' c₁ hrecv
    split at hr
    · cases hr
      cases hret
    · rename_i bytesToRead buffer hlen
      obtain ⟨header, rfl, halloc, hb⟩ : ∃ header, r' = .ok header ∧
          h.alloc (h.readWord prior header + 1) = true ∧
          (bytesToRead, buffer) =
            (h.readWord prior header, { size := h.readWord prior header + 1 }) := by
        cases r' with
        | error e => cases hlen
        | ok header =>
          simp only [ProcessServer.cGetMessageLength, Bool.eq_false_iff, ne_eq, ite_not] at hlen
          split_ifs at hlen with halloc
          exact ⟨header, rfl, halloc, (Option.some.inj hlen).symm⟩
      obtain ⟨rfl, rfl⟩ := Prod.mk.inj hb
      split at hr
      · cases hr
      · cases hr
        cases hret
      · rename_i s hloop
        simp only [ProcessServer.cInformParentRecvFinished, ProcessServer.cLog, succeeding] at hr
        split at hr
        · cases hr
          cases hret
        · rename_i n d hsend
          cases hr
          exact ⟨s, header, c₁, hrecv, halloc, hloop, n, hsend⟩

end Servers

end ScalableServer.Conversations
