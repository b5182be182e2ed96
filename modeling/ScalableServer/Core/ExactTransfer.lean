import ScalableServer.Core.Transfer

namespace ScalableServer.Core

open ScalableServer.Foundations

def offset (answers : Stream' Answer) (size : ℕ) : ℕ → ℕ
  | 0 => 0
  | m + 1 =>
    let n := offset answers size m
    n + chunk (answers.get m).amount (size - n) (size - n)

def CallFails (answers : Stream' Answer) (size : ℕ) : Prop :=
  ∃ m, offset answers size m < size ∧ (answers.get m).fails = true

variable {data after : List UInt8} {size m n : ℕ} {c : Conn} {b : Buffer}

lemma offset_mono {answers : Stream' Answer} (h : m ≤ n) :
    offset answers size m ≤ offset answers size n := by
  induction h with
  | refl => exact le_refl _
  | step _ ih => exact ih.trans (Nat.le_add_right _ _)

structure WroteCalls (data : List UInt8) (c : Conn) (m : ℕ) (s : Written) : Prop where
  nwrote : s.nwrote = offset c.sends data.length m
  le : s.nwrote ≤ data.length
  sent : s.conn.sent = c.sent ++ data.take s.nwrote
  sends : s.conn.sends = c.sends.drop m
  succeeded : ∀ j < m, (c.sends.get j).fails = false

lemma WroteCalls.head {s : Written} (hs : WroteCalls data c m s) :
    s.conn.sends.head = c.sends.get m := by
  rw [hs.sends, Stream'.head_drop]

lemma WroteCalls.next {s : Written} {d : Conn} (hs : WroteCalls data c m s)
    (h : s.conn.send ((data.drop s.nwrote).take (data.length - s.nwrote)) = (.ok n, d)) :
    WroteCalls data c (m + 1) { nwrote := s.nwrote + n, conn := d } := by
  have hle := hs.le
  have hrest : (data.drop s.nwrote).take (data.length - s.nwrote) = data.drop s.nwrote := by
    rw [← List.length_drop, List.take_length]
  rw [hrest] at h
  obtain ⟨hn, hsent⟩ := Conn.send_takes h
  rw [List.length_drop] at hn
  have hsends : d.sends = s.conn.sends.tail := by
    have hd : (s.conn.send (data.drop s.nwrote)).2 = d := by rw [h]
    rw [← hd]
    rfl
  have hcall : n = chunk (c.sends.get m).amount (data.length - s.nwrote)
      (data.length - s.nwrote) ∧ (c.sends.get m).fails = false := by
    rw [← hs.head]
    cases ho : s.conn.sends.head.outcome with
    | ok k | cut k =>
      simp only [Conn.send, Sock.send, ho, List.length_drop, Prod.mk.injEq, Except.ok.injEq] at h
      simp only [Answer.amount, Answer.fails, ho, h.1, and_self]
    | fail e => simp [Conn.send, Sock.send, ho] at h
  refine ⟨?_, ?_, ?_, ?_, ?_⟩
  · rw [offset, ← hs.nwrote, ← hcall.1]
  · change s.nwrote + n ≤ data.length
    omega
  · change d.sent = c.sent ++ data.take (s.nwrote + n)
    rw [hsent, hs.sent, List.append_assoc, ← List.take_add]
  · change d.sends = c.sends.drop (m + 1)
    rw [hsends, hs.sends, Stream'.tail_drop, Stream'.drop_succ]
  · intro j hj
    obtain hj | rfl := Nat.lt_succ_iff_lt_or_eq.mp hj
    · exact hs.succeeded j hj
    · exact hcall.2

lemma writeFully_schedule {r : ℤ} {w : Written} (hlen : data.length < 2 ^ 63)
    (h : writeFully data data.length c = some (r, w)) :
    (r = -1 ∧ CallFails c.sends data.length ∧
        ∃ n < data.length, w.conn.sent = c.sent ++ data.take n) ∨
      (r = 0 ∧ ¬ CallFails c.sends data.length ∧ w.conn.sent = c.sent ++ data) := by
  have hssize := ssize_eq hlen
  have hpass : ∀ s : Written, (∃ m, WroteCalls data c m s) →
      (writeFullyBody data data.length s).Keeps (fun s => ∃ m, WroteCalls data c m s) fun r =>
        (r.1 = -1 ∧ CallFails c.sends data.length ∧
            ∃ n < data.length, r.2.conn.sent = c.sent ++ data.take n) ∨
          (r.1 = 0 ∧ ¬ CallFails c.sends data.length ∧ r.2.conn.sent = c.sent ++ data) := by
    rintro s ⟨m, hs⟩
    have hle := hs.le
    rw [writeFullyBody]
    split_ifs with hgo
    · cases hsend : s.conn.send ((data.drop s.nwrote).take (data.length - s.nwrote)) with
      | mk r d =>
        cases r with
        | ok n => exact ⟨m + 1, hs.next hsend⟩
        | error e =>
          have hlt : s.nwrote < data.length := by omega
          have hfails : (c.sends.get m).fails = true ∧ d.sent = s.conn.sent := by
            rw [← hs.head]
            cases ho : s.conn.sends.head.outcome with
            | ok k | cut k => simp [Conn.send, Sock.send, ho] at hsend
            | fail e =>
              simp only [Conn.send, Sock.send, ho, Prod.mk.injEq] at hsend
              simp only [Answer.fails, ho, ← hsend.2, and_self]
          refine .inl ⟨rfl, ⟨m, hs.nwrote ▸ hlt, hfails.1⟩, s.nwrote, hlt, ?_⟩
          exact hfails.2.trans hs.sent
    · obtain hend : s.nwrote = data.length := by omega
      refine .inr ⟨rfl, ?_, by rw [hs.sent, hend, List.take_length]⟩
      -- a call before the end has succeeded, and after it there is none
      rintro ⟨j, hj, hfails⟩
      rcases Nat.lt_or_ge j m with hjm | hjm
      · simp [hs.succeeded j hjm] at hfails
      · have hmono : offset c.sends data.length m ≤ offset c.sends data.length j :=
          offset_mono hjm
        have hnwrote := hs.nwrote
        omega
  refine iterate_keeps hpass ⟨0, rfl, Nat.zero_le _, by simp, rfl, ?_⟩ h
  intro j hj
  omega

lemma readFully_unfailed (hu : c.unread = data ++ after) (hlen : data.length < 2 ^ 63)
    (hr : Writable c.recvs) (hb : b.cells = []) (hw : b.Within data.length) :
    ∃ d, readFully data.length b c = some (0, d) ∧ d.buffer.cells = data ∧
      d.buffer.Within data.length ∧ d.conn.unread = after := by
  have hssize := ssize_eq hlen
  let I : Read → Prop := fun s => s.nread ≤ data.length ∧
    s.conn.unread = data.drop s.nread ++ after ∧ s.buffer.cells = data.take s.nread ∧
    s.buffer.Within data.length ∧ Writable s.conn.recvs
  let Q : ℤ × Read → Prop := fun r => r.1 = 0 ∧ r.2.buffer.cells = data ∧
    r.2.buffer.Within data.length ∧ r.2.conn.unread = after
  have hbody : ∀ s, I s →
      (∃ t, readFullyBody data.length s = .again t ∧ I t ∧
        data.length - t.nread < data.length - s.nread) ∨
      ∃ r, readFullyBody data.length s = .done r ∧ Q r := by
    rintro s ⟨hle, hun, hcells, hwithin, hrecvs⟩
    by_cases hlt : s.nread < data.length
    · have havail : s.conn.unread.length = data.length - s.nread + after.length := by
        rw [hun, List.length_append, List.length_drop]
      have hne : s.conn.unread ≠ [] := by
        rw [← List.length_pos_iff]
        omega
      obtain ⟨k, d, hrecv, hd, hrecvs'⟩ : ∃ k d, s.conn.recv (data.length - s.nread) = _ ∧ _ :=
        Conn.recv_writable hrecvs hne
      set n := chunk k (data.length - s.nread) s.conn.unread.length
      have hpos : 0 < n := chunk_pos (Nat.sub_pos_of_lt hlt) (by omega)
      have hreq : n ≤ data.length - s.nread := chunk_le_request _ _ _
      have htake : s.conn.unread.take n = (data.drop s.nread).take n := by
        rw [hun, List.take_append_of_le_length (by rw [List.length_drop]; omega)]
      have hn : (s.conn.unread.take n).length = n := by
        rw [List.length_take]
        omega
      refine .inl ⟨{ nread := s.nread + n, buffer := s.buffer.store s.nread (s.conn.unread.take n)
                     conn := d }, ?_, ⟨?_, ?_, ?_, ?_, hrecvs'⟩, ?_⟩
      · rw [readFullyBody, if_pos (by omega), hrecv]
        simp only [hn]
      · change s.nread + n ≤ data.length
        omega
      · change d.unread = data.drop (s.nread + n) ++ after
        rw [hd, hun, List.drop_append_of_le_length (by rw [List.length_drop]; omega), List.drop_drop]
      · rw [Buffer.store_cells (by rw [hcells, List.length_take]; omega), hcells, htake,
          ← List.take_add]
      · exact Buffer.store_within hwithin (by omega)
      · change data.length - (s.nread + n) < data.length - s.nread
        omega
    · obtain hend : s.nread = data.length := by omega
      refine .inr ⟨(0, s), readFullyBody_stop (by omega), rfl, ?_, hwithin, ?_⟩
      · rw [hcells, hend, List.take_length]
      · rw [hun, hend, List.drop_length, List.nil_append]
  obtain ⟨⟨r, s⟩, hrun, rfl, hs⟩ := iterate_total I Q (fun s => data.length - s.nread) hbody
    (s := ⟨0, b, c⟩) ⟨Nat.zero_le _, by simp [hu], by simp [hb], hw, hr⟩
    (by change data.length - 0 < data.length + 1; omega)
  exact ⟨s, hrun, hs⟩

theorem writeFully_readFully (data : List UInt8) (hlen : data.length < 2 ^ 63) (c : Conn) :
    ∃ r w, writeFully data data.length c = some (r, w) ∧
      (CallFails c.sends data.length →
        r = -1 ∧ ∃ n < data.length, w.conn.sent = c.sent ++ data.take n) ∧
      (¬ CallFails c.sends data.length → r = 0 ∧ w.conn.sent = c.sent ++ data ∧
        ∀ (d : Conn) (after : List UInt8),
          d.unread = w.conn.sent.drop c.sent.length ++ after → Writable d.recvs →
          ∃ s, readFully data.length { size := data.length } d = some (0, s) ∧
            s.buffer.cells = data ∧ s.buffer.Within data.length ∧ s.conn.unread = after) := by
  obtain ⟨⟨r, w⟩, hrun⟩ := writeFully_total c (le_refl data.length)
  refine ⟨r, w, hrun, ?_, ?_⟩
  · intro hfails
    obtain ⟨hr, -, hsent⟩ | ⟨-, hnone, -⟩ := writeFully_schedule hlen hrun
    · exact ⟨hr, hsent⟩
    · exact (hnone hfails).elim
  · intro hnone
    obtain ⟨-, hfails, -⟩ | ⟨hr, -, hsent⟩ := writeFully_schedule hlen hrun
    · exact (hnone hfails).elim
    · refine ⟨hr, hsent, fun d after hu hrecvs => ?_⟩
      rw [hsent, List.drop_left] at hu
      exact readFully_unfailed hu hlen hrecvs rfl (by simp [Buffer.Within])

def bytewise (unread : List UInt8) : Conn where
  unread := unread
  recvs := Stream'.const (.moves 1)
  sends := Stream'.const (.moves 1)
  selects := Stream'.const (.moves 0)

theorem writeFully_readFully_bytewise :
    ∃ r w s, writeFully [5, 6, 7] 3 (bytewise []) = some (r, w) ∧ r = 0 ∧
      readFully 3 { size := 3 } (bytewise (w.conn.sent ++ [9])) = some (0, s) ∧
      s.buffer.cells = [5, 6, 7] ∧ s.conn.unread = [9] := by
  have hnone : ¬ CallFails (bytewise []).sends 3 := by
    rintro ⟨m, -, hfails⟩
    simp [bytewise, Answer.moves, Answer.fails] at hfails
  obtain ⟨r, w, hrun, -, hsent⟩ := writeFully_readFully [5, 6, 7] (by decide) (bytewise [])
  obtain ⟨hr, -, hread⟩ := hsent hnone
  obtain ⟨s, hs, hcells, -, hunread⟩ :=
    hread (bytewise (w.conn.sent ++ [9])) [9] rfl (fun n e => by simp [bytewise, Answer.moves])
  exact ⟨r, w, s, hrun, hr, hs, hcells, hunread⟩

end ScalableServer.Core
