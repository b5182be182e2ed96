import ScalableServer.Core.PayloadLoop

/-! `write_fully`, of which the client and the controller have one text, and the client's
`read_fully`. The bound of both loops is the size converted to `ssize_t`. -/

namespace ScalableServer.Core

open ScalableServer.Foundations

def ssize (size : ℕ) : ℤ := (BitVec.ofNat 64 size).toInt

lemma ssize_eq {size : ℕ} (h : size < 2 ^ 63) : ssize size = size := by
  have hmod : (BitVec.ofNat 64 size).toNat = size := by
    rw [BitVec.toNat_ofNat, Nat.mod_eq_of_lt (by omega)]
  rw [ssize, BitVec.toInt_eq_toNat_of_lt (by omega), hmod]

lemma ssize_le (size : ℕ) : ssize size ≤ size := by
  have hle : (BitVec.ofNat 64 size).toNat ≤ size := by
    rw [BitVec.toNat_ofNat]
    exact Nat.mod_le _ _
  rw [ssize, BitVec.toInt_eq_toNat_cond]
  split_ifs <;> omega

structure Written where
  nwrote : ℕ := 0
  conn : Conn

def writeFullyBody (data : List UInt8) (size : ℕ) (s : Written) : Iter Written (ℤ × Written) :=
  if (s.nwrote : ℤ) < ssize size then
    match s.conn.send ((data.drop s.nwrote).take (size - s.nwrote)) with
    | (.error _, c) => .done (-1, { s with conn := c })
    | (.ok result, c) => .again { nwrote := s.nwrote + result, conn := c }
  else .done (0, s)

def writeFully (data : List UInt8) (size : ℕ) (c : Conn) : Option (ℤ × Written) :=
  iterate (writeFullyBody data size) (size + 1) { conn := c }

structure Read where
  nread : ℕ := 0
  buffer : Buffer
  conn : Conn

def readFullyBody (size : ℕ) (s : Read) : Iter Read (ℤ × Read) :=
  if (s.nread : ℤ) < ssize size then
    match s.conn.recv (size - s.nread) with
    | none => .blocked
    | some (.error _, c) => .done (-1, { s with conn := c })
    | some (.ok bs, c) =>
      .again { nread := s.nread + bs.length, buffer := s.buffer.store s.nread bs, conn := c }
  else .done (0, s)

def readFully (size : ℕ) (b : Buffer) (c : Conn) : Option (ℤ × Read) :=
  iterate (readFullyBody size) (size + 1) { buffer := b, conn := c }

section Write

variable {data : List UInt8} {size : ℕ} {c : Conn}

lemma writeFullyBody_stop {s : Written} (h : ¬ (s.nwrote : ℤ) < ssize size) :
    writeFullyBody data size s = .done (0, s) := if_neg h

lemma writeFullyBody_moves {s : Written} {k : ℕ} (hgo : (s.nwrote : ℤ) < ssize size)
    (hk : s.conn.sends.head = .moves k) (hdata : size ≤ data.length) (hlt : s.nwrote < size) :
    writeFullyBody data size s = .again
      { nwrote := s.nwrote + chunk k (size - s.nwrote) (size - s.nwrote)
        conn := s.conn.accepted
          ((data.drop s.nwrote).take (chunk k (size - s.nwrote) (size - s.nwrote))) } := by
  have hlen : ((data.drop s.nwrote).take (size - s.nwrote)).length = size - s.nwrote := by
    rw [List.length_take, List.length_drop]
    omega
  have hsend := Conn.send_moves ((data.drop s.nwrote).take (size - s.nwrote)) hk
  rw [hlen, List.take_take, min_eq_left (chunk_le_request _ _ _)] at hsend
  rw [writeFullyBody, if_pos hgo, hsend]

lemma writeFully_quiet (hdata : size ≤ data.length) (hsize : size < 2 ^ 63)
    (hs : Undisturbed c.sends) :
    ∃ r, writeFully data size c = some (0, r) ∧ r.conn.sent = c.sent ++ data.take size ∧
      c.SameInput r.conn ∧ Undisturbed r.conn.sends := by
  have hssize := ssize_eq hsize
  let I : Written → Prop := fun s => s.nwrote ≤ size ∧
    s.conn.sent = c.sent ++ data.take s.nwrote ∧ c.SameInput s.conn ∧ Undisturbed s.conn.sends
  let Q : ℤ × Written → Prop := fun r => r.1 = 0 ∧ r.2.conn.sent = c.sent ++ data.take size ∧
    c.SameInput r.2.conn ∧ Undisturbed r.2.conn.sends
  have hbody : ∀ s, I s →
      (∃ t, writeFullyBody data size s = .again t ∧ I t ∧ size - t.nwrote < size - s.nwrote) ∨
        ∃ r, writeFullyBody data size s = .done r ∧ Q r := by
    rintro s ⟨hle, hsent, hin, hsends⟩
    by_cases hlt : s.nwrote < size
    · obtain ⟨k, hk⟩ := hsends.head
      have hpos := chunk_pos (k := k) (Nat.sub_pos_of_lt hlt) (Nat.sub_pos_of_lt hlt)
      have hreq := chunk_le_request k (size - s.nwrote) (size - s.nwrote)
      refine .inl ⟨_, writeFullyBody_moves (by omega) hk hdata hlt, ⟨?_, ?_, ?_, hsends.tail⟩, ?_⟩
      · change s.nwrote + _ ≤ size
        omega
      · change s.conn.sent ++ _ = _
        rw [hsent, List.append_assoc, ← List.take_add]
      · exact hin.trans (Conn.accepted_sameInput _ _)
      · change size - (s.nwrote + _) < size - s.nwrote
        omega
    · obtain hnw : s.nwrote = size := by omega
      exact .inr ⟨(0, s), writeFullyBody_stop (by omega), rfl, by rw [hsent, hnw], hin, hsends⟩
  obtain ⟨⟨r, s⟩, hr, rfl, hs'⟩ := iterate_total I Q (fun s => size - s.nwrote) hbody (s := ⟨0, c⟩)
    ⟨Nat.zero_le _, by simp, .refl c, hs⟩ (by change size - 0 < size + 1; omega)
  exact ⟨s, hr, hs'⟩

lemma writeFully_total (c : Conn) (hdata : size ≤ data.length) :
    ∃ r, writeFully data size c = some r := by
  have hbody : ∀ s : Written, True →
      (∃ t, writeFullyBody data size s = .again t ∧ True ∧ size - t.nwrote < size - s.nwrote) ∨
        ∃ r, writeFullyBody data size s = .done r ∧ True := by
    intro s _
    by_cases hgo : (s.nwrote : ℤ) < ssize size
    · have hlt : s.nwrote < size := by
        have hle := ssize_le size
        omega
      have hrest : 0 < ((data.drop s.nwrote).take (size - s.nwrote)).length := by
        rw [List.length_take, List.length_drop]
        omega
      rw [writeFullyBody, if_pos hgo]
      cases hsend : s.conn.send ((data.drop s.nwrote).take (size - s.nwrote)) with
      | mk r d =>
        cases r with
        | error e => exact .inr ⟨_, rfl, trivial⟩
        | ok n =>
          have hn : 0 < n := Conn.send_ok_pos hrest hsend
          refine .inl ⟨_, rfl, trivial, ?_⟩
          change size - (s.nwrote + n) < size - s.nwrote
          omega
    · exact .inr ⟨(0, s), writeFullyBody_stop hgo, trivial⟩
  obtain ⟨r, hr, -⟩ := iterate_total (fun _ => True) (fun _ => True)
    (fun s : Written => size - s.nwrote) hbody (s := ⟨0, c⟩) trivial
    (by change size - 0 < size + 1; omega)
  exact ⟨r, hr⟩

lemma writeFully_result {r : ℤ} {w : Written} (h : writeFully data size c = some (r, w)) :
    r = 0 ∨ r = -1 := by
  let Q : ℤ × Written → Prop := fun q => q.1 = 0 ∨ q.1 = -1
  have hpass : ∀ s, True → (writeFullyBody data size s).Keeps (fun _ => True) Q := by
    intro s _
    rw [writeFullyBody]
    split_ifs
    · cases hsend : s.conn.send ((data.drop s.nwrote).take (size - s.nwrote)) with
      | mk r d =>
        cases r with
        | error e => exact .inr rfl
        | ok n => trivial
    · exact .inl rfl
  exact iterate_keeps hpass trivial h

lemma writeFully_sent {r : ℤ} {w : Written} (hdata : size ≤ data.length) (hsize : size < 2 ^ 63)
    (h : writeFully data size c = some (r, w)) (hr : r ≠ -1) :
    w.conn.sent = c.sent ++ data.take size := by
  have hssize := ssize_eq hsize
  let I : Written → Prop := fun s => s.nwrote ≤ size ∧ s.conn.sent = c.sent ++ data.take s.nwrote
  let Q : ℤ × Written → Prop := fun r => r.1 ≠ -1 → r.2.conn.sent = c.sent ++ data.take size
  have hpass : ∀ s, I s → (writeFullyBody data size s).Keeps I Q := by
    rintro s ⟨hle, hsent⟩
    rw [writeFullyBody]
    split_ifs
    · cases hsend : s.conn.send ((data.drop s.nwrote).take (size - s.nwrote)) with
      | mk r d =>
        cases r with
        | error e => exact fun hq => (hq rfl).elim
        | ok n =>
          obtain ⟨hn, hsent'⟩ := Conn.send_takes hsend
          rw [List.length_take, List.length_drop] at hn
          refine ⟨by change s.nwrote + n ≤ size; omega, ?_⟩
          rw [hsent', hsent, List.take_take, min_eq_left (by omega), List.append_assoc,
            ← List.take_add]
    · intro _
      obtain hnw : s.nwrote = size := by omega
      rw [hsent, hnw]
  exact iterate_keeps hpass ⟨Nat.zero_le _, by simp⟩ h hr

lemma writeFully_writable {r : ℤ} {w : Written} (h : writeFully data size c = some (r, w))
    (hs : Writable c.sends) : r ≠ -1 ∧ Writable w.conn.sends := by
  let I : Written → Prop := fun s => Writable s.conn.sends
  let Q : ℤ × Written → Prop := fun r => r.1 ≠ -1 ∧ Writable r.2.conn.sends
  have hpass : ∀ s, I s → (writeFullyBody data size s).Keeps I Q := by
    intro s hw
    obtain ⟨n, d, hsend, hw'⟩ := Conn.send_writable ((data.drop s.nwrote).take (size - s.nwrote)) hw
    rw [writeFullyBody, hsend]
    split_ifs
    · exact hw'
    · exact ⟨by simp, hw⟩
  exact iterate_keeps hpass hs h

/-- Whether two bytes can be written: where the first call moves one byte, the second is for the
other. -/
def takesWord (answers : Stream' Answer) : Bool :=
  match answers.head.outcome with
  | .fail _ => false
  | .ok k | .cut k => 2 ≤ k || !answers.tail.head.fails

lemma writeFullyBody_fails {s : Written} {e : Errno} (hgo : (s.nwrote : ℤ) < ssize size)
    (hk : s.conn.sends.head.outcome = .fail e) :
    ∃ t, writeFullyBody data size s = .done (-1, t) := by
  rw [writeFullyBody, if_pos hgo, Conn.send_fails hk]
  exact ⟨_, rfl⟩

lemma writeFullyBody_passes {s : Written} {k : ℕ} (hgo : (s.nwrote : ℤ) < ssize size)
    (hk : s.conn.sends.head.outcome = .ok k ∨ s.conn.sends.head.outcome = .cut k)
    (hdata : data.length = size) :
    ∃ t, writeFullyBody data size s = .again t ∧ t.conn.sends = s.conn.sends.tail ∧
      t.nwrote = s.nwrote + chunk k (size - s.nwrote) (size - s.nwrote) := by
  have hlen : ((data.drop s.nwrote).take (size - s.nwrote)).length = size - s.nwrote := by
    rw [List.length_take, List.length_drop]
    omega
  have hsend := Conn.send_moves_or_cut ((data.drop s.nwrote).take (size - s.nwrote)) hk
  rw [hlen] at hsend
  rw [writeFullyBody, if_pos hgo, hsend]
  exact ⟨_, rfl, rfl, rfl⟩

lemma writeFully_half {s : Written} (hdata : data.length = 2) (hs : s.nwrote = 1) :
    ∃ r w, iterate (writeFullyBody data 2) 2 s = some (r, w) ∧
      (r = -1 ↔ s.conn.sends.head.fails = true) := by
  -- The second pass for two bytes, where the first has moved one.
  have hssize : ssize 2 = 2 := ssize_eq (by decide)
  have hpass : ∀ k, s.conn.sends.head.outcome = .ok k ∨ s.conn.sends.head.outcome = .cut k →
      ∃ w, iterate (writeFullyBody data 2) 2 s = some (0, w) := by
    intro k hk
    obtain ⟨t, ht, -, hn⟩ := writeFullyBody_passes (by omega) hk hdata
    have hn2 : t.nwrote = 2 := by
      simp only [hs, chunk] at hn
      omega
    rw [iterate_again ht]
    exact ⟨t, iterate_done (writeFullyBody_stop (by omega))⟩
  cases ho : s.conn.sends.head.outcome with
  | ok k =>
    obtain ⟨w, hw⟩ := hpass k (.inl ho)
    exact ⟨0, w, hw, by simp [Answer.fails, ho]⟩
  | cut k =>
    obtain ⟨w, hw⟩ := hpass k (.inr ho)
    exact ⟨0, w, hw, by simp [Answer.fails, ho]⟩
  | fail e =>
    have hfails : ∃ t, writeFullyBody data 2 s = .done (-1, t) := writeFullyBody_fails (by omega) ho
    obtain ⟨t, ht⟩ := hfails
    exact ⟨-1, t, iterate_done ht, by simp [Answer.fails, ho]⟩

lemma writeFully_word (c : Conn) (hdata : data.length = 2) :
    ∃ r w, writeFully data 2 c = some (r, w) ∧ (r = -1 ↔ takesWord c.sends = false) := by
  have hssize : ssize 2 = 2 := ssize_eq (by decide)
  have hpass : ∀ k, c.sends.head.outcome = .ok k ∨ c.sends.head.outcome = .cut k →
      ∃ r w, writeFully data 2 c = some (r, w) ∧
        (r = -1 ↔ ¬ 2 ≤ k ∧ c.sends.tail.head.fails = true) := by
    intro k hk
    obtain ⟨t, ht, hsends, hn⟩ :=
      writeFullyBody_passes (s := { conn := c }) (by simp [hssize]) hk hdata
    simp only [chunk] at hn
    rw [writeFully, iterate_again ht, ← hsends]
    by_cases h2 : 2 ≤ k
    · have hn2 : t.nwrote = 2 := by omega
      exact ⟨0, t, iterate_done (writeFullyBody_stop (by omega)), by simp [h2]⟩
    · have hn1 : t.nwrote = 1 := by omega
      obtain ⟨r, w, hr, hfails⟩ := writeFully_half hdata hn1
      exact ⟨r, w, hr, by simp [h2, hfails]⟩
  cases ho : c.sends.head.outcome with
  | ok k =>
    obtain ⟨r, w, hr, hfails⟩ := hpass k (.inl ho)
    exact ⟨r, w, hr, by simp [takesWord, ho, hfails]⟩
  | cut k =>
    obtain ⟨r, w, hr, hfails⟩ := hpass k (.inr ho)
    exact ⟨r, w, hr, by simp [takesWord, ho, hfails]⟩
  | fail e =>
    have hfails : ∃ t, writeFullyBody data 2 { conn := c } = .done (-1, t) :=
      writeFullyBody_fails (by simp [hssize]) ho
    obtain ⟨t, ht⟩ := hfails
    exact ⟨-1, t, iterate_done ht, by simp [takesWord, ho]⟩

end Write

section Read

variable {size : ℕ} {b : Buffer} {c : Conn} {bs after : List UInt8}

lemma readFullyBody_stop {s : Read} (h : ¬ (s.nread : ℤ) < ssize size) :
    readFullyBody size s = .done (0, s) := if_neg h

lemma readFully_quiet (hu : c.unread = bs ++ after) (hlen : bs.length = size) (hsize : size < 2 ^ 63)
    (hr : Undisturbed c.recvs) (hb : b.cells = []) (hw : b.Within size) :
    ∃ r, readFully size b c = some (0, r) ∧ r.buffer.cells = bs ∧ r.buffer.size = b.size ∧
      r.buffer.Within size ∧ r.conn.unread = after ∧ Undisturbed r.conn.recvs ∧
      c.SameOutput r.conn := by
  have hssize := ssize_eq hsize
  let I : Read → Prop := fun s => s.nread ≤ size ∧ s.conn.unread = c.unread.drop s.nread ∧
    s.buffer.cells = bs.take s.nread ∧ s.buffer.size = b.size ∧ s.buffer.Within size ∧
    Undisturbed s.conn.recvs ∧ c.SameOutput s.conn
  let Q : ℤ × Read → Prop := fun r => r.1 = 0 ∧ r.2.buffer.cells = bs ∧ r.2.buffer.size = b.size ∧
    r.2.buffer.Within size ∧ r.2.conn.unread = after ∧ Undisturbed r.2.conn.recvs ∧
    c.SameOutput r.2.conn
  have hbody : ∀ s, I s →
      (∃ t, readFullyBody size s = .again t ∧ I t ∧ size - t.nread < size - s.nread) ∨
        ∃ r, readFullyBody size s = .done r ∧ Q r := by
    rintro s ⟨hle, hun, hcells, hbsize, hwithin, hrecvs, hout⟩
    by_cases hlt : s.nread < size
    · obtain ⟨k, hk⟩ := hrecvs.head
      have havail : s.conn.unread.length = size - s.nread + after.length := by
        rw [hun, hu, List.length_drop, List.length_append]
        omega
      have hne : s.conn.unread ≠ [] := by
        rw [← List.length_pos_iff]
        omega
      have hrecv : s.conn.recv (size - s.nread) = _ := Conn.recv_moves hk (.inl hne)
      set n := chunk k (size - s.nread) s.conn.unread.length with hn
      have hpos : 0 < n := chunk_pos (Nat.sub_pos_of_lt hlt) (by omega)
      have hreq : n ≤ size - s.nread := chunk_le_request _ _ _
      have htake : s.conn.unread.take n = (bs.drop s.nread).take n := by
        rw [hun, hu, List.drop_append_of_le_length (by omega), List.take_append_of_le_length
          (by rw [List.length_drop]; omega)]
      have hnlen : (s.conn.unread.take n).length = n := by
        rw [List.length_take]
        omega
      refine .inl ⟨{ nread := s.nread + n, buffer := s.buffer.store s.nread (s.conn.unread.take n)
                     conn := s.conn.consumed (size - s.nread) n }, ?_, ⟨?_, ?_, ?_, hbsize, ?_,
        hrecvs.tail, hout.trans (Conn.consumed_sameOutput _ _ _)⟩, ?_⟩
      · rw [readFullyBody, if_pos (by omega), hrecv]
        simp only [hnlen]
      · change s.nread + n ≤ size
        omega
      · change s.conn.unread.drop n = c.unread.drop (s.nread + n)
        rw [hun, List.drop_drop]
      · rw [Buffer.store_cells (by rw [hcells, List.length_take]; omega), hcells, htake,
          ← List.take_add]
      · exact Buffer.store_within hwithin (by omega)
      · change size - (s.nread + n) < size - s.nread
        omega
    · obtain hnr : s.nread = size := by omega
      refine .inr ⟨(0, s), readFullyBody_stop (by omega), rfl, ?_, hbsize, hwithin, ?_, hrecvs, hout⟩
      · rw [hcells, List.take_of_length_le (by omega)]
      · rw [hun, hu, hnr, List.drop_left' hlen]
  obtain ⟨⟨r, s⟩, hr', rfl, hs'⟩ := iterate_total I Q (fun s => size - s.nread) hbody
    (s := ⟨0, b, c⟩) ⟨Nat.zero_le _, by simp, by simp [hb], rfl, hw, hr, .refl c⟩
    (by change size - 0 < size + 1; omega)
  exact ⟨s, hr', hs'⟩

lemma readFully_took {r : ℤ} {d : Read} (hsize : size < 2 ^ 63) (hb : b.cells = [])
    (h : readFully size b c = some (r, d)) (hr : r ≠ -1) :
    d.buffer.cells = c.unread.take size ∧ size ≤ c.unread.length := by
  have hssize := ssize_eq hsize
  let I : Read → Prop := fun s => s.nread ≤ size ∧ s.nread ≤ c.unread.length ∧
    s.buffer.cells = c.unread.take s.nread ∧ s.conn.unread = c.unread.drop s.nread
  let Q : ℤ × Read → Prop := fun r => r.1 ≠ -1 →
    r.2.buffer.cells = c.unread.take size ∧ size ≤ c.unread.length
  have hpass : ∀ s, I s → (readFullyBody size s).Keeps I Q := by
    rintro s ⟨hle, hlen, hcells, hunread⟩
    rw [readFullyBody]
    split_ifs
    · cases hrecv : s.conn.recv (size - s.nread) with
      | none => trivial
      | some q =>
        obtain ⟨r, e⟩ := q
        cases r with
        | error err => exact fun hq => (hq rfl).elim
        | ok bs =>
          obtain ⟨n, hreq, havail, rfl, hunread', -⟩ := Conn.recv_takes hrecv
          have hn : (s.conn.unread.take n).length = n := by
            rw [List.length_take]
            omega
          rw [hunread, List.length_drop] at havail
          refine ⟨?_, ?_, ?_, ?_⟩
          · change s.nread + (s.conn.unread.take n).length ≤ size
            omega
          · change s.nread + (s.conn.unread.take n).length ≤ c.unread.length
            omega
          · change (s.buffer.store s.nread (s.conn.unread.take n)).cells =
              c.unread.take (s.nread + (s.conn.unread.take n).length)
            rw [Buffer.store_cells (by rw [hcells, List.length_take]; omega), hcells, hn, hunread,
              ← List.take_add]
          · change e.unread = c.unread.drop (s.nread + (s.conn.unread.take n).length)
            rw [hunread', hn, hunread, List.drop_drop]
    · intro _
      obtain hnr : s.nread = size := by omega
      exact ⟨hnr ▸ hcells, hnr ▸ hlen⟩
  exact iterate_keeps hpass ⟨Nat.zero_le _, Nat.zero_le _, by simp [hb], by simp⟩ h hr

end Read

end ScalableServer.Core
