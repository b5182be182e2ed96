import ScalableServer.Core.Objects
import ScalableServer.Foundations.Iteration

/-! The payload loop that `poll_recv_and_log` and `c_recv_log_notify_parent_respond` share:
`while (bytes_read < bytes_to_read && bytes != 0)` around a `recv` of `sizeof(buffer)`, where
`buffer` is a pointer. Each pass but the last two takes a byte of the stream, which bounds them.

`PayloadEnds after remaining sizes rest` says that results of the sizes that the kernel chooses end
exactly where the `remaining` bytes do when `after` more bytes follow them on the stream. -/

namespace ScalableServer.Core

open ScalableServer.Foundations

def sizeofBuffer : ℕ := 8

structure PayloadLoop where
  bytesRead : ℕ
  bytes : ℕ
  buffer : Buffer
  conn : Conn

def payloadBody (bytesToRead : ℕ) (s : PayloadLoop) :
    Iter PayloadLoop (Except Errno Unit × PayloadLoop) :=
  if s.bytesRead < bytesToRead ∧ s.bytes ≠ 0 then
    match s.conn.recv sizeofBuffer with
    | none => .blocked
    | some (.error e, c) => .done (.error e, { s with conn := c })
    | some (.ok bs, c) =>
      .again
        { bytesRead := (s.bytesRead + bs.length) % 2 ^ 32
          bytes := bs.length
          buffer := s.buffer.store s.bytesRead bs
          conn := c }
  else .done (.ok (), s)

def payloadLoop (bytesToRead : ℕ) (s : PayloadLoop) : Option (Except Errno Unit × PayloadLoop) :=
  iterate (payloadBody bytesToRead) (s.conn.unread.length + 2) s

def PayloadWaits (bytesToRead : ℕ) (s : PayloadLoop) : Prop :=
  ∃ t, Passes (payloadBody bytesToRead) s t ∧ t.bytesRead < bytesToRead ∧ t.conn.Silent

inductive PayloadEnds (after : ℕ) : ℕ → Stream' ℕ → Stream' ℕ → Prop
  | done (sizes : Stream' ℕ) : PayloadEnds after 0 sizes sizes
  | piece {remaining : ℕ} {sizes rest : Stream' ℕ} (hpos : 0 < remaining)
      (hle : chunk sizes.head sizeofBuffer (remaining + after) ≤ remaining)
      (h : PayloadEnds after (remaining - chunk sizes.head sizeofBuffer (remaining + after))
        sizes.tail rest) : PayloadEnds after remaining sizes rest

lemma payloadEnds_last (remaining : ℕ) (sizes : Stream' ℕ) :
    ∃ rest, PayloadEnds 0 remaining sizes rest := by
  induction remaining using Nat.strong_induction_on generalizing sizes with
  | h remaining ih =>
    by_cases hz : remaining = 0
    · subst hz
      exact ⟨sizes, .done sizes⟩
    · have hpos : 0 < remaining := Nat.pos_of_ne_zero hz
      have hc : 0 < chunk sizes.head sizeofBuffer (remaining + 0) := chunk_pos (by decide) hpos
      have hle : chunk sizes.head sizeofBuffer (remaining + 0) ≤ remaining :=
        chunk_le_available _ _ _
      obtain ⟨rest, hr⟩ := ih (remaining - chunk sizes.head sizeofBuffer (remaining + 0))
        (by omega) sizes.tail
      exact ⟨rest, .piece hpos hle hr⟩

lemma Buffer.store_cells {b : Buffer} {offset : ℕ} {bs : List UInt8}
    (h : b.cells.length = offset) : (b.store offset bs).cells = b.cells ++ bs := by
  simp [Buffer.store, ← h]

lemma Buffer.store_within {b : Buffer} {offset bound : ℕ} {bs : List UInt8} (h : b.Within bound)
    (hs : offset + bs.length ≤ bound) : (b.store offset bs).Within bound := by
  intro st hst
  simp only [Buffer.store, List.mem_append, List.mem_singleton] at hst
  rcases hst with hst | rfl
  · exact h st hst
  · exact hs

def PayloadLoop.next (s : PayloadLoop) (n : ℕ) : PayloadLoop where
  bytesRead := (s.bytesRead + n) % 2 ^ 32
  bytes := n
  buffer := s.buffer.store s.bytesRead (s.conn.unread.take n)
  conn := s.conn.consumed sizeofBuffer n

lemma payloadBody_moves (bytesToRead : ℕ) {k : ℕ} {s : PayloadLoop} (hgo : s.bytesRead < bytesToRead)
    (hbytes : s.bytes ≠ 0) (hhead : s.conn.recvs.head = .moves k)
    (hu : s.conn.unread ≠ [] ∨ s.conn.closed = true) :
    payloadBody bytesToRead s = .again (s.next (chunk k sizeofBuffer s.conn.unread.length)) := by
  have hlen : (s.conn.unread.take (chunk k sizeofBuffer s.conn.unread.length)).length =
      chunk k sizeofBuffer s.conn.unread.length := by
    simpa using chunk_le_available k sizeofBuffer s.conn.unread.length
  rw [payloadBody, if_pos ⟨hgo, hbytes⟩, Conn.recv_moves hhead hu]
  simp only [hlen, PayloadLoop.next]

lemma payloadLoop_ends {after remaining bytesToRead : ℕ} {sizes rest : Stream' ℕ}
    (h : PayloadEnds after remaining sizes rest) (hlt : bytesToRead < 2 ^ 32) {s : PayloadLoop}
    (hread : s.bytesRead + remaining = bytesToRead)
    (hunread : s.conn.unread.length = remaining + after)
    (hrecvs : s.conn.recvs = sizes.map Answer.moves) (hbytes : s.bytes ≠ 0)
    (hcells : s.buffer.cells.length = s.bytesRead) (hwithin : s.buffer.Within bytesToRead)
    {fuel : ℕ} (hfuel : remaining < fuel) :
    ∃ t, iterate (payloadBody bytesToRead) fuel s = some (.ok (), t) ∧
      t.bytesRead = bytesToRead ∧ t.conn.unread = s.conn.unread.drop remaining ∧
      t.conn.recvs = rest.map Answer.moves ∧ s.conn.SameOutput t.conn ∧
      t.buffer.cells = s.buffer.cells ++ s.conn.unread.take remaining ∧
      t.buffer.size = s.buffer.size ∧ t.buffer.Within bytesToRead := by
  induction h generalizing s fuel with
  | done sizes =>
    obtain ⟨fuel, rfl⟩ : ∃ k, fuel = k + 1 := ⟨fuel - 1, by omega⟩
    have hstop : ¬ (s.bytesRead < bytesToRead ∧ s.bytes ≠ 0) := by omega
    refine ⟨s, ?_, by omega, by simp, hrecvs, .refl _, by simp, rfl, hwithin⟩
    rw [iterate_succ, payloadBody, if_neg hstop]
  | @piece remaining sizes rest hpos hle _ ih =>
    obtain ⟨fuel, rfl⟩ : ∃ k, fuel = k + 1 := ⟨fuel - 1, by omega⟩
    have hne : s.conn.unread ≠ [] := by
      rw [← List.length_pos_iff]
      omega
    have hhead : s.conn.recvs.head = .moves sizes.head := by rw [hrecvs, Stream'.head_map]
    have hstep := payloadBody_moves bytesToRead (by omega) hbytes hhead (.inl hne)
    rw [hunread] at hstep
    set n := chunk sizes.head sizeofBuffer (remaining + after) with hn
    have hnpos : 0 < n := chunk_pos (by decide) (by omega)
    have hlen : (s.conn.unread.take n).length = n := by rw [List.length_take]; omega
    have hread' : (s.next n).bytesRead = s.bytesRead + n := Nat.mod_eq_of_lt (by omega)
    have hunread' : (s.next n).conn.unread = s.conn.unread.drop n := rfl
    have hrecvs' : (s.next n).conn.recvs = sizes.tail.map Answer.moves := by
      change s.conn.recvs.tail = _
      rw [hrecvs, Stream'.tail_map]
    have hcells' : (s.next n).buffer.cells = s.buffer.cells ++ s.conn.unread.take n :=
      Buffer.store_cells hcells
    have hwithin' : (s.next n).buffer.Within bytesToRead :=
      Buffer.store_within hwithin (by omega)
    have hfuel' : remaining - n < fuel := by omega
    obtain ⟨t, ht, hr, hu, hrs, hsame, hc, hs, hw⟩ := ih (s := s.next n) (by omega)
      (by rw [hunread', List.length_drop]; omega) hrecvs' (by change n ≠ 0; omega)
      (by rw [hcells', List.length_append, hread']; omega) hwithin' hfuel'
    refine ⟨t, ?_, hr, ?_, hrs, (Conn.consumed_sameOutput _ _ _).trans hsame, ?_, hs, hw⟩
    · rw [iterate_succ, hstep]
      exact ht
    · rw [hu, hunread', List.drop_drop]
      congr 1
      omega
    · rw [hc, hcells', hunread', List.append_assoc, ← List.take_add]
      congr 2
      omega

lemma payloadBody_drains (bytesToRead : ℕ) (s : PayloadLoop) :
    (payloadBody bytesToRead s).Keeps (fun t => s.conn.Drains t.conn)
      fun q => s.conn.Drains q.2.conn := by
  rw [payloadBody]
  split_ifs
  · cases hrecv : s.conn.recv sizeofBuffer with
    | none => trivial
    | some q =>
      obtain ⟨r, d⟩ := q
      cases r with
      | error e => exact Conn.recv_drains hrecv
      | ok bs => exact Conn.recv_drains hrecv
  · exact .refl _

lemma payloadLoop_drains {bytesToRead : ℕ} {s t : PayloadLoop} {r : Except Errno Unit}
    (h : payloadLoop bytesToRead s = some (r, t)) : s.conn.Drains t.conn := by
  have hpass : ∀ x : PayloadLoop, s.conn.Drains x.conn → (payloadBody bytesToRead x).Keeps
      (fun y => s.conn.Drains y.conn) fun q => s.conn.Drains q.2.conn := fun x hx =>
    (payloadBody_drains bytesToRead x).mono (fun _ => hx.trans) fun _ => hx.trans
  exact iterate_keeps hpass (.refl _) h

lemma payloadLoop_total (bytesToRead : ℕ) {s : PayloadLoop} (hclosed : s.conn.closed = true)
    (hrecvs : Undisturbed s.conn.recvs) : ∃ t, payloadLoop bytesToRead s = some (.ok (), t) := by
  let I : PayloadLoop → Prop := fun x => x.conn.closed = true ∧ Undisturbed x.conn.recvs
  let Q : Except Errno Unit × PayloadLoop → Prop := fun r => r.1 = .ok ()
  let measure : PayloadLoop → ℕ := fun x => x.conn.unread.length + if x.bytes = 0 then 0 else 1
  have hbody : ∀ x, I x →
      (∃ y, payloadBody bytesToRead x = .again y ∧ I y ∧ measure y < measure x) ∨
        ∃ r, payloadBody bytesToRead x = .done r ∧ Q r := by
    intro x hx
    obtain ⟨hc, hr⟩ := hx
    by_cases hgo : x.bytesRead < bytesToRead ∧ x.bytes ≠ 0
    · obtain ⟨hlt, hbytes⟩ := hgo
      obtain ⟨k, hk⟩ := hr.head
      refine .inl ⟨_, payloadBody_moves bytesToRead hlt hbytes hk (.inr hc), ⟨hc, hr.tail⟩, ?_⟩
      set n := chunk k sizeofBuffer x.conn.unread.length with hn
      have havail : n ≤ x.conn.unread.length := chunk_le_available _ _ _
      have hpos : x.conn.unread.length ≠ 0 → 0 < n :=
        fun hne => chunk_pos (by decide) (Nat.pos_of_ne_zero hne)
      change (x.conn.unread.drop n).length + (if n = 0 then 0 else 1) <
        x.conn.unread.length + if x.bytes = 0 then 0 else 1
      rw [List.length_drop, if_neg hbytes]
      split_ifs <;> omega
    · exact .inr ⟨_, by rw [payloadBody, if_neg hgo], rfl⟩
  have hfuel : measure s < s.conn.unread.length + 2 := by
    change s.conn.unread.length + (if s.bytes = 0 then 0 else 1) < _
    split_ifs <;> omega
  obtain ⟨⟨r, t⟩, ht, rfl⟩ := iterate_total I Q measure hbody ⟨hclosed, hrecvs⟩ hfuel
  exact ⟨t, ht⟩

lemma payloadLoop_counts {bytesToRead fuel : ℕ} {s t : PayloadLoop} (hs : s.bytesRead < 2 ^ 32)
    (h : iterate (payloadBody bytesToRead) fuel s = some (.ok (), t)) :
    ∃ n ≤ s.conn.unread.length, t.conn.unread = s.conn.unread.drop n ∧
      t.bytesRead = (s.bytesRead + n) % 2 ^ 32 ∧
      t.conn.sent = s.conn.sent ∧ t.conn.sends = s.conn.sends := by
  -- Every loop that ends has read bytes off the front of the stream and counted them in 32 bits.
  let I : PayloadLoop → Prop := fun x => ∃ n ≤ s.conn.unread.length,
    x.conn.unread = s.conn.unread.drop n ∧
      x.bytesRead = (s.bytesRead + n) % 2 ^ 32 ∧
      x.conn.sent = s.conn.sent ∧ x.conn.sends = s.conn.sends
  have hpass : ∀ x, I x → (payloadBody bytesToRead x).Keeps I fun q => q.1 = .ok () → I q.2 := by
    rintro x ⟨n, hn, hu, hr, hs, ho⟩
    rw [payloadBody]
    split_ifs
    · cases hrecv : x.conn.recv sizeofBuffer with
      | none => trivial
      | some p =>
        obtain ⟨r, c⟩ := p
        cases r with
        | error e => rintro ⟨⟩
        | ok bs =>
          obtain ⟨k, -, hk, rfl, hu', hs', ho'⟩ := Conn.recv_takes hrecv
          have hlen : (x.conn.unread.take k).length = k := by
            rw [List.length_take]
            omega
          refine ⟨n + k, ?_, ?_, ?_, hs'.trans hs, ho'.trans ho⟩
          · rw [hu, List.length_drop] at hk
            omega
          · rw [hu', hu, List.drop_drop]
          · simp only [hlen]
            omega
    · exact fun _ => ⟨n, hn, hu, hr, hs, ho⟩
  exact iterate_keeps hpass ⟨0, Nat.zero_le _, by simp, (Nat.mod_eq_of_lt hs).symm, rfl, rfl⟩ h rfl

lemma payloadEnds_of_exact {after remaining bytesToRead : ℕ} (hlt : bytesToRead < 2 ^ 32)
    {sizes : Stream' ℕ} {s t : PayloadLoop} {fuel : ℕ}
    (hread : s.bytesRead + remaining = bytesToRead)
    (hunread : s.conn.unread.length = remaining + after)
    (hrecvs : s.conn.recvs = sizes.map Answer.moves) (hbytes : s.bytes ≠ 0)
    (h : iterate (payloadBody bytesToRead) fuel s = some (.ok (), t))
    (hexact : t.conn.unread.length = after) :
    ∃ rest, PayloadEnds after remaining sizes rest := by
  induction fuel generalizing s sizes remaining with
  | zero => simp [iterate] at h
  | succ fuel ih =>
    by_cases hz : remaining = 0
    · subst hz
      exact ⟨sizes, .done sizes⟩
    have hne : s.conn.unread ≠ [] := by
      rw [← List.length_pos_iff]
      omega
    have hhead : s.conn.recvs.head = .moves sizes.head := by rw [hrecvs, Stream'.head_map]
    have hstep := payloadBody_moves bytesToRead (by omega) hbytes hhead (.inl hne)
    rw [hunread] at hstep
    set n := chunk sizes.head sizeofBuffer (remaining + after) with hn
    have hnpos : 0 < n := chunk_pos (by decide) (by omega)
    rw [iterate_succ, hstep] at h
    have hunread' : (s.next n).conn.unread = s.conn.unread.drop n := rfl
    have hrecvs' : (s.next n).conn.recvs = sizes.tail.map Answer.moves := by
      change s.conn.recvs.tail = _
      rw [hrecvs, Stream'.tail_map]
    by_cases hle : n ≤ remaining
    · have hread' : (s.next n).bytesRead = s.bytesRead + n := Nat.mod_eq_of_lt (by omega)
      have hleft : (s.next n).bytesRead + (remaining - n) = bytesToRead := by omega
      obtain ⟨rest, hr⟩ := ih (s := s.next n) hleft
        (by rw [hunread', List.length_drop]; omega) hrecvs' (by change n ≠ 0; omega) h
      exact ⟨rest, .piece (by omega) hle hr⟩
    · -- the result ran past the payload, and the loop gives no byte back
      obtain ⟨m, hm, hu, -⟩ := payloadLoop_counts (Nat.mod_lt _ (by decide)) h
      have hav : n ≤ remaining + after := chunk_le_available _ _ _
      rw [hu, hunread', List.length_drop, List.length_drop] at hexact
      omega

end ScalableServer.Core
