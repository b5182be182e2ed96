import ScalableServer.Core.PayloadLoop
import ScalableServer.OneToOne.ReceiveMessage

namespace ScalableServer.OneToOne

open ScalableServer.Foundations ScalableServer.Core

structure Client where
  calls : ℕ := 0
  conn : Conn
  rows : List LogRow := []

def handleClientBody (h : Host) (so : StateObject) (prior : ℕ → ℕ) (t : ℕ → Timing) (s : Client) :
    Iter Client (ClientResult × Client) :=
  match receiveMessage h so (prior s.calls) (t s.calls) s.conn with
  | none => .blocked
  | some r =>
    let s := { calls := s.calls + 1, conn := r.conn, rows := s.rows ++ r.rows }
    match r.result with
    | .success => .again s
    | .error => .done (.error, s)
    | .termination => .done (.termination, s)
    | .closed => .done (.success, s)

def handleClient (h : Host) (so : StateObject) (prior : ℕ → ℕ) (t : ℕ → Timing) (c : Conn) :
    Option (ClientResult × Client) :=
  iterate (handleClientBody h so prior t) (c.unread.length + 1) { conn := c }

structure Quiet (c : Conn) : Prop where
  recvs : Undisturbed c.recvs
  sends : Undisturbed c.sends
  selects : Undisturbed c.selects
  signalled : c.signalled = false

structure Progress (c : Conn) (n bound : ℕ) (d : Conn) : Prop where
  unread : d.unread = c.unread.drop n
  position : d.position = c.position + n
  requests : ∃ qs, d.requests = c.requests ++ qs ∧
    ∀ q ∈ qs, c.position ≤ q.1 ∧ q.1 < bound ∧ q.1 + q.2 ≤ bound
  sent : d.sent = c.sent
  closed : d.closed = c.closed
  quiet : Quiet d

variable {h : Host} {so : StateObject} {n k bound : ℕ} {c d e : Conn} {m after word : List UInt8}

lemma Progress.refl (hq : Quiet c) : Progress c 0 bound c :=
  ⟨by simp, rfl, ⟨[], by simp⟩, rfl, rfl, hq⟩

lemma Progress.trans (h : Progress c n bound d) (h' : Progress d k bound e) :
    Progress c (n + k) bound e := by
  obtain ⟨qs, hqs, hbound⟩ := h.requests
  obtain ⟨rs, hrs, hbound'⟩ := h'.requests
  refine ⟨?_, ?_, ⟨qs ++ rs, ?_, ?_⟩, h'.sent.trans h.sent, h'.closed.trans h.closed, h'.quiet⟩
  · rw [h'.unread, h.unread, List.drop_drop]
  · rw [h'.position, h.position]
    omega
  · rw [hrs, hqs, List.append_assoc]
  · intro q hq
    rcases List.mem_append.mp hq with hq | hq
    · exact hbound q hq
    · have hp := h.position
      have hb := hbound' q hq
      omega

lemma Quiet.selected (hq : Quiet c) : Quiet c.selected :=
  ⟨hq.recvs, hq.sends, hq.selects.tail, hq.signalled⟩

lemma Progress.selected (hq : Quiet c) : Progress c 0 bound c.selected :=
  ⟨by simp [Conn.selected], rfl, ⟨[], by simp [Conn.selected]⟩, rfl, rfl, hq.selected⟩

lemma Progress.consumed {req : ℕ} (hq : Quiet c) (hpos : 0 < req)
    (hreq : c.position + req ≤ bound) :
    Progress c n bound (c.consumed req n) := by
  refine ⟨rfl, rfl, ⟨[(c.position, req)], rfl, ?_⟩, rfl, rfl,
    ⟨hq.recvs.tail, hq.sends, hq.selects, hq.signalled⟩⟩
  intro q hq
  obtain rfl := List.mem_singleton.mp hq
  exact ⟨le_refl _, by change c.position < bound; omega, hreq⟩

lemma checkFdMsg_ready (hselects : Undisturbed c.selects) (hsignalled : c.signalled = false)
    (hu : c.unread ≠ [] ∨ c.closed = true) : checkFdMsg c = some (.success, c.selected) := by
  obtain ⟨k, hk⟩ := hselects.head
  simp [checkFdMsg, checkFd, Conn.select_moves hk hsignalled hu]

lemma checkFdMsg_quiet (hq : Quiet c) (hu : c.unread ≠ [] ∨ c.closed = true) :
    checkFdMsg c = some (.success, c.selected) := checkFdMsg_ready hq.selects hq.signalled hu

lemma receivePayloadBody_quiet {s : Payload} (hgo : 0 < s.remainingBytes)
    (hlt : s.remainingBytes < 2 ^ 32) (hav : s.remainingBytes ≤ s.conn.unread.length)
    (hq : Quiet s.conn) :
    ∃ n ≤ s.remainingBytes, 0 < n ∧ n ≤ sizeofBuf ∧ ∃ d,
      receivePayloadBody s = .again
        { remainingBytes := s.remainingBytes - n
          buf := s.buf.store 0 (s.conn.unread.take n), conn := d } ∧
      Progress s.conn n (s.conn.position + s.remainingBytes) d := by
  have hne : s.conn.unread ≠ [] := by
    rw [← List.length_pos_iff]
    omega
  set req := if sizeofBuf < s.remainingBytes then sizeofBuf else s.remainingBytes with hreq
  have hreqpos : 0 < req := by
    rw [hreq]
    split_ifs
    · decide
    · exact hgo
  have hreqle : req ≤ s.remainingBytes ∧ req ≤ sizeofBuf := by
    rw [hreq]
    split_ifs <;> omega
  obtain ⟨k, hk⟩ : ∃ k, s.conn.selected.recvs.head = .moves k := hq.recvs.head
  have hrecv : s.conn.selected.recv req = _ := Conn.recv_moves hk (.inl hne)
  set n := chunk k req s.conn.selected.unread.length with hn
  have hnreq : n ≤ req := chunk_le_request _ _ _
  have hnpos : 0 < n := chunk_pos hreqpos (List.length_pos_iff.mpr hne)
  have hnlen : n ≤ s.conn.unread.length := chunk_le_available _ _ _
  refine ⟨n, by omega, hnpos, by omega, s.conn.selected.consumed req n, ?_, ?_⟩
  · obtain ⟨b, bs, hbs⟩ : ∃ b bs, s.conn.selected.unread.take n = b :: bs := by
      apply List.exists_cons_of_ne_nil
      rw [← List.length_pos_iff, List.length_take]
      change 0 < min n s.conn.unread.length
      omega
    have hlen : (b :: bs).length = n := by
      rw [← hbs, List.length_take]
      exact min_eq_left hnlen
    have hmod : (s.remainingBytes + (2 ^ 32 - n)) % 2 ^ 32 = s.remainingBytes - n := by omega
    rw [receivePayloadBody, if_pos hgo, checkFdMsg_quiet hq (.inl hne)]
    simp only [← hreq, hrecv, hbs, hlen, hmod]
    congr 3
    exact hbs.symm
  · have hsel : Progress s.conn 0 (s.conn.position + s.remainingBytes) s.conn.selected :=
      Progress.selected hq
    have hcon : Progress s.conn.selected n (s.conn.position + s.remainingBytes)
        (s.conn.selected.consumed req n) :=
      Progress.consumed hq.selected hreqpos (Nat.add_le_add_left hreqle.1 _)
    simpa using hsel.trans hcon

lemma receivePayload_quiet {s : Payload} (hlt : s.remainingBytes < 2 ^ 32)
    (hav : s.remainingBytes ≤ s.conn.unread.length) (hq : Quiet s.conn)
    (hbuf : s.buf.Within sizeofBuf) :
    ∃ r, receivePayload s = some (.success, r) ∧ r.buf.Within sizeofBuf ∧
      Progress s.conn s.remainingBytes (s.conn.position + s.remainingBytes) r.conn := by
  let I : Payload → Prop := fun x => x.buf.Within sizeofBuf ∧
    ∃ n, x.remainingBytes + n = s.remainingBytes ∧
      Progress s.conn n (s.conn.position + s.remainingBytes) x.conn
  let Q : MsgResult × Payload → Prop := fun r => r.1 = .success ∧ r.2.buf.Within sizeofBuf ∧
    Progress s.conn s.remainingBytes (s.conn.position + s.remainingBytes) r.2.conn
  have hbody : ∀ x, I x →
      (∃ y, receivePayloadBody x = .again y ∧ I y ∧ y.remainingBytes < x.remainingBytes) ∨
        ∃ r, receivePayloadBody x = .done r ∧ Q r := by
    rintro x ⟨hx, n, hn, hp⟩
    by_cases hgo : 0 < x.remainingBytes
    · have hux := hp.unread
      obtain ⟨k, hk, hkpos, hkbuf, d, hd, hpd⟩ := receivePayloadBody_quiet hgo (by omega)
        (by rw [hux, List.length_drop]; omega) hp.quiet
      refine .inl ⟨_, hd, ⟨?_, n + k, ?_, ?_⟩, ?_⟩
      · apply Buffer.store_within hx
        rw [List.length_take]
        omega
      · change x.remainingBytes - k + (n + k) = s.remainingBytes
        omega
      · have hpos := hp.position
        have hend : x.conn.position + x.remainingBytes = s.conn.position + s.remainingBytes := by
          omega
        rw [hend] at hpd
        exact hp.trans hpd
      · change x.remainingBytes - k < x.remainingBytes
        omega
    · refine .inr ⟨(.success, x), ?_, rfl, hx, ?_⟩
      · rw [receivePayloadBody, if_neg hgo]
      · obtain rfl : n = s.remainingBytes := by omega
        exact hp
  obtain ⟨⟨r, x⟩, hr, rfl, hx, hp⟩ := iterate_total I Q (·.remainingBytes) hbody
    ⟨hbuf, 0, rfl, .refl hq⟩ (by omega : s.remainingBytes < s.conn.unread.length + 1)
  exact ⟨x, hr, hx, hp⟩

lemma sendReplyBody_quiet {s : Reply} (hgo : 0 < s.toSend) (hlen : s.sizeP + s.toSend = word.length)
    (hs : Undisturbed s.conn.sends) :
    ∃ n ≤ s.toSend, 0 < n ∧ sendReplyBody word s = .again
      { toSend := s.toSend - n, sizeP := s.sizeP + n
        conn := s.conn.accepted ((word.drop s.sizeP).take n) } := by
  obtain ⟨k, hk⟩ := hs.head
  have hsend := Conn.send_moves ((word.drop s.sizeP).take s.toSend) hk
  have hrest : ((word.drop s.sizeP).take s.toSend).length = s.toSend := by
    rw [List.length_take, List.length_drop]
    omega
  rw [hrest] at hsend
  obtain ⟨n, hn⟩ : ∃ n, chunk k s.toSend s.toSend = n + 1 :=
    ⟨chunk k s.toSend s.toSend - 1, by have := chunk_pos (k := k) hgo hgo; omega⟩
  have hle : n + 1 ≤ s.toSend := hn ▸ chunk_le_request _ _ _
  rw [hn, List.take_take, min_eq_left hle] at hsend
  refine ⟨n + 1, hle, Nat.succ_pos n, ?_⟩
  rw [sendReplyBody, if_pos hgo, hsend]
  rfl

lemma sendReply_total (hw : word.length = 4) (c : Conn) : ∃ r, sendReply word c = some r := by
  let I : Reply → Prop := fun x => x.sizeP + x.toSend = word.length
  have hbody : ∀ x, I x →
      (∃ y, sendReplyBody word x = .again y ∧ I y ∧ y.toSend < x.toSend) ∨
        ∃ r, sendReplyBody word x = .done r ∧ True := by
    intro x hx
    by_cases hgo : 0 < x.toSend
    · have hrest : 0 < ((word.drop x.sizeP).take x.toSend).length := by
        rw [List.length_take, List.length_drop]
        change x.sizeP + x.toSend = word.length at hx
        omega
      rw [sendReplyBody, if_pos hgo]
      cases hsend : x.conn.send ((word.drop x.sizeP).take x.toSend) with
      | mk result d =>
        cases result with
        | error e => exact .inr ⟨_, rfl, trivial⟩
        | ok n =>
          have hn : 0 < n := Conn.send_ok_pos hrest hsend
          have hle := (Conn.send_takes hsend).1
          rw [List.length_take] at hle
          obtain ⟨n, rfl⟩ : ∃ k, n = k + 1 := ⟨n - 1, by omega⟩
          refine .inl ⟨_, rfl, ?_, ?_⟩
          · change x.sizeP + (n + 1) + (x.toSend - (n + 1)) = word.length
            change x.sizeP + x.toSend = word.length at hx
            omega
          · change x.toSend - (n + 1) < x.toSend
            omega
    · exact .inr ⟨_, by rw [sendReplyBody, if_neg hgo], trivial⟩
  obtain ⟨r, hr, -⟩ := iterate_total I (fun _ => True) (·.toSend) hbody (s := ⟨4, 0, c⟩)
    (by change 0 + 4 = word.length; omega) (by decide : 4 < 5)
  exact ⟨r, hr⟩

lemma sendReply_quiet (hw : word.length = 4) (hs : Undisturbed c.sends) :
    ∃ r, sendReply word c = some (.success, r) ∧ r.conn.sent = c.sent ++ word ∧
      c.SameInput r.conn ∧ Undisturbed r.conn.sends := by
  let I : Reply → Prop := fun x => x.sizeP + x.toSend = word.length ∧
    x.conn.sent = c.sent ++ word.take x.sizeP ∧ c.SameInput x.conn ∧ Undisturbed x.conn.sends
  let Q : MsgResult × Reply → Prop := fun r => r.1 = .success ∧ r.2.conn.sent = c.sent ++ word ∧
    c.SameInput r.2.conn ∧ Undisturbed r.2.conn.sends
  have hbody : ∀ x, I x →
      (∃ y, sendReplyBody word x = .again y ∧ I y ∧ y.toSend < x.toSend) ∨
        ∃ r, sendReplyBody word x = .done r ∧ Q r := by
    rintro x ⟨hx, hsent, hin, hsends⟩
    by_cases hgo : 0 < x.toSend
    · obtain ⟨n, hn, hpos, hb⟩ := sendReplyBody_quiet hgo hx hsends
      refine .inl ⟨_, hb, ⟨?_, ?_, hin.trans (Conn.accepted_sameInput _ _), hsends.tail⟩, ?_⟩
      · change x.sizeP + n + (x.toSend - n) = word.length
        omega
      · change x.conn.sent ++ _ = _
        rw [hsent, List.append_assoc, ← List.take_add]
      · change x.toSend - n < x.toSend
        omega
    · refine .inr ⟨(.success, x), ?_, rfl, ?_, hin, hsends⟩
      · rw [sendReplyBody, if_neg hgo]
      · rw [hsent, List.take_of_length_le (by omega)]
  obtain ⟨⟨r, x⟩, hr, rfl, hx⟩ := iterate_total I Q (·.toSend) hbody (s := ⟨4, 0, c⟩)
    ⟨by change 0 + 4 = word.length; omega, by simp, .refl c, hs⟩ (by decide : 4 < 5)
  exact ⟨x, hr, hx⟩

lemma receiveMessage_frame (h : Host) (so : StateObject) (prior : ℕ) (t : Timing)
    (hm : m.length < 2 ^ 32) (hu : c.unread = frame m ++ after) (hq : Quiet c) :
    ∃ r, receiveMessage h so prior t c = some r ∧ r.result = .success ∧
      r.rows = [log h so m.length t] ∧ r.conn.unread = after ∧
      r.conn.position = c.position + (frame m).length ∧
      (∃ qs, r.conn.requests = c.requests ++ qs ∧
        ∀ q ∈ qs, c.position ≤ q.1 ∧ q.1 < c.position + (frame m).length ∧
          q.1 + q.2 ≤ c.position + (frame m).length) ∧
      r.conn.sent = c.sent ++ bigEndian 4 m.length ∧ r.conn.closed = c.closed ∧ Quiet r.conn ∧
      ∃ b, r.buffer = some b ∧ b.Within sizeofBuf := by
  have hlen : c.unread.length = 4 + m.length + after.length := by simp [hu]
  have hne : c.unread ≠ [] := by
    rw [← List.length_pos_iff]
    omega
  obtain ⟨k, hk⟩ : ∃ k, c.selected.recvs.head = .moves k := hq.recvs.head
  have hrecv : c.selected.recvAll 4 = _ := Conn.recvAll_moves hk
    (.inl (by change 4 ≤ c.unread.length; omega)) (by decide)
  have hchunk : chunk 4 4 c.selected.unread.length = 4 := by
    change chunk 4 4 c.unread.length = 4
    rw [chunk]
    omega
  have hheader : c.selected.unread.take 4 = bigEndian 4 m.length := by
    change c.unread.take 4 = _
    rw [hu, frame, List.append_assoc, List.take_left' (by simp)]
  rw [hchunk, hheader] at hrecv
  set c₁ := c.selected.consumed 4 4 with hc₁
  have hp₁ : Progress c 4 (c.position + (4 + m.length)) c₁ := by
    have hsel : Progress c 0 (c.position + (4 + m.length)) c.selected := Progress.selected hq
    have hcon : Progress c.selected 4 (c.position + (4 + m.length)) c₁ :=
      Progress.consumed hq.selected (by decide) (by change c.position + 4 ≤ _; omega)
    simpa using hsel.trans hcon
  obtain ⟨s, hs, hbuf, hp⟩ := receivePayload_quiet (s := { remainingBytes := m.length, conn := c₁ })
    hm (by change m.length ≤ c₁.unread.length; rw [hp₁.unread, List.length_drop]; omega) hp₁.quiet
    (by intro st hst; cases hst)
  have hend : c₁.position + m.length = c.position + (4 + m.length) := by
    rw [hp₁.position]
    omega
  change Progress c₁ m.length (c₁.position + m.length) s.conn at hp
  rw [hend] at hp
  have hp₂ := hp₁.trans hp
  obtain ⟨r, hr, hsent, hin, hsends⟩ := sendReply_quiet
    (by rw [h.wordBytes_eq, bigEndian_length] : (h.wordBytes m.length).length = 4) hp.quiet.sends
  have hword : h.readWord prior (bigEndian 4 m.length) = m.length := by
    rw [h.readWord_whole prior (by simp), ofBigEndian_bigEndian (by simpa using hm)]
  rw [frame_length]
  refine ⟨{ result := .success, conn := r.conn, rows := [log h so m.length t], buffer := s.buf },
    ?_, rfl, rfl, ?_, ?_, ?_, ?_, ?_, ?_, s.buf, rfl, hbuf⟩
  · obtain ⟨b, bs, hbs⟩ : ∃ b bs, bigEndian 4 m.length = b :: bs := ⟨_, _, rfl⟩
    rw [hbs] at hrecv hword
    simp only [receiveMessage, checkFdMsg_quiet hq (.inl hne), hrecv, hword, hs, hr, Option.map_some]
  · rw [hin.unread, hp₂.unread, hu, List.drop_left' (by simp)]
  · rw [hin.position, hp₂.position]
  · obtain ⟨qs, hqs, hb⟩ := hp₂.requests
    exact ⟨qs, hin.requests.trans hqs, hb⟩
  · rw [hsent, hp₂.sent, h.wordBytes_eq]
  · exact hin.closed.trans hp₂.closed
  · exact ⟨hin.recvs ▸ hp.quiet.recvs, hsends, hin.selects ▸ hp.quiet.selects,
      hin.signalled.trans hp.quiet.signalled⟩

lemma receiveMessage_end (h : Host) (so : StateObject) (prior : ℕ) (t : Timing)
    (hu : c.unread = []) (hc : c.closed = true) (hq : Quiet c) :
    receiveMessage h so prior t c =
      some { result := .closed, conn := c.selected.consumed 4 0 } := by
  obtain ⟨k, hk⟩ : ∃ k, c.selected.recvs.head = .moves k := hq.recvs.head
  have hrecv : c.selected.recvAll 4 = _ := Conn.recvAll_moves hk (.inr hc) (by decide)
  have hempty : c.selected.unread = [] := hu
  rw [hempty] at hrecv
  simp only [receiveMessage, checkFdMsg_quiet hq (.inr hc), hrecv]
  rfl

/-- Where the message that the stream holds at position `p` ends, when `ms` are sent from `start`;
after the last of them there is room for a header. -/
def messageEnd : ℕ → List (List UInt8) → ℕ → ℕ
  | start, [], _ => start + 4
  | start, m :: ms, p =>
    if p < start + (frame m).length then start + (frame m).length
    else messageEnd (start + (frame m).length) ms p

lemma messageEnd_first {start p : ℕ} {ms : List (List UInt8)} (hp : p < start + (frame m).length) :
    messageEnd start (m :: ms) p = start + (frame m).length := if_pos hp

lemma messageEnd_rest {start p : ℕ} {ms : List (List UInt8)} (hp : start + (frame m).length ≤ p) :
    messageEnd start (m :: ms) p = messageEnd (start + (frame m).length) ms p :=
  if_neg (Nat.not_lt.mpr hp)

lemma handleClient_frames {priors : ℕ → ℕ} {ts : ℕ → Timing} {ms : List (List UInt8)}
    (hms : ∀ m ∈ ms, m.length < 2 ^ 32) {s : Client} (hu : s.conn.unread = frames ms)
    (hc : s.conn.closed = true) (hq : Quiet s.conn) {fuel : ℕ} (hfuel : ms.length < fuel) :
    ∃ r, iterate (handleClientBody h so priors ts) fuel s = some (.success, r) ∧
      r.conn.unread = [] ∧ r.conn.position = s.conn.position + (frames ms).length ∧
      r.conn.sent = s.conn.sent ++ ms.flatMap (fun m => bigEndian 4 m.length) ∧
      r.rows.map LogRow.bytes = s.rows.map LogRow.bytes ++ ms.map List.length ∧
      ∃ qs, r.conn.requests = s.conn.requests ++ qs ∧
        ∀ q ∈ qs, s.conn.position ≤ q.1 ∧ q.1 + q.2 ≤ messageEnd s.conn.position ms q.1 := by
  induction ms generalizing s fuel with
  | nil =>
    obtain ⟨fuel, rfl⟩ : ∃ k, fuel = k + 1 := ⟨fuel - 1, by omega⟩
    refine ⟨{ calls := s.calls + 1, conn := s.conn.selected.consumed 4 0, rows := s.rows }, ?_, ?_,
      rfl, ?_, ?_, [(s.conn.position, 4)], rfl, ?_⟩
    · simp only [iterate_succ, handleClientBody, receiveMessage_end h so _ _ hu hc hq, List.append_nil]
    · exact hu
    · exact (List.append_nil _).symm
    · exact (List.append_nil _).symm
    · intro q hq
      obtain rfl := List.mem_singleton.mp hq
      exact ⟨le_refl _, le_refl _⟩
  | cons m ms ih =>
    obtain ⟨fuel, rfl⟩ : ∃ k, fuel = k + 1 := ⟨fuel - 1, by omega⟩
    obtain ⟨r, hr, hres, hrows, hru, hrp, ⟨qs, hqs, hbound⟩, hsent, hcl, hrq, -⟩ :=
      receiveMessage_frame h so (priors s.calls) (ts s.calls) (hms m List.mem_cons_self) hu hq
    obtain ⟨r', hr', hu', hp', hsent', hrows', ps, hps, hpbound⟩ :=
      ih (s := { calls := s.calls + 1, conn := r.conn, rows := s.rows ++ r.rows })
        (fun x hx => hms x (List.mem_cons_of_mem m hx)) hru (hcl.trans hc) hrq
        (by simpa using hfuel)
    refine ⟨r', ?_, hu', ?_, ?_, ?_, qs ++ ps, ?_, ?_⟩
    · simp only [iterate_succ, handleClientBody, hr, hres]
      exact hr'
    · rw [hp', hrp, frames_cons, List.length_append, Nat.add_assoc]
    · rw [hsent', hsent, List.flatMap_cons, List.append_assoc]
    · rw [hrows', hrows]
      simp [log]
    · rw [hps, hqs, List.append_assoc]
    · intro q hq
      rcases List.mem_append.mp hq with hq | hq
      · obtain ⟨hge, hlt, hle⟩ := hbound q hq
        exact ⟨hge, by rwa [messageEnd_first hlt]⟩
      · obtain ⟨hge, hle⟩ := hpbound q hq
        rw [hrp] at hge hle
        exact ⟨by omega, by rwa [messageEnd_rest hge]⟩

theorem handleClient_serves_every_message (h : Host) (so : StateObject) (prior : ℕ → ℕ)
    (t : ℕ → Timing) (ms : List (List UInt8)) (hms : ∀ m ∈ ms, m.length < 2 ^ 32) (c : Conn)
    (hunread : c.unread = frames ms) (hclosed : c.closed = true) (hq : Quiet c) :
    ∃ r, handleClient h so prior t c = some (.success, r) ∧ r.conn.unread = [] ∧
      r.conn.position = c.position + (frames ms).length ∧
      r.conn.sent = c.sent ++ ms.flatMap (fun m => bigEndian 4 m.length) ∧
      r.rows.map LogRow.bytes = ms.map List.length ∧
      ∃ qs, r.conn.requests = c.requests ++ qs ∧
        ∀ q ∈ qs, c.position ≤ q.1 ∧ q.1 + q.2 ≤ messageEnd c.position ms q.1 := by
  have hfuel : ms.length < c.unread.length + 1 := by
    have hle : ms.length ≤ (frames ms).length := by
      rw [frames, List.length_flatMap]
      have hsum := List.length_le_sum_of_one_le (ms.map fun m => (frame m).length) (by
        intro n hn
        obtain ⟨m, -, rfl⟩ := List.mem_map.mp hn
        rw [frame_length]
        omega)
      simpa using hsum
    rw [hunread]
    omega
  obtain ⟨r, hr, hu, hp, hsent, hrows, hqs⟩ :=
    handleClient_frames (s := { conn := c }) hms hunread hclosed hq hfuel
  exact ⟨r, hr, hu, hp, hsent, hrows, hqs⟩

theorem handleClient_serves_two_messages :
    let c : Conn :=
      { unread := frames [[1, 2, 3], []], closed := true, recvs := Stream'.const (.moves 2)
        sends := Stream'.const (.moves 3), selects := Stream'.const (.moves 0) }
    ∃ r, handleClient ⟨.little, fun _ => true, fun _ => []⟩ ⟨3, 4, {}⟩ (fun _ => 0) (fun _ => {}) c =
        some (.success, r) ∧ r.conn.unread = [] ∧ r.conn.sent = [0, 0, 0, 3, 0, 0, 0, 0] ∧
      r.rows.map LogRow.bytes = [3, 0] := by
  intro c
  have hconst : ∀ k, Undisturbed (Stream'.const (.moves k)) := fun k _ => ⟨k, rfl⟩
  obtain ⟨r, hr, hu, -, hsent, hrows, -⟩ := handleClient_serves_every_message
    ⟨.little, fun _ => true, fun _ => []⟩ ⟨3, 4, {}⟩ (fun _ => 0) (fun _ => {}) [[1, 2, 3], []]
    (by decide) c rfl rfl ⟨hconst 2, hconst 3, hconst 0, rfl⟩
  exact ⟨r, hr, hu, hsent, hrows⟩

end ScalableServer.OneToOne
