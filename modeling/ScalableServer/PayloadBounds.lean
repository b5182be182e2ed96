import ScalableServer.PollServer.PollRecvAndLog
import ScalableServer.ProcessServer.ChildReceive

namespace ScalableServer.Core

open ScalableServer.Foundations

def received (answers : Stream' Answer) (avail : ℕ) : ℕ → ℕ
  | 0 => 0
  | k + 1 => received answers avail k +
      chunk (answers.get k).amount sizeofBuffer (avail - received answers avail k)

def ReadsFit (bytesToRead : ℕ) (answers : Stream' Answer) (avail : ℕ) : Prop :=
  ∀ k, received answers avail k < bytesToRead → received answers avail (k + 1) ≤ bytesToRead + 1 ∧
    received answers avail (k + 1) < 2 ^ 32

structure PayloadLoop.InBounds (s t : PayloadLoop) : Prop where
  within : t.buffer.Within t.buffer.size
  counted : t.bytesRead + t.conn.unread.length = s.conn.unread.length

structure PayloadLoop.Start (s : PayloadLoop) (bytesToRead : ℕ) : Prop where
  bytesRead : s.bytesRead = 0
  stores : s.buffer.stores = []
  size : s.buffer.size = bytesToRead + 1
  bytes : s.bytes = 0 → s.conn.unread = []
  recvs : Undisturbed s.conn.recvs

variable {answers : Stream' Answer} {avail bytesToRead k : ℕ} {s t u : PayloadLoop}

lemma received_le_succ : received answers avail k ≤ received answers avail (k + 1) :=
  Nat.le_add_right _ _

lemma received_le : received answers avail k ≤ avail := by
  induction k with
  | zero => exact Nat.zero_le _
  | succ k ih =>
    have hchunk := chunk_le_available (answers.get k).amount sizeofBuffer
      (avail - received answers avail k)
    rw [received]
    omega

lemma received_mono {j : ℕ} (h : j ≤ k) : received answers avail j ≤ received answers avail k := by
  induction h with
  | refl => exact le_refl _
  | step _ ih => exact ih.trans received_le_succ

structure PayloadLoop.After (s : PayloadLoop) (bytesToRead k : ℕ) (t : PayloadLoop) : Prop where
  bytesRead : t.bytesRead = received s.conn.recvs s.conn.unread.length k
  unread : t.conn.unread.length =
    s.conn.unread.length - received s.conn.recvs s.conn.unread.length k
  recvs : ∀ n, t.conn.recvs.get n = s.conn.recvs.get (k + n)
  size : t.buffer.size = bytesToRead + 1
  within : t.buffer.Within (bytesToRead + 1)

lemma PayloadLoop.Start.after (hs : s.Start bytesToRead) : s.After bytesToRead 0 s where
  bytesRead := hs.bytesRead
  unread := rfl
  recvs n := by rw [Nat.zero_add]
  size := hs.size
  within st hst := by
    rw [hs.stores] at hst
    cases hst

def PayloadLoop.taken (t : PayloadLoop) : ℕ :=
  chunk t.conn.recvs.head.amount sizeofBuffer t.conn.unread.length

lemma PayloadLoop.After.taken (ht : s.After bytesToRead k t) :
    received s.conn.recvs s.conn.unread.length k + t.taken =
      received s.conn.recvs s.conn.unread.length (k + 1) := by
  have hhead : t.conn.recvs.head = s.conn.recvs.get k := ht.recvs 0
  rw [PayloadLoop.taken, hhead, ht.unread]
  rfl

lemma payloadBody_next (hquiet : Undisturbed t.conn.recvs) (hgo : t.bytesRead < bytesToRead)
    (hbytes : t.bytes ≠ 0) (hunread : t.conn.unread ≠ [] ∨ t.conn.closed = true) :
    payloadBody bytesToRead t = .again (t.next t.taken) := by
  obtain ⟨a, ha⟩ := hquiet.head
  rw [payloadBody_moves bytesToRead hgo hbytes ha hunread, PayloadLoop.taken, ha]
  rfl

lemma payloadBody_again (hquiet : Undisturbed t.conn.recvs)
    (h : payloadBody bytesToRead t = .again u) : t.bytesRead < bytesToRead ∧ u = t.next t.taken := by
  by_cases hgo : t.bytesRead < bytesToRead ∧ t.bytes ≠ 0
  · refine ⟨hgo.1, ?_⟩
    by_cases hunread : t.conn.unread ≠ [] ∨ t.conn.closed = true
    · rw [payloadBody_next hquiet hgo.1 hgo.2 hunread] at h
      exact (Iter.again.inj h).symm
    · -- a read of an empty stream that may go on does not return
      simp only [not_or, not_not, Bool.not_eq_true] at hunread
      obtain ⟨a, ha⟩ := hquiet.head
      rw [payloadBody, if_pos hgo] at h
      simp [Conn.recv, ha, Answer.moves, Sock.recv, Sock.transfer, hunread] at h
  · rw [payloadBody, if_neg hgo] at h
    cases h

lemma PayloadLoop.After.next (ht : s.After bytesToRead k t)
    (hfits : received s.conn.recvs s.conn.unread.length (k + 1) ≤ bytesToRead + 1)
    (hlt : received s.conn.recvs s.conn.unread.length (k + 1) < 2 ^ 32) :
    s.After bytesToRead (k + 1) (t.next t.taken) := by
  have htaken := ht.taken
  have hread := ht.bytesRead
  have hunread := ht.unread
  refine ⟨?_, ?_, fun n => ?_, ht.size, ?_⟩
  · change (t.bytesRead + t.taken) % 2 ^ 32 = _
    rw [Nat.mod_eq_of_lt (by omega)]
    omega
  · change (t.conn.unread.drop t.taken).length = _
    rw [List.length_drop]
    omega
  · change t.conn.recvs.tail.get n = _
    rw [Stream'.get_tail, ht.recvs, Nat.add_assoc, Nat.add_comm 1]
  · apply Buffer.store_within ht.within
    have hlen := List.length_take_le t.taken t.conn.unread
    omega

lemma PayloadLoop.After.quiet (ht : s.After bytesToRead k t) (hs : Undisturbed s.conn.recvs) :
    Undisturbed t.conn.recvs := fun n => by
  obtain ⟨a, ha⟩ := hs (k + n)
  exact ⟨a, (ht.recvs n).trans ha⟩

lemma inBounds_of_readsFit (hs : s.Start bytesToRead)
    (hfits : ReadsFit bytesToRead s.conn.recvs s.conn.unread.length)
    (ht : Passes (payloadBody bytesToRead) s t) : s.InBounds t := by
  have hafter : ∃ k, s.After bytesToRead k t := by
    refine ht.invariant (I := fun t => ∃ k, s.After bytesToRead k t) ⟨0, hs.after⟩ ?_
    rintro x y ⟨k, hx⟩ hpass
    obtain ⟨hgo, rfl⟩ := payloadBody_again (hx.quiet hs.recvs) hpass
    rw [hx.bytesRead] at hgo
    obtain ⟨hle, hlt⟩ := hfits k hgo
    exact ⟨k + 1, hx.next hle hlt⟩
  obtain ⟨k, hk⟩ := hafter
  have hle : received s.conn.recvs s.conn.unread.length k ≤ s.conn.unread.length := received_le
  refine ⟨by rw [hk.size]; exact hk.within, ?_⟩
  rw [hk.bytesRead, hk.unread]
  omega

lemma payloadBody_done {r : Except Errno Unit} (h : payloadBody bytesToRead t = .done (r, u)) :
    u.buffer = t.buffer := by
  rw [payloadBody] at h
  split_ifs at h
  · split at h <;> cases h
    rfl
  · cases h
    rfl

lemma payloadLoop_passes {r : Except Errno Unit} (hloop : payloadLoop bytesToRead s = some (r, u)) :
    ∃ t, Passes (payloadBody bytesToRead) s t ∧ u.buffer = t.buffer := by
  obtain ⟨t, ht, hdone⟩ := passes_of_iterate hloop
  exact ⟨t, ht, payloadBody_done hdone⟩

lemma passes_of_fitting (hs : s.Start bytesToRead) (hbytes : s.bytes ≠ 0) {j : ℕ}
    (hmore : received s.conn.recvs s.conn.unread.length j < s.conn.unread.length)
    (hfits : ∀ i < j, received s.conn.recvs s.conn.unread.length i < bytesToRead ∧
      received s.conn.recvs s.conn.unread.length (i + 1) ≤ bytesToRead + 1 ∧
      received s.conn.recvs s.conn.unread.length (i + 1) < 2 ^ 32) :
    ∃ t, Passes (payloadBody bytesToRead) s t ∧ s.After bytesToRead j t ∧ t.bytes ≠ 0 := by
  induction j with
  | zero => exact ⟨s, .refl, hs.after, hbytes⟩
  | succ j ih =>
    have hbefore : received s.conn.recvs s.conn.unread.length j < s.conn.unread.length :=
      received_le_succ.trans_lt hmore
    obtain ⟨t, ht, hafter, hgo⟩ := ih hbefore fun i hi => hfits i (by omega)
    obtain ⟨hlt, hle, hwrap⟩ := hfits j (Nat.lt_succ_self j)
    have hlen := hafter.unread
    have hne : t.conn.unread ≠ [] := by
      rw [← List.length_pos_iff]
      omega
    have hpos : 0 < t.taken := chunk_pos (by decide) (List.length_pos_iff.mpr hne)
    have hpass := payloadBody_next (hafter.quiet hs.recvs) (by rw [hafter.bytesRead]; exact hlt) hgo
      (.inl hne)
    exact ⟨_, ht.tail hpass, hafter.next hle hwrap, hpos.ne'⟩

lemma readsFit_of_inBounds (hs : s.Start bytesToRead) (hword : bytesToRead < 2 ^ 32)
    (hbounds : ∀ t, Passes (payloadBody bytesToRead) s t → s.InBounds t) :
    ReadsFit bytesToRead s.conn.recvs s.conn.unread.length := by
  intro k
  induction k using Nat.strong_induction_on with
  | h k ih =>
    intro hlt
    by_cases hmore : received s.conn.recvs s.conn.unread.length k < s.conn.unread.length
    · have hbytes : s.bytes ≠ 0 := by
        intro hzero
        rw [hs.bytes hzero] at hmore
        exact Nat.not_lt_zero _ hmore
      obtain ⟨t, ht, hafter, hgo⟩ := passes_of_fitting hs hbytes hmore fun i hi =>
        have hi' := (received_mono hi.le).trans_lt hlt
        ⟨hi', ih i hi hi'⟩
      have hlen := hafter.unread
      have hne : t.conn.unread ≠ [] := by
        rw [← List.length_pos_iff]
        omega
      have hpass := payloadBody_next (hafter.quiet hs.recvs)
        (by rw [hafter.bytesRead]; exact hlt) hgo (.inl hne)
      obtain ⟨hwithin, hcounted⟩ := hbounds _ (ht.tail hpass)
      have htaken := hafter.taken
      have hread := hafter.bytesRead
      have havail : t.taken ≤ t.conn.unread.length := chunk_le_available _ _ _
      have hstored := hwithin (t.bytesRead, (t.conn.unread.take t.taken).length)
        (List.mem_append_right _ (List.mem_singleton_self _))
      change t.bytesRead + (t.conn.unread.take t.taken).length ≤ t.buffer.size at hstored
      rw [List.length_take, hafter.size] at hstored
      change (t.bytesRead + t.taken) % 2 ^ 32 + (t.conn.unread.drop t.taken).length = _ at hcounted
      rw [List.length_drop] at hcounted
      have hmod := Nat.mod_lt (t.bytesRead + t.taken) (show 0 < 2 ^ 32 by decide)
      omega
    · have hle : received s.conn.recvs s.conn.unread.length (k + 1) ≤ s.conn.unread.length :=
        received_le
      omega

end ScalableServer.Core

namespace ScalableServer

open ScalableServer.Foundations ScalableServer.Core

variable {h : Host} {prior bytesToRead : ℕ} {c : Conn} {s : PayloadLoop}

def PollServer.payloadStart (h : Host) (prior : ℕ) (c : Conn) : Option (ℕ × PayloadLoop) :=
  match c.recv 4 with
  | some (.ok header, c) =>
    let bytesToRead := h.readWord prior header
    let bufferSize := bytesToRead + 1
    if h.alloc bufferSize = false then none
    else
      some (bytesToRead,
        { bytesRead := 0, bytes := header.length, buffer := { size := bufferSize }, conn := c })
  | _ => none

def ProcessServer.payloadStart (h : Host) (prior : ℕ) (c : Conn) : Option (ℕ × PayloadLoop) :=
  match c.recv 4 with
  | some (r, c) =>
    (ProcessServer.cGetMessageLength h prior r).map fun (bytesToRead, buffer) =>
      (bytesToRead, { bytesRead := 0, bytes := 1, buffer := buffer, conn := c })
  | none => none

lemma PollServer.payloadStart_some (hstart : payloadStart h prior c = some (bytesToRead, s)) :
    ∃ header d, c.recv 4 = some (.ok header, d) ∧ h.alloc (h.readWord prior header + 1) = true ∧
      bytesToRead = h.readWord prior header ∧
      s = ⟨0, header.length, { size := h.readWord prior header + 1 }, d⟩ := by
  rw [payloadStart] at hstart
  cases hrecv : c.recv 4 with
  | none =>
    rw [hrecv] at hstart
    cases hstart
  | some q =>
    obtain ⟨r, d⟩ := q
    rw [hrecv] at hstart
    cases r with
    | error e => cases hstart
    | ok header =>
      simp only at hstart
      split_ifs at hstart with halloc
      obtain ⟨rfl, rfl⟩ := Prod.mk.inj (Option.some.inj hstart)
      exact ⟨header, d, rfl, Bool.of_not_eq_false halloc, rfl, rfl⟩

lemma ProcessServer.payloadStart_some (hstart : payloadStart h prior c = some (bytesToRead, s)) :
    ∃ header d, c.recv 4 = some (.ok header, d) ∧ h.alloc (h.readWord prior header + 1) = true ∧
      bytesToRead = h.readWord prior header ∧
      s = ⟨0, 1, { size := h.readWord prior header + 1 }, d⟩ := by
  rw [payloadStart] at hstart
  cases hrecv : c.recv 4 with
  | none =>
    rw [hrecv] at hstart
    cases hstart
  | some q =>
    obtain ⟨r, d⟩ := q
    rw [hrecv] at hstart
    obtain ⟨⟨n, buffer⟩, hlength, hval⟩ := Option.map_eq_some_iff.mp hstart
    obtain ⟨rfl, rfl⟩ := Prod.mk.inj hval
    cases r with
    | error e => cases hlength
    | ok header =>
      simp only [cGetMessageLength] at hlength
      split_ifs at hlength with halloc
      obtain ⟨rfl, rfl⟩ := Prod.mk.inj (Option.some.inj hlength)
      exact ⟨header, d, rfl, Bool.of_not_eq_false halloc, rfl, rfl⟩

lemma PollServer.pollRecvAndLog_payload {so : StateObject} {i : Fin maxConnections} {t : Timing}
    {handled : Handled} (hstart : payloadStart h prior c = some (bytesToRead, s))
    (hrun : pollRecvAndLog h so i prior t c = some handled) :
    ∃ l, Passes (payloadBody bytesToRead) s l ∧ handled.buffer = some l.buffer := by
  obtain ⟨header, d, hrecv, halloc, rfl, rfl⟩ := payloadStart_some hstart
  simp only [pollRecvAndLog, hrecv, halloc, Bool.true_eq_false, if_false] at hrun
  split at hrun
  · cases hrun
  · rename_i e l hloop
    obtain rfl := Option.some.inj hrun
    obtain ⟨t, ht, hbuffer⟩ := payloadLoop_passes hloop
    exact ⟨t, ht, congrArg some hbuffer⟩
  · rename_i l hloop
    obtain ⟨t, ht, hbuffer⟩ := payloadLoop_passes hloop
    refine ⟨t, ht, ?_⟩
    split at hrun <;> obtain rfl := Option.some.inj hrun <;> exact congrArg some hbuffer

lemma ProcessServer.cRecvLogNotifyParentRespond_payload {pid : ℕ} {child : ChildStruct}
    {calls : SharedCalls} {t : Timing} {handled : Handled}
    (hstart : payloadStart h prior c = some (bytesToRead, s))
    (hrun : cRecvLogNotifyParentRespond h pid child calls prior t c = some handled) :
    ∃ l, Passes (payloadBody bytesToRead) s l ∧ handled.buffer = some l.buffer := by
  obtain ⟨header, d, hrecv, halloc, rfl, rfl⟩ := payloadStart_some hstart
  simp only [cRecvLogNotifyParentRespond, hrecv, cGetMessageLength, halloc, Bool.true_eq_false,
    if_false] at hrun
  split at hrun
  · cases hrun
  · rename_i e l hloop
    obtain rfl := Option.some.inj hrun
    obtain ⟨t, ht, hbuffer⟩ := payloadLoop_passes hloop
    exact ⟨t, ht, congrArg some hbuffer⟩
  · rename_i l hloop
    obtain ⟨t, ht, hbuffer⟩ := payloadLoop_passes hloop
    refine ⟨t, ht, Eq.trans ?_ (congrArg some hbuffer)⟩
    split at hrun
    · obtain rfl := Option.some.inj hrun
      rfl
    · split at hrun
      · obtain rfl := Option.some.inj hrun
        rfl
      · split at hrun <;> obtain rfl := Option.some.inj hrun <;> rfl

lemma readWord_lt (header : List UInt8) : h.readWord prior header < 2 ^ 32 := by
  have hlt := ofBigEndian_lt
    (h.endian.store 4 (h.endian.load (header ++ (h.endian.store 4 prior).drop header.length)))
  rwa [Endian.store_length] at hlt

lemma undisturbed_of_recv {req : ℕ} {r : Except Errno (List UInt8)} {d : Conn}
    (hquiet : Undisturbed c.recvs) (hrecv : c.recv req = some (r, d)) : Undisturbed d.recvs := by
  rw [(Conn.receives_of_recv hrecv).recvs]
  exact hquiet.tail

lemma unread_of_empty_recv {req : ℕ} {bs : List UInt8} {d : Conn} (hreq : 0 < req)
    (hquiet : Undisturbed c.recvs) (hrecv : c.recv req = some (.ok bs, d)) (hbs : bs.length = 0) :
    d.unread = [] := by
  by_cases hunread : c.unread = []
  · obtain ⟨n, -, -, -, hd, -⟩ := Conn.recv_takes hrecv
    rw [hd, hunread, List.drop_nil]
  · obtain ⟨a, ha⟩ := hquiet.head
    rw [Conn.recv_moves ha (.inl hunread)] at hrecv
    obtain ⟨hok, -⟩ := Prod.mk.inj (Option.some.inj hrecv)
    have hlen := List.length_pos_iff.mpr hunread
    have hpos : 0 < chunk a req c.unread.length := chunk_pos hreq hlen
    rw [← Except.ok.inj hok, List.length_take] at hbs
    omega

lemma PollServer.payloadStart_start (hquiet : Undisturbed c.recvs)
    (hstart : payloadStart h prior c = some (bytesToRead, s)) :
    s.Start bytesToRead ∧ bytesToRead < 2 ^ 32 := by
  obtain ⟨header, d, hrecv, -, rfl, rfl⟩ := payloadStart_some hstart
  exact ⟨⟨rfl, rfl, rfl, unread_of_empty_recv (by decide) hquiet hrecv,
    undisturbed_of_recv hquiet hrecv⟩, readWord_lt header⟩

lemma ProcessServer.payloadStart_start (hquiet : Undisturbed c.recvs)
    (hstart : payloadStart h prior c = some (bytesToRead, s)) :
    s.Start bytesToRead ∧ bytesToRead < 2 ^ 32 := by
  obtain ⟨header, d, hrecv, -, rfl, rfl⟩ := payloadStart_some hstart
  exact ⟨⟨rfl, rfl, rfl, fun hzero => absurd hzero one_ne_zero, undisturbed_of_recv hquiet hrecv⟩,
    readWord_lt header⟩

theorem payload_inBounds_iff (h : Host) (prior : ℕ) (c : Conn) (hquiet : Undisturbed c.recvs)
    (bytesToRead : ℕ) (s : PayloadLoop)
    (hstart : PollServer.payloadStart h prior c = some (bytesToRead, s) ∨
      ProcessServer.payloadStart h prior c = some (bytesToRead, s)) :
    ((∀ t, Passes (payloadBody bytesToRead) s t → s.InBounds t) ↔
      ReadsFit bytesToRead s.conn.recvs s.conn.unread.length) ∧
    (PollServer.payloadStart h prior c = some (bytesToRead, s) → ∀ so i t handled,
      PollServer.pollRecvAndLog h so i prior t c = some handled →
        ∃ l, Passes (payloadBody bytesToRead) s l ∧ handled.buffer = some l.buffer) ∧
    (ProcessServer.payloadStart h prior c = some (bytesToRead, s) → ∀ pid child calls t handled,
      ProcessServer.cRecvLogNotifyParentRespond h pid child calls prior t c = some handled →
        ∃ l, Passes (payloadBody bytesToRead) s l ∧ handled.buffer = some l.buffer) := by
  obtain ⟨hs, hword⟩ : s.Start bytesToRead ∧ bytesToRead < 2 ^ 32 :=
    hstart.elim (PollServer.payloadStart_start hquiet) (ProcessServer.payloadStart_start hquiet)
  exact ⟨⟨readsFit_of_inBounds hs hword, fun hfits _ => inBounds_of_readsFit hs hfits⟩,
    fun hstart _ _ _ _ hrun => PollServer.pollRecvAndLog_payload hstart hrun,
    fun hstart _ _ _ _ _ hrun => ProcessServer.cRecvLogNotifyParentRespond_payload hstart hrun⟩

lemma readsFit_of_last {answers : Stream' Answer} {avail : ℕ} (havail : avail ≤ bytesToRead + 1)
    (hlt : avail < 2 ^ 32) : ReadsFit bytesToRead answers avail := fun _ _ =>
  ⟨received_le.trans havail, received_le.trans_lt hlt⟩

def boundsHost : Host := ⟨.little, fun _ => true, fun _ => []⟩

def boundsConn (unread : List UInt8) : Conn where
  unread := unread
  closed := true
  recvs := Stream'.const (.moves 8)
  sends := Stream'.const (.moves 4)
  selects := Stream'.const (.moves 0)

theorem payload_inBounds_of_last :
    ∃ s, PollServer.payloadStart boundsHost 0 (boundsConn (frame [7, 8])) = some (2, s) ∧
      ∀ t, Passes (payloadBody 2) s t → s.InBounds t := by
  refine ⟨_, rfl, (payload_inBounds_iff boundsHost 0 (boundsConn (frame [7, 8]))
    (fun _ => ⟨8, rfl⟩) 2 _ (.inl rfl)).1.mpr (readsFit_of_last ?_ ?_)⟩ <;> decide

theorem payload_overruns :
    let c := boundsConn (frames [[7], [1, 2, 3]])
    let so : PollServer.StateObject := ⟨3, fun _ => 4, fun _ => {}, 1⟩
    (∃ r b, PollServer.pollRecvAndLog boundsHost so 0 0 {} c = some r ∧ r.buffer = some b ∧
        ¬ b.Within b.size) ∧
      ∃ r b, ProcessServer.cRecvLogNotifyParentRespond boundsHost 0 {} ⟨.ok 0, .ok 4, .ok 0⟩ 0 {} c =
        some r ∧ r.buffer = some b ∧ ¬ b.Within b.size := by
  intro c so
  have hwithin : ∀ b : Buffer, (b.size, b.stores) = (2, [(0, 8)]) → ¬ b.Within b.size := by
    rintro b hb hwithin
    obtain ⟨hsize, hstores⟩ := Prod.mk.inj hb
    have hstore := hwithin (0, 8) (by rw [hstores]; exact List.mem_singleton_self _)
    rw [hsize] at hstore
    omega
  constructor
  · have hrun : ((PollServer.pollRecvAndLog boundsHost so 0 0 {} c).bind fun r =>
        r.buffer.map fun b => (b.size, b.stores)) = some (2, [(0, 8)]) := by decide
    obtain ⟨r, hr, hb⟩ := Option.bind_eq_some_iff.mp hrun
    obtain ⟨b, hb, hval⟩ := Option.map_eq_some_iff.mp hb
    exact ⟨r, b, hr, hb, hwithin b hval⟩
  · have hrun : ((ProcessServer.cRecvLogNotifyParentRespond boundsHost 0 {} ⟨.ok 0, .ok 4, .ok 0⟩ 0
        {} c).bind fun r => r.buffer.map fun b => (b.size, b.stores)) = some (2, [(0, 8)]) := by
      decide
    obtain ⟨r, hr, hb⟩ := Option.bind_eq_some_iff.mp hrun
    obtain ⟨b, hb, hval⟩ := Option.map_eq_some_iff.mp hb
    exact ⟨r, b, hr, hb, hwithin b hval⟩

end ScalableServer
