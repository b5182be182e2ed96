import ScalableServer.Core.Transfer

namespace ScalableServer.Client

open ScalableServer.Foundations ScalableServer.Core

variable {size : ℕ} {b : Buffer} {c : Conn} {s : Read}

structure ReadsFrom (size : ℕ) (c : Conn) (s : Read) : Prop where
  nread : s.nread ≤ size
  avail : s.nread ≤ c.unread.length
  unread : s.conn.unread = c.unread.drop s.nread
  recvs : Undisturbed s.conn.recvs
  closed : s.conn.closed = c.closed

lemma readsFrom_start (hquiet : Undisturbed c.recvs) :
    ReadsFrom size c { buffer := b, conn := c } :=
  ⟨Nat.zero_le _, Nat.zero_le _, rfl, hquiet, rfl⟩

def nextRead (size : ℕ) (s : Read) : ℕ :=
  chunk s.conn.recvs.head.amount (size - s.nread) s.conn.unread.length

def readOn (size : ℕ) (s : Read) : Read where
  nread := s.nread + nextRead size s
  buffer := s.buffer.store s.nread (s.conn.unread.take (nextRead size s))
  conn := s.conn.consumed (size - s.nread) (nextRead size s)

lemma readFullyBody_next (hgo : (s.nread : ℤ) < ssize size) (hquiet : Undisturbed s.conn.recvs)
    (hunread : s.conn.unread ≠ [] ∨ s.conn.closed = true) :
    readFullyBody size s = .again (readOn size s) := by
  obtain ⟨a, ha⟩ := hquiet.head
  have hnext : nextRead size s = chunk a (size - s.nread) s.conn.unread.length := by
    rw [nextRead, ha]
    rfl
  have hlen : (s.conn.unread.take (nextRead size s)).length = nextRead size s := by
    rw [List.length_take]
    exact min_eq_left (chunk_le_available _ _ _)
  rw [readFullyBody, if_pos hgo, Conn.recv_moves ha hunread, ← hnext]
  simp only [hlen]
  rfl

lemma ReadsFrom.next (hs : ReadsFrom size c s) : ReadsFrom size c (readOn size s) := by
  obtain ⟨hnread, havail, hunread, hrecvs, hclosed⟩ := hs
  have hreq : nextRead size s ≤ size - s.nread := chunk_le_request _ _ _
  have hchunk : nextRead size s ≤ s.conn.unread.length := chunk_le_available _ _ _
  rw [hunread, List.length_drop] at hchunk
  refine ⟨?_, ?_, ?_, hrecvs.tail, hclosed⟩
  · change s.nread + nextRead size s ≤ size
    omega
  · change s.nread + nextRead size s ≤ c.unread.length
    omega
  · change s.conn.unread.drop (nextRead size s) = c.unread.drop (s.nread + nextRead size s)
    rw [hunread, List.drop_drop]

lemma ReadsFrom.nextRead_pos (hs : ReadsFrom size c s) (hsize : s.nread < size)
    (hmore : s.nread < c.unread.length) : 0 < nextRead size s := by
  apply chunk_pos (by omega)
  rw [hs.unread, List.length_drop]
  omega

lemma readFully_returns (hsize : size < 2 ^ 63) (hquiet : Undisturbed c.recvs)
    (hlen : size ≤ c.unread.length) : ∃ d, readFully size b c = some (0, d) := by
  have hssize := ssize_eq hsize
  have hbody : ∀ s, ReadsFrom size c s →
      (∃ t, readFullyBody size s = .again t ∧ ReadsFrom size c t ∧
        size - t.nread < size - s.nread) ∨
      ∃ r, readFullyBody size s = .done r ∧ r.1 = 0 := by
    intro s hs
    by_cases hlt : s.nread < size
    · have hpos := hs.nextRead_pos hlt (by omega)
      have hne : s.conn.unread ≠ [] := by
        rw [hs.unread, ← List.length_pos_iff, List.length_drop]
        omega
      refine .inl ⟨_, readFullyBody_next (by omega) hs.recvs (.inl hne), hs.next, ?_⟩
      change size - (s.nread + nextRead size s) < size - s.nread
      omega
    · exact .inr ⟨(0, s), readFullyBody_stop (by omega), rfl⟩
  obtain ⟨⟨r, d⟩, hr, rfl⟩ := iterate_total (ReadsFrom size c)
    (fun r : ℤ × Read => r.1 = 0) (fun s => size - s.nread) hbody (readsFrom_start (b := b) hquiet)
    (by change size - 0 < size + 1; omega)
  exact ⟨d, hr⟩

lemma readFully_spins (hsize : size < 2 ^ 63) (hclosed : c.closed = true)
    (hquiet : Undisturbed c.recvs) (hlen : c.unread.length < size) (fuel : ℕ) :
    iterate (readFullyBody size) fuel { buffer := b, conn := c } = none := by
  have hssize := ssize_eq hsize
  refine iterate_diverges (ReadsFrom size c) (fun s hs => ?_) (readsFrom_start hquiet) fuel
  have havail := hs.avail
  exact ⟨_, readFullyBody_next (by omega) hs.recvs (.inr (hs.closed.trans hclosed)), hs.next⟩

lemma ssize_neg (hsize : 2 ^ 63 ≤ size) (hlt : size < 2 ^ 64) : ssize size < 0 := by
  have hmod : (BitVec.ofNat 64 size).toNat = size := by
    rw [BitVec.toNat_ofNat, Nat.mod_eq_of_lt hlt]
  rw [ssize, BitVec.toInt_eq_toNat_cond, hmod]
  split_ifs <;> omega

theorem readFully_returns_iff (size : ℕ) (hsize : size < 2 ^ 64) (b : Buffer) (c : Conn)
    (hclosed : c.closed = true) (hquiet : Undisturbed c.recvs) :
    (∃ fuel r d, iterate (readFullyBody size) fuel { buffer := b, conn := c } = some (r, d) ∧
        r = if size ≤ c.unread.length then 0 else -1) ↔ size ≤ c.unread.length := by
  by_cases hlong : 2 ^ 63 ≤ size
  · -- the size is negative as a `ssize_t`, and nothing is read
    have hstop : ¬ ((({ buffer := b, conn := c } : Read).nread : ℤ) < ssize size) := by
      have hneg := ssize_neg hlong hsize
      change ¬ (0 : ℤ) < _
      omega
    constructor
    · rintro ⟨fuel, r, d, hrun, hr⟩
      by_contra hlen
      have hdone : iterate (readFullyBody size) 1 { buffer := b, conn := c } = some (0, _) :=
        iterate_done (readFullyBody_stop hstop)
      have hzero : r = 0 := by
        have hrun' := iterate_mono hrun (Nat.le_add_right fuel 1)
        rw [iterate_mono hdone (Nat.le_add_left 1 fuel)] at hrun'
        exact (Prod.mk.inj (Option.some.inj hrun')).1.symm
      rw [if_neg hlen, hzero] at hr
      cases hr
    · intro hlen
      exact ⟨1, 0, _, iterate_done (readFullyBody_stop hstop), (if_pos hlen).symm⟩
  · constructor
    · rintro ⟨fuel, r, d, hrun, -⟩
      by_contra hlen
      rw [readFully_spins (by omega) hclosed hquiet (by omega)] at hrun
      cases hrun
    · intro hlen
      obtain ⟨d, hd⟩ := readFully_returns (b := b) (by omega) hquiet hlen
      exact ⟨size + 1, 0, d, hd, (if_pos hlen).symm⟩

def endedConn (unread : List UInt8) : Conn where
  unread := unread
  closed := true
  recvs := Stream'.const (.moves 3)
  sends := Stream'.const (.moves 4)
  selects := Stream'.const (.moves 0)

theorem readFully_of_cut_reply :
    ¬ ∃ fuel r d, iterate (readFullyBody 4)
      fuel { buffer := { size := 4 }, conn := endedConn [0, 0] } = some (r, d) := by
  rintro ⟨fuel, r, d, hrun⟩
  rw [readFully_spins (by decide) rfl (fun _ => ⟨3, rfl⟩) (by decide)] at hrun
  cases hrun

theorem readFully_of_whole_reply :
    ∃ fuel r d, iterate (readFullyBody 4) fuel
      { buffer := { size := 4 }, conn := endedConn [0, 0, 0, 7, 0] } = some (r, d) ∧ r = 0 :=
  (readFully_returns_iff 4 (by decide) { size := 4 } (endedConn [0, 0, 0, 7, 0]) rfl
    fun _ => ⟨3, rfl⟩).mpr (by decide)

end ScalableServer.Client
