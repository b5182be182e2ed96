import Mathlib.Data.Stream.Init
import Mathlib.Tactic

/-! Stream sockets that deliver and accept bytes in pieces of the kernel's choice.

A call that ends with `ok n` or `cut n` moves between one and `max 1 n` bytes, `cut` when a signal
ended it. A call that fails returns -1: SIGPIPE, which EPIPE raises in a process that does not
ignore it, is taken to be ignored. A read gives no bytes at the end of the stream and does not
return while the stream may go on. A `Sock` keeps the bytes the peer has sent and this end has not
read, the number of bytes read, the position and size of each read request, and the bytes sent; a
`Conn` adds the kernel's answers to the calls to come, and whether a signal has reached the process
during one. -/

namespace ScalableServer.Foundations

inductive Errno
  | EINTR
  | EBADF
  | other (code : ℕ)
  deriving DecidableEq, Repr

def OnlyInterrupted (err : Option Errno) : Prop := ∀ e ∈ err, e = .EINTR

instance (err : Option Errno) : Decidable (OnlyInterrupted err) :=
  inferInstanceAs (Decidable (∀ e ∈ err, e = .EINTR))

lemma OnlyInterrupted.none_of_ne {err : Option Errno} (h : OnlyInterrupted err)
    (hne : err ≠ some .EINTR) : err = none := by
  cases err with
  | none => rfl
  | some e => exact (hne (congrArg some (h e rfl))).elim

inductive Outcome
  | ok (n : ℕ)
  | cut (n : ℕ)
  | fail (e : Errno)
  deriving DecidableEq, Repr

structure Answer where
  outcome : Outcome
  signal : Bool
  deriving DecidableEq, Repr

def Answer.moves (n : ℕ) : Answer := ⟨.ok n, false⟩

def Answer.fails (a : Answer) : Bool :=
  match a.outcome with
  | .fail _ => true
  | _ => false

def Answer.amount (a : Answer) : ℕ :=
  match a.outcome with
  | .ok k | .cut k => k
  | .fail _ => 0

def Undisturbed (answers : Stream' Answer) : Prop := ∀ n, ∃ k, answers.get n = .moves k

def Writable (answers : Stream' Answer) : Prop := ∀ n e, (answers.get n).outcome ≠ .fail e

lemma Writable.tail {answers : Stream' Answer} (h : Writable answers) : Writable answers.tail :=
  fun n => h (n + 1)

lemma Undisturbed.head {answers : Stream' Answer} (h : Undisturbed answers) :
    ∃ k, answers.head = .moves k := h 0

lemma Undisturbed.tail {answers : Stream' Answer} (h : Undisturbed answers) :
    Undisturbed answers.tail := fun n => h (n + 1)

def chunk (k req avail : ℕ) : ℕ := min (max 1 k) (min req avail)

lemma chunk_le_request (k req avail : ℕ) : chunk k req avail ≤ req := by
  rw [chunk]
  omega

lemma chunk_le_available (k req avail : ℕ) : chunk k req avail ≤ avail := by
  rw [chunk]
  omega

lemma chunk_pos {k req avail : ℕ} (hr : 0 < req) (ha : 0 < avail) : 0 < chunk k req avail := by
  rw [chunk]
  omega

structure Sock where
  unread : List UInt8 := []
  closed : Bool := false
  position : ℕ := 0
  requests : List (ℕ × ℕ) := []
  sent : List UInt8 := []

namespace Sock

def consume (req n : ℕ) (s : Sock) : Sock :=
  { s with
    unread := s.unread.drop n
    position := s.position + n
    requests := s.requests ++ [(s.position, req)] }

def transfer (req k : ℕ) (s : Sock) : Option (Except Errno (List UInt8) × Sock) :=
  if s.unread = [] ∧ s.closed = false then none
  else
    let n := chunk k req s.unread.length
    some (.ok (s.unread.take n), s.consume req n)

def recv (req : ℕ) (o : Outcome) (s : Sock) : Option (Except Errno (List UInt8) × Sock) :=
  match o with
  | .ok k | .cut k => s.transfer req k
  | .fail e => some (.error e, s.consume req 0)

def recvAll (req : ℕ) (o : Outcome) (s : Sock) : Option (Except Errno (List UInt8) × Sock) :=
  match o with
  | .ok _ => if s.unread.length < req ∧ s.closed = false then none else s.transfer req req
  | .cut k => s.transfer req k
  | .fail e => some (.error e, s.consume req 0)

def send (bs : List UInt8) (o : Outcome) (s : Sock) : Except Errno ℕ × Sock :=
  match o with
  | .ok k | .cut k =>
    let n := chunk k bs.length bs.length
    (.ok n, { s with sent := s.sent ++ bs.take n })
  | .fail e => (.error e, s)

end Sock

structure Conn extends Sock where
  recvs : Stream' Answer
  sends : Stream' Answer
  selects : Stream' Answer
  signalled : Bool := false

namespace Conn

def recv (req : ℕ) (c : Conn) : Option (Except Errno (List UInt8) × Conn) :=
  (c.toSock.recv req c.recvs.head.outcome).map fun (r, s) =>
    (r, { c with toSock := s, recvs := c.recvs.tail
                 signalled := c.signalled || c.recvs.head.signal })

def recvAll (req : ℕ) (c : Conn) : Option (Except Errno (List UInt8) × Conn) :=
  (c.toSock.recvAll req c.recvs.head.outcome).map fun (r, s) =>
    (r, { c with toSock := s, recvs := c.recvs.tail
                 signalled := c.signalled || c.recvs.head.signal })

def send (bs : List UInt8) (c : Conn) : Except Errno ℕ × Conn :=
  let (r, s) := c.toSock.send bs c.sends.head.outcome
  (r, { c with toSock := s, sends := c.sends.tail
               signalled := c.signalled || c.sends.head.signal })

/-- Wait until the socket can be read or a signal has reached the process; the answer tells of the
signal. -/
def select (c : Conn) : Option (Except Errno Bool × Conn) :=
  let d := { c with selects := c.selects.tail, signalled := c.signalled || c.selects.head.signal }
  match c.selects.head.outcome with
  | .fail e => some (.error e, d)
  | _ =>
    if d.signalled = true then some (.ok true, d)
    else if c.unread = [] ∧ c.closed = false then none
    else some (.ok false, d)

def Silent (c : Conn) : Prop := c.unread = [] ∧ c.closed = false

def consumed (req n : ℕ) (c : Conn) : Conn :=
  { c with toSock := c.toSock.consume req n, recvs := c.recvs.tail }

def accepted (bs : List UInt8) (c : Conn) : Conn :=
  { c with sent := c.sent ++ bs, sends := c.sends.tail }

def selected (c : Conn) : Conn := { c with selects := c.selects.tail }

def deliver (bs : List UInt8) (c : Conn) : Conn :=
  if c.closed then c else { c with unread := c.unread ++ bs }

def hangup (c : Conn) : Conn := { c with closed := true }

structure SameOutput (c d : Conn) : Prop where
  sent : d.sent = c.sent
  sends : d.sends = c.sends
  selects : d.selects = c.selects
  closed : d.closed = c.closed
  signalled : d.signalled = c.signalled

lemma SameOutput.refl (c : Conn) : SameOutput c c := ⟨rfl, rfl, rfl, rfl, rfl⟩

lemma SameOutput.trans {c d e : Conn} (h : SameOutput c d) (h' : SameOutput d e) :
    SameOutput c e :=
  ⟨h'.sent.trans h.sent, h'.sends.trans h.sends, h'.selects.trans h.selects,
    h'.closed.trans h.closed, h'.signalled.trans h.signalled⟩

structure SameInput (c d : Conn) : Prop where
  unread : d.unread = c.unread
  position : d.position = c.position
  requests : d.requests = c.requests
  recvs : d.recvs = c.recvs
  selects : d.selects = c.selects
  closed : d.closed = c.closed
  signalled : d.signalled = c.signalled

lemma SameInput.refl (c : Conn) : SameInput c c := ⟨rfl, rfl, rfl, rfl, rfl, rfl, rfl⟩

lemma SameInput.trans {c d e : Conn} (h : SameInput c d) (h' : SameInput d e) : SameInput c e :=
  ⟨h'.unread.trans h.unread, h'.position.trans h.position, h'.requests.trans h.requests,
    h'.recvs.trans h.recvs, h'.selects.trans h.selects, h'.closed.trans h.closed,
    h'.signalled.trans h.signalled⟩

lemma accepted_sameInput (bs : List UInt8) (c : Conn) : SameInput c (c.accepted bs) :=
  ⟨rfl, rfl, rfl, rfl, rfl, rfl, rfl⟩

lemma consumed_sameOutput (req n : ℕ) (c : Conn) : SameOutput c (c.consumed req n) :=
  ⟨rfl, rfl, rfl, rfl, rfl⟩

@[simp] lemma consumed_unread (req n : ℕ) (c : Conn) :
    (c.consumed req n).unread = c.unread.drop n := rfl

structure Drains (c d : Conn) : Prop where
  unread : d.unread.length ≤ c.unread.length
  closed : d.closed = c.closed

lemma Drains.refl (c : Conn) : Drains c c := ⟨le_refl _, rfl⟩

lemma Drains.trans {c d e : Conn} (h : Drains c d) (h' : Drains d e) : Drains c e :=
  ⟨h'.unread.trans h.unread, h'.closed.trans h.closed⟩

structure Receives (req : ℕ) (c : Conn) (r : Except Errno (List UInt8)) (d : Conn) : Prop where
  recvs : d.recvs = c.recvs.tail
  sends : d.sends = c.sends
  selects : d.selects = c.selects
  result : (∃ n ≤ req, n ≤ c.unread.length ∧ r = .ok (c.unread.take n) ∧
      d.toSock = c.toSock.consume req n) ∨
    ∃ e, c.recvs.head.outcome = .fail e ∧ r = .error e ∧ d.toSock = c.toSock.consume req 0

lemma transfer_moves {s s' : Sock} {req k : ℕ} {r : Except Errno (List UInt8)}
    (h : s.transfer req k = some (r, s')) :
    ∃ n ≤ req, n ≤ s.unread.length ∧ r = .ok (s.unread.take n) ∧ s' = s.consume req n := by
  rw [Sock.transfer] at h
  split_ifs at h
  obtain ⟨rfl, rfl⟩ := Prod.mk.inj (Option.some.inj h)
  exact ⟨_, chunk_le_request _ _ _, chunk_le_available _ _ _, rfl, rfl⟩

lemma receives_of_recv {c d : Conn} {req : ℕ} {r : Except Errno (List UInt8)}
    (h : c.recv req = some (r, d)) : Receives req c r d := by
  obtain ⟨⟨r', s⟩, hs, he⟩ := Option.map_eq_some_iff.mp h
  obtain ⟨rfl, rfl⟩ := Prod.mk.inj he
  refine ⟨rfl, rfl, rfl, ?_⟩
  cases ho : c.recvs.head.outcome with
  | ok k | cut k =>
    rw [ho] at hs
    exact .inl (transfer_moves hs)
  | fail e =>
    rw [ho] at hs
    obtain ⟨rfl, rfl⟩ := Prod.mk.inj (Option.some.inj hs)
    exact .inr ⟨e, rfl, rfl, rfl⟩

lemma recv_drains {c d : Conn} {req : ℕ} {r : Except Errno (List UInt8)}
    (h : c.recv req = some (r, d)) : Drains c d := by
  have hconsume : ∀ n, d.toSock = c.toSock.consume req n → Drains c d := by
    intro n hd
    refine ⟨?_, ?_⟩
    · rw [hd, Sock.consume, List.length_drop]
      omega
    · rw [hd]
      rfl
  obtain ⟨n, -, -, -, hd⟩ | ⟨e, -, -, hd⟩ := (receives_of_recv h).result
  · exact hconsume n hd
  · exact hconsume 0 hd

lemma send_drains (bs : List UInt8) (c : Conn) : Drains c (c.send bs).2 := by
  cases ho : c.sends.head.outcome <;>
    exact ⟨by simp [send, Sock.send, ho], by simp [send, Sock.send, ho]⟩

lemma deliver_of_closed (bs : List UInt8) {c : Conn} (h : c.closed = true) : c.deliver bs = c :=
  if_pos h

variable {c : Conn} {req k : ℕ}

lemma recv_moves (h : c.recvs.head = .moves k) (hu : c.unread ≠ [] ∨ c.closed = true) :
    c.recv req = some (.ok (c.unread.take (chunk k req c.unread.length)),
      c.consumed req (chunk k req c.unread.length)) := by
  have hb : ¬ (c.unread = [] ∧ c.closed = false) := by
    rcases hu with hu | hu <;> simp [hu]
  simp [recv, h, Answer.moves, Sock.recv, Sock.transfer, hb, consumed]

lemma recv_takes {bs : List UInt8} {d : Conn} (h : c.recv req = some (.ok bs, d)) :
    ∃ n ≤ req, n ≤ c.unread.length ∧ bs = c.unread.take n ∧ d.unread = c.unread.drop n ∧
      d.sent = c.sent ∧ d.sends = c.sends := by
  have hreceives := receives_of_recv h
  obtain ⟨n, hreq, hn, hbs, hd⟩ | ⟨e, -, hbs, -⟩ := hreceives.result
  · refine ⟨n, hreq, hn, Except.ok.inj hbs, ?_, ?_, hreceives.sends⟩
    · rw [hd]
      rfl
    · rw [hd]
      rfl
  · cases hbs

lemma recvAll_moves (h : c.recvs.head = .moves k)
    (hu : req ≤ c.unread.length ∨ c.closed = true) (hr : 0 < req) :
    c.recvAll req = some (.ok (c.unread.take (chunk req req c.unread.length)),
      c.consumed req (chunk req req c.unread.length)) := by
  have hw : ¬ (c.unread.length < req ∧ c.closed = false) := by
    rcases hu with hu | hu
    · omega
    · simp [hu]
  have hb : ¬ (c.unread = [] ∧ c.closed = false) := by
    rintro ⟨hn, hc⟩
    exact hw ⟨by simpa [hn] using hr, hc⟩
  simp [recvAll, h, Answer.moves, Sock.recvAll, Sock.transfer, hw, hb, consumed]

lemma send_moves (bs : List UInt8) (h : c.sends.head = .moves k) :
    c.send bs = (.ok (chunk k bs.length bs.length),
      c.accepted (bs.take (chunk k bs.length bs.length))) := by
  simp [send, h, Answer.moves, Sock.send, accepted]

lemma send_ok_pos {bs : List UInt8} {n : ℕ} {d : Conn} (hb : 0 < bs.length)
    (h : c.send bs = (.ok n, d)) : 0 < n := by
  cases ho : c.sends.head.outcome with
  | ok k =>
    simp only [send, Sock.send, ho, Prod.mk.injEq, Except.ok.injEq] at h
    exact h.1 ▸ chunk_pos hb hb
  | cut k =>
    simp only [send, Sock.send, ho, Prod.mk.injEq, Except.ok.injEq] at h
    exact h.1 ▸ chunk_pos hb hb
  | fail e => simp [send, Sock.send, ho] at h

lemma send_takes {bs : List UInt8} {n : ℕ} {d : Conn} (h : c.send bs = (.ok n, d)) :
    n ≤ bs.length ∧ d.sent = c.sent ++ bs.take n := by
  cases ho : c.sends.head.outcome with
  | ok k | cut k =>
    simp only [send, Sock.send, ho, Prod.mk.injEq, Except.ok.injEq] at h
    obtain ⟨rfl, rfl⟩ := h
    exact ⟨chunk_le_request _ _ _, rfl⟩
  | fail e => simp [send, Sock.send, ho] at h

lemma send_fails {bs : List UInt8} {e : Errno} (h : c.sends.head.outcome = .fail e) :
    c.send bs = (.error e, (c.send bs).2) := by
  simp [send, Sock.send, h]

lemma send_moves_or_cut (bs : List UInt8) (h : c.sends.head.outcome = .ok k ∨
    c.sends.head.outcome = .cut k) :
    c.send bs = (.ok (chunk k bs.length bs.length), (c.send bs).2) := by
  rcases h with h | h <;> simp [send, Sock.send, h]

lemma send_writable (bs : List UInt8) (h : Writable c.sends) :
    ∃ n d, c.send bs = (.ok n, d) ∧ Writable d.sends := by
  cases ho : c.sends.head.outcome with
  | ok k => exact ⟨_, _, send_moves_or_cut bs (.inl ho), h.tail⟩
  | cut k => exact ⟨_, _, send_moves_or_cut bs (.inr ho), h.tail⟩
  | fail e => exact (h 0 e ho).elim

lemma recv_writable (h : Writable c.recvs) (hu : c.unread ≠ []) :
    ∃ k d, c.recv req = some (.ok (c.unread.take (chunk k req c.unread.length)), d) ∧
      d.unread = c.unread.drop (chunk k req c.unread.length) ∧ Writable d.recvs := by
  have htransfer : ∀ k, c.recvs.head.outcome = .ok k ∨ c.recvs.head.outcome = .cut k →
      c.toSock.recv req c.recvs.head.outcome = some (.ok (c.unread.take (chunk k req c.unread.length)),
        c.toSock.consume req (chunk k req c.unread.length)) := by
    rintro k (ho | ho) <;> simp [ho, Sock.recv, Sock.transfer, hu]
  have hrecv : ∀ k, c.recvs.head.outcome = .ok k ∨ c.recvs.head.outcome = .cut k →
      ∃ d, c.recv req = some (.ok (c.unread.take (chunk k req c.unread.length)), d) ∧
        d.unread = c.unread.drop (chunk k req c.unread.length) ∧ Writable d.recvs := by
    intro k ho
    rw [recv, htransfer k ho]
    exact ⟨_, rfl, rfl, h.tail⟩
  cases ho : c.recvs.head.outcome with
  | ok k => exact ⟨k, hrecv k (.inl ho)⟩
  | cut k => exact ⟨k, hrecv k (.inr ho)⟩
  | fail e => exact (h 0 e ho).elim

lemma recv_of_writable (req : ℕ) (h : Writable c.recvs) :
    c.recv req = none ∧ c.unread = [] ∧ c.closed = false ∨
      (∃ bs d, c.recv req = some (.ok bs, d)) ∧ ¬ (c.unread = [] ∧ c.closed = false) := by
  obtain ⟨k, hk⟩ : ∃ k, c.toSock.recv req c.recvs.head.outcome = c.toSock.transfer req k := by
    cases ho : c.recvs.head.outcome with
    | ok k | cut k => exact ⟨k, rfl⟩
    | fail e => exact (h 0 e ho).elim
  rw [recv, hk, Sock.transfer]
  split_ifs with hblocked
  · exact .inl ⟨rfl, hblocked⟩
  · exact .inr ⟨⟨_, _, rfl⟩, hblocked⟩

lemma recv_eq_none_iff (req : ℕ) (h : Writable c.recvs) :
    c.recv req = none ↔ c.unread = [] ∧ c.closed = false := by
  rcases recv_of_writable req h with ⟨hnone, hwait⟩ | ⟨⟨bs, d, hsome⟩, hready⟩
  · exact iff_of_true hnone hwait
  · exact iff_of_false (by rw [hsome]; rintro ⟨⟩) hready

lemma recv_ok (h : Writable c.recvs) {r : Except Errno (List UInt8)} {d : Conn}
    (hrecv : c.recv req = some (r, d)) : ∃ bs, r = .ok bs := by
  rcases recv_of_writable req h with ⟨hnone, -⟩ | ⟨⟨bs, d', hsome⟩, -⟩
  · rw [hnone] at hrecv
    cases hrecv
  · rw [hsome] at hrecv
    cases hrecv
    exact ⟨bs, rfl⟩

lemma select_moves (h : c.selects.head = .moves k) (hs : c.signalled = false)
    (hu : c.unread ≠ [] ∨ c.closed = true) : c.select = some (.ok false, c.selected) := by
  have hb : ¬ (c.unread = [] ∧ c.closed = false) := by
    rcases hu with hu | hu <;> simp [hu]
  simp [select, h, Answer.moves, hs, hb, selected]

end Conn

end ScalableServer.Foundations
