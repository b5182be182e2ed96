import ScalableServer.Core.PayloadLoop
import Mathlib.Algebra.Order.BigOperators.Group.Multiset

/-! An `Entry` is one message: the connection, the bytes of the header that were received, and the
number that the log and the reply carry. -/

namespace ScalableServer.Core

open ScalableServer.Foundations

structure Entry where
  conn : ℕ
  header : ℕ
  bytes : ℕ
  deriving DecidableEq, Repr

def Entry.size (id : ℕ) (x : Entry) : ℕ := if x.conn = id then x.header + x.bytes else 0

def taken (id : ℕ) (m : Multiset Entry) : ℕ := (m.map (Entry.size id)).sum

def replies (id : ℕ) (xs : List Entry) : List UInt8 :=
  xs.flatMap fun x => if x.conn = id then bigEndian 4 x.bytes else []

variable {id : ℕ} {c d : Conn} {req : ℕ}

@[simp] lemma taken_add (id : ℕ) (m m' : Multiset Entry) :
    taken id (m + m') = taken id m + taken id m' := by
  rw [taken, Multiset.map_add, Multiset.sum_add]
  rfl

@[simp] lemma taken_singleton (id : ℕ) (x : Entry) : taken id {x} = x.size id := by
  rw [taken, Multiset.map_singleton, Multiset.sum_singleton]

lemma taken_eq_zero {m : Multiset Entry} (h : ∀ x ∈ m, x.conn ≠ id) : taken id m = 0 := by
  refine Multiset.sum_eq_zero fun n hn => ?_
  obtain ⟨x, hx, rfl⟩ := Multiset.mem_map.mp hn
  exact if_neg (h x hx)

@[simp] lemma replies_append (id : ℕ) (xs ys : List Entry) :
    replies id (xs ++ ys) = replies id xs ++ replies id ys := List.flatMap_append

lemma replies_eq_nil {xs : List Entry} (h : ∀ x ∈ xs, x.conn ≠ id) : replies id xs = [] := by
  refine List.flatMap_eq_nil_iff.mpr fun x hx => ?_
  rw [if_neg (h x hx)]

structure Counts (c : Conn) (n : ℕ) (d : Conn) : Prop where
  position : d.position = c.position + n
  sent : d.sent = c.sent

lemma Counts.refl (c : Conn) : Counts c 0 c := ⟨rfl, rfl⟩

lemma Counts.trans {e : Conn} {m n : ℕ} (h : Counts c m d) (h' : Counts d n e) :
    Counts c (m + n) e :=
  ⟨by rw [h'.position, h.position, Nat.add_assoc], h'.sent.trans h.sent⟩

lemma counts_deliver (bs : List UInt8) (c : Conn) : Counts c 0 (c.deliver bs) := by
  rw [Conn.deliver]
  split_ifs <;> exact ⟨rfl, rfl⟩

lemma counts_hangup (c : Conn) : Counts c 0 c.hangup := ⟨rfl, rfl⟩

lemma counts_update {conns : ℕ → Conn} (h : Counts (conns id) 0 d) (id' : ℕ) :
    Counts (conns id') 0 (Function.update conns id d id') := by
  by_cases hid : id' = id
  · rw [hid, Function.update_self]
    exact h
  · rw [Function.update_of_ne hid]
    exact .refl _

lemma counts_of_recv {bs : List UInt8} (h : c.recv req = some (.ok bs, d)) :
    Counts c bs.length d ∧ d.sends = c.sends := by
  have hreceives := Conn.receives_of_recv h
  obtain ⟨n, -, hn, hbs, hd⟩ | ⟨e, -, hbs, -⟩ := hreceives.result
  · obtain rfl := Except.ok.inj hbs
    rw [List.length_take_of_le hn]
    refine ⟨⟨?_, ?_⟩, hreceives.sends⟩ <;>
    · rw [hd]
      rfl
  · cases hbs

lemma counts_of_payloadBody {bytesToRead : ℕ} {s t : PayloadLoop}
    (h : payloadBody bytesToRead s = .again t) :
    ∃ n, Counts s.conn n t.conn ∧ t.bytesRead = (s.bytesRead + n) % 2 ^ 32 ∧
      t.conn.sends = s.conn.sends := by
  rw [payloadBody] at h
  split_ifs at h
  split at h
  · cases h
  · cases h
  · rename_i bs d hrecv
    obtain ⟨hcounts, hsends⟩ := counts_of_recv hrecv
    obtain rfl := Iter.again.inj h
    exact ⟨bs.length, hcounts, rfl, hsends⟩

lemma payloadBody_ends {bytesToRead : ℕ} {s t : PayloadLoop}
    (h : payloadBody bytesToRead s = .done (.ok (), t)) : t = s := by
  rw [payloadBody] at h
  split_ifs at h
  · split at h
    · cases h
    · cases h
    · cases h
  · exact (Prod.mk.inj (Iter.done.inj h)).2.symm

lemma counts_of_payloadLoop {bytesToRead : ℕ} {s t : PayloadLoop} (hs : s.bytesRead = 0)
    (h : payloadLoop bytesToRead s = some (.ok (), t)) :
    ∃ n, Counts s.conn n t.conn ∧ t.bytesRead = n % 2 ^ 32 ∧ t.conn.sends = s.conn.sends := by
  let I : PayloadLoop → Prop := fun x => ∃ n, Counts s.conn n x.conn ∧ x.bytesRead = n % 2 ^ 32 ∧
    x.conn.sends = s.conn.sends
  have hpass : ∀ x, I x → (payloadBody bytesToRead x).Keeps I fun q => q.1 = .ok () → I q.2 := by
    rintro x ⟨n, hcounts, hread, hsends⟩
    cases hbody : payloadBody bytesToRead x with
    | blocked => trivial
    | again y =>
      obtain ⟨k, hk, hy, hsame⟩ := counts_of_payloadBody hbody
      exact ⟨n + k, hcounts.trans hk, by rw [hy, hread, Nat.mod_add_mod], hsame.trans hsends⟩
    | done q =>
      obtain ⟨r, y⟩ := q
      rintro rfl
      rw [payloadBody_ends hbody]
      exact ⟨n, hcounts, hread, hsends⟩
  exact iterate_keeps hpass ⟨0, .refl _, by rw [hs, Nat.zero_mod], rfl⟩ h rfl

lemma send_whole {word : List UInt8} {n : ℕ} (hword : word.length = 4)
    (hwhole : 4 ≤ c.sends.head.amount) (h : c.send word = (.ok n, d)) :
    d.position = c.position ∧ d.sent = c.sent ++ word := by
  have hchunk : ∀ k, 4 ≤ k → word.take (chunk k word.length word.length) = word := fun k hk => by
    refine List.take_of_length_le ?_
    rw [chunk]
    omega
  cases ho : c.sends.head.outcome with
  | ok k | cut k =>
    rw [Answer.amount, ho] at hwhole
    simp only [Conn.send, Sock.send, ho, Prod.mk.injEq] at h
    obtain ⟨-, rfl⟩ := h
    exact ⟨rfl, congrArg (c.sent ++ ·) (hchunk k hwhole)⟩
  | fail e => simp [Conn.send, Sock.send, ho] at h

end ScalableServer.Core
