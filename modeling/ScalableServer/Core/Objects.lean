import ScalableServer.Foundations.ByteOrder
import ScalableServer.Foundations.Sockets

/-! What the servers take from the host, and the memory they fill.

`alloc` tells which allocations succeed and `ctime` gives the text with its newline. `readWord` is
the value `ntohl` makes of a `uint32_t` that held `prior` when a read put `bs` into it, `wordBytes`
the memory of one that `htonl` filled. A `Buffer` keeps what has been stored from its start, and the
offset and length of each store. Elapsed time is in ticks: the code prints it over
`CLOCKS_PER_SEC`. A message goes over the wire as its `frame`. -/

namespace ScalableServer.Core

open ScalableServer.Foundations

structure Host where
  endian : Endian
  alloc : ℕ → Bool
  ctime : ℤ → List Char

structure SockAddr where
  sinAddr : ℕ := 0
  sinPort : ℕ := 0
  deriving DecidableEq, Repr

structure Timing where
  startTime : ℤ := 0
  endTime : ℤ := 0
  startTimeGranular : ℤ := 0
  endTimeGranular : ℤ := 0
  deriving DecidableEq, Repr

def Timing.elapsed (t : Timing) : ℤ := t.endTimeGranular - t.startTimeGranular

def trimLast (str : List Char) : List Char := str.dropLast

def Host.readWord (h : Host) (prior : ℕ) (bs : List UInt8) : ℕ :=
  h.endian.ntoh 4 (h.endian.load (bs ++ (h.endian.store 4 prior).drop bs.length))

def Host.wordBytes (h : Host) (n : ℕ) : List UInt8 := h.endian.store 4 (h.endian.hton 4 n)

lemma Host.wordBytes_eq (h : Host) (n : ℕ) : h.wordBytes n = bigEndian 4 n :=
  Endian.store_hton h.endian 4 n

@[simp] lemma Host.wordBytes_length (h : Host) (n : ℕ) : (h.wordBytes n).length = 4 :=
  Endian.store_length _ _ _

lemma Host.readWord_whole (h : Host) (prior : ℕ) {bs : List UInt8} (hb : bs.length = 4) :
    h.readWord prior bs = ofBigEndian bs := by
  have hd : (h.endian.store 4 prior).drop bs.length = [] := by simp [hb]
  have hn := Endian.ntoh_load h.endian bs
  rw [hb] at hn
  rw [readWord, hd, List.append_nil, hn]

structure Buffer where
  size : ℕ
  cells : List UInt8 := []
  stores : List (ℕ × ℕ) := []
  deriving DecidableEq

def Buffer.store (offset : ℕ) (bs : List UInt8) (b : Buffer) : Buffer :=
  { b with
    cells := b.cells.take offset ++ bs ++ b.cells.drop (offset + bs.length)
    stores := b.stores ++ [(offset, bs.length)] }

def Buffer.Within (b : Buffer) (bound : ℕ) : Prop := ∀ st ∈ b.stores, st.1 + st.2 ≤ bound

def frame (m : List UInt8) : List UInt8 := bigEndian 4 m.length ++ m

def frames (ms : List (List UInt8)) : List UInt8 := ms.flatMap frame

@[simp] lemma frames_cons (m : List UInt8) (ms : List (List UInt8)) :
    frames (m :: ms) = frame m ++ frames ms := rfl

@[simp] lemma frame_length (m : List UInt8) : (frame m).length = 4 + m.length := by simp [frame]

/-- One of the whole messages that have been delivered has not been read to its end: `unread` is the
end of what has been `delivered`. -/
def MessageUnread (delivered unread : List UInt8) : Prop :=
  ∃ ms m rest, m.length < 2 ^ 32 ∧ delivered = frames ms ++ (frame m ++ rest) ∧
    rest.length < unread.length

def MessageCame (delivered : List UInt8) : Prop :=
  ∃ ms m rest, m.length < 2 ^ 32 ∧ delivered = frames ms ++ (frame m ++ rest)

lemma MessageCame.shorter {delivered unread : List UInt8} (h : MessageCame delivered)
    (hread : ¬ MessageUnread delivered unread) : unread.length < delivered.length := by
  obtain ⟨ms, m, rest, hm, hd⟩ := h
  have hrest : unread.length ≤ rest.length := by
    by_contra hlt
    exact hread ⟨ms, m, rest, hm, hd, not_le.mp hlt⟩
  rw [hd]
  simp only [List.length_append, frame_length]
  omega

lemma MessageUnread.mono {delivered unread unread' : List UInt8}
    (h : MessageUnread delivered unread) (hle : unread.length ≤ unread'.length) :
    MessageUnread delivered unread' := by
  obtain ⟨ms, m, rest, hm, hd, hlt⟩ := h
  exact ⟨ms, m, rest, hm, hd, hlt.trans_le hle⟩

lemma not_messageUnread_of_read {delivered unread : List UInt8} (h : unread = []) :
    ¬ MessageUnread delivered unread := by
  rintro ⟨ms, m, rest, -, -, hlt⟩
  rw [h] at hlt
  exact Nat.not_lt_zero _ hlt

end ScalableServer.Core
