import Mathlib.Data.List.Basic
import Mathlib.Tactic

/-! Fully buffered output streams of the C library. The characters put into a stream collect in a
buffer, which is written out whole when it holds `capacity` of them and when the stream is closed.
What is written out goes to the end of the file, also where several processes hold the file. -/

namespace ScalableServer.Foundations

def putChar (capacity : ℕ) (b : UInt8) (buffer : List UInt8) : List UInt8 × List UInt8 :=
  if (buffer ++ [b]).length < capacity then ([], buffer ++ [b]) else (buffer ++ [b], [])

def putText (capacity : ℕ) : List UInt8 → List UInt8 → List UInt8 × List UInt8
  | [], buffer => ([], buffer)
  | b :: text, buffer =>
    let (written, buffer) := putChar capacity b buffer
    let (written', buffer) := putText capacity text buffer
    (written ++ written', buffer)

variable {capacity : ℕ}

lemma putChar_append (b : UInt8) (buffer : List UInt8) :
    (putChar capacity b buffer).1 ++ (putChar capacity b buffer).2 = buffer ++ [b] := by
  rw [putChar]
  split_ifs
  · rfl
  · exact List.append_nil _

lemma putChar_length (b : UInt8) (buffer : List UInt8) :
    (putChar capacity b buffer).1.length + (putChar capacity b buffer).2.length =
      buffer.length + 1 := by
  rw [← List.length_append, putChar_append, List.length_append, List.length_singleton]

lemma putText_short {text buffer : List UInt8} (h : buffer.length + text.length < capacity) :
    putText capacity text buffer = ([], buffer ++ text) := by
  induction text generalizing buffer with
  | nil => simp [putText]
  | cons b text ih =>
    have hlen : (buffer ++ [b]).length < capacity := by
      rw [List.length_append, List.length_singleton]
      rw [List.length_cons] at h
      omega
    have hrest : (buffer ++ [b]).length + text.length < capacity := by
      rw [List.length_append, List.length_singleton]
      rw [List.length_cons] at h
      omega
    simp only [putText, putChar, if_pos hlen, ih hrest, List.append_assoc, List.nil_append,
      List.singleton_append]

end ScalableServer.Foundations
