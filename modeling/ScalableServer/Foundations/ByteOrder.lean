import Mathlib.Data.List.Basic
import Mathlib.Tactic

/-! Fixed-width integers in memory and on the wire. `store` gives the bytes in memory of an integer
variable and `load` reads them; `hton` and `ntoh` are the integer conversions of a host that stores
integers in the order `e`, so that a variable filled by `hton` holds the big-endian bytes. -/

namespace ScalableServer.Foundations

def bigEndian : ℕ → ℕ → List UInt8
  | 0, _ => []
  | w + 1, n => UInt8.ofNat (n / 256 ^ w) :: bigEndian w n

def ofBigEndian (bs : List UInt8) : ℕ :=
  bs.foldl (fun n b => n * 256 + b.toNat) 0

@[simp] lemma bigEndian_length (w n : ℕ) : (bigEndian w n).length = w := by
  induction w with
  | zero => rfl
  | succ w ih => simp [bigEndian, ih]

lemma foldl_base (bs : List UInt8) (n : ℕ) :
    bs.foldl (fun n b => n * 256 + b.toNat) n = n * 256 ^ bs.length + ofBigEndian bs := by
  induction bs generalizing n with
  | nil => simp [ofBigEndian]
  | cons b bs ih =>
    simp only [ofBigEndian, List.foldl_cons, List.length_cons]
    rw [ih, ih (0 * 256 + b.toNat)]
    ring

lemma ofBigEndian_cons (b : UInt8) (bs : List UInt8) :
    ofBigEndian (b :: bs) = b.toNat * 256 ^ bs.length + ofBigEndian bs := by
  have h := foldl_base bs b.toNat
  simpa only [ofBigEndian, List.foldl_cons, Nat.zero_mul, Nat.zero_add] using h

lemma ofBigEndian_lt (bs : List UInt8) : ofBigEndian bs < 256 ^ bs.length := by
  induction bs with
  | nil => simp [ofBigEndian]
  | cons b bs ih =>
    have hb : b.toNat + 1 ≤ 256 := b.toNat_lt
    rw [ofBigEndian_cons, List.length_cons, pow_succ]
    calc b.toNat * 256 ^ bs.length + ofBigEndian bs
        < (b.toNat + 1) * 256 ^ bs.length := by rw [Nat.add_mul]; omega
      _ ≤ 256 * 256 ^ bs.length := Nat.mul_le_mul_right _ hb
      _ = 256 ^ bs.length * 256 := Nat.mul_comm _ _

lemma ofBigEndian_bigEndian_mod (w n : ℕ) : ofBigEndian (bigEndian w n) = n % 256 ^ w := by
  induction w with
  | zero => simp [bigEndian, ofBigEndian, Nat.mod_one]
  | succ w ih =>
    have hdigit : (UInt8.ofNat (n / 256 ^ w)).toNat = n / 256 ^ w % 256 := by simp
    rw [bigEndian, ofBigEndian_cons, ih, bigEndian_length, hdigit, pow_succ, Nat.mod_mul]
    ring

lemma ofBigEndian_bigEndian {w n : ℕ} (h : n < 256 ^ w) : ofBigEndian (bigEndian w n) = n := by
  rw [ofBigEndian_bigEndian_mod, Nat.mod_eq_of_lt h]

lemma bigEndian_ofBigEndian (bs : List UInt8) : bigEndian bs.length (ofBigEndian bs) = bs := by
  have hprefix : ∀ (w n k : ℕ), bigEndian w (k * 256 ^ w + n) = bigEndian w n := by
    intro w
    induction w with
    | zero => intro n k; rfl
    | succ w ih =>
      intro n k
      have hs : k * 256 ^ (w + 1) + n = (k * 256) * 256 ^ w + n := by rw [pow_succ]; ring
      simp only [bigEndian, hs, ih]
      congr 1
      rw [Nat.add_comm, Nat.add_mul_div_right _ _ (by positivity)]
      apply UInt8.toNat_inj.mp
      simp
  induction bs with
  | nil => rfl
  | cons b bs ih =>
    have hlt := ofBigEndian_lt bs
    rw [List.length_cons, bigEndian, ofBigEndian_cons, hprefix, ih]
    congr 1
    rw [Nat.add_comm, Nat.add_mul_div_right _ _ (by positivity), Nat.div_eq_of_lt hlt]
    simp

lemma bigEndian_mod (w n : ℕ) : bigEndian w (n % 256 ^ w) = bigEndian w n := by
  have h := bigEndian_ofBigEndian (bigEndian w n)
  rwa [bigEndian_length, ofBigEndian_bigEndian_mod] at h

inductive Endian
  | little
  | big
  deriving DecidableEq, Repr

namespace Endian

def store (e : Endian) (w n : ℕ) : List UInt8 :=
  match e with
  | .little => (bigEndian w n).reverse
  | .big => bigEndian w n

def load (e : Endian) (bs : List UInt8) : ℕ :=
  match e with
  | .little => ofBigEndian bs.reverse
  | .big => ofBigEndian bs

def hton (e : Endian) (w n : ℕ) : ℕ := e.load (bigEndian w n)

def ntoh (e : Endian) (w n : ℕ) : ℕ := ofBigEndian (e.store w n)

@[simp] lemma store_length (e : Endian) (w n : ℕ) : (e.store w n).length = w := by
  cases e <;> simp [store]

lemma store_load (e : Endian) (bs : List UInt8) : e.store bs.length (e.load bs) = bs := by
  cases e with
  | little =>
    have h := bigEndian_ofBigEndian bs.reverse
    rw [List.length_reverse] at h
    rw [store, load, h, List.reverse_reverse]
  | big => exact bigEndian_ofBigEndian bs

@[simp] lemma store_hton (e : Endian) (w n : ℕ) : e.store w (e.hton w n) = bigEndian w n := by
  have h := store_load e (bigEndian w n)
  rwa [bigEndian_length] at h

lemma hton_lt (e : Endian) (w n : ℕ) : e.hton w n < 256 ^ w := by
  have hlt := ofBigEndian_lt (bigEndian w n)
  have hlt' := ofBigEndian_lt (bigEndian w n).reverse
  rw [List.length_reverse] at hlt'
  rw [bigEndian_length] at hlt hlt'
  cases e with
  | little => exact hlt'
  | big => exact hlt

@[simp] lemma ntoh_load (e : Endian) (bs : List UInt8) :
    e.ntoh bs.length (e.load bs) = ofBigEndian bs := by
  rw [ntoh, store_load]

end Endian

end ScalableServer.Foundations
