import Mathlib.Data.List.Basic
import Mathlib.Tactic

/-! The descriptors that a program opens and closes. `ledger held es` are those held after the events,
the last opened first, or `none` where one is closed that is not held. A descriptor is given up by
`close` whatever it returns. -/

namespace ScalableServer.Foundations

inductive FdEvent
  | opened (fd : ℤ)
  | closed (fd : ℤ)
  deriving DecidableEq, Repr

def ledger : List ℤ → List FdEvent → Option (List ℤ)
  | held, [] => some held
  | held, .opened fd :: es => ledger (fd :: held) es
  | held, .closed fd :: es => if fd ∈ held then ledger (held.erase fd) es else none

def ClosesAll (es : List FdEvent) : Prop := ledger [] es = some []

instance (es : List FdEvent) : Decidable (ClosesAll es) :=
  inferInstanceAs (Decidable (ledger [] es = some []))

def FdEvent.isOpened : FdEvent → Bool
  | .opened _ => true
  | .closed _ => false

def opens (es : List FdEvent) : ℕ := es.countP FdEvent.isOpened

def closes (es : List FdEvent) : ℕ := es.countP fun e => !e.isOpened

@[simp] lemma opens_opened (fd : ℤ) (es : List FdEvent) : opens (.opened fd :: es) = opens es + 1 :=
  List.countP_cons_of_pos rfl

@[simp] lemma opens_closed (fd : ℤ) (es : List FdEvent) : opens (.closed fd :: es) = opens es :=
  List.countP_cons_of_neg Bool.false_ne_true

@[simp] lemma opens_append (es es' : List FdEvent) : opens (es ++ es') = opens es + opens es' :=
  List.countP_append

@[simp] lemma closes_opened (fd : ℤ) (es : List FdEvent) : closes (.opened fd :: es) = closes es :=
  List.countP_cons_of_neg Bool.false_ne_true

@[simp] lemma closes_closed (fd : ℤ) (es : List FdEvent) :
    closes (.closed fd :: es) = closes es + 1 := List.countP_cons_of_pos rfl

@[simp] lemma closes_append (es es' : List FdEvent) : closes (es ++ es') = closes es + closes es' :=
  List.countP_append

@[simp] lemma opens_map_closed (fds : List ℤ) : opens (fds.map .closed) = 0 := by
  induction fds with
  | nil => rfl
  | cons fd fds ih => rw [List.map_cons, opens_closed, ih]

@[simp] lemma closes_map_closed (fds : List ℤ) : closes (fds.map .closed) = fds.length := by
  induction fds with
  | nil => rfl
  | cons fd fds ih => rw [List.map_cons, closes_closed, ih, List.length_cons]

variable {held held' : List ℤ} {es es' : List FdEvent} {fd : ℤ}

lemma ledger_closed (hfd : fd ∈ held) :
    ledger held (.closed fd :: es) = ledger (held.erase fd) es := if_pos hfd

lemma ledger_foreign (hfd : fd ∉ held) : ledger held (.closed fd :: es) = none := if_neg hfd

lemma ledger_append :
    ledger held (es ++ es') = (ledger held es).bind fun held => ledger held es' := by
  induction es generalizing held with
  | nil => rfl
  | cons e es ih =>
    cases e with
    | opened fd => exact ih
    | closed fd =>
      by_cases hfd : fd ∈ held
      · rw [List.cons_append, ledger_closed hfd, ledger_closed hfd]
        exact ih
      · rw [List.cons_append, ledger_foreign hfd, ledger_foreign hfd]
        rfl

lemma ledger_frame (more : List ℤ) (h : ledger held es = some held') :
    ledger (held ++ more) es = some (held' ++ more) := by
  induction es generalizing held with
  | nil =>
    obtain rfl := Option.some.inj h
    rfl
  | cons e es ih =>
    cases e with
    | opened fd => exact ih h
    | closed fd =>
      by_cases hfd : fd ∈ held
      · rw [ledger_closed hfd] at h
        rw [ledger_closed (List.mem_append_left more hfd), List.erase_append_left more hfd]
        exact ih h
      · rw [ledger_foreign hfd] at h
        cases h

lemma ledger_perm {fds : List ℤ} (h : held.Perm fds) :
    ledger held (fds.map .closed) = some [] := by
  induction fds generalizing held with
  | nil =>
    obtain rfl := h.eq_nil
    rfl
  | cons fd fds ih =>
    have hrest : (held.erase fd).Perm fds := by simpa using h.erase fd
    rw [List.map_cons, ledger_closed (h.mem_iff.mpr List.mem_cons_self)]
    exact ih hrest

lemma ledger_opened (fds : List ℤ) :
    ledger held (fds.map .opened) = some (fds.reverse ++ held) := by
  induction fds generalizing held with
  | nil => rfl
  | cons fd fds ih =>
    rw [List.reverse_cons, List.append_assoc]
    exact ih

lemma ledger_count (h : ledger held es = some held') :
    held'.length + closes es = held.length + opens es := by
  induction es generalizing held with
  | nil =>
    obtain rfl := Option.some.inj h
    rfl
  | cons e es ih =>
    cases e with
    | opened fd =>
      have hrest := ih h
      rw [List.length_cons] at hrest
      rw [closes_opened, opens_opened]
      omega
    | closed fd =>
      by_cases hfd : fd ∈ held
      · rw [ledger_closed hfd] at h
        have hrest := ih h
        have hpos := List.length_pos_of_mem hfd
        rw [List.length_erase_of_mem hfd] at hrest
        rw [closes_closed, opens_closed]
        omega
      · rw [ledger_foreign hfd] at h
        cases h

lemma ClosesAll.append_iff (h : ClosesAll es) : ClosesAll (es ++ es') ↔ ClosesAll es' := by
  rw [ClosesAll, ledger_append, h]
  rfl

lemma ClosesAll.count (h : ClosesAll es) : closes es = opens es := by
  have hcount := ledger_count h
  simpa using hcount

end ScalableServer.Foundations
