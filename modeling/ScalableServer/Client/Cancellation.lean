import ScalableServer.Foundations.Transitions
import ScalableServer.Foundations.Updates

/-! The threads that run `handle`, the mutex of `do_log`, and `stop_threads`, which cancels and joins
them. A `HandlePc` is the call that a thread is in; `close_fd` after a failed call is `closeRetry`
before another pass and `closeReturn` before `return NULL`, with the message of the failure. A
requested cancellation takes effect in a call that is a cancellation point, or not at all. -/

namespace ScalableServer.Client

open ScalableServer.Foundations

inductive HandlePc
  | socket
  | connect
  | closeRetry
  | sleep
  | writeSize
  | writeData
  | readResponse
  | close
  | lock
  | log
  | unlock
  | testcancel
  | closeReturn
  | terminated
  deriving DecidableEq, Repr

namespace HandlePc

/-- `socket` and the calls on the mutex are none. -/
def cancellationPoint : HandlePc → Bool
  | .socket | .lock | .unlock | .terminated => false
  | _ => true

def locking : HandlePc → Bool
  | .log | .unlock => true
  | _ => false

def next (ok : Bool) : HandlePc → HandlePc
  | .socket => if ok then .connect else .closeReturn
  | .connect => if ok then .writeSize else .closeRetry
  | .closeRetry => .sleep
  | .sleep => .testcancel
  | .writeSize => if ok then .writeData else .closeReturn
  | .writeData => if ok then .readResponse else .closeReturn
  | .readResponse => if ok then .close else .closeReturn
  | .close => .lock
  | .lock => if ok then .log else .terminated
  | .log => .unlock
  | .unlock => if ok then .testcancel else .terminated
  | .testcancel => .socket
  | .closeReturn | .terminated => .terminated

end HandlePc

/-- `args` tells whether the arguments of the thread are still allocated. -/
structure Worker where
  pc : HandlePc := .socket
  requested : Bool := false
  args : Bool := true
  deriving DecidableEq, Repr

namespace Worker

def goto (w : Worker) (pc : HandlePc) : Worker := { w with pc := pc }

def hargsCleanupHandler (w : Worker) : Worker := { w with args := false }

def cancel (w : Worker) : Worker := w.hargsCleanupHandler.goto .terminated

end Worker

inductive MainPc
  | running
  | cancel (i : ℕ)
  | join (i : ℕ)
  | stopped
  deriving DecidableEq, Repr

structure Workers (n : ℕ) where
  worker : Fin n → Worker := fun _ => {}
  logLock : Option (Fin n) := none
  main : MainPc := .running

inductive WorkersEvent (n : ℕ)
  | returns (i : Fin n) (ok : Bool)
  | cancelled (i : Fin n)
  | main

namespace Workers

variable {n : ℕ}

def set (s : Workers n) (i : Fin n) (w : Worker) : Workers n :=
  { s with worker := Function.update s.worker i w }

def goto (s : Workers n) (i : Fin n) (pc : HandlePc) : Workers n :=
  s.set i ((s.worker i).goto pc)

def returns (s : Workers n) (i : Fin n) (ok : Bool) : Option (Workers n) :=
  let t := s.goto i ((s.worker i).pc.next ok)
  match (s.worker i).pc with
  | .lock =>
    if ok = false then some t
    else if s.logLock = none then some { t with logLock := some i }
    else none
  | .unlock => some (if ok then { t with logLock := none } else t)
  | .testcancel => if (s.worker i).requested then none else some t
  | .terminated => none
  | _ => some t

def stopThread (s : Workers n) : Option (Workers n) :=
  match s.main with
  | .running => some { s with main := .cancel 0 }
  | .cancel i =>
    if hi : i < n then
      some { s.set ⟨i, hi⟩ { s.worker ⟨i, hi⟩ with requested := true } with main := .cancel (i + 1) }
    else some { s with main := .join 0 }
  | .join i =>
    if hi : i < n then
      if (s.worker ⟨i, hi⟩).pc = .terminated then some { s with main := .join (i + 1) } else none
    else some { s with main := .stopped }
  | .stopped => none

def step (s : Workers n) : WorkersEvent n → Option (Workers n)
  | .returns i ok => s.returns i ok
  | .cancelled i =>
    if (s.worker i).requested = true ∧ (s.worker i).pc.cancellationPoint = true then
      some (s.set i (s.worker i).cancel)
    else none
  | .main => s.stopThread

def machine : Machine (Workers n) (WorkersEvent n) := ⟨step⟩

/-- The thread that holds the mutex ends: a cancellation takes effect in `log`, or the call that
unlocks fails. -/
def Strikes (s : Workers n) : WorkersEvent n → Prop
  | .cancelled i => (s.worker i).requested = true ∧ (s.worker i).pc = .log
  | .returns i ok => ok = false ∧ (s.worker i).pc = .unlock
  | .main => False

def LockFails (s : Workers n) : WorkersEvent n → Prop
  | .returns i ok => ok = false ∧ (s.worker i).pc = .lock
  | _ => False

abbrev Continues (s t : Workers n) : Prop :=
  machine.Reaches (fun s e => ¬ s.Strikes e ∧ ¬ s.LockFails e) s t

def GetsLock (s : Workers n) (i : Fin n) : Prop := ∃ t, s.Continues t ∧ (t.worker i).pc = .log

def Ends (s : Workers n) (i : Fin n) : Prop := ∃ t, s.Continues t ∧ (t.worker i).pc = .terminated

structure Sound (s : Workers n) : Prop where
  held : ∀ i, s.logLock = some i → (s.worker i).pc ≠ .terminated
  unblocked : ∀ i, (s.worker i).pc = .lock → s.GetsLock i
  joins : ∀ i : Fin n, s.main = .join i → s.Ends i

variable {s t : Workers n} {i j : Fin n} {e : WorkersEvent n} {w : Worker} {pc : HandlePc}

lemma set_self : (s.set i w).worker i = w := by
  simp only [set, Function.update_self]

lemma set_of_ne (hij : j ≠ i) : (s.set i w).worker j = s.worker j := by
  simp only [set, Function.update_of_ne hij]

lemma goto_self : ((s.goto i pc).worker i) = (s.worker i).goto pc := set_self

lemma goto_of_ne (hij : j ≠ i) : (s.goto i pc).worker j = s.worker j := set_of_ne hij

inductive Moves (s : Workers n) : WorkersEvent n → Workers n → Prop
  | call {i : Fin n} {ok : Bool} {pc : HandlePc} (hpc : (s.worker i).pc.locking = false)
      (hnext : pc.locking = false) (hlock : (s.worker i).pc = .lock → ok = false)
      (hrun : (s.worker i).pc ≠ .terminated) : Moves s (.returns i ok) (s.goto i pc)
  | lock {i : Fin n} (hpc : (s.worker i).pc = .lock) (hfree : s.logLock = none) :
      Moves s (.returns i true) { s.goto i .log with logLock := some i }
  | log {i : Fin n} {ok : Bool} (hpc : (s.worker i).pc = .log) :
      Moves s (.returns i ok) (s.goto i .unlock)
  | unlock {i : Fin n} (hpc : (s.worker i).pc = .unlock) :
      Moves s (.returns i true) { s.goto i .testcancel with logLock := none }
  | unlockFail {i : Fin n} (hpc : (s.worker i).pc = .unlock) :
      Moves s (.returns i false) (s.goto i .terminated)
  | cancelled {i : Fin n} (hrequested : (s.worker i).requested = true)
      (hpoint : (s.worker i).pc.cancellationPoint = true) :
      Moves s (.cancelled i) (s.set i (s.worker i).cancel)
  | main {t : Workers n} (hstop : s.stopThread = some t) : Moves s .main t

lemma moves_of_step (h : s.step e = some t) : s.Moves e t := by
  cases e with
  | returns i ok =>
    change s.returns i ok = some t at h
    rw [returns] at h
    cases hpc : (s.worker i).pc with
    | lock =>
      rw [hpc] at h
      cases ok with
      | false =>
        obtain rfl := Option.some.inj h
        exact .call (by rw [hpc]; rfl) rfl (fun _ => rfl) (by rw [hpc]; rintro ⟨⟩)
      | true =>
        simp only [Bool.true_eq_false, if_false] at h
        split_ifs at h with hfree
        obtain rfl := Option.some.inj h
        exact .lock hpc hfree
    | unlock =>
      rw [hpc] at h
      cases ok with
      | false =>
        obtain rfl := Option.some.inj h
        exact .unlockFail hpc
      | true =>
        obtain rfl := Option.some.inj h
        exact .unlock hpc
    | testcancel =>
      rw [hpc] at h
      simp only at h
      split_ifs at h
      obtain rfl := Option.some.inj h
      exact .call (by rw [hpc]; rfl) rfl (by rw [hpc]; rintro ⟨⟩) (by rw [hpc]; rintro ⟨⟩)
    | terminated =>
      rw [hpc] at h
      cases h
    | log =>
      rw [hpc] at h
      obtain rfl := Option.some.inj h
      exact .log hpc
    | socket | connect | writeSize | writeData | readResponse =>
      rw [hpc] at h
      obtain rfl := Option.some.inj h
      cases ok <;>
        exact .call (by rw [hpc]; rfl) rfl (by rw [hpc]; rintro ⟨⟩) (by rw [hpc]; rintro ⟨⟩)
    | closeRetry | sleep | close | closeReturn =>
      rw [hpc] at h
      obtain rfl := Option.some.inj h
      exact .call (by rw [hpc]; rfl) rfl (by rw [hpc]; rintro ⟨⟩) (by rw [hpc]; rintro ⟨⟩)
  | cancelled i =>
    simp only [step] at h
    split_ifs at h with hcan
    obtain rfl := Option.some.inj h
    exact .cancelled hcan.1 hcan.2
  | main => exact .main h

lemma stopThread_frame (h : s.stopThread = some t) :
    t.logLock = s.logLock ∧ ∀ j, (t.worker j).pc = (s.worker j).pc ∧
      ((s.worker j).requested = true → (t.worker j).requested = true) := by
  rw [stopThread] at h
  cases hmain : s.main with
  | cancel i =>
    rw [hmain] at h
    simp only at h
    split_ifs at h with hi <;> obtain rfl := Option.some.inj h
    · refine ⟨rfl, fun j => ?_⟩
      change ((s.set ⟨i, hi⟩ _).worker j).pc = _ ∧
        (_ → ((s.set ⟨i, hi⟩ _).worker j).requested = true)
      by_cases hj : j = ⟨i, hi⟩
      · subst hj
        rw [set_self]
        exact ⟨rfl, fun _ => rfl⟩
      · rw [set_of_ne hj]
        exact ⟨rfl, id⟩
    · exact ⟨rfl, fun j => ⟨rfl, id⟩⟩
  | join i =>
    rw [hmain] at h
    simp only at h
    split_ifs at h <;> obtain rfl := Option.some.inj h <;> exact ⟨rfl, fun j => ⟨rfl, id⟩⟩
  | running =>
    rw [hmain] at h
    obtain rfl := Option.some.inj h
    exact ⟨rfl, fun j => ⟨rfl, id⟩⟩
  | stopped =>
    rw [hmain] at h
    cases h

def Exclusive (s : Workers n) : Prop :=
  ∀ i, (s.worker i).pc.locking = true → s.logLock = some i

def Requested (s : Workers n) : Prop :=
  match s.main with
  | .cancel k => ∀ i : Fin n, (i : ℕ) < k → (s.worker i).requested = true
  | .join _ => ∀ i, (s.worker i).requested = true
  | _ => True

structure Kept (s : Workers n) : Prop where
  exclusive : s.Exclusive
  owner : ∀ i, s.logLock = some i → (s.worker i).pc.locking = true
  requested : s.Requested

lemma locking_of_set (hw : w.pc.locking = false) (hj : ((s.set i w).worker j).pc.locking = true) :
    j ≠ i ∧ (s.worker j).pc.locking = true := by
  by_cases hji : j = i
  · rw [hji, set_self, hw] at hj
    cases hj
  · rw [set_of_ne hji] at hj
    exact ⟨hji, hj⟩

lemma locking_of_cancellationPoint (hpoint : pc.cancellationPoint = true)
    (hlocking : pc.locking = true) : pc = .log := by
  cases pc with
  | log => rfl
  | unlock => cases hpoint
  | _ => cases hlocking

lemma Exclusive.step (hs : s.Exclusive) (hmoves : s.Moves e t) : t.Exclusive := by
  intro j hj
  cases hmoves with
  | call hpc hnext => exact hs j (locking_of_set hnext hj).2
  | @lock i hpc hfree =>
    change ((s.goto i .log).worker j).pc.locking = true at hj
    by_cases hji : j = i
    · rw [hji]
    · rw [goto_of_ne hji] at hj
      rw [hs j hj] at hfree
      cases hfree
  | @log i ok hpc =>
    by_cases hji : j = i
    · rw [hji]
      exact hs i (by rw [hpc]; rfl)
    · rw [goto_of_ne hji] at hj
      exact hs j hj
  | @unlock i hpc =>
    obtain ⟨hji, hlocking⟩ := locking_of_set (w := (s.worker i).goto .testcancel) rfl hj
    have hi := hs i (by rw [hpc]; rfl)
    rw [hs j hlocking, Option.some.injEq] at hi
    exact (hji hi).elim
  | unlockFail hpc => exact hs j (locking_of_set rfl hj).2
  | cancelled hrequested hpoint => exact hs j (locking_of_set rfl hj).2
  | main hstop =>
    obtain ⟨hlock, hframe⟩ := stopThread_frame hstop
    rw [(hframe j).1] at hj
    rw [hlock]
    exact hs j hj

lemma Kept.owner_step (hs : s.Kept) (hmoves : s.Moves e t) (hok : ¬ s.Strikes e) (i : Fin n)
    (hi : t.logLock = some i) : (t.worker i).pc.locking = true := by
  cases hmoves with
  | @call k ok pc hpc hnext =>
    have hlocking := hs.owner i hi
    have hik : i ≠ k := by
      rintro rfl
      rw [hpc] at hlocking
      cases hlocking
    rw [goto_of_ne hik]
    exact hlocking
  | @lock k hpc hfree =>
    obtain rfl := Option.some.inj hi
    change ((s.goto k .log).worker k).pc.locking = true
    rw [goto_self]
    rfl
  | @log k ok hpc =>
    by_cases hik : i = k
    · rw [hik, goto_self]
      rfl
    · rw [goto_of_ne hik]
      exact hs.owner i hi
  | unlock hpc => cases hi
  | unlockFail hpc => exact (hok ⟨rfl, hpc⟩).elim
  | @cancelled k hrequested hpoint =>
    have hlocking := hs.owner i hi
    have hik : i ≠ k := by
      rintro rfl
      exact hok ⟨hrequested, locking_of_cancellationPoint hpoint hlocking⟩
    rw [set_of_ne hik]
    exact hlocking
  | main hstop =>
    obtain ⟨hlock, hframe⟩ := stopThread_frame hstop
    rw [(hframe i).1]
    exact hs.owner i (hlock ▸ hi)

lemma requested_stopThread (hs : s.Requested) (hstop : s.stopThread = some t) : t.Requested := by
  rw [stopThread] at hstop
  rw [Requested] at hs
  cases hmain : s.main with
  | running =>
    rw [hmain] at hstop
    obtain rfl := Option.some.inj hstop
    exact fun i hi => absurd hi (Nat.not_lt_zero _)
  | cancel k =>
    rw [hmain] at hstop hs
    simp only at hstop hs
    split_ifs at hstop with hk <;> obtain rfl := Option.some.inj hstop
    · intro i hi
      change ((s.set ⟨k, hk⟩ _).worker i).requested = true
      by_cases hik : i = ⟨k, hk⟩
      · rw [hik, set_self]
      · rw [set_of_ne hik]
        have hne : (i : ℕ) ≠ k := fun h => hik (Fin.ext h)
        exact hs i (by omega)
    · exact fun i => hs i (by omega)
  | join k =>
    rw [hmain] at hstop hs
    simp only at hstop hs
    split_ifs at hstop <;> obtain rfl := Option.some.inj hstop
    · exact hs
    · trivial
  | stopped =>
    rw [hmain] at hstop
    cases hstop

lemma Requested.of_frame (hs : s.Requested) (hmain : t.main = s.main)
    (hkeep : ∀ j, (t.worker j).requested = (s.worker j).requested) : t.Requested := by
  rw [Requested] at hs ⊢
  rw [hmain]
  cases hpc : s.main with
  | cancel k =>
    rw [hpc] at hs
    exact fun i hi => (hkeep i).trans (hs i hi)
  | join k =>
    rw [hpc] at hs
    exact fun i => (hkeep i).trans (hs i)
  | running | stopped => trivial

lemma goto_requested : ((s.goto i pc).worker j).requested = (s.worker j).requested := by
  by_cases hji : j = i
  · rw [hji, goto_self]
    rfl
  · rw [goto_of_ne hji]

lemma Requested.step (hs : s.Requested) (hmoves : s.Moves e t) : t.Requested := by
  cases hmoves with
  | call | lock | log | unlock | unlockFail =>
    exact hs.of_frame rfl fun j => goto_requested
  | @cancelled i hrequested hpoint =>
    refine hs.of_frame rfl fun j => ?_
    by_cases hji : j = i
    · rw [hji, set_self]
      rfl
    · rw [set_of_ne hji]
  | main hstop => exact requested_stopThread hs hstop

lemma Kept.step (hs : s.Kept) (hok : ¬ s.Strikes e) (hstep : s.step e = some t) : t.Kept :=
  have hmoves := moves_of_step hstep
  ⟨hs.exclusive.step hmoves, hs.owner_step hmoves hok, hs.requested.step hmoves⟩

lemma initial_kept : ({} : Workers n).Kept where
  exclusive _ hi := by cases hi
  owner _ hi := by cases hi
  requested := trivial

section Continuations

lemma continues_of_returns (hstep : s.returns i true = some t) : s.Continues t :=
  .single ⟨.returns i true, ⟨fun hstrikes => Bool.noConfusion hstrikes.1,
    fun hfails => Bool.noConfusion hfails.1⟩, hstep⟩

def Acquires (s : Workers n) (i : Fin n) : Prop :=
  ∃ t, s.Continues t ∧ t.worker i = (s.worker i).goto .log

lemma acquires_of_free (hpc : (s.worker i).pc = .lock) (hfree : s.logLock = none) :
    s.Acquires i := by
  refine ⟨{ s.goto i .log with logLock := some i }, continues_of_returns (i := i) ?_, goto_self⟩
  rw [returns, hpc, hfree]
  rfl

lemma acquires_of_unlock (hpc : (s.worker i).pc = .lock) (hj : (s.worker j).pc = .unlock) :
    s.Acquires i := by
  have hij : i ≠ j := by
    rintro rfl
    rw [hpc] at hj
    cases hj
  have hworker : (s.goto j .testcancel).worker i = s.worker i := goto_of_ne hij
  have hrun : s.Continues { s.goto j .testcancel with logLock := none } :=
    continues_of_returns (i := j) (by rw [returns, hj]; rfl)
  obtain ⟨t, ht, hti⟩ := acquires_of_free (s := { s.goto j .testcancel with logLock := none })
    (i := i) ((congrArg Worker.pc hworker).trans hpc) rfl
  exact ⟨t, hrun.trans ht, hti.trans (congrArg (Worker.goto · .log) hworker)⟩

lemma Kept.acquires (hs : s.Kept) (hpc : (s.worker i).pc = .lock) : s.Acquires i := by
  cases hlock : s.logLock with
  | none => exact acquires_of_free hpc hlock
  | some j =>
    have hlocking := hs.owner j hlock
    cases hj : (s.worker j).pc with
    | unlock => exact acquires_of_unlock hpc hj
    | log =>
      have hij : i ≠ j := by
        rintro rfl
        rw [hpc] at hj
        cases hj
      have hworker : (s.goto j .unlock).worker i = s.worker i := goto_of_ne hij
      have hrun : s.Continues (s.goto j .unlock) :=
        continues_of_returns (i := j) (by rw [returns, hj]; rfl)
      obtain ⟨t, ht, hti⟩ := acquires_of_unlock (s := s.goto j .unlock) (i := i) (j := j)
        ((congrArg Worker.pc hworker).trans hpc) (congrArg Worker.pc goto_self)
      exact ⟨t, hrun.trans ht, hti.trans (congrArg (Worker.goto · .log) hworker)⟩
    | _ =>
      rw [hj] at hlocking
      cases hlocking

lemma ends_of_cancelled (hrequested : (s.worker i).requested = true)
    (hpoint : (s.worker i).pc.cancellationPoint = true) (hlog : (s.worker i).pc ≠ .log) :
    s.Ends i := by
  refine ⟨s.set i (s.worker i).cancel,
    .single ⟨.cancelled i, ⟨fun h => hlog h.2, not_false⟩, ?_⟩, ?_⟩
  · exact if_pos ⟨hrequested, hpoint⟩
  · rw [set_self]
    rfl

lemma Ends.of_returns (hstep : s.returns i true = some t) (ht : t.Ends i) : s.Ends i := by
  obtain ⟨u, hu, hend⟩ := ht
  exact ⟨u, (continues_of_returns hstep).trans hu, hend⟩

lemma ends_of_unlock (hrequested : (s.worker i).requested = true)
    (hpc : (s.worker i).pc = .unlock) : s.Ends i := by
  refine Ends.of_returns (t := { s.goto i .testcancel with logLock := none })
    (by rw [returns, hpc]; rfl) ?_
  have hself : (s.goto i .testcancel).worker i = (s.worker i).goto .testcancel := goto_self
  exact ends_of_cancelled (s := { s.goto i .testcancel with logLock := none })
    (goto_requested.trans hrequested) (by rw [hself]; rfl) (by rw [hself]; rintro ⟨⟩)

lemma ends_of_log (hrequested : (s.worker i).requested = true)
    (hpc : (s.worker i).pc = .log) : s.Ends i :=
  Ends.of_returns (t := s.goto i .unlock) (by rw [returns, hpc]; rfl)
    (ends_of_unlock (goto_requested.trans hrequested) (congrArg Worker.pc goto_self))

lemma Kept.ends (hs : s.Kept) (hrequested : (s.worker i).requested = true) : s.Ends i := by
  cases hpc : (s.worker i).pc with
  | terminated => exact ⟨s, .refl, hpc⟩
  | unlock => exact ends_of_unlock hrequested hpc
  | log => exact ends_of_log hrequested hpc
  | lock =>
    obtain ⟨t, ht, hti⟩ := hs.acquires hpc
    obtain ⟨u, hu, hend⟩ := ends_of_log (s := t) (i := i) (by rw [hti]; exact hrequested)
      (by rw [hti]; rfl)
    exact ⟨u, ht.trans hu, hend⟩
  | socket =>
    refine Ends.of_returns (t := s.goto i .connect) (by rw [returns, hpc]; rfl)
      (ends_of_cancelled (goto_requested.trans hrequested) ?_ ?_) <;> rw [goto_self]
    · rfl
    · rintro ⟨⟩
  | _ =>
    refine ends_of_cancelled hrequested ?_ ?_ <;> rw [hpc]
    · rfl
    · rintro ⟨⟩

lemma Kept.sound (hs : s.Kept) : s.Sound where
  held i hi hpc := by
    have hlocking := hs.owner i hi
    rw [hpc] at hlocking
    cases hlocking
  unblocked i hi := by
    obtain ⟨t, ht, hti⟩ := hs.acquires hi
    exact ⟨t, ht, by rw [hti]; rfl⟩
  joins i hi := by
    have hrequested := hs.requested
    rw [Requested, hi] at hrequested
    exact hs.ends (hrequested i)

end Continuations

lemma Exclusive.not_sound_of_strikes (hs : s.Exclusive) (hstrikes : s.Strikes e)
    (hstep : s.step e = some t) : ¬ t.Sound := by
  intro hsound
  cases e with
  | returns i ok =>
    obtain ⟨rfl, hpc⟩ := hstrikes
    change s.returns i false = some t at hstep
    rw [returns, hpc] at hstep
    obtain rfl := Option.some.inj hstep
    apply hsound.held i (hs i (by rw [hpc]; rfl))
    exact congrArg Worker.pc goto_self
  | cancelled i =>
    obtain ⟨hrequested, hpc⟩ := hstrikes
    change (if _ then _ else _) = some t at hstep
    rw [if_pos ⟨hrequested, by rw [hpc]; rfl⟩] at hstep
    obtain rfl := Option.some.inj hstep
    apply hsound.held i (hs i (by rw [hpc]; rfl))
    exact congrArg Worker.pc set_self
  | main => exact hstrikes

lemma step_isSome_of_strikes (hstrikes : s.Strikes e) : ∃ t, s.step e = some t := by
  cases e with
  | returns i ok =>
    obtain ⟨rfl, hpc⟩ := hstrikes
    exact ⟨s.goto i .terminated, by rw [step, returns, hpc]; rfl⟩
  | cancelled i =>
    obtain ⟨hrequested, hpc⟩ := hstrikes
    exact ⟨s.set i (s.worker i).cancel, if_pos ⟨hrequested, by rw [hpc]; rfl⟩⟩
  | main => exact hstrikes.elim

structure Stuck (s : Workers n) (i j : Fin n) : Prop where
  exclusive : s.Exclusive
  held : s.logLock = some j
  ended : (s.worker j).pc = .terminated
  waits : (s.worker i).pc = .lock

lemma Stuck.step (hs : s.Stuck i j) (hok : ¬ s.LockFails e) (hstep : s.step e = some t) :
    t.Stuck i j := by
  obtain ⟨hexclusive, hheld, hended, hwaits⟩ := hs
  have hmoves := moves_of_step hstep
  have hexclusive' := hexclusive.step hmoves
  have hframe : ∀ {k : Fin n} {w : Worker}, j ≠ k → i ≠ k → (s.set k w).Exclusive →
      (s.set k w).Stuck i j := fun hj hi h =>
    ⟨h, hheld, by rw [set_of_ne hj, hended], by rw [set_of_ne hi, hwaits]⟩
  have hne : ∀ {k : Fin n} {pc : HandlePc}, (s.worker k).pc = pc → pc ≠ .terminated → pc ≠ .lock →
      j ≠ k ∧ i ≠ k := by
    rintro k pc hpc hterminated hlock
    exact ⟨fun hj => hterminated (by rw [← hpc, ← hj, hended]),
      fun hi => hlock (by rw [← hpc, ← hi, hwaits])⟩
  cases hmoves with
  | @call k ok pc hpc hnext hlock hrun =>
    refine hframe (fun hj => hrun (hj ▸ hended)) (fun hi => ?_) hexclusive'
    have hpc : (s.worker k).pc = .lock := hi ▸ hwaits
    exact hok ⟨hlock hpc, hpc⟩
  | lock hpc hfree =>
    rw [hfree] at hheld
    cases hheld
  | @log k ok hpc =>
    obtain ⟨hj, hi⟩ := hne hpc (by rintro ⟨⟩) (by rintro ⟨⟩)
    exact hframe hj hi hexclusive'
  | @unlock k hpc =>
    have hk := hexclusive k (by rw [hpc]; rfl)
    rw [hheld, Option.some.injEq] at hk
    rw [hk, hpc] at hended
    cases hended
  | @unlockFail k hpc =>
    obtain ⟨hj, hi⟩ := hne hpc (by rintro ⟨⟩) (by rintro ⟨⟩)
    exact hframe hj hi hexclusive'
  | @cancelled k hrequested hpoint =>
    refine hframe (fun hj => ?_) (fun hi => ?_) hexclusive'
    · rw [← hj, hended] at hpoint
      cases hpoint
    · rw [← hi, hwaits] at hpoint
      cases hpoint
  | main hstop =>
    obtain ⟨hlock, hsame⟩ := stopThread_frame hstop
    exact ⟨hexclusive', hlock.trans hheld, (hsame j).1.trans hended, (hsame i).1.trans hwaits⟩

lemma Stuck.continues (hs : s.Stuck i j) (ht : s.Continues t) : t.Stuck i j :=
  ht.invariant (I := fun s => s.Stuck i j) hs fun _ _ _ hs hok hstep => hs.step hok.2 hstep

lemma Stuck.not_getsLock (hs : s.Stuck i j) : ¬ s.GetsLock i := by
  rintro ⟨t, ht, hpc⟩
  rw [(hs.continues ht).waits] at hpc
  cases hpc

lemma Stuck.not_ends (hs : s.Stuck i j) : ¬ s.Ends i := by
  rintro ⟨t, ht, hpc⟩
  rw [(hs.continues ht).waits] at hpc
  cases hpc

lemma exclusive_of_run {es : List (WorkersEvent n)} (hrun : machine.run es {} = some s) :
    s.Exclusive := by
  refine Machine.run_invariant (I := Exclusive) initial_kept.exclusive ?_ es s
    (List.prefix_refl es) hrun
  intro _ _ a b _ _ ha hstep
  exact ha.step (moves_of_step hstep)

theorem logLock_sound_iff (n : ℕ) (es : List (WorkersEvent n)) :
    (∀ done s, done <+: es → machine.run done {} = some s → s.Sound) ↔
      ∀ done e s, done ++ [e] <+: es → machine.run done {} = some s → ¬ s.Strikes e := by
  constructor
  · intro hsound done e s hdone hrun hstrikes
    obtain ⟨t, ht⟩ := step_isSome_of_strikes hstrikes
    refine (exclusive_of_run hrun).not_sound_of_strikes hstrikes ht
      (hsound (done ++ [e]) t hdone ?_)
    rw [Machine.run_append, hrun]
    exact Machine.run_singleton.trans ht
  · intro hok done s hdone hrun
    refine (Machine.run_invariant (I := Kept) initial_kept ?_ done s hdone hrun).sound
    intro done e a b hdone hrun ha hstep
    exact ha.step (hok done e a hdone hrun) hstep

/-- Both threads have a response and go to the mutex, thread 0 gets it and is cancelled in `fprintf`.
Thread 1 waits for the mutex, and `stop_threads` for thread 1. -/
def cancelledInLog : List (WorkersEvent 2) :=
  List.replicate 6 (.returns 0 true) ++ List.replicate 6 (.returns 1 true) ++ [.returns 0 true] ++
    List.replicate 4 .main ++ [.cancelled 0, .main]

theorem logLock_held_by_terminated :
    ∃ s : Workers 2, machine.run cancelledInLog {} = some s ∧ s.logLock = some 0 ∧
      (s.worker 0).pc = .terminated ∧ ¬ s.GetsLock 1 ∧ s.main = .join 1 ∧ ¬ s.Ends 1 := by
  have hrun : ((machine (n := 2)).run cancelledInLog {}).map (fun s =>
      (s.logLock, (s.worker 0).pc, (s.worker 1).pc, s.main)) =
        some (some 0, .terminated, .lock, .join 1) := by decide
  obtain ⟨s, hs, hval⟩ := Option.map_eq_some_iff.mp hrun
  simp only [Prod.mk.injEq] at hval
  obtain ⟨hlock, hended, hwaits, hmain⟩ := hval
  have hstuck : s.Stuck 1 0 := ⟨exclusive_of_run hs, hlock, hended, hwaits⟩
  exact ⟨s, hs, hlock, hended, hstuck.not_getsLock, hmain, hstuck.not_ends⟩

end Workers

end ScalableServer.Client
