import ScalableServer.Client.ThreadPool

namespace ScalableServer.Client

open ScalableServer.Foundations ScalableServer.Core

inductive Block
  | tIds
  | hArgs (i : ℕ)
  | data (i : ℕ)
  deriving DecidableEq, Repr

/-- A call that succeeds. `pthread_cancel` and `pthread_join` are given the entry that was read. -/
inductive PoolCall
  | malloc (b : Block)
  | free (b : Block)
  | create (id : ℕ)
  | cancel (entry : Option ℕ)
  | join (entry : Option ℕ)
  deriving DecidableEq, Repr

def createThreadCalls (inetAddr : List UInt8 → Option ℕ) (calls : CreateCalls) (s : State) (i : ℕ)
    (p : Pool) : Option Pool × List PoolCall :=
  if calls.malloc = false then (none, [])
  else if calls.calloc = false then (none, [.malloc (.hArgs i), .free (.hArgs i)])
  else
    let allocated := [PoolCall.malloc (.hArgs i), .malloc (.data i)]
    let released := [PoolCall.free (.data i), .free (.hArgs i)]
    match initAddr inetAddr (cString s.serverIp.cells) s.serverPort with
    | none => (none, allocated ++ released)
    | some addr =>
      if calls.create = false then (none, allocated ++ released)
      else (some (p.add i (handleArgs s addr i)), allocated ++ [.create p.nextId])

def createLoopCalls (inetAddr : ℕ → List UInt8 → Option ℕ) (passes : ℕ → CreateCalls) (s : State) :
    ℕ → ℕ → Pool → ℤ × Pool × List PoolCall
  | 0, _, p => (0, p, [])
  | left + 1, i, p =>
    match createThreadCalls (inetAddr i) (passes i) s i p with
    | (none, made) => (-1, p, made)
    | (some p, made) =>
      let (result, p, later) := createLoopCalls inetAddr passes s left (i + 1) p
      (result, p, made ++ later)

def createThreadsCalls (inetAddr : ℕ → List UInt8 → Option ℕ) (calls : StartCalls) (n : ℤ)
    (s : State) (p : Pool) : ℤ × Pool × List PoolCall :=
  if calls.malloc = false then (-1, { p with tIds := none }, [])
  else
    let (result, p, made) := createLoopCalls inetAddr calls.passes s n.toNat 0
      { p with tIds := some (List.replicate n.toNat none) }
    (result, p, .malloc .tIds :: made)

def stopThreadsCalls (results : ℕ → ℤ × ℤ) (p : Pool) : ℤ × Pool × List PoolCall :=
  let entries := (List.range p.nThreads).map p.entry
  let (ret, q) := stopThreads results p
  (ret, q, entries.map .cancel ++ entries.map .join ++
    if p.tIds.isSome then [.free .tIds] else [])

def startThreadsCalls (inetAddr : ℕ → List UInt8 → Option ℕ) (calls : StartCalls) (s : State)
    (p : Pool) : ℤ × Pool × List PoolCall :=
  match getProcessors p.nProcessors calls.processors with
  | none => (-1, p, [])
  | some n =>
    let (result, p, made) := createThreadsCalls inetAddr calls n s { p with nProcessors := n }
    if result = -1 then
      let (_, p, stopped) := stopThreadsCalls calls.stop p
      (-1, p, made ++ stopped)
    else (result, p, made)

inductive StartStep
  | tIds
  | hArgs (i : ℕ)
  | data (i : ℕ)
  | initAddr (i : ℕ)
  | create (i : ℕ)

def StartStep.index : StartStep → ℕ
  | .tIds => 0
  | .hArgs i | .data i | .initAddr i | .create i => i

section Steps

variable (inetAddr : ℕ → List UInt8 → Option ℕ) (calls : StartCalls) (s : State)

def addrOf (i : ℕ) : Option SockAddr :=
  initAddr (inetAddr i) (cString s.serverIp.cells) s.serverPort

structure Creates (i : ℕ) : Prop where
  malloc : (calls.passes i).malloc = true
  calloc : (calls.passes i).calloc = true
  addr : (addrOf inetAddr s i).isSome = true
  create : (calls.passes i).create = true

def StartStep.FailsIn : StartStep → Prop
  | .tIds => calls.malloc = false
  | .hArgs i => (calls.passes i).malloc = false
  | .data i => (calls.passes i).malloc = true ∧ (calls.passes i).calloc = false
  | .initAddr i => (calls.passes i).malloc = true ∧ (calls.passes i).calloc = true ∧
      addrOf inetAddr s i = none
  | .create i => (calls.passes i).malloc = true ∧ (calls.passes i).calloc = true ∧
      (addrOf inetAddr s i).isSome = true ∧ (calls.passes i).create = false

structure FailsAt (n : ℤ) (f : StartStep) : Prop where
  step : f.FailsIn inetAddr calls s
  array : f ≠ .tIds → calls.malloc = true ∧ f.index < n
  earlier : ∀ i < f.index, Creates inetAddr calls s i

end Steps

def StartStep.calls : StartStep → List PoolCall
  | .tIds | .hArgs _ => []
  | .data i => [.malloc (.hArgs i), .free (.hArgs i)]
  | .initAddr i | .create i =>
    [.malloc (.hArgs i), .malloc (.data i), .free (.data i), .free (.hArgs i)]

def granted (calls : List PoolCall) : List Block :=
  calls.filterMap fun | .malloc b => some b | _ => none

def freed (calls : List PoolCall) : List Block :=
  calls.filterMap fun | .free b => some b | _ => none

def created (calls : List PoolCall) : List ℕ :=
  calls.filterMap fun | .create id => some id | _ => none

def cancelled (calls : List PoolCall) : List (Option ℕ) :=
  calls.filterMap fun | .cancel entry => some entry | _ => none

def joined (calls : List PoolCall) : List (Option ℕ) :=
  calls.filterMap fun | .join entry => some entry | _ => none

def Block.LeftBefore (i : ℕ) : Block → Prop
  | .tIds => False
  | .hArgs j | .data j => j < i

structure StartFailed (p : Pool) (f : StartStep) (stop : ℕ → ℤ × ℤ) (q : Pool)
    (calls : List PoolCall) : Prop where
  tIds : q.tIds = none
  nThreads : q.nThreads = 0
  creates : created calls = (List.range f.index).map (p.nextId + ·)
  cancels : cancelled calls = (created calls).map some
  joins : joined calls = (created calls).map some
  once : (freed calls).Nodup
  frees : ∀ b, b ∈ freed calls ↔ b ∈ granted calls ∧ ¬ b.LeftBefore f.index
  filled : q.stray = p.stray
  running : (∀ i < f.index, (stop i).2 = 0) → ∀ t ∈ q.running, t ∈ p.running
  stopped : ∀ results, stopThreadsCalls results q = (0, q, [])

variable {inetAddr : ℕ → List UInt8 → Option ℕ} {calls : StartCalls} {s : State} {p q : Pool}
  {f : StartStep} {i k left n : ℕ}

section Erasure

lemma createThreadCalls_fst (inetAddr : List UInt8 → Option ℕ) (calls : CreateCalls) (s : State)
    (i : ℕ) (p : Pool) :
    (createThreadCalls inetAddr calls s i p).1 = createThread inetAddr calls s i p := by
  rw [createThreadCalls, createThread]
  cases initAddr inetAddr (cString s.serverIp.cells) s.serverPort <;> split_ifs <;> rfl

lemma createLoopCalls_fst (inetAddr : List UInt8 → Option ℕ) (passes : ℕ → CreateCalls) :
    let r := createLoopCalls (fun _ => inetAddr) passes s left i p
    (r.1, r.2.1) = createLoop inetAddr passes s left i p := by
  induction left generalizing i p with
  | zero => rfl
  | succ left ih =>
    have hthread := createThreadCalls_fst inetAddr (passes i) s i p
    rw [createLoop, ← hthread, createLoopCalls]
    rcases createThreadCalls inetAddr (passes i) s i p with ⟨_ | q, made⟩
    · rfl
    · exact ih

lemma createThreadsCalls_fst (inetAddr : List UInt8 → Option ℕ) (calls : StartCalls) (n : ℤ)
    (s : State) (p : Pool) :
    let r := createThreadsCalls (fun _ => inetAddr) calls n s p
    (r.1, r.2.1) = createThreads inetAddr calls n s p := by
  simp only [createThreadsCalls, createThreads]
  split_ifs
  · rfl
  · exact createLoopCalls_fst inetAddr calls.passes

lemma startThreadsCalls_fst (inetAddr : List UInt8 → Option ℕ) :
    let r := startThreadsCalls (fun _ => inetAddr) calls s p
    (r.1, r.2.1) = startThreads inetAddr calls s p := by
  rw [startThreadsCalls, startThreads]
  cases getProcessors p.nProcessors calls.processors with
  | none => rfl
  | some n =>
    have hcreate := createThreadsCalls_fst inetAddr calls n s { p with nProcessors := n }
    simp only at hcreate ⊢
    rw [← hcreate]
    simp only
    split_ifs <;> rfl

end Erasure

def passCalls (first i : ℕ) : List PoolCall :=
  [.malloc (.hArgs i), .malloc (.data i), .create (first + i)]

structure Filled (p : Pool) (n i : ℕ) (q : Pool) : Prop where
  nThreads : q.nThreads = i
  nextId : q.nextId = p.nextId + i
  allocated : q.allocated = n
  entry : ∀ j < i, q.entry j = some (p.nextId + j)
  stray : q.stray = p.stray
  running : ∀ t ∈ q.running, t ∈ p.running ∨ ∃ j < i, t.id = p.nextId + j

lemma Filled.add {args : HandleArgs} (hq : Filled p n i q) (hi : i < n) :
    Filled p n (i + 1) (q.add i args) where
  nThreads := congrArg (· + 1) hq.nThreads
  nextId := congrArg (· + 1) hq.nextId
  allocated := Pool.add_allocated.trans hq.allocated
  entry j hj := by
    by_cases hji : j = i
    · subst hji
      rw [Pool.add_entry_self (by rw [hq.allocated]; exact hi), hq.nextId]
    · rw [Pool.add_entry_ne hji]
      exact hq.entry j (by omega)
  stray := hq.stray
  running t ht := by
    rcases List.mem_append.mp ht with ht | ht
    · refine (hq.running t ht).imp_right ?_
      rintro ⟨j, hj, hid⟩
      exact ⟨j, Nat.lt_succ_of_lt hj, hid⟩
    · obtain rfl := List.mem_singleton.mp ht
      exact .inr ⟨i, Nat.lt_succ_self i, hq.nextId⟩

lemma createThreadCalls_creates (hi : Creates inetAddr calls s i) (hq : Filled p n i q)
    (hlt : i < n) : ∃ q', createThreadCalls (inetAddr i) (calls.passes i) s i q =
      (some q', passCalls p.nextId i) ∧ Filled p n (i + 1) q' := by
  obtain ⟨addr, haddr⟩ := Option.isSome_iff_exists.mp hi.addr
  rw [addrOf] at haddr
  refine ⟨q.add i (handleArgs s addr i), ?_, hq.add hlt⟩
  simp only [createThreadCalls, hi.malloc, hi.calloc, hi.create, haddr, hq.nextId]
  rfl

lemma createLoopCalls_creates (left : ℕ) (hearlier : ∀ i < k, Creates inetAddr calls s i)
    (hp : Filled p n 0 q) (hle : k + left ≤ n) :
    ∃ q', Filled p n k q' ∧ createLoopCalls inetAddr calls.passes s (k + left) 0 q =
      let (result, r, later) := createLoopCalls inetAddr calls.passes s left k q'
      (result, r, (List.range k).flatMap (passCalls p.nextId) ++ later) := by
  induction k generalizing left with
  | zero =>
    rw [Nat.zero_add]
    exact ⟨q, hp, rfl⟩
  | succ k ih =>
    obtain ⟨q₁, hq₁, hloop⟩ := ih (left + 1) (fun i hi => hearlier i (by omega)) (by omega)
    obtain ⟨q₂, hthread, hq₂⟩ :=
      createThreadCalls_creates (hearlier k (Nat.lt_succ_self k)) hq₁ (by omega)
    refine ⟨q₂, hq₂, ?_⟩
    rw [Nat.add_assoc, Nat.add_comm 1, hloop, createLoopCalls, hthread, List.range_succ]
    simp

lemma createThreadCalls_fails (hf : f.FailsIn inetAddr calls s) (hstep : f ≠ .tIds) :
    createThreadCalls (inetAddr f.index) (calls.passes f.index) s f.index q = (none, f.calls) := by
  cases f with
  | tIds => exact absurd rfl hstep
  | hArgs i =>
    have hmalloc : (calls.passes i).malloc = false := hf
    simp [createThreadCalls, StartStep.index, StartStep.calls, hmalloc]
  | data i =>
    obtain ⟨hmalloc, hcalloc⟩ := hf
    simp [createThreadCalls, StartStep.index, StartStep.calls, hmalloc, hcalloc]
  | initAddr i =>
    obtain ⟨hmalloc, hcalloc, haddr⟩ := hf
    rw [addrOf] at haddr
    simp [createThreadCalls, StartStep.index, StartStep.calls, hmalloc, hcalloc, haddr]
  | create i =>
    obtain ⟨hmalloc, hcalloc, haddr, hcreate⟩ := hf
    obtain ⟨addr, haddr⟩ := Option.isSome_iff_exists.mp haddr
    rw [addrOf] at haddr
    simp [createThreadCalls, StartStep.index, StartStep.calls, hmalloc, hcalloc, haddr, hcreate]

section Ledger

variable {first : ℕ} {b : Block}

lemma created_passes (k first : ℕ) : created ((List.range k).flatMap (passCalls first)) =
    (List.range k).map (first + ·) := by
  simp [created, passCalls, List.filterMap_flatMap, ← List.map_eq_flatMap]

lemma granted_passes : b ∈ granted ((List.range k).flatMap (passCalls first)) ↔ b.LeftBefore k := by
  cases b <;> simp [granted, passCalls, Block.LeftBefore, List.filterMap_flatMap]

lemma freed_passes (k first : ℕ) : freed ((List.range k).flatMap (passCalls first)) = [] := by
  simp [freed, passCalls, List.filterMap_flatMap]

lemma cancelled_passes (k first : ℕ) : cancelled ((List.range k).flatMap (passCalls first)) = [] := by
  simp [cancelled, passCalls, List.filterMap_flatMap]

lemma joined_passes (k first : ℕ) : joined ((List.range k).flatMap (passCalls first)) = [] := by
  simp [joined, passCalls, List.filterMap_flatMap]

end Ledger

lemma Filled.entries (hq : Filled p n k q) :
    (List.range q.nThreads).map q.entry = (List.range k).map fun j => some (p.nextId + j) := by
  rw [hq.nThreads]
  exact List.map_congr_left fun j hj => hq.entry j (List.mem_range.mp hj)

lemma createThreadsCalls_fails {n : ℤ} (hp : p.nThreads = 0) (hf : FailsAt inetAddr calls s n f)
    (hstep : f ≠ .tIds) : ∃ q, Filled p n.toNat f.index q ∧ f.index < n.toNat ∧
      createThreadsCalls inetAddr calls n s p = (-1, q,
        .malloc .tIds :: ((List.range f.index).flatMap (passCalls p.nextId) ++ f.calls)) := by
  obtain ⟨hmalloc, hlt⟩ := hf.array hstep
  have hlt : f.index < n.toNat := by omega
  obtain ⟨left, hleft⟩ : ∃ left, n.toNat = f.index + (left + 1) :=
    ⟨n.toNat - f.index - 1, by omega⟩
  have hempty : Filled p n.toNat 0 { p with tIds := some (List.replicate n.toNat none) } :=
    { nThreads := hp
      nextId := rfl
      allocated := by simp [Pool.allocated]
      entry := fun j hj => absurd hj (Nat.not_lt_zero j)
      stray := rfl
      running := fun t ht => .inl ht }
  obtain ⟨q, hq, hloop⟩ := createLoopCalls_creates (left + 1) hf.earlier hempty hleft.ge
  refine ⟨q, hq, hlt, ?_⟩
  rw [createLoopCalls, createThreadCalls_fails hf.step hstep, ← hleft] at hloop
  rw [createThreadsCalls, if_neg (by simp [hmalloc]), hloop]

lemma stopThreadsCalls_empty (results : ℕ → ℤ × ℤ) (htIds : q.tIds = none) (hq : q.nThreads = 0) :
    stopThreadsCalls results q = (0, q, []) := by
  obtain ⟨tIds, nThreads, nProcessors, running, nextId, stray⟩ := q
  obtain rfl : tIds = none := htIds
  obtain rfl : nThreads = 0 := hq
  simp [stopThreadsCalls, stopThreads]

lemma Filled.stops (hq : Filled p n k q) (results : ℕ → ℤ × ℤ) (hk : k < n) :
    ∃ ret q', stopThreadsCalls results q = (ret, q',
        ((List.range k).map fun j => .cancel (some (p.nextId + j))) ++
          ((List.range k).map fun j => .join (some (p.nextId + j))) ++ [.free .tIds]) ∧
      q'.tIds = none ∧ q'.nThreads = 0 ∧ q'.stray = p.stray ∧
      ((∀ i < k, (results i).2 = 0) → ∀ t ∈ q'.running, t ∈ p.running) := by
  have hsome : q.tIds.isSome = true := by
    have hallocated := hq.allocated
    rw [Pool.allocated] at hallocated
    cases hids : q.tIds with
    | none =>
      rw [hids] at hallocated
      change 0 = n at hallocated
      omega
    | some ids => rfl
  have hfilled : ∀ i < q.nThreads, ∃ id, q.entry i = some id := by
    intro i hi
    rw [hq.nThreads] at hi
    exact ⟨_, hq.entry i hi⟩
  refine ⟨(stopThreads results q).1, (stopThreads results q).2, ?_, rfl, rfl,
    (stopThreads_stray hfilled).trans hq.stray, ?_⟩
  · simp only [stopThreadsCalls, hq.entries, hsome, List.map_map]
    rfl
  · intro hjoins t ht
    rw [stopThreads, List.mem_filter, decide_eq_true_eq, List.mem_filterMap] at ht
    refine (hq.running t ht.1).resolve_right ?_
    rintro ⟨j, hj, hid⟩
    refine ht.2 ⟨j, List.mem_range.mpr (by rw [hq.nThreads]; exact hj), ?_⟩
    rw [if_pos (hjoins j hj), hq.entry j hj, hid]

def failedCalls (first : ℕ) (f : StartStep) : List PoolCall :=
  .malloc .tIds :: ((List.range f.index).flatMap (passCalls first) ++ f.calls) ++
    (((List.range f.index).map fun j => .cancel (some (first + j))) ++
      ((List.range f.index).map fun j => .join (some (first + j))) ++ [.free .tIds])

section FailedCalls

variable {first : ℕ} {b : Block}

lemma failedCalls_created : created (failedCalls first f) = (List.range f.index).map (first + ·) := by
  have hstep : created f.calls = [] := by cases f <;> rfl
  have hpasses := created_passes f.index first
  rw [created] at hstep hpasses ⊢
  simp [failedCalls, hstep, hpasses, List.filterMap_map]

lemma failedCalls_cancelled :
    cancelled (failedCalls first f) = (List.range f.index).map fun j => some (first + j) := by
  have hstep : cancelled f.calls = [] := by cases f <;> rfl
  have hpasses := cancelled_passes f.index first
  rw [cancelled] at hstep hpasses ⊢
  simp [failedCalls, hstep, hpasses, List.filterMap_map]

lemma failedCalls_joined :
    joined (failedCalls first f) = (List.range f.index).map fun j => some (first + j) := by
  have hstep : joined f.calls = [] := by cases f <;> rfl
  have hpasses := joined_passes f.index first
  rw [joined] at hstep hpasses ⊢
  simp [failedCalls, hstep, hpasses, List.filterMap_map]

lemma failedCalls_freed : freed (failedCalls first f) = freed f.calls ++ [.tIds] := by
  have hpasses := freed_passes f.index first
  rw [freed] at hpasses ⊢
  simp [freed, failedCalls, hpasses, List.filterMap_map]

lemma failedCalls_granted : granted (failedCalls first f) =
    .tIds :: (granted ((List.range f.index).flatMap (passCalls first)) ++ granted f.calls) := by
  simp [granted, failedCalls, List.filterMap_map]

lemma StartStep.mem_freed : b ∈ freed f.calls ↔ b ∈ granted f.calls := by
  cases f <;> simp [StartStep.calls, freed, granted, or_comm]

lemma StartStep.not_leftBefore (hb : b ∈ granted f.calls) : ¬ b.LeftBefore f.index := by
  cases f <;> simp [StartStep.calls, granted] at hb
  case data i =>
    subst hb
    exact lt_irrefl i
  all_goals
    rcases hb with rfl | rfl <;> exact lt_irrefl _

lemma failedCalls_frees : b ∈ freed (failedCalls first f) ↔
    b ∈ granted (failedCalls first f) ∧ ¬ b.LeftBefore f.index := by
  rw [failedCalls_freed, failedCalls_granted, List.mem_append, List.mem_singleton, List.mem_cons,
    List.mem_append, granted_passes, StartStep.mem_freed]
  constructor
  · rintro (hb | rfl)
    · exact ⟨.inr (.inr hb), StartStep.not_leftBefore hb⟩
    · exact ⟨.inl rfl, id⟩
  · rintro ⟨rfl | hleft | hb, hnot⟩
    · exact .inr rfl
    · exact absurd hleft hnot
    · exact .inl hb

lemma failedCalls_once : (freed (failedCalls first f)).Nodup := by
  rw [failedCalls_freed]
  cases f <;> simp [StartStep.calls, freed]

end FailedCalls

/-- A start of a pool without threads that fails at any of its calls returns -1. It has cancelled and
joined each thread that it had created, once, and has freed, once, what it had allocated but for what
the threads have been given. The pool is empty, and to stop it again makes no call. -/
theorem startThreads_failed (inetAddr : ℕ → List UInt8 → Option ℕ) (calls : StartCalls) (s : State)
    (p : Pool) (hnThreads : p.nThreads = 0) (n : ℤ)
    (hn : getProcessors p.nProcessors calls.processors = some n) (f : StartStep)
    (hf : FailsAt inetAddr calls s n f) :
    ∃ q made, startThreadsCalls inetAddr calls s p = (-1, q, made) ∧
      StartFailed p f calls.stop q made ∧
        ∀ addr, inetAddr = (fun _ => addr) → startThreads addr calls s p = (-1, q) := by
  suffices hfailed : ∃ q made, startThreadsCalls inetAddr calls s p = (-1, q, made) ∧
      StartFailed p f calls.stop q made by
    obtain ⟨q, made, hcalls, hstarted⟩ := hfailed
    refine ⟨q, made, hcalls, hstarted, ?_⟩
    rintro addr rfl
    rw [← startThreadsCalls_fst, hcalls]
  by_cases hstep : f = .tIds
  · subst hstep
    have hmalloc : calls.malloc = false := hf.step
    refine ⟨{ p with nProcessors := n, tIds := none }, [], ?_, rfl, hnThreads, rfl, rfl, rfl,
      List.nodup_nil, ?_, rfl, fun _ t ht => ht,
      fun results => stopThreadsCalls_empty results rfl hnThreads⟩
    · simp only [startThreadsCalls, hn, createThreadsCalls, hmalloc, if_true]
      rw [stopThreadsCalls_empty]
      · rfl
      · rfl
      · exact hnThreads
    · intro b
      simp [freed, granted]
  · obtain ⟨q, hq, hlt, hcreate⟩ :=
      createThreadsCalls_fails (p := { p with nProcessors := n }) hnThreads hf hstep
    obtain ⟨ret, q', hstop, htIds', hnThreads', hstray, hrunning⟩ := hq.stops calls.stop hlt
    refine ⟨q', failedCalls p.nextId f, ?_, ?_⟩
    · simp only [startThreadsCalls, hn, hcreate, if_true, hstop]
      rfl
    · exact
        { tIds := htIds'
          nThreads := hnThreads'
          creates := failedCalls_created
          cancels := by rw [failedCalls_cancelled, failedCalls_created, List.map_map]; rfl
          joins := by rw [failedCalls_joined, failedCalls_created, List.map_map]; rfl
          once := failedCalls_once
          frees := fun b => failedCalls_frees
          filled := hstray
          running := hrunning
          stopped := fun results => stopThreadsCalls_empty results htIds' hnThreads' }

theorem startThreads_failed_copy :
    let calls : StartCalls := { processors := 2, passes := fun i => { calloc := i ≠ 1 } }
    let s : State :=
      { controller :=
          { recvs := Stream'.const (.moves 100), sends := Stream'.const (.moves 4)
            selects := Stream'.const (.moves 0) } }
    ∃ q made, startThreadsCalls (fun _ _ => some 1) calls s {} = (-1, q, made) ∧
      StartFailed {} (.data 1) calls.stop q made ∧
        startThreads (fun _ => some 1) calls s {} = (-1, q) := by
  intro calls s
  have hearlier : ∀ i < (StartStep.data 1).index, Creates (fun _ _ => some 1) calls s i := by
    intro i hi
    obtain rfl : i = 0 := Nat.lt_one_iff.mp hi
    exact ⟨rfl, rfl, rfl, rfl⟩
  obtain ⟨q, made, hcalls, hfailed, hstart⟩ := startThreads_failed (fun _ _ => some 1) calls s {} rfl 2
    rfl (.data 1) ⟨⟨rfl, rfl⟩, fun _ => ⟨rfl, by decide⟩, hearlier⟩
  exact ⟨q, made, hcalls, hfailed, hstart _ rfl⟩

end ScalableServer.Client
