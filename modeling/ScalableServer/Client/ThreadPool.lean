import ScalableServer.Client.Threads

/-! A `ControllerPass` is what `poll` reports and what the calls of `start_threads` give in one pass
of `run_controller`; `revents` keeps its value when `poll` fails. -/

namespace ScalableServer.Client

open ScalableServer.Foundations ScalableServer.Core

structure ControllerPass where
  poll : Except Errno Bool
  calls : StartCalls

structure Loop where
  exit : Bool := false
  result : States := .SUCCESS
  revents : Bool := false
  state : State
  pool : Pool := {}

/-- The result of `poll` is kept as one of the `states`: 1 has the value of `END`. -/
def pollController (p : ControllerPass) (l : Loop) : Loop :=
  match p.poll with
  | .error e => { l with result := .ERROR, exit := l.exit || e ≠ .EINTR }
  | .ok ready => { l with result := if ready then .END else .SUCCESS, revents := ready }

def controllerReady (h : Host) (inetAddr : List UInt8 → Option ℕ) (p : ControllerPass) (l : Loop) :
    Option Loop :=
  if l.revents then
    (controlThreads h inetAddr p.calls l.state l.pool).map fun (result, s, pool) =>
      { exit := l.exit || result = .END || result = .ERROR
        result := if result = .END then .SUCCESS else result
        revents := false
        state := s
        pool }
  else some l

def controllerPass (h : Host) (inetAddr : List UInt8 → Option ℕ) (l : Loop) (p : ControllerPass) :
    Option Loop :=
  if l.exit then some l else controllerReady h inetAddr p (pollController p l)

def runController (h : Host) (inetAddr : List UInt8 → Option ℕ) (passes : List ControllerPass)
    (l : Loop) : Option Loop :=
  passes.foldlM (controllerPass h inetAddr) l

def startCalled (h : Host) (s : State) : Option State :=
  match readFully 2 { size := 2 } s.controller with
  | none => none
  | some (r, d) =>
    let s := { s with controller := d.conn }
    if r ≠ -1 ∧ h.endian.ntoh 2 (h.endian.load d.buffer.cells) = START then
      match readData h s with
      | some (r, s) => if r = -1 then none else some s
      | none => none
    else none

def Pool.allocated (p : Pool) : ℕ := (p.tIds.map List.length).getD 0

/-- `n_threads` entries are allocated, every running thread has one, and `stop_threads` reads no
other entry and leaves no thread running. -/
structure Pool.Sound (p : Pool) : Prop where
  within : p.nThreads ≤ p.allocated
  listed : ∀ t ∈ p.running, ∃ i < p.nThreads, p.entry i = some t.id
  stray : p.stray = []
  stops : ∀ results, (∀ i, (results i).2 = 0) →
    (stopThreads results p).2.running = [] ∧ (stopThreads results p).2.stray = []

structure Pool.Kept (p : Pool) : Prop where
  filled : ∀ i < p.nThreads, ∃ id, p.entry i = some id
  listed : ∀ t ∈ p.running, ∃ i < p.nThreads, p.entry i = some t.id
  stray : p.stray = []
  live : p.nThreads ≤ p.running.length
  fresh : ∀ t ∈ p.running, t.id < p.nextId

variable {h : Host} {inetAddr : List UInt8 → Option ℕ} {s : State} {p q : Pool} {l l' : Loop}
  {pass : ControllerPass} {passes : List ControllerPass} {calls : StartCalls}
  {results : ℕ → ℤ × ℤ} {i left n : ℕ}

lemma Pool.entry_lt {id : ℕ} (he : p.entry i = some id) : i < p.allocated := by
  rw [Pool.entry, Option.bind_eq_some_iff] at he
  obtain ⟨ids, hids, he⟩ := he
  rw [Pool.allocated, hids]
  by_contra hge
  rw [List.getElem?_eq_none (by simpa using hge)] at he
  cases he

lemma stopThreads_running (hlisted : ∀ t ∈ p.running, ∃ i < p.nThreads, p.entry i = some t.id)
    (hjoins : ∀ i, (results i).2 = 0) : (stopThreads results p).2.running = [] := by
  rw [stopThreads, List.filter_eq_nil_iff]
  intro t ht
  obtain ⟨i, hi, he⟩ := hlisted t ht
  simp only [decide_eq_true_eq, not_not, List.mem_filterMap, List.mem_range]
  exact ⟨i, hi, by rw [if_pos (hjoins i), he]⟩

lemma stopThreads_stray (hfilled : ∀ i < p.nThreads, ∃ id, p.entry i = some id) :
    (stopThreads results p).2.stray = p.stray := by
  have hnone : (List.range p.nThreads).filter (fun i => p.entry i = none) = [] := by
    rw [List.filter_eq_nil_iff]
    intro i hi
    obtain ⟨id, he⟩ := hfilled i (List.mem_range.mp hi)
    simp [he]
  rw [stopThreads]
  simp only [hnone, List.append_nil]

lemma Pool.Kept.sound (hp : p.Kept) : p.Sound where
  within := by
    by_contra hlt
    obtain ⟨id, he⟩ := hp.filled p.allocated (by omega)
    exact (Pool.entry_lt he).false
  listed := hp.listed
  stray := hp.stray
  stops results hjoins :=
    ⟨stopThreads_running hp.listed hjoins, (stopThreads_stray hp.filled).trans hp.stray⟩

lemma kept_initial : Pool.Kept {} where
  filled _ hi := absurd hi (Nat.not_lt_zero _)
  listed _ ht := absurd ht List.not_mem_nil
  stray := rfl
  live := le_refl 0
  fresh _ ht := absurd ht List.not_mem_nil

section Create

variable {args : HandleArgs} {passesOf : ℕ → CreateCalls}

@[simp] lemma Pool.add_allocated : (p.add i args).allocated = p.allocated := by
  rw [Pool.allocated, Pool.allocated, Pool.add]
  cases p.tIds <;> simp

lemma Pool.add_entry_self (hi : i < p.allocated) : (p.add i args).entry i = some p.nextId := by
  rw [Pool.allocated] at hi
  rw [Pool.entry, Pool.add]
  cases hids : p.tIds with
  | none => simp [hids] at hi
  | some ids =>
    have hlen : i < ids.length := by simpa [hids] using hi
    simp [hlen]

lemma Pool.add_entry_ne {j : ℕ} (hij : j ≠ i) : (p.add i args).entry j = p.entry j := by
  rw [Pool.entry, Pool.entry, Pool.add]
  cases p.tIds with
  | none => rfl
  | some ids => simp [List.getElem?_set_ne hij.symm]

lemma Pool.Kept.add (hp : p.Kept) (hroom : p.nThreads < p.allocated) :
    (p.add p.nThreads args).Kept where
  filled j hj := by
    by_cases hji : j = p.nThreads
    · subst hji
      exact ⟨p.nextId, Pool.add_entry_self hroom⟩
    · rw [Pool.add_entry_ne hji]
      exact hp.filled j (by change j < p.nThreads + 1 at hj; omega)
  listed t ht := by
    rcases List.mem_append.mp ht with ht | ht
    · obtain ⟨j, hj, he⟩ := hp.listed t ht
      refine ⟨j, Nat.lt_succ_of_lt hj, ?_⟩
      rw [Pool.add_entry_ne hj.ne, he]
    · obtain rfl := List.mem_singleton.mp ht
      exact ⟨p.nThreads, Nat.lt_succ_self _, Pool.add_entry_self hroom⟩
  stray := hp.stray
  live := by
    change p.nThreads + 1 ≤ (p.running ++ [_]).length
    have hlive := hp.live
    rw [List.length_append, List.length_singleton]
    omega
  fresh t ht := by
    change t.id < p.nextId + 1
    rcases List.mem_append.mp ht with ht | ht
    · exact Nat.lt_succ_of_lt (hp.fresh t ht)
    · obtain rfl := List.mem_singleton.mp ht
      exact Nat.lt_succ_self _

lemma createLoop_kept (hp : p.Kept) (hi : p.nThreads = i) (hroom : i + left ≤ p.allocated) :
    (createLoop inetAddr passesOf s left i p).2.Kept := by
  induction left generalizing i p with
  | zero => exact hp
  | succ left ih =>
    rw [createLoop]
    split
    · exact hp
    · rename_i q hcreate
      obtain ⟨addr, rfl⟩ := createThread_some hcreate
      subst hi
      exact ih (hp.add (by omega)) rfl (by rw [Pool.add_allocated]; omega)

lemma createThreads_kept (hp : p.Kept) (hidle : p.nThreads = 0) (n : ℤ) :
    (createThreads inetAddr calls n s p).2.Kept := by
  have hnone : p.running = [] := by
    rw [List.eq_nil_iff_forall_not_mem]
    intro t ht
    obtain ⟨i, hi, -⟩ := hp.listed t ht
    omega
  have hkept : ∀ ids, ({ p with tIds := ids } : Pool).Kept := fun ids =>
    { filled := fun i hi => absurd hi (by change ¬ i < p.nThreads; omega)
      listed := fun t ht => by
        change t ∈ p.running at ht
        rw [hnone] at ht
        cases ht
      stray := hp.stray
      live := hp.live
      fresh := hp.fresh }
  rw [createThreads]
  split_ifs
  · exact hkept none
  · exact createLoop_kept (hkept _) hidle (by simp [Pool.allocated])

lemma stopThreads_kept (hp : p.Kept) (hjoins : ∀ i, (results i).2 = 0) :
    (stopThreads results p).2.Kept where
  filled _ hi := absurd hi (Nat.not_lt_zero _)
  listed t ht := by
    rw [stopThreads_running hp.listed hjoins] at ht
    cases ht
  stray := (stopThreads_stray hp.filled).trans hp.stray
  live := Nat.zero_le _
  fresh t ht := hp.fresh t (List.mem_of_mem_filter ht)

lemma startThreads_kept (hp : p.Kept) (hjoins : ∀ i, (calls.stop i).2 = 0)
    (hidle : (getProcessors p.nProcessors calls.processors).isSome = true → p.nThreads = 0) :
    (startThreads inetAddr calls s p).2.Kept := by
  rw [startThreads]
  cases hn : getProcessors p.nProcessors calls.processors with
  | none => exact hp
  | some n =>
    rw [hn] at hidle
    have hp' : ({ p with nProcessors := n } : Pool).Kept := ⟨hp.1, hp.2, hp.3, hp.4, hp.5⟩
    have hcreated : (createThreads inetAddr calls n s { p with nProcessors := n }).2.Kept :=
      createThreads_kept hp' (hidle rfl) n
    simp only
    split_ifs
    · exact stopThreads_kept hcreated hjoins
    · exact hcreated

end Create

section Orphan

variable {t : Thread} {passesOf : ℕ → CreateCalls}

structure Pool.Orphan (p : Pool) (t : Thread) : Prop where
  running : t ∈ p.running
  old : t.id < p.nextId
  entry : ∀ i id, p.entry i = some id → id ≠ t.id

lemma Pool.Orphan.not_sound (h : p.Orphan t) : ¬ p.Sound := by
  intro hs
  obtain ⟨i, -, he⟩ := hs.listed t h.running
  exact h.entry i t.id he rfl

lemma createLoop_orphan (hp : p.Orphan t) (hroom : i + left ≤ p.allocated) :
    (createLoop inetAddr passesOf s left i p).2.Orphan t := by
  induction left generalizing i p with
  | zero => exact hp
  | succ left ih =>
    rw [createLoop]
    split
    · exact hp
    · rename_i q hcreate
      obtain ⟨addr, rfl⟩ := createThread_some hcreate
      refine ih ⟨List.mem_append_left _ hp.running, Nat.lt_succ_of_lt hp.old, ?_⟩
        (by rw [Pool.add_allocated]; omega)
      intro j id he
      by_cases hji : j = i
      · subst hji
        rw [Pool.add_entry_self (by omega)] at he
        obtain rfl := Option.some.inj he
        exact hp.old.ne'
      · rw [Pool.add_entry_ne hji] at he
        exact hp.entry j id he

lemma createThreads_orphan (ht : t ∈ p.running) (hold : t.id < p.nextId) (n : ℤ) :
    (createThreads inetAddr calls n s p).2.Orphan t := by
  rw [createThreads]
  split_ifs
  · exact ⟨ht, hold, fun i id he => by simp [Pool.entry] at he⟩
  · refine createLoop_orphan ⟨ht, hold, fun i id he => ?_⟩ (by simp [Pool.allocated])
    simp only [Pool.entry, Option.bind_some, List.getElem?_replicate] at he
    split_ifs at he
    · cases he
    · cases he

lemma stopThreads_orphan (hp : p.Orphan t) : (stopThreads results p).2.Orphan t where
  running := by
    rw [stopThreads, List.mem_filter, decide_eq_true_eq, List.mem_filterMap]
    refine ⟨hp.running, ?_⟩
    rintro ⟨i, -, he⟩
    split_ifs at he
    exact hp.entry i t.id he rfl
  old := hp.old
  entry i id he := by simp [stopThreads, Pool.entry] at he

lemma startThreads_not_sound (hp : p.Kept) (hrunning : p.nThreads ≠ 0)
    (hn : (getProcessors p.nProcessors calls.processors).isSome = true) :
    ¬ (startThreads inetAddr calls s p).2.Sound := by
  obtain ⟨t, ht⟩ : ∃ t, t ∈ p.running := by
    have hlive := hp.live
    exact List.exists_mem_of_length_pos (by omega)
  rw [startThreads]
  obtain ⟨n, hn⟩ := Option.isSome_iff_exists.mp hn
  have horphan : (createThreads inetAddr calls n s { p with nProcessors := n }).2.Orphan t :=
    createThreads_orphan (p := { p with nProcessors := n }) ht (hp.fresh t ht) n
  simp only [hn]
  split_ifs
  · exact (stopThreads_orphan horphan).not_sound
  · exact horphan.not_sound

end Orphan

lemma handleController_of_startCalled {s₁ : State} (startThreads : State → ℤ)
    (hs : startCalled h s = some s₁) : handleController h startThreads s =
      some (if startThreads s₁ = -1 then .ERROR else .SUCCESS, s₁) := by
  rw [startCalled] at hs
  rw [handleController]
  cases hread : readFully 2 { size := 2 } s.controller with
  | none => simp [hread] at hs
  | some q =>
    obtain ⟨r, d⟩ := q
    simp only [hread] at hs ⊢
    split_ifs at hs with hstart
    rw [if_neg hstart.1, if_pos hstart.2]
    cases hdata : readData h { s with controller := d.conn } with
    | none => simp [hdata] at hs
    | some q =>
      obtain ⟨r', s'⟩ := q
      simp only [hdata] at hs
      split_ifs at hs with hr'
      obtain rfl := Option.some.inj hs
      rw [Option.map_some, if_neg hr']

lemma controlThreads_eq (inetAddr : List UInt8 → Option ℕ) (calls : StartCalls) (s : State)
    (p : Pool) : controlThreads h inetAddr calls s p =
      (handleController h (fun s => (startThreads inetAddr calls s p).1) s).map fun r =>
        (r.1, r.2, ((startCalled h s).map fun s => (startThreads inetAddr calls s p).2).getD p) := by
  rw [controlThreads, handleController, startCalled]
  cases readFully 2 { size := 2 } s.controller with
  | none => rfl
  | some q =>
    obtain ⟨r, d⟩ := q
    by_cases hr : r = -1
    · simp [hr]
    by_cases hstart : h.endian.ntoh 2 (h.endian.load d.buffer.cells) = START
    · simp only [if_neg hr, if_pos hstart, if_pos (show r ≠ -1 ∧ _ from ⟨hr, hstart⟩)]
      cases readData h { s with controller := d.conn } with
      | none => rfl
      | some q =>
        obtain ⟨r', s₁⟩ := q
        by_cases hr' : r' = -1 <;> simp [hr']
    · simp only [if_neg hr, if_neg hstart, if_neg (show ¬ (r ≠ -1 ∧ _) from fun h => hstart h.2)]
      split_ifs <;> rfl

variable (inetAddr calls) in
lemma controlThreads_of_startCalled {s₁ : State} (hs : startCalled h s = some s₁) :
    ∃ r, controlThreads h inetAddr calls s p =
      some (r, s₁, (startThreads inetAddr calls s₁ p).2) := by
  rw [controlThreads_eq, handleController_of_startCalled _ hs, hs]
  exact ⟨_, rfl⟩

lemma controlThreads_pool {r : States} {s' : State} (hs : startCalled h s = none)
    (hrun : controlThreads h inetAddr calls s p = some (r, s', q)) : q = p := by
  rw [controlThreads_eq, hs] at hrun
  obtain ⟨a, -, ha⟩ := Option.map_eq_some_iff.mp hrun
  exact (congrArg (fun r => r.2.2) ha).symm

def StartsIdle (h : Host) (pass : ControllerPass) (l : Loop) : Prop :=
  l.exit = false → (pollController pass l).revents = true →
    (startCalled h l.state).isSome = true →
    (getProcessors l.pool.nProcessors pass.calls.processors).isSome = true → l.pool.nThreads = 0

lemma pollController_state (pass : ControllerPass) (l : Loop) :
    (pollController pass l).state = l.state ∧ (pollController pass l).pool = l.pool := by
  rw [pollController]
  split <;> exact ⟨rfl, rfl⟩

lemma controllerPass_kept (hl : l.pool.Kept) (hidle : StartsIdle h pass l)
    (hjoins : ∀ i, (pass.calls.stop i).2 = 0)
    (hrun : controllerPass h inetAddr l pass = some l') : l'.pool.Kept := by
  obtain ⟨hstate, hpool⟩ := pollController_state pass l
  rw [controllerPass] at hrun
  split_ifs at hrun with hexit
  · exact Option.some.inj hrun ▸ hl
  · rw [controllerReady] at hrun
    split_ifs at hrun with hready
    · obtain ⟨⟨r, s', q⟩, hcontrol, rfl⟩ := Option.map_eq_some_iff.mp hrun
      rw [hstate, hpool] at hcontrol
      change q.Kept
      cases hstart : startCalled h l.state with
      | none =>
        rw [controlThreads_pool hstart hcontrol]
        exact hl
      | some s₁ =>
        obtain ⟨r', hr'⟩ := controlThreads_of_startCalled inetAddr pass.calls (p := l.pool)
          hstart
        rw [hcontrol] at hr'
        simp only [Option.some.injEq, Prod.mk.injEq] at hr'
        rw [hr'.2.2]
        refine startThreads_kept hl hjoins fun hn => ?_
        exact hidle (Bool.of_not_eq_true hexit) hready (by rw [hstart]; rfl) hn
    · rw [← Option.some.inj hrun, hpool]
      exact hl

variable (inetAddr) in
lemma controllerPass_not_sound (hl : l.pool.Kept) (hbusy : ¬ StartsIdle h pass l) :
    ∃ l', controllerPass h inetAddr l pass = some l' ∧ ¬ l'.pool.Sound := by
  simp only [StartsIdle, Classical.not_imp] at hbusy
  obtain ⟨hexit, hready, hstart, hn, hrunning⟩ := hbusy
  obtain ⟨hstate, hpool⟩ := pollController_state pass l
  obtain ⟨s₁, hstart⟩ := Option.isSome_iff_exists.mp hstart
  obtain ⟨r, hr⟩ := controlThreads_of_startCalled inetAddr pass.calls (p := l.pool) hstart
  rw [controllerPass, if_neg (by simp [hexit]), controllerReady, if_pos hready, hstate, hpool, hr]
  exact ⟨_, rfl, startThreads_not_sound hl hrunning hn⟩

lemma runController_append (done : List ControllerPass) (pass : ControllerPass) (l : Loop) :
    runController h inetAddr (done ++ [pass]) l =
      (runController h inetAddr done l).bind fun l => controllerPass h inetAddr l pass := by
  simp only [runController, List.foldlM_append, List.foldlM_cons, List.foldlM_nil, bind_pure]
  rfl

lemma runController_kept (hl : l.pool.Kept)
    (hjoins : ∀ pass ∈ passes, ∀ i, (pass.calls.stop i).2 = 0)
    (hstep : ∀ done pass l₁ l₂, done ++ [pass] <+: passes →
      runController h inetAddr done l = some l₁ →
      runController h inetAddr (done ++ [pass]) l = some l₂ → StartsIdle h pass l₁ ∨ l₂.pool.Sound)
    (done : List ControllerPass) (hdone : done <+: passes)
    (hrun : runController h inetAddr done l = some l') : l'.pool.Kept := by
  induction done using List.reverseRecOn generalizing l' with
  | nil => exact Option.some.inj hrun ▸ hl
  | append_singleton done pass ih =>
    have hrun' := hrun
    rw [runController_append] at hrun'
    obtain ⟨l₁, hl₁, hpass⟩ := Option.bind_eq_some_iff.mp hrun'
    have hkept := ih ((List.prefix_append done [pass]).trans hdone) hl₁
    by_cases hidle : StartsIdle h pass l₁
    · exact controllerPass_kept hkept hidle
        (hjoins pass (hdone.subset (List.mem_append_right _ List.mem_cons_self))) hpass
    · obtain ⟨l₂, hl₂, hunsound⟩ := controllerPass_not_sound inetAddr hkept hidle
      rw [hpass] at hl₂
      obtain rfl := Option.some.inj hl₂
      exact (hunsound ((hstep done pass l₁ l' hdone hl₁ hrun).resolve_left hidle)).elim

def startCommand : List UInt8 := [0, 1, 0x13, 0x88, 0, 0, 0, 2, 49, 0, 0, 0, 0, 1, 7]

theorem not_pool_sound :
    ¬ ∀ (h : Host) (inetAddr : List UInt8 → Option ℕ) (passes : List ControllerPass) (s : State)
        (result : States) (revents : Bool),
        (∀ pass ∈ passes, ∀ i, (pass.calls.stop i).2 = 0) → ∀ done l, done <+: passes →
        runController h inetAddr done { result, revents, state := s } = some l → l.pool.Sound := by
  intro hall
  let h : Host := ⟨.little, fun _ => true, fun _ => []⟩
  let pass : ControllerPass := { poll := .ok true, calls := { processors := 1 } }
  let s : State :=
    { controller :=
        { unread := startCommand ++ startCommand, recvs := Stream'.const (.moves 100)
          sends := Stream'.const (.moves 4), selects := Stream'.const (.moves 0) } }
  have hrun : (runController h (fun _ => some 1) [pass, pass] { state := s }).map
      (fun l => (l.pool.nThreads, l.pool.allocated)) = some (2, 1) := by decide +kernel
  obtain ⟨l, hl, hval⟩ := Option.map_eq_some_iff.mp hrun
  obtain ⟨hthreads, hallocated⟩ := Prod.mk.inj hval
  have hsound := hall h (fun _ => some 1) [pass, pass] s .SUCCESS false
    (by simp [pass]) _ l (List.prefix_refl _) hl
  have hwithin := hsound.within
  omega

theorem pool_sound_iff (h : Host) (inetAddr : List UInt8 → Option ℕ) (passes : List ControllerPass)
    (s : State) (result : States) (revents : Bool)
    (hjoins : ∀ pass ∈ passes, ∀ i, (pass.calls.stop i).2 = 0) :
    (∀ done l, done <+: passes →
        runController h inetAddr done { result, revents, state := s } = some l → l.pool.Sound) ↔
      ∀ done pass l, done ++ [pass] <+: passes →
        runController h inetAddr done { result, revents, state := s } = some l →
        StartsIdle h pass l := by
  constructor
  · intro hsound done pass l hdone hrun
    have hkept := runController_kept kept_initial hjoins
      (fun done pass _ l₂ hdone _ hl₂ => .inr (hsound (done ++ [pass]) l₂ hdone hl₂)) done
      ((List.prefix_append done [pass]).trans hdone) hrun
    by_contra hbusy
    obtain ⟨l', hl', hunsound⟩ := controllerPass_not_sound inetAddr hkept hbusy
    refine hunsound (hsound (done ++ [pass]) l' hdone ?_)
    rw [runController_append, hrun]
    exact hl'
  · intro hidle done l hdone hrun
    exact (runController_kept kept_initial hjoins
      (fun done pass l₁ _ hdone hl₁ _ => .inl (hidle done pass l₁ hdone hl₁)) done hdone hrun).sound

theorem pool_sound_of_start_stop :
    let h : Host := ⟨.little, fun _ => true, fun _ => []⟩
    let pass : ControllerPass := { poll := .ok true, calls := { processors := 2 } }
    let s : State :=
      { controller :=
          { unread := startCommand ++ [0, 2], recvs := Stream'.const (.moves 100)
            sends := Stream'.const (.moves 4), selects := Stream'.const (.moves 0) } }
    ∀ done l, done <+: [pass, pass] →
      runController h (fun _ => some 1) done { state := s } = some l → l.pool.Sound := by
  intro h pass s
  refine (pool_sound_iff h (fun _ => some 1) [pass, pass] s .SUCCESS false (by simp [pass])).mpr ?_
  intro done pass' l hdone hrun
  have hlen := hdone.length_le
  rw [List.length_append, List.length_singleton] at hlen
  have hfirst : done <+: [pass, pass] := (List.prefix_append done [pass']).trans hdone
  match done, hlen with
  | [], _ =>
    obtain rfl := Option.some.inj hrun
    exact fun _ _ _ _ => rfl
  | [p], _ =>
    obtain rfl : p = pass := by simpa using hfirst
    have hstop : (runController h (fun _ => some 1) [pass] { state := s }).map
        (fun l => (startCalled h l.state).isSome) = some false := by decide +kernel
    rw [hrun, Option.map_some] at hstop
    intro _ _ hstart
    rw [Option.some.inj hstop] at hstart
    cases hstart

end ScalableServer.Client
