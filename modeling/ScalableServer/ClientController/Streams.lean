import ScalableServer.ClientController.LoopResult

namespace ScalableServer.ClientController

open ScalableServer.Foundations ScalableServer.Core

def Attempt.bytes (a : Attempt) : List UInt8 := a.data.take a.size

def attemptsTo (fd : ℤ) (as : List Attempt) : List Attempt := as.filter fun a => a.fd = fd

def bytesTo (fd : ℤ) (as : List Attempt) : List UInt8 := (attemptsTo fd as).flatMap Attempt.bytes

def commandAttempt (h : Host) (command : ℕ) (fd : ℤ) : Attempt :=
  ⟨fd, (commandWrite h command).1, 2⟩

def dataAttempts (h : Host) (t : State) (w : World) (fd : ℤ) : List Attempt :=
  if lastTakesStart t w then (dataWrites h t).map fun write => ⟨fd, write.1, write.2⟩ else []

/-- The writes of a run in which start is entered in the state `t`, in their order. -/
def runAttempts (h : Host) (t : State) (w : World) : List Attempt :=
  attempts t [commandWrite h start] ++
    ((if lastTakesStart t w then attempts t (dataWrites h t) else []) ++
      attempts t [commandWrite h stop])

/-- The run that SIGPIPE ends in the write `a`: this fails, and those of `after` are not made. -/
structure Killed (h : Host) (t : State) (w : World) (before : List Attempt) (a : Attempt)
    (after : List Attempt) (w' : World) : Prop where
  writes : runAttempts h t w = before ++ a :: after
  fails : ∃ results w₁, writeAll before w = some (results, w₁) ∧
    writeFullyTo a.fd a.data a.size w₁ = some (-1, w')

def Conforms (s : State) (c d : Conn) : Prop :=
  d.sent = c.sent ∨ d.sent = c.sent ++ (bigEndian 2 start ++ dataBytes s ++ bigEndian 2 stop)

variable {h : Host} {passes : List Pass} {s s' t : State} {w w' : World} {fd : ℤ} {bs : List UInt8}
  {as before after : List Attempt} {a : Attempt} {writes : List (List UInt8 × ℕ)}
  {results : List ℤ} {command : ℕ} {c d : Conn}

@[simp] lemma attemptsTo_append (fd : ℤ) (as bs : List Attempt) :
    attemptsTo fd (as ++ bs) = attemptsTo fd as ++ attemptsTo fd bs := List.filter_append _ _

lemma attemptsTo_eq_nil : attemptsTo fd as = [] ↔ ∀ a ∈ as, a.fd ≠ fd := by
  simp [attemptsTo, List.filter_eq_nil_iff]

lemma attemptsTo_cons_of_ne (ha : a.fd ≠ fd) : attemptsTo fd (a :: as) = attemptsTo fd as :=
  List.filter_cons_of_neg (by simpa using ha)

lemma commandAttempt_bytes (h : Host) (command : ℕ) (fd : ℤ) :
    (commandAttempt h command fd).bytes = bigEndian 2 command := by
  change (h.endian.store 2 (h.endian.hton 2 command)).take 2 = _
  rw [Endian.store_hton, List.take_of_length_le (by simp)]

lemma attemptsTo_each {fds : List ℤ} (hfds : fds.Nodup) (hfd : fd ∈ fds) :
    attemptsTo fd (fds.flatMap fun g => writes.map fun write => ⟨g, write.1, write.2⟩) =
      writes.map fun write => ⟨fd, write.1, write.2⟩ := by
  induction fds with
  | nil => cases hfd
  | cons g fds ih =>
    obtain ⟨hnew, hfds⟩ := List.nodup_cons.mp hfds
    rw [List.flatMap_cons, attemptsTo_append]
    by_cases hg : g = fd
    · subst hg
      have hown : attemptsTo g (writes.map fun write => ⟨g, write.1, write.2⟩) =
          writes.map fun write => ⟨g, write.1, write.2⟩ := by
        refine List.filter_eq_self.mpr fun a ha => ?_
        obtain ⟨write, -, rfl⟩ := List.mem_map.mp ha
        exact decide_eq_true rfl
      have hothers : attemptsTo g (fds.flatMap fun g' =>
          writes.map fun write => ⟨g', write.1, write.2⟩) = [] := by
        refine attemptsTo_eq_nil.mpr fun a ha => ?_
        obtain ⟨g', hg', ha⟩ := List.mem_flatMap.mp ha
        obtain ⟨write, -, rfl⟩ := List.mem_map.mp ha
        exact ne_of_mem_of_not_mem hg' hnew
      rw [hown, hothers, List.append_nil]
    · have hothers : attemptsTo fd (writes.map fun write => ⟨g, write.1, write.2⟩) = [] := by
        refine attemptsTo_eq_nil.mpr fun a ha => ?_
        obtain ⟨write, -, rfl⟩ := List.mem_map.mp ha
        exact hg
      rw [hothers, List.nil_append, ih hfds ((List.mem_cons.mp hfd).resolve_left (Ne.symm hg))]

lemma attemptsTo_attempts (ht : Distinct [] t) (hfd : fd ∈ t.fds) :
    attemptsTo fd (attempts t writes) = writes.map fun write => ⟨fd, write.1, write.2⟩ := by
  rw [attempts_eq]
  exact attemptsTo_each (List.nodup_append.mp ht).1 hfd

lemma attemptsTo_run (ht : Distinct [] t) (hfd : fd ∈ t.fds) :
    attemptsTo fd (runAttempts h t w) = commandAttempt h start fd ::
      (dataAttempts h t w fd ++ [commandAttempt h stop fd]) := by
  rw [runAttempts, dataAttempts, attemptsTo_append, attemptsTo_append, attemptsTo_attempts ht hfd,
    attemptsTo_attempts ht hfd]
  split_ifs
  · rw [attemptsTo_attempts ht hfd]
    rfl
  · rfl

lemma writeAll_puts (hsizes : ∀ a ∈ as, a.size ≤ a.data.length ∧ a.size < 2 ^ 63)
    (hrun : writeAll as w = some (results, w')) (fd : ℤ) : Puts (bytesTo fd as) (w fd) (w' fd) := by
  induction as generalizing w results with
  | nil =>
    obtain ⟨-, rfl⟩ := Prod.mk.inj (Option.some.inj hrun)
    exact fun hs => ⟨(List.append_nil _).symm, hs⟩
  | cons a as ih =>
    obtain ⟨hlen, hlt⟩ := hsizes a List.mem_cons_self
    obtain ⟨r, w₁, hw, hother, hputs⟩ := writeFullyTo_puts a.fd w hlen hlt
    rw [writeAll, hw, Option.bind_some] at hrun
    obtain ⟨⟨rs, w₂⟩, hrest, he⟩ := Option.map_eq_some_iff.mp hrun
    obtain ⟨-, rfl⟩ := Prod.mk.inj he
    have hputs' := ih (fun b hb => hsizes b (List.mem_cons_of_mem a hb)) hrest
    by_cases ha : a.fd = fd
    · subst ha
      have hbytes : bytesTo a.fd (a :: as) = a.bytes ++ bytesTo a.fd as := by
        rw [bytesTo, attemptsTo, List.filter_cons_of_pos (by simp), List.flatMap_cons]
        rfl
      rw [hbytes]
      exact hputs.trans hputs'
    · rw [bytesTo, attemptsTo_cons_of_ne ha]
      rw [hother fd (Ne.symm ha)] at hputs'
      exact hputs'

lemma runAttempts_sizes (w : World) (hip : t.serverIp.length + 1 < 2 ^ 32)
    (hdata : t.data.length < 2 ^ 63) (hsize : t.dataSize = t.data.length) :
    ∀ a ∈ runAttempts h t w, a.size ≤ a.data.length ∧ a.size < 2 ^ 63 := by
  have hall : ∀ writes : List (List UInt8 × ℕ),
      (∀ write ∈ writes, write.2 ≤ write.1.length ∧ write.2 < 2 ^ 63) →
        ∀ a ∈ attempts t writes, a.size ≤ a.data.length ∧ a.size < 2 ^ 63 := by
    intro writes hwrites a ha
    obtain ⟨i, -, ha⟩ := List.mem_flatMap.mp ha
    obtain ⟨write, hwrite, rfl⟩ := List.mem_map.mp ha
    exact hwrites write hwrite
  have hcommand : ∀ command, ∀ write ∈ [commandWrite h command],
      write.2 ≤ write.1.length ∧ write.2 < 2 ^ 63 := by
    intro command write hwrite
    obtain rfl := List.mem_singleton.mp hwrite
    exact ⟨(Endian.store_length _ _ _).ge, by change 2 < 2 ^ 63; decide⟩
  have hwrites := dataWrites_size h hip hdata hsize
  intro a ha
  rw [runAttempts] at ha
  rcases List.mem_append.mp ha with ha | ha
  · exact hall _ (hcommand start) a ha
  rcases List.mem_append.mp ha with ha | ha
  · split_ifs at ha
    · exact hall _ (fun write hwrite => (hwrites write hwrite).imp_left Eq.le) a ha
    · cases ha
  · exact hall _ (hcommand stop) a ha

lemma startAttempts_last (ht : Distinct [] t)
    (hrun : writeAll (attempts t [commandWrite h start]) w = some (results, w')) :
    attempts t [commandWrite h start] = [] ∧ t.numConns = 0 ∨
      (results.getLastD 0 = -1 ↔ lastTakesStart t w = false) := by
  obtain ⟨w₁, hw₁⟩ := writeAll_command h start (List.nodup_append.mp ht).1 w
  rw [← attempts_command, hrun] at hw₁
  obtain ⟨rfl, -⟩ := Prod.mk.inj (Option.some.inj hw₁)
  cases hn : t.numConns with
  | zero => exact .inl ⟨by rw [attempts, hn]; rfl, rfl⟩
  | succ n =>
    refine .inr ?_
    rw [State.fds, hn, List.range_succ, List.map_append, List.map_append, List.map_singleton,
      List.map_singleton, List.getLastD_concat, lastTakesStart, hn, Nat.add_sub_cancel]
    cases takesWord (w (t.acceptedFds n)).sends <;> simp

lemma writeAll_trans {w₁ : World} {results' : List ℤ}
    (hbefore : writeAll before w = some (results, w₁))
    (hafter : writeAll after w₁ = some (results', w')) :
    writeAll (before ++ after) w = some (results ++ results', w') := by
  simp only [writeAll_append, hbefore, hafter, Option.bind_some, Option.map_some]

lemma startClients_writes {r : ℤ} (ht : Distinct [] t)
    (hstart : startClients h t w = some (r, s', w')) :
    s' = { t with started := true } ∧
      ∃ results, writeAll (attempts t [commandWrite h start] ++
        if lastTakesStart t w then attempts t (dataWrites h t) else []) w = some (results, w') := by
  rw [startClients, sendStart_eq] at hstart
  cases hstarts : writeAll (attempts t [commandWrite h start]) w with
  | none => simp [hstarts] at hstart
  | some q =>
    obtain ⟨starts, w₁⟩ := q
    simp only [hstarts, Option.map_some] at hstart
    have hlast := startAttempts_last ht hstarts
    split_ifs at hstart with hr
    · obtain ⟨-, rfl, rfl⟩ := hstart
      refine ⟨rfl, starts, ?_⟩
      rcases hlast with ⟨hnone, hn⟩ | hlast
      · rw [hnone] at hstarts
        obtain ⟨rfl, -⟩ := Prod.mk.inj (Option.some.inj hstarts)
        cases hr
      · rw [hlast.mp hr, if_neg Bool.false_ne_true, List.append_nil]
        exact hstarts
    · rw [sendData_eq] at hstart
      change ((writeAll (attempts t (dataWrites h t)) w₁).map _).map _ = _ at hstart
      cases hdatas : writeAll (attempts t (dataWrites h t)) w₁ with
      | none => simp [hdatas] at hstart
      | some q =>
        obtain ⟨datas, w₂⟩ := q
        simp only [hdatas, Option.map_some, Option.some.injEq, Prod.mk.injEq] at hstart
        obtain ⟨-, rfl, rfl⟩ := hstart
        refine ⟨rfl, starts ++ datas, ?_⟩
        have hmid : (if lastTakesStart t w then attempts t (dataWrites h t) else []) =
            attempts t (dataWrites h t) := by
          rcases hlast with ⟨-, hn⟩ | hlast
          · have hnone : attempts t (dataWrites h t) = [] := by rw [attempts, hn]; rfl
            rw [hnone, ite_self]
          · exact if_pos (Bool.of_not_eq_false fun hf => hr (hlast.mpr hf))
        rw [hmid]
        exact writeAll_trans hstarts hdatas

lemma sendStop_writes {r : ℤ} (hstop : sendStop h t w = some (r, s', w')) :
    ∃ results, writeAll (attempts t [commandWrite h stop]) w = some (results, w') := by
  rw [sendStop, forEachConn_command, Option.map_map] at hstop
  obtain ⟨⟨results, w₁⟩, hall, he⟩ := Option.map_eq_some_iff.mp hstop
  obtain ⟨-, -, rfl⟩ := he
  exact ⟨results, hall⟩

variable {result : ℤ} {revents : Bool × Bool} {failed : Bool}

lemma run_writes (hsome : startingState passes { result, revents, state := s } = some t)
    (hs : Distinct passes s) (hrun : run h passes result revents s w = some (failed, s', w')) :
    s'.fds = t.fds ∧ ∃ results, writeAll (runAttempts h t w) w = some (results, w') := by
  obtain ⟨l, w₁, r, hloop, hstop⟩ := run_some hrun
  obtain ⟨q, hclients⟩ := handleLoop_start hsome hloop
  obtain ⟨hstate, starts, hstarts⟩ := startClients_writes (startingState_some hs hsome).1 hclients
  refine ⟨(destroyState_fds hstop).trans (startClients_fds hclients), ?_⟩
  rw [destroyState, hstate, if_pos rfl] at hstop
  obtain ⟨stops, hstops⟩ := sendStop_writes hstop
  rw [runAttempts, ← List.append_assoc]
  exact ⟨starts ++ stops, writeAll_trans hstarts hstops⟩

lemma dataAttempts_bytes (h : Host) (w : World) (fd : ℤ) (hip : t.serverIp.length + 1 < 2 ^ 32)
    (hdata : t.data.length < 2 ^ 63) (hsize : t.dataSize = t.data.length) :
    (dataAttempts h t w fd).flatMap Attempt.bytes =
      if lastTakesStart t w then dataBytes t else [] := by
  rw [dataAttempts]
  split_ifs
  · rw [← dataWrites_bytes h hip hdata hsize, List.flatMap_map]
    exact List.flatMap_congr fun write hwrite =>
      List.take_of_length_le (dataWrites_size h hip hdata hsize write hwrite).1.ge
  · rfl

lemma conforms_append (hsent : d.sent = c.sent ++ bs) :
    Conforms s c d ↔ bs = [] ∨ bs = bigEndian 2 start ++ dataBytes s ++ bigEndian 2 stop := by
  rw [Conforms, hsent, List.append_right_eq_self, List.append_cancel_left_eq]

lemma bytes_of_split {own own' mid : List Attempt} {x y : Attempt}
    (hsplit : own ++ own' = x :: (mid ++ [y])) :
    own.flatMap Attempt.bytes ++ own'.flatMap Attempt.bytes =
        x.bytes ++ mid.flatMap Attempt.bytes ++ y.bytes ∧
      (own ≠ [] → x.bytes.length ≤ (own.flatMap Attempt.bytes).length) ∧
      (own' ≠ [] → y.bytes.length ≤ (own'.flatMap Attempt.bytes).length) := by
  refine ⟨?_, fun hne => ?_, fun hne => ?_⟩
  · rw [← List.flatMap_append, hsplit, List.flatMap_cons, List.flatMap_append,
      List.flatMap_singleton, List.append_assoc]
  · obtain ⟨z, zs, rfl⟩ := List.exists_cons_of_ne_nil hne
    obtain ⟨rfl, -⟩ := List.cons.inj hsplit
    rw [List.flatMap_cons, List.length_append]
    omega
  · obtain ⟨zs, z, rfl⟩ := (List.eq_nil_or_concat own').resolve_left hne
    rw [List.concat_eq_append] at hne hsplit ⊢
    rw [← List.cons_append, ← List.append_assoc] at hsplit
    obtain rfl : z = y := by simpa using (List.append_inj' hsplit rfl).2
    rw [List.flatMap_append, List.flatMap_singleton, List.length_append]
    omega

/-- Of the writes to a connection those of `own` have been made. -/
lemma conforms_iff_of_split {own own' : List Attempt} (hip : t.serverIp.length + 1 < 2 ^ 32)
    (hdata : t.data.length < 2 ^ 63) (hsize : t.dataSize = t.data.length)
    (hsplit : own ++ own' = commandAttempt h start fd ::
      (dataAttempts h t w fd ++ [commandAttempt h stop fd]))
    (hsent : d.sent = c.sent ++ own.flatMap Attempt.bytes) :
    Conforms t c d ↔ own = [] ∨ lastTakesStart t w = true ∧ own' = [] := by
  obtain ⟨hbytes, hfirst, hlast⟩ := bytes_of_split hsplit
  rw [commandAttempt_bytes, commandAttempt_bytes,
    dataAttempts_bytes h w fd hip hdata hsize] at hbytes
  rw [commandAttempt_bytes, bigEndian_length] at hfirst hlast
  have hlen := congrArg List.length hbytes
  simp only [List.length_append, bigEndian_length] at hlen
  have hpos : 4 ≤ (dataBytes t).length := by
    simp only [dataBytes, List.length_append, bigEndian_length]
    omega
  rw [conforms_append hsent]
  refine or_congr ⟨fun hempty => ?_, fun hempty => by rw [hempty]; rfl⟩ ⟨fun hwhole => ?_, ?_⟩
  · by_contra hne
    have := hfirst hne
    rw [hempty] at this
    simp at this
  · rw [hwhole] at hlen
    simp only [List.length_append, bigEndian_length] at hlen
    split_ifs at hlen with htakes
    · refine ⟨htakes, ?_⟩
      by_contra hne
      have := hlast hne
      omega
    · simp only [List.length_nil] at hlen
      omega
  · rintro ⟨htakes, rfl⟩
    rw [if_pos htakes] at hbytes
    simpa using hbytes

lemma Killed.spares (hkilled : Killed h t w before a after w')
    (hsizes : ∀ a ∈ runAttempts h t w, a.size ≤ a.data.length ∧ a.size < 2 ^ 63)
    (hs : Writable (w fd).sends) :
    a.fd ≠ fd ∧ (w' fd).sent = (w fd).sent ++ bytesTo fd before := by
  obtain ⟨results, w₁, hbefore, hfails⟩ := hkilled.fails
  have hsizes' : ∀ b ∈ before, b.size ≤ b.data.length ∧ b.size < 2 ^ 63 := fun b hb =>
    hsizes b (hkilled.writes ▸ List.mem_append_left _ hb)
  obtain ⟨hsent, hs₁⟩ := writeAll_puts hsizes' hbefore fd hs
  obtain ⟨⟨r, d⟩, hwrite, he⟩ := Option.map_eq_some_iff.mp hfails
  obtain ⟨rfl, rfl⟩ := Prod.mk.inj he
  have hne : a.fd ≠ fd := by
    rintro rfl
    exact (writeFully_writable hwrite hs₁).1 rfl
  exact ⟨hne, by rw [Function.update_of_ne (Ne.symm hne), hsent]⟩

lemma Killed.conforms_iff (hkilled : Killed h t w before a after w') (ht : Distinct [] t)
    (hip : t.serverIp.length + 1 < 2 ^ 32) (hdata : t.data.length < 2 ^ 63)
    (hsize : t.dataSize = t.data.length) (hfd : fd ∈ t.fds) (hs : Writable (w fd).sends) :
    Conforms t (w fd) (w' fd) ↔
      (∀ b ∈ before, b.fd ≠ fd) ∨ lastTakesStart t w = true ∧ ∀ b ∈ after, b.fd ≠ fd := by
  obtain ⟨hne, hsent⟩ := hkilled.spares (runAttempts_sizes w hip hdata hsize) hs
  have hsplit : attemptsTo fd before ++ attemptsTo fd after = commandAttempt h start fd ::
      (dataAttempts h t w fd ++ [commandAttempt h stop fd]) := by
    have hafter : attemptsTo fd (a :: after) = attemptsTo fd after := attemptsTo_cons_of_ne hne
    rw [← hafter, ← attemptsTo_append, ← hkilled.writes]
    exact attemptsTo_run ht hfd
  rw [conforms_iff_of_split hip hdata hsize hsplit hsent, attemptsTo_eq_nil, attemptsTo_eq_nil]

lemma run_conforms_iff (ht : Distinct [] t) (hip : t.serverIp.length + 1 < 2 ^ 32)
    (hdata : t.data.length < 2 ^ 63) (hsize : t.dataSize = t.data.length)
    (hrun : writeAll (runAttempts h t w) w = some (results, w')) (hfd : fd ∈ t.fds)
    (hs : Writable (w fd).sends) :
    Conforms t (w fd) (w' fd) ↔ lastTakesStart t w = true := by
  have hsplit : attemptsTo fd (runAttempts h t w) ++ [] = commandAttempt h start fd ::
      (dataAttempts h t w fd ++ [commandAttempt h stop fd]) := by
    rw [List.append_nil]
    exact attemptsTo_run ht hfd
  obtain ⟨hsent, -⟩ := writeAll_puts (runAttempts_sizes w hip hdata hsize) hrun fd hs
  have hne : attemptsTo fd (runAttempts h t w) ≠ [] := by
    rw [attemptsTo_run ht hfd]
    exact List.cons_ne_nil _ _
  rw [conforms_iff_of_split hip hdata hsize hsplit hsent]
  simp [hne]

lemma SameRequest.conforms (hsame : SameRequest s t) : Conforms s c d ↔ Conforms t c d := by
  have hbytes : dataBytes t = dataBytes s := by
    rw [dataBytes, hsame.serverIp, hsame.serverPort, hsame.data]
    rfl
  rw [Conforms, Conforms, hbytes]

lemma not_conforms_of_startStop (hsent : d.sent = c.sent ++ (bigEndian 2 start ++ bigEndian 2 stop)) :
    ¬ Conforms s c d := by
  have hlen : d.sent.length = c.sent.length + 4 := by
    rw [hsent, List.length_append]
    simp
  rintro (hc | hc)
  · rw [hc] at hlen
    omega
  · rw [hc] at hlen
    simp only [List.length_append, bigEndian_length, dataBytes] at hlen
    omega

theorem not_streams_conform :
    ¬ ∀ (h : Host) (passes : List Pass) (result : ℤ) (revents : Bool × Bool) (s : State) (w : World)
        (failed : Bool) (s' : State) (w' : World), s.numConns = 0 → s.started = false →
        (passes.filterMap Pass.accepted).Nodup → s.serverIp.length + 1 < 2 ^ 32 →
        s.data.length < 2 ^ 63 → s.dataSize = s.data.length →
        run h passes result revents s w = some (failed, s', w') →
        ∀ fd ∈ s'.fds, Writable (w fd).sends → Conforms s (w fd) (w' fd) := by
  intro hall
  let h : Host := ⟨.little, fun _ => true, fun _ => []⟩
  let passes : List Pass :=
    [{ poll := .ok (true, false), accept := .ok 5 }, { poll := .ok (true, false), accept := .ok 6 },
      { poll := .ok (false, true), read := .ok (START_COMMAND ++ [10]) }]
  let s : State :=
    { serverIp := [49, 46, 50], serverPort := 5000, acceptedFds := fun _ => 0, numConns := 0
      data := [7, 8], dataSize := 2 }
  let w : World := fun fd =>
    { recvs := Stream'.const (.moves 1), selects := Stream'.const (.moves 0)
      sends := Stream'.const (if fd = 6 then ⟨.fail (.other 104), false⟩ else .moves 2) }
  have hrun : (run h passes 0 (false, false) s w).map (fun q => (q.1, q.2.1.fds, (q.2.2 5).sent)) =
      some (true, [5, 6], bigEndian 2 start ++ bigEndian 2 stop) := by decide +kernel
  obtain ⟨⟨failed, s', w'⟩, hrun, he⟩ := Option.map_eq_some_iff.mp hrun
  simp only [Prod.mk.injEq] at he
  obtain ⟨-, hfds, hsent⟩ := he
  have hconforms := hall h passes 0 (false, false) s w failed s' w' rfl rfl (by decide) (by decide)
    (by decide) rfl hrun 5 (by simp [hfds]) (fun n e => by simp [w, Stream'.get_const, Answer.moves])
  exact not_conforms_of_startStop hsent hconforms

theorem streams_conform_iff (h : Host) (passes : List Pass) (result : ℤ) (revents : Bool × Bool)
    (s : State) (w : World) (hconns : s.numConns = 0) (hstarted : s.started = false)
    (hfds : (passes.filterMap Pass.accepted).Nodup) (hip : s.serverIp.length + 1 < 2 ^ 32)
    (hdata : s.data.length < 2 ^ 63) (hsize : s.dataSize = s.data.length) :
    (∀ failed s' w', run h passes result revents s w = some (failed, s', w') →
      (∀ t, startingState passes { result, revents, state := s } = some t →
        ∃ results, writeAll (runAttempts h t w) w = some (results, w')) ∧
      ((∀ fd ∈ s'.fds, Writable (w fd).sends → Conforms s (w fd) (w' fd)) ↔
        ∀ t, startingState passes { result, revents, state := s } = some t →
          lastTakesStart t w = true ∨ ∀ fd ∈ t.fds, ¬ Writable (w fd).sends)) ∧
    ∀ t before a after w', startingState passes { result, revents, state := s } = some t →
      Killed h t w before a after w' →
      ((∀ fd ∈ t.fds, Writable (w fd).sends → Conforms s (w fd) (w' fd)) ↔
        ∀ fd ∈ t.fds, Writable (w fd).sends →
          (∀ b ∈ before, b.fd ≠ fd) ∨ lastTakesStart t w = true ∧ ∀ b ∈ after, b.fd ≠ fd) := by
  have hdistinct : Distinct passes s := by
    rw [Distinct, State.fds, hconns]
    exact hfds
  -- what the run reads of the state when it comes to the start command
  have hstart : ∀ t, startingState passes { result, revents, state := s } = some t →
      Distinct [] t ∧ SameRequest s t ∧ t.serverIp.length + 1 < 2 ^ 32 ∧
        t.data.length < 2 ^ 63 ∧ t.dataSize = t.data.length := by
    intro t ht
    obtain ⟨hnodup, hsame⟩ := startingState_some hdistinct ht
    exact ⟨hnodup, hsame, hsame.serverIp ▸ hip, hsame.data ▸ hdata,
      by rw [hsame.dataSize, hsame.data]; exact hsize⟩
  refine ⟨fun failed s' w' hrun => ⟨fun t ht => (run_writes ht hdistinct hrun).2, ?_⟩, ?_⟩
  · cases hsome : startingState passes { result, revents, state := s } with
    | none =>
      obtain rfl := run_idle hsome hdistinct hstarted hrun
      exact ⟨fun _ t ht => absurd ht (Option.some_ne_none t).symm, fun _ fd _ _ => .inl rfl⟩
    | some t =>
      obtain ⟨hnodup, hsame, hip, hdata, hsize⟩ := hstart t hsome
      obtain ⟨hfds', results, hwrites⟩ := run_writes hsome hdistinct hrun
      have hiff : ∀ fd ∈ t.fds, Writable (w fd).sends →
          (Conforms s (w fd) (w' fd) ↔ lastTakesStart t w = true) := fun fd hfd hs =>
        hsame.conforms.trans (run_conforms_iff hnodup hip hdata hsize hwrites hfd hs)
      rw [hfds']
      constructor
      · intro hall t' ht'
        obtain rfl := Option.some.inj ht'
        by_cases hlast : lastTakesStart t w = true
        · exact .inl hlast
        · exact .inr fun fd hfd hs => hlast ((hiff fd hfd hs).mp (hall fd hfd hs))
      · intro hall fd hfd hs
        rcases hall t rfl with hlast | hnone
        · exact (hiff fd hfd hs).mpr hlast
        · exact (hnone fd hfd hs).elim
  · intro t before a after w' ht hkilled
    obtain ⟨hnodup, hsame, hip, hdata, hsize⟩ := hstart t ht
    refine forall₃_congr fun fd hfd hs => ?_
    exact hsame.conforms.trans (hkilled.conforms_iff hnodup hip hdata hsize hfd hs)

theorem streams_conform_two_clients :
    let h : Host := ⟨.little, fun _ => true, fun _ => []⟩
    let passes : List Pass :=
      [{ poll := .ok (true, false), accept := .ok 5 },
        { poll := .ok (true, false), accept := .ok 6 },
        { poll := .ok (false, true), read := .ok (START_COMMAND ++ [10]) }]
    let s : State :=
      { serverIp := [49, 46, 50], serverPort := 5000, acceptedFds := fun _ => 0, numConns := 0
        data := [7, 8], dataSize := 2 }
    let conn (answer : Answer) : Conn :=
      { recvs := Stream'.const (.moves 1), sends := Stream'.const answer
        selects := Stream'.const (.moves 0) }
    (∃ failed s' w', run h passes 0 (false, false) s (fun _ => conn (.moves 2)) =
        some (failed, s', w') ∧ s'.fds = [5, 6] ∧
      ∀ fd ∈ s'.fds, Conforms s (conn (.moves 2)) (w' fd)) ∧
    let w : World := fun fd => conn (if fd = 6 then ⟨.fail (.other 32), false⟩ else .moves 2)
    ∃ t after w',
      startingState passes { result := 0, revents := (false, false), state := s } = some t ∧
      Killed h t w [commandAttempt h start 5] (commandAttempt h start 6) after w' ∧
      ¬ Conforms s (w 5) (w' 5) := by
  intro h passes s conn
  refine ⟨?_, ?_⟩
  · have hrun : (run h passes 0 (false, false) s (fun _ => conn (.moves 2))).map
        (fun q => q.2.1.fds) = some [5, 6] := by decide +kernel
    obtain ⟨⟨failed, s', w'⟩, hrun, hfds⟩ := Option.map_eq_some_iff.mp hrun
    have hconforms := ((streams_conform_iff h passes 0 (false, false) s (fun _ => conn (.moves 2)) rfl
      rfl (by decide) (by decide) (by decide) rfl).1 failed s' w' hrun).2.mpr fun t _ => .inl rfl
    refine ⟨failed, s', w', hrun, hfds, fun fd hfd => hconforms fd hfd fun n e => ?_⟩
    simp [conn, Stream'.get_const, Answer.moves]
  · intro w
    obtain ⟨-, hkilled⟩ := streams_conform_iff h passes 0 (false, false) s w rfl rfl (by decide)
      (by decide) (by decide) rfl
    let t : State :=
      { s with
        acceptedFds := Function.update (Function.update s.acceptedFds 0 5) 1 6
        numConns := 2 }
    have ht : startingState passes { result := 0, revents := (false, false), state := s } =
        some t := rfl
    have hdies : ∃ w', Killed h t w [commandAttempt h start 5] (commandAttempt h start 6)
        ((runAttempts h t w).drop 2) w' := ⟨_, rfl, _, _, rfl, rfl⟩
    obtain ⟨w', hdies⟩ := hdies
    refine ⟨t, _, w', ht, hdies, fun hconforms => ?_⟩
    have hall : ∀ fd ∈ t.fds, Writable (w fd).sends → Conforms s (w fd) (w' fd) := by
      intro fd hfd hs
      have hfd' : fd = 5 ∨ fd = 6 := by simpa [t, State.fds, List.range_succ] using hfd
      rcases hfd' with rfl | rfl
      · exact hconforms
      · exact (hs 0 (.other 32) rfl).elim
    rcases (hkilled t _ _ _ w' ht hdies).mp hall 5 (by decide) (fun n e => by
      simp [w, conn, Stream'.get_const, Answer.moves]) with hnone | ⟨hlast, -⟩
    · exact hnone _ List.mem_cons_self rfl
    · exact absurd hlast (by decide)

end ScalableServer.ClientController
