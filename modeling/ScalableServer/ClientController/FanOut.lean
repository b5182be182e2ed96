import ScalableServer.ClientController.Failures

namespace ScalableServer.ClientController

open ScalableServer.Foundations ScalableServer.Core

structure Attempt where
  fd : ℤ
  data : List UInt8
  size : ℕ

def writeAll : List Attempt → World → Option (List ℤ × World)
  | [], w => some ([], w)
  | a :: as, w =>
    (writeFullyTo a.fd a.data a.size w).bind fun (r, w) =>
      (writeAll as w).map fun (rs, w) => (r :: rs, w)

def attempts (s : State) (writes : List (List UInt8 × ℕ)) : List Attempt :=
  (List.range s.numConns).flatMap fun i =>
    writes.map fun write => ⟨s.acceptedFds i, write.1, write.2⟩

def FansOut (s : State) (writes : List (List UInt8 × ℕ)) (w : World) (run : Option (ℤ × World)) :
    Prop :=
  ∃ results w', writeAll (attempts s writes) w = some (results, w') ∧
    run = some (if -1 ∈ results then -1 else 0, w')

def commandWrite (h : Host) (command : ℕ) : List UInt8 × ℕ :=
  (h.endian.store 2 (h.endian.hton 2 command), 2)

def LastTells (s : State) (w : World) : Prop :=
  lastTakesStart s w = true → ∀ i < s.numConns, takesWord (w (s.acceptedFds i)).sends = true

variable {h : Host} {s : State} {w w' : World} {as bs : List Attempt} {fd r : ℤ} {command : ℕ}
  {writes : List (List UInt8 × ℕ)} {results : List ℤ}

lemma writeAll_append (as bs : List Attempt) (w : World) :
    writeAll (as ++ bs) w = (writeAll as w).bind fun (rs, w) =>
      (writeAll bs w).map fun (rs', w) => (rs ++ rs', w) := by
  induction as generalizing w with
  | nil =>
    rw [List.nil_append, writeAll, Option.bind_some]
    dsimp only
    cases writeAll bs w <;> rfl
  | cons a as ih =>
    rw [List.cons_append, writeAll, writeAll]
    cases writeFullyTo a.fd a.data a.size w with
    | none => rfl
    | some q =>
      obtain ⟨r, w₁⟩ := q
      simp only [Option.bind_some, ih]
      cases writeAll as w₁ with
      | none => rfl
      | some q =>
        obtain ⟨rs, w₂⟩ := q
        simp only [Option.bind_some, Option.map_some]
        cases writeAll bs w₂ <;> rfl

lemma writeAll_total (hsizes : ∀ a ∈ as, a.size ≤ a.data.length) (w : World) :
    ∃ results w', writeAll as w = some (results, w') := by
  induction as generalizing w with
  | nil => exact ⟨[], w, rfl⟩
  | cons a as ih =>
    obtain ⟨⟨r, d⟩, hr⟩ := writeFully_total (w a.fd) (hsizes a List.mem_cons_self)
    obtain ⟨results, w', hrest⟩ := ih (fun b hb => hsizes b (List.mem_cons_of_mem a hb))
      (Function.update w a.fd d.conn)
    refine ⟨r :: results, w', ?_⟩
    simp only [writeAll, writeFullyTo, hr, Option.map_some, Option.bind_some, hrest]

section Loops

lemma writeEach_eq (fd r : ℤ) (w : World) :
    writeEach fd writes (r, w) =
      (writeAll (writes.map fun write => ⟨fd, write.1, write.2⟩) w).map fun (results, w) =>
        (if -1 ∈ results then -1 else r, w) := by
  induction writes generalizing r w with
  | nil => rfl
  | cons write writes ih =>
    rw [writeEach, List.foldlM_cons, List.map_cons, writeAll, writeNext]
    cases writeFullyTo fd write.1 write.2 w with
    | none => rfl
    | some q =>
      obtain ⟨r₁, w₁⟩ := q
      change writeEach fd writes (if r₁ = -1 then -1 else r, w₁) = _
      rw [ih, Option.bind_some, Option.map_map]
      congr 1
      funext q
      by_cases hr : r₁ = -1
      · simp [hr]
      · simp [hr, Ne.symm hr]

lemma foldlM_writeEach (fds : ℕ → ℤ) (is : List ℕ) (r : ℤ) (w : World) :
    is.foldlM (fun acc i => writeEach (fds i) writes acc) (r, w) =
      (writeAll (is.flatMap fun i => writes.map fun write => ⟨fds i, write.1, write.2⟩) w).map
        fun (results, w) => (if -1 ∈ results then -1 else r, w) := by
  induction is generalizing r w with
  | nil => rfl
  | cons i is ih =>
    rw [List.foldlM_cons, List.flatMap_cons, writeAll_append, writeEach_eq]
    cases writeAll (writes.map fun write => ⟨fds i, write.1, write.2⟩) w with
    | none => rfl
    | some q =>
      obtain ⟨rs, w₁⟩ := q
      change is.foldlM (fun acc i => writeEach (fds i) writes acc) (if -1 ∈ rs then -1 else r, w₁) = _
      rw [ih, Option.bind_some, Option.map_map]
      congr 1
      funext q
      by_cases hr : -1 ∈ rs
      · simp [hr]
      · simp [hr]

lemma foldlM_writeCommand (fds : ℕ → ℤ) (is : List ℕ) (r : ℤ) (w : World) :
    is.foldlM (fun acc i => writeCommand h command (fds i) acc) (r, w) =
      (writeAll (is.flatMap fun i => [⟨fds i, (commandWrite h command).1, 2⟩]) w).map
        fun (results, w) => (results.getLastD r, w) := by
  induction is generalizing r w with
  | nil => rfl
  | cons i is ih =>
    rw [List.foldlM_cons, List.flatMap_cons, List.singleton_append, writeAll, writeCommand]
    change (writeFullyTo (fds i) (commandWrite h command).1 2 w).bind _ = _
    cases writeFullyTo (fds i) (commandWrite h command).1 2 w with
    | none => rfl
    | some q =>
      obtain ⟨r₁, w₁⟩ := q
      rw [Option.bind_some, Option.bind_some, ih, Option.map_map]
      congr 1
      funext q
      obtain ⟨results, w₂⟩ := q
      change (results.getLastD r₁, w₂) = ((r₁ :: results).getLastD r, w₂)
      rw [List.getLastD_cons]

end Loops

section Command

lemma writeFullyTo_word (h : Host) (command : ℕ) (fd : ℤ) (w : World) :
    ∃ w', writeFullyTo fd (commandWrite h command).1 2 w =
        some (if takesWord (w fd).sends then 0 else -1, w') ∧ ∀ g, g ≠ fd → w' g = w g := by
  have hword : (commandWrite h command).1.length = 2 := Endian.store_length _ _ _
  obtain ⟨r, d, hr, htakes⟩ := writeFully_word (w fd) hword
  have hresult : r = if takesWord (w fd).sends then 0 else -1 := by
    rcases writeFully_result hr with rfl | rfl
    · rw [if_pos]
      by_contra hfails
      exact absurd (htakes.mpr (Bool.of_not_eq_true hfails)) (by decide)
    · rw [htakes.mp rfl]
      rfl
  refine ⟨Function.update w fd d.conn, ?_, fun g hg => Function.update_of_ne hg _ _⟩
  rw [writeFullyTo, hr, hresult]
  rfl

lemma writeAll_command (h : Host) (command : ℕ) {fds : List ℤ} (hfds : fds.Nodup) (w : World) :
    ∃ w', writeAll (fds.map fun fd => ⟨fd, (commandWrite h command).1, 2⟩) w =
      some (fds.map fun fd => if takesWord (w fd).sends then 0 else -1, w') := by
  induction fds generalizing w with
  | nil => exact ⟨w, rfl⟩
  | cons fd fds ih =>
    obtain ⟨hnew, hfds⟩ := List.nodup_cons.mp hfds
    obtain ⟨w₁, hw₁, hother⟩ := writeFullyTo_word h command fd w
    obtain ⟨w', hw'⟩ := ih hfds w₁
    refine ⟨w', ?_⟩
    have hsame : (fds.map fun g => if takesWord (w₁ g).sends then (0 : ℤ) else -1) =
        fds.map fun g => if takesWord (w g).sends then (0 : ℤ) else -1 := by
      refine List.map_congr_left fun g hg => ?_
      rw [hother g (ne_of_mem_of_not_mem hg hnew)]
    rw [hsame] at hw'
    simp only [List.map_cons, writeAll, hw₁, Option.bind_some, hw', Option.map_some]

lemma getLastD_results (takes : ℕ → Bool) (n : ℕ) :
    let results : List ℤ := (List.range n).map fun i => if takes i then 0 else -1
    (results.getLastD 0 = if -1 ∈ results then -1 else 0) ↔
      (takes (n - 1) = true → ∀ i < n, takes i = true) := by
  intro results
  cases n with
  | zero => simp [results]
  | succ n =>
    have hlast : results.getLastD 0 = if takes n then 0 else -1 := by
      simp only [results, List.range_succ, List.map_append, List.map_singleton,
        List.getLastD_concat]
    have hmem : -1 ∈ results ↔ ¬ ∀ i < n + 1, takes i = true := by
      rw [List.mem_map, not_forall]
      refine exists_congr fun i => ?_
      rw [List.mem_range, Classical.not_imp]
      refine and_congr_right fun _ => ?_
      cases takes i <;> simp
    rw [hlast, Nat.add_sub_cancel]
    by_cases hall : ∀ i < n + 1, takes i = true
    · rw [if_neg fun h => hmem.mp h hall, if_pos (hall n (Nat.lt_succ_self n))]
      exact iff_of_true rfl fun _ => hall
    · rw [if_pos (hmem.mpr hall)]
      cases takes n with
      | false => exact iff_of_true rfl fun h => by cases h
      | true => exact iff_of_false (by decide) fun h => hall (h rfl)

lemma attempts_eq (s : State) (writes : List (List UInt8 × ℕ)) :
    attempts s writes = s.fds.flatMap fun fd => writes.map fun write => ⟨fd, write.1, write.2⟩ := by
  rw [State.fds, List.flatMap_map]
  rfl

lemma attempts_command (h : Host) (command : ℕ) (s : State) :
    attempts s [commandWrite h command] =
      s.fds.map fun fd => ⟨fd, (commandWrite h command).1, 2⟩ := by
  rw [attempts_eq, List.map_eq_flatMap]
  rfl

lemma forEachConn_command (h : Host) (command : ℕ) (s : State) (w : World) :
    forEachConn s (writeCommand h command) w =
      (writeAll (attempts s [commandWrite h command]) w).map fun (results, w) =>
        (results.getLastD 0, w) :=
  foldlM_writeCommand s.acceptedFds (List.range s.numConns) 0 w

lemma command_fansOut_iff (h : Host) (command : ℕ) (hfds : s.fds.Nodup) :
    FansOut s [commandWrite h command] w (forEachConn s (writeCommand h command) w) ↔
      LastTells s w := by
  obtain ⟨w', hw'⟩ := writeAll_command h command hfds w
  set results := (List.range s.numConns).map fun i =>
    if takesWord (w (s.acceptedFds i)).sends then (0 : ℤ) else -1 with hresults
  have hall : writeAll (attempts s [commandWrite h command]) w = some (results, w') := by
    rw [attempts_command, hw', State.fds, List.map_map]
    rfl
  have hrun : forEachConn s (writeCommand h command) w = some (results.getLastD 0, w') := by
    rw [forEachConn_command, hall]
    rfl
  have hiff : (results.getLastD 0 = if -1 ∈ results then -1 else 0) ↔ LastTells s w :=
    getLastD_results (fun i => takesWord (w (s.acceptedFds i)).sends) s.numConns
  rw [← hiff, FansOut, hall, hrun]
  constructor
  · rintro ⟨results', w'', hval, hresult⟩
    obtain ⟨rfl, rfl⟩ := Prod.mk.inj (Option.some.inj hval)
    exact (Prod.mk.inj (Option.some.inj hresult)).1
  · intro heq
    exact ⟨results, w', rfl, by rw [heq]⟩

end Command

lemma dataWrites_fit (h : Host) (hsize : s.dataSize = s.data.length) :
    ∀ write ∈ dataWrites h s, write.2 ≤ write.1.length := by
  intro write hwrite
  simp only [dataWrites, List.mem_cons, List.not_mem_nil, or_false] at hwrite
  rcases hwrite with rfl | rfl | rfl | rfl | rfl
  · exact (Endian.store_length _ _ _).ge
  · exact (h.wordBytes_length _).ge
  · rw [List.length_append, List.length_singleton]
    exact Nat.mod_le _ _
  · exact (h.wordBytes_length _).ge
  · change (s.dataSize % 2 ^ 64).toNat ≤ s.data.length
    omega

lemma sendData_fansOut (h : Host) (w : World) (hsize : s.dataSize = s.data.length) :
    FansOut s (dataWrites h s) w (sendData h s w) := by
  have hsizes : ∀ a ∈ attempts s (dataWrites h s), a.size ≤ a.data.length := by
    intro a ha
    obtain ⟨i, -, ha⟩ := List.mem_flatMap.mp ha
    obtain ⟨write, hwrite, rfl⟩ := List.mem_map.mp ha
    exact dataWrites_fit h hsize write hwrite
  obtain ⟨results, w', hall⟩ := writeAll_total hsizes w
  refine ⟨results, w', hall, ?_⟩
  rw [sendData, forEachConn, foldlM_writeEach]
  change (writeAll (attempts s (dataWrites h s)) w).map _ = _
  rw [hall]
  rfl

theorem fansOut_iff (h : Host) (s : State) (w : World) (hfds : s.fds.Nodup)
    (hsize : s.dataSize = s.data.length) :
    (FansOut s [commandWrite h start] w ((sendStart h s w).map fun (r, _, w) => (r, w)) ↔
        LastTells s w) ∧
      (FansOut s [commandWrite h stop] w ((sendStop h s w).map fun (r, _, w) => (r, w)) ↔
        LastTells s w) ∧
      FansOut s (dataWrites h s) w (sendData h s w) := by
  have hid : ∀ run : Option (ℤ × World), (run.map fun (r, w) => (r, w)) = run := by
    intro run
    cases run <;> rfl
  refine ⟨?_, ?_, sendData_fansOut h w hsize⟩
  · rw [sendStart, Option.map_map, ← command_fansOut_iff h start hfds]
    exact iff_of_eq (congrArg _ (hid _))
  · rw [sendStop, Option.map_map, ← command_fansOut_iff h stop hfds]
    exact iff_of_eq (congrArg _ (hid _))

def twoClients : State where
  serverIp := [49, 46, 50]
  serverPort := 5000
  acceptedFds i := 5 + i
  numConns := 2
  data := [7, 8]
  dataSize := 2

def oneFails (failing : ℤ) : World := fun fd =>
  { recvs := Stream'.const (.moves 1)
    sends :=
      if fd = failing then Stream'.cons (.moves 1) (Stream'.const ⟨.fail (.other 104), false⟩)
      else Stream'.const (.moves 4)
    selects := Stream'.const (.moves 0) }

theorem sendStart_forgets :
    let h : Host := ⟨.little, fun _ => true, fun _ => []⟩
    (sendStart h twoClients (oneFails 5)).map (fun r => r.1) = some 0 ∧
      (sendStop h twoClients (oneFails 5)).map (fun r => r.1) = some 0 ∧
      (writeAll (attempts twoClients [commandWrite h start]) (oneFails 5)).map (fun r => r.1) =
        some [-1, 0] ∧
      ¬ FansOut twoClients [commandWrite h start] (oneFails 5)
        ((sendStart h twoClients (oneFails 5)).map fun (r, _, w) => (r, w)) := by
  intro h
  have hresults : (writeAll (attempts twoClients [commandWrite h start]) (oneFails 5)).map
      (fun r => r.1) = some [-1, 0] := by decide
  have hstart : (sendStart h twoClients (oneFails 5)).map (fun r => r.1) = some 0 := by decide
  refine ⟨hstart, by decide, hresults, ?_⟩
  rintro ⟨results, w', hall, hrun⟩
  rw [hall, Option.map_some] at hresults
  obtain rfl : results = [-1, 0] := Option.some.inj hresults
  cases hsend : sendStart h twoClients (oneFails 5) with
  | none => simp [hsend] at hstart
  | some q =>
    rw [hsend] at hstart hrun
    have hzero : q.1 = 0 := Option.some.inj hstart
    have hr : q.1 = -1 := (Prod.mk.inj (Option.some.inj hrun)).1
    omega

theorem fansOut_last_fails :
    let h : Host := ⟨.little, fun _ => true, fun _ => []⟩
    FansOut twoClients [commandWrite h start] (oneFails 6)
        ((sendStart h twoClients (oneFails 6)).map fun (r, _, w) => (r, w)) ∧
      FansOut twoClients [commandWrite h stop] (oneFails 6)
        ((sendStop h twoClients (oneFails 6)).map fun (r, _, w) => (r, w)) ∧
      FansOut twoClients (dataWrites h twoClients) (oneFails 6) (sendData h twoClients (oneFails 6)) := by
  intro h
  obtain ⟨hstart, hstop, hdata⟩ := fansOut_iff h twoClients (oneFails 6) (by decide) rfl
  have hlast : LastTells twoClients (oneFails 6) := fun htakes => absurd htakes (by decide)
  exact ⟨hstart.mpr hlast, hstop.mpr hlast, hdata⟩

end ScalableServer.ClientController
