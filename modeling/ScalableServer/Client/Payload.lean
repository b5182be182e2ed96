import ScalableServer.Client.Threads

namespace ScalableServer.Client

open ScalableServer.Foundations ScalableServer.Core

structure LoadCalls where
  stat : Bool := true
  fopen : Bool := true
  fclose : Bool := true

/-- `stSize` is the size that `stat` reports and `contents` what `fread` may read. -/
def loadData (h : Host) (calls : LoadCalls) (stSize : ℕ) (contents : List UInt8) (s : State) :
    ℤ × State :=
  if calls.stat = false then (-1, s)
  else if h.alloc stSize = false then (-1, s)
  else if calls.fopen = false then (-1, { s with data := { size := stSize } })
  else
    let read := contents.take stSize
    (if read.length < stSize ∨ calls.fclose = false then -1 else 0,
      { s with data := ({ size := stSize } : Buffer).store 0 read, dataSize := stSize })

inductive Obtained (h : Host) : State → Prop
  | file {calls : LoadCalls} {stSize : ℕ} {contents : List UInt8} {s₀ s : State}
      (hload : loadData h calls stSize contents s₀ = (0, s)) : Obtained h s
  | controller {s₀ s : State} (hread : readData h s₀ = some (0, s)) : Obtained h s

def SendsPayload (h : Host) (a : HandleArgs) (data : List UInt8) : Prop :=
  ∀ calls t (reply : List UInt8 → List UInt8) c pass bs, c.sent = [] →
    handle h a calls t (fun bs => some (bs, reply bs)) c = some (pass, some bs) → bs.drop 4 = data

def ZerosLast (data : List UInt8) : Prop :=
  ∀ before after, data = before ++ 0 :: after → ∀ b ∈ after, b = 0

variable {h : Host} {s : State} {data : List UInt8} {a : HandleArgs}

lemma readPayload_size {size : Buffer} {t : State} (hread : readPayload h size s = some (0, t)) :
    t.dataSize = t.data.cells.length := by
  have hword : h.endian.ntoh 4 (h.endian.load size.cells) < 2 ^ 32 := by
    have hlt := ofBigEndian_lt (h.endian.store 4 (h.endian.load size.cells))
    rw [Endian.store_length] at hlt
    exact hlt
  rw [readPayload] at hread
  simp only at hread
  split_ifs at hread
  · cases hread
  · obtain ⟨r, d, hfully, hr, hnext⟩ := readThen_some hread
    obtain ⟨-, rfl⟩ := Prod.mk.inj (Option.some.inj hnext)
    obtain ⟨hcells, hlen⟩ := readFully_took (by omega) rfl hfully hr
    dsimp only at hcells hlen
    change (h.endian.ntoh 4 (h.endian.load size.cells) : ℤ) = d.buffer.cells.length
    rw [hcells, List.length_take]
    omega

lemma readData_size {s₀ : State} (hread : readData h s₀ = some (0, s)) :
    s.dataSize = s.data.cells.length := by
  obtain ⟨r₁, d₁, -, -, hread⟩ := readThen_some hread
  obtain ⟨r₂, d₂, -, -, hread⟩ := readThen_some hread
  rw [readServerIp] at hread
  simp only at hread
  split_ifs at hread
  · cases hread
  · obtain ⟨r₃, d₃, -, -, hread⟩ := readThen_some hread
    obtain ⟨r₄, d₄, -, -, hread⟩ := readThen_some hread
    exact readPayload_size hread

lemma loadData_size {calls : LoadCalls} {stSize : ℕ} {contents : List UInt8} {s₀ : State}
    (hload : loadData h calls stSize contents s₀ = (0, s)) : s.dataSize = s.data.cells.length := by
  rw [loadData] at hload
  split_ifs at hload
  · cases hload
  · cases hload
  · cases hload
  · obtain ⟨hret, rfl⟩ := Prod.mk.inj hload
    have hlen : ¬ (contents.take stSize).length < stSize := by
      intro hlt
      rw [if_pos (.inl hlt)] at hret
      cases hret
    have hcells : (Buffer.store 0 (contents.take stSize) { size := stSize }).cells =
        contents.take stSize := by simp [Buffer.store]
    change (stSize : ℤ) = (Buffer.store 0 (contents.take stSize) { size := stSize }).cells.length
    rw [hcells]
    rw [List.length_take] at hlen ⊢
    omega

lemma Obtained.size (hs : Obtained h s) : s.dataSize = s.data.cells.length := by
  cases hs with
  | file hload => exact loadData_size hload
  | controller hread => exact readData_size hread

lemma strncpy_length (n : ℕ) (src : List UInt8) : (strncpy n src).length = n := by
  have hle : (cString (src.take n)).length ≤ n :=
    (List.takeWhile_prefix _).length_le.trans (by rw [List.length_take]; exact min_le_left _ _)
  rw [strncpy, List.length_append, List.length_replicate]
  omega

lemma strncpy_eq_iff (data : List UInt8) :
    strncpy data.length data = data ↔ ZerosLast data := by
  rw [strncpy, List.take_length]
  induction data with
  | nil => simp [cString, ZerosLast]
  | cons b data ih =>
    by_cases hb : b = 0
    · subst hb
      have hnone : cString (0 :: data) = [] := by simp [cString]
      rw [hnone, List.nil_append, List.length_nil, Nat.sub_zero, List.length_cons,
        List.replicate_succ, List.cons.injEq]
      constructor
      · rintro ⟨-, hzeros⟩ before after hdata c hc
        have hmem : c ∈ 0 :: data := by
          rw [hdata]
          exact List.mem_append_right _ (List.mem_cons_of_mem _ hc)
        rw [← hzeros] at hmem
        rcases List.mem_cons.mp hmem with hc | hc
        · exact hc
        · exact List.eq_of_mem_replicate hc
      · intro hlast
        exact ⟨rfl, (List.eq_replicate_iff.mpr ⟨rfl, hlast [] data rfl⟩).symm⟩
    · have hsome : cString (b :: data) = b :: cString data := by simp [cString, hb]
      rw [hsome, List.cons_append, List.cons.injEq, List.length_cons, List.length_cons,
        Nat.add_sub_add_right, ih]
      constructor
      · rintro ⟨-, hlast⟩ before after hdata
        cases before with
        | nil =>
          obtain ⟨hzero, -⟩ := List.cons.inj hdata
          exact (hb hzero).elim
        | cons b' before => exact hlast before after (List.cons.inj hdata).2
      · intro hlast
        exact ⟨rfl, fun before after hdata => hlast (b :: before) after (by rw [hdata]; rfl)⟩

lemma writeRequest_sent {c d : Conn} {r : ℤ} (hword : a.dataSizeWord ≤ a.data.length)
    (hlt : a.dataSizeWord < 2 ^ 32) (hwrite : writeRequest h a c = some (r, d)) (hr : r ≠ -1) :
    d.sent = c.sent ++ h.wordBytes a.dataSizeWord ++ a.data.take a.dataSizeWord := by
  have hlen : (h.wordBytes a.dataSizeWord).length = 4 := by
    rw [h.wordBytes_eq, bigEndian_length]
  rw [writeRequest] at hwrite
  split at hwrite
  · cases hwrite
  · rename_i r₁ w hfirst
    split_ifs at hwrite with hr₁
    · obtain ⟨rfl, -⟩ := Prod.mk.inj (Option.some.inj hwrite)
      exact (hr rfl).elim
    · obtain ⟨⟨r₂, v⟩, hsecond, hres⟩ := Option.map_eq_some_iff.mp hwrite
      obtain ⟨rfl, rfl⟩ := Prod.mk.inj hres
      have hheader := writeFully_sent hlen.ge (by norm_num) hfirst hr₁
      rw [writeFully_sent hword (by omega) hsecond hr, hheader,
        List.take_of_length_le hlen.le]

lemma handle_sent {calls : HandleCalls} {t : HandleTiming} {reply : List UInt8 → List UInt8}
    {c : Conn} {pass : Pass} {bs : List UInt8} (hword : a.dataSizeWord ≤ a.data.length)
    (hlt : a.dataSizeWord < 2 ^ 32) (hsent : c.sent = [])
    (hhandle : handle h a calls t (fun bs => some (bs, reply bs)) c = some (pass, some bs)) :
    bs = h.wordBytes a.dataSizeWord ++ a.data.take a.dataSizeWord := by
  rw [handle] at hhandle
  split_ifs at hhandle
  · cases hhandle
  · cases hhandle
  · split at hhandle
    · cases hhandle
    · rename_i r d hwrite
      split_ifs at hhandle with hr
      · cases hhandle
      · obtain ⟨pass', -, hres⟩ := Option.map_eq_some_iff.mp hhandle
        obtain ⟨-, hbs⟩ := Prod.mk.inj hres
        rw [← Option.some.inj hbs, writeRequest_sent hword hlt hwrite hr, hsent,
          List.nil_append]

lemma handle_occurs (h : Host) {a : HandleArgs} (hword : a.dataSizeWord ≤ a.data.length)
    (hlt : a.dataSizeWord < 2 ^ 32) :
    ∃ c pass bs, c.sent = [] ∧
      handle h a {} {} (fun bs => some (bs, bigEndian 4 0)) c = some (pass, some bs) := by
  let c : Conn :=
    { recvs := Stream'.const (.moves 4), sends := Stream'.const (.moves 4)
      selects := Stream'.const (.moves 0) }
  have hquiet : Undisturbed c.sends := fun n => ⟨4, rfl⟩
  have hlen : (h.wordBytes a.dataSizeWord).length = 4 := by
    rw [h.wordBytes_eq, bigEndian_length]
  obtain ⟨w, hw, -, hin, hsends⟩ := writeFully_quiet hlen.ge (by norm_num) hquiet
  obtain ⟨v, hv, -, hin', -⟩ := writeFully_quiet hword (by omega) hsends
  have hrequest : writeRequest h a c = some (0, v.conn) := by
    rw [writeRequest, hw]
    simp only [hv, Option.map_some]
    rfl
  have hsame := hin.trans hin'
  have hunread : (v.conn.deliver (bigEndian 4 0)).unread = bigEndian 4 0 := by
    rw [Conn.deliver, hsame.closed]
    change v.conn.unread ++ _ = _
    rw [hsame.unread]
    rfl
  have hrecvs : Undisturbed (v.conn.deliver (bigEndian 4 0)).recvs := by
    rw [Conn.deliver, hsame.closed]
    change Undisturbed v.conn.recvs
    rw [hsame.recvs]
    exact fun n => ⟨4, rfl⟩
  have hresponse := readResponse_quiet (h := h) (a := a) (t := {}) (by norm_num) hunread hrecvs
  refine ⟨c, { ended := .again, rows := [log h 0 (a.logger {} 0)] }, v.conn.sent, rfl, ?_⟩
  simp only [handle, hrequest, hresponse, Option.map_some]
  rfl

lemma sendsPayload_iff (hsize : a.dataSize = a.data.length) (hlen : data.length = a.data.length) :
    SendsPayload h a data ↔ a.data = data ∧ data.length < 2 ^ 32 := by
  have hword : a.dataSizeWord = a.data.length % 2 ^ 32 := by
    rw [HandleArgs.dataSizeWord, hsize]
    omega
  have hle : a.dataSizeWord ≤ a.data.length := hword ▸ Nat.mod_le _ _
  have hlt : a.dataSizeWord < 2 ^ 32 := hword ▸ Nat.mod_lt _ (by norm_num)
  have hheader : (h.wordBytes a.dataSizeWord).length = 4 := by
    rw [h.wordBytes_eq, bigEndian_length]
  have hpayload : (h.wordBytes a.dataSizeWord ++ a.data.take a.dataSizeWord).drop 4 =
      a.data.take a.dataSizeWord := List.drop_left' hheader
  constructor
  · intro hsends
    obtain ⟨c, pass, bs, hsent, hhandle⟩ := handle_occurs h hle hlt
    have hbs := hsends _ _ _ _ _ _ hsent hhandle
    rw [handle_sent hle hlt hsent hhandle, hpayload] at hbs
    have hlength := congrArg List.length hbs
    rw [List.length_take, hlen] at hlength
    have hall : a.dataSizeWord = a.data.length := by omega
    refine ⟨?_, by omega⟩
    rwa [hall, List.take_length] at hbs
  · rintro ⟨rfl, hshort⟩ calls t reply c pass bs hsent hhandle
    have hall : a.dataSizeWord = a.data.length := by omega
    rw [handle_sent hle hlt hsent hhandle, hpayload, hall, List.take_length]

lemma createLoop_args {inetAddr : List UInt8 → Option ℕ} {passes : ℕ → CreateCalls} (left i : ℕ)
    (p : Pool) : ∀ t ∈ (createLoop inetAddr passes s left i p).2.running,
      t ∈ p.running ∨ ∃ addr j, t.args = handleArgs s addr j := by
  induction left generalizing i p with
  | zero => exact fun t ht => .inl ht
  | succ left ih =>
    intro t ht
    rw [createLoop] at ht
    split at ht
    · exact .inl ht
    · rename_i q hcreate
      obtain ⟨addr, rfl⟩ := createThread_some hcreate
      rcases ih (i + 1) _ t ht with hq | hq
      · rcases List.mem_append.mp hq with hq | hq
        · exact .inl hq
        · obtain rfl := List.mem_singleton.mp hq
          exact .inr ⟨addr, i, rfl⟩
      · exact .inr hq

lemma createThreads_args {inetAddr : List UInt8 → Option ℕ} {calls : StartCalls} {n : ℤ}
    {p : Pool} : ∀ t ∈ (createThreads inetAddr calls n s p).2.running,
      t ∈ p.running ∨ ∃ addr j, t.args = handleArgs s addr j := by
  rw [createThreads]
  split_ifs
  · exact fun t ht => .inl ht
  · exact createLoop_args n.toNat 0 _

theorem not_payload_faithful :
    ¬ ∀ (h : Host) (s : State) (inetAddr : List UInt8 → Option ℕ) (calls : StartCalls) (n : ℤ)
        (p : Pool), Obtained h s →
      ∀ t ∈ (createThreads inetAddr calls n s p).2.running, t ∉ p.running →
        SendsPayload h t.args s.data.cells := by
  intro hall
  let h : Host := ⟨.little, fun _ => true, fun _ => []⟩
  let conn : Conn :=
    { recvs := Stream'.const (.moves 4), sends := Stream'.const (.moves 4)
      selects := Stream'.const (.moves 0) }
  let s : State := (loadData h {} 3 [1, 0, 2] { controller := conn }).2
  have hload : loadData h {} 3 [1, 0, 2] { controller := conn } = (0, s) := rfl
  let t : Thread := ⟨0, handleArgs s {} 0⟩
  have hmem : t ∈ (createThreads (fun _ => some 0) { processors := 1 } 1 s {}).2.running :=
    List.mem_singleton_self t
  have hsends := hall h s (fun _ => some 0) { processors := 1 } 1 {} (.file hload) t hmem
    List.not_mem_nil
  have hsame := ((sendsPayload_iff (by decide) (by decide)).mp hsends).1
  exact absurd hsame (by decide)

theorem payload_faithful_iff (h : Host) (s : State) (hs : Obtained h s)
    (inetAddr : List UInt8 → Option ℕ) (calls : StartCalls) (n : ℤ) (p : Pool) :
    ∀ t ∈ (createThreads inetAddr calls n s p).2.running, t ∉ p.running →
      (SendsPayload h t.args s.data.cells ↔
        ZerosLast s.data.cells ∧ s.data.cells.length < 2 ^ 32) := by
  intro t ht hnew
  obtain ⟨addr, j, hargs⟩ := (createThreads_args t ht).resolve_left hnew
  have hsize : s.dataSize.toNat = s.data.cells.length := by
    rw [hs.size]
    exact Int.toNat_natCast _
  have hdata : t.args.data = strncpy s.data.cells.length s.data.cells := by
    rw [hargs, handleArgs, hsize]
  have hlength : t.args.data.length = s.data.cells.length := by rw [hdata, strncpy_length]
  have hword : t.args.dataSize = t.args.data.length := by
    rw [hlength, ← hs.size, hargs]
    rfl
  rw [sendsPayload_iff hword hlength.symm, hdata, strncpy_eq_iff]

theorem payload_faithful_of_text :
    let h : Host := ⟨.little, fun _ => true, fun _ => []⟩
    let conn : Conn :=
      { recvs := Stream'.const (.moves 4), sends := Stream'.const (.moves 4)
        selects := Stream'.const (.moves 0) }
    let s : State := (loadData h {} 3 [72, 105, 10] { controller := conn }).2
    SendsPayload h (handleArgs s {} 0) [72, 105, 10] := by
  intro h conn s
  have hload : loadData h {} 3 [72, 105, 10] { controller := conn } = (0, s) := rfl
  have hmem : (⟨0, handleArgs s {} 0⟩ : Thread) ∈
      (createThreads (fun _ => some 0) { processors := 1 } 1 s {}).2.running :=
    List.mem_singleton_self _
  exact (payload_faithful_iff h s (.file hload) (fun _ => some 0) { processors := 1 } 1 {} _ hmem
    List.not_mem_nil).mpr ⟨(strncpy_eq_iff _).mp (by decide), by decide⟩

end ScalableServer.Client
