import ScalableServer.Foundations.Interleaving
import ScalableServer.LogText
import ScalableServer.ProcessServer.Attribution
import ScalableServer.ProcessServer.LogFile

namespace ScalableServer.ProcessServer

open ScalableServer.Foundations ScalableServer.Core

variable {N : ℕ}

def LogChild.unwritten : LogChild → List UInt8
  | .unborn => logHeader
  | .running buffer => buffer
  | .logging rest buffer => buffer ++ rest
  | .exited => []

namespace LogFile

def unwritten (s : LogFile N) : Option (Fin N) → List UInt8
  | none => s.parent.getD []
  | some c => (s.children c).unwritten

def Gone (s : LogFile N) : Option (Fin N) → Prop
  | none => s.parent = none
  | some c => s.children c = .exited

def text (rowText : LogRow → List UInt8) (rows : List LogRow) : List UInt8 :=
  logHeader ++ rows.flatMap rowText

/-- The rows with the process id of a child; the parent logs none. -/
def rowsOf (rows : List LogRow) : Option (Fin N) → List LogRow
  | none => []
  | some c => rows.filter fun row => row.pid = c

structure Writes (capacity : ℕ) (rowText : LogRow → List UInt8) (s t : LogFile N)
    (p : Option (Fin N)) (out : List UInt8) (new : List LogRow) : Prop where
  file : t.file = s.file ++ out
  logged : t.logged = s.logged ++ new
  parent : ∀ buffer, t.parent = some buffer → s.parent = some buffer
  signed : ∀ row ∈ new, ∃ c : Fin N, p = some c ∧ row.pid = c
  own : out ++ t.unwritten p = s.unwritten p ++ new.flatMap rowText
  others : ∀ q ≠ p, t.unwritten q = s.unwritten q
  alive : ¬ s.Gone p
  gone : ∀ q ≠ p, t.Gone q ↔ s.Gone q
  held : out = [] ∨ t.Gone p ∨ capacity ≤ (s.unwritten p).length

end LogFile

def LogEvent.rows : LogEvent N → List LogRow
  | .wait _ row => [row]
  | _ => []

def LogEvent.Signed : LogEvent N → Prop
  | .wait c row => row.pid = c
  | _ => True

namespace LogFile

variable {capacity : ℕ} {rowText : LogRow → List UInt8} {s t : LogFile N} {e : LogEvent N}
  {rows new : List LogRow} {p : Option (Fin N)}

lemma rowsOf_append (rows new : List LogRow) (p : Option (Fin N)) :
    rowsOf (rows ++ new) p = rowsOf rows p ++ rowsOf new p := by
  cases p with
  | none => rfl
  | some c => exact List.filter_append rows new

lemma rowsOf_sublist (rows : List LogRow) (p : Option (Fin N)) : (rowsOf rows p).Sublist rows := by
  cases p with
  | none => exact List.nil_sublist rows
  | some c => exact List.filter_sublist

lemma rowsOf_self (hnew : ∀ row ∈ new, ∃ c : Fin N, p = some c ∧ row.pid = c) :
    rowsOf new p = new := by
  cases p with
  | none =>
    refine (List.eq_nil_iff_forall_not_mem.mpr fun row hrow => ?_).symm
    obtain ⟨c, hc, -⟩ := hnew row hrow
    cases hc
  | some c =>
    refine List.filter_eq_self.mpr fun row hrow => ?_
    obtain ⟨d, hd, hpid⟩ := hnew row hrow
    obtain rfl := Option.some.inj hd
    exact decide_eq_true hpid

lemma rowsOf_of_ne (hnew : ∀ row ∈ new, ∃ c : Fin N, p = some c ∧ row.pid = c)
    {q : Option (Fin N)} (hq : q ≠ p) : rowsOf new q = [] := by
  cases q with
  | none => rfl
  | some d =>
    refine List.filter_eq_nil_iff.mpr fun row hrow hd => hq ?_
    obtain ⟨c, rfl, hpid⟩ := hnew row hrow
    have hdc : c = d := Fin.ext (hpid.symm.trans (of_decide_eq_true hd))
    rw [hdc]

lemma interleaves_rowsOf (hrows : ∀ row ∈ rows, ∃ c : Fin N, row.pid = c) :
    Interleaves (rowsOf rows : Option (Fin N) → List LogRow) rows := by
  induction rows using List.reverseRecOn with
  | nil =>
    have hnil : (rowsOf [] : Option (Fin N) → List LogRow) = fun _ => [] := by
      funext p
      cases p <;> rfl
    rw [hnil]
    exact .nil
  | append_singleton rows row ih =>
    obtain ⟨c, hc⟩ := hrows row (by simp)
    have hnew : ∀ r ∈ [row], ∃ d : Fin N, some c = some d ∧ r.pid = d := by
      intro r hr
      obtain rfl := List.mem_singleton.mp hr
      exact ⟨c, rfl, hc⟩
    have hupdate : (rowsOf (rows ++ [row]) : Option (Fin N) → List LogRow) =
        Function.update (rowsOf rows) (some c) (rowsOf rows (some c) ++ [row]) := by
      funext q
      rw [rowsOf_append]
      by_cases hq : q = some c
      · rw [hq, Function.update_self, rowsOf_self hnew]
      · rw [Function.update_of_ne hq, rowsOf_of_ne hnew hq, List.append_nil]
    rw [hupdate]
    exact (ih fun r hr => hrows r (List.mem_append_left _ hr)).snoc (some c) row

lemma Writes.child {c : Fin N} {child : LogChild} {out : List UInt8} {new : List LogRow}
    (hparent : t.parent = s.parent) (hchildren : t.children = Function.update s.children c child)
    (hfile : t.file = s.file ++ out) (hlogged : t.logged = s.logged ++ new)
    (halive : s.children c ≠ .exited) (hsigned : ∀ row ∈ new, row.pid = c)
    (hown : out ++ child.unwritten = (s.children c).unwritten ++ new.flatMap rowText)
    (hheld : out = [] ∨ child = .exited ∨ capacity ≤ (s.children c).unwritten.length) :
    Writes capacity rowText s t (some c) out new := by
  have hself : t.children c = child := by rw [hchildren, Function.update_self]
  refine ⟨hfile, hlogged, fun buffer hbuffer => hparent ▸ hbuffer,
    fun row hrow => ⟨c, rfl, hsigned row hrow⟩, ?_, fun q hq => ?_, halive, fun q hq => ?_,
    hheld.imp_right (Or.imp_left hself.trans)⟩
  · rw [unwritten, hself]
    exact hown
  · cases q with
    | none => rw [unwritten, unwritten, hparent]
    | some d =>
      have hdc : d ≠ c := fun h => hq (congrArg some h)
      rw [unwritten, unwritten, hchildren, Function.update_of_ne hdc]
  · cases q with
    | none => rw [Gone, Gone, hparent]
    | some d =>
      have hdc : d ≠ c := fun h => hq (congrArg some h)
      rw [Gone, Gone, hchildren, Function.update_of_ne hdc]

lemma writes_put {b : UInt8} {rest buffer : List UInt8} {c : Fin N}
    (hchild : s.children c = .logging (b :: rest) buffer) :
    Writes capacity rowText s
      { s.setChild c (.logging rest (putChar capacity b buffer).2) with
        file := s.file ++ (putChar capacity b buffer).1 } (some c) (putChar capacity b buffer).1 [] := by
  have hput := @putChar_append capacity b buffer
  refine .child rfl rfl rfl (List.append_nil _).symm (by simp [hchild])
    (fun row hrow => absurd hrow List.not_mem_nil) ?_ ?_
  · simp only [hchild, LogChild.unwritten, List.flatMap_nil, List.append_nil]
    rw [← List.append_assoc, hput, List.append_assoc]
    rfl
  · -- what does not stay in the buffer has filled it
    rw [putChar]
    split_ifs with hlt
    · exact .inl rfl
    · refine .inr (.inr ?_)
      simp only [hchild, LogChild.unwritten, List.length_append, List.length_cons,
        List.length_nil] at hlt ⊢
      omega

lemma writes_exitParent {buffer : List UInt8} (hparent : s.parent = some buffer) :
    Writes capacity rowText s { s with file := s.file ++ buffer, parent := none } none buffer [] := by
  refine ⟨rfl, (List.append_nil _).symm, fun b hb => ?_, fun row hrow => ?_, ?_, ?_, ?_, ?_,
    .inr (.inl rfl)⟩
  · exact absurd hb.symm (Option.some_ne_none b)
  · exact absurd hrow List.not_mem_nil
  · simp [unwritten, hparent]
  · rintro (_ | c) hq
    · exact absurd rfl hq
    · rfl
  · simp [Gone, hparent]
  · rintro (_ | c) hq
    · exact absurd rfl hq
    · exact Iff.rfl

lemma writes_of_step (hheader : ∀ buffer, s.parent = some buffer → buffer = logHeader)
    (he : e.Signed) (hstep : step capacity rowText s e = some t) :
    ∃ p out, Writes capacity rowText s t p out e.rows := by
  have hnone : ∀ c : Fin N, ∀ row ∈ ([] : List LogRow), row.pid = c := by simp
  cases e with
  | fork c =>
    simp only [step] at hstep
    split at hstep
    · rename_i buffer hparent hchild
      split_ifs at hstep
      obtain rfl := Option.some.inj hstep
      refine ⟨some c, [], .child rfl rfl (List.append_nil _).symm (List.append_nil _).symm
        (by simp [hchild]) (hnone c) ?_ (.inl rfl)⟩
      simp [hchild, LogChild.unwritten, LogEvent.rows, hheader buffer hparent]
    · cases hstep
  | wait c row =>
    simp only [step] at hstep
    split at hstep
    · rename_i buffer hchild
      split_ifs at hstep
      obtain rfl := Option.some.inj hstep
      refine ⟨some c, [], .child rfl rfl (List.append_nil _).symm rfl (by simp [hchild]) ?_ ?_
        (.inl rfl)⟩
      · intro r hr
        rw [List.mem_singleton.mp hr]
        exact he
      · simp [hchild, LogChild.unwritten, LogEvent.rows]
    · cases hstep
  | put c =>
    simp only [step] at hstep
    split at hstep
    · rename_i b rest buffer hchild
      obtain rfl := Option.some.inj hstep
      exact ⟨some c, _, writes_put hchild⟩
    · cases hstep
  | post c =>
    simp only [step] at hstep
    split at hstep
    · rename_i buffer hchild
      obtain rfl := Option.some.inj hstep
      refine ⟨some c, [], .child rfl rfl (List.append_nil _).symm (List.append_nil _).symm
        (by simp [hchild]) (hnone c) ?_ (.inl rfl)⟩
      simp [hchild, LogChild.unwritten, LogEvent.rows]
    · cases hstep
  | exitChild c =>
    simp only [step] at hstep
    split at hstep
    · rename_i buffer hchild
      obtain rfl := Option.some.inj hstep
      refine ⟨some c, buffer, .child rfl rfl rfl (List.append_nil _).symm (by simp [hchild])
        (hnone c) ?_
        (.inr (.inl rfl))⟩
      simp [hchild, LogChild.unwritten, LogEvent.rows]
    · cases hstep
  | exitParent =>
    simp only [step] at hstep
    split at hstep
    · rename_i buffer hparent
      obtain rfl := Option.some.inj hstep
      exact ⟨none, buffer, writes_exitParent hparent⟩
    · cases hstep

structure Shared (rowText : LogRow → List UInt8) (s : LogFile N)
    (written : Option (Fin N) → List UInt8) : Prop where
  parent : ∀ buffer, s.parent = some buffer → buffer = logHeader
  signed : ∀ row ∈ s.logged, ∃ c : Fin N, row.pid = c
  file : Interleaves written s.file
  text : ∀ p, written p ++ s.unwritten p = text rowText (rowsOf s.logged p)

def Small (capacity : ℕ) (rowText : LogRow → List UInt8) (rows : Option (Fin N) → List LogRow) :
    Prop :=
  ∀ p, (text rowText (rows p)).length < capacity

structure Whole (s : LogFile N) (written : Option (Fin N) → List UInt8)
    (order : List (Option (Fin N))) : Prop where
  nodup : order.Nodup
  file : s.file = order.flatMap written
  gone : ∀ p, p ∈ order ↔ s.Gone p
  rest : ∀ p ∉ order, written p = []

lemma Shared.step {written : Option (Fin N) → List UInt8} {out : List UInt8}
    (hs : Shared rowText s written) (h : Writes capacity rowText s t p out new) :
    Shared rowText t (Function.update written p (written p ++ out)) where
  parent buffer hbuffer := hs.parent buffer (h.parent buffer hbuffer)
  signed row hrow := by
    rw [h.logged] at hrow
    rcases List.mem_append.mp hrow with hrow | hrow
    · exact hs.signed row hrow
    · obtain ⟨c, -, hpid⟩ := h.signed row hrow
      exact ⟨c, hpid⟩
  file := h.file ▸ hs.file.append p out
  text q := by
    have hq := hs.text q
    rw [h.logged, rowsOf_append]
    by_cases hqp : q = p
    · subst hqp
      rw [Function.update_self, List.append_assoc, h.own, ← List.append_assoc, hq,
        rowsOf_self h.signed]
      simp [LogFile.text]
    · rw [Function.update_of_ne hqp, h.others q hqp, hq, rowsOf_of_ne h.signed hqp, List.append_nil]

lemma Whole.step {written : Option (Fin N) → List UInt8} {out : List UInt8}
    {order : List (Option (Fin N))} (hs : Shared rowText s written)
    (hsmall : Small capacity rowText (rowsOf s.logged : Option (Fin N) → List LogRow))
    (hw : Whole s written order) (h : Writes capacity rowText s t p out new) :
    ∃ order, Whole t (Function.update written p (written p ++ out)) order := by
  have hp : p ∉ order := fun hmem => h.alive ((hw.gone p).mp hmem)
  have hnothing : written p = [] := hw.rest p hp
  by_cases hgone : t.Gone p
  · refine ⟨order ++ [p], ?_, ?_, fun q => ?_, fun q hq => ?_⟩
    · rw [List.nodup_append]
      refine ⟨hw.nodup, List.nodup_singleton p, fun a ha b hb => ?_⟩
      rw [List.mem_singleton.mp hb]
      rintro rfl
      exact hp ha
    · rw [List.flatMap_append, flatMap_update_of_notMem written _ hp, h.file, hw.file,
        List.flatMap_singleton, Function.update_self, hnothing, List.nil_append]
    · by_cases hqp : q = p
      · simp [hqp, hgone]
      · rw [List.mem_append, List.mem_singleton, or_iff_left hqp, h.gone q hqp, hw.gone]
    · rw [List.mem_append, List.mem_singleton, not_or] at hq
      rw [Function.update_of_ne hq.2, hw.rest q hq.1]
  · -- The process lives on, and its buffer is not full: it has written nothing out.
    have hout : out = [] := by
      rcases h.held with hout | hexit | hfull
      · exact hout
      · exact absurd hexit hgone
      · have hlt := hsmall p
        rw [← hs.text p, List.length_append] at hlt
        omega
    subst hout
    rw [List.append_nil, Function.update_eq_self]
    refine ⟨order, hw.nodup, by rw [h.file, hw.file, List.append_nil], fun q => ?_, hw.rest⟩
    by_cases hqp : q = p
    · subst hqp
      exact ⟨fun hmem => absurd hmem hp, fun hq => absurd hq hgone⟩
    · rw [hw.gone, h.gone q hqp]

lemma initial_shared (hcapacity : 256 ≤ capacity) :
    Shared rowText (initial capacity : LogFile N) fun _ => [] where
  parent buffer hbuffer := by
    rw [initial_eq hcapacity] at hbuffer
    exact (Option.some.inj hbuffer).symm
  signed row hrow := by
    rw [initial_eq hcapacity] at hrow
    exact absurd hrow (List.not_mem_nil)
  file := by
    rw [initial_eq hcapacity]
    exact .nil
  text p := by
    rw [initial_eq hcapacity]
    cases p <;> simp [unwritten, text, LogChild.unwritten, rowsOf]

lemma initial_whole (hcapacity : 256 ≤ capacity) :
    Whole (initial capacity : LogFile N) (fun _ => []) [] := by
  rw [initial_eq hcapacity]
  refine ⟨List.nodup_nil, rfl, fun p => ?_, fun _ _ => rfl⟩
  cases p <;> simp [Gone]

lemma Small.before
    (h : Small capacity rowText (rowsOf (rows ++ new) : Option (Fin N) → List LogRow)) :
    Small capacity rowText (rowsOf rows : Option (Fin N) → List LogRow) := by
  intro q
  have hq := h q
  rw [rowsOf_append] at hq
  simp only [text, List.flatMap_append, List.length_append] at hq ⊢
  omega

lemma reaches_shared (hcapacity : 256 ≤ capacity)
    (hrun : (machine capacity rowText).Reaches (fun _ e => e.Signed) (initial capacity) s) :
    ∃ written, Shared rowText s written ∧
      (Small capacity rowText (rowsOf s.logged : Option (Fin N) → List LogRow) →
        ∃ order, Whole s written order) := by
  refine hrun.invariant (I := fun s => ∃ written, Shared rowText s written ∧
      (Small capacity rowText (rowsOf s.logged : Option (Fin N) → List LogRow) →
        ∃ order, Whole s written order))
    ⟨_, initial_shared hcapacity, fun _ => ⟨[], initial_whole hcapacity⟩⟩ ?_
  rintro a e b ⟨written, hs, hw⟩ he hstep
  obtain ⟨p, out, h⟩ := writes_of_step hs.parent he hstep
  refine ⟨_, hs.step h, fun hsmall => ?_⟩
  rw [h.logged] at hsmall
  obtain ⟨order, horder⟩ := hw hsmall.before
  exact horder.step hs hsmall.before h

lemma Complete.interleaves (hcapacity : 256 ≤ capacity)
    (hrun : (machine capacity rowText).Reaches (fun _ e => e.Signed) (initial capacity) s)
    (hdone : s.Complete) : (∀ row ∈ s.logged, ∃ c : Fin N, row.pid = c) ∧
      Interleaves (fun p : Option (Fin N) => text rowText (rowsOf s.logged p)) s.file ∧
        (Small capacity rowText (rowsOf s.logged : Option (Fin N) → List LogRow) →
          ∃ order : List (Option (Fin N)), order.Nodup ∧ (∀ p, p ∈ order) ∧
            s.file = order.flatMap fun p => text rowText (rowsOf s.logged p)) := by
  obtain ⟨written, hs, hw⟩ := reaches_shared hcapacity hrun
  have hgone : ∀ p, s.Gone p := by
    rintro (_ | c)
    · exact hdone.parent
    · exact hdone.children c
  have hwritten : written = fun p => text rowText (rowsOf s.logged p) := by
    funext p
    have hnone : s.unwritten p = [] := by
      cases p with
      | none => rw [unwritten, hdone.parent, Option.getD_none]
      | some c => rw [unwritten, hdone.children c, LogChild.unwritten]
    rw [← hs.text p, hnone, List.append_nil]
  subst hwritten
  refine ⟨hs.signed, hs.file, fun hsmall => ?_⟩
  obtain ⟨order, horder⟩ := hw hsmall
  exact ⟨order, horder.nodup, fun p => (horder.gone p).mpr (hgone p), horder.file⟩

end LogFile

def LogRow.columns :
    LogRow ≃ ℕ × ℤ × ℤ × ℕ × ℕ × ℕ × List Char × List Char × ℤ × ℤ where
  toFun row := (row.pid, row.fdInChild, row.fdInParent, row.clientAddr, row.clientPort, row.bytes,
    row.startTime, row.endTime, row.elapsed, row.timeIndex)
  invFun p := ⟨p.1, p.2.1, p.2.2.1, p.2.2.2.1, p.2.2.2.2.1, p.2.2.2.2.2.1, p.2.2.2.2.2.2.1,
    p.2.2.2.2.2.2.2.1, p.2.2.2.2.2.2.2.2.1, p.2.2.2.2.2.2.2.2.2⟩
  left_inv _ := rfl
  right_inv _ := rfl

/-- `"%d,%d,%d,%s,%d,%lu,%s,%s,%lf,%lu\n"`. -/
def logFormat : Format LogRow :=
  (decimal.and (signedDecimal.and (signedDecimal.and (dotted.and (decimal.and (decimal.and
    (textColumn.and (textColumn.and (seconds.and unsignedLong.last))))))))).iso LogRow.columns

def logColumns : List (List Char) :=
  ["process id", "local file descriptor", "parent file descriptor", "ipv4 address", "port number",
    "bytes read", "start timestamp", "end timestamp", "elapsed time (s)",
    "time index"].map String.toList

def rowText (row : LogRow) : List UInt8 := encode (logFormat.text [row])

def LogRow.Logged (h : Host) (row : LogRow) : Prop :=
  ∃ pid child bytes t, row = cLogRow h pid child bytes t

def LogRow.InRange (row : LogRow) : Prop :=
  row.elapsed.natAbs < 2 ^ 52 ∧ -2 ^ 63 ≤ row.timeIndex ∧ row.timeIndex < 2 ^ 63

instance (row : LogRow) : Decidable row.InRange := inferInstanceAs (Decidable (_ ∧ _ ∧ _))

lemma logHeader_eq : logHeader = encode (table [logColumns]) := by decide +kernel

lemma LogRow.Logged.fits {h : Host} (hctime : h.PrintsTimes) {row : LogRow} (hrow : row.Logged h)
    (hrange : row.InRange) : logFormat.Fits row := by
  obtain ⟨pid, child, bytes, t, rfl⟩ := hrow
  have hplain : Plain (trimLast (h.ctime t.endTime)) := hctime.plain t.endTime
  exact ⟨trivial, trivial, trivial, trivial, trivial, trivial, hplain, hplain, hrange⟩

lemma print_ne_logColumns (row : LogRow) : logFormat.print row ≠ logColumns := by
  intro heq
  have hpid : decimalDigits row.pid = "process id".toList := (List.cons.inj heq).1
  have hdigit : 'p'.isDigit = true :=
    isDigit_of_mem (n := row.pid) (by rw [hpid]; exact List.mem_cons_self)
  exact absurd hdigit (by decide)

lemma text_eq (rows : List LogRow) :
    LogFile.text rowText rows = encode (table (logColumns :: rows.map logFormat.print)) := by
  have hrows : rows.flatMap rowText = encode (logFormat.text rows) := by
    induction rows with
    | nil => rfl
    | cons row rows ih =>
      rw [List.flatMap_cons, ih]
      simp [rowText, encode, Format.text, table]
  rw [LogFile.text, hrows, logHeader_eq]
  simp [encode, Format.text, table]

namespace LogFile

def records (s : LogFile N) : List (List (List Char)) := readTable (decode s.file)

variable {s : LogFile N} {order : List (Option (Fin N))} {rows : Option (Fin N) → List LogRow}

lemma records_eq (hfile : s.file = order.flatMap fun p => text rowText (rows p))
    (hfits : ∀ p, ∀ row ∈ rows p, logFormat.Fits row) :
    s.records = order.flatMap fun p => logColumns :: (rows p).map logFormat.print := by
  let found := order.flatMap fun p => logColumns :: (rows p).map logFormat.print
  have hmem : ∀ fields ∈ found, fields = logColumns ∨ ∃ p, ∃ row ∈ rows p,
      logFormat.print row = fields := by
    intro fields hfields
    obtain ⟨p, -, hfields⟩ := List.mem_flatMap.mp hfields
    exact (List.mem_cons.mp hfields).imp_right fun h => ⟨p, List.mem_map.mp h⟩
  have hplain : ∀ fields ∈ found, ∀ f ∈ fields, Plain f := by
    intro fields hfields
    rcases hmem fields hfields with rfl | ⟨p, row, hrow, rfl⟩
    · decide
    · exact logFormat.plain row (hfits p row hrow)
  have hne : ∀ fields ∈ found, fields ≠ [] := by
    intro fields hfields
    rcases hmem fields hfields with rfl | ⟨p, row, -, rfl⟩
    · decide
    · exact logFormat.print_ne_nil row
  have hencode : s.file = encode (table found) := by
    rw [hfile]
    simp only [text_eq, encode, table, found, List.map_flatMap, List.flatMap_assoc]
  have hread := readTable_append hne hplain []
  rw [List.append_nil] at hread
  rw [records, hencode, decode_encode (ascii_table hplain), hread]
  exact List.append_nil _

lemma filter_header (rows : List LogRow) :
    (logColumns :: rows.map logFormat.print).filter (· = logColumns) = [logColumns] ∧
      (logColumns :: rows.map logFormat.print).filter (· ≠ logColumns) =
        rows.map logFormat.print := by
  have hne : ∀ fields ∈ rows.map logFormat.print, fields ≠ logColumns := by
    intro fields hfields
    obtain ⟨row, -, rfl⟩ := List.mem_map.mp hfields
    exact print_ne_logColumns row
  constructor
  · rw [List.filter_cons_of_pos (by simp), List.filter_eq_nil_iff.mpr (by simpa using hne)]
  · rw [List.filter_cons_of_neg (by simp), List.filter_eq_self.mpr (by simpa using hne)]

lemma rows_of_records (hfits : ∀ p, ∀ row ∈ rows p, logFormat.Fits row)
    (hrecords : s.records = order.flatMap fun p => logColumns :: (rows p).map logFormat.print) :
    (s.records.filter (· = logColumns)).length = order.length ∧
      logFormat.readRows (s.records.filter (· ≠ logColumns)) = some (order.flatMap rows) := by
  rw [hrecords, List.filter_flatMap, List.filter_flatMap]
  simp only [filter_header]
  refine ⟨by simp, ?_⟩
  rw [← List.map_flatMap]
  refine Format.readRows_print fun row hrow => ?_
  obtain ⟨p, -, hrow⟩ := List.mem_flatMap.mp hrow
  exact hfits p row hrow

lemma small_of_text {rows : List LogRow} (hsmall : (text rowText rows).length < capacity) :
    Small capacity rowText (rowsOf rows : Option (Fin N) → List LogRow) := by
  intro p
  have hle := ((rowsOf_sublist rows p).flatMap rowText).length_le
  simp only [text, List.length_append] at hsmall ⊢
  omega

end LogFile

end ScalableServer.ProcessServer
