import Mathlib.Data.List.Basic
import Mathlib.Logic.Equiv.Basic
import Mathlib.Tactic

/-! Tables as text. The fields of a record are separated by commas and every record ends with a
newline; a file holds a byte for each character. A `Column` prints the values of a type as fields and
reads them back, and a `Format` does so with whole records, column by column. -/

namespace ScalableServer.Foundations

def Plain (field : List Char) : Prop := ∀ c ∈ field, c ≠ ',' ∧ c ≠ '\n' ∧ c.toNat < 128

-- Through the list: with `Batteries.Data.Char` in scope the search finds a test of every character.
instance (field : List Char) : Decidable (Plain field) :=
  List.decidableBAll (fun c => c ≠ ',' ∧ c ≠ '\n' ∧ c.toNat < 128) field

section Plain

variable {field field' : List Char} {c : Char}

lemma Plain.comma (h : Plain field) : ',' ∉ field := fun hmem => (h _ hmem).1 rfl

lemma Plain.newline (h : Plain field) : '\n' ∉ field := fun hmem => (h _ hmem).2.1 rfl

lemma Plain.append (h : Plain field) (h' : Plain field') : Plain (field ++ field') := by
  intro c hc
  exact (List.mem_append.mp hc).elim (h c) (h' c)

lemma Plain.cons (hc : c ≠ ',' ∧ c ≠ '\n' ∧ c.toNat < 128) (h : Plain field) :
    Plain (c :: field) := by
  intro d hd
  rcases List.mem_cons.mp hd with rfl | hd
  · exact hc
  · exact h d hd

end Plain

def record (fields : List (List Char)) : List Char := [','].intercalate fields

def table (records : List (List (List Char))) : List Char :=
  records.flatMap fun fields => record fields ++ ['\n']

/-- What comes after the last newline is not a record. -/
def readTable (text : List Char) : List (List (List Char)) :=
  (text.splitOn '\n').dropLast.map fun line => line.splitOn ','

section Table

variable {fields : List (List Char)} {records : List (List (List Char))} {rest : List Char}

lemma newline_notMem_record (h : ∀ f ∈ fields, Plain f) : '\n' ∉ record fields := by
  induction fields with
  | nil => exact List.not_mem_nil
  | cons f fields ih =>
    have hf := h f List.mem_cons_self
    have hfields := ih fun g hg => h g (List.mem_cons_of_mem _ hg)
    rw [record]
    by_cases hnil : fields = []
    · rw [hnil, List.intercalate_singleton]
      exact hf.newline
    · rw [List.intercalate_cons_of_ne_nil hnil]
      simp only [List.mem_append, List.mem_singleton, not_or]
      exact ⟨⟨hf.newline, by decide⟩, hfields⟩

lemma readTable_cons (hne : fields ≠ []) (h : ∀ f ∈ fields, Plain f) :
    readTable (record fields ++ '\n' :: rest) = fields :: readTable rest := by
  have hline : (record fields).splitOn ',' = fields :=
    List.splitOn_intercalate ',' (fun f hf => (h f hf).comma) hne
  rw [readTable, List.splitOn_append_cons_self_of_not_mem (newline_notMem_record h),
    List.dropLast_cons_of_ne_nil (List.splitOn_ne_nil _ _), List.map_cons, hline, readTable]

lemma readTable_append (hne : ∀ fields ∈ records, fields ≠ [])
    (h : ∀ fields ∈ records, ∀ f ∈ fields, Plain f) (rest : List Char) :
    readTable (table records ++ rest) = records ++ readTable rest := by
  induction records with
  | nil => rfl
  | cons fields records ih =>
    have hrest := ih (fun g hg => hne g (List.mem_cons_of_mem _ hg))
      fun g hg => h g (List.mem_cons_of_mem _ hg)
    rw [table, List.flatMap_cons, List.append_assoc, List.append_assoc, List.singleton_append,
      readTable_cons (hne fields List.mem_cons_self) (h fields List.mem_cons_self)]
    exact congrArg (fields :: ·) hrest

lemma ascii_record (h : ∀ f ∈ fields, Plain f) : ∀ c ∈ record fields, c.toNat < 128 := by
  induction fields with
  | nil => exact fun c hc => absurd hc List.not_mem_nil
  | cons f fields ih =>
    have hf := h f List.mem_cons_self
    have hfields := ih fun g hg => h g (List.mem_cons_of_mem _ hg)
    rw [record]
    by_cases hnil : fields = []
    · rw [hnil, List.intercalate_singleton]
      exact fun c hc => (hf c hc).2.2
    · rw [List.intercalate_cons_of_ne_nil hnil]
      intro c hc
      rcases List.mem_append.mp hc with hc | hc
      · rcases List.mem_append.mp hc with hc | hc
        · exact (hf c hc).2.2
        · rw [List.mem_singleton.mp hc]
          decide
      · exact hfields c hc

lemma ascii_table (h : ∀ fields ∈ records, ∀ f ∈ fields, Plain f) :
    ∀ c ∈ table records, c.toNat < 128 := by
  intro c hc
  obtain ⟨fields, hfields, hc⟩ := List.mem_flatMap.mp hc
  rcases List.mem_append.mp hc with hc | hc
  · exact ascii_record (h fields hfields) c hc
  · rw [List.mem_singleton.mp hc]
    decide

lemma table_cons_char (c : Char) (field : List Char) (fields : List (List Char))
    (records : List (List (List Char))) :
    table (((c :: field) :: fields) :: records) = c :: table ((field :: fields) :: records) := by
  cases fields <;> rfl

end Table

def encode (text : List Char) : List UInt8 := text.map fun c => c.toNat.toUInt8

def decode (bytes : List UInt8) : List Char := bytes.map fun b => Char.ofNat b.toNat

lemma decode_encode {text : List Char} (h : ∀ c ∈ text, c.toNat < 128) :
    decode (encode text) = text := by
  rw [decode, encode, List.map_map]
  refine (List.map_congr_left fun c hc => ?_).trans (List.map_id text)
  have hbyte : c.toNat.toUInt8.toNat = c.toNat := by
    rw [Nat.toUInt8_eq, UInt8.toNat_ofNat', Nat.mod_eq_of_lt ((h c hc).trans (by norm_num))]
  change Char.ofNat c.toNat.toUInt8.toNat = c
  rw [hbyte, Char.ofNat_toNat]

structure Column (α : Type*) where
  Fits : α → Prop
  print : α → List Char
  read : List Char → α
  plain : ∀ a, Fits a → Plain (print a)
  read_print : ∀ a, Fits a → read (print a) = a

structure Format (α : Type*) where
  width : ℕ
  Fits : α → Prop
  print : α → List (List Char)
  read : List (List Char) → Option α
  width_pos : 0 < width
  length_print : ∀ a, (print a).length = width
  plain : ∀ a, Fits a → ∀ field ∈ print a, Plain field
  read_print : ∀ a, Fits a → read (print a) = some a

variable {α β : Type*}

def Column.last (c : Column α) : Format α where
  width := 1
  Fits := c.Fits
  print a := [c.print a]
  read
    | [field] => some (c.read field)
    | _ => none
  width_pos := Nat.one_pos
  length_print _ := rfl
  plain a ha _ hfield := List.mem_singleton.mp hfield ▸ c.plain a ha
  read_print a ha := congrArg some (c.read_print a ha)

def Column.and (c : Column α) (f : Format β) : Format (α × β) where
  width := f.width + 1
  Fits p := c.Fits p.1 ∧ f.Fits p.2
  print p := c.print p.1 :: f.print p.2
  read
    | [] => none
    | field :: fields => (f.read fields).map fun b => (c.read field, b)
  width_pos := Nat.succ_pos _
  length_print p := congrArg (· + 1) (f.length_print p.2)
  plain p hp field hfield := by
    rcases List.mem_cons.mp hfield with rfl | hfield
    · exact c.plain p.1 hp.1
    · exact f.plain p.2 hp.2 field hfield
  read_print p hp := by
    simp only [f.read_print p.2 hp.2, c.read_print p.1 hp.1, Option.map_some]

namespace Format

def iso (f : Format α) (e : β ≃ α) : Format β where
  width := f.width
  Fits b := f.Fits (e b)
  print b := f.print (e b)
  read fields := (f.read fields).map e.symm
  width_pos := f.width_pos
  length_print b := f.length_print (e b)
  plain b := f.plain (e b)
  read_print b hb := by rw [f.read_print (e b) hb, Option.map_some, e.symm_apply_apply]

def text (f : Format α) (rows : List α) : List Char := table (rows.map f.print)

def readRows (f : Format α) (records : List (List (List Char))) : Option (List α) :=
  records.mapM f.read

variable {f : Format α} {rows : List α}

lemma print_ne_nil (f : Format α) (a : α) : f.print a ≠ [] := by
  intro hnil
  have hlength := f.length_print a
  rw [hnil] at hlength
  exact f.width_pos.ne hlength

lemma readTable_text (h : ∀ a ∈ rows, f.Fits a) (rest : List Char) :
    readTable (f.text rows ++ rest) = rows.map f.print ++ readTable rest := by
  refine readTable_append (fun fields hfields => ?_) (fun fields hfields => ?_) rest
  · obtain ⟨a, -, rfl⟩ := List.mem_map.mp hfields
    exact f.print_ne_nil a
  · obtain ⟨a, ha, rfl⟩ := List.mem_map.mp hfields
    exact f.plain a (h a ha)

lemma readRows_print (h : ∀ a ∈ rows, f.Fits a) : f.readRows (rows.map f.print) = some rows := by
  induction rows with
  | nil => rfl
  | cons a rows ih =>
    have hrest : (rows.map f.print).mapM f.read = some rows :=
      ih fun b hb => h b (List.mem_cons_of_mem _ hb)
    rw [readRows, List.map_cons, List.mapM_cons, f.read_print a (h a List.mem_cons_self), hrest]
    rfl

def readHeaded (f : Format α) (text : List Char) : Option (List α) :=
  (readTable text).tail?.bind f.readRows

lemma readHeaded_text {columns : List (List Char)} (hwidth : columns.length = f.width)
    (hcolumns : ∀ column ∈ columns, Plain column) (h : ∀ a ∈ rows, f.Fits a) :
    readTable (table [columns] ++ f.text rows) = columns :: rows.map f.print ∧
      (∀ record ∈ readTable (table [columns] ++ f.text rows), record.length = columns.length) ∧
        f.readHeaded (table [columns] ++ f.text rows) = some rows := by
  have hne : columns ≠ [] := List.ne_nil_of_length_pos (hwidth ▸ f.width_pos)
  have hread : readTable (table [columns] ++ f.text rows) = columns :: rows.map f.print := by
    have hrows := readTable_text h []
    rw [List.append_nil] at hrows
    rw [readTable_append (by simpa using hne) (by simpa using hcolumns), hrows]
    exact congrArg (columns :: ·) (List.append_nil _)
  refine ⟨hread, fun r hr => ?_, ?_⟩
  · rw [hread] at hr
    rcases List.mem_cons.mp hr with rfl | hr
    · rfl
    · obtain ⟨a, -, rfl⟩ := List.mem_map.mp hr
      rw [f.length_print, hwidth]
  · rw [readHeaded, hread, List.tail?_cons, Option.bind_some, readRows_print h]

end Format

end ScalableServer.Foundations
