import RowFlow.Component.Builtin
import RowFlow.Proofs.Chunking
import RowFlow.Proofs.RoundTrip

/-!
# Rows in files

Rows that have been written to a file, each on a line, are read back from it, unless there is one
row only and that is empty (`RowFile.read_write`). A text of several lines is no JSON, so that it is
read line by line; a text of one line is JSON, and it is this row. Therefore what appenders have put
in a file is what readers find in it (`Builtin.appended_rows_found`).
-/

namespace RowFlow

/-! ## Texts without control characters -/

namespace Json

/-- There are no control characters in a text, and so it is on one line. -/
def Printable (cs : List Char) : Prop := ∀ c ∈ cs, 32 ≤ c.toNat

theorem Printable.nil : Printable [] := nofun

theorem Printable.cons (hc : 32 ≤ c.toNat) (h : Printable cs) : Printable (c :: cs) :=
  List.forall_mem_cons.mpr ⟨hc, h⟩

theorem Printable.append (h : Printable cs) (h' : Printable cs') : Printable (cs ++ cs') :=
  List.forall_mem_append.mpr ⟨h, h'⟩

theorem Printable.of_all (h : (cs.all fun c => 32 ≤ c.toNat) = true) : Printable cs := by
  simpa [Printable] using h

theorem Printable.not_mem (h : Printable cs) : '\n' ∉ cs := fun hmem => by
  have hle := h _ hmem
  revert hle
  decide

theorem printable_escape (c : Char) : Printable (escape c) := by
  have hdigit : ∀ n : Fin 16, 32 ≤ (hexDigit n).toNat := by decide
  unfold escape
  -- the characters with a short escape come first
  iterate 7
    split
    · exact .of_all rfl
  split
  · have hupper := hdigit ⟨c.toNat / 16, by omega⟩
    have hlower := hdigit ⟨c.toNat % 16, by omega⟩
    exact .cons (by decide) (.cons (by decide) (.cons (by decide) (.cons (by decide)
      (.cons hupper (.cons hlower .nil)))))
  · exact .cons (by omega) .nil

theorem printable_quote (s : String) : Printable (quote s) := by
  refine .cons (by decide) (.append (fun c hc => ?_) (.cons (by decide) .nil))
  obtain ⟨d, -, hd⟩ := List.mem_flatMap.mp hc
  exact printable_escape d c hd

theorem printable_writeInt (n : Int) : Printable (writeInt n) := by
  intro c hc
  rcases mem_writeInt hc with rfl | hdigit
  · decide
  · have hrange : '0'.val ≤ c.val := by
      simp only [isDigit, Bool.and_eq_true, decide_eq_true_eq] at hdigit
      exact hdigit.1
    exact Nat.le_trans (by decide) hrange

theorem printable_writeItems (h : ∀ v ∈ items, Printable (write v)) :
    Printable (writeItems items) := by
  induction items with
  | nil => exact .nil
  | cons v vs ih =>
    obtain ⟨hv, hvs⟩ := List.forall_mem_cons.mp h
    cases vs with
    | nil => exact hv
    | cons w vs => exact hv.append (.cons (by decide) (ih hvs))

theorem printable_writeFields {fields : List (String × Value)}
    (h : ∀ field ∈ fields, Printable (write field.2)) : Printable (writeFields fields) := by
  induction fields with
  | nil => exact .nil
  | cons field fields ih =>
    obtain ⟨name, v⟩ := field
    obtain ⟨hv, hfields⟩ := List.forall_mem_cons.mp h
    cases fields with
    | nil => exact (printable_quote name).append (.cons (by decide) hv)
    | cons next fields =>
      exact (printable_quote name).append
        (.cons (by decide) (hv.append (.cons (by decide) (ih hfields))))

theorem Storable.printable (h : Storable depth v) : Printable (write v) := by
  induction h with
  | null => exact .of_all rfl
  | @bool _ b => cases b <;> exact .of_all rfl
  | int => exact printable_writeInt _
  | text => exact printable_quote _
  | list _ ih =>
    exact .cons (by decide) ((printable_writeItems ih).append (.cons (by decide) .nil))
  | object _ _ ih =>
    exact .cons (by decide) ((printable_writeFields ih).append (.cons (by decide) .nil))

end Json

open Json

namespace RowFile

/-! ## Reading lines -/

/-- The rows can be kept in JSON. -/
def Writable (rows : List Row) : Prop :=
  ∀ row ∈ rows, Storable Progress.deepest (.object row)

theorem lines_cons (hline : '\n' ∉ line) (rest : List Char) :
    lines (line ++ '\n' :: rest) = line :: lines rest := by
  induction line with
  | nil => rfl
  | cons c cs ih =>
    obtain ⟨hc, hcs⟩ := List.ne_and_not_mem_of_not_mem_cons hline
    rw [List.cons_append, lines, if_neg (Ne.symm hc), ih hcs]

theorem toList_write (rows : List Row) :
    (write rows).toList = rows.flatMap fun row => Json.write (.object row) ++ ['\n'] :=
  String.toList_ofList

theorem write_append (rows more : List Row) : write (rows ++ more) = write rows ++ write more := by
  rw [write, List.flatMap_append, String.ofList_append]
  rfl

/-- The lines of rows, and an empty one after the last line feed. -/
theorem lines_write (h : Writable rows) :
    lines (write rows).toList = rows.map (fun row => Json.write (.object row)) ++ [[]] := by
  rw [toList_write]
  induction rows with
  | nil => rfl
  | cons row rows ih =>
    obtain ⟨hrow, hrows⟩ := List.forall_mem_cons.mp h
    rw [List.flatMap_cons, List.append_assoc, List.singleton_append,
      lines_cons hrow.printable.not_mem, ih hrows]
    rfl

theorem not_blank_write (row : Row) :
    ((Json.write (.object row)).all Text.isBlank) = false := by
  have hopen : Text.isBlank '{' = false := by
    unfold Text.isBlank
    decide
  simp [Json.write, hopen]

theorem filter_lines_write (h : Writable rows) :
    (lines (write rows).toList).filter (fun line => !line.all Text.isBlank) =
      rows.map fun row => Json.write (.object row) := by
  have hkept : ∀ line ∈ rows.map (fun row => Json.write (.object row)),
      (!line.all Text.isBlank) = true := by
    intro line hline
    obtain ⟨row, -, rfl⟩ := List.mem_map.mp hline
    rw [not_blank_write, Bool.not_false]
  rw [lines_write h, List.filter_append, List.filter_eq_self.mpr hkept]
  exact List.append_nil _

theorem rowsOfLines_write (h : Writable rows) (number : Nat) :
    rowsOfLines number (rows.map fun row => Json.write (.object row)) = .ok rows := by
  induction rows generalizing number with
  | nil => rfl
  | cons row rows ih =>
    obtain ⟨hrow, hrows⟩ := List.forall_mem_cons.mp h
    have hline : rowOfLine number (Json.write (.object row)) = .ok row := by
      have hread := read?_print hrow
      rw [Json.print] at hread
      rw [rowOfLine, hread]
    rw [List.map_cons, rowsOfLines, hline, ih hrows]
    rfl

/-! ## Reading a whole text -/

theorem scans_write (h : Writable rows) :
    Token.Scans (write rows).toList (rows.flatMap fun row => tokens (.object row)) := by
  rw [toList_write]
  induction rows with
  | nil => exact .nil
  | cons row rows ih =>
    obtain ⟨hrow, hrows⟩ := List.forall_mem_cons.mp h
    rw [List.flatMap_cons, List.flatMap_cons, List.append_assoc]
    have hrest := (ih hrows).blank (c := '\n') rfl
    exact hrow.scans.append hrest fun _ _ => rfl

/-- Several rows, each on a line, are no JSON. -/
theorem read?_write_several (h : Writable (row :: next :: rows)) :
    Json.read? (write (row :: next :: rows)) = none := by
  obtain ⟨hrow, -⟩ := List.forall_mem_cons.mp h
  have hread := hrow.reads [] ((next :: rows).flatMap fun row => tokens (.object row))
    (Nat.le_of_eq (Nat.zero_add _))
  have hnone : readRaw? (write (row :: next :: rows)).toList = none := by
    rw [readRaw?, (scans_write h).scan?]
    exact hread
  rw [Json.read?, hnone]
  rfl

theorem read?_write_one (h : Writable [row]) :
    Json.read? (write [row]) = some (.object row) := by
  obtain ⟨hrow, -⟩ := List.forall_mem_cons.mp h
  have hscans : Token.Scans (write [row]).toList (tokens (.object row)) := by
    have hall := scans_write h
    rwa [List.flatMap_singleton] at hall
  rw [Json.read?, hrow.readRaw? hscans, Option.map_some, hrow.normal]

/-- What is read of rows that are on lines of their own: a single empty row counts as no rows. -/
def fromLines : List Row → List Row
  | [[]] => []
  | rows => rows

/-- Rows are read back from their text. -/
theorem read_write (h : Writable rows) : read (write rows) = .ok (fromLines rows) := by
  have hlines : Json.read? (write rows) = none → read (write rows) = .ok rows := by
    intro hnone
    rw [read, hnone, filter_lines_write h]
    exact rowsOfLines_write h 1
  cases rows with
  | nil => exact hlines rfl
  | cons row rows =>
    cases rows with
    | nil =>
      rw [read, read?_write_one h]
      cases row <;> rfl
    | cons next rows =>
      have hseveral : fromLines (row :: next :: rows) = row :: next :: rows := by
        cases row <;> rfl
      rw [hseveral]
      exact hlines (read?_write_several h)

/-- A text that is read as a list of rows is a file of these rows. -/
theorem read_list (h : Json.read? text = some (.ofRows rows)) : read text = .ok rows := by
  have hrows : rowsOfWhole (.ofRows rows) = .ok rows := rowsOfValue_ofRows rows
  rw [read, h]
  exact congrArg (Except.mapError Fault.rows) hrows

end RowFile

/-! ## Files -/

namespace Disk

/-- A file of this path can be written, and this is in it, or nothing if there is no file. -/
structure Accepts (d : Disk) (path : String) (content : Option String) : Prop where
  names : namesFile path = true
  parent : d.isFolder (parentOf (d.locate path)) = true
  noFolder : d.isFolder (d.locate path) = false
  found : d.files.find? (d.locate path) = content

variable {d : Disk} {content : Option String}

theorem Accepts.read? (h : d.Accepts path content) : d.read? path = content :=
  (if_pos h.names).trans h.found

theorem Accepts.append (h : d.Accepts path content) (text : String) :
    ∃ d', append path text d = (.ok (), d') ∧
      d'.Accepts path (some (content.getD "" ++ text)) := by
  have hopen : (namesFile path && d.isFolder (parentOf (d.locate path)) &&
      !d.isFolder (d.locate path)) = true := by
    rw [h.names, h.parent, h.noFolder]
    rfl
  refine ⟨_, if_pos hopen, ⟨h.names, h.parent, h.noFolder, ?_⟩⟩
  rw [← h.found]
  exact Dict.find?_insert_self ..

end Disk

variable {σ : Type}

theorem Access.exec_bind_of_ok {call : Access σ ε α} {f : α → Access σ ε β}
    (h : call.exec world = (.ok a, world')) : (call >>= f).exec world = (f a).exec world' := by
  change (match call.exec world with | (answer, world) => ExceptT.bindCont f answer world) = _
  rw [h]
  rfl

theorem Access.exec_bind_of_error {call : Access σ ε α} {f : α → Access σ ε β}
    (h : call.exec world = (.error e, world')) :
    (call >>= f).exec world = (.error e, world') := by
  change (match call.exec world with | (answer, world) => ExceptT.bindCont f answer world) = _
  rw [h]
  rfl

/-! ## Appending and reading -/

/-- The rows that a writer is given to create in one call, alone or in bulk. -/
inductive Delivery where
  | single (row : Row)
  | bulk (rows : List Row)

def Delivery.rows : Delivery → List Row
  | .single row => [row]
  | .bulk rows => rows

/-- The writer is given rows to create. -/
def BoundWriter.take (w : BoundWriter σ) : Delivery → Act σ AdapterError Unit
  | .single row => w.writeRow .create row
  | .bulk rows => w.writeBatch .create rows

/-- In a world the reader finds the rows: it answers the first, all of them, or a cursor that hands
all of them out. -/
structure BoundReader.Finds (reader : BoundReader σ) (rows : List Row) (world : World σ) :
    Prop where
  one : ∀ ctx, ∃ world', (reader.findOne ctx).exec world = (.ok rows.head?, world')
  all : ∀ ctx, ∃ world', (reader.findAll ctx).exec world = (.ok rows, world')
  batches : ∀ size ctx, ∃ bs world',
    (reader.findBatches size ctx).exec world = (.ok (.ofList bs), world') ∧ bs.flatten = rows

namespace Builtin

variable {world : World σ} {s : Site σ} {instruction configured : Option String}

theorem appendRows_exec (hpath : effectivePath instruction configured = .ok path)
    (happend : Disk.append path (RowFile.write rows) world.disk = (.ok (), d)) :
    (appendRows instruction configured rows).exec world = (.ok (), { world with disk := d }) := by
  have hanswer : (answer (effectivePath instruction configured) : Access σ _ _).exec world =
      (.ok path, world) := by
    rw [hpath]
    rfl
  have hdisk : (Access.onDisk (Disk.append path (RowFile.write rows))).exec world =
      (.ok (), { world with disk := d }) := by
    rw [Access.exec, Access.onDisk, happend]
    rfl
  rw [appendRows, Access.exec_bind_of_ok hanswer, Access.exec, Access.mapError]
  rw [Access.exec] at hdisk
  rw [hdisk]
  rfl

/-- Loading a file answers what is read of its text. -/
theorem load_exec (hpath : effectivePath instruction configured = .ok path)
    (hfile : world.disk.read? path = some text) :
    (load instruction configured).exec world =
      ((RowFile.read text).mapError fun fault => .error (.rejected (fault.message path)),
        { world with disk := world.disk.noting path }) := by
  have hanswer : (answer (effectivePath instruction configured) : Access σ _ _).exec world =
      (.ok path, world) := by
    rw [hpath]
    rfl
  have hload : ((Access.onDisk (Disk.load path)).mapError AdapterError.io).exec world =
      (.ok text, { world with disk := world.disk.noting path }) := by
    simp only [Access.exec, Access.mapError, Access.onDisk, Disk.load, hfile]
    rfl
  rw [load, Access.exec_bind_of_ok hanswer, Access.exec_bind_of_ok hload]
  cases RowFile.read text <;> rfl

/-- The reader that reads a file. -/
theorem fileReader_bind (configured instruction : Option String) (format : InstructionFormat) :
    (fileReader configured : Reader σ).bind instruction format = .ok
      { findOne := fun _ => do return (← load instruction configured).head?
        findAll := fun _ => load instruction configured
        findBatches := fun size _ => do
          return Cursor.ofList (batches size (← load instruction configured)) } := by
  cases instruction <;> rfl

/-- A reader of files finds the rows of the file that it reads. -/
theorem fileReader_finds (hpath : effectivePath instruction configured = .ok path)
    (hfile : world.disk.read? path = some text) (hrows : RowFile.read text = .ok rows)
    (format : InstructionFormat) :
    ∃ reader, (fileReader configured).bind instruction format = .ok reader ∧
      reader.Finds rows world := by
  have hload := load_exec hpath hfile
  rw [hrows] at hload
  have hflatten (size : Nat) : (batches size rows).flatten = rows :=
    (RowCursor.handsOut_batches rows size).flatten (Nat.le_max_right ..)
  refine ⟨_, fileReader_bind configured instruction format, ?_⟩
  exact {
    one := fun _ => ⟨_, Access.exec_bind_of_ok hload⟩
    all := fun _ => ⟨_, hload⟩
    batches := fun size _ => ⟨_, _, Access.exec_bind_of_ok hload, hflatten size⟩ }

/-- The appender that writes to a file. -/
theorem fileAppender_bound (configured instruction : Option String) (format : InstructionFormat) :
    (fileAppender configured : Writer σ).bound instruction format =
      .ok ⟨true, fun _ rows => (appendRows instruction configured rows).toAct,
        fun _ row => (appendRows instruction configured [row]).toAct⟩ := by
  cases instruction <;> rfl

theorem take_exec {writer : BoundWriter σ} {format : InstructionFormat}
    (hbound : (fileAppender configured).bound instruction format = .ok writer)
    (hpath : effectivePath instruction configured = .ok path)
    (haccepts : s.world.disk.Accepts path content) (delivery : Delivery) :
    ∃ t, (writer.take delivery).exec s = (.ok (), t) ∧
      t.world.disk.Accepts path (some (content.getD "" ++ RowFile.write delivery.rows)) := by
  obtain ⟨d, happend, hd⟩ := haccepts.append (RowFile.write delivery.rows)
  have hrows := appendRows_exec hpath happend
  rw [fileAppender_bound] at hbound
  cases hbound
  refine ⟨{ s with world := { s.world with disk := d } }, ?_, hd⟩
  have htoAct : ((appendRows instruction configured delivery.rows).toAct).exec s =
      (.ok (), { s with world := { s.world with disk := d } }) := by
    rw [Access.exec_toAct, hrows]
  cases delivery <;> exact htoAct

theorem takeAll_exec {writer : BoundWriter σ} {format : InstructionFormat}
    (hbound : (fileAppender configured).bound instruction format = .ok writer)
    (hpath : effectivePath instruction configured = .ok path)
    (haccepts : s.world.disk.Accepts path (some text)) (deliveries : List Delivery) :
    ∃ t, (deliveries.forM writer.take).exec s = (.ok (), t) ∧
      t.world.disk.Accepts path
        (some (text ++ RowFile.write (deliveries.flatMap Delivery.rows))) := by
  induction deliveries generalizing s text with
  | nil =>
    have hnothing : text ++ RowFile.write [] = text := String.append_empty
    exact ⟨s, rfl, hnothing.symm ▸ haccepts⟩
  | cons delivery deliveries ih =>
    obtain ⟨t, htake, ht⟩ := take_exec hbound hpath haccepts delivery
    obtain ⟨u, hrest, hu⟩ := ih ht
    refine ⟨u, (Act.exec_bind_of_ok htake).trans hrest, ?_⟩
    rw [List.flatMap_cons, RowFile.write_append, ← String.append_assoc]
    exact hu

theorem read?_list {rows : List Row}
    (h : ∀ row ∈ rows, Json.Storable (Json.Progress.deepest - 1) (.object row)) :
    Json.read? (Json.print (.ofRows rows)) = some (.ofRows rows) := by
  have hlist : Json.Storable (Json.Progress.deepest - 1 + 1) (.ofRows rows) := by
    refine .list fun v hv => ?_
    obtain ⟨row, hrow, rfl⟩ := List.mem_map.mp hv
    exact h row hrow
  exact Json.read?_print hlist

/-- **Rows that are appended to a new file are found in it.** An appender is given rows in one or
more calls. Then a reader of the same file finds all of them in order, but for a single row that is
empty: it counts as no rows. A reader of a file with one list of rows finds these rows; as such a
list they can be written if that nests no deeper than can be read. -/
theorem appended_rows_found {deliveries : List Delivery} (hne : deliveries ≠ [])
    (hrows : RowFile.Writable (deliveries.flatMap Delivery.rows))
    (haccepts : s.world.disk.Accepts path none)
    (hpath : effectivePath instruction configured = .ok path)
    (hpath' : effectivePath instruction' configured' = .ok path) (format format') :
    let rows := deliveries.flatMap Delivery.rows
    ∃ writer reader t,
      (fileAppender configured).bound instruction format = .ok writer ∧
      (fileReader configured').bind instruction' format' = .ok reader ∧
      (deliveries.forM writer.take).exec s = (.ok (), t) ∧
      reader.Finds (RowFile.fromLines rows) t.world ∧
      (∀ world text, world.disk.read? path = some text →
        Json.read? text = some (.ofRows rows) → reader.Finds rows world) ∧
      ((∀ row ∈ rows, Json.Storable (Json.Progress.deepest - 1) (.object row)) →
        Json.read? (Json.print (.ofRows rows)) = some (.ofRows rows)) := by
  intro rows
  obtain ⟨delivery, deliveries, rfl⟩ := List.exists_cons_of_ne_nil hne
  have hbound := fileAppender_bound (σ := σ) configured instruction format
  obtain ⟨t, htake, ht⟩ := take_exec hbound hpath haccepts delivery
  obtain ⟨u, hrest, hu⟩ := takeAll_exec hbound hpath ht deliveries
  have hfile : u.world.disk.read? path = some (RowFile.write rows) := by
    have hall : RowFile.write rows =
        "" ++ RowFile.write delivery.rows ++ RowFile.write (deliveries.flatMap Delivery.rows) := by
      rw [String.empty_append, ← RowFile.write_append]
      rfl
    rw [hall]
    exact hu.read?
  obtain ⟨reader, hbind, hfinds⟩ :=
    fileReader_finds hpath' hfile (RowFile.read_write hrows) format'
  refine ⟨_, reader, u, hbound, hbind, (Act.exec_bind_of_ok htake).trans hrest, hfinds,
    fun world text htext hlist => ?_, read?_list⟩
  obtain ⟨reader', hbind', hfinds'⟩ :=
    fileReader_finds hpath' htext (RowFile.read_list hlist) format'
  cases hbind.symm.trans hbind'
  exact hfinds'

/-- Rows in several calls, one of which is for no rows; there are an empty row and a line feed in a
text. -/
def sampleDeliveries : List Delivery :=
  [.single [("id", .nat 1)], .bulk [], .bulk [[], [("note", .text "two\nlines")]]]

def sampleSite : Site Unit := ⟨.empty, { state := () }⟩

theorem sampleDeliveries_writable :
    RowFile.Writable (sampleDeliveries.flatMap Delivery.rows) := by
  have hrow (name : String) {v : Value} (h : Json.Storable 0 v) :
      Json.Storable Json.Progress.deepest (.object [(name, v)]) := by
    have hone : Json.Storable 1 (.object [(name, v)]) :=
      .object (List.pairwise_singleton ..) (List.forall_mem_singleton.mpr h)
    exact hone.mono (by decide)
  have hempty : Json.Storable Json.Progress.deepest (.object []) := .object .nil nofun
  have hnumber : Json.Storable 0 (.nat 1) := .int (by decide) (by decide)
  exact List.forall_mem_cons.mpr ⟨hrow "id" hnumber, List.forall_mem_cons.mpr
    ⟨hempty, List.forall_mem_singleton.mpr (hrow "note" .text)⟩⟩

theorem appended_rows_found_sample :
    ∃ writer reader t,
      (fileAppender (some "/r")).bound none .json = .ok writer ∧
      (fileReader none).bind (some " /r ") .yaml = .ok reader ∧
      (sampleDeliveries.forM writer.take).exec sampleSite = (.ok (), t) ∧
      reader.Finds [[("id", .nat 1)], [], [("note", .text "two\nlines")]] t.world := by
  have haccepts : sampleSite.world.disk.Accepts "/r" none :=
    ⟨by cbv, by cbv, by cbv, by cbv⟩
  have hpath : effectivePath none (some "/r") = .ok "/r" := rfl
  have hpath' : effectivePath (some " /r ") none = .ok "/r" := by cbv
  obtain ⟨writer, reader, t, hwriter, hreader, htake, hfinds, -⟩ :=
    appended_rows_found (List.cons_ne_nil _ _) sampleDeliveries_writable haccepts hpath hpath'
      .json .yaml
  exact ⟨writer, reader, t, hwriter, hreader, htake, hfinds⟩

end Builtin

end RowFlow
