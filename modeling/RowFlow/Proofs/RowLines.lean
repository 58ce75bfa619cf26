import RowFlow.Proofs.RowFiles

/-!
# Rows on lines

A text that is no JSON is read line by line. If every line that is not blank holds a row then the
rows are found in the order of the lines (`RowFile.rowsOfLines_ok_iff`), and otherwise the text is
refused with the place of the first line that holds none. This line is counted among the lines that
are not blank, so that its place in the text is told only if no line before is blank
(`Builtin.read_line_by_line`).
-/

namespace RowFlow

/-! ## Carriage returns -/

namespace Json

open Token

/-- Nothing is lost when a text ends with a carriage return, and nothing is mended by it. -/
theorem scanFrom?_concat_return (mode : Mode) (cs : List Char) :
    scanFrom? mode (cs ++ ['\r']) = scanFrom? mode cs := by
  induction cs generalizing mode with
  | nil =>
    cases mode with
    | pair held high announced => cases announced <;> rfl
    | _ => rfl
  | cons c cs ih => simp only [List.cons_append, scanFrom?, ih]

theorem read?_concat_return (cs : List Char) :
    read? (String.ofList (cs ++ ['\r'])) = read? (String.ofList cs) := by
  simp only [read?, readRaw?, scan?, String.toList_ofList, scanFrom?_concat_return]

end Json

namespace RowFile

/-! ## The lines of a text -/

/-- The lines of a text. Each ends with a line feed, before which there may be a carriage return.
Only the last one may have no end. -/
inductive Lines : List Char → List (List Char) → Prop
  | nil : Lines [] []
  | unended : line ≠ [] → '\n' ∉ line → Lines line [line]
  | feed : '\n' ∉ line → line.getLast? ≠ some '\r' → Lines rest ls →
    Lines (line ++ '\n' :: rest) (line :: ls)
  | returned : '\n' ∉ line → Lines rest ls → Lines (line ++ '\r' :: '\n' :: rest) (line :: ls)

theorem exists_lines (cs : List Char) : ∃ ls, Lines cs ls := by
  induction cs with
  | nil => exact ⟨[], .nil⟩
  | cons c cs ih =>
    obtain ⟨ls, hls⟩ := ih
    by_cases hc : c = '\n'
    · subst hc
      exact ⟨_, @Lines.feed [] cs ls List.not_mem_nil (by simp) hls⟩
    -- the character belongs to the first line
    have hcons {line : List Char} (hline : '\n' ∉ line) : '\n' ∉ c :: line :=
      List.not_mem_cons_of_ne_of_not_mem (Ne.symm hc) hline
    cases hls with
    | nil => exact ⟨_, .unended (by simp) (hcons List.not_mem_nil)⟩
    | unended _ hline => exact ⟨_, .unended (by simp) (hcons hline)⟩
    | @feed line rest ls hline hlast hrest =>
      cases line with
      | nil =>
        by_cases hreturn : c = '\r'
        · subst hreturn
          exact ⟨_, @Lines.returned [] rest ls List.not_mem_nil hrest⟩
        · exact ⟨_, @Lines.feed [c] rest ls (hcons hline) (by simpa using hreturn) hrest⟩
      | cons d ds => exact ⟨_, @Lines.feed (c :: d :: ds) rest ls (hcons hline) hlast hrest⟩
    | @returned line rest ls hline hrest =>
      exact ⟨_, @Lines.returned (c :: line) rest ls (hcons hline) hrest⟩

theorem lines_of_not_mem (hline : '\n' ∉ line) : lines line = [line] := by
  induction line with
  | nil => rfl
  | cons c cs ih =>
    obtain ⟨hc, hcs⟩ := List.ne_and_not_mem_of_not_mem_cons hline
    rw [lines, if_neg (Ne.symm hc), ih hcs]

/-! ## What is on a line -/

/-- There is nothing but blanks on the line. -/
def Blank (line : List Char) : Prop := ∀ c ∈ line, Text.isBlank c = true

/-- The line is the JSON of an object, which is this row. -/
def HoldsRow (line : List Char) (row : Row) : Prop :=
  Json.read? (String.ofList line) = some (.object row)

/-- The line does not keep a text from being a file of rows. -/
def Fine (line : List Char) : Prop := Blank line ∨ ∃ row, HoldsRow line row

/-- The rows on lines, in the order of the lines. Blank lines may stand anywhere. -/
inductive Holds : List (List Char) → List Row → Prop
  | nil : Holds [] []
  | blank : Blank line → Holds ls rows → Holds (line :: ls) rows
  | row : ¬ Blank line → HoldsRow line row → Holds ls rows → Holds (line :: ls) (row :: rows)

/-- The lines that are not blank. -/
def nonblank (ls : List (List Char)) : List (List Char) :=
  ls.filter fun line => !line.all Text.isBlank

theorem nonblank_cons_of_blank (h : Blank line) (ls : List (List Char)) :
    nonblank (line :: ls) = nonblank ls :=
  List.filter_cons_of_neg (by simpa [Blank] using h)

theorem nonblank_cons_of_not_blank (h : ¬ Blank line) (ls : List (List Char)) :
    nonblank (line :: ls) = line :: nonblank ls :=
  List.filter_cons_of_pos (by simpa [Blank] using h)

theorem not_blank_cons (cs : List Char) (h : Text.isBlank c = false) : ¬ Blank (c :: cs) :=
  fun hblank => Bool.noConfusion (h.symm.trans (hblank c List.mem_cons_self))

theorem blank_concat_return : Blank (line ++ ['\r']) ↔ Blank line := by
  have hreturn : Text.isBlank '\r' = true := by
    unfold Text.isBlank
    decide
  simp [Blank, or_imp, forall_and, hreturn]

theorem rowOfLine_concat_return (number : Nat) (line : List Char) :
    rowOfLine number (line ++ ['\r']) = rowOfLine number line := by
  rw [rowOfLine, Json.read?_concat_return, rowOfLine]

/-- Lines that are read alike can stand for each other in front of lines that are read alike. -/
theorem rowsOfLines_cons_congr (hblank : Blank line' ↔ Blank line)
    (hrow : ∀ number, rowOfLine number line' = rowOfLine number line)
    (hrest : ∀ number, rowsOfLines number (nonblank ls') = rowsOfLines number (nonblank ls))
    (number : Nat) :
    rowsOfLines number (nonblank (line' :: ls')) = rowsOfLines number (nonblank (line :: ls)) := by
  by_cases h : Blank line
  · rw [nonblank_cons_of_blank h, nonblank_cons_of_blank (hblank.mpr h), hrest]
  · rw [nonblank_cons_of_not_blank h, nonblank_cons_of_not_blank (mt hblank.mp h), rowsOfLines,
      rowsOfLines, hrow, hrest]

/-- The rows of a text are those of its lines, whatever their ends. -/
theorem Lines.rowsOfLines_eq (h : Lines cs ls) (number : Nat) :
    rowsOfLines number (nonblank (lines cs)) = rowsOfLines number (nonblank ls) := by
  induction h generalizing number with
  | nil =>
    have hblank : Blank [] := List.forall_mem_nil _
    rw [lines, nonblank_cons_of_blank hblank]
  | unended _ hline => rw [lines_of_not_mem hline]
  | feed hline _ _ ih =>
    rw [lines_cons hline]
    exact rowsOfLines_cons_congr Iff.rfl (fun _ => rfl) ih number
  | @returned line rest ls hline _ ih =>
    have hreturned : '\n' ∉ line ++ ['\r'] := by simpa using hline
    have htext : line ++ '\r' :: '\n' :: rest = (line ++ ['\r']) ++ '\n' :: rest := by simp
    rw [htext, lines_cons hreturned]
    exact rowsOfLines_cons_congr blank_concat_return (rowOfLine_concat_return · line) ih number

/-- A text that is no JSON is read line by line. -/
theorem Lines.read_eq (h : Lines text.toList ls) (hnone : Json.read? text = none) :
    read text = rowsOfLines 1 (nonblank ls) := by
  rw [read, hnone]
  exact h.rowsOfLines_eq 1

/-! ## Lines that hold rows -/

theorem rowOfLine_ok_iff : rowOfLine number line = .ok row ↔ HoldsRow line row := by
  unfold rowOfLine HoldsRow
  cases Json.read? (String.ofList line) with
  | none => exact ⟨nofun, nofun⟩
  | some v =>
    cases v with
    | object fields => exact ⟨fun h => by cases h; rfl, fun h => by cases h; rfl⟩
    | _ => exact ⟨nofun, nofun⟩

theorem rowsOfLines_cons_ok_iff : rowsOfLines number (line :: ls) = .ok rows ↔
    ∃ row others, HoldsRow line row ∧ rowsOfLines (number + 1) ls = .ok others ∧
      rows = row :: others := by
  rw [rowsOfLines, bind_ok_iff]
  constructor
  · rintro ⟨row, hrow, h⟩
    obtain ⟨others, hothers, hrows⟩ := bind_ok_iff.mp h
    cases hrows
    exact ⟨row, others, rowOfLine_ok_iff.mp hrow, hothers, rfl⟩
  · rintro ⟨row, others, hrow, hothers, rfl⟩
    exact ⟨row, rowOfLine_ok_iff.mpr hrow, bind_ok_iff.mpr ⟨others, hothers, rfl⟩⟩

theorem rowsOfLines_ok_iff : rowsOfLines number (nonblank ls) = .ok rows ↔ Holds ls rows := by
  induction ls generalizing number rows with
  | nil =>
    constructor
    · intro h
      cases h
      exact .nil
    · intro h
      cases h
      rfl
  | cons line ls ih =>
    by_cases hblank : Blank line
    · rw [nonblank_cons_of_blank hblank, ih]
      constructor
      · exact .blank hblank
      · intro h
        cases h with
        | blank _ hrest => exact hrest
        | row hink => exact (hink hblank).elim
    · rw [nonblank_cons_of_not_blank hblank, rowsOfLines_cons_ok_iff]
      constructor
      · rintro ⟨row, others, hrow, hothers, rfl⟩
        exact .row hblank hrow (ih.mp hothers)
      · intro h
        cases h with
        | blank h => exact (hblank h).elim
        | row _ hrow hrest => exact ⟨_, _, hrow, ih.mpr hrest, rfl⟩

theorem exists_holds_iff : (∃ rows, Holds ls rows) ↔ ∀ line ∈ ls, Fine line := by
  induction ls with
  | nil => exact ⟨fun _ => List.forall_mem_nil _, fun _ => ⟨[], .nil⟩⟩
  | cons line ls ih =>
    rw [List.forall_mem_cons, ← ih]
    constructor
    · rintro ⟨rows, h⟩
      cases h with
      | blank hblank hrest => exact ⟨.inl hblank, _, hrest⟩
      | row _ hrow hrest => exact ⟨.inr ⟨_, hrow⟩, _, hrest⟩
    · rintro ⟨hfine, rows, hrest⟩
      by_cases hblank : Blank line
      · exact ⟨rows, .blank hblank hrest⟩
      · obtain ⟨row, hrow⟩ := hfine.resolve_left hblank
        exact ⟨row :: rows, .row hblank hrow hrest⟩

/-! ## The first line that holds no row -/

/-- The message begins with a place: a path and the number of a line. -/
def Locates (path : String) (number : Nat) (message : String) : Prop :=
  ∃ rest, message = path ++ ":" ++ toString number ++ rest ∧
    ∀ c ∈ rest.toList.head?, Json.isDigit c = false

theorem takeWhile_number (number : Nat) {rest : String}
    (h : ∀ c ∈ rest.toList.head?, Json.isDigit c = false) :
    (toString number ++ rest).toList.takeWhile Json.isDigit = Decimal.digitsOf number := by
  have hnumber : (toString number).toList = Decimal.digitsOf number := by simp [Decimal.digitsOf]
  rw [String.toList_append, hnumber,
    List.takeWhile_append_of_pos fun c hc => Json.isDigit_of_mem_digitsOf hc]
  cases hcs : rest.toList with
  | nil => exact List.append_nil _
  | cons c cs =>
    rw [hcs] at h
    rw [List.takeWhile_cons_of_neg (by simp [h c rfl]), List.append_nil]

/-- A message names one line at most. -/
theorem Locates.unique (h : Locates path number message) (h' : Locates path number' message) :
    number = number' := by
  obtain ⟨rest, rfl, hrest⟩ := h
  obtain ⟨rest', htext, hrest'⟩ := h'
  have htails : toString number ++ rest = toString number' ++ rest' := by
    simp only [String.append_assoc, String.append_right_inj] at htext
    exact htext
  have hdigits := congrArg (fun s : String => s.toList.takeWhile Json.isDigit) htails
  simp only [takeWhile_number _ hrest, takeWhile_number _ hrest'] at hdigits
  rw [← Json.natOfDigits_digitsOf number, hdigits, Json.natOfDigits_digitsOf]

theorem Fault.locates_of_rowOfLine (h : rowOfLine number line = .error fault) (path : String) :
    Locates path number (fault.message path) := by
  unfold rowOfLine at h
  split at h
  · cases h
  · rename_i v _ _
    cases h
    refine ⟨" is not a JSON object: " ++ Json.print v, ?_, by simp [Json.isDigit]⟩
    simp only [Fault.message, String.append_assoc]
    rfl
  · cases h
    exact ⟨": invalid JSON", rfl, by simp [Json.isDigit]⟩

/-- What stands before the first line that is not fine is counted without the blank lines. -/
theorem rowsOfLines_error (hbefore : ∀ l ∈ before, Fine l) (hline : ¬ Fine line)
    (after : List (List Char)) (number : Nat) :
    ∃ fault, rowOfLine (number + (nonblank before).length) line = .error fault ∧
      rowsOfLines number (nonblank (before ++ line :: after)) = .error fault := by
  induction before generalizing number with
  | nil =>
    have hblank : ¬ Blank line := fun h => hline (.inl h)
    cases hrow : rowOfLine number line with
    | ok row => exact (hline (.inr ⟨row, rowOfLine_ok_iff.mp hrow⟩)).elim
    | error fault =>
      refine ⟨fault, hrow, ?_⟩
      rw [List.nil_append, nonblank_cons_of_not_blank hblank, rowsOfLines, hrow]
      rfl
  | cons first before ih =>
    obtain ⟨hfirst, hbefore⟩ := List.forall_mem_cons.mp hbefore
    rw [List.cons_append]
    by_cases hblank : Blank first
    · rw [nonblank_cons_of_blank hblank, nonblank_cons_of_blank hblank]
      exact ih hbefore number
    · obtain ⟨row, hrow⟩ := hfirst.resolve_left hblank
      obtain ⟨fault, hfault, hrest⟩ := ih hbefore (number + 1)
      rw [nonblank_cons_of_not_blank hblank, nonblank_cons_of_not_blank hblank, List.length_cons,
        rowsOfLines, rowOfLine_ok_iff.mpr hrow, hrest, Nat.add_comm _ 1, ← Nat.add_assoc]
      exact ⟨fault, hfault, rfl⟩

theorem length_nonblank_eq_iff : (nonblank ls).length = ls.length ↔ ∀ line ∈ ls, ¬ Blank line := by
  rw [nonblank, List.length_filter_eq_length_iff]
  simp [Blank]

theorem exists_first (h : ¬ ∀ line ∈ ls, Fine line) :
    ∃ before line after, ls = before ++ line :: after ∧ (∀ l ∈ before, Fine l) ∧ ¬ Fine line := by
  induction ls with
  | nil => exact (h (List.forall_mem_nil _)).elim
  | cons line ls ih =>
    by_cases hline : Fine line
    · obtain ⟨before, other, after, rfl, hbefore, hother⟩ :=
        ih fun hall => h (List.forall_mem_cons.mpr ⟨hline, hall⟩)
      exact ⟨line :: before, other, after, rfl, List.forall_mem_cons.mpr ⟨hline, hbefore⟩, hother⟩
    · exact ⟨[], line, ls, rfl, List.forall_mem_nil _, hline⟩

end RowFile

/-! ## Readers of files -/

variable {σ : Type}

/-- In a world the reader refuses with a message, however it is asked for rows. -/
structure BoundReader.Rejects (reader : BoundReader σ) (message : String) (world : World σ) :
    Prop where
  one : ∀ ctx, ∃ world',
    (reader.findOne ctx).exec world = (.error (.error (.rejected message)), world')
  all : ∀ ctx, ∃ world',
    (reader.findAll ctx).exec world = (.error (.error (.rejected message)), world')
  batches : ∀ size ctx, ∃ world',
    (reader.findBatches size ctx).exec world = (.error (.error (.rejected message)), world')

namespace Builtin

open RowFile

variable {world : World σ} {instruction configured : Option String}

theorem fileReader_rejects (hpath : effectivePath instruction configured = .ok path)
    (hfile : world.disk.read? path = some text) (hfault : RowFile.read text = .error fault)
    (format : InstructionFormat) :
    ∃ reader, (fileReader configured).bind instruction format = .ok reader ∧
      reader.Rejects (fault.message path) world := by
  have hload := load_exec hpath hfile
  rw [hfault] at hload
  refine ⟨_, fileReader_bind configured instruction format, ?_⟩
  exact {
    one := fun _ => ⟨_, Access.exec_bind_of_error hload⟩
    all := fun _ => ⟨_, hload⟩
    batches := fun _ _ => ⟨_, Access.exec_bind_of_error hload⟩ }

/-- A reader finds rows only if they are read of the text. -/
theorem read_of_finds {reader : BoundReader σ}
    (hbind : (fileReader configured).bind instruction format = .ok reader)
    (hpath : effectivePath instruction configured = .ok path)
    (hfile : world.disk.read? path = some text) (h : reader.Finds rows world) :
    RowFile.read text = .ok rows := by
  rw [fileReader_bind] at hbind
  cases hbind
  obtain ⟨world', hall⟩ := h.all ⟨[]⟩
  have hanswer := congrArg Prod.fst ((load_exec hpath hfile).symm.trans hall)
  cases hread : RowFile.read text with
  | ok found =>
    rw [hread] at hanswer
    cases hanswer
    rfl
  | error fault =>
    rw [hread] at hanswer
    cases hanswer

theorem finds_iff_holds {reader : BoundReader σ}
    (hbind : (fileReader configured).bind instruction format = .ok reader)
    (hpath : effectivePath instruction configured = .ok path)
    (hfile : world.disk.read? path = some text) (hnone : Json.read? text = none)
    (hlines : Lines text.toList ls) : reader.Finds rows world ↔ Holds ls rows := by
  rw [← rowsOfLines_ok_iff, ← hlines.read_eq hnone]
  constructor
  · exact read_of_finds hbind hpath hfile
  · intro hrows
    obtain ⟨_, hreader, hfinds⟩ := fileReader_finds hpath hfile hrows format
    cases hbind.symm.trans hreader
    exact hfinds

/-- The first line that is not fine is the one for which a file is rejected. -/
theorem rejects_first {reader : BoundReader σ}
    (hbind : (fileReader configured).bind instruction format = .ok reader)
    (hpath : effectivePath instruction configured = .ok path)
    (hfile : world.disk.read? path = some text) (hnone : Json.read? text = none)
    (hlines : Lines text.toList (before ++ line :: after)) (hbefore : ∀ l ∈ before, Fine l)
    (hline : ¬ Fine line) : ∃ message, reader.Rejects message world ∧
      Locates path ((nonblank before).length + 1) message := by
  obtain ⟨fault, hfault, hread⟩ := rowsOfLines_error hbefore hline after 1
  rw [← hlines.read_eq hnone] at hread
  rw [Nat.add_comm] at hfault
  obtain ⟨_, hreader, hrejects⟩ := fileReader_rejects hpath hfile hread format
  cases hbind.symm.trans hreader
  exact ⟨fault.message path, hrejects, Fault.locates_of_rowOfLine hfault path⟩

/-- **A file that is no JSON is read line by line.** The reader finds rows if and only if every line
that is not blank holds one, and then it finds these, in the order of the lines. Otherwise it
rejects the file with the place of the first line that holds none. Blank lines make no difference to
what is read, and so the place does not count them: it is the number of the line in the file if and
only if no line before it is blank. -/
theorem read_line_by_line (hpath : effectivePath instruction configured = .ok path)
    (hfile : world.disk.read? path = some text) (hnone : Json.read? text = none)
    (format : InstructionFormat) :
    ∃ reader, (fileReader configured).bind instruction format = .ok reader ∧
      (∃ ls, Lines text.toList ls) ∧ ∀ ls, Lines text.toList ls →
        (∀ rows, reader.Finds rows world ↔ Holds ls rows) ∧
        ((∃ rows, reader.Finds rows world) ↔ ∀ line ∈ ls, Fine line) ∧
        (¬ (∀ line ∈ ls, Fine line) → ∃ before line after message,
          ls = before ++ line :: after ∧ (∀ l ∈ before, Fine l) ∧ ¬ Fine line ∧
          reader.Rejects message world ∧ Locates path ((nonblank before).length + 1) message ∧
          (Locates path (before.length + 1) message ↔ ∀ l ∈ before, ¬ Blank l)) ∧
        ∀ text' ls', Json.read? text' = none → Lines text'.toList ls' → nonblank ls' = nonblank ls →
          RowFile.read text' = RowFile.read text := by
  have hbind := fileReader_bind (σ := σ) configured instruction format
  refine ⟨_, hbind, exists_lines _, fun ls hlines => ?_⟩
  have hfinds : ∀ rows, BoundReader.Finds _ rows world ↔ Holds ls rows :=
    fun _ => finds_iff_holds hbind hpath hfile hnone hlines
  refine ⟨hfinds, ?_, fun h => ?_, fun text' ls' hnone' hlines' hsame => ?_⟩
  · rw [← exists_holds_iff]
    exact exists_congr hfinds
  · obtain ⟨before, line, after, rfl, hbefore, hline⟩ := exists_first h
    obtain ⟨message, hrejects, hplace⟩ :=
      rejects_first hbind hpath hfile hnone hlines hbefore hline
    refine ⟨before, line, after, message, rfl, hbefore, hline, hrejects, hplace, ?_⟩
    rw [← length_nonblank_eq_iff]
    constructor
    · intro hplace'
      have hnumber := hplace.unique hplace'
      omega
    · intro hlength
      rwa [hlength] at hplace
  · rw [hlines'.read_eq hnone', hlines.read_eq hnone, hsame]

/-- An empty row on the first line, which ends with a carriage return, and a blank second line. -/
def sampleText (third : List Char) : String :=
  String.ofList ('{' :: '}' :: '\r' :: '\n' :: ' ' :: '\n' :: third)

def sampleFile (third : List Char) : World Unit :=
  { disk := { files := [("/r", sampleText third)] }, state := () }

theorem lines_sampleText {third : List Char} (hne : third ≠ []) (hthird : '\n' ∉ third) :
    Lines (sampleText third).toList [['{', '}'], [' '], third] := by
  rw [sampleText, String.toList_ofList]
  exact @Lines.returned ['{', '}'] _ _ (by decide)
    (@Lines.feed [' '] _ _ (by decide) (by decide) (.unended hne hthird))

theorem read?_sampleFile (third : List Char) :
    (sampleFile third).disk.read? "/r" = some (sampleText third) := by
  cbv

theorem holdsRow_empty : HoldsRow ['{', '}'] [] := by
  rw [HoldsRow, Json.read?, String.toList_ofList]
  rfl

theorem not_blank_empty : ¬ Blank ['{', '}'] := not_blank_cons _ <| by
  unfold Text.isBlank
  decide

theorem blank_space : Blank [' '] := List.forall_mem_singleton.mpr (by decide +kernel)

theorem read_line_by_line_returns :
    Json.read? (sampleText ['{', '}']) = none ∧
      ∃ reader, (fileReader (some "/r")).bind none .json = .ok reader ∧
        reader.Finds [[], []] (sampleFile ['{', '}']) := by
  have hnone : Json.read? (sampleText ['{', '}']) = none := by
    rw [Json.read?, sampleText, String.toList_ofList]
    rfl
  have hholds : Holds [['{', '}'], [' '], ['{', '}']] [[], []] :=
    .row not_blank_empty holdsRow_empty
      (.blank blank_space (.row not_blank_empty holdsRow_empty .nil))
  have hpath : effectivePath none (some "/r") = .ok "/r" := rfl
  obtain ⟨reader, hbind, -, hread⟩ :=
    read_line_by_line hpath (read?_sampleFile _) hnone .json
  obtain ⟨hfinds, -⟩ := hread _ (lines_sampleText (by decide) (by decide))
  exact ⟨hnone, reader, hbind, (hfinds _).mpr hholds⟩

/-- A number on the third line is refused as if it were on the second. -/
theorem blank_line_uncounted :
    Json.read? (sampleText ['5']) = none ∧
      Lines (sampleText ['5']).toList [['{', '}'], [' '], ['5']] ∧
      Fine ['{', '}'] ∧ Fine [' '] ∧ ¬ Fine ['5'] ∧
      ∃ reader, (fileReader (some "/r")).bind none .json = .ok reader ∧
        reader.Rejects "/r:2 is not a JSON object: 5" (sampleFile ['5']) ∧
        ¬ Locates "/r" 3 "/r:2 is not a JSON object: 5" := by
  have hnone : Json.read? (sampleText ['5']) = none := by
    rw [Json.read?, sampleText, String.toList_ofList]
    rfl
  have hnumber : Json.read? (String.ofList ['5']) = some (.nat 5) := by
    rw [Json.read?, String.toList_ofList]
    rfl
  have hink : ¬ Blank ['5'] := not_blank_cons _ <| by
    unfold Text.isBlank
    decide
  have hplace : Locates "/r" 2 "/r:2 is not a JSON object: 5" :=
    ⟨" is not a JSON object: 5", by decide, by simp [Json.isDigit]⟩
  have hfine : ¬ Fine ['5'] := by
    rintro (hblank | ⟨row, hrow⟩)
    · exact hink hblank
    · cases hnumber.symm.trans hrow
  have hlines : Lines (sampleText ['5']).toList [['{', '}'], [' '], ['5']] :=
    lines_sampleText (by decide) (by decide)
  have hfault : RowFile.read (sampleText ['5']) = .error (.notAnObject 2 (.nat 5)) := by
    rw [hlines.read_eq hnone, nonblank_cons_of_not_blank not_blank_empty,
      nonblank_cons_of_blank blank_space, nonblank_cons_of_not_blank hink, rowsOfLines,
      rowOfLine_ok_iff.mpr holdsRow_empty, rowsOfLines, rowOfLine, hnumber]
    rfl
  have hpath : effectivePath none (some "/r") = .ok "/r" := rfl
  obtain ⟨reader, hbind, hrejects⟩ := fileReader_rejects hpath (read?_sampleFile _) hfault .json
  exact ⟨hnone, hlines, .inr ⟨[], holdsRow_empty⟩, .inl blank_space, hfine, reader, hbind, hrejects,
    fun hthird => by cases hplace.unique hthird⟩

end Builtin

end RowFlow
