import Mathlib.Data.List.Forall2
import RowFlow.Proofs.Cascade
import RowFlow.Proofs.RoundTrip
import RowFlow.Proofs.Substitution
import RowFlow.Proofs.Transform

/-!
# Rows from JSON templates

The template of an object has a placeholder for every field, which asks for the JSON of the value at
a path (`Template.ofFields`). Whatever texts there are in a row, and whatever the fields are named,
the values stay where they have been put: the template makes exactly the row with these fields
(`Engine.transformRow_fields`).
-/

namespace RowFlow

/-! ## Pairs of one character -/

namespace Template

/-- A pair is in one of two texts, or where they meet. -/
theorem not_pair_append {x : Char} (h : ¬ [x, x] <:+: cs) (h' : ¬ [x, x] <:+: cs')
    (hseam : cs.getLast? ≠ some x ∨ cs'.head? ≠ some x) : ¬ [x, x] <:+: cs ++ cs' := by
  induction cs with
  | nil => exact h'
  | cons c cs ih =>
    rw [List.cons_append, List.infix_cons_iff, not_or]
    constructor
    · rw [List.cons_prefix_cons]
      rintro ⟨rfl, hnext⟩
      cases cs with
      | nil =>
        refine hseam.elim (· rfl) (· ?_)
        obtain ⟨rest, hrest⟩ := hnext
        rw [List.nil_append] at hrest
        rw [← hrest]
        rfl
      | cons d cs =>
        obtain ⟨rfl, -⟩ := List.cons_prefix_cons.mp hnext
        exact h ⟨[], cs, rfl⟩
    · refine ih (fun hpair => h (List.infix_cons hpair)) ?_
      cases cs with
      | nil => exact .inl (by simp)
      | cons => exact hseam

/-! ## The template of an object -/

/-- A field whose value is at a path. -/
structure Field where
  name : String
  path : List Char

/-- The expression that asks for the JSON of the value at a path. -/
def jsonOf (path : List Char) : List Char :=
  't' :: 'o' :: 'J' :: 's' :: 'o' :: 'n' :: '(' :: (path ++ [')'])

namespace Field

/-- The name as it stands in front of the value. -/
def label (field : Field) : List Char := Json.quote field.name ++ [':', ' ']

def write (field : Field) : List Char :=
  field.label ++ '{' :: '{' :: ' ' :: (jsonOf field.path ++ [' ', '}', '}'])

/-- The name does not begin a placeholder, and the path can stand in one. -/
structure WellFormed (field : Field) : Prop where
  name : ¬ ['{', '{'] <:+: Json.quote field.name
  nonempty : field.path ≠ []
  unbroken : '\n' ∉ field.path
  unopened : '(' ∉ field.path
  unended : ')' ∉ field.path
  unclosed : ¬ ['}', '}'] <:+: field.path
  trimmed : Text.Trimmed field.path

end Field

/-- The template of an object: fields with commas between them. -/
def ofFields (fields : List Field) : String :=
  String.ofList ('{' :: ([',', ' '].intercalate (fields.map Field.write) ++ ['}']))

/-- What stands in front of the placeholder of the next field, or at the end. -/
def gap : List Field → List Char
  | [] => ['}']
  | field :: _ => ',' :: ' ' :: field.label

/-- What stands in front of the first placeholder. -/
def start : List Field → List Char
  | [] => ['{', '}']
  | field :: _ => '{' :: field.label

def slots : List Field → List Slot
  | [] => []
  | field :: fields => ⟨[' '], jsonOf field.path, [' '], gap fields⟩ :: slots fields

theorem write_cons (literal : List Char) (slot : Slot) (slots : List Slot) :
    write literal (slot :: slots) =
      literal ++ '{' :: '{' :: (slot.lead ++ (slot.expression ++ (slot.trail ++
        '}' :: '}' :: write slot.literal slots))) := by
  simp [write, Slot.write]

theorem intercalate_cons (separator first : List Char) (others : List (List Char)) :
    separator.intercalate (first :: others) = first ++ others.flatMap (separator ++ ·) := by
  induction others generalizing first with
  | nil => simp
  | cons second others ih =>
    rw [List.intercalate_cons_cons, ih]
    simp

theorem write_gap (fields : List Field) :
    write (gap fields) (slots fields) =
      fields.flatMap (fun field => [',', ' '] ++ field.write) ++ ['}'] := by
  induction fields with
  | nil => rfl
  | cons field fields ih =>
    rw [slots, write_cons, ih]
    simp [gap, Field.write]

/-- The template of an object is text and placeholders. -/
theorem ofFields_eq_write (fields : List Field) :
    ofFields fields = String.ofList (write (start fields) (slots fields)) := by
  refine congrArg String.ofList ?_
  cases fields with
  | nil => rfl
  | cons field fields =>
    rw [List.map_cons, intercalate_cons, List.flatMap_map, slots, write_cons, write_gap]
    simp [start, Field.write]

theorem Field.WellFormed.unopened_label {field : Field} (h : field.WellFormed) :
    ¬ ['{', '{'] <:+: field.label :=
  not_pair_append h.name (by decide) (.inr (by decide))

theorem getLast?_label (front : List Char) (field : Field) :
    (front ++ field.label).getLast? ≠ some '{' := by
  simp [Field.label]

theorem separated_gap {fields : List Field} (h : ∀ field ∈ fields, field.WellFormed) :
    Separated (gap fields) (slots fields) := by
  induction fields with
  | nil =>
    unfold gap slots Separated
    decide
  | cons field fields ih =>
    obtain ⟨hfield, hfields⟩ := List.forall_mem_cons.mp h
    have hopen : ¬ ['{', '{'] <:+: [',', ' '] ++ field.label :=
      not_pair_append (by decide) hfield.unopened_label (.inl (by decide))
    exact ⟨hopen, getLast?_label [',', ' '] field, ih hfields⟩

theorem separated_start {fields : List Field} (h : ∀ field ∈ fields, field.WellFormed) :
    Separated (start fields) (slots fields) := by
  cases fields with
  | nil =>
    unfold start slots Separated
    decide
  | cons field fields =>
    obtain ⟨hfield, hfields⟩ := List.forall_mem_cons.mp h
    have hopen : ¬ ['{', '{'] <:+: ['{'] ++ field.label :=
      not_pair_append (by decide) hfield.unopened_label (.inr (by simp [Field.label, Json.quote]))
    exact ⟨hopen, getLast?_label ['{'] field, separated_gap hfields⟩

theorem getLast?_jsonOf (path : List Char) : (jsonOf path).getLast? = some ')' :=
  List.getLast?_concat (l := 't' :: 'o' :: 'J' :: 's' :: 'o' :: 'n' :: '(' :: path)

theorem isBlank_space : ∀ c ∈ [' '], Text.isBlank c = true :=
  List.forall_mem_singleton.mpr (by decide +kernel)

/-- The path of a field can be asked for in a placeholder. -/
theorem Field.WellFormed.slot {field : Field} (h : field.WellFormed) (literal : List Char) :
    Slot.WellFormed ⟨[' '], jsonOf field.path, [' '], literal⟩ where
  lead := isBlank_space
  trail := isBlank_space
  nonempty := List.cons_ne_nil _ _
  unbroken := by simp [jsonOf, h.unbroken]
  unclosed := by
    have hpath : ¬ ['}', '}'] <:+: field.path ++ [')'] :=
      not_pair_append h.unclosed (by decide) (.inr (by decide))
    have hopen : ¬ ['}', '}'] <:+: ['t', 'o', 'J', 's', 'o', 'n', '('] := by decide
    exact not_pair_append hopen hpath (.inl (by decide))
  trimmed := by
    refine ⟨fun c hc => ?_, fun c hc => ?_⟩
    · cases hc
      decide +kernel
    · rw [getLast?_jsonOf] at hc
      cases hc
      exact not_isBlank_paren (.inr rfl)
  unbraced := by
    rw [getLast?_jsonOf]
    decide

theorem slots_wellFormed {fields : List Field} (h : ∀ field ∈ fields, field.WellFormed) :
    ∀ slot ∈ slots fields, slot.WellFormed := by
  induction fields with
  | nil => exact List.forall_mem_nil _
  | cons field fields ih =>
    obtain ⟨hfield, hfields⟩ := List.forall_mem_cons.mp h
    exact List.forall_mem_cons.mpr ⟨hfield.slot (gap fields), ih hfields⟩

theorem Field.WellFormed.asksJson {field : Field} (h : field.WellFormed) :
    AsksJson field.path (jsonOf field.path) :=
  ⟨[], [], by rw [List.append_nil]; rfl, List.forall_mem_nil _, List.forall_mem_nil _, h.unopened,
    h.unended, h.trimmed⟩

/-- The values that the paths of fields lead to are put in as JSON. -/
theorem render_ofFields {fields : List Field} {values : List Value}
    (h : ∀ field ∈ fields, field.WellFormed)
    (hvalues : List.Forall₂ (fun field v => lookup (String.ofList field.path) vars = .ok v)
      fields values) :
    render (ofFields fields) vars =
      .ok (String.ofList (fill (start fields) (slots fields) (values.map Json.write))) := by
  have hyields : List.Forall₂ (fun slot text => Yields vars slot.expression (.ok text))
      (slots fields) (values.map Json.write) := by
    induction hvalues with
    | nil => exact .nil
    | cons hlookup _ ih =>
      obtain ⟨hfield, hfields⟩ := List.forall_mem_cons.mp h
      exact .cons (.json hfield.asksJson hlookup) (ih hfields)
  rw [ofFields_eq_write, render_write (separated_start h) (slots_wellFormed h),
    renderPieces_ok (slots_wellFormed h) hyields]
  rfl

end Template

/-! ## Reading the object -/

namespace Json

open Template Token

/-- The tokens of the other fields of an object, each after a comma, and of its end. -/
def otherTokens : List (String × Value) → List Token
  | [] => [.closeObject]
  | (k, v) :: fields => .comma :: .text k :: .colon :: (tokens v ++ otherTokens fields)

theorem fieldTokens_cons (k : String) (v : Value) (fields : List (String × Value)) :
    fieldTokens ((k, v) :: fields) ++ [.closeObject] =
      .text k :: .colon :: (tokens v ++ otherTokens fields) := by
  induction fields generalizing k v with
  | nil => rfl
  | cons field fields ih =>
    obtain ⟨k', v'⟩ := field
    simp [fieldTokens, otherTokens, ih]

theorem scans_label (field : Field) (h : Scans cs others) :
    Scans (field.label ++ cs) (.text field.name :: .colon :: others) := by
  have hblank : Scans (' ' :: cs) others := .blank rfl h
  have hcolon : Scans (':' :: ' ' :: cs) (.colon :: others) := .punctuation rfl hblank
  rw [Field.label, List.append_assoc]
  exact .quote field.name hcolon

theorem apart_gap (fields : List Field) (slots : List Slot) (texts : List (List Char))
    (rest : List Char) : Apart (fill (gap fields) slots texts ++ rest) := by
  cases fields <;> exact apart_punctuation rfl _

/-- What follows a value is cut apart from it. -/
theorem scans_gap {fields : List Field} {values : List Value}
    (h : List.Forall₂ (fun _ v => Scans (write v) (tokens v)) fields values) :
    Scans (fill (gap fields) (slots fields) (values.map write))
      (otherTokens ((fields.map Field.name).zip values)) := by
  induction h with
  | nil => exact .punctuation rfl .nil
  | @cons field v fields values hv _ ih =>
    have hrest : Scans (write v ++ fill (gap fields) (slots fields) (values.map write))
        (tokens v ++ otherTokens ((fields.map Field.name).zip values)) :=
      hv.append ih fun rest _ => apart_gap fields _ _ rest
    rw [slots, List.map_cons, fill_cons]
    exact .punctuation rfl (.blank rfl (scans_label field hrest))

/-- The filled template is cut into the tokens of the object. -/
theorem scans_start {fields : List Field} {values : List Value}
    (h : List.Forall₂ (fun _ v => Scans (write v) (tokens v)) fields values) :
    Scans (fill (start fields) (slots fields) (values.map write))
      (tokens (.object ((fields.map Field.name).zip values))) := by
  cases h with
  | nil => exact .punctuation rfl (.punctuation rfl .nil)
  | @cons field v fields values hv hvs =>
    have hrest : Scans (write v ++ fill (gap fields) (slots fields) (values.map write))
        (tokens v ++ otherTokens ((fields.map Field.name).zip values)) :=
      hv.append (scans_gap hvs) fun rest _ => apart_gap fields _ _ rest
    rw [slots, List.map_cons, fill_cons, List.map_cons, List.zip_cons_cons, tokens,
      fieldTokens_cons]
    exact .punctuation rfl (scans_label field hrest)

/-- The filled template is read as the object with these entries, in key order. -/
theorem read?_fill {fields : List Field} {values : List Value}
    (hlength : fields.length = values.length)
    (h : ∀ v ∈ values, Storable (Progress.deepest - 1) v) :
    read? (String.ofList (fill (start fields) (slots fields) (values.map write))) =
      some (.object (Dict.ofEntries ((fields.map Field.name).zip values))) := by
  have hscans : List.Forall₂ (fun _ v => Scans (write v) (tokens v)) fields values :=
    List.forall₂_iff_zip.mpr ⟨hlength, fun hmem => (h _ (List.of_mem_zip hmem).2).scans⟩
  have hentries : ∀ entry ∈ (fields.map Field.name).zip values,
      Storable (Progress.deepest - 1) entry.2 :=
    fun entry hentry => h entry.2 (List.of_mem_zip hentry).2
  have hreads : Progress.Reads (Progress.deepest - 1 + 1)
      (.object ((fields.map Field.name).zip values)) :=
    Progress.reads_object fun entry hentry => (hentries entry hentry).reads
  rw [read?, String.toList_ofList, Progress.Reads.readRaw? hreads (scans_start hscans),
    Option.map_some, Value.normal,
    normalFields_eq fun entry hentry => (hentries entry hentry).normal]

end Json

namespace Engine

open Template

variable {σ : Type} {engine : Engine σ} {spec : TransformerSpec}

/-- **No value breaks out of a template that asks for its JSON.** If the paths of fields of
different names lead to values in a row that JSON can keep, one level deeper, then the template of
the object makes the row that has these values under the names and nothing else. -/
theorem transformRow_fields {fields : List Field} {values : List Value} {row : Row}
    (htemplate : spec.template = some (ofFields fields))
    (hfields : ∀ field ∈ fields, field.WellFormed)
    (hnames : (fields.map Field.name).Nodup)
    (hlookup : List.Forall₂ (fun field v => lookup (String.ofList field.path) row = .ok v)
      fields values)
    (hvalues : ∀ v ∈ values, Json.Storable (Json.Progress.deepest - 1) v) (s : Site σ) :
    ∃ result : Row, (engine.transformRow spec row).Ends s [] (.ok (some result)) s ∧
      Dict.Ordered result ∧ result.Perm ((fields.map Field.name).zip values) := by
  have hlength : fields.length = values.length := hlookup.length_eq
  have hrow : renderRow (ofFields fields) row =
      .ok (Dict.ofEntries ((fields.map Field.name).zip values)) :=
    renderRow_ok_iff.mpr ⟨_, render_ofFields hfields hlookup, Json.read?_fill hlength hvalues⟩
  refine ⟨Dict.ofEntries ((fields.map Field.name).zip values), ?_, ?_, ?_⟩
  · have hends : (engine.transformRow spec row).Ends s [] _ s :=
      ends_transformRow_template htemplate row s
    rwa [hrow] at hends
  · exact Dict.Ordered.insertAll List.Pairwise.nil _
  · refine Dict.perm_ofEntries ?_
    rwa [Dict.keys, List.map_fst_zip (by simp [hlength])]

/-- Names and texts with braces and quotes in them. -/
def sampleFields : List Field := [⟨"a\x7b", ['x']⟩, ⟨"\"", ['y', '.', 'z']⟩]

def sampleTexts : Row :=
  [("x", .text "\", {{y}}"), ("y", .object [("z", .list [.text "\x7d\x7d\n"])])]

/-- The template `{"a{": {{ toJson(x) }}, "\"": {{ toJson(y.z) }}}`. -/
def sampleObject : TransformerSpec where
  template := some
    "\x7b\"a\x7b\": \x7b\x7b toJson(x) \x7d\x7d, \"\\\"\": \x7b\x7b toJson(y.z) \x7d\x7d\x7d"
  function := none
  allAtOnce := false
  mergeToOriginal := false

theorem transformRow_fields_braces :
    ∃ result : Row,
      (sampleEngine.transformRow sampleObject sampleTexts).Ends sampleStart.toSite []
        (.ok (some result)) sampleStart.toSite ∧
      Dict.Ordered result ∧
      result.Perm
        [("a\x7b", .text "\", {{y}}"), ("\"", .list [.text "\x7d\x7d\n"])] := by
  have hfields : ∀ field ∈ sampleFields, field.WellFormed := by
    refine List.forall_mem_cons.mpr ⟨?_, List.forall_mem_singleton.mpr ?_⟩ <;>
    · constructor
      case trimmed => exact .of_all (by decide +kernel) (by decide +kernel)
      all_goals decide
  have hlookup : List.Forall₂
      (fun field v => lookup (String.ofList field.path) sampleTexts = .ok v) sampleFields
      [.text "\", {{y}}", .list [.text "\x7d\x7d\n"]] :=
    .cons (by cbv) (.cons (by cbv) .nil)
  have hlist : Json.Storable 1 (.list [.text "\x7d\x7d\n"]) :=
    .list (List.forall_mem_singleton.mpr .text)
  exact transformRow_fields (by cbv) hfields (by decide) hlookup
    (List.forall_mem_cons.mpr ⟨.text, List.forall_mem_singleton.mpr (hlist.mono (by decide))⟩)
    sampleStart.toSite

end Engine

end RowFlow
