import RowFlow.Proofs.Cascade
import RowFlow.Proofs.Placeholders

/-!
# Variables that are not named

Whatever a template looks like, its text or its error is determined by the variables that it names
(`Template.render_of_agreeOn`). So are the components that are named by templates, the instructions
that these are given, and the rows that templates make (`Engine.rendered_congr`).
-/

namespace RowFlow

/-- The two sets of variables have the same values, or none, under all of these names. -/
def Row.AgreeOn (names : String → Prop) (vars vars' : Row) : Prop :=
  ∀ name, names name → vars.find? name = vars'.find? name

variable {vars vars' : Row}

theorem Row.AgreeOn.mono {names others : String → Prop} (h : Row.AgreeOn names vars vars')
    (hmono : ∀ name, others name → names name) : Row.AgreeOn others vars vars' :=
  fun name hname => h name (hmono name hname)

theorem Template.render_of_agreeOn (h : Row.AgreeOn (Template.Names template) vars vars') :
    Template.render template vars = Template.render template vars' :=
  Template.render_congr fun name hname => h name (Template.mem_names_iff.mp hname)

/-- A variable that is named for a component or in its instruction, if there is one. -/
def Template.NamesEither (component : String) (instruction : Option String) (name : String) :
    Prop :=
  Names component name ∨ ∃ template ∈ instruction, Names template name

def ReaderSpec.Names (spec : ReaderSpec) : String → Prop :=
  Template.NamesEither spec.component spec.instruction

def WriterSettings.Names (settings : WriterSettings) : String → Prop :=
  Template.NamesEither settings.component settings.instruction

/-- A variable that is named in the instruction for the dead letters, whose component is fixed. -/
def DeadLetterConfig.Names (config : DeadLetterConfig) (name : String) : Prop :=
  ∃ template ∈ config.instruction, Template.Names template name

namespace Context

theorem render_of_agreeOn (h : Row.AgreeOn (Template.Names template) vars vars') :
    Context.render ⟨vars⟩ template = Context.render ⟨vars'⟩ template :=
  congrArg (Except.mapError EngineError.template) (Template.render_of_agreeOn h)

theorem renderOption_of_agreeOn {instruction : Option String}
    (h : ∀ template ∈ instruction, Row.AgreeOn (Template.Names template) vars vars') :
    Context.renderOption ⟨vars⟩ instruction = Context.renderOption ⟨vars'⟩ instruction := by
  cases instruction with
  | none => rfl
  | some template => exact congrArg (Except.map some) (render_of_agreeOn (h template rfl))

/-- A component is named and instructed alike. -/
theorem target_of_agreeOn
    (h : Row.AgreeOn (Template.NamesEither component instruction) vars vars') :
    Context.render ⟨vars⟩ component = Context.render ⟨vars'⟩ component ∧
      Context.renderOption ⟨vars⟩ instruction = Context.renderOption ⟨vars'⟩ instruction :=
  ⟨render_of_agreeOn (h.mono fun _ => .inl),
    renderOption_of_agreeOn fun template hmem => h.mono fun _ hname => .inr ⟨template, hmem, hname⟩⟩

end Context

namespace Engine

variable {σ : Type} (engine : Engine σ)

theorem prepareReader_congr {spec : ReaderSpec} (h : Row.AgreeOn spec.Names vars vars')
    (key : String) :
    engine.prepareReader key ⟨vars⟩ spec = engine.prepareReader key ⟨vars'⟩ spec := by
  obtain ⟨hname, hinstruction⟩ := Context.target_of_agreeOn h
  rw [prepareReader, prepareReader, hname, hinstruction]

theorem prepareWriter_congr {settings : WriterSettings}
    (h : Row.AgreeOn settings.Names vars vars') (key : String) :
    engine.prepareWriter key ⟨vars⟩ settings = engine.prepareWriter key ⟨vars'⟩ settings := by
  obtain ⟨hname, hinstruction⟩ := Context.target_of_agreeOn h
  rw [prepareWriter, prepareWriter, hname, hinstruction]

theorem prepareDeadLetter_congr (h : Row.AgreeOn engine.deadLetter.Names vars vars')
    (key : String) :
    engine.prepareDeadLetter key ⟨vars⟩ = engine.prepareDeadLetter key ⟨vars'⟩ := by
  have hinstruction (keep : String → Bool) :
      Context.renderOption ⟨vars⟩ (engine.deadLetter.instruction.filter keep) =
        Context.renderOption ⟨vars'⟩ (engine.deadLetter.instruction.filter keep) :=
    Context.renderOption_of_agreeOn fun template hmem =>
      h.mono fun _ hname => ⟨template, (Option.mem_filter_iff.mp hmem).1, hname⟩
  simp only [prepareDeadLetter, hinstruction]

theorem renderValue_congr (h : Row.AgreeOn (Template.Names template) vars vars') :
    renderValue template vars = renderValue template vars' := by
  rw [renderValue, renderValue, Template.render_of_agreeOn h]

theorem transformRow_congr {spec : TransformerSpec} (htemplate : spec.template = some template)
    (h : Row.AgreeOn (Template.Names template) vars vars') :
    engine.transformRow spec vars = engine.transformRow spec vars' := by
  simp only [transformRow, htemplate, renderRow, renderValue_congr h]

/-- The rows are the only variable of a template that transforms them all at once. -/
theorem transformAll_congr {spec : TransformerSpec} (htemplate : spec.template = some template)
    (hlist : ¬ Template.Names template "list") (rows rows' : List Row) :
    engine.transformAll spec rows = engine.transformAll spec rows' := by
  have hagree : Row.AgreeOn (Template.Names template) [("list", .ofRows rows)]
      [("list", .ofRows rows')] := by
    intro name hname
    have hne : "list" ≠ name := fun heq => hlist (heq ▸ hname)
    rw [Dict.find?_cons, Dict.find?_cons, if_neg hne, if_neg hne]
  simp only [transformAll, htemplate, renderValue_congr hagree]

/-- **Variables that are not named stay outside.** Whatever the templates look like, two sets of
variables make the same of them if they agree on the variables that the templates name: the same
text or the same error, the same row, and the same component with the same instruction. So what is
made tells nothing of the others, not even whether there are any. -/
theorem rendered_congr (key : String) (vars vars' : Row) :
    (∀ template, Row.AgreeOn (Template.Names template) vars vars' →
      Template.render template vars = Template.render template vars' ∧
      Context.render ⟨vars⟩ template = Context.render ⟨vars'⟩ template ∧
      ∀ spec : TransformerSpec, spec.template = some template →
        engine.transformRow spec vars = engine.transformRow spec vars') ∧
    (∀ template, ¬ Template.Names template "list" →
      ∀ spec : TransformerSpec, spec.template = some template →
        ∀ rows rows', engine.transformAll spec rows = engine.transformAll spec rows') ∧
    (∀ spec : ReaderSpec, Row.AgreeOn spec.Names vars vars' →
      engine.prepareReader key ⟨vars⟩ spec = engine.prepareReader key ⟨vars'⟩ spec) ∧
    (∀ settings : WriterSettings, Row.AgreeOn settings.Names vars vars' →
      engine.prepareWriter key ⟨vars⟩ settings = engine.prepareWriter key ⟨vars'⟩ settings) ∧
    (Row.AgreeOn engine.deadLetter.Names vars vars' →
      engine.prepareDeadLetter key ⟨vars⟩ = engine.prepareDeadLetter key ⟨vars'⟩) := by
  refine ⟨fun template h => ⟨Template.render_of_agreeOn h, Context.render_of_agreeOn h,
    fun spec htemplate => ?_⟩, fun template hlist spec htemplate => ?_, fun spec h => ?_,
    fun settings h => ?_, fun h => ?_⟩
  · exact engine.transformRow_congr htemplate h
  · exact engine.transformAll_congr htemplate hlist
  · exact engine.prepareReader_congr h key
  · exact engine.prepareWriter_congr h key
  · exact engine.prepareDeadLetter_congr h key

/-- The template `{{{a.0}}{{⏎toJson( b )}}`, with a line feed at `⏎`. The brace without a partner
belongs to the name of a variable. -/
def sampleTemplate : String := "\x7b\x7b\x7ba.0\x7d\x7d\x7b\x7b\ntoJson( b )\x7d\x7d"

def sampleNamed : Row := [("b", .text "y"), ("\x7ba", .list [.text "x"])]

def sampleSecret : Row := ("a", .text "s") :: sampleNamed

theorem pieces_sampleTemplate : Template.pieces sampleTemplate.toList =
    [.placeholder "\x7ba.0".toList, .placeholder "toJson( b )".toList] := by
  have hfirst : Template.placeholder? sampleTemplate.toList =
      some ("\x7ba.0".toList, "\x7b\x7b\ntoJson( b )\x7d\x7d".toList) := by cbv
  have hsecond : Template.placeholder? "\x7b\x7b\ntoJson( b )\x7d\x7d".toList =
      some ("toJson( b )".toList, []) := by cbv
  rw [Template.pieces_of_some hfirst, Template.pieces_of_some hsecond, Template.pieces]

theorem names_sampleTemplate : Template.names sampleTemplate = ["\x7ba", "b"] := by
  rw [Template.names, pieces_sampleTemplate]
  cbv

theorem rendered_congr_braces :
    Row.AgreeOn (Template.Names sampleTemplate) sampleNamed sampleSecret ∧
      Template.render sampleTemplate sampleNamed = .ok "x\"y\"" ∧
      Template.render sampleTemplate sampleSecret = .ok "x\"y\"" := by
  have hagree : Row.AgreeOn (Template.Names sampleTemplate) sampleNamed sampleSecret := by
    intro name hname
    have hmem := Template.mem_names_iff.mpr hname
    have hne : "a" ≠ name := by
      rintro rfl
      rw [names_sampleTemplate] at hmem
      revert hmem
      decide
    rw [sampleSecret, Dict.find?_cons, if_neg hne]
  have hrender : Template.render sampleTemplate sampleNamed = .ok "x\"y\"" := by
    rw [Template.render, pieces_sampleTemplate]
    cbv
  obtain ⟨hsame, -⟩ := (sampleEngine.rendered_congr "p" sampleNamed _).1 sampleTemplate hagree
  exact ⟨hagree, hrender, hsame ▸ hrender⟩

end Engine

end RowFlow
