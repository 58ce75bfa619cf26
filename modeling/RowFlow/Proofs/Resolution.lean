import RowFlow.Proofs.Dictionaries
import RowFlow.Proofs.Registration

/-!
# What a name stands for

Components, factories and the declarations of pipelines come to a registry in any order. What a name
stands for follows from this history alone: for a pipeline it is what the last install of that
pipeline that went well has built for the name, or else the component that was last registered under
it (`Registry.resolve_after`). An install goes no further than the first declaration, in the order
of the names, that can not be built (`Registry.Built.buildAllWith_logged_error`).
-/

namespace RowFlow

variable {σ : Type}

namespace Registry

/-- What is done to a registry. -/
inductive Operation (σ : Type) where
  | register (name : String) (component : Component σ)
  | registerFactory (name : String) (factory : Factory σ)
  /-- Builds the declarations of a pipeline, and installs them if all of them can be built. -/
  | install (key : String) (specs : Dict ComponentSpec)

/-- What has been done to a registry, newest first. -/
abbrev History (σ : Type) := List (Operation σ)

def perform (r : Registry σ) : Operation σ → Registry σ
  | .register name component => r.register name component
  | .registerFactory name factory => r.registerFactory name factory
  | .install key specs =>
    match r.buildAll specs with
    | .ok components => r.install key components
    | .error _ => r

/-- The registry after a history that began with an empty one. -/
def after : History σ → Registry σ
  | [] => {}
  | operation :: earlier => (after earlier).perform operation

/-! ## What a history says -/

namespace History

/-- The component that was last registered under a name. -/
def component? : History σ → String → Option (Component σ)
  | [], _ => none
  | .register other component :: earlier, name =>
    if other = name then some component else component? earlier name
  | _ :: earlier, name => component? earlier name

/-- The factory that was last registered under a name. -/
def factory? : History σ → String → Option (Factory σ)
  | [], _ => none
  | .registerFactory other factory :: earlier, name =>
    if other = name then some factory else factory? earlier name
  | _ :: earlier, name => factory? earlier name

/-- What a declaration is built to, or why it can not be built. -/
def built (history : History σ) (name : String) (spec : ComponentSpec) :
    Except DefinitionError (Component σ) :=
  match history.factory? spec.factory with
  | none => .error (.unknownFactory name spec.factory)
  | some factory =>
    match factory spec.config with
    | .ok component => .ok component
    | .error message => .error (.componentBuild name message)

/-- The declarations of the last install of a pipeline that went well, and what had happened
before it. -/
def lastInstall (key : String) : History σ → Option (Dict ComponentSpec × History σ)
  | [] => none
  | .install other specs :: earlier =>
    if other = key ∧ ∀ spec ∈ specs, (built earlier spec.1 spec.2).isOk then some (specs, earlier)
    else lastInstall key earlier
  | _ :: earlier => lastInstall key earlier

/-- The component that a pipeline has under a name of its own. -/
def own? (history : History σ) (key name : String) : Option (Component σ) := do
  let (specs, earlier) ← history.lastInstall key
  let spec ← specs.find? name
  (built earlier name spec).toOption

end History

/-! ## The registry after a history -/

variable {history : History σ} {r : Registry σ}

theorem find?_globals_after (history : History σ) (name : String) :
    (after history).globals.find? name = history.component? name := by
  induction history with
  | nil => rfl
  | cons operation earlier ih =>
    cases operation with
    | register other component =>
      rw [History.component?, ← ih]
      exact Dict.find?_insert ..
    | registerFactory => exact ih
    | install key specs =>
      rw [after, perform]
      split <;> exact ih

theorem find?_factories_after (history : History σ) (name : String) :
    (after history).factories.find? name = history.factory? name := by
  induction history with
  | nil => rfl
  | cons operation earlier ih =>
    cases operation with
    | register => exact ih
    | registerFactory other factory =>
      rw [History.factory?, ← ih]
      exact Dict.find?_insert ..
    | install key specs =>
      rw [after, perform]
      split <;> exact ih

/-- A registry builds a declaration as its history says. -/
theorem build_after (history : History σ) (name : String) (spec : ComponentSpec) :
    (after history).build name spec = history.built name spec := by
  rw [build, find?_factories_after, History.built]
  cases history.factory? spec.factory with
  | none => rfl
  | some factory =>
    cases h : factory spec.config <;> simp [h, Except.mapError]

/-! ## Building all declarations -/

theorem Built.isOk (h : r.Built specs components) :
    ∀ spec ∈ specs, (r.build spec.1 spec.2).isOk := by
  induction h with
  | nil => exact List.forall_mem_nil _
  | cons hbuild _ ih => exact List.forall_mem_cons.mpr ⟨by rw [hbuild]; rfl, ih⟩

/-- What a pipeline has under a name is built from its declaration of the name. -/
theorem Built.find? {specs : Dict ComponentSpec} (h : r.Built specs components) (name : String) :
    components.find? name = (specs.find? name).bind fun spec => (r.build name spec).toOption := by
  induction h with
  | nil => rfl
  | @cons other spec component specs components hbuild _ ih =>
    rw [Dict.find?_cons, Dict.find?_cons, ih]
    by_cases heq : other = name
    · subst heq
      simp [hbuild, Except.toOption]
    · simp [heq]

theorem Built.buildAll_append {before : Dict ComponentSpec} (h : r.Built before components)
    (rest : Dict ComponentSpec) :
    r.buildAll (before ++ rest) = (r.buildAll rest).map (components ++ ·) := by
  induction h with
  | nil =>
    rw [List.nil_append]
    cases r.buildAll rest <;> rfl
  | cons hbuild _ ih =>
    rw [List.cons_append, Registry.buildAll, hbuild, ih]
    cases r.buildAll rest <;> rfl

theorem Built.buildAll (h : r.Built specs components) : r.buildAll specs = .ok components := by
  simpa [Registry.buildAll, pure, Except.pure, Except.map] using h.buildAll_append []

theorem Built.buildAll_error (h : r.Built before components) (herror : r.build name spec = .error e)
    (rest : Dict ComponentSpec) : r.buildAll (before ++ (name, spec) :: rest) = .error e := by
  rw [h.buildAll_append, Registry.buildAll, herror]
  rfl

/-- Either all declarations can be built, or there is a first that can not. -/
theorem built_or_fails (r : Registry σ) (specs : Dict ComponentSpec) :
    (∃ components, r.Built specs components) ∨
      ∃ before components name spec rest e, specs = before ++ (name, spec) :: rest ∧
        r.Built before components ∧ r.build name spec = .error e := by
  induction specs with
  | nil => exact .inl ⟨[], .nil⟩
  | cons first specs ih =>
    obtain ⟨name, spec⟩ := first
    cases hbuild : r.build name spec with
    | error e => exact .inr ⟨[], [], name, spec, specs, e, rfl, .nil, hbuild⟩
    | ok component =>
      rcases ih with
        ⟨components, hbuilt⟩ | ⟨before, components, other, spec', rest, e, rfl, hbuilt, herror⟩
      · exact .inl ⟨_, .cons hbuild hbuilt⟩
      · exact .inr ⟨_, _, other, spec', rest, e, rfl, .cons hbuild hbuilt, herror⟩

/-! ## Constructors that are run in a program -/

section
variable {m : Type → Type} [Monad m]

/-- Builds the component that a name is declared as, when a constructor is run in a program, for the
declaration of a name. -/
def buildWith (construct : String → Factory σ → Value → m (Except String (Component σ)))
    (r : Registry σ) (name : String) (spec : ComponentSpec) :
    ExceptT DefinitionError m (Component σ) :=
  match r.factories.find? spec.factory with
  | none => throw (.unknownFactory name spec.factory)
  | some factory =>
    ExceptT.mk (Except.mapError (.componentBuild name) <$> construct name factory spec.config)

/-- Builds declarations in order, up to the first that fails. -/
def buildAllWith (construct : String → Factory σ → Value → m (Except String (Component σ)))
    (r : Registry σ) : Dict ComponentSpec → ExceptT DefinitionError m (Dict (Component σ))
  | [] => return []
  | (name, spec) :: specs => do
    let component ← buildWith construct r name spec
    return (name, component) :: (← buildAllWith construct r specs)

end

/-- A constructor that does nothing else than answer. -/
def answered (_name : String) (factory : Factory σ) (config : Value) :
    Id (Except String (Component σ)) := factory config

/-- A constructor that leaves the name it is run for in a log. -/
def logged (name : String) (factory : Factory σ) (config : Value) :
    StateM (List String) (Except String (Component σ)) := do
  modify (· ++ [name])
  return factory config

theorem buildWith_answered (r : Registry σ) (name : String) (spec : ComponentSpec) :
    (buildWith answered r name spec).run = r.build name spec := by
  rw [buildWith, build]
  cases r.factories.find? spec.factory <;> rfl

/-- Building is the same program for constructors that do nothing else than answer. -/
theorem buildAllWith_answered (r : Registry σ) (specs : Dict ComponentSpec) :
    (buildAllWith answered r specs).run = r.buildAll specs := by
  induction specs with
  | nil => rfl
  | cons spec specs ih =>
    obtain ⟨name, spec⟩ := spec
    rw [buildAllWith, ExceptT.run_bind, buildWith_answered, buildAll]
    cases r.build name spec with
    | error e => rfl
    | ok component =>
      show (do return (name, component) :: (← buildAllWith answered r specs) :
        ExceptT DefinitionError Id _).run = _
      rw [ExceptT.run_bind, ih]
      cases r.buildAll specs <;> rfl

theorem buildWith_logged (r : Registry σ) (name : String) (spec : ComponentSpec)
    (log : List String) : (buildWith logged r name spec).run.run log =
      (r.build name spec, log ++ if r.hasFactory spec.factory then [name] else []) := by
  rw [buildWith, build, hasFactory, Dict.contains]
  cases r.factories.find? spec.factory with
  | none => exact Prod.ext rfl (List.append_nil log).symm
  | some factory => rfl

theorem hasFactory_of_build (h : r.build name spec = .ok component) :
    r.hasFactory spec.factory = true := by
  rw [build] at h
  rw [hasFactory, Dict.contains]
  cases hfactory : r.factories.find? spec.factory with
  | none => simp [hfactory] at h
  | some factory => rfl

theorem buildAllWith_logged_cons (name : String) (spec : ComponentSpec) (specs : Dict ComponentSpec)
    (log : List String) :
    (buildAllWith logged r ((name, spec) :: specs)).run.run log =
      match (buildWith logged r name spec).run.run log with
      | (.ok component, log) =>
        let (answer, log) := (buildAllWith logged r specs).run.run log
        (answer.map ((name, component) :: ·), log)
      | (.error e, log) => (.error e, log) := by
  rw [buildAllWith, ExceptT.run_bind, StateT.run_bind]
  rcases (buildWith logged r name spec).run.run log with ⟨_ | component, log⟩
  · rfl
  · show ((do return (name, component) :: (← buildAllWith logged r specs) :
      ExceptT DefinitionError (StateM (List String)) _)).run.run log = _
    rw [ExceptT.run_bind, StateT.run_bind]
    rcases h : (buildAllWith logged r specs).run.run log with ⟨_ | components, log'⟩
    all_goals
      simp only [h]
      rfl

/-- All constructors are run if all declarations can be built. -/
theorem Built.buildAllWith_logged {specs : Dict ComponentSpec} (h : r.Built specs components)
    (log : List String) :
    (buildAllWith logged r specs).run.run log = (.ok components, log ++ specs.keys) := by
  induction h generalizing log with
  | nil => exact Prod.ext rfl (List.append_nil log).symm
  | cons hbuild _ ih =>
    rw [buildAllWith_logged_cons, buildWith_logged, hbuild, hasFactory_of_build hbuild]
    simp [ih, Dict.keys, Except.map]

/-- After a declaration that can not be built no constructor is run. -/
theorem Built.buildAllWith_logged_error {before rest : Dict ComponentSpec}
    (h : r.Built before components)
    (herror : r.build name spec = .error e) (log : List String) :
    (buildAllWith logged r (before ++ (name, spec) :: rest)).run.run log =
      (.error e, log ++ before.keys ++ if r.hasFactory spec.factory then [name] else []) := by
  induction h generalizing log with
  | nil =>
    rw [List.nil_append, buildAllWith_logged_cons, buildWith_logged, herror]
    simp [Dict.keys]
  | cons hbuild _ ih =>
    rw [List.cons_append, buildAllWith_logged_cons, buildWith_logged, hbuild,
      hasFactory_of_build hbuild]
    simp [ih, Dict.keys, Except.map]

/-! ## Histories with an install -/

/-- Building the declarations breaks off with an error, at the first of them in the order of the
names that can not be built; these are the names whose constructors have been run. -/
inductive Halts (history : History σ) (specs : Dict ComponentSpec) :
    DefinitionError → List String → Prop
  | unknown : (name, spec) ∈ specs →
    (∀ other ∈ specs, other.1 < name → (history.built other.1 other.2).isOk) →
    history.factory? spec.factory = none →
    Halts history specs (.unknownFactory name spec.factory) (specs.keys.filter (· < name))
  | refused : (name, spec) ∈ specs →
    (∀ other ∈ specs, other.1 < name → (history.built other.1 other.2).isOk) →
    history.factory? spec.factory = some factory → factory spec.config = .error message →
    Halts history specs (.componentBuild name message) (specs.keys.filter (· ≤ name))

theorem after_install_of_built (h : (after history).Built specs components) (key : String) :
    after (.install key specs :: history) = (after history).install key components := by
  rw [after, perform, h.buildAll]

theorem after_install_of_error (h : (after history).buildAll specs = .error e) (key : String) :
    after (.install key specs :: history) = after history := by
  rw [after, perform, h]

/-- A pipeline has the components of its own that the history says. -/
theorem find?_componentsOf_after (history : History σ) (key name : String) :
    ((after history).componentsOf key).find? name = history.own? key name := by
  induction history with
  | nil => rfl
  | cons operation earlier ih =>
    cases operation with
    | register => exact ih
    | registerFactory => exact ih
    | install other specs =>
      rw [History.own?, History.lastInstall]
      rcases built_or_fails (after earlier) specs with
        ⟨components, hbuilt⟩ | ⟨before, components, n, spec, rest, e, rfl, hbuilt, herror⟩
      · have hall : ∀ spec ∈ specs, (History.built earlier spec.1 spec.2).isOk := by
          simpa only [build_after] using hbuilt.isOk
        rw [after_install_of_built hbuilt, componentsOf_install]
        by_cases heq : other = key
        · rw [if_pos heq, if_pos ⟨heq, hall⟩, hbuilt.find?]
          simp only [build_after]
          rfl
        · rw [if_neg heq, if_neg (heq ·.1), ih]
          rfl
      · have hnone : ¬ ∀ declared ∈ before ++ (n, spec) :: rest,
            (History.built earlier declared.1 declared.2).isOk := fun hall => by
          have hlast := hall (n, spec) (List.mem_append_right _ List.mem_cons_self)
          rw [← build_after, herror] at hlast
          cases hlast
        rw [after_install_of_error (hbuilt.buildAll_error herror rest), if_neg (hnone ·.2), ih]
        rfl

theorem resolve_after (history : History σ) (key name : String) :
    (after history).resolve (some key) name =
      (history.own? key name).or (history.component? name) := by
  rw [resolve, Option.bind_some, find?_componentsOf_after, find?_globals_after]
  cases history.own? key name <;> rfl

theorem resolve_none_after (history : History σ) (name : String) :
    (after history).resolve none name = history.component? name :=
  find?_globals_after history name

/-- The names of the declarations before one in the middle, and with it. -/
theorem keys_filter_lt {before rest : Dict ComponentSpec}
    (h : Dict.Ordered (before ++ (name, spec) :: rest)) :
    (Dict.keys (before ++ (name, spec) :: rest)).filter (· < name) = before.keys ∧
      (Dict.keys (before ++ (name, spec) :: rest)).filter (· ≤ name) = before.keys ++ [name] := by
  obtain ⟨-, hrest, hbefore⟩ := List.pairwise_append.mp h
  have hsmaller : ∀ key ∈ before.keys, key < name := by
    simpa [Dict.keys] using fun key spec' hmem => hbefore (key, spec') hmem _ List.mem_cons_self
  have hlarger : ∀ key ∈ Dict.keys rest, name < key := by
    simpa [Dict.keys] using fun key spec' hmem =>
      (List.pairwise_cons.mp hrest).1 (key, spec') hmem
  have hkeys : Dict.keys (before ++ (name, spec) :: rest) =
      before.keys ++ name :: Dict.keys rest := List.map_append
  rw [hkeys, List.filter_append, List.filter_append]
  constructor
  · rw [List.filter_eq_self.mpr fun key hkey => decide_eq_true (hsmaller key hkey),
      List.filter_cons_of_neg (by simp),
      List.filter_eq_nil_iff.mpr fun key hkey hlt =>
        lt_asymm (hlarger key hkey) (of_decide_eq_true hlt),
      List.append_nil]
  · rw [List.filter_eq_self.mpr fun key hkey => decide_eq_true (le_of_lt (hsmaller key hkey)),
      List.filter_cons_of_pos (by simp),
      List.filter_eq_nil_iff.mpr fun key hkey hle =>
        not_le_of_gt (hlarger key hkey) (of_decide_eq_true hle)]

theorem Built.halts {before rest : Dict ComponentSpec} (h : (after history).Built before components)
    (herror : (after history).build name spec = .error e)
    (hordered : Dict.Ordered (before ++ (name, spec) :: rest)) :
    Halts history (before ++ (name, spec) :: rest) e
      (before.keys ++ if (after history).hasFactory spec.factory then [name] else []) := by
  obtain ⟨hlt, hle⟩ := keys_filter_lt hordered
  have hmem : (name, spec) ∈ before ++ (name, spec) :: rest :=
    List.mem_append_right _ List.mem_cons_self
  have hearlier : ∀ other ∈ before ++ (name, spec) :: rest, other.1 < name →
      (history.built other.1 other.2).isOk := by
    intro other hother hsmaller
    rw [← build_after]
    refine h.isOk other ((List.mem_append.mp hother).resolve_right fun hrest => ?_)
    have hfrom := (List.pairwise_append.mp hordered).2.1
    rcases List.mem_cons.mp hrest with rfl | hrest
    · exact lt_irrefl _ hsmaller
    · exact lt_asymm hsmaller ((List.pairwise_cons.mp hfrom).1 other hrest)
  rw [build_after, History.built] at herror
  rw [hasFactory, Dict.contains, find?_factories_after]
  cases hfactory : history.factory? spec.factory with
  | none =>
    simp only [hfactory] at herror
    cases herror
    have hhalts := Halts.unknown hmem hearlier hfactory
    rwa [hlt, ← List.append_nil before.keys] at hhalts
  | some factory =>
    simp only [hfactory] at herror
    cases hanswer : factory spec.config with
    | ok component => simp [hanswer] at herror
    | error message =>
      simp only [hanswer] at herror
      cases herror
      have hhalts := Halts.refused hmem hearlier hfactory hanswer
      rwa [hle] at hhalts

/-- **What a name stands for follows from the history.** For a pipeline it is the component that its
last install that went well has built for the name, or else the one last registered under the name;
without a pipeline it is the latter. An install that fails changes nothing and runs no constructor
after the declaration it fails with: so it is told by the log, if the same program is built with
constructors that keep one. No install changes what names stand for elsewhere. -/
theorem names_settled (history : History σ) (key : String) {specs : Dict ComponentSpec}
    (hordered : specs.Ordered) :
    (∀ pipeline name, (after history).resolve (some pipeline) name =
      (history.own? pipeline name).or (history.component? name)) ∧
    (∀ name, (after history).resolve none name = history.component? name) ∧
    (buildAllWith answered (after history) specs).run = (after history).buildAll specs ∧
    (∃ runs, (buildAllWith logged (after history) specs).run.run [] =
        ((after history).buildAll specs, runs) ∧
      match (after history).buildAll specs with
      | .error e => Halts history specs e runs ∧
        after (.install key specs :: history) = after history
      | .ok _ => runs = specs.keys ∧ ∀ spec ∈ specs, (history.built spec.1 spec.2).isOk) ∧
    (∀ other name, other ≠ key → (after (.install key specs :: history)).resolve (some other) name =
      (after history).resolve (some other) name) ∧
    ∀ name, (after (.install key specs :: history)).resolve none name =
      (after history).resolve none name := by
  refine ⟨resolve_after history, resolve_none_after history, buildAllWith_answered _ specs, ?_,
    fun other name hother => ?_, fun name => ?_⟩
  · rcases built_or_fails (after history) specs with
      ⟨components, hbuilt⟩ | ⟨before, components, name, spec, rest, e, rfl, hbuilt, herror⟩
    · rw [hbuilt.buildAll]
      refine ⟨specs.keys, hbuilt.buildAllWith_logged [], rfl, ?_⟩
      simpa only [build_after] using hbuilt.isOk
    · have hfails := hbuilt.buildAll_error herror rest
      rw [hfails]
      exact ⟨_, hbuilt.buildAllWith_logged_error herror [], hbuilt.halts herror hordered,
        after_install_of_error hfails key⟩
  · rw [resolve_after, resolve_after, History.own?, History.lastInstall,
      if_neg fun h => hother h.1.symm]
    rfl
  · rw [resolve_none_after, resolve_none_after]
    rfl

/-- A factory that refuses to build from a text. -/
def sampleFactory : Factory Unit
  | .text message => .error message
  | _ => .ok (.runnable (pure ()))

def sampleReader : Component Unit := .reader ⟨fun _ _ => .error (.missing "source")⟩

/-- A pipeline hides a reader by a component of its own; then a second install of it fails. -/
def sampleHistory : History Unit :=
  [.install "p" [("audit", ⟨"steps", .text "too late"⟩)],
    .install "p" [("audit", ⟨"steps", .null⟩)],
    .register "audit" sampleReader,
    .registerFactory "steps" sampleFactory]

/-- The second of three declarations is of a factory that is not known. -/
def sampleDeclarations : Dict ComponentSpec :=
  [("audit", ⟨"steps", .null⟩), ("check", ⟨"nowhere", .null⟩), ("load", ⟨"steps", .null⟩)]

theorem names_settled_failing :
    sampleDeclarations.Ordered ∧
      ((after sampleHistory).resolve (some "p") "audit").map Component.kind = some "runnable" ∧
      ((after sampleHistory).resolve (some "p.x") "audit").map Component.kind = some "reader" ∧
      after (.install "p" sampleDeclarations :: sampleHistory) = after sampleHistory ∧
      Halts sampleHistory sampleDeclarations (.unknownFactory "check" "nowhere") ["audit"] := by
  have hordered : sampleDeclarations.Ordered := by
    unfold Dict.Ordered
    decide +kernel
  obtain ⟨hresolve, -, -, ⟨runs, hrun, hend⟩, -⟩ := names_settled sampleHistory "p" hordered
  have hfails : (after sampleHistory).buildAll sampleDeclarations =
      .error (.unknownFactory "check" "nowhere") := rfl
  have hlog : (buildAllWith logged (after sampleHistory) sampleDeclarations).run.run [] =
      (.error (.unknownFactory "check" "nowhere"), ["audit"]) := rfl
  rw [hfails] at hrun hend
  cases hlog.symm.trans hrun
  exact ⟨hordered, congrArg (Option.map Component.kind) (hresolve "p" "audit"),
    congrArg (Option.map Component.kind) (hresolve "p.x" "audit"), hend.2, hend.1⟩

end Registry

end RowFlow
