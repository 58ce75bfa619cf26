import RowFlow.Proofs.Dictionaries
import RowFlow.Proofs.Refusals
import RowFlow.Proofs.Variables
import RowFlow.RowCursor

/-!
# Reading in batches of any size

A flow hands its writers rows in rounds: one round for each batch, or a single one if it reads
everything at once (`Hands`). If a flow neither filters its rows nor transforms them by anything but
a template for single rows that does not name the variables of a batch, then how its rows are cut
into batches has no influence on what a writer is handed altogether, but for those two variables
(`Engine.rows_handed_congr`).
-/

namespace RowFlow

variable {σ : Type}

/-! ## Cursors over rows -/

namespace RowCursor

/-- The batches that a cursor hands out, up to its end. -/
inductive HandsOut : RowCursor → List (List Row) → Prop
  | ended : c.next = .ok (none, c') → HandsOut c []
  | handed : c.next = .ok (some batch, c') → HandsOut c' rest → HandsOut c (batch :: rest)

variable {c c' : RowCursor}

theorem next_none (h : c.next = .ok (none, c')) (hsize : 0 < c.size) : c.rows = [] := by
  unfold next at h
  split at h
  · cases h
  · split at h
    · rename_i htake
      exact (List.take_eq_nil_iff.mp htake).resolve_left (Nat.ne_of_gt hsize)
    · cases h

/-- A batch is the rows in front, up to the size. -/
theorem next_some (h : c.next = .ok (some batch, c')) :
    batch = c.rows.take c.size ∧ c' = { c with rows := c.rows.drop c.size } := by
  unfold next at h
  split at h
  · cases h
  · split at h
    · cases h
    · cases h
      exact ⟨rfl, rfl⟩

/-- All rows are handed out, in order and once. -/
theorem HandsOut.flatten (h : c.HandsOut bs) (hsize : 0 < c.size) : bs.flatten = c.rows := by
  induction h with
  | ended hnext => exact (next_none hnext hsize).symm
  | handed hnext _ ih =>
    obtain ⟨rfl, rfl⟩ := next_some hnext
    rw [List.flatten_cons, ih hsize]
    exact List.take_append_drop ..

/-- A cursor cuts its rows into batches. -/
theorem handsOut_batches (rows : List Row) (size : Nat) :
    (ofRows rows size).HandsOut (batches size rows) := by
  induction rows using batches.induct size with
  | case1 =>
    rw [batches]
    have hnext : (ofRows [] size).next = .ok (none, ofRows [] size) := by simp [next, ofRows]
    exact .ended hnext
  | case2 row rows ih =>
    rw [batches]
    obtain ⟨n, hn⟩ : ∃ n, max size 1 = n + 1 := ⟨max size 1 - 1, by omega⟩
    have hnext : (ofRows (row :: rows) size).next =
        .ok (some ((row :: rows).take (max size 1)),
          ofRows ((row :: rows).drop (max size 1)) size) := by
      simp [next, ofRows, hn]
    exact .handed hnext ih

end RowCursor

/-- In a world the reader answers the rows, or hands them out by a cursor over them. -/
structure BoundReader.Serves (reader : BoundReader σ) (rows : List Row) (ctx : Context)
    (world : World σ) : Prop where
  all : ∃ world', (reader.findAll ctx).exec world = (.ok rows, world')
  batches : ∀ size, ∃ bs close world', (RowCursor.ofRows rows size).HandsOut bs ∧
    (reader.findBatches size ctx).exec world = (.ok ⟨.ofList bs, close⟩, world')

/-! ## The variables of a batch -/

/-- A row without the variables of a batch. -/
def Row.unnumbered (row : Row) : Row :=
  (Dict.erase row Context.batchIndexKey).erase Context.batchSizeKey

/-- Two contexts differ in nothing but the variables of a batch. -/
def Context.Alike (ctx ctx' : Context) : Prop :=
  ctx.bindings.unnumbered = ctx'.bindings.unnumbered

namespace Row

variable {row row' : Row}

theorem unnumbered_insert_index (row : Row) (value : Value) :
    unnumbered (Dict.insert row Context.batchIndexKey value) = row.unnumbered := by
  rw [unnumbered, Dict.erase_insert_self]
  rfl

theorem unnumbered_insert_size (row : Row) (value : Value) :
    unnumbered (Dict.insert row Context.batchSizeKey value) = row.unnumbered := by
  rw [unnumbered, Dict.erase_comm, Dict.erase_insert_self, Dict.erase_comm]
  rfl

theorem unnumbered_insertAll (h : Dict.Ordered row) (entries : Row) :
    unnumbered (Dict.insertAll row entries) =
      Dict.insertAll row.unnumbered entries.unnumbered := by
  rw [unnumbered, h.erase_insertAll, (h.erase _).erase_insertAll]
  rfl

theorem find?_unnumbered (hindex : name ≠ Context.batchIndexKey)
    (hsize : name ≠ Context.batchSizeKey) :
    Dict.find? row.unnumbered name = Dict.find? row name := by
  rw [unnumbered, Dict.find?_erase, if_neg hsize.symm, Dict.find?_erase, if_neg hindex.symm]

/-- Contexts that differ only in the variables of a batch, laid over a row, make rows that differ
only in these. -/
theorem unnumbered_overlay (hrow : Dict.Ordered row) {ctx ctx' : Context} (h : ctx.Alike ctx') :
    (row.overlay ctx).unnumbered = (row.overlay ctx').unnumbered := by
  rw [overlay, overlay, unnumbered_insertAll hrow, unnumbered_insertAll hrow, h]

theorem unnumbered_merge (hrow : Dict.Ordered row) (hrow' : Dict.Ordered row')
    (h : row.unnumbered = row'.unnumbered) (transformed : Row) :
    (row.merge transformed).unnumbered = (row'.merge transformed).unnumbered := by
  rw [merge, merge, unnumbered_insertAll hrow, unnumbered_insertAll hrow', h]

end Row

theorem Context.alike_numbered (ctx : Context) (index size : Nat) :
    ((ctx.set batchIndexKey (.nat index)).set batchSizeKey (.nat size)).Alike ctx := by
  refine (Row.unnumbered_insert_size _ _).trans ?_
  exact Row.unnumbered_insert_index _ _

/-! ## Transforming rows one by one -/

/-- Rows are not filtered, and they are transformed, if at all, one by one by a template that does
not name the variables of a batch. -/
structure ReaderSpec.Plain (spec : ReaderSpec) : Prop where
  filter : spec.filter = none
  transformer : ∀ transformer, spec.transformer = some transformer →
    transformer.allAtOnce = false ∧ ∃ template, transformer.template = some template ∧
      Context.batchIndexKey ∉ Template.names template ∧
      Context.batchSizeKey ∉ Template.names template

/-- How a flow is given its rows. -/
inductive Chunking where
  | batches (size : Nat)
  | atOnce

/-- The flow, when it reads in batches of a size or everything at once. -/
def ReadFlow.chunked (flow : ReadFlow) : Chunking → ReadFlow
  | .batches size =>
    { flow with reader := { flow.reader with mode := .batched, batchSize := size } }
  | .atOnce => { flow with reader := { flow.reader with mode := .allAtOnce } }

namespace Engine

variable {engine : Engine σ}

/-- The form in which a row that has been read is handed on. -/
inductive Becomes (spec : ReaderSpec) (ctx : Context) (row : Row) : Row → Prop
  | overlaid : spec.transformer = none → Becomes spec ctx row (row.overlay ctx)
  | rendered : spec.transformer = some transformer → transformer.template = some template →
    renderRow template (row.overlay ctx) = .ok transformed →
    Becomes spec ctx row
      (if transformer.mergeToOriginal || spec.mergeToOriginal then
        (row.overlay ctx).merge transformed
      else transformed)

/-- A template that does not name the variables of a batch renders rows alike that differ only in
these. -/
theorem renderRow_congr {row row' : Row} (h : row.unnumbered = row'.unnumbered)
    (hindex : Context.batchIndexKey ∉ Template.names template)
    (hsize : Context.batchSizeKey ∉ Template.names template) :
    renderRow template row = renderRow template row' := by
  have hagree : ∀ name ∈ Template.names template, Dict.find? row name = Dict.find? row' name := by
    intro name hname
    have hne (key : String) (hkey : key ∉ Template.names template) : name ≠ key :=
      fun heq => hkey (heq ▸ hname)
    rw [← Row.find?_unnumbered (hne _ hindex) (hne _ hsize), h,
      Row.find?_unnumbered (hne _ hindex) (hne _ hsize)]
  rw [renderRow, renderValue, Template.render_congr hagree]
  rfl

/-- In alike contexts a row becomes the same, but for the variables of a batch. -/
theorem Becomes.unnumbered {spec : ReaderSpec} (hplain : spec.Plain) (hrow : Dict.Ordered row)
    (halike : Context.Alike ctx ctx') (h : Becomes spec ctx row result)
    (h' : Becomes spec ctx' row result') : result.unnumbered = result'.unnumbered := by
  have hoverlay := Row.unnumbered_overlay hrow halike
  cases h with
  | overlaid hnone =>
    cases h' with
    | overlaid => exact hoverlay
    | rendered hsome => cases hnone.symm.trans hsome
  | rendered hsome htemplate hrender =>
    cases h' with
    | overlaid hnone => cases hnone.symm.trans hsome
    | rendered hsome' htemplate' hrender' =>
      cases hsome.symm.trans hsome'
      cases htemplate.symm.trans htemplate'
      obtain ⟨-, template, hnamed, hindex, hsize⟩ := hplain.transformer _ hsome
      cases htemplate.symm.trans hnamed
      rw [renderRow_congr hoverlay hindex hsize, hrender'] at hrender
      cases hrender
      split
      · exact Row.unnumbered_merge (hrow.insertAll _) (hrow.insertAll _) hoverlay _
      · rfl

theorem transformEach_template {spec : TransformerSpec} (htemplate : spec.template = some template)
    (h : (engine.transformEach spec merging rows).Ends s es (.ok results) t) :
    es = [] ∧ t = s ∧ List.Forall₂ (fun row result => ∃ transformed,
      renderRow template row = .ok transformed ∧
        result = if merging then row.merge transformed else transformed) rows results := by
  induction rows generalizing s es results t with
  | nil =>
    obtain ⟨rfl, hresults, rfl⟩ := Run.ends_pure_iff.mp h
    cases hresults
    exact ⟨rfl, rfl, .nil⟩
  | cons row rows ih =>
    have hrow : (engine.transformRow spec row).Ends s [] _ s :=
      ends_transformRow_template htemplate row s
    rcases hrender : renderRow template row with e | transformed
    · rw [hrender] at hrow
      obtain ⟨-, hresults, -⟩ := h.unique hrow.bind_error
      cases hresults
    · rw [hrender] at hrow
      obtain ⟨others, es₁, u, es₂, hothers, hlast, rfl⟩ :=
        Run.ends_bind_ok_iff.mp (hrow.bind_silent_iff.mp h)
      obtain ⟨rfl, rfl, hall⟩ := ih hothers
      obtain ⟨rfl, hresults, rfl⟩ := Run.ends_pure_iff.mp hlast
      cases hresults
      exact ⟨rfl, rfl, .cons ⟨transformed, hrender, rfl⟩ hall⟩

/-- Rows are transformed one by one, without a call and in the same context, so a row becomes the
same whatever stands in the batch beside it. -/
theorem transform_plain {spec : ReaderSpec} (hplain : spec.Plain)
    (h : (engine.transform spec rows).Ends s es (.ok results) t) :
    es = [] ∧ t = s ∧ List.Forall₂ (Becomes spec s.context) rows results := by
  have h := Run.ends_context.bind_silent_iff.mp h
  obtain ⟨reshaped, es₁, u, es₂, htransform, hfilter, rfl⟩ := Run.ends_bind_ok_iff.mp h
  rw [applyFilter, hplain.filter] at hfilter
  obtain ⟨rfl, hresults, rfl⟩ := Run.ends_pure_iff.mp hfilter
  cases hresults
  unfold applyTransformer at htransform
  split at htransform
  · rename_i hnone
    obtain ⟨rfl, hresults, rfl⟩ := Run.ends_pure_iff.mp htransform
    cases hresults
    refine ⟨rfl, rfl, List.forall₂_map_right_iff.mpr ?_⟩
    exact List.forall₂_same.mpr fun row _ => .overlaid hnone
  · rename_i transformer hsome
    obtain ⟨heach, template, htemplate, -⟩ := hplain.transformer transformer hsome
    rw [heach] at htransform
    obtain ⟨rfl, rfl, hall⟩ := transformEach_template htemplate htransform
    refine ⟨rfl, rfl, (List.forall₂_map_left_iff.mp hall).imp fun row result hrow => ?_⟩
    obtain ⟨transformed, hrender, rfl⟩ := hrow
    exact .rendered hsome htemplate hrender

/-! ## Sinks that leave the context alone -/

/-- The calls of a sink leave the context as it is. -/
structure KeepsContext (sink : Sink σ) : Prop where
  batch : (sink.batch action rows).exec s = (answer, t) → t.context = s.context
  row : ∀ {row}, (sink.row action row).exec s = (answer, t) → t.context = s.context

/-- No sink changes the context that can come to be called for writers with such settings. -/
structure SinksKeepContext (engine : Engine σ) (key : String) (nodes : List WriterSettings) :
    Prop where
  writers : ∀ settings ∈ nodes, ∀ {ctx w}, engine.prepareWriter key ctx settings = .ok w →
    KeepsContext w.writer.sink
  deadLetters : ∀ {ctx d}, engine.prepareDeadLetter key ctx = .ok (some d) →
    KeepsContext d.writer.sink

theorem SinksKeepContext.mono (h : SinksKeepContext engine key nodes) (hsub : nodes' ⊆ nodes) :
    SinksKeepContext engine key nodes' :=
  ⟨fun settings hmem => h.writers settings (hsub hmem), h.deadLetters⟩

theorem RowByRow.context {w : ReadyWriter σ} (hsink : KeepsContext w.writer.sink)
    (h : RowByRow w action rows verdicts s es t) : t.context = s.context := by
  induction h with
  | nil => rfl
  | written hexec _ ih | failed hexec _ ih => rw [ih, hsink.row hexec]

theorem Delivered.context {w : ReadyWriter σ} (hsink : KeepsContext w.writer.sink)
    (h : Delivered w action rows outcome s es t) : t.context = s.context := by
  cases h with
  | bulk hexec => exact hsink.batch hexec
  | eachRow hexec hrows => rw [hrows.context hsink, hsink.batch hexec]

theorem Buried.context (hsinks : SinksKeepContext engine key nodes)
    (h : Buried engine key failed s es t) : t.context = s.context := by
  cases h with
  | nothing | nowhere => rfl
  | buried _ hd _ hexec => exact (hsinks.deadLetters hd).batch hexec

mutual

/-- A tree of writers whose sinks keep the context keeps it. -/
theorem Accounted.context : {spec : WriterSpec} → {w : ReadyWriter σ} → {rows : List Row} →
    {outcome : Outcome} → {s : Site σ} → {es : List (Entry σ)} → {t : Site σ} →
    SinksKeepContext engine key spec.nodes → KeepsContext w.writer.sink →
      Accounted engine key spec w rows outcome s es t → t.context = s.context
  | _, _, _, _, _, _, _, _, _, .disabled _ => rfl
  | _, _, _, _, _, _, _, _, _, .noRows _ => rfl
  | .mk settings onSuccess onFailure, _, _, _, _, _, _, hsinks, hsink,
      .delivered _ _ _ hdelivered _ hsuccess hfailure hburied => by
    rw [WriterSpec.nodes_mk] at hsinks
    have hsuccesses : onSuccess.elim [] WriterSpec.nodes ⊆
        settings :: (onSuccess.elim [] WriterSpec.nodes ++ onFailure.elim [] WriterSpec.nodes) :=
      fun _ h => List.mem_cons_of_mem _ (List.mem_append_left _ h)
    have hfailures : onFailure.elim [] WriterSpec.nodes ⊆
        settings :: (onSuccess.elim [] WriterSpec.nodes ++ onFailure.elim [] WriterSpec.nodes) :=
      fun _ h => List.mem_cons_of_mem _ (List.mem_append_right _ h)
    rw [hburied.context hsinks, PassedOn.context (hsinks.mono hfailures) hfailure,
      PassedOn.context (hsinks.mono hsuccesses) hsuccess, hdelivered.context hsink]

theorem PassedOn.context : {announcement : Nat → Event} → {next : Option WriterSpec} →
    {rows : List Row} → {s : Site σ} → {es : List (Entry σ)} → {t : Site σ} →
    SinksKeepContext engine key (next.elim [] WriterSpec.nodes) →
      PassedOn engine key announcement next rows s es t → t.context = s.context
  | _, _, _, _, _, _, _, .nothing => rfl
  | _, _, _, _, _, _, _, .nobody _ => rfl
  | _, some spec, _, _, _, _, hsinks, .handed _ hprepare haccounted =>
    Accounted.context hsinks (hsinks.writers _ spec.settings_mem_nodes hprepare) haccounted

end

/-! ## Rounds -/

/-- Each of the writers is handed the rows, one writer after the other. -/
inductive HandedOut (engine : Engine σ) (key : String) (rows : List Row) :
    List (WriterSpec × ReadyWriter σ) → Site σ → List (Entry σ) → Site σ → Prop
  | nil : HandedOut engine key rows [] s [] s
  | cons : Accounted engine key spec w rows outcome s es t →
    HandedOut engine key rows writers t es' u →
    HandedOut engine key rows ((spec, w) :: writers) s (es ++ es') u

/-- The entries of a flow whose writers are handed rows in rounds: in each round every writer is
handed the rows of that round, and nothing else is written. -/
inductive Hands (engine : Engine σ) (key : String) (writers : List (WriterSpec × ReadyWriter σ)) :
    List (Entry σ) → List (List Row) → Prop
  | nil : Hands engine key writers [] []
  | beside : ¬ entry.IsWriting → Hands engine key writers es rounds →
    Hands engine key writers (entry :: es) rounds
  | round : HandedOut engine key rows writers s es t → Hands engine key writers es' rounds →
    Hands engine key writers (es ++ es') (rows :: rounds)

/-- Each writer of the flow is given the same rows. -/
theorem HandedOut.of_writeAll {writers : List (WriterSpec × ReadyWriter σ)}
    (h : (engine.writeAll key writers rows).Ends s es (.ok ()) t) :
    HandedOut engine key rows writers s es t := by
  induction writers generalizing s es with
  | nil =>
    obtain ⟨rfl, -, rfl⟩ := Run.ends_pure_iff.mp h
    exact .nil
  | cons first writers ih =>
    obtain ⟨spec, w⟩ := first
    rw [writeAll_cons] at h
    obtain ⟨_, es₁, u, es₂, hfirst, hrest, rfl⟩ := Run.ends_bind_ok_iff.mp h
    obtain ⟨outcome, _, _, _, hwrite, hpure, rfl⟩ := Run.ends_bind_ok_iff.mp hfirst
    obtain ⟨rfl, -, rfl⟩ := Run.ends_pure_iff.mp hpure
    rw [List.append_nil]
    exact .cons (.of_write spec hwrite) (ih hrest)

theorem HandedOut.context {flow : ReadFlow} (hsinks : SinksKeepContext engine key flow.nodes)
    (hready : Ready engine key flow writers) (h : HandedOut engine key rows writers s es t) :
    t.context = s.context := by
  induction h with
  | nil => rfl
  | @cons spec w _ _ _ _ _ _ _ haccounted _ ih =>
    obtain ⟨hspec, ctx, hprepare⟩ := hready spec w List.mem_cons_self
    have hnodes : spec.nodes ⊆ flow.nodes := fun _ => ReadFlow.nodes_of_mem hspec
    have hsink := hsinks.writers _ (hnodes spec.settings_mem_nodes) hprepare
    rw [ih fun _ _ hmem => hready _ _ (List.mem_cons_of_mem _ hmem),
      Accounted.context (hsinks.mono hnodes) hsink haccounted]

theorem Hands.append {writers : List (WriterSpec × ReadyWriter σ)}
    (h : Hands engine key writers es rounds) (h' : Hands engine key writers es' rounds') :
    Hands engine key writers (es ++ es') (rounds ++ rounds') := by
  induction h with
  | nil => exact h'
  | beside hentry _ ih => exact .beside hentry ih
  | round hhanded _ ih =>
    rw [List.append_assoc]
    exact .round hhanded ih

/-- The rows are what rows that have been read have become, in contexts that are alike. -/
def Shown (spec : ReaderSpec) (ctx : Context) : List Row → List Row → Prop :=
  List.Forall₂ fun row result => ∃ ctx', Context.Alike ctx' ctx ∧ Becomes spec ctx' row result

theorem Shown.unnumbered {spec : ReaderSpec} (hplain : spec.Plain)
    (hrows : ∀ row ∈ rows, Dict.Ordered row) (h : Shown spec ctx rows results)
    (h' : Shown spec ctx rows results') :
    results.map Row.unnumbered = results'.map Row.unnumbered := by
  induction h generalizing results' with
  | nil =>
    cases h'
    rfl
  | cons hfirst _ ih =>
    cases h' with
    | cons hfirst' hrest' =>
      obtain ⟨hrow, hrows⟩ := List.forall_mem_cons.mp hrows
      obtain ⟨ctx₁, halike₁, hbecomes₁⟩ := hfirst
      obtain ⟨ctx₂, halike₂, hbecomes₂⟩ := hfirst'
      rw [List.map_cons, List.map_cons, ih hrows hrest',
        hbecomes₁.unnumbered hplain hrow (halike₁.trans halike₂.symm) hbecomes₂]

/-! ## Flows -/

section Batches

variable {spec : ReaderSpec} {flow : ReadFlow} {writers : List (WriterSpec × ReadyWriter σ)}

/-- A batch changes nothing in the context but its own variables. -/
theorem hands_processBatch (hplain : spec.Plain)
    (hsinks : SinksKeepContext engine key flow.nodes) (hready : Ready engine key flow writers)
    (h : (engine.processBatch key label spec writers index batch).Ends s es (.ok ()) t) :
    ∃ rounds, Hands engine key writers es rounds ∧ t.context.Alike s.context ∧
      Shown spec s.context batch rounds.flatten := by
  rw [processBatch_eq] at h
  have h := (Run.ends_modifyContext _).bind_silent_iff.mp h
  have h := (Run.ends_modifyContext _).bind_silent_iff.mp h
  have halike := s.context.alike_numbered index spec.batchSize
  obtain ⟨es₁, hrest, rfl⟩ := (Run.ends_emit _).bind_iff.mp h
  split at hrest
  · obtain ⟨results, es₂, u, es₃, htransform, hwrite, rfl⟩ := Run.ends_bind_ok_iff.mp hrest
    obtain ⟨rfl, rfl, hbecomes⟩ := transform_plain hplain htransform
    have hshown : Shown spec s.context batch results :=
      hbecomes.imp fun _ _ hrow => ⟨_, halike, hrow⟩
    split at hwrite
    · have hhanded := HandedOut.of_writeAll hwrite
      have hround := Hands.round hhanded .nil
      rw [List.append_nil] at hround
      refine ⟨[results], .beside id hround, ?_, ?_⟩
      · rw [hhanded.context hsinks hready]
        exact halike
      · rwa [List.flatten_singleton]
    · rename_i hempty
      obtain ⟨rfl, -, rfl⟩ := Run.ends_pure_iff.mp hwrite
      obtain rfl : results = [] := by simpa using hempty
      exact ⟨[], .beside id .nil, halike, hshown⟩
  · rename_i hempty
    obtain ⟨rfl, -, rfl⟩ := Run.ends_pure_iff.mp hrest
    obtain rfl : batch = [] := by simpa using hempty
    exact ⟨[], .beside id .nil, halike, .nil⟩

/-- The rounds of the batches, put together, are what the rows of all batches become. From one batch
to the next the context differs only in the variables of a batch. -/
theorem hands_consume (hplain : spec.Plain)
    (hsinks : SinksKeepContext engine key flow.nodes) (hready : Ready engine key flow writers)
    (bs : List (List Row))
    (h : (consume reader (engine.processBatch key label spec writers) index
      (.ofList bs)).Ends s es (.ok ()) t) :
    ∃ rounds, Hands engine key writers es rounds ∧
      Shown spec s.context bs.flatten rounds.flatten := by
  induction bs generalizing index s es with
  | nil =>
    obtain ⟨found, hcall, -⟩ := Run.ends_mapError_iff.mp h
    obtain ⟨-, -, rfl⟩ := Run.ends_access_iff.mp hcall
    exact ⟨[], .beside id .nil, .nil⟩
  | cons batch bs ih =>
    have hcall : (Run.mapError (EngineError.reader reader.name) (Run.access (.nextBatch reader)
        (pure (some batch)))).Ends s [.call (.nextBatch reader) s s true] (.ok (some batch)) s :=
      (Run.ends_access_iff.mpr ⟨rfl, rfl, rfl⟩).mapError _
    rw [Batches.ofList, consume] at h
    obtain ⟨es₁, hbatch, rfl⟩ := hcall.bind_iff.mp h
    have hbatch := Run.ends_world.bind_silent_iff.mp hbatch
    obtain ⟨_, es₂, u, es₃, hprocess, hrest, rfl⟩ := Run.ends_bind_ok_iff.mp hbatch
    obtain ⟨rounds, hhands, halike, hshown⟩ := hands_processBatch hplain hsinks hready hprocess
    obtain ⟨rounds', hhands', hshown'⟩ := ih hrest
    refine ⟨rounds ++ rounds', .beside id (hhands.append hhands'), ?_⟩
    rw [List.flatten_cons, List.flatten_append]
    refine List.rel_append hshown (hshown'.imp fun _ _ => ?_)
    rintro ⟨ctx, hctx, hrow⟩
    exact ⟨ctx, hctx.trans halike, hrow⟩

theorem hands_readInBatches (hplain : spec.Plain)
    (hsinks : SinksKeepContext engine key flow.nodes) (hready : Ready engine key flow writers)
    (hserves : r.reader.Serves rows s.context s.world)
    (h : (engine.readInBatches key label spec r writers).Ends s es (.ok ()) t) :
    ∃ rounds, Hands engine key writers es rounds ∧
      Shown spec s.context rows rounds.flatten := by
  obtain ⟨bs, close, world', hcut, hexec⟩ := hserves.batches spec.batchSize
  have hrows : bs.flatten = rows := hcut.flatten (Nat.le_max_right ..)
  have hcall := (Run.ends_access_of_exec (.openBatches r.target spec.batchSize)
    hexec).mapError (EngineError.reader r.target.name)
  rw [readInBatches] at h
  obtain ⟨es₁, hrest, rfl⟩ := hcall.bind_iff.mp (Run.ends_context.bind_silent_iff.mp h)
  obtain ⟨es₂, consumed, u, closed, hconsume, -, -, rfl, hanswer⟩ :=
    readAndClose_ends hrest nofun
  cases consumed with
  | error => cases hanswer
  | ok =>
    obtain ⟨rounds, hhands, hshown⟩ := hands_consume hplain hsinks hready bs hconsume
    have hclosed : Hands engine key writers
        [.call (.closeBatches r.target) u t closed.isOk] [] := .beside id .nil
    have hall := hhands.append hclosed
    rw [List.append_nil] at hall
    exact ⟨rounds, .beside id hall, hrows ▸ hshown⟩

/-- All rows are handed over in a single round. -/
theorem hands_readAll (hplain : spec.Plain)
    (hserves : r.reader.Serves rows s.context s.world)
    (h : (engine.readAll key spec r writers).Ends s es (.ok ()) t) :
    ∃ rounds, Hands engine key writers es rounds ∧
      Shown spec s.context rows rounds.flatten := by
  obtain ⟨world', hexec⟩ := hserves.all
  have hcall := (Run.ends_access_of_exec (.findAll r.target) hexec).mapError
    (EngineError.reader r.target.name)
  obtain ⟨es₁, hrest, rfl⟩ := hcall.bind_iff.mp (Run.ends_context.bind_silent_iff.mp h)
  obtain ⟨results, es₂, u, es₃, htransform, hwrite, rfl⟩ := Run.ends_bind_ok_iff.mp hrest
  obtain ⟨rfl, rfl, hbecomes⟩ := transform_plain hplain htransform
  obtain ⟨v, hcapture⟩ := capture_ends spec (.ofRows results) { s with world := world' }
  have hhanded := HandedOut.of_writeAll (hcapture.bind_silent_iff.mp hwrite)
  have hround := Hands.round hhanded .nil
  rw [List.append_nil] at hround
  refine ⟨[results], .beside id hround, ?_⟩
  rw [List.flatten_singleton]
  exact hbecomes.imp fun _ _ hrow => ⟨_, rfl, hrow⟩

end Batches

theorem Becomes.of_chunked {flow : ReadFlow} (h : Becomes (flow.chunked c).reader ctx row result) :
    Becomes flow.reader ctx row result := by
  cases c <;> cases h with
  | overlaid hnone => exact .overlaid hnone
  | rendered hsome htemplate hrender => exact .rendered hsome htemplate hrender

/-- However the rows are cut, the rounds put together are what all of the rows become. -/
theorem hands_readFlow {flow : ReadFlow} (c : Chunking) (hplain : flow.reader.Plain)
    (hsinks : SinksKeepContext engine key flow.nodes)
    (hserves : ∀ r, engine.prepareReader key s.context flow.reader = .ok r →
      r.reader.Serves rows s.context s.world)
    (h : (engine.readFlow key label (flow.chunked c)).Ends s es (.ok ()) t) :
    ∃ writers rounds, engine.prepareWriters key s.context flow.writers = .ok writers ∧
      Hands engine key writers es rounds ∧
      Shown flow.reader s.context rows rounds.flatten := by
  cases ReadBegins.of_readFlow h with
  | ready hchunked hread =>
    rename_i r writers
    have hprepared : Prepared engine key flow s.context r writers := by
      cases c <;> exact ⟨hchunked.reader, hchunked.writers⟩
    have hserved := hserves r hprepared.reader
    obtain ⟨rounds, hhands, hshown⟩ : ∃ rounds, Hands engine key writers es rounds ∧
        Shown (flow.chunked c).reader s.context rows rounds.flatten := by
      cases c with
      | batches size =>
        exact hands_readInBatches ⟨hplain.filter, hplain.transformer⟩ hsinks hprepared.ready hserved
          hread
      | atOnce => exact hands_readAll ⟨hplain.filter, hplain.transformer⟩ hserved hread
    refine ⟨writers, rounds, hprepared.writers, hhands, hshown.imp fun row result => ?_⟩
    rintro ⟨ctx, halike, hbecomes⟩
    exact ⟨ctx, halike, hbecomes.of_chunked⟩

/-- **How rows are cut into batches has no influence on what is written.** A flow is given the same
rows twice, in batches of any size or all at once. If it ends well both times, each of its writers
is handed the same rows in the same order, but for the variables of a batch. What is passed on from
there in a cascade is up to the sinks: one may refuse a batch and take its rows one by one. -/
theorem rows_handed_congr {flow : ReadFlow} (c₁ c₂ : Chunking) (hplain : flow.reader.Plain)
    (hsinks : SinksKeepContext engine key flow.nodes) (hrows : ∀ row ∈ rows, Dict.Ordered row)
    (hcontext : live₂.context = live₁.context)
    (hserves : ∀ r, engine.prepareReader key live₁.context flow.reader = .ok r →
      r.reader.Serves rows live₁.context live₁.world ∧
        r.reader.Serves rows live₁.context live₂.world)
    (h₁ : (engine.readFlow key label (flow.chunked c₁)).exec live₁ = (.ok (), live₁'))
    (h₂ : (engine.readFlow key label (flow.chunked c₂)).exec live₂ = (.ok (), live₂')) :
    ∃ writers es₁ es₂ rounds₁ rounds₂,
      engine.prepareWriters key live₁.context flow.writers = .ok writers ∧
      live₁'.journal = es₁.reverse ++ live₁.journal ∧ Hands engine key writers es₁ rounds₁ ∧
      live₂'.journal = es₂.reverse ++ live₂.journal ∧ Hands engine key writers es₂ rounds₂ ∧
      rounds₁.flatten.map Row.unnumbered = rounds₂.flatten.map Row.unnumbered ∧
      rounds₁.flatten.length = rows.length := by
  obtain ⟨es₁, hends₁, hjournal₁⟩ := Run.ends_of_exec h₁
  obtain ⟨es₂, hends₂, hjournal₂⟩ := Run.ends_of_exec h₂
  obtain ⟨writers, rounds₁, hwriters, hhands₁, hshown₁⟩ :=
    hands_readFlow c₁ hplain hsinks (fun r hr => (hserves r hr).1) hends₁
  obtain ⟨writers', rounds₂, hwriters', hhands₂, hshown₂⟩ :=
    hands_readFlow c₂ hplain hsinks
      (fun r hr => by rw [hcontext] at hr ⊢; exact (hserves r hr).2) hends₂
  rw [hcontext] at hwriters' hshown₂
  cases hwriters.symm.trans hwriters'
  exact ⟨writers, es₁, es₂, rounds₁, rounds₂, hwriters, hjournal₁, hhands₁, hjournal₂, hhands₂,
    hshown₁.unnumbered hplain hrows hshown₂, hshown₁.length_eq.symm⟩

/-- Two rows, all at once or in batches of any size. -/
def sampleServed : List Row := [[("id", .nat 1)], [("id", .nat 2)]]

def sampleServer : BoundReader Unit where
  findOne _ := pure none
  findAll _ := pure sampleServed
  findBatches size _ := pure (.ofList (batches size sampleServed))

def sampleServing : Engine Unit :=
  { sampleEngine with
    registry := sampleEngine.registry.register "numbers" (.reader ⟨fun _ _ => .ok sampleServer⟩) }

/-- A flow that adds a field to every row. -/
def sampleLabelling : ReadFlow where
  id := "copy"
  desc := ""
  reader :=
    { component := "numbers"
      transformer := some ⟨some r#"{"kind": "order"}"#, none, false, true⟩ }
  writers := [.mk { component := "table" } none none]

theorem sample_serves (ctx : Context) (world : World Unit) :
    sampleServer.Serves sampleServed ctx world :=
  ⟨⟨_, rfl⟩, fun size => ⟨_, _, _, RowCursor.handsOut_batches sampleServed size, rfl⟩⟩

theorem sample_keepsContext : KeepsContext sampleSink where
  batch h := by
    cases h
    rfl
  row {action s answer t row} h := by
    cases row with
    | nil | cons =>
      cases h
      rfl

theorem sample_sinksKeepContext : SinksKeepContext sampleServing "p" sampleLabelling.nodes where
  writers settings hmem ctx w h := by
    cases List.mem_singleton.mp hmem
    have hw : sampleServing.prepareWriter "p" ctx { component := "table" } =
        .ok ⟨⟨"table", none⟩, ⟨false, sampleSink⟩⟩ := by cbv
    cases h.symm.trans hw
    exact sample_keepsContext
  deadLetters {ctx d} h := by
    have hd : sampleServing.prepareDeadLetter "p" ctx =
        .ok (some ⟨⟨"failedRecordsAppender", none⟩,
          ⟨true, fun _ _ => pure (), fun _ _ => pure ()⟩⟩) := by cbv
    cases h.symm.trans hd
    exact ⟨fun h => by cases h; rfl, fun h => by cases h; rfl⟩

theorem rows_handed_congr_labelling :
    ∃ live₁ live₂,
      (sampleServing.readFlow "p" "copy" (sampleLabelling.chunked (.batches 1))).exec sampleStart =
        (.ok (), live₁) ∧
      (sampleServing.readFlow "p" "copy" (sampleLabelling.chunked .atOnce)).exec sampleStart =
        (.ok (), live₂) ∧
      ∃ writers es₁ es₂ rounds₁ rounds₂,
        sampleServing.prepareWriters "p" .empty sampleLabelling.writers = .ok writers ∧
        live₁.journal = es₁.reverse ++ [] ∧ Hands sampleServing "p" writers es₁ rounds₁ ∧
        live₂.journal = es₂.reverse ++ [] ∧ Hands sampleServing "p" writers es₂ rounds₂ ∧
        rounds₁.flatten.map Row.unnumbered = rounds₂.flatten.map Row.unnumbered ∧
        rounds₁.flatten.length = 2 := by
  have hnames : Template.names r#"{"kind": "order"}"# = [] := by cbv
  have hplain : sampleLabelling.reader.Plain := by
    refine ⟨rfl, fun transformer hsome => ?_⟩
    cases hsome
    exact ⟨rfl, _, rfl, by simp [hnames], by simp [hnames]⟩
  have hordered : ∀ row ∈ sampleServed, Dict.Ordered row := by
    simp [sampleServed, Dict.Ordered]
  have hserves (r : ReadyReader Unit)
      (hr : sampleServing.prepareReader "p" .empty sampleLabelling.reader = .ok r) :
      r.reader.Serves sampleServed .empty sampleStart.world := by
    have hready : sampleServing.prepareReader "p" .empty sampleLabelling.reader =
        .ok ⟨⟨"numbers", none⟩, sampleServer⟩ := by cbv
    cases hr.symm.trans hready
    exact sample_serves ..
  obtain ⟨live₁, hrun₁⟩ : ∃ live₁,
      (sampleServing.readFlow "p" "copy" (sampleLabelling.chunked (.batches 1))).exec sampleStart =
        (.ok (), live₁) := ⟨_, Prod.ext (by cbv) rfl⟩
  obtain ⟨live₂, hrun₂⟩ : ∃ live₂,
      (sampleServing.readFlow "p" "copy" (sampleLabelling.chunked .atOnce)).exec sampleStart =
        (.ok (), live₂) := ⟨_, Prod.ext (by cbv) rfl⟩
  exact ⟨live₁, live₂, hrun₁, hrun₂, rows_handed_congr (.batches 1) .atOnce hplain
    sample_sinksKeepContext hordered rfl (fun r hr => ⟨hserves r hr, hserves r hr⟩) hrun₁ hrun₂⟩

end Engine

end RowFlow
