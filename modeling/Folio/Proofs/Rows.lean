import Folio.Data.Json
import Folio.Proofs.Execution
import Folio.Proofs.Overlay

/-!
# The rows of a template

While a listener answers nothing but what it was told (`Listener.Repeats`), what a step does to the context is known from the
texts that it adds to the view: `Appends x c texts c'` says that it leads from one context to another, but for the text of the
view, to which it adds the texts one after the other, and that it fails as the first of them that fails. A view then begins with
nothing but its data (`exec_prepare_repeats`). A row adds the texts of its regions (`appends_renderRow`), and the rows of a template
those of the header, of every row and of the footer (`renderTemplate_rows`).
-/

namespace Folio

/-! ## Listeners that change nothing -/

/-- Whatever an outcome says, the payload said it already. -/
structure Outcome.Repeats (o : Outcome) (p : Payload) : Prop where
  runtime : ∀ runtime, o.runtime = some runtime → p.runtime = runtime
  parameters : ∀ parameters, o.parameters = some parameters → p.parameters = some parameters
  modelRegistry : ∀ registry, o.modelRegistry = some registry → p.modelRegistry = some registry
  queryResults : ∀ results, o.queryResults = some results → p.queryResults = some results
  renderedView : ∀ text, o.renderedView = some text → p.renderedView = some text
  renderedPage : ∀ text, o.renderedPage = some text → p.renderedPage = some text

/-- A listener answers nothing but what it was told. -/
def Listener.Repeats {σ : Type} (l : Listener σ) : Prop :=
  ∀ s event payload, (l s event payload).1.Repeats payload

/-- A listener that answers nothing repeats what it was told. -/
theorem Listener.Repeats.of_unchanged {σ : Type} {l : Listener σ} (h : ∀ s event payload, (l s event payload).1 = .unchanged) :
    l.Repeats := by
  intro s event payload
  rw [h]
  exact ⟨nofun, nofun, nofun, nofun, nofun, nofun⟩

theorem Outcome.Repeats.apply {o : Outcome} {ctx : Context} {results : Option Data}
    (h : o.Repeats (ctx.viewPayload results)) : ctx.apply o = ctx := by
  have stays {α : Type} {x : Option α} {d : α} (hx : ∀ v, x = some v → d = v) : x.getD d = d := by
    cases x with
    | none => rfl
    | some v => exact (hx v rfl).symm
  have hruntime : o.runtime.getD ctx.runtime = ctx.runtime := stays h.runtime
  rw [Context.apply_eq, hruntime, stays fun v hv => Option.some.inj (h.parameters v hv),
    stays fun v hv => Option.some.inj (h.modelRegistry v hv), stays fun v hv => Option.some.inj (h.renderedView v hv),
    stays fun v hv => Option.some.inj (h.renderedPage v hv)]

theorem Outcome.Repeats.row {o : Outcome} {ctx : Context} {row : Row}
    (h : o.Repeats (ctx.viewPayload (some (.object row)))) : o.row?.getD row = row := by
  unfold Outcome.row?
  cases hresults : o.queryResults with
  | none => rfl
  | some results =>
    rw [← Option.some.inj (h.queryResults results hresults)]
    rfl

/-! ## Places -/

/-- The fields that give the place of a row. -/
def placeKeys : List String := ["row_count", "total_rows", "first", "last_row", "even_or_odd"]

/-- The fields tell that a row is the `i`-th of `n`, counted from one. -/
structure Counted (i n : Nat) (fields : Keyed Data) : Prop where
  rowCount : Keyed.get? fields "row_count" = some (.int i)
  totalRows : Keyed.get? fields "total_rows" = some (.int n)
  first : Keyed.get? fields "first" = some (.bool (i = 1))
  lastRow : Keyed.get? fields "last_row" = some (.bool (i = n))
  evenOrOdd : Keyed.get? fields "even_or_odd" = some (.text (if i % 2 = 1 then "odd" else "even"))

/-- Whoever is given the place of the row at an index is counted by it. -/
theorem counted_extend (index total : Nat) (m : Keyed Data) :
    Counted (index + 1) total (Keyed.extend m (decoration index total)) := by
  have hparity : (if index % 2 = 0 then "odd" else "even") = if (index + 1) % 2 = 1 then "odd" else "even" := by
    by_cases h : index % 2 = 0
    · rw [if_pos h, if_pos (by omega)]
    · rw [if_neg h, if_neg (by omega)]
  constructor <;> rw [Keyed.get?_extend] <;> unfold decoration placeFields
  · rfl
  · rfl
  · simp [Keyed.get?]
  · rfl
  · unfold parityAt
    rw [hparity]
    rfl

/-- A place has no other fields. -/
theorem get?_extend_decoration {key : String} (h : key ∉ placeKeys) (index total : Nat) (m : Keyed Data) :
    Keyed.get? (Keyed.extend m (decoration index total)) key = Keyed.get? m key := by
  simp only [placeKeys, List.mem_cons, List.not_mem_nil, or_false, not_or] at h
  obtain ⟨hcount, htotal, hfirst, hlast, hparity⟩ := h
  rw [Keyed.get?_extend]
  unfold decoration placeFields
  simp [Keyed.get?, hcount, htotal, hfirst, hlast, hparity]

/-- The place of the `i`-th of `n` rows was put over some fields: they tell it, and are otherwise as they were. -/
structure Placed (i n : Nat) (fields placed : Keyed Data) : Prop where
  counted : Counted i n placed
  kept : ∀ key ∉ placeKeys, Keyed.get? placed key = Keyed.get? fields key

theorem placed_extend (index total : Nat) (m : Keyed Data) :
    Placed (index + 1) total m (Keyed.extend m (decoration index total)) :=
  ⟨counted_extend index total m, fun _ hkey => get?_extend_decoration hkey index total m⟩

/-- Whoever is given the place of the last row is told that it is the last. -/
theorem placed_extend_last {total : Nat} (h : total ≠ 0) (m : Keyed Data) :
    Placed total total m (Keyed.extend m (decoration (total - 1) total)) := by
  have hplaced := placed_extend (total - 1) total m
  rwa [Nat.sub_add_cancel (Nat.pos_of_ne_zero h)] at hplaced

/-! ## The rows that a template sees -/

namespace Context

/-- The rows of a context, each with its place among them. -/
def decorated (ctx : Context) : List Row :=
  ctx.rows.mapIdx fun i row => Keyed.extend row (decoration i ctx.rows.length)

/-- The context before the row at an index is rendered, but for the text of the view: the rows before it have their places, and
the parameters are given that of the last one. -/
def before (ctx : Context) (i : Nat) : Context :=
  { ctx with
    rows := ctx.decorated.take i ++ ctx.rows.drop i
    parameters := match i with
      | 0 => ctx.parameters
      | last + 1 => Keyed.extend ctx.parameters (decoration last ctx.rows.length) }

/-- The context while the row at an index is rendered, but for the text of the view: its place is over the parameters. -/
def during (ctx : Context) (i : Nat) : Context :=
  { ctx.before i with parameters := Keyed.extend ctx.parameters (decoration i ctx.rows.length) }

/-- What a region of a template sees of the row at an index: the row with its place, the rows before it with theirs and the
others as they are given, and the place as parameters. -/
def sceneAt (ctx : Context) (i : Nat) : Scene where
  row := Keyed.extend (ctx.rows[i]?.getD []) (decoration i ctx.rows.length)
  rows := ctx.decorated.take i ++ ctx.rows.drop i
  parameters := Keyed.extend ctx.parameters (decoration i ctx.rows.length)
  modelRegistry := ctx.modelRegistry
  runtime := ctx.runtime

variable {ctx : Context} {i : Nat}

theorem length_decorated (ctx : Context) : ctx.decorated.length = ctx.rows.length := List.length_mapIdx

/-- Every place is made of the same fields, so a row or parameters have none but the last one. -/
theorem extend_decoration (m : Keyed Data) (i j total : Nat) :
    Keyed.extend (Keyed.extend m (decoration i total)) (decoration j total) = Keyed.extend m (decoration j total) := by
  have hfields : (decoration i total).map Prod.fst = (decoration j total).map Prod.fst := rfl
  exact Keyed.extend_extend (fun _ h => hfields ▸ h) m

theorem extend_before (ctx : Context) (i : Nat) :
    Keyed.extend (ctx.before i).parameters (decoration i ctx.rows.length) =
      Keyed.extend ctx.parameters (decoration i ctx.rows.length) := by
  cases i with
  | zero => rfl
  | succ last => exact extend_decoration _ _ _ _

/-- A row takes its place over the parameters. -/
theorem place_before (ctx : Context) (i : Nat) (text : String) :
    { ctx.before i with
      parameters := Keyed.extend (ctx.before i).parameters (decoration i ctx.rows.length), renderedView := text } =
      { ctx.during i with renderedView := text } := by
  rw [extend_before]
  rfl

/-- What a region sees of a row is what the context shows while the row is rendered. -/
theorem scene_during {row : Row} (h : ctx.rows[i]? = some row) :
    (ctx.during i).scene (Keyed.extend row (decoration i ctx.rows.length)) = ctx.sceneAt i := by
  unfold sceneAt
  rw [h]
  rfl

/-- When a row is rendered it takes its place among the rows. -/
theorem set_before {row : Row} (h : ctx.rows[i]? = some row) :
    (ctx.before i).rows.set i (Keyed.extend row (decoration i ctx.rows.length)) = (ctx.before (i + 1)).rows := by
  obtain ⟨hlt, hrow⟩ := List.getElem?_eq_some_iff.mp h
  have hlength : (ctx.decorated.take i).length = i := by
    rw [List.length_take, length_decorated]
    exact Nat.min_eq_left (Nat.le_of_lt hlt)
  have hplaced : ctx.decorated[i]? = some (Keyed.extend row (decoration i ctx.rows.length)) := by
    unfold decorated
    rw [List.getElem?_mapIdx, h]
    rfl
  unfold before
  dsimp only
  rw [List.drop_eq_getElem_cons hlt, List.set_append_right _ _ (Nat.le_of_eq hlength), hlength, Nat.sub_self, List.set_cons_zero,
    List.take_add_one, hplaced, Option.toList_some, List.append_assoc]
  rfl

/-- The rows that a region sees are those before its own with their places and the others as they are given. -/
theorem getElem?_rows_sceneAt {row : Row} (h : ctx.rows[i]? = some row) (j : Nat) :
    (ctx.sceneAt j).rows[i]? = some (if i < j then Keyed.extend row (decoration i ctx.rows.length) else row) := by
  obtain ⟨hlt, -⟩ := List.getElem?_eq_some_iff.mp h
  unfold sceneAt
  by_cases hbefore : i < j
  · have htaken : i < (ctx.decorated.take j).length := by
      rw [List.length_take, length_decorated]
      omega
    rw [if_pos hbefore, List.getElem?_append_left htaken, List.getElem?_take_of_lt hbefore]
    unfold decorated
    rw [List.getElem?_mapIdx, h]
    rfl
  · have htaken : (ctx.decorated.take j).length = j := by
      rw [List.length_take, length_decorated]
      omega
    rw [if_neg hbefore, List.getElem?_append_right (by omega), htaken, List.getElem?_drop, Nat.add_sub_cancel' (by omega), h]

/-- What a region sees of a row with its place: the row, the parameters, and among the rows the row itself, which has its place only
for the regions of later rows. -/
theorem placed_sceneAt {row : Row} (h : ctx.rows[i]? = some row) :
    Placed (i + 1) ctx.rows.length row (ctx.sceneAt i).row ∧
      Placed (i + 1) ctx.rows.length ctx.parameters (ctx.sceneAt i).parameters ∧
      (ctx.sceneAt i).modelRegistry = ctx.modelRegistry ∧ (ctx.sceneAt i).runtime = ctx.runtime ∧
      ∃ placed, Placed (i + 1) ctx.rows.length row placed ∧ ctx.decorated[i]? = some placed ∧
        ∀ j, (ctx.sceneAt j).rows[i]? = some (if i < j then placed else row) := by
  have hrow : (ctx.sceneAt i).row = Keyed.extend row (decoration i ctx.rows.length) := by
    unfold sceneAt
    rw [h]
    rfl
  have hdecorated : ctx.decorated[i]? = some (Keyed.extend row (decoration i ctx.rows.length)) := by
    unfold decorated
    rw [List.getElem?_mapIdx, h]
    rfl
  rw [hrow]
  exact ⟨placed_extend i _ row, placed_extend i _ ctx.parameters, rfl, rfl, _, placed_extend i _ row, hdecorated,
    getElem?_rows_sceneAt h⟩

/-- After all rows every row has its place. -/
theorem rows_before_length (ctx : Context) : (ctx.before ctx.rows.length).rows = ctx.decorated := by
  unfold before
  dsimp only
  rw [List.take_of_length_le (Nat.le_of_eq ctx.length_decorated), List.drop_of_length_le (Nat.le_refl _), List.append_nil]

theorem parameters_before (h : i ≠ 0) :
    (ctx.before i).parameters = Keyed.extend ctx.parameters (decoration (i - 1) ctx.rows.length) := by
  cases i with
  | zero => exact absurd rfl h
  | succ last => rfl

end Context

namespace Rendering

variable {σ : Type}

/-- Some texts one after the other, or what is wrong with the first of them that failed. -/
def joined : List (Except RenderError String) → Except RenderError String
  | [] => .ok ""
  | .error e :: _ => .error e
  | .ok text :: rest => (joined rest).map (text ++ ·)

theorem joined_append (front back : List (Except RenderError String)) :
    joined (front ++ back) = (joined front).bind fun text => (joined back).map (text ++ ·) := by
  induction front with
  | nil =>
    change joined back = (joined back).map ("" ++ ·)
    cases joined back with
    | error e => rfl
    | ok text => exact congrArg Except.ok String.empty_append.symm
  | cons first rest ih =>
    rcases first with e | text
    · rfl
    · change (joined (rest ++ back)).map (text ++ ·) = ((joined rest).map (text ++ ·)).bind _
      rw [ih]
      cases joined rest with
      | error e => rfl
      | ok text' =>
        change ((joined back).map (text' ++ ·)).map (text ++ ·) = (joined back).map (text ++ text' ++ ·)
        cases joined back with
        | error e => rfl
        | ok text'' => exact congrArg Except.ok (String.append_assoc ..).symm

/-- A step leads from one context to another, but for the text of the view. To this it adds some texts one after the other, or
it fails as the first of them that fails. -/
def Appends (x : Rendering σ Unit) (c : Context) (texts : List (Except RenderError String)) (c' : Context) : Prop :=
  ∀ a text, a.ctx = { c with renderedView := text } →
    match joined texts with
    | .ok added => ∃ b, exec x a = (.ok (), b) ∧ b.ctx = { c' with renderedView := text ++ added }
    | .error e => ∃ b, exec x a = (.error e, b)

namespace Appends

variable {c c' c'' : Context} {texts texts' : List (Except RenderError String)}

theorem ret (c : Context) : Appends (pure () : Rendering σ Unit) c [] c :=
  fun a text ha => ⟨a, rfl, by rw [ha, String.append_empty]⟩

/-- A change that leaves the text of the view alone adds nothing to it. -/
theorem change {f : Context → Context}
    (hf : ∀ text, f { c with renderedView := text } = { c' with renderedView := text }) :
    Appends (Renderer.change f : Rendering σ Unit) c [] c' := by
  intro a text ha
  refine ⟨_, exec_change f a, ?_⟩
  dsimp only
  rw [ha, hf, String.append_empty]

/-- A step that ends well leads to its context, with some text of the view. -/
theorem ctx_of_ok {x : Rendering σ Unit} (hx : Appends x c texts c') {a b : Run σ} {text : String}
    (ha : a.ctx = { c with renderedView := text }) (hb : exec x a = (.ok (), b)) :
    ∃ text', b.ctx = { c' with renderedView := text' } := by
  have hend := hx a text ha
  cases htexts : joined texts with
  | error e =>
    rw [htexts, hb] at hend
    obtain ⟨b', hb'⟩ := hend
    cases hb'
  | ok added =>
    rw [htexts, hb] at hend
    obtain ⟨b', hb', hctx⟩ := hend
    cases hb'
    exact ⟨_, hctx⟩

theorem bind {x : Rendering σ Unit} {f : Unit → Rendering σ Unit} (hx : Appends x c texts c')
    (hf : Appends (f ()) c' texts' c'') : Appends (x >>= f) c (texts ++ texts') c'' := by
  intro a text ha
  have hfirst := hx a text ha
  rw [joined_append]
  cases htexts : joined texts with
  | error e =>
    rw [htexts] at hfirst
    obtain ⟨b, hb⟩ := hfirst
    exact ⟨b, exec_bind_error hb⟩
  | ok added =>
    rw [htexts] at hfirst
    obtain ⟨b, hb, hctx⟩ := hfirst
    have hrest := hf b (text ++ added) hctx
    rw [exec_bind_ok hb]
    change match (joined texts').map (added ++ ·) with
      | .ok added' => ∃ d, exec (f ()) b = (.ok (), d) ∧ d.ctx = { c'' with renderedView := text ++ added' }
      | .error e => ∃ d, exec (f ()) b = (.error e, d)
    cases htexts' : joined texts' with
    | error e =>
      rw [htexts'] at hrest
      exact hrest
    | ok added' =>
      rw [htexts'] at hrest
      obtain ⟨d, hd, hctx'⟩ := hrest
      exact ⟨d, hd, by rw [hctx', String.append_assoc]⟩

end Appends

end Rendering

namespace Renderer

open Rendering

variable {σ : Type} {r : Renderer σ} {v : View} {c c' : Context} {row : Row}

/-! ## Regions -/

/-- The text of a region for a scene; a region without a file is empty. -/
def regionText (r : Renderer σ) (v : View) (region : Region) (scene : Scene) : Except RenderError String :=
  if r.hasTemplate (regionPath v region) then r.execute (regionPath v region) scene else .ok ""

/-- A region adds its text to the view. -/
theorem appends_appendRegion (r : Renderer σ) (v : View) (region : Region) (row : Row) (c : Context) :
    Appends (r.appendRegion v region row) c [r.regionText v region (c.scene row)] c := by
  intro a text ha
  unfold appendRegion regionText
  dsimp only
  by_cases hfile : r.hasTemplate (regionPath v region) = true
  · rw [if_pos hfile, if_pos hfile, exec_bind_ok (exec_context a), ha]
    have hscene : Context.scene { c with renderedView := text } row = c.scene row := rfl
    have hrun := exec_run r (regionPath v region) (c.scene row) a
    rw [hscene]
    cases hout : r.execute (regionPath v region) (c.scene row) with
    | error e =>
      rw [hout] at hrun
      exact ⟨_, exec_bind_error hrun⟩
    | ok output =>
      rw [hout] at hrun
      refine ⟨_, (exec_bind_ok hrun).trans (exec_change _ _), ?_⟩
      dsimp only
      rw [ha, String.append_empty]
  · rw [if_neg hfile, if_neg hfile]
    refine ⟨a, rfl, ?_⟩
    dsimp only
    rw [ha, String.append_empty, String.append_empty]

/-- The regions of the row at an index among some rows. -/
def regionsAt (total i : Nat) : List Region :=
  (if i = 0 then [.header] else []) ++ .body :: if i + 1 = total then [.footer] else []

theorem map_stagesOf (total i : Nat) : (stagesOf total i).map Prod.snd = regionsAt total i := by
  unfold stagesOf regionsAt
  split <;> split <;> rfl

/-! ## Events -/

/-- The rows among the items of a list of rows are those rows. -/
theorem rowsAmong_map (rows : List Row) : rowsAmong (rows.map Data.object) = rows := by
  induction rows with
  | nil => rfl
  | cons row rest ih =>
    rw [rowsAmong] at ih
    rw [rowsAmong, List.map_cons, List.filterMap_cons, ih]
    rfl

section

variable (hrepeats : r.listener.Repeats)
include hrepeats

/-- An event for a row gives the row back and leaves the context as it is. -/
theorem exec_fireRow_repeats (event : Event) (row : Row) (a : Run σ) :
    ∃ b, exec (r.fireRow event row) a = (.ok row, b) ∧ b.ctx = a.ctx := by
  have hanswer := hrepeats a.listener event (a.ctx.viewPayload (some (.object row)))
  unfold fireRow
  rw [exec_bind_ok (exec_context a), exec_bind_ok (exec_fire r event _ a), exec_pure, hanswer.row]
  exact ⟨_, rfl, hanswer.apply⟩

/-- Preparing a view puts its data in place, with the attributes of the tag over its parameters, or fails as its binding does. -/
theorem exec_prepare_repeats (v : View) (t : Tag) (a : Run σ) :
    (∃ e, bind v a.ctx.runtime = .error e ∧ exec (r.prepare v t) a = (.error (.binding e), a)) ∨
      ∃ bound b, bind v a.ctx.runtime = .ok bound ∧ exec (r.prepare v t) a = (.ok (), b) ∧
        b.ctx = a.ctx.beginView bound.rows
          (Keyed.extend bound.parameters (t.attributes.map fun (k, s) => (k, Data.text s))) bound.modelRegistry := by
  unfold prepare
  rw [exec_bind_ok (exec_context a)]
  cases bind v a.ctx.runtime with
  | error e => exact Or.inl ⟨e, rfl, rfl⟩
  | ok bound =>
    refine Or.inr ⟨bound, ?_⟩
    dsimp only
    rw [exec_bind_ok (exec_change _ a), exec_bind_ok (exec_context _), exec_bind_ok (exec_fire r _ _ _)]
    dsimp only
    generalize a.ctx.beginView bound.rows _ bound.modelRegistry = c
    have hanswer := hrepeats a.listener .beforeRenderView (c.viewPayload (some (.list (c.rows.map .object))))
    rw [hanswer.apply]
    split
    · rename_i items hitems
      obtain ⟨results, hresults, hlist⟩ := Option.bind_eq_some_iff.mp hitems
      have htold := Option.some.inj (hanswer.queryResults results hresults)
      rw [← htold] at hlist
      rw [← Option.some.inj hlist, rowsAmong_map]
      exact ⟨_, rfl, rfl, rfl⟩
    · exact ⟨_, rfl, rfl, rfl⟩

/-- A region with its event adds the text of the region, and what follows adds the rest. -/
theorem appends_region {texts : List (Except RenderError String)} (event : Event) (region : Region)
    {f : Row → Rendering σ Unit} (hf : Appends (f row) c texts c') :
    Appends (do
      let row ← r.fireRow event row
      r.appendRegion v region row
      f row) c (r.regionText v region (c.scene row) :: texts) c' := by
  intro a text ha
  obtain ⟨b, hb, hctx⟩ := exec_fireRow_repeats hrepeats event row a
  rw [exec_bind_ok hb]
  exact (appends_appendRegion r v region row c).bind hf b text (hctx.trans ha)

/-! ## Rows -/

/-- Some stages of a row add the texts of their regions, and what follows adds the rest. -/
theorem appends_renderStages {texts : List (Except RenderError String)} (stages : List (Event × Region))
    {f : Row → Rendering σ Unit} (hf : Appends (f row) c texts c') :
    Appends (r.renderStages v stages row >>= f) c
      ((stages.map Prod.snd).map (fun region => r.regionText v region (c.scene row)) ++ texts) c' := by
  induction stages with
  | nil => exact hf
  | cons stage rest ih =>
    rw [renderStages_cons]
    simp only [bind_assoc]
    exact appends_region hrepeats stage.1 stage.2 ih

/-- A row adds the texts of its regions, which see its place among the rows. -/
theorem appends_renderRow (ctx : Context) {i : Nat} (hrow : ctx.rows[i]? = some row) :
    Appends (r.renderRow v ctx.rows.length i (parityAt i) row) (ctx.before i)
      ((regionsAt ctx.rows.length i).map fun region => r.regionText v region (ctx.sceneAt i)) (ctx.before (i + 1)) := by
  have place : Appends (Renderer.change (fun ctx' : Context =>
      { ctx' with parameters := Keyed.extend ctx'.parameters (decoration i ctx.rows.length) }) : Rendering σ Unit)
      (ctx.before i) [] (ctx.during i) := .change (ctx.place_before i)
  have last : Appends (Renderer.change (fun ctx' : Context =>
      { ctx' with rows := ctx'.rows.set i (Keyed.extend row (decoration i ctx.rows.length)) }) : Rendering σ Unit)
      (ctx.during i) [] (ctx.before (i + 1)) := by
    have hset : (ctx.during i).rows.set i (Keyed.extend row (decoration i ctx.rows.length)) = (ctx.before (i + 1)).rows :=
      Context.set_before hrow
    refine .change fun text => ?_
    dsimp only
    rw [hset]
    rfl
  have hstages := appends_renderStages hrepeats (v := v) (stagesOf ctx.rows.length i)
    (f := fun row => Renderer.change fun ctx => { ctx with rows := ctx.rows.set i row }) last
  rw [map_stagesOf, Context.scene_during hrow, List.append_nil] at hstages
  rw [renderRow_eq]
  exact place.bind hstages

/-- The rows from an index on add the texts of their regions. -/
theorem appends_renderRows (ctx : Context) {i k : Nat} (hk : i + k = ctx.rows.length) :
    Appends (r.renderRows v ctx.rows.length i (parityAt i) (ctx.rows.drop i)) (ctx.before i)
      ((List.range' i k).flatMap fun j => (regionsAt ctx.rows.length j).map fun region => r.regionText v region (ctx.sceneAt j))
      (ctx.before ctx.rows.length) := by
  induction k generalizing i with
  | zero =>
    rw [Nat.add_zero] at hk
    rw [List.drop_of_length_le (Nat.le_of_eq hk.symm), ← hk]
    exact .ret _
  | succ k ih =>
    have hlt : i < ctx.rows.length := by omega
    rw [List.drop_eq_getElem_cons hlt, renderRows_cons, List.range'_succ, List.flatMap_cons]
    have hrow := appends_renderRow hrepeats (v := v) ctx (List.getElem?_eq_getElem hlt)
    exact hrow.bind (ih (by omega))

end

/-! ## Templates -/

/-- The regions that are executed for some rows, each with the index of its row: the header for the first one, the body for every
one, and the footer for the last one. -/
def regionsOf (total : Nat) : List (Region × Nat) :=
  (.header, 0) :: ((List.range total).map fun i => (.body, i)) ++ [(.footer, total - 1)]

theorem flatMap_regionsAt {total i k : Nat} (hk : i + (k + 1) = total) :
    (List.range' i (k + 1)).flatMap (fun j => (regionsAt total j).map fun region => (region, j)) =
      (if i = 0 then [(.header, 0)] else []) ++ (List.range' i (k + 1)).map (fun j => (.body, j)) ++
        [(.footer, total - 1)] := by
  induction k generalizing i with
  | zero =>
    have hlast : i = total - 1 := by omega
    rw [List.range'_one, List.flatMap_singleton, regionsAt, if_pos hk, List.map_append, List.map_singleton, ← hlast]
    split
    · rename_i hfirst
      rw [hfirst]
      rfl
    · rfl
  | succ k ih =>
    have hnot : i + 1 ≠ total := by omega
    have hrest := ih (i := i + 1) (by omega)
    rw [if_neg (Nat.succ_ne_zero i), List.nil_append] at hrest
    rw [List.range'_succ, List.flatMap_cons, hrest, regionsAt, if_neg hnot, List.map_append, List.map_cons]
    split
    · rename_i hfirst
      rw [hfirst]
      rfl
    · rfl

/-- The regions of some rows are those of one row after the other. -/
theorem regionsOf_eq {total : Nat} (h : total ≠ 0) :
    (List.range' 0 total).flatMap (fun j => (regionsAt total j).map fun region => (region, j)) = regionsOf total := by
  obtain ⟨k, rfl⟩ := Nat.exists_eq_succ_of_ne_zero h
  rw [flatMap_regionsAt (Nat.zero_add _), if_pos rfl]
  unfold regionsOf
  rw [List.range_eq_range']
  rfl

/-- All rows add the texts of the regions that the template goes through. -/
theorem appends_allRows (hrepeats : r.listener.Repeats) {ctx : Context} (h : ctx.rows.length ≠ 0) :
    Appends (r.renderRows v ctx.rows.length 0 (parityAt 0) ctx.rows) (ctx.before 0)
      ((regionsOf ctx.rows.length).map fun (region, i) => r.regionText v region (ctx.sceneAt i)) (ctx.before ctx.rows.length) := by
  have htexts : ((regionsOf ctx.rows.length).map fun (region, i) => r.regionText v region (ctx.sceneAt i)) =
      (List.range' 0 ctx.rows.length).flatMap fun j =>
        (regionsAt ctx.rows.length j).map fun region => r.regionText v region (ctx.sceneAt j) := by
    rw [← regionsOf_eq h, List.map_flatMap]
    simp only [List.map_map]
    rfl
  rw [htexts]
  exact appends_renderRows hrepeats ctx (Nat.zero_add _)

/-- The state in which the rows of a template begin. -/
def blankView (a : Run σ) : Run σ :=
  { a with ctx := { a.ctx with renderedView := "" } }

/-- A template with some of its files, but none for all rows at once, goes through its rows and does nothing else. -/
theorem exec_renderTemplate_rows (r : Renderer σ) (v : View) (hregions : r.hasAnyRegion v Region.ofTemplate = true)
    (hcustom : r.hasTemplate (regionPath v .custom) = false) (a : Run σ) :
    exec (r.renderTemplate v) a =
      exec (r.renderRows v a.ctx.rows.length 0 (parityAt 0) a.ctx.rows >>= fun _ => do return (← context).renderedView)
        (blankView a) := by
  unfold renderTemplate
  dsimp only
  rw [hregions, hcustom, Bool.not_true, if_neg Bool.false_ne_true, if_neg Bool.false_ne_true, exec_bind_ok (exec_change _ a),
    exec_bind_ok (exec_context _)]
  rfl

/-- The rows of a template that has some of its files, but none for all rows at once, under a listener that changes nothing. The
template gives the text of the header for the first row, those of the body for every row, and that of the footer for the last
row, or fails as the first of these that fails. Each of them sees its row with its place among the rows, the rows before it with
theirs and the others as they are given, its place over the parameters, and the registry and the runtime as they are. Then every
row has its place, the parameters have that of the last row, the text of the view is what the template gave, and the rest of the
context is as it was. -/
theorem renderTemplate_rows (r : Renderer σ) (hrepeats : r.listener.Repeats) (v : View)
    (hregions : r.hasAnyRegion v Region.ofTemplate = true) (hcustom : r.hasTemplate (regionPath v .custom) = false) (a : Run σ)
    (hrows : a.ctx.rows ≠ []) :
    let total := a.ctx.rows.length
    let texts := (regionsOf total).map fun (region, i) => r.regionText v region (a.ctx.sceneAt i)
    (exec (r.renderTemplate v) a).1 = joined texts ∧
      (∀ i row, a.ctx.rows[i]? = some row →
        Placed (i + 1) total row (a.ctx.sceneAt i).row ∧ Placed (i + 1) total a.ctx.parameters (a.ctx.sceneAt i).parameters ∧
        (a.ctx.sceneAt i).modelRegistry = a.ctx.modelRegistry ∧ (a.ctx.sceneAt i).runtime = a.ctx.runtime ∧
        ∃ placed, Placed (i + 1) total row placed ∧ a.ctx.decorated[i]? = some placed ∧
          ∀ j, (a.ctx.sceneAt j).rows[i]? = some (if i < j then placed else row)) ∧
      ∀ text b, exec (r.renderTemplate v) a = (.ok text, b) →
        Placed total total a.ctx.parameters b.ctx.parameters ∧
        b.ctx = { a.ctx with
          rows := a.ctx.decorated
          parameters := Keyed.extend a.ctx.parameters (decoration (total - 1) total)
          renderedView := text } := by
  intro total texts
  have htotal : total ≠ 0 := fun h => hrows (List.length_eq_zero_iff.mp h)
  have hend : a.ctx.before total = { a.ctx with
      rows := (a.ctx.before total).rows, parameters := (a.ctx.before total).parameters } := rfl
  rw [Context.rows_before_length, Context.parameters_before htotal] at hend
  have hrun := exec_renderTemplate_rows r v hregions hcustom a
  have hloop : Appends (r.renderRows v total 0 (parityAt 0) a.ctx.rows) (a.ctx.before 0) texts (a.ctx.before total) :=
    appends_allRows hrepeats htotal
  have hstep := hloop (blankView a) "" rfl
  rw [hrun]
  cases htexts : joined texts with
  | error e =>
    rw [htexts] at hstep
    obtain ⟨b, hb⟩ := hstep
    rw [exec_bind_error hb]
    exact ⟨rfl, fun i row => Context.placed_sceneAt, fun _ _ h => by cases h⟩
  | ok text =>
    rw [htexts] at hstep
    obtain ⟨b, hb, hctx⟩ := hstep
    rw [String.empty_append, hend] at hctx
    rw [exec_bind_ok hb, exec_bind_ok (exec_context b), exec_pure, hctx]
    refine ⟨rfl, fun i row => Context.placed_sceneAt, fun text' b' h => ?_⟩
    rw [Prod.mk.injEq, Except.ok.injEq] at h
    rw [← h.1, ← h.2, hctx]
    exact ⟨placed_extend_last htotal _, rfl⟩

/-- The values of some fields in order, with spaces between them. -/
def valuesText (fields : Keyed Data) : String :=
  String.intercalate " " (fields.map fun (_, value) => value.compact)

/-- A renderer of a list with a header and a body. The header shows the parameters, and the body its row and how many rows have
their place already. -/
def tallying : Renderer Unit where
  resolve _ := none
  hasTemplate path := path ∈ ["template/list/header.tera", "template/list/body.tera"]
  execute path scene :=
    .ok (if path = "template/list/header.tera" then valuesText scene.parameters
      else "; " ++ valuesText scene.row ++ " after " ++ Nat.repr (scene.rows.countP fun row => Keyed.hasKey row "first"))
  listener := .silent

/-- `renderTemplate_rows` of three rows, of which the second says that it is even and the seventh of itself. -/
theorem renderTemplate_rows_tallied :
    let rows : List Row := [[], [("even_or_odd", .text "odd"), ("row_count", .int 7)], []]
    let a : Run Unit := { ctx := { rows }, listener := () }
    let text := "\"odd\" true false 1 3; \"odd\" true false 1 3 after 0; \"even\" false false 2 3 after 1; " ++
      "\"odd\" false true 3 3 after 2"
    ∃ b, exec (tallying.renderTemplate (.conventional .template "list")) a = (.ok text, b) ∧ b.ctx.renderedView = text ∧
      b.ctx.rows = a.ctx.decorated ∧ Placed 3 3 [] b.ctx.parameters ∧
      Placed 2 3 [("even_or_odd", .text "odd"), ("row_count", .int 7)] (a.ctx.sceneAt 1).row := by
  intro rows a text
  obtain ⟨htext, hscenes, hend⟩ := renderTemplate_rows tallying (.of_unchanged fun _ _ _ => rfl) (.conventional .template "list")
    (by decide +kernel) (by decide +kernel) a (List.cons_ne_nil _ _)
  rcases hrun : exec (tallying.renderTemplate (.conventional .template "list")) a with ⟨res, b⟩
  rw [hrun] at htext hend
  obtain rfl : res = .ok text := htext.trans (eq_ok_of_toOption (by decide +kernel))
  obtain ⟨hplaced, hctx⟩ := hend _ b rfl
  exact ⟨b, rfl, congrArg Context.renderedView hctx, congrArg Context.rows hctx, hplaced, (hscenes 1 _ rfl).1⟩

end Renderer

end Folio
