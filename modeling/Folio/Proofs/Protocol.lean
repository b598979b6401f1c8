import Folio.Proofs.Turns

/-!
# The order of events

`Event.ofDocument` gives the events of a document as a word: those of the page at its ends and between the two passes, and
between these, for every tag in its turn, those of its view, among which stand the events of the rows of a template.
`Fires x a word` says that a step fires a word, or the beginning of one if it fails, and the rules `Fires.bind`,
`Fires.context` and `Fires.change` put words together as the steps are. Turns fire the words of their views one after the other
(`Led.fired`), and so the rendering of a whole document has its word (`render_events`).
-/

namespace Folio

namespace Event

/-- The events of one row: the row at `index` of `total`. -/
def ofRow (total index : Nat) : List Event :=
  (if index = 0 then [beforeRenderViewHead] else []) ++
    beforeRenderViewItem :: (if index + 1 = total then [beforeRenderViewFooter] else [])

/-- The events of the rows of a template: the head, an event for every row, and the footer; none if there are no rows. -/
def ofRows (total : Nat) : List Event :=
  if total = 0 then []
  else beforeRenderViewHead :: (List.replicate total beforeRenderViewItem ++ [beforeRenderViewFooter])

/-- The events of a view that goes through a number of rows. -/
def ofView (rows : Nat) : List Event :=
  beforeRenderView :: (ofRows rows ++ [afterRenderView])

/-- The events of a document, given the rows of the views in its first pass and in its second. -/
def ofDocument (body head : List Nat) : List Event :=
  beforeParse :: (body.flatMap ofView ++ beforeParseHead :: (head.flatMap ofView ++ [afterRender]))

@[simp] theorem ofRows_zero : ofRows 0 = [] := rfl

theorem ofRows_eq_nil_iff (total : Nat) : ofRows total = [] ↔ total = 0 := by
  unfold ofRows
  split <;> simp_all

/-- Behind the first row there is an event for every row, and the footer at the end. -/
theorem flatMap_ofRow (index rows : Nat) (hindex : index ≠ 0) :
    (List.range' index rows).flatMap (ofRow (index + rows)) =
      List.replicate rows beforeRenderViewItem ++ (if rows = 0 then [] else [beforeRenderViewFooter]) := by
  induction rows generalizing index with
  | zero => rfl
  | succ rows ih =>
    have hrest := ih (index + 1) (by omega)
    rw [show index + 1 + rows = index + (rows + 1) by omega] at hrest
    rw [List.range'_succ, List.flatMap_cons, hrest]
    unfold ofRow
    cases rows with
    | zero => simp [hindex]
    | succ rows =>
      simp [hindex, List.replicate_succ]

/-- The events of the rows one after the other. -/
theorem flatMap_ofRow_zero (total : Nat) : (List.range' 0 total).flatMap (ofRow total) = ofRows total := by
  cases total with
  | zero => rfl
  | succ rows =>
    have hrest := flatMap_ofRow 1 rows (by decide)
    rw [Nat.add_comm] at hrest
    rw [List.range'_succ, List.flatMap_cons, hrest]
    unfold ofRow ofRows
    cases rows with
    | zero => rfl
    | succ rows => simp [List.replicate_succ]

end Event

namespace Rendering

variable {σ α β : Type}

/-- From a state a step fires the events of a word in order: all of them if it ends well, and the first of them if it
fails. -/
def Fires (x : Rendering σ α) (a : Run σ) (word : List Event) : Prop :=
  match exec x a with
  | (.ok _, b) => b.fired = a.fired ++ word
  | (.error _, b) => ∃ begun, begun <+: word ∧ b.fired = a.fired ++ begun

namespace Fires

variable {r : Renderer σ} {x : Rendering σ α} {a : Run σ} {word word' : List Event}

theorem of_ok {b : Run σ} {v : α} (hx : exec x a = (.ok v, b)) (h : b.fired = a.fired ++ word) : Fires x a word := by
  unfold Fires
  rw [hx]
  exact h

theorem of_error {b : Run σ} {e : RenderError} {begun : List Event} (hx : exec x a = (.error e, b)) (hle : begun <+: word)
    (h : b.fired = a.fired ++ begun) : Fires x a word := by
  unfold Fires
  rw [hx]
  exact ⟨begun, hle, h⟩

theorem fired_ok {b : Run σ} {v : α} (h : Fires x a word) (hx : exec x a = (.ok v, b)) : b.fired = a.fired ++ word := by
  unfold Fires at h
  rwa [hx] at h

theorem fired_error {b : Run σ} {e : RenderError} (h : Fires x a word) (hx : exec x a = (.error e, b)) :
    ∃ begun, begun <+: word ∧ b.fired = a.fired ++ begun := by
  unfold Fires at h
  rwa [hx] at h

/-- What fails at once has fired the beginning of every word. -/
theorem throw (e : RenderError) (a : Run σ) (word : List Event) : Fires (throw e : Rendering σ α) a word :=
  of_error (exec_throw e a) (List.nil_prefix) (List.append_nil _).symm

/-- A step that goes on where another ended fires its word behind the word of that. -/
theorem bind {f : α → Rendering σ β} (hx : Fires x a word) (hf : ∀ v b, exec x a = (.ok v, b) → Fires (f v) b word') :
    Fires (x >>= f) a (word ++ word') := by
  rcases hxa : exec x a with ⟨e | v, b⟩
  · obtain ⟨begun, hle, hb⟩ := hx.fired_error hxa
    exact of_error (exec_bind_error hxa) (hle.trans (List.prefix_append _ _)) hb
  · have hb := hx.fired_ok hxa
    have hfb := hf v b hxa
    rcases hfa : exec (f v) b with ⟨e | w, c⟩
    · obtain ⟨begun, hle, hc⟩ := hfb.fired_error hfa
      refine of_error ((exec_bind_ok hxa).trans hfa) ((List.prefix_append_right_inj word).mpr hle) ?_
      rw [hc, hb, List.append_assoc]
    · refine of_ok ((exec_bind_ok hxa).trans hfa) ?_
      rw [hfb.fired_ok hfa, hb, List.append_assoc]

/-- A step without events fires none, however it ends. -/
theorem fired_of_quiet (hx : Local r (fun _ => False) x) (a : Run σ) : (exec x a).2.fired = a.fired := by
  obtain ⟨added, hb, hquiet⟩ := hx.grown a
  have hnone : added.reverse.filterMap Moment.event? = [] := by
    rw [List.filterMap_eq_nil_iff]
    intro m hm
    cases m with
    | executed path scene => rfl
    | fired event payload => exact (hquiet event payload (List.mem_reverse.mp hm)).elim
  unfold Run.fired Run.events
  rw [hb, List.reverse_append, List.filterMap_append, hnone, List.append_nil]

theorem quiet (hx : Local r (fun _ => False) x) (a : Run σ) : Fires x a [] := by
  have hfired := fired_of_quiet hx a
  rcases hxa : exec x a with ⟨e | v, b⟩
  · rw [hxa] at hfired
    exact of_error hxa (List.prefix_refl _) (by rw [List.append_nil]; exact hfired)
  · rw [hxa] at hfired
    exact of_ok hxa (by rw [List.append_nil]; exact hfired)

/-- Behind a step without events a word begins. -/
theorem after {f : α → Rendering σ β} (hx : Local r (fun _ => False) x)
    (hf : ∀ v b, exec x a = (.ok v, b) → Fires (f v) b word) : Fires (x >>= f) a word :=
  (quiet hx a).bind hf

/-- What looks at the context goes on from where it is. -/
theorem context {f : Context → Rendering σ β} (h : Fires (f a.ctx) a word) : Fires (Renderer.context >>= f) a word := by
  unfold Fires
  rw [exec_bind_ok (exec_context a)]
  exact h

/-- What changes the context goes on with the changed one. -/
theorem change {f : Unit → Rendering σ β} {g : Context → Context} (h : Fires (f ()) { a with ctx := g a.ctx } word) :
    Fires (Renderer.change g >>= f) a word := by
  unfold Fires
  rw [exec_bind_ok (exec_change g a)]
  exact h

/-- A word that a step without events follows is complete. -/
theorem before {f : α → Rendering σ β} (hx : Fires x a word) (hf : ∀ v, Local r (fun _ => False) (f v)) :
    Fires (x >>= f) a word := by
  have h : Fires (x >>= f) a (word ++ []) := hx.bind fun v b _ => quiet (hf v) b
  rwa [List.append_nil] at h

end Fires

end Rendering

namespace Renderer

open Rendering

variable {σ : Type} (r : Renderer σ)

/-! ## Rows -/

theorem fires_fire (event : Event) (payload : Payload) (a : Run σ) : Fires (r.fire event payload) a [event] := by
  refine Fires.of_ok (exec_fire r event payload a) ?_
  simp [Run.fired, Run.events, Moment.event?]

theorem fires_fireRow (event : Event) (row : Row) (a : Run σ) : Fires (r.fireRow event row) a [event] :=
  Fires.context ((fires_fire r event _ a).before (r := r) fun _ => .ret _)

theorem map_fst_stagesOf (total index : Nat) : (stagesOf total index).map Prod.fst = Event.ofRow total index := by
  unfold stagesOf Event.ofRow
  split <;> split <;> rfl

/-- Some stages of a row fire their events. -/
theorem fires_renderStages (v : View) (stages : List (Event × Region)) (row : Row) (a : Run σ) :
    Fires (r.renderStages v stages row) a (stages.map Prod.fst) := by
  induction stages generalizing row a with
  | nil => exact Fires.quiet (r := r) (.ret _) a
  | cons stage rest ih =>
    rw [renderStages_cons]
    exact (fires_fireRow r stage.1 row a).bind fun row b _ =>
      Fires.after (local_appendRegion r v stage.2 row) fun _ c _ => ih row c

theorem fires_renderRow (v : View) (total index : Nat) (parity : String) (row : Row) (a : Run σ) :
    Fires (r.renderRow v total index parity row) a (Event.ofRow total index) := by
  rw [renderRow_eq, ← map_fst_stagesOf]
  refine Fires.change ?_
  exact (fires_renderStages r v _ _ _).before (r := r) fun _ => .change _ fun _ => ⟨rfl, rfl, rfl⟩

theorem fires_renderRows (v : View) (total index : Nat) (parity : String) (rows : List Row) (a : Run σ) :
    Fires (r.renderRows v total index parity rows) a ((List.range' index rows.length).flatMap (Event.ofRow total)) := by
  induction rows generalizing index parity a with
  | nil => exact Fires.quiet (r := r) (.ret _) a
  | cons row rest ih =>
    rw [List.length_cons, List.range'_succ, List.flatMap_cons]
    exact (fires_renderRow r v total index parity row a).bind fun _ b _ => ih (index + 1) (nextParity parity) b

/-! ## Views -/

/-- The number of rows that a view goes through one by one: only a template without a custom file does. -/
def rowsShown (v : View) (rows : List Row) : Nat :=
  if v.scheme = .template ∧ r.hasTemplate (regionPath v .custom) = false then rows.length else 0

/-- A view without any of its files fails before its first event. -/
theorem fires_unless_missing {α : Type} (v : View) (missing : Bool) {x : Rendering σ α} {a : Run σ} {word : List Event}
    (hx : Fires x a word) : Fires (if missing then throw (.notFound v.includePath) >>= fun _ : Unit => x else x) a word := by
  split
  · exact Fires.of_error (exec_bind_error (exec_throw _ a)) List.nil_prefix (List.append_nil _).symm
  · exact hx

theorem fires_renderTemplate (v : View) (hv : v.scheme = .template) (a : Run σ) :
    Fires (r.renderTemplate v) a (Event.ofRows (r.rowsShown v a.ctx.rows)) := by
  unfold renderTemplate
  refine fires_unless_missing v _ ?_
  dsimp only
  split
  · rename_i hcustom
    have hnone : r.rowsShown v a.ctx.rows = 0 := if_neg fun h => by rw [hcustom] at h; cases h.2
    have hquiet (ctx : Context) : Local r (fun _ => False) (do
        let output ← r.run (regionPath v .custom) (ctx.scene (ctx.rows.head?.getD []))
        change fun ctx => { ctx with renderedView := output }
        return output) :=
      .bind (.run _ _) fun _ => .bind (.change _ fun _ => ⟨rfl, rfl, rfl⟩) fun _ => .ret _
    rw [hnone, Event.ofRows_zero]
    exact Fires.quiet (r := r) (.bind .context hquiet) a
  · rename_i hcustom
    have hall : r.rowsShown v a.ctx.rows = a.ctx.rows.length := if_pos ⟨hv, eq_false_of_ne_true hcustom⟩
    rw [hall, ← Event.flatMap_ofRow_zero]
    refine Fires.change (Fires.context ?_)
    exact (fires_renderRows r v _ 0 _ _ _).before (r := r) fun _ => .bind .context fun _ => .ret _

theorem fires_renderView (v : View) (a : Run σ) : Fires (r.renderView v) a (Event.ofRows (r.rowsShown v a.ctx.rows)) := by
  have other {x : Rendering σ String} (hv : v.scheme ≠ .template) (hx : Local r (fun _ => False) x) :
      Fires x a (Event.ofRows (r.rowsShown v a.ctx.rows)) := by
    have hnone : r.rowsShown v a.ctx.rows = 0 := if_neg fun h => hv h.1
    rw [hnone]
    exact Fires.quiet hx a
  unfold renderView
  split
  · rename_i hv
    exact other (by rw [hv]; decide) (.bind .context fun _ => local_renderPage r _ _)
  · rename_i hv
    exact other (by rw [hv]; decide) (.bind .context fun _ => local_renderPage r _ _)
  · rename_i hv
    exact fires_renderTemplate r v hv a
  · rename_i hv
    exact other (by rw [hv]; decide) (.bind .context fun _ => local_renderWrap r _ _)

/-- The wrap of a view fires nothing. -/
theorem fires_renderTarget (v : View) (t : Tag) (a : Run σ) :
    Fires (r.renderTarget v t) a (Event.ofRows (r.rowsShown v a.ctx.rows)) := by
  unfold renderTarget
  refine (fires_renderView r v a).before (r := r) fun output => ?_
  split
  · exact .ret _
  · refine .bind .context fun ctx => ?_
    have hne := resolveWrap_ne_loopLimit r ctx.seeds t.wrap
    split
    · exact local_renderWrap r _ _
    · rename_i e he
      exact .fail e fun limit h => hne limit (h ▸ he)

/-! ## Turns -/

/-- Preparing a view fires one event. -/
theorem fires_prepare (v : View) (t : Tag) (a : Run σ) : Fires (r.prepare v t) a [.beforeRenderView] := by
  unfold prepare
  refine Fires.context ?_
  split
  · exact Fires.throw _ a _
  · refine Fires.change (Fires.context ((fires_fire r _ _ _).before (r := r) fun outcome => ?_))
    split
    · exact .change _ fun _ => ⟨rfl, rfl, rfl⟩
    · exact .ret _

/-- The number of rows that the view of a turn goes through: those that it has when it is prepared. -/
def turnRows (u : Turn σ) : Nat :=
  match r.resolveSeeded u.found.ctx.seeds u.tag with
  | .error _ => 0
  | .ok v => r.rowsShown v (exec (r.prepare v u.tag) u.found).2.ctx.rows

theorem fires_renderTag (t : Tag) (a : Run σ) : Fires (r.renderTag t) a (Event.ofView (r.turnRows ⟨t, a⟩)) := by
  have output : Fires (r.output t) a (.beforeRenderView :: Event.ofRows (r.turnRows ⟨t, a⟩)) := by
    unfold output turnRows
    refine Fires.context ?_
    dsimp only
    cases r.resolveSeeded a.ctx.seeds t with
    | error e => exact Fires.throw e a _
    | ok v =>
      dsimp only
      refine (fires_prepare r v t a).bind fun _ c hc => ?_
      rw [hc]
      exact fires_renderTarget r v t c
  have after (x : String) (b : Run σ) : Fires (do
      change fun ctx => { ctx with renderedView := x }
      let _ ← r.fire .afterRenderView ((← context).viewPayload none)
      change fun ctx => { ctx with renderedPage := Text.replaceAll ctx.renderedPage t.raw ctx.renderedView }) b
      [.afterRenderView] := by
    refine Fires.change (Fires.context ((fires_fire r _ _ _).before (r := r) fun _ => ?_))
    exact .change _ fun _ => ⟨rfl, rfl, rfl⟩
  exact output.bind fun x b _ => after x b

/-- The events of some turns, one after the other. -/
def turnEvents (us : List (Turn σ)) : List Event :=
  (us.map r.turnRows).flatMap Event.ofView

/-! ## Documents -/

/-- Counting a cycle fires nothing. -/
theorem fired_counted (a : Run σ) : a.counted.fired = a.fired := rfl

/-- Turns that end well fire all their events, and turns that fail the first of them. -/
theorem Led.fired {r : Renderer σ} {us : List (Turn σ)} {res : Except RenderError Unit} {a b : Run σ}
    (h : r.Led a us res b) :
    ∃ begun, begun <+: r.turnEvents us ∧ b.fired = a.fired ++ begun ∧ (res = .ok () → begun = r.turnEvents us) := by
  induction h with
  | ended => exact ⟨[], List.prefix_refl _, (List.append_nil _).symm, fun _ => rfl⟩
  | broken => exact ⟨[], List.prefix_refl _, (List.append_nil _).symm, nofun⟩
  | @failed t a b e ht =>
    obtain ⟨begun, hle, hb⟩ := (fires_renderTag r t a).fired_error ht
    exact ⟨begun, hle.trans (List.prefix_append _ _), hb, nofun⟩
  | @turn t a b c us res ht _ ih =>
    obtain ⟨begun, hle, hc, hall⟩ := ih
    refine ⟨Event.ofView (r.turnRows ⟨t, a⟩) ++ begun, (List.prefix_append_right_inj _).mpr hle, ?_, ?_⟩
    · rw [hc, (fires_renderTag r t a).fired_ok ht, List.append_assoc]
    · intro hres
      rw [hall hres]
      rfl
  | counted _ ih =>
    rw [fired_counted] at ih
    exact ih

theorem fires_pass (excluded : List String) (allowed : Nat) (a : Run σ) :
    Fires (r.pass excluded allowed) a (r.turnEvents (r.passTurns excluded allowed a)) := by
  rcases hpass : exec (r.pass excluded allowed) a with ⟨e | v, b⟩
  · obtain ⟨begun, hle, hb, -⟩ := (led_of_exec_pass hpass).fired
    exact Fires.of_error hpass hle hb
  · obtain ⟨begun, -, hb, hall⟩ := (led_of_exec_pass hpass).fired
    rw [hall rfl] at hb
    exact Fires.of_ok hpass hb

theorem fires_firePage (event : Event) (a : Run σ) : Fires (r.firePage event) a [event] :=
  Fires.context ((fires_fire r event _ a).before (r := r) fun _ => .ret _)

theorem fires_openPage (root : View) (a : Run σ) : Fires (r.openPage root) a [.beforeParse] :=
  (fires_firePage r _ a).before (r := r) fun _ => .bind .context fun _ => .bind (local_renderPage r _ _) fun _ =>
    .change _ fun _ => ⟨rfl, rfl, rfl⟩

theorem fires_renderBody (root : View) (a : Run σ) :
    Fires (r.renderBody root) a (.beforeParse :: (r.turnEvents (r.bodyTurns root a) ++ [.beforeParseHead])) := by
  unfold renderBody bodyTurns
  refine (fires_openPage r root a).bind fun _ b hb => ?_
  rw [hb]
  exact Fires.context ((fires_pass r _ _ b).bind fun _ c _ => fires_firePage r _ c)

theorem fires_renderHead (a : Run σ) :
    Fires r.renderHead a (r.turnEvents (r.passTurns [] (r.remaining a.ctx) a) ++ [.afterRender]) := by
  unfold renderHead
  refine Fires.context ((fires_pass r _ _ a).bind fun _ b _ => ?_)
  exact (fires_firePage r _ b).before (r := r) fun _ => .bind .context fun _ => .ret _

theorem fires_renderFrom (root : View) (a : Run σ) :
    Fires (r.renderFrom root) a
      (Event.ofDocument ((r.bodyTurns root a).map r.turnRows) ((r.headTurns root a).map r.turnRows)) := by
  have hword : Event.ofDocument ((r.bodyTurns root a).map r.turnRows) ((r.headTurns root a).map r.turnRows) =
      .beforeParse :: (r.turnEvents (r.bodyTurns root a) ++ [.beforeParseHead]) ++
        (r.turnEvents (r.headTurns root a) ++ [.afterRender]) := by
    unfold Event.ofDocument turnEvents
    simp only [List.cons_append, List.append_assoc, List.nil_append]
  rw [hword, renderFrom_eq]
  refine (fires_renderBody r root a).bind fun _ d hd => ?_
  unfold headTurns
  rw [hd]
  exact fires_renderHead r d

/-- The view of a completed turn was found and prepared. -/
theorem exists_prepare_of_renderTag {r : Renderer σ} {t : Tag} {a b : Run σ} (h : exec (r.renderTag t) a = (.ok (), b)) :
    ∃ v c, r.resolveSeeded a.ctx.seeds t = .ok v ∧ exec (r.prepare v t) a = (.ok (), c) := by
  obtain ⟨x, c, hx, -⟩ := ok_of_exec_bind h
  unfold output at hx
  rw [exec_bind_ok (exec_context a)] at hx
  cases hv : r.resolveSeeded a.ctx.seeds t with
  | error e =>
    rw [hv] at hx
    cases hx
  | ok v =>
    rw [hv] at hx
    obtain ⟨_, d, hprepare, -⟩ := ok_of_exec_bind hx
    exact ⟨v, d, rfl, hprepare⟩

/-- A turn goes through the rows that its view has when it is prepared, if the view is a template without a custom file. -/
theorem ofRows_turnRows {r : Renderer σ} {u : Turn σ} {v : View} {c : Run σ}
    (hv : r.resolveSeeded u.found.ctx.seeds u.tag = .ok v) (hc : exec (r.prepare v u.tag) u.found = (.ok (), c)) :
    (Event.ofRows (r.turnRows u) ≠ [] ↔
      v.scheme = .template ∧ r.hasTemplate (regionPath v .custom) = false ∧ c.ctx.rows ≠ []) ∧
      (Event.ofRows (r.turnRows u) ≠ [] → r.turnRows u = c.ctx.rows.length) := by
  have hrows : r.turnRows u = r.rowsShown v c.ctx.rows := by
    unfold turnRows
    rw [hv]
    dsimp only
    rw [hc]
  rw [hrows, Ne, Event.ofRows_eq_nil_iff]
  unfold rowsShown
  split
  · rename_i hshown
    rw [List.length_eq_zero_iff]
    exact ⟨⟨fun hne => ⟨hshown.1, hshown.2, hne⟩, fun h => h.2.2⟩, fun _ => rfl⟩
  · rename_i hshown
    exact ⟨⟨fun hne => absurd rfl hne, fun h => absurd ⟨h.1, h.2.1⟩ hshown⟩, fun hne => absurd rfl hne⟩

/-- The events of a rendering are those of its turns, in the first pass and in the second, between those of the page: the
first of them if it fails, and all of them if it ends well. Then every turn has found and prepared its view, and has fired all
the events of that. In every rendering a view fires events for its rows exactly if it is a template without a custom file
that has rows when it is prepared, and then it goes through all of those. -/
theorem render_events (r : Renderer σ) (root : View) (runtime : Runtime) (listener : σ) :
    let ended := r.render root runtime listener
    let body := r.bodyTurns root (r.initial runtime listener)
    let head := r.headTurns root (r.initial runtime listener)
    ended.2.fired <+: Event.ofDocument (body.map r.turnRows) (head.map r.turnRows) ∧
      (∀ page, ended.1 = .ok page →
        ended.2.fired = Event.ofDocument (body.map r.turnRows) (head.map r.turnRows) ∧
          ∀ u ∈ body ++ head, ∃ v b c, r.resolveSeeded u.found.ctx.seeds u.tag = .ok v ∧
            exec (r.prepare v u.tag) u.found = (.ok (), b) ∧ exec (r.renderTag u.tag) u.found = (.ok (), c) ∧
            c.fired = u.found.fired ++ Event.ofView (r.turnRows u)) ∧
      ∀ u ∈ body ++ head, ∀ v b, r.resolveSeeded u.found.ctx.seeds u.tag = .ok v →
        exec (r.prepare v u.tag) u.found = (.ok (), b) →
        (Event.ofRows (r.turnRows u) ≠ [] ↔
          v.scheme = .template ∧ r.hasTemplate (regionPath v .custom) = false ∧ b.ctx.rows ≠ []) ∧
        (Event.ofRows (r.turnRows u) ≠ [] → r.turnRows u = b.ctx.rows.length) := by
  intro ended body head
  have hfires := fires_renderFrom r root (r.initial runtime listener)
  have hnew : (r.initial runtime listener).fired = [] := rfl
  have hexec : exec (r.renderFrom root) (r.initial runtime listener) = (ended.1, ended.2) := rfl
  refine ⟨?_, ?_, ?_⟩
  · rcases hres : ended.1 with e | page
    · rw [hres] at hexec
      obtain ⟨begun, hle, hfired⟩ := hfires.fired_error hexec
      rw [hfired, hnew]
      exact hle
    · rw [hres] at hexec
      rw [hfires.fired_ok hexec, hnew]
      exact List.prefix_refl _
  · intro page hpage
    rw [hpage] at hexec
    refine ⟨by rw [hfires.fired_ok hexec, hnew]; rfl, ?_⟩
    intro u hu
    obtain ⟨c, hc⟩ := renderTag_of_mem_documentTurns hexec hu
    obtain ⟨v, b, hv, hb⟩ := exists_prepare_of_renderTag hc
    exact ⟨v, b, c, hv, hb, hc, (fires_renderTag r u.tag u.found).fired_ok hc⟩
  · intro u _ v b hv hb
    exact ofRows_turnRows hv hb

/-- A renderer whose theme asks for a template of one file, which reads the primary data. -/
def oneTemplate : Renderer Unit where
  resolve _ := some { View.conventional .template "list" with parameters := [("model_name", .text Binding.primaryModel)] }
  hasTemplate path := path = "theme/default.tera" || path = "template/list/body.tera"
  execute path _ := .ok (if path = "theme/default.tera" then "[<include list />]" else "x")
  listener := Listener.silent

/-- `render_events` of a template with two rows. -/
theorem render_events_twoRows :
    let root := View.conventional .theme "default"
    let runtime : Runtime := { primary := { data := .list [.int 1, .int 2] } }
    let body := oneTemplate.bodyTurns root (oneTemplate.initial runtime ())
    let head := oneTemplate.headTurns root (oneTemplate.initial runtime ())
    (oneTemplate.render root runtime ()).1 = .ok "[xx]" ∧ body.map oneTemplate.turnRows = [2] ∧
      head.map oneTemplate.turnRows = [] ∧
      (oneTemplate.render root runtime ()).2.fired =
        [.beforeParse, .beforeRenderView, .beforeRenderViewHead, .beforeRenderViewItem, .beforeRenderViewItem,
          .beforeRenderViewFooter, .afterRenderView, .beforeParseHead, .afterRender] := by
  intro root runtime body head
  have hpage : (oneTemplate.render root runtime ()).1 = .ok "[xx]" := eq_ok_of_toOption (by decide +kernel)
  have hbody : body.map oneTemplate.turnRows = [2] := by decide +kernel
  have hhead : head.map oneTemplate.turnRows = [] := by decide +kernel
  obtain ⟨-, hok, -⟩ := render_events oneTemplate root runtime ()
  have hfired := (hok "[xx]" hpage).1
  rw [show oneTemplate.bodyTurns root (oneTemplate.initial runtime ()) = body from rfl,
    show oneTemplate.headTurns root (oneTemplate.initial runtime ()) = head from rfl, hbody, hhead] at hfired
  exact ⟨hpage, hbody, hhead, hfired⟩

end Renderer

end Folio
