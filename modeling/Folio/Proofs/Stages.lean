import Folio.Proofs.Rows
import Folio.Proofs.Trace

/-!
# The stages of a row

A row of a template goes through stages, in each of which an event is fired for it and a region is executed (`renderRow_eq`).
`exchanges` lists the events of the stages with the states that they find, and `rowTurns` the rows that have their turn. Whatever
the listener answers, a stage leaves the rows alone (`told_renderStages`), and a turn puts nothing but its own row in place, the
one that was last in effect (`RowTurn.told_renderRow`). So the number of rows stays as it is, and every row comes to its first
event as it was given, with its own place (`renderTemplate_counted`).
-/

namespace Folio

/-- The row in effect after some answers: the last object among them, or else the row as it was. -/
def inEffect (row : Row) (answers : List Outcome) : Row :=
  (answers.filterMap Outcome.row?).getLast?.getD row

theorem inEffect_cons (row : Row) (o : Outcome) (rest : List Outcome) :
    inEffect row (o :: rest) = inEffect (o.row?.getD row) rest := by
  unfold inEffect
  cases h : o.row? with
  | none => rw [List.filterMap_cons_none h, Option.getD_none]
  | some replacement => rw [List.filterMap_cons_some h, List.getLast?_cons, Option.getD_some, Option.getD_some]

/-- From one state to another nothing but some events is fired, the rows stay as they are, and so every template sees them. -/
structure Run.Told {σ : Type} (a : Run σ) (told : List (Event × Payload)) (b : Run σ) : Prop where
  events : b.events = a.events ++ told
  rows : b.ctx.rows = a.ctx.rows
  shown : a.Added (fun m => ∀ path scene, m = .executed path scene → scene.rows = a.ctx.rows) b

namespace Run.Told

variable {σ : Type} {a b c : Run σ} {told told' : List (Event × Payload)}

theorem refl (a : Run σ) : a.Told [] a := ⟨(List.append_nil _).symm, rfl, .none rfl⟩

theorem trans (h : a.Told told b) (h' : b.Told told' c) : a.Told (told ++ told') c := by
  refine ⟨by rw [h'.events, h.events, List.append_assoc], h'.rows.trans h.rows, h.shown.trans (h'.shown.mono ?_)⟩
  intro m hm path scene heq
  exact (hm path scene heq).trans h.rows

end Run.Told

/-- An event that is fired for a row, and the state that it finds. -/
structure Exchange (σ : Type) where
  event : Event
  row : Row
  found : Run σ

namespace Exchange

open Rendering

variable {σ : Type}

/-- What the listener is told. -/
def told (x : Exchange σ) : Event × Payload :=
  (x.event, x.found.ctx.viewPayload (some (.object x.row)))

/-- What the listener answers. -/
def answer (r : Renderer σ) (x : Exchange σ) : Outcome :=
  (r.listener x.found.listener x.told.1 x.told.2).1

/-- The state that the answer leads to. -/
def after (r : Renderer σ) (x : Exchange σ) : Run σ :=
  (exec (r.fire x.told.1 x.told.2) x.found).2

end Exchange

namespace Renderer

open Rendering

variable {σ : Type} (r : Renderer σ) (v : View)

/-! ## Exchanges -/

/-- The exchanges of some stages of a row, up to a stage that fails. -/
def exchanges : List (Event × Region) → Row → Run σ → List (Exchange σ)
  | [], _, _ => []
  | stage :: rest, row, a =>
    ⟨stage.1, row, a⟩ ::
      match exec (r.renderStage v stage row) a with
      | (.ok row, b) => exchanges rest row b
      | (.error _, _) => []

theorem told_appendRegion (region : Region) (row : Row) (a : Run σ) :
    a.Told [] (exec (r.appendRegion v region row) a).2 := by
  unfold appendRegion
  dsimp only
  split
  · rw [exec_bind_ok (exec_context a)]
    have hshown : a.Told [] { a with recorded := .executed (regionPath v region) (a.ctx.scene row) :: a.recorded } := by
      refine ⟨?_, rfl, [_], rfl, fun m hm path scene heq => ?_⟩
      · simp [Run.events, Moment.event?]
      · rw [List.mem_singleton.mp hm, Moment.executed.injEq] at heq
        rw [← heq.2]
        rfl
    rw [exec_bind, exec_run]
    rcases r.execute (regionPath v region) (a.ctx.scene row) with e | output
    · exact hshown
    · exact hshown.trans ⟨(List.append_nil _).symm, rfl, .none rfl⟩
  · exact .refl a

/-- A stage fires its event for the row, and goes on with the row that is answered, or else with the same. -/
theorem told_renderStage (stage : Event × Region) (row : Row) (a : Run σ) :
    a.Told [(⟨stage.1, row, a⟩ : Exchange σ).told] (exec (r.renderStage v stage row) a).2 ∧
      ∀ row', (exec (r.renderStage v stage row) a).1 = .ok row' →
        row' = ((⟨stage.1, row, a⟩ : Exchange σ).answer r).row?.getD row := by
  obtain ⟨event, region⟩ := stage
  generalize hx : (⟨event, row, a⟩ : Exchange σ) = x
  have hfire : exec (r.fireRow event row) a = (.ok ((x.answer r).row?.getD row), x.after r) := by
    rw [← hx]
    rfl
  have htold : a.Told [x.told] (x.after r) := by
    rw [← hx]
    refine ⟨?_, a.ctx.rows_apply _, [_], rfl, fun m hm path scene heq => ?_⟩
    · simp [Run.events, Moment.event?, Exchange.told, Exchange.after, exec_fire]
    · rw [List.mem_singleton.mp hm] at heq
      cases heq
  have happend := told_appendRegion r v region ((x.answer r).row?.getD row) (x.after r)
  unfold renderStage
  rw [exec_bind_ok hfire, exec_bind]
  rcases hc : exec (r.appendRegion v region ((x.answer r).row?.getD row)) (x.after r) with ⟨e | u, c⟩
  · rw [hc] at happend
    exact ⟨htold.trans happend, fun row' h => by cases h⟩
  · rw [hc] at happend
    exact ⟨htold.trans happend, fun row' h => (Except.ok.inj h).symm⟩

theorem exchanges_of_ok {stage : Event × Region} {row row' : Row} {a b : Run σ}
    (h : exec (r.renderStage v stage row) a = (.ok row', b)) (rest : List (Event × Region)) :
    r.exchanges v (stage :: rest) row a = ⟨stage.1, row, a⟩ :: r.exchanges v rest row' b := by
  rw [exchanges, h]

theorem exchanges_of_error {stage : Event × Region} {row : Row} {a b : Run σ} {e : RenderError}
    (h : exec (r.renderStage v stage row) a = (.error e, b)) (rest : List (Event × Region)) :
    r.exchanges v (stage :: rest) row a = [⟨stage.1, row, a⟩] := by
  rw [exchanges, h]

/-- Stages fire the events of their exchanges, all of which find the rows as they are, and end with the row that is then in
effect. -/
theorem told_renderStages (stages : List (Event × Region)) (row : Row) (a : Run σ) :
    a.Told ((r.exchanges v stages row a).map Exchange.told) (exec (r.renderStages v stages row) a).2 ∧
      (∀ x ∈ r.exchanges v stages row a, x.found.ctx.rows = a.ctx.rows) ∧
      ∀ row', (exec (r.renderStages v stages row) a).1 = .ok row' →
        row' = inEffect row ((r.exchanges v stages row a).map (Exchange.answer r)) := by
  induction stages generalizing row a with
  | nil =>
    exact ⟨.refl a, fun x hx => absurd hx List.not_mem_nil, fun row' h => (Except.ok.inj h).symm⟩
  | cons stage rest ih =>
    obtain ⟨htold, hrow⟩ := told_renderStage r v stage row a
    unfold renderStages
    rcases hb : exec (r.renderStage v stage row) a with ⟨e | row', b⟩
    · rw [hb] at htold
      rw [exec_bind_error hb, exchanges_of_error r v hb]
      exact ⟨htold, List.forall_mem_singleton.mpr rfl, fun row' h => by cases h⟩
    · rw [hb] at htold hrow
      obtain ⟨htold', hfound, heffect⟩ := ih row' b
      rw [exec_bind_ok hb, exchanges_of_ok r v hb]
      refine ⟨htold.trans htold', ?_, fun row'' h => ?_⟩
      · exact List.forall_mem_cons.mpr ⟨rfl, fun x hx => (hfound x hx).trans htold.rows⟩
      · rw [heffect row'' h, hrow row' rfl, List.map_cons, inEffect_cons]

end Renderer

/-! ## Turns of rows -/

/-- The turn of a row of a template: the index of the row, the row as it is given, and the state that its turn finds. -/
structure RowTurn (σ : Type) where
  index : Nat
  row : Row
  found : Run σ

namespace RowTurn

open Rendering

variable {σ : Type} (r : Renderer σ) (v : View) (total : Nat) (u : RowTurn σ)

/-- The row with its place among the rows. -/
def placed : Row :=
  Keyed.extend u.row (decoration u.index total)

/-- The state in which the parameters are given the place of the row. -/
def start : Run σ :=
  { u.found with
    ctx := { u.found.ctx with parameters := Keyed.extend u.found.ctx.parameters (decoration u.index total) } }

/-- The exchanges of the row. -/
def exchanges : List (Exchange σ) :=
  r.exchanges v (Renderer.stagesOf total u.index) (u.placed total) (u.start total)

/-- The row that was last in effect: the last object that the listener answered for it, or else the row with its place. -/
def last : Row :=
  inEffect (u.placed total) ((u.exchanges r v total).map (Exchange.answer r))

/-- The turn of a row fires the events of its exchanges. It puts the row that was last in effect in place if it ends well, and
leaves all other rows alone. -/
theorem told_renderRow :
    let ended := exec (r.renderRow v total u.index (parityAt u.index) u.row) u.found
    ended.2.events = u.found.events ++ (u.exchanges r v total).map Exchange.told ∧
      u.found.Added (fun m => ∀ path scene, m = .executed path scene → scene.rows = u.found.ctx.rows) ended.2 ∧
      (∀ x ∈ u.exchanges r v total, x.found.ctx.rows = u.found.ctx.rows) ∧
      ended.2.ctx.rows = (match ended.1 with
        | .ok _ => u.found.ctx.rows.set u.index (u.last r v total)
        | .error _ => u.found.ctx.rows) := by
  intro ended
  obtain ⟨htold, hfound, heffect⟩ :=
    Renderer.told_renderStages r v (Renderer.stagesOf total u.index) (u.placed total) (u.start total)
  have hended : ended = exec (do
      let row ← r.renderStages v (Renderer.stagesOf total u.index) (u.placed total)
      Renderer.change fun ctx => { ctx with rows := ctx.rows.set u.index row }) (u.start total) := by
    change exec (r.renderRow v total u.index (parityAt u.index) u.row) u.found = _
    rw [Renderer.renderRow_eq, exec_bind_ok (exec_change _ _)]
    rfl
  rw [exec_bind] at hended
  rcases hb : exec (r.renderStages v (Renderer.stagesOf total u.index) (u.placed total)) (u.start total) with ⟨e | row, b⟩
  · rw [hb] at htold hended
    rw [hended]
    exact ⟨htold.events, htold.shown, hfound, htold.rows⟩
  · rw [hb] at htold heffect hended
    rw [hended]
    refine ⟨htold.events, htold.shown, hfound, ?_⟩
    change b.ctx.rows.set u.index row = u.found.ctx.rows.set u.index (u.last r v total)
    rw [htold.rows, heffect row rfl]
    rfl

/-- The first event of a row is fired for the row with its place, when the parameters have that too. -/
theorem exists_exchanges_eq :
    ∃ rest, u.exchanges r v total =
      ⟨if u.index = 0 then .beforeRenderViewHead else .beforeRenderViewItem, u.placed total, u.start total⟩ :: rest := by
  unfold exchanges Renderer.stagesOf
  split <;> exact ⟨_, rfl⟩

/-- The turn comes to the row at an index among some rows. It and all its events find as many rows as there are, and the first of
the events tells the listener of the row as it is given, with its place, and of parameters with its place. -/
structure ComesTo (rows : List Row) (i : Nat) : Prop where
  index : u.index = i
  given : rows[i]? = some u.row
  found : u.found.ctx.rows.length = rows.length
  asked : ∀ x ∈ u.exchanges r v rows.length, x.found.ctx.rows.length = rows.length
  first : ∃ payload rest row parameters,
    (u.exchanges r v rows.length).map Exchange.told =
      (if i = 0 then .beforeRenderViewHead else .beforeRenderViewItem, payload) :: rest ∧
    payload.queryResults = some (.object row) ∧ payload.parameters = some parameters ∧
    Counted (i + 1) rows.length row ∧ Counted (i + 1) rows.length parameters ∧
    ∀ key ∉ placeKeys, Keyed.get? row key = Keyed.get? u.row key

theorem comesTo {rows : List Row} {i : Nat} (hindex : u.index = i) (hgiven : rows[i]? = some u.row)
    (hfound : u.found.ctx.rows.length = rows.length) : u.ComesTo r v rows i := by
  obtain ⟨-, -, hexchanges, -⟩ := u.told_renderRow r v rows.length
  obtain ⟨rest, hfirst⟩ := u.exists_exchanges_eq r v rows.length
  refine ⟨hindex, hgiven, hfound, fun x hx => (congrArg List.length (hexchanges x hx)).trans hfound, ?_⟩
  rw [hfirst, List.map_cons, ← hindex]
  exact ⟨_, _, _, _, rfl, rfl, rfl, counted_extend _ _ _, counted_extend _ _ _,
    fun key hkey => get?_extend_decoration hkey _ _ _⟩

end RowTurn

namespace Renderer

open Rendering

variable {σ : Type} (r : Renderer σ) (v : View)

/-- The turns of some rows of a template, the first of them being the row at an index of `total`, up to a turn that fails. -/
def rowTurns (total : Nat) : Nat → List Row → Run σ → List (RowTurn σ)
  | _, [], _ => []
  | index, row :: rest, a =>
    ⟨index, row, a⟩ ::
      match exec (r.renderRow v total index (parityAt index) row) a with
      | (.ok _, b) => rowTurns total (index + 1) rest b
      | (.error _, _) => []

theorem rowTurns_of_ok {total index : Nat} {row : Row} {a b : Run σ}
    (h : exec (r.renderRow v total index (parityAt index) row) a = (.ok (), b)) (rest : List Row) :
    r.rowTurns v total index (row :: rest) a = ⟨index, row, a⟩ :: r.rowTurns v total (index + 1) rest b := by
  rw [rowTurns, h]

theorem rowTurns_of_error {total index : Nat} {row : Row} {a b : Run σ} {e : RenderError}
    (h : exec (r.renderRow v total index (parityAt index) row) a = (.error e, b)) (rest : List Row) :
    r.rowTurns v total index (row :: rest) a = [⟨index, row, a⟩] := by
  rw [rowTurns, h]

/-- Rows fire the events of their turns, and their number stays as it is, whatever happens. -/
theorem told_renderRows (total index : Nat) (rows : List Row) (a : Run σ) :
    let ended := exec (r.renderRows v total index (parityAt index) rows) a
    let turns := r.rowTurns v total index rows a
    ended.2.events = a.events ++ turns.flatMap (fun u => (u.exchanges r v total).map Exchange.told) ∧
      a.Added (fun m => ∀ path scene, m = .executed path scene → scene.rows.length = a.ctx.rows.length) ended.2 ∧
      ended.2.ctx.rows.length = a.ctx.rows.length ∧
      ∀ i u, turns[i]? = some u → u.index = index + i ∧ rows[i]? = some u.row ∧
        u.found.ctx.rows.length = a.ctx.rows.length := by
  induction rows generalizing index a with
  | nil => exact ⟨(List.append_nil _).symm, .none rfl, rfl, fun i u h => by cases h⟩
  | cons row rest ih =>
    obtain ⟨hevents, hadded, -, hrows⟩ := RowTurn.told_renderRow r v total ⟨index, row, a⟩
    dsimp only at hevents hadded hrows ⊢
    have hlength : (exec (r.renderRow v total index (parityAt index) row) a).2.ctx.rows.length = a.ctx.rows.length := by
      rw [hrows]
      split
      · exact List.length_set
      · rfl
    have hfirst (i : Nat) (us : List (RowTurn σ)) (u : RowTurn σ) (hu : ((⟨index, row, a⟩ : RowTurn σ) :: us)[i]? = some u)
        (hrest : ∀ j, us[j]? = some u → u.index = index + 1 + j ∧ rest[j]? = some u.row ∧
          u.found.ctx.rows.length = a.ctx.rows.length) :
        u.index = index + i ∧ (row :: rest)[i]? = some u.row ∧ u.found.ctx.rows.length = a.ctx.rows.length := by
      cases i with
      | zero =>
        rw [← Option.some.inj hu]
        exact ⟨rfl, rfl, rfl⟩
      | succ j =>
        obtain ⟨hindex, hrow, hfound⟩ := hrest j hu
        exact ⟨by omega, hrow, hfound⟩
    have hshown : a.Added (fun m => ∀ path scene, m = .executed path scene → scene.rows.length = a.ctx.rows.length)
        (exec (r.renderRow v total index (parityAt index) row) a).2 :=
      hadded.mono fun m hm path scene heq => congrArg List.length (hm path scene heq)
    rw [renderRows_cons]
    rcases hb : exec (r.renderRow v total index (parityAt index) row) a with ⟨e | _, b⟩
    · rw [hb] at hevents hlength hshown
      rw [exec_bind_error hb, rowTurns_of_error r v hb, List.flatMap_singleton]
      exact ⟨hevents, hshown, hlength, fun i u hu => hfirst i [] u hu fun j hj => by cases hj⟩
    · rw [hb] at hevents hlength hshown
      obtain ⟨hevents', hshown', hlength', hturns⟩ := ih (index + 1) b
      rw [exec_bind_ok hb, rowTurns_of_ok r v hb, List.flatMap_cons]
      rw [hlength] at hshown' hlength' hturns
      refine ⟨?_, hshown.trans hshown', hlength', fun i u hu => hfirst i _ u hu fun j hj => hturns j u hj⟩
      rw [hevents', hevents, List.append_assoc]

/-- After all their turns, the rows from an index on are those that were last in effect. -/
theorem rows_renderRows {total index : Nat} {rows : List Row} {a b : Run σ}
    (hlength : a.ctx.rows.length = index + rows.length) (h : exec (r.renderRows v total index (parityAt index) rows) a = (.ok (), b)) :
    (r.rowTurns v total index rows a).map RowTurn.row = rows ∧
      b.ctx.rows = a.ctx.rows.take index ++ (r.rowTurns v total index rows a).map (RowTurn.last r v total) := by
  induction rows generalizing index a with
  | nil =>
    cases h
    refine ⟨rfl, ?_⟩
    rw [List.take_of_length_le (i := index) (Nat.le_of_eq hlength)]
    exact (List.append_nil _).symm
  | cons row rest ih =>
    rw [List.length_cons] at hlength
    rw [renderRows_cons] at h
    obtain ⟨_, c, hc, hrest⟩ := ok_of_exec_bind h
    obtain ⟨-, -, -, hrows⟩ := RowTurn.told_renderRow r v total ⟨index, row, a⟩
    dsimp only at hrows
    rw [hc] at hrows
    obtain ⟨hgiven, hlast⟩ := ih (by rw [hrows, List.length_set]; omega) hrest
    rw [rowTurns_of_ok r v hc, List.map_cons, List.map_cons, hgiven, hlast, hrows]
    refine ⟨rfl, ?_⟩
    have hlt : index < a.ctx.rows.length := by omega
    have htake : (a.ctx.rows.take index).length = index := List.length_take_of_le (Nat.le_of_lt hlt)
    rw [List.set_eq_take_append_cons_drop, if_pos hlt, List.take_append, htake, Nat.add_sub_cancel_left,
      List.take_of_length_le (by rw [htake]; exact Nat.le_succ _), List.append_assoc]
    rfl

/-! ## Templates -/

/-- The turns of the rows of a template without a file for all rows at once. -/
def templateTurns (a : Run σ) : List (RowTurn σ) :=
  if r.hasAnyRegion v Region.ofTemplate then r.rowTurns v a.ctx.rows.length 0 a.ctx.rows (blankView a) else []

/-- A template without a file for all rows at once, whatever its listener answers and however it ends. The number of rows stays as
it is: the end, every turn, every event of a row and every template that is executed finds as many as there were. The events are
those of the turns, which come to the rows in order. The first of each is fired for the row as it was given, with its place among
the rows, and the parameters have its place too. At a good end every row had its turn, and is the row that was last in effect in
it. -/
theorem renderTemplate_counted (r : Renderer σ) (v : View) (hcustom : r.hasTemplate (regionPath v .custom) = false) (a : Run σ) :
    let total := a.ctx.rows.length
    let ended := exec (r.renderTemplate v) a
    let turns := r.templateTurns v a
    ended.2.ctx.rows.length = total ∧
      a.Added (fun m => ∀ path scene, m = .executed path scene → scene.rows.length = total) ended.2 ∧
      ended.2.events = a.events ++ turns.flatMap (fun u => (u.exchanges r v total).map Exchange.told) ∧
      (∀ i (u : RowTurn σ), turns[i]? = some u → u.ComesTo r v a.ctx.rows i) ∧
      ∀ text, ended.1 = .ok text →
        turns.map RowTurn.row = a.ctx.rows ∧ ended.2.ctx.rows = turns.map (RowTurn.last r v total) := by
  intro total ended turns
  cases hregions : r.hasAnyRegion v Region.ofTemplate with
  | false =>
    have hended : ended = (.error (.notFound v.includePath), a) := by
      change exec (r.renderTemplate v) a = _
      unfold renderTemplate
      rw [hregions]
      rfl
    have hturns : turns = [] := by
      change r.templateTurns v a = []
      unfold templateTurns
      rw [hregions, if_neg Bool.false_ne_true]
    rw [hended, hturns]
    exact ⟨rfl, .none rfl, (List.append_nil _).symm, fun i u hu => (by cases hu), nofun⟩
  | true =>
    have hturns : turns = r.rowTurns v total 0 a.ctx.rows (blankView a) := if_pos hregions
    have hended : ended = _ := exec_renderTemplate_rows r v hregions hcustom a
    obtain ⟨hevents, hadded, hlength, hfound⟩ := told_renderRows r v total 0 a.ctx.rows (blankView a)
    have hturn : ∀ i (u : RowTurn σ), turns[i]? = some u → u.ComesTo r v a.ctx.rows i := by
      intro i u hu
      obtain ⟨hindex, hgiven, hrows⟩ := hfound i u (hturns ▸ hu)
      exact u.comesTo r v (hindex.trans (Nat.zero_add i)) hgiven hrows
    rw [hended, exec_bind]
    rcases hb : exec (r.renderRows v total 0 (parityAt 0) a.ctx.rows) (blankView a) with ⟨e | _, b⟩
    · rw [hb, ← hturns] at hevents
      rw [hb] at hadded hlength
      exact ⟨hlength, hadded, hevents, hturn, nofun⟩
    · have hlast : turns.map RowTurn.row = a.ctx.rows ∧ b.ctx.rows = turns.map (RowTurn.last r v total) := by
        rw [hturns]
        exact rows_renderRows r v (a := blankView a) (Nat.zero_add _).symm hb
      rw [hb, ← hturns] at hevents
      rw [hb] at hadded hlength
      exact ⟨hlength, hadded, hevents, hturn, fun _ _ => hlast⟩

/-- A renderer of a list of one file, which shows the mark of each row. The listener numbers its answers: it takes the parameters
away every time, and marks the row with the number but for the second answer, which is no row. -/
def meddling : Renderer Nat where
  resolve _ := none
  hasTemplate path := path = "template/list/body.tera"
  execute _ scene := .ok (((Keyed.get? scene.row "mark").bind Data.text?).getD "")
  listener n _ _ :=
    ({ parameters := some [], queryResults := some (if n = 1 then .null else .object [("mark", .text (Nat.repr n))]) }, n + 1)

/-- `renderTemplate_counted` of two rows, of which the second says that it is the seventh. -/
theorem renderTemplate_counted_meddling :
    let v := View.conventional .template "list"
    let a : Run Nat := { ctx := { rows := [[], [("row_count", .int 7)]] }, listener := 0 }
    let turns := meddling.templateTurns v a
    ∃ b, exec (meddling.renderTemplate v) a = (.ok "02", b) ∧ b.ctx.rows.length = 2 ∧
      (∀ i (u : RowTurn Nat), turns[i]? = some u → u.ComesTo meddling v a.ctx.rows i) ∧
      b.ctx.rows = turns.map (RowTurn.last meddling v 2) ∧
      b.ctx.rows.map (fun row => (Keyed.get? row "mark").bind Data.text?) = [some "0", some "3"] := by
  intro v a turns
  obtain ⟨hlength, -, -, hturns, hend⟩ := renderTemplate_counted meddling v (by decide +kernel) a
  have hmarks : (exec (meddling.renderTemplate v) a).2.ctx.rows.map
      (fun row => (Keyed.get? row "mark").bind Data.text?) = [some "0", some "3"] := by decide +kernel
  have htext : (exec (meddling.renderTemplate v) a).1 = .ok "02" := eq_ok_of_toOption (by decide +kernel)
  exact ⟨_, Prod.ext htext rfl, hlength, hturns, (hend "02" htext).2, hmarks⟩

end Renderer

end Folio
