import Folio.Proofs.Cycle
import Folio.Proofs.Expansion
import Folio.Proofs.Silence

/-!
# A document is the expansion of its root

Without a listener that answers, and as long as the texts are closed, the page of a rendering is always made of sound blocks
(`Tidy`), and a cycle only ever puts the output of a tag in the place of that tag (`Tidy.renderTags`). So the page at the
end of a pass is a rewriting of the page at its beginning (`Tidy.pass_ok`), and expands to the same. In the other direction
every cycle takes the page one level up (`Tidy.renderTags_depth`), so as many cycles are enough for a pass as the outputs are
nested deep (`Tidy.pass_depth`). `render_expands` puts the two passes together.
-/

namespace Folio

namespace Renderer

open Rendering Tag

variable {r : Renderer Unit} {runtime : Runtime} {text : List Char} {excluded : List String}

/-- The outputs of the tags that a rendering of a text can come to are closed. -/
def OutputsClosed (r : Renderer Unit) (fold : Char → Char) (runtime : Runtime) (text : List Char) : Prop :=
  ∀ t o, Reached (r.outputOf runtime) text t → r.outputOf runtime t = .ok o → Closed fold o.toList

/-- The page of a state is made of sound blocks with tags that can be come to, and the state has the runtime and the seeds
that the rendering began with. -/
structure Tidy (r : Renderer Unit) (runtime : Runtime) (text : List Char) (a : Run Unit) (bs : List Block) : Prop where
  page : a.ctx.renderedPage.toList = flat bs
  sound : ∀ b ∈ bs, b.Sound
  reached : ∀ w t, .tag w ∈ bs → decode? w = some t → Reached (r.outputOf runtime) text t
  seeds : a.ctx.seeds = r.seedsOf runtime.route
  runtime : a.ctx.runtime = runtime

/-- A tag is asked for by a whole tag that a rendering can come to. -/
def Asked (r : Renderer Unit) (runtime : Runtime) (text : List Char) (excluded : List String) (t : Tag) : Prop :=
  ∃ w, Whole w ∧ wanted? excluded w = some t ∧ Reached (r.outputOf runtime) text t

/-- The tags that a pass finds in a tidy page are asked for by blocks of it. -/
theorem Tidy.mem_parse_iff {a : Run Unit} {bs : List Block} (h : Tidy r runtime text a bs) {t : Tag} :
    t ∈ Tag.parse a.ctx.renderedPage excluded ↔ ∃ w, .tag w ∈ bs ∧ wanted? excluded w = some t := by
  rw [Tag.mem_parse_iff, h.page, scan_flat h.sound]
  constructor
  · rintro ⟨w, hw, ht⟩
    obtain ⟨b, hb, hraw⟩ := List.mem_filterMap.mp hw
    cases b with
    | plain s => cases hraw
    | tag w' =>
      cases hraw
      exact ⟨w, hb, ht⟩
  · rintro ⟨w, hw, ht⟩
    exact ⟨w, List.mem_filterMap.mpr ⟨_, hw, rfl⟩, ht⟩

theorem Tidy.asked {a : Run Unit} {bs : List Block} (h : Tidy r runtime text a bs) :
    ∀ t ∈ Tag.parse a.ctx.renderedPage excluded, Asked r runtime text excluded t := by
  intro t ht
  obtain ⟨w, hw, hwanted⟩ := h.mem_parse_iff.mp ht
  exact ⟨w, h.sound _ hw, hwanted, h.reached w t hw (wanted?_eq_some_iff.mp hwanted).1⟩

/-- Two whole tags that ask for the same tag are the same. -/
theorem eq_of_wanted? {w w' : Raw} {t : Tag} (hw : Whole w) (hw' : Whole w') (h : wanted? excluded w = some t)
    (h' : wanted? excluded w' = some t) : w = w' := by
  have htext := raw_of_decode? (wanted?_eq_some_iff.mp h).1
  rw [raw_of_decode? (wanted?_eq_some_iff.mp h').1, String.ofList_inj] at htext
  have hp : w.text <+: w'.text ++ [] := ⟨[], by rw [htext]⟩
  exact hw.eq_of_prefix hw' hp

/-- A tidy page holds the text of a tag exactly if the tag is one of its blocks. -/
theorem Tidy.contains_iff {a : Run Unit} {bs : List Block} (h : Tidy r runtime text a bs) {w : Raw} {t : Tag}
    (hw : Whole w) (ht : wanted? excluded w = some t) :
    Text.contains a.ctx.renderedPage t.raw = true ↔ .tag w ∈ bs := by
  rw [Text.contains, raw_of_decode? (wanted?_eq_some_iff.mp ht).1, String.toList_ofList, h.page, occurs_flat h.sound hw]

/-- Counting a cycle leaves the page tidy. -/
theorem Tidy.counted {a : Run Unit} {bs : List Block} (h : Tidy r runtime text a bs) : Tidy r runtime text a.counted bs :=
  ⟨h.page, h.sound, h.reached, h.seeds, h.runtime⟩

section Closed

variable (hs : r.listener = Listener.silent) (hclosed : r.OutputsClosed Char.toLower runtime text)
include hs hclosed

/-- Rendering a tag leaves the page tidy, with the output of the tag in its place. -/
theorem Tidy.renderTag_ok {a : Run Unit} {bs : List Block} (h : Tidy r runtime text a bs) {w : Raw} {t : Tag} {o : String}
    (hw : Whole w) (ht : wanted? excluded w = some t) (hreached : Reached (r.outputOf runtime) text t)
    (ho : r.outputOf runtime t = .ok o) :
    ∃ b new, exec (r.renderTag t) a = (.ok (), b) ∧ flat new = o.toList ∧ (∀ b ∈ new, b.Sound) ∧
      Tidy r runtime text b (put w new bs) := by
  obtain ⟨b, hb, hpage, hruntime⟩ := exec_renderTag_ok hs h.runtime h.seeds ho
  obtain ⟨new, hnew, hflat⟩ := (hclosed t o hreached ho).blocks
  refine ⟨b, new, hb, hflat, hnew, ?_, ?_, ?_, ?_, hruntime⟩
  · have hraw := raw_of_decode? (wanted?_eq_some_iff.mp ht).1
    have hne : w.text ≠ [] := Whole.text_ne_nil
    rw [hpage, Text.replaceAll, hraw, String.toList_ofList, if_neg hne, String.toList_ofList, h.page, ← hflat,
      replaceIn_flat h.sound hw]
  · intro b hb
    rcases mem_put_iff.mp hb with ⟨hb, -⟩ | ⟨hb, -⟩
    · exact hnew b hb
    · exact h.sound b hb
  · intro w' u hw' hu
    rcases mem_put_iff.mp hw' with ⟨hw', -⟩ | ⟨hw', -⟩
    · have hscan : w' ∈ scan o.toList := by
        rw [← hflat, scan_flat hnew]
        exact List.mem_filterMap.mpr ⟨_, hw', rfl⟩
      exact .inner hreached ho hscan hu
    · exact h.reached w' u hw' hu
  · rw [((local_renderTag r t).level_of_exec hb).seeds]
    exact h.seeds

/-- The tags of a cycle are replaced by their outputs, one after the other, unless the output of one fails that can be come
to. -/
theorem Tidy.renderTags {tags : List Tag} {res : Except RenderError Unit} {a b : Run Unit} {bs : List Block}
    (h : Tidy r runtime text a bs) (hasked : ∀ t ∈ tags, Asked r runtime text excluded t)
    (hexec : exec (r.renderTags tags) a = (res, b)) :
    (res = .ok () ∧ ∃ cs, Tidy r runtime text b cs ∧ Rewrites (r.outputOf runtime) excluded bs cs) ∨
      ∃ e t, res = .error e ∧ Reached (r.outputOf runtime) text t ∧ r.outputOf runtime t = .error e := by
  induction tags generalizing a bs with
  | nil =>
    cases hexec
    exact Or.inl ⟨rfl, bs, h, .refl⟩
  | cons t rest ih =>
    have hrest : ∀ t ∈ rest, Asked r runtime text excluded t := fun t' ht' => hasked t' (List.mem_cons_of_mem _ ht')
    rw [exec_renderTags_cons] at hexec
    split at hexec
    · obtain ⟨w, hw, ht, hreached⟩ := hasked t List.mem_cons_self
      cases ho : r.outputOf runtime t with
      | error e =>
        obtain ⟨c, hc⟩ := exec_renderTag_error hs h.runtime h.seeds ho
        rw [exec_bind_error hc, Prod.mk.injEq] at hexec
        exact Or.inr ⟨e, t, hexec.1.symm, hreached, ho⟩
      | ok o =>
        obtain ⟨c, new, hc, hflat, hnew, htidy⟩ := h.renderTag_ok hs hclosed hw ht hreached ho
        rw [exec_bind_ok hc] at hexec
        rcases ih htidy hrest hexec with ⟨hok, cs, hcs, hrewrites⟩ | hfails
        · exact Or.inl ⟨hok, cs, hcs, (Rewrites.put .refl ht ho hflat hnew).trans hrewrites⟩
        · exact Or.inr hfails
    · exact ih h hrest hexec

/-- A cycle takes a page one level up: its tags can all be rendered, and what is left expands less deep. -/
theorem Tidy.renderTags_depth {n : Nat} {tags : List Tag} {a : Run Unit} {bs : List Block} (h : Tidy r runtime text a bs)
    (hasked : ∀ t ∈ tags, ∃ w, Whole w ∧ wanted? excluded w = some t ∧ Reached (r.outputOf runtime) text t ∧
      ∃ e, ExpandsTag (r.outputOf runtime) excluded (n + 1) w e)
    (hdepth : ∀ w, .tag w ∈ bs → (∃ e, ExpandsTag (r.outputOf runtime) excluded n w e) ∨
      ∃ t ∈ tags, wanted? excluded w = some t) :
    ∃ b cs, exec (r.renderTags tags) a = (.ok (), b) ∧ Tidy r runtime text b cs ∧
      ∀ w, .tag w ∈ cs → ∃ e, ExpandsTag (r.outputOf runtime) excluded n w e := by
  -- by induction on the tags whose turn is still to come: every tag in the page is one of them, or not too deep already
  induction tags generalizing a bs with
  | nil =>
    refine ⟨a, bs, rfl, h, ?_⟩
    intro w hw
    rcases hdepth w hw with hw | ⟨t, ht, -⟩
    · exact hw
    · cases ht
  | cons t rest ih =>
    have hrest := fun t' ht' => hasked t' (List.mem_cons_of_mem t ht')
    obtain ⟨w, hw, ht, hreached, e, hexpands⟩ := hasked t List.mem_cons_self
    rw [exec_renderTags_cons]
    split
    · rcases hexpands with ⟨hnone, -⟩ | ⟨k, t', o, hk, ht', ho, hinner⟩
      · rw [ht] at hnone
        cases hnone
      · rw [ht, Option.some.injEq] at ht'
        obtain rfl : k = n := by omega
        subst ht'
        obtain ⟨c, new, hc, hflat, hnew, htidy⟩ := h.renderTag_ok hs hclosed hw ht hreached ho
        rw [exec_bind_ok hc]
        refine ih htidy hrest ?_
        intro w' hw'
        rcases mem_put_iff.mp hw' with ⟨hw', -⟩ | ⟨hw', hne⟩
        · rw [← hflat] at hinner
          exact Or.inl ((expands_flat_iff hnew).mp ⟨e, hinner⟩ w' hw')
        · rcases hdepth w' hw' with hdepth | ⟨u, hu, hwanted⟩
          · exact Or.inl hdepth
          · rcases List.mem_cons.mp hu with rfl | hu
            · rw [eq_of_wanted? (h.sound _ hw') hw hwanted ht] at hne
              exact absurd rfl hne
            · exact Or.inr ⟨u, hu, hwanted⟩
    · rename_i habsent
      refine ih h hrest ?_
      intro w' hw'
      rcases hdepth w' hw' with hdepth | ⟨u, hu, hwanted⟩
      · exact Or.inl hdepth
      · rcases List.mem_cons.mp hu with rfl | hu
        · exact absurd ((h.contains_iff (h.sound _ hw') hwanted).mpr hw') habsent
        · exact Or.inr ⟨u, hu, hwanted⟩

/-! ## Passes -/

/-- A completed cycle leaves the page tidy, with outputs in the places of tags. -/
theorem Tidy.cycle {a b : Run Unit} {bs : List Block} (h : Tidy r runtime text a bs) (hcycle : r.Cycle excluded a b) :
    ∃ cs, Tidy r runtime text b cs ∧ Rewrites (r.outputOf runtime) excluded bs cs := by
  obtain ⟨-, mid, hmid, rfl⟩ := hcycle
  rcases h.renderTags hs hclosed h.asked hmid with ⟨-, cs, hcs, hrewrites⟩ | ⟨e, t, he, -⟩
  · exact ⟨cs, hcs.counted, hrewrites⟩
  · cases he

/-- A pass that ends well leaves a tidy page without tags to ask for, with outputs in the places of tags. -/
theorem Tidy.pass_ok {n : Nat} {a b : Run Unit} {bs : List Block} (h : Tidy r runtime text a bs)
    (hpass : r.PassRun excluded n a (.ok ()) b) :
    ∃ cs, Tidy r runtime text b cs ∧ Rewrites (r.outputOf runtime) excluded bs cs ∧
      Tag.parse b.ctx.renderedPage excluded = [] := by
  generalize hres : (Except.ok () : Except RenderError Unit) = res at hpass
  induction hpass generalizing bs with
  | clean hp => exact ⟨bs, h, .refl, hp⟩
  | failed => cases hres
  | broken => cases hres
  | again hcycle _ _ ih =>
    obtain ⟨cs, hcs, hrewrites⟩ := h.cycle hs hclosed hcycle
    obtain ⟨ds, hds, hrewrites', hp⟩ := ih hcs hres
    exact ⟨ds, hds, hrewrites.trans hrewrites', hp⟩

/-- A pass fails at the limit, or as the output of a tag does that can be come to. -/
theorem Tidy.pass_error {n : Nat} {a b : Run Unit} {bs : List Block} {e : RenderError} (h : Tidy r runtime text a bs)
    (hpass : r.PassRun excluded n a (.error e) b) :
    e = .loopLimit r.settings.maxIterations ∨
      ∃ t, Reached (r.outputOf runtime) text t ∧ r.outputOf runtime t = .error e := by
  generalize hres : (Except.error e : Except RenderError Unit) = res at hpass
  induction hpass generalizing bs with
  | clean => cases hres
  | failed _ hb =>
    cases hres
    rcases h.renderTags hs hclosed h.asked hb with ⟨hok, -⟩ | ⟨e', t, he, hreached, ho⟩
    · cases hok
    · cases he
      exact Or.inr ⟨t, hreached, ho⟩
  | broken =>
    cases hres
    exact Or.inl rfl
  | again hcycle _ _ ih =>
    obtain ⟨cs, hcs, -⟩ := h.cycle hs hclosed hcycle
    exact ih hcs hres

/-- As many cycles as the outputs are nested deep are enough for a pass. -/
theorem Tidy.pass_depth {n : Nat} {a : Run Unit} {bs : List Block} (h : Tidy r runtime text a bs)
    (hdepth : ∀ w, .tag w ∈ bs → ∃ e, ExpandsTag (r.outputOf runtime) excluded n w e)
    (hle : a.ctx.cycles + n ≤ r.settings.maxIterations) : ∃ k b, k ≤ n ∧ r.PassRun excluded k a (.ok ()) b := by
  rcases Classical.em (Tag.parse a.ctx.renderedPage excluded = []) with hp | hp
  · exact ⟨0, a, Nat.zero_le n, .clean hp⟩
  induction n generalizing a bs with
  | zero =>
    obtain ⟨t, rest, htags⟩ := List.exists_cons_of_ne_nil hp
    obtain ⟨w, hw, ht⟩ := h.mem_parse_iff.mp (htags ▸ List.mem_cons_self)
    obtain ⟨e, ⟨hnone, -⟩ | ⟨k, t', o, hk, -⟩⟩ := hdepth w hw
    · rw [ht] at hnone
      cases hnone
    · cases hk
  | succ n ih =>
    have hasked : ∀ t ∈ Tag.parse a.ctx.renderedPage excluded, ∃ w, Whole w ∧ wanted? excluded w = some t ∧
        Reached (r.outputOf runtime) text t ∧ ∃ e, ExpandsTag (r.outputOf runtime) excluded (n + 1) w e := by
      intro t ht
      obtain ⟨w, hw, hwanted⟩ := h.mem_parse_iff.mp ht
      exact ⟨w, h.sound _ hw, hwanted, h.reached w t hw (wanted?_eq_some_iff.mp hwanted).1, hdepth w hw⟩
    have hpage : ∀ w, .tag w ∈ bs → (∃ e, ExpandsTag (r.outputOf runtime) excluded n w e) ∨
        ∃ t ∈ Tag.parse a.ctx.renderedPage excluded, wanted? excluded w = some t := by
      intro w hw
      cases hwanted : wanted? excluded w with
      | none => exact Or.inl ⟨w.text, Or.inl ⟨hwanted, rfl⟩⟩
      | some t => exact Or.inr ⟨t, h.mem_parse_iff.mpr ⟨w, hw, hwanted⟩, rfl⟩
    obtain ⟨mid, cs, hmid, htidy, hless⟩ := h.renderTags_depth hs hclosed hasked hpage
    have hcycle : r.Cycle excluded a mid.counted := ⟨hp, mid, hmid, rfl⟩
    have hcount := hcycle.level.1
    rcases Classical.em (Tag.parse mid.counted.ctx.renderedPage excluded = []) with hp' | hp'
    · exact ⟨1, mid.counted, by omega, .again hcycle (by omega) (.clean hp')⟩
    · obtain ⟨k, b, hk, hpass⟩ := ih htidy.counted hless (by omega) hp'
      exact ⟨k + 1, b, by omega, .again hcycle (by omega) hpass⟩

end Closed

/-! ## The whole document -/

/-- An event that concerns the page leaves the page tidy. -/
theorem Tidy.firePage (hs : r.listener = Listener.silent) {event : Event} {a b : Run Unit} {bs : List Block}
    (h : Tidy r runtime text a bs) (hfire : exec (r.firePage event) a = (.ok (), b)) : Tidy r runtime text b bs := by
  rw [exec_firePage, exec_fire_silent hs, Prod.mk.injEq] at hfire
  rw [← hfire.2]
  exact ⟨h.page, h.sound, h.reached, h.seeds, h.runtime⟩

/-- Without exclusions at least as much is asked for. -/
theorem wanted?_nil_of_wanted? (w : Raw) (t : Tag) (h : wanted? excluded w = some t) : wanted? [] w = some t := by
  rw [wanted?_nil]
  exact (wanted?_eq_some_iff.mp h).1

/-- A tidy page without tags to ask for expands to itself. -/
theorem Tidy.expands_self {a : Run Unit} {bs : List Block} (h : Tidy r runtime text a bs)
    (hclean : Tag.parse a.ctx.renderedPage excluded = []) :
    Expands (r.outputOf runtime) excluded 0 (flat bs) (flat bs) := by
  refine Tag.expands_self ?_
  rw [parse_eq, h.page, List.filterMap_eq_nil_iff] at hclean
  exact hclean

section Document

variable {root : View} {page : String} (hs : r.listener = Listener.silent) (hroot : r.rootText root runtime = .ok page)
  (hpage : Closed Char.toLower page.toList)
include hs hroot hpage

/-- A document begins tidy if the text of its root is closed. -/
theorem tidy_of_openPage {res : Except RenderError Unit} {b : Run Unit}
    (hopen : exec (r.openPage root) (r.initial runtime ()) = (res, b)) :
    res = .ok () ∧ ∃ bs, flat bs = page.toList ∧ Tidy r runtime page.toList b bs := by
  have halike : (r.initial runtime ()).ctx.Alike (r.fresh runtime).ctx := ⟨rfl, rfl, rfl, rfl, rfl, rfl⟩
  obtain ⟨b', hb', hpage', hruntime⟩ := exec_openPage hs halike hroot
  have hseeds := ((local_openPage r root).level_of_exec hopen).seeds
  rw [hopen, Prod.mk.injEq] at hb'
  obtain ⟨rfl, rfl⟩ := hb'
  obtain ⟨bs, hbs, hflat⟩ := hpage.blocks
  refine ⟨rfl, bs, hflat, ?_, hbs, ?_, hseeds, hruntime⟩
  · rw [hpage', hflat]
  · intro w t hw ht
    refine .first (w := w) ?_ ht
    rw [← hflat, scan_flat hbs]
    exact List.mem_filterMap.mpr ⟨_, hw, rfl⟩

variable (hclosed : r.OutputsClosed Char.toLower runtime page.toList)
include hclosed

/-- The first pass ends with the expansion of the root up to the exclusions. -/
theorem expands_of_body {k : Nat} {b c : Run Unit}
    (hopen : exec (r.openPage root) (r.initial runtime ()) = (.ok (), b))
    (hbody : r.PassRun b.ctx.excluded k b (.ok ()) c) :
    ∃ n, Expands (r.outputOf runtime) (exclusions r.settings.headTokens) n page.toList c.ctx.renderedPage.toList := by
  obtain ⟨-, bs, hflat, htidy⟩ := tidy_of_openPage hs hroot hpage hopen
  obtain ⟨cs, hcs, hrewrites, hclean⟩ := htidy.pass_ok hs hclosed hbody
  have hexcluded : b.ctx.excluded = exclusions r.settings.headTokens := ((local_openPage r root).level_of_exec hopen).excluded
  rw [hexcluded] at hrewrites hclean
  rw [hcs.page, ← hflat]
  exact hrewrites.expands htidy.sound (hcs.expands_self hclean)

/-- A document that is rendered is the expansion of its root. -/
theorem RenderRun.expands {n : Nat} {s : String} {z : Run Unit}
    (h : r.RenderRun root n (r.initial runtime ()) (.ok s) z) :
    ∃ m, Expands (r.outputOf runtime) [] m page.toList s.toList := by
  cases h with
  | done hopen hbody hfire hhead hlast =>
    obtain ⟨-, bs, hflat, htidy⟩ := tidy_of_openPage hs hroot hpage hopen
    obtain ⟨cs, hcs, hrewrites, -⟩ := htidy.pass_ok hs hclosed hbody
    obtain ⟨ds, hds, hrewrites', hclean⟩ := (hcs.firePage hs hfire).pass_ok hs hclosed hhead
    rw [(hds.firePage hs hlast).page, ← hflat]
    exact ((hrewrites.fewer wanted?_nil_of_wanted?).trans hrewrites').expands htidy.sound (hds.expands_self hclean)

/-- A document fails at the limit, or as the output of a tag does that can be come to. -/
theorem RenderRun.error_of_output {n : Nat} {e : RenderError} {z : Run Unit}
    (h : r.RenderRun root n (r.initial runtime ()) (.error e) z) :
    e = .loopLimit r.settings.maxIterations ∨
      ∃ t, Reached (r.outputOf runtime) page.toList t ∧ r.outputOf runtime t = .error e := by
  cases h with
  | unopened hopen => cases (tidy_of_openPage hs hroot hpage hopen).1
  | body hopen hbody =>
    obtain ⟨-, bs, -, htidy⟩ := tidy_of_openPage hs hroot hpage hopen
    exact htidy.pass_error hs hclosed hbody
  | head hopen hbody hfire hhead =>
    obtain ⟨-, bs, -, htidy⟩ := tidy_of_openPage hs hroot hpage hopen
    obtain ⟨cs, hcs, -⟩ := htidy.pass_ok hs hclosed hbody
    exact (hcs.firePage hs hfire).pass_error hs hclosed hhead

/-- Twice as many cycles as the outputs are nested deep are enough for a document. -/
theorem exists_renderRun {n : Nat} {e : List Char}
    (hexpands : Expands (r.outputOf runtime) [] n page.toList e) (hle : 2 * n ≤ r.settings.maxIterations) :
    ∃ k s z, r.RenderRun root k (r.initial runtime ()) (.ok s) z := by
  rcases hopen : exec (r.openPage root) (r.initial runtime ()) with ⟨res, b⟩
  obtain ⟨rfl, bs, hflat, htidy⟩ := tidy_of_openPage hs hroot hpage hopen
  have hstart : b.ctx.cycles = 0 := cycles_openPage hopen
  have hdepth : ∀ w, .tag w ∈ bs → ∃ e, ExpandsTag (r.outputOf runtime) [] n w e :=
    (expands_flat_iff htidy.sound).mp ⟨e, by rw [hflat]; exact hexpands⟩
  have hdepth' : ∀ w, .tag w ∈ bs → ∃ e, ExpandsTag (r.outputOf runtime) b.ctx.excluded n w e :=
    (expands_flat_iff htidy.sound).mp (Expands.exclude wanted?_nil_of_wanted? (by rw [hflat]; exact hexpands))
  obtain ⟨k, c, hk, hbody⟩ := htidy.pass_depth hs hclosed hdepth' (by omega)
  obtain ⟨cs, hcs, hrewrites, -⟩ := htidy.pass_ok hs hclosed hbody
  have hfire := exec_firePage r .beforeParseHead c
  generalize (exec (r.fire .beforeParseHead c.ctx.pagePayload) c).2 = d at hfire
  have hcount := hbody.level.1
  have hcount' := cycles_firePage hfire
  obtain ⟨m, y, hm, hhead⟩ := (hcs.firePage hs hfire).pass_depth hs hclosed
    ((hrewrites.fewer wanted?_nil_of_wanted?).depth hdepth) (by omega)
  exact ⟨_, _, _, .done hopen hbody hfire hhead (exec_firePage r .afterRender y)⟩

end Document

/-- The outputs of some tags are closed if those are all that can be come to, and their outputs are closed and hold no
others. -/
theorem outputsClosed_of_mem {fold : Char → Char}
    (outputs : List (Tag × String)) (hfirst : ∀ t ∈ (scan text).filterMap decode?, t ∈ outputs.map Prod.fst)
    (hout : ∀ p ∈ outputs, r.outputOf runtime p.1 = .ok p.2)
    (hinner : ∀ p ∈ outputs, Closed fold p.2.toList ∧ ∀ u ∈ (scan p.2.toList).filterMap decode?, u ∈ outputs.map Prod.fst) :
    r.OutputsClosed fold runtime text := by
  intro t o hreached ho
  have hmem : t ∈ outputs.map Prod.fst := by
    refine hreached.mem hfirst ?_
    intro t ht o ho u hu
    obtain ⟨p, hp, rfl⟩ := List.mem_map.mp ht
    rw [hout p hp, Except.ok.injEq] at ho
    rw [← ho] at hu
    exact (hinner p hp).2 u hu
  obtain ⟨p, hp, rfl⟩ := List.mem_map.mp hmem
  rw [hout p hp, Except.ok.injEq] at ho
  rw [← ho]
  exact (hinner p hp).1

/-- Rendering without a listener is expansion. Let the text of the root and the outputs of all tags that it can come to be
closed. A document that is rendered is the expansion of that text, and what a listener is told of the page between the passes
is its expansion up to the exclusions. Conversely, if the text has an expansion, the document is rendered as soon as twice its
depth many cycles are allowed; and a document that is not rendered failed at the limit, or because of the output of a tag. -/
theorem render_expands (r : Renderer Unit) (root : View) (runtime : Runtime) (page : String)
    (hs : r.listener = Listener.silent) (hroot : r.rootText root runtime = .ok page) (hpage : Closed Char.toLower page.toList)
    (hclosed : r.OutputsClosed Char.toLower runtime page.toList) :
    (∀ s, (r.render root runtime ()).1 = .ok s →
      (∃ n, Expands (r.outputOf runtime) [] n page.toList s.toList) ∧
        (∀ n e, Expands (r.outputOf runtime) [] n page.toList e → e = s.toList) ∧
        ∃ payload, (.beforeParseHead, payload) ∈ (r.render root runtime ()).2.events) ∧
      (∀ payload, (.beforeParseHead, payload) ∈ (r.render root runtime ()).2.events →
        ∃ n before, payload.renderedPage = some before ∧
          Expands (r.outputOf runtime) (exclusions r.settings.headTokens) n page.toList before.toList) ∧
      (∀ n e, Expands (r.outputOf runtime) [] n page.toList e → 2 * n ≤ r.settings.maxIterations →
        (r.render root runtime ()).1 = .ok (String.ofList e)) ∧
      ∀ e, (r.render root runtime ()).1 = .error e → e = .loopLimit r.settings.maxIterations ∨
        ∃ t, Reached (r.outputOf runtime) page.toList t ∧ r.outputOf runtime t = .error e := by
  obtain ⟨n, hrun⟩ := renderRun_render r root runtime ()
  refine ⟨?_, ?_, ?_, ?_⟩
  · intro s hok
    rw [hok] at hrun
    obtain ⟨m, hm⟩ := hrun.expands hs hroot hpage hclosed
    exact ⟨⟨m, hm⟩, fun _ e he => he.unique hm, hrun.exists_beforeParseHead⟩
  · intro payload hmem
    obtain ⟨k, b, c, hopen, hbody, rfl⟩ := hrun.payload_of_beforeParseHead rfl hmem
    obtain ⟨m, hm⟩ := expands_of_body hs hroot hpage hclosed hopen hbody
    exact ⟨m, c.ctx.renderedPage, rfl, hm⟩
  · intro m e he hle
    obtain ⟨k, s, z, hrun'⟩ := exists_renderRun hs hroot hpage hclosed he hle
    obtain ⟨-, hres, -⟩ := hrun.unique hrun'
    obtain ⟨m', hm'⟩ := hrun'.expands hs hroot hpage hclosed
    rw [hres, he.unique hm', String.ofList_toList]
  · intro e herr
    rw [herr] at hrun
    exact hrun.error_of_output hs hroot hpage hclosed

/-- A renderer of pages that are given by their names and texts, with one more text for everything else. -/
def ofPages (pages : List (String × String)) (otherwise : String) : Renderer Unit where
  resolve key := (pages.find? fun p => reference .page p.1 = key).map fun p => .conventional .page p.1
  hasTemplate _ := true
  execute path _ := .ok (((pages.find? fun p => defaultIncludePath .page p.1 = path).map Prod.snd).getD otherwise)
  listener := Listener.silent

/-- The theme of that name. -/
def defaultTheme : View := .conventional .theme "default"

/-- The tag that asks for a page by its name alone. -/
def pageTag (name : String) : Tag :=
  { kind := "page", name, raw := "<include page=" ++ name ++ " />" }

/-- A theme with a page in it that has a page in it. -/
def nested : Renderer Unit :=
  ofPages [("a", "(<include page=b />)"), ("b", "B")] "[<include page=a />]"

/-- `render_expands` of `nested`. -/
theorem render_expands_nested :
    nested.listener = Listener.silent ∧ nested.rootText defaultTheme {} = .ok "[<include page=a />]" ∧
      Closed Char.toLower "[<include page=a />]".toList ∧
      nested.OutputsClosed Char.toLower {} "[<include page=a />]".toList ∧
      ∃ n, Expands (nested.outputOf {}) [] n "[<include page=a />]".toList "[(B)]".toList := by
  have hroot : nested.rootText defaultTheme {} = .ok "[<include page=a />]" := eq_ok_of_toOption (by decide +kernel)
  have hpage : Closed Char.toLower "[<include page=a />]".toList := by decide +kernel
  have houtputs : nested.OutputsClosed Char.toLower {} "[<include page=a />]".toList := by
    refine outputsClosed_of_mem [(pageTag "a", "(<include page=b />)"), (pageTag "b", "B")] (by decide +kernel) ?_
      (by decide +kernel)
    have hout : ∀ p ∈ [(pageTag "a", "(<include page=b />)"), (pageTag "b", "B")],
      (nested.outputOf {} p.1).toOption = some p.2 := by decide +kernel
    exact fun p hp => eq_ok_of_toOption (hout p hp)
  have hok : (nested.render defaultTheme {} ()).1 = .ok "[(B)]" := eq_ok_of_toOption (by decide +kernel)
  exact ⟨rfl, hroot, hpage, houtputs, ((render_expands nested defaultTheme {} _ rfl hroot hpage houtputs).1 _ hok).1⟩

/-- A theme in which a page completes the beginning of a tag that stands in front of its own, in upper case. -/
def splicing : Renderer Unit :=
  ofPages [("a", "ude page=b />"), ("b", "B")] "<INCL<include page=a />"

/-- If only lower case counts as the beginning of a tag, texts can be closed and the document yet not the expansion. -/
theorem render_not_expands :
    splicing.listener = Listener.silent ∧ splicing.rootText defaultTheme {} = .ok "<INCL<include page=a />" ∧
      Closed id "<INCL<include page=a />".toList ∧
      splicing.OutputsClosed id {} "<INCL<include page=a />".toList ∧
      (splicing.render defaultTheme {} ()).1 = .ok "B" ∧
      ¬ ∃ n, Expands (splicing.outputOf {}) [] n "<INCL<include page=a />".toList "B".toList := by
  have ha : splicing.outputOf {} (pageTag "a") = .ok "ude page=b />" := eq_ok_of_toOption (by decide +kernel)
  refine ⟨rfl, eq_ok_of_toOption (by decide +kernel), by decide +kernel, ?_, eq_ok_of_toOption (by decide +kernel), ?_⟩
  · refine outputsClosed_of_mem [(pageTag "a", "ude page=b />")] (by decide +kernel) ?_ (by decide +kernel)
    intro p hp
    rw [List.mem_singleton.mp hp]
    exact ha
  · rintro ⟨n, h⟩
    have hcut : cut? "<INCL<include page=a />".toList = some ("<INCL".toList, ⟨opening, " page=a ".toList⟩, []) := by
      decide +kernel
    have hwanted : wanted? [] ⟨opening, " page=a ".toList⟩ = some (pageTag "a") := by decide +kernel
    have hinner : cut? "ude page=b />".toList = none := by decide +kernel
    have hexpands := Expands.opened hcut hwanted ha (.plain (n := 0) hinner) (.plain rfl)
    have heq := h.unique hexpands
    exact absurd heq (by decide +kernel)

end Renderer

end Folio
