import Folio.Proofs.Cycle

/-!
# How often a cycle renders a tag

In a cycle every tag of the page has its turn, and `turns` lists them with the state that each of them finds. A turn is taken
when the page still holds the tag, so equal tags share one rendering only while nothing puts their text back:
`rendered_once_iff` says when a cycle renders every text at most once, and `rendered_once_fails` that it need not. A text that
is rendered twice was put back in between, by its own output or by a later turn (`exists_restores`).
-/

namespace Folio

/-- The turn of a tag in a cycle: the tag and the state that it finds. -/
structure Turn (σ : Type) where
  tag : Tag
  found : Run σ

namespace Turn

variable {σ : Type}

/-- A turn is taken when the page that it finds holds the tag. -/
def taken (u : Turn σ) : Bool :=
  Text.contains u.found.ctx.renderedPage u.tag.raw

end Turn

namespace Renderer

open Rendering

variable {σ : Type} (r : Renderer σ)

/-- What a turn does: it renders its tag if it is taken, and nothing otherwise. -/
def takeTurn (u : Turn σ) : Except RenderError Unit × Run σ :=
  if u.taken then exec (r.renderTag u.tag) u.found else (.ok (), u.found)

/-- The turns of some tags in order, up to the first that fails. -/
def turns : List Tag → Run σ → List (Turn σ)
  | [], _ => []
  | t :: rest, a =>
    ⟨t, a⟩ :: match r.takeTurn ⟨t, a⟩ with
      | (.ok _, b) => turns rest b
      | (.error _, _) => []

/-- The turns of a cycle that begins in a state. -/
def cycleTurns (excluded : List String) (a : Run σ) : List (Turn σ) :=
  r.turns (Tag.parse a.ctx.renderedPage excluded) a

/-- How some turns end that begin in a state: as the last of them does. -/
def ending (a : Run σ) (us : List (Turn σ)) : Except RenderError Unit × Run σ :=
  match us.getLast? with
  | none => (.ok (), a)
  | some u => r.takeTurn u

/-- The texts that some turns render, in order. -/
def rendered (us : List (Turn σ)) : List String :=
  (us.filter Turn.taken).map fun u => u.tag.raw

/-- A turn puts a text back: the page holds it afterwards, though the turn replaced it or did not find it there. -/
def Restores (u : Turn σ) (text : String) : Prop :=
  ∃ b, r.takeTurn u = (.ok (), b) ∧ Text.contains b.ctx.renderedPage text = true ∧
    (u.tag.raw = text ∨ Text.contains u.found.ctx.renderedPage text = false)

/-- From turn `i` on, a turn before turn `j` puts a text back, and the page holds it until turn `j`. -/
def RestoredUntil (us : List (Turn σ)) (text : String) (i j : Nat) : Prop :=
  ∃ k u, i ≤ k ∧ k < j ∧ us[k]? = some u ∧ r.Restores u text ∧
    ∀ m v, k < m → m ≤ j → us[m]? = some v → Text.contains v.found.ctx.renderedPage text = true

variable {r}

/-- The tags of a cycle are rendered turn by turn. -/
theorem exec_renderTags (tags : List Tag) (a : Run σ) : exec (r.renderTags tags) a = r.ending a (r.turns tags a) := by
  induction tags generalizing a with
  | nil => rfl
  | cons t rest ih =>
    have hcons : exec (r.renderTags (t :: rest)) a =
        match r.takeTurn ⟨t, a⟩ with
        | (.ok _, b) => exec (r.renderTags rest) b
        | (.error e, b) => (.error e, b) := by
      rw [exec_renderTags_cons]
      unfold takeTurn Turn.taken
      split
      · rw [exec_bind]
        rcases exec (r.renderTag t) a with ⟨e | v, b⟩ <;> rfl
      · rfl
    rw [hcons, turns]
    rcases hturn : r.takeTurn ⟨t, a⟩ with ⟨e | v, b⟩
    · exact hturn.symm
    · dsimp only
      rw [ih b]
      unfold ending
      cases r.turns rest b with
      | nil => exact hturn.symm
      | cons u us => rw [List.getLast?_cons_cons]; rfl

/-- Every turn but the last ends well, in the state that the next one finds. -/
theorem takeTurn_of_next {tags : List Tag} {a : Run σ} {k : Nat} {u v : Turn σ} (hu : (r.turns tags a)[k]? = some u)
    (hv : (r.turns tags a)[k + 1]? = some v) : r.takeTurn u = (.ok (), v.found) := by
  induction tags generalizing a k with
  | nil => cases hu
  | cons t rest ih =>
    rw [turns] at hu hv
    rw [List.getElem?_cons_succ] at hv
    rcases hturn : r.takeTurn ⟨t, a⟩ with ⟨e | w, b⟩
    · rw [hturn] at hv
      cases hv
    · rw [hturn] at hu hv
      cases k with
      | zero =>
        rw [List.getElem?_cons_zero, Option.some.injEq] at hu
        rw [← hu, hturn]
        cases rest with
        | nil => cases hv
        | cons t' rest =>
          cases hv
          rfl
      | succ k =>
        rw [List.getElem?_cons_succ] at hu
        exact ih hu hv

/-- A turn of a tag that was rendered before in the cycle is taken only where the text was put back and stayed. -/
theorem restoredUntil_of_contains {tags : List Tag} {a : Run σ} {i j : Nat} {u w : Turn σ} (hij : i < j)
    (hu : (r.turns tags a)[i]? = some u) (hw : (r.turns tags a)[j]? = some w)
    (hpage : Text.contains w.found.ctx.renderedPage u.tag.raw = true) :
    r.RestoredUntil (r.turns tags a) u.tag.raw i j := by
  -- by induction on the later turn: the text was there one turn earlier already, or that turn put it back
  obtain ⟨d, rfl⟩ := Nat.exists_eq_add_of_lt hij
  induction d generalizing w with
  | zero =>
    refine ⟨i, u, Nat.le_refl i, hij, hu, ⟨w.found, takeTurn_of_next hu hw, hpage, Or.inl rfl⟩, ?_⟩
    intro m v him hmi hm
    obtain rfl : m = i + 0 + 1 := by omega
    rw [hw, Option.some.injEq] at hm
    rw [← hm]
    exact hpage
  | succ d ih =>
    have hlt : i + d + 1 < (r.turns tags a).length := by
      have hlen := (List.getElem?_eq_some_iff.mp hw).1
      omega
    have hv := List.getElem?_eq_getElem hlt
    rcases hfound : Text.contains (r.turns tags a)[i + d + 1].found.ctx.renderedPage u.tag.raw with _ | _
    · refine ⟨i + d + 1, _, by omega, by omega, hv, ⟨w.found, takeTurn_of_next hv hw, hpage, Or.inr hfound⟩, ?_⟩
      intro m x hkm hmj hm
      obtain rfl : m = i + (d + 1) + 1 := by omega
      rw [hw, Option.some.injEq] at hm
      rw [← hm]
      exact hpage
    · obtain ⟨k, y, hik, hkj, hy, hrestores, hstays⟩ := ih hfound (by omega) hv
      refine ⟨k, y, hik, by omega, hy, hrestores, ?_⟩
      intro m x hkm hmj hm
      rcases Nat.lt_or_ge (i + d + 1) m with hlast | hbefore
      · obtain rfl : m = i + (d + 1) + 1 := by omega
        rw [hw, Option.some.injEq] at hm
        rw [← hm]
        exact hpage
      · exact hstays m x hkm hbefore hm

/-- A cycle is its turns, and a turn that is not taken changes nothing and records nothing. The cycle renders every text at
most once exactly if no text that it has rendered is put back, by a turn from that one on, and stays in the page until the
turn of an equal tag. -/
theorem rendered_once_iff (r : Renderer σ) (excluded : List String) (a : Run σ) :
    exec (r.renderTags (Tag.parse a.ctx.renderedPage excluded)) a = r.ending a (r.cycleTurns excluded a) ∧
      (∀ u ∈ r.cycleTurns excluded a, u.taken = false → r.takeTurn u = (.ok (), u.found)) ∧
      ((rendered (r.cycleTurns excluded a)).Nodup ↔
        ∀ i j u w, i < j → (r.cycleTurns excluded a)[i]? = some u → (r.cycleTurns excluded a)[j]? = some w →
          u.taken = true → w.tag.raw = u.tag.raw → ¬ r.RestoredUntil (r.cycleTurns excluded a) u.tag.raw i j) := by
  refine ⟨exec_renderTags _ a, ?_, ?_⟩
  · intro u _ hu
    unfold takeTurn
    rw [hu]
    rfl
  unfold rendered List.Nodup
  rw [List.pairwise_map, List.pairwise_filter, List.pairwise_iff_getElem]
  constructor
  · intro hnodup i j u w hij hu hw htaken hraw ⟨k, x, hik, hkj, _, _, hstays⟩
    obtain ⟨hi, rfl⟩ := List.getElem?_eq_some_iff.mp hu
    obtain ⟨hj, rfl⟩ := List.getElem?_eq_some_iff.mp hw
    have hpage := hstays j _ hkj (Nat.le_refl j) hw
    rw [← hraw] at hpage
    exact hnodup i j hi hj hij htaken hpage hraw.symm
  · intro hnever i j hi hj hij htaken hpage hraw
    have hu := List.getElem?_eq_getElem hi
    have hw := List.getElem?_eq_getElem hj
    refine hnever i j _ _ hij hu hw htaken hraw.symm (restoredUntil_of_contains hij hu hw ?_)
    rw [hraw]
    exact hpage

/-- A renderer for which every view gives a text that holds its own tag. -/
def echoing : Renderer Unit where
  resolve _ := some (.conventional .page "a")
  hasTemplate _ := true
  execute _ _ := .ok "x<include page=a />"
  listener := Listener.silent

/-- The page `<include page=a /><include page=a />`. -/
def twice : Run Unit :=
  { ctx := { renderedPage := "<include page=a /><include page=a />" }, listener := () }

/-- The tag of `twice` is rendered in its first turn, and again in its second. -/
theorem rendered_once_fails : ¬ (rendered (echoing.cycleTurns [] twice)).Nodup := by
  have hrendered : rendered (echoing.cycleTurns [] twice) = ["<include page=a />", "<include page=a />"] := by
    decide +kernel
  rw [hrendered]
  decide

end Renderer

end Folio
