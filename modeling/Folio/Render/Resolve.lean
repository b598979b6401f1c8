import Folio.Tag
import Folio.Render.Renderer

/-!
# Resolving tags

Which view a tag, a wrap target or a route asks for. A tag without a name takes the view that the route names for its
scheme, and the wrap target `default` takes the wrap that the route names; everything else is looked up by name.
-/

namespace Folio

/-- The wrap target that stands for the wrap of the route. -/
def defaultWrap : String := "default"

namespace Renderer

variable {σ : Type}

/-- The view of a tag by its kind and name alone. -/
def resolveTag (r : Renderer σ) (t : Tag) : Except RenderError View :=
  r.lookup (.ofKind t.kind) t.name

/-- The view of a tag; the seeded one of its scheme if it has no name. -/
def resolveSeeded (r : Renderer σ) (seeds : Seeds) (t : Tag) : Except RenderError View :=
  match if t.name.isEmpty then seeds.get? (.ofKind t.kind) else none with
  | some v => .ok v
  | none => r.resolveTag t

/-- The wrap of a target; the seeded one if the target is the default. -/
def resolveWrap (r : Renderer σ) (seeds : Seeds) (target : String) : Except RenderError View :=
  match if Text.eqIgnoringCase target defaultWrap then seeds.wrap else none with
  | some v => .ok v
  | none => r.lookup .wrap target

/-- The view that a route names, if the name is not blank and there is such a view. -/
def seed? (r : Renderer σ) (scheme : Scheme) (name : String) : Option View :=
  if Text.isBlankText name then none else (r.lookup scheme name).toOption

/-- The views that a route names. -/
def seedsOf (r : Renderer σ) (route : Route) : Seeds :=
  { page := r.seed? .page route.page
    template := r.seed? .template route.template
    wrap := r.seed? .wrap route.wrap }

end Renderer

end Folio
