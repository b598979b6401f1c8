import Folio.Proofs.Lookup

/-!
# The texts of a library

A path has one name however it is spelled, and no other path that is not a spelling of it has that name
(`templateName_eq_iff`). Of the entries of a site with one name that with the greatest path gives the text, and of those with one
path the last; where there is none, the text that is always there stands (`Stands`, `get?_layered_iff`). So the texts depend on
the order of the entries only among those with one path (`layered_reordered`). They are what an engine takes in, and what is
executed under their names (`execute_of_stands`).
-/

namespace Folio

/-! ## Names -/

namespace Text

/-- A dot or a slash at the front of a lowercase form was there before. -/
theorem exists_of_lowerAfter_cons {mark : Char} (hmark : mark = '.' ∨ mark = '/') {before s rest : List Char}
    (h : lowerAfter before s = mark :: rest) : ∃ s', s = mark :: s' ∧ lowerAfter (mark :: before) s' = rest := by
  cases s with
  | nil => cases h
  | cons c s =>
    rw [lowerAfter] at h
    split at h
    · have hsigma : mark = 'σ' ∨ mark = 'ς' := by
        split at h
        · exact Or.inr (List.cons.inj h).1.symm
        · exact Or.inl (List.cons.inj h).1.symm
      rcases hmark with rfl | rfl <;> exact absurd hsigma (by decide)
    · obtain ⟨d, ds, hform⟩ := List.exists_cons_of_ne_nil (lowerChar_ne_nil c)
      have hfirst : d = mark := by
        rw [hform] at h
        exact (List.cons.inj h).1
      have hc : c = mark := by
        have hof : FormOf c d := formOf_lowerChar (hform ▸ List.mem_cons_self)
        rw [← hfirst]
        rcases hmark with rfl | rfl
        · exact (hof.2.2.2.2.2 hfirst).trans hfirst.symm
        · exact (hof.2.1 hfirst).trans hfirst.symm
      have hmarks : lowerChar mark = [mark] := by rcases hmark with rfl | rfl <;> decide
      rw [hc, hmarks] at h
      exact ⟨s, by rw [hc], (List.cons.inj h).2⟩

/-- The dots in front of a path can be left out before it is put in lower case, or after. -/
theorem lowerAfter_dropDots (s : List Char) :
    lowerAfter [] (templateName.dropDots s) = templateName.dropDots (lowerAfter [] s) := by
  induction s using templateName.dropDots.induct with
  | case1 rest ih =>
    have hform : lowerAfter [] ('.' :: '/' :: rest) = '.' :: '/' :: lowerAfter [] rest := lowerAfter_append_slash [] ['.'] rest
    rw [hform, templateName.dropDots, templateName.dropDots, ih]
  | case2 s hnone =>
    have hsame : templateName.dropDots s = s := templateName.dropDots.eq_2 s hnone
    have hform : ∀ rest, lowerAfter [] s = '.' :: '/' :: rest → False := by
      intro rest hrest
      obtain ⟨s', rfl, hs'⟩ := exists_of_lowerAfter_cons (Or.inl rfl) hrest
      obtain ⟨s'', rfl, -⟩ := exists_of_lowerAfter_cons (Or.inr rfl) hs'
      exact hnone s'' rfl
    rw [hsame, templateName.dropDots.eq_2 _ hform]

end Text

open Text

theorem dropDots_dropDots (s : List Char) : templateName.dropDots (templateName.dropDots s) = templateName.dropDots s := by
  induction s using templateName.dropDots.induct with
  | case1 rest ih => rwa [templateName.dropDots]
  | case2 s hnone => rw [templateName.dropDots.eq_2 s hnone, templateName.dropDots.eq_2 s hnone]

theorem dropDots_suffix (s : List Char) : templateName.dropDots s <:+ s := by
  induction s using templateName.dropDots.induct with
  | case1 rest ih =>
    rw [templateName.dropDots]
    exact ih.trans ((List.suffix_cons _ _).trans (List.suffix_cons _ _))
  | case2 s hnone => exact (templateName.dropDots.eq_2 s hnone).symm ▸ List.suffix_refl s

/-- The parts of a name can be made in the other order too: lower case first, then the slashes, then the dots. -/
theorem templateName_eq (path : String) :
    templateName path = String.ofList (templateName.dropDots (slashed (lower path)).toList) := by
  rw [← lower_slashed]
  unfold lower
  rw [String.toList_ofList, ← lowerAfter_dropDots]
  unfold templateName lower slashed
  rw [String.toList_ofList, String.toList_ofList]
  rfl

/-- The name of a template is its own. -/
theorem templateName_templateName (path : String) : templateName (templateName path) = templateName path := by
  have hlower : lower (templateName path) = templateName path := lower_lower _
  have hchars : (templateName path).toList = templateName.dropDots (slashed (lower path)).toList := by
    rw [templateName_eq, String.toList_ofList]
  have hslashed : slashed (templateName path) = templateName path := by
    have hfixed : ∀ c ∈ (templateName path).toList, slashedChar c = c := by
      intro c hc
      rw [hchars] at hc
      have hmem := (dropDots_suffix _).subset hc
      unfold slashed at hmem
      rw [String.toList_ofList] at hmem
      obtain ⟨d, -, rfl⟩ := List.mem_map.mp hmem
      exact slashedChar_slashedChar d
    unfold slashed
    rw [List.map_congr_left hfixed, List.map_id', String.ofList_toList]
  rw [templateName_eq (templateName path), hlower, hslashed, hchars, dropDots_dropDots, ← templateName_eq]

/-- Two paths are spellings of one: they differ in the case of letters, in slashes and backslashes, and in dots in front. -/
inductive Respelled : String → String → Prop
  | case {p q : String} : lower p = lower q → Respelled p q
  | slashes {p q : String} : slashed p = slashed q → Respelled p q
  | dots (p : String) : Respelled ("./" ++ p) p
  | symm {p q : String} : Respelled p q → Respelled q p
  | trans {p q s : String} : Respelled p q → Respelled q s → Respelled p s

theorem respelled_dropDots (s : List Char) : Respelled (String.ofList s) (String.ofList (templateName.dropDots s)) := by
  induction s using templateName.dropDots.induct with
  | case1 rest ih =>
    have hdots : String.ofList ('.' :: '/' :: rest) = "./" ++ String.ofList rest := by
      rw [← String.toList_inj, String.toList_append, String.toList_ofList, String.toList_ofList, String.toList_ofList]
      rfl
    rw [hdots, templateName.dropDots]
    exact (Respelled.dots _).trans ih
  | case2 s hnone =>
    rw [templateName.dropDots.eq_2 s hnone]
    exact .case rfl

/-- A path is a spelling of its name. -/
theorem respelled_templateName (path : String) : Respelled path (templateName path) := by
  have hcase : Respelled path (lower path) := .case (lower_lower path).symm
  have hslashes : Respelled (lower path) (slashed (lower path)) := .slashes (slashed_slashed _).symm
  have hdots := respelled_dropDots (slashed (lower path)).toList
  rw [String.ofList_toList, ← templateName_eq] at hdots
  exact (hcase.trans hslashes).trans hdots

/-- Two paths have one name exactly if they are spellings of one. -/
theorem templateName_eq_iff (p q : String) : templateName p = templateName q ↔ Respelled p q := by
  constructor
  · intro h
    have hq := (respelled_templateName q).symm
    rw [← h] at hq
    exact (respelled_templateName p).trans hq
  · intro h
    induction h with
    | case h => rw [templateName_eq, templateName_eq, h]
    | slashes h => rw [templateName_eq, templateName_eq, ← lower_slashed, ← lower_slashed, h]
    | dots p =>
      unfold templateName
      rw [String.toList_append, List.map_append]
      rfl
    | symm _ ih => exact ih.symm
    | trans _ _ ih ih' => exact ih.trans ih'

/-! ## Texts -/

namespace Library

variable {site : List (String × String)} {lib : Library} {name text : String}

/-- The entry of a site that gives a name its text: of those with the name it has the greatest path, and of those with this path
it is the last. -/
def Prevails (site : List (String × String)) (name path text : String) : Prop :=
  ∃ front back, site = front ++ (path, text) :: back ∧ templateName path = name ∧
    (∀ e ∈ front, templateName e.1 = name → e.1 ≤ path) ∧ ∀ e ∈ back, templateName e.1 = name → e.1 < path

/-- The text that a name stands for above a site: that of the entry that prevails, or else the one that is always there. -/
inductive Stands (site : List (String × String)) (name text : String) : Prop
  | given {path : String} : Prevails site name path text → Stands site name text
  | builtin : (∀ p ∈ site.map Prod.fst, templateName p ≠ name) → Keyed.get? builtinTexts name = some text → Stands site name text

theorem get?_overlay_iff : Keyed.get? (overlayOf site).reverse name = some text ↔ ∃ path, Prevails site name path text := by
  unfold overlayOf
  rw [Keyed.get?_renamed_iff (Keyed.ordered_ofEntries site)]
  refine exists_congr fun path => ?_
  rw [Keyed.get?_ofEntries, Keyed.get?_reverse_iff]
  constructor
  · rintro ⟨⟨front, back, rfl, hback⟩, hname, hgreatest⟩
    have hle (e : String × String) (he : e ∈ front ++ (path, text) :: back) : templateName e.1 = name → e.1 ≤ path :=
      hgreatest e.1 ((Keyed.mem_keys_ofEntries _).mpr (List.mem_map_of_mem he))
    refine ⟨front, back, rfl, hname, fun e he => hle e (List.mem_append_left _ he), fun e he hsame => ?_⟩
    exact Std.lt_of_le_of_ne (hle e (List.mem_append_right _ (List.mem_cons_of_mem _ he)) hsame) (hback e he)
  · rintro ⟨front, back, rfl, hname, hfront, hback⟩
    refine ⟨⟨front, back, rfl, fun e he heq => ?_⟩, hname, fun path' hpath' hsame => ?_⟩
    · exact String.lt_irrefl path (heq ▸ hback e he (heq ▸ hname))
    · obtain ⟨e, he, rfl⟩ := List.mem_map.mp ((Keyed.mem_keys_ofEntries _).mp hpath')
      rcases List.mem_append.mp he with he | he
      · exact hfront e he hsame
      · rcases List.mem_cons.mp he with rfl | he
        · exact Std.le_refl _
        · exact Std.le_of_lt (hback e he hsame)

theorem get?_overlay_eq_none_iff :
    Keyed.get? (overlayOf site).reverse name = none ↔ ∀ p ∈ site.map Prod.fst, templateName p ≠ name := by
  have hkey := Keyed.hasKey_reverse (overlayOf site) name
  rw [Keyed.hasKey_iff (overlayOf site), mem_keys_overlayOf, Keyed.hasKey, Option.isSome_iff_ne_none] at hkey
  rw [← Classical.not_not (a := Keyed.get? _ _ = none), ← ne_eq, hkey]
  constructor
  · intro h p hp heq
    exact h ⟨p, hp, heq⟩
  · rintro h ⟨p, hp, heq⟩
    exact h p hp heq

/-- The texts of a site over those that are always there are those that their names stand for. -/
theorem get?_layered_iff : (layered site).get? name = some text ↔ Stands site name text := by
  change Keyed.get? (Keyed.extend builtinTexts (overlayOf site)) name = some text ↔ _
  rw [Keyed.get?_extend, Option.or_eq_some_iff, get?_overlay_iff, get?_overlay_eq_none_iff]
  constructor
  · rintro (⟨path, h⟩ | ⟨hnone, h⟩)
    · exact .given h
    · exact .builtin hnone h
  · rintro (h | ⟨hnone, h⟩)
    · exact Or.inl ⟨_, h⟩
    · exact Or.inr ⟨hnone, h⟩

/-- Two sites have the same entries, but for the order of entries with different paths. -/
def Reordered (site site' : List (String × String)) : Prop :=
  ∀ path, site'.filter (·.1 = path) = site.filter (·.1 = path)

/-- Two parts of a site without a common path can change places. -/
theorem reordered_append {front back : List (String × String)} (h : ∀ e ∈ front, ∀ e' ∈ back, e.1 ≠ e'.1) :
    Reordered (front ++ back) (back ++ front) := by
  intro path
  rw [List.filter_append, List.filter_append]
  by_cases hfront : ∃ e ∈ front, e.1 = path
  · obtain ⟨e, he, rfl⟩ := hfront
    have hback : back.filter (·.1 = e.1) = [] :=
      List.filter_eq_nil_iff.mpr fun e' he' heq => h e he e' he' (of_decide_eq_true heq).symm
    rw [hback, List.nil_append, List.append_nil]
  · have hnone : front.filter (·.1 = path) = [] :=
      List.filter_eq_nil_iff.mpr fun e he heq => hfront ⟨e, he, of_decide_eq_true heq⟩
    rw [hnone, List.nil_append, List.append_nil]

theorem layered_reordered {site' : List (String × String)} (h : Reordered site site') : layered site' = layered site := by
  unfold layered
  rw [Keyed.ofEntries_congr h]

section Taken

variable {engine : Engine} {output : Engine.Output} {lib : Library}
  (hengine : engine.Lawful output) (h : ofTexts site engine = .ok lib)
include hengine h

/-- The names of a library are in order. -/
theorem pairwise_names : lib.names.Pairwise (· < ·) := by
  rw [names_ofTexts hengine h]
  exact List.pairwise_map.mpr (ordered_layered site)

theorem templateName_of_mem_names (hname : name ∈ lib.names) : templateName name = name := by
  have hbuiltin : ∀ name ∈ builtinTexts.map Prod.fst, templateName name = name := by decide +kernel
  rcases (mem_names_ofTexts hengine h).mp hname with hmem | ⟨p, -, rfl⟩
  · exact hbuiltin name hmem
  · exact templateName_templateName p

/-- The names that stand for a text are those of the library. -/
theorem exists_stands_iff : (∃ text, Stands site name text) ↔ name ∈ lib.names := by
  rw [names_ofTexts hengine h, ← Keyed.hasKey_iff, Keyed.hasKey, Option.isSome_iff_exists]
  exact exists_congr fun text => get?_layered_iff.symm

theorem has_iff_stands (path : String) : lib.has path = true ↔ ∃ text, Stands site (templateName path) text :=
  (lib.has_iff_mem_names path).trans (exists_stands_iff hengine h).symm

/-- What is executed at a path is the text that its name stands for. -/
theorem execute_of_stands {path : String} (hstands : Stands site (templateName path) text) (scene : Scene) :
    lib.execute path scene = (output (layered site) (templateName path) text scene.environment).elim
      (.error (.template (templateName path))) .ok := by
  have hhas : lib.has path = true := (has_iff_stands hengine h path).mpr ⟨text, hstands⟩
  unfold execute
  rw [if_pos hhas, hengine.text? (ordered_layered site) h (get?_layered_iff.mpr hstands)]
  cases output (layered site) (templateName path) text scene.environment <;> rfl

end Taken

/-- A path is executed by its name. -/
theorem execute_congr (lib : Library) {p q : String} (h : templateName p = templateName q) (hp : lib.has p = true) :
    lib.execute p = lib.execute q := by
  have hq : lib.has q = true := by rwa [has, ← h]
  funext scene
  unfold execute
  rw [if_pos hp, if_pos hq, h]

/-- The library that any engine makes of a site, from its entries. Its names are in order and each its own: those of the paths of
the entries, and those of the templates that are always there. A path is found by its name, which the spellings of the path have
and no other path, and so all of these behave alike. Every name that is found stands for one text: that of the entry with the
greatest path of those with the name, the last with this path, or the one that is always there, if no entry has the name. These
are the texts that the engine is handed, and what it gives for the text of its name is what is executed at a path; a text without
a brace comes out as it is. The order of entries with different paths does not matter. -/
theorem ofTexts_stands {engine : Engine} {output : Engine.Output} {lib : Library} (hengine : engine.Lawful output)
    (h : ofTexts site engine = .ok lib) :
    lib.names.Pairwise (· < ·) ∧
      (∀ name, name ∈ lib.names ↔ name ∈ builtinTexts.map Prod.fst ∨ ∃ p ∈ site.map Prod.fst, templateName p = name) ∧
      (∀ name ∈ lib.names, templateName name = name) ∧
      (∀ path, templateName (templateName path) = templateName path) ∧
      (∀ path, lib.has path = true ↔ templateName path ∈ lib.names) ∧
      (∀ p q, templateName p = templateName q ↔ Respelled p q) ∧
      (∀ p q, Respelled p q → lib.has p = lib.has q ∧ (lib.has p = true → lib.execute p = lib.execute q)) ∧
      (∀ path, lib.has path = true ↔ ∃ text, Stands site (templateName path) text) ∧
      (∃ texts : Keyed String, texts.Ordered ∧ (∀ name text, texts.get? name = some text ↔ Stands site name text) ∧
        engine texts = .ok lib ∧ ∀ path text, Stands site (templateName path) text → ∀ scene, lib.execute path scene =
          (output texts (templateName path) text scene.environment).elim (.error (.template (templateName path))) .ok) ∧
      (∀ path text, Stands site (templateName path) text → '\x7b' ∉ text.toList → ∀ scene, lib.execute path scene = .ok text) ∧
      ∀ site', Reordered site site' → ofTexts site' engine = .ok lib := by
  refine ⟨pairwise_names hengine h, fun name => mem_names_ofTexts hengine h, fun name => templateName_of_mem_names hengine h,
    templateName_templateName, lib.has_iff_mem_names, templateName_eq_iff, fun p q hpq => ?_, has_iff_stands hengine h,
    ⟨layered site, ordered_layered site, fun name text => get?_layered_iff, h, fun path text hstands =>
      execute_of_stands hengine h hstands⟩, fun path text hstands hplain scene => ?_, fun site' hsite' => ?_⟩
  · have hname := (templateName_eq_iff p q).mpr hpq
    exact ⟨by rw [has, has, hname], lib.execute_congr hname⟩
  · rw [execute_of_stands hengine h hstands, hengine.plain (get?_layered_iff.mpr hstands) hplain]
    rfl
  · rw [ofTexts, layered_reordered hsite']
    exact h

/-- Entries for one page under three paths and two texts for one of these, and a text for a wrap that is always there. -/
def respelledSite : List (String × String) := [
  ("./page/Home.tera", "one"), ("PAGE\x5chome.tera", "two"), ("WRAP/none/body.tera", "[\x7b\x7b row.content \x7d\x7d]"),
  ("page/home.tera", "three"), ("page/home.tera", "four")]

/-- What a template sees of a row with a content. -/
def sceneOf (content : String) : Scene := { (default : Scene) with row := [("content", .text content)] }

/-- `ofTexts_stands` of entries that are given in another order too, for an engine of a part of the language. The page has the
last text of the greatest of its paths, and of the wraps that are always there one has the text of the site. -/
theorem ofTexts_stands_respelled :
    let reordered := respelledSite.drop 2 ++ respelledSite.take 2
    ∃ lib, ofTexts respelledSite Template.engine = .ok lib ∧ ofTexts reordered Template.engine = .ok lib ∧
      "page/home.tera" ∈ lib.names ∧ lib.has "././Page\x5cHOME.tera" = true ∧
      (∀ scene, lib.execute "././Page\x5cHOME.tera" scene = .ok "four") ∧
      lib.execute "Wrap/none/body.tera" (sceneOf "text") = .ok "[text]" ∧
      ∀ scene, lib.execute "wrap/div/footer.tera" scene = .ok "</div>" := by
  intro reordered
  have hmade : (ofTexts respelledSite Template.engine).toOption.isSome = true := by decide +kernel
  cases h : ofTexts respelledSite Template.engine with
  | error e =>
    rw [h] at hmade
    cases hmade
  | ok lib =>
    obtain ⟨-, hnames, -, -, hfound, -, -, -, ⟨texts, hordered, htexts, -, hexecute⟩, hplain, horder⟩ :=
      ofTexts_stands Template.lawful_engine h
    have hname : templateName "././Page\x5cHOME.tera" = "page/home.tera" := by decide +kernel
    have hmem : "page/home.tera" ∈ lib.names := (hnames _).mpr (Or.inr ⟨"page/home.tera", by decide, by decide +kernel⟩)
    have hpage : Prevails respelledSite (templateName "././Page\x5cHOME.tera") "page/home.tera" "four" :=
      ⟨respelledSite.take 4, [], rfl, by decide +kernel, by decide +kernel, nofun⟩
    have hwrap : Prevails respelledSite (templateName "Wrap/none/body.tera") "WRAP/none/body.tera"
        "[\x7b\x7b row.content \x7d\x7d]" :=
      ⟨respelledSite.take 2, respelledSite.drop 3, rfl, by decide +kernel, by decide +kernel, by decide +kernel⟩
    have hfooter : Stands respelledSite (templateName "wrap/div/footer.tera") "</div>" :=
      .builtin (by decide +kernel) (by decide +kernel)
    have hpaths : ∀ e ∈ respelledSite.take 2, ∀ e' ∈ respelledSite.drop 2, e.1 ≠ e'.1 := by decide +kernel
    have hlayered : texts = layered respelledSite :=
      hordered.ext (ordered_layered _) fun name => Option.ext fun text => (htexts name text).trans get?_layered_iff.symm
    have houtput : Template.output (layered respelledSite) (templateName "Wrap/none/body.tera")
        "[\x7b\x7b row.content \x7d\x7d]" (sceneOf "text").environment = some "[text]" := by decide +kernel
    refine ⟨lib, rfl, horder _ (reordered_append hpaths), hmem, (hfound _).mpr (hname ▸ hmem),
      hplain _ _ (.given hpage) (by decide), ?_, hplain _ _ hfooter (by decide)⟩
    rw [hexecute _ _ (.given hwrap), hlayered, houtput]
    rfl

end Library

end Folio
