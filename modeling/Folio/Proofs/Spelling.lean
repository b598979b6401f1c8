import Folio.Proofs.Grammar
import Folio.Proofs.Overlay
import Folio.Proofs.Paths

/-!
# Spelling a tag

`Spelled` is the way back from the words of a tag to its text: any white space may stand between them. Words that stay in one
piece (`Compact`) are found again (`Spaced.words`), so the text is one tag, which is read word by word (`parse_spelled`).
Assignments to different keys can be read in any order (`addWord_comm`). So a kind, a name, a wrap and attributes come back from
each of the three ways to spell them (`parse_spelling`).
-/

namespace Folio

namespace Keyed

variable {α : Type}

/-- No key has two different entries. -/
def Unambiguous (entries : List (String × α)) : Prop :=
  ∀ e ∈ entries, ∀ e' ∈ entries, e.1 = e'.1 → e = e'

theorem Unambiguous.cons {entries : List (String × α)} (h : Unambiguous entries) {e : String × α}
    (he : ∀ e' ∈ entries, e'.1 ≠ e.1) : Unambiguous (e :: entries) := by
  intro x hx y hy heq
  rcases List.mem_cons.mp hx with rfl | hx'
  · rcases List.mem_cons.mp hy with rfl | hy'
    · rfl
    · exact absurd heq.symm (he y hy')
  · rcases List.mem_cons.mp hy with rfl | hy'
    · exact absurd heq (he x hx')
    · exact h x hx' y hy' heq

theorem Ordered.unambiguous {m : Keyed α} (h : Ordered m) : Unambiguous m := by
  induction m with
  | nil => exact nofun
  | cons e rest ih =>
    obtain ⟨hfirst, hrest⟩ := List.pairwise_cons.mp h
    exact (ih hrest).cons fun e' he' heq => String.lt_irrefl e'.1 (heq.symm ▸ hfirst e' he')

end Keyed

namespace Text

/-- White space in front of a text adds no words. -/
theorem words_blank_append {gap : List Char} (h : ∀ c ∈ gap, isBlank c = true) (text : List Char) :
    words (gap ++ text) = words text := by
  induction gap with
  | nil => rfl
  | cons c gap ih =>
    rw [List.cons_append, words, if_pos (h c List.mem_cons_self)]
    exact ih fun d hd => h d (List.mem_cons_of_mem _ hd)

/-- A stretch without white space is the first word of a text if it is not empty and white space or nothing follows it. -/
theorem words_append {word rest : List Char} (hne : word ≠ []) (hword : ∀ c ∈ word, isBlank c = false)
    (hrest : ∀ c ∈ rest.head?, isBlank c = true) : words (word ++ rest) = word :: words rest := by
  obtain ⟨c, word, rfl⟩ := List.exists_cons_of_ne_nil hne
  have hc : ¬ isBlank c = true := by simp [hword c List.mem_cons_self]
  have hword' : ∀ d ∈ word, (!isBlank d) = true := by
    intro d hd
    rw [hword d (List.mem_cons_of_mem _ hd)]
    rfl
  have hstop : rest.takeWhile (!isBlank ·) = [] ∧ rest.dropWhile (!isBlank ·) = rest := by
    cases rest with
    | nil => exact ⟨rfl, rfl⟩
    | cons d rest =>
      have hd : isBlank d = true := hrest d rfl
      simp [hd]
  rw [List.cons_append, words, if_neg hc, List.takeWhile_append_of_pos hword', List.dropWhile_append_of_pos hword',
    hstop.1, hstop.2, List.append_nil]

end Text

namespace Tag

/-! ## Spelled tags -/

/-- A text that stays in one piece in the body of a tag: it holds neither white space nor the end of a tag. -/
structure Compact (s : String) : Prop where
  blank : ∀ c ∈ s.toList, Text.isBlank c = false
  closing : ¬ closing <:+: s.toList

theorem compact_iff {s : String} :
    Compact s ↔ s.toList.any Text.isBlank = false ∧ Text.occurs Tag.closing s.toList = false := by
  simp only [List.any_eq_false, Bool.not_eq_true, ← Bool.not_eq_true (Text.occurs _ _), Text.occurs_iff]
  exact ⟨fun h => ⟨h.1, h.2⟩, fun h => ⟨h.1, h.2⟩⟩

instance (s : String) : Decidable (Compact s) := decidable_of_iff' _ compact_iff

/-- The word that gives a key a value. -/
def assignment (entry : String × String) : String :=
  entry.1 ++ "=" ++ entry.2

/-- The body has these words in order, each behind some white space; behind the last there may be more of it. -/
inductive Spaced : List String → List Char → Prop where
  | last {gap : List Char} : (∀ c ∈ gap, Text.isBlank c = true) → Spaced [] gap
  | word {gap body : List Char} {word : String} {words : List String} : gap ≠ [] → (∀ c ∈ gap, Text.isBlank c = true) →
      Spaced words body → Spaced (word :: words) (gap ++ (word.toList ++ body))

/-- The text is a tag with these words in its body. -/
def Spelled (words : List String) (text : String) : Prop :=
  ∃ body, Spaced words body ∧ text = String.ofList (opening ++ body ++ closing)

/-- A body begins with white space. -/
theorem Spaced.head_blank {words : List String} {body : List Char} (h : Spaced words body) :
    ∀ c ∈ body.head?, Text.isBlank c = true := by
  intro c hc
  cases h with
  | last hgap => exact hgap c (List.mem_of_head? hc)
  | @word gap _ _ _ hne hgap _ =>
    cases gap with
    | nil => exact absurd rfl hne
    | cons d gap =>
      cases hc
      exact hgap _ List.mem_cons_self

/-- Words in one piece are found again. -/
theorem Spaced.words {words : List String} {body : List Char} (h : Spaced words body)
    (hwords : ∀ word ∈ words, word ≠ "" ∧ Compact word) : Text.words body = words.map String.toList := by
  induction h with
  | @last gap hgap => exact Text.words_eq_nil_iff.mpr hgap
  | @word gap body word words _ hgap hbody ih =>
    obtain ⟨hne, hword⟩ := hwords word List.mem_cons_self
    have hne' : word.toList ≠ [] := fun hnil => hne (String.toList_inj.mp hnil)
    rw [Text.words_blank_append hgap, Text.words_append hne' hword.blank hbody.head_blank,
      ih fun w hw => hwords w (List.mem_cons_of_mem _ hw), List.map_cons]

/-- Of two texts put together, one holds an end of a tag, or they meet in one. -/
theorem infix_append_cases {s t : List Char} (h : closing <:+: s ++ t) :
    closing <:+: s ∨ closing <:+: t ∨ (s.getLast? = some '/' ∧ t.head? = some '>') := by
  induction s with
  | nil => exact Or.inr (Or.inl h)
  | cons c s ih =>
    rw [List.cons_append, List.infix_cons_iff] at h
    rcases h with hhere | hlater
    · -- the end of a tag begins at the first character
      obtain ⟨hc, hnext⟩ := List.cons_prefix_cons.mp hhere
      cases s with
      | nil =>
        refine Or.inr (Or.inr ⟨by rw [hc]; rfl, ?_⟩)
        obtain ⟨rest, hrest⟩ := hnext
        rw [← List.nil_append t, ← hrest]
        rfl
      | cons d s =>
        rw [List.cons_append, List.cons_prefix_cons] at hnext
        refine Or.inl ⟨[], s, ?_⟩
        rw [← hc, ← hnext.1]
        rfl
    · rcases ih hlater with hs | ht | ⟨hlast, hhead⟩
      · exact Or.inl (hs.trans (List.suffix_cons c s).isInfix)
      · exact Or.inr (Or.inl ht)
      · refine Or.inr (Or.inr ⟨?_, hhead⟩)
        rw [List.getLast?_cons, hlast]
        rfl

/-- No end of a tag comes about between words in one piece. -/
theorem Spaced.closing {words : List String} {body : List Char} (h : Spaced words body)
    (hwords : ∀ word ∈ words, Compact word) : ¬ Tag.closing <:+: body := by
  have hblank {gap : List Char} (hgap : ∀ c ∈ gap, Text.isBlank c = true) : ¬ Tag.closing <:+: gap := by
    intro hinside
    exact absurd (hgap '/' (hinside.subset List.mem_cons_self)) (by decide)
  induction h with
  | last hgap => exact hblank hgap
  | @word gap body word words _ hgap hbody ih =>
    intro hinside
    rcases infix_append_cases hinside with hin | hin | ⟨hlast, -⟩
    · exact hblank hgap hin
    · rcases infix_append_cases hin with hin | hin | ⟨-, hhead⟩
      · exact (hwords word List.mem_cons_self).closing hin
      · exact ih (fun w hw => hwords w (List.mem_cons_of_mem _ hw)) hin
      · exact absurd (hbody.head_blank '>' hhead) (by decide)
    · exact absurd (hgap '/' (List.mem_of_getLast? hlast)) (by decide)

theorem toList_assignment (k v : String) : (assignment (k, v)).toList = k.toList ++ '=' :: v.toList := by
  simp [assignment, String.toList_append]

theorem assignment_ne_empty (e : String × String) : assignment e ≠ "" := by
  intro heq
  have hnil := congrArg String.toList heq
  rw [toList_assignment] at hnil
  simp at hnil

/-- An assignment of a text in one piece to another is in one piece. -/
theorem Compact.assignment {k v : String} (hk : Compact k) (hv : Compact v) : Compact (assignment (k, v)) := by
  refine ⟨?_, ?_⟩
  · intro c hc
    rw [toList_assignment, List.mem_append, List.mem_cons] at hc
    rcases hc with hc | rfl | hc
    · exact hk.blank c hc
    · decide
    · exact hv.blank c hc
  · intro hinside
    rw [toList_assignment] at hinside
    rcases infix_append_cases hinside with hin | hin | ⟨-, hhead⟩
    · exact hk.closing hin
    · rcases infix_append_cases (s := ['=']) hin with hin | hin | ⟨hlast, -⟩
      · exact absurd (hin.subset List.mem_cons_self) (by decide)
      · exact hv.closing hin
      · cases hlast
    · cases hhead

/-- A spelled tag is one tag, and it is read word by word. -/
theorem parse_spelled {first : String} {words : List String} {text : String} (h : Spelled (first :: words) text)
    (hwords : ∀ word ∈ first :: words, word ≠ "" ∧ Compact word) :
    parse text [] = [(words.map String.toList).foldl (addWord (begin text first.toList).2) (begin text first.toList).1] := by
  obtain ⟨body, hbody, rfl⟩ := h
  have hproper : Raw.Proper ⟨opening, body⟩ :=
    ⟨show opening.map Char.toLower = opening by decide,
      first_closing_iff.mpr (hbody.closing fun word hword => (hwords word hword).2)⟩
  have hdecode : decode? ⟨opening, body⟩ = some ((words.map String.toList).foldl
      (addWord (begin (String.ofList (Raw.text ⟨opening, body⟩)) first.toList).2)
      (begin (String.ofList (Raw.text ⟨opening, body⟩)) first.toList).1) := by
    rw [decode?, show Text.words (Raw.body ⟨opening, body⟩) = _ from hbody.words hwords]
    rfl
  have hparse := parse_text hproper
  rw [hdecode] at hparse
  exact hparse

/-! ## Reading assignments -/

theorem keyValue_assignment {k : String} (hk : '=' ∉ k.toList) (v : String) :
    keyValue (assignment (k, v)).toList = (k, some v) := by
  rw [keyValue, toList_assignment, Text.splitFirst?_append hk]
  simp only [String.ofList_toList]

/-- An assignment that comes first declares the kind, or gives kind and name. -/
theorem begin_assignment {k : String} (hk : '=' ∉ k.toList) (v raw : String) :
    begin raw (assignment (k, v)).toList =
      if Text.lower k = "type" then ({ kind := Text.lower v, raw }, true)
      else ({ kind := Text.lower k, name := Text.lower v, raw }, false) := by
  rw [begin, keyValue_assignment hk]

/-- A name that comes first is the name of a template. -/
theorem begin_name {name : String} (hmark : '=' ∉ name.toList) (raw : String) :
    begin raw name.toList = ({ kind := "template", name := Text.lower name, raw }, false) := by
  have hsplit : Text.splitFirst? '=' name.toList = none := by
    rw [Option.eq_none_iff_forall_ne_some]
    rintro ⟨s, t⟩ hsome
    rw [Text.eq_of_splitFirst? hsome] at hmark
    exact hmark (List.mem_append_right _ List.mem_cons_self)
  rw [begin, keyValue, hsplit]
  simp only [String.ofList_toList]
  rfl

/-- What an assignment does to a tag depends on its key. -/
theorem addWord_assignment {k : String} (hk : '=' ∉ k.toList) (v : String) (nameFollows : Bool) (t : Tag) :
    addWord nameFollows t (assignment (k, v)).toList =
      if k = "wrap" then { t with wrap := v }
      else if k = "name" ∧ nameFollows = true ∧ t.name = "" then { t with name := Text.lower v }
      else { t with attributes := Keyed.insert t.attributes k v } := by
  rw [addWord, keyValue_assignment hk]
  split
  · rename_i heq
    cases heq
    rfl
  · rename_i key value hkey heq
    obtain ⟨rfl, rfl⟩ := Prod.mk.inj heq
    have hwrap : k ≠ "wrap" := fun hwrap => hkey v hwrap rfl
    rw [if_neg hwrap]
    simp only [Option.isSome_some, Bool.and_true, Option.getD_some, Bool.and_eq_true, decide_eq_true_eq,
      String.isEmpty_iff, and_assoc]

/-- Assignments to different keys can be read in either order. -/
theorem addWord_comm {k k' : String} (hne : k ≠ k') (hk : '=' ∉ k.toList) (hk' : '=' ∉ k'.toList) (v v' : String)
    (nameFollows : Bool) (t : Tag) :
    addWord nameFollows (addWord nameFollows t (assignment (k, v)).toList) (assignment (k', v')).toList =
      addWord nameFollows (addWord nameFollows t (assignment (k', v')).toList) (assignment (k, v)).toList := by
  simp only [addWord_assignment hk, addWord_assignment hk']
  by_cases hwrap : k = "wrap"
  · have hwrap' : k' ≠ "wrap" := fun h => hne (hwrap.trans h.symm)
    simp only [if_pos hwrap, if_neg hwrap']
    split <;> rfl
  · by_cases hwrap' : k' = "wrap"
    · simp only [if_neg hwrap, if_pos hwrap']
      split <;> rfl
    · simp only [if_neg hwrap, if_neg hwrap']
      by_cases hname : k = "name"
      · have hname' : k' ≠ "name" := fun h => hne (hname.trans h.symm)
        simp only [hname', false_and, if_false]
        split
        · rfl
        · rw [Keyed.insert_comm hne]
      · simp only [hname, false_and, if_false]
        split
        · rfl
        · rw [Keyed.insert_comm hne]

/-- Assignments to different keys are read alike in every order. -/
theorem foldl_perm {entries entries' : List (String × String)} (hperm : entries.Perm entries')
    (hkeys : Keyed.Unambiguous entries') (hmark : ∀ e ∈ entries', '=' ∉ e.1.toList) (nameFollows : Bool) (t : Tag) :
    (entries.map fun e => (assignment e).toList).foldl (addWord nameFollows) t =
      (entries'.map fun e => (assignment e).toList).foldl (addWord nameFollows) t := by
  rw [List.foldl_map, List.foldl_map]
  refine hperm.foldl_eq' ?_ t
  intro e he e' he' t
  have he := hperm.mem_iff.mp he
  have he' := hperm.mem_iff.mp he'
  by_cases heq : e.1 = e'.1
  · rw [hkeys e he e' he' heq]
  · exact addWord_comm heq (hmark e he) (hmark e' he') e.2 e'.2 nameFollows t

/-- Attributes are put in their places one by one. -/
theorem foldl_attributes {attributes : Keyed String}
    (hkeys : ∀ e ∈ attributes, '=' ∉ e.1.toList ∧ e.1 ≠ "wrap" ∧ e.1 ≠ "name") (nameFollows : Bool) (t : Tag) :
    (attributes.map fun e => (assignment e).toList).foldl (addWord nameFollows) t =
      { t with attributes := Keyed.extend t.attributes attributes } := by
  induction attributes generalizing t with
  | nil => rfl
  | cons e rest ih =>
    obtain ⟨hmark, hwrap, hname⟩ := hkeys e List.mem_cons_self
    rw [List.map_cons, List.foldl_cons, addWord_assignment hmark, if_neg hwrap, if_neg fun h => hname h.1,
      ih fun e he => hkeys e (List.mem_cons_of_mem _ he)]
    rfl

/-! ## The three spellings -/

/-- A tag is read from every text that is spelled with the first word and the assignments of the entries behind it, in any
order. -/
def ReadAs (first : String) (entries : List (String × String)) (t : Tag) : Prop :=
  ∀ (order : List (String × String)) (text : String), order.Perm entries →
    Spelled (first :: order.map assignment) text → parse text [] = [{ t with raw := text }]

/-- If the entries are read so in one order, they are in every order. -/
theorem readAs_of_foldl {first : String} {entries : List (String × String)} {t : Tag} (hne : first ≠ "")
    (hfirst : Compact first) (hcompact : ∀ e ∈ entries, Compact (assignment e)) (hkeys : Keyed.Unambiguous entries)
    (hmark : ∀ e ∈ entries, '=' ∉ e.1.toList)
    (hfold : ∀ raw, (entries.map fun e => (assignment e).toList).foldl (addWord (begin raw first.toList).2)
      (begin raw first.toList).1 = { t with raw }) : ReadAs first entries t := by
  intro order text hperm hspelled
  have hwords : ∀ word ∈ first :: order.map assignment, word ≠ "" ∧ Compact word := by
    intro word hword
    rcases List.mem_cons.mp hword with rfl | hword
    · exact ⟨hne, hfirst⟩
    · obtain ⟨e, he, rfl⟩ := List.mem_map.mp hword
      exact ⟨assignment_ne_empty e, hcompact e (hperm.mem_iff.mp he)⟩
  have hparse := parse_spelled hspelled hwords
  rw [List.map_map] at hparse
  rw [hparse, ← hfold text]
  exact congrArg ([·]) (foldl_perm hperm hkeys hmark _ _)

/-- A kind, a name, a wrap and attributes that can be spelled: all texts stay in one piece, and no key can be mistaken for
another word. -/
structure Spellable (kind name wrap : String) (attributes : Keyed String) : Prop where
  kind : Compact kind
  name : Compact name
  wrap : Compact wrap
  compact : ∀ e ∈ attributes, Compact e.1 ∧ Compact e.2
  keys : ∀ e ∈ attributes, '=' ∉ e.1.toList ∧ e.1 ≠ "wrap" ∧ e.1 ≠ "name"
  ordered : attributes.Ordered

namespace Spellable

variable {kind name wrap : String} {attributes : Keyed String}

/-- The words of the wrap and the attributes stay in one piece. -/
theorem compact_assignment (h : Spellable kind name wrap attributes) :
    ∀ e ∈ ("wrap", wrap) :: attributes, Compact (assignment e) := by
  intro e he
  rcases List.mem_cons.mp he with rfl | he
  · exact Compact.assignment (by decide +kernel) h.wrap
  · exact Compact.assignment (h.compact e he).1 (h.compact e he).2

theorem unambiguous (h : Spellable kind name wrap attributes) : Keyed.Unambiguous (("wrap", wrap) :: attributes) :=
  h.ordered.unambiguous.cons fun e he => (h.keys e he).2.1

theorem mark (h : Spellable kind name wrap attributes) : ∀ e ∈ ("wrap", wrap) :: attributes, '=' ∉ e.1.toList := by
  intro e he
  rcases List.mem_cons.mp he with rfl | he
  · show '=' ∉ "wrap".toList
    decide +kernel
  · exact (h.keys e he).1

/-- The wrap and the attributes are read from their assignments. -/
theorem foldl_eq (h : Spellable kind name wrap attributes) (nameFollows : Bool) {t : Tag} (ht : t.attributes = []) :
    ((("wrap", wrap) :: attributes).map fun e => (assignment e).toList).foldl (addWord nameFollows) t =
      { t with wrap, attributes } := by
  have hordered : Keyed.Ordered ([] ++ attributes) := h.ordered
  rw [List.map_cons, List.foldl_cons, addWord_assignment (by decide +kernel), if_pos rfl, foldl_attributes h.keys]
  dsimp only
  rw [ht, Keyed.extend_eq_append hordered]
  rfl

end Spellable

/-- A tag that declares its kind is read back from its name, its wrap and its attributes in any order, and so is the same tag
when its first word gives kind and name together, or, for a template, the name alone. -/
theorem parse_spelling (kind name wrap : String) (attributes : Keyed String) (h : Spellable kind name wrap attributes) :
    let read : Tag := { kind := Text.lower kind, name := Text.lower name, wrap, attributes }
    ReadAs (assignment ("type", kind)) (("name", name) :: ("wrap", wrap) :: attributes) read ∧
      ('=' ∉ kind.toList → Text.lower kind ≠ "type" →
        ReadAs (assignment (kind, name)) (("wrap", wrap) :: attributes) read) ∧
      (Text.lower kind = "template" → name ≠ "" → '=' ∉ name.toList → ReadAs name (("wrap", wrap) :: attributes) read) := by
  intro read
  refine ⟨?_, ?_, ?_⟩
  · refine readAs_of_foldl (assignment_ne_empty _) (Compact.assignment (by decide +kernel) h.kind) ?_
      (h.unambiguous.cons ?_) ?_ ?_
    · intro e he
      rcases List.mem_cons.mp he with rfl | he
      · exact Compact.assignment (by decide +kernel) h.name
      · exact h.compact_assignment e he
    · intro e he
      rcases List.mem_cons.mp he with rfl | he
      · show "wrap" ≠ "name"
        decide
      · exact (h.keys e he).2.2
    · intro e he
      rcases List.mem_cons.mp he with rfl | he
      · show '=' ∉ "name".toList
        decide +kernel
      · exact h.mark e he
    · intro raw
      rw [begin_assignment (by decide +kernel), if_pos (by decide +kernel), List.map_cons, List.foldl_cons,
        addWord_assignment (by decide +kernel), if_neg (by decide), if_pos ⟨rfl, rfl, rfl⟩, h.foldl_eq true rfl]
  · intro hmark htype
    refine readAs_of_foldl (assignment_ne_empty _) (Compact.assignment h.kind h.name) h.compact_assignment h.unambiguous
      h.mark ?_
    intro raw
    rw [begin_assignment hmark, if_neg htype, h.foldl_eq false rfl]
  · intro hkind hne hmark
    refine readAs_of_foldl hne h.name h.compact_assignment h.unambiguous h.mark ?_
    intro raw
    rw [begin_name hmark, h.foldl_eq false rfl, ← hkind]

/-- `parse_spelling` of a tag with an attribute whose value holds the mark of an assignment, in its three spellings. -/
theorem parse_spelling_title :
    (Spellable "Template" "Title" "Card" [("a", "x=y"), ("b", "/")] ∧ '=' ∉ "Template".toList ∧
        Text.lower "Template" ≠ "type" ∧ Text.lower "Template" = "template" ∧ "Title" ≠ "" ∧ '=' ∉ "Title".toList) ∧
      parse "<include type=Template b=/ wrap=Card\n name=Title\ta=x=y />" [] =
        [⟨"template", "title", "Card", [("a", "x=y"), ("b", "/")],
          "<include type=Template b=/ wrap=Card\n name=Title\ta=x=y />"⟩] ∧
      parse "<include Template=Title wrap=Card b=/ a=x=y/>" [] =
        [⟨"template", "title", "Card", [("a", "x=y"), ("b", "/")], "<include Template=Title wrap=Card b=/ a=x=y/>"⟩] ∧
      parse "<include Title b=/ a=x=y wrap=Card />" [] =
        [⟨"template", "title", "Card", [("a", "x=y"), ("b", "/")], "<include Title b=/ a=x=y wrap=Card />"⟩] := by
  have h : Spellable "Template" "Title" "Card" [("a", "x=y"), ("b", "/")] :=
    ⟨by decide +kernel, by decide +kernel, by decide +kernel, by decide +kernel, by decide +kernel,
      by unfold Keyed.Ordered; decide +kernel⟩
  have hmark : '=' ∉ "Template".toList := by decide +kernel
  have hkind : Text.lower "Template" = "template" := by decide +kernel
  have htype : Text.lower "Template" ≠ "type" := by decide +kernel
  have hname : Text.lower "Title" = "title" := by decide +kernel
  have hmark' : '=' ∉ "Title".toList := by decide +kernel
  have hspace : [' '] ≠ [] ∧ ∀ c ∈ [' '], Text.isBlank c = true := ⟨by decide, List.all_eq_true.mp (by decide)⟩
  have hline : ['\n', ' '] ≠ [] ∧ ∀ c ∈ ['\n', ' '], Text.isBlank c = true :=
    ⟨by decide, List.all_eq_true.mp (by decide)⟩
  have htab : ['\t'] ≠ [] ∧ ∀ c ∈ ['\t'], Text.isBlank c = true := ⟨by decide, List.all_eq_true.mp (by decide)⟩
  obtain ⟨hdeclared, hgiven, hbare⟩ := parse_spelling "Template" "Title" "Card" [("a", "x=y"), ("b", "/")] h
  have hfirst := hdeclared [("b", "/"), ("wrap", "Card"), ("name", "Title"), ("a", "x=y")]
    "<include type=Template b=/ wrap=Card\n name=Title\ta=x=y />" (by decide)
    ⟨_, .word hspace.1 hspace.2 (.word hspace.1 hspace.2 (.word hspace.1 hspace.2
      (.word hline.1 hline.2 (.word htab.1 htab.2 (.last hspace.2))))), by decide +kernel⟩
  have hsecond := hgiven hmark htype [("wrap", "Card"), ("b", "/"), ("a", "x=y")]
    "<include Template=Title wrap=Card b=/ a=x=y/>" (by decide)
    ⟨_, .word hspace.1 hspace.2 (.word hspace.1 hspace.2 (.word hspace.1 hspace.2 (.word hspace.1 hspace.2
      (.last (List.forall_mem_nil _))))), by decide +kernel⟩
  have hthird := hbare hkind (by decide) hmark' [("b", "/"), ("a", "x=y"), ("wrap", "Card")]
    "<include Title b=/ a=x=y wrap=Card />" (by decide)
    ⟨_, .word hspace.1 hspace.2 (.word hspace.1 hspace.2 (.word hspace.1 hspace.2 (.word hspace.1 hspace.2
      (.last hspace.2)))), by decide +kernel⟩
  rw [hkind, hname] at hfirst hsecond hthird
  exact ⟨⟨h, hmark, htype, hkind, by decide, hmark'⟩, hfirst, hsecond, hthird⟩

end Tag

end Folio
