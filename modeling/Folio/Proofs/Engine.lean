import Folio.Template.Engine

/-!
# What is known of an engine

An engine takes every text in under its name, and under a name it executes the text of that name among all of them; a text
without a brace gives itself (`Engine.Lawful`). What is said of libraries rests on this alone, whatever else an engine makes of
the language. The engine of a part of the language is one of these (`Template.lawful_engine`).
-/

namespace Folio

/-- What a text gives under a name, among all texts and for some variables; none if it fails. -/
abbrev Engine.Output := (texts : Keyed String) → (name text : String) → (environment : Keyed Data) → Option String

/-- What an engine can be relied on for, `output` being what the text under a name gives among all texts. -/
structure Engine.Lawful (engine : Engine) (output : Engine.Output) : Prop where
  /-- Texts that are taken in are there under their names, and nothing else is. -/
  loaded {texts : Keyed String} {lib : Library} : texts.Ordered → engine texts = .ok lib → lib.loaded.Perm (texts.map Prod.fst)
  /-- What is executed under a name is the text of that name. -/
  text? {texts : Keyed String} {lib : Library} {name text : String} : texts.Ordered → engine texts = .ok lib →
    texts.get? name = some text → lib.text? name = output texts name text
  /-- A text without a brace gives itself. -/
  plain {texts : Keyed String} {name text : String} : texts.get? name = some text → '\x7b' ∉ text.toList →
    output texts name text = fun _ => some text

namespace Template

open Reader

/-! ## Texts that are read -/

/-- The templates that are read have the names of their texts. -/
theorem keys_of_readTexts {texts : Keyed String} {templates : Keyed Template} (h : readTexts texts = .ok templates) :
    templates.map Prod.fst = texts.map Prod.fst := by
  induction texts generalizing templates with
  | nil =>
    cases h
    rfl
  | cons entry rest ih =>
    obtain ⟨name, text⟩ := entry
    rw [readTexts] at h
    split at h
    · cases h
    · cases hrest : readTexts rest with
      | error e =>
        rw [hrest] at h
        cases h
      | ok others =>
        rw [hrest] at h
        cases h
        rw [List.map_cons, List.map_cons, ih hrest]

/-- The templates that are read are those of their texts. -/
theorem get?_of_readTexts {texts : Keyed String} {templates : Keyed Template} (h : readTexts texts = .ok templates)
    (name : String) : templates.get? name = (texts.get? name).bind ofText? := by
  induction texts generalizing templates with
  | nil =>
    cases h
    rfl
  | cons entry rest ih =>
    obtain ⟨key, text⟩ := entry
    rw [readTexts] at h
    split at h
    · cases h
    · rename_i t ht
      cases hrest : readTexts rest with
      | error e =>
        rw [hrest] at h
        cases h
      | ok others =>
        rw [hrest] at h
        cases h
        rw [Keyed.get?_cons, Keyed.get?_cons, ih hrest]
        split
        · exact ht.symm
        · rfl

/-- What the engine gives for the text under a name among all texts. -/
def output : Engine.Output := fun texts name text environment =>
  (ofText? text).bind fun t => shown? (fun name => (texts.get? name).bind ofText?) texts.length name t environment

/-- A library of the engine has the names of its texts, and executes each among all of them. -/
theorem of_engine_eq_ok {texts : Keyed String} {lib : Library} (h : engine texts = .ok lib) :
    lib.loaded = texts.map Prod.fst ∧ ∀ {name text}, texts.get? name = some text → lib.text? name = output texts name text := by
  unfold engine at h
  cases hread : readTexts texts with
  | error e =>
    rw [hread] at h
    cases h
  | ok templates =>
    rw [hread] at h
    dsimp only at h
    split at h
    · cases h
    · rw [← Except.ok.inj h]
      have hkeys := keys_of_readTexts hread
      have hcount : templates.length = texts.length := by
        rw [← List.length_map (f := Prod.fst), hkeys, List.length_map]
      have hfind : templates.get? = fun name => (texts.get? name).bind ofText? := funext (get?_of_readTexts hread)
      refine ⟨hkeys, fun {name text} htext => funext fun environment => ?_⟩
      dsimp only
      rw [hcount, hfind]
      dsimp only
      rw [htext]
      rfl

/-! ## Texts without braces -/

theorem readParent_of_not_mem {text : List Char} (h : '\x7b' ∉ text) : Piece.readParent text = none := by
  have hmark : mark "\x7b%" text = none := by
    unfold mark
    cases text with
    | nil => rfl
    | cons c text =>
      have hc : '\x7b' ≠ c := fun heq => h (heq ▸ List.mem_cons_self)
      change Option.map _ (if '\x7b' = c then _ else _) = _
      rw [if_neg hc]
      rfl
  unfold Piece.readParent statement between opening
  change ((((mark "\x7b%" text).bind _).bind _).bind _) = none
  rw [hmark]
  rfl

theorem plainText_of_not_mem {text : List Char} (h : '\x7b' ∉ text) : Piece.plainText text = (text, []) := by
  induction text using Piece.plainText.induct with
  | case1 => rfl
  | case2 c => rfl
  | case3 c d rest hc => 
    rw [Bool.and_eq_true, decide_eq_true_eq] at hc
    exact absurd (hc.1 ▸ List.mem_cons_self) h
  | case4 c d rest hc _ _ hrest ih =>
    rw [Piece.plainText, if_neg hc, ih fun hmem => h (List.mem_cons_of_mem _ hmem)]

theorem read_of_not_mem {c : Char} {text : List Char} (h : '\x7b' ∉ c :: text) :
    Piece.read (c :: text) = some (.text (String.ofList (c :: text)), []) := by
  have htext : Piece.readText (c :: text) = some (.text (String.ofList (c :: text)), []) := by
    unfold Piece.readText
    rw [plainText_of_not_mem h]
  unfold Piece.read
  change (Piece.readText (c :: text)).orElse _ = _
  rw [htext]
  rfl

/-- A text without a brace is a single piece, if it has anything at all. -/
theorem readAll_of_not_mem {text : List Char} (h : '\x7b' ∉ text) :
    Piece.readAll text = some (if text = [] then [] else [.text (String.ofList text)]) := by
  have hnil : repeated Piece.read [] = ([], []) := by
    rw [repeated, show Piece.read [] = none from rfl]
  unfold Piece.readAll
  cases text with
  | nil => 
    rw [hnil]
    rfl
  | cons c text =>
    rw [repeated, read_of_not_mem h]
    dsimp only
    rw [dif_pos (show [].length < (c :: text).length from Nat.zero_lt_succ _), hnil]
    rfl

theorem ofText?_of_not_mem {text : String} (h : '\x7b' ∉ text.toList) :
    ofText? text = some { nodes := if text = "" then [] else [.text text] } := by
  unfold ofText?
  rw [readParent_of_not_mem h, readAll_of_not_mem h]
  dsimp only
  by_cases hempty : text = ""
  · rw [hempty]
    rfl
  · have hchars : text.toList ≠ [] := fun hnil => hempty (String.toList_eq_nil_iff.mp hnil)
    have hsome : text.isEmpty ≠ true := fun h => hempty (String.isEmpty_iff.mp h)
    have htree : Node.ofPieces? [.text text] = some (if text.isEmpty then [] else [.text text]).reverse := rfl
    rw [if_neg hchars, if_neg hempty, String.ofList_toList]
    rw [Option.bind_eq_bind, Option.bind_some, htree, if_neg hsome]
    rfl

/-- A text without a brace gives itself. -/
theorem shown?_of_not_mem {text : String} (h : '{' ∉ text.toList) (find? : String → Option Template) (count : Nat) (name : String)
    (environment : Keyed Data) :
    (ofText? text).bind (fun t => shown? find? count name t environment) = some text := by
  rw [ofText?_of_not_mem h]
  change (nodesText? _ _ _ _).bind _ = _
  by_cases hempty : text = ""
  · rw [hempty]
    rfl
  · rw [if_neg hempty]
    change some (text ++ "") = some text
    rw [String.append_empty]

/-- The engine is one that can be relied on. -/
theorem lawful_engine : engine.Lawful output where
  loaded _ h := (of_engine_eq_ok h).1 ▸ List.Perm.refl _
  text? _ h := (of_engine_eq_ok h).2
  plain _ htext := funext fun environment => shown?_of_not_mem htext _ _ _ environment

end Template

end Folio
