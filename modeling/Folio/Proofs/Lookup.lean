import Folio.Proofs.Engine
import Folio.Proofs.Lowercase
import Folio.Proofs.Overlay

/-!
# What a library has

A library has the templates of its texts and those that are always there, each under its name, whichever engine has taken them
in (`Library.has_ofTexts`). The name of a template below a scheme's directory keeps the scheme, and what lies below it is in lower
case and without backslashes (`templateName_below`).
-/

namespace Folio

/-- Texts that are sorted are in the order of their characters. -/
theorem pairwise_mergeSort (texts : List String) : (texts.mergeSort fun a b => !decide (b < a)).Pairwise (· ≤ ·) := by
  have hle (a b : String) : (!decide (b < a)) = true ↔ a ≤ b := by
    rw [Bool.not_eq_true', decide_eq_false_iff_not, String.not_lt]
  refine (List.pairwise_mergeSort (fun a b c hab hbc => ?_) (fun a b => ?_) _).imp (hle _ _).mp
  · exact (hle a c).mpr (Std.le_trans ((hle a b).mp hab) ((hle b c).mp hbc))
  · rw [Bool.or_eq_true, hle, hle]
    exact Std.le_total

/-! ## Libraries -/

namespace Library

/-- What the entries of a site put over the texts that are always there, under their names. -/
def overlayOf (site : List (String × String)) : Keyed String :=
  (Keyed.ofEntries site).map fun (path, text) => (templateName path, text)

theorem mem_keys_overlayOf {site : List (String × String)} {name : String} :
    name ∈ (overlayOf site).map Prod.fst ↔ ∃ p ∈ site.map Prod.fst, templateName p = name := by
  unfold overlayOf
  rw [List.map_map, List.mem_map]
  constructor
  · rintro ⟨⟨p, text⟩, hmem, heq⟩
    exact ⟨p, (Keyed.mem_keys_ofEntries site).mp (List.mem_map_of_mem hmem), heq⟩
  · rintro ⟨p, hp, heq⟩
    obtain ⟨⟨q, text⟩, hmem, rfl⟩ := List.mem_map.mp ((Keyed.mem_keys_ofEntries site).mpr hp)
    exact ⟨(q, text), hmem, heq⟩

theorem mem_names (lib : Library) {name : String} : name ∈ lib.names ↔ name ∈ lib.loaded :=
  List.mem_mergeSort

theorem has_iff_mem_names (lib : Library) (path : String) : lib.has path = true ↔ templateName path ∈ lib.names :=
  List.contains_iff_mem.trans lib.mem_names.symm

theorem has_eq_false_iff (lib : Library) (path : String) : lib.has path = false ↔ templateName path ∉ lib.names := by
  rw [← lib.has_iff_mem_names, Bool.not_eq_true]

theorem ordered_layered (site : List (String × String)) : (layered site).Ordered := by
  have hbuiltin : Keyed.Ordered builtinTexts := by
    unfold Keyed.Ordered
    decide
  exact hbuiltin.extend _

section Taken

variable {engine : Engine} {output : Engine.Output} {site : List (String × String)} {lib : Library}
  (hengine : engine.Lawful output) (h : ofTexts site engine = .ok lib)
include hengine h

/-- The names of a library are those of its texts, in their order. -/
theorem names_ofTexts : lib.names = (layered site).map Prod.fst := by
  have hordered : ((layered site).map Prod.fst).Pairwise (· ≤ ·) :=
    (List.pairwise_map.mpr (ordered_layered site)).imp Std.le_of_lt
  exact List.Perm.eq_of_pairwise (fun _ _ _ _ => Std.le_antisymm) (pairwise_mergeSort _) hordered
    ((List.mergeSort_perm _ _).trans (hengine.loaded (ordered_layered site) h))

/-- The names of a library are those of its texts, and those of the templates that are always there. -/
theorem mem_names_ofTexts {name : String} :
    name ∈ lib.names ↔ name ∈ builtinTexts.map Prod.fst ∨ ∃ p ∈ site.map Prod.fst, templateName p = name := by
  have hlayered : layered site = Keyed.extend builtinTexts (overlayOf site) := rfl
  rw [names_ofTexts hengine h, ← Keyed.hasKey_iff, hlayered, Keyed.hasKey_extend, Keyed.hasKey_iff, mem_keys_overlayOf]

theorem has_ofTexts (path : String) :
    lib.has path = true ↔
      templateName path ∈ builtinTexts.map Prod.fst ∨ ∃ p ∈ site.map Prod.fst, templateName p = templateName path :=
  (lib.has_iff_mem_names path).trans (mem_names_ofTexts hengine h)

end Taken

/-- A template of the library is found, whether or not it can be executed. -/
theorem execute_notFound_iff (lib : Library) (path : String) (scene : Scene) :
    (∃ p, lib.execute path scene = .error (.notFound p)) ↔ lib.has path = false := by
  unfold execute
  cases lib.has path with
  | false => exact ⟨fun _ => rfl, fun _ => ⟨path, rfl⟩⟩
  | true =>
    rw [if_pos rfl]
    refine ⟨?_, nofun⟩
    rintro ⟨p, h⟩
    split at h <;> cases h

end Library

/-! ## Names -/

namespace Text

theorem lower_ne_empty {s : String} (h : s ≠ "") : lower s ≠ "" := by
  intro hempty
  have hnil : lowerAfter [] s.toList = [] := String.ofList_eq_empty_iff.mp hempty
  cases hs : s.toList with
  | nil => exact h (String.toList_eq_nil_iff.mp hs)
  | cons c rest =>
    rw [hs, lowerAfter, List.append_eq_nil_iff] at hnil
    have hform := hnil.1
    split at hform
    · split at hform <;> cases hform
    · exact lowerChar_ne_nil c hform

/-- The parts of a path have their lowercase forms each on its own. -/
theorem lower_slash (s t : String) : lower (s ++ "/" ++ t) = lower s ++ "/" ++ lower t := by
  have hparts := lowerAfter_append_slash [] s.toList t.toList
  have htext : (s ++ "/" ++ t).toList = s.toList ++ '/' :: t.toList := by
    rw [String.toList_append, String.toList_append, List.append_assoc]
    rfl
  unfold lower
  rw [htext, hparts, List.append_cons, String.ofList_append, String.ofList_append]

/-- A text with a slash in the place of every backslash. -/
def slashed (s : String) : String :=
  String.ofList (s.toList.map slashedChar)

theorem lower_slashed (s : String) : lower (slashed s) = slashed (lower s) := by
  unfold lower slashed
  rw [String.toList_ofList, String.toList_ofList]
  exact congrArg String.ofList (lowerAfter_slashed [] s.toList)

theorem slashed_append (s t : String) : slashed (s ++ t) = slashed s ++ slashed t := by
  unfold slashed
  rw [String.toList_append, List.map_append, String.ofList_append]

theorem slashedChar_slashedChar (c : Char) : slashedChar (slashedChar c) = slashedChar c := by
  refine slashedChar_of_ne ?_
  by_cases hc : c = '\x5c'
  · rw [hc]
    decide
  · rwa [slashedChar_of_ne hc]

theorem slashed_slashed (s : String) : slashed (slashed s) = slashed s := by
  unfold slashed
  rw [String.toList_ofList, List.map_map]
  exact congrArg String.ofList (List.map_congr_left fun c _ => slashedChar_slashedChar c)

/-- Texts without slashes are the same if they are with slashes in the place of backslashes. -/
theorem slashed_inj {s t : String} (hs : '/' ∉ s.toList) (ht : '/' ∉ t.toList) (h : slashed s = slashed t) : s = t := by
  have hback {u : String} (hu : '/' ∉ u.toList) :
      ((slashed u).toList.map fun c => if c = '/' then '\x5c' else c) = u.toList := by
    unfold slashed
    rw [String.toList_ofList, List.map_map]
    refine (List.map_congr_left fun c hc => ?_).trans (List.map_id _)
    have hslash : c ≠ '/' := fun heq => hu (heq ▸ hc)
    rw [Function.comp_apply]
    by_cases hc : c = '\x5c'
    · rw [hc]
      rfl
    · rw [slashedChar_of_ne hc, if_neg hslash, id]
  rw [← String.toList_inj, ← hback hs, ← hback ht, h]

end Text

open Text

/-- The name of a scheme is in lower case, and does not begin like a path that begins with a dot. -/
theorem lower_name (scheme : Scheme) : lower scheme.name = scheme.name := by
  cases scheme <;> decide +kernel

theorem dropDots_of_head {s : List Char} (h : s.head? ≠ some '.') : templateName.dropDots s = s := by
  unfold templateName.dropDots
  split
  · exact absurd rfl h
  · rfl

/-- The name of a template below the directory of a scheme. -/
theorem templateName_below (scheme : Scheme) (rest : String) :
    templateName (scheme.name ++ "/" ++ rest) = scheme.name ++ "/" ++ slashed (lower rest) := by
  have hslashed : slashed (scheme.name ++ "/") = scheme.name ++ "/" := by
    cases scheme <;> decide +kernel
  have hdots : templateName (scheme.name ++ "/" ++ rest) = lower (slashed (scheme.name ++ "/" ++ rest)) := by
    refine congrArg (fun s => lower (String.ofList s)) (dropDots_of_head ?_)
    rw [String.toList_append, String.toList_append]
    cases scheme <;> exact nofun
  rw [hdots, slashed_append, hslashed, lower_slash, lower_name, lower_slashed]

end Folio
