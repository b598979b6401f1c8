import Folio.Render.Region
import Folio.Scheme

/-!
# Joining and cutting paths

Paths can be joined from either side as long as what is between does not begin or end in a slash (`Path.join_join`). A path
below the directory of a scheme tells the scheme (`Scheme.below_inj`), and the name of a file its stem and its extension
(`Path.eq_of_splitExtension`).
-/

namespace Folio

namespace Path

/-- A text that can stand between the slashes of a path. -/
def IsName (s : String) : Prop :=
  s ≠ "" ∧ '/' ∉ s.toList

instance : DecidablePred IsName := fun _ => inferInstanceAs (Decidable (_ ∧ _))

/-- A path that holds something and neither begins nor ends in a slash. -/
def IsInner (s : String) : Prop :=
  s ≠ "" ∧ isAbsolute s = false ∧ endsInSlash s = false

variable {s t : String}

theorem IsName.isInner (h : IsName s) : IsInner s :=
  ⟨h.1, decide_eq_false fun hhead => h.2 (List.mem_of_head? hhead),
    decide_eq_false fun hlast => h.2 (List.mem_of_getLast? hlast)⟩

theorem isAbsolute_append (hs : s ≠ "") : isAbsolute (s ++ t) = isAbsolute s := by
  unfold isAbsolute
  rw [String.toList_append, List.head?_append]
  cases hc : s.toList with
  | nil => exact absurd (String.toList_eq_nil_iff.mp hc) hs
  | cons c cs => rfl

theorem endsInSlash_append (ht : t ≠ "") : endsInSlash (s ++ t) = endsInSlash t := by
  unfold endsInSlash
  rw [String.toList_append, List.getLast?_append]
  cases hc : t.toList.getLast? with
  | none => exact absurd (String.toList_eq_nil_iff.mp (List.getLast?_eq_none_iff.mp hc)) ht
  | some c => rfl

theorem append_ne_empty (hs : s ≠ "") : s ++ t ≠ "" :=
  fun h => hs (String.append_eq_empty_iff.mp h).1

/-- What stands before a path that is joined to a directory. -/
def front (dir : String) : String :=
  if dir.isEmpty then "" else if endsInSlash dir then dir else dir ++ "/"

theorem join_eq (dir : String) (h : isAbsolute s = false) : join dir s = front dir ++ s := by
  unfold join front
  rw [h, Bool.false_or]
  by_cases hempty : dir.isEmpty = true
  · rw [if_pos hempty, if_pos hempty, String.empty_append]
  · rw [if_neg hempty, if_neg hempty]
    unfold endsInSlash
    by_cases hlast : dir.toList.getLast? = some '/'
    · rw [if_pos hlast, if_pos (decide_eq_true hlast)]
    · rw [if_neg hlast, if_neg fun h => hlast (of_decide_eq_true h)]

theorem front_append (hs : IsInner s) : front (t ++ s) = t ++ s ++ "/" := by
  have hne : ¬ (t ++ s).isEmpty = true := fun h => hs.1 (String.append_eq_empty_iff.mp (String.isEmpty_iff.mp h)).2
  unfold front
  rw [if_neg hne, endsInSlash_append hs.1, hs.2.2, if_neg Bool.false_ne_true]

theorem IsInner.join_eq {dir : String} (hdir : IsInner dir) (h : isAbsolute s = false) :
    join dir s = dir ++ "/" ++ s := by
  have hfront := front_append (t := "") hdir
  rw [String.empty_append] at hfront
  rw [Path.join_eq dir h, hfront]

theorem IsInner.join {dir : String} (hdir : IsInner dir) (hs : IsInner s) : IsInner (join dir s) := by
  rw [hdir.join_eq hs.2.1, String.append_assoc]
  refine ⟨append_ne_empty hdir.1, ?_, ?_⟩
  · rw [isAbsolute_append hdir.1, hdir.2.1]
  · rw [← String.append_assoc, endsInSlash_append hs.1, hs.2.2]

/-- Paths can be joined from either side. -/
theorem join_join (dir : String) (ht : IsInner t) (hs : IsInner s) :
    Path.join (Path.join dir t) s = Path.join dir (Path.join t s) := by
  rw [Path.join_eq dir (ht.join hs).2.1, ht.join_eq hs.2.1, Path.join_eq dir ht.2.1, Path.join_eq _ hs.2.1, front_append ht,
    String.append_assoc, String.append_assoc, String.append_assoc]

end Path

namespace Text

/-- The two sides of the first mark, if there is none in the first of them. -/
theorem splitFirst?_append {mark : Char} {s t : List Char} (h : mark ∉ s) :
    splitFirst? mark (s ++ mark :: t) = some (s, t) := by
  induction s with
  | nil => rw [List.nil_append, splitFirst?, if_pos rfl]
  | cons c s ih =>
    rw [List.mem_cons, not_or] at h
    rw [List.cons_append, splitFirst?, if_neg (Ne.symm h.1), ih h.2]
    rfl

/-- A text is put together from the two sides of a mark. -/
theorem eq_of_splitFirst? {mark : Char} {text s t : List Char} (h : splitFirst? mark text = some (s, t)) :
    text = s ++ mark :: t := by
  induction text generalizing s with
  | nil => cases h
  | cons c text ih =>
    rw [splitFirst?] at h
    split at h
    · rename_i hc
      cases h
      rw [hc]
      rfl
    · obtain ⟨⟨s', t'⟩, hrest, heq⟩ := Option.map_eq_some_iff.mp h
      cases heq
      rw [ih hrest]
      rfl

end Text

namespace Path

/-- The name of a file is its stem and its extension. -/
theorem eq_of_splitExtension {name stem extension : String} (h : splitExtension name = (stem, some extension)) :
    name = stem ++ "." ++ extension := by
  cases hsplit : Text.splitFirst? '.' name.toList.reverse with
  | none =>
    simp only [splitExtension, hsplit] at h
    cases h
  | some sides =>
    obtain ⟨after, before⟩ := sides
    simp only [splitExtension, hsplit] at h
    have hparts : (String.ofList before.reverse, some (String.ofList after.reverse)) = (stem, some extension) := by
      revert h
      change (if before.isEmpty then _ else _) = _ → _
      split
      · exact nofun
      · exact id
    cases hparts
    apply String.toList_injective
    rw [String.toList_append, String.toList_append, String.toList_ofList, String.toList_ofList, String.toList_ofList,
      ← List.reverse_reverse name.toList, Text.eq_of_splitFirst? hsplit, List.reverse_append, List.reverse_cons]

end Path

/-! ## What lies below a scheme's directory -/

namespace Scheme

theorem isName (scheme : Scheme) : Path.IsName scheme.name := by
  cases scheme <;> decide +kernel

/-- Paths below the directories of schemes are the same only below the same one. -/
theorem below_inj {scheme scheme' : Scheme} {rest rest' : String}
    (h : scheme.name ++ "/" ++ rest = scheme'.name ++ "/" ++ rest') : scheme = scheme' ∧ rest = rest' := by
  have hsplit (scheme : Scheme) (rest : String) :
      Text.splitFirst? '/' (scheme.name ++ "/" ++ rest).toList = some (scheme.name.toList, rest.toList) := by
    rw [String.toList_append, String.toList_append, List.append_assoc]
    exact Text.splitFirst?_append scheme.isName.2
  have hparts := hsplit scheme rest
  rw [h, hsplit scheme' rest', Option.some.injEq, Prod.mk.injEq] at hparts
  refine ⟨?_, String.toList_injective hparts.2.symm⟩
  have hname := String.toList_injective hparts.1
  have hof := ofName?_name scheme'
  rw [hname, ofName?_name, Option.some.injEq] at hof
  exact hof

end Scheme

namespace Region

theorem isName (region : Region) : Path.IsName region.fileName := by
  cases region <;> decide +kernel

theorem mem_ofTemplate (region : Region) : region ∈ ofTemplate := by
  cases region <;> decide

end Region

end Folio
