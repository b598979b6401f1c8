import Folio.Proofs.Lowercase

/-!
# Capitals and what they go back to

Two names in lower case can have one capital form: `ı` and `i` both become `I`, and `ǰ` becomes the two characters of `J̌`.
Lowering the first character of a capital form gives the plain form of the name, which has the same capital form
(`capitalize_plain`), so names share their capital form exactly if they share their plain form (`capitalize_eq_iff`). Most
names are their own plain forms, among them those that begin with an ASCII character (`plain_of_ascii`).
-/

namespace Folio.Text

/-! ## Characters -/

/-- The character is the uppercase form of its lowercase form. -/
def Returns (u : Char) : Prop :=
  (lowerChar u).map upperChar = [[u]]

instance : DecidablePred Returns := fun _ => inferInstanceAs (Decidable (_ = _))

/-- What a run makes of its characters lies in the range of another run, the gaps of that not counted. -/
def CaseRun.reaches (r r' : CaseRun) : Bool :=
  Nat.ble r'.first (Int.toNat (r.last + r.shift)) && Nat.ble (Int.toNat (r.first + r.shift)) r'.last

theorem CaseRun.image?_of_not_reaches {r r' : CaseRun} (h : r.reaches r' = false) {code image : Nat}
    (himage : r.image? code = some image) : r'.image? image = none := by
  obtain ⟨hfirst, hlast, -, rfl⟩ := mem_codes himage
  unfold reaches at h
  rw [Bool.and_eq_false_iff] at h
  unfold image?
  rw [if_neg]
  rintro ⟨hlow, hhigh, -⟩
  rcases h with h | h
  · exact Bool.eq_false_iff.mp h (Nat.ble_eq.mpr (by omega))
  · exact Bool.eq_false_iff.mp h (Nat.ble_eq.mpr (by omega))

/-- What is to be known of the characters whose uppercase form is one other: that goes back to the character, or it goes to
another one of the same uppercase form. Only the runs that it can lie in are looked at. -/
theorem back_runs : ∀ r ∈ upperRuns, ∀ code ∈ r.codes,
    let image := Int.toNat (code + r.shift)
    (128 ≤ image ∧ image.isValidChar ∧ image ≠ 0x130 ∧
      (lowerRuns.filter r.reaches).findSome? (·.image? image) = some code) ∨ Returns (Char.ofNat image) := by
  decide +kernel

theorem returns_ascii : ∀ code < 128, Settled (Char.ofNat code) → Returns (Char.ofNat code).toUpper := by
  decide +kernel

theorem returns_expansions : ∀ e ∈ upperExpansions, ∃ first ∈ e.2.head?, Returns (Char.ofNat first) := by
  decide +kernel

theorem findSome?_filter_of_none {α β : Type} {l : List α} {p : α → Bool} {f : α → Option β}
    (h : ∀ x ∈ l, p x = false → f x = none) : (l.filter p).findSome? f = l.findSome? f := by
  induction l with
  | nil => rfl
  | cons x l ih =>
    have hrest := ih fun y hy => h y (List.mem_cons_of_mem _ hy)
    cases hx : p x with
    | true => rw [List.filter_cons_of_pos hx, List.findSome?_cons, List.findSome?_cons, hrest]
    | false =>
      rw [List.filter_cons_of_neg (Bool.eq_false_iff.mp hx), hrest, List.findSome?_cons, h x List.mem_cons_self hx]

/-- The uppercase form of a character, if it is one other, goes back to a character of this uppercase form. -/
theorem returns_run {c : Char} {image : Nat} (hupper : upperChar c = [Char.ofNat image])
    (h : upperRuns.findSome? (·.image? c.toNat) = some image) : Returns (Char.ofNat image) := by
  obtain ⟨r, hr, himage⟩ := List.exists_of_findSome?_eq_some h
  obtain ⟨-, -, hcode, heq⟩ := CaseRun.mem_codes himage
  have hback := back_runs r hr c.toNat hcode
  rw [← heq] at hback
  rcases hback with ⟨hascii, hvalid, hdotted, hback⟩ | hback
  · have htoNat : (Char.ofNat image).toNat = image := by
      rw [Char.ofNat, dif_pos hvalid]
      rfl
    have hfound : lowerRuns.findSome? (·.image? image) = some c.toNat := by
      rw [← hback]
      exact (findSome?_filter_of_none fun r' _ hr' => CaseRun.image?_of_not_reaches hr' himage).symm
    have hlower : lowerChar (Char.ofNat image) = [c] := by
      unfold lowerChar
      rw [htoNat, if_neg (by omega), if_neg hdotted, hfound]
      exact congrArg (fun d => [d]) (Char.ofNat_toNat c)
    unfold Returns
    rw [hlower, List.map_singleton, hupper]
  · exact hback

/-- The first character of an uppercase form of a settled character goes back to one of the same uppercase form. -/
theorem returns_head_upperChar {c : Char} (hc : Settled c) : ∃ u rest, upperChar c = u :: rest ∧ Returns u := by
  have hself : Char.ofNat c.toNat = c := Char.ofNat_toNat c
  by_cases hascii : c.toNat < 128
  · have hreturns := returns_ascii c.toNat hascii
    rw [hself] at hreturns
    exact ⟨c.toUpper, [], by rw [upperChar, if_pos hascii], hreturns hc⟩
  have hupper : upperChar c = upperChar c := rfl
  conv at hupper => rhs; rw [upperChar, if_neg hascii]
  split at hupper
  · rename_i codes hcodes
    obtain ⟨before, after, hentries, -⟩ := List.lookup_eq_some_iff.mp hcodes
    have hmem : (c.toNat, codes) ∈ upperExpansions := by
      rw [hentries]
      exact List.mem_append_right _ List.mem_cons_self
    obtain ⟨first, hfirst, hreturns⟩ := returns_expansions _ hmem
    obtain ⟨rest, rfl⟩ : ∃ rest, codes = first :: rest := List.head?_eq_some_iff.mp hfirst
    exact ⟨Char.ofNat first, rest.map Char.ofNat, hupper, hreturns⟩
  · split at hupper
    · rename_i image himage
      exact ⟨Char.ofNat image, [], hupper, returns_run hupper himage⟩
    · refine ⟨c, [], hupper, ?_⟩
      unfold Returns
      rw [hc.2, List.map_singleton, hupper]

/-! ## Texts -/

/-- A text with its first character in lower case and the rest untouched. -/
def uncapitalize (s : String) : String :=
  match s.toList with
  | [] => ""
  | c :: rest => String.ofList (lowerChar c ++ rest)

/-- The text that the capital form of a text goes back to. -/
def plain (s : String) : String :=
  uncapitalize (capitalize s)

theorem capitalize_cons (c : Char) (rest : List Char) :
    capitalize (String.ofList (c :: rest)) = String.ofList (upperChar c ++ rest) := by
  simp only [capitalize, String.toList_ofList]

theorem uncapitalize_cons (c : Char) (rest : List Char) :
    uncapitalize (String.ofList (c :: rest)) = String.ofList (lowerChar c ++ rest) := by
  simp only [uncapitalize, String.toList_ofList]

/-- What is in lower case is empty, or begins with a settled character. -/
theorem empty_or_settled {s : String} (hs : lower s = s) : s = "" ∨ ∃ c rest, s = String.ofList (c :: rest) ∧ Settled c := by
  cases hlist : s.toList with
  | nil => exact Or.inl (String.toList_eq_nil_iff.mp hlist)
  | cons c rest =>
    refine Or.inr ⟨c, rest, by rw [← hlist, String.ofList_toList], ?_⟩
    have hmem : c ∈ (lower s).toList := by
      rw [hs, hlist]
      exact List.mem_cons_self
    rw [lower, String.toList_ofList] at hmem
    exact (exists_formOf hmem).1

/-- The plain form of a name in lower case has the same capital form. -/
theorem capitalize_plain {s : String} (hs : lower s = s) : capitalize (plain s) = capitalize s := by
  unfold plain
  rcases empty_or_settled hs with rfl | ⟨c, tail, rfl, hc⟩
  · rfl
  · obtain ⟨u, rest, hupper, hreturns⟩ := returns_head_upperChar hc
    obtain ⟨d, hlower, hback⟩ := List.map_eq_singleton_iff.mp hreturns
    rw [capitalize_cons, hupper, List.cons_append, uncapitalize_cons, hlower, List.singleton_append, capitalize_cons, hback,
      List.singleton_append]

/-- Names in lower case have one capital form exactly if they have one plain form. -/
theorem capitalize_eq_iff {s t : String} (hs : lower s = s) (ht : lower t = t) :
    capitalize s = capitalize t ↔ plain s = plain t := by
  constructor
  · exact fun h => congrArg uncapitalize h
  · intro h
    rw [← capitalize_plain hs, ← capitalize_plain ht, h]

-- a capital `I` hides whether there was a dot
example : capitalize "ısland" = capitalize "island" ∧ plain "ısland" = plain "island" := by decide +kernel

theorem lowerChar_toUpper : ∀ code < 128, Settled (Char.ofNat code) →
    lowerChar (Char.ofNat code).toUpper = [Char.ofNat code] := by
  decide +kernel

/-- A name in lower case that begins with an ASCII character is its own plain form. -/
theorem plain_of_ascii {s : String} (hs : lower s = s) (hascii : ∀ c ∈ s.toList.head?, c.toNat < 128) : plain s = s := by
  unfold plain
  rcases empty_or_settled hs with rfl | ⟨c, tail, rfl, hc⟩
  · rfl
  · have hlt : c.toNat < 128 := hascii c (by rw [String.toList_ofList]; rfl)
    have hlower := lowerChar_toUpper c.toNat hlt
    rw [Char.ofNat_toNat] at hlower
    rw [capitalize_cons, upperChar, if_pos hlt, List.singleton_append, uncapitalize_cons, hlower hc, List.singleton_append]

end Folio.Text
