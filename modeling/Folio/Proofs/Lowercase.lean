import Folio.Text.Case

/-!
# What lower case depends on

The lowercase form of a character is the same everywhere, but for a capital sigma, which asks what stands before and behind
it. `lowerIn` is the form of a text between two others. A slash keeps the sides apart (`lowerAfter_append_slash`), and the
ending of a view file does not, after a stem that ends in a capital sigma (`lowerAfter_append_ending`,
`exists_of_endsInSigma`). What is in lower case stays as it is (`lowerAfter_lowerAfter`).
-/

namespace Folio.Text

/-! ## Characters -/

/-- The character is its own lowercase form, wherever it stands. -/
def Settled (c : Char) : Prop :=
  c ≠ 'Σ' ∧ lowerChar c = [c]

instance : DecidablePred Settled := fun _ => inferInstanceAs (Decidable (_ ∧ _))

/-- What is known of a character in the lowercase form of another: it is settled, and if it is one of those that count for a
path or a sigma, so was the other. -/
def FormOf (c d : Char) : Prop :=
  Settled d ∧ (d = '/' → c = '/') ∧ (d = '\x5c' → c = '\x5c') ∧ (d = 'ς' → c = 'ς') ∧ (d = 'σ' → c = 'σ' ∨ c = 'Σ') ∧
    (d = '.' → c = '.')

instance (c d : Char) : Decidable (FormOf c d) := inferInstanceAs (Decidable (_ ∧ _))

/-- The codes that a run changes. -/
def CaseRun.codes (r : CaseRun) : List Nat :=
  (List.range ((r.last - r.first) / r.stride + 1)).map fun k => r.first + k * r.stride

theorem CaseRun.mem_codes {r : CaseRun} {code image : Nat} (h : r.image? code = some image) :
    r.first ≤ code ∧ code ≤ r.last ∧ code ∈ r.codes ∧ image = Int.toNat (code + r.shift) := by
  unfold CaseRun.image? at h
  split at h
  · rename_i hin
    obtain ⟨hfirst, hlast, hstride⟩ := hin
    rw [Option.some.injEq] at h
    refine ⟨hfirst, hlast, List.mem_map.mpr ⟨(code - r.first) / r.stride, ?_, ?_⟩, h.symm⟩
    · rw [List.mem_range]
      have hle : (code - r.first) / r.stride ≤ (r.last - r.first) / r.stride := Nat.div_le_div_right (by omega)
      omega
    · rw [Nat.div_mul_cancel (Nat.dvd_of_mod_eq_zero hstride)]
      omega
  · cases h

/-- What a run makes of its characters is none of the characters of another run. -/
def CaseRun.misses (r r' : CaseRun) : Bool :=
  Nat.blt (Int.toNat (r.last + r.shift)) r'.first || Nat.blt r'.last (Int.toNat (r.first + r.shift)) ||
    r.codes.all fun code => (r'.image? (Int.toNat (code + r.shift))).isNone

-- the runs are compared as ranges first: they are too many to be gone through character by character
theorem misses_runs : (lowerRuns.all fun r => lowerRuns.all r.misses) = true := by
  decide +kernel

theorem CaseRun.image?_of_misses {r r' : CaseRun} (h : r.misses r' = true) {code image : Nat}
    (himage : r.image? code = some image) : r'.image? image = none := by
  obtain ⟨hfirst, hlast, hcode, rfl⟩ := mem_codes himage
  unfold misses at h
  rw [Bool.or_eq_true, Bool.or_eq_true, Nat.blt_eq, Nat.blt_eq, List.all_eq_true] at h
  rcases h with (habove | hbelow) | hnone
  · unfold image?
    rw [if_neg]
    omega
  · unfold image?
    rw [if_neg]
    omega
  · exact Option.isNone_iff_eq_none.mp (hnone code hcode)

/-- What is to be known of the single characters of the runs. -/
theorem marks_runs : ∀ r ∈ lowerRuns, ∀ code ∈ r.codes,
    let image := Int.toNat (code + r.shift)
    image.isValidChar ∧ image ∉ [0x130, 0x2E, 0x2F, 0x5C, 0x3C2] ∧ (image = 0x3C3 → code = 0x3A3) ∧
      (image < 128 → (Char.ofNat image).toLower = Char.ofNat image) := by
  decide +kernel

theorem formOf_ascii : ∀ code < 128, FormOf (Char.ofNat code) (Char.ofNat code).toLower := by
  decide +kernel

/-- What a run makes of a character is settled, and marks nothing that the character does not. -/
theorem formOf_run {c : Char} {image : Nat} (h : lowerRuns.findSome? (·.image? c.toNat) = some image) :
    FormOf c (Char.ofNat image) := by
  obtain ⟨r, hr, himage⟩ := List.exists_of_findSome?_eq_some h
  obtain ⟨-, -, hcode, heq⟩ := CaseRun.mem_codes himage
  have hmarks := marks_runs r hr c.toNat hcode
  rw [← heq] at hmarks
  obtain ⟨hvalid, hother, hsigma, hascii⟩ := hmarks
  have htoNat : (Char.ofNat image).toNat = image := by
    rw [Char.ofNat, dif_pos hvalid]
    rfl
  have hne {d : Char} (hd : d.toNat ∈ [0x130, 0x2E, 0x2F, 0x5C, 0x3C2]) : Char.ofNat image ≠ d := by
    intro heq
    rw [← heq, htoNat] at hd
    exact hother hd
  have hnone : lowerRuns.findSome? (·.image? image) = none := by
    rw [List.findSome?_eq_none_iff]
    intro r' hr'
    exact CaseRun.image?_of_misses (List.all_eq_true.mp (List.all_eq_true.mp misses_runs r hr) r' hr') himage
  have hfix : lowerChar (Char.ofNat image) = [Char.ofNat image] := by
    unfold lowerChar
    rw [htoNat]
    split
    · rename_i hlt
      rw [hascii hlt]
    · have hdotted : image ≠ 0x130 := fun h => hother (by rw [h]; exact List.mem_cons_self)
      rw [if_neg hdotted, hnone]
  refine ⟨⟨?_, hfix⟩, fun h => absurd h (hne (by decide)), fun h => absurd h (hne (by decide)),
    fun h => absurd h (hne (by decide)), ?_, fun h => absurd h (hne (by decide))⟩
  · intro heq
    rw [heq] at hfix
    exact absurd hfix (by decide)
  · intro heq
    rw [heq] at htoNat
    refine Or.inr ?_
    rw [← Char.ofNat_toNat c, hsigma htoNat.symm]

/-- What a character becomes in lower case is settled, and marks nothing that the character does not. -/
theorem formOf_lowerChar {c d : Char} (h : d ∈ lowerChar c) : FormOf c d := by
  have hself : Char.ofNat c.toNat = c := Char.ofNat_toNat c
  by_cases hascii : c.toNat < 128
  · have hform := formOf_ascii c.toNat hascii
    rw [lowerChar, if_pos hascii, List.mem_singleton] at h
    rw [h]
    rwa [hself] at hform
  by_cases hdotted : c.toNat = 0x130
  · rw [lowerChar, if_neg hascii, if_pos hdotted] at h
    rw [← hself, hdotted]
    rcases List.mem_cons.mp h with rfl | h
    · decide +kernel
    · rw [List.mem_singleton.mp h]
      decide +kernel
  rw [lowerChar, if_neg hascii, if_neg hdotted] at h
  split at h
  · rename_i image himage
    rw [List.mem_singleton] at h
    rw [h]
    exact formOf_run himage
  · rename_i hnone
    rw [List.mem_singleton] at h
    subst h
    have hfix : lowerChar d = [d] := by
      rw [lowerChar, if_neg hascii, if_neg hdotted, hnone]
    refine ⟨⟨?_, hfix⟩, fun h => h, fun h => h, fun h => h, Or.inl, fun h => h⟩
    rintro rfl
    exact absurd hfix (by decide)

theorem lowerChar_ne_nil (c : Char) : lowerChar c ≠ [] := by
  unfold lowerChar
  split
  · exact List.cons_ne_nil _ _
  · split
    · exact List.cons_ne_nil _ _
    · split <;> exact List.cons_ne_nil _ _

/-! ## Texts -/

/-- The character has no say in the form of a sigma. -/
def Ignorable (c : Char) : Prop :=
  inRanges caseIgnorableRanges c.toNat = true

instance : DecidablePred Ignorable := fun _ => inferInstanceAs (Decidable (_ = _))

/-- A letter has its say, and so do the slashes, which are not cased. -/
theorem not_ignorable_marks : ∀ c ∈ ['/', '\x5c', 'Σ', 'σ', 'ς'], ¬ Ignorable c := by
  have hall : (['/', '\x5c', 'Σ', 'σ', 'ς'].all fun c => decide (¬ Ignorable c)) = true := by decide +kernel
  exact fun c hc => of_decide_eq_true (List.all_eq_true.mp hall c hc)

theorem not_cased_slashes : inRanges casedRanges '/'.toNat = false ∧ inRanges casedRanges '\x5c'.toNat = false := by
  decide +kernel

theorem reachesCased_cons {c : Char} (h : ¬ Ignorable c) (s : List Char) :
    reachesCased (c :: s) = inRanges casedRanges c.toNat :=
  if_neg h

theorem reachesCased_of_ignorable {s : List Char} (h : ∀ c ∈ s, Ignorable c) (t : List Char) :
    reachesCased (s ++ t) = reachesCased t := by
  induction s with
  | nil => rfl
  | cons c s ih =>
    have hc : inRanges caseIgnorableRanges c.toNat = true := h c List.mem_cons_self
    rw [List.cons_append, reachesCased, if_pos hc]
    exact ih fun d hd => h d (List.mem_cons_of_mem _ hd)

/-- Behind the first character that is not ignorable it does not matter what follows. -/
theorem reachesCased_append {s : List Char} (h : ∃ c ∈ s, ¬ Ignorable c) (t : List Char) :
    reachesCased (s ++ t) = reachesCased s := by
  induction s with
  | nil =>
    obtain ⟨c, hc, -⟩ := h
    cases hc
  | cons c s ih =>
    rw [List.cons_append, reachesCased, reachesCased]
    split
    · rename_i hign
      refine ih ?_
      obtain ⟨d, hd, hnot⟩ := h
      rcases List.mem_cons.mp hd with rfl | hd
      · exact absurd hign hnot
      · exact ⟨d, hd, hnot⟩
    · rfl

/-- The lowercase form of a text between two others, the nearest character before it first. -/
def lowerIn (before : List Char) : List Char → List Char → List Char
  | [], _ => []
  | c :: rest, after =>
    let form :=
      if c = 'Σ' then
        if reachesCased before && !reachesCased (rest ++ after) then ['ς'] else ['σ']
      else lowerChar c
    form ++ lowerIn (c :: before) rest after

/-- The lowercase form of a text in two parts: each has its form beside the other. -/
theorem lowerAfter_append (before s t : List Char) :
    lowerAfter before (s ++ t) = lowerIn before s t ++ lowerAfter (s.reverse ++ before) t := by
  induction s generalizing before with
  | nil => rfl
  | cons c s ih =>
    rw [List.cons_append, lowerAfter, ih, lowerIn, List.reverse_cons, List.append_assoc, List.append_assoc]
    rfl

theorem lowerAfter_eq_lowerIn (before s : List Char) : lowerAfter before s = lowerIn before s [] := by
  have h := lowerAfter_append before s []
  rw [List.append_nil, lowerAfter, List.append_nil] at h
  exact h

/-- What follows a text matters only to a sigma in it that stands behind a cased letter, and only as far as it can see. -/
theorem lowerIn_congr {before s t t' : List Char}
    (h : ∀ u v, s = u ++ 'Σ' :: v → reachesCased (u.reverse ++ before) = true →
      reachesCased (v ++ t) = reachesCased (v ++ t')) :
    lowerIn before s t = lowerIn before s t' := by
  induction s generalizing before with
  | nil => rfl
  | cons c s ih =>
    have hrest : lowerIn (c :: before) s t = lowerIn (c :: before) s t' := by
      refine ih fun u v huv hcased => h (c :: u) v (by rw [huv]; rfl) ?_
      rwa [List.reverse_cons, List.append_assoc, List.singleton_append]
    rw [lowerIn, lowerIn, hrest]
    by_cases hc : c = 'Σ'
    · have hsees := h [] s (by rw [hc]; rfl)
      rw [List.reverse_nil, List.nil_append] at hsees
      rw [if_pos hc, if_pos hc]
      cases hcased : reachesCased before with
      | false => rfl
      | true => rw [hsees hcased]
    · rw [if_neg hc, if_neg hc]

/-- What stands before a text matters only as far as a sigma in it can see. -/
theorem lowerAfter_congr {before before' : List Char}
    (h : ∀ u, reachesCased (u ++ before) = reachesCased (u ++ before')) (s : List Char) :
    lowerAfter before s = lowerAfter before' s := by
  induction s generalizing before before' with
  | nil => rfl
  | cons c s ih =>
    have hc : ∀ u, reachesCased (u ++ c :: before) = reachesCased (u ++ c :: before') := by
      intro u
      have hu := h (u ++ [c])
      rwa [List.append_assoc, List.append_assoc, List.singleton_append, List.singleton_append] at hu
    rw [lowerAfter, lowerAfter, ih hc]
    have hnil := h []
    rw [List.nil_append, List.nil_append] at hnil
    rw [hnil]

/-- A text without sigmas has the form of its characters. -/
theorem lowerIn_eq_flatMap {s : List Char} (h : 'Σ' ∉ s) (before after : List Char) :
    lowerIn before s after = s.flatMap lowerChar := by
  induction s generalizing before with
  | nil => rfl
  | cons c s ih =>
    rw [List.mem_cons, not_or] at h
    rw [lowerIn, if_neg (Ne.symm h.1), ih h.2, List.flatMap_cons]

/-- What stands in a lowercase form is the form of a character of the text. -/
theorem exists_formOf {before s : List Char} {d : Char} (h : d ∈ lowerAfter before s) :
    Settled d ∧ (d = '/' → '/' ∈ s) ∧ (d = '\x5c' → '\x5c' ∈ s) := by
  induction s generalizing before with
  | nil => cases h
  | cons c s ih =>
    rw [lowerAfter, List.mem_append] at h
    rcases h with h | h
    · split at h
      · have hd : d = 'ς' ∨ d = 'σ' := by
          split at h
          · exact Or.inl (List.mem_singleton.mp h)
          · exact Or.inr (List.mem_singleton.mp h)
        rcases hd with rfl | rfl <;> exact ⟨by decide, nofun, nofun⟩
      · obtain ⟨hsettled, hslash, hback, -⟩ := formOf_lowerChar h
        exact ⟨hsettled, fun hd => by rw [hslash hd]; exact List.mem_cons_self,
          fun hd => by rw [hback hd]; exact List.mem_cons_self⟩
    · obtain ⟨hsettled, hslash, hback⟩ := ih h
      exact ⟨hsettled, fun hd => List.mem_cons_of_mem _ (hslash hd), fun hd => List.mem_cons_of_mem _ (hback hd)⟩

theorem lowerAfter_of_settled {s : List Char} (h : ∀ c ∈ s, Settled c) (before : List Char) : lowerAfter before s = s := by
  induction s generalizing before with
  | nil => rfl
  | cons c s ih =>
    have hc := h c List.mem_cons_self
    rw [lowerAfter, if_neg hc.1, hc.2, ih fun d hd => h d (List.mem_cons_of_mem _ hd)]
    rfl

/-- What is in lower case stays as it is. -/
theorem lowerAfter_lowerAfter (before before' s : List Char) :
    lowerAfter before (lowerAfter before' s) = lowerAfter before' s :=
  lowerAfter_of_settled (fun _ hd => (exists_formOf hd).1) before

theorem lower_lower (s : String) : lower (lower s) = lower s := by
  unfold lower
  rw [String.toList_ofList, lowerAfter_lowerAfter]

/-- Nothing is seen through a slash. -/
theorem reachesCased_append_slash (s t : List Char) : reachesCased (s ++ '/' :: t) = reachesCased s := by
  induction s with
  | nil =>
    rw [List.nil_append, reachesCased_cons (not_ignorable_marks _ (by decide)), not_cased_slashes.1]
    rfl
  | cons c s ih => rw [List.cons_append, reachesCased, reachesCased, ih]

/-- A slash keeps what stands before it from what stands behind it. -/
theorem lowerAfter_append_slash (before s t : List Char) :
    lowerAfter before (s ++ '/' :: t) = lowerAfter before s ++ '/' :: lowerAfter [] t := by
  have hfirst : lowerIn before s ('/' :: t) = lowerIn before s [] :=
    lowerIn_congr fun _ v _ _ => by rw [reachesCased_append_slash, List.append_nil]
  have hrest : lowerAfter ('/' :: (s.reverse ++ before)) t = lowerAfter [] t :=
    lowerAfter_congr (fun u => by rw [reachesCased_append_slash, List.append_nil]) t
  rw [lowerAfter_append, hfirst, ← lowerAfter_eq_lowerIn, lowerAfter, hrest, if_neg (by decide)]
  rfl

/-- A character with a slash in the place of a backslash. -/
def slashedChar (c : Char) : Char :=
  if c = '\x5c' then '/' else c

theorem slashedChar_of_ne {c : Char} (h : c ≠ '\x5c') : slashedChar c = c :=
  if_neg h

theorem reachesCased_slashed (s : List Char) : reachesCased (s.map slashedChar) = reachesCased s := by
  induction s with
  | nil => rfl
  | cons c s ih =>
    rw [List.map_cons]
    by_cases hc : c = '\x5c'
    · rw [hc, show slashedChar '\x5c' = '/' from rfl, reachesCased_cons (not_ignorable_marks _ (by decide)),
        reachesCased_cons (not_ignorable_marks _ (by decide)), not_cased_slashes.1, not_cased_slashes.2]
    · rw [slashedChar_of_ne hc, reachesCased, reachesCased, ih]

/-- Slashes can take the place of backslashes before a text is put in lower case, or after. -/
theorem lowerAfter_slashed (before s : List Char) :
    lowerAfter (before.map slashedChar) (s.map slashedChar) = (lowerAfter before s).map slashedChar := by
  induction s generalizing before with
  | nil => rfl
  | cons c s ih =>
    have hrest := ih (c :: before)
    rw [List.map_cons] at hrest
    rw [List.map_cons, lowerAfter, lowerAfter, hrest, List.map_append, reachesCased_slashed, reachesCased_slashed]
    by_cases hc : c = '\x5c'
    · rw [hc]
      rfl
    · rw [slashedChar_of_ne hc]
      by_cases hsigma : c = 'Σ'
      · rw [if_pos hsigma]
        split <;> rfl
      · have hform : (lowerChar c).map slashedChar = lowerChar c := by
          refine (List.map_congr_left fun d hd => ?_).trans (List.map_id _)
          exact slashedChar_of_ne fun hback => hc ((formOf_lowerChar hd).2.2.1 hback)
        rw [if_neg hsigma, hform]

/-! ## The ending of a file name -/

/-- The text ends in a capital sigma that is a final one: it stands behind a cased letter, and only characters that are
ignorable for it stand behind. -/
def EndsInSigma (s : List Char) : Prop :=
  ∃ u v, s = u ++ 'Σ' :: v ∧ reachesCased u.reverse = true ∧ ∀ c ∈ v, Ignorable c

/-- A text whose last character is none of those that a sigma does not see does not end in one. -/
theorem not_endsInSigma_append {c : Char} (hsigma : c ≠ 'Σ') (hc : ¬ Ignorable c) (s : List Char) :
    ¬ EndsInSigma (s ++ [c]) := by
  rintro ⟨u, v, huv, -, hignorable⟩
  have hlast := congrArg List.getLast? huv
  rw [List.getLast?_concat, List.getLast?_append, List.getLast?_cons, Option.some_or, Option.some.injEq] at hlast
  cases hv : v.getLast? with
  | none =>
    rw [hv] at hlast
    exact hsigma hlast
  | some d =>
    rw [hv] at hlast
    exact hc (hlast ▸ hignorable d (List.mem_of_getLast? hv))

variable {s s' ending : List Char}

/-- A text that does not end in a final sigma has its form also before an ending of cased letters. -/
theorem lowerAfter_append_ending (hs : ¬ EndsInSigma s) (hsettled : ∀ c ∈ ending, Settled c) :
    lowerAfter [] (s ++ ending) = lowerAfter [] s ++ ending := by
  have hfirst : lowerIn [] s ending = lowerIn [] s [] := by
    refine lowerIn_congr fun u v huv hcased => ?_
    rw [List.append_nil] at hcased
    have hstops : ∃ c ∈ v, ¬ Ignorable c := by
      refine Classical.byContradiction fun hnone => hs ⟨u, v, huv, hcased, fun c hc => ?_⟩
      exact Classical.byContradiction fun hnot => hnone ⟨c, hc, hnot⟩
    rw [reachesCased_append hstops, reachesCased_append hstops]
  rw [lowerAfter_append, hfirst, ← lowerAfter_eq_lowerIn, lowerAfter_of_settled hsettled]

/-- A text that ends in a final sigma has another form before an ending of cased letters: the last sigma is no longer a
final one. -/
theorem exists_of_endsInSigma (hs : EndsInSigma s) (hcased : reachesCased ending = true)
    (hsettled : ∀ c ∈ ending, Settled c) :
    ∃ head tail, lowerAfter [] s = head ++ 'ς' :: tail ∧ lowerAfter [] (s ++ ending) = head ++ 'σ' :: tail ++ ending ∧
      'σ' ∉ tail ∧ 'ς' ∉ tail := by
  obtain ⟨u, v, rfl, hbefore, hignorable⟩ := hs
  have hsigma : 'Σ' ∉ v := fun h => not_ignorable_marks _ (by decide) (hignorable _ h)
  have hmarks {d : Char} (hd : d = 'σ' ∨ d = 'ς') : d ∉ v.flatMap lowerChar := by
    intro hmem
    obtain ⟨c, hc, hform⟩ := List.mem_flatMap.mp hmem
    obtain ⟨-, -, -, hfinal, hmedial, -⟩ := formOf_lowerChar hform
    have hwas : c = 'ς' ∨ c = 'σ' ∨ c = 'Σ' := by
      rcases hd with hd | hd
      · exact Or.inr (hmedial hd)
      · exact Or.inl (hfinal hd)
    refine not_ignorable_marks c ?_ (hignorable c hc)
    rcases hwas with rfl | rfl | rfl <;> decide
  -- what stands before the last sigma cannot see past it
  have hhead : lowerIn [] u ('Σ' :: (v ++ ending)) = lowerIn [] u ('Σ' :: v) := by
    refine lowerIn_congr fun _ w _ _ => ?_
    have hstops : ∃ c ∈ w ++ ['Σ'], ¬ Ignorable c :=
      ⟨'Σ', List.mem_append_right w (List.mem_singleton.mpr rfl), not_ignorable_marks _ (by decide)⟩
    rw [List.append_cons w 'Σ', List.append_cons w 'Σ' v, reachesCased_append hstops, reachesCased_append hstops]
  refine ⟨lowerIn [] u ('Σ' :: v), v.flatMap lowerChar, ?_, ?_, hmarks (Or.inl rfl), hmarks (Or.inr rfl)⟩
  · have hlast : reachesCased v = false := by
      have hv := reachesCased_of_ignorable hignorable []
      rwa [List.append_nil] at hv
    rw [lowerAfter_append, List.append_nil, lowerAfter, if_pos rfl, hbefore, hlast, lowerAfter_eq_lowerIn,
      lowerIn_eq_flatMap hsigma]
    rfl
  · have hlast : reachesCased (v ++ ending) = true := by rw [reachesCased_of_ignorable hignorable, hcased]
    rw [List.append_assoc, List.cons_append, lowerAfter_append, hhead, List.append_nil, lowerAfter, if_pos rfl, hbefore,
      hlast, lowerAfter_append, lowerIn_eq_flatMap hsigma, lowerAfter_of_settled hsettled, List.append_assoc]
    rfl

/-- The last small sigma of a text is the one behind which there is none. -/
theorem find?_sigma {d : Char} {head tail : List Char} (hd : d = 'σ' ∨ d = 'ς') (hmedial : 'σ' ∉ tail)
    (hfinal : 'ς' ∉ tail) : ((head ++ d :: tail).reverse.find? fun c => c = 'σ' ∨ c = 'ς') = some d := by
  have hnone : (tail.reverse.find? fun c => c = 'σ' ∨ c = 'ς') = none := by
    rw [List.find?_eq_none]
    intro c hc hmark
    rcases of_decide_eq_true hmark with rfl | rfl
    · exact hmedial (List.mem_reverse.mp hc)
    · exact hfinal (List.mem_reverse.mp hc)
  rw [List.reverse_append, List.reverse_cons, List.append_assoc, List.find?_append, hnone, List.singleton_append,
    Option.none_or]
  exact List.find?_cons_of_pos (p := fun c => decide (c = 'σ' ∨ c = 'ς')) (decide_eq_true hd)

/-- Two texts with one form before an ending: the first has its own form there, or the second has, and the same. -/
theorem not_endsInSigma_of_form (hcased : reachesCased ending = true) (hsettled : ∀ c ∈ ending, Settled c)
    (h : lowerAfter [] (s' ++ ending) = lowerAfter [] s ++ ending) :
    ¬ EndsInSigma s ∨ (¬ EndsInSigma s' ∧ lowerAfter [] s' = lowerAfter [] s) := by
  by_cases hs' : EndsInSigma s'
  · refine Or.inl fun hs => ?_
    obtain ⟨head, tail, hform, -, hmedial, hfinal⟩ := exists_of_endsInSigma hs hcased hsettled
    obtain ⟨head', tail', -, hbefore, hmedial', hfinal'⟩ := exists_of_endsInSigma hs' hcased hsettled
    rw [h, hform, List.append_left_inj] at hbefore
    -- the last sigma of one text would be another letter than that of the other
    have hlast := congrArg (fun t => t.reverse.find? fun c => c = 'σ' ∨ c = 'ς') hbefore
    rw [find?_sigma (Or.inr rfl) hmedial hfinal, find?_sigma (Or.inl rfl) hmedial' hfinal'] at hlast
    exact absurd hlast (by decide)
  · rw [lowerAfter_append_ending hs' hsettled, List.append_left_inj] at h
    exact Or.inr ⟨hs', h⟩

end Folio.Text
