/-!
# Values under text keys

A keyed collection is the list of its entries in the order of the keys, which is the order of their code points.
`insert` keeps the order and replaces the value of a key that is there already; `get?_insert` and `get?_erase` say
what a lookup sees afterwards, and `Ordered.insert` that the order is kept.
-/

namespace Folio

/-- Values under text keys, listed in the order of the keys. -/
abbrev Keyed (α : Type) := List (String × α)

namespace Keyed

variable {α : Type}

/-- The value under a key. -/
def get? : Keyed α → String → Option α
  | [], _ => none
  | (k, v) :: rest, key => if key = k then some v else get? rest key

/-- The collection holds the key. -/
def hasKey (m : Keyed α) (key : String) : Bool :=
  (m.get? key).isSome

/-- The collection with a value put under a key, in its place in the order. -/
def insert : Keyed α → String → α → Keyed α
  | [], key, value => [(key, value)]
  | (k, v) :: rest, key, value =>
    if key = k then (key, value) :: rest
    else if key < k then (key, value) :: (k, v) :: rest
    else (k, v) :: insert rest key value

/-- The collection without a key. -/
def erase : Keyed α → String → Keyed α
  | [], _ => []
  | (k, v) :: rest, key => if key = k then erase rest key else (k, v) :: erase rest key

/-- The collection with the entries of another put over its own. -/
def extend (m other : Keyed α) : Keyed α :=
  other.foldl (fun m entry => insert m entry.1 entry.2) m

/-- The collection of some entries; of two entries with one key the later counts. -/
def ofEntries (entries : List (String × α)) : Keyed α :=
  extend [] entries

/-- The keys rise strictly. -/
def Ordered (m : Keyed α) : Prop :=
  m.Pairwise fun a b => a.1 < b.1

@[simp] theorem get?_nil (key : String) : get? ([] : Keyed α) key = none := rfl

theorem get?_cons (k : String) (v : α) (rest : Keyed α) (key : String) :
    get? ((k, v) :: rest) key = if key = k then some v else get? rest key := rfl

/-- After an insertion the key has the new value and every other key what it had. -/
theorem get?_insert (m : Keyed α) (k key : String) (value : α) :
    get? (insert m k value) key = if key = k then some value else get? m key := by
  induction m with
  | nil => simp [insert, get?]
  | cons entry rest ih =>
    obtain ⟨k', v'⟩ := entry
    simp only [insert]
    by_cases hk : k = k'
    · subst hk
      by_cases h : key = k <;> simp [get?, h]
    · simp only [hk, if_false]
      by_cases hlt : k < k'
      · simp only [hlt, if_true, get?]
      · simp only [hlt, if_false, get?]
        rw [ih]
        by_cases h : key = k'
        · simp [h, Ne.symm hk]
        · simp [h]

/-- After an erasure the key has no value and every other key what it had. -/
theorem get?_erase (m : Keyed α) (k key : String) :
    get? (erase m k) key = if key = k then none else get? m key := by
  induction m with
  | nil => simp [erase]
  | cons entry rest ih =>
    obtain ⟨k', v'⟩ := entry
    simp only [erase]
    by_cases hk : k = k'
    · subst hk
      rw [if_pos rfl, ih]
      by_cases h : key = k <;> simp [get?, h]
    · rw [if_neg hk, get?_cons, get?_cons, ih]
      by_cases h : key = k'
      · simp [h, Ne.symm hk]
      · simp [h]

/-- An entry of an extended collection is one of either side. -/
theorem mem_insert {m : Keyed α} {k : String} {value : α} {entry : String × α} (h : entry ∈ insert m k value) :
    entry = (k, value) ∨ entry ∈ m := by
  induction m with
  | nil => simpa [insert] using h
  | cons first rest ih =>
    obtain ⟨k', v'⟩ := first
    simp only [insert] at h
    split at h
    · rcases List.mem_cons.mp h with h | h
      · exact Or.inl h
      · exact Or.inr (List.mem_cons_of_mem _ h)
    · split at h
      · rcases List.mem_cons.mp h with h | h
        · exact Or.inl h
        · exact Or.inr h
      · rcases List.mem_cons.mp h with h | h
        · exact Or.inr (h ▸ List.mem_cons_self)
        · rcases ih h with h | h
          · exact Or.inl h
          · exact Or.inr (List.mem_cons_of_mem _ h)

/-- An insertion keeps the keys in order. -/
theorem Ordered.insert {m : Keyed α} (h : Ordered m) (k : String) (value : α) : Ordered (Keyed.insert m k value) := by
  induction m with
  | nil => simp [Keyed.insert, Ordered]
  | cons first rest ih =>
    obtain ⟨k', v'⟩ := first
    have hrest := List.pairwise_cons.mp h
    simp only [Keyed.insert]
    split
    · rename_i heq
      subst heq
      exact List.pairwise_cons.mpr ⟨fun e he => hrest.1 e he, hrest.2⟩
    · split
      · rename_i hlt
        refine List.pairwise_cons.mpr ⟨fun e he => ?_, h⟩
        rcases List.mem_cons.mp he with rfl | he
        · exact hlt
        · exact String.lt_trans hlt (hrest.1 e he)
      · rename_i hne hlt
        refine List.pairwise_cons.mpr ⟨fun e he => ?_, ih hrest.2⟩
        rcases mem_insert he with rfl | he
        · exact Std.lt_of_le_of_ne (String.not_lt.mp hlt) (Ne.symm hne)
        · exact hrest.1 e he

end Keyed

end Folio
