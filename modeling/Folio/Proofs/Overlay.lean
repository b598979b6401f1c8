import Folio.Keyed

/-!
# Collections put over each other

What an insertion does not depend on: the order of insertions under different keys (`insert_comm`), and a value that is replaced
later (`insert_insert`, `extend_extend`). In an extended collection the last value that was put under a key counts
(`get?_extend`), and of layers put over each other the highest that has the key (`Layered`). A collection in the order of its
keys is known by its lookups (`Ordered.ext`). So entries make one collection in every order in which those with one key keep theirs
(`ofEntries_congr`), and under other names the value of the greatest key counts (`get?_renamed_iff`).
-/

namespace Folio.Keyed

variable {α : Type}

/-! ## Insertions -/

theorem insert_comm_of_lt {k k' : String} (hlt : k < k') (m : Keyed α) (v v' : α) :
    insert (insert m k v) k' v' = insert (insert m k' v') k v := by
  have hne : k ≠ k' := fun heq => String.lt_irrefl k' (heq ▸ hlt)
  have hnot : ¬ k' < k := fun hgt => String.lt_irrefl k (String.lt_trans hlt hgt)
  induction m with
  | nil => simp [insert, hne, Ne.symm hne, hlt, hnot]
  | cons e rest ih =>
    obtain ⟨a, w⟩ := e
    by_cases heq : k = a
    · subst heq
      simp [insert, Ne.symm hne, hnot]
    · by_cases hbefore : k < a
      · by_cases heq' : k' = a
        · subst heq'
          simp [insert, hne, Ne.symm hne, hlt, hnot]
        · by_cases hbefore' : k' < a
          · simp [insert, heq, heq', hbefore, hbefore', hne, Ne.symm hne, hlt, hnot]
          · simp [insert, heq, heq', hbefore, hbefore', Ne.symm hne, hnot]
      · have hafter : a < k := Std.lt_of_le_of_ne (String.not_lt.mp hbefore) (Ne.symm heq)
        have hafter' : ¬ k' < a := fun h => hbefore (String.lt_trans hlt h)
        have heq' : k' ≠ a := fun h => hnot (h ▸ hafter)
        simp [insert, heq, heq', hbefore, hafter', ih]

/-- Insertions under different keys can be made in either order. -/
theorem insert_comm {k k' : String} (hne : k ≠ k') (m : Keyed α) (v v' : α) :
    insert (insert m k v) k' v' = insert (insert m k' v') k v := by
  by_cases hlt : k < k'
  · exact insert_comm_of_lt hlt m v v'
  · exact (insert_comm_of_lt (Std.lt_of_le_of_ne (String.not_lt.mp hlt) (Ne.symm hne)) m v' v).symm

/-- A key behind all others is put at the end. -/
theorem insert_eq_append {m : Keyed α} {k : String} (h : ∀ e ∈ m, e.1 < k) (v : α) : insert m k v = m ++ [(k, v)] := by
  induction m with
  | nil => rfl
  | cons e rest ih =>
    obtain ⟨k', v'⟩ := e
    have hlt : k' < k := h _ List.mem_cons_self
    rw [insert, if_neg, if_neg, ih fun e he => h e (List.mem_cons_of_mem _ he)]
    · rfl
    · exact fun hgt => String.lt_irrefl k (String.lt_trans hgt hlt)
    · intro heq
      rw [heq] at hlt
      exact String.lt_irrefl _ hlt

/-- Entries in order that come behind all others are put at the end. -/
theorem extend_eq_append {m other : Keyed α} (h : Ordered (m ++ other)) : extend m other = m ++ other := by
  induction other generalizing m with
  | nil => exact (List.append_nil m).symm
  | cons e rest ih =>
    have hlt : ∀ e' ∈ m, e'.1 < e.1 := fun e' he' => (List.pairwise_append.mp h).2.2 e' he' e List.mem_cons_self
    have hrest : Ordered ((m ++ [e]) ++ rest) := by simpa using h
    rw [extend, List.foldl_cons, insert_eq_append hlt]
    have hext := ih hrest
    rw [extend] at hext
    rw [hext]
    simp

/-- A value that is replaced at once might as well not have been there. -/
theorem insert_insert (m : Keyed α) (k : String) (v v' : α) : insert (insert m k v) k v' = insert m k v' := by
  induction m with
  | nil => simp [insert]
  | cons e rest ih =>
    obtain ⟨a, w⟩ := e
    by_cases heq : k = a
    · simp [insert, heq]
    · by_cases hbefore : k < a
      · simp [insert, heq, hbefore]
      · simp [insert, heq, hbefore, ih]

/-- A value that is replaced later might as well not have been there. -/
theorem extend_insert {k : String} {other : Keyed α} (h : k ∈ other.map Prod.fst) (m : Keyed α) (v : α) :
    extend (insert m k v) other = extend m other := by
  induction other generalizing m with
  | nil => cases h
  | cons e rest ih =>
    obtain ⟨k', v'⟩ := e
    change extend (insert (insert m k v) k' v') rest = extend (insert m k' v') rest
    by_cases hk : k = k'
    · rw [← hk, insert_insert]
    · rw [insert_comm hk]
      exact ih ((List.mem_cons.mp h).resolve_left hk) _

/-- Of two extensions the first might as well not have been made if the second has its keys. -/
theorem extend_extend {other other' : Keyed α} (h : ∀ k ∈ other.map Prod.fst, k ∈ other'.map Prod.fst) (m : Keyed α) :
    extend (extend m other) other' = extend m other' := by
  induction other generalizing m with
  | nil => rfl
  | cons e rest ih =>
    obtain ⟨hfirst, hrest⟩ := List.forall_mem_cons.mp h
    exact (ih hrest _).trans (extend_insert hfirst m e.2)

theorem extend_append (m front back : Keyed α) : extend m (front ++ back) = extend (extend m front) back :=
  List.foldl_append

theorem get?_append (front back : Keyed α) (key : String) :
    get? (front ++ back) key = (get? front key).or (get? back key) := by
  induction front with
  | nil => rfl
  | cons e rest ih =>
    rw [List.cons_append, get?_cons, get?_cons, ih]
    split <;> rfl

/-- In an extended collection the last value that was put under a key counts. -/
theorem get?_extend (m other : Keyed α) (key : String) :
    get? (extend m other) key = (get? other.reverse key).or (get? m key) := by
  induction other generalizing m with
  | nil => rfl
  | cons e rest ih =>
    change get? (extend (insert m e.1 e.2) rest) key = _
    rw [ih, get?_insert, List.reverse_cons, get?_append, Option.or_assoc]
    congr 1
    rw [get?_cons]
    split <;> rfl

/-! ## Keys -/

variable {key : String}

theorem hasKey_iff (m : Keyed α) : m.hasKey key = true ↔ key ∈ m.map Prod.fst := by
  unfold hasKey
  induction m with
  | nil => exact ⟨nofun, nofun⟩
  | cons entry rest ih =>
    obtain ⟨k, v⟩ := entry
    rw [get?_cons, List.map_cons, List.mem_cons, ← ih]
    by_cases hk : key = k
    · rw [if_pos hk]
      exact ⟨fun _ => Or.inl hk, fun _ => rfl⟩
    · rw [if_neg hk]
      exact ⟨Or.inr, fun h => h.resolve_left hk⟩

theorem hasKey_insert (m : Keyed α) (k : String) (value : α) :
    (Keyed.insert m k value).hasKey key = true ↔ key = k ∨ m.hasKey key = true := by
  unfold hasKey
  rw [get?_insert]
  by_cases hk : key = k
  · rw [if_pos hk]
    exact ⟨fun _ => Or.inl hk, fun _ => rfl⟩
  · rw [if_neg hk]
    exact ⟨Or.inr, fun h => h.resolve_left hk⟩

/-- An extended collection has the keys of both sides. -/
theorem hasKey_extend (m other : Keyed α) :
    (m.extend other).hasKey key = true ↔ m.hasKey key = true ∨ key ∈ other.map Prod.fst := by
  unfold extend
  induction other generalizing m with
  | nil => exact ⟨Or.inl, fun h => h.resolve_right nofun⟩
  | cons entry rest ih =>
    rw [List.foldl_cons, ih, hasKey_insert, List.map_cons, List.mem_cons, or_assoc, or_left_comm]

theorem mem_keys_ofEntries (entries : List (String × α)) :
    key ∈ (ofEntries entries).map Prod.fst ↔ key ∈ entries.map Prod.fst := by
  rw [← hasKey_iff, ofEntries, hasKey_extend]
  exact ⟨fun h => h.resolve_left nofun, Or.inr⟩

variable {layers : List (Keyed α)} {base m : Keyed α}

/-- Erasing a key that is not there leaves everything. -/
theorem erase_eq_self (h : get? m key = none) : erase m key = m := by
  induction m with
  | nil => rfl
  | cons entry rest ih =>
    obtain ⟨k, value⟩ := entry
    rw [get?_cons] at h
    split at h
    · cases h
    · rename_i hne
      rw [erase, if_neg hne, ih h]

/-! ## Layers -/

/-- The value of a key in the first of some layers that has the key. Within a layer the last entry of a key counts. -/
def highest? (layers : List (Keyed α)) (key : String) : Option α :=
  layers.findSome? fun layer => get? layer.reverse key

/-- Some layers over a base, the highest first: a key has the value of the highest layer that has it, or else that of the base, and
there are no other keys. -/
structure Layered (layers : List (Keyed α)) (base m : Keyed α) : Prop where
  value : ∀ key, get? m key = (highest? layers key).or (get? base key)
  keys : ∀ key, hasKey m key = true ↔ (∃ layer ∈ layers, hasKey layer key = true) ∨ hasKey base key = true

theorem hasKey_reverse (m : Keyed α) (key : String) : hasKey m.reverse key = true ↔ hasKey m key = true := by
  rw [hasKey_iff, hasKey_iff, List.map_reverse, List.mem_reverse]

theorem isSome_highest? : (highest? layers key).isSome = true ↔ ∃ layer ∈ layers, hasKey layer key = true := by
  unfold highest?
  rw [List.findSome?_isSome_iff]
  exact exists_congr fun layer => and_congr_right fun _ => hasKey_reverse layer key

/-- The values of the keys tell which keys there are. -/
theorem layered_of_value (h : ∀ key, get? m key = (highest? layers key).or (get? base key)) : Layered layers base m := by
  refine ⟨h, fun key => ?_⟩
  rw [← isSome_highest?]
  unfold hasKey
  rw [h, Option.isSome_or, Bool.or_eq_true]

theorem layered_nil (base : Keyed α) : Layered [] base base :=
  layered_of_value fun _ => rfl

/-- Layers over a collection come to nothing else than the collection exactly if they say nothing new. -/
theorem layered_self_iff :
    Layered layers base base ↔ ∀ key value, highest? layers key = some value → get? base key = some value := by
  constructor
  · intro h key value hvalue
    rw [h.value, hvalue, Option.some_or]
  · intro h
    refine layered_of_value fun key => ?_
    cases hvalue : highest? layers key with
    | none => rfl
    | some value => exact h key value hvalue

/-- What is put over a collection becomes its highest layer. -/
theorem Layered.extend (h : Layered layers base m) (layer : Keyed α) : Layered (layer :: layers) base (Keyed.extend m layer) := by
  refine layered_of_value fun key => ?_
  rw [get?_extend, h.value, ← Option.or_assoc]
  congr 1
  unfold highest?
  rw [List.findSome?_cons]
  cases get? layer.reverse key <;> rfl

/-- Of collections put over each other one by one, the last is the highest. -/
theorem Layered.foldl (h : Layered layers base m) (others : List (Keyed α)) :
    Layered (others.reverse ++ layers) base (others.foldl Keyed.extend m) := by
  induction others generalizing layers m with
  | nil => exact h
  | cons other rest ih =>
    rw [List.reverse_cons, List.append_assoc]
    exact ih (h.extend other)

/-! ## Order -/

/-- A key that comes before all keys of a collection is not among them. -/
theorem get?_eq_none_of_lt {m : Keyed α} {key : String} (h : ∀ e ∈ m, key < e.1) : get? m key = none := by
  induction m with
  | nil => rfl
  | cons e rest ih =>
    obtain ⟨hfirst, hrest⟩ := List.forall_mem_cons.mp h
    have hne : key ≠ e.1 := fun heq => String.lt_irrefl _ (heq ▸ hfirst)
    rw [get?_cons, if_neg hne, ih hrest]

/-- A first key that a collection has is no smaller than the first key of that. -/
theorem Ordered.not_lt_of_get? {k k' : String} {v v' : α} {rest : Keyed α} (h : Ordered ((k', v') :: rest))
    (hget : get? ((k', v') :: rest) k = some v) : ¬ k < k' := by
  intro hlt
  have hall : ∀ e ∈ (k', v') :: rest, k < e.1 :=
    List.forall_mem_cons.mpr ⟨hlt, fun e he => String.lt_trans hlt ((List.pairwise_cons.mp h).1 e he)⟩
  rw [get?_eq_none_of_lt hall] at hget
  cases hget

/-- Collections in the order of their keys are the same if their lookups are. -/
theorem Ordered.ext {m m' : Keyed α} (h : Ordered m) (h' : Ordered m') (hget : ∀ key, get? m key = get? m' key) :
    m = m' := by
  induction m generalizing m' with
  | nil =>
    cases m' with
    | nil => rfl
    | cons e rest =>
      have hnone := hget e.1
      rw [get?_cons, if_pos rfl] at hnone
      cases hnone
  | cons e rest ih =>
    obtain ⟨k, v⟩ := e
    cases m' with
    | nil =>
      have hnone := hget k
      rw [get?_cons, if_pos rfl] at hnone
      cases hnone
    | cons e' rest' =>
      obtain ⟨k', v'⟩ := e'
      have hhead : get? ((k', v') :: rest') k = some v := by rw [← hget, get?_cons, if_pos rfl]
      have hhead' : get? ((k, v) :: rest) k' = some v' := by rw [hget, get?_cons, if_pos rfl]
      have hle : k ≤ k' := String.not_lt.mp (h.not_lt_of_get? hhead')
      have hge : k' ≤ k := String.not_lt.mp (h'.not_lt_of_get? hhead)
      obtain rfl : k = k' := Std.le_antisymm hle hge
      rw [get?_cons, if_pos rfl, Option.some.injEq] at hhead
      obtain ⟨hfirst, hrest⟩ := List.pairwise_cons.mp h
      obtain ⟨hfirst', hrest'⟩ := List.pairwise_cons.mp h'
      have htail : rest = rest' := by
        refine ih hrest hrest' fun key => ?_
        by_cases hkey : key = k
        · rw [hkey, get?_eq_none_of_lt hfirst, get?_eq_none_of_lt hfirst']
        · have hsame := hget key
          rwa [get?_cons, get?_cons, if_neg hkey, if_neg hkey] at hsame
      rw [hhead, htail]

/-! ## Entries in any order -/

theorem Ordered.extend {m : Keyed α} (h : Ordered m) (other : Keyed α) : Ordered (Keyed.extend m other) := by
  induction other generalizing m with
  | nil => exact h
  | cons e rest ih => exact ih (h.insert e.1 e.2)

theorem ordered_ofEntries (entries : List (String × α)) : Ordered (ofEntries entries) :=
  Ordered.extend List.Pairwise.nil entries

/-- Of some entries with one key the last counts. -/
theorem get?_ofEntries (entries : List (String × α)) (key : String) :
    get? (ofEntries entries) key = get? entries.reverse key := by
  rw [ofEntries, get?_extend, get?_nil, Option.or_none]

theorem get?_eq_none_iff {m : Keyed α} {key : String} : get? m key = none ↔ ∀ e ∈ m, e.1 ≠ key := by
  have hkey : m.hasKey key = true ↔ key ∈ m.map Prod.fst := hasKey_iff m
  rw [hasKey, Option.isSome_iff_ne_none, ne_eq] at hkey
  rw [← Classical.not_not (a := get? m key = none), hkey, List.mem_map]
  constructor
  · intro h e he heq
    exact h ⟨e, he, heq⟩
  · rintro h ⟨e, he, heq⟩
    exact h e he heq

/-- Of some entries with one key the first counts in a lookup. -/
theorem get?_eq_some_iff {m : Keyed α} {key : String} {v : α} :
    get? m key = some v ↔ ∃ front back, m = front ++ (key, v) :: back ∧ ∀ e ∈ front, e.1 ≠ key := by
  constructor
  · intro h
    induction m with
    | nil => cases h
    | cons e rest ih =>
      obtain ⟨k, v'⟩ := e
      rw [get?_cons] at h
      split at h
      · rename_i hk
        rw [← hk, Option.some.inj h]
        exact ⟨[], rest, rfl, nofun⟩
      · rename_i hk
        obtain ⟨front, back, rfl, hfront⟩ := ih h
        exact ⟨(k, v') :: front, back, rfl, List.forall_mem_cons.mpr ⟨Ne.symm hk, hfront⟩⟩
  · rintro ⟨front, back, rfl, hfront⟩
    rw [get?_append, get?_eq_none_iff.mpr hfront, Option.none_or, get?_cons, if_pos rfl]

theorem get?_reverse_iff {entries : List (String × α)} {key : String} {v : α} :
    get? entries.reverse key = some v ↔ ∃ front back, entries = front ++ (key, v) :: back ∧ ∀ e ∈ back, e.1 ≠ key := by
  rw [get?_eq_some_iff]
  constructor
  · rintro ⟨front, back, heq, hfront⟩
    refine ⟨back.reverse, front.reverse, ?_, fun e he => hfront e (List.mem_reverse.mp he)⟩
    rw [← entries.reverse_reverse, heq, List.reverse_append, List.reverse_cons, List.append_assoc]
    rfl
  · rintro ⟨front, back, rfl, hback⟩
    refine ⟨back.reverse, front.reverse, ?_, fun e he => hback e (List.mem_reverse.mp he)⟩
    rw [List.reverse_append, List.reverse_cons, List.append_assoc]
    rfl

/-- Entries make one collection in every order in which those with one key keep theirs. -/
theorem ofEntries_congr {entries entries' : List (String × α)}
    (h : ∀ key, entries'.filter (·.1 = key) = entries.filter (·.1 = key)) : ofEntries entries' = ofEntries entries := by
  have hfilter (m : List (String × α)) (key : String) : get? (m.filter (·.1 = key)) key = get? m key := by
    induction m with
    | nil => rfl
    | cons e rest ih =>
      obtain ⟨k, v⟩ := e
      by_cases hk : key = k
      · rw [List.filter_cons_of_pos (by simp [hk]), get?_cons, get?_cons, if_pos hk, if_pos hk]
      · rw [List.filter_cons_of_neg (by simp [Ne.symm hk]), get?_cons, if_neg hk, ih]
  refine (ordered_ofEntries entries').ext (ordered_ofEntries entries) fun key => ?_
  rw [get?_ofEntries, get?_ofEntries, ← hfilter, ← hfilter entries.reverse, List.filter_reverse, List.filter_reverse, h]

/-- A key of a collection stands between the smaller keys and the greater. -/
theorem Ordered.exists_of_get? {m : Keyed α} (h : Ordered m) {k : String} {v : α} (hk : get? m k = some v) :
    ∃ front back, m = front ++ (k, v) :: back ∧ (∀ e ∈ front, e.1 < k) ∧ ∀ e ∈ back, k < e.1 := by
  obtain ⟨front, back, rfl, -⟩ := get?_eq_some_iff.mp hk
  obtain ⟨-, hback, hfront⟩ := List.pairwise_append.mp h
  exact ⟨front, back, rfl, fun e he => hfront e he _ List.mem_cons_self, (List.pairwise_cons.mp hback).1⟩

/-- Under other names, of the values whose keys have one name that of the greatest key counts. -/
theorem get?_renamed_iff {m : Keyed α} (h : Ordered m) (f : String → String) {name : String} {v : α} :
    get? (m.map fun (k, v) => (f k, v)).reverse name = some v ↔
      ∃ k, get? m k = some v ∧ f k = name ∧ ∀ k' ∈ m.map Prod.fst, f k' = name → k' ≤ k := by
  rw [get?_reverse_iff]
  constructor
  · rintro ⟨front', back', heq, hback'⟩
    obtain ⟨front, rest, rfl, rfl, hrest⟩ := List.map_eq_append_iff.mp heq
    obtain ⟨⟨k, v'⟩, back, rfl, hk, rfl⟩ := List.map_eq_cons_iff.mp hrest
    obtain ⟨rfl, rfl⟩ := Prod.mk.inj hk
    have hfront (e : String × α) (he : e ∈ front) : e.1 < k := (List.pairwise_append.mp h).2.2 e he _ List.mem_cons_self
    have hfirst : ∀ e ∈ front, e.1 ≠ k := fun e he heq => String.lt_irrefl k (heq ▸ hfront e he)
    refine ⟨k, get?_eq_some_iff.mpr ⟨front, back, rfl, hfirst⟩, rfl, fun k' hk' hname => ?_⟩
    obtain ⟨e, he, rfl⟩ := List.mem_map.mp hk'
    rcases List.mem_append.mp he with he | he
    · exact Std.le_of_lt (hfront e he)
    · rcases List.mem_cons.mp he with rfl | he
      · exact Std.le_refl _
      · exact absurd hname (hback' _ (List.mem_map_of_mem he))
  · rintro ⟨k, hk, rfl, hgreatest⟩
    obtain ⟨front, back, rfl, -, hback⟩ := h.exists_of_get? hk
    refine ⟨_, _, List.map_append.trans (congrArg _ List.map_cons), fun e' he' hname => ?_⟩
    obtain ⟨e, he, rfl⟩ := List.mem_map.mp he'
    have hmem := List.mem_map_of_mem (f := Prod.fst) (List.mem_append_right front (List.mem_cons_of_mem (k, v) he))
    exact String.not_lt.mpr (hgreatest _ hmem hname) (hback e he)

end Folio.Keyed
