import Folio.Decode.Record
import Folio.Proofs.Values

/-!
# Records that are read

What is read of a record: every entry that names a field is put into the draft by that field, every item of a list by the field
of its place, and in a closed record every entry names one (`exists_field_of_readEntries`, `takes_of_readPositions`). So what
each field keeps is kept by the whole reading (`forall_read`).

A `Layout` of a record type says how its values are taken apart, field by field, and that each field reads back what it was
written as. The fields of a value may then stand under their names in any order, or as a list in their own order, and those that
have their defaults may be left out: all these forms (`Layout.Form`) are read as the value (`Layout.read_form`).
-/

namespace Folio.Decode

variable {δ α β : Type}

/-! ## Fields -/

namespace RecordField

/-- Some draft can be given the field from the source. -/
def Takes (f : RecordField δ) (s : Source) : Prop :=
  ∃ before after, f.read s before = .ok after

/-- What holds of a draft holds of it after the field was put into it. -/
def Keeps (f : RecordField δ) (P : δ → Prop) : Prop :=
  ∀ s before after, f.read s before = .ok after → P before → P after

section

variable {name : String} {get : δ → Option β} {put : β → δ → δ} {read : Source → Except DecodeError β} {required : Bool}

theorem of_read_iff {s : Source} {before after : δ} :
    (of name get put read required).read s before = .ok after ↔ ∃ b, read s = .ok b ∧ put b before = after := by
  simp only [of]
  cases read s <;> simp [Except.map]

theorem read_of_takes {s : Source} (h : (of name get put read required).Takes s) : ∃ b, read s = .ok b := by
  obtain ⟨before, after, hread⟩ := h
  obtain ⟨b, hb, -⟩ := of_read_iff.mp hread
  exact ⟨b, hb⟩

theorem Keeps.of_read {P : δ → Prop} (h : ∀ s b, read s = .ok b → ∀ d, P d → P (put b d)) :
    (of name get put read required).Keeps P := by
  intro s before after hread hbefore
  obtain ⟨b, hb, rfl⟩ := of_read_iff.mp hread
  exact h s b hb before hbefore

/-- A field that has nothing to do with what holds keeps it. -/
theorem Keeps.of_put {P : δ → Prop} (h : ∀ b d, P d → P (put b d)) : (of name get put read required).Keeps P :=
  .of_read fun _ b _ d => h b d

end

end RecordField

namespace Record

variable (r : Record δ α)

/-- The names of the fields, in declared order. -/
def names : List String := r.fields.map (·.name)

theorem find?_eq_none_iff (name : String) : r.fields.find? (·.name = name) = none ↔ name ∉ r.names := by
  simp [names, List.find?_eq_none]

/-- Where the names are distinct, a field is found under its own. -/
theorem find?_of_mem (hdistinct : r.names.Nodup) {f : RecordField δ} (hf : f ∈ r.fields) :
    r.fields.find? (·.name = f.name) = some f := by
  unfold names at hdistinct
  generalize r.fields = fields at hdistinct hf
  induction fields with
  | nil => cases hf
  | cons first rest ih =>
    obtain ⟨hnot, hdistinct⟩ := List.nodup_cons.mp hdistinct
    rcases List.mem_cons.mp hf with rfl | hf
    · simp
    · have hne : first.name ≠ f.name := fun heq => hnot (List.mem_map.mpr ⟨f, hf, heq.symm⟩)
      simpa [hne] using ih hdistinct hf

/-! ## What is taken -/

/-- What reading an entry does: it names a field that is not set yet and takes its value, or none in a record that is not
closed. -/
theorem readEntries_cons_ok {label : String} {key value : Source} {rest : List (String × Source × Source)} {before after : δ}
    (h : r.readEntries before ((label, key, value) :: rest) = .ok after) :
    ∃ name, key.readText "field identifier" = .ok name ∧
      ((name ∉ r.names ∧ r.closed = false ∧ r.readEntries before rest = .ok after) ∨
        ∃ f next, r.fields.find? (·.name = name) = some f ∧ f.isSet before = false ∧ f.read value before = .ok next ∧
          r.readEntries next rest = .ok after) := by
  simp only [readEntries] at h
  split at h
  · cases h
  rename_i name hname
  refine ⟨name, hname, ?_⟩
  split at h
  · rename_i hnone
    split at h
    · cases h
    · rename_i hopen
      exact .inl ⟨(r.find?_eq_none_iff name).mp hnone, by simpa using hopen, h⟩
  · rename_i f hf
    split at h
    · cases h
    rename_i hunset
    split at h
    · cases h
    · rename_i next hnext
      exact .inr ⟨f, next, hf, by simpa using hunset, hnext, h⟩

/-- In a group that is read, an entry names a field that takes its value, or it names none in a record that is not closed. -/
theorem exists_field_of_readEntries {entries : List (String × Source × Source)} {before after : δ}
    (h : r.readEntries before entries = .ok after) {label : String} {key value : Source}
    (he : (label, key, value) ∈ entries) :
    ∃ name, key.readText "field identifier" = .ok name ∧
      ((name ∉ r.names ∧ r.closed = false) ∨ ∃ f, r.fields.find? (·.name = name) = some f ∧ f.Takes value) := by
  induction entries generalizing before with
  | nil => cases he
  | cons first rest ih =>
    obtain ⟨name, hname, ⟨hnot, hopen, hrest⟩ | ⟨f, next, hf, -, hread, hrest⟩⟩ := r.readEntries_cons_ok h
    · rcases List.mem_cons.mp he with rfl | he
      · exact ⟨name, hname, .inl ⟨hnot, hopen⟩⟩
      · exact ih hrest he
    · rcases List.mem_cons.mp he with rfl | he
      · exact ⟨name, hname, .inr ⟨f, hf, before, next, hread⟩⟩
      · exact ih hrest he

/-- In a list that is read, the field of a place takes the item there. -/
theorem takes_of_readPositions {fields : List (RecordField δ)} {items rest : List Source} {index : Nat} {before after : δ}
    (h : r.readPositions index before fields items = .ok (after, rest)) {i : Nat} {f : RecordField δ} {item : Source}
    (hf : fields[i]? = some f) (hitem : items[i]? = some item) : f.Takes item := by
  induction fields generalizing items index before i with
  | nil => simp at hf
  | cons first fields ih =>
    cases items with
    | nil => simp at hitem
    | cons head items =>
      simp only [readPositions] at h
      split at h
      · cases h
      · rename_i next hnext
        cases i with
        | zero =>
          cases hf
          cases hitem
          exact ⟨before, next, hnext⟩
        | succ i => exact ih h (by simpa using hf) (by simpa using hitem)

/-! ## What is kept -/

variable {P : δ → Prop}

theorem keeps_readEntries (hstep : ∀ f ∈ r.fields, f.Keeps P) {entries : List (String × Source × Source)} {before after : δ}
    (h : r.readEntries before entries = .ok after) (hbefore : P before) : P after := by
  induction entries generalizing before with
  | nil => cases h; exact hbefore
  | cons first rest ih =>
    obtain ⟨_, -, ⟨-, -, hrest⟩ | ⟨f, next, hf, -, hread, hrest⟩⟩ := r.readEntries_cons_ok h
    · exact ih hrest hbefore
    · exact ih hrest (hstep f (List.mem_of_find?_eq_some hf) _ _ _ hread hbefore)

theorem keeps_readPositions {fields : List (RecordField δ)} (hstep : ∀ f ∈ fields, f.Keeps P) {items rest : List Source}
    {index : Nat} {before after : δ} (h : r.readPositions index before fields items = .ok (after, rest)) (hbefore : P before) :
    P after := by
  induction fields generalizing items index before with
  | nil => cases h; exact hbefore
  | cons f fields ih =>
    obtain ⟨hf, hfields⟩ := List.forall_mem_cons.mp hstep
    cases items with
    | nil =>
      simp only [readPositions] at h
      split at h
      · cases h
      · exact ih hfields h hbefore
    | cons item items =>
      simp only [readPositions] at h
      split at h
      · cases h
      · rename_i next hnext
        exact ih hfields h (hf _ _ _ hnext hbefore)

/-- What holds of the value of every draft that is put together from the blank one by the fields holds of whatever is read. -/
theorem forall_read {Q : α → Prop} (hblank : P r.blank) (hstep : ∀ f ∈ r.fields, f.Keeps P)
    (hfinish : ∀ d a, P d → r.finish d = .ok a → Q a) (s : Source) (a : α) (h : r.read s = .ok a) : Q a := by
  have complete {d : δ} (hd : P d) (h : r.complete d = .ok a) : Q a := by
    unfold Record.complete at h
    split at h
    · cases h
      exact hfinish d a hd ‹_›
    · cases h
  unfold Record.read at h
  split at h
  · split at h
    · cases h
    · exact complete (r.keeps_readEntries hstep ‹_› hblank) h
  · split at h
    · cases h
    · split at h
      · exact complete (r.keeps_readPositions hstep ‹_› hblank) h
      · cases h
  · split at h
    · exact complete hblank h
    · cases h
  · cases h

/-! ## What is refused -/

/-- A value stands in data for the field of a name: under the name, or in the place of the field. -/
inductive Holds (name : String) : Data → Data → Prop
  | named {fields : List (String × Data)} {value : Data} : (name, value) ∈ fields → Holds name (.object fields) value
  | placed {items : List Data} {index : Nat} {value : Data} :
    r.names[index]? = some name → items[index]? = some value → Holds name (.list items) value

theorem mem_ofFields {fields : List (String × Data)} {e : String × Data} (he : e ∈ fields) :
    (e.1, .text e.1, .ofData e.2) ∈ Source.ofFields fields := by
  induction fields with
  | nil => cases he
  | cons first rest ih =>
    rcases List.mem_cons.mp he with rfl | he
    · exact List.mem_cons_self
    · exact List.mem_cons_of_mem _ (ih he)

theorem getElem?_ofItems (items : List Data) (i : Nat) : (Source.ofItems items)[i]? = items[i]?.map Source.ofData := by
  induction items generalizing i with
  | nil => simp [Source.ofItems]
  | cons item rest ih => cases i <;> simp [Source.ofItems, ih]

variable {r}

/-- In an object that is read as a closed record every key names a field. -/
theorem mem_names_of_read (hclosed : r.closed = true) {fields : List (String × Data)} {a : α}
    (h : r.read (.ofData (.object fields)) = .ok a) {e : String × Data} (he : e ∈ fields) : e.1 ∈ r.names := by
  simp only [Source.ofData, read] at h
  split at h
  · cases h
  · rename_i d hd
    obtain ⟨name, hname, ⟨-, hopen⟩ | ⟨f, hf, -⟩⟩ := r.exists_field_of_readEntries hd (mem_ofFields he)
    · rw [hclosed] at hopen; cases hopen
    · cases hname
      refine Classical.byContradiction fun hnot => ?_
      rw [(r.find?_eq_none_iff _).mpr hnot] at hf
      cases hf

/-- A field takes what stands for it in the data of a record that is read. -/
theorem takes_of_holds (hdistinct : r.names.Nodup) {d value : Data} {a : α} (h : r.read (.ofData d) = .ok a)
    {f : RecordField δ} (hf : f ∈ r.fields) (hholds : r.Holds f.name d value) : f.Takes (.ofData value) := by
  cases hholds with
  | named he =>
    simp only [Source.ofData, read] at h
    split at h
    · cases h
    · rename_i draft hdraft
      obtain ⟨name, hname, ⟨hnot, -⟩ | ⟨g, hg, htakes⟩⟩ := r.exists_field_of_readEntries hdraft (mem_ofFields he)
      · cases hname
        exact absurd (List.mem_map_of_mem hf) hnot
      · cases hname
        rw [r.find?_of_mem hdistinct hf] at hg
        cases hg
        exact htakes
  | @placed items index _ hname hitem =>
    simp only [Source.ofData, read] at h
    split at h
    · cases h
    · rename_i draft rest hdraft
      obtain ⟨g, hg, hgname⟩ : ∃ g, r.fields[index]? = some g ∧ g.name = f.name := by simpa [names] using hname
      have hfind := r.find?_of_mem hdistinct (List.mem_of_getElem? hg)
      rw [hgname, r.find?_of_mem hdistinct hf] at hfind
      have hgf : g = f := (Option.some.inj hfind).symm
      exact r.takes_of_readPositions hdraft (hgf ▸ hg) (by rw [getElem?_ofItems, hitem]; rfl)

/-- A record that is not closed passes over the entries whose keys name no field. -/
theorem read_filter (hopen : r.closed = false) (fields : List (String × Data)) :
    r.read (.ofData (.object fields)) = r.read (.ofData (.object (fields.filter (·.1 ∈ r.names)))) := by
  have entries (before : δ) : r.readEntries before (Source.ofFields fields) =
      r.readEntries before (Source.ofFields (fields.filter (·.1 ∈ r.names))) := by
    induction fields generalizing before with
    | nil => rfl
    | cons e rest ih =>
      by_cases hname : e.1 ∈ r.names
      · rw [List.filter_cons_of_pos (by simpa using hname)]
        simp only [Source.ofFields, readEntries, ih]
      · rw [List.filter_cons_of_neg (by simpa using hname)]
        simp only [Source.ofFields, readEntries, Source.readText, (r.find?_eq_none_iff _).mpr hname, hopen, ih]
        rfl
  simp only [Source.ofData, read, entries]

/-! ## Forms -/

/-- A value as part of a draft: it is there if its name is among the given ones. -/
def present (given : List String) (name : String) (b : β) : Option β :=
  if name ∈ given then some b else none

@[simp] theorem present_self (given : List String) (name : String) (b : β) : present (name :: given) name b = some b := by
  simp [present]

theorem present_cons_of_ne {name other : String} (h : name ≠ other) (given : List String) (b : β) :
    present (other :: given) name b = present given name b := by
  simp [present, h]

@[simp] theorem isSome_present (given : List String) (name : String) (b : β) :
    (present given name b).isSome = decide (name ∈ given) := by
  unfold present
  split <;> simp [*]

theorem present_of_mem {given : List String} {name : String} (h : name ∈ given) (b : β) : present given name b = some b :=
  if_pos h

/-- A value that is not there is its default. -/
theorem getD_present {given : List String} {name : String} {b default : β} (h : name ∈ given ∨ b = default) :
    (present given name b).getD default = b := by
  unfold present
  split
  · rfl
  · exact (h.resolve_left ‹_›).symm

/-- How the values of a record type are taken apart and put together again. -/
structure Layout (r : Record δ α) where
  /-- The fields of a value in declared order, each as it is written. -/
  slots : α → List (String × Data)
  /-- What a field that is left out is taken for, for the fields that may be left out. -/
  defaults : List (String × Data)
  /-- The draft that has the fields of a value with the given names. -/
  part : α → List String → δ
  distinct : r.names.Nodup := by decide
  map_slots : ∀ x, (slots x).map Prod.fst = r.names := by intro x; rfl
  part_nil : ∀ x, part x [] = r.blank := by intro x; rfl
  isSet_part : ∀ x, ∀ f ∈ r.fields, ∀ given, f.name ∉ given → f.isSet (part x given) = false
  read_part : ∀ x, ∀ f ∈ r.fields, ∀ d, (f.name, d) ∈ slots x → d.Sorted → ∀ given,
    f.read (.ofData d) (part x given) = .ok (part x (f.name :: given))
  optional : ∀ f ∈ r.fields, ∀ d, (f.name, d) ∈ defaults → f.required = false
  sorted_defaults : ∀ e ∈ defaults, e.2.Sorted
  finish_part : ∀ x given, (∀ e ∈ slots x, e.1 ∈ given ∨ e ∈ defaults) → r.finish (part x given) = .ok x

namespace Layout

variable (l : r.Layout) (x : α)

/-- The forms of a value: its fields under their names, in any order, or as a list in their own order. Fields that have their
defaults may be left out, in a list only at the end. -/
inductive Form : Data → Prop
  | named {fields : List (String × Data)} : (fields.map Prod.fst).Nodup → fields ⊆ l.slots x →
    (∀ e ∈ l.slots x, e ∈ fields ∨ e ∈ l.defaults) → Form (.object fields)
  | placed {given omitted : List (String × Data)} : given ++ omitted = l.slots x → omitted ⊆ l.defaults →
    Form (.list (given.map Prod.snd))

variable {l x}

/-- Where a form of a value is in order, so are its fields. -/
theorem Form.sorted_slots {d : Data} (hform : l.Form x d) (hd : d.Sorted) : ∀ e ∈ l.slots x, e.2.Sorted := by
  cases hform with
  | named _ _ hleft =>
    intro e he
    rcases hleft e he with hgiven | hdefault
    · exact ((Data.sorted_object_iff _).mp hd).2 e hgiven
    · exact l.sorted_defaults e hdefault
  | @placed given omitted hslots homitted =>
    intro e he
    rcases List.mem_append.mp (hslots ▸ he) with hgiven | hleft
    · exact (Data.sorted_list_iff _).mp hd _ (List.mem_map_of_mem hgiven)
    · exact l.sorted_defaults e (homitted hleft)

variable (l)

theorem exists_field {e : String × Data} (he : e ∈ l.slots x) : ∃ f ∈ r.fields, f.name = e.1 := by
  have hname : e.1 ∈ r.names := l.map_slots x ▸ List.mem_map_of_mem he
  simpa [names] using hname

/-- Fields of a value that stand under their names are put into the draft that has those before them. -/
theorem readEntries_part (hsorted : ∀ e ∈ l.slots x, e.2.Sorted) {fields : List (String × Data)}
    (hsub : fields ⊆ l.slots x) (hnodup : (fields.map Prod.fst).Nodup) (given : List String)
    (hfresh : ∀ e ∈ fields, e.1 ∉ given) :
    r.readEntries (l.part x given) (Source.ofFields fields) = .ok (l.part x ((fields.map Prod.fst).reverse ++ given)) := by
  induction fields generalizing given with
  | nil => rfl
  | cons e rest ih =>
    obtain ⟨hslot, hrest⟩ := List.cons_subset.mp hsub
    obtain ⟨hnot, hnodup⟩ := List.nodup_cons.mp hnodup
    obtain ⟨hnew, hfresh⟩ := List.forall_mem_cons.mp hfresh
    obtain ⟨f, hf, hname⟩ := l.exists_field hslot
    have hfind : r.fields.find? (·.name = e.1) = some f := hname ▸ r.find?_of_mem l.distinct hf
    have hunset : f.isSet (l.part x given) = false := l.isSet_part x f hf given (hname ▸ hnew)
    have hread : f.read (.ofData e.2) (l.part x given) = .ok (l.part x (e.1 :: given)) := by
      rw [← hname]
      exact l.read_part x f hf e.2 (hname ▸ hslot) (hsorted e hslot) given
    have hlater : ∀ e' ∈ rest, e'.1 ∉ e.1 :: given := by
      intro e' he' hmem
      rcases List.mem_cons.mp hmem with heq | hgiven
      · exact hnot (heq ▸ List.mem_map_of_mem he')
      · exact hfresh e' he' hgiven
    simp only [Source.ofFields, readEntries, Source.readText, hfind, hunset, hread, ih hrest hnodup _ hlater]
    simp

/-- Fields of a value that stand in their places are put into the draft, and those behind them are left out. -/
theorem readPositions_part (hsorted : ∀ e ∈ l.slots x, e.2.Sorted) (given omitted : List (String × Data))
    {fields : List (RecordField δ)} (hfields : fields ⊆ r.fields)
    (hnames : (given ++ omitted).map Prod.fst = fields.map (·.name)) (hsub : given ⊆ l.slots x)
    (homitted : omitted ⊆ l.defaults) (index : Nat) (before : List String) :
    r.readPositions index (l.part x before) fields (Source.ofItems (given.map Prod.snd)) =
      .ok (l.part x ((given.map Prod.fst).reverse ++ before), []) := by
  induction fields generalizing given omitted index before with
  | nil =>
    obtain ⟨rfl, -⟩ : given = [] ∧ omitted = [] := by simpa using hnames
    rfl
  | cons f fields ih =>
    obtain ⟨hf, hfields⟩ := List.cons_subset.mp hfields
    cases given with
    | nil =>
      -- The list has ended: the field is one of those that are left out, and none of these is required.
      cases omitted with
      | nil => simp at hnames
      | cons e omitted =>
        obtain ⟨he, homitted⟩ := List.cons_subset.mp homitted
        obtain ⟨hname, hnames⟩ : e.1 = f.name ∧ omitted.map Prod.fst = fields.map (·.name) := by simpa using hnames
        have hoptional : f.required = false := l.optional f hf e.2 (hname ▸ he)
        have hrest := ih [] omitted hfields hnames (List.nil_subset _) homitted (index + 1) before
        simp only [List.map_nil, Source.ofItems] at hrest ⊢
        rw [readPositions, hoptional, if_neg Bool.false_ne_true]
        exact hrest
    | cons e given =>
      obtain ⟨hslot, hsub⟩ := List.cons_subset.mp hsub
      obtain ⟨hname, hnames⟩ : e.1 = f.name ∧ (given ++ omitted).map Prod.fst = fields.map (·.name) := by simpa using hnames
      have hread := l.read_part x f hf e.2 (hname ▸ hslot) (hsorted e hslot) before
      have hrest := ih given omitted hfields hnames hsub homitted (index + 1) (f.name :: before)
      simp only [List.map_cons, Source.ofItems, readPositions, hread, hrest]
      simp [hname]

/-- Every form of a value is read as the value. -/
theorem read_form (hsorted : ∀ e ∈ l.slots x, e.2.Sorted) {d : Data} (hform : l.Form x d) : r.read (.ofData d) = .ok x := by
  have complete {given : List String} (h : ∀ e ∈ l.slots x, e.1 ∈ given ∨ e ∈ l.defaults) :
      r.complete (l.part x given) = .ok x := by
    rw [Record.complete, l.finish_part x given h]
  cases hform with
  | @named fields hnodup hsub hleft =>
    have hentries := l.readEntries_part hsorted hsub hnodup [] (by simp)
    rw [l.part_nil x] at hentries
    simp only [Source.ofData, read, hentries]
    refine complete fun e he => (hleft e he).imp_left fun hgiven => ?_
    simpa using ⟨e.2, hgiven⟩
  | @placed given omitted hslots homitted =>
    have hsub : given ⊆ l.slots x := hslots ▸ List.subset_append_left _ _
    have hpositions := l.readPositions_part hsorted given omitted (List.Subset.refl _)
      (by rw [hslots]; exact l.map_slots x) hsub homitted 0 []
    rw [l.part_nil x] at hpositions
    simp only [Source.ofData, read, hpositions]
    refine complete fun e he => ?_
    rcases List.mem_append.mp (hslots ▸ he) with hgiven | hleft
    · left
      simpa using ⟨e.2, hgiven⟩
    · exact .inr (homitted hleft)

end Layout

end Record

end Folio.Decode
