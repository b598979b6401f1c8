import Folio.Decode.Source
import Folio.Proofs.Overlay

/-!
# Data that is read

In the data of a document the keys of every object rise strictly, at every depth (`Data.Sorted`). Whatever a data value is read
from, a data value or a node of a configuration, it is of this kind (`sorted_of_readData`), and a value of this kind is read as
itself (`readData_ofData`).
-/

namespace Folio

@[simp] theorem Keyed.ordered_nil {α : Type} : Ordered ([] : Keyed α) := List.Pairwise.nil

namespace Data

/-- In every object inside the value the keys rise strictly. -/
inductive Sorted : Data → Prop
  | null : Sorted null
  | bool (value : Bool) : Sorted (bool value)
  | int (value : Int) : Sorted (int value)
  | float (bits : UInt64) : Sorted (float bits)
  | text (value : String) : Sorted (text value)
  | list {items : List Data} : (∀ item ∈ items, Sorted item) → Sorted (list items)
  | object {fields : Keyed Data} : fields.Ordered → (∀ e ∈ fields, Sorted e.2) → Sorted (object fields)

attribute [simp] Sorted.null Sorted.bool Sorted.int Sorted.float Sorted.text

@[simp] theorem sorted_list_iff (items : List Data) : (list items).Sorted ↔ ∀ item ∈ items, item.Sorted :=
  ⟨fun h => by cases h; assumption, .list⟩

@[simp] theorem sorted_object_iff (fields : Keyed Data) :
    (object fields).Sorted ↔ fields.Ordered ∧ ∀ e ∈ fields, e.2.Sorted :=
  ⟨fun h => by cases h; constructor <;> assumption, fun h => .object h.1 h.2⟩

/-- An object whose keys rise is in order if its values are. -/
theorem sorted_object_iff_of_keys (keys : List String) {fields : Keyed Data} (hkeys : fields.map Prod.fst = keys)
    (hord : keys.Pairwise (· < ·)) : (object fields).Sorted ↔ ∀ e ∈ fields, e.2.Sorted := by
  subst hkeys
  have hfields : fields.Ordered := List.pairwise_map.mp hord
  rw [sorted_object_iff, and_iff_right hfields]

theorem sorted_empty : (object []).Sorted := .object Keyed.ordered_nil nofun

theorem sorted_ofFloat (x : Float) : (ofFloat x).Sorted := by
  unfold ofFloat
  split <;> simp

end Data

namespace Decode.Source

/-! ## A value in order is read as itself -/

theorem readItems_ofItems {items : List Data} (h : ∀ item ∈ items, readData (ofData item) = .ok item) (index : Nat) :
    readItems index (ofItems items) = .ok items := by
  induction items generalizing index with
  | nil => rfl
  | cons item rest ih =>
    obtain ⟨hitem, hrest⟩ := List.forall_mem_cons.mp h
    simp only [ofItems, readItems, hitem, ih hrest]

/-- Entries in order are put behind the fields that were read before them. -/
theorem readEntries_ofFields (expectedKey : String) (before : Keyed Data) {fields : Keyed Data}
    (hord : Keyed.Ordered (before ++ fields)) (h : ∀ e ∈ fields, readData (ofData e.2) = .ok e.2) :
    readEntries expectedKey before (ofFields fields) = .ok (before ++ fields) := by
  induction fields generalizing before expectedKey with
  | nil => simp [ofFields, readEntries]
  | cons e rest ih =>
    obtain ⟨key, value⟩ := e
    obtain ⟨hvalue, hrest⟩ := List.forall_mem_cons.mp h
    have hlt : ∀ e ∈ before, e.1 < key := fun e he => (List.pairwise_append.mp hord).2.2 e he _ List.mem_cons_self
    have hnext : Keyed.Ordered ((before ++ [(key, value)]) ++ rest) := by simpa using hord
    simp only [ofFields, readEntries, readText, hvalue, Keyed.insert_eq_append hlt, ih _ _ hnext hrest]
    simp

/-- A value in which every object has its keys in order is read as itself. -/
@[simp] theorem readData_ofData {d : Data} (h : d.Sorted) : readData (ofData d) = .ok d := by
  induction h with
  | null | bool | int | float | text => rfl
  | list _ ih =>
    rw [ofData, readData, readItems_ofItems ih]
    rfl
  | @object fields hord _ ih =>
    rw [ofData, readData, readEntries_ofFields _ [] hord ih]
    rfl

@[simp] theorem readObject_ofData {fields : Keyed Data} (h : (Data.object fields).Sorted) :
    readObject (ofData (.object fields)) = .ok fields := by
  obtain ⟨hord, hfields⟩ := (Data.sorted_object_iff fields).mp h
  exact readEntries_ofFields _ [] hord fun e he => readData_ofData (hfields e he)

/-- A list is read item by item, each of them by what reads what was written for it. -/
theorem readList_ofData {α : Type} {read : Source → Except DecodeError α} {write : α → Data} {values : List α}
    (h : ∀ a ∈ values, read (ofData (write a)) = .ok a) :
    readList read (ofData (.list (values.map write))) = .ok values := by
  suffices ∀ index, readEach read index (ofItems (values.map write)) = .ok values from this 0
  induction values with
  | nil => exact fun _ => rfl
  | cons a rest ih =>
    intro index
    obtain ⟨ha, hrest⟩ := List.forall_mem_cons.mp h
    simp only [List.map_cons, ofItems, readEach, ha, ih hrest]

/-! ## Whatever is read is in order -/

theorem sorted_of_dataOf {m : Scalar.Meaning} {d : Data} (h : dataOf m = .ok d) : d.Sorted := by
  cases m with
  | int n =>
    simp only [dataOf] at h
    split at h <;> cases h
    exact .int n
  | null | bool | text => cases h; simp
  | float x =>
    cases h
    exact Data.sorted_ofFloat x

mutual

/-- What is read as a data value has the keys of its objects in order, whatever it is read from. -/
theorem sorted_of_readData : ∀ {s : Source} {d : Data}, readData s = .ok d → d.Sorted
  | .null, _, h | .bool _, _, h | .int _, _, h | .float _, _, h | .text _, _, h => by cases h; simp
  | .scalar s, d, h => by
    simp only [readData] at h
    split at h
    · cases h
    · split at h
      · exact sorted_of_dataOf h
      · cases h
  | .list _ tag items, d, h => by
    simp only [readData] at h
    split at h
    · cases h
    · cases hitems : readItems 0 items with
      | error e => rw [hitems] at h; cases h
      | ok ds =>
        rw [hitems] at h
        cases h
        exact .list (sorted_of_readItems hitems)
  | .map _ tag entries, d, h => by
    simp only [readData] at h
    split at h
    · cases h
    · cases hentries : readEntries "a string key" [] entries with
      | error e => rw [hentries] at h; cases h
      | ok fields =>
        rw [hentries] at h
        cases h
        exact sorted_of_readEntries Data.sorted_empty hentries

theorem sorted_of_readItems : ∀ {items : List Source} {index : Nat} {ds : List Data}, readItems index items = .ok ds →
    ∀ d ∈ ds, d.Sorted
  | [], _, _, h => by cases h; simp
  | item :: rest, index, ds, h => by
    simp only [readItems] at h
    split at h
    · cases h
    · rename_i d hd
      split at h
      · cases h
      · rename_i ds' hds
        cases h
        exact List.forall_mem_cons.mpr ⟨sorted_of_readData hd, sorted_of_readItems hds⟩

theorem sorted_of_readEntries : ∀ {entries : List (String × Source × Source)} {expectedKey : String}
    {before fields : Keyed Data}, (Data.object before).Sorted → readEntries expectedKey before entries = .ok fields →
    (Data.object fields).Sorted
  | [], _, _, _, hbefore, h => by cases h; exact hbefore
  | (label, key, value) :: rest, expectedKey, before, fields, hbefore, h => by
    simp only [readEntries] at h
    split at h
    · cases h
    · rename_i k hk
      split at h
      · cases h
      · rename_i d hd
        obtain ⟨hord, hvalues⟩ := (Data.sorted_object_iff before).mp hbefore
        refine sorted_of_readEntries (.object (hord.insert k d) fun e he => ?_) h
        rcases Keyed.mem_insert he with rfl | he
        · exact sorted_of_readData hd
        · exact hvalues e he

end

theorem sorted_of_readObject {s : Source} {fields : Keyed Data} (h : readObject s = .ok fields) :
    (Data.object fields).Sorted := by
  cases s with
  | map _ _ entries => exact sorted_of_readEntries Data.sorted_empty h
  | scalar s =>
    simp only [readObject] at h
    split at h <;> cases h
    exact Data.sorted_empty
  | _ => cases h

/-- In a list that is read every item is read, and every value is what one of them is read as. -/
theorem read_of_readEach {α : Type} {read : Source → Except DecodeError α} {items : List Source} {index : Nat}
    {values : List α} (h : readEach read index items = .ok values) :
    (∀ s ∈ items, ∃ a, read s = .ok a) ∧ ∀ a ∈ values, ∃ s, read s = .ok a := by
  induction items generalizing index values with
  | nil => cases h; simp
  | cons item rest ih =>
    simp only [readEach] at h
    split at h
    · cases h
    · rename_i a ha
      split at h
      · cases h
      · rename_i as has
        cases h
        obtain ⟨hitems, hvalues⟩ := ih has
        exact ⟨List.forall_mem_cons.mpr ⟨⟨a, ha⟩, hitems⟩, List.forall_mem_cons.mpr ⟨⟨item, ha⟩, hvalues⟩⟩

theorem exists_of_mem_readList {α : Type} {read : Source → Except DecodeError α} {s : Source} {values : List α}
    (h : readList read s = .ok values) {a : α} (ha : a ∈ values) : ∃ s, read s = .ok a := by
  cases s with
  | list _ _ items => exact (read_of_readEach h).2 a ha
  | scalar s =>
    simp only [readList] at h
    split at h <;> cases h
    cases ha
  | _ => cases h

theorem mem_ofItems {items : List Data} {d : Data} (h : d ∈ items) : ofData d ∈ ofItems items := by
  induction items with
  | nil => cases h
  | cons item rest ih =>
    rcases List.mem_cons.mp h with rfl | h
    · exact List.mem_cons_self
    · exact List.mem_cons_of_mem _ (ih h)

end Decode.Source

end Folio
