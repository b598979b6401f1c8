import Folio.Proofs.Execution
import Folio.Proofs.Paths
import Folio.Proofs.Reads
import Folio.Proofs.Trees

/-!
# Documents that are written as a whole

A document that is to be written to a file is first written beside it, at `besidePath`, which never leads where the path itself
leads (`ne_of_namesOf_besidePath`). Then it is moved into its place, or else removed. So if all goes well the file holds the whole
document and nothing is left beside it (`delivered_of_rename`). If anything fails every other file is as it was
(`keptBut_of_write`), and nothing is left beside it once that is removed (`exists_cleared_of_write`). `run_render` says so of the
command, on every disk that does nothing by halves (`Faithful`); what was written beside the file is left there only if it can
neither be moved nor be removed (`Stuck`).
-/

namespace Folio

/-! ## The path beside -/

namespace Text

theorem splitAll_of_not_mem {mark : Char} {s : List Char} (h : mark ∉ s) : splitAll mark s = [s] := by
  induction s with
  | nil => rfl
  | cons c rest ih =>
    rw [List.mem_cons, not_or] at h
    rw [splitAll, if_neg (Ne.symm h.1), ih h.2]

/-- An ending without the mark belongs to the last stretch. -/
theorem splitAll_append {mark : Char} {ending : List Char} (h : mark ∉ ending) (s : List Char) :
    ∃ front last, splitAll mark s = front ++ [last] ∧ splitAll mark (s ++ ending) = front ++ [last ++ ending] := by
  induction s with
  | nil => exact ⟨[], [], rfl, splitAll_of_not_mem h⟩
  | cons c rest ih =>
    obtain ⟨front, last, hrest, hend⟩ := ih
    rw [List.cons_append]
    by_cases hc : c = mark
    · refine ⟨[] :: front, last, ?_, ?_⟩
      · rw [splitAll, if_pos hc, hrest, List.cons_append]
      · rw [splitAll, if_pos hc, hend, List.cons_append]
    · rw [splitAll, if_neg hc, splitAll, if_neg hc, hrest, hend]
      cases front with
      | nil => exact ⟨[], c :: last, rfl, rfl⟩
      | cons first others => exact ⟨(c :: first) :: others, last, rfl, rfl⟩

end Text

namespace Cli

open FileTree

/-- The ending of the path beside. -/
def ending : String := ".weave.tmp"

theorem append_ending_ne {s u : String} (h : u.length < s.length + ending.length) : s ++ ending ≠ u := by
  intro heq
  rw [← heq, String.length_append] at h
  exact Nat.lt_irrefl _ h

/-- The path beside differs in its last segment, which the path itself need not have. -/
theorem segments_besidePath (path : String) : ∃ front last, Path.segments (besidePath path) = front ++ [last ++ ending] ∧
    (Path.segments path = front ∨ Path.segments path = front ++ [last]) := by
  have hmark : '/' ∉ ending.toList := by decide
  obtain ⟨front, last, hpath, hbeside⟩ := Text.splitAll_append hmark path.toList
  refine ⟨(front.map String.ofList).filter fun s => s ≠ "" && s ≠ ".", String.ofList last, ?_, ?_⟩
  · have hkept : (decide (String.ofList last ++ ending ≠ "") && decide (String.ofList last ++ ending ≠ ".")) = true := by
      rw [Bool.and_eq_true, decide_eq_true_eq, decide_eq_true_eq]
      exact ⟨append_ending_ne (Nat.lt_add_left _ (by decide)), append_ending_ne (Nat.lt_add_left _ (by decide))⟩
    unfold Path.segments besidePath
    rw [String.toList_append]
    change List.filter _ (List.map _ (Text.splitAll '/' (path.toList ++ ending.toList))) = _
    rw [hbeside, List.map_append, List.filter_append, List.map_singleton, String.ofList_append, String.ofList_toList,
      List.filter_cons, if_pos hkept]
    rfl
  · unfold Path.segments
    rw [hpath, List.map_append, List.filter_append, List.map_singleton, List.filter_cons, List.filter_nil]
    split
    · exact Or.inr rfl
    · exact Or.inl (List.append_nil _)

variable {t t' t₁ t₂ : FileTree} {path : String} {names beside place : List String} {content : ByteArray}

/-- The path beside leads to a name in a directory, and not where the path itself leads. -/
theorem ne_of_namesOf_besidePath (h : t.namesOf (besidePath path) = .ok beside) :
    (∃ dir name, beside = dir ++ [name]) ∧ ∀ place, t.namesOf path = .ok place → place ≠ beside := by
  obtain ⟨front, last, hsegments, hpath⟩ := segments_besidePath path
  obtain ⟨-, hfollow⟩ := namesOf_eq_ok_iff.mp h
  rw [hsegments, follow_append_iff] at hfollow
  obtain ⟨mid, hmid, hlast⟩ := hfollow
  have hstep : beside.reverse = (last ++ ending) :: mid := by
    have hup : last ++ ending ≠ ".." := append_ending_ne (Nat.lt_add_left _ (by decide))
    obtain ⟨-, hlast⟩ := follow_cons_iff.mp hlast
    rw [follow, stepTo, if_neg hup, Except.ok.injEq] at hlast
    exact hlast.symm
  refine ⟨⟨mid.reverse, last ++ ending, ?_⟩, ?_⟩
  · rw [← List.reverse_reverse beside, hstep, List.reverse_cons]
  rintro place hplace rfl
  obtain ⟨-, hfollow⟩ := namesOf_eq_ok_iff.mp hplace
  rcases hpath with hpath | hpath
  · rw [hpath, hmid, Except.ok.injEq] at hfollow
    rw [← hfollow] at hstep
    exact absurd (congrArg List.length hstep) (by rw [List.length_cons]; omega)
  · rw [hpath, follow_append_iff] at hfollow
    obtain ⟨mid', hmid', hlast'⟩ := hfollow
    rw [hmid, Except.ok.injEq] at hmid'
    obtain ⟨-, hlast'⟩ := follow_cons_iff.mp hlast'
    rw [follow, ← hmid', Except.ok.injEq, hstep] at hlast'
    unfold stepTo at hlast'
    split at hlast'
    · have hlength := congrArg List.length hlast'
      rw [List.length_tail, List.length_cons] at hlength
      omega
    · exact append_ending_ne (Nat.lt_add_of_pos_right (by decide)) (List.cons.inj hlast').1.symm

theorem endsInSlash_besidePath (path : String) : Path.endsInSlash (besidePath path) = false := by
  unfold besidePath
  rw [Path.endsInSlash_append (by decide)]
  decide

/-! ## What is left behind -/

/-- A content was delivered at a path: it is what is read there, nothing lies beside it, and every other file is as it was. -/
structure Delivered (t t' : FileTree) (path : String) (content : ByteArray) : Prop where
  read : t'.read path = .ok content
  beside : (t'.files.kind? (besidePath path)).run = none
  others : ∀ names, t'.namesOf path ≠ .ok names → t'.namesOf (besidePath path) ≠ .ok names → t'.fileAt names = t.fileAt names

/-- All files but the one beside a path are as they were, the one at the path among them. -/
structure KeptBut (t t' : FileTree) (path : String) : Prop where
  read : ∀ content, t.read path = .ok content → t'.read path = .ok content
  others : ∀ names, t'.namesOf (besidePath path) ≠ .ok names → t'.fileAt names = t.fileAt names

/-- Nothing lies beside a path that did not lie there before. -/
def Cleared (t t' : FileTree) (path : String) : Prop :=
  ∀ names, t'.namesOf (besidePath path) = .ok names → t'.fileAt names = t.fileAt names ∨ t'.fileAt names = none

/-- The file at a path is never the one beside it. -/
theorem keptBut_of_keeps (hkeeps : t.Keeps t')
    (hothers : ∀ names, t'.namesOf (besidePath path) ≠ .ok names → t'.fileAt names = t.fileAt names) : KeptBut t t' path := by
  refine ⟨fun content hread => ?_, hothers⟩
  obtain ⟨place, hplace, hfile, hslash⟩ := read_eq_ok_iff.mp hread
  have hplace' := hkeeps.namesOf hplace
  have hbeside : t'.namesOf (besidePath path) ≠ .ok place := fun hbeside =>
    (ne_of_namesOf_besidePath hbeside).2 place hplace' rfl
  exact read_eq_ok_iff.mpr ⟨place, hplace', (hothers place hbeside).trans hfile, hslash⟩

theorem keptBut_of_grows (h : t.Grows t') : KeptBut t t' path :=
  keptBut_of_keeps h.keeps fun names _ => h.fileAt names

theorem cleared_of_grows (h : t.Grows t') : Cleared t t' path :=
  fun names _ => Or.inl (h.fileAt names)

/-- What is written beside a path lies there, and nothing else is changed. -/
theorem nodeAt_of_write_beside (h : t.write (besidePath path) content = .ok t') :
    ∃ dir name, t.namesOf (besidePath path) = .ok (dir ++ [name]) ∧ t.Keeps t' ∧
      ∀ names, t'.nodeAt names = if names = dir ++ [name] then some (some content) else t.nodeAt names := by
  obtain ⟨beside, hbeside⟩ := exists_namesOf_of_write h
  obtain ⟨⟨dir, name, rfl⟩, -⟩ := ne_of_namesOf_besidePath hbeside
  obtain ⟨hold, hnode⟩ := nodeAt_of_write hbeside h
  exact ⟨dir, name, hbeside, keeps_of_nodeAt hold hnode, hnode⟩

/-- If what was written beside a path is moved into its place, it is delivered. -/
theorem delivered_of_rename (hgrows : t.Grows t₁) (hwrite : t₁.write (besidePath path) content = .ok t₂)
    (hrename : t₂.rename (besidePath path) path = .ok t') : Delivered t t' path content := by
  obtain ⟨dir, name, hbeside, hkeeps, hnode⟩ := nodeAt_of_write_beside hwrite
  have hbeside₂ := hkeeps.namesOf hbeside
  have hfile : t₂.nodeAt (dir ++ [name]) = some (some content) := by rw [hnode, if_pos rfl]
  obtain ⟨place, hplace, hold, hslash, hmoved⟩ := nodeAt_of_rename hbeside₂ hfile hrename
  have hne := (ne_of_namesOf_besidePath hbeside₂).2 place hplace
  have hnode' := hmoved hne
  have hkeeps' : t₂.Keeps t' := by
    intro names hnames
    have hplaced : names ≠ place := fun heq => hold (heq ▸ hnames)
    have hwritten : names ≠ dir ++ [name] := fun heq => by
      rw [heq, DirectoryAt, hfile] at hnames
      cases hnames
    rw [DirectoryAt, hnode', if_neg hplaced, if_neg hwritten]
    exact hnames
  have hplace' := hkeeps'.namesOf hplace
  have hbeside' := hkeeps'.namesOf hbeside₂
  refine ⟨read_eq_ok_iff.mpr ⟨place, hplace', ?_, hslash⟩, kind?_eq_none hbeside' ?_, fun names hname hname' => ?_⟩
  · rw [fileAt_eq_some_iff, hnode', if_pos rfl]
  · rw [hnode', if_neg (Ne.symm hne), if_pos rfl]
  · have hplaced : names ≠ place := fun heq => hname (heq ▸ hplace')
    have hwritten : names ≠ dir ++ [name] := fun heq => hname' (heq ▸ hbeside')
    refine (fileAt_congr ?_).trans (hgrows.fileAt names)
    rw [hnode', if_neg hplaced, if_neg hwritten, hnode, if_neg hwritten]

/-- What is written beside a path is read there. -/
theorem read_of_write_beside (hwrite : t.write (besidePath path) content = .ok t') : t'.read (besidePath path) = .ok content := by
  obtain ⟨dir, name, hbeside, hkeeps, hnode⟩ := nodeAt_of_write_beside hwrite
  refine read_eq_ok_iff.mpr ⟨_, hkeeps.namesOf hbeside, ?_, endsInSlash_besidePath path⟩
  rw [fileAt_eq_some_iff, hnode, if_pos rfl]

/-- What is written beside a path touches no other file. -/
theorem keptBut_of_write (hgrows : t.Grows t₁) (hwrite : t₁.write (besidePath path) content = .ok t₂) : KeptBut t t₂ path := by
  obtain ⟨dir, name, hbeside, hkeeps, hnode⟩ := nodeAt_of_write_beside hwrite
  refine keptBut_of_keeps (fun names h => hkeeps names (hgrows.keeps names h)) fun names hnames => ?_
  have hwritten : names ≠ dir ++ [name] := fun heq => hnames (heq ▸ hkeeps.namesOf hbeside)
  refine (fileAt_congr ?_).trans (hgrows.fileAt names)
  rw [hnode, if_neg hwritten]

/-- What was written beside a path can be removed, and then nothing of it is left. -/
theorem exists_cleared_of_write (hgrows : t.Grows t₁) (hwrite : t₁.write (besidePath path) content = .ok t₂) :
    ∃ t', t₂.remove (besidePath path) = .ok t' ∧ KeptBut t t' path ∧ Cleared t t' path := by
  obtain ⟨dir, name, hbeside, hkeeps, hnode⟩ := nodeAt_of_write_beside hwrite
  have hbeside₂ := hkeeps.namesOf hbeside
  have hfile : t₂.nodeAt (dir ++ [name]) = some (some content) := by rw [hnode, if_pos rfl]
  obtain ⟨t', hremove, hnode'⟩ := exists_remove hbeside₂ (endsInSlash_besidePath path) hfile
  have hold : ¬ t₂.DirectoryAt (dir ++ [name]) := by
    rw [DirectoryAt, hfile]
    intro h
    cases h
  have hkeeps' := keeps_of_nodeAt hold hnode'
  have hbeside' := hkeeps'.namesOf hbeside₂
  refine ⟨t', hremove, keptBut_of_keeps (fun names h => hkeeps' names (hkeeps names (hgrows.keeps names h))) ?_, ?_⟩
  · intro names hnames
    have hwritten : names ≠ dir ++ [name] := fun heq => hnames (heq ▸ hbeside')
    refine (fileAt_congr ?_).trans (hgrows.fileAt names)
    rw [hnode', if_neg hwritten, hnode, if_neg hwritten]
  · intro names hnames
    rw [hbeside', Except.ok.injEq] at hnames
    refine Or.inr ?_
    unfold fileAt
    rw [← hnames, hnode', if_pos rfl]
    rfl

/-! ## Disks -/

/-- An operation on a tree takes its full effect, or it fails and takes none. -/
def Whole (op : FileTree → Except FileFault FileTree) (x : StateM FileTree (Except FileFault Unit)) : Prop :=
  ∀ t, (∃ fault, (x.run t).run = (.error fault, t)) ∨ ∃ t', op t = .ok t' ∧ (x.run t).run = (.ok (), t')

/-- A disk whose state is a tree. It shows the tree as it is, and to make directories touches none of the files. Whatever may
fail on it, to write, to move and to remove a file takes its full effect or none. -/
structure Faithful (d : Disk (StateM FileTree)) : Prop where
  shows : ∀ t, Shows t d.toFiles t.files
  makeDirectories : ∀ path (t : FileTree), t.Grows ((d.makeDirectories path).run t).run.2
  write : ∀ path content, Whole (·.write path content) (d.write path content)
  rename : ∀ source target, Whole (·.rename source target) (d.rename source target)
  remove : ∀ path, Whole (·.remove path) (d.remove path)

/-- A text that was written beside a path is left there: it can neither be moved to the path nor be removed. -/
structure Stuck (d : Disk (StateM FileTree)) (t : FileTree) (path text : String) : Prop where
  read : t.read (besidePath path) = .ok text.toUTF8
  rename : ∃ fault, ((d.rename (besidePath path) path).run t).run = (.error fault, t)
  remove : ∃ fault, ((d.remove (besidePath path)).run t).run = (.error fault, t)

theorem whole_changing (op : FileTree → Except FileFault FileTree) : Whole op (changing op) := by
  intro t
  change (∃ fault, changing op t = (.error fault, t)) ∨ ∃ t', op t = .ok t' ∧ changing op t = (.ok (), t')
  unfold changing
  cases op t with
  | error fault => exact Or.inl ⟨fault, rfl⟩
  | ok t' => exact Or.inr ⟨t', rfl, rfl⟩

/-- A disk on which nothing fails but what the tree does not allow is faithful. -/
theorem faithful_disk : Faithful FileTree.disk where
  shows t := ⟨fun _ => rfl, fun _ => rfl, fun _ => rfl⟩
  makeDirectories path t := by
    rcases whole_changing (fun t => t.makeDirectories path.length path) t with ⟨fault, h⟩ | ⟨t', hmade, h⟩
    · change t.Grows ((changing _).run t).run.2
      rw [h]
      exact .refl t
    · change t.Grows ((changing _).run t).run.2
      rw [h]
      exact grows_makeDirectories hmade
  write path content := whole_changing _
  rename source target := whole_changing _
  remove path := whole_changing _

/-! ## Steps that can fail -/

/-- What a step gives on a tree, and the tree that it leaves. -/
def after {α : Type} (x : ExceptT Failure (StateM FileTree) α) (t : FileTree) : Except Failure α × FileTree :=
  (x.run.run t).run

variable {α β : Type} {x : ExceptT Failure (StateM FileTree) α} {f : α → ExceptT Failure (StateM FileTree) β}

theorem after_bind (x : ExceptT Failure (StateM FileTree) α) (f : α → ExceptT Failure (StateM FileTree) β) (t : FileTree) :
    after (x >>= f) t =
      match after x t with
      | (.ok v, t') => after (f v) t'
      | (.error failure, t') => (.error failure, t') := by
  unfold after
  rw [ExceptT.run_bind, StateT.run_bind, Id.run_bind]
  rcases (x.run.run t).run with ⟨failure | v, t'⟩ <;> rfl

theorem after_bind_ok {v : α} (h : after x t = (.ok v, t')) : after (x >>= f) t = after (f v) t' := by
  rw [after_bind, h]

theorem after_bind_error {failure : Failure} (h : after x t = (.error failure, t')) :
    after (x >>= f) t = (.error failure, t') := by
  rw [after_bind, h]

/-- An operation that fails is given its place among the failures. -/
theorem after_orFail {ε : Type} (failure : ε → Failure) (x : StateM FileTree (Except ε α)) (t : FileTree) :
    after (orFail failure x) t = ((x.run t).run.1.mapError failure, (x.run t).run.2) := rfl

/-- An operation whose outcome is looked at never fails itself. -/
theorem after_lift (x : StateM FileTree α) (t : FileTree) :
    after (liftM x) t = (.ok (x.run t).run.1, (x.run t).run.2) := rfl

/-- Write a text beside a file and move it into its place. The directory that it lies in must exist. -/
def moveInto (d : Disk (StateM FileTree)) (path text : String) : ExceptT Failure (StateM FileTree) Unit := do
  let beside := besidePath path
  orFail (.ofFile ("cannot write " ++ quoted beside)) (d.write beside text.toUTF8)
  match ← d.rename beside path with
  | .ok () => return
  | .error fault =>
    let _ ← d.remove beside
    throw (.ofFile ("cannot move output to " ++ quoted path) fault)

theorem writeWhole_eq (d : Disk (StateM FileTree)) (path text : String) :
    writeWhole d path text =
      match (Path.parent? path).filter (!·.isEmpty) with
      | none => moveInto d path text
      | some parent =>
        orFail (.ofFile ("cannot create " ++ quoted parent)) (d.makeDirectories parent) >>= fun _ => moveInto d path text := rfl

/-- A step delivers a document, or leaves the other files as they were and nothing behind that can be moved or removed. -/
def DeliversOrKeeps (d : Disk (StateM FileTree)) (t : FileTree) (path text : String) (res : Except Failure Unit × FileTree) :
    Prop :=
  (∃ t', res = (.ok (), t') ∧ Delivered t t' path text.toUTF8) ∨
    ∃ failure t', res = (.error failure, t') ∧ KeptBut t t' path ∧ (Cleared t t' path ∨ Stuck d t' path text)

variable {d : Disk (StateM FileTree)}

section

variable (hd : Faithful d)
include hd

theorem after_moveInto (path text : String) (hgrows : t.Grows t₁) :
    DeliversOrKeeps d t path text (after (moveInto d path text) t₁) := by
  unfold moveInto
  dsimp only
  have hwritten := after_orFail (.ofFile ("cannot write " ++ quoted (besidePath path)))
    (d.write (besidePath path) text.toUTF8) t₁
  rcases hd.write (besidePath path) text.toUTF8 t₁ with ⟨fault, hfault⟩ | ⟨t₂, hwrite, hdone⟩
  · rw [hfault] at hwritten
    rw [after_bind_error hwritten]
    exact Or.inr ⟨_, t₁, rfl, keptBut_of_grows hgrows, Or.inl (cleared_of_grows hgrows)⟩
  · rw [hdone] at hwritten
    rw [after_bind_ok hwritten]
    have hmoved := after_lift (d.rename (besidePath path) path) t₂
    rcases hd.rename (besidePath path) path t₂ with ⟨fault, hunmoved⟩ | ⟨t', hrename, hdone⟩
    · rw [hunmoved] at hmoved
      rw [after_bind_ok hmoved]
      obtain ⟨t', hremove, hkept, hcleared⟩ := exists_cleared_of_write hgrows hwrite
      have hremoved := after_lift (d.remove (besidePath path)) t₂
      rcases hd.remove (besidePath path) t₂ with ⟨fault', hunremoved⟩ | ⟨t'', hremove', hdone⟩
      · rw [hunremoved] at hremoved
        rw [after_bind_ok hremoved]
        exact Or.inr ⟨_, t₂, rfl, keptBut_of_write hgrows hwrite,
          Or.inr ⟨read_of_write_beside hwrite, ⟨fault, hunmoved⟩, fault', hunremoved⟩⟩
      · rw [hdone] at hremoved
        rw [after_bind_ok hremoved]
        obtain rfl : t' = t'' := Except.ok.inj (hremove.symm.trans hremove')
        exact Or.inr ⟨_, t', rfl, hkept, Or.inl hcleared⟩
    · rw [hdone] at hmoved
      rw [after_bind_ok hmoved]
      exact Or.inl ⟨t', rfl, delivered_of_rename hgrows hwrite hrename⟩

/-- A document is written as a whole, or not at all. -/
theorem after_writeWhole (path text : String) (t : FileTree) :
    DeliversOrKeeps d t path text (after (writeWhole d path text) t) := by
  rw [writeWhole_eq]
  split
  · exact after_moveInto hd path text (.refl t)
  · rename_i parent hparent
    have hmade := after_orFail (.ofFile ("cannot create " ++ quoted parent)) (d.makeDirectories parent) t
    have hgrows := hd.makeDirectories parent t
    rcases hres : ((d.makeDirectories parent).run t).run with ⟨fault | v, t₁⟩
    · rw [hres] at hmade hgrows
      rw [after_bind_error hmade]
      exact Or.inr ⟨_, t₁, rfl, keptBut_of_grows hgrows, Or.inl (cleared_of_grows hgrows)⟩
    · rw [hres] at hmade hgrows
      rw [after_bind_ok hmade]
      exact after_moveInto hd path text hgrows

end

/-! ## Commands -/

/-- The text of the document that is asked for: what the theme of the site gives for the runtime, routed to the name that the
theme is registered under, within the bound that is asked for, with the templates as an engine takes them in. -/
def Composes (engine : Engine) (f : Files Id) (r : RenderRequest) (text : String) : Prop :=
  ∃ manifest catalog runtime theme library,
    (Site.loadManifest f r.site).run = .ok manifest ∧ (Site.loadCatalog f r.site manifest).run = .ok catalog ∧
    (loadRuntime f r).run = .ok runtime ∧ catalog.theme (r.theme?.getD manifest.theme) = .ok theme ∧
    (Site.loadLibrary f (Site.viewsPath r.site) engine).run = .ok library ∧
    ((rendererOf catalog library
        { manifest.render with maxIterations := r.maxIterations?.getD manifest.render.maxIterations }).render theme
      { runtime with route := { runtime.route with theme := theme.name } } ()).1 = .ok text

theorem run_bind_eq_ok_iff {x : ExceptT Failure Id α} {f : α → ExceptT Failure Id β} {w : β} :
    (x >>= f).run.run = .ok w ↔ ∃ v, x.run.run = .ok v ∧ (f v).run.run = .ok w := by
  rw [ExceptT.run_bind, Id.run_bind]
  rcases x.run.run with failure | v
  · exact ⟨nofun, nofun⟩
  · exact ⟨fun h => ⟨v, rfl, h⟩, fun ⟨v', hv, h⟩ => Except.ok.inj hv ▸ h⟩

theorem run_orFail_eq_ok_iff {ε : Type} {failure : ε → Failure} {x : Id (Except ε α)} {v : α} :
    (orFail failure x).run.run = .ok v ↔ x.run = .ok v := by
  change x.run.mapError failure = .ok v ↔ x.run = .ok v
  rcases x.run with e | w
  · exact ⟨nofun, nofun⟩
  · change (.ok w : Except Failure α) = .ok v ↔ (.ok w : Except ε α) = .ok v
    rw [Except.ok.injEq, Except.ok.injEq]

/-- The document that is rendered is the one that is asked for. -/
theorem exists_document_iff {engine : Engine} {f : Files Id} {r : RenderRequest} {text : String} :
    (∃ document, (renderDocument f r engine).run.run = .ok document ∧ document.text = text) ↔ Composes engine f r text := by
  unfold renderDocument loadSite
  simp only [run_bind_eq_ok_iff, run_orFail_eq_ok_iff, Id.run_pure, ExceptT.run_pure]
  constructor
  · rintro ⟨_, ⟨_, ⟨manifest, hmanifest, catalog, hcatalog, ⟨⟩⟩, runtime, hruntime, theme, htheme, library, hlibrary, text,
      htext, ⟨⟩⟩, rfl⟩
    exact ⟨manifest, catalog, runtime, theme, library, hmanifest, hcatalog, hruntime, htheme, hlibrary, htext⟩
  · rintro ⟨manifest, catalog, runtime, theme, library, hmanifest, hcatalog, hruntime, htheme, hlibrary, htext⟩
    exact ⟨_, ⟨_, ⟨manifest, hmanifest, catalog, hcatalog, rfl⟩, runtime, hruntime, theme, htheme, library, hlibrary, text,
      htext, rfl⟩, rfl⟩

theorem after_renderDocument (hd : Faithful d) (engine : Engine) (r : RenderRequest) (t : FileTree) :
    after (renderDocument d.toFiles r engine) t = ((renderDocument t.files r engine).run.run, t) :=
  (hd.shows t).renderDocument r engine

/-- A command that is understood ends with what it gives or as it fails. -/
theorem run_of_read (engine : Engine) {words : List String} {command : Command} (h : Command.read words = .ok command)
    (t : FileTree) :
    ((run d words engine).run t).run =
      match after (perform d engine command) t with
      | (.ok text, t') => (.done text, t')
      | (.error failure, t') => (.failed failure, t') := by
  unfold run
  rw [h]
  unfold after
  change ((((perform d engine command).run >>= _).run t).run) = _
  rw [StateT.run_bind, Id.run_bind]
  rcases ((perform d engine command).run.run t).run with ⟨failure | text, t'⟩ <;> rfl

/-- A site with one theme, and a directory with an older page and what was once left beside it. -/
def stale : FileTree :=
  .directory [
    ("out", .directory [("page.html", .file "old".toUTF8), ("page.html.weave.tmp", .file "left".toUTF8)]),
    ("site", .directory [("views", .directory [("theme", .directory [("main.tera", .file "new".toUTF8)])])])]

/-- The words that ask for a theme of the site to be written to a file. -/
def wordsFor (theme out : String) : List String :=
  ["render", "site", "--theme", theme, "--max-iterations", "3", "--out", out]

/-- The request that these words are for the page. -/
def requestFor (theme : String) : RenderRequest :=
  { site := "site", theme? := some theme, out? := some "out/page.html", maxIterations? := some 3 }

/-- A disk that lets no file be moved or removed. -/
def immovableDisk : Disk (StateM FileTree) :=
  { FileTree.disk with
    rename := fun _ _ => pure (.error (.system 1 "Operation not permitted"))
    remove := fun _ => pure (.error (.system 1 "Operation not permitted")) }

/-- A disk on which the file at a path and the one beside it are one file with two names: what is written to it is read under
both, and to move it from the one to the other does nothing. -/
def linkedDisk (path : String) : Disk (StateM FileTree) :=
  { FileTree.disk with
    write := fun target content =>
      if target = path ∨ target = besidePath path then
        changing fun t => (t.write path content).bind (·.write (besidePath path) content)
      else FileTree.disk.write target content
    rename := fun source target =>
      if source = besidePath path ∧ target = path then pure (.ok ()) else FileTree.disk.rename source target }

end Cli

end Folio
