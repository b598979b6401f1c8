import Folio.Site.FileTree

/-!
# What the operations on a tree change

A tree is seen by its nodes: `nodeAt` says whether a file, with its content, or a directory lies at some names. Putting a file,
or an empty directory, or nothing where no directory lies changes that one node (`nodeAt_put`). Where a path leads depends on
the directories alone (`Keeps.namesOf`). So making directories leaves every file as it is (`grows_makeDirectories`), and
writing, moving and removing a file change the nodes that their paths lead to and no others (`nodeAt_of_write`,
`nodeAt_of_rename`, `exists_remove`).
-/

namespace Folio.FileTree

/-! ## Nodes -/

/-- The content of a file; a directory has none. -/
def content? : FileTree → Option ByteArray
  | file content => some content
  | directory _ => none

/-- What lies at some names: nothing, a file with its content, or a directory. -/
def nodeAt (t : FileTree) (names : List String) : Option (Option ByteArray) :=
  (t.at? names).toOption.map content?

/-- A directory lies at the names. -/
def DirectoryAt (t : FileTree) (names : List String) : Prop :=
  t.nodeAt names = some none

/-- The content of the file at some names. -/
def fileAt (t : FileTree) (names : List String) : Option ByteArray :=
  (t.nodeAt names).bind id

variable {t t' : FileTree} {front names names' : List String} {name path : String} {content : ByteArray}
  {entries : List (String × FileTree)}

theorem nodeAt_nil (t : FileTree) : t.nodeAt [] = some t.content? := by
  unfold nodeAt at?
  rfl

theorem nodeAt_file_cons (content : ByteArray) (name : String) (names : List String) :
    (file content).nodeAt (name :: names) = none := by
  unfold nodeAt at?
  rfl

theorem nodeAt_directory_cons (entries : List (String × FileTree)) (name : String) (names : List String) :
    (directory entries).nodeAt (name :: names) = (Keyed.get? entries name).bind fun child => child.nodeAt names := by
  unfold nodeAt
  rw [at?]
  cases Keyed.get? entries name <;> rfl

theorem directoryAt_iff : t.DirectoryAt names ↔ ∃ entries, t.at? names = .ok (directory entries) := by
  unfold DirectoryAt nodeAt
  rcases t.at? names with e | content | entries
  · exact ⟨nofun, nofun⟩
  · exact ⟨nofun, nofun⟩
  · exact ⟨fun _ => ⟨entries, rfl⟩, fun _ => rfl⟩

theorem nodeAt_eq_file_iff : t.nodeAt names = some (some content) ↔ t.at? names = .ok (file content) := by
  unfold nodeAt
  rcases t.at? names with e | content' | entries
  · exact ⟨nofun, nofun⟩
  · change some (some content') = some (some content) ↔ (.ok (file content') : Except FileFault FileTree) = .ok (file content)
    rw [Option.some.injEq, Option.some.injEq, Except.ok.injEq, file.injEq]
  · exact ⟨nofun, nofun⟩

/-- A file is known by what lies there. -/
theorem fileAt_congr (h : t'.nodeAt names = t.nodeAt names) : t'.fileAt names = t.fileAt names := by
  unfold fileAt
  rw [h]

theorem fileAt_eq_some_iff : t.fileAt names = some content ↔ t.nodeAt names = some (some content) := by
  unfold fileAt
  rcases t.nodeAt names with _ | _ | content'
  · exact ⟨nofun, nofun⟩
  · exact ⟨nofun, nofun⟩
  · change some content' = some content ↔ some (some content') = some (some content)
    rw [Option.some.injEq, Option.some.injEq, Option.some.injEq]

/-- A root in which something lies below is a directory. -/
theorem eq_directory_of_nodeAt_cons (h : t.nodeAt (name :: names) ≠ none) : ∃ entries, t = directory entries := by
  cases t with
  | file content => exact absurd (nodeAt_file_cons content name names) h
  | directory entries => exact ⟨entries, rfl⟩

/-- What lies above something is a directory. -/
theorem directoryAt_of_below (h : t.nodeAt (front ++ name :: names) ≠ none) : t.DirectoryAt front := by
  induction front generalizing t with
  | nil =>
    obtain ⟨entries, rfl⟩ := eq_directory_of_nodeAt_cons h
    exact nodeAt_nil _
  | cons first rest ih =>
    obtain ⟨entries, rfl⟩ := eq_directory_of_nodeAt_cons h
    rw [List.cons_append, nodeAt_directory_cons] at h
    unfold DirectoryAt
    rw [nodeAt_directory_cons]
    cases hchild : Keyed.get? entries first with
    | none =>
      rw [hchild] at h
      exact absurd rfl h
    | some child =>
      rw [hchild] at h
      exact ih h

theorem directoryAt_root (h : t.nodeAt (front ++ [name]) ≠ none) : t.DirectoryAt [] := by
  cases front with
  | nil => exact directoryAt_of_below h
  | cons first rest =>
    have hbelow : t.nodeAt ([] ++ first :: (rest ++ [name])) ≠ none := h
    exact directoryAt_of_below hbelow

/-- A tree in which nothing lies below the root. -/
def Leaf (t : FileTree) : Prop :=
  ∀ name names, t.nodeAt (name :: names) = none

theorem leaf_file (content : ByteArray) : (file content).Leaf :=
  nodeAt_file_cons content

theorem leaf_empty : (directory []).Leaf := by
  intro name names
  rw [nodeAt_directory_cons]
  rfl

theorem leaf_of_not_directory (h : t.nodeAt [] ≠ some none) : t.Leaf := by
  cases t with
  | file content => exact leaf_file content
  | directory entries => exact absurd (nodeAt_nil _) h

theorem get?_entriesWith (entries : Keyed FileTree) (name key : String) (new? : Option FileTree) :
    Keyed.get? (entriesWith entries name new?) key = if key = name then new? else Keyed.get? entries key := by
  cases new? with
  | none => exact Keyed.get?_erase entries name key
  | some new => exact Keyed.get?_insert entries name key new

/-- A node below the root is put into the tree that it lies in. -/
theorem put_cons (new? : Option FileTree) (first : String) (hne : names ≠ []) :
    (directory entries).put new? (first :: names) =
      match Keyed.get? entries first with
      | some child => directory (Keyed.insert entries first (child.put new? names))
      | none => directory entries := by
  cases names with
  | nil => exact absurd rfl hne
  | cons second rest =>
    exact put.eq_def _ _ _

/-- Among the entries of a directory, something without anything below it takes the place of what is no directory. -/
theorem nodeAt_entriesWith (new? : Option FileTree) (hold : ¬ (directory entries).DirectoryAt [name])
    (hnew : ∀ new, new? = some new → new.Leaf) (names : List String) :
    (directory (entriesWith entries name new?)).nodeAt names =
      if names = [name] then new?.map content? else (directory entries).nodeAt names := by
  rw [DirectoryAt, nodeAt_directory_cons] at hold
  cases names with
  | nil => rfl
  | cons first rest =>
    rw [nodeAt_directory_cons, nodeAt_directory_cons, get?_entriesWith]
    by_cases hfirst : first = name
    · rw [hfirst, if_pos rfl]
      cases rest with
      | nil =>
        rw [if_pos rfl]
        cases new? with
        | none => rfl
        | some new => exact nodeAt_nil new
      | cons second rest =>
        rw [if_neg (by simp)]
        -- neither what was there nor what is there now has anything below it
        have hbefore : ((Keyed.get? entries name).bind fun child => child.nodeAt (second :: rest)) = none := by
          cases hchild : Keyed.get? entries name with
          | none => rfl
          | some child =>
            rw [hchild] at hold
            exact leaf_of_not_directory hold second rest
        rw [hbefore]
        cases hcase : new? with
        | none => rfl
        | some new => exact hnew new hcase second rest
    · rw [if_neg hfirst, if_neg fun h => hfirst (List.cons.inj h).1]

/-- Putting something without anything below it, where no directory lies, changes that node and no other. -/
theorem nodeAt_put (new? : Option FileTree) (hparent : t.DirectoryAt front) (hold : ¬ t.DirectoryAt (front ++ [name]))
    (hnew : ∀ new, new? = some new → new.Leaf) (names : List String) :
    (t.put new? (front ++ [name])).nodeAt names =
      if names = front ++ [name] then new?.map content? else t.nodeAt names := by
  induction front generalizing t names with
  | nil =>
    obtain ⟨entries, hroot⟩ := directoryAt_iff.mp hparent
    rw [at?, Except.ok.injEq] at hroot
    rw [hroot] at hold ⊢
    exact nodeAt_entriesWith new? hold hnew names
  | cons above front ih =>
    unfold DirectoryAt at hparent hold
    obtain ⟨entries, rfl⟩ := eq_directory_of_nodeAt_cons (hparent ▸ Option.some_ne_none _)
    rw [nodeAt_directory_cons] at hparent
    rw [List.cons_append, nodeAt_directory_cons] at hold
    rw [List.cons_append, put_cons new? above (List.append_ne_nil_of_right_ne_nil _ (List.cons_ne_nil _ _))]
    cases hchild : Keyed.get? entries above with
    | none =>
      rw [hchild] at hparent
      cases hparent
    | some child =>
      rw [hchild] at hparent hold
      dsimp only
      cases names with
      | nil => rfl
      | cons first rest =>
        rw [nodeAt_directory_cons, nodeAt_directory_cons, Keyed.get?_insert]
        by_cases hfirst : first = above
        · rw [hfirst, if_pos rfl, hchild]
          have hput := ih hparent hold rest
          by_cases hrest : rest = front ++ [name]
          · rw [hrest, if_pos rfl]
            rw [hrest, if_pos rfl] at hput
            exact hput
          · rw [if_neg fun h => hrest (List.cons.inj h).2]
            rw [if_neg hrest] at hput
            exact hput
        · rw [if_neg hfirst, if_neg fun h => hfirst (List.cons.inj h).1]

/-- A file can be put where no directory lies. -/
theorem nodeAt_put_file (content : ByteArray) (hparent : t.DirectoryAt front) (hold : ¬ t.DirectoryAt (front ++ [name]))
    (names : List String) :
    (t.put (some (file content)) (front ++ [name])).nodeAt names =
      if names = front ++ [name] then some (some content) else t.nodeAt names :=
  nodeAt_put _ hparent hold (fun _ hnew => Option.some.inj hnew ▸ leaf_file content) names

/-! ## Where paths lead -/

/-- Every directory of the first tree is one of the second. -/
def Keeps (t t' : FileTree) : Prop :=
  ∀ names, t.DirectoryAt names → t'.DirectoryAt names

/-- Where one segment leads from some names, the names being the last first. -/
def stepTo (here : List String) (segment : String) : List String :=
  if segment = ".." then here.tail else segment :: here

theorem follow_cons_iff {here found : List String} {segment : String} {segments : List String} :
    t.follow here (segment :: segments) = .ok found ↔
      t.DirectoryAt here.reverse ∧ t.follow (stepTo here segment) segments = .ok found := by
  rw [directoryAt_iff]
  unfold stepTo
  by_cases hup : segment = ".."
  all_goals
    rcases hat : t.at? here.reverse with e | content | entries
    · simp [follow, hup, hat]
    · simp [follow, hup, hat]
    · simp [follow, hup, hat]

theorem follow_append_iff {here found : List String} {front back : List String} :
    t.follow here (front ++ back) = .ok found ↔
      ∃ mid, t.follow here front = .ok mid ∧ t.follow mid back = .ok found := by
  induction front generalizing here with
  | nil =>
    constructor
    · exact fun h => ⟨here, by rw [follow], h⟩
    · rintro ⟨mid, hmid, h⟩
      rw [follow, Except.ok.injEq] at hmid
      rw [hmid]
      exact h
  | cons segment rest ih =>
    rw [List.cons_append, follow_cons_iff, ih]
    constructor
    · rintro ⟨hdirectory, mid, hmid, h⟩
      exact ⟨mid, follow_cons_iff.mpr ⟨hdirectory, hmid⟩, h⟩
    · rintro ⟨mid, hmid, h⟩
      obtain ⟨hdirectory, hmid⟩ := follow_cons_iff.mp hmid
      exact ⟨hdirectory, mid, hmid, h⟩

/-- What is followed in a tree is followed in one that keeps its directories. -/
theorem Keeps.follow (h : t.Keeps t') {here found segments : List String} (hfound : t.follow here segments = .ok found) :
    t'.follow here segments = .ok found := by
  induction segments generalizing here with
  | nil =>
    rw [FileTree.follow] at hfound ⊢
    exact hfound
  | cons segment rest ih =>
    obtain ⟨hdirectory, hrest⟩ := follow_cons_iff.mp hfound
    exact follow_cons_iff.mpr ⟨h _ hdirectory, ih hrest⟩

/-- What is followed leads into a directory. -/
theorem directoryAt_of_follow {here found segments : List String}
    (hhere : ∀ name rest, here = name :: rest → t.DirectoryAt rest.reverse) (h : t.follow here segments = .ok found) :
    ∀ name rest, found = name :: rest → t.DirectoryAt rest.reverse := by
  induction segments generalizing here with
  | nil =>
    rw [follow, Except.ok.injEq] at h
    rw [← h]
    exact hhere
  | cons segment segments ih =>
    obtain ⟨hdirectory, hrest⟩ := follow_cons_iff.mp h
    refine ih (fun name rest hstep => ?_) hrest
    unfold stepTo at hstep
    split at hstep
    · cases here with
      | nil => cases hstep
      | cons last above =>
        rw [List.tail_cons] at hstep
        rw [hstep, List.reverse_cons, List.reverse_cons, List.append_assoc] at hdirectory
        exact directoryAt_of_below (hdirectory ▸ Option.some_ne_none _)
    · rw [← (List.cons.inj hstep).2]
      exact hdirectory

theorem namesOf_eq_ok_iff : t.namesOf path = .ok names ↔ path ≠ "" ∧ t.follow [] (Path.segments path) = .ok names.reverse := by
  unfold namesOf
  by_cases hempty : path = ""
  · rw [if_pos (by rw [hempty]; rfl)]
    exact ⟨nofun, fun h => absurd hempty h.1⟩
  · rw [if_neg (by simpa using hempty)]
    rcases t.follow [] (Path.segments path) with e | found
    · exact ⟨nofun, nofun⟩
    · change (.ok found.reverse : Except FileFault (List String)) = .ok names ↔ _
      rw [Except.ok.injEq, Except.ok.injEq, List.reverse_eq_iff]
      exact ⟨fun h => ⟨hempty, h⟩, fun h => h.2⟩

theorem Keeps.namesOf (h : t.Keeps t') (hnames : t.namesOf path = .ok names) : t'.namesOf path = .ok names := by
  obtain ⟨hempty, hfollow⟩ := namesOf_eq_ok_iff.mp hnames
  exact namesOf_eq_ok_iff.mpr ⟨hempty, h.follow hfollow⟩

/-- What a path leads to lies in a directory. -/
theorem directoryAt_of_namesOf (h : t.namesOf path = .ok (front ++ [name])) : t.DirectoryAt front := by
  have hfollow := directoryAt_of_follow (fun _ _ hnil => by cases hnil) (namesOf_eq_ok_iff.mp h).2 name front.reverse
    (by rw [List.reverse_append]; rfl)
  rw [List.reverse_reverse] at hfollow
  exact hfollow

/-- A file is found where its path leads. -/
theorem find_eq_file_iff : t.find path = .ok (file content) ↔
    ∃ names, t.namesOf path = .ok names ∧ t.fileAt names = some content ∧ Path.endsInSlash path = false := by
  unfold find
  cases hnames : t.namesOf path with
  | error e => exact ⟨nofun, nofun⟩
  | ok names =>
    dsimp only
    have hfile : t.fileAt names = some content ↔ t.at? names = .ok (file content) :=
      fileAt_eq_some_iff.trans nodeAt_eq_file_iff
    simp only [Except.ok.injEq, exists_eq_left', hfile]
    rcases t.at? names with e | content' | entries
    · exact ⟨nofun, nofun⟩
    · dsimp only
      cases Path.endsInSlash path with
      | true => exact ⟨nofun, nofun⟩
      | false => simp
    · exact ⟨nofun, nofun⟩

theorem read_eq_ok_iff : t.read path = .ok content ↔
    ∃ names, t.namesOf path = .ok names ∧ t.fileAt names = some content ∧ Path.endsInSlash path = false := by
  rw [← find_eq_file_iff]
  unfold read
  rcases t.find path with e | content' | entries
  · exact ⟨nofun, nofun⟩
  · dsimp only
    rw [Except.ok.injEq, Except.ok.injEq, file.injEq]
  · exact ⟨nofun, nofun⟩

/-- Nothing is found where nothing lies. -/
theorem kind?_eq_none (hnames : t.namesOf path = .ok names) (h : t.nodeAt names = none) :
    (t.files.kind? path).run = none := by
  change (t.find path).toOption.map kind = none
  unfold find
  rw [hnames]
  unfold nodeAt at h
  dsimp only
  revert h
  rcases t.at? names with e | found
  · exact fun _ => rfl
  · exact nofun

/-! ## Making directories -/

/-- Where no directory lies something else can be put, and every directory is kept. -/
theorem keeps_of_nodeAt {new? : Option (Option ByteArray)} (hold : ¬ t.DirectoryAt names')
    (h : ∀ names, t'.nodeAt names = if names = names' then new? else t.nodeAt names) : t.Keeps t' := by
  intro names hnames
  have hne : names ≠ names' := fun heq => hold (heq ▸ hnames)
  rw [DirectoryAt, h, if_neg hne]
  exact hnames

/-- The files stay as they are, and so do the directories but for new ones. -/
structure Grows (t t' : FileTree) : Prop where
  fileAt : ∀ names, t'.fileAt names = t.fileAt names
  keeps : t.Keeps t'

theorem Grows.refl (t : FileTree) : t.Grows t := ⟨fun _ => rfl, fun _ h => h⟩

theorem Grows.trans {t'' : FileTree} (h : t.Grows t') (h' : t'.Grows t'') : t.Grows t'' :=
  ⟨fun names => (h'.fileAt names).trans (h.fileAt names), fun names hnames => h'.keeps names (h.keeps names hnames)⟩

/-- Where nothing lies a directory can be put, and every file stays as it is. -/
theorem grows_of_nodeAt (hnone : t.nodeAt names' = none)
    (h : ∀ names, t'.nodeAt names = if names = names' then some none else t.nodeAt names) : t.Grows t' := by
  refine ⟨fun names => ?_, keeps_of_nodeAt (fun hold => by rw [DirectoryAt, hnone] at hold; cases hold) h⟩
  by_cases hname : names = names'
  · unfold fileAt
    rw [h, if_pos hname, hname, hnone]
    rfl
  · exact fileAt_congr (by rw [h, if_neg hname])

/-- Names that do not lead to the root lead into something. -/
theorem exists_name (h : names ≠ []) : ∃ name, names = names.dropLast ++ [name] :=
  ⟨names.getLast h, (List.dropLast_concat_getLast h).symm⟩

theorem nodeAt_of_error {e : FileFault} (h : t.at? names = .error e) : t.nodeAt names = none ∧ names ≠ [] := by
  refine ⟨by rw [nodeAt, h]; rfl, ?_⟩
  rintro rfl
  rw [at?] at h
  cases h

theorem grows_makeDirectory (h : t.makeDirectory path = .ok t') : t.Grows t' := by
  unfold makeDirectory at h
  split at h
  · cases h
  · rename_i names hnames
    split at h
    · cases h
    · rename_i habsent
      obtain ⟨hnone, hne⟩ := nodeAt_of_error habsent
      obtain ⟨name, hname⟩ := exists_name hne
      rw [hname] at hnone
      split at h
      · rename_i entries hparent
        rw [hname, Except.ok.injEq] at h
        have hold : ¬ t.DirectoryAt (names.dropLast ++ [name]) := by
          rw [DirectoryAt, hnone]
          exact (Option.some_ne_none _).symm
        have hput := nodeAt_put (some (directory [])) (directoryAt_iff.mpr ⟨entries, hparent⟩) hold
          (fun _ hnew => Option.some.inj hnew ▸ leaf_empty)
        rw [h] at hput
        exact grows_of_nodeAt hnone hput
      · cases h
      · cases h
    · cases h

theorem grows_ensureDirectory (h : t.ensureDirectory path = .ok t') : t.Grows t' := by
  unfold ensureDirectory at h
  split at h
  · rename_i hmade
    rw [← Except.ok.inj h]
    exact grows_makeDirectory hmade
  · split at h
    · rw [← Except.ok.inj h]
      exact .refl t
    · cases h

/-- Making directories leaves every file as it is. -/
theorem grows_makeDirectories {bound : Nat} (h : t.makeDirectories bound path = .ok t') : t.Grows t' := by
  induction bound generalizing path t' with
  | zero => exact grows_ensureDirectory h
  | succ bound ih =>
    rw [makeDirectories] at h
    split at h
    · rw [← Except.ok.inj h]
      exact .refl t
    · split at h
      · rename_i hmade
        rw [← Except.ok.inj h]
        exact grows_makeDirectory hmade
      · split at h
        · cases h
        · rename_i parent hparent
          cases habove : t.makeDirectories bound parent with
          | error e =>
            rw [habove] at h
            cases h
          | ok above =>
            rw [habove] at h
            exact (ih habove).trans (grows_ensureDirectory h)
      · split at h
        · rw [← Except.ok.inj h]
          exact .refl t
        · cases h

/-! ## Writing, moving and removing files -/

/-- A file can only be placed where no directory lies, in one, and under a path that does not end in a slash. -/
theorem of_placeOf (h : t.placeOf path = .ok names) :
    t.namesOf path = .ok names ∧ ¬ t.DirectoryAt names ∧ Path.endsInSlash path = false := by
  unfold placeOf at h
  split at h
  · cases h
  · rename_i found hnames
    split at h
    · cases h
    · rename_i content hfile
      split at h
      · cases h
      · rename_i hslash
        rw [← Except.ok.inj h]
        refine ⟨hnames, ?_, Bool.eq_false_iff.mpr hslash⟩
        rw [DirectoryAt, nodeAt_eq_file_iff.mpr hfile]
        exact nofun
    · rename_i habsent
      split at h
      · split at h
        · cases h
        · rename_i hslash
          rw [← Except.ok.inj h]
          refine ⟨hnames, ?_, Bool.eq_false_iff.mpr hslash⟩
          rw [DirectoryAt, (nodeAt_of_error habsent).1]
          exact nofun
      · cases h
      · cases h
    · cases h

theorem exists_namesOf_of_write (h : t.write path content = .ok t') : ∃ names, t.namesOf path = .ok names := by
  unfold write at h
  cases hplace : t.placeOf path with
  | error e =>
    rw [hplace] at h
    cases h
  | ok place => exact ⟨place, (of_placeOf hplace).1⟩

/-- A file that is written lies where its path leads, and nothing else is changed. -/
theorem nodeAt_of_write (hnames : t.namesOf path = .ok (front ++ [name])) (h : t.write path content = .ok t') :
    ¬ t.DirectoryAt (front ++ [name]) ∧
      ∀ names, t'.nodeAt names = if names = front ++ [name] then some (some content) else t.nodeAt names := by
  unfold write at h
  cases hplace : t.placeOf path with
  | error e =>
    rw [hplace] at h
    cases h
  | ok place =>
    obtain ⟨hplaced, hold, -⟩ := of_placeOf hplace
    rw [hnames, Except.ok.injEq] at hplaced
    rw [hplace, ← hplaced] at h
    rw [← hplaced] at hold
    rw [← Except.ok.inj h]
    exact ⟨hold, nodeAt_put_file content (directoryAt_of_namesOf hnames) hold⟩

/-- Without a file that was there nothing else is changed. -/
theorem nodeAt_put_none (hnames : t.namesOf path = .ok (front ++ [name]))
    (hfile : t.nodeAt (front ++ [name]) = some (some content)) (names : List String) :
    (t.put none (front ++ [name])).nodeAt names = if names = front ++ [name] then none else t.nodeAt names := by
  refine nodeAt_put none (directoryAt_of_namesOf hnames) ?_ nofun names
  rw [DirectoryAt, hfile]
  exact nofun

/-- A file that is there can be removed, and nothing else is changed. -/
theorem exists_remove (hnames : t.namesOf path = .ok (front ++ [name])) (hslash : Path.endsInSlash path = false)
    (hfile : t.nodeAt (front ++ [name]) = some (some content)) :
    ∃ t', t.remove path = .ok t' ∧
      ∀ names, t'.nodeAt names = if names = front ++ [name] then none else t.nodeAt names := by
  have hfound : t.find path = .ok (file content) := find_eq_file_iff.mpr ⟨_, hnames, fileAt_eq_some_iff.mpr hfile, hslash⟩
  refine ⟨t.put none (front ++ [name]), ?_, nodeAt_put_none hnames hfile⟩
  unfold remove
  rw [hfound, hnames]
  rfl

/-- A file that is moved lies where the other path leads, no longer where its own does, and nothing else is changed. -/
theorem nodeAt_of_rename {source target : String} (hnames : t.namesOf source = .ok (front ++ [name]))
    (hfile : t.nodeAt (front ++ [name]) = some (some content)) (h : t.rename source target = .ok t') :
    ∃ place, t.namesOf target = .ok place ∧ ¬ t.DirectoryAt place ∧ Path.endsInSlash target = false ∧
      (place ≠ front ++ [name] → ∀ names, t'.nodeAt names =
        if names = place then some (some content) else if names = front ++ [name] then none else t.nodeAt names) := by
  unfold rename at h
  split at h
  · cases h
  · cases h
  · rename_i content' hfound
    split at h
    · cases h
    · cases hplace : t.placeOf target with
      | error e =>
        rw [hnames, hplace] at h
        cases h
      | ok place =>
        obtain ⟨htarget, hold, hslash⟩ := of_placeOf hplace
        refine ⟨place, htarget, hold, hslash, fun hne => ?_⟩
        have hcontent : content' = content := by
          obtain ⟨names, hnames', hfile', -⟩ := find_eq_file_iff.mp hfound
          rw [hnames, Except.ok.injEq] at hnames'
          rw [← hnames', fileAt_eq_some_iff, hfile, Option.some.injEq, Option.some.injEq] at hfile'
          exact hfile'.symm
        rw [hnames, hplace, hcontent] at h
        change (.ok (if front ++ [name] = place then t else _) : Except FileFault FileTree) = .ok t' at h
        rw [if_neg (Ne.symm hne), Except.ok.injEq] at h
        have hremoved := nodeAt_put_none hnames hfile
        -- the root is a directory, so the place lies in one
        have hroot : t.DirectoryAt [] := directoryAt_root (hfile ▸ Option.some_ne_none _)
        obtain ⟨last, hlast⟩ := exists_name fun hnil : place = [] => hold (hnil ▸ hroot)
        have habove : t.DirectoryAt place.dropLast := directoryAt_of_namesOf (hlast ▸ htarget)
        have habove' : (t.put none (front ++ [name])).DirectoryAt place.dropLast := by
          rw [DirectoryAt, hremoved, if_neg]
          · exact habove
          · intro heq
            rw [heq, DirectoryAt, hfile] at habove
            cases habove
        have hold' : ¬ (t.put none (front ++ [name])).DirectoryAt (place.dropLast ++ [last]) := by
          rw [← hlast, DirectoryAt, hremoved, if_neg hne]
          exact hold
        have hput := nodeAt_put_file content habove' hold'
        intro names
        rw [← hlast, h] at hput
        rw [hput, hremoved]

end Folio.FileTree
