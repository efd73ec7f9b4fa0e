import MetricScript.Proofs.Files.Disk

/-!
# Saving leaves other files alone

Saving a file makes the folders around it and writes it.  Both put nodes where no folder was, so
what a path leads to stays where it is, and no file but the one that is written changes its text.
A disk that has come from another one in this way, by saving to one path any number of times,
still reads every file that stands elsewhere.
-/

namespace MetricScript

namespace Node

/-- The text of the file at the end of a list of names. -/
def fileAt (node : Node) (names : List String) : Option String :=
  match node.get? names with
  | some (.file text) => some text
  | _ => none

theorem fileAt_cons (name : String) (rest : List String) (entries : List (String × Node)) :
    (Node.folder entries).fileAt (name :: rest) =
      (Table.get? name entries).bind fun child => child.fileAt rest := by
  simp only [fileAt, get?]
  cases Table.get? name entries <;> rfl

/-- There is no file below a file or in an empty folder. -/
theorem fileAt_below {node : Node} (hnode : node = .folder [] ∨ ∃ text, node = .file text)
    (name : String) (rest : List String) : node.fileAt (name :: rest) = none := by
  obtain rfl | ⟨text, rfl⟩ := hnode <;> rfl

/-- An entry in the place of another one that is no folder. -/
theorem fileAt_insert {new : Node} {last : String} {entries : List (String × Node)}
    (hnames : ∀ inner, Table.get? last entries ≠ some (.folder inner))
    (hnew : new = .folder [] ∨ ∃ text, new = .file text) {place : List String}
    (hplace : place ≠ [last]) :
    (Node.folder (Table.insert last new entries)).fileAt place =
      (Node.folder entries).fileAt place := by
  cases place with
  | nil => rfl
  | cons name rest =>
    rw [fileAt_cons, fileAt_cons]
    by_cases hname : name = last
    · obtain ⟨step, more, rfl⟩ := List.exists_cons_of_ne_nil
        (show rest ≠ [] by rintro rfl; exact hplace (congrArg (fun n => [n]) hname))
      rw [hname, Table.get?_insert_self]
      change new.fileAt (step :: more) = _
      rw [fileAt_below hnew]
      cases hchild : Table.get? last entries with
      | none => rfl
      | some child =>
        cases child with
        | file text => rfl
        | folder inner => exact absurd hchild (hnames inner)
    · rw [Table.get?_insert_of_ne hname]

/-- A file or an empty folder that is put into a folder, where no folder was, leaves all other
files alone. -/
theorem fileAt_put {node new : Node} {front : List String} {last : String}
    {entries : List (String × Node)} (hfront : node.get? front = some (.folder entries))
    (hnames : ∀ inner, node.get? (front ++ [last]) ≠ some (.folder inner))
    (hnew : new = .folder [] ∨ ∃ text, new = .file text) {place : List String}
    (hplace : place ≠ front ++ [last]) :
    (node.put (front ++ [last]) new).fileAt place = node.fileAt place := by
  induction front generalizing node place with
  | nil =>
    obtain rfl := Option.some.inj hfront
    refine fileAt_insert (fun inner hinner => hnames inner ?_) hnew hplace
    rw [List.nil_append, get?, hinner]
    rfl
  | cons first front ih =>
    cases node with
    | file text => cases hfront
    | folder outer =>
      obtain ⟨child, hchild, hfront⟩ := Option.bind_eq_some_iff.1 hfront
      cases place with
      | nil => rfl
      | cons name rest =>
        rw [List.cons_append, put, fileAt_cons, fileAt_cons]
        by_cases hname : name = first
        · rw [hname] at hplace ⊢
          rw [Table.get?_insert_self, hchild]
          refine ih hfront (fun inner => ?_) fun hrest => hplace (hrest ▸ rfl)
          have hinner := hnames inner
          rwa [List.cons_append, get?, hchild] at hinner
        · rw [Table.get?_insert_of_ne hname]

end Node

namespace Disk

def fileAt (disk : Disk) (place : List String) : Option String := disk.root.fileAt place

def LeadsTo (disk : Disk) (path : String) (place : List String) : Prop :=
  steps path >>= walk disk.root (disk.origin path) = .ok place

instance (disk : Disk) (path : String) (place : List String) :
    Decidable (disk.LeadsTo path place) :=
  inferInstanceAs (Decidable (_ = _))

/-- A path leads to one place at most. -/
theorem LeadsTo.unique {disk : Disk} {path : String} {place other : List String}
    (hplace : disk.LeadsTo path place) (hother : disk.LeadsTo path other) : place = other :=
  Except.ok.inj (hplace.symm.trans hother)

/-- A file is read if the path leads to it and does not ask for a folder. -/
theorem read_eq_ok_iff {disk : Disk} {path text : String} :
    disk.read path = .ok text ↔
      Path.endsInSlash path = false ∧ ∃ place, disk.LeadsTo path place ∧
        disk.fileAt place = some text := by
  constructor
  · intro hread
    obtain ⟨node, hfind, hnode⟩ := exists_of_bind_eq_ok hread
    obtain ⟨all, hsteps, hfind⟩ := exists_of_bind_eq_ok hfind
    obtain ⟨place, hwalk, hfind⟩ := exists_of_bind_eq_ok hfind
    have hplace : disk.LeadsTo path place := by
      rw [LeadsTo, hsteps]
      exact hwalk
    unfold fileAt Node.fileAt
    split at hfind
    · obtain rfl := Except.ok.inj hfind
      exact nomatch hnode
    · next found hfile =>
      split at hfind
      · exact nomatch hfind
      · next hslash =>
        obtain rfl := Except.ok.inj hfind
        obtain rfl := Except.ok.inj hnode
        exact ⟨by simpa using hslash, place, hplace, by rw [hfile]⟩
    · exact nomatch hfind
  · rintro ⟨hslash, place, hplace, hfile⟩
    obtain ⟨all, hsteps, hwalk⟩ := exists_of_bind_eq_ok hplace
    have hnode : disk.root.get? place = some (.file text) := by
      unfold fileAt Node.fileAt at hfile
      split at hfile
      · next found hfound => rw [hfound, Option.some.inj hfile]
      · cases hfile
    have hfind : disk.find path = .ok (.file text) := by
      unfold find
      rw [hsteps]
      change walk disk.root (disk.origin path) all >>= _ = _
      rw [hwalk]
      simp only [bind, Except.bind, hnode, hslash]
      rfl
    rw [read, hfind]
    rfl

/-! ## Disks that come from one another -/

/-- The second disk has come from the first one by saving to a path: all ways lead to where they
led before, and no file has changed but for the one at the path. -/
structure SavedTo (path : String) (before after : Disk) : Prop where
  here : after.here = before.here
  walks : ∀ {place all target}, walk before.root place all = .ok target →
    walk after.root place all = .ok target
  others : ∀ place, ¬after.LeadsTo path place → after.fileAt place = before.fileAt place

namespace SavedTo

variable {path : String} {before middle after : Disk}

theorem refl (path : String) (disk : Disk) : SavedTo path disk disk :=
  ⟨rfl, id, fun _ _ => rfl⟩

theorem leadsTo (hsaved : SavedTo path before after) {other : String} {place : List String}
    (hplace : before.LeadsTo other place) : after.LeadsTo other place := by
  obtain ⟨all, hsteps, hwalk⟩ := exists_of_bind_eq_ok hplace
  rw [LeadsTo, hsteps]
  change walk after.root (after.origin other) all = .ok place
  rw [origin, hsaved.here]
  exact hsaved.walks hwalk

theorem trans (hfirst : SavedTo path before middle) (hsecond : SavedTo path middle after) :
    SavedTo path before after where
  here := hsecond.here.trans hfirst.here
  walks := fun hwalk => hsecond.walks (hfirst.walks hwalk)
  others := fun place hplace => (hsecond.others place hplace).trans
    (hfirst.others place fun hmiddle => hplace (hsecond.leadsTo hmiddle))

end SavedTo

/-- Two paths never lead to the same place. -/
def Apart (disk : Disk) (path other : String) : Prop :=
  ∀ place, disk.LeadsTo path place → ¬disk.LeadsTo other place

/-- Paths that lead apart have always done so. -/
theorem SavedTo.apart {path other : String} {before after : Disk}
    (hsaved : SavedTo path before after) (hapart : after.Apart path other) :
    before.Apart path other :=
  fun place hpath hother => hapart place (hsaved.leadsTo hpath) (hsaved.leadsTo hother)

/-- Saving to one path leaves the file at another one as it is. -/
theorem SavedTo.read_of_apart {path other text : String} {before after : Disk}
    (hsaved : SavedTo path before after) (hapart : after.Apart path other)
    (hread : before.read other = .ok text) : after.read other = .ok text := by
  obtain ⟨hslash, place, hplace, hfile⟩ := read_eq_ok_iff.1 hread
  have hafter := hsaved.leadsTo hplace
  refine read_eq_ok_iff.2 ⟨hslash, place, hafter, ?_⟩
  rw [hsaved.others place fun hpath => hapart place hpath hafter]
  exact hfile

/-- A node that is put into a folder, where no folder was. -/
theorem savedTo_put {path last : String} {disk : Disk} {new : Node} {folder : List String}
    {entries : List (String × Node)} (hfolder : disk.root.get? folder = some (.folder entries))
    (hnames : ∀ inner, disk.root.get? (folder ++ [last]) ≠ some (.folder inner))
    (hnew : new = .folder [] ∨ ∃ text, new = .file text)
    (hplace : ({ disk with root := disk.root.put (folder ++ [last]) new } : Disk).fileAt
        (folder ++ [last]) = disk.fileAt (folder ++ [last]) ∨
      ({ disk with root := disk.root.put (folder ++ [last]) new } : Disk).LeadsTo path
        (folder ++ [last])) :
    SavedTo path disk { disk with root := disk.root.put (folder ++ [last]) new } where
  here := rfl
  walks := walk_put new hnames
  others := by
    intro place hother
    by_cases hsame : place = folder ++ [last]
    · rw [hsame] at hother ⊢
      exact hplace.resolve_right hother
    · exact Node.fileAt_put hfolder hnames hnew hsame

/-! ## Making folders -/

/-- Making a folder changes no file and no way to one, whichever path is saved to. -/
theorem savedTo_makeFolder (path folder : String) (disk : Disk) :
    SavedTo path disk ((makeFolder folder).run disk).2 := by
  simp only [makeFolder, StateT.run_bind, StateT.run_get, pure_bind]
  split
  · exact .refl path disk
  · exact .refl path disk
  · next outer name hsite =>
    split
    · exact .refl path disk
    split
    · exact .refl path disk
    · next _ hnothing =>
      obtain ⟨_, entries, _, _, houter, _, _⟩ := site_eq_ok hsite
      have hnone : disk.root.get? (outer ++ [name]) = none := by simpa using hnothing
      refine savedTo_put houter (by simp [hnone]) (.inl rfl) (.inl ?_)
      simp only [fileAt, Node.fileAt, Node.get?_put_self, hnone]

theorem savedTo_ensureFolder (path folder : String) (disk : Disk) :
    SavedTo path disk ((ensureFolder folder).run disk).2 := by
  have hmade := savedTo_makeFolder path folder disk
  simp only [ensureFolder, StateT.run_bind]
  generalize (makeFolder folder).run disk = made at hmade
  obtain ⟨result, after⟩ := made
  cases result with
  | ok done => exact hmade
  | error error =>
    change SavedTo path disk ((if after.isFolder folder then _ else _ : StateM Disk _).run after).2
    split <;> exact hmade

/-- Nor does making all of the folders on a way. -/
theorem savedTo_ensureFolders (path : String) (folders : List String) (disk : Disk) :
    SavedTo path disk ((ensureFolders folders).run disk).2 := by
  induction folders generalizing disk with
  | nil => exact .refl path disk
  | cons folder outer ih =>
    rw [ensureFolders]
    split
    · exact .refl path disk
    have hfirst := savedTo_ensureFolder path folder disk
    rw [StateT.run_bind]
    generalize (ensureFolder folder).run disk = made at hfirst
    obtain ⟨result, after⟩ := made
    cases result with
    | ok done => exact hfirst
    | error error =>
      cases error with
      | notFound =>
        have houter := hfirst.trans (ih after)
        change SavedTo path disk (StateT.run (ensureFolders outer >>= _) after).2
        rw [StateT.run_bind]
        generalize (ensureFolders outer).run after = made at houter
        obtain ⟨result, final⟩ := made
        cases result with
        | ok done => exact houter.trans (savedTo_ensureFolder path folder final)
        | error error => exact houter
      | _ => exact hfirst

/-- Making folders leaves all files alone. -/
theorem savedTo_makeFolders (path folder : String) (disk : Disk) :
    SavedTo path disk ((makeFolders folder).run disk).2 :=
  savedTo_ensureFolders path _ disk

/-! ## Writing -/

/-- Whether a file can be written does not depend on its text. -/
theorem write_run (path text : String) (disk : Disk) :
    (write path text).run disk = match disk.siteOfFile path with
      | .ok (names, _) => (.ok (), { disk with root := disk.root.put names (.file text) })
      | .error error => (.error error, disk) := by
  simp only [write, StateT.run_bind, StateT.run_get, pure_bind]
  cases disk.siteOfFile path with
  | ok site => rfl
  | error error => rfl

/-- Writing to a path changes no file but the one there. -/
theorem savedTo_write (path text : String) (disk : Disk) :
    SavedTo path disk ((write path text).run disk).2 := by
  rw [write_run]
  cases hsite : disk.siteOfFile path with
  | error error => exact .refl path disk
  | ok site =>
    obtain ⟨names, present⟩ := site
    have hwritable := writable_of_siteOfFile hsite
    obtain ⟨front, folder, entries, name, hsteps, hwalk, hfolder, rfl, -⟩ := hwritable.site
    obtain ⟨all, hall, hpath⟩ := hwritable.walk_put text
    refine savedTo_put hfolder hwritable.noFolder (.inr ⟨text, rfl⟩) (.inr ?_)
    rw [LeadsTo, hall]
    exact hpath

/-! ## Saving -/

/-- Makes the folder in which a path lies, if the path names one. -/
def makeParent (path : String) : StateM Disk (Except FileError Unit) :=
  let folder := (Path.parent? path).getD ""
  if folder ≠ "" then makeFolders folder else return .ok ()

/-- Makes the folder around a file and writes the file. -/
def save (path text : String) : StateM Disk (Except FileError Unit) := do
  match ← makeParent path with
  | .ok () => write path text
  | .error error => return .error error

theorem savedTo_makeParent (path : String) (disk : Disk) :
    SavedTo path disk ((makeParent path).run disk).2 := by
  unfold makeParent
  dsimp only
  split
  · exact savedTo_makeFolders path _ disk
  · exact .refl path disk

/-- Saving makes the parent folder first, and writes only if that went well. -/
theorem save_run (path text : String) (disk : Disk) :
    (save path text).run disk = match (makeParent path).run disk with
      | (.ok (), middle) => (write path text).run middle
      | (.error error, middle) => (.error error, middle) := by
  rw [save, StateT.run_bind]
  obtain ⟨made, middle⟩ := (makeParent path).run disk
  cases made with
  | ok done => rfl
  | error error => rfl

/-- Saving changes the file at the path and no other one. -/
theorem savedTo_save (path text : String) (disk : Disk) :
    SavedTo path disk ((save path text).run disk).2 := by
  have hparent := savedTo_makeParent path disk
  rw [save_run]
  generalize (makeParent path).run disk = made at hparent
  obtain ⟨result, middle⟩ := made
  cases result with
  | ok done => exact hparent.trans (savedTo_write path text middle)
  | error error => exact hparent

/-- A file that was saved is read back. -/
theorem read_of_save {path text : String} {disk after : Disk}
    (hsave : (save path text).run disk = (.ok (), after)) : after.read path = .ok text := by
  rw [save_run] at hsave
  split at hsave
  · exact read_of_write hsave
  · exact nomatch (Prod.mk.inj hsave).1

/-- Whether a file can be saved does not depend on its text. -/
theorem save_result (path text other : String) (disk : Disk) :
    ((save path text).run disk).1 = ((save path other).run disk).1 := by
  rw [save_run, save_run]
  split
  · rw [write_run, write_run]
    split <;> rfl
  · rfl

end Disk

end MetricScript
