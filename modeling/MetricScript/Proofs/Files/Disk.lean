import Mathlib
import MetricScript.Files.Disk
import MetricScript.Proofs.Results

/-!
# Written files are read back

Writing a file puts a node where no folder was.  All folders stay folders and keep the names in
them, so every walk leads to where it led before, and the path of the file leads to its text.
-/

namespace MetricScript

namespace Node

/-- The node at a longer path is found below the node at its front. -/
theorem get?_append (node : Node) (front back : List String) :
    node.get? (front ++ back) = (node.get? front).bind (get? back) := by
  induction front generalizing node with
  | nil => rfl
  | cons name rest ih =>
    cases node with
    | file text => rfl
    | folder entries =>
      rw [List.cons_append, get?, get?]
      cases Table.get? name entries with
      | none => rfl
      | some child => exact ih child

/-- If no folder was where a node is put, folders stay and keep the names in them. -/
theorem get?_put_of_folder {node : Node} {names place : List String}
    {entries : List (String × Node)} (new : Node)
    (hnames : ∀ inner, node.get? names ≠ some (.folder inner))
    (hplace : node.get? place = some (.folder entries)) :
    ∃ after, (node.put names new).get? place = some (.folder after) ∧
      ∀ name, (Table.get? name entries).isSome → (Table.get? name after).isSome := by
  induction place generalizing node names with
  | nil =>
    obtain rfl := Option.some.inj hplace
    cases names with
    | nil => exact absurd rfl (hnames entries)
    | cons first rest =>
      refine ⟨_, rfl, fun name hname => ?_⟩
      by_cases hfirst : name = first
      · rw [hfirst, Table.get?_insert_self]
        rfl
      · rwa [Table.get?_insert_of_ne hfirst]
  | cons step place ih =>
    cases node with
    | file text => exact nomatch hplace
    | folder outer =>
      cases names with
      | nil => exact absurd rfl (hnames outer)
      | cons first rest =>
        obtain ⟨child, hchild, hplace⟩ := Option.bind_eq_some_iff.1 hplace
        rw [put, get?]
        by_cases hfirst : step = first
        · rw [hfirst] at hchild ⊢
          have hrest : ∀ inner, child.get? rest ≠ some (.folder inner) := by
            rw [get?, hchild] at hnames
            exact hnames
          rw [Table.get?_insert_self, hchild]
          exact ih hrest hplace
        · rw [Table.get?_insert_of_ne hfirst, hchild]
          exact ⟨entries, hplace, fun _ hname => hname⟩

end Node

namespace Disk

/-- Where a step leads from a place at which this is found. -/
def stepFrom (place : List String) (name : String) :
    Option Node → Except FileError (List String)
  | some (.folder entries) =>
      if name = "." then .ok place
      else if name = ".." then .ok place.dropLast
      else if nameLimit < name.utf8ByteSize then .error .nameTooLong
      else
        match Table.get? name entries with
        | some _ => .ok (place ++ [name])
        | none => .error .notFound
  | some (.file _) => .error .notFolder
  | none => .error .notFound

/-- A walk is made step by step. -/
theorem walk_cons (root : Node) (place : List String) (name : String) (rest : List String) :
    walk root place (name :: rest) =
      stepFrom place name (root.get? place) >>= fun next => walk root next rest := by
  rw [walk]
  cases root.get? place with
  | none => rfl
  | some node =>
    cases node with
    | file text => rfl
    | folder entries =>
      unfold stepFrom
      dsimp only
      split
      · rfl
      split
      · rfl
      split
      · rfl
      cases Table.get? name entries with
      | none => rfl
      | some child => rfl

theorem walk_append (root : Node) (place front back : List String) :
    walk root place (front ++ back) =
      walk root place front >>= fun middle => walk root middle back := by
  induction front generalizing place with
  | nil => rfl
  | cons name rest ih =>
    rw [List.cons_append, walk_cons, walk_cons, bind_assoc]
    exact congrArg _ (funext ih)

/-- A name in a folder is one step away. -/
theorem stepFrom_of_name {place : List String} {name : String} {entries : List (String × Node)}
    (hhere : name ≠ ".") (hback : name ≠ "..") (hlong : name.utf8ByteSize ≤ nameLimit)
    (hname : (Table.get? name entries).isSome) :
    stepFrom place name (some (.folder entries)) = .ok (place ++ [name]) := by
  obtain ⟨child, hchild⟩ := Option.isSome_iff_exists.1 hname
  simp only [stepFrom, if_neg hhere, if_neg hback, if_neg (Nat.not_lt.2 hlong), hchild]

/-- Only folders are left by a step, and where it leads depends on the names in them. -/
theorem stepFrom_mono {place target : List String} {name : String} {node : Option Node}
    (hstep : stepFrom place name node = .ok target) :
    ∃ entries, node = some (.folder entries) ∧
      ∀ after, ((Table.get? name entries).isSome → (Table.get? name after).isSome) →
        stepFrom place name (some (.folder after)) = .ok target := by
  unfold stepFrom at hstep
  split at hstep
  · next entries =>
    refine ⟨entries, rfl, fun after hafter => ?_⟩
    split at hstep
    · next hhere => rwa [stepFrom, if_pos hhere]
    split at hstep
    · next hhere hback => rwa [stepFrom, if_neg hhere, if_pos hback]
    split at hstep
    · exact nomatch hstep
    · next hhere hback hlong =>
      cases hchild : Table.get? name entries with
      | none =>
        rw [hchild] at hstep
        exact nomatch hstep
      | some child =>
        rw [hchild] at hstep hafter
        rw [← hstep]
        exact stepFrom_of_name hhere hback (Nat.not_lt.1 hlong) (hafter rfl)
  · exact nomatch hstep
  · exact nomatch hstep

/-- A walk leads to the same place after a node was put where no folder was. -/
theorem walk_put {root : Node} {names : List String} (new : Node)
    (hnames : ∀ inner, root.get? names ≠ some (.folder inner)) {place steps target : List String}
    (hwalk : walk root place steps = .ok target) :
    walk (root.put names new) place steps = .ok target := by
  induction steps generalizing place with
  | nil => exact hwalk
  | cons name rest ih =>
    rw [walk_cons] at hwalk ⊢
    obtain ⟨next, hstep, hwalk⟩ := exists_of_bind_eq_ok hwalk
    obtain ⟨entries, hplace, hmono⟩ := stepFrom_mono hstep
    obtain ⟨after, hafter, hkept⟩ := Node.get?_put_of_folder new hnames hplace
    rw [hafter, hmono after (hkept name)]
    exact ih hwalk

/-- A file can be written at these names, to which its path leads. -/
structure Writable (disk : Disk) (path : String) (names : List String) : Prop where
  endsInSlash : Path.endsInSlash path = false
  site : ∃ front folder entries name, steps path = .ok (front ++ [name]) ∧
    walk disk.root (disk.origin path) front = .ok folder ∧
    disk.root.get? folder = some (.folder entries) ∧ names = folder ++ [name] ∧
    name ≠ "." ∧ name ≠ ".." ∧ name.utf8ByteSize ≤ nameLimit
  noFolder : ∀ inner, disk.root.get? names ≠ some (.folder inner)

/-- A named site is the end of a way through folders that are there, and its name is neither `.` nor
`..`. -/
theorem site_eq_ok {disk : Disk} {path : String} {folder : List String} {name : String}
    (hsite : disk.site path = .ok ⟨folder, some name⟩) :
    ∃ front entries, steps path = .ok (front ++ [name]) ∧
      walk disk.root (disk.origin path) front = .ok folder ∧
        disk.root.get? folder = some (.folder entries) ∧ name ≠ "." ∧ name ≠ ".." := by
  unfold site at hsite
  obtain ⟨all, hsteps, hsite⟩ := exists_of_bind_eq_ok hsite
  obtain ⟨target, hwalk, hsite⟩ := exists_of_bind_eq_ok hsite
  split at hsite
  · next entries last hfolder hlast =>
    obtain ⟨rfl, hname⟩ := Site.mk.inj (Except.ok.inj hsite)
    split at hname
    · cases hname
    · next hpoints =>
      obtain rfl := Option.some.inj hname
      obtain ⟨front, rfl⟩ := List.getLast?_eq_some_iff.1 hlast
      rw [List.dropLast_concat] at hwalk
      simp only [Bool.or_eq_true, decide_eq_true_eq, not_or] at hpoints
      exact ⟨front, entries, hsteps, hwalk, hfolder, hpoints⟩
  · have hname := (Site.mk.inj (Except.ok.inj hsite)).2
    cases hname
  · cases hsite

/-- Where a file can be placed, its path can be written. -/
theorem writable_of_siteOfFile {disk : Disk} {path : String} {names : List String}
    {present : String} (hsite : disk.siteOfFile path = .ok (names, present)) :
    disk.Writable path names := by
  unfold siteOfFile at hsite
  obtain ⟨⟨folder, name?⟩, hfolder, hsite⟩ := exists_of_bind_eq_ok hsite
  cases name? with
  | none => exact nomatch hsite
  | some name =>
    obtain ⟨front, entries, hsteps, hwalk, hentries, hhere, hback⟩ := site_eq_ok hfolder
    dsimp only at hsite
    split at hsite
    · exact nomatch hsite
    split at hsite
    · exact nomatch hsite
    · next hslash hlong =>
      have hnames : names = folder ++ [name] ∧
          ∀ inner, disk.root.get? (folder ++ [name]) ≠ some (.folder inner) := by
        split at hsite
        · exact nomatch hsite
        · next text htext =>
          exact ⟨(Prod.mk.inj (Except.ok.inj hsite)).1.symm, fun inner => by simp [htext]⟩
        · next hnone =>
          exact ⟨(Prod.mk.inj (Except.ok.inj hsite)).1.symm, fun inner => by simp [hnone]⟩
      obtain ⟨rfl, hnoFolder⟩ := hnames
      exact ⟨by simpa using hslash, ⟨front, folder, entries, name, hsteps, hwalk, hentries, rfl,
        hhere, hback, Nat.not_lt.1 hlong⟩, hnoFolder⟩

/-- The steps of the path lead to the names at which a file was put. -/
theorem Writable.walk_put {disk : Disk} {path : String} {names : List String}
    (hwritable : disk.Writable path names) (text : String) :
    ∃ all, steps path = .ok all ∧
      walk (disk.root.put names (.file text)) (disk.origin path) all = .ok names := by
  obtain ⟨front, folder, entries, name, hsteps, hwalk, hfolder, rfl, hhere, hback, hlong⟩ :=
    hwritable.site
  have hfile := disk.root.get?_put_self (folder ++ [name]) (.file text)
  obtain ⟨after, hafter, _⟩ := Node.get?_put_of_folder (.file text) hwritable.noFolder hfolder
  have hname : (Table.get? name after).isSome := by
    rw [Node.get?_append, hafter] at hfile
    obtain ⟨node, hnode, _⟩ := Option.bind_eq_some_iff.1 (show (Table.get? name after).bind
      (Node.get? []) = _ from hfile)
    rw [hnode]
    rfl
  refine ⟨front ++ [name], hsteps, ?_⟩
  rw [walk_append, Disk.walk_put _ hwritable.noFolder hwalk]
  change walk _ folder [name] = _
  rw [walk_cons, hafter, stepFrom_of_name hhere hback hlong hname]
  rfl

/-- The path leads to a file that was put there. -/
theorem Writable.read_put {disk : Disk} {path : String} {names : List String}
    (hwritable : disk.Writable path names) (text : String) :
    ({ disk with root := disk.root.put names (.file text) } : Disk).read path = .ok text := by
  obtain ⟨all, hsteps, hpath⟩ := hwritable.walk_put text
  unfold read find
  rw [hsteps]
  change ((walk (disk.root.put names (.file text)) (disk.origin path) all >>= _) >>= _) = _
  rw [hpath]
  change ((match (disk.root.put names (.file text)).get? names with
    | some (.folder entries) => Except.ok (Node.folder entries)
    | some (.file text) =>
        if Path.endsInSlash path then Except.error FileError.notFolder else .ok (.file text)
    | none => .error .notFound) >>= _) = _
  rw [Node.get?_put_self, hwritable.endsInSlash]
  rfl

/-- A file that was written is read back. -/
theorem read_of_write {disk after : Disk} {path text : String}
    (hwrite : (write path text).run disk = (.ok (), after)) : after.read path = .ok text := by
  simp only [write, StateT.run_bind, StateT.run_get, pure_bind] at hwrite
  cases hsite : disk.siteOfFile path with
  | error error =>
    rw [hsite] at hwrite
    cases (Prod.mk.inj hwrite).1
  | ok site =>
    obtain ⟨names, present⟩ := site
    rw [hsite] at hwrite
    obtain rfl := (Prod.mk.inj hwrite).2
    exact (writable_of_siteOfFile hsite).read_put text

end Disk

end MetricScript
