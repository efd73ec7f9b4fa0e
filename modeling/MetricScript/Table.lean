/-!
# Tables keyed by text

A table is an association list kept strictly ascending in its keys, where texts are
ordered by code points.  Inserting replaces the entry of an equal key, so a table
has one entry for each key and its order says nothing about its history.

The functions take plain lists: a list that is not ascending is still a legal
argument, and the ascending order is the statement `Table.Ascending`.  Main statements:
inserting binds one key and leaves the others alone, and it keeps the keys rising.
-/

namespace MetricScript

/-- Entries of a table, ascending by key. -/
abbrev Table (α : Type) := List (String × α)

namespace Table

variable {α β : Type}

/-- The keys of the table rise strictly. -/
def Ascending (entries : List (String × α)) : Prop :=
  entries.Pairwise fun left right => left.1 < right.1

def get? (key : String) : List (String × α) → Option α
  | [] => none
  | (name, value) :: rest => if key = name then some value else get? key rest

def contains (key : String) (entries : List (String × α)) : Bool :=
  (get? key entries).isSome

/-- Binds the key to the value and changes no other key. -/
def insert (key : String) (value : α) : List (String × α) → List (String × α)
  | [] => [(key, value)]
  | (name, old) :: rest =>
      if key < name then (key, value) :: (name, old) :: rest
      else if key = name then (key, value) :: rest
      else (name, old) :: insert key value rest

/-- Replaces the value of the key, where it has one. -/
def modify (key : String) (change : α → α) : List (String × α) → List (String × α)
  | [] => []
  | (name, value) :: rest =>
      if key = name then (name, change value) :: rest
      else (name, value) :: modify key change rest

/-- The table of a list of pairs; of two pairs with one key the later counts. -/
def ofList (pairs : List (String × α)) : List (String × α) :=
  pairs.foldl (fun entries pair => insert pair.1 pair.2 entries) []

def mapValues (change : α → β) (entries : List (String × α)) : List (String × β) :=
  entries.map fun entry => (entry.1, change entry.2)

/-- The inserted value is found under its key. -/
@[simp]
theorem get?_insert_self (key : String) (value : α) (entries : List (String × α)) :
    get? key (insert key value entries) = some value := by
  induction entries with
  | nil => simp [insert, get?]
  | cons entry rest ih =>
    unfold insert
    split
    · simp [get?]
    · split
      · simp [get?]
      · next hne => simp [get?, hne, ih]

/-- Inserting leaves every other key alone. -/
theorem get?_insert_of_ne {key other : String} (hne : other ≠ key) (value : α)
    (entries : List (String × α)) :
    get? other (insert key value entries) = get? other entries := by
  induction entries with
  | nil => simp [insert, get?, hne]
  | cons entry rest ih =>
    unfold insert
    split
    · simp [get?, hne]
    · split
      · next heq =>
        subst heq
        simp [get?, hne]
      · simp [get?, ih]

/-- Inserting brings in no entry but the new one. -/
theorem mem_insert {key : String} {value : α} {entries : List (String × α)} {entry : String × α}
    (hmem : entry ∈ insert key value entries) : entry = (key, value) ∨ entry ∈ entries := by
  induction entries with
  | nil => simpa [insert] using hmem
  | cons first rest ih =>
    unfold insert at hmem
    split at hmem
    · simpa using hmem
    · split at hmem
      · rcases List.mem_cons.1 hmem with h | h
        · exact .inl h
        · exact .inr (List.mem_cons_of_mem _ h)
      · rcases List.mem_cons.1 hmem with h | h
        · exact .inr (h ▸ List.mem_cons_self)
        · rcases ih h with h | h
          · exact .inl h
          · exact .inr (List.mem_cons_of_mem _ h)

/-- Inserting keeps the keys rising. -/
theorem Ascending.insert {entries : List (String × α)} (hascending : Ascending entries)
    (key : String) (value : α) : Ascending (Table.insert key value entries) := by
  induction entries with
  | nil => simp [Table.insert, Ascending]
  | cons first rest ih =>
    obtain ⟨hfirst, hrest⟩ := List.pairwise_cons.1 hascending
    unfold Table.insert
    split
    · next hlt =>
      refine List.pairwise_cons.2 ⟨fun entry hmem => ?_, hascending⟩
      rcases List.mem_cons.1 hmem with rfl | hmem
      · exact hlt
      · exact String.lt_trans hlt (hfirst entry hmem)
    · split
      · next heq =>
        subst heq
        exact List.pairwise_cons.2 ⟨hfirst, hrest⟩
      · next hnlt hne =>
        refine List.pairwise_cons.2 ⟨fun entry hmem => ?_, ih hrest⟩
        rcases mem_insert hmem with rfl | hmem
        · exact String.not_le.1 fun hle => hne (String.le_antisymm hle (String.not_lt.1 hnlt))
        · exact hfirst entry hmem

/-- The keys of a table that was made from pairs rise. -/
theorem ascending_ofList (pairs : List (String × α)) : Ascending (ofList pairs) := by
  have hfold : ∀ (entries : List (String × α)), Ascending entries →
      Ascending (pairs.foldl (fun entries pair => Table.insert pair.1 pair.2 entries) entries) := by
    induction pairs with
    | nil => exact fun _ hentries => hentries
    | cons pair rest ih => exact fun entries hentries => ih _ (hentries.insert pair.1 pair.2)
  exact hfold [] List.Pairwise.nil

end Table

end MetricScript
