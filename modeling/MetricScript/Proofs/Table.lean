import Mathlib
import MetricScript.Table

/-!
# Changing one entry of a table

Finding, inserting and modifying see one key only, whatever the order of the entries.
-/

namespace MetricScript.Table

variable {α : Type}

/-- A value that is found belongs to an entry with the key. -/
theorem mem_of_get? {key : String} {value : α} {entries : List (String × α)}
    (hget : get? key entries = some value) : (key, value) ∈ entries := by
  induction entries with
  | nil => exact nomatch hget
  | cons entry rest ih =>
    unfold get? at hget
    split at hget
    · next heq =>
      obtain rfl := Option.some.inj hget
      rw [heq]
      exact List.mem_cons_self
    · exact List.mem_cons_of_mem _ (ih hget)

/-- A modified entry has the changed value. -/
theorem get?_modify_self (key : String) (change : α → α) (entries : List (String × α)) :
    get? key (modify key change entries) = (get? key entries).map change := by
  induction entries with
  | nil => rfl
  | cons entry rest ih =>
    unfold modify
    split
    · next heq => simp [get?, heq]
    · next hne => simp [get?, hne, ih]

/-- The other entries are left alone. -/
theorem get?_modify_of_ne {key other : String} (hne : other ≠ key) (change : α → α)
    (entries : List (String × α)) :
    get? other (modify key change entries) = get? other entries := by
  induction entries with
  | nil => rfl
  | cons entry rest ih =>
    unfold modify
    split
    · next heq =>
      rw [heq] at hne
      simp [get?, hne]
    · simp [get?, ih]

theorem keys_modify (key : String) (change : α → α) (entries : List (String × α)) :
    (modify key change entries).map Prod.fst = entries.map Prod.fst := by
  induction entries with
  | nil => rfl
  | cons entry rest ih =>
    unfold modify
    split
    · rfl
    · exact congrArg (entry.1 :: ·) ih

theorem Ascending.modify {entries : List (String × α)} (hascending : Ascending entries)
    (key : String) (change : α → α) : Ascending (Table.modify key change entries) := by
  apply (List.pairwise_map (f := Prod.fst) (R := (· < ·))).1
  rw [keys_modify]
  exact List.pairwise_map.2 hascending

/-- Modifying brings in no entry but the changed one. -/
theorem mem_modify {key : String} {change : α → α} {entries : List (String × α)}
    {entry : String × α} (hmem : entry ∈ modify key change entries) :
    entry ∈ entries ∨ ∃ old ∈ entries, entry.2 = change old.2 := by
  induction entries with
  | nil => exact nomatch hmem
  | cons first rest ih =>
    unfold modify at hmem
    split at hmem
    · rcases List.mem_cons.1 hmem with rfl | hmem
      · exact .inr ⟨first, List.mem_cons_self, rfl⟩
      · exact .inl (List.mem_cons_of_mem _ hmem)
    · rcases List.mem_cons.1 hmem with rfl | hmem
      · exact .inl List.mem_cons_self
      · rcases ih hmem with hold | ⟨old, hold, hchange⟩
        · exact .inl (List.mem_cons_of_mem _ hold)
        · exact .inr ⟨old, List.mem_cons_of_mem _ hold, hchange⟩

/-- What holds of all values still holds when a value that has it is inserted. -/
theorem forall_insert {holds : α → Prop} {entries : List (String × α)}
    (hentries : ∀ entry ∈ entries, holds entry.2) (key : String) {value : α}
    (hvalue : holds value) : ∀ entry ∈ insert key value entries, holds entry.2 := by
  intro entry hmem
  rcases mem_insert hmem with rfl | hmem
  · exact hvalue
  · exact hentries entry hmem

/-- What holds of the values of all pairs holds of the table that is made from them. -/
theorem forall_ofList {holds : α → Prop} {pairs : List (String × α)}
    (hpairs : ∀ pair ∈ pairs, holds pair.2) : ∀ entry ∈ ofList pairs, holds entry.2 := by
  have hfold : ∀ entries : List (String × α), (∀ entry ∈ entries, holds entry.2) →
      ∀ entry ∈ pairs.foldl (fun entries pair => insert pair.1 pair.2 entries) entries,
        holds entry.2 := by
    induction pairs with
    | nil => exact fun _ hentries => hentries
    | cons pair pairs ih =>
      intro entries hentries
      apply ih (fun other hmem => hpairs other (List.mem_cons_of_mem _ hmem))
      exact forall_insert hentries pair.1 (hpairs pair List.mem_cons_self)
  exact hfold [] (fun _ hmem => nomatch hmem)

/-- A key after all others goes to the end. -/
theorem insert_of_forall_lt {key : String} {entries : List (String × α)}
    (hentries : ∀ entry ∈ entries, entry.1 < key) (value : α) :
    insert key value entries = entries ++ [(key, value)] := by
  induction entries with
  | nil => rfl
  | cons first rest ih =>
    obtain ⟨hfirst, hrest⟩ := List.forall_mem_cons.1 hentries
    have hne : key ≠ first.1 := by
      rintro rfl
      exact String.lt_irrefl _ hfirst
    rw [insert, if_neg (String.lt_asymm hfirst), if_neg hne, ih hrest]
    rfl

/-- A list of pairs whose keys rise is a table already. -/
theorem ofList_of_ascending {entries : List (String × α)} (hentries : Ascending entries) :
    ofList entries = entries := by
  have hfold : ∀ rest front : List (String × α), Ascending (front ++ rest) →
      rest.foldl (fun entries pair => insert pair.1 pair.2 entries) front = front ++ rest := by
    intro rest
    induction rest with
    | nil => exact fun front _ => (List.append_nil front).symm
    | cons pair rest ih =>
      intro front hascending
      have hfront : ∀ entry ∈ front, entry.1 < pair.1 := fun entry hmem =>
        (List.pairwise_append.1 hascending).2.2 entry hmem pair List.mem_cons_self
      rw [List.foldl_cons, insert_of_forall_lt hfront, ih, List.append_assoc]
      · rfl
      · rwa [List.append_assoc]
  exact hfold entries [] hentries

/-! ## Changes at different keys -/

/-- Two different keys may be inserted in either order; the first one is the smaller one here. -/
theorem insert_comm_of_lt {key other : String} (hlt : key < other) (value change : α)
    (entries : List (String × α)) :
    insert key value (insert other change entries) =
      insert other change (insert key value entries) := by
  have hnlt : ¬ other < key := String.lt_asymm hlt
  have hne : other ≠ key := by
    rintro rfl
    exact hnlt hlt
  induction entries with
  | nil => simp [insert, hlt, hnlt, hne]
  | cons entry rest ih =>
    obtain ⟨name, old⟩ := entry
    by_cases hbefore : other < name
    · simp [insert, hlt, hnlt, hne, hbefore, String.lt_trans hlt hbefore]
    · by_cases hsame : other = name
      · simp [insert, ← hsame, hlt, hnlt, hne]
      · by_cases hfirst : key < name
        · simp [insert, hnlt, hne, hbefore, hsame, hfirst]
        · by_cases hold : key = name
          · simp [insert, ← hold, hnlt, hne]
          · simp [insert, hbefore, hsame, hfirst, hold, ih]

/-- The order in which two keys are bound makes no difference. -/
theorem insert_comm {key other : String} (hne : key ≠ other) (value change : α)
    (entries : List (String × α)) :
    insert key value (insert other change entries) =
      insert other change (insert key value entries) := by
  by_cases hlt : key < other
  · exact insert_comm_of_lt hlt value change entries
  · have hgt : other < key :=
      String.not_le.1 fun hle => hne (String.le_antisymm hle (String.not_lt.1 hlt))
    exact (insert_comm_of_lt hgt change value entries).symm

/-- Binding one key and changing the value of another can be done in either order. -/
theorem modify_insert {key other : String} (hne : key ≠ other) (change : α → α) (value : α)
    (entries : List (String × α)) :
    modify key change (insert other value entries) =
      insert other value (modify key change entries) := by
  induction entries with
  | nil => simp [insert, modify, hne]
  | cons entry rest ih =>
    obtain ⟨name, old⟩ := entry
    by_cases hkey : key = name
    · subst hkey
      by_cases hbefore : other < key
      · simp [insert, modify, hne, hbefore]
      · simp [insert, modify, hbefore, hne.symm]
    · by_cases hbefore : other < name
      · simp [insert, modify, hne, hkey, hbefore]
      · by_cases hsame : other = name
        · simp [insert, modify, ← hsame, hne]
        · simp [insert, modify, hkey, hbefore, hsame, ih]

theorem modify_comm {key other : String} (hne : key ≠ other) (change further : α → α)
    (entries : List (String × α)) :
    modify key change (modify other further entries) =
      modify other further (modify key change entries) := by
  induction entries with
  | nil => rfl
  | cons entry rest ih =>
    obtain ⟨name, old⟩ := entry
    by_cases hkey : key = name
    · subst hkey
      simp [modify, hne.symm]
    · by_cases hother : other = name
      · simp [modify, ← hother, hne]
      · simp [modify, hkey, hother, ih]

/-- A table that is made from pairs has no other entries. -/
theorem mem_of_mem_ofList {pairs : List (String × α)} {entry : String × α}
    (hmem : entry ∈ ofList pairs) : entry ∈ pairs := by
  have hfold : ∀ entries : List (String × α),
      entry ∈ pairs.foldl (fun entries pair => insert pair.1 pair.2 entries) entries →
        entry ∈ pairs ∨ entry ∈ entries := by
    clear hmem
    induction pairs with
    | nil => exact fun _ hmem => .inr hmem
    | cons pair pairs ih =>
      intro entries hmem
      rcases ih _ hmem with hmem | hmem
      · exact .inl (List.mem_cons_of_mem _ hmem)
      · rcases mem_insert hmem with rfl | hmem
        · exact .inl List.mem_cons_self
        · exact .inr hmem
  exact (hfold [] hmem).resolve_right List.not_mem_nil

/-! ## Tables of pairs -/

theorem ofList_append (front back : List (String × α)) :
    ofList (front ++ back) =
      back.foldl (fun entries pair => insert pair.1 pair.2 entries) (ofList front) :=
  List.foldl_append

/-- Pairs with other keys do not change what is found under a key. -/
theorem get?_foldl_insert {key : String} {pairs : List (String × α)}
    (hpairs : ∀ pair ∈ pairs, pair.1 ≠ key) (entries : List (String × α)) :
    get? key (pairs.foldl (fun entries pair => insert pair.1 pair.2 entries) entries) =
      get? key entries := by
  induction pairs generalizing entries with
  | nil => rfl
  | cons pair pairs ih =>
    obtain ⟨hpair, hothers⟩ := List.forall_mem_cons.1 hpairs
    rw [List.foldl_cons, ih hothers, get?_insert_of_ne hpair.symm]

/-- Under a key the table of a list of pairs has the value of the last pair with that key. -/
theorem get?_ofList_of_last (earlier : List (String × α)) (key : String) (value : α)
    {later : List (String × α)} (hlater : ∀ pair ∈ later, pair.1 ≠ key) :
    get? key (ofList (earlier ++ (key, value) :: later)) = some value := by
  rw [ofList_append, List.foldl_cons, get?_foldl_insert hlater, get?_insert_self]

/-- The table of a list of pairs has nothing else than these values. -/
theorem get?_ofList_iff {key : String} {value : α} {pairs : List (String × α)} :
    get? key (ofList pairs) = some value ↔
      ∃ earlier later, pairs = earlier ++ (key, value) :: later ∧
        ∀ pair ∈ later, pair.1 ≠ key := by
  constructor
  · induction pairs using List.reverseRecOn with
    | nil => exact fun hget => nomatch hget
    | append_singleton pairs last ih =>
      intro hget
      rw [ofList_append, List.foldl_cons, List.foldl_nil] at hget
      by_cases hlast : key = last.1
      · subst hlast
        rw [get?_insert_self] at hget
        obtain rfl := Option.some.inj hget
        exact ⟨pairs, [], rfl, List.forall_mem_nil _⟩
      · rw [get?_insert_of_ne hlast] at hget
        obtain ⟨earlier, later, rfl, hlater⟩ := ih hget
        refine ⟨earlier, later ++ [last], by rw [List.append_assoc, List.cons_append], ?_⟩
        exact List.forall_mem_append.2 ⟨hlater, List.forall_mem_singleton.2 (Ne.symm hlast)⟩
  · rintro ⟨earlier, later, rfl, hlater⟩
    exact get?_ofList_of_last earlier key value hlater

/-- The keys of the table of a list of pairs are those of the pairs. -/
theorem exists_get?_ofList_iff {key : String} {pairs : List (String × α)} :
    (∃ value, get? key (ofList pairs) = some value) ↔ ∃ pair ∈ pairs, pair.1 = key := by
  constructor
  · rintro ⟨value, hvalue⟩
    exact ⟨(key, value), mem_of_mem_ofList (mem_of_get? hvalue), rfl⟩
  · induction pairs using List.reverseRecOn with
    | nil => exact fun ⟨_, hmem, _⟩ => nomatch hmem
    | append_singleton pairs last ih =>
      rintro ⟨pair, hmem, rfl⟩
      rw [ofList_append, List.foldl_cons, List.foldl_nil]
      by_cases hlast : pair.1 = last.1
      · exact ⟨last.2, hlast ▸ get?_insert_self last.1 last.2 _⟩
      · rw [get?_insert_of_ne hlast]
        apply ih
        rcases List.mem_append.1 hmem with hmem | hmem
        · exact ⟨pair, hmem, rfl⟩
        · exact absurd (congrArg Prod.fst (List.mem_singleton.1 hmem)) hlast

/-- The order of pairs with different keys makes no difference. -/
theorem ofList_perm {pairs others : List (String × α)} (hperm : pairs.Perm others)
    (hkeys : (pairs.map Prod.fst).Nodup) : ofList pairs = ofList others := by
  refine hperm.foldl_eq' (fun pair hpair other hother entries => ?_) []
  by_cases heq : pair.1 = other.1
  · rw [List.inj_on_of_nodup_map hkeys hpair hother heq]
  · exact (insert_comm heq pair.2 other.2 entries).symm

/-! ## Changing all values -/

section MapValues

variable {β : Type} (change : α → β)

/-- Changing all values changes the one that is found. -/
theorem get?_mapValues (key : String) (entries : List (String × α)) :
    get? key (mapValues change entries) = (get? key entries).map change := by
  induction entries with
  | nil => rfl
  | cons entry rest ih =>
    change (if key = entry.1 then _ else get? key (mapValues change rest)) =
      (if key = entry.1 then _ else get? key rest).map change
    rw [ih]
    split <;> rfl

theorem insert_mapValues (key : String) (value : α) (entries : List (String × α)) :
    insert key (change value) (mapValues change entries) =
      mapValues change (insert key value entries) := by
  induction entries with
  | nil => rfl
  | cons entry rest ih =>
    change (if key < entry.1 then _
      else if key = entry.1 then _
      else (entry.1, change entry.2) :: insert key (change value) (mapValues change rest)) =
      mapValues change (if key < entry.1 then _ else if key = entry.1 then _ else _)
    rw [ih]
    split
    · rfl
    · split <;> rfl

theorem ofList_mapValues (pairs : List (String × α)) :
    ofList (mapValues change pairs) = mapValues change (ofList pairs) := by
  induction pairs using List.reverseRecOn with
  | nil => rfl
  | append_singleton pairs last ih =>
    have hpairs : mapValues change (pairs ++ [last]) =
        mapValues change pairs ++ [(last.1, change last.2)] := List.map_append
    rw [hpairs, ofList_append, ofList_append, ih]
    exact insert_mapValues change last.1 last.2 _

/-- Values that do not change make up the same table. -/
theorem mapValues_eq_self {change : α → α} {entries : List (String × α)}
    (hsame : ∀ entry ∈ entries, change entry.2 = entry.2) : mapValues change entries = entries := by
  have hentries : ∀ entry ∈ entries, (entry.1, change entry.2) = entry :=
    fun entry hmem => congrArg (Prod.mk entry.1) (hsame entry hmem)
  exact (List.map_congr_left hentries).trans (List.map_id entries)

end MapValues

end MetricScript.Table
