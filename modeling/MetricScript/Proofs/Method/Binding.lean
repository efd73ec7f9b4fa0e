import Mathlib
import MetricScript.Method.Binding
import MetricScript.Proofs.Results
import MetricScript.Proofs.Table

/-!
# Binding in any order

Arguments are bound one after the other, and the first one that does not fit ends the binding.
What comes of it can be said without an order.  A list of arguments is acceptable if every
argument is for a parameter and can be brought to the kind of that parameter, and if no needed
parameter is left out; the acceptable lists are those that are bound.  The bound arguments are
the supplied parameters, each with the last of the arguments for it.  So if no two arguments
have one name, then their order makes no difference.
-/

namespace MetricScript

/-! ## Kinds of arguments -/

namespace ArgKind

def Fits : ArgKind → Value → Prop
  | string, value => ∃ text, value = .string text
  | numeric, value => ∃ x, value = .number x
  | boolean, value => ∃ truth, value = .boolean truth
  | array, value => ∃ items, value = .array items
  | numericArray, value => ∃ numbers : List Float, value = .array (numbers.map .number)
  | map, value => ∃ entries, value = .map entries
  | any, _ => True

/-- What an argument is brought to is of the kind. -/
theorem fits_of_coerce {kind : ArgKind} {value coerced : Value}
    (hcoerced : kind.coerce value = .ok coerced) : kind.Fits coerced := by
  cases kind with
  | string => exact ⟨value.text, (Except.ok.inj hcoerced).symm⟩
  | numeric | boolean | numericArray =>
    obtain ⟨result, _, rfl⟩ := exists_of_map_eq_ok hcoerced
    exact ⟨result, rfl⟩
  | array =>
    cases value with
    | array items => exact ⟨items, (Except.ok.inj hcoerced).symm⟩
    | null | boolean | number | string | map | handle => exact nomatch hcoerced
  | map =>
    cases value with
    | map entries => exact ⟨entries, (Except.ok.inj hcoerced).symm⟩
    | null | boolean | number | string | array | handle => exact nomatch hcoerced
  | any => exact trivial

end ArgKind

/-! ## What a caller has to keep to -/

/-- The argument names the parameter or has no name. -/
def Param.Takes (param : Param) (argument : Option String × Value) : Prop :=
  ∀ name, argument.1 = some name → name = param.name

/-- The arguments can be bound to the parameters. -/
structure Acceptable (params : List Param) (given : List (Option String × Value)) : Prop where
  /-- Arguments with a name are for declared parameters. -/
  declared : ∀ argument ∈ given, ∀ name, argument.1 = some name →
    ∃ param ∈ params, param.name = name
  /-- An argument without a name is the only one of a function with one parameter. -/
  unnamed : ∀ argument ∈ given, argument.1 = none → given.length = 1 ∧ params.length = 1
  coercible : ∀ param ∈ params, ∀ argument ∈ given, param.Takes argument →
    ∃ coerced, param.kind.coerce argument.2 = .ok coerced
  supplied : ∀ param ∈ params, param.required = true → ∃ argument ∈ given, param.Takes argument

def Param.LastOf (param : Param) (given : List (Option String × Value))
    (argument : Option String × Value) : Prop :=
  ∃ earlier later, given = earlier ++ argument :: later ∧ param.Takes argument ∧
    ∀ other ∈ later, ¬param.Takes other

/-- The table holds the supplied parameters, each with the last of its arguments. -/
structure Holds (params : List Param) (given : List (Option String × Value))
    (values : Table Value) : Prop where
  ascending : Table.Ascending values
  supplied : ∀ name, (∃ value, Table.get? name values = some value) ↔
    ∃ param ∈ params, param.name = name ∧ ∃ argument ∈ given, param.Takes argument
  last : ∀ param ∈ params, ∀ argument, param.LastOf given argument →
    ∃ value, Table.get? param.name values = some value ∧
      param.kind.coerce argument.2 = .ok value ∧ param.kind.Fits value

/-! ## One argument -/

/-- The name of the parameter that an argument is for and the value that it is brought to. -/
def entryOf (function : String) (params : List Param) (sole : Bool)
    (argument : Option String × Value) : Except Fault (String × Value) := do
  let param ← selectParam function params sole argument.1
  match param.kind.coerce argument.2 with
  | .error fault => .error (.invalidArgument function param.name fault.message)
  | .ok coerced => .ok (param.name, coerced)

/-- The parameter is meant by a name, or by none if it is the only one of the function and the
argument is the only one of the call. -/
def Param.MeantBy (param : Param) (params : List Param) (sole : Bool) (name : Option String) :
    Prop :=
  name = some param.name ∨ name = none ∧ params = [param] ∧ sole = true

/-- The parameter an argument means is one that takes it. -/
theorem Param.MeantBy.takes {param : Param} {params : List Param} {sole : Bool}
    {argument : Option String × Value} (hmeant : param.MeantBy params sole argument.1) :
    param.Takes argument := by
  intro name hname
  rcases hmeant with hnamed | ⟨hunnamed, _⟩
  · exact Option.some.inj (hname.symm.trans hnamed)
  · exact nomatch hname.symm.trans hunnamed

/-- An argument is bound to a parameter as an entry. -/
structure Param.Binds (param : Param) (params : List Param) (sole : Bool)
    (argument : Option String × Value) (entry : String × Value) : Prop where
  meant : param.MeantBy params sole argument.1
  key : entry.1 = param.name
  coerced : param.kind.coerce argument.2 = .ok entry.2

variable {function : String} {params : List Param} {sole : Bool}
variable {given : List (Option String × Value)}

/-- Where no two parameters have one name, a name finds the parameter that has it. -/
theorem find?_param (hnames : (params.map Param.name).Nodup) {param : Param}
    (hmem : param ∈ params) : params.find? (·.name = param.name) = some param := by
  have hsome : (params.find? (·.name = param.name)).isSome = true :=
    List.find?_isSome.2 ⟨param, hmem, decide_eq_true rfl⟩
  obtain ⟨found, hfound⟩ := Option.isSome_iff_exists.1 hsome
  have hname : found.name = param.name := of_decide_eq_true (List.find?_some hfound :)
  have heq : found = param :=
    List.inj_on_of_nodup_map hnames (List.mem_of_find?_eq_some hfound) hmem hname
  rw [hfound, heq]

/-- Selecting finds exactly the parameter that is meant. -/
theorem selectParam_eq_ok_iff (hnames : (params.map Param.name).Nodup) {name : Option String}
    {param : Param} : selectParam function params sole name = .ok param ↔
      param ∈ params ∧ param.MeantBy params sole name := by
  constructor
  · intro hselect
    unfold selectParam at hselect
    split at hselect
    · next name =>
      split at hselect
      · next found hfound =>
        obtain rfl := Except.ok.inj hselect
        have hname : found.name = name := of_decide_eq_true (List.find?_some hfound :)
        exact ⟨List.mem_of_find?_eq_some hfound, .inl (congrArg some hname.symm)⟩
      · cases hselect
    · split at hselect
      · next only =>
        obtain rfl := Except.ok.inj hselect
        exact ⟨List.mem_singleton_self only, .inr ⟨rfl, rfl, rfl⟩⟩
      · cases hselect
  · rintro ⟨hmem, rfl | ⟨rfl, rfl, rfl⟩⟩
    · simp only [selectParam, find?_param hnames hmem]
    · rfl

/-- An argument gives an entry exactly if some parameter binds it to that entry. -/
theorem entryOf_eq_ok_iff (hnames : (params.map Param.name).Nodup)
    {argument : Option String × Value} {entry : String × Value} :
    entryOf function params sole argument = .ok entry ↔
      ∃ param ∈ params, param.Binds params sole argument entry := by
  constructor
  · intro hentry
    obtain ⟨param, hselect, hentry⟩ := exists_of_bind_eq_ok hentry
    obtain ⟨hmem, hmeant⟩ := (selectParam_eq_ok_iff hnames).1 hselect
    split at hentry
    · exact nomatch hentry
    · next coerced hcoerced =>
      obtain rfl := Except.ok.inj hentry
      exact ⟨param, hmem, hmeant, rfl, hcoerced⟩
  · rintro ⟨param, hmem, hmeant, hkey, hcoerced⟩
    have hselect : selectParam function params sole argument.1 = .ok param :=
      (selectParam_eq_ok_iff hnames).2 ⟨hmem, hmeant⟩
    obtain ⟨key, value⟩ := entry
    obtain rfl : key = param.name := hkey
    change (selectParam function params sole argument.1 >>= _) = _
    rw [hselect]
    change (match param.kind.coerce argument.2 with
      | .error fault => _
      | .ok coerced => Except.ok (param.name, coerced)) = _
    rw [hcoerced]

/-! ## All arguments -/

/-- Binding goes argument by argument. -/
theorem bindEach_cons (values : Table Value) (argument : Option String × Value) :
    bindEach function params sole values (argument :: given) =
      (do
        let entry ← entryOf function params sole argument
        bindEach function params sole (Table.insert entry.1 entry.2 values) given) := by
  obtain ⟨name, value⟩ := argument
  unfold entryOf
  change (selectParam function params sole name >>= _) =
    (selectParam function params sole name >>= _) >>= _
  cases selectParam function params sole name with
  | error fault => rfl
  | ok param =>
    change (match param.kind.coerce value with
      | .error fault => _
      | .ok coerced => _) = (match param.kind.coerce value with
        | .error fault => _
        | .ok coerced => _) >>= _
    cases param.kind.coerce value with
    | error fault => rfl
    | ok coerced => rfl

/-- Binding one argument after the other is making a table of their entries. -/
theorem bindEach_eq (values : Table Value) :
    bindEach function params sole values given =
      (given.mapM (entryOf function params sole)).map fun entries =>
        entries.foldl (fun table entry => Table.insert entry.1 entry.2 table) values := by
  induction given generalizing values with
  | nil => rfl
  | cons argument given ih =>
    rw [bindEach_cons, List.mapM_cons]
    cases entryOf function params sole argument with
    | error fault => rfl
    | ok entry =>
      change bindEach function params sole _ given = Except.map _ (given.mapM _ >>= _)
      rw [ih]
      cases given.mapM (entryOf function params sole) with
      | error fault => rfl
      | ok entries => rfl

/-- No needed parameter is found to be missing if each has a value. -/
theorem find?_missing_eq_none_iff (values : Table Value) :
    params.find? (fun param => param.required && !Table.contains param.name values) = none ↔
      ∀ param ∈ params, param.required = true →
        ∃ value, Table.get? param.name values = some value := by
  rw [List.find?_eq_none]
  refine forall₂_congr fun param _ => ?_
  rw [Bool.not_eq_true, Bool.and_eq_false_imp, ← Option.isSome_iff_exists]
  exact imp_congr_right fun _ => iff_of_eq (Bool.not_eq_false' _)

/-- What was bound is the table of the entries, in which no needed parameter is missing. -/
theorem bindArguments_eq_ok_iff {bound : Arguments} :
    bindArguments function params given = .ok bound ↔
      ∃ entries, given.mapM (entryOf function params (given.length = 1)) = .ok entries ∧
        (∀ param ∈ params, param.required = true →
          ∃ value, Table.get? param.name (Table.ofList entries) = some value) ∧
        ⟨function, Table.ofList entries⟩ = bound := by
  constructor
  · intro hbound
    obtain ⟨values, hvalues, hbound⟩ := exists_of_bind_eq_ok hbound
    rw [bindEach_eq] at hvalues
    obtain ⟨entries, hentries, rfl⟩ := exists_of_map_eq_ok hvalues
    split at hbound
    · cases hbound
    · next hpresent =>
      exact ⟨entries, hentries, (find?_missing_eq_none_iff _).1 hpresent, Except.ok.inj hbound⟩
  · rintro ⟨entries, hentries, hsupplied, rfl⟩
    have hvalues : bindEach function params (given.length = 1) [] given =
        .ok (Table.ofList entries) := by
      rw [bindEach_eq, hentries]
      rfl
    unfold bindArguments
    rw [hvalues]
    dsimp only [bind, Except.bind]
    rw [(find?_missing_eq_none_iff _).2 hsupplied]

/-! ## The entries of the arguments -/

section Entries

variable {entries : List (String × Value)}
variable (hnames : (params.map Param.name).Nodup)
variable (hentries : given.mapM (entryOf function params sole) = .ok entries)

include hnames

/-- An argument is bound to no parameter but the one that it is for. -/
theorem Param.Binds.eq_of_takes {param other : Param} (hmem : param ∈ params)
    (hother : other ∈ params) {argument : Option String × Value} {entry : String × Value}
    (hbinds : other.Binds params sole argument entry) (htakes : param.Takes argument) :
    other = param := by
  rcases hbinds.meant with hnamed | ⟨_, rfl, _⟩
  · exact List.inj_on_of_nodup_map hnames hother hmem (htakes other.name hnamed)
  · exact (List.mem_singleton.1 hmem).symm

include hentries

/-- The parameters with a value are those that some argument is for. -/
theorem exists_get?_entries_iff (name : String) :
    (∃ value, Table.get? name (Table.ofList entries) = some value) ↔
      ∃ param ∈ params, param.name = name ∧ ∃ argument ∈ given, param.Takes argument := by
  obtain ⟨hgiven, hall⟩ := forall_of_mapM_eq_ok hentries
  rw [Table.exists_get?_ofList_iff]
  constructor
  · rintro ⟨entry, hentry, rfl⟩
    obtain ⟨argument, hargument, hstep⟩ := hall entry hentry
    obtain ⟨param, hmem, hbinds⟩ := (entryOf_eq_ok_iff hnames).1 hstep
    exact ⟨param, hmem, hbinds.key.symm, argument, hargument, hbinds.meant.takes⟩
  · rintro ⟨param, hmem, rfl, argument, hargument, htakes⟩
    obtain ⟨entry, hentry, hstep⟩ := hgiven argument hargument
    obtain ⟨other, hother, hbinds⟩ := (entryOf_eq_ok_iff hnames).1 hstep
    obtain rfl := hbinds.eq_of_takes hnames hmem hother htakes
    exact ⟨entry, hentry, hbinds.key⟩

/-- A parameter has what the last argument for it is brought to. -/
theorem get?_entries_of_lastOf {param : Param} (hmem : param ∈ params)
    {argument : Option String × Value} (hlast : param.LastOf given argument) :
    ∃ value, Table.get? param.name (Table.ofList entries) = some value ∧
      param.kind.coerce argument.2 = .ok value := by
  obtain ⟨earlier, later, rfl, htakes, hlater⟩ := hlast
  rw [List.mapM_append, List.mapM_cons] at hentries
  obtain ⟨before, _, hentries⟩ := exists_of_bind_eq_ok hentries
  obtain ⟨rest, hrest, hentries⟩ := exists_of_bind_eq_ok hentries
  obtain ⟨entry, hentry, hrest⟩ := exists_of_bind_eq_ok hrest
  obtain ⟨after, hafter, hrest⟩ := exists_of_bind_eq_ok hrest
  obtain rfl := Except.ok.inj hrest
  obtain rfl := Except.ok.inj hentries
  obtain ⟨other, hother, hbinds⟩ := (entryOf_eq_ok_iff hnames).1 hentry
  obtain rfl := hbinds.eq_of_takes hnames hmem hother htakes
  have hunchanged : ∀ pair ∈ after, pair.1 ≠ other.name := by
    intro pair hpair heq
    obtain ⟨argument, hargument, hstep⟩ := (forall_of_mapM_eq_ok hafter).2 pair hpair
    obtain ⟨owner, howner, hpairBinds⟩ := (entryOf_eq_ok_iff hnames).1 hstep
    have hsame : owner = other :=
      List.inj_on_of_nodup_map hnames howner hmem (hpairBinds.key.symm.trans heq)
    exact hlater argument hargument (hsame ▸ hpairBinds.meant.takes)
  refine ⟨entry.2, ?_, hbinds.coerced⟩
  have hget := Table.get?_ofList_of_last before other.name entry.2 hunchanged
  rwa [← hbinds.key] at hget ⊢

/-- Arguments with different names are bound to different parameters. -/
theorem nodup_keys_entries (hsole : sole = decide (given.length = 1))
    (hgiven : (given.filterMap Prod.fst).Nodup) : (entries.map Prod.fst).Nodup := by
  have hbound := mapM_eq_ok_iff.1 hentries
  cases sole with
  | true =>
    have hlength : entries.length = 1 := hbound.length_eq ▸ of_decide_eq_true hsole.symm
    obtain ⟨entry, rfl⟩ := List.length_eq_one_iff.1 hlength
    exact List.nodup_singleton _
  | false =>
    -- Without a sole argument all arguments have names, and these are the keys.
    have hkeys : given.filterMap Prod.fst = entries.map Prod.fst := by
      clear hgiven hsole hentries
      induction hbound with
      | nil => rfl
      | cons hfirst _ ih =>
        obtain ⟨param, _, hnamed | ⟨_, _, hsole⟩, hkey, _⟩ := (entryOf_eq_ok_iff hnames).1 hfirst
        · rw [List.filterMap_cons_some hnamed, List.map_cons, ih, hkey]
        · exact nomatch hsole
    exact hkeys ▸ hgiven

end Entries

/-! ## Binding -/

section Bind

variable (hnames : (params.map Param.name).Nodup)
include hnames

/-- Each argument of an acceptable list has an entry. -/
theorem Acceptable.exists_entryOf (hacceptable : Acceptable params given)
    {argument : Option String × Value} (hargument : argument ∈ given) :
    ∃ entry, entryOf function params (given.length = 1) argument = .ok entry := by
  have hmeant : ∃ param ∈ params, param.MeantBy params (given.length = 1) argument.1 := by
    cases hname : argument.1 with
    | none =>
      obtain ⟨hgiven, hparams⟩ := hacceptable.unnamed argument hargument hname
      obtain ⟨param, rfl⟩ := List.length_eq_one_iff.1 hparams
      exact ⟨param, List.mem_singleton_self param, .inr ⟨rfl, rfl, decide_eq_true hgiven⟩⟩
    | some name =>
      obtain ⟨param, hmem, rfl⟩ := hacceptable.declared argument hargument name hname
      exact ⟨param, hmem, .inl rfl⟩
  obtain ⟨param, hmem, hmeant⟩ := hmeant
  obtain ⟨coerced, hcoerced⟩ :=
    hacceptable.coercible param hmem argument hargument hmeant.takes
  exact ⟨(param.name, coerced),
    (entryOf_eq_ok_iff hnames).2 ⟨param, hmem, hmeant, rfl, hcoerced⟩⟩

/-- Binding goes well exactly for acceptable arguments. -/
theorem exists_bindArguments_iff :
    (∃ bound, bindArguments function params given = .ok bound) ↔ Acceptable params given := by
  constructor
  · rintro ⟨bound, hbound⟩
    obtain ⟨entries, hentries, hsupplied, rfl⟩ := bindArguments_eq_ok_iff.1 hbound
    have hbinds : ∀ argument ∈ given, ∃ param ∈ params, ∃ entry,
        param.Binds params (given.length = 1) argument entry := by
      intro argument hargument
      obtain ⟨entry, _, hstep⟩ := (forall_of_mapM_eq_ok hentries).1 argument hargument
      obtain ⟨param, hmem, hbinds⟩ := (entryOf_eq_ok_iff hnames).1 hstep
      exact ⟨param, hmem, entry, hbinds⟩
    constructor
    case declared =>
      intro argument hargument name hname
      obtain ⟨param, hmem, entry, hentry⟩ := hbinds argument hargument
      exact ⟨param, hmem, (hentry.meant.takes name hname).symm⟩
    case unnamed =>
      intro argument hargument hname
      obtain ⟨param, hmem, entry, hnamed | ⟨_, rfl, hsole⟩, _⟩ := hbinds argument hargument
      · exact nomatch hname.symm.trans hnamed
      · exact ⟨of_decide_eq_true hsole, rfl⟩
    case coercible =>
      intro param hmem argument hargument htakes
      obtain ⟨other, hother, entry, hentry⟩ := hbinds argument hargument
      obtain rfl := hentry.eq_of_takes hnames hmem hother htakes
      exact ⟨entry.2, hentry.coerced⟩
    case supplied =>
      intro param hmem hrequired
      obtain ⟨other, hother, hname, hgiven⟩ :=
        (exists_get?_entries_iff hnames hentries param.name).1 (hsupplied param hmem hrequired)
      exact List.inj_on_of_nodup_map hnames hother hmem hname ▸ hgiven
  · intro hacceptable
    have heach : ∀ argument ∈ given,
        ∃ entry, entryOf function params (given.length = 1) argument = .ok entry :=
      fun _ hargument => hacceptable.exists_entryOf hnames hargument
    obtain ⟨entries, hentries⟩ := exists_mapM_eq_ok heach
    refine ⟨_, bindArguments_eq_ok_iff.2 ⟨entries, hentries, ?_, rfl⟩⟩
    intro param hmem hrequired
    rw [exists_get?_entries_iff hnames hentries]
    exact ⟨param, hmem, rfl, hacceptable.supplied param hmem hrequired⟩

theorem holds_of_bindArguments {bound : Arguments}
    (hbound : bindArguments function params given = .ok bound) :
    bound.function = function ∧ Holds params given bound.values := by
  obtain ⟨entries, hentries, _, rfl⟩ := bindArguments_eq_ok_iff.1 hbound
  refine ⟨rfl, Table.ascending_ofList entries, exists_get?_entries_iff hnames hentries, ?_⟩
  intro param hmem argument hlast
  obtain ⟨value, hget, hcoerced⟩ := get?_entries_of_lastOf hnames hentries hmem hlast
  exact ⟨value, hget, hcoerced, ArgKind.fits_of_coerce hcoerced⟩

/-- The order of differently named arguments does not show in the table bound. -/
theorem bindArguments_perm {other : List (Option String × Value)}
    (hgiven : (given.filterMap Prod.fst).Nodup) (hperm : given.Perm other) {bound : Arguments}
    (hbound : bindArguments function params given = .ok bound) :
    bindArguments function params other = .ok bound := by
  obtain ⟨entries, hentries, hsupplied, rfl⟩ := bindArguments_eq_ok_iff.1 hbound
  obtain ⟨others, hothers, hsame⟩ :=
    List.perm_comp_forall₂ hperm.symm (mapM_eq_ok_iff.1 hentries)
  have htable : Table.ofList entries = Table.ofList others :=
    Table.ofList_perm hsame.symm (nodup_keys_entries hnames hentries rfl hgiven)
  refine bindArguments_eq_ok_iff.2 ⟨others, ?_, ?_, ?_⟩
  · rw [← hperm.length_eq]
    exact mapM_eq_ok_iff.2 hothers
  · rwa [← htable]
  · rw [htable]

end Bind

/-- The lists of arguments that are bound are the acceptable ones, what is bound is the last
argument for each supplied parameter, and arguments with different names are bound alike in any
order. -/
theorem binding_in_any_order (function : String) {params : List Param}
    (hnames : (params.map Param.name).Nodup) :
    (∀ given, (∃ bound, bindArguments function params given = .ok bound) ↔
      Acceptable params given) ∧
    (∀ given bound, bindArguments function params given = .ok bound →
      bound.function = function ∧ Holds params given bound.values) ∧
    ∀ given other, (given.filterMap Prod.fst).Nodup → given.Perm other → ∀ bound,
      bindArguments function params given = .ok bound ↔
        bindArguments function params other = .ok bound := by
  refine ⟨fun _ => exists_bindArguments_iff hnames, fun _ _ => holds_of_bindArguments hnames, ?_⟩
  intro given other hgiven hperm bound
  have hother : (other.filterMap Prod.fst).Nodup := (hperm.filterMap Prod.fst).nodup_iff.1 hgiven
  exact ⟨bindArguments_perm hnames hgiven hperm, bindArguments_perm hnames hother hperm.symm⟩

/-- A number as the key of a map, and the map before the key. -/
theorem binding_in_any_order_keyAndValue :
    let params := StorageMethod.set.params
    let given : List (Option String × Value) :=
      [(some "key", .number 1.0), (some "value", .map [("total", .number 2.0)])]
    (params.map Param.name).Nodup ∧ (given.filterMap Prod.fst).Nodup ∧
      given.Perm given.reverse ∧ Acceptable params given ∧
      ∃ bound, bindArguments "set" params given.reverse = .ok bound ∧
        Holds params given bound.values := by
  intro params given
  have hnames : (params.map Param.name).Nodup := by decide
  have hgiven : (given.filterMap Prod.fst).Nodup := by decide
  have hperm : given.Perm given.reverse := (List.reverse_perm given).symm
  have hcontract := binding_in_any_order "set" hnames
  have hbound : bindArguments "set" params given = .ok ⟨"set",
    [("key", .string (Number.text 1.0)), ("value", .map [("total", .number 2.0)])]⟩ := rfl
  exact ⟨hnames, hgiven, hperm, (hcontract.1 given).1 ⟨_, hbound⟩, _,
    (hcontract.2.2 given given.reverse hgiven hperm _).1 hbound,
    (hcontract.2.1 given _ hbound).2⟩

end MetricScript
