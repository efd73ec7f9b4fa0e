import Mathlib
import MetricScript.Value.Coerce

/-!
# Equality of values

Numbers are compared as numbers: the two zeros are equal, and the undefined number equals nothing.
Data and handles are compared part by part.  On top of that, texts that spell a number are
compared as that number, though only where they stand alone and not inside of data.

Each of the comparisons is a partial equivalence.  A value fails to equal itself if it is made of
an undefined number, at whatever depth, or spells one.  The ways of comparing do not get in each
other's way, since values that are equal are both truth values, or both stand for numbers, or are
both neither.
-/

namespace MetricScript

/-! ## Numbers -/

namespace Number

open Float.Model

/-- The parts of a number, with one zero instead of two. -/
def signless : UnpackedFloat → UnpackedFloat
  | .zero _ => .zero .positive
  | parts => parts

/-- Two floats are equal if neither is undefined and they agree but for the sign of a zero. -/
theorem unpacked_beq_iff (left right : UnpackedFloat) :
    left.beq right = true ↔ left.isNaN = false ∧ signless left = signless right := by
  -- parts of different kinds are neither equal nor the same, whatever their signs
  have hapart (hcompare : left.beq right = false) (hparts : signless left ≠ signless right) :
      left.beq right = true ↔ left.isNaN = false ∧ signless left = signless right :=
    iff_of_false (ne_true_of_eq_false hcompare) fun hequal => hparts hequal.2
  cases left with
  | notANumber => exact iff_of_false Bool.false_ne_true fun hequal => nomatch hequal.1
  | zero sign =>
    cases right with
    | zero other => exact iff_of_true rfl ⟨rfl, rfl⟩
    | notANumber => exact hapart rfl nofun
    | infinity other | finite other => cases other <;> exact hapart rfl nofun
  | infinity sign =>
    cases right with
    | infinity other =>
      cases sign <;> cases other
      case negative.negative | positive.positive => exact iff_of_true rfl ⟨rfl, rfl⟩
      case negative.positive | positive.negative => exact hapart rfl nofun
    | notANumber => exact hapart rfl nofun
    | zero other | finite other => cases sign <;> exact hapart rfl nofun
  | finite sign mantissa exponent hpos =>
    cases right with
    | finite other mantissa' exponent' hpos' =>
      cases sign <;> cases other <;>
        simp [UnpackedFloat.beq, UnpackedFloat.compare, signless, UnpackedFloat.isNaN, and_comm]
    | notANumber => exact hapart rfl nofun
    | zero other => cases sign <;> exact hapart rfl nofun
    | infinity other => cases other <;> exact hapart rfl nofun

/-- Two numbers are equal if they are defined and have the same parts, the sign of a zero apart. -/
theorem beq_iff (x y : Float) : (x == y) = true ↔
    x.isNaN = false ∧ signless x.toModel.unpack = signless y.toModel.unpack :=
  unpacked_beq_iff x.toModel.unpack y.toModel.unpack

theorem isNaN_eq_of_signless {left right : UnpackedFloat}
    (hsame : signless left = signless right) : left.isNaN = right.isNaN := by
  have hsignless (parts : UnpackedFloat) : (signless parts).isNaN = parts.isNaN := by
    cases parts <;> rfl
  rw [← hsignless left, hsame, hsignless]

instance partialEquivBEq : PartialEquivBEq Float where
  symm := by
    intro x y hequal
    rw [beq_iff] at hequal ⊢
    exact ⟨(isNaN_eq_of_signless hequal.2).symm.trans hequal.1, hequal.2.symm⟩
  trans := by
    intro x y z hfirst hsecond
    rw [beq_iff] at hfirst hsecond ⊢
    exact ⟨hfirst.1, hfirst.2.trans hsecond.2⟩

/-- Only the undefined number differs from itself. -/
theorem beq_self_iff (x : Float) : (x == x) = true ↔ x.isNaN = false := by
  rw [beq_iff]
  exact and_iff_left rfl

end Number

/-! ## Values as labels, numbers and parts -/

theorem sizeOf_snd_lt {entries : List (String × Value)} {part : Value}
    (hpart : part ∈ entries.map Prod.snd) : sizeOf part < sizeOf entries := by
  obtain ⟨⟨key, value⟩, hentry, rfl⟩ := List.mem_map.mp hpart
  have hsize := List.sizeOf_lt_of_mem hentry
  simp only [Prod.mk.sizeOf_spec] at hsize
  change sizeOf value < sizeOf entries
  omega

namespace BoundMethod

/-- The values that a method belongs to. -/
def parts : BoundMethod → List Value
  | ofArray items _ => items
  | ofMap entries _ _ => entries.map Prod.snd
  | _ => []

theorem sizeOf_part_lt {bound : BoundMethod} {part : Value} (hpart : part ∈ bound.parts) :
    sizeOf part < sizeOf bound := by
  cases bound with
  | ofArray items method =>
    have hsize : sizeOf part < sizeOf items := List.sizeOf_lt_of_mem hpart
    simp only [ofArray.sizeOf_spec]
    omega
  | ofMap entries origin method =>
    have hsize := sizeOf_snd_lt hpart
    simp only [ofMap.sizeOf_spec]
    omega
  | _ => nomatch hpart

/-- The method without its parts. -/
def label : BoundMethod → BoundMethod
  | ofArray _ method => ofArray [] method
  | ofMap entries origin method => ofMap (entries.map fun entry => (entry.1, .null)) origin method
  | bound => bound

end BoundMethod

namespace Handle

def parts : Handle → List Value
  | method bound => bound.parts
  | _ => []

theorem sizeOf_part_lt {reference : Handle} {part : Value} (hpart : part ∈ reference.parts) :
    sizeOf part < sizeOf reference := by
  cases reference with
  | method bound =>
    have hsize := BoundMethod.sizeOf_part_lt hpart
    simp only [method.sizeOf_spec]
    omega
  | _ => nomatch hpart

def numbers : Handle → List Float
  | point sample => [sample.value]
  | aggregate samples => samples.map (·.value)
  | _ => []

def label : Handle → Handle
  | point sample => point { sample with value := 0 }
  | aggregate samples => aggregate (samples.map fun sample => { sample with value := 0 })
  | method bound => method bound.label
  | reference => reference

end Handle

namespace Value

/-- The values that a value is made of. -/
def parts : Value → List Value
  | array items => items
  | map entries => entries.map Prod.snd
  | handle reference => reference.parts
  | _ => []

/-- The numbers of a value, those of its parts apart. -/
def numbers : Value → List Float
  | number x => [x]
  | handle reference => reference.numbers
  | _ => []

/-- The value without its numbers and its parts. -/
def label : Value → Value
  | number _ => number 0
  | array _ => array []
  | map entries => map (entries.map fun entry => (entry.1, null))
  | handle reference => handle reference.label
  | value => value

theorem sizeOf_part_lt {value part : Value} (hpart : part ∈ value.parts) :
    sizeOf part < sizeOf value := by
  cases value with
  | array items =>
    have hsize : sizeOf part < sizeOf items := List.sizeOf_lt_of_mem hpart
    simp only [array.sizeOf_spec]
    omega
  | map entries =>
    have hsize := sizeOf_snd_lt hpart
    simp only [map.sizeOf_spec]
    omega
  | handle reference =>
    have hsize := Handle.sizeOf_part_lt hpart
    simp only [handle.sizeOf_spec]
    omega
  | _ => nomatch hpart

/-- A number that a value is made of, at any depth. -/
inductive Holds : Value → Float → Prop
  | here {value : Value} {x : Float} : x ∈ value.numbers → Holds value x
  | inside {value part : Value} {x : Float} : part ∈ value.parts → Holds part x → Holds value x

@[simp] theorem holds_number_iff (x y : Float) : (number x).Holds y ↔ y = x := by
  constructor
  · rintro (hy | ⟨hpart, -⟩)
    · exact List.mem_singleton.mp hy
    · nomatch hpart
  · rintro rfl
    exact .here List.mem_cons_self

@[simp] theorem not_holds_string (text : String) (x : Float) : ¬(string text).Holds x := by
  rintro (hx | ⟨hpart, -⟩)
  · nomatch hx
  · nomatch hpart

/-- What is shown of every value from its parts holds of every value. -/
theorem parts_induction {motive : Value → Prop}
    (hstep : ∀ value : Value, (∀ part ∈ value.parts, motive part) → motive value)
    (value : Value) : motive value :=
  hstep value fun part hpart =>
    have := sizeOf_part_lt hpart
    parts_induction hstep part
termination_by sizeOf value

/-- The two values are found to be the same. -/
def Alike (left right : Value) : Prop := left.same right = true

theorem sameItems_iff {left right : List Value} :
    sameItems left right = true ↔ List.Forall₂ Alike left right := by
  induction left generalizing right with
  | nil => cases right <;> simp [sameItems]
  | cons first rest ih => cases right <;> simp [sameItems, Alike, ih]

/-- Two tables are the same if their keys are and their values are alike. -/
theorem sameEntries_iff {left right : List (String × Value)} :
    sameEntries left right = true ↔ left.map Prod.fst = right.map Prod.fst ∧
      List.Forall₂ Alike (left.map Prod.snd) (right.map Prod.snd) := by
  induction left generalizing right with
  | nil => cases right <;> simp [sameEntries]
  | cons first rest ih =>
    cases right with
    | nil => simp [sameEntries]
    | cons second others =>
      simp only [sameEntries, Bool.and_eq_true, beq_iff_eq, ih, List.map_cons, List.cons.injEq,
        List.forall₂_cons, Alike]
      exact and_and_and_comm

/-- Entries without their values agree if the keys do. -/
theorem keys_eq_iff {left right : List (String × Value)} :
    left.map (fun entry => (entry.1, null)) = right.map (fun entry => (entry.1, null)) ↔
      left.map Prod.fst = right.map Prod.fst := by
  have hkeys (entries : List (String × Value)) :
      entries.map (fun entry => (entry.1, null)) = (entries.map Prod.fst).map (·, null) := by
    rw [List.map_map]
    rfl
  have hinjective : Function.Injective fun key : String => (key, null) :=
    fun _ _ hpair => congrArg Prod.fst hpair
  rw [hkeys, hkeys, (List.map_injective_iff.mpr hinjective).eq_iff]

theorem samePoints_iff {left right : List Point} :
    (left.length = right.length ∧ ∀ first second : Point, (first, second) ∈ left.zip right →
        first.timestamp = second.timestamp ∧ (first.value == second.value) = true) ↔
      left.map (fun sample : Point => { sample with value := 0 }) =
          right.map (fun sample : Point => { sample with value := 0 }) ∧
        List.Forall₂ (fun first second : Point => (first.value == second.value) = true)
          left right := by
  rw [← List.forall₂_iff_zip]
  induction left generalizing right with
  | nil => cases right <;> simp
  | cons first rest ih =>
    cases right with
    | nil => simp
    | cons second others =>
      simp only [List.forall₂_cons, ih, List.map_cons, List.cons.injEq, Point.mk.injEq, and_true]
      exact and_and_and_comm

theorem sameMethod_iff (left right : BoundMethod) :
    sameMethod left right = true ↔
      left.label = right.label ∧ List.Forall₂ Alike left.parts right.parts := by
  cases left <;> cases right <;>
    simp [sameMethod, BoundMethod.label, BoundMethod.parts, sameItems_iff, sameEntries_iff,
      keys_eq_iff]
  case ofArray.ofArray => exact and_comm
  case ofMap.ofMap => simp only [and_assoc, and_comm]

theorem sameHandle_iff (left right : Handle) :
    sameHandle left right = true ↔ left.label = right.label ∧
      List.Forall₂ (fun x y => (x == y) = true) left.numbers right.numbers ∧
      List.Forall₂ Alike left.parts right.parts := by
  cases left <;> cases right <;>
    simp [sameHandle, Handle.label, Handle.parts, Handle.numbers, sameMethod_iff, samePoints_iff]

/-- Values are the same if their labels agree, their numbers are equal one by one, and so are
their parts. -/
theorem same_iff (left right : Value) :
    left.Alike right ↔ left.label = right.label ∧
      List.Forall₂ (fun x y => (x == y) = true) left.numbers right.numbers ∧
      List.Forall₂ Alike left.parts right.parts := by
  change left.same right = true ↔ _
  cases left <;> cases right <;>
    simp [same, label, numbers, parts, sameItems_iff, sameEntries_iff, keys_eq_iff, sameHandle_iff]

/-! ## Values that are the same -/

/-- If items are related whichever way round, so are lists of them. -/
theorem forall₂_symm {α : Type} {related : α → α → Prop} {lefts rights : List α}
    (hsymm : ∀ left ∈ lefts, ∀ right, related left right → related right left)
    (hrelated : List.Forall₂ related lefts rights) : List.Forall₂ related rights lefts := by
  have hboth := (List.forall₂_and_left _ _).mpr ⟨hsymm, hrelated⟩
  exact (hboth.imp fun left right hpair => hpair.1 right hpair.2).flip

/-- If items are related across a third, so are lists of them. -/
theorem forall₂_trans {α : Type} {related : α → α → Prop} {lefts middles rights : List α}
    (htrans : ∀ left ∈ lefts, ∀ middle right,
      related left middle → related middle right → related left right)
    (hfirst : List.Forall₂ related lefts middles)
    (hsecond : List.Forall₂ related middles rights) : List.Forall₂ related lefts rights := by
  induction hfirst generalizing rights with
  | nil => exact hsecond
  | cons hhead _ ih =>
    cases hsecond with
    | cons hhead' htail' =>
      exact .cons (htrans _ List.mem_cons_self _ _ hhead hhead')
        (ih (fun left hleft => htrans left (List.mem_cons_of_mem _ hleft)) htail')

/-- Likeness has no direction. -/
theorem Alike.symm {left right : Value} (halike : left.Alike right) : right.Alike left := by
  induction left using parts_induction generalizing right with
  | hstep left ih =>
    obtain ⟨hlabel, hnumbers, hparts⟩ := (same_iff left right).mp halike
    refine (same_iff right left).mpr ⟨hlabel.symm, ?_, ?_⟩
    · exact forall₂_symm (fun _ _ _ => BEq.symm) hnumbers
    · exact forall₂_symm (fun part hpart other => ih part hpart) hparts

theorem Alike.trans {left middle right : Value} (hfirst : left.Alike middle)
    (hsecond : middle.Alike right) : left.Alike right := by
  induction left using parts_induction generalizing middle right with
  | hstep left ih =>
    obtain ⟨hlabel, hnumbers, hparts⟩ := (same_iff left middle).mp hfirst
    obtain ⟨hlabel', hnumbers', hparts'⟩ := (same_iff middle right).mp hsecond
    refine (same_iff left right).mpr ⟨hlabel.trans hlabel', ?_, ?_⟩
    · exact forall₂_trans (fun _ _ _ _ => PartialEquivBEq.trans) hnumbers hnumbers'
    · exact forall₂_trans (fun part hpart _ _ => ih part hpart) hparts hparts'

/-- A value is the same as itself unless it is made of an undefined number. -/
theorem alike_self_iff (value : Value) :
    value.Alike value ↔ ∀ x, value.Holds x → x.isNaN = false := by
  induction value using parts_induction with
  | hstep value ih =>
    rw [same_iff, List.forall₂_same, List.forall₂_same]
    constructor
    · rintro ⟨-, hnumbers, hparts⟩ x hholds
      cases hholds with
      | here hx => exact (Number.beq_self_iff x).mp (hnumbers x hx)
      | inside hpart hinside => exact (ih _ hpart).mp (hparts _ hpart) x hinside
    · intro hdefined
      refine ⟨rfl, fun x hx => (Number.beq_self_iff x).mpr (hdefined x (.here hx)), ?_⟩
      exact fun part hpart => (ih part hpart).mpr fun x hx => hdefined x (.inside hpart hx)

/-! ## Equality -/

def StandsFor (value : Value) (x : Float) : Prop := value.toNumber = .ok x

theorem standsFor_iff (value : Value) (x : Float) :
    value.StandsFor x ↔
      value = .number x ∨ ∃ text, value = .string text ∧ Number.read? text = some x := by
  unfold StandsFor
  cases value with
  | number y => simp [toNumber]
  | string text => cases hread : Number.read? text <;> simp [toNumber, hread]
  | _ => simp [toNumber]

theorem StandsFor.unique {value : Value} {x y : Float} (hx : value.StandsFor x)
    (hy : value.StandsFor y) : x = y := by
  simpa using hx.symm.trans hy

def Numeric (value : Value) : Prop := ∃ x, value.StandsFor x

/-- What is like a number is a number. -/
theorem Alike.numeric {left right : Value} (halike : left.Alike right) (hleft : left.Numeric) :
    right.Numeric := by
  obtain ⟨x, hx⟩ := hleft
  have hlabel : left.label = right.label := ((same_iff left right).mp halike).1
  rcases (standsFor_iff left x).mp hx with rfl | ⟨text, rfl, -⟩
  · cases right with
    | number y => exact ⟨y, rfl⟩
    | _ => nomatch hlabel
  · cases right with
    | string other => exact ⟨x, (string.inj hlabel) ▸ hx⟩
    | _ => nomatch hlabel

theorem Alike.isBoolean_eq {left right : Value} (halike : left.Alike right) :
    left.isBoolean = right.isBoolean := by
  have hsignless (value : Value) : value.label.isBoolean = value.isBoolean := by
    cases value <;> rfl
  rw [← hsignless left, ((same_iff left right).mp halike).1, hsignless]

theorem Numeric.not_boolean {value : Value} (hnumeric : value.Numeric) :
    value.isBoolean = false := by
  obtain ⟨x, hx⟩ := hnumeric
  rcases (standsFor_iff value x).mp hx with rfl | ⟨text, rfl, -⟩ <;> rfl

/-- Values that stand for numbers are compared as these. -/
theorem equals_of_standsFor {left right : Value} {x y : Float} (hleft : left.StandsFor x)
    (hright : right.StandsFor y) : left.equals right = (x == y) := by
  unfold equals
  rw [Numeric.not_boolean ⟨x, hleft⟩, Numeric.not_boolean ⟨y, hright⟩,
    show left.toNumber = .ok x from hleft, show right.toNumber = .ok y from hright]
  rfl

/-- All other values are compared part by part. -/
theorem equals_of_not_numeric {left right : Value} (hother : ¬(left.Numeric ∧ right.Numeric)) :
    left.equals right = left.same right := by
  unfold equals
  split
  · rfl
  · split
    next x y hleft hright => exact absurd ⟨⟨x, hleft⟩, ⟨y, hright⟩⟩ hother
    · rfl

/-- Values are equal if they stand for equal numbers, or stand for no numbers and are the
same. -/
theorem equals_iff (left right : Value) :
    left.equals right = true ↔
      (∃ x y, left.StandsFor x ∧ right.StandsFor y ∧ (x == y) = true) ∨
        ¬left.Numeric ∧ ¬right.Numeric ∧ left.Alike right := by
  by_cases hnumeric : left.Numeric ∧ right.Numeric
  · obtain ⟨⟨x, hx⟩, ⟨y, hy⟩⟩ := hnumeric
    rw [equals_of_standsFor hx hy]
    constructor
    · exact fun hequal => .inl ⟨x, y, hx, hy, hequal⟩
    · rintro (⟨x', y', hx', hy', hequal⟩ | ⟨hleft, -, -⟩)
      · rwa [hx.unique hx', hy.unique hy']
      · exact absurd ⟨x, hx⟩ hleft
  · rw [equals_of_not_numeric hnumeric]
    constructor
    · intro (halike : left.Alike right)
      have hleft : ¬left.Numeric := fun hleft => hnumeric ⟨hleft, halike.numeric hleft⟩
      have hright : ¬right.Numeric := fun hright => hnumeric ⟨halike.symm.numeric hright, hright⟩
      exact .inr ⟨hleft, hright, halike⟩
    · rintro (⟨x, y, hx, hy, -⟩ | ⟨-, -, halike⟩)
      · exact absurd ⟨⟨x, hx⟩, ⟨y, hy⟩⟩ hnumeric
      · exact halike

theorem equals_symm {left right : Value} (hequal : left.equals right = true) :
    right.equals left = true := by
  rw [equals_iff] at hequal ⊢
  rcases hequal with ⟨x, y, hx, hy, hxy⟩ | ⟨hleft, hright, halike⟩
  · exact .inl ⟨y, x, hy, hx, BEq.symm hxy⟩
  · exact .inr ⟨hright, hleft, halike.symm⟩

theorem equals_trans {left middle right : Value} (hfirst : left.equals middle = true)
    (hsecond : middle.equals right = true) : left.equals right = true := by
  rw [equals_iff] at hfirst hsecond ⊢
  rcases hfirst with ⟨x, y, hx, hy, hxy⟩ | ⟨hleft, hmiddle, hfirst⟩
  · rcases hsecond with ⟨y', z, hy', hz, hyz⟩ | ⟨hmiddle, -, -⟩
    · obtain rfl := hy.unique hy'
      exact .inl ⟨x, z, hx, hz, PartialEquivBEq.trans hxy hyz⟩
    · exact absurd ⟨y, hy⟩ hmiddle
  · rcases hsecond with ⟨y, _, hy, _⟩ | ⟨-, hright, hsecond⟩
    · exact absurd ⟨y, hy⟩ hmiddle
    · exact .inr ⟨hleft, hright, hfirst.trans hsecond⟩

/-- A value that stands for a number is equal to itself if the number is defined. -/
theorem StandsFor.equals_self_eq_false_iff {value : Value} {x : Float}
    (hx : value.StandsFor x) : value.equals value = false ↔ x.isNaN = true := by
  rw [equals_of_standsFor hx hx, ← Bool.not_eq_true, Number.beq_self_iff, Bool.not_eq_false]

/-- The numbers that are equal to no number make their values differ from themselves. -/
theorem equals_self_eq_false_iff (value : Value) :
    value.equals value = false ↔
      (∃ x, value.Holds x ∧ x.isNaN = true) ∨
        ∃ text x, value = .string text ∧ Number.read? text = some x ∧ x.isNaN = true := by
  by_cases hnumeric : value.Numeric
  · obtain ⟨x, hx⟩ := hnumeric
    rw [hx.equals_self_eq_false_iff]
    rcases (standsFor_iff value x).mp hx with rfl | ⟨text, rfl, hread⟩
    · simp
    · simp [hread]
  · have hread (text : String) (x : Float) (htext : value = .string text) :
        Number.read? text ≠ some x :=
      fun hread => hnumeric ⟨x, (standsFor_iff value x).mpr (.inr ⟨text, htext, hread⟩)⟩
    have hself : value.equals value = value.same value :=
      equals_of_not_numeric fun hboth => hnumeric hboth.1
    calc value.equals value = false ↔ ¬value.Alike value := by
          rw [hself, ← Bool.not_eq_true, Alike]
      _ ↔ ∃ x, value.Holds x ∧ x.isNaN = true := by
          rw [alike_self_iff]
          simp
      _ ↔ _ := by
          refine (or_iff_left ?_).symm
          rintro ⟨text, x, htext, hx, -⟩
          exact hread text x htext hx

/-- Equal values are both truth values or neither, and both stand for a number or neither. -/
theorem kinds_eq_of_equals {left right : Value} (hequal : left.equals right = true) :
    left.isBoolean = right.isBoolean ∧ (left.Numeric ↔ right.Numeric) := by
  rcases (equals_iff left right).mp hequal with ⟨x, y, hx, hy, -⟩ | ⟨hleft, hright, halike⟩
  · have hleft : left.Numeric := ⟨x, hx⟩
    have hright : right.Numeric := ⟨y, hy⟩
    exact ⟨hleft.not_boolean.trans hright.not_boolean.symm, iff_of_true hleft hright⟩
  · exact ⟨halike.isBoolean_eq, iff_of_false hleft hright⟩

/-- **Equality is a partial equivalence.**  It is symmetric and transitive over all values,
handles included.  A value differs from itself exactly if it is made of an undefined number, at
whatever depth, or is a text that spells one.  No truth value equals any other value, and no
value that stands for a number equals one that does not. -/
theorem equals_partial_equivalence (left middle right value : Value) :
    left.equals right = right.equals left ∧
      (left.equals middle = true → middle.equals right = true → left.equals right = true) ∧
      (value.equals value = false ↔
        (∃ x, value.Holds x ∧ x.isNaN = true) ∨
          ∃ text x, value = .string text ∧ Number.read? text = some x ∧ x.isNaN = true) ∧
      (left.equals right = true →
        left.isBoolean = right.isBoolean ∧ (left.Numeric ↔ right.Numeric)) :=
  ⟨Bool.eq_iff_iff.mpr ⟨equals_symm, equals_symm⟩, equals_trans, equals_self_eq_false_iff value,
    kinds_eq_of_equals⟩

/-- Two spellings of a number by way of the number, and a method of an array with an undefined
number in it. -/
theorem equals_partial_equivalence_spellings :
    (string "1.0").equals (number 1) = true ∧ (number 1).equals (string "1e0") = true ∧
      (string "1.0").equals (string "1e0") = true ∧
      (handle (.method (.ofArray [array [number (0 / 0)]] .sum))).equals
        (handle (.method (.ofArray [array [number (0 / 0)]] .sum))) = false := by
  have hfirst : (string "1.0").equals (number 1) = true := by decide +kernel
  have hsecond : (number 1).equals (string "1e0") = true := by decide +kernel
  have hholds : (handle (.method (.ofArray [array [number (0 / 0)]] .sum))).Holds (0 / 0) :=
    .inside List.mem_cons_self (.inside List.mem_cons_self (.here List.mem_cons_self))
  have hnan : (0 / 0 : Float).isNaN = true := by decide +kernel
  have hresult := equals_partial_equivalence (string "1.0") (number 1) (string "1e0")
    (handle (.method (.ofArray [array [number (0 / 0)]] .sum)))
  exact ⟨hfirst, hsecond, hresult.2.1 hfirst hsecond,
    hresult.2.2.1.mpr (.inl ⟨_, hholds, hnan⟩)⟩

end Value

end MetricScript
