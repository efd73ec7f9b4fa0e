import Mathlib
import MetricScript.Series.Interval
import MetricScript.Proofs.Number.Grammar
import MetricScript.Proofs.Number.Value
import MetricScript.Proofs.Results
import MetricScript.Proofs.Series.Rounding

/-!
# The grammar of intervals

An interval is a number of seconds, or a row of items: amounts, each with a unit behind it.  One
pass of the reader takes the longest run of digits and points, and then everything up to the
next such run.  So it takes one item and goes on with a shorter text, or it refuses the text.
Main statement: `read` accepts the numbers and the rows of items whose seconds are at least zero
and below `2 ^ 64`, and rounds them to nanoseconds.  A text has one row of items at most.
-/

namespace MetricScript.Duration

open MetricScript.Number (isDigit Decimal Digits NumberText Unsigned binary? read?_eq_some_iff)

/-! ## Items -/

inductive TimeUnit where
  | milliseconds
  | seconds
  | minutes
  | hours
  | days
  | weeks
deriving DecidableEq

namespace TimeUnit

def name : TimeUnit → String
  | milliseconds => "ms"
  | seconds => "s"
  | minutes => "m"
  | hours => "h"
  | days => "d"
  | weeks => "w"

def scale : TimeUnit → Float
  | milliseconds => 0.001
  | seconds => 1.0
  | minutes => 60.0
  | hours => 3600.0
  | days => 86400.0
  | weeks => 604800.0

theorem name_injective : Function.Injective name := by
  intro unit other
  cases unit <;> cases other <;> decide

theorem name_ne_nil (unit : TimeUnit) : unit.name.toList ≠ [] := by cases unit <;> decide

theorem not_amountChar (unit : TimeUnit) : ∀ c ∈ unit.name.toList, isAmountChar c = false := by
  cases unit <;> simp [name, isAmountChar, Number.isDigit]

theorem isProper_scale (unit : TimeUnit) :
    Number.isProper unit.scale.toModel.unpack = true := by
  cases unit <;> decide +kernel

theorem unitSeconds?_name (unit : TimeUnit) : unitSeconds? unit.name = some unit.scale := by
  cases unit <;> rfl

/-- Only the names of time units have a scale. -/
theorem exists_of_unitSeconds? {name : String} {scale : Float}
    (hname : unitSeconds? name = some scale) :
    ∃ unit : TimeUnit, unit.name = name ∧ unit.scale = scale := by
  unfold unitSeconds? at hname
  split at hname
  · exact ⟨milliseconds, rfl, Option.some.inj hname⟩
  · exact ⟨seconds, rfl, Option.some.inj hname⟩
  · exact ⟨minutes, rfl, Option.some.inj hname⟩
  · exact ⟨hours, rfl, Option.some.inj hname⟩
  · exact ⟨days, rfl, Option.some.inj hname⟩
  · exact ⟨weeks, rfl, Option.some.inj hname⟩
  · exact nomatch hname

end TimeUnit

/-- A run of digits and points, with at least one digit and at most one point. -/
@[ext]
structure Amount where
  text : List Char
  run : ∀ c ∈ text, isAmountChar c = true
  digit : ∃ c ∈ text, isDigit c = true
  points : text.count '.' ≤ 1

/-- The number that an amount is read as: the digits before the point, and those behind it. -/
def Amount.decimal (amount : Amount) : Decimal :=
  ⟨amount.text.takeWhile isDigit, (amount.text.dropWhile isDigit).tail, 0⟩

/-- An amount with its unit. -/
structure Item where
  amount : Amount
  unit : TimeUnit

def Item.text (item : Item) : List Char := item.amount.text ++ item.unit.name.toList

def Item.seconds (item : Item) : Float := item.amount.decimal.value * item.unit.scale

def textOf (items : List Item) : List Char := items.flatMap Item.text

/-- Some seconds and the ones of the items, added up from the left. -/
def sum (seconds : Float) (items : List Item) : Float :=
  items.foldl (fun seconds item => seconds + item.seconds) seconds

/-! ## Amounts -/

theorem isAmountChar_iff {c : Char} : isAmountChar c = true ↔ isDigit c = true ∨ c = '.' := by
  simp [isAmountChar]

/-- What comes behind the first digits is nothing, or the point and more digits. -/
theorem Amount.spelled (amount : Amount) : amount.decimal.Spelled amount.text := by
  obtain ⟨text, hrun, hdigit, hpoints⟩ := amount
  have htext := List.takeWhile_append_dropWhile (p := isDigit) (l := text)
  have hwhole := Number.digits_takeWhile text
  have hstop := @Number.eq_false_of_head?_dropWhile isDigit text
  unfold Amount.decimal
  dsimp only
  generalize text.takeWhile isDigit = whole at *
  generalize text.dropWhile isDigit = behind at *
  obtain rfl := htext
  cases behind with
  | nil =>
    obtain ⟨c, hc, -⟩ := hdigit
    have hne : whole ≠ [] := by
      rintro rfl
      exact nomatch hc
    exact .mk hwhole .absent (.inl hne) .absent
  | cons point fraction =>
    have hnumber : ∀ c ∈ whole ++ point :: fraction, isDigit c = true ∨ c = '.' :=
      fun c hc => isAmountChar_iff.1 (hrun c hc)
    obtain rfl : point = '.' := (hnumber point (by simp)).resolve_left (by simp [hstop point rfl])
    have hlast : fraction.count '.' = 0 := by
      rw [List.count_append, List.count_cons_self] at hpoints
      omega
    have hfraction : Digits fraction := fun c hc =>
      (hnumber c (by simp [hc])).resolve_right fun heq =>
        List.count_eq_zero.1 hlast (heq ▸ hc)
    have hne : whole ≠ [] ∨ fraction ≠ [] := by
      obtain ⟨c, hc, hcdigit⟩ := hdigit
      by_contra hnone
      simp only [not_or, not_not] at hnone
      obtain ⟨rfl, rfl⟩ := hnone
      obtain rfl : c = '.' := by simpa using hc
      exact absurd hcdigit (by decide)
    have hspelled := Decimal.Spelled.mk hwhole (.point hfraction) hne .absent
    rwa [List.append_nil] at hspelled

theorem Amount.read? (amount : Amount) :
    Number.read? (String.ofList amount.text) = some amount.decimal.value := by
  rw [read?_eq_some_iff, String.toList_ofList]
  exact .mk .absent (.decimal amount.spelled)

theorem count_digits {run : List Char} (hrun : Digits run) : run.count '.' = 0 :=
  List.count_eq_zero.2 fun hmem => absurd (hrun '.' hmem) (by decide)

/-- A decimal without a power of ten is made of digits and of one point at most. -/
theorem digit_and_points {whole fraction behind : List Char} (hwhole : Digits whole)
    (hfraction : Number.Fraction fraction behind) (hne : whole ≠ [] ∨ fraction ≠ []) :
    (∃ c ∈ whole ++ behind, isDigit c = true) ∧ (whole ++ behind).count '.' ≤ 1 := by
  have hsome : ∀ {run}, Digits run → run ≠ [] → ∃ c ∈ run, isDigit c = true := by
    intro run hrun hne
    obtain ⟨c, hc⟩ := List.exists_mem_of_ne_nil run hne
    exact ⟨c, hc, hrun c hc⟩
  rw [List.count_append, count_digits hwhole]
  cases hfraction with
  | absent =>
    obtain ⟨c, hc, hdigit⟩ := hsome hwhole (hne.resolve_right (not_not.2 rfl))
    exact ⟨⟨c, List.mem_append_left _ hc, hdigit⟩, by simp⟩
  | point hrun =>
    rw [List.count_cons_self, count_digits hrun]
    refine ⟨?_, le_rfl⟩
    rcases hne with hne | hne
    · obtain ⟨c, hc, hdigit⟩ := hsome hwhole hne
      exact ⟨c, List.mem_append_left _ hc, hdigit⟩
    · obtain ⟨c, hc, hdigit⟩ := hsome hrun hne
      exact ⟨c, List.mem_append_right _ (List.mem_cons_of_mem _ hc), hdigit⟩

/-- Signs, marks and the letters of names are no part of an amount. -/
theorem exists_amount {text : List Char} (hrun : ∀ c ∈ text, isAmountChar c = true) {value : Float}
    (hread : Number.read? (String.ofList text) = some value) :
    ∃ amount : Amount, amount.text = text ∧ amount.decimal.value = value := by
  suffices hamount : ∃ amount : Amount, amount.text = text by
    obtain ⟨amount, rfl⟩ := hamount
    exact ⟨amount, rfl, Option.some.inj (amount.read?.symm.trans hread)⟩
  rw [read?_eq_some_iff, String.toList_ofList] at hread
  obtain ⟨hsign, hvalue⟩ := hread
  next negative value sign magnitude =>
  obtain rfl : sign = [] := by
    cases hsign with
    | minus | plus => exact absurd (hrun _ List.mem_cons_self) (by decide)
    | absent => rfl
  rw [List.nil_append] at hrun ⊢
  have hsame : magnitude.map Number.lowerAscii = magnitude :=
    (List.map_congr_left fun c hc => Number.lowerAscii_eq_self
      (isAmountChar_iff.1 (hrun c hc))).trans (List.map_id' magnitude)
  cases hvalue with
  | infinity hname =>
    rw [hsame] at hname
    rcases hname with rfl | rfl <;> exact absurd (hrun 'i' (by simp)) (by decide)
  | undefined hname =>
    obtain rfl := hsame.symm.trans hname
    exact absurd (hrun 'n' (by simp)) (by decide)
  | decimal hdecimal =>
    obtain ⟨hwhole, hfraction, hne, hpower⟩ := hdecimal
    next whole fraction behind power exponent =>
    cases hpower with
    | @marked mark _ _ _ hmark =>
      have hchar := hrun mark (by simp)
      rcases hmark with rfl | rfl <;> exact absurd hchar (by decide)
    | absent =>
      rw [List.append_nil] at hrun ⊢
      obtain ⟨hdigit, hpoints⟩ := digit_and_points hwhole hfraction hne
      exact ⟨⟨_, hrun, hdigit, hpoints⟩, rfl⟩

/-! ## One pass -/

/-- A text that is empty or goes on with an amount. -/
def AtAmount (text : List Char) : Prop := ∀ c ∈ text.head?, isAmountChar c = true

theorem AtAmount.splitItems {rest : List Char} (hrest : AtAmount rest) :
    ∀ item ∈ (splitItems rest).head?, item.1 ≠ [] := by
  cases rest with
  | nil => exact fun item hitem => nomatch hitem
  | cons c rest =>
    have hc : isAmountChar c = true := hrest c rfl
    intro item hitem
    rw [Duration.splitItems] at hitem
    split at hitem <;> · rw [if_pos hc] at hitem; cases hitem; exact List.cons_ne_nil _ _

/-- A unit ends where the next amount begins. -/
theorem splitItems_unit {unit rest : List Char} (hunit : ∀ c ∈ unit, isAmountChar c = false)
    (hne : unit ≠ []) (hrest : AtAmount rest) :
    splitItems (unit ++ rest) = ([], unit) :: splitItems rest := by
  induction unit with
  | nil => exact absurd rfl hne
  | cons c unit ih =>
    obtain ⟨hc, hunit⟩ := List.forall_mem_cons.1 hunit
    cases unit with
    | nil =>
      have hfirst := hrest.splitItems
      rw [List.singleton_append, splitItems]
      cases hsplit : splitItems rest with
      | nil => simp [hc]
      | cons item items =>
        obtain ⟨amount, other⟩ := item
        have hamount : amount ≠ [] := hfirst (amount, other) (by rw [hsplit]; rfl)
        simp [hc, hamount]
    | cons next unit =>
      rw [List.cons_append, splitItems, ih hunit (List.cons_ne_nil _ _)]
      simp [hc]

theorem splitItems_append {amount unit rest : List Char}
    (hamount : ∀ c ∈ amount, isAmountChar c = true) (hunit : ∀ c ∈ unit, isAmountChar c = false)
    (hne : unit ≠ []) (hrest : AtAmount rest) :
    splitItems (amount ++ (unit ++ rest)) = (amount, unit) :: splitItems rest := by
  induction amount with
  | nil => exact splitItems_unit hunit hne hrest
  | cons c amount ih =>
    obtain ⟨hc, hamount⟩ := List.forall_mem_cons.1 hamount
    rw [List.cons_append, splitItems, ih hamount]
    simp [hc]

/-- An amount without a unit can only be the last one. -/
theorem splitItems_amount {text : List Char} (hne : text ≠ [])
    (hrun : ∀ c ∈ text, isAmountChar c = true) : splitItems text = [(text, [])] := by
  induction text with
  | nil => exact absurd rfl hne
  | cons c rest ih =>
    obtain ⟨hc, hrun⟩ := List.forall_mem_cons.1 hrun
    cases rest with
    | nil => simp [splitItems, hc]
    | cons next rest =>
      rw [splitItems, ih (List.cons_ne_nil _ _) hrun]
      simp [hc]

theorem Item.text_ne_nil (item : Item) : item.text ≠ [] :=
  List.append_ne_nil_of_right_ne_nil _ item.unit.name_ne_nil

theorem splitItems_item (item : Item) {rest : List Char} (hrest : AtAmount rest) :
    splitItems (item.text ++ rest) =
      (item.amount.text, item.unit.name.toList) :: splitItems rest := by
  rw [Item.text, List.append_assoc]
  exact splitItems_append item.amount.run item.unit.not_amountChar item.unit.name_ne_nil hrest

section Sums

variable {source : String} {text : List Char} {seconds result : Float}

theorem sumItems_item (item : Item) (pieces : List (List Char × List Char)) :
    sumItems source seconds ((item.amount.text, item.unit.name.toList) :: pieces) =
      sumItems source (seconds + item.seconds) pieces := by
  rw [sumItems, item.amount.read?]
  dsimp only
  rw [String.ofList_toList, item.unit.unitSeconds?_name]
  rfl

/-- What one pass cuts off: a run of digits and points, and then everything up to the next such
run.  Nothing is left behind a run without a unit. -/
theorem exists_cut (text : List Char) :
    ∃ amount unit rest, text = amount ++ (unit ++ rest) ∧
      (∀ c ∈ amount, isAmountChar c = true) ∧ (∀ c ∈ unit, isAmountChar c = false) ∧
        AtAmount rest ∧ (unit = [] → rest = []) := by
  have hbehind := List.takeWhile_append_dropWhile (p := fun c => !isAmountChar c)
    (l := text.dropWhile isAmountChar)
  have hunit : ∀ c ∈ (text.dropWhile isAmountChar).takeWhile fun c => !isAmountChar c,
      isAmountChar c = false := fun c hc => by simpa using List.mem_takeWhile_imp hc
  have hrest : AtAmount ((text.dropWhile isAmountChar).dropWhile fun c => !isAmountChar c) :=
    fun c hc => by simpa using Number.eq_false_of_head?_dropWhile c hc
  generalize (text.dropWhile isAmountChar).takeWhile (fun c => !isAmountChar c) = unit at *
  generalize (text.dropWhile isAmountChar).dropWhile (fun c => !isAmountChar c) = rest at *
  refine ⟨text.takeWhile isAmountChar, unit, rest, ?_, fun c hc => List.mem_takeWhile_imp hc,
    hunit, hrest, ?_⟩
  · rw [hbehind, List.takeWhile_append_dropWhile]
  · rintro rfl
    rw [List.nil_append] at hbehind
    cases rest with
    | nil => rfl
    | cons c rest =>
      have hstop : isAmountChar c = false :=
        Number.eq_false_of_head?_dropWhile c (by rw [← hbehind]; rfl)
      exact absurd (hrest c rfl) (by simp [hstop])

/-- One pass takes an item from the front, or the text is refused. -/
theorem exists_item_of_sumItems (hne : text ≠ [])
    (hsum : sumItems source seconds (splitItems text) = .ok result) :
    ∃ (item : Item) (rest : List Char), text = item.text ++ rest ∧ AtAmount rest ∧
      sumItems source (seconds + item.seconds) (splitItems rest) = .ok result := by
  obtain ⟨amount, unit, rest, rfl, hamount, hunit, hrest, hlast⟩ := exists_cut text
  by_cases hnone : unit = []
  · obtain rfl := hlast hnone
    obtain rfl := hnone
    simp only [List.append_nil] at hne hsum
    rw [splitItems_amount hne hamount, sumItems] at hsum
    split at hsum <;> exact nomatch hsum
  · rw [splitItems_append hamount hunit hnone hrest, sumItems] at hsum
    split at hsum
    · exact nomatch hsum
    next factor hfactor =>
    split at hsum
    · exact nomatch hsum
    next scale hscale =>
    obtain ⟨amount, rfl, rfl⟩ := exists_amount hamount hfactor
    obtain ⟨unit, hname, rfl⟩ := TimeUnit.exists_of_unitSeconds? hscale
    refine ⟨⟨amount, unit⟩, rest, ?_, hrest, hsum⟩
    rw [Item.text, hname, String.toList_ofList, List.append_assoc]

/-! ## All passes -/

theorem atAmount_textOf (items : List Item) : AtAmount (textOf items) := by
  cases items with
  | nil => exact fun c hc => nomatch hc
  | cons item items =>
    intro c hc
    obtain ⟨first, hfirst, -⟩ := item.amount.digit
    have hne := List.ne_nil_of_mem hfirst
    rw [textOf, List.flatMap_cons, Item.text, List.append_assoc,
      List.head?_append_of_ne_nil _ hne] at hc
    exact item.amount.run c (List.mem_of_mem_head? hc)

theorem splitItems_textOf (items : List Item) :
    splitItems (textOf items) =
      items.map fun item => (item.amount.text, item.unit.name.toList) := by
  induction items with
  | nil => rfl
  | cons item items ih =>
    rw [textOf, List.flatMap_cons, ← textOf, splitItems_item item (atAmount_textOf items), ih,
      List.map_cons]

/-- A text has one row of items at most. -/
theorem textOf_injective : Function.Injective textOf := by
  intro items others htext
  have hpieces := congrArg splitItems htext
  rw [splitItems_textOf, splitItems_textOf] at hpieces
  refine List.map_injective_iff.2 (fun item other hitem => ?_) hpieces
  obtain ⟨amount, unit⟩ := item
  obtain ⟨hamount, hunit⟩ := Prod.mk.inj hitem
  exact Item.mk.injEq .. ▸ ⟨Amount.ext hamount, TimeUnit.name_injective (String.toList_inj.1 hunit)⟩

/-- Summing up the pieces of a text gives what some items that spell the text sum up to. -/
theorem sumItems_splitItems_iff :
    sumItems source seconds (splitItems text) = .ok result ↔
      ∃ items, textOf items = text ∧ sum seconds items = result := by
  constructor
  · intro hsum
    -- Each pass leaves a shorter text, for no item is empty.
    induction hlength : text.length using Nat.strong_induction_on generalizing text seconds with
    | h length ih =>
    by_cases hne : text = []
    · obtain rfl := hne
      exact ⟨[], rfl, Except.ok.inj hsum⟩
    · obtain ⟨item, rest, rfl, -, hrest⟩ := exists_item_of_sumItems hne hsum
      have hshorter : rest.length < length := by
        have hpos := List.length_pos_of_ne_nil item.text_ne_nil
        rw [List.length_append] at hlength
        omega
      obtain ⟨items, rfl, rfl⟩ := ih rest.length hshorter hrest rfl
      exact ⟨item :: items, rfl, rfl⟩
  · rintro ⟨items, rfl, rfl⟩
    rw [splitItems_textOf]
    induction items generalizing seconds with
    | nil => rfl
    | cons item items ih => exact (sumItems_item item _).trans ih

end Sums

/-- A sum of items has no sign bit, and so it is not below zero. -/
theorem unsigned_sum {seconds : Float} (hseconds : Unsigned seconds.toModel.unpack)
    (items : List Item) : Unsigned (sum seconds items).toModel.unpack := by
  induction items generalizing seconds with
  | nil => exact hseconds
  | cons item items ih =>
    have hitem : Unsigned item.seconds.toModel.unpack :=
      Number.unsigned_pack (Number.unsigned_mul_div (Number.unsigned_value _)
        item.unit.isProper_scale).1
    exact ih (Number.unsigned_pack (Number.unsigned_add hseconds hitem))

/-! ## Intervals -/

/-- The texts that stand for a length of time.  A number whose seconds are out of range is not
read as a row of items instead. -/
inductive IntervalText : Duration → List Char → Prop
  | number {duration : Duration} {text : List Char} {seconds : Float} {number : Number.Binary}
      (htext : NumberText seconds text) (hfinite : binary? seconds = some number)
      (hleast : 0 ≤ number.value) (hmost : number.value < 2 ^ 64)
      (hrounds : duration.Rounds number.value) : IntervalText duration text
  | items {duration : Duration} {text : List Char} {items : List Item} {number : Number.Binary}
      (hother : ∀ seconds, ¬NumberText seconds text) (hne : items ≠ [])
      (htext : textOf items = text) (hfinite : binary? (sum 0.0 items) = some number)
      (hmost : number.value < 2 ^ 64)
      (hrounds : duration.Rounds number.value) : IntervalText duration text

/-- A number stands for its seconds, if they are in range. -/
theorem intervalText_iff_of_number {duration : Duration} {text : List Char} {seconds : Float}
    (htext : NumberText seconds text) (honly : ∀ other, NumberText other text → other = seconds) :
    IntervalText duration text ↔ (seconds.isFinite = true ∧ ¬seconds < 0.0) ∧
      ofSeconds? seconds = some duration := by
  rw [ofSeconds?_eq_some_iff]
  constructor
  · intro hinterval
    cases hinterval with
    | items hother => exact absurd htext (hother _)
    | number hnumber hfinite hleast hmost hrounds =>
      obtain rfl := honly _ hnumber
      refine ⟨⟨?_, mt (Number.lt_zero_iff hfinite).1 (not_lt.2 hleast)⟩, _, hfinite, hleast, hmost,
        hrounds⟩
      by_contra hinfinite
      rw [Bool.not_eq_true, ← Number.binary?_eq_none_iff, hfinite] at hinfinite
      exact nomatch hinfinite
  · rintro ⟨-, number, hfinite, hleast, hmost, hrounds⟩
    exact .number htext hfinite hleast hmost hrounds

/-- Any other text is a row of items, whose sum is not below zero. -/
theorem intervalText_iff_of_items {duration : Duration} {text : List Char} {source : String}
    (hother : ∀ seconds, ¬NumberText seconds text) :
    IntervalText duration text ↔ text ≠ [] ∧
      ∃ seconds, sumItems source 0.0 (splitItems text) = .ok seconds ∧
        ofSeconds? seconds = some duration := by
  constructor
  · intro hinterval
    cases hinterval with
    | number hnumber => exact absurd hnumber (hother _)
    | @items items number _ hne htext hfinite hmost hrounds =>
      have hleast : 0 ≤ number.value :=
        Number.value_nonneg_of_unsigned hfinite (unsigned_sum
          (Number.unsigned_ofScientific 0 true 1) items)
      refine ⟨?_, _, sumItems_splitItems_iff.2 ⟨items, htext, rfl⟩,
        ofSeconds?_eq_some_iff.2 ⟨number, hfinite, hleast, hmost, hrounds⟩⟩
      obtain ⟨item, items, rfl⟩ := List.exists_cons_of_ne_nil hne
      rw [← htext, textOf, List.flatMap_cons]
      exact List.append_ne_nil_of_left_ne_nil item.text_ne_nil _
  · rintro ⟨hne, seconds, hsum, hseconds⟩
    obtain ⟨items, rfl, rfl⟩ := sumItems_splitItems_iff.1 hsum
    obtain ⟨number, hfinite, -, hmost, hrounds⟩ := ofSeconds?_eq_some_iff.1 hseconds
    refine .items hother ?_ rfl hfinite hmost hrounds
    rintro rfl
    exact hne rfl

section Reading

variable {source : String} {duration : Duration}

theorem ok_of_seconds_iff {found : Except IntervalError Float} {error : IntervalError} :
    (do
      let seconds ← found
      match ofSeconds? seconds with
      | some duration => .ok duration
      | none => .error error) = .ok duration ↔
      ∃ seconds, found = .ok seconds ∧ ofSeconds? seconds = some duration := by
  cases found with
  | error other => exact iff_of_false nofun (fun ⟨_, hok, _⟩ => nomatch hok)
  | ok seconds =>
    change (match ofSeconds? seconds with
      | some duration => Except.ok duration
      | none => Except.error error) = Except.ok duration ↔ _
    cases hseconds : ofSeconds? seconds <;> simp [hseconds]

/-- A plain number is an interval of as many seconds, if it is finite and not below zero. -/
theorem read_number_iff {seconds : Float}
    (hread : Number.read? (Text.trim source) = some seconds) :
    read source = .ok duration ↔ (seconds.isFinite = true ∧ ¬seconds < 0.0) ∧
      ofSeconds? seconds = some duration := by
  unfold read
  simp only [hread]
  by_cases hrange : seconds.isFinite = true ∧ ¬seconds < 0.0
  · rw [if_neg (by simpa using hrange)]
    refine ok_of_seconds_iff.trans ?_
    simp [hrange]
  · rw [if_pos (by simpa [or_iff_not_imp_left] using hrange)]
    exact iff_of_false nofun fun ⟨hin, _⟩ => hrange hin

/-- Any other text is an interval if its items sum up to seconds that fit. -/
theorem read_items_iff (hread : Number.read? (Text.trim source) = none) :
    read source = .ok duration ↔ Text.trimList source.toList ≠ [] ∧
      ∃ seconds, sumItems (Text.trim source) 0.0 (splitItems (Text.trimList source.toList)) =
        .ok seconds ∧ ofSeconds? seconds = some duration := by
  have hlist : (Text.trim source).toList = Text.trimList source.toList := String.toList_ofList
  have hempty : (Text.trim source).isEmpty = true ↔ Text.trimList source.toList = [] := by
    rw [String.isEmpty_iff, ← hlist, String.toList_eq_nil_iff]
  unfold read
  simp only [hread, hlist]
  by_cases hne : Text.trimList source.toList = []
  · rw [if_pos (hempty.2 hne)]
    exact iff_of_false nofun fun ⟨hsome, _⟩ => hsome hne
  · rw [if_neg (mt hempty.1 hne)]
    exact ok_of_seconds_iff.trans (and_iff_right hne).symm

/-- The interval reader accepts exactly the intervals of the grammar. -/
theorem read_eq_ok_iff :
    read source = .ok duration ↔ IntervalText duration (Text.trimList source.toList) := by
  have hnumber : ∀ seconds, Number.read? (Text.trim source) = some seconds ↔
      NumberText seconds (Text.trimList source.toList) := by
    intro seconds
    rw [read?_eq_some_iff, Text.trim, String.toList_ofList]
  cases hread : Number.read? (Text.trim source) with
  | some seconds =>
    rw [read_number_iff hread, intervalText_iff_of_number ((hnumber seconds).1 hread)]
    intro other hother
    exact Option.some.inj (((hnumber other).2 hother).symm.trans hread)
  | none =>
    rw [read_items_iff hread, intervalText_iff_of_items]
    intro seconds hseconds
    exact nomatch hread.symm.trans ((hnumber seconds).2 hseconds)

end Reading

end MetricScript.Duration

namespace MetricScript

open Duration (IntervalText)

/-- The intervals are the numbers and the rows of items that stand for a length of time; any
other text is an error, and no text is two different rows of items. -/
theorem interval_read (source : String) :
    let text := Text.trimList source.toList
    (∀ duration, Duration.read source = .ok duration ↔ IntervalText duration text) ∧
      ((∃ error, Duration.read source = .error error) ↔ ∀ duration, ¬IntervalText duration text) ∧
      Function.Injective Duration.textOf := by
  intro text
  have hread : ∀ duration, Duration.read source = .ok duration ↔ IntervalText duration text :=
    fun duration => Duration.read_eq_ok_iff
  refine ⟨hread, ?_, Duration.textOf_injective⟩
  cases hresult : Duration.read source with
  | ok duration =>
    refine iff_of_false (fun ⟨_, herror⟩ => nomatch herror) fun hnone => ?_
    exact hnone duration ((hread duration).1 hresult)
  | error error =>
    refine iff_of_true ⟨error, rfl⟩ fun duration htext => ?_
    exact nomatch hresult.symm.trans ((hread duration).2 htext)

/-- The blanks at the ends do not count; a blank between two items would. -/
example : Duration.read " 1h30m " = .ok ⟨5400, 0⟩ ∧
    Duration.read "1h 30m" = .error (.unknownUnit "h " "1h 30m") := by decide +kernel

end MetricScript
