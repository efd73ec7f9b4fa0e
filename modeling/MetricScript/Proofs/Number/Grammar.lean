import Mathlib
import MetricScript.Number.Decimal

/-!
# The grammar of numbers

`NumberText` lists the texts that stand for a number, each with its number: an optional sign,
then a name for infinity or for the undefined number in any letter case, or digits with an
optional point and an optional power of ten.  Main statement: `read?` reads exactly these texts,
each as its number.  It follows that a text has one number at most, although its sign and its
power of ten may be left out.
-/

namespace MetricScript.Number

/-! ## The grammar -/

/-- A sign, or none; `true` stands for a minus sign. -/
inductive SignText : Bool → List Char → Prop
  | minus : SignText true ['-']
  | plus : SignText false ['+']
  | absent : SignText false []

def Digits (run : List Char) : Prop := ∀ c ∈ run, isDigit c = true

/-- A power of ten, or none: a mark, then digits with an optional sign. -/
inductive Power : Int → List Char → Prop
  | absent : Power 0 []
  | marked {mark : Char} {negative : Bool} {sign run : List Char} (hmark : mark = 'e' ∨ mark = 'E')
      (hsign : SignText negative sign) (hrun : Digits run) (hne : run ≠ []) :
      Power (if negative then -(digitsValue run : Int) else digitsValue run)
        (mark :: (sign ++ run))

/-- Digits behind a point, or neither. -/
inductive Fraction : List Char → List Char → Prop
  | absent : Fraction [] []
  | point {run : List Char} (hrun : Digits run) : Fraction run ('.' :: run)

/-- A decimal has a digit before its point or behind it. -/
inductive Decimal.Spelled : Decimal → List Char → Prop
  | mk {whole fraction behind power : List Char} {exponent : Int} (hwhole : Digits whole)
      (hfraction : Fraction fraction behind) (hne : whole ≠ [] ∨ fraction ≠ [])
      (hpower : Power exponent power) :
      Decimal.Spelled ⟨whole, fraction, exponent⟩ (whole ++ (behind ++ power))

/-- A number without a sign. -/
inductive Magnitude : Float → List Char → Prop
  | decimal {decimal : Decimal} {text : List Char} (hdecimal : decimal.Spelled text) :
      Magnitude decimal.value text
  | infinity {text : List Char} (hname : text.map lowerAscii = "inf".toList ∨
      text.map lowerAscii = "infinity".toList) : Magnitude infinity text
  | undefined {text : List Char} (hname : text.map lowerAscii = "nan".toList) :
      Magnitude undefined text

inductive NumberText : Float → List Char → Prop
  | mk {negative : Bool} {value : Float} {sign text : List Char} (hsign : SignText negative sign)
      (hvalue : Magnitude value text) :
      NumberText (if negative then -value else value) (sign ++ text)

/-! ## Runs and signs -/

theorem takeWhile_dropWhile_append {keep : Char → Bool} {run rest : List Char}
    (hrun : ∀ c ∈ run, keep c = true) (hrest : ∀ c ∈ rest.head?, keep c = false) :
    (run ++ rest).takeWhile keep = run ∧ (run ++ rest).dropWhile keep = rest := by
  rw [List.takeWhile_append_of_pos hrun, List.dropWhile_append_of_pos hrun]
  cases rest with
  | nil => simp
  | cons c rest => simp [hrest c rfl]

theorem eq_false_of_head?_dropWhile {keep : Char → Bool} {text : List Char} :
    ∀ c ∈ (text.dropWhile keep).head?, keep c = false := by
  intro c hc
  have hhead := List.head?_dropWhile_not keep text
  rwa [Option.mem_def.1 hc] at hhead

theorem digits_takeWhile (text : List Char) : Digits (text.takeWhile isDigit) :=
  fun _ hmem => List.mem_takeWhile_imp hmem

/-- A text that does not begin with a sign. -/
def Bare (text : List Char) : Prop := ∀ c ∈ text.head?, c ≠ '-' ∧ c ≠ '+'

theorem Digits.bare {run : List Char} (hrun : Digits run) : Bare run := by
  intro c hc
  have hdigit := hrun c (List.mem_of_mem_head? hc)
  constructor <;> rintro rfl <;> exact absurd hdigit (by decide)

theorem splitSign_append {negative : Bool} {sign rest : List Char} (hsign : SignText negative sign)
    (hrest : Bare rest) : splitSign (sign ++ rest) = (negative, rest) := by
  cases hsign with
  | minus | plus => rfl
  | absent =>
    rw [List.nil_append, splitSign.eq_def]
    split
    · exact absurd rfl (hrest _ rfl).1
    · exact absurd rfl (hrest _ rfl).2
    · rfl

theorem sign_of_splitSign (text : List Char) :
    ∃ sign, SignText (splitSign text).1 sign ∧ text = sign ++ (splitSign text).2 := by
  unfold splitSign
  split
  · exact ⟨_, .minus, rfl⟩
  · exact ⟨_, .plus, rfl⟩
  · exact ⟨_, .absent, rfl⟩

/-! ## Powers and decimals -/

/-- The exponent reader accepts exactly the powers of the grammar. -/
theorem readExponent?_eq_some_iff {text : List Char} {exponent : Int} :
    readExponent? text = some exponent ↔ Power exponent text := by
  constructor
  · intro hread
    cases text with
    | nil =>
      obtain rfl := Option.some.inj hread
      exact .absent
    | cons mark text =>
      obtain ⟨sign, hsign, htext⟩ := sign_of_splitSign text
      rw [readExponent?] at hread
      generalize splitSign text = parts at hread hsign htext
      split at hread
      · next hmark =>
        dsimp only at hread
        split at hread
        · cases hread
        · next hdigits =>
          obtain rfl := Option.some.inj hread
          simp only [Bool.or_eq_true, Bool.not_eq_true', not_or, Bool.not_eq_true,
            Bool.not_eq_false, List.isEmpty_eq_false_iff] at hdigits
          have hpower := Power.marked (by simpa using hmark) hsign
            (List.all_eq_true.1 hdigits.2) hdigits.1
          rwa [← htext] at hpower
      · cases hread
  · intro hpower
    cases hpower with
    | absent => rfl
    | @marked mark negative sign run hmark hsign hrun hne =>
      have hdigits : (run.isEmpty || !run.all isDigit) = false := by
        simp [hne, List.all_eq_true.2 hrun]
      rw [readExponent?, if_pos (by simpa using hmark), splitSign_append hsign hrun.bare]
      simp [hdigits]

/-- A power of ten begins with its mark. -/
theorem Power.eq_of_mem_head? {exponent : Int} {text : List Char} (hpower : Power exponent text) :
    ∀ c ∈ text.head?, c = 'e' ∨ c = 'E' := by
  cases hpower with
  | absent => exact fun c hc => nomatch hc
  | marked hmark =>
    rintro c hc
    obtain rfl := Option.some.inj hc
    exact hmark

theorem Power.not_digit {exponent : Int} {text : List Char} (hpower : Power exponent text) :
    ∀ c ∈ text.head?, isDigit c = false := by
  intro c hc
  rcases hpower.eq_of_mem_head? c hc with rfl | rfl <;> decide

theorem Fraction.not_digit {fraction behind : List Char} {exponent : Int} {power : List Char}
    (hfraction : Fraction fraction behind) (hpower : Power exponent power) :
    ∀ c ∈ (behind ++ power).head?, isDigit c = false := by
  cases hfraction with
  | absent => exact hpower.not_digit
  | point =>
    intro c hc
    obtain rfl := Option.some.inj hc
    decide

/-- Whatever the decimal reader accepts is spelled as the grammar says. -/
theorem spelled_of_readDecimal? {text : List Char} {decimal : Decimal}
    (hread : readDecimal? text = some decimal) : decimal.Spelled text := by
  rw [readDecimal?] at hread
  have htext := List.takeWhile_append_dropWhile (p := isDigit) (l := text)
  have hwhole := digits_takeWhile text
  generalize text.takeWhile isDigit = whole at *
  generalize text.dropWhile isDigit = behind at *
  obtain rfl := htext
  split at hread
  next parts fraction rest hparts =>
  split at hread
  · exact nomatch hread
  next hsome =>
  obtain ⟨exponent, hexponent, rfl⟩ := Option.map_eq_some_iff.1 hread
  have hpower := readExponent?_eq_some_iff.1 hexponent
  have hne : whole ≠ [] ∨ fraction ≠ [] := by
    simpa [Decidable.or_iff_not_imp_left] using hsome
  split at hparts
  · next after =>
    obtain ⟨rfl, rfl⟩ := Prod.mk.inj hparts
    have hspelled := Decimal.Spelled.mk hwhole (.point (digits_takeWhile after)) hne hpower
    rwa [List.cons_append, List.takeWhile_append_dropWhile] at hspelled
  · obtain ⟨rfl, rfl⟩ := Prod.mk.inj hparts
    exact .mk hwhole .absent hne hpower

/-- Whatever the grammar spells, the decimal reader accepts. -/
theorem Decimal.Spelled.read {text : List Char} {decimal : Decimal}
    (hspelled : decimal.Spelled text) : readDecimal? text = some decimal := by
  obtain ⟨hwhole, hfraction, hne, hpower⟩ := hspelled
  next whole fraction behind power exponent =>
  obtain ⟨htake, hdrop⟩ := takeWhile_dropWhile_append hwhole (hfraction.not_digit hpower)
  have hsome : (whole.isEmpty && fraction.isEmpty) = false := by
    simpa [Decidable.or_iff_not_imp_left] using hne
  have hexponent := readExponent?_eq_some_iff.2 hpower
  rw [readDecimal?, htake, hdrop]
  cases hfraction with
  | absent =>
    have hwhole : whole ≠ [] := by simpa using hne
    cases power with
    | nil => simp [hwhole, hexponent]
    | cons mark rest =>
      rcases hpower.eq_of_mem_head? mark rfl with rfl | rfl <;> simp [hwhole, hexponent]
  | point hrun =>
    obtain ⟨hfront, hback⟩ := takeWhile_dropWhile_append hrun hpower.not_digit
    simp [hfront, hback, hsome, hexponent]

theorem readDecimal?_eq_some_iff {text : List Char} {decimal : Decimal} :
    readDecimal? text = some decimal ↔ decimal.Spelled text :=
  ⟨spelled_of_readDecimal?, Decimal.Spelled.read⟩

/-! ## Numbers -/

/-- A decimal begins with a digit or with its point. -/
theorem Decimal.Spelled.exists_cons {decimal : Decimal} {text : List Char}
    (hspelled : decimal.Spelled text) :
    ∃ first rest, text = first :: rest ∧ (isDigit first = true ∨ first = '.') := by
  obtain ⟨hwhole, hfraction, hne, -⟩ := hspelled
  next whole fraction behind power exponent =>
  cases whole with
  | cons first rest => exact ⟨first, _, rfl, .inl (hwhole first List.mem_cons_self)⟩
  | nil =>
    cases hfraction with
    | point => exact ⟨'.', _, rfl, .inr rfl⟩
    | absent => simp at hne

/-- Digits and the point have no case. -/
theorem lowerAscii_eq_self {c : Char} (hc : isDigit c = true ∨ c = '.') : lowerAscii c = c := by
  rcases hc with hc | rfl
  · have hle : c ≤ '9' := by simpa using (Bool.and_eq_true_iff.1 hc).2
    have hlt : ¬ 'A' ≤ c := not_le.2 (lt_of_le_of_lt hle (by decide))
    simp [lowerAscii, hlt]
  · decide

/-- Only letters are made small, so a decimal is no name. -/
theorem Decimal.Spelled.map_ne {decimal : Decimal} {text : List Char}
    (hspelled : decimal.Spelled text) {first : Char} {rest : List Char}
    (hfirst : ¬(isDigit first = true ∨ first = '.')) : text.map lowerAscii ≠ first :: rest := by
  obtain ⟨c, more, rfl, hc⟩ := hspelled.exists_cons
  rw [List.map_cons, lowerAscii_eq_self hc]
  intro heq
  exact hfirst (List.head_eq_of_cons_eq heq ▸ hc)

/-- The reader of magnitudes accepts exactly the magnitudes of the grammar. -/
theorem readUnsigned?_eq_some_iff {text : List Char} {value : Float} :
    readUnsigned? text = some value ↔ Magnitude value text := by
  constructor
  · intro hread
    rw [readUnsigned?] at hread
    split at hread
    · next found hfound =>
      obtain ⟨decimal, hdecimal, rfl⟩ := Option.map_eq_some_iff.1 hfound
      obtain rfl := Option.some.inj hread
      exact .decimal (readDecimal?_eq_some_iff.1 hdecimal)
    · dsimp only at hread
      split at hread
      · next hname =>
        rw [Bool.or_eq_true, decide_eq_true_iff, decide_eq_true_iff] at hname
        rw [← Option.some.inj hread]
        exact .infinity hname
      split at hread
      · next hname =>
        rw [← Option.some.inj hread]
        exact .undefined hname
      · exact nomatch hread
  · intro hvalue
    have hnone : ∀ {first rest}, text.map lowerAscii = first :: rest →
        ¬(isDigit first = true ∨ first = '.') → readDecimal? text = none := by
      intro first rest hname hfirst
      refine Option.eq_none_iff_forall_ne_some.2 fun decimal hdecimal => ?_
      exact (readDecimal?_eq_some_iff.1 hdecimal).map_ne hfirst hname
    rw [readUnsigned?]
    cases hvalue with
    | decimal hdecimal => rw [readDecimal?_eq_some_iff.2 hdecimal, Option.map_some]
    | infinity hname =>
      rcases hname with hname | hname <;>
        rw [hnone hname (by decide), Option.map_none] <;> dsimp only <;> rw [hname] <;> rfl
    | undefined hname =>
      rw [hnone hname (by decide), Option.map_none]
      dsimp only
      rw [hname]
      rfl

/-- No sign is a letter. -/
theorem bare_of_map {text rest : List Char} {first : Char}
    (hname : text.map lowerAscii = first :: rest) (hfirst : first ≠ '-' ∧ first ≠ '+') :
    Bare text := by
  intro c hc
  obtain ⟨more, rfl⟩ := List.head?_eq_some_iff.1 hc
  have hlower : lowerAscii c = first := List.head_eq_of_cons_eq hname
  constructor
  · rintro rfl
    exact hfirst.1 hlower.symm
  · rintro rfl
    exact hfirst.2 hlower.symm

theorem Magnitude.bare {value : Float} {text : List Char} (hvalue : Magnitude value text) :
    Bare text := by
  cases hvalue with
  | decimal hdecimal =>
    obtain ⟨first, rest, rfl, hfirst⟩ := hdecimal.exists_cons
    rintro c hc
    obtain rfl := Option.some.inj hc
    constructor <;> rintro rfl <;> exact absurd hfirst (by decide)
  | infinity hname => exact hname.elim (bare_of_map · (by decide)) (bare_of_map · (by decide))
  | undefined hname => exact bare_of_map hname (by decide)

/-- The number reader accepts exactly the numbers of the grammar. -/
theorem read?_eq_some_iff {text : String} {value : Float} :
    read? text = some value ↔ NumberText value text.toList := by
  rw [read?]
  constructor
  · intro hread
    obtain ⟨sign, hsign, htext⟩ := sign_of_splitSign text.toList
    generalize splitSign text.toList = parts at hread hsign htext
    obtain ⟨magnitude, hmagnitude, rfl⟩ := Option.map_eq_some_iff.1 hread
    rw [htext]
    exact .mk hsign (readUnsigned?_eq_some_iff.1 hmagnitude)
  · generalize text.toList = chars
    rintro ⟨hsign, hvalue⟩
    rw [splitSign_append hsign hvalue.bare]
    simp [readUnsigned?_eq_some_iff.2 hvalue]

end MetricScript.Number
