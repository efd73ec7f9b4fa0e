/-!
# Cutting texts

A text can be cut at every occurrence of a character, or at every occurrence of a longer
separator from the left.  There is always at least one piece, and with the character put
back between them the pieces make up the text again.  A text can also be cut into lines,
behind the first occurrence of a separator, and at places that are counted in bytes.
-/

namespace MetricScript.Text

/-- Cuts a text at every occurrence of a character. -/
def splitMark (mark : Char) : List Char → List (List Char)
  | [] => [[]]
  | c :: rest =>
      match splitMark mark rest with
      | first :: others => if c = mark then [] :: first :: others else (c :: first) :: others
      | [] => [[c]]

/-- There is always a piece. -/
theorem splitMark_ne_nil (mark : Char) (text : List Char) : splitMark mark text ≠ [] := by
  cases text with
  | nil => simp [splitMark]
  | cons c rest =>
    unfold splitMark
    split
    · split <;> simp
    · simp

/-- The pieces with the character between them are the text. -/
theorem intercalate_splitMark (mark : Char) (text : List Char) :
    [mark].intercalate (splitMark mark text) = text := by
  induction text with
  | nil => simp [splitMark, List.intercalate]
  | cons c rest ih =>
    unfold splitMark
    split
    · next first others heq =>
      rw [heq] at ih
      split
      · next hmark =>
        subst hmark
        simpa [List.intercalate, List.intersperse] using ih
      · cases others <;> simpa [List.intercalate, List.intersperse] using ih
    · next heq => exact absurd heq (splitMark_ne_nil mark rest)

/-- Cuts a text at every occurrence of a separator that is not empty, from the left.
`skip` counts the characters of the current occurrence that are still to pass. -/
def splitSeparator (separator : List Char) (skip : Nat) : List Char → List (List Char)
  | [] => [[]]
  | c :: rest =>
      match skip with
      | skip + 1 => splitSeparator separator skip rest
      | 0 =>
          if separator.isPrefixOf (c :: rest) then
            [] :: splitSeparator separator (separator.length - 1) rest
          else
            match splitSeparator separator 0 rest with
            | first :: others => (c :: first) :: others
            | [] => [[c]]

/-- What follows the first occurrence of a separator. -/
def after? (separator : List Char) : List Char → Option (List Char)
  | [] => if separator.isEmpty then some [] else none
  | c :: rest =>
      if separator.isPrefixOf (c :: rest) then some ((c :: rest).drop separator.length)
      else after? separator rest

/-- Drops a carriage return at the end of a line. -/
def dropReturn (line : List Char) : List Char :=
  if line.getLast? = some '\r' then line.dropLast else line

/-- The lines of a text.  A line ends at a line feed, with or without a carriage return
before it; the end of the text ends a line only if something stands there. -/
def lines (text : List Char) : List (List Char) :=
  let pieces := splitMark '\n' text
  pieces.dropLast.map dropReturn ++ (pieces.getLast?.filter (!·.isEmpty)).toList

/-- The text without its first bytes, if these make up whole characters. -/
def dropBytes? : Nat → List Char → Option (List Char)
  | 0, text => some text
  | _ + 1, [] => none
  | count + 1, c :: rest =>
      if c.utf8Size ≤ count + 1 then dropBytes? (count + 1 - c.utf8Size) rest else none

/-- The first bytes of a text, if these make up whole characters. -/
def takeBytes? : Nat → List Char → Option (List Char)
  | 0, _ => some []
  | _ + 1, [] => none
  | count + 1, c :: rest =>
      if c.utf8Size ≤ count + 1 then (takeBytes? (count + 1 - c.utf8Size) rest).map (c :: ·)
      else none

/-- The first bytes and the others make up the text. -/
theorem takeBytes?_append_dropBytes? {count : Nat} {text first rest : List Char}
    (hfirst : takeBytes? count text = some first) (hrest : dropBytes? count text = some rest) :
    first ++ rest = text := by
  induction text generalizing count first with
  | nil => cases count <;> simp_all [takeBytes?, dropBytes?]
  | cons c text ih =>
    cases count with
    | zero => simp_all [takeBytes?, dropBytes?]
    | succ count =>
      simp only [takeBytes?, dropBytes?] at hfirst hrest
      split at hfirst
      · next hsize =>
        obtain ⟨part, hpart, rfl⟩ := Option.map_eq_some_iff.1 hfirst
        simp only [hsize, if_true] at hrest
        simp [ih hpart hrest]
      · simp at hfirst

/-- The part of a text between two places, which are counted in bytes. -/
def cutBytes? (first last : Nat) (text : List Char) : Option (List Char) :=
  (dropBytes? first text).bind (takeBytes? (last - first))

end MetricScript.Text
